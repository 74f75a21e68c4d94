import Nicc.Ctrl.Routing

namespace Nicc.Ctrl
open Lib

inductive CompareOp
  | eq
  | ne
  | gt
  | lt
  deriving DecidableEq, Repr

def CompareOp.text : CompareOp → List Char
  | eq => ['=']
  | ne => ['!', '=']
  | gt => ['>']
  | lt => ['<']

structure FieldName (f : List Char) : Prop where
  eq : '=' ∉ f
  bang : '!' ∉ f
  gt : '>' ∉ f
  lt : '<' ∉ f

def CompareOp.Clear : CompareOp → List Char → Prop
  | eq, v => ¬ ne.text <:+: v
  | ne, _ => True
  | gt, v => '=' ∉ v
  | lt, v => '=' ∉ v ∧ '>' ∉ v

namespace PipelineRouting

theorem parseMatchCondition_field {f : List Char} (name : FieldName f) (rest : List Char) :
    parseMatchCondition (f ++ rest) = { parseMatchCondition rest with
      field := f ++ (parseMatchCondition rest).field } := by
  have before (n : Nat) : (f ++ rest).take (n + f.length) = f ++ rest.take n := by
    rw [Nat.add_comm, List.take_length_add_append]
  have behind (n k : Nat) : (f ++ rest).drop (n + f.length + k) = rest.drop (n + k) := by
    rw [Nat.add_right_comm, Nat.add_comm, List.drop_length_add_append]
  unfold parseMatchCondition
  rw [find_append name.bang, find_append name.eq, find_append name.gt, find_append name.lt]
  cases find ['!', '='] rest with
  | some n => simp only [Option.map_some, before, behind]
  | none =>
      cases find ['='] rest with
      | some n => simp only [Option.map_some, Option.map_none, before, behind]
      | none =>
          cases find ['>'] rest with
          | some n => simp only [Option.map_some, Option.map_none, before, behind]
          | none =>
              cases find ['<'] rest with
              | some n => simp only [Option.map_some, Option.map_none, before, behind]
              | none => rfl

theorem parseMatchCondition_exists {f : List Char} (name : FieldName f) :
    parseMatchCondition f = ⟨f, "exists".toList, []⟩ := by
  have parsed := parseMatchCondition_field name []
  rw [List.append_nil] at parsed
  rw [parsed]
  simp [parseMatchCondition, find]

theorem find_ne_none {v : List Char} (free : '=' ∉ v) : find ['!', '='] v = none := by
  apply find_eq_none.mpr
  intro inside
  exact free (inside.subset (by simp))

theorem parseMatchCondition_equals {text : List Char} (member : '=' ∈ text) :
    (parseMatchCondition text).operatorType ∈ [['!', '='], ['=']] := by
  obtain ⟨n, found⟩ := find_char_mem member
  unfold parseMatchCondition
  rw [found]
  cases find ['!', '='] text with
  | none => simp
  | some m => simp

theorem parseMatchCondition_greater {text : List Char} (member : '>' ∈ text) :
    (parseMatchCondition text).operatorType ∈ [['!', '='], ['='], ['>']] := by
  obtain ⟨n, found⟩ := find_char_mem member
  unfold parseMatchCondition
  rw [found]
  cases find ['!', '='] text with
  | none =>
      cases find ['='] text with
      | none => simp
      | some m => simp
  | some m => simp

section
variable (v : List Char)

theorem parseMatchCondition_ne : parseMatchCondition ('!' :: '=' :: v) = ⟨[], ['!', '='], v⟩ := by
  have first : find ['!', '='] ('!' :: '=' :: v) = some 0 := find_eq_zero.mpr (by simp)
  simp [parseMatchCondition, first]

theorem parseMatchCondition_eq_iff :
    parseMatchCondition ('=' :: v) = ⟨[], ['='], v⟩ ↔ ¬ ['!', '='] <:+: v := by
  have second : find ['='] ('=' :: v) = some 0 := find_eq_zero.mpr (by simp)
  unfold parseMatchCondition
  rw [find_cons_ne (by decide), second, ← find_eq_none]
  cases find ['!', '='] v with
  | none => simp
  | some n => simp

theorem parseMatchCondition_gt_iff :
    parseMatchCondition ('>' :: v) = ⟨[], ['>'], v⟩ ↔ '=' ∉ v := by
  constructor
  · intro parsed member
    have other := parseMatchCondition_equals (List.mem_cons_of_mem '>' member)
    simp [parsed] at other
  · intro free
    have third : find ['>'] ('>' :: v) = some 0 := find_eq_zero.mpr (by simp)
    unfold parseMatchCondition
    rw [find_cons_ne (by decide), find_cons_ne (by decide), find_ne_none free,
      find_char_eq_none free, third]
    simp

theorem parseMatchCondition_lt_iff :
    parseMatchCondition ('<' :: v) = ⟨[], ['<'], v⟩ ↔ '=' ∉ v ∧ '>' ∉ v := by
  constructor
  · intro parsed
    constructor
    · intro member
      have other := parseMatchCondition_equals (List.mem_cons_of_mem '<' member)
      simp [parsed] at other
    · intro member
      have other := parseMatchCondition_greater (List.mem_cons_of_mem '<' member)
      simp [parsed] at other
  · rintro ⟨freeEq, freeGt⟩
    have fourth : find ['<'] ('<' :: v) = some 0 := find_eq_zero.mpr (by simp)
    unfold parseMatchCondition
    rw [find_cons_ne (by decide), find_cons_ne (by decide), find_cons_ne (by decide),
      find_ne_none freeEq, find_char_eq_none freeEq, find_char_eq_none freeGt, fourth]
    simp

end

/-- The operator of the text is the one that is found, unless the value shows one that is preferred. -/
theorem splits_iff {f : List Char} (name : FieldName f) :
    parseMatchCondition f = ⟨f, "exists".toList, []⟩ ∧
      ∀ op : CompareOp, ∀ v, parseMatchCondition (f ++ op.text ++ v) = ⟨f, op.text, v⟩ ↔
        op.Clear v := by
  refine ⟨parseMatchCondition_exists name, fun op v => ?_⟩
  have bare : parseMatchCondition (f ++ op.text ++ v) = ⟨f, op.text, v⟩ ↔
      parseMatchCondition (op.text ++ v) = ⟨[], op.text, v⟩ := by
    rw [List.append_assoc, parseMatchCondition_field name]
    cases parseMatchCondition (op.text ++ v) with
    | mk field operatorType value => simp
  rw [bare]
  cases op with
  | eq => exact parseMatchCondition_eq_iff v
  | ne => exact iff_of_true (parseMatchCondition_ne v) trivial
  | gt => exact parseMatchCondition_gt_iff v
  | lt => exact parseMatchCondition_lt_iff v

theorem splits_port : parseMatchCondition "port".toList = ⟨"port".toList, "exists".toList, []⟩ ∧
    (parseMatchCondition ("port".toList ++ CompareOp.ne.text ++ "80".toList) =
      ⟨"port".toList, CompareOp.ne.text, "80".toList⟩ ↔ CompareOp.ne.Clear "80".toList) := by
  have name : FieldName "port".toList := ⟨by decide, by decide, by decide, by decide⟩
  exact ⟨(splits_iff name).1, (splits_iff name).2 .ne "80".toList⟩

theorem value_with_equals_misread :
    parseMatchCondition ("name".toList ++ CompareOp.gt.text ++ "a=b".toList) =
      ⟨"name>a".toList, CompareOp.eq.text, "b".toList⟩ ∧
    parseMatchCondition ("name".toList ++ CompareOp.gt.text ++ "a=b".toList) ≠
      ⟨"name".toList, CompareOp.gt.text, "a=b".toList⟩ := by
  decide

end PipelineRouting

end Nicc.Ctrl

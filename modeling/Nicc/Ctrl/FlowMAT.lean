import Nicc.Ctrl.Flow
import Nicc.Lib.CompareMap
import Nicc.Common

namespace Nicc.Ctrl
open Lib

structure FlowMatcher where
  matchWc : FlowWildcards

namespace FlowMatcher

/-- The constructor, whose body is empty: the pattern it gets is not kept. -/
def ofWildcards (_matchWc : FlowWildcards) : FlowMatcher := ⟨⟨Flow.zero⟩⟩

def below (a b : FlowMatcher) : Bool := Flow.below a.matchWc.masks b.matchWc.masks

end FlowMatcher

/-- Entries are named by their address. `hash` is the hash that each of them holds. -/
structure FlowMAT where
  entryMap : List (FlowMatcher × List Nat)
  hash : Nat → UInt32

namespace FlowMAT

def empty (hash : Nat → UInt32) : FlowMAT := ⟨[], hash⟩

def count (t : FlowMAT) (matcher : FlowMatcher) : Nat :=
  CompareMap.count FlowMatcher.below t.entryMap matcher

def entryList (t : FlowMAT) (matcher : FlowMatcher) : Option (List Nat) :=
  CompareMap.find FlowMatcher.below t.entryMap matcher

def pointers (entries len : Nat) : List Nat := (List.range len).map (entries + ·)

-- The hooks of the flow engine succeed. Its matcher is built by the constructor of `FlowMatcher`.
def createMatcher (t : FlowMAT) (wc : FlowWildcards) (_priority : Int) : Retval × FlowMAT :=
  if 0 < t.count (.ofWildcards wc) then (.NICC_ERROR_DUPLICATED, t)
  else
    let matcher := FlowMatcher.ofWildcards wc
    (.NICC_SUCCESS,
      { t with entryMap := CompareMap.insert FlowMatcher.below t.entryMap matcher [] })

def detoryMatcher (t : FlowMAT) (matcher : FlowMatcher) : Retval × FlowMAT :=
  if t.count matcher = 0 then (.NICC_ERROR_DUPLICATED, t)
  else
    (.NICC_SUCCESS, { t with entryMap := CompareMap.erase FlowMatcher.below t.entryMap matcher })

def loadEntries (cal : Nat → UInt32) (t : FlowMAT) (matcher : FlowMatcher) (entries len : Nat) :
    Retval × FlowMAT :=
  match t.entryList matcher with
  | none => (.NICC_ERROR_NOT_FOUND, t)
  | some entryList =>
      let pushed := entryList ++ pointers entries len
      (.NICC_SUCCESS, { t with
        entryMap := CompareMap.assign FlowMatcher.below t.entryMap matcher pushed
        hash := fun e => if e ∈ pointers entries len then cal e else t.hash e })

def unloadEntries (t : FlowMAT) (matcher : FlowMatcher) (entries len : Nat) : Retval × FlowMAT :=
  match t.entryList matcher with
  | none => (.NICC_ERROR_NOT_FOUND, t)
  | some entryList =>
      let kept := (pointers entries len).foldl (fun list e => list.filter (· ≠ e)) entryList
      (.NICC_SUCCESS, { t with
        entryMap := CompareMap.assign FlowMatcher.below t.entryMap matcher kept })

inductive Call
  | createMatcher (wc : FlowWildcards) (priority : Int)
  | detoryMatcher (wc : FlowWildcards)
  | loadEntries (wc : FlowWildcards) (entries len : Nat)
  | unloadEntries (wc : FlowWildcards) (entries len : Nat)

def Call.pattern : Call → FlowWildcards
  | createMatcher wc _ => wc
  | detoryMatcher wc => wc
  | loadEntries wc _ _ => wc
  | unloadEntries wc _ _ => wc

def step (cal : Nat → UInt32) (t : FlowMAT) : Call → Retval × FlowMAT
  | .createMatcher wc priority => t.createMatcher wc priority
  | .detoryMatcher wc => t.detoryMatcher (.ofWildcards wc)
  | .loadEntries wc entries len => t.loadEntries cal (.ofWildcards wc) entries len
  | .unloadEntries wc entries len => t.unloadEntries (.ofWildcards wc) entries len

end FlowMAT

/-- What a table is for: a finite map from patterns to entry lists. -/
abbrev RuleMap : Type := FlowWildcards → Option (List Nat)

namespace RuleMap
open FlowMAT

def step (m : RuleMap) : Call → Retval × RuleMap
  | .createMatcher wc _ =>
      match m wc with
      | some _ => (.NICC_ERROR_DUPLICATED, m)
      | none => (.NICC_SUCCESS, Function.update m wc (some []))
  | .detoryMatcher wc =>
      match m wc with
      | some _ => (.NICC_SUCCESS, Function.update m wc none)
      | none => (.NICC_ERROR_DUPLICATED, m)
  | .loadEntries wc entries len =>
      match m wc with
      | some list => (.NICC_SUCCESS, Function.update m wc (some (list ++ pointers entries len)))
      | none => (.NICC_ERROR_NOT_FOUND, m)
  | .unloadEntries wc entries len =>
      match m wc with
      | some list =>
          (.NICC_SUCCESS, Function.update m wc (some (list.filter (· ∉ pointers entries len))))
      | none => (.NICC_ERROR_NOT_FOUND, m)

end RuleMap

namespace FlowMAT

def Behaves (cal : Nat → UInt32) : FlowMAT → RuleMap → List Call → Prop
  | _, _, [] => True
  | t, m, call :: calls =>
      (t.step cal call).1 = (m.step call).1 ∧
        (∀ wc list, (m.step call).2 wc = some list →
          (t.step cal call).2.entryList (.ofWildcards wc) = some list) ∧
        Behaves cal (t.step cal call).2 (m.step call).2 calls

/-- Whenever a call is made, no matcher with another pattern is live. -/
def AloneAtCalls : RuleMap → List Call → Prop
  | _, [] => True
  | m, call :: calls =>
      (∀ wc, m wc ≠ none → wc = call.pattern) ∧ AloneAtCalls (m.step call).2 calls

inductive Agrees : FlowMAT → RuleMap → Prop
  | none (hash : Nat → UInt32) : Agrees ⟨[], hash⟩ (fun _ => Option.none)
  | one (hash : Nat → UInt32) (wc : FlowWildcards) (list : List Nat) :
      Agrees ⟨[(.ofWildcards wc, list)], hash⟩
        (Function.update (fun _ => Option.none) wc (some list))

theorem below_irrefl (matcher : FlowMatcher) : matcher.below matcher = false :=
  decide_eq_false (BitVec.lt_irrefl _)

theorem ofWildcards_equivalent (wc other : FlowWildcards) :
    CompareMap.equivalent FlowMatcher.below (.ofWildcards wc) (.ofWildcards other) = true := by
  change (!FlowMatcher.below (.ofWildcards wc) (.ofWildcards wc) &&
    !FlowMatcher.below (.ofWildcards wc) (.ofWildcards wc)) = true
  rw [below_irrefl]
  rfl

section
variable (hash : Nat → UInt32) (wc other : FlowWildcards) (list : List Nat)

theorem count_one : count ⟨[(.ofWildcards wc, list)], hash⟩ (.ofWildcards other) = 1 :=
  CompareMap.count_single (ofWildcards_equivalent wc other) list

theorem entryList_one :
    entryList ⟨[(.ofWildcards wc, list)], hash⟩ (.ofWildcards other) = some list :=
  CompareMap.find_single (ofWildcards_equivalent wc other) list

end

theorem foldl_remove (pointers list : List Nat) :
    pointers.foldl (fun list e => list.filter (· ≠ e)) list = list.filter (· ∉ pointers) := by
  induction pointers generalizing list with
  | nil => simp
  | cons pointer pointers ih =>
      rw [List.foldl_cons, ih, List.filter_filter]
      apply List.filter_congr
      intro e _
      simp [Bool.and_comm]

theorem Agrees.entryList_eq {t : FlowMAT} {m : RuleMap} (agrees : Agrees t m)
    {wc : FlowWildcards} {list : List Nat} (live : m wc = some list) :
    t.entryList (.ofWildcards wc) = some list := by
  cases agrees with
  | none hash => cases live
  | one hash owner kept =>
      by_cases same : wc = owner
      · subst same
        rw [Function.update_self] at live
        rw [entryList_one, live]
      · rw [Function.update_of_ne same] at live
        cases live

variable (cal : Nat → UInt32)

theorem Agrees.step {t : FlowMAT} {m : RuleMap} (agrees : Agrees t m) {call : Call}
    (alone : ∀ wc, m wc ≠ Option.none → wc = call.pattern) :
    (t.step cal call).1 = (m.step call).1 ∧ Agrees (t.step cal call).2 (m.step call).2 := by
  cases agrees with
  | none hash =>
      cases call with
      | createMatcher wc priority => exact ⟨rfl, .one hash wc []⟩
      | detoryMatcher wc => exact ⟨rfl, .none hash⟩
      | loadEntries wc entries len => exact ⟨rfl, .none hash⟩
      | unloadEntries wc entries len => exact ⟨rfl, .none hash⟩
  | one hash owner list =>
      have owned : owner = call.pattern := by
        apply alone
        rw [Function.update_self]
        exact Option.some_ne_none list
      subst owned
      cases call with
      | createMatcher wc priority =>
          simp only [FlowMAT.step, createMatcher, RuleMap.step, Call.pattern, count_one,
            Function.update_self, zero_lt_one, if_true, true_and]
          exact .one hash wc list
      | detoryMatcher wc =>
          simp only [FlowMAT.step, detoryMatcher, RuleMap.step, Call.pattern, count_one,
            Function.update_self, one_ne_zero, if_false, true_and, Function.update_idem,
            CompareMap.erase_single (ofWildcards_equivalent wc wc)]
          rw [Function.update_eq_self_iff.mpr rfl]
          exact .none hash
      | loadEntries wc entries len =>
          simp only [FlowMAT.step, loadEntries, RuleMap.step, Call.pattern, entryList_one,
            Function.update_self, true_and, Function.update_idem,
            CompareMap.assign_single (ofWildcards_equivalent wc wc)]
          exact .one _ wc _
      | unloadEntries wc entries len =>
          simp only [FlowMAT.step, unloadEntries, RuleMap.step, Call.pattern, entryList_one,
            Function.update_self, true_and, Function.update_idem, foldl_remove,
            CompareMap.assign_single (ofWildcards_equivalent wc wc)]
          exact .one hash wc _

theorem Agrees.confused {t : FlowMAT} {m : RuleMap} (agrees : Agrees t m) {call : Call}
    {wc : FlowWildcards} (live : m wc ≠ Option.none) (differs : wc ≠ call.pattern) :
    (t.step cal call).1 ≠ (m.step call).1 := by
  cases agrees with
  | none hash => exact absurd rfl live
  | one hash owner list =>
      have owned : wc = owner := by
        by_contra other
        exact live (Function.update_of_ne other _ _)
      subst owned
      have absent : Function.update (fun _ => Option.none) wc (some list) call.pattern =
          Option.none := Function.update_of_ne differs.symm _ _
      cases call with
      | createMatcher other priority =>
          simp only [Call.pattern] at absent
          simp [FlowMAT.step, createMatcher, RuleMap.step, count_one, absent]
      | detoryMatcher other =>
          simp only [Call.pattern] at absent
          simp [FlowMAT.step, detoryMatcher, RuleMap.step, count_one, absent]
      | loadEntries other entries len =>
          simp only [Call.pattern] at absent
          simp [FlowMAT.step, loadEntries, RuleMap.step, entryList_one, absent]
      | unloadEntries other entries len =>
          simp only [Call.pattern] at absent
          simp [FlowMAT.step, unloadEntries, RuleMap.step, entryList_one, absent]

theorem Agrees.behaves_alone_iff {t : FlowMAT} {m : RuleMap} (agrees : Agrees t m) (calls : List Call) :
    Behaves cal t m calls ↔ AloneAtCalls m calls := by
  induction calls generalizing t m with
  | nil => exact Iff.rfl
  | cons call calls ih =>
      rw [Behaves, AloneAtCalls]
      constructor
      · rintro ⟨answered, lists, rest⟩
        have alone : ∀ wc, m wc ≠ Option.none → wc = call.pattern := by
          intro wc live
          by_contra differs
          exact agrees.confused cal live differs answered
        exact ⟨alone, (ih (agrees.step cal alone).2).mp rest⟩
      · rintro ⟨alone, rest⟩
        obtain ⟨answered, agreesNext⟩ := agrees.step cal alone
        exact ⟨answered, fun _ _ live => agreesNext.entryList_eq live, (ih agreesNext).mpr rest⟩

theorem behaves_iff (hash : Nat → UInt32) (calls : List Call) :
    Behaves cal (empty hash) (fun _ => none) calls ↔ AloneAtCalls (fun _ => none) calls :=
  (Agrees.none hash).behaves_alone_iff cal calls

theorem second_duplicated :
    ¬ Behaves (fun _ => 0) (empty fun _ => 0) (fun _ => none)
      [.createMatcher (.only .tpDst 0xffff) 0, .createMatcher (.only .tpSrc 0xffff) 0] := by
  intro behaves
  obtain ⟨-, alone, -⟩ := ((Agrees.none fun _ => 0).behaves_alone_iff _ _).mp behaves
  have same := alone (.only .tpDst 0xffff) (by simp [RuleMap.step])
  exact absurd same (by decide)

end FlowMAT

end Nicc.Ctrl

import Mathlib.Algebra.Group.Int.Defs
import Mathlib.Algebra.Group.Nat.Defs
import Nicc.Lib.Run
import Mathlib.Data.List.TakeWhile

namespace Nicc.Lib

def getline (delim : Char) (text : List Char) : Option (List Char × List Char) :=
  if text = [] then none
  else some (text.takeWhile (· ≠ delim), (text.dropWhile (· ≠ delim)).drop 1)

/-- What repeated calls of `getline` read until one fails. -/
def lines (delim : Char) : List Char → List (List Char)
  | [] => []
  | c :: text =>
      if c = delim then [] :: lines delim text
      else match lines delim text with
        | [] => [[c]]
        | line :: rest => (c :: line) :: rest

theorem lines_getline (delim : Char) (text : List Char) :
    lines delim text = match getline delim text with
      | none => []
      | some (line, rest) => line :: lines delim rest := by
  induction text with
  | nil => rfl
  | cons c text ih =>
      by_cases same : c = delim
      · simp [lines, getline, same]
      · rw [lines, if_neg same, ih]
        cases text with
        | nil => simp [getline, same, lines]
        | cons d text => simp [getline, same]

theorem takeWhile_append_delim {delim : Char} {line : List Char} (free : delim ∉ line)
    (rest : List Char) : (line ++ delim :: rest).takeWhile (· ≠ delim) = line := by
  rw [List.takeWhile_append_of_pos]
  · simp
  · intro c member
    simpa using fun same : c = delim => free (same ▸ member)

theorem dropWhile_append_delim {delim : Char} {line : List Char} (free : delim ∉ line)
    (rest : List Char) : (line ++ delim :: rest).dropWhile (· ≠ delim) = delim :: rest := by
  rw [List.dropWhile_append_of_pos]
  · simp
  · intro c member
    simpa using fun same : c = delim => free (same ▸ member)

theorem getline_append {delim : Char} {line : List Char} (free : delim ∉ line) (rest : List Char) :
    getline delim (line ++ delim :: rest) = some (line, rest) := by
  rw [getline, if_neg (by simp), takeWhile_append_delim free, dropWhile_append_delim free]
  rfl

theorem getline_last {delim : Char} {line : List Char} (free : delim ∉ line) :
    (getline delim line).getD ([], []) = (line, []) := by
  have all : ∀ c ∈ line, (decide (c ≠ delim)) = true := by
    intro c member
    simpa using fun same : c = delim => free (same ▸ member)
  rw [getline]
  split_ifs with empty
  · rw [empty]
    rfl
  · rw [List.takeWhile_eq_self_iff.mpr all, List.dropWhile_eq_nil_iff.mpr all]
    rfl

theorem lines_append {delim : Char} {line : List Char} (free : delim ∉ line) (rest : List Char) :
    lines delim (line ++ delim :: rest) = line :: lines delim rest := by
  rw [lines_getline, getline_append free]

theorem lines_last {delim : Char} {line : List Char} (nonempty : line ≠ []) (free : delim ∉ line) :
    lines delim line = [line] := by
  have last := getline_last free
  rw [lines_getline]
  rw [getline, if_neg nonempty, Option.getD_some] at last
  rw [getline, if_neg nonempty, last]
  rfl

/-- What `getline` reads of a text that was cut off: whole parts, and a piece of the part that the
cut goes through. -/
theorem lines_prefix {delim : Char} {parts : List (List Char)} {last text : List Char}
    (whole : ∀ part ∈ parts, part ≠ [] ∧ delim ∉ part) (freeLast : delim ∉ last)
    (cut : text <+: parts.flatMap (· ++ [delim]) ++ last)
    (strict : text ≠ parts.flatMap (· ++ [delim]) ++ last) :
    ∀ line ∈ lines delim text,
      line ≠ [] ∧ ((∃ part ∈ parts, line <+: part) ∨ (line <+: last ∧ line ≠ last)) := by
  have single : ∀ {piece part line : List Char}, piece <+: part → delim ∉ part →
      line ∈ lines delim piece → line = piece ∧ line ≠ [] := by
    intro piece part line before apart member
    by_cases empty : piece = []
    · rw [empty] at member
      cases member
    · rw [lines_last empty fun inside => apart (before.subset inside)] at member
      obtain rfl := List.mem_singleton.mp member
      exact ⟨rfl, empty⟩
  induction parts generalizing text with
  | nil =>
      intro line member
      rw [List.flatMap_nil, List.nil_append] at cut strict
      obtain ⟨rfl, nonempty⟩ := single cut freeLast member
      exact ⟨nonempty, .inr ⟨cut, strict⟩⟩
  | cons part parts ih =>
      intro line member
      have shape : (part :: parts).flatMap (· ++ [delim]) ++ last =
          part ++ delim :: (parts.flatMap (· ++ [delim]) ++ last) := by simp
      rw [shape] at cut strict
      obtain ⟨nonempty, freePart⟩ := whole part List.mem_cons_self
      rcases Nat.lt_or_ge part.length text.length with past | inside
      · obtain ⟨behind, rfl⟩ := List.prefix_of_prefix_length_le (List.prefix_append _ _) cut past.le
        have behindCut := (List.prefix_append_right_inj part).mp cut
        cases behind with
        | nil => simp at past
        | cons c behind =>
            obtain ⟨rfl, later⟩ := List.cons_prefix_cons.mp behindCut
            rw [lines_append freePart] at member
            rcases List.mem_cons.mp member with rfl | further
            · exact ⟨nonempty, .inl ⟨line, List.mem_cons_self, List.prefix_rfl⟩⟩
            · obtain ⟨filled, place⟩ := ih (fun t there => whole t (List.mem_cons_of_mem _ there))
                later (fun same => strict (by rw [same])) line further
              refine ⟨filled, place.imp_left ?_⟩
              rintro ⟨t, there, before⟩
              exact ⟨t, List.mem_cons_of_mem _ there, before⟩
      · have before := List.prefix_of_prefix_length_le cut (List.prefix_append _ _) inside
        obtain ⟨rfl, filled⟩ := single before freePart member
        exact ⟨filled, .inl ⟨part, List.mem_cons_self, before⟩⟩

def decimal (n : Nat) : List Char := Nat.toDigits 10 n

inductive StoiError
  | invalidArgument
  | outOfRange
  deriving DecidableEq, Repr

def isSpace (c : Char) : Bool :=
  c = ' ' ∨ c = '\t' ∨ c = '\n' ∨ c = '\x0b' ∨ c = '\x0c' ∨ c = '\r'

def stoi (text : List Char) : Except StoiError Int :=
  let text := text.dropWhile isSpace
  let negative := text.head? = some '-'
  let text := if text.head? = some '-' ∨ text.head? = some '+' then text.drop 1 else text
  let digits := text.takeWhile Char.isDigit
  if digits = [] then .error .invalidArgument
  else
    let magnitude : Int := Nat.ofDigitChars 10 digits 0
    let value := if negative then -magnitude else magnitude
    if value < -2 ^ 31 ∨ 2 ^ 31 ≤ value then .error .outOfRange else .ok value

theorem isDigit_of_mem_decimal {n : Nat} {c : Char} (member : c ∈ decimal n) : c.isDigit = true :=
  Nat.isDigit_of_mem_toDigits (by decide) (by decide) member

theorem decimal_ne_nil (n : Nat) : decimal n ≠ [] := Nat.toDigits_ne_nil

theorem not_mem_decimal {n : Nat} {c : Char} (other : c.isDigit = false) : c ∉ decimal n := by
  intro member
  rw [isDigit_of_mem_decimal member] at other
  cases other

theorem isSpace_of_isDigit {c : Char} (digit : c.isDigit = true) : isSpace c = false := by
  rw [isSpace, decide_eq_false_iff_not]
  rintro (rfl | rfl | rfl | rfl | rfl | rfl) <;> cases digit

theorem stoi_digits {text : List Char} (nonempty : text ≠ [])
    (digits : ∀ c ∈ text, c.isDigit = true) :
    stoi text = if Nat.ofDigitChars 10 text 0 < 2 ^ 31 then .ok (Nat.ofDigitChars 10 text 0 : Int)
      else .error .outOfRange := by
  obtain ⟨c, rest, rfl⟩ := List.exists_cons_of_ne_nil nonempty
  have first : c.isDigit = true := digits c (by simp)
  have noSpace : (c :: rest).dropWhile isSpace = c :: rest :=
    List.dropWhile_cons_of_neg (by rw [isSpace_of_isDigit first]; exact Bool.false_ne_true)
  have noMinus : c ≠ '-' := by
    rintro rfl
    cases first
  have noPlus : c ≠ '+' := by
    rintro rfl
    cases first
  have whole : (c :: rest).takeWhile Char.isDigit = c :: rest := List.takeWhile_eq_self_iff.mpr digits
  simp only [stoi, noSpace, List.head?_cons, Option.some.injEq, noMinus, noPlus, or_self, if_false,
    whole, nonempty]
  generalize Nat.ofDigitChars 10 (c :: rest) 0 = n
  split_ifs
  · omega
  · rfl
  · rfl
  · omega

theorem stoi_decimal (n : Nat) :
    stoi (decimal n) = if n < 2 ^ 31 then .ok (n : Int) else .error .outOfRange := by
  rw [stoi_digits (decimal_ne_nil n) fun c member => isDigit_of_mem_decimal member, decimal,
    Nat.ofDigitChars_ten_toDigits]

theorem ofDigitChars_cut {n : Nat} {text : List Char} (cut : text <+: decimal n)
    (strict : text ≠ decimal n) : 10 * Nat.ofDigitChars 10 text 0 ≤ n := by
  obtain ⟨rest, whole⟩ := cut
  have value : Nat.ofDigitChars 10 (text ++ rest) 0 = n := by
    rw [whole, decimal, Nat.ofDigitChars_ten_toDigits]
  rw [Nat.ofDigitChars_append, Nat.ofDigitChars_eq_ofDigitChars_zero] at value
  have more : rest ≠ [] := by
    rintro rfl
    exact strict (by rw [← whole, List.append_nil])
  have power : 10 ^ 1 ≤ 10 ^ rest.length :=
    Nat.pow_le_pow_right (by omega) (List.length_pos_iff.mpr more)
  calc 10 * Nat.ofDigitChars 10 text 0
      ≤ 10 ^ rest.length * Nat.ofDigitChars 10 text 0 := Nat.mul_le_mul_right _ (by simpa using power)
    _ ≤ n := by omega

theorem stoi_cut {n : Nat} {text : List Char} (width : n < 2 ^ 32) (nonempty : text ≠ [])
    (cut : text <+: decimal n) :
    stoi text = if text = decimal n ∧ 2 ^ 31 ≤ n then .error .outOfRange
      else .ok (Nat.ofDigitChars 10 text 0 : Int) := by
  rw [stoi_digits nonempty fun c member => isDigit_of_mem_decimal (cut.subset member)]
  by_cases whole : text = decimal n
  · have value : Nat.ofDigitChars 10 text 0 = n := by
      rw [whole, decimal, Nat.ofDigitChars_ten_toDigits]
    rw [value]
    split_ifs <;> grind
  · have small := ofDigitChars_cut cut whole
    rw [if_pos (by omega), if_neg fun both => whole both.1]

/-- The number that `strtol` reads before it looks at its range. -/
def scanNumber (text : List Char) : Option Int :=
  let text := text.dropWhile isSpace
  let negative := text.head? = some '-'
  let text := if text.head? = some '-' ∨ text.head? = some '+' then text.drop 1 else text
  let digits := text.takeWhile Char.isDigit
  if digits = [] then none
  else
    let magnitude : Int := Nat.ofDigitChars 10 digits 0
    some (if negative then -magnitude else magnitude)

theorem stoi_eq_scanNumber (text : List Char) :
    stoi text = match scanNumber text with
      | none => .error .invalidArgument
      | some value => if value < -2 ^ 31 ∨ 2 ^ 31 ≤ value then .error .outOfRange else .ok value := by
  simp only [stoi, scanNumber]
  generalize text.dropWhile isSpace = text
  generalize (if text.head? = some '-' ∨ text.head? = some '+' then text.drop 1
    else text).takeWhile Char.isDigit = digits
  by_cases empty : digits = []
  · rw [if_pos empty, if_pos empty]
  · rw [if_neg empty, if_neg empty]

/-- A sign is read, and negates the number modulo `2 ^ 64`. -/
def stoul (text : List Char) : Except StoiError UInt64 :=
  match scanNumber text with
  | none => .error .invalidArgument
  | some value => if 2 ^ 64 ≤ value.natAbs then .error .outOfRange else .ok (UInt64.ofInt value)

theorem stoi_ok_iff {text : List Char} {value : Int} :
    stoi text = .ok value ↔ scanNumber text = some value ∧ -2 ^ 31 ≤ value ∧ value < 2 ^ 31 := by
  rw [stoi_eq_scanNumber]
  cases scanNumber text with
  | none => simp
  | some number =>
      simp only [Option.some.injEq]
      split_ifs with outside
      · constructor
        · intro impossible
          cases impossible
        · rintro ⟨rfl, inside⟩
          omega
      · rw [Except.ok.injEq]
        constructor
        · rintro rfl
          exact ⟨rfl, by omega⟩
        · exact And.left

theorem stoul_ok_iff {text : List Char} {value : UInt64} :
    stoul text = .ok value ↔
      ∃ number, scanNumber text = some number ∧ number.natAbs < 2 ^ 64 ∧
        UInt64.ofInt number = value := by
  unfold stoul
  cases scanNumber text with
  | none => simp
  | some number =>
      simp only [Option.some.injEq, exists_eq_left']
      split_ifs with outside
      · have large : ¬ number.natAbs < 2 ^ 64 := not_lt.mpr outside
        simp only [large, false_and]
      · have fits : number.natAbs < 2 ^ 64 := not_le.mp outside
        simp only [Except.ok.injEq, fits, true_and]

def find (pattern : List Char) : List Char → Option Nat
  | [] => if pattern = [] then some 0 else none
  | c :: text => if pattern <+: c :: text then some 0 else (find pattern text).map (· + 1)

def findFrom (pattern : List Char) (position : Nat) (text : List Char) : Option Nat :=
  (find pattern (text.drop position)).map (position + ·)

theorem find_char_append {c : Char} {text : List Char} (free : c ∉ text) (rest : List Char) :
    find [c] (text ++ c :: rest) = some text.length := by
  induction text with
  | nil => simp [find]
  | cons d text ih =>
      have other : c ≠ d := fun same => free (same ▸ List.mem_cons_self)
      have later := ih fun member => free (List.mem_cons_of_mem d member)
      simp [find, other, later]

theorem find_char_eq_none {c : Char} {text : List Char} (free : c ∉ text) :
    find [c] text = none := by
  induction text with
  | nil => simp [find]
  | cons d text ih =>
      have other : c ≠ d := fun same => free (same ▸ List.mem_cons_self)
      have later := ih fun member => free (List.mem_cons_of_mem d member)
      simp [find, other, later]

theorem find_char_mem {c : Char} {text : List Char} (member : c ∈ text) :
    ∃ n, find [c] text = some n := by
  obtain ⟨before, after, rfl, free⟩ := List.eq_append_cons_of_mem member
  exact ⟨before.length, find_char_append free after⟩

theorem findFrom_char_append {c : Char} {text : List Char} (free : c ∉ text)
    (before rest : List Char) :
    findFrom [c] before.length (before ++ text ++ c :: rest) = some (before ++ text).length := by
  rw [findFrom, List.append_assoc, List.drop_left, find_char_append free, Option.map_some,
    List.length_append]

theorem find_char_split {c : Char} {text : List Char} {position : Nat}
    (found : find [c] text = some position) :
    text = text.take position ++ c :: text.drop (position + 1) := by
  induction text generalizing position with
  | nil => cases found
  | cons d text ih =>
      rw [find] at found
      split_ifs at found with first
      · cases found
        obtain ⟨rest, whole⟩ := first
        cases whole
        rfl
      · obtain ⟨later, foundLater, rfl⟩ := Option.map_eq_some_iff.mp found
        have rest := ih foundLater
        rw [List.take_succ_cons, List.drop_succ_cons, List.cons_append, ← rest]

theorem find_eq_none {pattern text : List Char} :
    find pattern text = none ↔ ¬ pattern <:+: text := by
  induction text with
  | nil => by_cases empty : pattern = [] <;> simp [find, empty]
  | cons c text ih =>
      rw [find, List.infix_cons_iff]
      by_cases first : pattern <+: c :: text
      · simp [first]
      · simp [first, ih]

theorem find_append {c : Char} {text : List Char} (free : c ∉ text) (pattern rest : List Char) :
    find (c :: pattern) (text ++ rest) = (find (c :: pattern) rest).map (· + text.length) := by
  induction text with
  | nil => simp
  | cons d text ih =>
      have other : c ≠ d := fun same => free (same ▸ List.mem_cons_self)
      have later := ih fun member => free (List.mem_cons_of_mem d member)
      rw [List.cons_append, find, if_neg (by simp [other]), later, Option.map_map]
      congr 1

theorem find_cons_ne {c d : Char} (other : c ≠ d) (pattern rest : List Char) :
    find (c :: pattern) (d :: rest) = (find (c :: pattern) rest).map (· + 1) := by
  have free : c ∉ [d] := by simpa using other
  exact find_append free pattern rest

theorem find_eq_zero {pattern text : List Char} : find pattern text = some 0 ↔ pattern <+: text := by
  cases text with
  | nil => simp [find]
  | cons c text =>
      rw [find]
      split_ifs with first
      · simp [first]
      · simp [first]

end Nicc.Lib

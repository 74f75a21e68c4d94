import Mathlib.Data.List.Basic
import Mathlib.Order.Lattice

/-!
# Maps over a comparison

`std::map` with a comparison that its user wrote. Two keys of which neither is below the other are
one key, whether they are equal or not.
-/

namespace Nicc.Lib.CompareMap

variable {K V : Type*} (below : K → K → Bool)

def equivalent (a b : K) : Bool := !below a b && !below b a

def count (entries : List (K × V)) (key : K) : Nat :=
  entries.countP fun e => equivalent below e.1 key

def find (entries : List (K × V)) (key : K) : Option V :=
  (entries.find? fun e => equivalent below e.1 key).map Prod.snd

def insert : List (K × V) → K → V → List (K × V)
  | [], key, value => [(key, value)]
  | (k, v) :: rest, key, value =>
      if below key k then (key, value) :: (k, v) :: rest
      else if below k key then (k, v) :: insert rest key value
      else (k, v) :: rest

def assign (entries : List (K × V)) (key : K) (value : V) : List (K × V) :=
  entries.map fun e => if equivalent below e.1 key then (e.1, value) else e

def erase (entries : List (K × V)) (key : K) : List (K × V) :=
  entries.filter fun e => !equivalent below e.1 key

variable {below}

theorem count_insert (irrefl : ∀ k, below k k = false) {entries : List (K × V)} {key : K}
    (absent : count below entries key = 0) (value : V) :
    count below (insert below entries key value) key = 1 := by
  have same : equivalent below key key = true := by simp [equivalent, irrefl]
  induction entries with
  | nil => simp [insert, count, same]
  | cons e rest ih =>
      obtain ⟨k, v⟩ := e
      have other : equivalent below k key = false := by
        by_contra equal
        simp [count, equal] at absent
      have passed (tail : List (K × V)) : count below ((k, v) :: tail) key = count below tail key :=
        List.countP_cons_of_neg (by simp [other])
      rw [passed] at absent
      rw [insert]
      split_ifs with first second
      · have found : count below ((key, value) :: (k, v) :: rest) key =
            count below ((k, v) :: rest) key + 1 := List.countP_cons_of_pos same
        rw [found, passed, absent]
      · rw [passed]
        exact ih absent
      · simp [equivalent, first, second] at other

section
variable {k key : K} (same : equivalent below k key = true)
include same

theorem count_single (v : V) : count below [(k, v)] key = 1 := by
  simp [count, same]

theorem find_single (v : V) : find below [(k, v)] key = some v := by
  simp [find, same]

theorem assign_single (v value : V) : assign below [(k, v)] key value = [(k, value)] := by
  simp [assign, same]

theorem erase_single (v : V) : erase below [(k, v)] key = [] := by
  simp [erase, same]

end

/-- The comparison makes two keys one exactly when the equality does, here for `a` against `b`, and
orders them otherwise. -/
structure Consistent (V : Type*) (below above equals : K → K → Bool) (a b c : K) : Prop where
  exactlyOne : (below a b = true ∧ equals a b = false ∧ below b a = false) ∨
    (below a b = false ∧ equals a b = true ∧ below b a = false) ∨
    (below a b = false ∧ equals a b = false ∧ below b a = true)
  converse : above a b = true ↔ below b a = true
  transitive : below a b = true → below b c = true → below a c = true
  identified : ∀ (entries : List (K × V)) (value : V), count below entries b = 0 →
    (count below (insert below entries a value) b = 1 ↔ equals a b = true)

section
variable {L : Type*} [LinearOrder L] {key : K → L}
  (ordered : ∀ x y, below x y = decide (key x < key y))
include ordered

theorem equivalent_key (x y : K) : equivalent below x y = decide (key x = key y) := by
  rw [equivalent, ordered, ordered]
  rcases lt_trichotomy (key x) (key y) with less | same | more
  · simp [less, less.ne]
  · simp [same]
  · simp [more, more.ne']

theorem count_insert_key {entries : List (K × V)} {a b : K} (absent : count below entries b = 0)
    (value : V) : count below (insert below entries a value) b = 1 ↔ key a = key b := by
  have alone (k : K) (v : V) (rest : List (K × V)) :
      count below ((k, v) :: rest) b = count below rest b + if key k = key b then 1 else 0 := by
    rw [count, List.countP_cons, equivalent_key ordered]
    simp [count]
  induction entries with
  | nil => simp [insert, count, equivalent_key ordered]
  | cons e rest ih =>
      obtain ⟨k, v⟩ := e
      have missing := absent
      rw [alone] at missing
      have other : key k ≠ key b := by
        intro same
        simp [same] at missing
      rw [insert]
      split_ifs with first second
      · rw [alone, absent]
        simp
      · rw [alone, if_neg other, Nat.add_zero]
        exact ih (Nat.eq_zero_of_add_eq_zero_right missing)
      · have same : key a = key k := by
          rw [ordered, decide_eq_true_iff] at first second
          exact le_antisymm (not_lt.mp second) (not_lt.mp first)
        rw [absent, same]
        simp [other]

theorem consistent_iff [Inhabited V] {above equals : K → K → Bool}
    (converse : ∀ x y, above x y = decide (key y < key x))
    (equality : ∀ x y, equals x y = true ↔ x = y) (a b c : K) :
    Consistent V below above equals a b c ↔ (key a = key b → a = b) := by
  constructor
  · intro consistent same
    have absent : count below ([] : List (K × V)) b = 0 := rfl
    have found := (count_insert_key ordered absent default).mpr same
    exact (equality a b).mp ((consistent.identified [] default absent).mp found)
  · intro separated
    have equal : equals a b = true ↔ key a = key b := by
      rw [equality]
      exact ⟨congrArg key, separated⟩
    constructor
    case exactlyOne =>
      simp only [← Bool.not_eq_true, equal, ordered, decide_eq_true_iff]
      rcases lt_trichotomy (key a) (key b) with less | same | more
      · exact Or.inl ⟨less, less.ne, less.asymm⟩
      · exact Or.inr (Or.inl ⟨same.not_lt, same, same.not_gt⟩)
      · exact Or.inr (Or.inr ⟨more.asymm, more.ne', more⟩)
    case converse => rw [converse, ordered]
    case transitive =>
      simp only [ordered, decide_eq_true_iff]
      exact lt_trans
    case identified =>
      intro entries value absent
      rw [count_insert_key ordered absent, equal]

end

end Nicc.Lib.CompareMap

import Nicc.Lib.Run
import Mathlib.Algebra.Group.Nat.Defs
import Mathlib.Order.Lattice

/-!
# Loops with a counter of a fixed width

`for (i = 0; i < items.size(); i++)`, where `i` wraps around at `2 ^ w`. Such a loop ends only where
the counter can hold the number of items.
-/

namespace Nicc.Lib

universe v
variable {α ε : Type*} {σ : Type v} {w : Nat}

/-- The result comes with the counters at which the body ran. No result means that the fuel is
used up. -/
def countedLoop (visit : σ → α → Except ε σ) (items : List α) :
    Nat → BitVec w → σ → List Nat → Option (Except ε (σ × List Nat))
  | 0, _, _, _ => none
  | fuel + 1, i, s, visited =>
      match items[i.toNat]? with
      | none => some (.ok (s, visited))
      | some item =>
          match visit s item with
          | .error e => some (.error e)
          | .ok t => countedLoop visit items fuel (i + 1) t (visited ++ [i.toNat])

section
variable {visit : σ → α → Except ε σ} {items : List α}

theorem countedLoop_done {i : BitVec w} (past : items.length ≤ i.toNat) (fuel : Nat) (s : σ)
    (visited : List Nat) :
    countedLoop visit items (fuel + 1) i s visited = some (.ok (s, visited)) := by
  rw [countedLoop, List.getElem?_eq_none past]

theorem countedLoop_next {i : BitVec w} {item : α} {s t : σ} (there : items[i.toNat]? = some item)
    (ran : visit s item = .ok t) (fuel : Nat) (visited : List Nat) :
    countedLoop visit items (fuel + 1) i s visited =
      countedLoop visit items fuel (i + 1) t (visited ++ [i.toNat]) := by
  rw [countedLoop, there]
  dsimp only
  rw [ran]

theorem countedLoop_from (small : items.length < 2 ^ w) {left i : Nat}
    (position : i + left = items.length) {s t : σ} (ran : run visit s (items.drop i) = .ok t)
    (visited : List Nat) :
    countedLoop visit items (left + 1) (BitVec.ofNat w i) s visited =
      some (.ok (t, visited ++ List.range' i left)) := by
  have counter {j : Nat} (bound : j ≤ items.length) : (BitVec.ofNat w j).toNat = j := by
    rw [BitVec.toNat_ofNat]
    exact Nat.mod_eq_of_lt (bound.trans_lt small)
  induction left generalizing i s visited with
  | zero =>
      rw [List.drop_eq_nil_of_le (by omega)] at ran
      cases ran
      rw [countedLoop_done (by rw [counter (by omega)]; omega)]
      simp
  | succ left ih =>
      have inside : i < items.length := by omega
      rw [List.drop_eq_getElem_cons inside] at ran
      obtain ⟨u, first, rest⟩ := run_cons_ok.mp ran
      have there : items[(BitVec.ofNat w i).toNat]? = some items[i] := by
        rw [counter (Nat.le_of_lt inside)]
        exact List.getElem?_eq_getElem inside
      have next : BitVec.ofNat w i + 1 = BitVec.ofNat w (i + 1) := (BitVec.ofNat_add ..).symm
      rw [countedLoop_next there first, next, counter (Nat.le_of_lt inside), ih (by omega) rest,
        List.append_assoc]
      rfl

theorem countedLoop_ends (small : items.length < 2 ^ w) {s t : σ} (ran : run visit s items = .ok t) :
    countedLoop visit items (items.length + 1) (0 : BitVec w) s [] =
      some (.ok (t, List.range items.length)) := by
  have whole := countedLoop_from small (Nat.zero_add items.length) ran []
  rw [List.nil_append, ← List.range_eq_range'] at whole
  exact whole

theorem countedLoop_forever (large : 2 ^ w ≤ items.length)
    (total : ∀ s, ∀ item ∈ items, ∃ t, visit s item = .ok t) (fuel : Nat) (i : BitVec w) (s : σ)
    (visited : List Nat) : countedLoop visit items fuel i s visited = none := by
  induction fuel generalizing i s visited with
  | zero => rfl
  | succ fuel ih =>
      have inside : i.toNat < items.length := i.isLt.trans_le large
      have there := List.getElem?_eq_getElem inside
      obtain ⟨t, ran⟩ := total s _ (List.getElem_mem inside)
      rw [countedLoop_next there ran]
      exact ih (i + 1) t _

end

end Nicc.Lib

import Mathlib.Data.List.Nodup
import Mathlib.Data.List.Range
import Mathlib.Data.Nat.ModEq
import Mathlib.Logic.Function.Basic

/-!
# Rings addressed by absolute positions

A ring of `n` slots keeps position `k` of an unbounded sequence in slot `k % n`. A `Window` says
which positions are still stored. Pushing and popping move its ends, and it never wraps.
-/

namespace Nicc.Lib

theorem position_unique {n a b : Nat} (same : a % n = b % n) (low : a ≤ b) (high : b < a + n) :
    a = b := by
  have divides : n ∣ b - a := (Nat.modEq_iff_dvd' low).mp same
  have := Nat.eq_zero_of_dvd_of_lt divides (by omega)
  omega

theorem exists_position {n i : Nat} (lo : Nat) (bound : i < n) :
    ∃ k, lo ≤ k ∧ k < lo + n ∧ k % n = i := by
  have rest : lo % n < n := Nat.mod_lt _ (by omega)
  have split : n * (lo / n) + lo % n = lo := Nat.div_add_mod lo n
  by_cases early : lo % n ≤ i
  · refine ⟨n * (lo / n) + i, by omega, by omega, ?_⟩
    rw [Nat.mul_add_mod, Nat.mod_eq_of_lt bound]
  · refine ⟨n * (lo / n + 1) + i, ?_, ?_, ?_⟩
    · rw [Nat.mul_add]; omega
    · rw [Nat.mul_add]; omega
    · rw [Nat.mul_add_mod, Nat.mod_eq_of_lt bound]

theorem masked_counter {k w : Nat} (small : k ≤ w) (c : Nat) :
    c % 2 ^ w &&& (2 ^ k - 1) = c % 2 ^ k := by
  rw [Nat.and_two_pow_sub_one_eq_mod]
  exact Nat.mod_mod_of_dvd _ (Nat.pow_dvd_pow 2 small)

def ringSlots (n start len : Nat) : List Nat := (List.range' start len).map (· % n)

@[simp] theorem ringSlots_zero (n start : Nat) : ringSlots n start 0 = [] := rfl

@[simp] theorem ringSlots_length (n start len : Nat) : (ringSlots n start len).length = len := by
  simp [ringSlots]

theorem mem_ringSlots {n start len i : Nat} :
    i ∈ ringSlots n start len ↔ ∃ k, start ≤ k ∧ k < start + len ∧ k % n = i := by
  simp [ringSlots, List.mem_range'_1, and_assoc]

@[simp] theorem ringSlots_getElem (n start len j : Nat) (bound : j < (ringSlots n start len).length) :
    (ringSlots n start len)[j] = (start + j) % n := by
  simp [ringSlots]

theorem ringSlots_nodup {n start len : Nat} (fits : len ≤ n) : (ringSlots n start len).Nodup := by
  refine (List.nodup_map_iff_inj_on List.nodup_range').mpr ?_
  intro a ha b hb same
  rw [List.mem_range'_1] at ha hb
  rcases Nat.le_total a b with le | le
  · exact position_unique same le (by omega)
  · exact (position_unique same.symm le (by omega)).symm

theorem ringSlots_eq_map (n start len : Nat) :
    ringSlots n start len = (List.range len).map fun j => (start + j) % n := by
  apply List.ext_getElem (by simp)
  intro j _ _
  simp

/-- Slot `k % n` holds the `k`-th element of the sequence `f`, for every `k` from `lo` up to `hi`. -/
def Window {α : Type*} (n : Nat) (ring f : Nat → α) (lo hi : Nat) : Prop :=
  ∀ k, lo ≤ k → k < hi → ring (k % n) = f k

namespace Window

variable {α : Type*} {n lo hi : Nat} {ring f : Nat → α}

theorem empty (n : Nat) (ring f : Nat → α) (lo : Nat) : Window n ring f lo lo :=
  fun _ low high => absurd high (Nat.not_lt.mpr low)

theorem get (window : Window n ring f lo hi) (nonempty : lo < hi) : ring (lo % n) = f lo :=
  window lo (Nat.le_refl lo) nonempty

theorem overwrite (window : Window n ring f lo hi) (room : hi < lo + n) (x : α) :
    Window n (Function.update ring (hi % n) x) f lo hi := by
  intro k low high
  have apart : k % n ≠ hi % n := fun same =>
    absurd (position_unique same (by omega) (by omega)) (by omega)
  rw [Function.update_of_ne apart]
  exact window k low high

theorem extend (window : Window n ring f lo hi) (next : ring (hi % n) = f hi) :
    Window n ring f lo (hi + 1) := by
  intro k low high
  by_cases last : k = hi
  · rw [last, next]
  · exact window k low (by omega)

theorem push (window : Window n ring f lo hi) (room : hi < lo + n) :
    Window n (Function.update ring (hi % n) (f hi)) f lo (hi + 1) :=
  (window.overwrite room (f hi)).extend (Function.update_self ..)

theorem shrink (window : Window n ring f lo hi) {lo' hi' : Nat} (low : lo ≤ lo') (high : hi' ≤ hi) :
    Window n ring f lo' hi' :=
  fun k ge lt => window k (low.trans ge) (lt.trans_le high)

theorem congr (window : Window n ring f lo hi) {g : Nat → α}
    (agree : ∀ k, lo ≤ k → k < hi → f k = g k) : Window n ring g lo hi :=
  fun k low high => (window k low high).trans (agree k low high)

end Window

end Nicc.Lib

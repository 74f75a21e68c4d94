import Mathlib.Order.CompletePartialOrder
import Mathlib.Algebra.BigOperators.Group.Finset.Piecewise
import Mathlib.Algebra.Order.BigOperators.Group.Finset
import Mathlib.Data.Finset.Interval
import Mathlib.Order.Interval.Finset.Nat
import Mathlib.Order.Interval.Set.Basic

/-!
# Blocks of memory counted by address

`coverage bs a` counts the blocks of `bs` that contain address `a`. Two lists of blocks that have
the same coverage occupy the same bytes equally often, however the memory is cut up.
-/

namespace Nicc.Lib

structure Block where
  base : Nat
  size : Nat

namespace Block

def bytes (b : Block) : Set Nat := Set.Ico b.base (b.base + b.size)

instance (b : Block) (a : Nat) : Decidable (a ∈ b.bytes) :=
  inferInstanceAs (Decidable (b.base ≤ a ∧ a < b.base + b.size))

theorem mem_bytes {b : Block} {a : Nat} : a ∈ b.bytes ↔ b.base ≤ a ∧ a < b.base + b.size := Iff.rfl

end Block

def coverage (bs : List Block) (a : Nat) : Nat := bs.countP fun b => a ∈ b.bytes

@[simp] theorem coverage_nil (a : Nat) : coverage [] a = 0 := rfl

@[simp] theorem coverage_append (bs cs : List Block) (a : Nat) :
    coverage (bs ++ cs) a = coverage bs a + coverage cs a := List.countP_append

theorem coverage_cons (b : Block) (bs : List Block) (a : Nat) :
    coverage (b :: bs) a = coverage [b] a + coverage bs a := coverage_append [b] bs a

theorem coverage_single (b : Block) (a : Nat) : coverage [b] a = if a ∈ b.bytes then 1 else 0 := by
  by_cases inside : a ∈ b.bytes <;> simp [coverage, inside]

theorem coverage_pos {bs : List Block} {a : Nat} :
    0 < coverage bs a ↔ ∃ b ∈ bs, a ∈ b.bytes := by
  simp [coverage, List.countP_pos_iff]

theorem coverage_cut (base left right a : Nat) :
    coverage [⟨base, left⟩, ⟨base + left, right⟩] a = coverage [⟨base, left + right⟩] a := by
  rw [coverage_cons, coverage_single, coverage_single, coverage_single]
  simp only [Block.mem_bytes]
  split_ifs <;> omega

theorem coverage_chunks (base size count a : Nat) :
    coverage ((List.range count).map fun i => ⟨base + i * size, size⟩) a =
      coverage [⟨base, count * size⟩] a := by
  induction count with
  | zero => simp [coverage_single, Block.mem_bytes]
  | succ n ih =>
      rw [List.range_succ, List.map_append, coverage_append, ih]
      have cut := coverage_cut base (n * size) size a
      rw [coverage_cons] at cut
      rw [Nat.add_mul, Nat.one_mul]
      exact cut

theorem disjoint_of_coverage {bs : List Block} (once : ∀ a, coverage bs a ≤ 1) :
    (bs.map Block.bytes).Pairwise Disjoint := by
  induction bs with
  | nil => exact List.Pairwise.nil
  | cons b bs ih =>
      refine List.pairwise_cons.mpr ⟨?_, ih fun a => ?_⟩
      · intro s member
        obtain ⟨c, present, rfl⟩ := List.mem_map.mp member
        refine Set.disjoint_left.mpr fun a inside inside' => ?_
        have positive := coverage_pos.mpr ⟨c, present, inside'⟩
        have := once a
        rw [coverage_cons, coverage_single, if_pos inside] at this
        omega
      · have := once a
        rw [coverage_cons] at this
        omega

theorem sum_size_le {bs : List Block} {lo hi : Nat} (once : ∀ a, coverage bs a ≤ 1)
    (inside : ∀ b ∈ bs, lo ≤ b.base ∧ b.base + b.size ≤ hi) :
    (bs.map Block.size).sum ≤ hi - lo := by
  have total : (bs.map Block.size).sum = ∑ a ∈ Finset.Ico lo hi, coverage bs a := by
    clear once
    induction bs with
    | nil => simp
    | cons b bs ih =>
        have here := inside b (by simp)
        have rest := ih fun c member => inside c (by simp [member])
        have filtered : (Finset.Ico lo hi).filter (· ∈ b.bytes) =
            Finset.Ico b.base (b.base + b.size) := by
          ext a
          simp only [Finset.mem_filter, Finset.mem_Ico, Block.mem_bytes]
          omega
        have single : ∑ a ∈ Finset.Ico lo hi, coverage [b] a = b.size := by
          simp only [coverage_single]
          rw [← Finset.card_filter, filtered, Nat.card_Ico]
          omega
        simp only [List.map_cons, List.sum_cons, coverage_cons b bs, Finset.sum_add_distrib, single,
          rest]
  calc (bs.map Block.size).sum = ∑ a ∈ Finset.Ico lo hi, coverage bs a := total
    _ ≤ ∑ _a ∈ Finset.Ico lo hi, 1 := Finset.sum_le_sum fun a _ => once a
    _ = hi - lo := by simp

theorem sum_update {β : Type*} (n : Nat) (f : Nat → β) (weight : β → Nat) {i : Nat} (bound : i < n)
    (x : β) :
    (∑ j ∈ Finset.range n, weight (Function.update f i x j)) + weight (f i) =
      (∑ j ∈ Finset.range n, weight (f j)) + weight x := by
  have member : i ∈ Finset.range n := Finset.mem_range.mpr bound
  rw [← Finset.add_sum_erase _ _ member,
    ← Finset.add_sum_erase (Finset.range n) (fun j => weight (f j)) member]
  have rest : ∑ j ∈ (Finset.range n).erase i, weight (Function.update f i x j) =
      ∑ j ∈ (Finset.range n).erase i, weight (f j) :=
    Finset.sum_congr rfl fun j other => by
      rw [Function.update_of_ne (Finset.ne_of_mem_erase other)]
  rw [rest, Function.update_self]
  omega

theorem coverage_flatMap {β : Type*} (n : Nat) (f : Nat → List β) (block : β → Block) (a : Nat) :
    coverage (((List.range n).flatMap f).map block) a =
      ∑ i ∈ Finset.range n, coverage ((f i).map block) a := by
  induction n with
  | zero => simp
  | succ n ih =>
      rw [List.range_succ, List.flatMap_append, List.map_append, coverage_append, ih,
        Finset.sum_range_succ]
      simp

end Nicc.Lib

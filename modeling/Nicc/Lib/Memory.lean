import Mathlib.Data.List.GetD
import Mathlib.Data.List.TakeDrop
import Mathlib.Data.List.Range

namespace Nicc.Lib

variable {α : Type*}

def readAt (mem : Nat → α) (addr n : Nat) : List α := (List.range n).map fun i => mem (addr + i)

def storeAt (mem : Nat → α) (addr : Nat) (cells : List α) : Nat → α := fun a =>
  if addr ≤ a then cells.getD (a - addr) (mem a) else mem a

@[simp] theorem readAt_length (mem : Nat → α) (addr n : Nat) : (readAt mem addr n).length = n := by
  simp [readAt]

@[simp] theorem readAt_getElem (mem : Nat → α) (addr n i : Nat)
    (bound : i < (readAt mem addr n).length) : (readAt mem addr n)[i] = mem (addr + i) := by
  simp [readAt]

theorem readAt_congr {mem mem' : Nat → α} {addr n : Nat}
    (same : ∀ a, addr ≤ a → a < addr + n → mem' a = mem a) : readAt mem' addr n = readAt mem addr n :=
  List.map_congr_left fun _ inside => same _ (Nat.le_add_right _ _)
    (Nat.add_lt_add_left (List.mem_range.mp inside) addr)

theorem storeAt_inside (mem : Nat → α) (addr : Nat) {cells : List α} {i : Nat}
    (bound : i < cells.length) : storeAt mem addr cells (addr + i) = cells[i] := by
  rw [storeAt, if_pos (Nat.le_add_right _ _), Nat.add_sub_cancel_left, List.getD_eq_getElem _ _ bound]

theorem storeAt_outside (mem : Nat → α) {addr : Nat} {cells : List α} {a : Nat}
    (outside : a < addr ∨ addr + cells.length ≤ a) : storeAt mem addr cells a = mem a := by
  rw [storeAt]
  split_ifs with after
  · exact List.getD_eq_default _ _ (by omega)
  · rfl

theorem storeAt_head (mem : Nat → α) (addr : Nat) (x y : α) (cells : List α) :
    storeAt (storeAt mem addr (x :: cells)) addr [y] = storeAt mem addr (y :: cells) := by
  funext a
  rcases Nat.lt_trichotomy a addr with before | rfl | after
  · rw [storeAt_outside _ (.inl before), storeAt_outside _ (.inl before),
      storeAt_outside _ (.inl before)]
  · simp [storeAt]
  · obtain ⟨i, rfl⟩ : ∃ i, a = addr + (i + 1) := ⟨a - addr - 1, by omega⟩
    rw [storeAt_outside _ (.inr (by simp))]
    simp [storeAt]

theorem readAt_storeAt_same (mem : Nat → α) (addr : Nat) (cells : List α) :
    readAt (storeAt mem addr cells) addr cells.length = cells := by
  apply List.ext_getElem (readAt_length _ _ _)
  intro i _ bound
  rw [readAt_getElem, storeAt_inside mem addr bound]

theorem readAt_storeAt (mem : Nat → α) (addr : Nat) {offset n : Nat} {cells : List α}
    (fits : offset + cells.length ≤ n) :
    readAt (storeAt mem (addr + offset) cells) addr n =
      (readAt mem addr n).take offset ++ cells ++ (readAt mem addr n).drop (offset + cells.length) := by
  apply List.ext_getElem
  · simp only [readAt_length, List.length_append, List.length_take, List.length_drop]
    omega
  · intro i low _
    rw [readAt_length] at low
    rw [readAt_getElem]
    rcases Nat.lt_or_ge i offset with before | after
    · rw [List.getElem_append_left (by simp; omega), List.getElem_append_left (by simp; omega),
        List.getElem_take, readAt_getElem, storeAt_outside mem (by omega)]
    · rcases Nat.lt_or_ge i (offset + cells.length) with inside | behind
      · rw [List.getElem_append_left (by simp; omega),
          List.getElem_append_right (by simp; omega)]
        have at_ : addr + i = addr + offset + (i - offset) := by omega
        rw [at_, storeAt_inside mem _ (by omega)]
        congr 1
        simp only [List.length_take, readAt_length]
        omega
      · rw [List.getElem_append_right (by simp; omega), List.getElem_drop, readAt_getElem,
          storeAt_outside mem (by omega)]
        congr 1
        simp only [List.length_append, List.length_take, readAt_length]
        omega

end Nicc.Lib

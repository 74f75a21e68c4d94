import Mathlib.Algebra.Group.Nat.Defs
import Mathlib.Order.Lattice
import Mathlib.Data.List.Basic

/-!
# Cyclic redundancy checks

The remainder of a message modulo a polynomial over two elements, with the most significant bit
first. A register of `w` bits holds the remainder; `P` is the polynomial without its leading term.
-/

namespace Nicc.Lib.Crc

variable {w : Nat}

def shiftBit (P c : BitVec w) : BitVec w := if c.msb then c <<< 1 ^^^ P else c <<< 1

def shiftBits (P : BitVec w) : Nat → BitVec w → BitVec w
  | 0, c => c
  | n + 1, c => shiftBits P n (shiftBit P c)

def atTop (b : BitVec 8) : BitVec w := b.setWidth w <<< (w - 8)

def feedByte (P c : BitVec w) (b : BitVec 8) : BitVec w := shiftBits P 8 (c ^^^ atTop b)

def feed (P c : BitVec w) (message : List (BitVec 8)) : BitVec w := message.foldl (feedByte P) c

theorem xor_xor_cancel (a b c : BitVec w) : (a ^^^ c) ^^^ (b ^^^ c) = a ^^^ b := by
  rw [BitVec.xor_assoc, BitVec.xor_comm b c, ← BitVec.xor_assoc c c b, BitVec.xor_self,
    BitVec.zero_xor]

theorem shiftBit_xor (P a b : BitVec w) : shiftBit P (a ^^^ b) = shiftBit P a ^^^ shiftBit P b := by
  unfold shiftBit
  rw [BitVec.msb_xor, BitVec.shiftLeft_xor_distrib]
  cases a.msb with
  | false =>
      cases b.msb with
      | false => rfl
      | true => exact BitVec.xor_assoc ..
  | true =>
      cases b.msb with
      | false =>
          change a <<< 1 ^^^ b <<< 1 ^^^ P = a <<< 1 ^^^ P ^^^ b <<< 1
          rw [BitVec.xor_assoc, BitVec.xor_comm (b <<< 1), ← BitVec.xor_assoc]
      | true => exact (xor_xor_cancel _ _ _).symm

theorem shiftBits_xor (P : BitVec w) (n : Nat) (a b : BitVec w) :
    shiftBits P n (a ^^^ b) = shiftBits P n a ^^^ shiftBits P n b := by
  induction n generalizing a b with
  | zero => rfl
  | succ n ih => rw [shiftBits, shiftBit_xor, ih]; rfl

section
variable {P : BitVec w} (odd : P.getLsbD 0 = true)
include odd

end

theorem shiftBits_clear {P c : BitVec w} {n : Nat} (clear : ∀ i, w ≤ i + n → c.getLsbD i = false) :
    shiftBits P n c = c <<< n := by
  induction n generalizing c with
  | zero => exact (BitVec.shiftLeft_zero c).symm
  | succ n ih =>
      have top : c.msb = false := by
        rw [BitVec.msb_eq_getLsbD_last]
        exact clear (w - 1) (by omega)
      rw [shiftBits, shiftBit, top, if_neg Bool.false_ne_true, ih, ← BitVec.shiftLeft_add,
        Nat.add_comm]
      intro i high
      rw [BitVec.getLsbD_shiftLeft]
      by_cases first : i < 1
      · simp [first]
      · rw [clear (i - 1) (by omega), Bool.and_false]

def place : List (BitVec 8) → BitVec w
  | [] => 0#w
  | b :: message => atTop b ^^^ place message >>> 8

theorem getLsbD_atTop (b : BitVec 8) {i : Nat} (bound : i < w) :
    (atTop b : BitVec w).getLsbD i = (!decide (i < w - 8) && b.getLsbD (i - (w - 8))) := by
  rw [atTop, BitVec.getLsbD_shiftLeft, BitVec.getLsbD_setWidth]
  simp [bound, show i - (w - 8) < w by omega]

theorem feedByte_table {P : BitVec w} {table : BitVec 8 → BitVec w}
    (reduced : ∀ b, table b = shiftBits P 8 (atTop b)) (room : 8 ≤ w) (c : BitVec w)
    (b : BitVec 8) : feedByte P c b = c <<< 8 ^^^ table ((c >>> (w - 8)).setWidth 8 ^^^ b) := by
  have parts : c ^^^ atTop b =
      atTop ((c >>> (w - 8)).setWidth 8 ^^^ b) ^^^ c <<< 8 >>> 8 := by
    apply BitVec.eq_of_getLsbD_eq
    intro i bound
    rw [BitVec.getLsbD_xor, BitVec.getLsbD_xor, getLsbD_atTop _ bound,
      getLsbD_atTop _ bound, BitVec.getLsbD_ushiftRight, BitVec.getLsbD_shiftLeft,
      BitVec.getLsbD_xor, BitVec.getLsbD_setWidth, BitVec.getLsbD_ushiftRight]
    by_cases low : i < w - 8
    · simp [low, show 8 + i < w by omega]
    · have back : w - 8 + (i - (w - 8)) = i := by omega
      simp [low, back, show ¬ 8 + i < w by omega, show i - (w - 8) < 8 by omega]
  have lower : shiftBits P 8 (c <<< 8 >>> 8) = c <<< 8 := by
    rw [shiftBits_clear]
    · apply BitVec.eq_of_getLsbD_eq
      intro i bound
      rw [BitVec.getLsbD_shiftLeft, BitVec.getLsbD_ushiftRight, BitVec.getLsbD_shiftLeft]
      by_cases low : i < 8
      · simp [low]
      · have back : 8 + (i - 8) = i := by omega
        simp only [BitVec.getLsbD_shiftLeft, low, bound, back, decide_true, decide_false,
          Bool.not_false, Bool.true_and]
    · intro i high
      rw [BitVec.getLsbD_ushiftRight]
      exact BitVec.getLsbD_of_ge _ _ (by omega)
  rw [feedByte, parts, shiftBits_xor, lower, reduced, BitVec.xor_comm]

def bits (b : BitVec 8) : List Bool := (List.range 8).map b.getMsbD

/-- The bit that falls out of the register, added to that of the message, decides. -/
def feedBit (P c : BitVec w) (bit : Bool) : BitVec w :=
  if c.msb ^^ bit then c <<< 1 ^^^ P else c <<< 1

def feedBits (P c : BitVec w) (message : List Bool) : BitVec w := message.foldl (feedBit P) c

theorem feedBit_eq (P c x : BitVec w) :
    feedBit P c x.msb = shiftBit P (c ^^^ x) ^^^ x <<< 1 := by
  rw [feedBit, shiftBit, BitVec.msb_xor, BitVec.shiftLeft_xor_distrib]
  split_ifs with out
  · rw [BitVec.xor_assoc (c <<< 1) (x <<< 1) P, BitVec.xor_comm (x <<< 1) P, ← BitVec.xor_assoc,
      BitVec.xor_assoc (c <<< 1 ^^^ P), BitVec.xor_self, BitVec.xor_zero]
  · rw [BitVec.xor_assoc, BitVec.xor_self, BitVec.xor_zero]

theorem feedBits_eq (P c x : BitVec w) (n : Nat) :
    feedBits P c ((List.range n).map x.getMsbD) = shiftBits P n (c ^^^ x) ^^^ x <<< n := by
  induction n generalizing c x with
  | zero =>
      change c = c ^^^ x ^^^ x <<< 0
      rw [BitVec.shiftLeft_zero, BitVec.xor_assoc, BitVec.xor_self, BitVec.xor_zero]
  | succ n ih =>
      have later : (List.range (n + 1)).map x.getMsbD =
          x.msb :: (List.range n).map (x <<< 1).getMsbD := by
        rw [List.range_succ_eq_map, List.map_cons, List.map_map, BitVec.msb_eq_getMsbD_zero]
        congr 1
        apply List.map_congr_left
        intro i _
        exact (BitVec.getMsbD_shiftLeft x 1).symm
      calc feedBits P c ((List.range (n + 1)).map x.getMsbD)
          = feedBits P (feedBit P c x.msb) ((List.range n).map (x <<< 1).getMsbD) := by
            rw [later]
            rfl
        _ = shiftBits P n (shiftBit P (c ^^^ x) ^^^ x <<< 1 ^^^ x <<< 1) ^^^ x <<< 1 <<< n := by
            rw [ih, feedBit_eq]
        _ = shiftBits P (n + 1) (c ^^^ x) ^^^ x <<< (n + 1) := by
            rw [BitVec.xor_assoc _ (x <<< 1), BitVec.xor_self, BitVec.xor_zero,
              ← BitVec.shiftLeft_add, Nat.add_comm 1 n]
            rfl

theorem bits_atTop (room : 8 ≤ w) (b : BitVec 8) :
    bits b = (List.range 8).map (atTop b : BitVec w).getMsbD := by
  apply List.map_congr_left
  intro i bound
  have inside : w - 8 ≤ i + (w - 8) := by omega
  have back : i + (w - 8) + 8 - w = i := by omega
  rw [atTop, BitVec.getMsbD_shiftLeft, BitVec.getMsbD_setWidth, back, decide_eq_true inside,
    Bool.true_and]

theorem feedByte_bits (room : 8 ≤ w) (P c : BitVec w) (b : BitVec 8) :
    feedByte P c b = feedBits P c (bits b) := by
  have gone : (atTop b : BitVec w) <<< 8 = 0#w := by
    rw [atTop, ← BitVec.shiftLeft_add, Nat.sub_add_cancel room]
    exact BitVec.shiftLeft_eq_zero le_rfl
  rw [bits_atTop room, feedBits_eq, gone, BitVec.xor_zero]
  rfl

theorem feed_bits (room : 8 ≤ w) (P c : BitVec w) (message : List (BitVec 8)) :
    feed P c message = feedBits P c (message.flatMap bits) := by
  induction message generalizing c with
  | nil => rfl
  | cons b message ih =>
      have later : feedBits P c ((b :: message).flatMap bits) =
          feedBits P (feedBits P c (bits b)) (message.flatMap bits) := by
        rw [List.flatMap_cons]
        exact List.foldl_append
      rw [later, ← feedByte_bits room]
      exact ih (feedByte P c b)

end Nicc.Lib.Crc

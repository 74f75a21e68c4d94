import Mathlib.Algebra.Group.Nat.Defs

namespace Nicc.Dpa

def DPA_LOG_SQ_RING_DEPTH : Nat := 7
def DPA_LOG_RQ_RING_DEPTH : Nat := 7
def DPA_LOG_WQ_DATA_ENTRY_BSIZE : Nat := 10
def DPA_LOG_WQE_BSIZE : Nat := 6

def DPA_RQ_IDX_MASK : Nat := (1 <<< DPA_LOG_RQ_RING_DEPTH) - 1
def DPA_SQ_IDX_MASK (logSqeNumSegs : Nat) : Nat :=
  (1 <<< (DPA_LOG_SQ_RING_DEPTH + logSqeNumSegs)) - 1
def DPA_DATA_IDX_MASK : Nat := (1 <<< DPA_LOG_SQ_RING_DEPTH) - 1

def log2value (l : Nat) : UInt64 := UInt64.ofNat (2 ^ l)

theorem log2value_toNat {l : Nat} (bound : l < 64) : (log2value l).toNat = 2 ^ l := by
  rw [log2value, UInt64.toNat_ofNat']
  exact Nat.mod_eq_of_lt (Nat.pow_lt_pow_right (by decide) bound)

end Nicc.Dpa

import Nicc.Common
import Nicc.Dpa.Queue

namespace Nicc.Dpa
open Lib

structure DataSeg where
  byteCount : UInt32
  lkey : UInt32
  addr : UInt64
  deriving DecidableEq

structure RingEnv where
  calloc : UInt64 → UInt64 → Bool
  host2devMemcpy : UInt64 → UInt64 → Bool

def setDataSeg (length : Nat) (lkey : UInt32) (address : UInt64) : DataSeg :=
  ⟨UInt32.ofNat length, lkey, address⟩

def setDataSegs (wqdMkeyId : UInt32) : Nat → UInt64 → List DataSeg
  | 0, _ => []
  | left + 1, dataDaddr =>
      setDataSeg DPA_LOG_WQ_DATA_ENTRY_BSIZE wqdMkeyId dataDaddr ::
        setDataSegs wqdMkeyId left (dataDaddr + UInt64.ofNat DPA_LOG_WQ_DATA_ENTRY_BSIZE)

/-- The ring that is copied to the device goes with the return value. `calloc` makes room for 64
bytes an entry, of which a segment takes 16. -/
def initRqRingWqes (env : RingEnv) (rqRingDaddr : UInt64) (logDepth : Nat) (dataDaddr : UInt64)
    (wqdMkeyId : UInt32) : Except String (Retval × List DataSeg) := do
  assertThat (rqRingDaddr ≠ 0) "(rq_ring_daddr != static_cast<flexio_uintptr_t>(0x00))"
  assertThat (dataDaddr ≠ 0) "(data_daddr != static_cast<flexio_uintptr_t>(0x00))"
  assertThat (env.calloc (log2value logDepth) (log2value DPA_LOG_WQE_BSIZE))
    "(mock_rx_ring) != nullptr"
  let entries := (log2value logDepth).toNat
  let mockRxRing := setDataSegs wqdMkeyId entries dataDaddr ++
    List.replicate (3 * entries) ⟨0, 0, 0⟩
  .ok (hardwareCheck (env.host2devMemcpy (log2value (logDepth + DPA_LOG_WQE_BSIZE)) rqRingDaddr),
    mockRxRing)

def DataSeg.Covers (seg : DataSeg) (address : Nat) : Prop :=
  seg.addr.toNat ≤ address ∧ address < seg.addr.toNat + seg.byteCount.toNat

structure FullSize (logDepth : Nat) (base : UInt64) (ring : List DataSeg) : Prop where
  start : ∀ i < 2 ^ logDepth, ∃ seg, ring[i]? = some seg ∧
    seg.addr.toNat = base.toNat + i * 2 ^ DPA_LOG_WQ_DATA_ENTRY_BSIZE
  length : ∀ i < 2 ^ logDepth, ∀ seg, ring[i]? = some seg →
    seg.byteCount.toNat = 2 ^ DPA_LOG_WQ_DATA_ENTRY_BSIZE
  inside : ∀ i < 2 ^ logDepth, ∀ seg, ring[i]? = some seg → ∀ address, seg.Covers address →
    base.toNat ≤ address ∧ address < base.toNat + 2 ^ (logDepth + DPA_LOG_WQ_DATA_ENTRY_BSIZE)
  disjoint : ∀ i < 2 ^ logDepth, ∀ j < 2 ^ logDepth, ∀ seg other, ring[i]? = some seg →
    ring[j]? = some other → i ≠ j → ∀ address, seg.Covers address → ¬ other.Covers address

theorem setDataSegs_getElem? (wqdMkeyId : UInt32) {entries i : Nat} (bound : i < entries)
    (dataDaddr : UInt64) :
    (setDataSegs wqdMkeyId entries dataDaddr)[i]? =
      some ⟨10, wqdMkeyId, dataDaddr + UInt64.ofNat i * 10⟩ := by
  induction entries generalizing i dataDaddr with
  | zero => omega
  | succ entries ih =>
      cases i with
      | zero => simp [setDataSegs, setDataSeg, DPA_LOG_WQ_DATA_ENTRY_BSIZE]
      | succ i =>
          rw [setDataSegs, List.getElem?_cons_succ, ih (by omega)]
          have address : dataDaddr + UInt64.ofNat DPA_LOG_WQ_DATA_ENTRY_BSIZE +
              UInt64.ofNat i * 10 = dataDaddr + UInt64.ofNat (i + 1) * 10 := by
            rw [UInt64.ofNat_add, UInt64.add_mul, UInt64.add_assoc]
            congr 1
            rw [UInt64.add_comm]
            rfl
          rw [address]

theorem setDataSegs_length (wqdMkeyId : UInt32) (entries : Nat) (dataDaddr : UInt64) :
    (setDataSegs wqdMkeyId entries dataDaddr).length = entries := by
  induction entries generalizing dataDaddr with
  | zero => rfl
  | succ entries ih => rw [setDataSegs, List.length_cons, ih]

section
variable {env : RingEnv} {rqRingDaddr dataDaddr : UInt64} {logDepth : Nat} {wqdMkeyId : UInt32}
  {retval : Retval} {ring : List DataSeg}

theorem initRqRingWqes_ring
    (ran : initRqRingWqes env rqRingDaddr logDepth dataDaddr wqdMkeyId = .ok (retval, ring)) :
    ring = setDataSegs wqdMkeyId (log2value logDepth).toNat dataDaddr ++
      List.replicate (3 * (log2value logDepth).toNat) ⟨0, 0, 0⟩ := by
  simp only [initRqRingWqes, bind_eq_ok, assertThat_ok, Except.ok.injEq, Prod.mk.injEq] at ran
  obtain ⟨-, -, -, -, -, -, -, same⟩ := ran
  exact same.symm

theorem initRqRingWqes_length
    (ran : initRqRingWqes env rqRingDaddr logDepth dataDaddr wqdMkeyId = .ok (retval, ring))
    {i : Nat} {seg : DataSeg} (there : ring[i]? = some seg) : seg.byteCount ≤ 10 := by
  rw [initRqRingWqes_ring ran] at there
  rcases Nat.lt_or_ge i (log2value logDepth).toNat with within | behind
  · rw [List.getElem?_append_left (by rwa [setDataSegs_length]),
      setDataSegs_getElem? wqdMkeyId within] at there
    cases there
    exact UInt32.le_refl _
  · rw [List.getElem?_append_right (by rwa [setDataSegs_length])] at there
    rw [List.getElem?_replicate] at there
    split_ifs at there
    cases there
    decide

theorem initRqRingWqes_not_fullSize
    (ran : initRqRingWqes env rqRingDaddr logDepth dataDaddr wqdMkeyId = .ok (retval, ring)) :
    ¬ FullSize logDepth dataDaddr ring := by
  intro full
  obtain ⟨seg, there, -⟩ := full.start 0 (Nat.two_pow_pos logDepth)
  have short := UInt32.le_iff_toNat_le.mp (initRqRingWqes_length ran there)
  have long := full.length 0 (Nat.two_pow_pos logDepth) seg there
  rw [DPA_LOG_WQ_DATA_ENTRY_BSIZE] at long
  have ten : (10 : UInt32).toNat = 10 := rfl
  omega

end

theorem default_depth_not_fullSize : ∃ ring,
    initRqRingWqes ⟨fun _ _ => true, fun _ _ => true⟩ 0x8000 DPA_LOG_RQ_RING_DEPTH 0x10000 7 =
      .ok (.NICC_SUCCESS, ring) ∧ ¬ FullSize DPA_LOG_RQ_RING_DEPTH 0x10000 ring := by
  obtain ⟨ring, ran⟩ : ∃ ring, initRqRingWqes ⟨fun _ _ => true, fun _ _ => true⟩ 0x8000
      DPA_LOG_RQ_RING_DEPTH 0x10000 7 = .ok (.NICC_SUCCESS, ring) := ⟨_, rfl⟩
  exact ⟨ring, ran, initRqRingWqes_not_fullSize ran⟩

theorem second_descriptor_close : ∃ ring,
    initRqRingWqes ⟨fun _ _ => true, fun _ _ => true⟩ 0x8000 1 0x10000 7 =
      .ok (.NICC_SUCCESS, ring) ∧ ¬ FullSize 1 0x10000 ring := by
  refine ⟨_, rfl, fun full => ?_⟩
  obtain ⟨seg, there, start⟩ := full.start 1 (by decide)
  cases there
  revert start
  decide

end Nicc.Dpa

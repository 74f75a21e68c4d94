import Nicc.Dpa.RqRing

namespace Nicc.Dpa
open Lib

def sizeofDataSeg : Nat := 16

structure MemoryEnv where
  data : UInt64 → Option UInt64
  ring : UInt64 → Option UInt64
  dbr : Option UInt64
  free : Bool

structure DpaEthWq where
  wqRingDaddr : UInt64
  wqDbrDaddr : UInt64
  wqdDaddr : UInt64
  deriving DecidableEq

def undoWqMemory (env : MemoryEnv) (retval : Retval) (wq : DpaEthWq) :
    Except String (Retval × DpaEthWq) := do
  assertThat (wq.wqdDaddr = 0 ∨ env.free) "ret == FLEXIO_STATUS_SUCCESS"
  assertThat (wq.wqRingDaddr = 0 ∨ env.free) "ret == FLEXIO_STATUS_SUCCESS"
  .ok (retval, wq)

def allocateWqMemory (env : MemoryEnv) (logDepth : Nat) (wqeSize : UInt64) (wq : DpaEthWq) :
    Except String (Retval × DpaEthWq) := do
  assertThat (wqeSize > 0 ∧ wqeSize % 2 = 0) "wqe_size > 0 && wqe_size % 2 == 0"
  let wq := { wq with wqdDaddr := 0, wqRingDaddr := 0 }
  match env.data (log2value (logDepth + DPA_LOG_WQ_DATA_ENTRY_BSIZE)) with
  | none => undoWqMemory env .NICC_ERROR_HARDWARE_FAILURE wq
  | some wqdDaddr =>
      let wq := { wq with wqdDaddr := wqdDaddr }
      match env.ring (log2value logDepth * wqeSize) with
      | none => undoWqMemory env .NICC_ERROR_HARDWARE_FAILURE wq
      | some wqRingDaddr =>
          let wq := { wq with wqRingDaddr := wqRingDaddr }
          match env.dbr with
          | none => undoWqMemory env .NICC_ERROR_HARDWARE_FAILURE wq
          | some wqDbrDaddr => .ok (.NICC_SUCCESS, { wq with wqDbrDaddr := wqDbrDaddr })

structure DpaQp where
  qpSqDaddr : UInt64
  qpRqDaddr : UInt64
  qpdMbufStartAddr : UInt64
  deriving DecidableEq

def rqBsize (logRqDepth : Nat) (wqeSize : UInt64) : UInt64 := log2value logRqDepth * wqeSize

def sqBsize (logSqDepth : Nat) (wqeSize : UInt64) : UInt64 := log2value logSqDepth * wqeSize

def allocateQpMemory (env : MemoryEnv) (logSqDepth logRqDepth : Nat) (wqeSize : UInt64)
    (qp : DpaQp) : Except String (Retval × DpaQp) := do
  assertThat (wqeSize > 0 ∧ wqeSize % 2 = 0) "wqe_size > 0 && wqe_size % 2 == 0"
  match env.data ((log2value logSqDepth + log2value logRqDepth) *
      log2value DPA_LOG_WQ_DATA_ENTRY_BSIZE) with
  | none => .ok (.NICC_ERROR_HARDWARE_FAILURE, qp)
  | some start =>
      let qp := { qp with qpdMbufStartAddr := start }
      match env.ring (rqBsize logRqDepth wqeSize + sqBsize logSqDepth wqeSize) with
      | none => .ok (.NICC_ERROR_HARDWARE_FAILURE, qp)
      | some buffDaddr =>
          .ok (.NICC_SUCCESS,
            { qp with
              qpRqDaddr := buffDaddr
              qpSqDaddr := buffDaddr + rqBsize logRqDepth wqeSize })

structure Region where
  start : UInt64
  bytes : UInt64

def Region.Covers (r : Region) (address : UInt64) : Prop :=
  ∃ k < r.bytes.toNat, address = r.start + UInt64.ofNat k

inductive ReceiveRing (logDepth : Nat) : Region → UInt64 → Prop
  | ethernet {env : MemoryEnv} {before wq : DpaEthWq}
      (allocated : allocateWqMemory env logDepth (UInt64.ofNat sizeofDataSeg) before =
        .ok (.NICC_SUCCESS, wq)) :
      ReceiveRing logDepth ⟨wq.wqRingDaddr, log2value logDepth * UInt64.ofNat sizeofDataSeg⟩
        wq.wqdDaddr
  | rdma {env : MemoryEnv} {logSqDepth : Nat} {before qp : DpaQp}
      (allocated : allocateQpMemory env logSqDepth logDepth (UInt64.ofNat sizeofDataSeg) before =
        .ok (.NICC_SUCCESS, qp)) :
      ReceiveRing logDepth ⟨qp.qpRqDaddr, qp.qpSqDaddr - qp.qpRqDaddr⟩ qp.qpdMbufStartAddr

def copied (rqRingDaddr : UInt64) (logDepth : Nat) : Region :=
  ⟨rqRingDaddr, log2value (logDepth + DPA_LOG_WQE_BSIZE)⟩

def segAt (image : List DataSeg) (offset : Nat) : Option DataSeg :=
  if sizeofDataSeg ∣ offset then image[offset / sizeofDataSeg]? else none

/-- The image stays within the ring, and where the ring has slot `i` it has descriptor `i`. -/
structure WritesOnlyRing (logDepth : Nat) (dataDaddr : UInt64) (wqdMkeyId : UInt32)
    (reserved : Region) (image : List DataSeg) : Prop where
  inside : ∀ address, (copied reserved.start logDepth).Covers address → reserved.Covers address
  placed : ∀ i < 2 ^ logDepth, segAt image (i * (reserved.bytes.toNat / 2 ^ logDepth)) =
    (setDataSegs wqdMkeyId (2 ^ logDepth) dataDaddr)[i]?

theorem ReceiveRing.bytes {logDepth : Nat} {reserved : Region} {dataDaddr : UInt64}
    (ring : ReceiveRing logDepth reserved dataDaddr) :
    reserved.bytes = log2value logDepth * UInt64.ofNat sizeofDataSeg := by
  cases ring with
  | ethernet allocated => rfl
  | @rdma env logSqDepth before qp allocated =>
      unfold allocateQpMemory at allocated
      simp only [bind_eq_ok, assertThat_ok] at allocated
      obtain ⟨_, -, allocated⟩ := allocated
      split at allocated
      · cases allocated
      · split at allocated
        · cases allocated
        · cases allocated
          dsimp only [rqBsize]
          rw [UInt64.add_comm, UInt64.add_sub_cancel]

section
variable {env : RingEnv} {logDepth : Nat} {reserved : Region} {dataDaddr : UInt64}
  {wqdMkeyId : UInt32} {retval : Retval} {image : List DataSeg}

theorem initRqRingWqes_depth
    (calloc : ∀ n size, env.calloc n size = true → n.toNat * size.toNat < 2 ^ 64)
    (shift : logDepth < 64)
    (ran : initRqRingWqes env reserved.start logDepth dataDaddr wqdMkeyId = .ok (retval, image)) :
    logDepth + DPA_LOG_WQE_BSIZE < 64 := by
  simp only [initRqRingWqes, bind_eq_ok, assertThat_ok] at ran
  obtain ⟨-, -, -, -, -, granted, -⟩ := ran
  have fits := calloc _ _ granted
  rw [log2value_toNat shift, log2value_toNat (by decide), ← Nat.pow_add] at fits
  exact (Nat.pow_lt_pow_iff_right (by decide)).mp fits

theorem reserved_bytes (depth : logDepth + DPA_LOG_WQE_BSIZE < 64)
    (ring : ReceiveRing logDepth reserved dataDaddr) :
    reserved.bytes.toNat = 2 ^ logDepth * sizeofDataSeg := by
  have small : 2 ^ logDepth < 2 ^ 58 := Nat.pow_lt_pow_right (by decide) (by
    rw [DPA_LOG_WQE_BSIZE] at depth
    omega)
  have sixteen : (UInt64.ofNat sizeofDataSeg).toNat = sizeofDataSeg := rfl
  rw [ring.bytes, UInt64.toNat_mul, log2value_toNat (by omega), sixteen]
  apply Nat.mod_eq_of_lt
  rw [sizeofDataSeg]
  omega

theorem initRqRingWqes_placed (depth : logDepth + DPA_LOG_WQE_BSIZE < 64)
    (ring : ReceiveRing logDepth reserved dataDaddr)
    (ran : initRqRingWqes env reserved.start logDepth dataDaddr wqdMkeyId = .ok (retval, image))
    {i : Nat} (bound : i < 2 ^ logDepth) :
    segAt image (i * (reserved.bytes.toNat / 2 ^ logDepth)) =
      (setDataSegs wqdMkeyId (2 ^ logDepth) dataDaddr)[i]? := by
  have stride : reserved.bytes.toNat / 2 ^ logDepth = sizeofDataSeg := by
    rw [reserved_bytes depth ring]
    exact Nat.mul_div_cancel_left _ (Nat.two_pow_pos logDepth)
  rw [stride, segAt, if_pos (Nat.dvd_mul_left _ _), Nat.mul_div_cancel _ (by decide),
    initRqRingWqes_ring ran, log2value_toNat (by omega)]
  exact List.getElem?_append_left (by rwa [setDataSegs_length])

theorem copied_behind (depth : logDepth + DPA_LOG_WQE_BSIZE < 64)
    (ring : ReceiveRing logDepth reserved dataDaddr) {k : Nat}
    (behind : 2 ^ logDepth * sizeofDataSeg ≤ k)
    (bound : k < 4 * (2 ^ logDepth * sizeofDataSeg)) :
    (copied reserved.start logDepth).Covers (reserved.start + UInt64.ofNat k) ∧
      ¬ reserved.Covers (reserved.start + UInt64.ofNat k) := by
  have size : (log2value (logDepth + DPA_LOG_WQE_BSIZE)).toNat =
      4 * (2 ^ logDepth * sizeofDataSeg) := by
    rw [log2value_toNat depth, Nat.pow_add, sizeofDataSeg, DPA_LOG_WQE_BSIZE]
    omega
  have word : 4 * (2 ^ logDepth * sizeofDataSeg) < 2 ^ 64 := by
    rw [← size]
    exact UInt64.toNat_lt _
  constructor
  · exact ⟨k, by rwa [copied, size], rfl⟩
  · rintro ⟨j, within, same⟩
    rw [reserved_bytes depth ring] at within
    have equal : UInt64.ofNat k = UInt64.ofNat j := UInt64.add_right_inj reserved.start |>.mp same
    have numbers := congrArg UInt64.toNat equal
    rw [UInt64.toNat_ofNat', UInt64.toNat_ofNat', Nat.mod_eq_of_lt (by omega),
      Nat.mod_eq_of_lt (by omega)] at numbers
    omega

/-- The descriptors are where the ring has them, and the copy goes on behind the ring. -/
theorem initRqRingWqes_not_writesOnlyRing
    (calloc : ∀ n size, env.calloc n size = true → n.toNat * size.toNat < 2 ^ 64)
    (shift : logDepth < 64) (ring : ReceiveRing logDepth reserved dataDaddr)
    (ran : initRqRingWqes env reserved.start logDepth dataDaddr wqdMkeyId = .ok (retval, image)) :
    ¬ WritesOnlyRing logDepth dataDaddr wqdMkeyId reserved image ∧
      ∀ i < 2 ^ logDepth, segAt image (i * (reserved.bytes.toNat / 2 ^ logDepth)) =
        (setDataSegs wqdMkeyId (2 ^ logDepth) dataDaddr)[i]? := by
  have depth := initRqRingWqes_depth calloc shift ran
  refine ⟨fun only => ?_, fun i bound => initRqRingWqes_placed depth ring ran bound⟩
  have positive := Nat.two_pow_pos logDepth
  have behind : 2 ^ logDepth * sizeofDataSeg < 4 * (2 ^ logDepth * sizeofDataSeg) := by
    rw [sizeofDataSeg]
    omega
  obtain ⟨written, outside⟩ := copied_behind depth ring (Nat.le_refl _) behind
  exact outside (only.inside _ written)

end

def ampleRingEnv : RingEnv where
  calloc n size := decide (n.toNat * size.toNat < 2 ^ 64)
  host2devMemcpy _ _ := true

def ampleMemoryEnv : MemoryEnv where
  data _ := some 0x10000
  ring _ := some 0x8000
  dbr := some 0x7000
  free := true

theorem default_depth_not_writesOnlyRing : ∃ image,
    initRqRingWqes ampleRingEnv 0x8000 DPA_LOG_RQ_RING_DEPTH 0x10000 7 =
      .ok (.NICC_SUCCESS, image) ∧
    ¬ WritesOnlyRing DPA_LOG_RQ_RING_DEPTH 0x10000 7 ⟨0x8000, 2048⟩ image ∧
    segAt image 16 = (setDataSegs 7 128 0x10000)[1]? := by
  obtain ⟨image, ran⟩ : ∃ image, initRqRingWqes ampleRingEnv 0x8000 DPA_LOG_RQ_RING_DEPTH 0x10000 7
      = .ok (.NICC_SUCCESS, image) := ⟨_, rfl⟩
  have allocated : allocateWqMemory ampleMemoryEnv DPA_LOG_RQ_RING_DEPTH
      (UInt64.ofNat sizeofDataSeg) ⟨0, 0, 0⟩ = .ok (.NICC_SUCCESS, ⟨0x8000, 0x7000, 0x10000⟩) := rfl
  have ring : ReceiveRing DPA_LOG_RQ_RING_DEPTH ⟨0x8000, 2048⟩ 0x10000 := .ethernet allocated
  obtain ⟨not, placed⟩ := initRqRingWqes_not_writesOnlyRing (fun _ _ => of_decide_eq_true)
    (by decide) ring ran
  exact ⟨image, ran, not, placed 1 (by decide)⟩

theorem default_depths_overwrite_sendRing :
    allocateQpMemory ampleMemoryEnv DPA_LOG_SQ_RING_DEPTH DPA_LOG_RQ_RING_DEPTH
      (UInt64.ofNat sizeofDataSeg) ⟨0, 0, 0⟩ = .ok (.NICC_SUCCESS, ⟨0x8800, 0x8000, 0x10000⟩) ∧
    ∃ image, initRqRingWqes ampleRingEnv 0x8000 DPA_LOG_RQ_RING_DEPTH 0x10000 7 =
      .ok (.NICC_SUCCESS, image) ∧ (copied 0x8000 DPA_LOG_RQ_RING_DEPTH).Covers 0x8800 ∧
    ¬ WritesOnlyRing DPA_LOG_RQ_RING_DEPTH 0x10000 7 ⟨0x8000, 0x8800 - 0x8000⟩ image := by
  have allocated : allocateQpMemory ampleMemoryEnv DPA_LOG_SQ_RING_DEPTH DPA_LOG_RQ_RING_DEPTH
      (UInt64.ofNat sizeofDataSeg) ⟨0, 0, 0⟩ = .ok (.NICC_SUCCESS, ⟨0x8800, 0x8000, 0x10000⟩) := rfl
  have ring : ReceiveRing DPA_LOG_RQ_RING_DEPTH ⟨0x8000, 0x8800 - 0x8000⟩ 0x10000 :=
    .rdma allocated
  obtain ⟨image, ran⟩ : ∃ image, initRqRingWqes ampleRingEnv 0x8000 DPA_LOG_RQ_RING_DEPTH 0x10000 7
      = .ok (.NICC_SUCCESS, image) := ⟨_, rfl⟩
  obtain ⟨written, outside⟩ := copied_behind (k := 2048) (by decide) ring (by decide) (by decide)
  exact ⟨allocated, image, ran, written, fun only => outside (only.inside _ written)⟩

end Nicc.Dpa

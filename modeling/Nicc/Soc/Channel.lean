import Nicc.Mem.HugeAlloc
import Nicc.Soc.Wrapper

namespace Nicc.Soc
open Lib

def kRQDepth : Nat := kNumRxRingEntries
def kSQDepth : Nat := kNumTxRingEntries
def kRecvMbufSize : Nat := 4096
def kSendMbufSize : Nat := 4096
def kMemRegionSize : Nat := 2 * (kRecvMbufSize * kRQDepth + kSendMbufSize * kSQDepth)

def circular (n i : Nat) : Nat := if i < n - 1 then i + 1 else 0

namespace SoC

variable {α : Type}

def newRecvHalf : RecvHalf α :=
  ⟨fun _ => none, fun _ => ⟨0, 0, 0⟩, 0, fun _ => ⟨.prior, 0⟩, 0, 0, [], []⟩

def newSendHalf : SendHalf α :=
  ⟨fun _ => none, fun _ => ⟨0, 0, 0⟩, 0, 0, fun _ => none, fun _ => none, 0, kNumTxRingEntries, [], 0⟩

/-- Two new QPs and a wrapper with its two queues. No ring has been set up. -/
def new (mem : Nat → α) : SoC α where
  recv _ := newRecvHalf
  send _ := newSendHalf
  bufs _ := Buffer.new 0 0 0
  mem := mem
  tmpWorkerRxQueue := .new
  tmpWorkerTxQueue := .new
  handled := []
  fullBranches := 0

def initRecvs (s : SoC α) (side : Side) (ringExtent : Buffer BufPtr) : SoC α :=
  { s with
    recv := Function.update s.recv side { s.recv side with
      recvSgl := fun i => ⟨ringExtent.buf + i * kRecvMbufSize, kRecvMbufSize, ringExtent.lkey⟩
      recvWrNext := fun i => some (circular kRQDepth i)
      rxRing := fun i => ⟨side, i⟩ }
    bufs := fun p =>
      if p.side = side then
        let b : Buffer BufPtr :=
          .new (ringExtent.buf + p.slot * kRecvMbufSize) kRecvMbufSize ringExtent.lkey
        { b with state := .kPOSTED, next := some ⟨side, circular kRQDepth p.slot⟩ }
      else s.bufs p }

def initSends (s : SoC α) (side : Side) : SoC α :=
  s.setSend side { s.send side with sendWrNext := fun i => some (circular kSQDepth i) }

def initRings (raw : Buffer BufPtr) (mem : Nat → α) : Except String (SoC α) := do
  let alloc ← HugeAlloc.empty.addRawBuffer raw kMemRegionSize
  let (extentPrior, alloc) ← alloc.alloc (kRQDepth * kRecvMbufSize)
  -- The pointer is read before it is checked.
  let some extentPrior := extentPrior | throw "ring_extent->buf_"
  let s := ((new mem).initRecvs .prior extentPrior).initSends .prior
  let (extentNext, _) ← alloc.alloc (kRQDepth * kRecvMbufSize)
  let some extentNext := extentNext | throw "ring_extent->buf_"
  return (s.initRecvs .next extentNext).initSends .next

/-- After an error of `ibv_post_recv` the chain stays broken. -/
def fillRecvQueue (s : SoC α) (side : Side) (ret : Int) : Retval × SoC α :=
  let r := s.recv side
  let r := postRecv { r with recvWrNext := Function.update r.recvWrNext (kRQDepth - 1) none } 0
  if ret ≠ 0 then (.NICC_ERROR_HARDWARE_FAILURE, s.setRecv side r)
  else (.NICC_SUCCESS, s.setRecv side { r with
    recvWrNext := Function.update r.recvWrNext (kRQDepth - 1) (some 0) })

def channelSoC (raw : Buffer BufPtr) (mem : Nat → α) : Except String (SoC α) := do
  let s ← initRings raw mem
  let (_, s) := s.fillRecvQueue .prior 0
  let (_, s) := s.fillRecvQueue .next 0
  return s

end SoC

end Nicc.Soc

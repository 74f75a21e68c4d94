import Nicc.Mem.Buffer
import Nicc.Soc.Queue

/-!
# The datapath of the SoC wrapper

`RDMA_SoC_QP` and the functions that `SoCWrapper::__launch` is made of. The NIC is seen through the
work requests that it is given and the completions that are polled.
-/

namespace Nicc.Soc
open Lib

def kNumRxRingEntries : Nat := 2048
def kNumTxRingEntries : Nat := 2048
def kAppRxMsgBatchSize : Nat := 32
def kTxBatchSize : Nat := 32
def kRxBatchSize : Nat := 128

inductive Side
  | prior
  | next
  deriving DecidableEq, Repr

def Side.other : Side → Side
  | .prior => .next
  | .next => .prior

/-- The Buffers are those of the two receive rings. -/
structure BufPtr where
  side : Side
  slot : Nat
  deriving DecidableEq, Repr

structure Sge where
  addr : Nat
  length : Nat
  lkey : Nat
  deriving DecidableEq, Repr

structure RecvWr where
  wrId : Nat
  sge : Sge

structure Completion (α : Type) where
  byteLen : Nat
  frame : α

structure Received (α : Type) where
  wr : RecvWr
  completion : Completion α

structure Sent (α : Type) where
  sge : Sge
  frame : α

structure Handled (α : Type) where
  found : α
  left : α

/-- The part of a QP under `RECV`. `posted` and `received` record the work requests that the NIC was
given and the completions that were polled. -/
structure RecvHalf (α : Type) where
  recvWrNext : Nat → Option Nat
  recvSgl : Nat → Sge
  recvHead : Nat
  rxRing : Nat → BufPtr
  ringHead : Nat
  waitForDisp : Nat
  posted : List RecvWr
  received : List (Received α)

/-- The part of a QP under `SEND`. `posted` records the sends that the NIC was given, `reaped` counts
the completions that were polled. -/
structure SendHalf (α : Type) where
  sendWrNext : Nat → Option Nat
  sendSgl : Nat → Sge
  sendHead : Nat
  sendTail : Nat
  swRing : Nat → Option BufPtr
  txQueue : Nat → Option BufPtr
  txQueueIdx : Nat
  freeSendWrNum : Nat
  posted : List (Sent α)
  reaped : Nat

/-- Memory is addressed by the start of each Buffer. `handled` and `fullBranches` record what the
worker has done and how often a worker queue was found full. -/
structure SoC (α : Type) where
  recv : Side → RecvHalf α
  send : Side → SendHalf α
  bufs : BufPtr → Buffer BufPtr
  mem : Nat → α
  tmpWorkerRxQueue : ShmQueue BufPtr
  tmpWorkerTxQueue : ShmQueue BufPtr
  handled : List (Handled α)
  fullBranches : Nat

/-- How a function ends that does not return. `impossible` is a behaviour that the NIC does not
show. -/
inductive Stop
  | nullPointer
  | assertion (text : String)
  | thrown (text : String)
  | spinning
  | impossible
  deriving DecidableEq, Repr

namespace SoC

variable {α : Type}

def setRecv (s : SoC α) (side : Side) (r : RecvHalf α) : SoC α :=
  { s with recv := Function.update s.recv side r }

def setSend (s : SoC α) (side : Side) (t : SendHalf α) : SoC α :=
  { s with send := Function.update s.send side t }

def setState (s : SoC α) (p : BufPtr) (state : BufState) : SoC α :=
  { s with bufs := Function.update s.bufs p { s.bufs p with state := state } }

def setLength (s : SoC α) (p : BufPtr) (length : Nat) : SoC α :=
  { s with bufs := Function.update s.bufs p { s.bufs p with length := length } }

def setMem (s : SoC α) (addr : Nat) (frame : α) : SoC α :=
  { s with mem := Function.update s.mem addr frame }

abbrev Step (α β : Type) := Except (Stop × SoC α) β

def deref {β : Type} (s : SoC α) : Option β → Step α β
  | none => .error (.nullPointer, s)
  | some p => .ok p

/-- The work requests that a driver finds from `wr` on. It takes no more than a queue can hold. -/
def walk (next : Nat → Option Nat) : Nat → Nat → List Nat
  | 0, _ => []
  | fuel + 1, wr =>
      match next wr with
      | none => [wr]
      | some following => wr :: walk next fuel following

def postRecv (r : RecvHalf α) (firstWr : Nat) : RecvHalf α :=
  let chain := walk r.recvWrNext kNumRxRingEntries firstWr
  { r with posted := r.posted ++ chain.map fun i => ⟨i, r.recvSgl i⟩ }

def postRecvs (s : SoC α) (side : Side) (numRecvs : Nat) (ret : Int) : Step α (SoC α) :=
  let r := s.recv side
  let firstWrI := r.recvHead
  let sum := firstWrI + (numRecvs - 1)
  let lastWrI := if kNumRxRingEntries ≤ sum then sum - kNumRxRingEntries else sum
  let tempWr := r.recvWrNext lastWrI
  let r := postRecv { r with recvWrNext := Function.update r.recvWrNext lastWrI none } firstWrI
  if ret ≠ 0 then .error (.thrown "SHUTDOWN BY NICC ERROR", s.setRecv side r)
  else .ok (s.setRecv side { r with
    recvWrNext := Function.update r.recvWrNext lastWrI tempWr
    recvHead := (lastWrI + 1) % kNumRxRingEntries })

/-- The `while` loop of `__rx_burst`. It would run forever only through more entries than a ring
has. -/
def takeFree : Nat → BufPtr → Nat → SoC α → Step α (Nat × SoC α)
  | 0, _, _, s => .error (.spinning, s)
  | fuel + 1, ringEntry, numRecvs, s =>
      if (s.bufs ringEntry).state = .kFREE_BUF then do
        let s := s.setState ringEntry .kPOSTED
        let next ← deref s (s.bufs ringEntry).next
        takeFree fuel next (numRecvs + 1) s
      else .ok (numRecvs, s)

/-- What `ibv_poll_cq` answers for a receive queue. The failing values are `-1`, `-2` and so on. -/
inductive RecvPoll (α : Type)
  | failed (code : Nat)
  | polled (wc : List (Completion α))

/-- The NIC completes the work requests in the order in which they were posted. -/
def nicReceive (side : Side) : List (Completion α) → SoC α → Step α (SoC α)
  | [], s => .ok s
  | completion :: rest, s =>
      let r := s.recv side
      match r.posted[r.received.length]? with
      | none => .error (.impossible, s)
      | some wr =>
          let r := { r with received := r.received ++ [⟨wr, completion⟩] }
          nicReceive side rest ((s.setMem wr.sge.addr completion.frame).setRecv side r)

def setLengths (side : Side) : List (Completion α) → Nat → SoC α → SoC α
  | [], _, s => s
  | completion :: rest, i, s =>
      let r := s.recv side
      let entry := r.rxRing ((r.ringHead + r.waitForDisp + i) % kNumRxRingEntries)
      setLengths side rest (i + 1) (s.setLength entry completion.byteLen)

/-- The answer is added to a `size_t`. -/
def addWaiting (s : SoC α) (side : Side) (ret : Int) : Nat × SoC α :=
  let r := s.recv side
  ((ret % 2 ^ 64).toNat,
    s.setRecv side { r with waitForDisp := ((r.waitForDisp + ret) % 2 ^ 64).toNat })

def pollRecvCq (s : SoC α) (side : Side) : RecvPoll α → Step α (Nat × SoC α)
  | .failed code => .ok (s.addWaiting side (-(code + 1)))
  | .polled wc =>
      if kRxBatchSize < wc.length then .error (.impossible, s)
      else do
        let s ← nicReceive side wc s
        return (setLengths side wc 0 s).addWaiting side wc.length

def rxBurst (s : SoC α) (side : Side) (postRet : Int) (poll : RecvPoll α) :
    Step α (Nat × SoC α) := do
  let r := s.recv side
  let (numRecvs, s) ← takeFree (kNumRxRingEntries + 1) (r.rxRing r.recvHead) 0 s
  let s ← if numRecvs ≠ 0 then postRecvs s side numRecvs postRet else .ok s
  pollRecvCq s side poll

def dispatchLoop : Nat → BufPtr → Nat → SoC α → Step α (Nat × SoC α)
  | 0, _, dispatchTotal, s => .ok (dispatchTotal, s)
  | left + 1, ringEntry, dispatchTotal, s =>
      match s.tmpWorkerRxQueue.enqueue (some ringEntry) with
      | (false, _) => do
          let s := { s.setState ringEntry .kFREE_BUF with fullBranches := s.fullBranches + 1 }
          let next ← deref s (s.bufs ringEntry).next
          dispatchLoop left next dispatchTotal s
      | (true, queue) => do
          let s := { s.setState ringEntry .kAPP_OWNED_BUF with tmpWorkerRxQueue := queue }
          let next ← deref s (s.bufs ringEntry).next
          dispatchLoop left next (dispatchTotal + 1) s

def dispatchRxPkts (s : SoC α) : Step α (Nat × SoC α) := do
  let r := s.recv .prior
  let (dispatchTotal, s) ← dispatchLoop r.waitForDisp (r.rxRing r.ringHead) 0 s
  let r := s.recv .prior
  return (dispatchTotal, s.setRecv .prior { r with
    ringHead := (r.ringHead + r.waitForDisp) % kNumRxRingEntries
    waitForDisp := 0 })

/-- A message handler for the calls of one launch. It sees the Buffer and its frame, and what it
does may differ from call to call. -/
abbrev MsgHandler (α : Type) := Nat → Buffer BufPtr → α → Retval × α

/-- The message is forwarded whatever the handler answers. -/
def forward (s : SoC α) (m : Option BufPtr) : SoC α :=
  match s.tmpWorkerTxQueue.enqueue m with
  | (false, _) => { s with fullBranches := s.fullBranches + 1 }
  | (true, queue) => { s with tmpWorkerTxQueue := queue }

def callHandler (s : SoC α) (msgHandler : Option (MsgHandler α)) (i : Nat) (m : BufPtr) : SoC α :=
  let b := s.bufs m
  let found := s.mem b.buf
  let left := match msgHandler with
    | none => found
    | some handler => (handler i b found).2
  { s.setMem b.buf left with handled := s.handled ++ [⟨found, left⟩] }

def workerLoop (msgHandler : Option (MsgHandler α)) : Nat → Nat → SoC α → Step α (SoC α)
  | 0, _, s => .ok s
  | left + 1, i, s =>
      let (m, queue) := s.tmpWorkerRxQueue.dequeue
      let s := { s with tmpWorkerRxQueue := queue }
      match m with
      | some p => workerLoop msgHandler left (i + 1) ((s.callHandler msgHandler i p).forward m)
      | none =>
          -- Only a handler looks at the message.
          if msgHandler.isSome then .error (.nullPointer, s)
          else workerLoop msgHandler left (i + 1) (s.forward m)

def worker (s : SoC α) (msgHandler : Option (MsgHandler α)) : Step α (SoC α) :=
  let msgNum := s.tmpWorkerRxQueue.getSize / 1
  if kAppRxMsgBatchSize < msgNum then workerLoop msgHandler (msgNum * 1) 0 s else .ok s

def collectLoop : Nat → SoC α → SoC α
  | 0, s => s
  | left + 1, s =>
      let t := s.send .next
      let (m, queue) := s.tmpWorkerTxQueue.dequeue
      let t := { t with
        txQueue := Function.update t.txQueue t.txQueueIdx m
        txQueueIdx := t.txQueueIdx + 1 }
      collectLoop left ({ s with tmpWorkerTxQueue := queue }.setSend .next t)

def collectTxPkts (s : SoC α) : SoC α :=
  let remainRingSize := kNumTxRingEntries - (s.send .next).txQueueIdx
  let queued := s.tmpWorkerTxQueue.getSize
  collectLoop (if remainRingSize < queued then remainRingSize else queued) s

structure SendPoll where
  ret : Int
  postRet : Int

def reapLoop (side : Side) : Nat → SoC α → Step α (SoC α)
  | 0, s => .ok s
  | left + 1, s => do
      let t := s.send side
      let p ← deref s (t.swRing t.sendHead)
      let t := { t with sendHead := (t.sendHead + 1) % kNumTxRingEntries }
      reapLoop side left ((s.setState p .kFREE_BUF).setSend side t)

/-- The loop that mounts Buffers from `tx` on, with the number of Buffers that are left, and the last
work request that it has filled. -/
def mountLoop (side : Side) (tx : Nat) : Nat → Nat → Option Nat → SoC α →
    Step α (Nat × Option Nat × SoC α)
  | 0, nbTxRes, tailWr, s => .ok (nbTxRes, tailWr, s)
  | left + 1, nbTxRes, tailWr, s =>
      let t := s.send side
      if 0 < t.freeSendWrNum then do
        let m ← deref s (t.txQueue (tx + nbTxRes))
        let s := s.setState m .kPOSTED
        let b := s.bufs m
        let t := { t with
          sendSgl := Function.update t.sendSgl t.sendTail ⟨b.buf, b.length, b.lkey⟩
          swRing := Function.update t.swRing t.sendTail (some m)
          sendTail := (t.sendTail + 1) % kNumTxRingEntries
          freeSendWrNum := t.freeSendWrNum - 1 }
        mountLoop side tx left (nbTxRes + 1) (some (s.send side).sendTail) (s.setSend side t)
      else .ok (nbTxRes, tailWr, s)

def postSend (s : SoC α) (t : SendHalf α) (firstWr : Nat) : SendHalf α :=
  let chain := walk t.sendWrNext kNumTxRingEntries firstWr
  { t with posted := t.posted ++ chain.map fun i => ⟨t.sendSgl i, s.mem (t.sendSgl i).addr⟩ }

/-- The NIC completes no more than it was given. -/
def pollSendCq (s : SoC α) (side : Side) (ret : Int) : Step α (SoC α) :=
  let t := s.send side
  if t.posted.length < t.reaped + ret.toNat ∨ (kNumTxRingEntries : Int) < ret then
    .error (.impossible, s)
  else if ret < 0 then .error (.assertion "ret >= 0", s)
  else
    reapLoop side ret.toNat (s.setSend side { t with
      freeSendWrNum := t.freeSendWrNum + ret.toNat
      reaped := t.reaped + ret.toNat })

def postMounted (s : SoC α) (side : Side) (firstWr nbTxRes : Nat) (tailWr : Option Nat) (ret : Int) :
    Step α (SoC α) :=
  if 0 < nbTxRes then do
    let tailWr ← deref s tailWr
    let t := s.send side
    let tempWr := t.sendWrNext tailWr
    let t := postSend s { t with sendWrNext := Function.update t.sendWrNext tailWr none } firstWr
    if ret ≠ 0 then .error (.thrown "SHUTDOWN BY NICC ERROR", s.setSend side t)
    else .ok (s.setSend side { t with
      sendWrNext := Function.update t.sendWrNext tailWr tempWr })
  else .ok s

def txBurst (s : SoC α) (side : Side) (tx txSize : Nat) (poll : SendPoll) :
    Step α (Nat × SoC α) := do
  let s ← s.pollSendCq side poll.ret
  let firstWr := (s.send side).sendTail
  let (nbTxRes, tailWr, s) ← mountLoop side tx txSize 0 none s
  let s ← s.postMounted side firstWr nbTxRes tailWr poll.postRet
  return (nbTxRes, s)

/-- The loop of `__tx_flush`, with what the polls answer. It spins as long as nothing can be sent. -/
def flushLoop (side : Side) : List SendPoll → Nat → SoC α → Step α (Nat × SoC α)
  | [], txTotal, s =>
      if txTotal < (s.send side).txQueueIdx then .error (.spinning, s) else .ok (txTotal, s)
  | poll :: polls, txTotal, s =>
      if txTotal < (s.send side).txQueueIdx then do
        let (nbTx, s) ← txBurst s side txTotal ((s.send side).txQueueIdx - txTotal) poll
        flushLoop side polls (txTotal + nbTx) s
      -- No further poll is made.
      else .error (.impossible, s)

def txFlush (s : SoC α) (side : Side) (polls : List SendPoll) : Step α (Nat × SoC α) := do
  let (txTotal, s) ← flushLoop side polls 0 s
  return (txTotal, s.setSend side { s.send side with txQueueIdx := 0 })

def directLoop (rxQp txQp : Side) : Nat → Nat → SoC α → SoC α
  | 0, _, s => s
  | left + 1, i, s =>
      let r := s.recv rxQp
      let t := s.send txQp
      let m := r.rxRing ((r.ringHead + i) % kNumRxRingEntries)
      directLoop rxQp txQp left (i + 1) (s.setSend txQp { t with
        txQueue := Function.update t.txQueue t.txQueueIdx (some m)
        txQueueIdx := t.txQueueIdx + 1 })

def directTxBurst (s : SoC α) (rxQp txQp : Side) : Nat × SoC α :=
  let remain := kNumTxRingEntries - (s.send txQp).txQueueIdx
  let waiting := (s.recv rxQp).waitForDisp
  let remainTxQueueSize := if waiting < remain then waiting else remain
  let s := directLoop rxQp txQp remainTxQueueSize 0 s
  let r := s.recv rxQp
  (remainTxQueueSize, s.setRecv rxQp { r with
    ringHead := (r.ringHead + remainTxQueueSize) % kNumRxRingEntries
    waitForDisp := r.waitForDisp - remainTxQueueSize })

structure Answers (α : Type) where
  recvPrior : Int × RecvPoll α
  msgHandler : Option (MsgHandler α)
  flushNext : List SendPoll
  recvNext : Int × RecvPoll α
  flushPrior : List SendPoll

def launchRx (s : SoC α) (a : Answers α) : Step α (SoC α) := do
  let (_, s) ← s.rxBurst .prior a.recvPrior.1 a.recvPrior.2
  let (_, s) ← s.dispatchRxPkts
  let s ← s.worker a.msgHandler
  let s := s.collectTxPkts
  if kTxBatchSize ≤ (s.send .next).txQueueIdx then
    let (_, s) ← s.txFlush .next a.flushNext
    return s
  else if a.flushNext = [] then return s
  else throw (.impossible, s)

def launchTx (s : SoC α) (a : Answers α) : Step α (SoC α) := do
  let (_, s) ← s.rxBurst .next a.recvNext.1 a.recvNext.2
  let (_, s) := s.directTxBurst .next .prior
  let (_, s) ← s.txFlush .prior a.flushPrior
  return s

def launch (s : SoC α) (a : Answers α) : Step α (SoC α) := do
  let s ← s.launchRx a
  s.launchTx a

end SoC

end Nicc.Soc

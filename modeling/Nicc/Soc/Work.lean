import Nicc.Soc.Send

namespace Nicc.Soc
open Lib

variable {α : Type} {l : Layout} {d : Side} {s s' : SoC α} {left : List α} {c : Counts}

structure Workers (s : SoC α) (c : Counts) : Prop where
  rxQueue : s.tmpWorkerRxQueue.Stores (fun k => some (ptr .prior k)) c.worked c.dispatched
  txQueue : s.tmpWorkerTxQueue.Stores (fun k => some (ptr .prior k)) c.collected c.worked
  handled : s.handled.length = c.worked
  found : ∀ (k : Nat) (p : Received α) (m : Handled α), (s.recv .prior).received[k]? = some p →
    s.handled[k]? = some m → m.found = p.completion.frame
  fullBranches : s.fullBranches = 0

structure Forward (l : Layout) (s : SoC α) (c : Counts) : Prop where
  lane : Lane l .prior s (s.handled.map Handled.left) c
  workers : Workers s c

theorem Workers.receive (workers : Workers s c) (same : SameWorker s s')
    (more : (s.recv .prior).received <+: (s'.recv .prior).received)
    (length : c.worked ≤ (s.recv .prior).received.length) : Workers s' c where
  rxQueue := same.rxQueue ▸ workers.rxQueue
  txQueue := same.txQueue ▸ workers.txQueue
  handled := same.handled ▸ workers.handled
  found k p m there done := by
    rw [same.handled] at done
    have high := getElem?_lt done
    rw [workers.handled] at high
    obtain ⟨packets, extended⟩ := more
    rw [← extended, List.getElem?_append_left (high.trans_le length)] at there
    exact workers.found k p m there done
  fullBranches := same.fullBranches.trans workers.fullBranches

theorem dispatchLoop_lane (forward : Forward l s c) {n : Nat} (inside : c.dispatched + n ≤ c.measured)
    (room : c.dispatched + n < c.worked + kWsQueueSize) (total : Nat) :
    ∃ s', SoC.dispatchLoop n (ptr .prior c.dispatched) total s = .ok (total + n, s') ∧
      s'.recv = s.recv ∧ s'.send = s.send ∧ SameLane l .next s s' ∧
      Forward l s' { c with dispatched := c.dispatched + n } := by
  induction n generalizing s c total with
  | zero => exact ⟨s, rfl, rfl, rfl, .refl l _ s, forward⟩
  | succ n ih =>
      have ordered := forward.lane.ordered
      have low : c.freed ≤ c.dispatched := by
        have := ordered.freed; have := ordered.ends; have := ordered.worked
        omega
      have high : c.dispatched < c.posted := by
        have := ordered.measured; have := ordered.completed
        omega
      obtain ⟨queue, accepted, stores⟩ := forward.workers.rxQueue.enqueue (by omega)
      let t : SoC α :=
        { s.setState (ptr .prior c.dispatched) .kAPP_OWNED_BUF with tmpWorkerRxQueue := queue }
      have only := OnlyStates.setState s .prior (slotOf c.dispatched) .kAPP_OWNED_BUF
      have used : Colors (t.slots .prior) c.freed c.posted := by
        rw [show t.slots .prior = _ from s.setState_slots .prior (slotOf c.dispatched) .kAPP_OWNED_BUF]
        exact forward.lane.colors.use ordered.posted low high (by decide)
      obtain ⟨rings, colors, input, output⟩ := forward.lane.onlyStates only used
      have moved : Forward l t { c with dispatched := c.dispatched + 1 } := by
        refine ⟨⟨{ ordered with
          worked := Nat.le_succ_of_le ordered.worked
          dispatched := (by omega : c.dispatched + 1 ≤ c.measured) }, rings, colors, { input with },
          { output with }⟩, { forward.workers with rxQueue := stores }⟩
      have following : (t.bufs (ptr .prior c.dispatched)).next = some (ptr .prior (c.dispatched + 1)) :=
        (only.ring.next _).trans (forward.lane.rings.next c.dispatched)
      obtain ⟨s', ran, recv, send, same, done⟩ := ih moved
        (by change c.dispatched + 1 + n ≤ c.measured; omega)
        (by change c.dispatched + 1 + n < c.worked + kWsQueueSize; omega) (total + 1)
      have elsewhere : SameLane l .next s t := { only.sameLane with }
      refine ⟨s', ?_, recv, send, elsewhere.trans same, ?_⟩
      · rw [SoC.dispatchLoop]
        simp only [accepted]
        rw [show SoC.deref t (t.bufs (ptr .prior c.dispatched)).next = _ from
          congrArg (SoC.deref t) following, deref_some, ok_bind]
        rw [Nat.add_right_comm] at ran
        exact ran
      · rw [Nat.add_comm n 1, ← Nat.add_assoc]
        exact done

theorem dispatchRxPkts_lane (forward : Forward l s c) (heads : Heads .prior s c)
    (measured : c.measured = c.completed) (room : c.completed < c.worked + kWsQueueSize) :
    ∃ total s', s.dispatchRxPkts = .ok (total, s') ∧ SameLane l .next s s' ∧
      Forward l s' { c with dispatched := c.completed } ∧
      Heads .prior s' { c with dispatched := c.completed } := by
  have waiting := heads.waitForDisp
  obtain ⟨t, ran, recv, send, same, done⟩ := dispatchLoop_lane forward
    (by omega : c.dispatched + (s.recv .prior).waitForDisp ≤ c.measured) (by omega) 0
  rw [waiting] at done
  have entry : (s.recv .prior).rxRing (s.recv .prior).ringHead = ptr .prior c.dispatched := by
    rw [heads.ringHead, forward.lane.rings.rxRing, ptr]
  let r := t.recv .prior
  let s' := t.setRecv .prior { r with
    ringHead := (r.ringHead + r.waitForDisp) % kNumRxRingEntries
    waitForDisp := 0 }
  have elsewhere : SameLane l .next t s' := ⟨t.setRecv_recv_other .prior _, rfl, rfl, fun _ => rfl⟩
  refine ⟨0 + (s.recv .prior).waitForDisp, s', ?_, same.trans elsewhere, ⟨done.lane.waiting _ _, ?_⟩, ?_⟩
  · rw [SoC.dispatchRxPkts]
    simp only [entry, ran, ok_bind]
    rfl
  · have workers := done.workers
    refine { workers with found := ?_ }
    rw [show s'.recv .prior = _ from SoC.setRecv_recv ..]
    exact workers.found
  · have recvs : s'.recv .prior = _ := SoC.setRecv_recv ..
    have sends : s'.send = s.send := send
    refine ⟨?_, ?_, ?_, ?_, ?_⟩
    · rw [recvs]
      simp only [r, recv]
      exact heads.recvHead
    · rw [recvs]
      simp only [r, recv]
      rw [heads.ringHead, slotOf_add, waiting]
    · rw [recvs]
      rfl
    · rw [sends]
      exact heads.freeSendWrNum
    · rw [sends]
      exact heads.reaped

theorem callHandler_eq (s : SoC α) (msgHandler : Option (SoC.MsgHandler α)) (n : Nat) {i : Nat}
    (addr : (s.bufs ⟨d, i⟩).buf = l.addr d i) :
    ∃ frame, s.callHandler msgHandler n ⟨d, i⟩ = { s.setMem (l.addr d i) frame with
      handled := s.handled ++ [⟨s.memory l d i, frame⟩] } := by
  refine ⟨msgHandler.elim (s.memory l d i) fun handler =>
    (handler n (s.bufs ⟨d, i⟩) (s.memory l d i)).2, ?_⟩
  simp only [SoC.callHandler, addr]
  cases msgHandler with
  | none => rfl
  | some handler => rfl

theorem Lane.work (lane : Lane l .prior s left c)
    (inside : c.worked < c.dispatched) (recv : s'.recv = s.recv) (send : s'.send = s.send)
    (slots : s'.slots = s.slots) {frame : α}
    (memory : s'.memory l .prior = Function.update (s.memory l .prior) (slotOf c.worked) frame) :
    Lane l .prior s' (left ++ [frame]) { c with worked := c.worked + 1 } := by
  have ordered := lane.ordered
  refine ⟨{ ordered with
    collected := Nat.le_succ_of_le ordered.collected
    worked := inside }, ?_, ?_, ?_, ?_⟩
  · rw [recv, send, slots]
    exact lane.rings
  · rw [slots]
    exact lane.colors
  · rw [recv, slots, memory]
    exact lane.input.work ordered inside frame
  · have extended := lane.output.extend ordered lane.input.received lane.input.leftLength [] [frame]
    rw [List.append_nil] at extended
    rw [recv, send]
    exact { extended with }

theorem workerStep_lane (forward : Forward l s c) (inside : c.worked < c.dispatched)
    (room : c.worked + 1 < c.collected + kWsQueueSize) (msgHandler : Option (SoC.MsgHandler α))
    (i : Nat) :
    ∃ queue s', s.tmpWorkerRxQueue.dequeue = (some (ptr .prior c.worked), queue) ∧
      (SoC.callHandler { s with tmpWorkerRxQueue := queue } msgHandler i (ptr .prior c.worked)).forward
        (some (ptr .prior c.worked)) = s' ∧
      s'.recv = s.recv ∧ s'.send = s.send ∧ SameLane l .next s s' ∧
      Forward l s' { c with worked := c.worked + 1 } := by
  have workers := forward.workers
  obtain ⟨queue, taken, rest⟩ := workers.rxQueue.dequeue inside
  obtain ⟨txQueue, accepted, stores⟩ := workers.txQueue.enqueue room
  let t : SoC α := { s with tmpWorkerRxQueue := queue }
  let u := t.callHandler msgHandler i (ptr .prior c.worked)
  have addr : (s.bufs (ptr .prior c.worked)).buf = l.addr .prior (slotOf c.worked) :=
    forward.lane.rings.buf _
  let found := s.memory l .prior (slotOf c.worked)
  obtain ⟨frame, called⟩ : ∃ frame, u = { t.setMem (l.addr .prior (slotOf c.worked)) frame with
      handled := s.handled ++ [⟨found, frame⟩] } := callHandler_eq t msgHandler i addr
  have memory : u.memory l .prior =
      Function.update (s.memory l .prior) (slotOf c.worked) frame := by
    rw [called]
    exact t.setMem_memory .prior l (slotOf c.worked) frame
  have handled : u.handled.map Handled.left = s.handled.map Handled.left ++ [frame] := by
    rw [called]
    simp only [List.map_append, List.map_cons, List.map_nil]
  have recv : u.recv = s.recv := by rw [called]; rfl
  have send : u.send = s.send := by rw [called]; rfl
  have slots : u.slots = s.slots := by rw [called]; rfl
  have queues : u.tmpWorkerTxQueue = s.tmpWorkerTxQueue := by rw [called]; rfl
  have forwarded : u.forward (some (ptr .prior c.worked)) = { u with tmpWorkerTxQueue := txQueue } := by
    rw [SoC.forward, queues, accepted]
  refine ⟨queue, { u with tmpWorkerTxQueue := txQueue }, taken, forwarded, recv, send, ?_, ?_, ?_⟩
  · refine ⟨congrFun recv _, congrFun send _, congrFun slots _, fun k => ?_⟩
    change u.memory l Side.prior.other (slotOf k) = _
    rw [called]
    exact t.setMem_memory_other .prior l c.worked k frame
  · change Lane l .prior _ (u.handled.map Handled.left) _
    rw [handled]
    apply forward.lane.work inside
    · exact recv
    · exact send
    · exact slots
    · exact memory
  · have all : u.handled = s.handled ++ [⟨found, frame⟩] := by rw [called]
    refine ⟨?_, stores, ?_, ?_, ?_⟩
    · change u.tmpWorkerRxQueue.Stores _ _ _
      rw [called]
      exact rest
    · change u.handled.length = c.worked + 1
      rw [all, List.length_append, workers.handled, List.length_singleton]
    · intro k p m there done
      change (u.recv .prior).received[k]? = some p at there
      change u.handled[k]? = some m at done
      rw [recv] at there
      rw [all] at done
      rcases snoc_getElem? done with ⟨-, before⟩ | ⟨rfl, rfl⟩
      · exact workers.found k p m there before
      · rw [workers.handled] at there
        exact forward.lane.input.found _ p there le_rfl
    · change u.fullBranches = 0
      rw [called]
      exact workers.fullBranches

theorem workerLoop_lane (forward : Forward l s c) {n : Nat} (inside : c.worked + n ≤ c.dispatched)
    (room : c.worked + n < c.collected + kWsQueueSize) (msgHandler : Option (SoC.MsgHandler α))
    (i : Nat) :
    ∃ s', SoC.workerLoop msgHandler n i s = .ok s' ∧ s'.recv = s.recv ∧ s'.send = s.send ∧
      SameLane l .next s s' ∧ Forward l s' { c with worked := c.worked + n } := by
  induction n generalizing s c i with
  | zero => exact ⟨s, rfl, rfl, rfl, .refl l _ s, forward⟩
  | succ n ih =>
      obtain ⟨queue, t, taken, handled, recv, send, same, moved⟩ :=
        workerStep_lane forward (by omega) (by omega) msgHandler i
      obtain ⟨s', ran, recvLater, sendLater, later, done⟩ := ih moved
        (by change c.worked + 1 + n ≤ c.dispatched; omega)
        (by change c.worked + 1 + n < c.collected + kWsQueueSize; omega) (i + 1)
      refine ⟨s', ?_, recvLater.trans recv, sendLater.trans send, same.trans later, ?_⟩
      · rw [SoC.workerLoop]
        simp only [taken, handled]
        exact ran
      · rw [Nat.add_comm n 1, ← Nat.add_assoc]
        exact done

def Counts.handling (c : Counts) : Nat :=
  if kAppRxMsgBatchSize < c.dispatched - c.worked then c.dispatched else c.worked

theorem worker_lane (forward : Forward l s c) (collected : c.collected = c.worked)
    (msgHandler : Option (SoC.MsgHandler α)) :
    ∃ s', s.worker msgHandler = .ok s' ∧ s'.recv = s.recv ∧ s'.send = s.send ∧
      SameLane l .next s s' ∧ Forward l s' { c with worked := c.handling } := by
  have room := forward.workers.rxQueue.room
  have ordered := forward.lane.ordered.worked
  have size : s.tmpWorkerRxQueue.getSize / 1 = c.dispatched - c.worked := by
    rw [forward.workers.rxQueue.getSize, Nat.div_one]
  by_cases enough : kAppRxMsgBatchSize < c.dispatched - c.worked
  · obtain ⟨s', ran, recv, send, same, done⟩ := workerLoop_lane forward
      (by omega : c.worked + (c.dispatched - c.worked) ≤ c.dispatched) (by omega) msgHandler 0
    refine ⟨s', ?_, recv, send, same, ?_⟩
    · rw [SoC.worker]
      simp only [size, if_pos enough, Nat.mul_one, ran]
    · rw [Nat.add_sub_cancel' ordered] at done
      rw [Counts.handling, if_pos enough]
      exact done
  · refine ⟨s, ?_, rfl, rfl, .refl l _ s, ?_⟩
    · rw [SoC.worker]
      simp only [size, if_neg enough]
    · rw [Counts.handling, if_neg enough]
      exact forward

theorem collectLoop_lane (forward : Forward l s c) (heads : Heads .prior s c) {n : Nat}
    (inside : c.collected + n ≤ c.worked) :
    ∃ s', SoC.collectLoop n s = s' ∧ SameLane l .next s s' ∧
      Forward l s' { c with collected := c.collected + n } ∧
      Heads .prior s' { c with collected := c.collected + n } := by
  induction n generalizing s c with
  | zero => exact ⟨s, rfl, .refl l _ s, forward, heads⟩
  | succ n ih =>
      have ordered := forward.lane.ordered
      obtain ⟨queue, taken, rest⟩ := forward.workers.txQueue.dequeue (by omega)
      let t := s.send .next
      let t' := { t with
        txQueue := Function.update t.txQueue t.txQueueIdx (some (ptr .prior c.collected))
        txQueueIdx := t.txQueueIdx + 1 }
      let u : SoC α := { s with tmpWorkerTxQueue := queue }.setSend .next t'
      have stepped : SoC.collectLoop (n + 1) s = SoC.collectLoop n u := by
        rw [SoC.collectLoop]
        simp only [taken]
        rfl
      have moved : Forward l u { c with collected := c.collected + 1 } := by
        have lane : Lane l .prior { s with tmpWorkerTxQueue := queue }
            (s.handled.map Handled.left) c := { forward.lane with }
        refine ⟨lane.sending t' { ordered with
            mounted := Nat.le_succ_of_le ordered.mounted
            collected := (by omega : c.collected + 1 ≤ c.worked) } rfl lane.colors
          { lane.input with } lane.output.collect, { forward.workers with txQueue := rest }⟩
      have send : u.send .next = t' := SoC.setSend_send ..
      have movedHeads : Heads .prior u { c with collected := c.collected + 1 } := by
        refine ⟨heads.recvHead, heads.ringHead, heads.waitForDisp, ?_, ?_⟩
        · rw [show u.send Side.prior.other = t' from send]
          exact heads.freeSendWrNum
        · rw [show u.send Side.prior.other = t' from send]
          exact heads.reaped
      have elsewhere : SameLane l .next s u :=
        ⟨rfl, SoC.setSend_other _ .prior t', rfl, fun _ => rfl⟩
      obtain ⟨s', ran, same, done, doneHeads⟩ := ih moved movedHeads
        (by change c.collected + 1 + n ≤ c.worked; omega)
      refine ⟨s', stepped.trans ran, elsewhere.trans same, ?_, ?_⟩
      · rw [Nat.add_comm n 1, ← Nat.add_assoc]
        exact done
      · rw [Nat.add_comm n 1, ← Nat.add_assoc]
        exact doneHeads

theorem collectTxPkts_lane (forward : Forward l s c) (heads : Heads .prior s c)
    (queued : c.queued = c.collected) :
    ∃ s', s.collectTxPkts = s' ∧ SameLane l .next s s' ∧
      Forward l s' { c with collected := c.worked } ∧
      Heads .prior s' { c with collected := c.worked } := by
  have idx : c.queued + (s.send .next).txQueueIdx = c.collected := forward.lane.output.txQueueIdx
  have room := forward.workers.txQueue.room
  have ordered := forward.lane.ordered.collected
  obtain ⟨s', ran, same, done, doneHeads⟩ := collectLoop_lane forward heads
    (by omega : c.collected + (c.worked - c.collected) ≤ c.worked)
  rw [Nat.add_sub_cancel' ordered] at done doneHeads
  refine ⟨s', ?_, same, done, doneHeads⟩
  have small : ¬ kNumTxRingEntries - (s.send .next).txQueueIdx < c.worked - c.collected := by
    simp only [kNumTxRingEntries, kWsQueueSize] at *
    omega
  rw [SoC.collectTxPkts]
  simp only [forward.workers.txQueue.getSize, if_neg small]
  exact ran

def Counts.direct (c : Counts) (n : Nat) : Counts :=
  { c with collected := c.collected + n, worked := c.worked + n, dispatched := c.dispatched + n }

def frames (received : List (Received α)) : List α := received.map fun p => p.completion.frame

theorem Lane.direct (lane : Lane l d s ((frames (s.recv d).received).take c.worked) c)
    (dispatched : c.dispatched = c.worked) (more : c.worked < c.measured) :
    Lane l d (s.setSend d.other { s.send d.other with
        txQueue := Function.update (s.send d.other).txQueue (s.send d.other).txQueueIdx
          (some (ptr d c.collected))
        txQueueIdx := (s.send d.other).txQueueIdx + 1 })
      ((frames (s.recv d).received).take (c.worked + 1)) (c.direct 1) := by
  have ordered := lane.ordered
  obtain ⟨p, there⟩ : ∃ p, (s.recv d).received[c.worked]? = some p := by
    have arrived : c.worked < (s.recv d).received.length := by
      rw [lane.input.received]
      exact more.trans_le ordered.measured
    exact ⟨_, List.getElem?_eq_getElem arrived⟩
  have frame : (frames (s.recv d).received)[c.worked]? = some p.completion.frame := by
    rw [frames, List.getElem?_map, there]
    rfl
  have longer : (frames (s.recv d).received).take (c.worked + 1) =
      (frames (s.recv d).received).take c.worked ++ [p.completion.frame] := by
    rw [List.take_add_one, frame]
    rfl
  have between : ({ c with dispatched := c.dispatched + 1 } : Counts).Ordered :=
    { ordered with
      worked := Nat.le_succ_of_le ordered.worked
      dispatched := (by omega : c.dispatched + 1 ≤ c.measured) }
  -- The frame stays in its place.
  have begun : Input l d (s.recv d) (s.slots d) (s.memory l d)
      ((frames (s.recv d).received).take c.worked) { c with dispatched := c.dispatched + 1 } :=
    { lane.input with }
  have worked := begun.work between (by change c.worked < c.dispatched + 1; omega)
    p.completion.frame
  rw [← lane.input.found _ p there le_rfl, Function.update_eq_self,
    lane.input.found _ p there le_rfl, ← longer] at worked
  have output := lane.output.extend ordered lane.input.received lane.input.leftLength []
    [p.completion.frame]
  rw [List.append_nil, ← longer] at output
  have later : (c.direct 1).Ordered :=
    { between with
      mounted := Nat.le_succ_of_le ordered.mounted
      collected := Nat.succ_le_succ ordered.collected
      worked := Nat.succ_le_succ ordered.worked }
  exact lane.sending _ later rfl lane.colors { worked with } { output.collect with }

theorem directLoop_lane {head : Nat} (lane : Lane l d s ((frames (s.recv d).received).take c.worked) c)
    (dispatched : c.dispatched = c.worked) (collected : c.collected = c.worked) {n i : Nat}
    (inside : c.worked + n ≤ c.measured) (ringHead : (s.recv d).ringHead = slotOf head)
    (start : head + i = c.worked) :
    ∃ t, SoC.directLoop d d.other n i s = s.setSend d.other t ∧
      t.freeSendWrNum = (s.send d.other).freeSendWrNum ∧ t.reaped = (s.send d.other).reaped ∧
      Lane l d (s.setSend d.other t) ((frames (s.recv d).received).take (c.worked + n))
        (c.direct n) := by
  induction n generalizing s c i with
  | zero =>
      have same : s.setSend d.other (s.send d.other) = s := by
        rw [SoC.setSend, Function.update_eq_self]
      exact ⟨s.send d.other, same.symm, rfl, rfl, by rw [same]; exact lane⟩
  | succ n ih =>
      have entry : (s.recv d).rxRing (((s.recv d).ringHead + i) % kNumRxRingEntries) =
          ptr d c.collected := by
        rw [ringHead, slotOf_add, start, lane.rings.rxRing, collected, ptr]
      let u := s.setSend d.other { s.send d.other with
        txQueue := Function.update (s.send d.other).txQueue (s.send d.other).txQueueIdx
          (some (ptr d c.collected))
        txQueueIdx := (s.send d.other).txQueueIdx + 1 }
      have send : u.send d.other = _ := SoC.setSend_send ..
      have moved : Lane l d u ((frames (u.recv d).received).take (c.direct 1).worked) (c.direct 1) :=
        lane.direct dispatched (by omega)
      obtain ⟨t', ran, free, reaped, done⟩ := ih moved (congrArg (· + 1) dispatched)
        (congrArg (· + 1) collected) (by change c.worked + 1 + n ≤ c.measured; omega) ringHead
        (by change head + (i + 1) = c.worked + 1; omega)
      have joined : u.setSend d.other t' = s.setSend d.other t' := by
        simp only [u, SoC.setSend, Function.update_idem]
      rw [send] at free reaped
      rw [joined] at ran done
      refine ⟨t', ?_, free, reaped, ?_⟩
      · rw [SoC.directLoop]
        simp only [entry]
        exact ran
      · have counts : (c.direct 1).direct n = c.direct (n + 1) := by
          simp only [Counts.direct, Nat.add_assoc, Nat.add_comm 1 n]
        rw [counts, show (c.direct 1).worked + n = c.worked + (n + 1) by
          simp only [Counts.direct]; omega] at done
        exact done

theorem directTxBurst_lane
    (lane : Lane l d s ((frames (s.recv d).received).take c.worked) c) (heads : Heads d s c)
    (dispatched : c.dispatched = c.worked) (collected : c.collected = c.worked)
    (queued : c.queued = c.collected) (measured : c.measured = c.completed) :
    ∃ n s', s.directTxBurst d d.other = (n, s') ∧ SameLane l d.other s s' ∧ SameWorker s s' ∧
      (s'.recv d).received = (s.recv d).received ∧
      Lane l d s' (frames (s.recv d).received) (c.direct (c.completed - c.worked)) ∧
      Heads d s' (c.direct (c.completed - c.worked)) := by
  have ordered := lane.ordered
  have low := ordered.worked_completed
  have idx := lane.output.txQueueIdx
  have waiting := heads.waitForDisp
  have number : (s.recv d).waitForDisp = c.completed - c.worked := by omega
  have room : c.completed ≤ c.worked + kNumRxRingEntries := by
    have := ordered.completed; have := ordered.ends
    omega
  obtain ⟨t, ran, free, reaped, done⟩ := directLoop_lane lane dispatched collected
    (by omega : c.worked + (c.completed - c.worked) ≤ c.measured) heads.ringHead
    (by omega : c.dispatched + 0 = c.worked)
  let u := s.setSend d.other t
  let s' := u.setRecv d { u.recv d with
    ringHead := ((u.recv d).ringHead + (c.completed - c.worked)) % kNumRxRingEntries
    waitForDisp := (u.recv d).waitForDisp - (c.completed - c.worked) }
  have amount : (if (s.recv d).waitForDisp < kNumTxRingEntries - (s.send d.other).txQueueIdx then
      (s.recv d).waitForDisp else kNumTxRingEntries - (s.send d.other).txQueueIdx) =
        c.completed - c.worked := by
    rw [sendRing]
    split_ifs with less
    · exact number
    · omega
  have recvs : s'.recv d = _ := SoC.setRecv_recv ..
  have sends : s'.send d.other = t := SoC.setSend_send ..
  have all : (frames (s.recv d).received).take (c.worked + (c.completed - c.worked)) =
      frames (s.recv d).received := by
    rw [List.take_of_length_le]
    rw [frames, List.length_map, lane.input.received]
    omega
  rw [all] at done
  refine ⟨c.completed - c.worked, s', ?_, ?_, ⟨rfl, rfl, rfl, rfl⟩, ?_, done.waiting _ _, ?_⟩
  · rw [SoC.directTxBurst]
    simp only [amount, ran]
    rfl
  · have one : SameLane l d.other s u := (OnlySends.setSend l s d t).same
    exact one.trans ⟨u.setRecv_recv_other d _, rfl, rfl, fun _ => rfl⟩
  · rw [recvs]
    rfl
  · refine ⟨?_, ?_, ?_, ?_, ?_⟩
    · rw [recvs]
      exact heads.recvHead
    · rw [recvs]
      change ((s.recv d).ringHead + _) % _ = slotOf (c.dispatched + _)
      rw [heads.ringHead, slotOf_add]
    · rw [recvs]
      change c.dispatched + _ + ((s.recv d).waitForDisp - _) = c.completed
      omega
    · rw [sends, free]
      exact heads.freeSendWrNum
    · rw [sends, reaped]
      exact heads.reaped

end Nicc.Soc

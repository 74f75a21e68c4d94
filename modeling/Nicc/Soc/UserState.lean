import Nicc.Soc.Forwarding

/-!
# The user's handlers and their state

The wrapper gets the user's state from the init handler, shows it to the message handler with every
message, and leaves it to the cleanup handler at its end.
-/

namespace Nicc.Soc
open Lib

variable {α σ : Type}

structure UserStateInfo (σ : Type) where
  state : Option σ
  size : Nat

structure Msg (α : Type) where
  buffer : Buffer BufPtr
  frame : α

/-- What a message handler does. The Buffer's own fields, its length among them, it leaves alone. -/
structure Reply (α σ : Type) where
  ret : Retval
  frame : α
  state : Option σ

/-- The message handler may change the object that it is shown, not whether there is one. -/
structure UserHandlers (α σ : Type) where
  initHandler : Option (UserStateInfo σ)
  msgHandler : Option (Msg α → Option σ → Reply α σ)
  cleanupHandler : Bool
  keeps : ∀ handler, msgHandler = some handler →
    ∀ msg state, (handler msg state).state.isSome = state.isSome

/-- `told` and `cleanedUp` record the messages that were handled and the objects that were cleaned
up. -/
structure Wrapper (α σ : Type) where
  soc : SoC α
  userState : Option σ
  userStateSize : Nat
  told : List (Msg α)
  cleanedUp : List σ

structure NicAnswers (α : Type) where
  recvPrior : Int × SoC.RecvPoll α
  flushNext : List SoC.SendPoll
  recvNext : Int × SoC.RecvPoll α
  flushPrior : List SoC.SendPoll

def NicAnswers.withHandler (n : NicAnswers α) (msgHandler : Option (SoC.MsgHandler α)) :
    SoC.Answers α :=
  ⟨n.recvPrior, msgHandler, n.flushNext, n.recvNext, n.flushPrior⟩

def NicAnswers.alone (n : NicAnswers α) : SoC.Answers α := n.withHandler none

def NicAnswers.Polled (n : NicAnswers α) : Prop := n.alone.Polled

def SoC.sendCollected (s : SoC α) (flushNext : List SendPoll) : Step α (SoC α) :=
  let s := s.collectTxPkts
  if kTxBatchSize ≤ (s.send .next).txQueueIdx then do
    let (_, s) ← s.txFlush .next flushNext
    return s
  else if flushNext = [] then return s
  else throw (.impossible, s)

namespace Wrapper

def start (h : UserHandlers α σ) (soc : SoC α) : Wrapper α σ :=
  match h.initHandler with
  | some info =>
      match info.state with
      | some state => ⟨soc, some state, info.size, [], []⟩
      | none => ⟨soc, none, 0, [], []⟩
  | none => ⟨soc, none, 0, [], []⟩

def handle (h : UserHandlers α σ) (w : Wrapper α σ) (m : BufPtr) : Wrapper α σ :=
  let msg : Msg α := ⟨w.soc.bufs m, w.soc.mem (w.soc.bufs m).buf⟩
  let told := w.told ++ [msg]
  match h.msgHandler with
  | some handler =>
      let reply := handler msg w.userState
      { w with
        soc := w.soc.callHandler (some fun _ _ _ => (reply.ret, reply.frame)) 0 m
        userState := reply.state
        told := told }
  | none => { w with soc := w.soc.callHandler none 0 m, told := told }

def workerLoop (h : UserHandlers α σ) : Nat → Wrapper α σ → SoC.Step α (Wrapper α σ)
  | 0, w => .ok w
  | left + 1, w =>
      let (m, queue) := w.soc.tmpWorkerRxQueue.dequeue
      let w := { w with soc := { w.soc with tmpWorkerRxQueue := queue } }
      match m with
      | some p =>
          let w := w.handle h p
          workerLoop h left { w with soc := w.soc.forward m }
      | none =>
          if h.msgHandler.isSome then .error (.nullPointer, w.soc)
          else workerLoop h left { w with soc := w.soc.forward m }

def worker (h : UserHandlers α σ) (w : Wrapper α σ) : SoC.Step α (Wrapper α σ) :=
  let msgNum := w.soc.tmpWorkerRxQueue.getSize / 1
  if kAppRxMsgBatchSize < msgNum then workerLoop h (msgNum * 1) w else .ok w

def launch (h : UserHandlers α σ) (w : Wrapper α σ) (n : NicAnswers α) :
    SoC.Step α (Wrapper α σ) := do
  let (_, s) ← w.soc.rxBurst .prior n.recvPrior.1 n.recvPrior.2
  let (_, s) ← s.dispatchRxPkts
  let w ← worker h { w with soc := s }
  let s ← w.soc.sendCollected n.flushNext
  let s ← s.launchTx n.alone
  return { w with soc := s }

def finish (h : UserHandlers α σ) (w : Wrapper α σ) : Wrapper α σ :=
  match w.userState with
  | some state =>
      if h.cleanupHandler then { w with cleanedUp := w.cleanedUp ++ [state], userState := none }
      else w
  | none => w

end Wrapper

/-! ## What the handlers do with a stream of messages -/

namespace UserHandlers

variable (h : UserHandlers α σ)

def initialState : Option σ := h.initHandler.bind UserStateInfo.state

def reply (msg : Msg α) (state : Option σ) : Reply α σ :=
  match h.msgHandler with
  | some handler => handler msg state
  | none => ⟨.NICC_SUCCESS, msg.frame, state⟩

def stateAfter (msgs : List (Msg α)) : Option σ :=
  msgs.foldl (fun state msg => (h.reply msg state).state) h.initialState

def transcript (msgs : List (Msg α)) : List (Handled α) :=
  msgs.mapIdx fun k msg => ⟨msg.frame, (h.reply msg (h.stateAfter (msgs.take k))).frame⟩

theorem stateAfter_snoc (msgs : List (Msg α)) (msg : Msg α) :
    h.stateAfter (msgs ++ [msg]) = (h.reply msg (h.stateAfter msgs)).state := by
  rw [stateAfter, List.foldl_append]
  rfl

theorem transcript_snoc (msgs : List (Msg α)) (msg : Msg α) :
    h.transcript (msgs ++ [msg]) =
      h.transcript msgs ++ [⟨msg.frame, (h.reply msg (h.stateAfter msgs)).frame⟩] := by
  rw [transcript, List.mapIdx_append]
  congr 1
  · apply List.ext_getElem (by simp [transcript])
    intro k inside _
    rw [List.length_mapIdx] at inside
    simp only [transcript, List.getElem_mapIdx]
    rw [List.take_append_of_le_length inside.le]
  · simp

theorem reply_isSome (msg : Msg α) (state : Option σ) :
    (h.reply msg state).state.isSome = state.isSome := by
  rw [reply]
  split
  case h_1 handler registered => exact h.keeps handler registered msg state
  case h_2 => rfl

theorem stateAfter_isSome (msgs : List (Msg α)) :
    (h.stateAfter msgs).isSome = h.initialState.isSome := by
  induction msgs using List.reverseRecOn with
  | nil => rfl
  | append_singleton msgs msg ih => rw [stateAfter_snoc, reply_isSome, ih]

end UserHandlers

/-! ## The wrapper refines the datapath -/

variable {h : UserHandlers α σ} {w w' : Wrapper α σ}

/-- A handler without a state, registered where the user's is, that answers its `i`-th call of a
launch with `f i`. -/
def UserHandlers.answering (h : UserHandlers α σ) (f : Nat → Retval × α) :
    Option (SoC.MsgHandler α) :=
  h.msgHandler.map fun _ i _ _ => f i

theorem UserHandlers.answering_isSome (h : UserHandlers α σ) (f : Nat → Retval × α) :
    (h.answering f).isSome = h.msgHandler.isSome := Option.isSome_map

theorem callHandler_answering (s : SoC α) {f g : Nat → Retval × α} {i j : Nat} (same : f i = g j)
    (m : BufPtr) : s.callHandler (h.answering f) i m = s.callHandler (h.answering g) j m := by
  rw [UserHandlers.answering, UserHandlers.answering]
  cases h.msgHandler with
  | none => rfl
  | some handler => simp only [SoC.callHandler, Option.map_some, same]

theorem handle_eq (h : UserHandlers α σ) (w : Wrapper α σ) (m : BufPtr) :
    w.handle h m =
      let msg : Msg α := ⟨w.soc.bufs m, w.soc.mem (w.soc.bufs m).buf⟩
      let reply := h.reply msg w.userState
      { w with
        soc := w.soc.callHandler (h.answering fun _ => (reply.ret, reply.frame)) 0 m
        userState := reply.state
        told := w.told ++ [msg] } := by
  cases registered : h.msgHandler with
  | some handler =>
      simp only [Wrapper.handle, UserHandlers.answering, UserHandlers.reply, registered,
        Option.map_some]
  | none =>
      simp only [Wrapper.handle, UserHandlers.answering, UserHandlers.reply, registered,
        Option.map_none]

theorem workerLoop_congr {f g : Nat → Retval × α} {i : Nat} (same : ∀ j, i ≤ j → f j = g j) (n : Nat)
    (s : SoC α) :
    SoC.workerLoop (h.answering f) n i s = SoC.workerLoop (h.answering g) n i s := by
  induction n generalizing i s with
  | zero => rfl
  | succ n ih =>
      have later : ∀ j, i + 1 ≤ j → f j = g j := fun j le => same j (Nat.le_of_succ_le le)
      rw [SoC.workerLoop, SoC.workerLoop]
      cases taken : s.tmpWorkerRxQueue.dequeue with
      | mk m queue =>
          cases m with
          | some p =>
              simp only [callHandler_answering _ (same i le_rfl)]
              exact ih later _
          | none =>
              simp only [UserHandlers.answering_isSome]
              split_ifs
              · rfl
              · exact ih later _

/-- What the user's handler does in one launch, a handler without a state could do as well. -/
theorem workerLoop_refines {n : Nat} (ran : Wrapper.workerLoop h n w = .ok w') (i : Nat) :
    ∃ f, SoC.workerLoop (h.answering f) n i w.soc = .ok w'.soc := by
  induction n generalizing w i with
  | zero =>
      cases ran
      exact ⟨fun _ => (.NICC_SUCCESS, w'.soc.mem 0), rfl⟩
  | succ n ih =>
      rw [Wrapper.workerLoop] at ran
      cases taken : w.soc.tmpWorkerRxQueue.dequeue with
      | mk m queue =>
          simp only [taken] at ran
          cases m with
          | some p =>
              simp only [handle_eq] at ran
              obtain ⟨f, rest⟩ := ih ran (i + 1)
              let msg : Msg α := ⟨w.soc.bufs p, w.soc.mem (w.soc.bufs p).buf⟩
              let reply := h.reply msg w.userState
              have later : ∀ j, i + 1 ≤ j → Function.update f i (reply.ret, reply.frame) j = f j :=
                fun j le => Function.update_of_ne (by omega) _ _
              refine ⟨Function.update f i (reply.ret, reply.frame), ?_⟩
              rw [SoC.workerLoop]
              simp only [taken]
              rw [callHandler_answering (g := fun _ => (reply.ret, reply.frame)) (j := 0) _
                (Function.update_self ..), ← rest]
              exact workerLoop_congr later n _
          | none =>
              simp only at ran
              split_ifs at ran with registered
              obtain ⟨f, rest⟩ := ih ran (i + 1)
              refine ⟨f, ?_⟩
              rw [SoC.workerLoop]
              simp only [taken, UserHandlers.answering_isSome]
              rw [if_neg registered]
              exact rest

theorem worker_refines (ran : Wrapper.worker h w = .ok w') :
    ∃ f, w.soc.worker (h.answering f) = .ok w'.soc := by
  rw [Wrapper.worker] at ran
  split_ifs at ran with enough
  · obtain ⟨f, refines⟩ := workerLoop_refines ran 0
    exact ⟨f, (if_pos enough).trans refines⟩
  · cases ran
    exact ⟨fun _ => (.NICC_SUCCESS, w.soc.mem 0), if_neg enough⟩

structure Launched (h : UserHandlers α σ) (w : Wrapper α σ) (n : NicAnswers α) (w' : Wrapper α σ)
    where
  polled : SoC α
  queued : SoC α
  worked : Wrapper α σ
  flushed : SoC α
  soc : SoC α
  taken : Nat
  dispatched : Nat
  bursts : w.soc.rxBurst .prior n.recvPrior.1 n.recvPrior.2 = .ok (taken, polled)
  dispatches : polled.dispatchRxPkts = .ok (dispatched, queued)
  works : Wrapper.worker h { w with soc := queued } = .ok worked
  sends : worked.soc.sendCollected n.flushNext = .ok flushed
  passes : flushed.launchTx n.alone = .ok soc
  result : w' = { worked with soc := soc }

theorem launch_stages {n : NicAnswers α} (ran : Wrapper.launch h w n = .ok w') :
    Nonempty (Launched h w n w') := by
  simp only [Wrapper.launch, bind_eq_ok, pure_eq_ok, Prod.exists] at ran
  obtain ⟨taken, one, bursts, dispatched, two, dispatches, three, works, four, sends, soc, passes,
    rfl⟩ := ran
  exact ⟨⟨one, two, three, four, soc, taken, dispatched, bursts, dispatches, works, sends, passes,
    rfl⟩⟩

theorem Launched.refines {n : NicAnswers α} (launched : Launched h w n w') :
    ∃ f, w.soc.launch (n.withHandler (h.answering f)) = .ok w'.soc := by
  obtain ⟨one, two, three, four, soc, taken, dispatched, bursts, dispatches, works, sends, passes,
    rfl⟩ := launched
  obtain ⟨f, refines⟩ := worker_refines works
  refine ⟨f, bind_eq_ok.mpr ⟨four, ?_, passes⟩⟩
  rw [SoC.launchRx]
  simp only [NicAnswers.withHandler, bursts, ok_bind, dispatches, refines]
  exact sends

/-! ## Messages in the order of arrival -/

structure Tells (p : Received α) (m : Msg α) : Prop where
  buf : m.buffer.buf = p.wr.sge.addr
  lkey : m.buffer.lkey = p.wr.sge.lkey
  length : m.buffer.length = p.completion.byteLen
  frame : m.frame = p.completion.frame

structure Shown (h : UserHandlers α σ) (w : Wrapper α σ) (worked : Nat) : Prop where
  length : w.told.length = worked
  tells : ∀ (k : Nat) (p : Received α) (m : Msg α), (w.soc.recv .prior).received[k]? = some p →
    w.told[k]? = some m → Tells p m
  state : w.userState = h.stateAfter w.told
  handled : w.soc.handled = h.transcript w.told
  untouched : w.cleanedUp = []

variable {l : Layout} {c : Counts}

theorem Forward.tells (forward : Forward l w.soc c) (inside : c.worked < c.dispatched) {p : Received α}
    (there : (w.soc.recv .prior).received[c.worked]? = some p) :
    Tells p ⟨w.soc.bufs (ptr .prior c.worked),
      w.soc.mem (w.soc.bufs (ptr .prior c.worked)).buf⟩ := by
  have lane := forward.lane
  have ordered := lane.ordered
  have buf : (w.soc.bufs (ptr .prior c.worked)).buf = l.addr .prior (slotOf c.worked) :=
    lane.rings.buf _
  have wr := lane.input.arrived _ p there
  exact {
    buf := by rw [wr]; exact buf
    lkey := by rw [wr]; exact lane.rings.lkey _
    length := lane.input.lengths _ p there ordered.ends.1 (inside.trans_le ordered.dispatched)
    frame := by
      simp only [buf]
      exact lane.input.found _ p there le_rfl }

theorem Shown.handle (shown : Shown h w c.worked) (forward : Forward l w.soc c)
    (inside : c.worked < c.dispatched) {soc : SoC α} (msg : Msg α)
    (same : msg = ⟨w.soc.bufs (ptr .prior c.worked),
      w.soc.mem (w.soc.bufs (ptr .prior c.worked)).buf⟩)
    (recv : soc.recv = w.soc.recv)
    (handled : soc.handled = w.soc.handled ++ [⟨msg.frame, (h.reply msg w.userState).frame⟩]) :
    Shown h { w with
      soc := soc
      userState := (h.reply msg w.userState).state
      told := w.told ++ [msg] } (c.worked + 1) where
  length := by rw [List.length_append, shown.length, List.length_singleton]
  tells k p m there told := by
    change (soc.recv .prior).received[k]? = some p at there
    rw [recv] at there
    rcases snoc_getElem? told with ⟨-, before⟩ | ⟨rfl, rfl⟩
    · exact shown.tells k p m there before
    · rw [shown.length] at there
      rw [same]
      exact forward.tells inside there
  state := by
    change _ = h.stateAfter (w.told ++ [msg])
    rw [h.stateAfter_snoc, ← shown.state]
  handled := by
    change soc.handled = h.transcript (w.told ++ [msg])
    rw [h.transcript_snoc, ← shown.state, ← shown.handled, handled]
  untouched := shown.untouched

theorem forward_handled (s : SoC α) (m : Option BufPtr) : (s.forward m).handled = s.handled := by
  rw [SoC.forward]
  split <;> rfl

theorem callHandler_handled (s : SoC α) (m : BufPtr) (state : Option σ) :
    let msg : Msg α := ⟨s.bufs m, s.mem (s.bufs m).buf⟩
    let reply := h.reply msg state
    (s.callHandler (h.answering fun _ => (reply.ret, reply.frame)) 0 m).handled =
      s.handled ++ [⟨msg.frame, reply.frame⟩] := by
  cases registered : h.msgHandler with
  | some handler =>
      simp only [SoC.callHandler, UserHandlers.answering, UserHandlers.reply, registered,
        Option.map_some]
  | none =>
      simp only [SoC.callHandler, UserHandlers.answering, UserHandlers.reply, registered,
        Option.map_none]

theorem workerLoop_shown (forward : Forward l w.soc c) (shown : Shown h w c.worked) {n : Nat}
    (inside : c.worked + n ≤ c.dispatched) (room : c.worked + n < c.collected + kWsQueueSize)
    (ran : Wrapper.workerLoop h n w = .ok w') :
    w'.soc.recv = w.soc.recv ∧ w'.soc.send = w.soc.send ∧ SameLane l .next w.soc w'.soc ∧
      Forward l w'.soc { c with worked := c.worked + n } ∧ Shown h w' (c.worked + n) := by
  induction n generalizing w c with
  | zero =>
      cases ran
      exact ⟨rfl, rfl, .refl l _ _, forward, shown⟩
  | succ n ih =>
      let p := ptr .prior c.worked
      let msg : Msg α := ⟨w.soc.bufs p, w.soc.mem (w.soc.bufs p).buf⟩
      let reply := h.reply msg w.userState
      obtain ⟨queue, _, taken, rfl, recv, send, same, moved⟩ := workerStep_lane forward
        (by omega) (by omega) (h.answering fun _ => (reply.ret, reply.frame)) 0
      rw [Wrapper.workerLoop] at ran
      simp only [taken, handle_eq] at ran
      have told := shown.handle forward (by omega) msg rfl recv (by
        rw [forward_handled]
        exact callHandler_handled _ p w.userState)
      obtain ⟨recvLater, sendLater, later, done, all⟩ := ih moved told
        (by change c.worked + 1 + n ≤ c.dispatched; omega)
        (by change c.worked + 1 + n < c.collected + kWsQueueSize; omega) ran
      rw [Nat.add_comm n 1, ← Nat.add_assoc]
      exact ⟨recvLater.trans recv, sendLater.trans send, same.trans later, done, all⟩

theorem worker_shown (forward : Forward l w.soc c) (shown : Shown h w c.worked)
    (collected : c.collected = c.worked) (ran : Wrapper.worker h w = .ok w') :
    w'.soc.recv = w.soc.recv ∧ w'.soc.send = w.soc.send ∧ SameLane l .next w.soc w'.soc ∧
      Forward l w'.soc { c with worked := c.handling } ∧ Shown h w' c.handling := by
  have room := forward.workers.rxQueue.room
  have ordered := forward.lane.ordered.worked
  have size : w.soc.tmpWorkerRxQueue.getSize / 1 = c.dispatched - c.worked := by
    rw [forward.workers.rxQueue.getSize, Nat.div_one]
  rw [Wrapper.worker] at ran
  simp only [size, Nat.mul_one] at ran
  split_ifs at ran with enough
  · have handling : c.worked + (c.dispatched - c.worked) = c.handling := by
      rw [Counts.handling, if_pos enough, Nat.add_sub_cancel' ordered]
    rw [← handling]
    exact workerLoop_shown forward shown (by omega) (by omega) ran
  · cases ran
    rw [Counts.handling, if_neg enough]
    exact ⟨rfl, rfl, .refl l _ _, forward, shown⟩

theorem collectLoop_kept (n : Nat) (s : SoC α) :
    (SoC.collectLoop n s).handled = s.handled ∧ (SoC.collectLoop n s).recv = s.recv := by
  induction n generalizing s with
  | zero => exact ⟨rfl, rfl⟩
  | succ n ih => exact ih _

theorem dispatchLoop_kept {left total n : Nat} {p : BufPtr} {s s' : SoC α}
    (ran : SoC.dispatchLoop left p total s = .ok (n, s')) :
    s'.recv = s.recv ∧ s'.handled = s.handled := by
  induction left generalizing p total s with
  | zero =>
      cases ran
      exact ⟨rfl, rfl⟩
  | succ left ih =>
      rw [SoC.dispatchLoop] at ran
      split at ran <;>
      · obtain ⟨next, -, rest⟩ := bind_eq_ok.mp ran
        have later := ih rest
        exact later

theorem dispatchRxPkts_kept {n : Nat} {s s' : SoC α} (ran : s.dispatchRxPkts = .ok (n, s')) :
    (s'.recv .prior).received = (s.recv .prior).received ∧ s'.handled = s.handled := by
  obtain ⟨⟨total, t⟩, loops, rest⟩ := bind_eq_ok.mp ran
  cases rest
  obtain ⟨recv, handled⟩ := dispatchLoop_kept loops
  exact ⟨by simp only [SoC.setRecv_recv, recv], handled⟩

theorem Shown.receive {worked : Nat} (shown : Shown h w worked) {soc : SoC α}
    (more : (w.soc.recv .prior).received <+: (soc.recv .prior).received)
    (length : worked ≤ (w.soc.recv .prior).received.length)
    (handled : soc.handled = w.soc.handled) : Shown h { w with soc := soc } worked where
  length := shown.length
  tells k p m there told := by
    have high := getElem?_lt told
    change k < w.told.length at high
    rw [shown.length] at high
    obtain ⟨packets, extended⟩ := more
    change (soc.recv .prior).received[k]? = some p at there
    rw [← extended, List.getElem?_append_left (high.trans_le length)] at there
    exact shown.tells k p m there told
  state := shown.state
  handled := handled.trans shown.handled
  untouched := shown.untouched

theorem Shown.same {worked : Nat} (shown : Shown h w worked) {soc : SoC α}
    (recv : soc.recv .prior = w.soc.recv .prior) (handled : soc.handled = w.soc.handled) :
    Shown h { w with soc := soc } worked where
  length := shown.length
  tells k p m there told := by
    change (soc.recv .prior).received[k]? = some p at there
    rw [recv] at there
    exact shown.tells k p m there told
  state := shown.state
  handled := handled.trans shown.handled
  untouched := shown.untouched

variable {rx tx : Rest} {n : NicAnswers α}

theorem sendCollected_lane {s u : SoC α} (forward : Forward l s c) (heads : Heads .prior s c)
    (queued : c.queued = c.collected) (sent : c.sent = c.collected)
    (mounted : c.mounted = c.collected) {polls : List SoC.SendPoll}
    (ran : s.sendCollected polls = .ok u) :
    u.recv = s.recv ∧ u.handled = s.handled ∧ SameLane l .next s u := by
  obtain ⟨t, collects, same, collected, collectedHeads⟩ := collectTxPkts_lane forward heads queued
  have kept : t.handled = s.handled ∧ t.recv = s.recv := by
    rw [← collects, SoC.collectTxPkts]
    exact collectLoop_kept _ s
  rw [SoC.sendCollected] at ran
  simp only [collects] at ran
  split_ifs at ran with many none
  · obtain ⟨⟨total, t'⟩, flushes, rest⟩ := bind_eq_ok.mp ran
    cases rest
    obtain ⟨only, -⟩ := txFlush_lane collected.lane collectedHeads (mounted.trans sent.symm)
      (queued.trans sent.symm) flushes
    exact ⟨only.recv.trans kept.2, only.worker.handled.trans kept.1, same.trans only.same⟩
  · cases ran
    exact ⟨kept.2, kept.1, same⟩

def Rest.dispatched (r : Rest) (n : Nat) : Counts :=
  { r.counts.burst n with dispatched := r.completed + n }

theorem dispatched_lane {s : SoC α} {r : Rest} (rest : RxRest l s r) {postRet : Int}
    {wc : List (Completion α)}
    (accepted : r.posted < r.freed + kNumRxRingEntries → postRet = 0)
    (size : wc.length ≤ kRxBatchSize)
    (fits : r.completed + wc.length ≤ r.freed + kNumRxRingEntries) :
    ∃ taken one total two, s.rxBurst .prior postRet (.polled wc) = .ok (taken, one) ∧
      one.dispatchRxPkts = .ok (total, two) ∧ SameLane l .next s two ∧
      (s.recv .prior).received <+: (two.recv .prior).received ∧ two.handled = s.handled ∧
      Forward l two (r.dispatched wc.length) ∧ Heads .prior two (r.dispatched wc.length) := by
  have lane := rest.forward.lane
  have backlog := rest.backlog
  obtain ⟨taken, one, bursts, sameOne, workerOne, more, laneOne, headsOne⟩ :=
    rxBurst_lane lane rest.heads rfl accepted size fits
  have forwardOne : Forward l one (r.counts.burst wc.length) := by
    refine ⟨by rw [workerOne.handled]; exact laneOne, ?_⟩
    have workers := rest.forward.workers.receive workerOne more (by
      rw [lane.input.received]
      exact lane.ordered.worked_completed)
    exact { workers with }
  have room : r.completed + wc.length < r.sent + kWsQueueSize := by
    simp only [kRxBatchSize, kAppRxMsgBatchSize, kWsQueueSize] at *
    omega
  obtain ⟨total, two, dispatches, sameTwo, forwardTwo, headsTwo⟩ :=
    dispatchRxPkts_lane forwardOne headsOne rfl room
  obtain ⟨received, handled⟩ := dispatchRxPkts_kept dispatches
  exact ⟨taken, one, total, two, bursts, dispatches, SameLane.trans sameOne sameTwo,
    received ▸ more, handled.trans workerOne.handled, forwardTwo, headsTwo⟩

theorem Launched.shown (launched : Launched h w n w') (boundary : Boundary l w.soc rx tx)
    (shown : Shown h w rx.sent) (polled : n.Polled) :
    Boundary l w'.soc (rx.launchRx (n.alone.received .prior) (n.alone.reaped .prior))
        (tx.launchTx (n.alone.received .next) (n.alone.reaped .next)) ∧
      Shown h w' (rx.launchRx (n.alone.received .prior) (n.alone.reaped .prior)).sent := by
  obtain ⟨f, ran⟩ := launched.refines
  have moved := launch_boundary boundary (a := n.withHandler (h.answering f)) polled ran
  refine ⟨moved, ?_⟩
  obtain ⟨prior, pollPrior, countPrior⟩ := polled.recv .prior
  obtain ⟨next, pollNext, -⟩ := polled.recv .next
  obtain ⟨one, two, three, four, soc, taken, dispatched, bursts, dispatches, works, sends, passes,
    rfl⟩ := launched
  rw [show n.recvPrior.2 = .polled prior from pollPrior] at bursts
  have lane := boundary.rx.forward.lane
  obtain ⟨accepted, size, fits⟩ := rxBurst_answered lane boundary.rx.heads bursts
  obtain ⟨taken', one', total, two', bursts', dispatches', sameTwo, more, handled, forwardTwo,
    headsTwo⟩ := dispatched_lane boundary.rx accepted size fits
  obtain ⟨rfl, rfl⟩ : taken' = taken ∧ one' = one := by
    rw [bursts'] at bursts
    exact Prod.ext_iff.mp (Except.ok.inj bursts)
  obtain ⟨rfl, rfl⟩ : total = dispatched ∧ two' = two := by
    rw [dispatches'] at dispatches
    exact Prod.ext_iff.mp (Except.ok.inj dispatches)
  have shownTwo : Shown h { w with soc := two' } rx.sent :=
    shown.receive more (by
      rw [lane.input.received]
      exact lane.ordered.worked_completed) handled
  obtain ⟨recv, send, sameThree, forwardThree, shownThree⟩ :=
    worker_shown forwardTwo shownTwo rfl works
  have headsThree := headsTwo.worked recv send (rx.launchRx prior.length 0).sent
  obtain ⟨recvFour, handledFour, sameFour⟩ :=
    sendCollected_lane forwardThree headsThree rfl rfl rfl sends
  have before : SameLane l .next w.soc four := (sameTwo.trans sameThree).trans sameFour
  obtain ⟨sameSoc, workerSoc, -⟩ := launchTx_rest (boundary.tx.same before) pollNext passes
  have recvSoc : soc.recv .prior = three.soc.recv .prior :=
    sameSoc.recv.trans (congrFun recvFour _)
  have shownSoc := shownThree.same recvSoc (workerSoc.handled.trans handledFour)
  rw [show n.alone.received .prior = prior.length from countPrior]
  exact shownSoc

theorem start_shown (h : UserHandlers α σ) {soc : SoC α} (fresh : soc.handled = []) :
    Shown h (Wrapper.start h soc) 0 := by
  rw [Wrapper.start]
  cases registered : h.initHandler with
  | none =>
      refine ⟨rfl, fun _ _ _ _ told => by simp at told, ?_, fresh, rfl⟩
      simp [UserHandlers.stateAfter, UserHandlers.initialState, registered]
  | some info =>
      cases allocated : info.state with
      | none =>
          simp only [allocated]
          refine ⟨rfl, fun _ _ _ _ told => by simp at told, ?_, fresh, rfl⟩
          simp [UserHandlers.stateAfter, UserHandlers.initialState, registered, allocated]
      | some state =>
          simp only [allocated]
          refine ⟨rfl, fun _ _ _ _ told => by simp at told, ?_, fresh, rfl⟩
          simp [UserHandlers.stateAfter, UserHandlers.initialState, registered, allocated]

theorem start_soc (h : UserHandlers α σ) (soc : SoC α) : (Wrapper.start h soc).soc = soc := by
  rw [Wrapper.start]
  split
  · split <;> rfl
  · rfl

theorem launches_shown {nics : List (NicAnswers α)} (boundary : Boundary l w.soc rx tx)
    (shown : Shown h w rx.sent) (polled : ∀ n ∈ nics, n.Polled)
    (ran : run (Wrapper.launch h) w nics = .ok w') :
    ∃ rx' tx', Boundary l w'.soc rx' tx' ∧ Shown h w' rx'.sent ∧
      rx'.completed = rx.completed + receivedIn (nics.map NicAnswers.alone) .prior ∧
      tx'.completed = tx.completed + receivedIn (nics.map NicAnswers.alone) .next ∧
      rx'.sent = workedAfter rx.completed rx.sent (nics.map NicAnswers.alone) := by
  induction nics generalizing w rx tx with
  | nil =>
      cases ran
      exact ⟨rx, tx, boundary, shown, rfl, rfl, rfl⟩
  | cons n nics ih =>
      obtain ⟨w₁, first, rest⟩ := run_cons_ok.mp ran
      obtain ⟨polledFirst, polledRest⟩ := List.forall_mem_cons.mp polled
      obtain ⟨stages⟩ := launch_stages first
      obtain ⟨moved, shownFirst⟩ := stages.shown boundary shown polledFirst
      obtain ⟨rx', tx', done, shownAll, received, receivedNext, worked⟩ :=
        ih moved shownFirst polledRest rest
      simp only [receivedIn, List.map_cons, List.sum_cons, ← Nat.add_assoc] at received receivedNext ⊢
      exact ⟨rx', tx', done, shownAll, received, receivedNext, worked⟩

theorem run_shown (h : UserHandlers α σ) {raw : Buffer BufPtr} {mem : Nat → α} {s : SoC α}
    (started : SoC.channelSoC raw mem = .ok s) {nics : List (NicAnswers α)}
    (polled : ∀ n ∈ nics, n.Polled)
    (ran : run (Wrapper.launch h) (Wrapper.start h s) nics = .ok w) :
    ∃ rx tx, Boundary (layout raw) w.soc rx tx ∧ Shown h w rx.sent ∧
      Answered w.soc (nics.map NicAnswers.alone) ((w.soc.recv .prior).received.take rx.sent) := by
  have boundary := channelSoC_boundary started
  have fresh : s.handled = [] := List.length_eq_zero_iff.mp boundary.rx.forward.workers.handled
  rw [← start_soc h s] at boundary
  obtain ⟨rx, tx, done, shown, prior, next, worked⟩ :=
    launches_shown boundary (start_shown h fresh) polled ran
  exact ⟨rx, tx, done, shown,
    done.answered (prior.trans (Nat.zero_add _)) (next.trans (Nat.zero_add _)) worked⟩

/-! ## Launches of the wrapper go through -/

theorem workerLoop_runs (h : UserHandlers α σ) (forward : Forward l w.soc c) {n : Nat}
    (inside : c.worked + n ≤ c.dispatched) (room : c.worked + n < c.collected + kWsQueueSize) :
    ∃ w', Wrapper.workerLoop h n w = .ok w' := by
  induction n generalizing w c with
  | zero => exact ⟨w, rfl⟩
  | succ n ih =>
      let p := ptr .prior c.worked
      let msg : Msg α := ⟨w.soc.bufs p, w.soc.mem (w.soc.bufs p).buf⟩
      let reply := h.reply msg w.userState
      obtain ⟨queue, _, taken, rfl, -, -, -, moved⟩ := workerStep_lane forward
        (by omega) (by omega) (h.answering fun _ => (reply.ret, reply.frame)) 0
      rw [Wrapper.workerLoop]
      simp only [taken, handle_eq]
      exact ih moved (by change c.worked + 1 + n ≤ c.dispatched; omega)
        (by change c.worked + 1 + n < c.collected + kWsQueueSize; omega)

theorem worker_runs (h : UserHandlers α σ) (forward : Forward l w.soc c)
    (collected : c.collected = c.worked) : ∃ w', Wrapper.worker h w = .ok w' := by
  have room := forward.workers.rxQueue.room
  have ordered := forward.lane.ordered.worked
  have size : w.soc.tmpWorkerRxQueue.getSize / 1 = c.dispatched - c.worked := by
    rw [forward.workers.rxQueue.getSize, Nat.div_one]
  rw [Wrapper.worker]
  simp only [size, Nat.mul_one]
  split_ifs
  · exact workerLoop_runs h forward (by omega) (by omega)
  · exact ⟨w, rfl⟩

def Rest.nicAnswers (rx : Rest) (prior next : List (Completion α)) : NicAnswers α :=
  let a := rx.answers prior next
  ⟨a.recvPrior, a.flushNext, a.recvNext, a.flushPrior⟩

theorem wrapper_launch_runs (h : UserHandlers α σ) (boundary : Boundary l w.soc rx tx)
    (prior next : List (Completion α)) (sizePrior : prior.length ≤ kRxBatchSize)
    (sizeNext : next.length ≤ kRxBatchSize)
    (fitsPrior : rx.completed + prior.length ≤ rx.freed + kNumRxRingEntries)
    (fitsNext : tx.completed + next.length ≤ tx.freed + kNumRxRingEntries) :
    ∃ w', Wrapper.launch h w (rx.nicAnswers prior next) = .ok w' := by
  obtain ⟨taken, one, total, two, bursts, dispatches, sameTwo, more, handled, forward, heads⟩ :=
    dispatched_lane boundary.rx (fun _ => rfl : _ → (0 : Int) = 0) sizePrior fitsPrior
  obtain ⟨three, works⟩ := worker_runs h (w := { w with soc := two }) forward rfl
  obtain ⟨f, refines⟩ := worker_refines works
  let n : NicAnswers α := rx.nicAnswers prior next
  obtain ⟨four, first⟩ := launchRx_runs boundary.rx sizePrior fitsPrior
    (a := n.withHandler (h.answering f)) rfl rfl
  have sends : three.soc.sendCollected n.flushNext = .ok four := by
    rw [← first, SoC.launchRx]
    have answered : w.soc.rxBurst .prior n.recvPrior.1 n.recvPrior.2 = .ok (taken, one) := bursts
    simp only [NicAnswers.withHandler, answered, ok_bind, dispatches, refines]
    rfl
  obtain ⟨same, -⟩ := launchRx_rest boundary.rx (a := n.withHandler (h.answering f)) rfl first
  obtain ⟨soc, passes⟩ := launchTx_runs (boundary.tx.same same) sizeNext fitsNext
    (a := n.alone) rfl rfl
  refine ⟨{ three with soc := soc }, ?_⟩
  simp only [Wrapper.launch, bind_eq_ok, pure_eq_ok, Prod.exists]
  exact ⟨taken, one, bursts, total, two, dispatches, three, works, four, sends, soc, passes, rfl⟩

/-! ## The user's view of a run -/

/-- What holds after any number of launches: each packet but the last few was shown to the message
handler once and in order, and the user's state is what the handler has made of it. The destructor
cleans it up once. -/
structure HandledInOrder (h : UserHandlers α σ) (w : Wrapper α σ) (sent waiting : List (Received α)) :
    Prop where
  forwarded : Forwarded w.soc sent waiting
  told : List.Forall₂ Tells sent w.told
  state : w.userState = h.stateAfter w.told
  handled : w.soc.handled = h.transcript w.told
  allocated : w.userState.isSome = h.initialState.isSome
  cleanedUp : (w.finish h).cleanedUp = if h.cleanupHandler then w.userState.toList else []
  leaked : (w.finish h).userState = if h.cleanupHandler then none else w.userState

theorem finish_cleanedUp (untouched : w.cleanedUp = []) :
    (w.finish h).cleanedUp = if h.cleanupHandler then w.userState.toList else [] := by
  rw [Wrapper.finish]
  cases w.userState with
  | none => simp [untouched]
  | some state =>
      simp only [apply_ite Wrapper.cleanedUp, untouched]
      rfl

theorem finish_userState (h : UserHandlers α σ) (w : Wrapper α σ) :
    (w.finish h).userState = if h.cleanupHandler then none else w.userState := by
  rw [Wrapper.finish]
  cases there : w.userState with
  | none => simp [there]
  | some state => simp only [apply_ite Wrapper.userState, there]

theorem Shown.each {worked : Nat} (shown : Shown h w worked)
    (length : worked ≤ (w.soc.recv .prior).received.length) :
    List.Forall₂ Tells ((w.soc.recv .prior).received.take worked) w.told := by
  refine List.forall₂_iff_get.mpr ⟨?_, fun k low high => ?_⟩
  · rw [List.length_take, shown.length]
    omega
  · refine shown.tells k _ _ ?_ (List.getElem?_eq_getElem high)
    rw [List.length_take] at low
    rw [List.get_eq_getElem, List.getElem_take]
    exact List.getElem?_eq_getElem _

theorem handlers_follow (h : UserHandlers α σ) {raw : Buffer BufPtr} {mem : Nat → α} {s : SoC α}
    (started : SoC.channelSoC raw mem = .ok s) {nics : List (NicAnswers α)}
    (polled : ∀ n ∈ nics, n.Polled)
    (ran : run (Wrapper.launch h) (Wrapper.start h s) nics = .ok w) :
    ∃ sent waiting, HandledInOrder h w sent waiting ∧
      Answered w.soc (nics.map NicAnswers.alone) sent := by
  obtain ⟨rx, tx, boundary, shown, answered⟩ := run_shown h started polled ran
  refine ⟨_, _, ⟨boundary.forwarded, ?_, shown.state, shown.handled, ?_,
    finish_cleanedUp shown.untouched, finish_userState h w⟩, answered⟩
  · refine shown.each ?_
    rw [boundary.rx.forward.lane.input.received]
    exact boundary.rx.forward.lane.ordered.worked_completed
  · rw [shown.state, h.stateAfter_isSome]

def counting : UserHandlers Nat Nat where
  initHandler := some ⟨some 0, 8⟩
  msgHandler := some fun msg state => ⟨.NICC_SUCCESS, msg.frame, state.map (· + 1)⟩
  cleanupHandler := true
  keeps handler registered msg state := by
    cases registered
    exact Option.isSome_map

theorem counting_stateAfter (msgs : List (Msg Nat)) : counting.stateAfter msgs = some msgs.length := by
  induction msgs using List.reverseRecOn with
  | nil => rfl
  | append_singleton msgs msg ih =>
      rw [UserHandlers.stateAfter_snoc, ih, List.length_append]
      rfl

theorem handlers_follow_forty : ∃ (s : SoC Nat) (w : Wrapper Nat Nat)
    (sent waiting : List (Received Nat)), SoC.channelSoC (.new 0 0 0) (fun _ => 0) = .ok s ∧
      run (Wrapper.launch counting) (Wrapper.start counting s)
        [Rest.start.nicAnswers (List.replicate 40 ⟨64, 7⟩) []] = .ok w ∧
      HandledInOrder counting w sent waiting ∧ (w.soc.recv .prior).received.length = 40 ∧
      (w.soc.send .next).posted.length = 40 ∧ w.told.length = 40 ∧ w.userState = some 40 := by
  obtain ⟨s, started, -⟩ := channelSoC_built (.new 0 0 0) (fun _ => 0)
  have boundary := channelSoC_boundary started
  rw [← start_soc counting s] at boundary
  obtain ⟨w, launched⟩ := wrapper_launch_runs counting boundary (List.replicate 40 ⟨64, 7⟩) []
    (by decide) (by decide) (by decide) (by decide)
  have ran : run (Wrapper.launch counting) (Wrapper.start counting s)
      [Rest.start.nicAnswers (List.replicate 40 ⟨64, 7⟩) []] = .ok w :=
    run_cons_ok.mpr ⟨w, launched, rfl⟩
  obtain ⟨sent, waiting, follows, answered⟩ := handlers_follow counting started (fun n member => by
    rw [List.mem_singleton.mp member]
    exact Rest.start.answers_polled _ _ (by decide) (by decide)) ran
  have told : w.told.length = 40 := follows.told.length_eq.symm.trans answered.sent
  refine ⟨s, w, sent, waiting, started, ran, follows, answered.received .prior,
    (follows.forwarded.posted_length .prior).trans answered.sent, told, ?_⟩
  rw [follows.state, counting_stateAfter, told]

end Nicc.Soc

import Nicc.Soc.Start
import Mathlib.Algebra.Group.Nat.Defs

/-!
# A receive poll that fails

What the launches keep whatever they are answered, and what becomes of the answer of a failed poll
behind `__rx_burst`.
-/

namespace Nicc.Soc
open Lib

variable {α : Type} {s s' : SoC α} {d : Side}

/-! ## What every launch keeps -/

def ShmQueue.InMask {β : Type} (q : ShmQueue β) : Prop :=
  q.head < kWsQueueSize ∧ q.tail < kWsQueueSize

theorem ShmQueue.InMask.enqueue {β : Type} {q : ShmQueue β} (inMask : q.InMask) (pkt : Option β) :
    (q.enqueue pkt).2.InMask := by
  rw [ShmQueue.enqueue]
  split_ifs with full
  · exact inMask
  · exact ⟨inMask.1, by rw [ShmQueue.and_mask]; exact Nat.mod_lt _ (by decide)⟩

theorem ShmQueue.InMask.dequeue {β : Type} {q : ShmQueue β} (inMask : q.InMask) :
    q.dequeue.2.InMask := by
  rw [ShmQueue.dequeue]
  split_ifs with empty
  · exact inMask
  · exact ⟨by rw [ShmQueue.and_mask]; exact Nat.mod_lt _ (by decide), inMask.2⟩

structure Fixed (s : SoC α) : Prop where
  rxRing : ∀ d i, (s.recv d).rxRing i = ⟨d, i⟩
  next : ∀ d k, (s.bufs (ptr d k)).next = some (ptr d (k + 1))
  recvHead : ∀ d, (s.recv d).recvHead < kNumRxRingEntries
  ringHead : ∀ d, (s.recv d).ringHead < kNumRxRingEntries
  waitForDisp : ∀ d, (s.recv d).waitForDisp < 2 ^ 64
  queue : s.tmpWorkerRxQueue.InMask

theorem Fixed.entry (fixed : Fixed s) (d : Side) {i : Nat} (inside : i < kNumRxRingEntries) :
    (s.recv d).rxRing i = ptr d i := by
  rw [fixed.rxRing, ptr, slotOf, Nat.mod_eq_of_lt inside]

structure Aside (s s' : SoC α) : Prop where
  recv : s'.recv = s.recv
  next : ∀ p, (s'.bufs p).next = (s.bufs p).next
  queue : s.tmpWorkerRxQueue.InMask → s'.tmpWorkerRxQueue.InMask

namespace Aside

theorem refl (s : SoC α) : Aside s s := ⟨rfl, fun _ => rfl, id⟩

theorem trans {s'' : SoC α} (first : Aside s s') (second : Aside s' s'') : Aside s s'' :=
  ⟨second.recv.trans first.recv, fun p => (second.next p).trans (first.next p),
    fun inMask => second.queue (first.queue inMask)⟩

theorem setSend (s : SoC α) (d : Side) (t : SendHalf α) : Aside s (s.setSend d t) :=
  ⟨rfl, fun _ => rfl, id⟩

theorem setState (s : SoC α) (p : BufPtr) (state : BufState) : Aside s (s.setState p state) := by
  refine ⟨rfl, fun q => ?_, id⟩
  by_cases here : q = p
  · subst here
    simp [SoC.setState]
  · have other : (s.setState p state).bufs q = s.bufs q := Function.update_of_ne here ..
    rw [other]

theorem setLength (s : SoC α) (p : BufPtr) (length : Nat) : Aside s (s.setLength p length) := by
  refine ⟨rfl, fun q => ?_, id⟩
  by_cases here : q = p
  · subst here
    simp [SoC.setLength]
  · have other : (s.setLength p length).bufs q = s.bufs q := Function.update_of_ne here ..
    rw [other]

theorem fixed (aside : Aside s s') (fixed : Fixed s) : Fixed s' where
  rxRing := by rw [aside.recv]; exact fixed.rxRing
  next d k := by rw [aside.next]; exact fixed.next d k
  recvHead := by rw [aside.recv]; exact fixed.recvHead
  ringHead := by rw [aside.recv]; exact fixed.ringHead
  waitForDisp := by rw [aside.recv]; exact fixed.waitForDisp
  queue := aside.queue fixed.queue

end Aside

structure Receives (d : Side) (s s' : SoC α) : Prop where
  fixed : Fixed s → Fixed s'
  other : s'.recv d.other = s.recv d.other

namespace Receives

theorem trans {s'' : SoC α} (first : Receives d s s') (second : Receives d s' s'') :
    Receives d s s'' :=
  ⟨fun fixed => second.fixed (first.fixed fixed), second.other.trans first.other⟩

theorem of_aside (d : Side) (aside : Aside s s') : Receives d s s' :=
  ⟨aside.fixed, congrFun aside.recv _⟩

theorem refl (d : Side) (s : SoC α) : Receives d s s := .of_aside d (.refl s)

theorem setRecv (s : SoC α) (d : Side) {r : RecvHalf α} (rxRing : r.rxRing = (s.recv d).rxRing)
    (recvHead : (s.recv d).recvHead < kNumRxRingEntries → r.recvHead < kNumRxRingEntries)
    (ringHead : (s.recv d).ringHead < kNumRxRingEntries → r.ringHead < kNumRxRingEntries)
    (waitForDisp : (s.recv d).waitForDisp < 2 ^ 64 → r.waitForDisp < 2 ^ 64) :
    Receives d s (s.setRecv d r) := by
  have cases_on {P : Side → RecvHalf α → Prop} (here : P d r) (rest : ∀ e, P e (s.recv e)) (e : Side) :
      P e ((s.setRecv d r).recv e) := by
    by_cases same : e = d
    · subst same
      rw [SoC.setRecv_recv]
      exact here
    · have other : (s.setRecv d r).recv e = s.recv e := Function.update_of_ne same ..
      rw [other]
      exact rest e
  refine ⟨fun fixed => ⟨?_, fixed.next, ?_, ?_, ?_, fixed.queue⟩, SoC.setRecv_recv_other ..⟩
  · exact cases_on (P := fun e r => ∀ i, r.rxRing i = ⟨e, i⟩) (rxRing ▸ fixed.rxRing d) fixed.rxRing
  · exact cases_on (P := fun _ r => r.recvHead < kNumRxRingEntries) (recvHead (fixed.recvHead d))
      fixed.recvHead
  · exact cases_on (P := fun _ r => r.ringHead < kNumRxRingEntries) (ringHead (fixed.ringHead d))
      fixed.ringHead
  · exact cases_on (P := fun _ r => r.waitForDisp < 2 ^ 64) (waitForDisp (fixed.waitForDisp d))
      fixed.waitForDisp

end Receives

/-! ## The functions of a launch -/

theorem takeFree_aside (next : ∀ k, (s.bufs (ptr d k)).next = some (ptr d (k + 1))) {fuel k n n' : Nat}
    (ran : SoC.takeFree fuel (ptr d k) n s = .ok (n', s')) :
    Aside s s' ∧ ∃ j, (s'.bufs (ptr d j)).state ≠ .kFREE_BUF := by
  induction fuel generalizing s k n with
  | zero => cases ran
  | succ fuel ih =>
      rw [SoC.takeFree] at ran
      split_ifs at ran with free
      · have aside := Aside.setState s (ptr d k) .kPOSTED
        have nextAfter (j : Nat) :
            ((s.setState (ptr d k) .kPOSTED).bufs (ptr d j)).next = some (ptr d (j + 1)) :=
          (aside.next _).trans (next j)
        simp only [nextAfter k, deref_some, ok_bind] at ran
        obtain ⟨later, busy⟩ := ih nextAfter ran
        exact ⟨aside.trans later, busy⟩
      · cases ran
        exact ⟨.refl _, k, free⟩

theorem postRecvs_receives {numRecvs : Nat} {ret : Int} (ran : s.postRecvs d numRecvs ret = .ok s') :
    Receives d s s' ∧ s'.bufs = s.bufs ∧ (s'.recv d).waitForDisp = (s.recv d).waitForDisp := by
  rw [SoC.postRecvs] at ran
  by_cases refused : ret ≠ 0
  · simp only [if_pos refused] at ran
    cases ran
  simp only [if_neg refused] at ran
  cases ran
  refine ⟨.setRecv s d rfl (fun _ => Nat.mod_lt _ (by decide)) id id, rfl, ?_⟩
  rw [SoC.setRecv_recv]
  rfl

theorem nicReceive_receives {wc : List (Completion α)} (ran : SoC.nicReceive d wc s = .ok s') :
    Receives d s s' := by
  induction wc generalizing s with
  | nil =>
      cases ran
      exact .refl d _
  | cons completion rest ih =>
      rw [SoC.nicReceive] at ran
      cases there : (s.recv d).posted[(s.recv d).received.length]? with
      | none =>
          simp only [there] at ran
          cases ran
      | some wr =>
          simp only [there] at ran
          have written : Receives d s (s.setMem wr.sge.addr completion.frame) :=
            .of_aside d ⟨rfl, fun _ => rfl, id⟩
          refine (written.trans (.setRecv _ d ?_ ?_ ?_ ?_)).trans (ih ran)
          · rfl
          · exact id
          · exact id
          · exact id

theorem setLengths_aside (d : Side) (wc : List (Completion α)) (i : Nat) (s : SoC α) :
    Aside s (SoC.setLengths d wc i s) := by
  induction wc generalizing s i with
  | nil => exact .refl s
  | cons completion rest ih => exact (Aside.setLength s _ _).trans (ih _ _)

theorem addWaiting_receives (s : SoC α) (d : Side) (ret : Int) : Receives d s (s.addWaiting d ret).2 := by
  refine .setRecv s d rfl id id fun _ => ?_
  change (((s.recv d).waitForDisp + ret) % 2 ^ 64).toNat < 2 ^ 64
  omega

theorem pollRecvCq_receives {poll : SoC.RecvPoll α} {n : Nat}
    (ran : s.pollRecvCq d poll = .ok (n, s')) : Receives d s s' := by
  cases poll with
  | failed code =>
      rw [SoC.pollRecvCq] at ran
      have ended : (s.addWaiting d (-(code + 1))).2 = s' := congrArg Prod.snd (Except.ok.inj ran)
      exact ended ▸ addWaiting_receives s d _
  | polled wc =>
      rw [SoC.pollRecvCq] at ran
      split_ifs at ran with large
      obtain ⟨t, received, rest⟩ := bind_eq_ok.mp ran
      cases rest
      exact ((nicReceive_receives received).trans (.of_aside d (setLengths_aside d wc 0 t))).trans
        (addWaiting_receives _ d _)

def SoC.repost (s : SoC α) (d : Side) (postRet : Int) : SoC.Step α (SoC α) := do
  let (numRecvs, s) ← SoC.takeFree (kNumRxRingEntries + 1) ((s.recv d).rxRing (s.recv d).recvHead) 0 s
  if numRecvs ≠ 0 then s.postRecvs d numRecvs postRet else .ok s

theorem rxBurst_eq (s : SoC α) (d : Side) (postRet : Int) (poll : SoC.RecvPoll α) :
    s.rxBurst d postRet poll = s.repost d postRet >>= fun t => t.pollRecvCq d poll := by
  rw [SoC.rxBurst, SoC.repost]
  cases SoC.takeFree (kNumRxRingEntries + 1) ((s.recv d).rxRing (s.recv d).recvHead) 0 s with
  | error stopped => rfl
  | ok took =>
      rw [ok_bind, ok_bind]
      by_cases some : took.1 ≠ 0
      · simp only [if_pos some]
      · simp only [if_neg some]

theorem repost_receives (fixed : Fixed s) {postRet : Int} (ran : s.repost d postRet = .ok s') :
    Receives d s s' ∧ (s'.recv d).waitForDisp = (s.recv d).waitForDisp ∧
      ∃ j, (s'.bufs (ptr d j)).state ≠ .kFREE_BUF := by
  rw [SoC.repost, fixed.entry d (fixed.recvHead d)] at ran
  obtain ⟨⟨numRecvs, t⟩, took, rest⟩ := bind_eq_ok.mp ran
  obtain ⟨aside, busy⟩ := takeFree_aside (fixed.next d) took
  have waiting : (t.recv d).waitForDisp = (s.recv d).waitForDisp := by rw [aside.recv]
  by_cases some : numRecvs ≠ 0
  · simp only [if_pos some] at rest
    obtain ⟨receives, bufs, kept⟩ := postRecvs_receives rest
    exact ⟨(Receives.of_aside d aside).trans receives, kept.trans waiting, bufs ▸ busy⟩
  · simp only [if_neg some] at rest
    cases rest
    exact ⟨.of_aside d aside, waiting, busy⟩

theorem rxBurst_receives (fixed : Fixed s) {postRet : Int} {poll : SoC.RecvPoll α} {n : Nat}
    (ran : s.rxBurst d postRet poll = .ok (n, s')) : Receives d s s' := by
  rw [rxBurst_eq] at ran
  obtain ⟨t, reposts, polls⟩ := bind_eq_ok.mp ran
  exact (repost_receives fixed reposts).1.trans (pollRecvCq_receives polls)

theorem dispatchLoop_aside {left n n' : Nat} {p : BufPtr}
    (ran : SoC.dispatchLoop left p n s = .ok (n', s')) : Aside s s' := by
  induction left generalizing s p n with
  | zero =>
      cases ran
      exact .refl _
  | succ left ih =>
      rw [SoC.dispatchLoop] at ran
      have inMask (mask : s.tmpWorkerRxQueue.InMask) := mask.enqueue (some p)
      cases enqueued : s.tmpWorkerRxQueue.enqueue (some p) with
      | mk accepted queue =>
          rw [enqueued] at ran inMask
          cases accepted with
          | false =>
              obtain ⟨following, -, rest⟩ := bind_eq_ok.mp ran
              have aside := Aside.setState s p .kFREE_BUF
              refine .trans ⟨?_, ?_, ?_⟩ (ih rest)
              · exact aside.recv
              · exact aside.next
              · exact aside.queue
          | true =>
              obtain ⟨following, -, rest⟩ := bind_eq_ok.mp ran
              have aside := Aside.setState s p .kAPP_OWNED_BUF
              refine .trans ⟨?_, ?_, ?_⟩ (ih rest)
              · exact aside.recv
              · exact aside.next
              · exact inMask

theorem dispatchRxPkts_receives {n : Nat} (ran : s.dispatchRxPkts = .ok (n, s')) :
    Receives .prior s s' ∧ (s'.recv .prior).waitForDisp = 0 := by
  obtain ⟨⟨total, t⟩, loops, rest⟩ := bind_eq_ok.mp ran
  have aside := dispatchLoop_aside loops
  have ended : t.setRecv .prior { t.recv .prior with
      ringHead := ((t.recv .prior).ringHead + (t.recv .prior).waitForDisp) % kNumRxRingEntries
      waitForDisp := 0 } = s' := congrArg Prod.snd (Except.ok.inj rest)
  rw [← ended]
  refine ⟨(Receives.of_aside .prior aside).trans (.setRecv t .prior rfl id
    (fun _ => Nat.mod_lt _ (by decide)) fun _ => Nat.two_pow_pos 64), ?_⟩
  rw [SoC.setRecv_recv]

theorem forward_aside (s : SoC α) (m : Option BufPtr) : Aside s (s.forward m) := by
  rw [SoC.forward]
  cases s.tmpWorkerTxQueue.enqueue m with
  | mk accepted queue =>
      cases accepted with
      | false => exact ⟨rfl, fun _ => rfl, id⟩
      | true => exact ⟨rfl, fun _ => rfl, id⟩

theorem workerLoop_aside {msgHandler : Option (SoC.MsgHandler α)} {left i : Nat}
    (ran : SoC.workerLoop msgHandler left i s = .ok s') : Aside s s' := by
  induction left generalizing s i with
  | zero =>
      cases ran
      exact .refl _
  | succ left ih =>
      rw [SoC.workerLoop] at ran
      have inMask (mask : s.tmpWorkerRxQueue.InMask) := mask.dequeue
      cases dequeued : s.tmpWorkerRxQueue.dequeue with
      | mk m queue =>
          rw [dequeued] at ran inMask
          have taken : Aside s { s with tmpWorkerRxQueue := queue } := ⟨rfl, fun _ => rfl, inMask⟩
          cases m with
          | some p =>
              have handled : Aside { s with tmpWorkerRxQueue := queue }
                  (({ s with tmpWorkerRxQueue := queue } : SoC α).callHandler msgHandler i p) :=
                ⟨rfl, fun _ => rfl, id⟩
              exact (taken.trans handled).trans ((forward_aside _ _).trans (ih ran))
          | none =>
              simp only at ran
              split_ifs at ran with called
              exact taken.trans ((forward_aside _ _).trans (ih ran))

theorem worker_aside {msgHandler : Option (SoC.MsgHandler α)} (ran : s.worker msgHandler = .ok s') :
    Aside s s' := by
  rw [SoC.worker] at ran
  by_cases batch : kAppRxMsgBatchSize < s.tmpWorkerRxQueue.getSize / 1
  · simp only [if_pos batch] at ran
    exact workerLoop_aside ran
  · simp only [if_neg batch] at ran
    cases ran
    exact .refl _

theorem collectLoop_aside (left : Nat) (s : SoC α) : Aside s (SoC.collectLoop left s) := by
  induction left generalizing s with
  | zero => exact .refl s
  | succ left ih =>
      have moved : Aside s (({ s with
          tmpWorkerTxQueue := s.tmpWorkerTxQueue.dequeue.2 } : SoC α).setSend .next { s.send .next with
            txQueue := Function.update (s.send .next).txQueue (s.send .next).txQueueIdx
              s.tmpWorkerTxQueue.dequeue.1
            txQueueIdx := (s.send .next).txQueueIdx + 1 }) := ⟨rfl, fun _ => rfl, id⟩
      exact moved.trans (ih _)

theorem reapLoop_aside {n : Nat} (ran : SoC.reapLoop d n s = .ok s') : Aside s s' := by
  induction n generalizing s with
  | zero =>
      cases ran
      exact .refl _
  | succ n ih =>
      rw [SoC.reapLoop] at ran
      obtain ⟨p, -, rest⟩ := bind_eq_ok.mp ran
      exact ((Aside.setState s p .kFREE_BUF).trans (.setSend _ d _)).trans (ih rest)

theorem mountLoop_aside {tx left n n' : Nat} {tailWr tailWr' : Option Nat}
    (ran : SoC.mountLoop d tx left n tailWr s = .ok (n', tailWr', s')) : Aside s s' := by
  induction left generalizing s n tailWr with
  | zero =>
      cases ran
      exact .refl _
  | succ left ih =>
      rw [SoC.mountLoop] at ran
      by_cases free : 0 < (s.send d).freeSendWrNum
      · simp only [if_pos free] at ran
        obtain ⟨m, -, rest⟩ := bind_eq_ok.mp ran
        exact ((Aside.setState s m .kPOSTED).trans (.setSend _ d _)).trans (ih rest)
      · simp only [if_neg free] at ran
        cases ran
        exact .refl _

theorem txBurst_aside {tx txSize n : Nat} {poll : SoC.SendPoll}
    (ran : s.txBurst d tx txSize poll = .ok (n, s')) : Aside s s' := by
  obtain ⟨t, polls, rest⟩ := bind_eq_ok.mp ran
  obtain ⟨⟨nbTxRes, tailWr, u⟩, mounts, rest⟩ := bind_eq_ok.mp rest
  obtain ⟨v, posts, rest⟩ := bind_eq_ok.mp rest
  cases rest
  have polled : Aside s t := by
    rw [SoC.pollSendCq] at polls
    split_ifs at polls with impossible negative
    exact (Aside.setSend s d _).trans (reapLoop_aside polls)
  have posted : Aside u s' := by
    rw [SoC.postMounted] at posts
    by_cases some : 0 < n
    · rw [if_pos some] at posts
      obtain ⟨last, -, rest⟩ := bind_eq_ok.mp posts
      by_cases refused : poll.postRet ≠ 0
      · simp only [if_pos refused] at rest
        cases rest
      · simp only [if_neg refused] at rest
        cases rest
        exact .setSend u d _
    · rw [if_neg some] at posts
      cases posts
      exact .refl _
  exact polled.trans ((mountLoop_aside mounts).trans posted)

theorem txFlush_aside {polls : List SoC.SendPoll} {total : Nat}
    (ran : s.txFlush d polls = .ok (total, s')) : Aside s s' := by
  have loops {n n' : Nat} {t : SoC α} (looped : SoC.flushLoop d polls n s = .ok (n', t)) :
      Aside s t := by
    clear ran
    induction polls generalizing s n with
    | nil =>
        rw [SoC.flushLoop] at looped
        split_ifs at looped with more
        cases looped
        exact .refl _
    | cons poll polls ih =>
        rw [SoC.flushLoop] at looped
        split_ifs at looped with more
        obtain ⟨⟨nbTx, u⟩, bursts, rest⟩ := bind_eq_ok.mp looped
        exact (txBurst_aside bursts).trans (ih rest)
  obtain ⟨⟨n, t⟩, looped, rest⟩ := bind_eq_ok.mp ran
  cases rest
  exact (loops looped).trans (.setSend t d _)

theorem directLoop_moves (rxQp txQp : Side) (left i : Nat) (s : SoC α) :
    Aside s (SoC.directLoop rxQp txQp left i s) ∧
      ((SoC.directLoop rxQp txQp left i s).send txQp).txQueueIdx = (s.send txQp).txQueueIdx + left := by
  induction left generalizing s i with
  | zero => exact ⟨.refl s, rfl⟩
  | succ left ih =>
      let t := s.setSend txQp { s.send txQp with
        txQueue := Function.update (s.send txQp).txQueue (s.send txQp).txQueueIdx
          (some ((s.recv rxQp).rxRing (((s.recv rxQp).ringHead + i) % kNumRxRingEntries)))
        txQueueIdx := (s.send txQp).txQueueIdx + 1 }
      have idx : (t.send txQp).txQueueIdx = (s.send txQp).txQueueIdx + 1 := by rw [SoC.setSend_send]
      obtain ⟨aside, moved⟩ := ih (i + 1) t
      refine ⟨(Aside.setSend s txQp _).trans aside, moved.trans ?_⟩
      rw [idx, Nat.add_right_comm, Nat.add_assoc]

theorem directTxBurst_receives (s : SoC α) (rxQp txQp : Side) :
    Receives rxQp s (s.directTxBurst rxQp txQp).2 := by
  rw [SoC.directTxBurst]
  refine (Receives.of_aside rxQp (directLoop_moves rxQp txQp _ 0 s).1).trans
    (.setRecv _ rxQp rfl id (fun _ => Nat.mod_lt _ (by decide)) fun bound => ?_)
  exact (Nat.sub_le _ _).trans_lt bound

/-! ## Launches -/

structure Idle (s : SoC α) : Prop where
  fixed : Fixed s
  dispatched : (s.recv .prior).waitForDisp = 0

theorem launchRx_keepsIdle (fixed : Fixed s) {a : SoC.Answers α} (ran : s.launchRx a = .ok s') : Idle s' := by
  obtain ⟨⟨n, one⟩, receives, rest⟩ := bind_eq_ok.mp ran
  obtain ⟨⟨total, two⟩, dispatches, rest⟩ := bind_eq_ok.mp rest
  obtain ⟨three, works, rest⟩ := bind_eq_ok.mp rest
  have received := (rxBurst_receives fixed receives).fixed fixed
  obtain ⟨dispatched, waiting⟩ := dispatchRxPkts_receives dispatches
  have aside : Aside two three.collectTxPkts :=
    (worker_aside works).trans (collectLoop_aside _ three)
  have ended : Aside two s' := by
    by_cases full : kTxBatchSize ≤ (three.collectTxPkts.send .next).txQueueIdx
    · simp only [if_pos full] at rest
      obtain ⟨⟨sent, four⟩, flushes, rest⟩ := bind_eq_ok.mp rest
      cases rest
      exact aside.trans (txFlush_aside flushes)
    · simp only [if_neg full] at rest
      split_ifs at rest with unanswered
      cases rest
      exact aside
  refine ⟨ended.fixed (dispatched.fixed received), ?_⟩
  rw [ended.recv]
  exact waiting

theorem launchTx_keepsIdle (idle : Idle s) {a : SoC.Answers α} (ran : s.launchTx a = .ok s') : Idle s' := by
  obtain ⟨⟨n, one⟩, receives, rest⟩ := bind_eq_ok.mp ran
  obtain ⟨⟨sent, two⟩, flushes, rest⟩ := bind_eq_ok.mp rest
  cases rest
  have all := ((rxBurst_receives idle.fixed receives).trans
    (directTxBurst_receives one .next .prior)).trans (.of_aside .next (txFlush_aside flushes))
  refine ⟨all.fixed idle.fixed, ?_⟩
  have prior : s'.recv .prior = s.recv .prior := all.other
  rw [prior]
  exact idle.dispatched

theorem launch_keepsIdle (idle : Idle s) {a : SoC.Answers α} (ran : s.launch a = .ok s') : Idle s' := by
  obtain ⟨t, first, second⟩ := bind_eq_ok.mp ran
  exact launchTx_keepsIdle (launchRx_keepsIdle idle.fixed first) second

theorem channelSoC_idle {raw : Buffer BufPtr} {mem : Nat → α}
    (started : SoC.channelSoC raw mem = .ok s) : Idle s := by
  obtain ⟨t, begun, built, rxQueue, -, -, -⟩ := channelSoC_built raw mem
  obtain rfl : s = t := Except.ok.inj (started.symm.trans begun)
  refine ⟨⟨fun d i => ?_, fun d k => ?_, fun d => ?_, fun d => ?_, fun d => ?_, ?_⟩, ?_⟩
  · rw [(built d).recv]
  · rw [ptr, (built d).bufs]
    exact congrArg (fun i => some (⟨d, i⟩ : BufPtr)) (circular_slotOf k)
  · rw [(built d).recv]
    exact Nat.succ_pos _
  · rw [(built d).recv]
    exact Nat.succ_pos _
  · rw [(built d).recv]
    exact Nat.two_pow_pos 64
  · rw [rxQueue]
    exact ⟨Nat.succ_pos _, Nat.succ_pos _⟩
  · rw [(built .prior).recv]
    rfl

theorem run_idle {raw : Buffer BufPtr} {mem : Nat → α} (started : SoC.channelSoC raw mem = .ok s)
    {answers : List (SoC.Answers α)} (ran : run SoC.launch s answers = .ok s') : Idle s' :=
  run_invariant Idle (fun _ => True) (fun _ _ _ idle _ stepped => launch_keepsIdle idle stepped)
    (channelSoC_idle started) (fun _ _ => trivial) ran

/-! ## A window of `2 ^ 64` packets -/

def ShmQueue.spare {β : Type} (q : ShmQueue β) : Nat :=
  (q.head + (kWsQueueSize - 1) + (kWsQueueSize - q.tail)) % kWsQueueSize

theorem ShmQueue.enqueue_full {β : Type} {q : ShmQueue β} (inMask : q.InMask) (full : q.spare = 0)
    (pkt : Option β) : q.enqueue pkt = (false, q) := by
  obtain ⟨head, tail⟩ := inMask
  rw [ShmQueue.enqueue, if_pos]
  rw [ShmQueue.and_mask]
  simp only [ShmQueue.spare, kWsQueueSize] at *
  omega

theorem ShmQueue.enqueue_room {β : Type} {q : ShmQueue β} (inMask : q.InMask) {n : Nat}
    (room : q.spare = n + 1) (pkt : Option β) :
    ∃ q', q.enqueue pkt = (true, q') ∧ q'.spare = n := by
  obtain ⟨head, tail⟩ := inMask
  refine ⟨_, by
    rw [ShmQueue.enqueue, if_neg]
    rw [ShmQueue.and_mask]
    simp only [ShmQueue.spare, kWsQueueSize] at *
    omega, ?_⟩
  simp only [ShmQueue.spare, ShmQueue.and_mask, kWsQueueSize] at *
  omega

theorem dispatchLoop_full (next : ∀ k, (s.bufs (ptr d k)).next = some (ptr d (k + 1)))
    (inMask : s.tmpWorkerRxQueue.InMask) (full : s.tmpWorkerRxQueue.spare = 0) {left k n n' : Nat}
    (ran : SoC.dispatchLoop left (ptr d k) n s = .ok (n', s')) :
    (∀ p, (s.bufs p).state = .kFREE_BUF → (s'.bufs p).state = .kFREE_BUF) ∧
      ∀ i < left, (s'.bufs (ptr d (k + i))).state = .kFREE_BUF := by
  induction left generalizing s k n with
  | zero =>
      cases ran
      exact ⟨fun _ free => free, fun i below => absurd below (Nat.not_lt_zero i)⟩
  | succ left ih =>
      let t : SoC α := { s.setState (ptr d k) .kFREE_BUF with fullBranches := s.fullBranches + 1 }
      have aside := Aside.setState s (ptr d k) .kFREE_BUF
      have nextAfter (j : Nat) : (t.bufs (ptr d j)).next = some (ptr d (j + 1)) :=
        (aside.next _).trans (next j)
      have freed : (t.bufs (ptr d k)).state = .kFREE_BUF := by
        simp [t, SoC.setState]
      have stepped : SoC.dispatchLoop (left + 1) (ptr d k) n s =
          SoC.dispatchLoop left (ptr d (k + 1)) n t := by
        have following : (t.bufs (ptr d k)).next = some (ptr d (k + 1)) := nextAfter k
        rw [SoC.dispatchLoop, ShmQueue.enqueue_full inMask full]
        change SoC.deref t (t.bufs (ptr d k)).next >>= _ = _
        rw [following, deref_some, ok_bind]
      rw [stepped] at ran
      obtain ⟨kept, all⟩ := ih nextAfter inMask full ran
      refine ⟨fun p free => kept p ?_, fun i below => ?_⟩
      · by_cases here : p = ptr d k
        · rw [here]
          exact freed
        · have other : t.bufs p = s.bufs p := Function.update_of_ne here ..
          rw [other]
          exact free
      · cases i with
        | zero => exact kept _ freed
        | succ i =>
            have later := all i (Nat.lt_of_succ_lt_succ below)
            rwa [Nat.add_assoc, Nat.add_comm 1 i] at later

theorem dispatchLoop_frees (next : ∀ k, (s.bufs (ptr d k)).next = some (ptr d (k + 1)))
    (inMask : s.tmpWorkerRxQueue.InMask) {left k n n' : Nat}
    (long : s.tmpWorkerRxQueue.spare + kNumRxRingEntries ≤ left)
    (ran : SoC.dispatchLoop left (ptr d k) n s = .ok (n', s')) (j : Nat) :
    (s'.bufs (ptr d j)).state = .kFREE_BUF := by
  induction left generalizing s k n with
  | zero =>
      rw [kNumRxRingEntries] at long
      omega
  | succ left ih =>
      cases room : s.tmpWorkerRxQueue.spare with
      | zero =>
          obtain ⟨position, low, high, same⟩ := exists_position k (slotOf_lt j)
          have visited := (dispatchLoop_full next inMask room ran).2 (position - k) (by omega)
          rw [Nat.add_sub_cancel' low] at visited
          have slot : ptr d position = ptr d j := congrArg (BufPtr.mk d) same
          rwa [slot] at visited
      | succ spare =>
          obtain ⟨queue, enqueued, less⟩ := ShmQueue.enqueue_room inMask room (some (ptr d k))
          let t : SoC α := { s.setState (ptr d k) .kAPP_OWNED_BUF with tmpWorkerRxQueue := queue }
          have aside := Aside.setState s (ptr d k) .kAPP_OWNED_BUF
          have nextAfter (j : Nat) : (t.bufs (ptr d j)).next = some (ptr d (j + 1)) :=
            (aside.next _).trans (next j)
          have inMaskAfter : queue.InMask := by
            have kept := inMask.enqueue (some (ptr d k))
            rwa [enqueued] at kept
          have stepped : SoC.dispatchLoop (left + 1) (ptr d k) n s =
              SoC.dispatchLoop left (ptr d (k + 1)) (n + 1) t := by
            have following : (t.bufs (ptr d k)).next = some (ptr d (k + 1)) := nextAfter k
            rw [SoC.dispatchLoop, enqueued]
            change SoC.deref t (t.bufs (ptr d k)).next >>= _ = _
            rw [following, deref_some, ok_bind]
          rw [stepped] at ran
          refine ih nextAfter inMaskAfter ?_ ran
          change queue.spare + kNumRxRingEntries ≤ left
          omega

/-! ## Failed polls -/

namespace SoC

def receivePrior (s : SoC α) (postRet : Int) (poll : RecvPoll α) : Step α (SoC α) := do
  let (_, s) ← s.rxBurst .prior postRet poll
  let (_, s) ← s.dispatchRxPkts
  return s

def receiveNext (s : SoC α) (postRet : Int) (poll : RecvPoll α) : Step α (SoC α) := do
  let (_, s) ← s.rxBurst .next postRet poll
  return (s.directTxBurst .next .prior).2

end SoC

structure Agree (rxQp : Side) (s t : SoC α) : Prop where
  waitForDisp : (s.recv rxQp).waitForDisp = (t.recv rxQp).waitForDisp
  ringHead : (s.recv rxQp).ringHead = (t.recv rxQp).ringHead
  workerQueue : s.tmpWorkerRxQueue = t.tmpWorkerRxQueue
  txQueueIdx : (s.send rxQp.other).txQueueIdx = (t.send rxQp.other).txQueueIdx
  txQueue : ∀ i < (s.send rxQp.other).txQueueIdx,
    (s.send rxQp.other).txQueue i = (t.send rxQp.other).txQueue i
  states : ∀ p, (s.bufs p).state = (t.bufs p).state

/-- The failed poll ends as the poll without a completion does. -/
def Harmless (receive : SoC.RecvPoll α → SoC.Step α (SoC α)) (rxQp : Side) (code : Nat) : Prop :=
  ∀ t, receive (.polled []) = .ok t → ∃ u, receive (.failed code) = .ok u ∧ Agree rxQp u t

theorem addWaiting_waitForDisp (s : SoC α) (d : Side) (ret : Int) :
    ((s.addWaiting d ret).2.recv d).waitForDisp =
      (((s.recv d).waitForDisp + ret) % 2 ^ 64).toNat := by
  rw [SoC.addWaiting, SoC.setRecv_recv]

theorem pollRecvCq_none (s : SoC α) (d : Side) : s.pollRecvCq d (.polled []) = .ok (s.addWaiting d 0) :=
  rfl

theorem rxBurst_both {d : Side} {postRet : Int} {code n n' : Nat} {v v' : SoC α}
    (none : s.rxBurst d postRet (.polled []) = .ok (n, v))
    (failed : s.rxBurst d postRet (.failed code) = .ok (n', v')) :
    ∃ r, s.repost d postRet = .ok r ∧ v = (r.addWaiting d 0).2 ∧
      v' = (r.addWaiting d (-(code + 1))).2 := by
  rw [rxBurst_eq] at none failed
  obtain ⟨r, reposts, polls⟩ := bind_eq_ok.mp none
  obtain ⟨r', reposts', polls'⟩ := bind_eq_ok.mp failed
  obtain rfl : r = r' := Except.ok.inj (reposts.symm.trans reposts')
  exact ⟨r, reposts, (congrArg Prod.snd (Except.ok.inj polls)).symm,
    (congrArg Prod.snd (Except.ok.inj polls')).symm⟩

theorem failed_window {code : Nat} (int : code < 2 ^ 31) :
    ((((0 : Nat) : Int) + -((code : Int) + 1)) % 2 ^ 64).toNat = 2 ^ 64 - (code + 1) := by
  omega

theorem receivePrior_differs (idle : Idle s) {postRet : Int} {code : Nat} (int : code < 2 ^ 31)
    {t u : SoC α} (none : s.receivePrior postRet (.polled []) = .ok t)
    (failed : s.receivePrior postRet (.failed code) = .ok u) : ¬ Agree .prior u t := by
  obtain ⟨⟨n, v⟩, bursts, rest⟩ := bind_eq_ok.mp none
  obtain ⟨⟨m, t'⟩, dispatches, ended⟩ := bind_eq_ok.mp rest
  cases ended
  obtain ⟨⟨n', v'⟩, bursts', rest'⟩ := bind_eq_ok.mp failed
  obtain ⟨⟨m', u'⟩, dispatches', ended'⟩ := bind_eq_ok.mp rest'
  cases ended'
  obtain ⟨r, reposts, polled, polled'⟩ := rxBurst_both bursts bursts'
  obtain ⟨receives, waiting, j, busy⟩ := repost_receives idle.fixed reposts
  have fixed := receives.fixed idle.fixed
  rw [idle.dispatched] at waiting
  have window : (v.recv .prior).waitForDisp = 0 := by
    rw [polled, addWaiting_waitForDisp, waiting]
    rfl
  have window' : (v'.recv .prior).waitForDisp = 2 ^ 64 - (code + 1) := by
    rw [polled', addWaiting_waitForDisp, waiting]
    exact failed_window int
  have fixed' : Fixed v' := polled'.symm ▸ (addWaiting_receives r .prior _).fixed fixed
  have entry := fixed'.entry .prior (fixed'.ringHead .prior)
  have kept : t.bufs = r.bufs := by
    rw [SoC.dispatchRxPkts, window] at dispatches
    obtain ⟨⟨total, w⟩, loops, rest⟩ := bind_eq_ok.mp dispatches
    cases loops
    have ended := congrArg Prod.snd (Except.ok.inj rest)
    rw [← show _ = t from ended, polled]
    rfl
  have freed : (u.bufs (ptr .prior j)).state = .kFREE_BUF := by
    rw [SoC.dispatchRxPkts, window', entry] at dispatches'
    obtain ⟨⟨total, w⟩, loops, rest⟩ := bind_eq_ok.mp dispatches'
    have long : v'.tmpWorkerRxQueue.spare + kNumRxRingEntries ≤ 2 ^ 64 - (code + 1) := by
      have less : v'.tmpWorkerRxQueue.spare < kWsQueueSize := Nat.mod_lt _ (by decide)
      rw [kWsQueueSize] at less
      rw [kNumRxRingEntries]
      omega
    have all := dispatchLoop_frees (fixed'.next .prior) fixed'.queue long loops j
    have ended := congrArg Prod.snd (Except.ok.inj rest)
    rw [← show _ = u from ended]
    exact all
  intro agree
  have same := agree.states (ptr .prior j)
  rw [freed, kept] at same
  exact busy same.symm

theorem directTxBurst_waiting (s : SoC α) (rxQp txQp : Side) :
    ∃ moved, moved ≤ (s.recv rxQp).waitForDisp ∧
      ((s.directTxBurst rxQp txQp).2.recv rxQp).waitForDisp = (s.recv rxQp).waitForDisp - moved ∧
      ((s.directTxBurst rxQp txQp).2.send txQp).txQueueIdx = (s.send txQp).txQueueIdx + moved := by
  let remain := kNumTxRingEntries - (s.send txQp).txQueueIdx
  let moved := if (s.recv rxQp).waitForDisp < remain then (s.recv rxQp).waitForDisp else remain
  obtain ⟨aside, idx⟩ := directLoop_moves rxQp txQp moved 0 s
  refine ⟨moved, ?_, ?_, idx⟩
  · change (if (s.recv rxQp).waitForDisp < remain then (s.recv rxQp).waitForDisp else remain) ≤ _
    split_ifs with room
    · exact Nat.le_refl _
    · exact Nat.le_of_not_lt room
  · rw [SoC.directTxBurst, SoC.setRecv_recv]
    change ((SoC.directLoop rxQp txQp moved 0 s).recv rxQp).waitForDisp - moved = _
    rw [aside.recv]

theorem receiveNext_differs (fixed : Fixed s) {postRet : Int} {code : Nat} (int : code < 2 ^ 31)
    {t u : SoC α} (none : s.receiveNext postRet (.polled []) = .ok t)
    (failed : s.receiveNext postRet (.failed code) = .ok u) : ¬ Agree .next u t := by
  obtain ⟨⟨n, v⟩, bursts, ended⟩ := bind_eq_ok.mp none
  cases ended
  obtain ⟨⟨n', v'⟩, bursts', ended'⟩ := bind_eq_ok.mp failed
  cases ended'
  obtain ⟨r, reposts, polled, polled'⟩ := rxBurst_both bursts bursts'
  have bound := ((repost_receives fixed reposts).1.fixed fixed).waitForDisp .next
  have window : (v.recv .next).waitForDisp =
      (((r.recv .next).waitForDisp + (0 : Int)) % 2 ^ 64).toNat := by
    rw [polled, addWaiting_waitForDisp]
  have window' : (v'.recv .next).waitForDisp =
      (((r.recv .next).waitForDisp + -((code : Int) + 1)) % 2 ^ 64).toNat := by
    rw [polled', addWaiting_waitForDisp]
  have queue : (v'.send .prior).txQueueIdx = (v.send .prior).txQueueIdx := by
    rw [polled, polled']
    rfl
  obtain ⟨moved, inside, left, idx⟩ := directTxBurst_waiting v .next .prior
  obtain ⟨moved', inside', left', idx'⟩ := directTxBurst_waiting v' .next .prior
  intro agree
  have sameLeft := agree.waitForDisp
  have sameIdx : ((v'.directTxBurst .next .prior).2.send .prior).txQueueIdx =
      ((v.directTxBurst .next .prior).2.send .prior).txQueueIdx := agree.txQueueIdx
  rw [left, left'] at sameLeft
  rw [idx, idx', queue] at sameIdx
  have same : (v'.recv .next).waitForDisp = (v.recv .next).waitForDisp := by omega
  rw [window, window'] at same
  omega

/-! ## In every state of the datapath -/

theorem newChannel_receives : ∃ s t : SoC Nat, SoC.channelSoC (.new 0 0 0) (fun _ => 0) = .ok s ∧
    s.receivePrior 0 (.polled []) = .ok t := by
  obtain ⟨s, started, built, -⟩ := channelSoC_built (.new 0 0 0) (fun _ => 0)
  have idle := channelSoC_idle started
  have entry : (s.recv .prior).rxRing (s.recv .prior).recvHead = ⟨.prior, 0⟩ := by
    rw [idle.fixed.rxRing, (built .prior).recv]
    rfl
  have busy : (s.bufs ⟨.prior, 0⟩).state ≠ .kFREE_BUF := by
    rw [(built .prior).bufs]
    exact BufState.noConfusion
  have reposts : s.repost .prior 0 = .ok s := by
    rw [SoC.repost, entry, SoC.takeFree, if_neg busy]
    rfl
  let v := (s.addWaiting .prior 0).2
  have window : (v.recv .prior).waitForDisp = 0 := by
    rw [addWaiting_waitForDisp, idle.dispatched]
    rfl
  have loop : SoC.dispatchLoop (v.recv .prior).waitForDisp
      ((v.recv .prior).rxRing (v.recv .prior).ringHead) 0 v = .ok (0, v) := by
    rw [window]
    rfl
  obtain ⟨w, dispatches⟩ : ∃ w, v.dispatchRxPkts = .ok (0, w) :=
    ⟨_, by rw [SoC.dispatchRxPkts, loop, ok_bind]; rfl⟩
  refine ⟨s, w, started, ?_⟩
  rw [SoC.receivePrior, rxBurst_eq, reposts, ok_bind, pollRecvCq_none, ok_bind]
  change v.dispatchRxPkts >>= _ = _
  rw [dispatches]
  rfl

/-- No failed poll of an `int` is harmless, in either direction, where the burst gets to its poll. -/
theorem failedPoll_not_harmless {raw : Buffer BufPtr} {mem : Nat → α} {answers : List (SoC.Answers α)}
    (started : SoC.channelSoC raw mem = .ok s) (ran : run SoC.launch s answers = .ok s') {code : Nat}
    (int : code < 2 ^ 31) :
    (∀ postRet t, s'.receivePrior postRet (.polled []) = .ok t →
      ¬ Harmless (s'.receivePrior postRet) .prior code) ∧
    ∀ a u, s'.launchRx a = .ok u → ∀ postRet t, u.receiveNext postRet (.polled []) = .ok t →
      ¬ Harmless (u.receiveNext postRet) .next code := by
  have idle := run_idle started ran
  constructor
  · intro postRet t none harmless
    obtain ⟨f, failed, agree⟩ := harmless t none
    exact receivePrior_differs idle int none failed agree
  · intro a u launched postRet t none harmless
    obtain ⟨f, failed, agree⟩ := harmless t none
    exact receiveNext_differs (launchRx_keepsIdle idle.fixed launched).fixed int none failed agree

theorem failedPoll_not_harmless_newChannel : ∃ s : SoC Nat,
    ¬ Harmless (s.receivePrior 0) .prior 10 ∧
    ∀ a u, s.launchRx a = .ok u → ∀ postRet t, u.receiveNext postRet (.polled []) = .ok t →
      ¬ Harmless (u.receiveNext postRet) .next 10 := by
  obtain ⟨s, t, started, none⟩ := newChannel_receives
  obtain ⟨prior, next⟩ := failedPoll_not_harmless started (run_nil SoC.launch s)
    (by decide : 10 < 2 ^ 31)
  exact ⟨s, prior 0 t none, next⟩

theorem first_poll_harms : ∃ s : SoC Nat, SoC.channelSoC (.new 0 0 0) (fun _ => 0) = .ok s ∧
    ¬ Harmless (s.receivePrior 0) .prior 0 := by
  obtain ⟨s, t, started, none⟩ := newChannel_receives
  refine ⟨s, started, fun harmless => ?_⟩
  obtain ⟨f, failed, agree⟩ := harmless t none
  exact receivePrior_differs (channelSoC_idle started) (by decide) none failed agree

end Nicc.Soc

import Nicc.Soc.Work

namespace Nicc.Soc
open Lib

namespace SoC

variable {α : Type}

def RecvPoll.count : RecvPoll α → Nat
  | .failed _ => 0
  | .polled wc => wc.length

def RecvPoll.Counts : RecvPoll α → Prop
  | .failed _ => False
  | .polled wc => wc.length ≤ kRxBatchSize

namespace Answers

variable (a : Answers α)

def recv : Side → RecvPoll α
  | .prior => a.recvPrior.2
  | .next => a.recvNext.2

def flush : Side → List SendPoll
  | .prior => a.flushNext
  | .next => a.flushPrior

def Polled : Prop := ∀ d, (a.recv d).Counts

def received (d : Side) : Nat := (a.recv d).count

def reaped (d : Side) : Nat := reapedBy (a.flush d)

theorem Polled.recv {a : Answers α} (polled : a.Polled) (d : Side) :
    ∃ wc, a.recv d = .polled wc ∧ a.received d = wc.length := by
  have counts := polled d
  rw [received]
  cases poll : a.recv d with
  | failed code =>
      rw [poll] at counts
      exact counts.elim
  | polled wc => exact ⟨wc, rfl, rfl⟩

end Answers

end SoC

variable {α : Type} {l : Layout} {d : Side} {s s' : SoC α} {left : List α}

structure Rest where
  freed : Nat
  sent : Nat
  completed : Nat
  posted : Nat

namespace Rest

variable (r : Rest)

def counts : Counts :=
  ⟨r.freed, r.sent, r.sent, r.sent, r.sent, r.sent, r.completed, r.completed, r.completed, r.posted⟩

def launchRx (n reaped : Nat) : Rest where
  freed := r.freed + reaped
  sent := if kAppRxMsgBatchSize < r.completed + n - r.sent then r.completed + n else r.sent
  completed := r.completed + n
  posted := r.freed + kNumRxRingEntries

def launchTx (n reaped : Nat) : Rest where
  freed := r.freed + reaped
  sent := r.completed + n
  completed := r.completed + n
  posted := r.freed + kNumRxRingEntries

end Rest

structure RxRest (l : Layout) (s : SoC α) (r : Rest) : Prop where
  forward : Forward l s r.counts
  heads : Heads .prior s r.counts
  backlog : r.completed ≤ r.sent + kAppRxMsgBatchSize

structure TxRest (l : Layout) (s : SoC α) (r : Rest) : Prop where
  lane : Lane l .next s (frames (s.recv .next).received) r.counts
  heads : Heads .next s r.counts
  direct : r.sent = r.completed

structure Boundary (l : Layout) (s : SoC α) (rx tx : Rest) : Prop where
  rx : RxRest l s rx
  tx : TxRest l s tx

variable {r rx tx : Rest} {c : Counts}

theorem Forward.same (forward : Forward l s c) (same : SameLane l .prior s s')
    (worker : SameWorker s s') : Forward l s' c where
  lane := by
    rw [worker.handled]
    exact forward.lane.same same
  workers := by
    refine forward.workers.receive worker (by rw [same.recv]) ?_
    rw [forward.lane.input.received]
    exact forward.lane.ordered.worked_completed

theorem RxRest.same (rest : RxRest l s r) (same : SameLane l .prior s s') (worker : SameWorker s s') :
    RxRest l s' r :=
  ⟨rest.forward.same same worker, rest.heads.same same, rest.backlog⟩

theorem TxRest.same (rest : TxRest l s r) (same : SameLane l .next s s') : TxRest l s' r where
  lane := by
    rw [same.recv]
    exact rest.lane.same same
  heads := rest.heads.same same
  direct := rest.direct

theorem Heads.worked (heads : Heads d s c) (recv : s'.recv = s.recv) (send : s'.send = s.send)
    (worked : Nat) : Heads d s' { c with worked := worked } := by
  obtain ⟨recvHead, ringHead, waitForDisp, freeSendWrNum, reaped⟩ := heads
  rw [← recv] at recvHead ringHead waitForDisp
  rw [← send] at freeSendWrNum reaped
  exact ⟨recvHead, ringHead, waitForDisp, freeSendWrNum, reaped⟩

def Rest.handled (r : Rest) (n : Nat) : Counts :=
  let c := (r.launchRx n 0).counts
  { c with queued := r.sent, sent := r.sent, mounted := r.sent }

theorem launchRx_flushes {one two three u : SoC α} {n total : Nat} {a : SoC.Answers α}
    (bursts : s.rxBurst .prior a.recvPrior.1 a.recvPrior.2 = .ok (n, one))
    (dispatches : one.dispatchRxPkts = .ok (total, two))
    (works : two.worker a.msgHandler = .ok three) (collects : three.collectTxPkts = u) :
    s.launchRx a = .ok s' ↔
      if kTxBatchSize ≤ (u.send .next).txQueueIdx then
        ∃ total, u.txFlush .next a.flushNext = .ok (total, s')
      else a.flushNext = [] ∧ u = s' := by
  rw [SoC.launchRx]
  simp only [bursts, ok_bind, dispatches, works, collects]
  split_ifs with many none
  · simp only [bind_eq_ok, pure_eq_ok, Prod.exists, exists_eq_right]
  · simp only [none, pure_eq_ok, true_and]
  · simp only [none, false_and]

theorem launchRx_works (rest : RxRest l s r) {postRet : Int} {wc : List (Completion α)}
    (accepted : r.posted < r.freed + kNumRxRingEntries → postRet = 0)
    (size : wc.length ≤ kRxBatchSize)
    (fits : r.completed + wc.length ≤ r.freed + kNumRxRingEntries)
    (msgHandler : Option (SoC.MsgHandler α)) :
    ∃ u, SameLane l .next s u ∧ Forward l u (r.handled wc.length) ∧
      Heads .prior u (r.handled wc.length) ∧
      ∀ (a : SoC.Answers α) (s' : SoC α), a.recvPrior = (postRet, .polled wc) →
        a.msgHandler = msgHandler → (s.launchRx a = .ok s' ↔
          if kTxBatchSize ≤ (u.send .next).txQueueIdx then
            ∃ total, u.txFlush .next a.flushNext = .ok (total, s')
          else a.flushNext = [] ∧ u = s') := by
  have lane := rest.forward.lane
  have backlog := rest.backlog
  obtain ⟨n, one, bursts, sameOne, workerOne, more, laneOne, headsOne⟩ :=
    rxBurst_lane lane rest.heads rfl accepted size fits
  have forwardOne : Forward l one (r.counts.burst wc.length) := by
    refine ⟨by rw [workerOne.handled]; exact laneOne, ?_⟩
    have workers := rest.forward.workers.receive workerOne more (by
      rw [lane.input.received]
      exact lane.ordered.worked_completed)
    exact { workers with }
  have room : r.completed + wc.length < r.sent + kWsQueueSize := by
    simp only [kRxBatchSize, kAppRxMsgBatchSize, kWsQueueSize] at *
    omega
  obtain ⟨total, two, dispatches, sameTwo, forwardTwo, headsTwo⟩ :=
    dispatchRxPkts_lane forwardOne headsOne rfl room
  obtain ⟨three, works, recv, send, sameThree, forwardThree⟩ :=
    worker_lane forwardTwo rfl msgHandler
  have headsThree := headsTwo.worked recv send (r.launchRx wc.length 0).sent
  obtain ⟨u, collects, sameFour, forwardFour, headsFour⟩ :=
    collectTxPkts_lane forwardThree headsThree rfl
  refine ⟨u, ((SameLane.trans sameOne sameTwo).trans sameThree).trans sameFour, forwardFour, headsFour,
    fun a s' recvPrior handler => ?_⟩
  have answered : s.rxBurst .prior a.recvPrior.1 a.recvPrior.2 = .ok (n, one) := by
    rw [recvPrior]
    exact bursts
  exact launchRx_flushes answered dispatches (by rw [handler]; exact works) collects

theorem Rest.launchRx_backlog (r : Rest) (n reaped : Nat) :
    (r.launchRx n reaped).completed ≤ (r.launchRx n reaped).sent + kAppRxMsgBatchSize := by
  simp only [Rest.launchRx]
  split_ifs with enough
  · exact Nat.le_add_right _ _
  · omega

theorem Rest.handled_idx {n idx : Nat}
    (queue : (r.handled n).queued + idx = (r.handled n).collected) :
    (kTxBatchSize ≤ idx ∧ r.sent < (r.launchRx n 0).sent) ∨
      (¬ kTxBatchSize ≤ idx ∧ r.handled n = (r.launchRx n 0).counts) := by
  have collected : r.sent + idx = (r.launchRx n 0).sent := queue
  by_cases enough : kAppRxMsgBatchSize < r.completed + n - r.sent
  · have sent : (r.launchRx n 0).sent = r.completed + n := if_pos enough
    simp only [kAppRxMsgBatchSize, kTxBatchSize] at *
    exact .inl ⟨by omega, by omega⟩
  · have sent : (r.launchRx n 0).sent = r.sent := if_neg enough
    refine .inr ⟨?_, ?_⟩
    · simp only [kTxBatchSize]
      omega
    · simp only [Rest.handled, Rest.counts, sent]

theorem launchRx_rest (rest : RxRest l s r) {a : SoC.Answers α} {wc : List (Completion α)}
    (poll : a.recv .prior = .polled wc) (ran : s.launchRx a = .ok s') :
    SameLane l .next s s' ∧ RxRest l s' (r.launchRx wc.length (a.reaped .prior)) ∧
      ((r.launchRx wc.length 0).sent = r.sent → a.reaped .prior = 0) := by
  have polled : a.recvPrior = (a.recvPrior.1, .polled wc) := Prod.ext rfl poll
  obtain ⟨accepted, size, fits⟩ :
      (r.posted < r.freed + kNumRxRingEntries → a.recvPrior.1 = 0) ∧ wc.length ≤ kRxBatchSize ∧
        r.completed + wc.length ≤ r.freed + kNumRxRingEntries := by
    rw [SoC.launchRx, polled] at ran
    obtain ⟨⟨n, one⟩, bursts, -⟩ := bind_eq_ok.mp ran
    exact rxBurst_answered rest.forward.lane rest.heads bursts
  obtain ⟨u, same, forward, heads, flushes⟩ :=
    launchRx_works rest accepted size fits a.msgHandler
  have flushed := (flushes a s' polled rfl).mp ran
  have idx : (r.handled wc.length).queued + (u.send .next).txQueueIdx =
      (r.handled wc.length).collected := forward.lane.output.txQueueIdx
  rcases Rest.handled_idx idx with ⟨many, more⟩ | ⟨few, counts⟩
  · rw [if_pos many] at flushed
    obtain ⟨total, sends⟩ := flushed
    obtain ⟨only, lane, sentHeads⟩ := txFlush_lane forward.lane heads rfl rfl sends
    have workers := forward.workers.receive only.worker (by rw [only.recv]) (by
      rw [forward.lane.input.received]
      exact forward.lane.ordered.worked_completed)
    refine ⟨same.trans only.same, ⟨⟨?_, { workers with }⟩, sentHeads, Rest.launchRx_backlog _ _ _⟩,
      fun idle => absurd idle more.ne'⟩
    rw [only.worker.handled]
    exact lane
  · rw [if_neg few] at flushed
    obtain ⟨none, rfl⟩ := flushed
    have zero : a.reaped .prior = 0 := by
      rw [SoC.Answers.reaped, SoC.Answers.flush, none]
      rfl
    rw [counts] at forward heads
    rw [zero]
    exact ⟨same, ⟨forward, heads, Rest.launchRx_backlog _ _ _⟩, fun _ => rfl⟩

theorem launchRx_runs (rest : RxRest l s r) {wc : List (Completion α)}
    (size : wc.length ≤ kRxBatchSize)
    (fits : r.completed + wc.length ≤ r.freed + kNumRxRingEntries) {a : SoC.Answers α}
    (poll : a.recvPrior = (0, .polled wc))
    (flush : a.flushNext = if r.sent < (r.launchRx wc.length 0).sent then [⟨0, 0⟩] else []) :
    ∃ s', s.launchRx a = .ok s' := by
  obtain ⟨u, same, forward, heads, flushes⟩ :=
    launchRx_works rest (fun _ => rfl) size fits a.msgHandler
  have idx : (r.handled wc.length).queued + (u.send .next).txQueueIdx =
      (r.handled wc.length).collected := forward.lane.output.txQueueIdx
  rcases Rest.handled_idx idx with ⟨many, more⟩ | ⟨few, counts⟩
  · have room : (r.handled wc.length).collected ≤ (r.handled wc.length).freed + kNumTxRingEntries := by
      have ordered := forward.lane.ordered
      exact ordered.collected.trans (ordered.worked_completed.trans (ordered.completed.trans
        ordered.posted))
    obtain ⟨total, s', sends⟩ := txFlush_once forward.lane heads rfl rfl more room
    refine ⟨s', (flushes a s' poll rfl).mpr ?_⟩
    rw [if_pos many, flush, if_pos more]
    exact ⟨total, sends⟩
  · have same : (r.launchRx wc.length 0).sent = r.sent := congrArg Counts.sent counts.symm
    refine ⟨u, (flushes a u poll rfl).mpr ?_⟩
    rw [if_neg few, flush, same, if_neg (Nat.lt_irrefl _)]
    exact ⟨rfl, rfl⟩

def Rest.passed (r : Rest) (n : Nat) : Counts :=
  let c := (r.launchTx n 0).counts
  { c with queued := r.sent, sent := r.sent, mounted := r.sent }

theorem launchTx_flushes {one u : SoC α} {n total : Nat} {a : SoC.Answers α}
    (bursts : s.rxBurst .next a.recvNext.1 a.recvNext.2 = .ok (n, one))
    (passes : one.directTxBurst .next .prior = (total, u)) :
    s.launchTx a = .ok s' ↔ ∃ total, u.txFlush .prior a.flushPrior = .ok (total, s') := by
  rw [SoC.launchTx]
  simp only [bursts, ok_bind, passes, bind_eq_ok, pure_eq_ok, Prod.exists, exists_eq_right]

theorem launchTx_works (rest : TxRest l s r) {postRet : Int} {wc : List (Completion α)}
    (accepted : r.posted < r.freed + kNumRxRingEntries → postRet = 0)
    (size : wc.length ≤ kRxBatchSize)
    (fits : r.completed + wc.length ≤ r.freed + kNumRxRingEntries) :
    ∃ u, SameLane l .prior s u ∧ SameWorker s u ∧
      Lane l .next u (frames (u.recv .next).received) (r.passed wc.length) ∧
      Heads .next u (r.passed wc.length) ∧
      ∀ (a : SoC.Answers α) (s' : SoC α), a.recvNext = (postRet, .polled wc) →
        (s.launchTx a = .ok s' ↔ ∃ total, u.txFlush .prior a.flushPrior = .ok (total, s')) := by
  have direct := rest.direct
  obtain ⟨n, one, bursts, sameOne, workerOne, ⟨packets, more⟩, laneOne, headsOne⟩ :=
    rxBurst_lane rest.lane rest.heads rfl accepted size fits
  have old : frames (s.recv .next).received =
      (frames (one.recv .next).received).take (r.counts.burst wc.length).worked := by
    have length : (frames (s.recv .next).received).length = r.sent := by
      rw [frames, List.length_map, rest.lane.input.received]
      exact direct.symm
    rw [← more, show frames ((s.recv .next).received ++ packets) = _ from List.map_append]
    exact (List.take_left' length).symm
  rw [old] at laneOne
  obtain ⟨total, u, passes, sameTwo, workerTwo, received, lane, heads⟩ :=
    directTxBurst_lane laneOne headsOne direct.symm rfl rfl rfl
  have counts : (r.counts.burst wc.length).direct (r.completed + wc.length - r.sent) =
      r.passed wc.length := by
    have all : r.sent + (r.completed + wc.length - r.sent) = r.completed + wc.length := by omega
    have dispatched : r.completed + (r.completed + wc.length - r.sent) = r.completed + wc.length := by
      omega
    simp only [Counts.direct, Counts.burst, Rest.passed, Rest.launchTx, Rest.counts, all, dispatched,
      Nat.add_zero]
  refine ⟨u, SameLane.trans sameOne sameTwo, workerOne.trans workerTwo, ?_, ?_,
    fun a s' recvNext => ?_⟩
  · rw [← counts, received]
    exact lane
  · rw [← counts]
    exact heads
  · have answered : s.rxBurst .next a.recvNext.1 a.recvNext.2 = .ok (n, one) := by
      rw [recvNext]
      exact bursts
    exact launchTx_flushes answered passes

theorem launchTx_rest (rest : TxRest l s r) {a : SoC.Answers α} {wc : List (Completion α)}
    (poll : a.recv .next = .polled wc) (ran : s.launchTx a = .ok s') :
    SameLane l .prior s s' ∧ SameWorker s s' ∧
      TxRest l s' (r.launchTx wc.length (a.reaped .next)) ∧
      (wc.length = 0 → a.reaped .next = 0) := by
  have polled : a.recvNext = (a.recvNext.1, .polled wc) := Prod.ext rfl poll
  obtain ⟨accepted, size, fits⟩ :
      (r.posted < r.freed + kNumRxRingEntries → a.recvNext.1 = 0) ∧ wc.length ≤ kRxBatchSize ∧
        r.completed + wc.length ≤ r.freed + kNumRxRingEntries := by
    rw [SoC.launchTx, polled] at ran
    obtain ⟨⟨n, one⟩, bursts, -⟩ := bind_eq_ok.mp ran
    exact rxBurst_answered rest.lane rest.heads bursts
  obtain ⟨u, same, worker, lane, heads, flushes⟩ := launchTx_works rest accepted size fits
  obtain ⟨total, sends⟩ := (flushes a s' polled).mp ran
  obtain ⟨only, sent, sentHeads⟩ := txFlush_lane lane heads rfl rfl sends
  refine ⟨same.trans only.same, worker.trans only.worker, ⟨?_, sentHeads, rfl⟩, fun none => ?_⟩
  · rw [only.recv]
    exact sent
  · have direct := rest.direct
    have nothing : (r.passed wc.length).queued = (r.passed wc.length).collected := by
      change r.sent = r.completed + wc.length
      omega
    rw [SoC.Answers.reaped, show a.flush .next = [] from txFlush_idle lane nothing sends]
    rfl

theorem launchTx_runs (rest : TxRest l s r) {wc : List (Completion α)}
    (size : wc.length ≤ kRxBatchSize)
    (fits : r.completed + wc.length ≤ r.freed + kNumRxRingEntries) {a : SoC.Answers α}
    (poll : a.recvNext = (0, .polled wc)) (flush : a.flushPrior = if wc = [] then [] else [⟨0, 0⟩]) :
    ∃ s', s.launchTx a = .ok s' := by
  have direct := rest.direct
  obtain ⟨u, -, -, lane, heads, flushes⟩ := launchTx_works rest (fun _ => rfl) size fits
  by_cases none : wc = []
  · have all : (r.passed wc.length).sent = (r.passed wc.length).collected := by
      rw [none]
      exact direct
    obtain ⟨total, s', sends⟩ := txFlush_empty lane rfl all
    refine ⟨s', (flushes a s' poll).mpr ⟨total, ?_⟩⟩
    rw [flush, if_pos none]
    exact sends
  · have more : r.sent < r.completed + wc.length := by
      have := List.length_pos_iff.mpr none
      omega
    have room : (r.passed wc.length).collected ≤ (r.passed wc.length).freed + kNumTxRingEntries := fits
    obtain ⟨total, s', sends⟩ := txFlush_once lane heads rfl rfl more room
    refine ⟨s', (flushes a s' poll).mpr ⟨total, ?_⟩⟩
    rw [flush, if_neg none]
    exact sends

theorem launch_boundary (boundary : Boundary l s rx tx) {a : SoC.Answers α} (polled : a.Polled)
    (ran : s.launch a = .ok s') :
    Boundary l s' (rx.launchRx (a.received .prior) (a.reaped .prior))
      (tx.launchTx (a.received .next) (a.reaped .next)) := by
  obtain ⟨prior, pollPrior, countPrior⟩ := polled.recv .prior
  obtain ⟨next, pollNext, countNext⟩ := polled.recv .next
  obtain ⟨u, first, second⟩ := bind_eq_ok.mp ran
  obtain ⟨sameRx, doneRx, -⟩ := launchRx_rest boundary.rx pollPrior first
  obtain ⟨sameTx, worker, doneTx, -⟩ := launchTx_rest (boundary.tx.same sameRx) pollNext second
  rw [countPrior, countNext]
  exact ⟨doneRx.same sameTx worker, doneTx⟩

theorem launch_idle (boundary : Boundary l s rx tx) {a : SoC.Answers α} (polled : a.Polled)
    (ran : s.launch a = .ok s') :
    ((rx.launchRx (a.received .prior) 0).sent = rx.sent → a.reaped .prior = 0) ∧
      (a.received .next = 0 → a.reaped .next = 0) := by
  obtain ⟨prior, pollPrior, countPrior⟩ := polled.recv .prior
  obtain ⟨next, pollNext, countNext⟩ := polled.recv .next
  obtain ⟨u, first, second⟩ := bind_eq_ok.mp ran
  obtain ⟨sameRx, -, idleRx⟩ := launchRx_rest boundary.rx pollPrior first
  obtain ⟨-, -, -, idleTx⟩ := launchTx_rest (boundary.tx.same sameRx) pollNext second
  rw [countPrior, countNext]
  exact ⟨idleRx, idleTx⟩

def Rest.answers (rx : Rest) (prior next : List (Completion α)) : SoC.Answers α where
  recvPrior := (0, .polled prior)
  msgHandler := none
  flushNext := if rx.sent < (rx.launchRx prior.length 0).sent then [⟨0, 0⟩] else []
  recvNext := (0, .polled next)
  flushPrior := if next = [] then [] else [⟨0, 0⟩]

theorem Rest.answers_polled (rx : Rest) (prior next : List (Completion α))
    (sizePrior : prior.length ≤ kRxBatchSize) (sizeNext : next.length ≤ kRxBatchSize) :
    (rx.answers prior next).Polled := by
  intro d
  cases d with
  | prior => exact sizePrior
  | next => exact sizeNext

theorem launch_runs (boundary : Boundary l s rx tx) (prior next : List (Completion α))
    (sizePrior : prior.length ≤ kRxBatchSize) (sizeNext : next.length ≤ kRxBatchSize)
    (fitsPrior : rx.completed + prior.length ≤ rx.freed + kNumRxRingEntries)
    (fitsNext : tx.completed + next.length ≤ tx.freed + kNumRxRingEntries) :
    ∃ s', s.launch (rx.answers prior next) = .ok s' := by
  obtain ⟨u, first⟩ := launchRx_runs boundary.rx sizePrior fitsPrior
    (a := rx.answers prior next) rfl rfl
  obtain ⟨same, -⟩ := launchRx_rest boundary.rx (a := rx.answers prior next) rfl first
  obtain ⟨s', second⟩ := launchTx_runs (boundary.tx.same same) sizeNext fitsNext
    (a := rx.answers prior next) rfl rfl
  exact ⟨s', bind_eq_ok.mpr ⟨u, first, second⟩⟩

def receivedIn (answers : List (SoC.Answers α)) (d : Side) : Nat :=
  (answers.map fun a => a.received d).sum

def reapedIn (answers : List (SoC.Answers α)) (d : Side) : Nat :=
  (answers.map fun a => a.reaped d).sum

/-- How many of the packets from the prior block the worker has taken. It takes all that wait as soon
as they are more than a batch. -/
def workedAfter (received worked : Nat) : List (SoC.Answers α) → Nat
  | [] => worked
  | a :: rest =>
      let received := received + a.received .prior
      workedAfter received (if kAppRxMsgBatchSize < received - worked then received else worked) rest

theorem run_boundary {answers : List (SoC.Answers α)} (boundary : Boundary l s rx tx)
    (polled : ∀ a ∈ answers, a.Polled) (ran : run SoC.launch s answers = .ok s') :
    ∃ rx' tx', Boundary l s' rx' tx' ∧
      rx'.completed = rx.completed + receivedIn answers .prior ∧
      rx'.freed = rx.freed + reapedIn answers .prior ∧
      tx'.completed = tx.completed + receivedIn answers .next ∧
      tx'.freed = tx.freed + reapedIn answers .next ∧
      rx'.sent = workedAfter rx.completed rx.sent answers := by
  induction answers generalizing s rx tx with
  | nil =>
      cases ran
      exact ⟨rx, tx, boundary, rfl, rfl, rfl, rfl, rfl⟩
  | cons a answers ih =>
      obtain ⟨t, first, rest⟩ := run_cons_ok.mp ran
      have moved := launch_boundary boundary (polled a (by simp)) first
      obtain ⟨rx', tx', done, received, reaped, receivedNext, reapedNext, worked⟩ :=
        ih moved (fun b member => polled b (by simp [member])) rest
      simp only [receivedIn, reapedIn, List.map_cons, List.sum_cons, ← Nat.add_assoc]
      exact ⟨rx', tx', done, received, reaped, receivedNext, reapedNext, worked⟩

end Nicc.Soc

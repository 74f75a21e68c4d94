import Nicc.Soc.Owners

namespace Nicc.Soc
open Lib

variable {α : Type} {l : Layout} {s s' : SoC α} {rx tx : Rest}

/-- No work request is posted on the QP, and whatever the NIC answers, none is ever posted again. -/
def Dead (s : SoC α) (d : Side) : Prop :=
  (s.recv d).posted.length = (s.recv d).received.length ∧
    ∀ answers s', (∀ a ∈ answers, SoC.Answers.Polled a) → run SoC.launch s answers = .ok s' →
      (s'.recv d).posted = (s.recv d).posted

def restOf (rx tx : Rest) : Side → Rest
  | .prior => rx
  | .next => tx

theorem Boundary.posted_length (boundary : Boundary l s rx tx) (d : Side) :
    (s.recv d).posted = (List.range (restOf rx tx d).posted).map (l.recvWr d) := by
  cases d with
  | prior => exact boundary.rx.forward.lane.input.posted
  | next => exact boundary.tx.lane.input.posted

theorem Boundary.received_length (boundary : Boundary l s rx tx) (d : Side) :
    (s.recv d).received.length = (restOf rx tx d).completed := by
  cases d with
  | prior => exact boundary.rx.forward.lane.input.received
  | next => exact boundary.tx.lane.input.received

theorem Boundary.bounds (boundary : Boundary l s rx tx) (d : Side) :
    (restOf rx tx d).completed ≤ (restOf rx tx d).posted ∧
      (restOf rx tx d).posted ≤ (restOf rx tx d).freed + kNumRxRingEntries ∧
      (restOf rx tx d).sent ≤ (restOf rx tx d).completed ∧
      (restOf rx tx d).completed ≤ (restOf rx tx d).sent + kAppRxMsgBatchSize := by
  cases d with
  | prior =>
      have ordered := boundary.rx.forward.lane.ordered
      exact ⟨ordered.completed, ordered.posted, ordered.worked_completed, boundary.rx.backlog⟩
  | next =>
      have ordered := boundary.tx.lane.ordered
      exact ⟨ordered.completed, ordered.posted, ordered.worked_completed,
        boundary.tx.direct ▸ Nat.le_add_right _ _⟩

def Rest.launched (d : Side) (r : Rest) (n reaped : Nat) : Rest :=
  match d with
  | .prior => r.launchRx n reaped
  | .next => r.launchTx n reaped

theorem restOf_launch (rx tx : Rest) (d : Side) (n reaped : Side → Nat) :
    restOf (rx.launchRx (n .prior) (reaped .prior)) (tx.launchTx (n .next) (reaped .next)) d =
      (restOf rx tx d).launched d (n d) (reaped d) := by
  cases d <;> rfl

@[simp] theorem Rest.launched_completed (d : Side) (r : Rest) (n reaped : Nat) :
    (r.launched d n reaped).completed = r.completed + n := by cases d <;> rfl

@[simp] theorem Rest.launched_freed (d : Side) (r : Rest) (n reaped : Nat) :
    (r.launched d n reaped).freed = r.freed + reaped := by cases d <;> rfl

@[simp] theorem Rest.launched_posted (d : Side) (r : Rest) (n reaped : Nat) :
    (r.launched d n reaped).posted = r.freed + kNumRxRingEntries := by cases d <;> rfl

def Exhausted (r : Rest) : Prop := r.completed = r.freed + kNumRxRingEntries

theorem launch_exhausted (boundary : Boundary l s rx tx) {a : SoC.Answers α} (polled : a.Polled)
    (ran : s.launch a = .ok s') {d : Side} (exhausted : Exhausted (restOf rx tx d)) :
    a.received d = 0 ∧ a.reaped d = 0 := by
  have all : (restOf rx tx d).completed = (restOf rx tx d).freed + kNumRxRingEntries := exhausted
  have after := ((launch_boundary boundary polled ran).bounds d).1
  rw [restOf_launch rx tx d a.received a.reaped, Rest.launched_completed, Rest.launched_posted] at after
  have none : a.received d = 0 := by omega
  obtain ⟨idleRx, idleTx⟩ := launch_idle boundary polled ran
  refine ⟨none, ?_⟩
  cases d with
  | prior =>
      refine idleRx (if_neg ?_)
      have backlog := boundary.rx.backlog
      omega
  | next => exact idleTx none

theorem run_exhausted {answers : List (SoC.Answers α)} (boundary : Boundary l s rx tx)
    (polled : ∀ a ∈ answers, SoC.Answers.Polled a) (ran : run SoC.launch s answers = .ok s')
    {d : Side} (exhausted : Exhausted (restOf rx tx d)) :
    (s'.recv d).posted = (s.recv d).posted := by
  induction answers generalizing s rx tx with
  | nil =>
      cases ran
      rfl
  | cons a answers ih =>
      obtain ⟨t, first, rest⟩ := run_cons_ok.mp ran
      have counts := polled a (by simp)
      have moved := launch_boundary boundary counts first
      obtain ⟨none, idle⟩ := launch_exhausted boundary counts first exhausted
      have all : (restOf rx tx d).completed = (restOf rx tx d).freed + kNumRxRingEntries := exhausted
      obtain ⟨-, above, -⟩ := boundary.bounds d
      have low := (boundary.bounds d).1
      have still := ih moved (fun b member => polled b (by simp [member])) rest (by
        rw [restOf_launch rx tx d a.received a.reaped, Exhausted, Rest.launched_completed,
          Rest.launched_freed, none, idle]
        exact all)
      rw [still, moved.posted_length d, boundary.posted_length d,
        restOf_launch rx tx d a.received a.reaped, Rest.launched_posted]
      congr 2
      omega

theorem Boundary.dead_iff (boundary : Boundary l s rx tx) (d : Side) :
    Dead s d ↔ Exhausted (restOf rx tx d) := by
  have length : (s.recv d).posted.length = (restOf rx tx d).posted := by
    rw [boundary.posted_length, List.length_map, List.length_range]
  have received := boundary.received_length d
  obtain ⟨low, high, -⟩ := boundary.bounds d
  constructor
  · rintro ⟨all, never⟩
    rw [length, received] at all
    by_contra left
    -- A launch that receives nothing posts the buffers that have come back.
    have left : (restOf rx tx d).completed ≠ (restOf rx tx d).freed + kNumRxRingEntries := left
    have fits : ∀ e, (restOf rx tx e).completed + 0 ≤ (restOf rx tx e).freed + kNumRxRingEntries :=
      fun e => (boundary.bounds e).1.trans (boundary.bounds e).2.1
    obtain ⟨s', launched⟩ := launch_runs boundary [] [] (Nat.zero_le _) (Nat.zero_le _) (fits .prior)
      (fits .next)
    have counts : (rx.answers ([] : List (Completion α)) []).Polled :=
      rx.answers_polled [] [] (Nat.zero_le _) (Nat.zero_le _)
    have same := never [rx.answers [] []] s' (by simpa using counts)
      (run_cons_ok.mpr ⟨s', launched, rfl⟩)
    have moved := launch_boundary boundary counts launched
    have longer := congrArg List.length same
    rw [length, moved.posted_length d, List.length_map, List.length_range,
      restOf_launch rx tx d (rx.answers [] []).received (rx.answers [] []).reaped,
      Rest.launched_posted] at longer
    omega
  · intro exhausted
    have all : (restOf rx tx d).completed = (restOf rx tx d).freed + kNumRxRingEntries := exhausted
    refine ⟨by rw [length, received]; omega, fun answers s' polled ran => ?_⟩
    exact run_exhausted boundary polled ran exhausted

/-- The condition at one launch boundary: the QP has received fewer packets than a ring holds beyond
those whose sends have been completed. -/
def Supplied (answers : List (SoC.Answers α)) (d : Side) : Prop :=
  receivedIn answers d < kNumRxRingEntries + reapedIn answers d

theorem dead_iff_supplied {raw : Buffer BufPtr} {mem : Nat → α} {answers : List (SoC.Answers α)}
    (started : SoC.channelSoC raw mem = .ok s) (polled : ∀ a ∈ answers, a.Polled)
    (ran : run SoC.launch s answers = .ok s') (d : Side) : ¬ Dead s' d ↔ Supplied answers d := by
  obtain ⟨rx', tx', boundary, received, reaped, receivedNext, reapedNext, -⟩ :=
    run_boundary (channelSoC_boundary started) polled ran
  have counts : (restOf rx' tx' d).completed = receivedIn answers d ∧
      (restOf rx' tx' d).freed = reapedIn answers d := by
    cases d with
    | prior => exact ⟨received.trans (Nat.zero_add _), reaped.trans (Nat.zero_add _)⟩
    | next => exact ⟨receivedNext.trans (Nat.zero_add _), reapedNext.trans (Nat.zero_add _)⟩
  obtain ⟨low, high, -⟩ := boundary.bounds d
  rw [boundary.dead_iff, Exhausted, Supplied]
  omega

/-- No launch boundary of a run is dead exactly when at each of them the NIC has completed enough
sends. -/
theorem never_dead_iff {raw : Buffer BufPtr} {mem : Nat → α} {answers : List (SoC.Answers α)}
    (started : SoC.channelSoC raw mem = .ok s) (polled : ∀ a ∈ answers, a.Polled)
    (ran : run SoC.launch s answers = .ok s') :
    (∀ front, front <+: answers → ∀ t, run SoC.launch s front = .ok t → ∀ d, ¬ Dead t d) ↔
      ∀ front, front <+: answers → ∀ d, Supplied front d := by
  have counts : ∀ front, front <+: answers → ∀ a ∈ front, a.Polled :=
    fun front early a member => polled a (early.subset member)
  constructor
  · intro alive front early d
    obtain ⟨rest, rfl⟩ := early
    obtain ⟨t, begun, -⟩ := run_append_ok.mp ran
    exact (dead_iff_supplied started (counts _ (List.prefix_append _ _)) begun d).mp
      (alive _ (List.prefix_append _ _) t begun d)
  · intro supplied front early t begun d
    exact (dead_iff_supplied started (counts front early) begun d).mpr (supplied front early d)

def fullBurst : SoC.Answers Nat where
  recvPrior := (0, .polled (List.replicate kRxBatchSize ⟨64, 7⟩))
  msgHandler := none
  flushNext := [⟨0, 0⟩]
  recvNext := (0, .polled [])
  flushPrior := []

theorem fullBurst_polled (n : Nat) : ∀ a ∈ List.replicate n fullBurst, a.Polled := by
  intro a member d
  rw [List.eq_of_mem_replicate member]
  cases d with
  | prior => exact (List.length_replicate ..).le
  | next => exact Nat.zero_le _

def Rest.burst (n : Nat) : Rest := ⟨0, n * kRxBatchSize, n * kRxBatchSize, kNumRxRingEntries⟩

theorem Rest.burst_sent (n : Nat) :
    ((Rest.burst n).launchRx kRxBatchSize 0).sent = (n + 1) * kRxBatchSize := by
  simp only [Rest.launchRx, Rest.burst, Nat.add_sub_cancel_left, Nat.succ_mul]
  exact if_pos (by decide)

theorem fullBurst_eq (n : Nat) :
    (Rest.burst n).answers (List.replicate kRxBatchSize ⟨64, 7⟩) [] = fullBurst := by
  have more : (Rest.burst n).sent < ((Rest.burst n).launchRx kRxBatchSize 0).sent := by
    rw [Rest.burst_sent, Nat.succ_mul]
    exact Nat.lt_add_of_pos_right (by decide)
  simp only [Rest.answers, List.length_replicate, if_pos more, if_true, fullBurst]

theorem fullBursts_run {s : SoC Nat} (boundary : Boundary l s Rest.start Rest.start) (n : Nat)
    (inside : n ≤ 16) : ∃ s', run SoC.launch s (List.replicate n fullBurst) = .ok s' ∧
      Boundary l s' (Rest.burst n) Rest.start := by
  induction n with
  | zero => exact ⟨s, rfl, boundary⟩
  | succ n ih =>
      obtain ⟨t, begun, reached⟩ := ih (by omega)
      have fits : (Rest.burst n).completed + kRxBatchSize ≤
          (Rest.burst n).freed + kNumRxRingEntries := by
        simp only [Rest.burst, kRxBatchSize, kNumRxRingEntries]
        omega
      obtain ⟨s', launched⟩ := launch_runs reached (List.replicate kRxBatchSize ⟨64, 7⟩) []
        (List.length_replicate ..).le (Nat.zero_le _) (by rw [List.length_replicate]; exact fits)
        (Nat.zero_le _)
      rw [fullBurst_eq] at launched
      have moved := launch_boundary reached (fullBurst_polled 1 _ (by simp)) launched
      refine ⟨s', ?_, ?_⟩
      · rw [List.replicate_succ']
        exact run_snoc_ok.mpr ⟨t, begun, launched⟩
      · have next : (Rest.burst n).launchRx (fullBurst.received .prior) (fullBurst.reaped .prior) =
            Rest.burst (n + 1) := by
          have sent := Rest.burst_sent n
          have received : fullBurst.received .prior = kRxBatchSize := List.length_replicate ..
          rw [received, show fullBurst.reaped .prior = 0 from rfl]
          simp only [Rest.launchRx, Rest.burst, Nat.succ_mul, Nat.add_zero] at sent ⊢
          rw [sent, Nat.zero_add]
        have still : Rest.start.launchTx (fullBurst.received .next) (fullBurst.reaped .next) =
            Rest.start := by
          rw [show fullBurst.received .next = 0 from rfl, show fullBurst.reaped .next = 0 from rfl]
          simp only [Rest.launchTx, Rest.start, Nat.zero_add]
        rw [next, still] at moved
        exact moved

theorem sixteen_bursts_dead : ∃ s s' : SoC Nat,
    SoC.channelSoC (.new 0 0 0) (fun _ => 0) = .ok s ∧
      (∀ a ∈ List.replicate 16 fullBurst, a.Polled) ∧
      run SoC.launch s (List.replicate 16 fullBurst) = .ok s' ∧ Dead s' .prior := by
  obtain ⟨s, started, -⟩ := channelSoC_built (.new 0 0 0) (fun _ => 0)
  obtain ⟨s', ran, boundary⟩ := fullBursts_run (channelSoC_boundary started) 16 le_rfl
  exact ⟨s, s', started, fullBurst_polled 16, ran, (boundary.dead_iff .prior).mpr rfl⟩

theorem never_dead_iff_sixteen : ∃ s s' : SoC Nat,
    run SoC.launch s (List.replicate 16 fullBurst) = .ok s' ∧
      ((∀ front, front <+: List.replicate 16 fullBurst →
          ∀ t, run SoC.launch s front = .ok t → ∀ d, ¬ Dead t d) ↔
        ∀ front, front <+: List.replicate 16 fullBurst → ∀ d, Supplied front d) := by
  obtain ⟨s, started, -⟩ := channelSoC_built (.new 0 0 0) (fun _ => 0)
  obtain ⟨s', ran, -⟩ := fullBursts_run (channelSoC_boundary started) 16 le_rfl
  exact ⟨s, s', ran, never_dead_iff started (fullBurst_polled 16) ran⟩

end Nicc.Soc

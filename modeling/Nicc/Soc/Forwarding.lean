import Nicc.Soc.Start

namespace Nicc.Soc
open Lib

variable {α : Type} {l : Layout} {d : Side} {s s' : SoC α} {left : List α} {c : Counts}

def ShmQueue.contents {β : Type} (q : ShmQueue β) : List (Option β) :=
  (List.range q.getSize).map fun j => q.queue ((q.head + j) % kWsQueueSize)

theorem ShmQueue.Stores.contents {β : Type} {q : ShmQueue β} {f : Nat → Option β} {lo hi : Nat}
    (stores : q.Stores f lo hi) : q.contents = (List.range' lo (hi - lo)).map f := by
  rw [ShmQueue.contents, stores.getSize, List.range'_eq_map_range, List.map_map]
  refine List.map_congr_left fun j inside => ?_
  rw [List.mem_range] at inside
  rw [Function.comp_apply, stores.head, Nat.mod_add_mod]
  exact stores.window (lo + j) (Nat.le_add_right _ _) (by omega)

def Received.buffer (d : Side) (p : Received α) : BufPtr := ⟨d, p.wr.wrId⟩

structure Forwarded (s : SoC α) (sent waiting : List (Received α)) : Prop where
  received : (s.recv .prior).received = sent ++ waiting
  backlog : waiting.length ≤ kAppRxMsgBatchSize
  queued : s.tmpWorkerRxQueue.contents = waiting.map fun p => some (p.buffer .prior)
  found : s.handled.map Handled.found = frames sent
  toNext : (s.send .next).posted = List.zipWith sentAs sent (s.handled.map Handled.left)
  toPrior : (s.send .prior).posted = List.zipWith sentAs (s.recv .next).received
    (frames (s.recv .next).received)
  notFull : s.fullBranches = 0

structure Answered (s : SoC α) (answers : List (SoC.Answers α)) (sent : List (Received α)) : Prop where
  received : ∀ d, (s.recv d).received.length = receivedIn answers d
  sent : sent.length = workedAfter 0 0 answers

theorem Lane.posted (lane : Lane l d s left c) (worked : c.worked = c.sent) :
    (s.send d.other).posted = List.zipWith sentAs ((s.recv d).received.take c.sent) left := by
  have sentLength := lane.output.sentLength
  have leftLength := lane.input.leftLength
  have received := lane.input.received
  have low := lane.ordered.worked_completed
  apply List.ext_getElem
  · rw [List.length_zipWith, List.length_take, sentLength, leftLength, received]
    omega
  · intro k inside within
    rw [sentLength] at inside
    have arrived : k < (s.recv d).received.length := by omega
    have worked : k < left.length := by omega
    have there : (s.recv d).received[k]? = some (s.recv d).received[k] :=
      List.getElem?_eq_getElem arrived
    have kept : left[k]? = some left[k] := List.getElem?_eq_getElem worked
    have sends := lane.output.sends k _ _ there kept inside
    rw [List.getElem?_eq_getElem (by omega)] at sends
    rw [Option.some.inj sends, List.getElem_zipWith, List.getElem_take]

theorem Input.buffers {r : RecvHalf α} {slots : Nat → Buffer BufPtr} {memory : Nat → α}
    (input : Input l d r slots memory left c) (n : Nat) :
    (r.received.drop n).map (fun p => some (p.buffer d)) =
      (List.range' n (c.completed - n)).map fun k => some (ptr d k) := by
  apply List.ext_getElem
  · simp [input.received]
  · intro j inside within
    simp only [List.length_map, List.length_drop] at inside
    have arrived : n + j < r.received.length := by omega
    have there : r.received[n + j]? = some r.received[n + j] := List.getElem?_eq_getElem arrived
    have wr := input.arrived _ _ there
    simp only [List.getElem_map, List.getElem_drop, List.getElem_range', Nat.one_mul]
    rw [Received.buffer, wr, Layout.recvWr, ptr]

theorem Boundary.forwarded {rx tx : Rest} (boundary : Boundary l s rx tx) :
    Forwarded s ((s.recv .prior).received.take rx.sent) ((s.recv .prior).received.drop rx.sent) := by
  obtain ⟨⟨⟨lane, workers⟩, -, backlog⟩, ⟨direct, -, all⟩⟩ := boundary
  have low : rx.sent ≤ rx.completed := lane.ordered.worked_completed
  have received : (s.recv .prior).received.length = rx.completed := lane.input.received
  have handled : s.handled.length = rx.sent := workers.handled
  refine ⟨(List.take_append_drop _ _).symm, ?_, ?_, ?_, lane.posted rfl, ?_, workers.fullBranches⟩
  · rw [List.length_drop, received]
    omega
  · rw [workers.rxQueue.contents]
    exact (lane.input.buffers rx.sent).symm
  · apply List.ext_getElem
    · rw [List.length_map, frames, List.length_map, List.length_take, handled, received]
      omega
    · intro k inside within
      rw [List.length_map] at inside
      have arrived : k < (s.recv .prior).received.length := by omega
      have there : (s.recv .prior).received[k]? = some (s.recv .prior).received[k] :=
        List.getElem?_eq_getElem arrived
      have done : s.handled[k]? = some s.handled[k] := List.getElem?_eq_getElem _
      simp only [frames, List.getElem_map, List.getElem_take]
      exact workers.found k _ _ there done
  · have posted := direct.posted rfl
    rw [List.take_of_length_le (by
      rw [direct.input.received]
      exact all.ge)] at posted
    exact posted

theorem Boundary.answered {rx tx : Rest} (boundary : Boundary l s rx tx)
    {answers : List (SoC.Answers α)} (prior : rx.completed = receivedIn answers .prior)
    (next : tx.completed = receivedIn answers .next) (worked : rx.sent = workedAfter 0 0 answers) :
    Answered s answers ((s.recv .prior).received.take rx.sent) where
  received d := by
    cases d with
    | prior => exact boundary.rx.forward.lane.input.received.trans prior
    | next => exact boundary.tx.lane.input.received.trans next
  sent := by
    have low : rx.sent ≤ rx.counts.completed := boundary.rx.forward.lane.ordered.worked_completed
    rw [List.length_take, boundary.rx.forward.lane.input.received, Nat.min_eq_left low]
    exact worked

theorem forwards_in_order {raw : Buffer BufPtr} {mem : Nat → α} {answers : List (SoC.Answers α)}
    (started : SoC.channelSoC raw mem = .ok s) (polled : ∀ a ∈ answers, a.Polled)
    (ran : run SoC.launch s answers = .ok s') :
    ∃ sent waiting, Forwarded s' sent waiting ∧ Answered s' answers sent := by
  obtain ⟨rx, tx, boundary, prior, -, next, -, worked⟩ :=
    run_boundary (channelSoC_boundary started) polled ran
  exact ⟨_, _, boundary.forwarded, boundary.answered (prior.trans (Nat.zero_add _))
    (next.trans (Nat.zero_add _)) worked⟩

theorem Forwarded.posted_length {sent waiting : List (Received α)}
    (forwarded : Forwarded s sent waiting) (d : Side) :
    (s.send d.other).posted.length =
      match d with
      | .prior => sent.length
      | .next => (s.recv .next).received.length := by
  have handled : s.handled.length = sent.length := by
    have found := congrArg List.length forwarded.found
    simpa [frames] using found
  cases d with
  | prior =>
      change (s.send .next).posted.length = _
      rw [forwarded.toNext, List.length_zipWith, List.length_map, handled, Nat.min_self]
  | next =>
      change (s.send .prior).posted.length = _
      rw [forwarded.toPrior, List.length_zipWith, frames, List.length_map, Nat.min_self]

def fortyPackets : SoC.Answers Nat :=
  Rest.start.answers (List.replicate 40 ⟨64, 7⟩) (List.replicate 3 ⟨128, 9⟩)

theorem fortyPackets_polled : ∀ a ∈ [fortyPackets], a.Polled := by
  intro a member
  rw [List.mem_singleton.mp member]
  exact Rest.start.answers_polled _ _ (by decide) (by decide)

theorem fortyPackets_run : ∃ s s' : SoC Nat, SoC.channelSoC (.new 0 0 0) (fun _ => 0) = .ok s ∧
    run SoC.launch s [fortyPackets] = .ok s' := by
  obtain ⟨s, started, -⟩ := channelSoC_built (.new 0 0 0) (fun _ => 0)
  obtain ⟨s', launched⟩ := launch_runs (channelSoC_boundary started)
    (List.replicate 40 ⟨64, 7⟩) (List.replicate 3 ⟨128, 9⟩) (by decide) (by decide) (by decide)
    (by decide)
  exact ⟨s, s', started, run_cons_ok.mpr ⟨s', launched, rfl⟩⟩

theorem forwards_in_order_forty : ∃ (s s' : SoC Nat) (sent waiting : List (Received Nat)),
    run SoC.launch s [fortyPackets] = .ok s' ∧ Forwarded s' sent waiting ∧
      (s'.recv .prior).received.length = 40 ∧ (s'.send .next).posted.length = 40 ∧
      (s'.recv .next).received.length = 3 ∧ (s'.send .prior).posted.length = 3 := by
  obtain ⟨s, s', started, ran⟩ := fortyPackets_run
  obtain ⟨sent, waiting, forwarded, answered⟩ := forwards_in_order started fortyPackets_polled ran
  exact ⟨s, s', sent, waiting, ran, forwarded, answered.received .prior,
    (forwarded.posted_length .prior).trans answered.sent, answered.received .next,
    (forwarded.posted_length .next).trans (answered.received .next)⟩

end Nicc.Soc

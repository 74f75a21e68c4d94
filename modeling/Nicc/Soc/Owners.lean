import Nicc.Soc.Forwarding
import Mathlib.Data.List.Pairwise

namespace Nicc.Soc
open Lib

variable {α : Type} {l : Layout} {d : Side} {s s' : SoC α} {left : List α} {c : Counts}

inductive Owner
  | sendWindow
  | txQueue
  | txWorkerQueue
  | rxWorkerQueue
  | waitForDisp
  | recvQueue
  | free
  deriving DecidableEq

def Owner.all : List Owner :=
  [.sendWindow, .txQueue, .txWorkerQueue, .rxWorkerQueue, .waitForDisp, .recvQueue, .free]

theorem Owner.mem_all (owner : Owner) : owner ∈ Owner.all := by cases owner <;> decide

def ofSide (d : Side) : Option BufPtr → Bool
  | none => false
  | some p => p.side = d

/-- The Buffers of the receive ring of `d` in one place, with its duplicates. -/
def SoC.held (s : SoC α) (d : Side) : Owner → List (Option BufPtr)
  | .sendWindow =>
      let t := s.send d.other
      (List.range (kNumTxRingEntries - t.freeSendWrNum)).map fun j =>
        t.swRing ((t.sendHead + j) % kNumTxRingEntries)
  | .txQueue => (List.range (s.send d.other).txQueueIdx).map (s.send d.other).txQueue
  | .txWorkerQueue => s.tmpWorkerTxQueue.contents.filter (ofSide d)
  | .rxWorkerQueue => s.tmpWorkerRxQueue.contents.filter (ofSide d)
  | .waitForDisp =>
      let r := s.recv d
      (List.range r.waitForDisp).map fun j =>
        some (r.rxRing ((r.ringHead + j) % kNumRxRingEntries))
  | .recvQueue =>
      ((s.recv d).posted.drop (s.recv d).received.length).map fun wr => some ⟨d, wr.wrId⟩
  | .free =>
      ((List.range kNumRxRingEntries).filter fun i => (s.bufs ⟨d, i⟩).state = .kFREE_BUF).map
        fun i => some ⟨d, i⟩

/-- Each of the Buffers is in one place, and the receive queue holds an interval of the ring. -/
structure OneOwner (s : SoC α) (d : Side) : Prop where
  once : (Owner.all.flatMap (s.held d)).Perm
    ((List.range kNumRxRingEntries).map fun i => some ⟨d, i⟩)
  unique : ∀ i < kNumRxRingEntries, ∃! owner, some ⟨d, i⟩ ∈ s.held d owner
  posted : ∃ n ≤ kNumRxRingEntries,
    s.held d .recvQueue = (List.range n).map (fun j => some
      ⟨d, ((s.recv d).ringHead + (s.recv d).waitForDisp + j) % kNumRxRingEntries⟩) ∧
    ((s.recv d).ringHead + (s.recv d).waitForDisp + n) % kNumRxRingEntries = (s.recv d).recvHead

def PostsFree (s : SoC α) (d : Side) : Prop :=
  ∀ postRet poll n s', s.rxBurst d postRet poll = .ok (n, s') →
    ∃ more, (s'.recv d).posted = (s.recv d).posted ++ more ∧
      ∀ wr ∈ more, some ⟨d, wr.wrId⟩ ∈ s.held d .free ∧ wr.sge.addr = (s.bufs ⟨d, wr.wrId⟩).buf

def between (d : Side) (start stop : Nat) : List (Option BufPtr) :=
  (List.range' start (stop - start)).map fun k => some (ptr d k)

theorem between_append (d : Side) {a b c : Nat} (low : a ≤ b) (high : b ≤ c) :
    between d a b ++ between d b c = between d a c := by
  rw [between, between, between, ← List.map_append]
  have joined := List.range'_append_1 (s := a) (m := b - a) (n := c - b)
  rw [Nat.add_sub_of_le low, show b - a + (c - b) = c - a by omega] at joined
  rw [joined]

theorem window_between {ring : Nat → Option BufPtr} {d : Side} {lo hi : Nat}
    (window : Window kNumRxRingEntries ring (fun k => some (ptr d k)) lo hi) :
    ((List.range (hi - lo)).map fun j => ring ((slotOf lo + j) % kNumRxRingEntries)) =
      between d lo hi := by
  rw [between, List.range'_eq_map_range, List.map_map]
  refine List.map_congr_left fun j inside => ?_
  rw [List.mem_range] at inside
  rw [slotOf_add, Function.comp_apply]
  exact window (lo + j) (Nat.le_add_right _ _) (by omega)

theorem Heads.sendWindow (heads : Heads d s c) (output : Output d (s.recv d).received
    (s.send d.other) left c) (mounted : c.mounted = c.sent) (freed : c.freed ≤ c.sent) :
    s.held d .sendWindow = between d c.freed c.sent := by
  have free := heads.freeSendWrNum
  have number : kNumTxRingEntries - (s.send d.other).freeSendWrNum = c.sent - c.freed := by omega
  have window := output.swRing
  rw [mounted] at window
  rw [SoC.held, number]
  simp only [output.sendHead]
  exact window_between window

theorem Output.txQueue_between (output : Output d (s.recv d).received (s.send d.other) left c) :
    s.held d .txQueue = between d c.queued c.collected := by
  have idx := output.txQueueIdx
  rw [SoC.held, between, List.range'_eq_map_range, List.map_map,
    show c.collected - c.queued = (s.send d.other).txQueueIdx by omega]
  refine List.map_congr_left fun j inside => ?_
  rw [List.mem_range] at inside
  have there := output.txQueue (c.queued + j) (Nat.le_add_right _ _) (by omega)
  rw [Nat.add_sub_cancel_left] at there
  exact there

theorem Heads.waiting (heads : Heads d s c) (rings : Rings l d (s.recv d) (s.send d.other)
    (s.slots d)) : s.held d .waitForDisp = between d c.dispatched c.completed := by
  have waiting := heads.waitForDisp
  rw [SoC.held, between, List.range'_eq_map_range, List.map_map,
    show c.completed - c.dispatched = (s.recv d).waitForDisp by omega]
  refine List.map_congr_left fun j _ => ?_
  rw [heads.ringHead, slotOf_add, rings.rxRing]
  rfl

theorem Input.outstanding (input : Input l d (s.recv d) (s.slots d) (s.memory l d) left c) :
    s.held d .recvQueue = between d c.completed c.posted := by
  rw [SoC.held, input.received, input.posted, ← List.map_drop, List.range_eq_range',
    List.drop_range', List.map_map, between]
  simp only [Nat.mul_one, Nat.zero_add]
  rfl

theorem between_slots (d : Side) (start stop : Nat) :
    between d start stop =
      (ringSlots kNumRxRingEntries start (stop - start)).map fun i => some ⟨d, i⟩ := by
  rw [between, ringSlots, List.map_map]
  rfl

theorem Colors.free_perm (colors : Colors (s.slots d) c.freed c.posted)
    (low : c.freed ≤ c.posted) (fits : c.posted ≤ c.freed + kNumRxRingEntries) :
    (s.held d .free).Perm (between d c.posted (c.freed + kNumRxRingEntries)) := by
  rw [SoC.held, between_slots]
  refine List.Perm.map _ ((List.perm_ext_iff_of_nodup (List.nodup_range.filter _)
    (ringSlots_nodup (by omega))).mpr fun i => ?_)
  simp only [List.mem_filter, List.mem_range, decide_eq_true_eq, mem_ringSlots]
  constructor
  · rintro ⟨inside, state⟩
    obtain ⟨k, above, below, rfl⟩ := exists_position c.freed inside
    refine ⟨k, ?_, by omega, rfl⟩
    by_contra used
    exact colors.busy k above (by omega) state
  · rintro ⟨k, above, below, rfl⟩
    exact ⟨slotOf_lt k, colors.free k above (by omega)⟩

theorem round_perm (d : Side) (start : Nat) :
    (between d start (start + kNumRxRingEntries)).Perm
      ((List.range kNumRxRingEntries).map fun i => some ⟨d, i⟩) := by
  rw [between_slots, Nat.add_sub_cancel_left]
  refine List.Perm.map _ ((List.perm_ext_iff_of_nodup (ringSlots_nodup le_rfl)
    List.nodup_range).mpr fun i => ?_)
  rw [mem_ringSlots, List.mem_range]
  constructor
  · rintro ⟨k, -, -, rfl⟩
    exact slotOf_lt k
  · exact exists_position start

theorem unique_of_perm {ι β : Type} {labels : List ι} {f : ι → List β} {all : List β}
    (mem : ∀ i, i ∈ labels) (perm : (labels.flatMap f).Perm all) (nodup : all.Nodup) {x : β}
    (inside : x ∈ all) : ∃! i, x ∈ f i := by
  obtain ⟨i, -, here⟩ := List.mem_flatMap.mp (perm.mem_iff.mpr inside)
  refine ⟨i, here, fun j there => ?_⟩
  by_contra apart
  have disjoint := (List.nodup_flatMap.mp (perm.nodup_iff.mpr nodup)).2
  have symmetric : Std.Symm (Function.onFun List.Disjoint f) :=
    ⟨fun a b separate => List.Disjoint.symm separate⟩
  exact disjoint.forall (mem j) (mem i) apart there here

theorem Lane.oneOwner (lane : Lane l d s left c) (heads : Heads d s c) (mounted : c.mounted = c.sent)
    (queued : c.queued = c.sent)
    (txWorkerQueue : s.held d .txWorkerQueue = between d c.collected c.worked)
    (rxWorkerQueue : s.held d .rxWorkerQueue = between d c.worked c.dispatched) : OneOwner s d := by
  have ordered := lane.ordered
  have low : c.freed ≤ c.posted := by
    have := ordered.freed; have := ordered.sent; have := ordered.mounted
    have := ordered.collected; have := ordered.worked_completed; have := ordered.completed
    omega
  have recvQueue := lane.input.outstanding
  have once : (Owner.all.flatMap (s.held d)).Perm
      ((List.range kNumRxRingEntries).map fun i => some ⟨d, i⟩) := by
    have used : Owner.all.flatMap (s.held d) = between d c.freed c.posted ++ s.held d .free := by
      simp only [Owner.all, List.flatMap_cons, List.flatMap_nil, List.append_nil]
      rw [heads.sendWindow lane.output mounted ordered.freed, lane.output.txQueue_between,
        txWorkerQueue, rxWorkerQueue, heads.waiting lane.rings, recvQueue, queued]
      simp only [← List.append_assoc]
      rw [between_append d ordered.freed (ordered.sent.trans ordered.mounted),
        between_append d _ ordered.collected, between_append d _ ordered.worked,
        between_append d _ (ordered.dispatched.trans ordered.measured),
        between_append d _ ordered.completed]
      all_goals
        have := ordered.freed; have := ordered.sent; have := ordered.mounted
        have := ordered.collected; have := ordered.worked; have := ordered.dispatched
        have := ordered.measured
        omega
    rw [used]
    refine ((lane.colors.free_perm low ordered.posted).append_left _).trans ?_
    rw [between_append d low ordered.posted]
    exact round_perm d c.freed
  have behind : ∀ j, ((s.recv d).ringHead + (s.recv d).waitForDisp + j) % kNumRxRingEntries =
      slotOf (c.completed + j) := by
    intro j
    rw [heads.ringHead, Nat.add_assoc, slotOf_add, ← Nat.add_assoc, heads.waitForDisp]
  refine ⟨once, fun i inside => ?_, c.posted - c.completed, ?_, ?_, ?_⟩
  · have injective : Function.Injective fun i : Nat => some (⟨d, i⟩ : BufPtr) :=
      fun i j same => (BufPtr.mk.inj (Option.some.inj same)).2
    exact unique_of_perm Owner.mem_all once (List.nodup_range.map injective)
      (List.mem_map.mpr ⟨i, List.mem_range.mpr inside, rfl⟩)
  · have := ordered.posted; have := ordered.freed; have := ordered.ends
    have := ordered.worked_completed
    omega
  · rw [recvQueue, between_slots, ringSlots_eq_map, List.map_map]
    refine List.map_congr_left fun j _ => ?_
    rw [behind]
    rfl
  · rw [behind, Nat.add_sub_of_le ordered.completed, heads.recvHead]

theorem nicReceive_posted {wc : List (Completion α)} (ran : SoC.nicReceive d wc s = .ok s') :
    (s'.recv d).posted = (s.recv d).posted := by
  induction wc generalizing s with
  | nil =>
      cases ran
      rfl
  | cons completion rest ih =>
      rw [SoC.nicReceive] at ran
      cases there : (s.recv d).posted[(s.recv d).received.length]? with
      | none =>
          simp only [there] at ran
          cases ran
      | some wr =>
          simp only [there] at ran
          rw [ih ran, SoC.setRecv_recv]

theorem setLengths_recv (wc : List (Completion α)) (i : Nat) (s : SoC α) :
    (SoC.setLengths d wc i s).recv = s.recv := by
  induction wc generalizing i s with
  | nil => rfl
  | cons completion rest ih => exact (ih (i + 1) _).trans rfl

theorem addWaiting_posted (s : SoC α) (d : Side) (ret : Int) :
    ((s.addWaiting d ret).2.recv d).posted = (s.recv d).posted := by
  simp only [SoC.addWaiting, SoC.setRecv_recv]

theorem pollRecvCq_posted {poll : SoC.RecvPoll α} {n : Nat}
    (ran : s.pollRecvCq d poll = .ok (n, s')) : (s'.recv d).posted = (s.recv d).posted := by
  cases poll with
  | failed code =>
      have counted := congrArg Prod.snd (Except.ok.inj ran)
      rw [← show _ = s' from counted, addWaiting_posted]
  | polled wc =>
      rw [SoC.pollRecvCq] at ran
      split_ifs at ran with large
      obtain ⟨t, received, rest⟩ := bind_eq_ok.mp ran
      have counted := congrArg Prod.snd (Except.ok.inj rest)
      rw [← show _ = s' from counted, addWaiting_posted, setLengths_recv]
      exact nicReceive_posted received

theorem Lane.postsFree (lane : Lane l d s left c) (heads : Heads d s c) : PostsFree s d := by
  intro postRet poll n s' ran
  obtain ⟨-, t, posted, polls⟩ := rxBurst_accepted lane heads ran
  have ordered := lane.ordered
  refine ⟨(List.range' c.posted (c.freed + kNumRxRingEntries - c.posted)).map (l.recvWr d), ?_, ?_⟩
  · have all := (lane.input.post (c.freed + kNumRxRingEntries - c.posted)).posted
    simp only [Nat.add_sub_of_le ordered.posted] at all
    rw [pollRecvCq_posted polls, posted.input.posted]
    exact all.symm
  · intro wr member
    obtain ⟨k, inside, rfl⟩ := List.mem_map.mp member
    rw [List.mem_range'_1] at inside
    have free := lane.colors.free k inside.1 (by omega)
    refine ⟨?_, (lane.rings.buf (slotOf k)).symm⟩
    refine List.mem_map.mpr ⟨slotOf k, List.mem_filter.mpr ⟨List.mem_range.mpr (slotOf_lt k), ?_⟩, rfl⟩
    exact decide_eq_true free

theorem filter_between_same (d : Side) (start stop : Nat) :
    (between d start stop).filter (ofSide d) = between d start stop := by
  refine List.filter_eq_self.mpr fun m member => ?_
  obtain ⟨k, -, rfl⟩ := List.mem_map.mp member
  simp [ofSide, ptr]

theorem filter_between_other (d : Side) (start stop : Nat) :
    (between d start stop).filter (ofSide d.other) = [] := by
  refine List.filter_eq_nil_iff.mpr fun m member => ?_
  obtain ⟨k, -, rfl⟩ := List.mem_map.mp member
  simp [ofSide, ptr, d.other_ne.symm]

theorem between_empty (d : Side) (k : Nat) : between d k k = [] := by
  rw [between, Nat.sub_self]
  rfl

theorem Boundary.oneOwner {rx tx : Rest} (boundary : Boundary l s rx tx) (d : Side) :
    OneOwner s d := by
  obtain ⟨⟨⟨lane, workers⟩, heads, -⟩, ⟨direct, directHeads, all⟩⟩ := boundary
  have rxQueue : s.tmpWorkerRxQueue.contents = between .prior rx.sent rx.completed :=
    workers.rxQueue.contents
  have txQueue : s.tmpWorkerTxQueue.contents = between .prior rx.sent rx.sent :=
    workers.txQueue.contents
  cases d with
  | prior =>
      refine lane.oneOwner heads rfl rfl ?_ ?_
      · rw [SoC.held, txQueue]
        exact filter_between_same _ _ _
      · rw [SoC.held, rxQueue]
        exact filter_between_same _ _ _
  | next =>
      refine direct.oneOwner directHeads rfl rfl ?_ ?_
      · rw [SoC.held, txQueue]
        exact (filter_between_other .prior _ _).trans (between_empty _ _).symm
      · rw [SoC.held, rxQueue]
        refine (filter_between_other .prior _ _).trans ?_
        change [] = between .next tx.sent tx.completed
        rw [all, between_empty]

theorem owned_once {raw : Buffer BufPtr} {mem : Nat → α} {answers : List (SoC.Answers α)}
    (started : SoC.channelSoC raw mem = .ok s) (polled : ∀ a ∈ answers, a.Polled)
    (ran : run SoC.launch s answers = .ok s') :
    (∀ d, OneOwner s' d) ∧ PostsFree s' .prior ∧
      ∀ a t, a.Polled → s'.launchRx a = .ok t → PostsFree t .next := by
  obtain ⟨rx, tx, boundary, -⟩ := run_boundary (channelSoC_boundary started) polled ran
  refine ⟨boundary.oneOwner, boundary.rx.forward.lane.postsFree boundary.rx.heads, ?_⟩
  intro a t counts first
  obtain ⟨wc, poll, -⟩ := counts.recv .prior
  obtain ⟨same, -⟩ := launchRx_rest boundary.rx poll first
  have rest := boundary.tx.same same
  exact rest.lane.postsFree rest.heads

theorem owned_once_forty : ∃ s s' : SoC Nat, run SoC.launch s [fortyPackets] = .ok s' ∧
    ((∀ d, OneOwner s' d) ∧ PostsFree s' .prior ∧
      ∀ a t, a.Polled → s'.launchRx a = .ok t → PostsFree t .next) ∧
    s.held .prior .sendWindow = [] ∧ s'.held .prior .sendWindow = between .prior 0 40 := by
  obtain ⟨s, s', started, ran⟩ := fortyPackets_run
  have before := channelSoC_boundary started
  obtain ⟨t, launched, rest⟩ := run_cons_ok.mp ran
  cases rest
  have after := launch_boundary before (fortyPackets_polled _ List.mem_cons_self) launched
  refine ⟨s, s', ran, owned_once started fortyPackets_polled ran, ?_, ?_⟩
  · exact before.rx.heads.sendWindow before.rx.forward.lane.output rfl le_rfl
  · exact after.rx.heads.sendWindow after.rx.forward.lane.output rfl (by decide)

end Nicc.Soc

import Nicc.Soc.Launch

namespace Nicc.Soc
open Lib

variable {α : Type}

/-- The last of the four chunks of the memory region holds the ring of the prior QP, and the one
before it the ring of the next QP. -/
def layout (raw : Buffer BufPtr) : Layout where
  base
    | .prior => raw.buf + 3 * kMaxClassSize
    | .next => raw.buf + 2 * kMaxClassSize
  lkey := raw.lkey
  apart := by
    simp only [kMaxClassSize, kRQDepth, kNumRxRingEntries, kRecvMbufSize]
    omega

def Rest.start : Rest := ⟨0, 0, 0, kNumRxRingEntries⟩

theorem popBack_pushBack {P : Type} (h : HugeAlloc P) (i : Nat) (b : Buffer P) :
    (h.pushBack i b).popBack i = .ok (b, h) := by
  simp [HugeAlloc.popBack, HugeAlloc.pushBack]

theorem alloc_ring {P : Type} (h : HugeAlloc P) {b : Buffer P} (size : b.classSize = kMaxClassSize) :
    ∃ total, (h.pushBack (kNumClasses - 1) b).alloc (kRQDepth * kRecvMbufSize) =
      .ok (some b, { h with userAllocTot := total }) := by
  have top : classMaxSize (kNumClasses - 1) = kMaxClassSize := by decide
  have ring : kRQDepth * kRecvMbufSize = classMaxSize (kNumClasses - 1) := by decide
  have found : getClass (kRQDepth * kRecvMbufSize) = .ok (kNumClasses - 1) := by
    rw [ring]
    exact getClass_classMaxSize (by decide)
  have present : ((h.pushBack (kNumClasses - 1) b).freelist (kNumClasses - 1)).isEmpty = false := by
    simp [HugeAlloc.pushBack]
  refine ⟨(h.userAllocTot + b.classSize) % 2 ^ 64, ?_⟩
  rw [HugeAlloc.alloc, assertThat_holds (by rw [ring, top]), ok_bind, found, ok_bind,
    assertThat_holds (by decide), ok_bind, if_pos present, HugeAlloc.allocFromClass,
    assertThat_holds (by decide), ok_bind, popBack_pushBack, ok_bind]
  simp only [assertThat_holds (size.trans top.symm), ok_bind]
  rfl

def chunk (raw : Buffer BufPtr) (i : Nat) : Buffer BufPtr :=
  .new (raw.buf + i * kMaxClassSize) kMaxClassSize raw.lkey

theorem addRawBuffer_region (raw : Buffer BufPtr) :
    HugeAlloc.empty.addRawBuffer raw kMemRegionSize =
      .ok ((((HugeAlloc.empty.pushBack (kNumClasses - 1) (chunk raw 0)).pushBack (kNumClasses - 1)
        (chunk raw 1)).pushBack (kNumClasses - 1) (chunk raw 2)).pushBack (kNumClasses - 1)
        (chunk raw 3)) := by
  have number : kMemRegionSize / kMaxClassSize = 4 := by decide
  have rest : kMemRegionSize % kMaxClassSize = 0 := by decide
  have large : kMaxClassSize ≤ kMemRegionSize := by decide
  rw [HugeAlloc.addRawBuffer, dif_pos large]
  simp only [number, rest, Nat.lt_irrefl, if_false]
  rw [assertThat_holds (by decide), ok_bind]
  rfl

structure Built (l : Layout) (d : Side) (s : SoC α) : Prop where
  recv : s.recv d =
    { (SoC.newRecvHalf : RecvHalf α) with
      recvSgl := l.recvSge d
      recvWrNext := fun i => some (circular kRQDepth i)
      rxRing := fun i => ⟨d, i⟩
      posted := (List.range kNumRxRingEntries).map (l.recvWr d) }
  send : s.send d =
    { (SoC.newSendHalf : SendHalf α) with sendWrNext := fun i => some (circular kSQDepth i) }
  bufs : ∀ i, s.bufs ⟨d, i⟩ =
    { (Buffer.new (l.addr d i) kRecvMbufSize l.lkey : Buffer BufPtr) with
      state := .kPOSTED
      next := some ⟨d, circular kRQDepth i⟩ }

theorem fillRecvQueue_built {l : Layout} {d : Side} {s : SoC α} {r : RecvHalf α}
    (recv : s.recv d = r) (next : r.recvWrNext = fun i => some (circular kRQDepth i))
    (sgl : r.recvSgl = l.recvSge d) (posted : r.posted = []) :
    s.fillRecvQueue d 0 = (.NICC_SUCCESS, s.setRecv d { r with
      posted := (List.range kNumRxRingEntries).map (l.recvWr d) }) := by
  have circle : ∀ k, r.recvWrNext (slotOf k) = some (slotOf (k + 1)) := by
    intro k
    rw [next]
    exact congrArg some (circular_slotOf k)
  have chain := walk_broken circle 0 (by decide : kNumRxRingEntries - 1 < kNumRxRingEntries)
    (by decide : kNumRxRingEntries - 1 < kNumRxRingEntries)
  have last : slotOf (0 + (kNumRxRingEntries - 1)) = kRQDepth - 1 := by decide
  rw [last, show slotOf 0 = 0 from rfl,
    show kNumRxRingEntries - 1 + 1 = kNumRxRingEntries from rfl, ← List.range_eq_range'] at chain
  have wrs : ((List.range kNumRxRingEntries).map slotOf).map
      (fun i => (⟨i, r.recvSgl i⟩ : RecvWr)) = (List.range kNumRxRingEntries).map (l.recvWr d) := by
    rw [List.map_map]
    refine List.map_congr_left fun k _ => ?_
    simp only [Function.comp_apply, sgl, Layout.recvWr]
  have closed : Function.update r.recvWrNext (kRQDepth - 1) (some 0) = r.recvWrNext := by
    have same : r.recvWrNext (kRQDepth - 1) = some 0 := by
      rw [next]
      rfl
    rw [← same, Function.update_eq_self]
  rw [SoC.fillRecvQueue, recv]
  simp only [SoC.postRecv, chain, wrs, posted, List.nil_append, ne_eq, not_true_eq_false, if_false,
    Function.update_idem, closed]

theorem initRings_ok (raw : Buffer BufPtr) (mem : Nat → α) :
    SoC.initRings raw mem = .ok
      ((((SoC.new mem).initRecvs .prior (chunk raw 3)).initSends .prior).initRecvs .next
        (chunk raw 2) |>.initSends .next) := by
  let two := (HugeAlloc.empty.pushBack (kNumClasses - 1) (chunk raw 0)).pushBack (kNumClasses - 1)
    (chunk raw 1)
  obtain ⟨total, first⟩ :=
    alloc_ring (two.pushBack (kNumClasses - 1) (chunk raw 2)) (b := chunk raw 3) rfl
  obtain ⟨total', second⟩ :=
    alloc_ring { two with userAllocTot := total } (b := chunk raw 2) rfl
  rw [SoC.initRings, addRawBuffer_region, ok_bind, first, ok_bind]
  change HugeAlloc.alloc { two.pushBack (kNumClasses - 1) (chunk raw 2) with userAllocTot := total }
    (kRQDepth * kRecvMbufSize) = _ at second
  simp only [second, ok_bind]
  rfl

theorem channelSoC_built (raw : Buffer BufPtr) (mem : Nat → α) :
    ∃ s, SoC.channelSoC raw mem = .ok s ∧ (∀ d, Built (layout raw) d s) ∧
      s.tmpWorkerRxQueue = .new ∧ s.tmpWorkerTxQueue = .new ∧ s.handled = [] ∧
      s.fullBranches = 0 := by
  let rings := (((SoC.new mem).initRecvs .prior (chunk raw 3)).initSends .prior).initRecvs .next
    (chunk raw 2) |>.initSends .next
  let blank (d : Side) : RecvHalf α := { SoC.newRecvHalf with
    recvSgl := (layout raw).recvSge d
    recvWrNext := fun i => some (circular kRQDepth i)
    rxRing := fun i => ⟨d, i⟩ }
  let full (d : Side) : RecvHalf α := { blank d with
    posted := (List.range kNumRxRingEntries).map ((layout raw).recvWr d) }
  let prior := rings.setRecv .prior (full .prior)
  have fillPrior : rings.fillRecvQueue .prior 0 = (.NICC_SUCCESS, prior) :=
    fillRecvQueue_built rfl rfl rfl rfl
  have fillNext : prior.fillRecvQueue .next 0 = (.NICC_SUCCESS, prior.setRecv .next (full .next)) :=
    fillRecvQueue_built rfl rfl rfl rfl
  refine ⟨prior.setRecv .next (full .next), ?_, fun d => ?_, rfl, rfl, rfl, rfl⟩
  · have fills : SoC.channelSoC raw mem =
        .ok ((rings.fillRecvQueue .prior 0).2.fillRecvQueue .next 0).2 := by
      rw [SoC.channelSoC, initRings_ok, ok_bind]
      rfl
    rw [fills, fillPrior, fillNext]
  · cases d
    · exact ⟨rfl, rfl, fun i => rfl⟩
    · exact ⟨rfl, rfl, fun i => rfl⟩

theorem Built.lane {l : Layout} {d : Side} {s : SoC α} (built : Built l d s)
    (output : Built l d.other s) : Lane l d s [] Rest.start.counts := by
  have bufs : ∀ i, s.slots d i = _ := built.bufs
  refine ⟨?_, ?_, ?_, ?_, ?_⟩
  · exact ⟨le_rfl, le_rfl, le_rfl, le_rfl, le_rfl, le_rfl, le_rfl, le_rfl, Nat.zero_le _,
      (Nat.zero_add _).ge⟩
  · rw [built.recv, output.send]
    refine ⟨fun i => rfl, fun i => rfl, fun k => congrArg some (circular_slotOf k),
      fun k => congrArg some (circular_slotOf k), fun i => ?_, fun i => ?_, fun k => ?_⟩
    · rw [bufs]
      rfl
    · rw [bufs]
      rfl
    · rw [bufs]
      exact congrArg (fun i => some (⟨d, i⟩ : BufPtr)) (circular_slotOf k)
  · refine ⟨fun k _ _ => ?_, fun k above below => ?_⟩
    · rw [bufs]
      exact BufState.noConfusion
    · exact absurd above (Nat.not_le.mpr (below.trans_eq (Nat.zero_add _)))
  · rw [built.recv]
    have none : ∀ (k : Nat) (p : Received α), ([] : List (Received α))[k]? ≠ some p := by simp
    exact {
      posted := by rw [show Rest.start.counts.posted = kNumRxRingEntries from rfl]
      received := rfl
      arrived := fun k p there => absurd there (none k p)
      lengths := fun k p there => absurd there (none k p)
      found := fun k p there => absurd there (none k p)
      leftLength := rfl
      leftThere := fun k a there => by cases there }
  · rw [built.recv, output.send]
    exact ⟨fun k _ below => absurd below (Nat.not_lt_zero k), rfl, rfl, rfl, .empty _ _ _ _,
      fun k p there => (nomatch there), rfl, fun k p a there => (nomatch there)⟩

theorem Built.heads {l : Layout} {d : Side} {s : SoC α} (built : Built l d s)
    (output : Built l d.other s) : Heads d s Rest.start.counts := by
  refine ⟨?_, ?_, ?_, ?_, ?_⟩
  · rw [built.recv]
    change 0 = kNumRxRingEntries % kNumRxRingEntries
    rw [Nat.mod_self]
  · rw [built.recv]
    rfl
  · rw [built.recv]
    rfl
  · rw [output.send]
    rfl
  · rw [output.send]
    rfl

theorem channelSoC_boundary {raw : Buffer BufPtr} {mem : Nat → α} {s : SoC α}
    (started : SoC.channelSoC raw mem = .ok s) :
    Boundary (layout raw) s Rest.start Rest.start := by
  obtain ⟨t, built, each, rxQueue, txQueue, handled, fullBranches⟩ := channelSoC_built raw mem
  obtain rfl : s = t := Except.ok.inj (started.symm.trans built)
  have lane := fun d => (each d).lane (each d.other)
  have heads := fun d => (each d).heads (each d.other)
  refine ⟨⟨⟨?_, ?_⟩, heads .prior, Nat.zero_le _⟩, ⟨?_, heads .next, rfl⟩⟩
  · rw [handled]
    exact lane .prior
  · refine ⟨?_, ?_, ?_, fun k p m there done => ?_, fullBranches⟩
    · rw [rxQueue]
      exact ShmQueue.new_stores _
    · rw [txQueue]
      exact ShmQueue.new_stores _
    · rw [handled]
      rfl
    · rw [handled] at done
      cases done
  · rw [(each .next).recv]
    exact lane .next

end Nicc.Soc

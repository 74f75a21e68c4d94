import Nicc.Soc.Flow

namespace Nicc.Soc
open Lib

variable {α : Type} {l : Layout} {d : Side} {s s' : SoC α} {left : List α} {c : Counts}

theorem walk_broken {next : Nat → Option Nat}
    (circle : ∀ k, next (slotOf k) = some (slotOf (k + 1))) {len : Nat} (start : Nat)
    (fits : len < kNumRxRingEntries) {fuel : Nat} (enough : len < fuel) :
    SoC.walk (Function.update next (slotOf (start + len)) none) fuel (slotOf start) =
      (List.range' start (len + 1)).map slotOf := by
  induction len generalizing start fuel with
  | zero =>
      obtain ⟨fuel, rfl⟩ := Nat.exists_eq_succ_of_ne_zero (by omega : fuel ≠ 0)
      rw [SoC.walk, Nat.add_zero, Function.update_self]
      rfl
  | succ len ih =>
      obtain ⟨fuel, rfl⟩ := Nat.exists_eq_succ_of_ne_zero (by omega : fuel ≠ 0)
      have apart : slotOf start ≠ slotOf (start + (len + 1)) :=
        slotOf_ne (by omega) (by omega) (by omega)
      have rest := ih (start + 1) (by omega) (by omega : len < fuel)
      rw [Nat.add_right_comm, Nat.add_assoc] at rest
      rw [SoC.walk, Function.update_of_ne apart, circle]
      simp only [rest]
      rfl

structure OnlyStates (d : Side) (s s' : SoC α) : Prop where
  recv : s'.recv = s.recv
  send : s'.send = s.send
  mem : s'.mem = s.mem
  worker : SameWorker s s'
  other : s'.slots d.other = s.slots d.other
  ring : SameRing (s.slots d) (s'.slots d)
  length : ∀ i, (s'.slots d i).length = (s.slots d i).length

theorem OnlyStates.refl (d : Side) (s : SoC α) : OnlyStates d s s :=
  ⟨rfl, rfl, rfl, .refl s, rfl, ⟨fun _ => rfl, fun _ => rfl, fun _ => rfl⟩, fun _ => rfl⟩

theorem OnlyStates.setState (s : SoC α) (d : Side) (i : Nat) (state : BufState) :
    OnlyStates d s (s.setState ⟨d, i⟩ state) := by
  refine ⟨rfl, rfl, rfl, ⟨rfl, rfl, rfl, rfl⟩, s.setState_slots_other d i state, ?_, ?_⟩
  · rw [SoC.setState_slots]
    exact recolored_sameRing i state
  · rw [SoC.setState_slots]
    exact recolored_length i state

theorem OnlyStates.trans {s'' : SoC α} (first : OnlyStates d s s') (second : OnlyStates d s' s'') :
    OnlyStates d s s'' where
  recv := second.recv.trans first.recv
  send := second.send.trans first.send
  mem := second.mem.trans first.mem
  worker := first.worker.trans second.worker
  other := second.other.trans first.other
  ring := ⟨fun i => (second.ring.buf i).trans (first.ring.buf i),
    fun i => (second.ring.lkey i).trans (first.ring.lkey i),
    fun i => (second.ring.next i).trans (first.ring.next i)⟩
  length i := (second.length i).trans (first.length i)

theorem OnlyStates.sameLane (only : OnlyStates d s s') : SameLane l d.other s s' where
  recv := congrFun only.recv _
  send := congrFun only.send _
  slots := only.other
  memory k := by rw [SoC.memory, SoC.memory, only.mem]

theorem deref_some {β : Type} (s : SoC α) (p : β) : SoC.deref s (some p) = .ok p := rfl

theorem takeFree_all {freed posted : Nat}
    (next : ∀ k, (s.slots d (slotOf k)).next = some (ptr d (k + 1)))
    (colors : Colors (s.slots d) freed posted) (low : freed ≤ posted)
    (fits : posted ≤ freed + kNumRxRingEntries) {fuel : Nat}
    (enough : freed + kNumRxRingEntries < posted + fuel) (numRecvs : Nat) :
    ∃ s', SoC.takeFree fuel (ptr d posted) numRecvs s =
        .ok (numRecvs + (freed + kNumRxRingEntries - posted), s') ∧
      OnlyStates d s s' ∧ Colors (s'.slots d) freed (freed + kNumRxRingEntries) := by
  induction fuel generalizing s posted numRecvs with
  | zero => omega
  | succ fuel ih =>
      by_cases full : posted = freed + kNumRxRingEntries
      · have wrapped : ptr d posted = ptr d freed := by
          rw [ptr, ptr, full, slotOf, slotOf, Nat.add_mod_right]
        have busy : (s.bufs (ptr d posted)).state ≠ .kFREE_BUF := by
          rw [wrapped]
          exact colors.busy freed le_rfl (by rw [full]; exact Nat.lt_add_of_pos_right (by decide))
        refine ⟨s, ?_, .refl d s, full ▸ colors⟩
        rw [SoC.takeFree, if_neg busy, full, Nat.sub_self]
        rfl
      · have less : posted < freed + kNumRxRingEntries := by omega
        have free : (s.bufs (ptr d posted)).state = .kFREE_BUF := colors.free posted le_rfl less
        have only := OnlyStates.setState s d (slotOf posted) .kPOSTED
        have marked : Colors ((s.setState (ptr d posted) .kPOSTED).slots d) freed (posted + 1) := by
          rw [ptr, SoC.setState_slots]
          exact colors.post low less
        have following : ((s.setState (ptr d posted) .kPOSTED).bufs (ptr d posted)).next =
            some (ptr d (posted + 1)) := (only.ring.next _).trans (next posted)
        obtain ⟨s', ran, later, all⟩ := ih (fun k => (only.ring.next _).trans (next k)) marked
          (by omega) less (by omega) (numRecvs + 1)
        refine ⟨s', ?_, only.trans later, all⟩
        have count : numRecvs + 1 + (freed + kNumRxRingEntries - (posted + 1)) =
            numRecvs + (freed + kNumRxRingEntries - posted) := by omega
        rw [count] at ran
        rw [SoC.takeFree, if_pos free]
        simp only [following, deref_some, ok_bind]
        exact ran

def postedUpTo (l : Layout) (d : Side) (r : RecvHalf α) (c : Counts) (posted : Nat) : RecvHalf α :=
  { r with
    posted := r.posted ++ (List.range' c.posted (posted - c.posted)).map (l.recvWr d)
    recvHead := slotOf posted }

theorem lastSlot {head len : Nat} (inside : head < kNumRxRingEntries) (fits : len < kNumRxRingEntries) :
    (if kNumRxRingEntries ≤ head + len then head + len - kNumRxRingEntries else head + len) =
      slotOf (head + len) := by
  rw [slotOf]
  split_ifs with wraps
  · rw [Nat.mod_eq_sub_mod wraps, Nat.mod_eq_of_lt (by omega)]
  · rw [Nat.mod_eq_of_lt (by omega)]

theorem postRecvs_ok (rings : Rings l d (s.recv d) (s.send d.other) (s.slots d))
    (recvHead : (s.recv d).recvHead = slotOf c.posted) {more : Nat} (some : 0 < more)
    (fits : more ≤ kNumRxRingEntries) :
    s.postRecvs d more 0 =
      .ok (s.setRecv d (postedUpTo l d (s.recv d) c (c.posted + more))) := by
  obtain ⟨len, rfl⟩ := Nat.exists_eq_succ_of_ne_zero (by omega : more ≠ 0)
  have last : (if kNumRxRingEntries ≤ slotOf c.posted + len then
      slotOf c.posted + len - kNumRxRingEntries else slotOf c.posted + len) =
        slotOf (c.posted + len) :=
    (lastSlot (slotOf_lt c.posted) (by omega)).trans (slotOf_add c.posted len)
  have chain := walk_broken rings.recvWrNext c.posted (by omega : len < kNumRxRingEntries)
    (by omega : len < kNumRxRingEntries)
  have wrs : ((List.range' c.posted (len + 1)).map slotOf).map
      (fun i => (⟨i, (s.recv d).recvSgl i⟩ : RecvWr)) =
        (List.range' c.posted (len + 1)).map (l.recvWr d) := by
    rw [List.map_map]
    refine List.map_congr_left fun k _ => ?_
    simp only [Function.comp_apply, rings.recvSgl, Layout.recvWr]
  rw [SoC.postRecvs]
  simp only [Nat.succ_eq_add_one, Nat.add_sub_cancel, recvHead, last, SoC.postRecv, chain, wrs, ne_eq,
    not_true_eq_false, if_false, Function.update_idem, Function.update_eq_self, slotOf_succ]
  simp only [postedUpTo, Nat.add_sub_cancel_left]
  rfl

theorem nicReceive_lane (lane : Lane l d s left c) {wc : List (Completion α)}
    (fits : c.completed + wc.length ≤ c.posted) :
    ∃ s' packets, SoC.nicReceive d wc s = .ok s' ∧ packets.map Received.completion = wc ∧
      s'.recv d = { s.recv d with received := (s.recv d).received ++ packets } ∧
      s'.send d.other = s.send d.other ∧ SameLane l d.other s s' ∧ SameWorker s s' ∧
      Lane l d s' left { c with completed := c.completed + wc.length } := by
  induction wc generalizing s c with
  | nil => exact ⟨s, [], rfl, rfl, by simp, rfl, .refl l _ s, .refl s, lane⟩
  | cons completion rest ih =>
      have outstanding : c.completed < c.posted := by
        rw [List.length_cons] at fits
        omega
      let wr := l.recvWr d c.completed
      let written := s.setMem (l.addr d (slotOf c.completed)) completion.frame
      let t := written.setRecv d { s.recv d with
        received := (s.recv d).received ++ [⟨wr, completion⟩] }
      have stepped : SoC.nicReceive d (completion :: rest) s = SoC.nicReceive d rest t := by
        simp only [SoC.nicReceive, lane.input.oldest outstanding]
        rfl
      have memory : t.memory l d =
          Function.update (s.memory l d) (slotOf c.completed) completion.frame := by
        rw [show t.memory = written.memory from rfl, SoC.setMem_memory]
      have moved : Lane l d t left { c with completed := c.completed + 1 } := by
        have ordered := lane.ordered
        have before := ordered.measured
        refine ⟨{ ordered with
          measured := Nat.le_succ_of_le before
          completed := outstanding }, ?_, lane.colors, ?_, ?_⟩
        · have rings := lane.rings
          rw [show t.recv d = _ from SoC.setRecv_recv ..]
          exact { rings with }
        · rw [memory, show t.recv d = _ from SoC.setRecv_recv ..]
          exact lane.input.complete ordered outstanding completion
        · have extended := lane.output.extend ordered lane.input.received lane.input.leftLength
            [⟨wr, completion⟩] []
          rw [List.append_nil] at extended
          rw [show t.recv d = _ from SoC.setRecv_recv ..]
          exact { extended with }
      have elsewhere : SameLane l d.other s t :=
        ⟨s.setRecv_recv_other d _, rfl, rfl, fun k => s.setMem_memory_other d l c.completed k _⟩
      obtain ⟨s', packets, ran, completions, recv, send, same, worker, done⟩ :=
        ih moved (by rw [List.length_cons] at fits; change c.completed + 1 + _ ≤ c.posted; omega)
      refine ⟨s', ⟨wr, completion⟩ :: packets, stepped.trans ran, ?_, ?_, send, elsewhere.trans same,
        ⟨worker.rxQueue, worker.txQueue, worker.handled, worker.fullBranches⟩, ?_⟩
      · rw [List.map_cons, completions]
      · rw [recv, show t.recv d = _ from SoC.setRecv_recv ..]
        simp
      · rw [List.length_cons, Nat.add_comm rest.length, ← Nat.add_assoc]
        exact done

theorem setLengths_lane (lane : Lane l d s left c) {before packets : List (Received α)}
    (received : (s.recv d).received = before ++ packets) (measured : before.length = c.measured)
    (i : Nat) (start : (s.recv d).ringHead + (s.recv d).waitForDisp + i =
      slotOf c.dispatched + (c.measured - c.dispatched)) :
    ∃ s', SoC.setLengths d (packets.map Received.completion) i s = s' ∧ s'.recv = s.recv ∧
      s'.send = s.send ∧ SameLane l d.other s s' ∧ SameWorker s s' ∧
      Lane l d s' left { c with measured := c.completed } := by
  induction packets generalizing s c before i with
  | nil =>
      have all : c.measured = c.completed := by
        rw [← lane.input.received, received, List.append_nil, measured]
      have same : { c with measured := c.completed } = c :=
        congrArg (fun n => { c with measured := n }) all.symm
      exact ⟨s, rfl, rfl, rfl, .refl l _ s, .refl s, by rw [same]; exact lane⟩
  | cons p rest ih =>
      have ordered := lane.ordered
      have after := ordered.dispatched
      have there : (s.recv d).received[c.measured]? = some p := by
        rw [received, ← measured, List.getElem?_append_right le_rfl, Nat.sub_self]
        rfl
      have inside : c.measured < c.completed := by
        rw [← lane.input.received]
        exact getElem?_lt there
      have entry : (s.recv d).rxRing (((s.recv d).ringHead + (s.recv d).waitForDisp + i) %
          kNumRxRingEntries) = ⟨d, slotOf c.measured⟩ := by
        rw [start, slotOf_add, lane.rings.rxRing, Nat.add_sub_cancel' after]
      let t := s.setLength ⟨d, slotOf c.measured⟩ p.completion.byteLen
      have slots : t.slots d = resized (s.slots d) (slotOf c.measured) p.completion.byteLen :=
        s.setLength_slots d _ _
      have moved : Lane l d t left { c with measured := c.measured + 1 } := by
        refine ⟨{ ordered with
          dispatched := Nat.le_succ_of_le after
          measured := inside }, ?_, ?_, ?_, ?_⟩
        · rw [slots]
          exact lane.rings.sameRing (resized_sameRing _ _)
        · rw [slots]
          exact lane.colors.resize _ _
        · rw [slots]
          exact lane.input.measure ordered inside there
        · exact { lane.output with }
      have elsewhere : SameLane l d.other s t :=
        ⟨rfl, rfl, s.setLength_slots_other d _ _, fun _ => rfl⟩
      obtain ⟨s', ran, recv, send, same, worker, done⟩ := ih moved
        (by rw [List.append_assoc]; exact received : (t.recv d).received = before ++ [p] ++ rest)
        (by rw [List.length_append, measured]; rfl) (i + 1)
        (by
          change (s.recv d).ringHead + (s.recv d).waitForDisp + (i + 1) =
            slotOf c.dispatched + (c.measured + 1 - c.dispatched)
          omega)
      refine ⟨s', ?_, recv, send, elsewhere.trans same,
        ⟨worker.rxQueue, worker.txQueue, worker.handled, worker.fullBranches⟩, done⟩
      rw [List.map_cons, SoC.setLengths]
      simp only [entry]
      exact ran

theorem polled_lane (lane : Lane l d s left c) (heads : Heads d s c)
    (measured : c.measured = c.completed) {wc : List (Completion α)}
    (size : wc.length ≤ kRxBatchSize) (fits : c.completed + wc.length ≤ c.posted) :
    ∃ n s', s.pollRecvCq d (.polled wc) = .ok (n, s') ∧ SameLane l d.other s s' ∧ SameWorker s s' ∧
      (s.recv d).received <+: (s'.recv d).received ∧ Lane l d s' left { c with
        completed := c.completed + wc.length, measured := c.completed + wc.length } ∧
      Heads d s' { c with
        completed := c.completed + wc.length, measured := c.completed + wc.length } := by
  have before := lane.ordered
  have waiting := heads.waitForDisp
  obtain ⟨one, packets, taken, rfl, recv, send, sameOne, workerOne, laneOne⟩ :=
    nicReceive_lane lane fits
  obtain ⟨two, lengths, recvTwo, sendTwo, sameTwo, workerTwo, laneTwo⟩ :=
    setLengths_lane laneOne (congrArg RecvHalf.received recv)
      (by rw [lane.input.received]; exact measured.symm) 0
      (by
        rw [recv]
        change (s.recv d).ringHead + (s.recv d).waitForDisp + 0 =
          slotOf c.dispatched + (c.measured - c.dispatched)
        rw [heads.ringHead]
        omega)
  have room : (s.recv d).waitForDisp + (packets.map Received.completion).length ≤
      kNumRxRingEntries := by
    have := before.posted
    have := before.freed
    have := before.sent
    have := before.mounted
    have := before.collected
    have := before.worked
    omega
  have sum : (((two.recv d).waitForDisp + ((packets.map Received.completion).length : Int)) %
      2 ^ 64).toNat = (s.recv d).waitForDisp + (packets.map Received.completion).length := by
    rw [recvTwo, recv]
    simp only [kNumRxRingEntries] at room
    simp only
    omega
  let s' := two.setRecv d { two.recv d with
    waitForDisp := (s.recv d).waitForDisp + (packets.map Received.completion).length }
  have answered : s.pollRecvCq d (.polled (packets.map Received.completion)) =
      .ok (((packets.map Received.completion).length % 2 ^ 64 : Int).toNat, s') := by
    rw [SoC.pollRecvCq, if_neg (Nat.not_lt.mpr size), taken, ok_bind, lengths]
    simp only [SoC.addWaiting, sum]
    rfl
  have elsewhere : SameLane l d.other two s' := ⟨two.setRecv_recv_other d _, rfl, rfl, fun _ => rfl⟩
  refine ⟨_, s', answered, (sameOne.trans sameTwo).trans elsewhere, ?_, ?_, ?_, ?_⟩
  · exact (workerOne.trans workerTwo).trans ⟨rfl, rfl, rfl, rfl⟩
  · rw [show s'.recv d = _ from SoC.setRecv_recv .., recvTwo, recv]
    exact List.prefix_append _ _
  · exact laneTwo.waiting (two.recv d).ringHead _
  · have recvs : two.recv d = { s.recv d with received := (s.recv d).received ++ packets } := by
      rw [recvTwo, recv]
    have sends : s'.send d.other = s.send d.other := by
      rw [show s'.send = two.send from rfl, sendTwo, send]
    refine ⟨?_, ?_, ?_, ?_, ?_⟩
    · rw [show s'.recv d = _ from SoC.setRecv_recv .., recvs]
      exact heads.recvHead
    · rw [show s'.recv d = _ from SoC.setRecv_recv .., recvs]
      exact heads.ringHead
    · rw [show s'.recv d = _ from SoC.setRecv_recv ..]
      change c.dispatched + ((s.recv d).waitForDisp + _) = c.completed + _
      omega
    · rw [sends]
      exact heads.freeSendWrNum
    · rw [sends]
      exact heads.reaped

theorem Lane.onlyStates (lane : Lane l d s left c) (only : OnlyStates d s s') {posted : Nat}
    (colors : Colors (s'.slots d) c.freed posted) :
    Rings l d (s'.recv d) (s'.send d.other) (s'.slots d) ∧ Colors (s'.slots d) c.freed posted ∧
      Input l d (s'.recv d) (s'.slots d) (s'.memory l d) left c ∧
      Output d (s'.recv d).received (s'.send d.other) left c := by
  have rings := lane.rings.sameRing only.ring
  have input := lane.input.sameLength only.length
  have memory : s'.memory l d = s.memory l d := by
    funext i
    rw [SoC.memory, SoC.memory, only.mem]
  rw [only.recv, only.send, memory]
  exact ⟨rings, colors, input, lane.output⟩

theorem Heads.onlyStates (heads : Heads d s c) (only : OnlyStates d s s') : Heads d s' c := by
  obtain ⟨recvHead, ringHead, waitForDisp, freeSendWrNum, reaped⟩ := heads
  rw [← only.recv] at recvHead ringHead waitForDisp
  rw [← only.send] at freeSendWrNum reaped
  exact ⟨recvHead, ringHead, waitForDisp, freeSendWrNum, reaped⟩

section
variable {more : Nat}

theorem Lane.post (lane : Lane l d s left c) (only : OnlyStates d s s')
    (count : c.posted + more = c.freed + kNumRxRingEntries)
    (colors : Colors (s'.slots d) c.freed (c.posted + more)) :
    Lane l d (s'.setRecv d (postedUpTo l d (s'.recv d) c (c.posted + more))) left
      { c with posted := c.posted + more } := by
  obtain ⟨rings, all, input, output⟩ := lane.onlyStates only colors
  have recv := s'.setRecv_recv d (postedUpTo l d (s'.recv d) c (c.posted + more))
  refine ⟨{ lane.ordered with
    completed := lane.ordered.completed.trans (Nat.le_add_right _ _)
    posted := count.le }, ?_, all, ?_, ?_⟩
  · rw [recv]
    exact { rings with }
  · rw [recv]
    have posted := input.post more
    rw [postedUpTo, Nat.add_sub_cancel_left]
    exact { posted with }
  · rw [recv]
    exact { output with }

theorem Heads.post (heads : Heads d s c) (l : Layout) :
    Heads d (s.setRecv d (postedUpTo l d (s.recv d) c (c.posted + more)))
      { c with posted := c.posted + more } := by
  have recv := s.setRecv_recv d (postedUpTo l d (s.recv d) c (c.posted + more))
  refine ⟨?_, ?_, ?_, heads.freeSendWrNum, heads.reaped⟩
  · rw [recv]
    rfl
  · rw [recv]
    exact heads.ringHead
  · rw [recv]
    exact heads.waitForDisp

end

theorem rxBurst_posts (lane : Lane l d s left c) (heads : Heads d s c) :
    ∃ t, SameLane l d.other s t ∧ SameWorker s t ∧ (t.recv d).received = (s.recv d).received ∧
      Lane l d t left { c with posted := c.freed + kNumRxRingEntries } ∧
      Heads d t { c with posted := c.freed + kNumRxRingEntries } ∧
      (∀ postRet poll, (c.posted < c.freed + kNumRxRingEntries → postRet = 0) →
        s.rxBurst d postRet poll = t.pollRecvCq d poll) ∧
      ∀ postRet poll, c.posted < c.freed + kNumRxRingEntries → postRet ≠ 0 →
        ∃ stopped, s.rxBurst d postRet poll = .error stopped := by
  have ordered := lane.ordered
  have room := ordered.posted
  have low : c.freed ≤ c.posted := by
    have := ordered.freed; have := ordered.sent; have := ordered.mounted
    have := ordered.collected; have := ordered.worked_completed; have := ordered.completed
    omega
  obtain ⟨marked, took, only, colors⟩ := takeFree_all lane.rings.next lane.colors low room
    (by omega : _ < c.posted + (kNumRxRingEntries + 1)) 0
  obtain ⟨rings, all, input, output⟩ := lane.onlyStates only colors
  have entry : (s.recv d).rxRing (s.recv d).recvHead = ptr d c.posted := by
    rw [heads.recvHead, lane.rings.rxRing, ptr]
  rw [Nat.zero_add] at took
  have marks := heads.onlyStates only
  by_cases full : c.posted = c.freed + kNumRxRingEntries
  · have same : { c with posted := c.freed + kNumRxRingEntries } = c :=
      congrArg (fun n => { c with posted := n }) full.symm
    refine ⟨marked, only.sameLane, only.worker, by rw [only.recv], ?_, ?_, ?_,
      fun _ _ less => by omega⟩
    · exact ⟨by rw [same]; exact ordered, rings, all, by rw [same]; exact input,
        by rw [same]; exact output⟩
    · rw [same]
      exact marks
    · intro postRet poll _
      have none : c.freed + kNumRxRingEntries - c.posted = 0 := by omega
      rw [none] at took
      rw [SoC.rxBurst]
      simp only [entry, took, ok_bind, ne_eq, not_true_eq_false, if_false]
  · obtain ⟨more, count⟩ : ∃ more, c.posted + more = c.freed + kNumRxRingEntries :=
      ⟨_, Nat.add_sub_of_le room⟩
    have some : 0 < more := by omega
    have posts := postRecvs_ok rings marks.recvHead some (by omega : more ≤ kNumRxRingEntries)
    have number : c.freed + kNumRxRingEntries - c.posted = more := by omega
    rw [number] at took
    let t := marked.setRecv d (postedUpTo l d (marked.recv d) c (c.posted + more))
    have recv : t.recv d = postedUpTo l d (marked.recv d) c (c.posted + more) := SoC.setRecv_recv ..
    rw [← count]
    refine ⟨t, ?_, ?_, ?_, ?_, ?_, ?_, ?_⟩
    · exact only.sameLane.trans ⟨marked.setRecv_recv_other d _, rfl, rfl, fun _ => rfl⟩
    · exact only.worker.trans ⟨rfl, rfl, rfl, rfl⟩
    · rw [recv, only.recv]
      rfl
    · rw [← count] at colors
      exact lane.post only count colors
    · exact marks.post l
    · intro postRet poll accepted
      rw [SoC.rxBurst]
      simp only [entry, took, ok_bind, accepted (by omega), some.ne', ne_eq, not_false_eq_true,
        if_true, posts]
      rfl
    · intro postRet poll _ refused
      rw [SoC.rxBurst]
      simp only [entry, took, ok_bind, some.ne', ne_eq, not_false_eq_true, if_true, SoC.postRecvs,
        refused]
      exact ⟨_, rfl⟩

def Counts.burst (c : Counts) (n : Nat) : Counts :=
  { c with
    posted := c.freed + kNumRxRingEntries
    completed := c.completed + n
    measured := c.completed + n }

theorem rxBurst_lane (lane : Lane l d s left c) (heads : Heads d s c)
    (measured : c.measured = c.completed) {postRet : Int}
    (accepted : c.posted < c.freed + kNumRxRingEntries → postRet = 0) {wc : List (Completion α)}
    (size : wc.length ≤ kRxBatchSize) (fits : c.completed + wc.length ≤ c.freed + kNumRxRingEntries) :
    ∃ n s', s.rxBurst d postRet (.polled wc) = .ok (n, s') ∧ SameLane l d.other s s' ∧
      SameWorker s s' ∧ (s.recv d).received <+: (s'.recv d).received ∧
      Lane l d s' left (c.burst wc.length) ∧ Heads d s' (c.burst wc.length) := by
  obtain ⟨t, same, worker, received, posted, postedHeads, polls, -⟩ := rxBurst_posts lane heads
  obtain ⟨n, s', ran, sameAfter, workerAfter, more, done, doneHeads⟩ :=
    polled_lane posted postedHeads measured size fits
  exact ⟨n, s', (polls _ _ accepted).trans ran, same.trans sameAfter, worker.trans workerAfter,
    received ▸ more, done, doneHeads⟩

theorem nicReceive_fits {wc : List (Completion α)} (ran : SoC.nicReceive d wc s = .ok s')
    (low : (s.recv d).received.length ≤ (s.recv d).posted.length) :
    (s.recv d).received.length + wc.length ≤ (s.recv d).posted.length := by
  induction wc generalizing s with
  | nil => exact low
  | cons completion rest ih =>
      rw [SoC.nicReceive] at ran
      cases there : (s.recv d).posted[(s.recv d).received.length]? with
      | none =>
          simp only [there] at ran
          cases ran
      | some wr =>
          simp only [there] at ran
          have inside := getElem?_lt there
          have later := ih ran (by
            rw [SoC.setRecv_recv, List.length_append, List.length_singleton]
            exact inside)
          rw [SoC.setRecv_recv, List.length_append, List.length_singleton] at later
          rw [List.length_cons]
          change _ + 1 + rest.length ≤ (s.recv d).posted.length at later
          omega

theorem rxBurst_accepted (lane : Lane l d s left c) (heads : Heads d s c) {postRet : Int}
    {poll : SoC.RecvPoll α} {n : Nat} (ran : s.rxBurst d postRet poll = .ok (n, s')) :
    (c.posted < c.freed + kNumRxRingEntries → postRet = 0) ∧
      ∃ t, Lane l d t left { c with posted := c.freed + kNumRxRingEntries } ∧
        t.pollRecvCq d poll = .ok (n, s') := by
  obtain ⟨t, -, -, -, posted, -, polls, refuses⟩ := rxBurst_posts lane heads
  have accepted : c.posted < c.freed + kNumRxRingEntries → postRet = 0 := by
    intro less
    by_contra refused
    obtain ⟨stopped, failed⟩ := refuses postRet poll less refused
    rw [failed] at ran
    cases ran
  rw [polls _ _ accepted] at ran
  exact ⟨accepted, t, posted, ran⟩

theorem rxBurst_answered (lane : Lane l d s left c) (heads : Heads d s c) {postRet : Int}
    {wc : List (Completion α)} {n : Nat} (ran : s.rxBurst d postRet (.polled wc) = .ok (n, s')) :
    (c.posted < c.freed + kNumRxRingEntries → postRet = 0) ∧ wc.length ≤ kRxBatchSize ∧
      c.completed + wc.length ≤ c.freed + kNumRxRingEntries := by
  obtain ⟨accepted, t, posted, polls⟩ := rxBurst_accepted lane heads ran
  rw [SoC.pollRecvCq] at polls
  split_ifs at polls with large
  refine ⟨accepted, Nat.not_lt.mp large, ?_⟩
  obtain ⟨u, received, -⟩ := bind_eq_ok.mp polls
  have length : (t.recv d).posted.length = c.freed + kNumRxRingEntries := by
    rw [posted.input.posted, List.length_map, List.length_range]
  have fits := nicReceive_fits received (by
    rw [posted.input.received, length]
    exact posted.ordered.completed)
  rw [posted.input.received, length] at fits
  exact fits

end Nicc.Soc

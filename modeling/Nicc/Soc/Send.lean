import Nicc.Soc.SendLoops

namespace Nicc.Soc
open Lib

variable {α : Type} {l : Layout} {d : Side} {s s' : SoC α} {left : List α} {c : Counts}

theorem sendRing : kNumTxRingEntries = kNumRxRingEntries := rfl

structure OnlySends (l : Layout) (d : Side) (s s' : SoC α) : Prop where
  recv : s'.recv = s.recv
  same : SameLane l d.other s s'
  worker : SameWorker s s'

theorem OnlySends.refl (l : Layout) (d : Side) (s : SoC α) : OnlySends l d s s :=
  ⟨rfl, .refl l _ s, .refl s⟩

theorem OnlySends.trans {s'' : SoC α} (first : OnlySends l d s s') (second : OnlySends l d s' s'') :
    OnlySends l d s s'' :=
  ⟨second.recv.trans first.recv, first.same.trans second.same, first.worker.trans second.worker⟩

theorem OnlySends.setSend (l : Layout) (s : SoC α) (d : Side) (t : SendHalf α) :
    OnlySends l d s (s.setSend d.other t) := by
  refine ⟨rfl, ⟨rfl, ?_, rfl, fun _ => rfl⟩, ⟨rfl, rfl, rfl, rfl⟩⟩
  rw [Side.other_other, SoC.setSend_other]

theorem OnlySends.setState (l : Layout) (s : SoC α) (d : Side) (i : Nat) (state : BufState) :
    OnlySends l d s (s.setState ⟨d, i⟩ state) :=
  ⟨rfl, ⟨rfl, rfl, s.setState_slots_other d i state, fun _ => rfl⟩, ⟨rfl, rfl, rfl, rfl⟩⟩

theorem Lane.recolored (lane : Lane l d s left c) (k : Nat) (state : BufState) (t : SendHalf α)
    {c' : Counts} (ordered : c'.Ordered) (next : t.sendWrNext = (s.send d.other).sendWrNext)
    (colors : Colors (recolored (s.slots d) (slotOf k) state) c'.freed c'.posted)
    (input : Input l d (s.recv d) (s.slots d) (s.memory l d) left c')
    (output : Output d (s.recv d).received t left c') :
    Lane l d ((s.setState (ptr d k) state).setSend d.other t) left c' := by
  have slots : ((s.setState (ptr d k) state).setSend d.other t).slots d =
      Nicc.Soc.recolored (s.slots d) (slotOf k) state := s.setState_slots d (slotOf k) state
  have send : ((s.setState (ptr d k) state).setSend d.other t).send d.other = t :=
    SoC.setSend_send ..
  have rings := lane.rings.sameRing (recolored_sameRing (slotOf k) state)
  refine ⟨ordered, ?_, ?_, ?_, ?_⟩
  · rw [slots, send]
    exact { rings with sendWrNext := by rw [next]; exact rings.sendWrNext }
  · rw [slots]
    exact colors
  · rw [slots]
    exact input.sameLength (recolored_length (slotOf k) state)
  · rw [send]
    exact output

theorem Lane.sending (lane : Lane l d s left c) (t : SendHalf α) {left' : List α} {c' : Counts}
    (ordered : c'.Ordered) (next : t.sendWrNext = (s.send d.other).sendWrNext)
    (colors : Colors (s.slots d) c'.freed c'.posted)
    (input : Input l d (s.recv d) (s.slots d) (s.memory l d) left' c')
    (output : Output d (s.recv d).received t left' c') : Lane l d (s.setSend d.other t) left' c' := by
  have send : (s.setSend d.other t).send d.other = t := SoC.setSend_send ..
  have rings := lane.rings
  refine ⟨ordered, ?_, colors, input, ?_⟩
  · rw [send]
    exact { rings with sendWrNext := by rw [next]; exact rings.sendWrNext }
  · rw [send]
    exact output

theorem Lane.reap (lane : Lane l d s left c) (inFlight : c.freed < c.sent) :
    (s.send d.other).swRing (s.send d.other).sendHead = some (ptr d c.freed) ∧
      OnlySends l d s (s.reap d.other (ptr d c.freed)) ∧
      Lane l d (s.reap d.other (ptr d c.freed)) left { c with freed := c.freed + 1 } := by
  have ordered := lane.ordered
  have sent := ordered.sent
  have room := ordered.posted
  have behind : c.freed < c.posted := by
    have := ordered.mounted; have := ordered.collected
    have := ordered.worked_completed; have := ordered.completed
    omega
  have after : ({ c with freed := c.freed + 1 } : Counts).Ordered :=
    { ordered with
      freed := (by omega : c.freed + 1 ≤ c.sent)
      posted := (by omega : c.posted ≤ c.freed + 1 + kNumRxRingEntries) }
  refine ⟨?_, (OnlySends.setState l s d _ _).trans (.setSend l _ d _), ?_⟩
  · rw [lane.output.sendHead]
    exact lane.output.swRing.get (by omega)
  · exact lane.recolored c.freed .kFREE_BUF _ after rfl (lane.colors.reap room behind)
      { lane.input with } lane.output.reap

theorem reapLoop_lane (lane : Lane l d s left c) {n : Nat} (inFlight : c.freed + n ≤ c.sent) :
    ∃ s', SoC.reapLoop d.other n s = .ok s' ∧ OnlySends l d s s' ∧
      (∃ sendHead, s'.send d.other = { s.send d.other with sendHead := sendHead }) ∧
      Lane l d s' left { c with freed := c.freed + n } := by
  induction n generalizing s c with
  | zero => exact ⟨s, rfl, .refl l d s, ⟨_, rfl⟩, lane⟩
  | succ n ih =>
      obtain ⟨oldest, only, moved⟩ := lane.reap (by omega)
      obtain ⟨s', ran, later, ⟨sendHead, send⟩, done⟩ := ih moved
        (by change c.freed + 1 + n ≤ c.sent; omega)
      refine ⟨s', (SoC.reapLoop_step oldest n).trans ran, only.trans later, ⟨sendHead, ?_⟩, ?_⟩
      · rw [send, SoC.reap_send]
      · rw [Nat.add_comm n 1, ← Nat.add_assoc]
        exact done

theorem Lane.mounted_sge (lane : Lane l d s left c) {p : Received α}
    (there : (s.recv d).received[c.mounted]? = some p) (inside : c.mounted < c.measured) :
    (⟨(s.slots d (slotOf c.mounted)).buf, (s.slots d (slotOf c.mounted)).length,
        (s.slots d (slotOf c.mounted)).lkey⟩ : Sge) =
      ⟨p.wr.sge.addr, p.completion.byteLen, p.wr.sge.lkey⟩ := by
  rw [lane.rings.buf, lane.rings.lkey, lane.input.lengths _ p there lane.ordered.sent inside,
    lane.input.arrived _ p there]
  rfl

theorem Lane.mount (lane : Lane l d s left c) (queued : c.mounted < c.collected)
    (room : c.mounted < c.freed + kNumTxRingEntries) :
    OnlySends l d s (s.mount d.other (ptr d c.mounted)) ∧
      Lane l d (s.mount d.other (ptr d c.mounted)) left { c with mounted := c.mounted + 1 } := by
  have ordered := lane.ordered
  have sent := ordered.sent
  have freed := ordered.freed
  have bound : c.mounted < c.measured := by
    have := ordered.collected; have := ordered.worked; have := ordered.dispatched
    omega
  have behind : c.mounted < c.posted := by
    have := ordered.measured; have := ordered.completed
    omega
  obtain ⟨p, there⟩ : ∃ p, (s.recv d).received[c.mounted]? = some p := by
    have inside : c.mounted < (s.recv d).received.length := by
      rw [lane.input.received]
      exact bound.trans_le ordered.measured
    exact ⟨_, List.getElem?_eq_getElem inside⟩
  have after : ({ c with mounted := c.mounted + 1 } : Counts).Ordered :=
    { ordered with
      sent := (by omega : c.sent ≤ c.mounted + 1)
      mounted := (by omega : c.mounted + 1 ≤ c.collected) }
  have sge : (⟨(s.bufs (ptr d c.mounted)).buf, (s.bufs (ptr d c.mounted)).length,
      (s.bufs (ptr d c.mounted)).lkey⟩ : Sge) =
        ⟨p.wr.sge.addr, p.completion.byteLen, p.wr.sge.lkey⟩ := lane.mounted_sge there bound
  refine ⟨(OnlySends.setState l s d _ _).trans (.setSend l _ d _), ?_⟩
  rw [SoC.mount, sge]
  exact lane.recolored c.mounted .kPOSTED _ after rfl
    (lane.colors.use ordered.posted (by omega) behind (by decide)) { lane.input with }
    (lane.output.mount ordered (by rw [← sendRing]; omega) there _)

theorem Lane.mounts (lane : Lane l d s left c) (n : Nat) (queued : c.mounted + n ≤ c.collected)
    (room : c.mounted + n ≤ c.freed + kNumTxRingEntries) :
    OnlySends l d s (((List.range' c.mounted n).map (ptr d)).foldl (SoC.mount d.other) s) ∧
      Lane l d (((List.range' c.mounted n).map (ptr d)).foldl (SoC.mount d.other) s) left
        { c with mounted := c.mounted + n } := by
  induction n generalizing s c with
  | zero => exact ⟨.refl l d s, lane⟩
  | succ n ih =>
      obtain ⟨only, moved⟩ := lane.mount (by omega) (by omega)
      obtain ⟨later, done⟩ := ih moved (by change c.mounted + 1 + n ≤ c.collected; omega)
        (by change c.mounted + 1 + n ≤ c.freed + kNumTxRingEntries; omega)
      rw [List.range'_succ, List.map_cons, List.foldl_cons, Nat.add_comm n 1, ← Nat.add_assoc]
      exact ⟨only.trans later, done⟩

theorem mountLoop_lane (lane : Lane l d s left c) (tx nbTxRes waiting free : Nat)
    (next : c.queued + (tx + nbTxRes) = c.mounted) (queue : c.mounted + waiting ≤ c.collected)
    (freeSendWrNum : (s.send d.other).freeSendWrNum = free)
    (room : free + c.mounted = c.freed + kNumTxRingEntries) (tailWr : Option Nat) :
    ∃ s', SoC.mountLoop d.other tx waiting nbTxRes tailWr s =
        .ok (nbTxRes + min free waiting,
          if 0 < min free waiting then some (slotOf (c.mounted + min free waiting - 1)) else tailWr,
          s') ∧
      OnlySends l d s s' ∧
      (s'.send d.other).freeSendWrNum = free - min free waiting ∧
      (s'.send d.other).reaped = (s.send d.other).reaped ∧
      Lane l d s' left { c with mounted := c.mounted + min free waiting } := by
  subst freeSendWrNum
  let n := min (s.send d.other).freeSendWrNum waiting
  let ms := (List.range' c.mounted n).map (ptr d)
  have length : ms.length = n := by rw [List.length_map, List.length_range']
  have entries : ∀ i m, ms[i]? = some m →
      (s.send d.other).txQueue (tx + (nbTxRes + i)) = some m := by
    intro i m there
    obtain ⟨bound, rfl⟩ := List.getElem?_eq_some_iff.mp there
    have inside : i < n := length ▸ bound
    rw [List.getElem_map, List.getElem_range', Nat.one_mul]
    have position : c.mounted + i - c.queued = tx + (nbTxRes + i) := by omega
    rw [← position]
    exact lane.output.txQueue (c.mounted + i) (by omega) (by omega)
  obtain ⟨ran, sendSgl, swRing, send⟩ :=
    SoC.mountLoop_run tailWr lane.output.sendTail length entries
  obtain ⟨only, done⟩ := lane.mounts n (by omega) (by omega)
  refine ⟨_, ?_, only, ?_, ?_, done⟩
  · rw [ran, length]
    have empty : ms = [] ↔ ¬ 0 < n := by
      rw [← List.length_eq_zero_iff, length, Nat.not_lt, Nat.le_zero]
    simp only [empty, ite_not]
    rfl
  · rw [send, length]
  · rw [send]

def Counts.transmit (c : Counts) (ret n : Nat) : Counts :=
  { c with freed := c.freed + ret, sent := c.sent + n, mounted := c.sent + n }

theorem postSend_lane (lane : Lane l d s left c) {n : Nat} (some : 0 < n)
    (mounted : c.mounted = c.sent + n) (fits : n ≤ kNumRxRingEntries) :
    let t := s.send d.other
    ∃ frames, SoC.postSend s { t with
        sendWrNext := Function.update t.sendWrNext (slotOf (c.mounted - 1)) none } (slotOf c.sent) =
      { t with
        sendWrNext := Function.update t.sendWrNext (slotOf (c.mounted - 1)) none
        posted := t.posted ++ frames } ∧
      Lane l d (s.setSend d.other { t with posted := t.posted ++ frames }) left
        { c with sent := c.mounted } := by
  intro t
  obtain ⟨len, rfl⟩ := Nat.exists_eq_succ_of_ne_zero (by omega : n ≠ 0)
  have ordered := lane.ordered
  have last : c.mounted - 1 = c.sent + len := by omega
  have chain := walk_broken lane.rings.sendWrNext c.sent (by omega : len < kNumRxRingEntries)
    (by rw [sendRing]; omega : len < kNumTxRingEntries)
  let frames := ((List.range' c.sent (len + 1)).map slotOf).map fun i =>
    (⟨t.sendSgl i, s.mem (t.sendSgl i).addr⟩ : Sent α)
  refine ⟨frames, ?_, ?_⟩
  · rw [SoC.postSend]
    simp only [last, t, chain]
    rfl
  · refine lane.sending _ { ordered with
        freed := ordered.freed.trans ordered.sent
        queued := ordered.queued.trans ordered.sent
        sent := le_rfl } rfl lane.colors (lane.input.send ordered) ?_
    refine lane.output.send frames ?_ ordered ?_
    · simp only [frames, List.length_map, List.length_range']
      omega
    · intro k p a there kept low high
      have sge := lane.output.sendSgl k p there low high
      have frame := lane.input.leftThere k a kept low
      have addr : p.wr.sge.addr = l.addr d (slotOf k) := by
        rw [lane.input.arrived k p there]
        rfl
      simp only [frames, List.map_map, List.getElem?_map]
      rw [List.getElem?_range' (by omega), Option.map_some]
      have position : c.sent + 1 * (k - c.sent) = k := by omega
      rw [position, Function.comp_apply, show t.sendSgl (slotOf k) = _ from sge]
      simp only [addr]
      rw [show s.mem (l.addr d (slotOf k)) = a from frame]
      simp only [sentAs, addr]

theorem pollSendCq_lane (lane : Lane l d s left c) (heads : Heads d s c)
    (mounted : c.mounted = c.sent) {ret : Nat} (inFlight : c.freed + ret ≤ c.sent) :
    ∃ u, s.pollSendCq d.other ret = .ok u ∧ OnlySends l d s u ∧
      (u.send d.other).freeSendWrNum + c.mounted = c.freed + ret + kNumTxRingEntries ∧
      (u.send d.other).reaped = c.freed + ret ∧
      Lane l d u left { c with freed := c.freed + ret } := by
  have ordered := lane.ordered
  have inRing : c.sent ≤ c.freed + kNumTxRingEntries := by
    have := ordered.ends; have := ordered.worked_completed
    have := ordered.completed; have := ordered.posted
    rw [sendRing]
    omega
  let t := s.send d.other
  have posted : t.posted.length = c.sent := lane.output.sentLength
  have reaped : t.reaped = c.freed := heads.reaped
  have begun : Lane l d (s.setSend d.other { t with
      freeSendWrNum := t.freeSendWrNum + ret, reaped := t.reaped + ret }) left c :=
    lane.sending _ ordered rfl lane.colors lane.input { lane.output with }
  obtain ⟨u, reaps, only, ⟨sendHead, send⟩, done⟩ := reapLoop_lane begun inFlight
  rw [SoC.setSend_send] at send
  refine ⟨u, ?_, (OnlySends.setSend l s d _).trans only, ?_, ?_, done⟩
  · rw [SoC.pollSendCq, if_neg, if_neg (by omega)]
    · exact reaps
    · change ¬ (t.posted.length < t.reaped + ((ret : Int)).toNat ∨ _)
      omega
  · rw [send]
    change t.freeSendWrNum + ret + c.mounted = _
    have free : t.freeSendWrNum + c.sent = c.freed + kNumTxRingEntries := heads.freeSendWrNum
    omega
  · rw [send]
    change t.reaped + ret = _
    rw [reaped]

theorem postMounted_lane (lane : Lane l d s left c) {n : Nat} (mounted : c.mounted = c.sent + n)
    (fits : n ≤ kNumRxRingEntries) {postRet : Int} (accepted : 0 < n → postRet = 0) :
    ∃ u, s.postMounted d.other (slotOf c.sent) n
        (if 0 < n then some (slotOf (c.sent + n - 1)) else none) postRet = .ok u ∧
      OnlySends l d s u ∧ (u.send d.other).freeSendWrNum = (s.send d.other).freeSendWrNum ∧
      (u.send d.other).reaped = (s.send d.other).reaped ∧
      Lane l d u left { c with sent := c.mounted } := by
  by_cases some : 0 < n
  · obtain ⟨frames, posts, done⟩ := postSend_lane lane some mounted fits
    refine ⟨_, ?_, OnlySends.setSend l s d _, by rw [SoC.setSend_send], by rw [SoC.setSend_send], done⟩
    have last : c.sent + n - 1 = c.mounted - 1 := by omega
    rw [SoC.postMounted, if_pos some, if_pos some, deref_some, ok_bind, last]
    simp only [posts, accepted some, ne_eq, not_true_eq_false, if_false, Function.update_idem,
      Function.update_eq_self]
  · have same : ({ c with sent := c.mounted } : Counts) = c :=
      congrArg (fun k => { c with sent := k }) (by omega)
    refine ⟨s, ?_, .refl l d s, rfl, rfl, by rw [same]; exact lane⟩
    rw [SoC.postMounted, if_neg some]

theorem txBurst_mounts (lane : Lane l d s left c) (heads : Heads d s c)
    (mounted : c.mounted = c.sent) {tx txSize : Nat} (next : c.queued + tx = c.sent)
    (queue : c.sent + txSize ≤ c.collected) {ret n : Nat} (inFlight : c.freed + ret ≤ c.sent)
    (count : n = min (c.freed + ret + kNumTxRingEntries - c.sent) txSize) :
    ∃ u, OnlySends l d s u ∧
      (u.send d.other).freeSendWrNum + (c.sent + n) = c.freed + ret + kNumTxRingEntries ∧
      (u.send d.other).reaped = c.freed + ret ∧
      Lane l d u left { c with freed := c.freed + ret, mounted := c.sent + n } ∧
      ∀ postRet, s.txBurst d.other tx txSize ⟨ret, postRet⟩ = (do
        let s ← u.postMounted d.other (slotOf c.sent) n
          (if 0 < n then some (slotOf (c.sent + n - 1)) else none) postRet
        return (n, s)) := by
  obtain ⟨polled, polls, onlyPolls, room, reaped, lanePolled⟩ :=
    pollSendCq_lane lane heads mounted inFlight
  obtain ⟨u, mounts, onlyMounts, free, reapedLater, done⟩ :=
    mountLoop_lane lanePolled tx 0 txSize (polled.send d.other).freeSendWrNum
      (by change c.queued + (tx + 0) = c.mounted; omega)
      (by change c.mounted + txSize ≤ c.collected; omega) rfl room none
  have slots : min (polled.send d.other).freeSendWrNum txSize = n := by omega
  have sendTail : (polled.send d.other).sendTail = slotOf c.sent := by
    rw [← mounted]
    exact lanePolled.output.sendTail
  rw [slots, Nat.zero_add] at mounts
  rw [slots] at free done
  rw [show ({ c with freed := c.freed + ret } : Counts).mounted = c.sent from mounted] at mounts done
  refine ⟨u, onlyPolls.trans onlyMounts, by omega, reapedLater.trans reaped, done, fun postRet => ?_⟩
  rw [SoC.txBurst]
  simp only [polls, ok_bind, mounts, sendTail]

theorem txBurst_lane (lane : Lane l d s left c) (heads : Heads d s c) (mounted : c.mounted = c.sent)
    {tx txSize : Nat} (next : c.queued + tx = c.sent) (queue : c.sent + txSize ≤ c.collected)
    {ret n : Nat} (inFlight : c.freed + ret ≤ c.sent)
    (count : n = min (c.freed + ret + kNumTxRingEntries - c.sent) txSize) (postRet : Int)
    (accepted : 0 < n → postRet = 0) :
    ∃ s', s.txBurst d.other tx txSize ⟨ret, postRet⟩ = .ok (n, s') ∧ OnlySends l d s s' ∧
      Lane l d s' left (c.transmit ret n) ∧ Heads d s' (c.transmit ret n) := by
  obtain ⟨u, only, free, reaped, filled, bursts⟩ :=
    txBurst_mounts lane heads mounted next queue inFlight count
  have fits : n ≤ kNumRxRingEntries := by
    rw [sendRing] at count
    omega
  obtain ⟨s', posts, onlyPosts, freePosts, reapedPosts, done⟩ :=
    postMounted_lane filled rfl fits accepted
  have posted : u.postMounted d.other (slotOf c.sent) n
      (if 0 < n then some (slotOf (c.sent + n - 1)) else none) postRet = .ok s' := posts
  have all := only.trans onlyPosts
  refine ⟨s', by rw [bursts, posted]; rfl, all, done, ?_⟩
  refine ⟨?_, ?_, ?_, ?_, ?_⟩
  · rw [all.recv]
    exact heads.recvHead
  · rw [all.recv]
    exact heads.ringHead
  · rw [all.recv]
    exact heads.waitForDisp
  · rw [freePosts]
    exact free
  · rw [reapedPosts]
    exact reaped

theorem txBurst_answered (lane : Lane l d s left c) (heads : Heads d s c)
    (mounted : c.mounted = c.sent) {tx txSize : Nat} (next : c.queued + tx = c.sent)
    (queue : c.sent + txSize ≤ c.collected) {poll : SoC.SendPoll} {nbTx : Nat}
    (ran : s.txBurst d.other tx txSize poll = .ok (nbTx, s')) :
    poll.ret = poll.ret.toNat ∧ c.freed + poll.ret.toNat ≤ c.sent ∧
      (0 < min (c.freed + poll.ret.toNat + kNumTxRingEntries - c.sent) txSize →
        poll.postRet = 0) := by
  have posted : (s.send d.other).posted.length = c.sent := lane.output.sentLength
  obtain ⟨ret, postRet⟩ := poll
  have polled : (0 : Int) ≤ ret ∧ c.freed + ret.toNat ≤ c.sent := by
    rw [SoC.txBurst] at ran
    obtain ⟨u, polls, -⟩ := bind_eq_ok.mp ran
    rw [SoC.pollSendCq] at polls
    split_ifs at polls with impossible negative
    rw [posted, heads.reaped] at impossible
    have positive : ¬ ret < 0 := negative
    have completed : ¬ (c.sent < c.freed + ret.toNat ∨ _) := impossible
    omega
  obtain ⟨positive, inFlight⟩ := polled
  have natural : ret = (ret.toNat : Int) := by omega
  refine ⟨natural, inFlight, fun some => ?_⟩
  by_contra refused
  obtain ⟨u, -, -, -, -, bursts⟩ := txBurst_mounts lane heads mounted next queue inFlight rfl
  rw [natural, bursts] at ran
  obtain ⟨v, posts, -⟩ := bind_eq_ok.mp ran
  have some' : 0 < min (c.freed + ret.toNat + kNumTxRingEntries - c.sent) txSize := some
  rw [SoC.postMounted, if_pos some', if_pos some', deref_some, ok_bind] at posts
  simp only [ne_eq, show ¬ postRet = 0 from refused, not_false_eq_true, if_true] at posts
  cases posts

def Counts.flush (c : Counts) (reaped : Nat) : Counts :=
  { c with freed := c.freed + reaped, sent := c.collected, mounted := c.collected }

def reapedBy (polls : List SoC.SendPoll) : Nat := (polls.map fun poll => poll.ret.toNat).sum

theorem flushLoop_lane (lane : Lane l d s left c) (heads : Heads d s c) (mounted : c.mounted = c.sent)
    {txTotal total : Nat} (next : c.queued + txTotal = c.sent) {polls : List SoC.SendPoll}
    (ran : SoC.flushLoop d.other polls txTotal s = .ok (total, s')) :
    OnlySends l d s s' ∧ Lane l d s' left (c.flush (reapedBy polls)) ∧
      Heads d s' (c.flush (reapedBy polls)) := by
  have idx := lane.output.txQueueIdx
  have collected := lane.ordered.mounted
  induction polls generalizing s c txTotal with
  | nil =>
      rw [SoC.flushLoop] at ran
      split_ifs at ran with more
      cases ran
      have all : c.sent = c.collected := by omega
      have same : c.flush 0 = c := by
        rw [Counts.flush, ← all]
        congr 1
        exact mounted.symm
      exact ⟨.refl l d _, same.symm ▸ lane, same.symm ▸ heads⟩
  | cons poll rest ih =>
      rw [SoC.flushLoop] at ran
      split_ifs at ran with more
      obtain ⟨⟨nbTx, t⟩, bursts, later⟩ := bind_eq_ok.mp ran
      have queue : c.sent + ((s.send d.other).txQueueIdx - txTotal) ≤ c.collected := by omega
      obtain ⟨natural, inFlight, accepted⟩ :=
        txBurst_answered lane heads mounted next queue bursts
      obtain ⟨t', again, only, sent, sentHeads⟩ :=
        txBurst_lane lane heads mounted next queue inFlight rfl _ accepted
      rw [← natural] at again
      obtain ⟨rfl, rfl⟩ : nbTx = _ ∧ t = t' := by
        rw [show (⟨poll.ret, poll.postRet⟩ : SoC.SendPoll) = poll from rfl, bursts] at again
        exact Prod.mk.inj (Except.ok.inj again)
      obtain ⟨onlyLater, done, doneHeads⟩ := ih sent sentHeads rfl
        (by
          change c.queued + (txTotal + _) = c.sent + _
          omega) later sent.output.txQueueIdx sent.ordered.mounted
      have counts : (c.transmit poll.ret.toNat (min (c.freed + poll.ret.toNat + kNumTxRingEntries -
          c.sent) ((s.send d.other).txQueueIdx - txTotal))).flush (reapedBy rest) =
            c.flush (reapedBy (poll :: rest)) := by
        simp only [Counts.flush, Counts.transmit, reapedBy, List.map_cons, List.sum_cons,
          Nat.add_assoc]
      rw [counts] at done doneHeads
      exact ⟨only.trans onlyLater, done, doneHeads⟩

def Counts.emptied (c : Counts) (reaped : Nat) : Counts :=
  { c with freed := c.freed + reaped, queued := c.collected, sent := c.collected, mounted := c.collected }

theorem txFlush_lane (lane : Lane l d s left c) (heads : Heads d s c) (mounted : c.mounted = c.sent)
    (queued : c.queued = c.sent) {total : Nat} {polls : List SoC.SendPoll}
    (ran : s.txFlush d.other polls = .ok (total, s')) :
    OnlySends l d s s' ∧ Lane l d s' left (c.emptied (reapedBy polls)) ∧
      Heads d s' (c.emptied (reapedBy polls)) := by
  obtain ⟨⟨total', t⟩, flushes, rest⟩ := bind_eq_ok.mp ran
  obtain ⟨only, done, heads⟩ := flushLoop_lane lane heads mounted (by omega) flushes
  cases rest
  refine ⟨only.trans (.setSend l t d _), ?_, ?_⟩
  · exact done.sending _ { done.ordered with queued := le_rfl } rfl done.colors { done.input with }
      done.output.flushed
  · obtain ⟨recvHead, ringHead, waitForDisp, freeSendWrNum, reaped⟩ := heads
    refine ⟨recvHead, ringHead, waitForDisp, ?_, ?_⟩
    · rw [SoC.setSend_send]
      exact freeSendWrNum
    · rw [SoC.setSend_send]
      exact reaped

theorem txFlush_empty (lane : Lane l d s left c) (queued : c.queued = c.sent)
    (all : c.sent = c.collected) : ∃ total s', s.txFlush d.other [] = .ok (total, s') := by
  have idx := lane.output.txQueueIdx
  refine ⟨0, s.setSend d.other { s.send d.other with txQueueIdx := 0 }, ?_⟩
  rw [SoC.txFlush, SoC.flushLoop, if_neg (by omega)]
  rfl

theorem txFlush_idle (lane : Lane l d s left c) (queued : c.queued = c.collected) {total : Nat}
    {polls : List SoC.SendPoll} (ran : s.txFlush d.other polls = .ok (total, s')) : polls = [] := by
  have idx := lane.output.txQueueIdx
  obtain ⟨⟨total', t⟩, flushes, -⟩ := bind_eq_ok.mp ran
  cases polls with
  | nil => rfl
  | cons poll rest =>
      rw [SoC.flushLoop, if_neg (by omega)] at flushes
      cases flushes

theorem txFlush_once (lane : Lane l d s left c) (heads : Heads d s c) (mounted : c.mounted = c.sent)
    (queued : c.queued = c.sent) (waiting : c.sent < c.collected)
    (room : c.collected ≤ c.freed + kNumTxRingEntries) :
    ∃ total s', s.txFlush d.other [⟨0, 0⟩] = .ok (total, s') := by
  have idx := lane.output.txQueueIdx
  have next : c.queued + 0 = c.sent := by omega
  have queue : c.sent + ((s.send d.other).txQueueIdx - 0) ≤ c.collected := by omega
  have inFlight : c.freed + 0 ≤ c.sent := lane.ordered.freed
  obtain ⟨t, bursts, -, sent, -⟩ :=
    txBurst_lane lane heads mounted next queue inFlight rfl 0 fun _ => rfl
  have count : min (c.freed + 0 + kNumTxRingEntries - c.sent) ((s.send d.other).txQueueIdx - 0) =
      (s.send d.other).txQueueIdx := by omega
  have idxLater := sent.output.txQueueIdx
  rw [count] at bursts
  refine ⟨0 + (s.send d.other).txQueueIdx,
    t.setSend d.other { t.send d.other with txQueueIdx := 0 }, ?_⟩
  have last : SoC.flushLoop d.other [] (0 + (s.send d.other).txQueueIdx) t =
      .ok (0 + (s.send d.other).txQueueIdx, t) := by
    rw [SoC.flushLoop, if_neg]
    change c.queued + (t.send d.other).txQueueIdx = c.collected at idxLater
    omega
  rw [SoC.txFlush, SoC.flushLoop, if_pos (by omega)]
  simp only [Nat.cast_zero] at bursts
  simp only [bursts, ok_bind, last]
  rfl

end Nicc.Soc

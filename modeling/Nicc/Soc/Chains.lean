import Nicc.Soc.SendRing

namespace Nicc.Soc
open Lib

variable {α : Type} {s s' : SoC α} {side : Side}

def Circular (s : SoC α) : Prop :=
  ∀ d i, i < kNumRxRingEntries →
    (s.recv d).recvWrNext i = some ((i + 1) % kNumRxRingEntries) ∧
    (s.send d).sendWrNext i = some ((i + 1) % kNumTxRingEntries)

def SoC.exit {β : Type} (state : β → SoC α) : SoC.Step α β → SoC α
  | .ok result => state result
  | .error stopped => stopped.2

structure GivesRecvs (s s' : SoC α) (side : Side) (start count : Nat) : Prop where
  circular : Circular s'
  given : (s'.recv side).posted = (s.recv side).posted ++
    (ringSlots kNumRxRingEntries start count).map fun i => ⟨i, (s.recv side).recvSgl i⟩

structure GivesSends (s s' : SoC α) (side : Side) (start count : Nat) : Prop where
  circular : Circular s'
  given : (s'.send side).posted = (s.send side).posted ++
    (ringSlots kNumTxRingEntries start count).map fun i =>
      ⟨(s'.send side).sendSgl i, s'.mem ((s'.send side).sendSgl i).addr⟩

namespace Circular

theorem recvCircle (circular : Circular s) (d : Side) (k : Nat) :
    (s.recv d).recvWrNext (slotOf k) = some (slotOf (k + 1)) := by
  rw [(circular d _ (slotOf_lt k)).1, slotOf_succ]

theorem sendCircle (circular : Circular s) (d : Side) (k : Nat) :
    (s.send d).sendWrNext (slotOf k) = some (slotOf (k + 1)) := by
  rw [(circular d _ (slotOf_lt k)).2]
  exact congrArg some (slotOf_succ k)

theorem setRecv (circular : Circular s) {r : RecvHalf α}
    (same : r.recvWrNext = (s.recv side).recvWrNext) : Circular (s.setRecv side r) := by
  intro d i inside
  refine ⟨?_, (circular d i inside).2⟩
  by_cases here : d = side
  · subst here
    rw [SoC.setRecv_recv, same]
    exact (circular d i inside).1
  · have other : (s.setRecv side r).recv d = s.recv d := Function.update_of_ne here ..
    rw [other]
    exact (circular d i inside).1

theorem setSend (circular : Circular s) {t : SendHalf α}
    (same : t.sendWrNext = (s.send side).sendWrNext) : Circular (s.setSend side t) := by
  intro d i inside
  refine ⟨(circular d i inside).1, ?_⟩
  by_cases here : d = side
  · subst here
    rw [SoC.setSend_send, same]
    exact (circular d i inside).2
  · have other : (s.setSend side t).send d = s.send d := Function.update_of_ne here ..
    rw [other]
    exact (circular d i inside).2

theorem not_of_recv (side : Side) (k : Nat) (cut : (s.recv side).recvWrNext (slotOf k) = none) :
    ¬ Circular s := by
  intro circular
  rw [circular.recvCircle side k] at cut
  cases cut

theorem not_of_send (side : Side) (k : Nat) (cut : (s.send side).sendWrNext (slotOf k) = none) :
    ¬ Circular s := by
  intro circular
  rw [circular.sendCircle side k] at cut
  cases cut

end Circular

theorem postRecv_given (circular : Circular s) (side : Side) (start : Nat) {len : Nat}
    (fits : len < kNumRxRingEntries) :
    SoC.postRecv { s.recv side with
      recvWrNext := Function.update (s.recv side).recvWrNext (slotOf (start + len)) none }
        (slotOf start) =
      { s.recv side with
        recvWrNext := Function.update (s.recv side).recvWrNext (slotOf (start + len)) none
        posted := (s.recv side).posted ++ (ringSlots kNumRxRingEntries start (len + 1)).map
          fun i => ⟨i, (s.recv side).recvSgl i⟩ } := by
  have chain := walk_broken (circular.recvCircle side) start fits fits
  rw [SoC.postRecv]
  simp only [chain]
  rfl

theorem fillRecvQueue_gives_iff (circular : Circular s) (side : Side) (ret : Int) :
    GivesRecvs s (s.fillRecvQueue side ret).2 side 0 kRQDepth ↔ ret = 0 := by
  have given := postRecv_given circular side 0 (by decide : kRQDepth - 1 < kNumRxRingEntries)
  have last : slotOf (0 + (kRQDepth - 1)) = kRQDepth - 1 := rfl
  have first : slotOf 0 = 0 := rfl
  rw [last, first] at given
  rw [SoC.fillRecvQueue]
  simp only [given]
  constructor
  · intro gives
    by_contra refused
    rw [if_pos refused] at gives
    refine Circular.not_of_recv side (kRQDepth - 1) ?_ gives.circular
    have whole : slotOf (kRQDepth - 1) = kRQDepth - 1 := rfl
    rw [SoC.setRecv_recv, whole]
    exact Function.update_self (kRQDepth - 1) none (s.recv side).recvWrNext
  · rintro rfl
    have closed : (s.recv side).recvWrNext (kRQDepth - 1) = some 0 :=
      circular.recvCircle side (kRQDepth - 1)
    rw [if_neg (by simp)]
    refine ⟨circular.setRecv ?_, ?_⟩
    · rw [Function.update_idem, ← closed, Function.update_eq_self]
    · rw [SoC.setRecv_recv]
      rfl

theorem postRecvs_gives_iff (circular : Circular s) (side : Side) {numRecvs : Nat}
    (head : (s.recv side).recvHead < kNumRxRingEntries) (some : 1 ≤ numRecvs)
    (fits : numRecvs ≤ kNumRxRingEntries) (ret : Int) :
    GivesRecvs s (SoC.exit id (s.postRecvs side numRecvs ret)) side (s.recv side).recvHead numRecvs ↔
      ret = 0 := by
  obtain ⟨len, rfl⟩ := Nat.exists_eq_succ_of_ne_zero (by omega : numRecvs ≠ 0)
  have start : slotOf (s.recv side).recvHead = (s.recv side).recvHead := Nat.mod_eq_of_lt head
  have given := postRecv_given circular side (s.recv side).recvHead (by omega : len < kNumRxRingEntries)
  rw [start] at given
  have last := lastSlot head (by omega : len < kNumRxRingEntries)
  rw [SoC.postRecvs]
  simp only [Nat.succ_eq_add_one, Nat.add_sub_cancel, last, given]
  constructor
  · intro gives
    by_contra refused
    rw [if_pos refused] at gives
    refine Circular.not_of_recv side ((s.recv side).recvHead + len) ?_ gives.circular
    change ((s.setRecv side _).recv side).recvWrNext _ = none
    rw [SoC.setRecv_recv]
    exact Function.update_self (slotOf ((s.recv side).recvHead + len)) _ _
  · rintro rfl
    rw [if_neg (by simp)]
    refine ⟨circular.setRecv ?_, ?_⟩
    · rw [Function.update_idem, Function.update_eq_self]
    · change ((s.setRecv side _).recv side).posted = _
      rw [SoC.setRecv_recv]

structure Untouched (s s' : SoC α) : Prop where
  recv : s'.recv = s.recv
  next : ∀ d, (s'.send d).sendWrNext = (s.send d).sendWrNext
  posted : ∀ d, (s'.send d).posted = (s.send d).posted
  mem : s'.mem = s.mem

namespace Untouched

theorem refl (s : SoC α) : Untouched s s := ⟨rfl, fun _ => rfl, fun _ => rfl, rfl⟩

theorem trans {s'' : SoC α} (first : Untouched s s') (second : Untouched s' s'') : Untouched s s'' :=
  ⟨second.recv.trans first.recv, fun d => (second.next d).trans (first.next d),
    fun d => (second.posted d).trans (first.posted d), second.mem.trans first.mem⟩

theorem step (s : SoC α) (side : Side) (p : BufPtr) (state : BufState) {t : SendHalf α}
    (next : t.sendWrNext = (s.send side).sendWrNext) (posted : t.posted = (s.send side).posted) :
    Untouched s ((s.setState p state).setSend side t) := by
  refine ⟨rfl, fun d => ?_, fun d => ?_, rfl⟩
  · by_cases here : d = side
    · subst here
      rw [SoC.setSend_send, next]
    · have other : ((s.setState p state).setSend side t).send d = s.send d :=
        Function.update_of_ne here ..
      rw [other]
  · by_cases here : d = side
    · subst here
      rw [SoC.setSend_send, posted]
    · have other : ((s.setState p state).setSend side t).send d = s.send d :=
        Function.update_of_ne here ..
      rw [other]

theorem setSend (s : SoC α) (side : Side) {t : SendHalf α}
    (next : t.sendWrNext = (s.send side).sendWrNext) (posted : t.posted = (s.send side).posted) :
    Untouched s (s.setSend side t) := by
  have same : s.setState ⟨side, 0⟩ (s.bufs ⟨side, 0⟩).state = s := by
    rw [SoC.setState, Function.update_eq_self]
  have stepped := step s side ⟨side, 0⟩ (s.bufs ⟨side, 0⟩).state next posted
  rwa [same] at stepped

theorem circular (untouched : Untouched s s') (whole : Circular s) : Circular s' := by
  intro d i inside
  rw [untouched.recv, untouched.next]
  exact whole d i inside

end Untouched

theorem entries_ne_none {β : Type} {xs : List β} {f : Nat → Option β}
    (entries : ∀ i x, xs[i]? = some x → f i = some x) : ∀ i < xs.length, f i ≠ none := by
  intro i bound
  rw [entries i _ (List.getElem?_eq_getElem bound)]
  exact Option.some_ne_none _

theorem reapLoop_outcome (side : Side) (n : Nat) (s : SoC α)
    (head : (s.send side).sendHead < kNumTxRingEntries) :
    (∃ s', SoC.reapLoop side n s = .ok s' ∧ Untouched s s' ∧
      (∃ sendHead, s'.send side = { s.send side with sendHead := sendHead }) ∧
      ∀ j < n, (s.send side).swRing (((s.send side).sendHead + j) % kNumTxRingEntries) ≠ none) ∨
    ∃ stop s', SoC.reapLoop side n s = .error (stop, s') ∧ Untouched s s' ∧
      ∃ j < n, (s.send side).swRing (((s.send side).sendHead + j) % kNumTxRingEntries) = none := by
  have untouched (ps : List BufPtr) : Untouched s (ps.foldl (SoC.reap side) s) :=
    List.foldlRecOn ps _ (.refl s) fun u before p _ =>
      before.trans (.step u side p .kFREE_BUF rfl rfl)
  obtain ⟨ps, entries, ⟨rfl, ran, half⟩ | ⟨short, null, stops⟩⟩ := SoC.reapLoop_cases n s head
  · exact .inl ⟨_, ran, untouched ps, half, entries_ne_none entries⟩
  · exact .inr ⟨.nullPointer, _, stops, untouched ps, ps.length, short, null⟩

theorem mountLoop_outcome (side : Side) (tx left nbTxRes : Nat) (tailWr : Option Nat) (s : SoC α)
    {k : Nat} (tail : (s.send side).sendTail = slotOf k) :
    (∃ s', SoC.mountLoop side tx left nbTxRes tailWr s =
        .ok (nbTxRes + min (s.send side).freeSendWrNum left,
          if min (s.send side).freeSendWrNum left = 0 then tailWr
          else some (slotOf (k + (min (s.send side).freeSendWrNum left - 1))), s') ∧ Untouched s s' ∧
      ∀ i < min (s.send side).freeSendWrNum left,
        (s.send side).txQueue (tx + (nbTxRes + i)) ≠ none) ∨
    ∃ stop s', SoC.mountLoop side tx left nbTxRes tailWr s = .error (stop, s') ∧ Untouched s s' ∧
      ∃ i < min (s.send side).freeSendWrNum left, (s.send side).txQueue (tx + (nbTxRes + i)) = none := by
  have untouched (ms : List BufPtr) : Untouched s (ms.foldl (SoC.mount side) s) :=
    List.foldlRecOn ms _ (.refl s) fun u before m _ => before.trans (.step u side m .kPOSTED rfl rfl)
  obtain ⟨ms, entries, ⟨count, ran⟩ | ⟨short, null, stops⟩⟩ :=
    SoC.mountLoop_cases tx left nbTxRes tailWr s tail
  · refine .inl ⟨_, ?_, untouched ms, count ▸ entries_ne_none entries⟩
    rw [ran, ← count]
    have last : (if ms = [] then tailWr else some ((k + ms.length - 1) % kNumTxRingEntries)) =
        if ms.length = 0 then tailWr else some (slotOf (k + (ms.length - 1))) := by
      simp only [List.length_eq_zero_iff]
      split_ifs with empty
      · rfl
      · rw [Nat.add_sub_assoc (List.length_pos_iff.mpr empty)]
        rfl
    rw [last]
  · exact .inr ⟨.nullPointer, _, stops, untouched ms, ms.length, short, null⟩

def SoC.mountable (s : SoC α) (side : Side) (txSize : Nat) (ret : Int) : Nat :=
  min ((s.send side).freeSendWrNum + ret.toNat) txSize

/-- A burst gets to its post when the NIC answers the poll with sends that it was given, there is
something to mount, and no pointer on the way is null. -/
structure PostsSends (s : SoC α) (side : Side) (tx txSize : Nat) (ret : Int) : Prop where
  natural : 0 ≤ ret
  inFlight : (s.send side).reaped + ret.toNat ≤ (s.send side).posted.length
  fits : ret ≤ kNumTxRingEntries
  freed : ∀ j < ret.toNat,
    (s.send side).swRing (((s.send side).sendHead + j) % kNumTxRingEntries) ≠ none
  mounted : ∀ i < s.mountable side txSize ret, (s.send side).txQueue (tx + i) ≠ none
  some : 0 < s.mountable side txSize ret

theorem pollSendCq_outcome (side : Side) (ret : Int)
    (head : (s.send side).sendHead < kNumTxRingEntries) :
    (∃ u, s.pollSendCq side ret = .ok u ∧ Untouched s u ∧
      (∃ sendHead, u.send side = { s.send side with
        sendHead := sendHead
        freeSendWrNum := (s.send side).freeSendWrNum + ret.toNat
        reaped := (s.send side).reaped + ret.toNat }) ∧
      ∀ tx txSize, (∀ i < s.mountable side txSize ret, (s.send side).txQueue (tx + i) ≠ none) →
        0 < s.mountable side txSize ret → PostsSends s side tx txSize ret) ∨
    ∃ stop u, s.pollSendCq side ret = .error (stop, u) ∧ Untouched s u ∧
      ∀ tx txSize, ¬ PostsSends s side tx txSize ret := by
  by_cases possible : (s.send side).posted.length < (s.send side).reaped + ret.toNat ∨
      (kNumTxRingEntries : Int) < ret
  · refine .inr ⟨.impossible, s, ?_, .refl s, fun _ _ posts => ?_⟩
    · rw [SoC.pollSendCq, if_pos possible]
    · have inFlight := posts.inFlight
      have fits := posts.fits
      omega
  by_cases negative : ret < 0
  · refine .inr ⟨.assertion "ret >= 0", s, ?_, .refl s,
      fun _ _ posts => absurd posts.natural (Int.not_le.mpr negative)⟩
    rw [SoC.pollSendCq, if_neg possible, if_pos negative]
  let t := { s.send side with
    freeSendWrNum := (s.send side).freeSendWrNum + ret.toNat
    reaped := (s.send side).reaped + ret.toNat }
  let begun := s.setSend side t
  have send : begun.send side = t := SoC.setSend_send ..
  have untouched : Untouched s begun := .setSend s side rfl rfl
  have polls : s.pollSendCq side ret = SoC.reapLoop side ret.toNat begun := by
    rw [SoC.pollSendCq, if_neg possible, if_neg negative]
  rw [polls]
  rcases reapLoop_outcome side ret.toNat begun (by rw [send]; exact head) with
    ⟨u, reaps, later, ⟨sendHead, half⟩, freed⟩ | ⟨stop, u, reaps, later, j, below, null⟩
  · rw [send] at half freed
    refine .inl ⟨u, reaps, untouched.trans later, ⟨sendHead, half⟩, fun tx txSize mounted some => ?_⟩
    exact ⟨by omega, by omega, by omega, freed, mounted, some⟩
  · rw [send] at null
    exact .inr ⟨stop, u, reaps, untouched.trans later, fun _ _ posts => posts.freed j below null⟩

theorem txBurst_outcome {tail : Nat} (sendTail : (s.send side).sendTail = slotOf tail)
    (head : (s.send side).sendHead < kNumTxRingEntries) (tx txSize : Nat) (poll : SoC.SendPoll) :
    (¬ PostsSends s side tx txSize poll.ret ∧
      Untouched s (SoC.exit Prod.snd (s.txBurst side tx txSize poll))) ∨
    PostsSends s side tx txSize poll.ret ∧ ∃ u len, s.mountable side txSize poll.ret = len + 1 ∧
      Untouched s u ∧ s.txBurst side tx txSize poll =
        (u.postMounted side (slotOf tail) (len + 1) (some (slotOf (tail + len))) poll.postRet >>=
          fun s' => .ok (len + 1, s')) := by
  obtain ⟨ret, postRet⟩ := poll
  rcases pollSendCq_outcome side ret head with
    ⟨u, polls, polled, ⟨sendHead, half⟩, reached⟩ | ⟨stop, u, polls, polled, before⟩
  · have room : (u.send side).freeSendWrNum = (s.send side).freeSendWrNum + ret.toNat := by
      rw [half]
    have queue : (u.send side).txQueue = (s.send side).txQueue := by rw [half]
    have behind : (u.send side).sendTail = slotOf tail := by
      rw [half]
      exact sendTail
    have outcome := mountLoop_outcome side tx txSize 0 none u behind
    rw [room, queue] at outcome
    change (∃ v, _ = Except.ok (0 + s.mountable side txSize ret,
      if s.mountable side txSize ret = 0 then none
      else some (slotOf (tail + (s.mountable side txSize ret - 1))), v) ∧ _ ∧
      ∀ i < s.mountable side txSize ret, (s.send side).txQueue (tx + (0 + i)) ≠ none) ∨
      ∃ stop v, _ ∧ _ ∧ ∃ i < s.mountable side txSize ret,
        (s.send side).txQueue (tx + (0 + i)) = none at outcome
    simp only [Nat.zero_add] at outcome
    have bursts : s.txBurst side tx txSize ⟨ret, postRet⟩ =
        (SoC.mountLoop side tx txSize 0 none u >>= fun m => do
          let s' ← m.2.2.postMounted side (slotOf tail) m.1 m.2.1 postRet
          return (m.1, s')) := by
      rw [SoC.txBurst, polls, ok_bind, behind]
    rcases outcome with ⟨v, mounts, last, mounted⟩ | ⟨stop, v, mounts, last, i, below, null⟩
    · rw [mounts, ok_bind] at bursts
      cases count : s.mountable side txSize ret with
      | zero =>
          refine .inl ⟨fun posts => absurd posts.some (by rw [count]; omega), ?_⟩
          rw [bursts, count]
          exact polled.trans last
      | succ len =>
          rw [count, if_neg (Nat.succ_ne_zero len)] at bursts
          have posts := reached tx txSize mounted (by rw [count]; omega)
          exact .inr ⟨posts, v, len, rfl, polled.trans last, bursts⟩
    · refine .inl ⟨fun posts => posts.mounted i below null, ?_⟩
      rw [bursts, mounts]
      exact polled.trans last
  · refine .inl ⟨before tx txSize, ?_⟩
    rw [SoC.txBurst, polls]
    exact polled

def GivesBurst (s : SoC α) (side : Side) (tx txSize : Nat) (poll : SoC.SendPoll) : Prop :=
  ∃ count, GivesSends s (SoC.exit Prod.snd (s.txBurst side tx txSize poll)) side
      (s.send side).sendTail count ∧
    (PostsSends s side tx txSize poll.ret → count = s.mountable side txSize poll.ret) ∧
    (¬ PostsSends s side tx txSize poll.ret → count = 0)

theorem txBurst_gives_iff (circular : Circular s) {side : Side}
    (tail : (s.send side).sendTail < kNumTxRingEntries)
    (head : (s.send side).sendHead < kNumTxRingEntries) {tx txSize : Nat} {poll : SoC.SendPoll}
    (fits : s.mountable side txSize poll.ret ≤ kNumTxRingEntries) :
    GivesBurst s side tx txSize poll ↔
      (PostsSends s side tx txSize poll.ret → poll.postRet = 0) := by
  have start : (s.send side).sendTail = slotOf (s.send side).sendTail := (Nat.mod_eq_of_lt tail).symm
  rcases txBurst_outcome start head tx txSize poll with
    ⟨before, untouched⟩ | ⟨reached, u, len, count, untouched, bursts⟩
  · refine iff_of_true ⟨0, ⟨untouched.circular circular, ?_⟩, fun posts => absurd posts before,
      fun _ => rfl⟩ fun posts => absurd posts before
    rw [untouched.posted, ringSlots_zero, List.map_nil, List.append_nil]
  · have whole := untouched.circular circular
    have length : len < kNumTxRingEntries := by omega
    have posts := SoC.postMounted_eq (rfl : u.send side = _) (whole.sendCircle side)
      (s.send side).sendTail length poll.postRet
    rw [posts] at bursts
    constructor
    · rintro ⟨posted, gives, -⟩ -
      by_contra refused
      have circularAfter := gives.circular
      rw [bursts, if_pos refused] at circularAfter
      refine Circular.not_of_send side ((s.send side).sendTail + len) ?_ circularAfter
      change ((u.setSend side _).send side).sendWrNext _ = none
      rw [SoC.setSend_send]
      exact Function.update_self (slotOf ((s.send side).sendTail + len)) none (u.send side).sendWrNext
    · intro accepted
      rw [if_neg (not_not.mpr (accepted reached))] at bursts
      let t : SendHalf α := { u.send side with
        posted := (u.send side).posted ++
          ((List.range' (s.send side).sendTail (len + 1)).map slotOf).map fun i =>
            ⟨(u.send side).sendSgl i, u.mem ((u.send side).sendSgl i).addr⟩ }
      have exited : SoC.exit Prod.snd (s.txBurst side tx txSize poll) = u.setSend side t := by
        rw [bursts]
        rfl
      refine ⟨len + 1, ?_, fun _ => count.symm, fun before => absurd reached before⟩
      rw [exited]
      refine ⟨whole.setSend rfl, ?_⟩
      rw [SoC.setSend_send, ← untouched.posted side]
      rfl

structure InRing (s : SoC α) (side : Side) : Prop where
  recvHead : (s.recv side).recvHead < kNumRxRingEntries
  sendHead : (s.send side).sendHead < kNumTxRingEntries
  sendTail : (s.send side).sendTail < kNumTxRingEntries

theorem circles_whole_iff (circular : Circular s) (inRing : InRing s side) :
    (∀ ret, GivesRecvs s (s.fillRecvQueue side ret).2 side 0 kRQDepth ↔ ret = 0) ∧
    (∀ numRecvs ret, 1 ≤ numRecvs → numRecvs ≤ kNumRxRingEntries →
      (GivesRecvs s (SoC.exit id (s.postRecvs side numRecvs ret)) side (s.recv side).recvHead numRecvs ↔
        ret = 0)) ∧
    ∀ tx txSize poll, s.mountable side txSize poll.ret ≤ kNumTxRingEntries →
      (GivesBurst s side tx txSize poll ↔
        (PostsSends s side tx txSize poll.ret → poll.postRet = 0)) :=
  ⟨fillRecvQueue_gives_iff circular side,
    fun _ ret some fits => postRecvs_gives_iff circular side inRing.recvHead some fits ret,
    fun _ _ _ fits => txBurst_gives_iff circular inRing.sendTail inRing.sendHead fits⟩

def readyRings : SoC Unit :=
  ((((SoC.new fun _ => ()).initRecvs .prior (.new 0x800000 0x800000 7)).initSends .prior).initRecvs
    .next (.new 0x1000000 0x800000 7)).initSends .next

theorem readyRings_circular : Circular readyRings := by
  intro d i inside
  have next : circular kNumRxRingEntries i = (i + 1) % kNumRxRingEntries := by
    have slot : slotOf i = i := Nat.mod_eq_of_lt inside
    rw [← slot, circular_slotOf, slotOf_succ]
  cases d with
  | prior => exact ⟨congrArg some next, congrArg some next⟩
  | next => exact ⟨congrArg some next, congrArg some next⟩

theorem circles_whole_ready :
    (∀ ret, GivesRecvs readyRings (readyRings.fillRecvQueue .prior ret).2 .prior 0 kRQDepth ↔
      ret = 0) ∧
    (∀ numRecvs ret, 1 ≤ numRecvs → numRecvs ≤ kNumRxRingEntries →
      (GivesRecvs readyRings (SoC.exit id (readyRings.postRecvs .prior numRecvs ret)) .prior
        (readyRings.recv .prior).recvHead numRecvs ↔ ret = 0)) ∧
    ∀ tx txSize poll, readyRings.mountable .prior txSize poll.ret ≤ kNumTxRingEntries →
      (GivesBurst readyRings .prior tx txSize poll ↔
        (PostsSends readyRings .prior tx txSize poll.ret → poll.postRet = 0)) :=
  circles_whole_iff readyRings_circular ⟨by decide, by decide, by decide⟩

theorem refused_recv_leaves_cut : Circular readyRings ∧
    ¬ GivesRecvs readyRings (SoC.exit id (readyRings.postRecvs .prior 1 12)) .prior 0 1 := by
  refine ⟨readyRings_circular, fun gives => ?_⟩
  have refused := (postRecvs_gives_iff readyRings_circular .prior (by decide) (Nat.le_refl 1)
    (by decide) 12).mp gives
  cases refused

end Nicc.Soc

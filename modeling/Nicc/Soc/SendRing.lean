import Nicc.Soc.Send

/-!
# The send ring of one QP

`__tx_burst` and `__tx_flush` with any Buffers to send, whatever the rest of the program does between
two calls. A history says in which order Buffers were posted and freed.
-/

namespace Nicc.Soc
open Lib

variable {α : Type}

/-! ## Histories -/

inductive Event
  | posted (p : BufPtr)
  | freed (p : BufPtr)

namespace Event

def post? : Event → Option BufPtr
  | posted p => some p
  | freed _ => none

def free? : Event → Option BufPtr
  | posted _ => none
  | freed p => some p

def state : Event → BufState
  | posted _ => .kPOSTED
  | freed _ => .kFREE_BUF

def buffer : Event → BufPtr
  | posted p => p
  | freed p => p

end Event

def posts (history : List Event) : List BufPtr := history.filterMap Event.post?

def frees (history : List Event) : List BufPtr := history.filterMap Event.free?

theorem posts_append (a b : List Event) : posts (a ++ b) = posts a ++ posts b :=
  List.filterMap_append

theorem frees_append (a b : List Event) : frees (a ++ b) = frees a ++ frees b :=
  List.filterMap_append

@[simp] theorem posts_posted (l : List BufPtr) : posts (l.map .posted) = l := by
  rw [posts, List.filterMap_map]
  exact List.filterMap_some

@[simp] theorem posts_freed (l : List BufPtr) : posts (l.map .freed) = [] := by
  rw [posts, List.filterMap_map]
  exact List.filterMap_eq_nil_iff.mpr fun _ _ => rfl

@[simp] theorem frees_posted (l : List BufPtr) : frees (l.map .posted) = [] := by
  rw [frees, List.filterMap_map]
  exact List.filterMap_eq_nil_iff.mpr fun _ _ => rfl

@[simp] theorem frees_freed (l : List BufPtr) : frees (l.map .freed) = l := by
  rw [frees, List.filterMap_map]
  exact List.filterMap_some

def Event.mark (bufs : BufPtr → Buffer BufPtr) (e : Event) : BufPtr → Buffer BufPtr :=
  Function.update bufs e.buffer { bufs e.buffer with state := e.state }

def marked (bufs : BufPtr → Buffer BufPtr) (events : List Event) : BufPtr → Buffer BufPtr :=
  events.foldl Event.mark bufs

theorem marked_append (bufs : BufPtr → Buffer BufPtr) (a b : List Event) :
    marked bufs (a ++ b) = marked (marked bufs a) b := List.foldl_append

def sgeOf (bufs : BufPtr → Buffer BufPtr) (p : BufPtr) : Sge :=
  ⟨(bufs p).buf, (bufs p).length, (bufs p).lkey⟩

theorem sgeOf_mark (bufs : BufPtr → Buffer BufPtr) (e : Event) : sgeOf (Event.mark bufs e) = sgeOf bufs := by
  funext p
  by_cases same : p = e.buffer
  · subst same
    simp [sgeOf, Event.mark]
  · rw [sgeOf, Event.mark, Function.update_of_ne same]
    rfl

theorem sgeOf_marked (bufs : BufPtr → Buffer BufPtr) (events : List Event) :
    sgeOf (marked bufs events) = sgeOf bufs := by
  induction events generalizing bufs with
  | nil => rfl
  | cons e events ih => exact (ih _).trans (sgeOf_mark bufs e)

/-! ## The ring -/

def SendHalf.unreaped (t : SendHalf α) : Nat := t.posted.length - t.reaped

structure SendRing (t : SendHalf α) (history : List Event) : Prop where
  given : t.posted.length = (posts history).length
  reaped : t.reaped ≤ t.posted.length
  freed : frees history = (posts history).take t.reaped
  free : t.freeSendWrNum + t.unreaped = kNumTxRingEntries
  head : t.sendHead = t.reaped % kNumTxRingEntries
  tail : t.sendTail = (t.sendHead + t.unreaped) % kNumTxRingEntries
  swRing : Window kNumTxRingEntries t.swRing (fun k => (posts history)[k]?) t.reaped t.posted.length
  sendSgl : Window kNumTxRingEntries (fun i => some (t.sendSgl i))
    (fun k => (t.posted.map Sent.sge)[k]?) t.reaped t.posted.length
  chain : ∀ i < kNumTxRingEntries, t.sendWrNext i = some (circular kSQDepth i)

theorem SendRing.start (t : SendHalf α) : SendRing { (SoC.newSendHalf : SendHalf α) with
    sendWrNext := fun i => some (circular kSQDepth i)
    txQueue := t.txQueue, txQueueIdx := t.txQueueIdx } [] where
  given := rfl
  reaped := Nat.le_refl _
  freed := rfl
  free := rfl
  head := rfl
  tail := rfl
  swRing := Window.empty _ _ _ 0
  sendSgl := Window.empty _ _ _ 0
  chain _ _ := rfl

namespace SendRing

variable {t : SendHalf α} {history : List Event}

theorem queue (ring : SendRing t history) (txQueue : Nat → Option BufPtr) (txQueueIdx : Nat) :
    SendRing { t with txQueue := txQueue, txQueueIdx := txQueueIdx } history :=
  { ring with }

theorem tailSlot (ring : SendRing t history) :
    t.sendTail = t.posted.length % kNumTxRingEntries := by
  have behind : t.reaped + t.unreaped = t.posted.length := Nat.add_sub_of_le ring.reaped
  rw [ring.tail, ring.head, Nat.mod_add_mod, behind]

theorem circle (ring : SendRing t history) (k : Nat) :
    t.sendWrNext (slotOf k) = some (slotOf (k + 1)) := by
  rw [ring.chain _ (slotOf_lt k)]
  exact congrArg some (circular_slotOf k)

end SendRing

def burstEvents (t : SendHalf α) (history : List Event) (ret : Nat) (ms : List BufPtr) :
    List Event :=
  (((posts history).drop t.reaped).take ret).map .freed ++ ms.map .posted

theorem posts_burstEvents (t : SendHalf α) (history : List Event) (ret : Nat) (ms : List BufPtr) :
    posts (burstEvents t history ret ms) = ms := by
  rw [burstEvents, posts_append, posts_freed, posts_posted, List.nil_append]

theorem frees_burstEvents (t : SendHalf α) (history : List Event) (ret : Nat) (ms : List BufPtr) :
    frees (burstEvents t history ret ms) = ((posts history).drop t.reaped).take ret := by
  rw [burstEvents, frees_append, frees_freed, frees_posted, List.append_nil]

theorem SendRing.burst {t : SendHalf α} {history : List Event} (ring : SendRing t history) {ret : Nat}
    (inFlight : ret ≤ t.unreaped) {ms : List BufPtr} (room : ms.length ≤ t.freeSendWrNum + ret)
    {sendSgl : Nat → Sge} {swRing : Nat → Option BufPtr} {frames : List (Sent α)} {sges : List Sge}
    (given : frames.map Sent.sge = sges) (length : sges.length = ms.length)
    (window : Window kNumTxRingEntries swRing (fun k => (posts history ++ ms)[k]?) (t.reaped + ret)
      (posts history ++ ms).length)
    (windowSgl : Window kNumTxRingEntries (fun i => some (sendSgl i))
      (fun k => (t.posted.map Sent.sge ++ sges)[k]?) (t.reaped + ret)
      (t.posted.map Sent.sge ++ sges).length) :
    SendRing { t with
      sendSgl := sendSgl
      sendHead := (t.reaped + ret) % kNumTxRingEntries
      sendTail := (t.posted.length + ms.length) % kNumTxRingEntries
      swRing := swRing
      freeSendWrNum := t.freeSendWrNum + ret - ms.length
      reaped := t.reaped + ret
      posted := t.posted ++ frames } (history ++ burstEvents t history ret ms) := by
  have behind : t.reaped + t.unreaped = t.posted.length := Nat.add_sub_of_le ring.reaped
  have all := ring.free
  have before := ring.given
  have more : frames.length = ms.length := by rw [← length, ← given, List.length_map]
  have total : (t.posted ++ frames).length = t.posted.length + ms.length := by
    rw [List.length_append, more]
  refine {
    given := ?_, reaped := ?_, freed := ?_, free := ?_, head := rfl, tail := ?_, swRing := ?_
    sendSgl := ?_, chain := ring.chain }
  · rw [posts_append, posts_burstEvents]
    refine total.trans ?_
    rw [before, List.length_append]
  · change t.reaped + ret ≤ (t.posted ++ frames).length
    omega
  · rw [frees_append, frees_burstEvents, posts_append, posts_burstEvents, ring.freed]
    change _ = (posts history ++ ms).take (t.reaped + ret)
    rw [List.take_append_of_le_length (by omega), List.take_add]
  · change t.freeSendWrNum + ret - ms.length + ((t.posted ++ frames).length - (t.reaped + ret)) =
      kNumTxRingEntries
    omega
  · change (t.posted.length + ms.length) % kNumTxRingEntries =
      ((t.reaped + ret) % kNumTxRingEntries + ((t.posted ++ frames).length - (t.reaped + ret))) %
        kNumTxRingEntries
    rw [Nat.mod_add_mod, total]
    congr 1
    omega
  · change Window _ swRing _ (t.reaped + ret) (t.posted ++ frames).length
    rw [posts_append, posts_burstEvents, total, before, ← List.length_append]
    exact window
  · change Window _ (fun i => some (sendSgl i)) (fun k => ((t.posted ++ frames).map Sent.sge)[k]?)
      (t.reaped + ret) (t.posted ++ frames).length
    have lengths : ((t.posted ++ frames).map Sent.sge).length = (t.posted ++ frames).length :=
      List.length_map ..
    rw [← lengths, List.map_append, given]
    exact windowSgl

/-! ## Completed sends -/

variable {side : Side} {s s' : SoC α}

namespace SoC

theorem reaps_eq (ps : List BufPtr) (s : SoC α) : ps.foldl (reap side) s =
    { s with bufs := marked s.bufs (ps.map .freed) }.setSend side
      ((ps.foldl (reap side) s).send side) := by
  induction ps generalizing s with
  | nil => exact congrArg (fun send => { s with send := send }) (Function.update_eq_self ..).symm
  | cons p ps ih =>
      rw [List.foldl_cons, ih (s.reap side p)]
      simp only [setSend, Function.update_self, reap, Function.update_idem]
      rfl

theorem reapLoop_eq {ps : List BufPtr} {lo n : Nat}
    (head : (s.send side).sendHead = lo % kNumTxRingEntries)
    (window : Window kNumTxRingEntries (s.send side).swRing (fun k => ps[k]?) lo (lo + n))
    (inside : lo + n ≤ ps.length) :
    reapLoop side n s = .ok ({ s with
      bufs := marked s.bufs (((ps.drop lo).take n).map .freed) }.setSend side
        { s.send side with sendHead := (lo + n) % kNumTxRingEntries }) := by
  have length : ((ps.drop lo).take n).length = n := by
    rw [List.length_take, List.length_drop]
    omega
  have entries : ∀ j p, ((ps.drop lo).take n)[j]? = some p →
      (s.send side).swRing ((lo + j) % kNumTxRingEntries) = some p := by
    intro j p there
    have bound : j < n := length ▸ (List.getElem?_eq_some_iff.mp there).1
    rw [List.getElem?_take_of_lt bound, List.getElem?_drop] at there
    exact (window (lo + j) (Nat.le_add_right ..) (Nat.add_lt_add_left bound lo)).trans there
  obtain ⟨ran, send⟩ := reapLoop_entries 0 head entries
  rw [length] at ran send
  refine ran.trans ?_
  rw [reapLoop, reaps_eq, send]

def polled (s : SoC α) (side : Side) (history : List Event) (ret : Nat) : SoC α :=
  { s with
    bufs := marked s.bufs ((((posts history).drop (s.send side).reaped).take ret).map .freed) }.setSend
      side { s.send side with
        sendHead := ((s.send side).reaped + ret) % kNumTxRingEntries
        freeSendWrNum := (s.send side).freeSendWrNum + ret
        reaped := (s.send side).reaped + ret }

theorem pollSendCq_eq {history : List Event} (ring : SendRing (s.send side) history) {ret : Nat}
    (inFlight : ret ≤ (s.send side).unreaped) :
    s.pollSendCq side ret = .ok (s.polled side history ret) := by
  have behind : (s.send side).reaped + (s.send side).unreaped = (s.send side).posted.length :=
    Nat.add_sub_of_le ring.reaped
  have all := ring.free
  let u := s.setSend side { s.send side with
    freeSendWrNum := (s.send side).freeSendWrNum + ret
    reaped := (s.send side).reaped + ret }
  have send : u.send side = { s.send side with
      freeSendWrNum := (s.send side).freeSendWrNum + ret
      reaped := (s.send side).reaped + ret } := setSend_send ..
  have head : (u.send side).sendHead = (s.send side).reaped % kNumTxRingEntries := by
    rw [send]
    exact ring.head
  have window : Window kNumTxRingEntries (u.send side).swRing (fun k => (posts history)[k]?)
      (s.send side).reaped ((s.send side).reaped + ret) := by
    rw [send]
    exact ring.swRing.shrink (Nat.le_refl _) (by omega)
  have reaps := reapLoop_eq head window (by rw [← ring.given]; omega)
  have possible : ¬ ((s.send side).posted.length < (s.send side).reaped + (ret : Int).toNat ∨
      (kNumTxRingEntries : Int) < ret) := by
    omega
  have positive : ¬ (ret : Int) < 0 := by omega
  rw [pollSendCq]
  simp only [possible, positive, if_false]
  refine reaps.trans ?_
  rw [send]
  simp only [setSend, polled, u, Function.update_idem]

theorem pollSendCq_answered {ret : Int} (ran : s.pollSendCq side ret = .ok s')
    (reaped : (s.send side).reaped ≤ (s.send side).posted.length) :
    ret = ret.toNat ∧ ret.toNat ≤ (s.send side).unreaped := by
  rw [pollSendCq] at ran
  split_ifs at ran with impossible negative
  rw [SendHalf.unreaped]
  omega

/-! ## Mounted Buffers -/

theorem snoc_window {β : Type*} {n lo : Nat} {ring : Nat → Option β} {xs : List β}
    (window : Window n ring (fun k => xs[k]?) lo xs.length) (room : xs.length < lo + n) (x : β) :
    Window n (Function.update ring (xs.length % n) (some x)) (fun k => (xs ++ [x])[k]?) lo
      (xs ++ [x]).length := by
  have longer : Window n ring (fun k => (xs ++ [x])[k]?) lo xs.length :=
    window.congr fun k _ inside => (List.getElem?_append_left inside).symm
  have last : (xs ++ [x])[xs.length]? = some x := List.getElem?_concat_length
  rw [List.length_append, List.length_singleton, ← last]
  exact longer.push room

theorem mounts_eq (ms : List BufPtr) (s : SoC α) : ms.foldl (mount side) s =
    { s with bufs := marked s.bufs (ms.map .posted) }.setSend side
      ((ms.foldl (mount side) s).send side) := by
  induction ms generalizing s with
  | nil => exact congrArg (fun send => { s with send := send }) (Function.update_eq_self ..).symm
  | cons m ms ih =>
      rw [List.foldl_cons, ih (s.mount side m)]
      simp only [setSend, Function.update_self, mount, Function.update_idem]
      rfl

theorem mounts_window {ps : List BufPtr} {sges : List Sge} {lo : Nat} (ms : List BufPtr)
    (tail : (s.send side).sendTail = ps.length % kNumTxRingEntries)
    (room : ps.length + ms.length ≤ lo + kNumTxRingEntries)
    (ring : Window kNumTxRingEntries (s.send side).swRing (fun k => ps[k]?) lo ps.length)
    (lengths : sges.length = ps.length)
    (sgl : Window kNumTxRingEntries (fun i => some ((s.send side).sendSgl i)) (fun k => sges[k]?) lo
      sges.length) :
    Window kNumTxRingEntries ((ms.foldl (mount side) s).send side).swRing
        (fun k => (ps ++ ms)[k]?) lo (ps ++ ms).length ∧
      Window kNumTxRingEntries (fun i => some (((ms.foldl (mount side) s).send side).sendSgl i))
        (fun k => (sges ++ ms.map (sgeOf s.bufs))[k]?) lo
        (sges ++ ms.map (sgeOf s.bufs)).length := by
  induction ms generalizing s ps sges with
  | nil => simpa using ⟨ring, sgl⟩
  | cons m ms ih =>
      rw [List.length_cons] at room
      have marks : sgeOf (s.mount side m).bufs = sgeOf s.bufs := sgeOf_mark s.bufs (.posted m)
      have tailAfter : ((s.mount side m).send side).sendTail =
          (ps ++ [m]).length % kNumTxRingEntries := by
        rw [mount_send, tail, List.length_append]
        exact Nat.mod_add_mod ..
      have ringAfter : Window kNumTxRingEntries ((s.mount side m).send side).swRing
          (fun k => (ps ++ [m])[k]?) lo (ps ++ [m]).length := by
        rw [mount_send, tail]
        exact snoc_window ring (by omega) m
      have sglAfter : Window kNumTxRingEntries
          (fun i => some (((s.mount side m).send side).sendSgl i))
          (fun k => (sges ++ [sgeOf s.bufs m])[k]?) lo (sges ++ [sgeOf s.bufs m]).length := by
        have pushed := snoc_window sgl (by omega) (sgeOf s.bufs m)
        rw [lengths, ← tail] at pushed
        rw [mount_send]
        intro k low high
        refine Eq.trans ?_ (pushed k low high)
        exact Function.apply_update (fun _ => some) ..
      have further := ih (s := s.mount side m) tailAfter
        (by rw [List.length_append, List.length_singleton]; omega) ringAfter
        (by rw [List.length_append, List.length_append, lengths]; rfl) sglAfter
      rw [List.append_assoc, List.append_assoc, marks] at further
      exact further

theorem mountLoop_eq {ps ms : List BufPtr} {sges : List Sge} {lo tx left nbTxRes : Nat}
    (tailWr : Option Nat) (tail : (s.send side).sendTail = ps.length % kNumTxRingEntries)
    (room : (s.send side).freeSendWrNum + ps.length = lo + kNumTxRingEntries)
    (ring : Window kNumTxRingEntries (s.send side).swRing (fun k => ps[k]?) lo ps.length)
    (lengths : sges.length = ps.length)
    (sgl : Window kNumTxRingEntries (fun i => some ((s.send side).sendSgl i)) (fun k => sges[k]?) lo
      sges.length)
    (count : ms.length = min (s.send side).freeSendWrNum left)
    (queue : ∀ i m, ms[i]? = some m → (s.send side).txQueue (tx + (nbTxRes + i)) = some m) :
    ∃ sgl' ring', mountLoop side tx left nbTxRes tailWr s = .ok (nbTxRes + ms.length,
      if ms = [] then tailWr else some ((ps.length + ms.length - 1) % kNumTxRingEntries),
      { s with bufs := marked s.bufs (ms.map .posted) }.setSend side { s.send side with
        sendSgl := sgl'
        swRing := ring'
        sendTail := (ps.length + ms.length) % kNumTxRingEntries
        freeSendWrNum := (s.send side).freeSendWrNum - ms.length }) ∧
      Window kNumTxRingEntries ring' (fun k => (ps ++ ms)[k]?) lo (ps ++ ms).length ∧
      Window kNumTxRingEntries (fun i => some (sgl' i))
        (fun k => (sges ++ ms.map (sgeOf s.bufs))[k]?) lo (sges ++ ms.map (sgeOf s.bufs)).length := by
  obtain ⟨ran, sgl', ring', send⟩ := mountLoop_run tailWr tail count queue
  have windows := mounts_window ms tail (by omega) ring lengths sgl
  rw [send] at windows
  refine ⟨sgl', ring', ?_, windows⟩
  rw [ran, mounts_eq, send]

theorem mountLoop_queue {tx left nbTxRes tail : Nat} {tailWr : Option Nat}
    {result : Nat × Option Nat × SoC α}
    (sendTail : (s.send side).sendTail = tail % kNumTxRingEntries)
    (ran : mountLoop side tx left nbTxRes tailWr s = .ok result) :
    ∃ ms : List BufPtr, ms.length = min (s.send side).freeSendWrNum left ∧
      ∀ i m, ms[i]? = some m → (s.send side).txQueue (tx + (nbTxRes + i)) = some m := by
  obtain ⟨ms, queue, ⟨count, -⟩ | ⟨-, -, stops⟩⟩ :=
    mountLoop_cases tx left nbTxRes tailWr s sendTail
  · exact ⟨ms, count, queue⟩
  · rw [stops] at ran
    cases ran

/-! ## The chain that is posted -/

theorem postMounted_eq {t : SendHalf α} (send : s.send side = t)
    (circle : ∀ k, t.sendWrNext (slotOf k) = some (slotOf (k + 1))) (start : Nat) {len : Nat}
    (fits : len < kNumTxRingEntries) (ret : Int) :
    s.postMounted side (slotOf start) (len + 1) (some (slotOf (start + len))) ret =
      if ret ≠ 0 then .error (.thrown "SHUTDOWN BY NICC ERROR", s.setSend side { t with
        sendWrNext := Function.update t.sendWrNext (slotOf (start + len)) none
        posted := t.posted ++ ((List.range' start (len + 1)).map slotOf).map fun i =>
          ⟨t.sendSgl i, s.mem (t.sendSgl i).addr⟩ })
      else .ok (s.setSend side { t with
        posted := t.posted ++ ((List.range' start (len + 1)).map slotOf).map fun i =>
          ⟨t.sendSgl i, s.mem (t.sendSgl i).addr⟩ }) := by
  have chain := walk_broken circle start (fits : len < kNumRxRingEntries) fits
  rw [postMounted, if_pos (Nat.succ_pos len), deref_some, ok_bind]
  simp only [send, postSend, chain, Function.update_idem, Function.update_eq_self]

/-! ## The burst -/

def mounted (s : SoC α) (side : Side) (events : List Event) (sgl : Nat → Sge)
    (ring : Nat → Option BufPtr) (ret more : Nat) : SoC α :=
  { s with bufs := marked s.bufs events }.setSend side { s.send side with
    sendSgl := sgl
    sendHead := ((s.send side).reaped + ret) % kNumTxRingEntries
    sendTail := ((s.send side).posted.length + more) % kNumTxRingEntries
    swRing := ring
    freeSendWrNum := (s.send side).freeSendWrNum + ret - more
    reaped := (s.send side).reaped + ret }

theorem txBurst_mounts {history : List Event} (ring : SendRing (s.send side) history) {ret : Nat}
    (inFlight : ret ≤ (s.send side).unreaped) {tx txSize : Nat} {ms : List BufPtr}
    (count : ms.length = min ((s.send side).freeSendWrNum + ret) txSize)
    (queue : ∀ i m, ms[i]? = some m → (s.send side).txQueue (tx + i) = some m) :
    ∃ sgl' ring', (∀ postRet, s.txBurst side tx txSize ⟨ret, postRet⟩ =
        ((s.mounted side (burstEvents (s.send side) history ret ms) sgl' ring' ret ms.length).postMounted
          side (slotOf (s.send side).posted.length) ms.length (if ms = [] then none
            else some (slotOf ((s.send side).posted.length + ms.length - 1))) postRet) >>=
          fun s' => .ok (ms.length, s')) ∧
      Window kNumTxRingEntries ring' (fun k => (posts history ++ ms)[k]?)
        ((s.send side).reaped + ret) (posts history ++ ms).length ∧
      Window kNumTxRingEntries (fun i => some (sgl' i))
        (fun k => ((s.send side).posted.map Sent.sge ++ ms.map (sgeOf s.bufs))[k]?)
        ((s.send side).reaped + ret)
        ((s.send side).posted.map Sent.sge ++ ms.map (sgeOf s.bufs)).length := by
  have behind : (s.send side).reaped + (s.send side).unreaped = (s.send side).posted.length :=
    Nat.add_sub_of_le ring.reaped
  have all := ring.free
  have given := ring.given
  let u := s.polled side history ret
  have polls : s.pollSendCq side ret = .ok u := pollSendCq_eq ring inFlight
  have send : u.send side = { s.send side with
      sendHead := ((s.send side).reaped + ret) % kNumTxRingEntries
      freeSendWrNum := (s.send side).freeSendWrNum + ret
      reaped := (s.send side).reaped + ret } := setSend_send ..
  have sges : sgeOf u.bufs = sgeOf s.bufs := sgeOf_marked ..
  have tailPolled : (u.send side).sendTail = (posts history).length % kNumTxRingEntries := by
    rw [send, ← given]
    exact ring.tailSlot
  have roomPolled : (u.send side).freeSendWrNum + (posts history).length =
      (s.send side).reaped + ret + kNumTxRingEntries := by
    rw [send, ← given]
    change (s.send side).freeSendWrNum + ret + _ = _
    omega
  have ringPolled : Window kNumTxRingEntries (u.send side).swRing (fun k => (posts history)[k]?)
      ((s.send side).reaped + ret) (posts history).length := by
    rw [send, ← given]
    exact ring.swRing.shrink (Nat.le_add_right ..) (Nat.le_refl _)
  have lengths : ((s.send side).posted.map Sent.sge).length = (posts history).length := by
    rw [List.length_map, given]
  have sglPolled : Window kNumTxRingEntries (fun i => some ((u.send side).sendSgl i))
      (fun k => ((s.send side).posted.map Sent.sge)[k]?) ((s.send side).reaped + ret)
      ((s.send side).posted.map Sent.sge).length := by
    rw [send, List.length_map]
    exact ring.sendSgl.shrink (Nat.le_add_right ..) (Nat.le_refl _)
  have countPolled : ms.length = min (u.send side).freeSendWrNum txSize := by
    rw [send]
    exact count
  have queuePolled : ∀ i m, ms[i]? = some m → (u.send side).txQueue (tx + (0 + i)) = some m := by
    intro i m there
    rw [send, Nat.zero_add]
    exact queue i m there
  obtain ⟨sgl', ring', ran, window, windowSgl⟩ := mountLoop_eq none tailPolled roomPolled ringPolled
    lengths sglPolled countPolled queuePolled
  rw [sges] at windowSgl
  refine ⟨sgl', ring', fun postRet => ?_, window, windowSgl⟩
  rw [Nat.zero_add, ← given] at ran
  have tail : (u.send side).sendTail = slotOf (s.send side).posted.length := by
    rw [send]
    exact ring.tailSlot
  have state : ({ u with bufs := marked u.bufs (ms.map .posted) } : SoC α).setSend side
      { u.send side with
        sendSgl := sgl'
        swRing := ring'
        sendTail := ((s.send side).posted.length + ms.length) % kNumTxRingEntries
        freeSendWrNum := (u.send side).freeSendWrNum - ms.length } =
      s.mounted side (burstEvents (s.send side) history ret ms) sgl' ring' ret ms.length := by
    rw [mounted, burstEvents, marked_append, send]
    simp only [setSend, u, polled, Function.update_idem]
  rw [state] at ran
  rw [txBurst, polls, ok_bind, tail, ran, ok_bind]
  rfl

def framesFrom (s : SoC α) (t : SendHalf α) (start count : Nat) : List (Sent α) :=
  ((List.range' start count).map slotOf).map fun i => ⟨t.sendSgl i, s.mem (t.sendSgl i).addr⟩

theorem postMounted_accepted {ms : List BufPtr} {start : Nat}
    (circle : ∀ k, (s.send side).sendWrNext (slotOf k) = some (slotOf (k + 1)))
    (fits : ms.length ≤ kNumTxRingEntries) {ret : Int} (accepted : ms ≠ [] → ret = 0) :
    s.postMounted side (slotOf start) ms.length
        (if ms = [] then none else some (slotOf (start + ms.length - 1))) ret =
      .ok (s.setSend side { s.send side with
        posted := (s.send side).posted ++ framesFrom s (s.send side) start ms.length }) := by
  cases ms with
  | nil =>
      have same : ({ s.send side with
          posted := (s.send side).posted ++ framesFrom s (s.send side) start 0 } : SendHalf α) =
            s.send side := by
        rw [framesFrom, List.range'_zero, List.map_nil, List.map_nil, List.append_nil]
      change s.postMounted side (slotOf start) 0 none ret = .ok (s.setSend side { s.send side with
        posted := (s.send side).posted ++ framesFrom s (s.send side) start 0 })
      rw [same, setSend, Function.update_eq_self]
      rfl
  | cons m ms =>
      rw [List.length_cons] at fits ⊢
      rw [if_neg (List.cons_ne_nil m ms), ← Nat.add_assoc, Nat.add_sub_cancel,
        postMounted_eq rfl circle start fits, accepted (List.cons_ne_nil m ms), if_neg (by simp)]
      rfl

theorem framesFrom_sges {t : SendHalf α} {before after : List Sge} {lo : Nat}
    (window : Window kNumTxRingEntries (fun i => some (t.sendSgl i)) (fun k => (before ++ after)[k]?)
      lo (before ++ after).length) (low : lo ≤ before.length) :
    (s.framesFrom t before.length after.length).map Sent.sge = after := by
  apply List.ext_getElem
  · simp [framesFrom]
  · intro i left right
    have inside : before.length + i < (before ++ after).length := by
      rw [List.length_append]
      omega
    have entry : some (t.sendSgl (slotOf (before.length + i))) = (before ++ after)[before.length + i]? :=
      window (before.length + i) (by omega) inside
    rw [List.getElem?_append_right (Nat.le_add_right ..), Nat.add_sub_cancel_left,
      List.getElem?_eq_getElem right] at entry
    have here := Option.some.inj entry
    simpa [framesFrom] using here

end SoC

structure Served (side : Side) (s s' : SoC α) (history events : List Event) : Prop where
  bufs : s'.bufs = marked s.bufs events
  given : (s'.send side).posted.map Sent.sge =
    (s.send side).posted.map Sent.sge ++ (posts events).map (sgeOf s.bufs)
  reaped : (s'.send side).reaped = (s.send side).reaped + (frees events).length
  kept : ∀ k, (s'.send side).reaped ≤ k → k < (s.send side).posted.length →
    (s'.send side).swRing (k % kNumTxRingEntries) = (s.send side).swRing (k % kNumTxRingEntries) ∧
    (s'.send side).sendSgl (k % kNumTxRingEntries) =
      (s.send side).sendSgl (k % kNumTxRingEntries) ∧
    (s'.send side).sendWrNext (k % kNumTxRingEntries) =
      (s.send side).sendWrNext (k % kNumTxRingEntries)
  ring : SendRing (s'.send side) (history ++ events)

theorem SendRing.served {history events : List Event} (before : SendRing (s.send side) history)
    (bufs : s'.bufs = marked s.bufs events)
    (given : (s'.send side).posted.map Sent.sge =
      (s.send side).posted.map Sent.sge ++ (posts events).map (sgeOf s.bufs))
    (reaped : (s'.send side).reaped = (s.send side).reaped + (frees events).length)
    (after : SendRing (s'.send side) (history ++ events)) : Served side s s' history events := by
  refine ⟨bufs, given, reaped, fun k low high => ?_, after⟩
  have lengths := congrArg List.length given
  rw [List.length_append, List.length_map, List.length_map] at lengths
  have old : (s.send side).reaped ≤ k := by omega
  have slot : k % kNumTxRingEntries < kNumTxRingEntries := Nat.mod_lt _ (by decide)
  refine ⟨?_, ?_, ?_⟩
  · rw [before.swRing k old high, after.swRing k low (by omega), posts_append]
    exact List.getElem?_append_left (by rw [← before.given]; exact high)
  · have left : some ((s.send side).sendSgl (k % kNumTxRingEntries)) =
        ((s.send side).posted.map Sent.sge)[k]? := before.sendSgl k old high
    have right : some ((s'.send side).sendSgl (k % kNumTxRingEntries)) =
        ((s'.send side).posted.map Sent.sge)[k]? := after.sendSgl k low (by omega)
    rw [given, List.getElem?_append_left (by rw [List.length_map]; exact high)] at right
    exact Option.some.inj (right.trans left.symm)
  · rw [before.chain _ slot, after.chain _ slot]

theorem Served.trans {s'' : SoC α} {history first second : List Event}
    (before : SendRing (s.send side) history) (left : Served side s s' history first)
    (right : Served side s' s'' (history ++ first) second) :
    Served side s s'' history (first ++ second) := by
  have ring : SendRing (s''.send side) (history ++ (first ++ second)) :=
    List.append_assoc history first second ▸ right.ring
  have sges : sgeOf s'.bufs = sgeOf s.bufs := by rw [left.bufs, sgeOf_marked]
  refine before.served ?_ ?_ ?_ ring
  · rw [marked_append, ← left.bufs]
    exact right.bufs
  · rw [right.given, left.given, sges, posts_append, List.map_append, List.append_assoc]
  · rw [right.reaped, left.reaped, frees_append, List.length_append, Nat.add_assoc]

theorem txBurst_served {history : List Event} (ring : SendRing (s.send side) history) {ret : Nat}
    (inFlight : ret ≤ (s.send side).unreaped) {tx txSize : Nat} {ms : List BufPtr}
    (count : ms.length = min ((s.send side).freeSendWrNum + ret) txSize)
    (queue : ∀ i m, ms[i]? = some m → (s.send side).txQueue (tx + i) = some m) {postRet : Int}
    (accepted : ms ≠ [] → postRet = 0) :
    ∃ s', s.txBurst side tx txSize ⟨ret, postRet⟩ = .ok (ms.length, s') ∧
      Served side s s' history (burstEvents (s.send side) history ret ms) ∧
      (s'.send side).txQueue = (s.send side).txQueue ∧
      (s'.send side).txQueueIdx = (s.send side).txQueueIdx := by
  have behind : (s.send side).reaped + (s.send side).unreaped = (s.send side).posted.length :=
    Nat.add_sub_of_le ring.reaped
  have all := ring.free
  have given := ring.given
  obtain ⟨sgl', ring', ran, window, windowSgl⟩ := SoC.txBurst_mounts ring inFlight count queue
  let u := s.mounted side (burstEvents (s.send side) history ret ms) sgl' ring' ret ms.length
  let t := u.send side
  have send : t = { s.send side with
      sendSgl := sgl'
      sendHead := ((s.send side).reaped + ret) % kNumTxRingEntries
      sendTail := ((s.send side).posted.length + ms.length) % kNumTxRingEntries
      swRing := ring'
      freeSendWrNum := (s.send side).freeSendWrNum + ret - ms.length
      reaped := (s.send side).reaped + ret } := SoC.setSend_send ..
  let frames := u.framesFrom t (s.send side).posted.length ms.length
  let s' := u.setSend side { t with posted := t.posted ++ frames }
  have posted : u.postMounted side (slotOf (s.send side).posted.length) ms.length (if ms = [] then none
      else some (slotOf ((s.send side).posted.length + ms.length - 1))) postRet = .ok s' :=
    SoC.postMounted_accepted (by rw [show u.send side = _ from send]; exact ring.circle) (by omega)
      accepted
  have sges : frames.map Sent.sge = ms.map (sgeOf s.bufs) := by
    have found := SoC.framesFrom_sges (s := u) (t := t) (by rw [send]; exact windowSgl)
      (by rw [List.length_map]; omega)
    rwa [List.length_map, List.length_map] at found
  have half : s'.send side = { t with posted := t.posted ++ frames } := SoC.setSend_send ..
  have bufs : s'.bufs = marked s.bufs (burstEvents (s.send side) history ret ms) := rfl
  refine ⟨s', ?_, ring.served bufs ?_ ?_ ?_, ?_, ?_⟩
  · rw [ran, posted, ok_bind]
  · rw [half, posts_burstEvents, ← sges, send, List.map_append]
  · rw [half, send, frees_burstEvents, List.length_take, List.length_drop]
    change (s.send side).reaped + ret = _
    omega
  · rw [half, send]
    exact ring.burst inFlight (by omega) sges (List.length_map _) window windowSgl
  · rw [half, send]
  · rw [half, send]

theorem txBurst_polled {history : List Event} (ring : SendRing (s.send side) history)
    {tx txSize n : Nat} {poll : SoC.SendPoll} (ran : s.txBurst side tx txSize poll = .ok (n, s')) :
    poll = ⟨(poll.ret.toNat : Int), poll.postRet⟩ ∧ poll.ret.toNat ≤ (s.send side).unreaped := by
  obtain ⟨u, polls, -⟩ := bind_eq_ok.mp ran
  obtain ⟨natural, inFlight⟩ := SoC.pollSendCq_answered polls ring.reaped
  exact ⟨congrArg (SoC.SendPoll.mk · poll.postRet) natural, inFlight⟩

theorem txBurst_queue {history : List Event} (ring : SendRing (s.send side) history) {ret : Nat}
    (inFlight : ret ≤ (s.send side).unreaped) {tx txSize n : Nat} {postRet : Int}
    (ran : s.txBurst side tx txSize ⟨ret, postRet⟩ = .ok (n, s')) :
    ∃ ms : List BufPtr, ms.length = min ((s.send side).freeSendWrNum + ret) txSize ∧
      ∀ i m, ms[i]? = some m → (s.send side).txQueue (tx + i) = some m := by
  have send : (s.polled side history ret).send side = { s.send side with
      sendHead := ((s.send side).reaped + ret) % kNumTxRingEntries
      freeSendWrNum := (s.send side).freeSendWrNum + ret
      reaped := (s.send side).reaped + ret } := SoC.setSend_send ..
  obtain ⟨u, polls, rest⟩ := bind_eq_ok.mp ran
  obtain rfl := Except.ok.inj ((SoC.pollSendCq_eq ring inFlight).symm.trans polls)
  obtain ⟨mounted, mounts, -⟩ := bind_eq_ok.mp rest
  obtain ⟨ms, count, queue⟩ := SoC.mountLoop_queue (by rw [send]; exact ring.tailSlot) mounts
  rw [send] at count
  refine ⟨ms, count, fun i m there => ?_⟩
  have entry := queue i m there
  rwa [send, Nat.zero_add] at entry

theorem txBurst_ran {history : List Event} (ring : SendRing (s.send side) history) {ret : Nat}
    (inFlight : ret ≤ (s.send side).unreaped) {tx txSize n : Nat} {postRet : Int}
    (ran : s.txBurst side tx txSize ⟨ret, postRet⟩ = .ok (n, s')) :
    ∃ ms : List BufPtr, n = ms.length ∧
      ms.length = min ((s.send side).freeSendWrNum + ret) txSize ∧
      (∀ i m, ms[i]? = some m → (s.send side).txQueue (tx + i) = some m) ∧
      Served side s s' history (burstEvents (s.send side) history ret ms) ∧
      (s'.send side).txQueue = (s.send side).txQueue ∧
      (s'.send side).txQueueIdx = (s.send side).txQueueIdx := by
  obtain ⟨ms, count, queue⟩ := txBurst_queue ring inFlight ran
  have room := ring.free
  have accepted : ms ≠ [] → postRet = 0 := by
    intro nonempty
    by_contra refused
    obtain ⟨sgl', ring', bursts, -, -⟩ := SoC.txBurst_mounts ring inFlight count queue
    rw [bursts] at ran
    obtain ⟨v, posts, -⟩ := bind_eq_ok.mp ran
    obtain ⟨len, length⟩ := Nat.exists_eq_succ_of_ne_zero
      (mt List.length_eq_zero_iff.mp nonempty)
    have last : (s.send side).posted.length + len.succ - 1 = (s.send side).posted.length + len := rfl
    rw [if_neg nonempty, length, last, SoC.postMounted_eq rfl
      (by rw [SoC.mounted, SoC.setSend_send]; exact ring.circle) _ (by omega),
      if_pos refused] at posts
    cases posts
  obtain ⟨v, again, served, sameQueue, sameIdx⟩ := txBurst_served ring inFlight count queue accepted
  cases again.symm.trans ran
  exact ⟨ms, rfl, count, queue, served, sameQueue, sameIdx⟩

/-! ## The flush -/

theorem Served.refl {history : List Event} (ring : SendRing (s.send side) history) :
    Served side s s history [] :=
  ring.served rfl (List.append_nil _).symm rfl (by rw [List.append_nil]; exact ring)

theorem flushLoop_served {history : List Event} (ring : SendRing (s.send side) history)
    {polls : List SoC.SendPoll} {txTotal total : Nat} (inside : txTotal ≤ (s.send side).txQueueIdx)
    (ran : SoC.flushLoop side polls txTotal s = .ok (total, s')) :
    ∃ events, Served side s s' history events ∧
      txTotal + (posts events).length = (s.send side).txQueueIdx ∧
      (∀ i m, (posts events)[i]? = some m → (s.send side).txQueue (txTotal + i) = some m) ∧
      (frees events).length = reapedBy polls := by
  induction polls generalizing s history txTotal with
  | nil =>
      rw [SoC.flushLoop] at ran
      split_ifs at ran with more
      cases ran
      have none (i : Nat) (m : BufPtr) : (posts [])[i]? ≠ some m := by simp [posts]
      exact ⟨[], .refl ring, Nat.le_antisymm inside (Nat.not_lt.mp more),
        fun i m there => absurd there (none i m), rfl⟩
  | cons poll polls ih =>
      rw [SoC.flushLoop] at ran
      split_ifs at ran with more
      obtain ⟨⟨nbTx, u⟩, bursts, rest⟩ := bind_eq_ok.mp ran
      obtain ⟨natural, inFlight⟩ := txBurst_polled ring bursts
      rw [natural] at bursts
      obtain ⟨ms, rfl, count, queue, served, sameQueue, sameIdx⟩ := txBurst_ran ring inFlight bursts
      obtain ⟨events, later, length, queueLater, freed⟩ := ih served.ring
        (by rw [sameIdx]; omega) rest
      have reaps : ((posts history).drop (s.send side).reaped).length = (s.send side).unreaped := by
        rw [List.length_drop, ← ring.given]
        rfl
      refine ⟨_, served.trans ring later, ?_, ?_, ?_⟩
      · rw [posts_append, posts_burstEvents, List.length_append, ← sameIdx, ← Nat.add_assoc]
        exact length
      · intro i m there
        rw [posts_append, posts_burstEvents] at there
        rcases Nat.lt_or_ge i ms.length with first | behind
        · rw [List.getElem?_append_left first] at there
          exact queue i m there
        · rw [List.getElem?_append_right behind] at there
          have entry := queueLater _ m there
          rwa [sameQueue, Nat.add_assoc, Nat.add_sub_cancel' behind] at entry
      · rw [frees_append, List.length_append, freed, frees_burstEvents, List.length_take, reaps,
          Nat.min_eq_left inFlight]
        exact (List.sum_cons ..).symm

/-! ## All calls on one QP -/

/-- Between two calls the rest of the program may do anything, but of the send half of the QP it
changes only the queue. -/
inductive SendCall (α : Type)
  | txBurst (tx : Nat → Option BufPtr) (txSize : Nat) (poll : SoC.SendPoll)
  | txFlush (polls : List SoC.SendPoll)
  | elsewhere (e : SoC α)

namespace SoC

def burstArray (s : SoC α) (side : Side) (tx : Nat → Option BufPtr) (txSize : Nat) (poll : SendPoll) :
    Step α (SoC α) := do
  let (_, u) ← (s.setSend side { s.send side with txQueue := tx }).txBurst side 0 txSize poll
  return u.setSend side { u.send side with txQueue := (s.send side).txQueue }

def elsewhere (s : SoC α) (side : Side) (e : SoC α) : SoC α :=
  e.setSend side { s.send side with
    txQueue := (e.send side).txQueue
    txQueueIdx := (e.send side).txQueueIdx }

def sendStep (side : Side) (s : SoC α) : SendCall α → Step α (SoC α)
  | .txBurst tx txSize poll => s.burstArray side tx txSize poll
  | .txFlush polls => do
      let (_, u) ← s.txFlush side polls
      return u
  | .elsewhere e => .ok (s.elsewhere side e)

end SoC

def Does (side : Side) (s s' : SoC α) (history events : List Event) : SendCall α → Prop
  | .txBurst tx txSize poll => Served side s s' history events ∧
      ∃ ms : List BufPtr, ms.length = min ((s.send side).freeSendWrNum + poll.ret.toNat) txSize ∧
        (∀ i m, ms[i]? = some m → tx i = some m) ∧
        events = burstEvents (s.send side) history poll.ret.toNat ms
  | .txFlush polls => Served side s s' history events ∧
      (posts events).length = (s.send side).txQueueIdx ∧
      (∀ i m, (posts events)[i]? = some m → (s.send side).txQueue i = some m) ∧
      (frees events).length = reapedBy polls ∧ (s'.send side).txQueueIdx = 0
  | .elsewhere _ => events = []

/-- The ring is in order, and a burst returns whatever part of the sends in flight is completed. -/
structure InOrder (side : Side) (s : SoC α) (history : List Event) : Prop where
  ring : SendRing (s.send side) history
  bursts : ∀ (tx : Nat → Option BufPtr) (txSize ret : Nat), ret ≤ (s.send side).unreaped →
    (∀ i < txSize, tx i ≠ none) → ∃ s', s.burstArray side tx txSize ⟨ret, 0⟩ = .ok s'

/-- The calls of a run follow one history, and the ring is in order before and after each of them. -/
def Follows (side : Side) : SoC α → List Event → List (SendCall α) → Prop
  | s, history, [] => InOrder side s history
  | s, history, call :: calls => InOrder side s history ∧
      ∀ s', s.sendStep side call = .ok s' →
        ∃ events, Does side s s' history events call ∧ Follows side s' (history ++ events) calls

section
variable {history : List Event} (ring : SendRing (s.send side) history)
include ring

theorem burstArray_does {tx : Nat → Option BufPtr} {txSize : Nat} {poll : SoC.SendPoll}
    (ran : s.burstArray side tx txSize poll = .ok s') : ∃ events,
      SendRing (s'.send side) (history ++ events) ∧
      Does side s s' history events (.txBurst tx txSize poll) := by
  let start := s.setSend side { s.send side with txQueue := tx }
  have send : start.send side = { s.send side with txQueue := tx } := SoC.setSend_send ..
  have begun : SendRing (start.send side) history := by
    rw [send]
    exact ring.queue tx _
  obtain ⟨⟨n, u⟩, bursts, rest⟩ := bind_eq_ok.mp ran
  obtain ⟨natural, inFlight⟩ := txBurst_polled begun bursts
  rw [natural] at bursts
  obtain ⟨ms, rfl, count, queue, served, -, -⟩ := txBurst_ran begun inFlight bursts
  rw [send] at count queue
  have half : s'.send side = { u.send side with txQueue := (s.send side).txQueue } := by
    rw [← Except.ok.inj rest]
    exact SoC.setSend_send ..
  have bufs : s'.bufs = u.bufs := by
    rw [← Except.ok.inj rest]
    rfl
  have after : SendRing (s'.send side)
      (history ++ burstEvents (s.send side) history poll.ret.toNat ms) := by
    rw [half]
    have ended := served.ring
    rw [send] at ended
    exact ended.queue _ _
  refine ⟨burstEvents (s.send side) history poll.ret.toNat ms, after,
    ring.served ?_ ?_ ?_ after, ms, count, ?_, rfl⟩
  · rw [bufs, served.bufs, send]
    rfl
  · have given := served.given
    rw [send] at given
    rw [half]
    exact given
  · have reaped := served.reaped
    rw [send] at reaped
    rw [half]
    exact reaped
  · intro i m there
    have entry := queue i m there
    rwa [Nat.zero_add] at entry

theorem txFlush_does {polls : List SoC.SendPoll} {total : Nat}
    (ran : s.txFlush side polls = .ok (total, s')) : ∃ events,
      SendRing (s'.send side) (history ++ events) ∧
      Does side s s' history events (.txFlush polls) := by
  obtain ⟨⟨total', u⟩, flushes, rest⟩ := bind_eq_ok.mp ran
  obtain ⟨events, served, length, queue, freed⟩ := flushLoop_served ring (Nat.zero_le _) flushes
  have ended : u.setSend side { u.send side with txQueueIdx := 0 } = s' :=
    congrArg Prod.snd (Except.ok.inj rest)
  have half : s'.send side = { u.send side with txQueueIdx := 0 } := by
    rw [← ended]
    exact SoC.setSend_send ..
  have bufs : s'.bufs = u.bufs := by
    rw [← ended]
    rfl
  have after : SendRing (s'.send side) (history ++ events) := by
    rw [half]
    exact served.ring.queue _ 0
  refine ⟨events, after, ring.served ?_ ?_ ?_ after, ?_, ?_, freed, ?_⟩
  · rw [bufs]
    exact served.bufs
  · rw [half]
    exact served.given
  · rw [half]
    exact served.reaped
  · rw [← length, Nat.zero_add]
  · intro i m there
    have entry := queue i m there
    rwa [Nat.zero_add] at entry
  · rw [half]

theorem sendStep_does {call : SendCall α} (ran : s.sendStep side call = .ok s') : ∃ events,
    SendRing (s'.send side) (history ++ events) ∧ Does side s s' history events call := by
  cases call with
  | txBurst tx txSize poll => exact burstArray_does ring ran
  | txFlush polls =>
      obtain ⟨⟨total, u⟩, flushes, rest⟩ := bind_eq_ok.mp ran
      cases rest
      exact txFlush_does ring flushes
  | elsewhere e =>
      cases ran
      refine ⟨[], ?_, rfl⟩
      rw [SoC.elsewhere, SoC.setSend_send, List.append_nil]
      exact ring.queue _ _

theorem burstArray_returns {tx : Nat → Option BufPtr} {txSize ret : Nat}
    (inFlight : ret ≤ (s.send side).unreaped) (there : ∀ i < txSize, tx i ≠ none) :
    ∃ s', s.burstArray side tx txSize ⟨ret, 0⟩ = .ok s' := by
  let start := s.setSend side { s.send side with txQueue := tx }
  have send : start.send side = { s.send side with txQueue := tx } := SoC.setSend_send ..
  let count := min ((s.send side).freeSendWrNum + ret) txSize
  let ms := (List.range count).map fun i => (tx i).getD ⟨side, 0⟩
  have begun : SendRing (start.send side) history := by
    rw [send]
    exact ring.queue tx _
  have inFlightBegun : ret ≤ (start.send side).unreaped := by
    rw [send]
    exact inFlight
  have counted : ms.length = min ((start.send side).freeSendWrNum + ret) txSize := by
    rw [send, List.length_map, List.length_range]
  have queue : ∀ i m, ms[i]? = some m → (start.send side).txQueue (0 + i) = some m := by
    intro i m found
    rw [send, Nat.zero_add]
    obtain ⟨k, position, rfl⟩ := Option.map_eq_some_iff.mp (List.getElem?_map ▸ found)
    obtain ⟨bound, rfl⟩ := List.getElem?_eq_some_iff.mp position
    rw [List.length_range] at bound
    obtain ⟨p, entry⟩ := Option.ne_none_iff_exists'.mp (there i (by omega))
    change tx i = _
    rw [List.getElem_range, entry]
    rfl
  obtain ⟨u, bursts, -⟩ := txBurst_served begun inFlightBegun counted queue
    (fun _ => rfl : ms ≠ [] → (0 : Int) = 0)
  refine ⟨u.setSend side { u.send side with txQueue := (s.send side).txQueue }, ?_⟩
  change (start.txBurst side 0 txSize ⟨ret, 0⟩ >>= _) = _
  rw [bursts]
  rfl

theorem SendRing.inOrder : InOrder side s history :=
  ⟨ring, fun _ _ _ inFlight there => burstArray_returns ring inFlight there⟩

end

theorem SendRing.follows {history : List Event} (ring : SendRing (s.send side) history)
    (calls : List (SendCall α)) : Follows side s history calls := by
  induction calls generalizing s history with
  | nil => exact ring.inOrder
  | cons call calls ih =>
      refine ⟨ring.inOrder, fun s' ran => ?_⟩
      obtain ⟨events, after, does⟩ := sendStep_does ring ran
      exact ⟨events, does, ih after⟩

theorem sendCalls_follow (e : SoC α) (side : Side) (calls : List (SendCall α)) :
    Follows side ((e.setSend side SoC.newSendHalf).initSends side) [] calls := by
  apply SendRing.follows
  rw [SoC.initSends, SoC.setSend_send, SoC.setSend_send]
  exact .start SoC.newSendHalf

end Nicc.Soc

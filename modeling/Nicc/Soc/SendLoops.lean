import Nicc.Soc.Receive

namespace Nicc.Soc
open Lib

variable {α : Type} {s s' : SoC α} {side : Side}

theorem entries_or_none {β : Type} (f : Nat → Option β) (n : Nat) :
    (∃ xs : List β, xs.length = n ∧ ∀ i x, xs[i]? = some x → f i = some x) ∨
      ∃ xs : List β, xs.length < n ∧ (∀ i x, xs[i]? = some x → f i = some x) ∧
        f xs.length = none := by
  induction n with
  | zero => exact .inl ⟨[], rfl, by simp⟩
  | succ n ih =>
      rcases ih with ⟨xs, length, found⟩ | ⟨xs, short, found, null⟩
      · cases entry : f n with
        | none => exact .inr ⟨xs, by omega, found, by rw [length, entry]⟩
        | some x =>
            refine .inl ⟨xs ++ [x], by rw [List.length_append, length]; rfl, fun i y there => ?_⟩
            rcases Nat.lt_or_ge i n with before | behind
            · rw [List.getElem?_append_left (by omega)] at there
              exact found i y there
            · obtain ⟨bound, rfl⟩ := List.getElem?_eq_some_iff.mp there
              rw [List.length_append, List.length_singleton] at bound
              obtain rfl : i = n := by omega
              simp only [← length, List.getElem_concat_length]
              rw [length, entry]
      · exact .inr ⟨xs, by omega, found, null⟩

namespace SoC

def reap (side : Side) (s : SoC α) (p : BufPtr) : SoC α :=
  (s.setState p .kFREE_BUF).setSend side
    { s.send side with sendHead := ((s.send side).sendHead + 1) % kNumTxRingEntries }

@[simp] theorem reap_send (s : SoC α) (p : BufPtr) : (s.reap side p).send side =
    { s.send side with sendHead := ((s.send side).sendHead + 1) % kNumTxRingEntries } :=
  setSend_send ..

theorem reapLoop_step {p : BufPtr} (oldest : (s.send side).swRing (s.send side).sendHead = some p)
    (n : Nat) : reapLoop side (n + 1) s = reapLoop side n (s.reap side p) := by
  rw [reapLoop, oldest, deref_some, ok_bind]
  rfl

theorem reapLoop_entries {ps : List BufPtr} {lo : Nat} (n : Nat)
    (head : (s.send side).sendHead = lo % kNumTxRingEntries)
    (entries : ∀ j p, ps[j]? = some p →
      (s.send side).swRing ((lo + j) % kNumTxRingEntries) = some p) :
    reapLoop side (ps.length + n) s = reapLoop side n (ps.foldl (reap side) s) ∧
      (ps.foldl (reap side) s).send side =
        { s.send side with sendHead := (lo + ps.length) % kNumTxRingEntries } := by
  induction ps generalizing s lo with
  | nil =>
      rw [List.length_nil, Nat.zero_add, Nat.add_zero, ← head]
      exact ⟨rfl, rfl⟩
  | cons p ps ih =>
      have oldest : (s.send side).swRing (s.send side).sendHead = some p := by
        rw [head]
        exact entries 0 p rfl
      have headAfter : ((s.reap side p).send side).sendHead = (lo + 1) % kNumTxRingEntries := by
        rw [reap_send, head]
        exact Nat.mod_add_mod ..
      have further := ih headAfter fun j q there => by
        rw [reap_send, Nat.add_assoc, Nat.add_comm 1 j]
        exact entries (j + 1) q there
      rw [reap_send, Nat.add_right_comm, Nat.add_assoc] at further
      refine ⟨?_, further.2⟩
      rw [List.length_cons, Nat.add_right_comm, reapLoop_step oldest]
      exact further.1

theorem reapLoop_cases (n : Nat) (s : SoC α)
    (head : (s.send side).sendHead < kNumTxRingEntries) : ∃ ps : List BufPtr,
    (∀ j p, ps[j]? = some p →
      (s.send side).swRing (((s.send side).sendHead + j) % kNumTxRingEntries) = some p) ∧
    ((ps.length = n ∧ reapLoop side n s = .ok (ps.foldl (reap side) s) ∧
      ∃ sendHead, (ps.foldl (reap side) s).send side = { s.send side with sendHead := sendHead }) ∨
    ps.length < n ∧
      (s.send side).swRing (((s.send side).sendHead + ps.length) % kNumTxRingEntries) = none ∧
      reapLoop side n s = .error (.nullPointer, ps.foldl (reap side) s)) := by
  have here : (s.send side).sendHead = (s.send side).sendHead % kNumTxRingEntries :=
    (Nat.mod_eq_of_lt head).symm
  rcases entries_or_none
    (fun j => (s.send side).swRing (((s.send side).sendHead + j) % kNumTxRingEntries)) n with
    ⟨ps, length, entries⟩ | ⟨ps, short, entries, null⟩
  · obtain ⟨ran, send⟩ := reapLoop_entries 0 here entries
    subst length
    exact ⟨ps, entries, .inl ⟨rfl, ran, _, send⟩⟩
  · obtain ⟨more, rfl⟩ := Nat.exists_eq_add_of_lt short
    obtain ⟨ran, send⟩ := reapLoop_entries (more + 1) here entries
    refine ⟨ps, entries, .inr ⟨short, null, ?_⟩⟩
    rw [Nat.add_assoc, ran, reapLoop, send]
    simp only
    rw [null]
    rfl

def mount (side : Side) (s : SoC α) (m : BufPtr) : SoC α :=
  (s.setState m .kPOSTED).setSend side { s.send side with
    sendSgl := Function.update (s.send side).sendSgl (s.send side).sendTail
      ⟨(s.bufs m).buf, (s.bufs m).length, (s.bufs m).lkey⟩
    swRing := Function.update (s.send side).swRing (s.send side).sendTail (some m)
    sendTail := ((s.send side).sendTail + 1) % kNumTxRingEntries
    freeSendWrNum := (s.send side).freeSendWrNum - 1 }

@[simp] theorem mount_send (s : SoC α) (m : BufPtr) : (s.mount side m).send side =
    { s.send side with
      sendSgl := Function.update (s.send side).sendSgl (s.send side).sendTail
        ⟨(s.bufs m).buf, (s.bufs m).length, (s.bufs m).lkey⟩
      swRing := Function.update (s.send side).swRing (s.send side).sendTail (some m)
      sendTail := ((s.send side).sendTail + 1) % kNumTxRingEntries
      freeSendWrNum := (s.send side).freeSendWrNum - 1 } :=
  setSend_send ..

theorem mountLoop_step {m : BufPtr} {tx nbTxRes : Nat}
    (free : 0 < (s.send side).freeSendWrNum)
    (entry : (s.send side).txQueue (tx + nbTxRes) = some m) (left : Nat) (tailWr : Option Nat) :
    mountLoop side tx (left + 1) nbTxRes tailWr s =
      mountLoop side tx left (nbTxRes + 1) (some (s.send side).sendTail) (s.mount side m) := by
  have marked : (s.setState m .kPOSTED).bufs m = { s.bufs m with state := .kPOSTED } :=
    Function.update_self ..
  rw [mountLoop, if_pos free, entry, deref_some, ok_bind]
  simp only [marked]
  rfl

theorem mountLoop_full {tx left nbTxRes : Nat} {tailWr : Option Nat}
    (full : (s.send side).freeSendWrNum = 0) :
    mountLoop side tx left nbTxRes tailWr s = .ok (nbTxRes, tailWr, s) := by
  cases left with
  | zero => rfl
  | succ left => rw [mountLoop, if_neg (by omega)]

theorem mountLoop_entries {ms : List BufPtr} {tx nbTxRes tail : Nat} (left : Nat)
    (tailWr : Option Nat) (sendTail : (s.send side).sendTail = tail % kNumTxRingEntries)
    (free : ms.length ≤ (s.send side).freeSendWrNum)
    (entries : ∀ i m, ms[i]? = some m → (s.send side).txQueue (tx + (nbTxRes + i)) = some m) :
    mountLoop side tx (ms.length + left) nbTxRes tailWr s =
        mountLoop side tx left (nbTxRes + ms.length)
          (if ms = [] then tailWr else some ((tail + ms.length - 1) % kNumTxRingEntries))
          (ms.foldl (mount side) s) ∧
      ∃ sendSgl swRing, (ms.foldl (mount side) s).send side = { s.send side with
        sendSgl := sendSgl
        swRing := swRing
        sendTail := (tail + ms.length) % kNumTxRingEntries
        freeSendWrNum := (s.send side).freeSendWrNum - ms.length } := by
  induction ms generalizing s nbTxRes tail tailWr with
  | nil =>
      rw [List.length_nil, Nat.zero_add, Nat.add_zero, Nat.add_zero, ← sendTail, if_pos rfl]
      exact ⟨rfl, _, _, rfl⟩
  | cons m ms ih =>
      rw [List.length_cons] at free
      have tailAfter : ((s.mount side m).send side).sendTail = (tail + 1) % kNumTxRingEntries := by
        rw [mount_send, sendTail]
        exact Nat.mod_add_mod ..
      have entriesAfter : ∀ i p, ms[i]? = some p →
          ((s.mount side m).send side).txQueue (tx + (nbTxRes + 1 + i)) = some p := by
        intro i p there
        rw [mount_send, Nat.add_assoc, Nat.add_comm 1 i]
        exact entries (i + 1) p there
      have further := ih (some (s.send side).sendTail) tailAfter
        (by rw [mount_send]; exact Nat.le_sub_of_add_le free) entriesAfter
      have last : (if ms = [] then some (s.send side).sendTail
          else some ((tail + 1 + ms.length - 1) % kNumTxRingEntries)) =
            some ((tail + (m :: ms).length - 1) % kNumTxRingEntries) := by
        rw [List.length_cons]
        split_ifs with only
        · rw [only, sendTail]
          rfl
        · rw [Nat.add_right_comm, Nat.add_assoc]
      obtain ⟨ran, sendSgl, swRing, send⟩ := further
      have first : (s.send side).txQueue (tx + nbTxRes) = some m := entries 0 m rfl
      rw [last, Nat.add_right_comm, Nat.add_assoc nbTxRes] at ran
      refine ⟨?_, sendSgl, swRing, ?_⟩
      · rw [List.length_cons, Nat.add_right_comm, mountLoop_step (by omega) first,
          if_neg (List.cons_ne_nil m ms)]
        exact ran
      · rw [List.foldl_cons, send, mount_send, List.length_cons, Nat.add_right_comm, Nat.add_assoc,
          Nat.add_comm ms.length 1, ← Nat.sub_sub]

theorem mountLoop_run {ms : List BufPtr} {tx left nbTxRes tail : Nat} (tailWr : Option Nat)
    (sendTail : (s.send side).sendTail = tail % kNumTxRingEntries)
    (count : ms.length = min (s.send side).freeSendWrNum left)
    (entries : ∀ i m, ms[i]? = some m → (s.send side).txQueue (tx + (nbTxRes + i)) = some m) :
    mountLoop side tx left nbTxRes tailWr s = .ok (nbTxRes + ms.length,
        if ms = [] then tailWr else some ((tail + ms.length - 1) % kNumTxRingEntries),
        ms.foldl (mount side) s) ∧
      ∃ sendSgl swRing, (ms.foldl (mount side) s).send side = { s.send side with
        sendSgl := sendSgl
        swRing := swRing
        sendTail := (tail + ms.length) % kNumTxRingEntries
        freeSendWrNum := (s.send side).freeSendWrNum - ms.length } := by
  obtain ⟨more, rfl⟩ : ∃ more, left = ms.length + more := ⟨left - ms.length, by omega⟩
  obtain ⟨ran, sendSgl, swRing, send⟩ := mountLoop_entries more tailWr sendTail (by omega) entries
  refine ⟨ran.trans ?_, sendSgl, swRing, send⟩
  cases more with
  | zero => rfl
  | succ more =>
      apply mountLoop_full
      rw [send]
      simp only
      omega

theorem mountLoop_cases (tx left nbTxRes : Nat) (tailWr : Option Nat) (s : SoC α) {tail : Nat}
    (sendTail : (s.send side).sendTail = tail % kNumTxRingEntries) : ∃ ms : List BufPtr,
    (∀ i m, ms[i]? = some m → (s.send side).txQueue (tx + (nbTxRes + i)) = some m) ∧
    ((ms.length = min (s.send side).freeSendWrNum left ∧
      mountLoop side tx left nbTxRes tailWr s = .ok (nbTxRes + ms.length,
        if ms = [] then tailWr else some ((tail + ms.length - 1) % kNumTxRingEntries),
        ms.foldl (mount side) s)) ∨
    ms.length < min (s.send side).freeSendWrNum left ∧
      (s.send side).txQueue (tx + (nbTxRes + ms.length)) = none ∧
      mountLoop side tx left nbTxRes tailWr s = .error (.nullPointer, ms.foldl (mount side) s)) := by
  rcases entries_or_none (fun i => (s.send side).txQueue (tx + (nbTxRes + i)))
    (min (s.send side).freeSendWrNum left) with ⟨ms, length, entries⟩ | ⟨ms, short, entries, null⟩
  · exact ⟨ms, entries, .inl ⟨length, (mountLoop_run tailWr sendTail length entries).1⟩⟩
  · obtain ⟨more, rfl⟩ : ∃ more, left = ms.length + (more + 1) := ⟨left - ms.length - 1, by omega⟩
    obtain ⟨ran, _, _, send⟩ := mountLoop_entries (more + 1) tailWr sendTail (by omega) entries
    refine ⟨ms, entries, .inr ⟨short, null, ?_⟩⟩
    rw [ran, mountLoop, send]
    simp only
    rw [if_pos (by omega), Nat.add_assoc, null]
    rfl

end SoC
end Nicc.Soc

import Nicc.Dpa.Calls
import Nicc.Dpa.DeallocateChannel

/-!
# What a channel of the DPA frees and destroys

The runs of one `allocate_channel` and of the attempts at `deallocate_channel` that follow it. Some
members are never set, some keep what has been freed, and `deallocate_channel` goes by whether a
member is null.
-/

namespace Nicc.Dpa.Channel
open Lib Step

def retry : List Attempt → Machine → Machine
  | [], m => m
  | a :: rest, m =>
      let (retval, m) := deallocateChannel a m
      if retval = some .NICC_SUCCESS then m else retry rest m

-- An assertion that fails in `allocate_channel` ends the program.
def lifetime (d : Driver) (types : Side → ChannelType) (attempts : List Attempt)
    (m : Machine) : Machine :=
  let (retval, m) := allocateChannel d types m
  if retval = none then m else retry attempts m

def allCells : List (Slot × Bool) := queueCells ++ metadataCells

/-- Whatever an attempt gets to is null or owned. One that is refused, with another one behind it, is
refused before it gives back `dev_queues`, and has cleared what it has released. -/
def Careful (owned : Slot → Prop) : List Attempt → (Slot → Bool) → Prop
  | [], _ => True
  | a :: later, holds =>
      let stops := fun c : Slot × Bool => holds c.1 && a.refuses c.1
      (∀ c ∈ Ledger.reached stops allCells, holds c.1 = true → owned c.1) ∧
      (later = [] ∨ (∀ c ∈ allCells, stops c = false) ∨
        ((∃ c ∈ queueCells, stops c = true) ∧
          (∀ c ∈ allCells.takeWhile (! stops ·), holds c.1 = true → c.2 = true) ∧
          Careful owned later fun slot =>
            holds slot && slot ∈ (allCells.dropWhile (! stops ·)).map Prod.fst))

instance decidableCareful (owned : Slot → Prop) [DecidablePred owned] :
    ∀ attempts holds, Decidable (Careful owned attempts holds)
  | [], _ => inferInstanceAs (Decidable True)
  | _ :: later, _ =>
      have := decidableCareful owned later
      inferInstanceAs (Decidable (_ ∧ (_ ∨ _ ∨ (_ ∧ _ ∧ Careful owned later _))))

structure Pending (owned : Slot → Prop) (holds : Slot → Bool) (m : Machine) : Prop where
  valid : m.Valid Slot.kind
  agrees : ∀ c ∈ allCells, holds c.1 = true ↔ m.cell c.1 ≠ 0
  made : ∀ c ∈ allCells, holds c.1 = true → owned c.1 → c.1 ∈ m.made

def withoutDevQueues (a : Attempt) (m : Machine) : Machine :=
  (Ledger.walk Slot.kind a.refuses queueCells m).2.overwrite (·.field.inDevQueues) a.leftBehind

section
variable {a : Attempt} {m : Machine}

theorem deallocateChannel_refused
    (refused : (Ledger.walk Slot.kind a.refuses queueCells m).1 = false) :
    deallocateChannel a m =
      (some .NICC_ERROR_HARDWARE_FAILURE, (Ledger.walk Slot.kind a.refuses queueCells m).2) := by
  rw [deallocateChannel_eq]
  simp [Step.andThen, releaseAll, hardwareCheck, refused]

theorem deallocateChannel_through
    (through : (Ledger.walk Slot.kind a.refuses queueCells m).1 = true) :
    deallocateChannel a m = releaseAll a metadataCells (withoutDevQueues a m) := by
  have queues : releaseAll a queueCells m =
      (some .NICC_SUCCESS, (Ledger.walk Slot.kind a.refuses queueCells m).2) := by
    simp [releaseAll, hardwareCheck, through]
  rw [deallocateChannel_eq, Step.andThen, queues]
  rfl

theorem metadata_apart : ∀ c ∈ metadataCells,
    c.1 ∉ queueCells.map Prod.fst ∧ c.1.field.inDevQueues = false := by
  decide

theorem withoutDevQueues_metadata : ∀ c ∈ metadataCells,
    (withoutDevQueues a m).cell c.1 = m.cell c.1 ∧
      (c.1 ∈ (withoutDevQueues a m).made ↔ c.1 ∈ m.made) := by
  intro c member
  obtain ⟨notQueue, outside⟩ := metadata_apart c member
  have untouched : (Ledger.walk Slot.kind a.refuses queueCells m).2.cell c.1 = m.cell c.1 ∧
      (c.1 ∈ (Ledger.walk Slot.kind a.refuses queueCells m).2.made ↔ c.1 ∈ m.made) :=
    Ledger.walk_other notQueue
  simpa [withoutDevQueues, Ledger.overwrite, outside] using untouched

variable {owned : Slot → Prop} {holds : Slot → Bool}

theorem Pending.queues (pending : Pending owned holds m) :
    ∀ c ∈ queueCells, holds c.1 = true ↔ m.cell c.1 ≠ 0 :=
  fun c member => pending.agrees c (List.mem_append_left _ member)

theorem Pending.metadata (pending : Pending owned holds m) (a : Attempt) :
    ∀ c ∈ metadataCells, holds c.1 = true ↔ (withoutDevQueues a m).cell c.1 ≠ 0 := by
  intro c member
  rw [(withoutDevQueues_metadata c member).1]
  exact pending.agrees c (List.mem_append_right _ member)

theorem Pending.sound (pending : Pending owned holds m) {c : Slot × Bool} (member : c ∈ allCells)
    (careful : holds c.1 = true → owned c.1) : m.Sound c.1 := by
  by_cases held : holds c.1 = true
  · exact .inr (pending.made c member held (careful held))
  · exact .inl (by simpa [held] using pending.agrees c member)

theorem Pending.through_queues (pending : Pending owned holds m) :
    (Ledger.walk Slot.kind a.refuses queueCells m).1 = true ↔
      ∀ c ∈ queueCells, (holds c.1 && a.refuses c.1) = false :=
  Ledger.walk_through queueCells_distinct pending.queues

theorem Pending.attempt_valid (pending : Pending owned holds m)
    (careful : ∀ c ∈ Ledger.reached (fun c => holds c.1 && a.refuses c.1) allCells,
      holds c.1 = true → owned c.1) :
    (deallocateChannel a m).2.Valid Slot.kind := by
  have sound : ∀ c ∈ Ledger.reached (fun c => holds c.1 && a.refuses c.1) allCells, m.Sound c.1 :=
    fun c member => pending.sound (Ledger.mem_of_mem_reached member) (careful c member)
  have queues : (Ledger.walk Slot.kind a.refuses queueCells m).2.Valid Slot.kind :=
    Ledger.walk_valid queueCells_distinct pending.queues pending.valid fun c member =>
      sound c (Ledger.mem_reached_append member metadataCells)
  cases through : (Ledger.walk Slot.kind a.refuses queueCells m).1 with
  | false =>
      rw [deallocateChannel_refused through]
      exact queues
  | true =>
      rw [deallocateChannel_through through]
      refine Ledger.walk_valid metadataCells_distinct (pending.metadata a) (queues.overwrite _ _)
        fun c member => ?_
      obtain ⟨kept, made⟩ :=
        withoutDevQueues_metadata (a := a) (m := m) c (Ledger.mem_of_mem_reached member)
      have soundBefore : m.Sound c.1 :=
        sound c (Ledger.mem_reached_behind (pending.through_queues.mp through) member)
      exact soundBefore.imp kept.trans made.mpr

theorem Pending.attempt_success (pending : Pending owned holds m)
    (through : ∀ c ∈ allCells, (holds c.1 && a.refuses c.1) = false) :
    (deallocateChannel a m).1 = some .NICC_SUCCESS := by
  obtain ⟨queues, metadata⟩ := List.forall_mem_append.mp through
  have walked : (Ledger.walk Slot.kind a.refuses metadataCells (withoutDevQueues a m)).1 = true :=
    (Ledger.walk_through metadataCells_distinct (pending.metadata a)).mpr metadata
  rw [deallocateChannel_through (pending.through_queues.mpr queues)]
  simp [releaseAll, hardwareCheck, walked]

theorem Pending.attempt_refused (pending : Pending owned holds m)
    (refused : ∃ c ∈ queueCells, (holds c.1 && a.refuses c.1) = true)
    (cleared : ∀ c ∈ allCells.takeWhile (fun c => !(holds c.1 && a.refuses c.1)),
      holds c.1 = true → c.2 = true)
    (valid : (deallocateChannel a m).2.Valid Slot.kind) :
    (deallocateChannel a m).1 = some .NICC_ERROR_HARDWARE_FAILURE ∧
      Pending owned (fun slot => holds slot &&
        slot ∈ (allCells.dropWhile fun c => !(holds c.1 && a.refuses c.1)).map Prod.fst)
        (deallocateChannel a m).2 := by
  let passes : Slot × Bool → Bool := fun c => !(holds c.1 && a.refuses c.1)
  obtain ⟨stop, stopQueue, stopped⟩ := refused
  have walked : (Ledger.walk Slot.kind a.refuses queueCells m).1 = false := by
    rw [← Bool.not_eq_true, pending.through_queues]
    exact fun all => by simp [all stop stopQueue] at stopped
  have some_ : queueCells.dropWhile passes ≠ [] := by
    intro none
    have passed : passes stop = true := List.dropWhile_eq_nil_iff.mp none stop stopQueue
    simp only [passes, stopped, Bool.not_true, Bool.false_eq_true] at passed
  have left : allCells.dropWhile passes = queueCells.dropWhile passes ++ metadataCells := by
    rw [allCells, List.dropWhile_append, if_neg (by simpa using some_)]
  have front : allCells.takeWhile passes = queueCells.takeWhile passes := by
    have whole : allCells.takeWhile passes ++ allCells.dropWhile passes =
        queueCells.takeWhile passes ++ (queueCells.dropWhile passes ++ metadataCells) := by
      rw [List.takeWhile_append_dropWhile, ← List.append_assoc, List.takeWhile_append_dropWhile,
        allCells]
    rw [left] at whole
    exact List.append_cancel_right whole
  obtain ⟨clears, keeps⟩ :
      (∀ c ∈ queueCells.takeWhile passes, (holds c.1 = true → c.2 = true) →
        (Ledger.walk Slot.kind a.refuses queueCells m).2.cell c.1 = 0) ∧ _ :=
    Ledger.walk_cells queueCells_distinct pending.queues
  have unchanged : ∀ c ∈ allCells.dropWhile passes,
      (Ledger.walk Slot.kind a.refuses queueCells m).2.cell c.1 = m.cell c.1 ∧
        (c.1 ∈ (Ledger.walk Slot.kind a.refuses queueCells m).2.made ↔ c.1 ∈ m.made) := by
    rw [left, List.forall_mem_append]
    exact ⟨keeps, fun c member => Ledger.walk_other (metadata_apart c member).1⟩
  rw [deallocateChannel_refused walked] at valid ⊢
  refine ⟨rfl, valid, fun c member => ?_, fun c member held isOwned => ?_⟩
  · rw [← List.takeWhile_append_dropWhile (p := passes) (l := allCells)] at member
    rcases List.mem_append.mp member with before | after
    · have distinct := cells_distinct
      rw [← allCells, ← List.takeWhile_append_dropWhile (p := passes) (l := allCells),
        List.map_append] at distinct
      have gone : c.1 ∉ (allCells.dropWhile passes).map Prod.fst := fun there =>
        (List.nodup_append.mp distinct).2.2 _ (List.mem_map_of_mem before) _ there rfl
      have null := clears c (front ▸ before) (cleared c before)
      rw [decide_eq_false gone, Bool.and_false]
      exact iff_of_false Bool.false_ne_true (not_not.mpr null)
    · have there : c.1 ∈ (allCells.dropWhile passes).map Prod.fst := List.mem_map_of_mem after
      rw [decide_eq_true there, Bool.and_true, (unchanged c after).1]
      exact pending.agrees c (List.dropWhile_subset _ after)
  · obtain ⟨heldBefore, there⟩ := Bool.and_eq_true_iff.mp held
    obtain ⟨cell, after, same⟩ := List.mem_map.mp (of_decide_eq_true there)
    have made := (unchanged cell after).2
    rw [same] at made
    exact made.mpr (pending.made c member heldBefore isOwned)

theorem retry_valid {attempts : List Attempt} (pending : Pending owned holds m)
    (careful : Careful owned attempts holds) : (retry attempts m).Valid Slot.kind := by
  induction attempts generalizing m holds with
  | nil => exact pending.valid
  | cons a later ih =>
      obtain ⟨reached, again⟩ := careful
      have validNext : (deallocateChannel a m).2.Valid Slot.kind := pending.attempt_valid reached
      rw [retry]
      dsimp only
      rcases again with rfl | through | ⟨refused, cleared, carefulNext⟩
      · split_ifs <;> exact validNext
      · rw [if_pos (pending.attempt_success through)]
        exact validNext
      · obtain ⟨error, pendingNext⟩ := pending.attempt_refused refused cleared validNext
        rw [if_neg (by simp [error])]
        exact ih pendingNext carefulNext

end

/-- A channel that is released with care frees and destroys only what it owns. -/
theorem lifetime_owned (d : Driver) (types : Side → ChannelType) (live : Finset (Kind × Nat))
    (members : Slot → Nat) (attempts : List Attempt)
    (careful : ¬ d.Stops types →
      Careful (Owned (d.served types) (d.refused types)) attempts
        (d.Held members (d.served types) (d.refused types) ·)) :
    ∀ r ∈ (lifetime d types attempts (constructed live members)).releases, r.2 = true := by
  have valid : (allocateChannel d types (constructed live members)).2.Valid Slot.kind :=
    allocateChannel_keeps_valid types _ (Ledger.start_valid live _)
  obtain ⟨filled, stops⟩ := allocateChannel_filled d types live members
  unfold lifetime
  dsimp only
  split_ifs with stopped
  · exact valid.proper
  · have pending : Pending (Owned (d.served types) (d.refused types))
        (d.Held members (d.served types) (d.refused types) ·)
        (allocateChannel d types (constructed live members)).2 :=
      ⟨valid, fun c _ => decide_eq_true_iff.trans (filled.held c.1).symm,
        fun c _ _ isOwned => filled.made c.1 isOwned⟩
    exact (retry_valid pending (careful fun ended => stopped (stops.mpr ended))).proper

def sqLeft : Slot → Nat := fun slot => if slot = ⟨.prior, .wqPtr .sq⟩ then 24 else 0

theorem rdma_sq_not_owned :
    (((.sq, 24), false) : (Kind × Nat) × Bool) ∈ (lifetime grantingDriver (fun _ => .RDMA)
      [grantingAttempt] (constructed ∅ sqLeft)).releases := by
  decide

def mixedTypes : Side → ChannelType
  | .prior => .RDMA
  | .next => .ETHERNET

def refusesNextCq : Attempt := ⟨(· = ⟨.next, .cqPtr .sq⟩), fun _ => 0⟩

def dirty : Slot → Nat := fun slot =>
  if slot.side = .prior ∧ slot.field ∈ [.wqPtr .sq, .wqPtr .rq] then 0 else 24

-- The second attempt succeeds, and the third is not made.
theorem mixed_owned :
    (lifetime grantingDriver mixedTypes [refusesNextCq, grantingAttempt, grantingAttempt]
      (constructed ∅ dirty)).releases.all Prod.snd = true := by
  apply List.all_eq_true.mpr
  exact lifetime_owned grantingDriver mixedTypes ∅ dirty
    [refusesNextCq, grantingAttempt, grantingAttempt] (by decide +kernel)

end Nicc.Dpa.Channel

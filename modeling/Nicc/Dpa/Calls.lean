import Nicc.Dpa.AllocateChannel
import Mathlib.Data.List.TakeWhile

namespace Nicc.Dpa.Channel
open Lib Step

inductive Call
  | create (slot : Slot)
  | callocCqRing (side : Side) (q : Queue)
  | callocRqRing (side : Side)
  | copyRqRing (side : Side)
  | copyDbr (side : Side)
  | knownType (side : Side)
  | infoBlank (side : Side)
  deriving DecidableEq, Repr

def cqCalls (side : Side) (q : Queue) : List Call :=
  [.create ⟨side, .cqDbr q⟩, .callocCqRing side q, .create ⟨side, .cqRing q⟩,
    .create ⟨side, .cqPtr q⟩]

def wqCalls (side : Side) (q : Queue) : List Call :=
  [.create ⟨side, .wqd q⟩, .create ⟨side, .wqRing q⟩, .create ⟨side, .wqDbr q⟩]

def rqRingCalls (side : Side) : List Call := [.callocRqRing side, .copyRqRing side]

def qpCalls (side : Side) : ChannelType → List Call
  | .RDMA =>
      [.create ⟨side, .qpDbr⟩, .create ⟨side, .qpdMbuf⟩, .create ⟨side, .qpRing⟩,
        .create ⟨side, .qpdMkey⟩] ++ rqRingCalls side ++ [.create ⟨side, .qpPtr⟩]
  | .ETHERNET =>
      wqCalls side .sq ++ [.create ⟨side, .wqPtr .sq⟩, .create ⟨side, .mkey .sq⟩] ++
        wqCalls side .rq ++ [.create ⟨side, .mkey .rq⟩] ++ rqRingCalls side ++
        [.create ⟨side, .wqPtr .rq⟩, .copyDbr side]
  | _ => [.knownType side]

def infoCalls (side : Side) : ChannelType → List Call
  | .RDMA => [.infoBlank side]
  | _ => []

def calls (types : Side → ChannelType) : List Call :=
  cqCalls .prior .sq ++ cqCalls .next .sq ++ cqCalls .prior .rq ++ cqCalls .next .rq ++
    qpCalls .prior (types .prior) ++ qpCalls .next (types .next) ++
    infoCalls .prior (types .prior) ++ infoCalls .next (types .next) ++
    [.create ⟨.prior, .metadata⟩, .create ⟨.next, .metadata⟩]

/-- What the error path of `__allocate_wq_memory` frees and leaves in the structure. -/
def undone : Option Call → List Slot
  | some (.create ⟨side, .wqRing q⟩) => [⟨side, .wqd q⟩]
  | some (.create ⟨side, .wqDbr q⟩) => [⟨side, .wqd q⟩, ⟨side, .wqRing q⟩]
  | _ => []

namespace Driver

variable (d : Driver)

def serves : Call → Bool
  | .create slot => d.grants slot
  | .callocCqRing side q => d.callocCqRing side q
  | .callocRqRing side => d.callocRqRing side
  | .copyRqRing side => d.copyRqRing side
  | .copyDbr side => d.copyDbr side
  | .knownType _ => false
  | .infoBlank side => d.infoBlank side

def stops : Call → Bool
  | .callocRqRing _ | .infoBlank _ => true
  | call => !(undone (some call)).all d.undoes

def served (types : Side → ChannelType) : List Call := (calls types).takeWhile d.serves

def refused (types : Side → ChannelType) : Option Call := (calls types).find? (! d.serves ·)

def Stops (types : Side → ChannelType) : Prop := (d.refused types).any d.stops = true

instance (types : Side → ChannelType) : Decidable (d.Stops types) :=
  inferInstanceAs (Decidable (_ = true))

/-- A member is set by the creation that fills it, keeps what was there when none does, and is in
`dev_queues` null before. -/
def Held (members : Slot → Nat) (served : List Call) (refused : Option Call) (slot : Slot) : Prop :=
  .create slot ∈ served ∨ (slot.field.inDevQueues = false ∧ members slot ≠ 0 ∧
    ¬ (refused = some (.create slot) ∧ d.clears slot = true))

instance (members : Slot → Nat) (served : List Call) (refused : Option Call) (slot : Slot) :
    Decidable (d.Held members served refused slot) := inferInstanceAs (Decidable (_ ∨ _))

end Driver

def Owned (served : List Call) (refused : Option Call) (slot : Slot) : Prop :=
  .create slot ∈ served ∧ slot ∉ undone refused

instance (served : List Call) (refused : Option Call) (slot : Slot) :
    Decidable (Owned served refused slot) := inferInstanceAs (Decidable (_ ∧ _))

structure Filled (d : Driver) (members : Slot → Nat) (served : List Call) (refused : Option Call)
    (m : Machine) : Prop where
  held : ∀ slot, m.cell slot ≠ 0 ↔ d.Held members served refused slot
  made : ∀ slot, Owned served refused slot → slot ∈ m.made

section
variable {d : Driver} {members : Slot → Nat} {served : List Call} {refused : Option Call}
variable {m : Machine} {slot : Slot}

theorem constructed_filled (d : Driver) (live : Finset (Kind × Nat)) (members : Slot → Nat) :
    Filled d members [] none (constructed live members) where
  held slot := by
    cases inside : slot.field.inDevQueues <;>
      simp [constructed, Ledger.start, Driver.Held, inside]
  made slot owned := absurd owned.1 List.not_mem_nil

theorem Filled.null (filled : Filled d members served refused m)
    (inside : slot.field.inDevQueues = true) (absent : .create slot ∉ served) : m.cell slot = 0 := by
  by_contra nonzero
  rcases (filled.held slot).mp nonzero with there | ⟨outside, -⟩
  · exact absent there
  · rw [inside] at outside
    cases outside

theorem Filled.overwrite (filled : Filled d members served refused m) (null : m.cell slot = 0)
    (absent : .create slot ∉ served) :
    Filled d members served refused (m.overwrite (· = slot) fun _ => 0) := by
  have cells : (m.overwrite (· = slot) fun _ => 0).cell = m.cell := by
    funext other
    by_cases same : other = slot
    · simp [Ledger.overwrite, same, null]
    · simp [Ledger.overwrite, same]
  refine ⟨fun other => by rw [cells]; exact filled.held other, fun other owned => ?_⟩
  have apart : other ≠ slot := fun same => absent (same ▸ owned.1)
  exact Finset.mem_filter.mpr ⟨filled.made other owned, by simpa using apart⟩

theorem Filled.create (filled : Filled d members served none m) (slot : Slot) :
    Filled d members (served ++ [.create slot]) none
      (m.create Slot.kind slot (d.handle slot m.live)) := by
  refine ⟨fun other => ?_, fun other owned => ?_⟩
  · by_cases same : other = slot
    · subst same
      simp [Ledger.create, Driver.Held, (d.fresh other m.live).1]
    · have held := filled.held other
      simpa [Ledger.create, Function.update_of_ne same, Driver.Held, same] using held
  · by_cases same : other = slot
    · rw [same]
      exact Finset.mem_insert_self _ _
    · have old : Owned served none other := by simpa [Owned, same] using owned
      exact Finset.mem_insert_of_mem (filled.made other old)

theorem Filled.refuse (filled : Filled d members served none m) (absent : .create slot ∉ served) :
    Filled d members served (some (.create slot))
      (if d.clears slot then m.overwrite (· = slot) (fun _ => 0) else m) := by
  have old {other : Slot} (owned : Owned served (some (.create slot)) other) :
      other ∈ m.made ∧ other ≠ slot :=
    ⟨filled.made other ⟨owned.1, List.not_mem_nil⟩, fun same => absent (same ▸ owned.1)⟩
  cases clears : d.clears slot with
  | true =>
      refine ⟨fun other => ?_, fun other owned => ?_⟩
      · by_cases same : other = slot
        · subst same
          simp [Ledger.overwrite, Driver.Held, absent, clears]
        · have held := filled.held other
          simpa [Ledger.overwrite, Driver.Held, same, Ne.symm same] using held
      · obtain ⟨made, apart⟩ := old owned
        exact Finset.mem_filter.mpr ⟨made, by simpa using apart⟩
  | false =>
      refine ⟨fun other => ?_, fun other owned => (old owned).1⟩
      have held := filled.held other
      by_cases same : other = slot
      · subst same
        simpa [Driver.Held, clears] using held
      · simpa [Driver.Held, same, Ne.symm same] using held

theorem Filled.other (filled : Filled d members served none m) {call : Call}
    (check : ∀ slot, call ≠ .create slot) :
    Filled d members (served ++ [call]) none m ∧ Filled d members served (some call) m := by
  have apart (slot : Slot) : Call.create slot ≠ call := (check slot).symm
  refine ⟨⟨fun slot => ?_, fun slot owned => ?_⟩, ⟨fun slot => ?_, fun slot owned => ?_⟩⟩
  · simpa [Driver.Held, apart] using filled.held slot
  · exact filled.made slot (by simpa [Owned, apart] using owned)
  · simpa [Driver.Held, check] using filled.held slot
  · exact filled.made slot ⟨owned.1, List.not_mem_nil⟩

theorem Filled.undo (filled : Filled d members served refused m)
    (listed : m.cell slot ≠ 0 ↔ slot ∈ undone refused) :
    Filled d members served refused (undo d slot m).2 ∧ (undo d slot m).2.cell = m.cell ∧
      (undo d slot m).1 =
        if slot ∈ undone refused → d.undoes slot = true then some .NICC_SUCCESS else none := by
  rw [Channel.undo]
  by_cases null : m.cell slot = 0
  · have absent : slot ∉ undone refused := fun there => listed.mpr there null
    rw [if_pos null, if_pos fun there => absurd there absent]
    exact ⟨filled, rfl, rfl⟩
  · have there : slot ∈ undone refused := listed.mp null
    have cells : (m.release Slot.kind slot (d.undoes slot) false).cell = m.cell := by
      cases d.undoes slot <;> rfl
    rw [if_neg null]
    refine ⟨⟨fun other => by rw [cells]; exact filled.held other, fun other owned => ?_⟩, cells,
      if_congr ⟨fun granted _ => granted, fun granted => granted there⟩ rfl rfl⟩
    have apart : other ≠ slot := fun same => owned.2 (same ▸ there)
    exact (Ledger.mem_made_release_other apart _ _).mpr (filled.made other owned)

end

/-- A step that makes the calls `cs`, once those in `need` have been granted. The program ends with a
refused call for which `stops` holds. -/
def Follows (d : Driver) (members : Slot → Nat) (stops : Call → Bool) (need : List Call) (step : Step)
    (cs : List Call) : Prop :=
  ∀ done m, (done ++ cs).Nodup → (∀ c ∈ need, c ∈ done) → Filled d members done none m →
    Filled d members (done ++ cs.takeWhile d.serves) (cs.find? (! d.serves ·)) (step m).2 ∧
      ((step m).1 = some .NICC_SUCCESS ↔ ∀ c ∈ cs, d.serves c = true) ∧
      ((step m).1 = none ↔ (cs.find? (! d.serves ·)).any stops = true)

section
variable {d : Driver} {members : Slot → Nat} {stops : Call → Bool} {need : List Call}

theorem Follows.andThen {first next : Step} {cs ds : List Call}
    (one : Follows d members stops need first cs)
    (two : Follows d members stops (need ++ cs) next ds) :
    Follows d members stops need (first.andThen next) (cs ++ ds) := by
  intro done m distinct granted filled
  rw [← List.append_assoc] at distinct
  obtain ⟨filledFirst, success, ended⟩ :=
    one done m (List.nodup_append.mp distinct).1 granted filled
  by_cases all : ∀ c ∈ cs, d.serves c = true
  · have none : cs.find? (! d.serves ·) = none := by simpa using all
    rw [List.takeWhile_eq_self_iff.mpr all, none] at filledFirst
    have grantedNext : ∀ c ∈ need ++ cs, c ∈ done ++ cs := fun c there =>
      (List.mem_append.mp there).elim (fun old => List.mem_append_left _ (granted c old))
        (List.mem_append_right _)
    obtain ⟨filledNext, successNext, endedNext⟩ := two _ _ distinct grantedNext filledFirst
    rw [Step.andThen, if_pos (success.mpr all), List.takeWhile_append_of_pos all, List.find?_append,
      none, Option.none_or, ← List.append_assoc]
    exact ⟨filledNext, successNext.trans (by rw [List.forall_mem_append, and_iff_right all]), endedNext⟩
  · obtain ⟨c, there, refused⟩ : ∃ c ∈ cs, d.serves c = false := by simpa using all
    obtain ⟨call, found⟩ : ∃ call, cs.find? (! d.serves ·) = some call :=
      Option.isSome_iff_exists.mp (List.find?_isSome.mpr ⟨c, there, by simp [refused]⟩)
    have short : (cs ++ ds).takeWhile d.serves = cs.takeWhile d.serves := by
      rw [List.takeWhile_append, if_neg]
      intro same
      exact all (List.takeWhile_eq_self_iff.mp ((List.takeWhile_prefix _).eq_of_length same))
    rw [Step.andThen, if_neg fun ok => all (success.mp ok), short, List.find?_append, found,
      Option.some_or, ← found]
    refine ⟨filledFirst, iff_of_false (fun ok => all (success.mp ok)) fun each => ?_, ended⟩
    exact all fun c there => each c (List.mem_append_left _ there)

theorem create_follows (slot : Slot) (goes : stops (.create slot) = false) :
    Follows d members stops need (create d slot) [.create slot] := by
  intro done m distinct _ filled
  have absent : Call.create slot ∉ done := fun there =>
    (List.nodup_append.mp distinct).2.2 _ there _ List.mem_cons_self rfl
  cases granted : d.grants slot with
  | true =>
      have created := filled.create slot
      simpa [Channel.create, granted, Driver.serves] using created
  | false =>
      have refused := filled.refuse absent
      simpa [Channel.create, granted, Driver.serves, goes] using refused

theorem check_follows {call : Call} {failure : Option Retval} (other : ∀ slot, call ≠ .create slot)
    (failed : failure ≠ some .NICC_SUCCESS) (fatal : failure = none ↔ stops call = true) :
    Follows d members stops need (check (d.serves call) failure) [call] := by
  intro done m _ _ filled
  obtain ⟨passed, refused⟩ := filled.other other
  cases served : d.serves call with
  | true => simpa [check, served] using passed
  | false => simpa [check, served, failed, fatal] using refused

theorem assertAddress_follows {slot : Slot} (there : .create slot ∈ need) :
    Follows d members stops need (assertAddress slot) [] := by
  intro done m _ granted filled
  have nonzero : m.cell slot ≠ 0 := (filled.held slot).mpr (.inl (granted _ there))
  simpa [assertAddress, check, nonzero] using filled

theorem allocateCq_follows (side : Side) (q : Queue) :
    Follows d members d.stops need (allocateCq d side q) (cqCalls side q) := by
  have filled (need : List Call) : Follows d members d.stops need
      (check (d.callocCqRing side q) (some .NICC_ERROR_EXSAUSTED)) [.callocCqRing side q] :=
    check_follows (by simp) (by simp) (by simp [Driver.stops, undone])
  have memory : Follows d members d.stops need (allocateCqMemory d side q)
      [.create ⟨side, .cqDbr q⟩, .callocCqRing side q, .create ⟨side, .cqRing q⟩] :=
    (create_follows _ rfl).andThen ((filled _).andThen (create_follows _ rfl))
  exact memory.andThen (create_follows _ rfl)

theorem wqCalls_refused {side : Side} {q : Queue}
    (some_ : ¬ ∀ c ∈ wqCalls side q, d.serves c = true) :
    ∃ call, (wqCalls side q).find? (! d.serves ·) = some call ∧
      (∀ field ∈ [Field.wqd q, .wqRing q],
        .create ⟨side, field⟩ ∈ (wqCalls side q).takeWhile d.serves ↔
          ⟨side, field⟩ ∈ undone (some call)) ∧
      (d.stops call = false ↔ ∀ field ∈ [Field.wqd q, .wqRing q],
        ⟨side, field⟩ ∈ undone (some call) → d.undoes ⟨side, field⟩ = true) := by
  cases data : d.grants ⟨side, .wqd q⟩ with
  | false => exact ⟨.create ⟨side, .wqd q⟩, by simp [wqCalls, Driver.serves, Driver.stops, undone, data]⟩
  | true =>
      cases ring : d.grants ⟨side, .wqRing q⟩ with
      | false =>
          exact ⟨.create ⟨side, .wqRing q⟩, by
            simp [wqCalls, Driver.serves, Driver.stops, undone, data, ring]⟩
      | true =>
          have dbr : d.grants ⟨side, .wqDbr q⟩ = false := by
            simpa [wqCalls, Driver.serves, data, ring] using some_
          exact ⟨.create ⟨side, .wqDbr q⟩, by
            simp [wqCalls, Driver.serves, Driver.stops, undone, data, ring, dbr]⟩

theorem allocateWqMemory_follows (side : Side) (q : Queue) :
    Follows d members d.stops need (allocateWqMemory d side q) (wqCalls side q) := by
  intro done m distinct granted filled
  let data : Slot := ⟨side, .wqd q⟩
  let ring : Slot := ⟨side, .wqRing q⟩
  have absent : ∀ c ∈ wqCalls side q, c ∉ done := fun c listed there =>
    (List.nodup_append.mp distinct).2.2 c there c listed rfl
  have absentData : .create data ∉ done := absent _ (by simp [wqCalls, data])
  have absentRing : .create ring ∉ done := absent _ (by simp [wqCalls, ring])
  have cleared := filled.overwrite (filled.null rfl absentData) absentData
  have zeroed := cleared.overwrite (cleared.null rfl absentRing) absentRing
  have buffers : Follows d members (fun _ => false) [] ((create d data).andThen <|
      (create d ring).andThen <| allocateDbr d ⟨side, .wqDbr q⟩) (wqCalls side q) :=
    (create_follows _ rfl).andThen ((create_follows _ rfl).andThen (create_follows _ rfl))
  obtain ⟨filled, success, never⟩ := buffers done _ distinct (by simp) zeroed
  change Filled d members _ _ (allocateWqBuffers d side q m).2 at filled
  change (allocateWqBuffers d side q m).1 = _ ↔ _ at success never
  rw [allocateWqMemory]
  dsimp only
  by_cases all : ∀ c ∈ wqCalls side q, d.serves c = true
  · have none : (wqCalls side q).find? (! d.serves ·) = none := by simpa using all
    rw [none] at filled
    rw [if_pos (success.mpr all), none]
    exact ⟨filled, success, by simp [success.mpr all]⟩
  · have failed : (allocateWqBuffers d side q m).1 ≠ some .NICC_SUCCESS := fun ok => all (success.mp ok)
    have returned : (allocateWqBuffers d side q m).1 ≠ none := by
      intro ended
      have fatal := never.mp ended
      cases found : (wqCalls side q).find? (! d.serves ·) <;> simp [found] at fatal
    obtain ⟨call, found, made, goes⟩ := wqCalls_refused all
    rw [found] at filled
    have listed {field : Field} (known : field ∈ [Field.wqd q, .wqRing q]) :
        (allocateWqBuffers d side q m).2.cell ⟨side, field⟩ ≠ 0 ↔
          ⟨side, field⟩ ∈ undone (some call) := by
      have outside : Call.create ⟨side, field⟩ ∉ done := by
        rcases List.mem_pair.mp known with rfl | rfl
        · exact absentData
        · exact absentRing
      have inside : field.inDevQueues = true := by
        rcases List.mem_pair.mp known with rfl | rfl <;> rfl
      rw [filled.held, Driver.Held, List.mem_append, or_iff_right outside, made field known, inside]
      simp
    obtain ⟨filledOne, cells, first⟩ := filled.undo (listed (List.mem_pair.mpr (.inl rfl)))
    have listedRing : (undo d data (allocateWqBuffers d side q m).2).2.cell ring ≠ 0 ↔
        ring ∈ undone (some call) := by
      rw [cells]
      exact listed (List.mem_pair.mpr (.inr rfl))
    obtain ⟨filledTwo, -, second⟩ := filledOne.undo listedRing
    rw [if_neg failed, found, Option.any_some, ← Bool.not_eq_false, goes]
    simp only [List.mem_cons, List.not_mem_nil, or_false, forall_eq_or_imp, forall_eq]
    by_cases undoneData : data ∈ undone (some call) → d.undoes data = true
    · rw [if_pos undoneData] at first
      rw [Step.andThen, if_pos first, second]
      by_cases undoneRing : ring ∈ undone (some call) → d.undoes ring = true
      · rw [if_pos undoneRing, if_pos rfl]
        exact ⟨filledTwo, success, iff_of_false returned fun not => not ⟨undoneData, undoneRing⟩⟩
      · rw [if_neg undoneRing, if_neg (by simp)]
        exact ⟨filledTwo, iff_of_false (by simp) all, iff_of_true rfl fun both => undoneRing both.2⟩
    · rw [if_neg undoneData] at first
      have stopped : (undo d data (allocateWqBuffers d side q m).2).1 ≠ some .NICC_SUCCESS := by
        rw [first]
        simp
      rw [Step.andThen, if_neg stopped, if_neg stopped]
      exact ⟨filledOne, iff_of_false (by simp) all, iff_of_true rfl fun both => undoneData both.1⟩

theorem createDpaMkey_follows (side : Side) (daddr mkey : Field)
    (address : .create ⟨side, daddr⟩ ∈ need) (goes : d.stops (.create ⟨side, mkey⟩) = false) :
    Follows d members d.stops need (createDpaMkey d side daddr mkey) [.create ⟨side, mkey⟩] :=
  (assertAddress_follows address).andThen (create_follows _ goes)

theorem initRqRing_follows (side : Side) (ring data : Field)
    (there : .create ⟨side, ring⟩ ∈ need) (address : .create ⟨side, data⟩ ∈ need) :
    Follows d members d.stops need (initRqRing d side ring data) (rqRingCalls side) := by
  have copied (need : List Call) : Follows d members d.stops need
      (check (d.copyRqRing side) (some .NICC_ERROR_HARDWARE_FAILURE)) [.copyRqRing side] :=
    check_follows (by simp) (by simp) (by simp [Driver.stops, undone])
  have filled (need : List Call) : Follows d members d.stops need
      (check (d.callocRqRing side) none) [.callocRqRing side] :=
    check_follows (by simp) (by simp) (by simp [Driver.stops])
  have addressed : Follows d members d.stops (need ++ []) (assertAddress ⟨side, data⟩) [] :=
    assertAddress_follows (List.mem_append_left [] address)
  exact (assertAddress_follows there).andThen (addressed.andThen ((filled _).andThen (copied _)))

theorem createRdmaQp_follows (side : Side) :
    Follows d members d.stops need (createRdmaQp d side) (qpCalls side .RDMA) := by
  have memory (need : List Call) : Follows d members d.stops need (allocateQpMemory d side)
      [.create ⟨side, .qpdMbuf⟩, .create ⟨side, .qpRing⟩] :=
    (create_follows _ rfl).andThen (create_follows _ rfl)
  have steps : Follows d members d.stops need (createRdmaQp d side) _ :=
    (create_follows ⟨side, .qpDbr⟩ rfl).andThen <| (memory _).andThen <|
    (createDpaMkey_follows side .qpdMbuf .qpdMkey (by simp) rfl).andThen <|
    (initRqRing_follows side .qpRing .qpdMbuf (by simp) (by simp)).andThen <|
    create_follows ⟨side, .qpPtr⟩ rfl
  exact steps

theorem createEthernetQp_follows (side : Side) :
    Follows d members d.stops need (createEthernetQp d side) (qpCalls side .ETHERNET) := by
  have copied (need : List Call) : Follows d members d.stops need
      (check (d.copyDbr side) (some .NICC_ERROR_HARDWARE_FAILURE)) [.copyDbr side] :=
    check_follows (by simp) (by simp) (by simp [Driver.stops, undone])
  have steps : Follows d members d.stops need (createEthernetQp d side) _ :=
    (allocateWqMemory_follows side .sq).andThen <|
    (create_follows ⟨side, .wqPtr .sq⟩ rfl).andThen <|
    (createDpaMkey_follows side (.wqd .sq) (.mkey .sq) (by simp [wqCalls]) rfl).andThen <|
    (allocateWqMemory_follows side .rq).andThen <|
    (createDpaMkey_follows side (.wqd .rq) (.mkey .rq) (by simp [wqCalls]) rfl).andThen <|
    (initRqRing_follows side (.wqRing .rq) (.wqd .rq) (by simp [wqCalls])
      (by simp [wqCalls])).andThen <|
    (create_follows ⟨side, .wqPtr .rq⟩ rfl).andThen (copied _)
  exact steps

theorem createQp_follows (side : Side) (type : ChannelType) :
    Follows d members d.stops need (createQp d side type) (qpCalls side type) := by
  have unknown : Follows d members d.stops need
      (check false (some .NICC_ERROR_NOT_FOUND)) [.knownType side] :=
    check_follows (by simp) (by simp) (by simp [Driver.stops, undone])
  cases type with
  | UNKNOWN_TYPE => exact unknown
  | SHM => exact unknown
  | RDMA => exact createRdmaQp_follows side
  | ETHERNET => exact createEthernetQp_follows side

theorem setLocalQpInfo_follows (side : Side) (type : ChannelType) :
    Follows d members d.stops need (setLocalQpInfo d side type) (infoCalls side type) := by
  have skipped : Follows d members d.stops need (check true none) [] :=
    fun done m _ _ filled => by simpa [check] using filled
  have blank : Follows d members d.stops need (check (d.infoBlank side) none) [.infoBlank side] :=
    check_follows (by simp) (by simp) (by simp [Driver.stops])
  cases type with
  | RDMA => simpa [setLocalQpInfo, infoCalls] using blank
  | UNKNOWN_TYPE | SHM | ETHERNET => simpa [setLocalQpInfo, infoCalls] using skipped

theorem allocateChannel_follows (types : Side → ChannelType) :
    Follows d members d.stops [] (allocateChannel d types) (calls types) := by
  have steps : Follows d members d.stops [] (allocateChannel d types) _ :=
    (allocateCq_follows .prior .sq).andThen <| (allocateCq_follows .next .sq).andThen <|
    (allocateCq_follows .prior .rq).andThen <| (allocateCq_follows .next .rq).andThen <|
    (createQp_follows .prior (types .prior)).andThen <|
    (createQp_follows .next (types .next)).andThen <|
    (setLocalQpInfo_follows .prior (types .prior)).andThen <|
    (setLocalQpInfo_follows .next (types .next)).andThen <|
    (create_follows ⟨.prior, .metadata⟩ rfl).andThen (create_follows ⟨.next, .metadata⟩ rfl)
  simpa [calls] using steps

theorem calls_nodup (types : Side → ChannelType) : (calls types).Nodup := by
  have each : ∀ prior next : ChannelType,
      (calls fun side => if side = .prior then prior else next).Nodup := by
    intro prior next
    cases prior <;> cases next <;> decide
  have same : types = fun side => if side = .prior then types .prior else types .next := by
    funext side
    cases side <;> rfl
  rw [same]
  exact each _ _

/-- What a constructed channel holds when `allocate_channel` has returned, whatever it returned. -/
theorem allocateChannel_filled (d : Driver) (types : Side → ChannelType)
    (live : Finset (Kind × Nat)) (members : Slot → Nat) :
    Filled d members (d.served types) (d.refused types)
        (allocateChannel d types (constructed live members)).2 ∧
      ((allocateChannel d types (constructed live members)).1 = none ↔ d.Stops types) := by
  obtain ⟨filled, -, stopped⟩ := allocateChannel_follows types [] _ (by simpa using calls_nodup types)
    (by simp) (constructed_filled d live members)
  exact ⟨filled, stopped⟩

end

end Nicc.Dpa.Channel

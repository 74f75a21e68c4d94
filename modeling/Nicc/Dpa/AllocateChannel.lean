import Nicc.Dpa.Driver

namespace Nicc.Dpa.Channel
open Lib Step

inductive ChannelType
  | UNKNOWN_TYPE
  | RDMA
  | SHM
  | ETHERNET
  deriving DecidableEq, Repr

section
variable (d : Driver) (side : Side)

def allocateDbr (slot : Slot) : Step := create d slot

def allocateCqMemory (q : Queue) : Step :=
  (allocateDbr d ⟨side, .cqDbr q⟩).andThen <|
  (check (d.callocCqRing side q) (some .NICC_ERROR_EXSAUSTED)).andThen <|
  create d ⟨side, .cqRing q⟩

def allocateCq (q : Queue) : Step :=
  (allocateCqMemory d side q).andThen (create d ⟨side, .cqPtr q⟩)

def allocateWqBuffers (q : Queue) : Step := fun m =>
  let m := m.overwrite (· = ⟨side, .wqd q⟩) (fun _ => 0)
  let m := m.overwrite (· = ⟨side, .wqRing q⟩) (fun _ => 0)
  ((create d ⟨side, .wqd q⟩).andThen <|
    (create d ⟨side, .wqRing q⟩).andThen <|
    allocateDbr d ⟨side, .wqDbr q⟩) m

-- What the error path frees it leaves in the structure.
def allocateWqMemory (q : Queue) : Step := fun m =>
  let (retval, m) := allocateWqBuffers d side q m
  if retval = some .NICC_SUCCESS then (retval, m)
  else
    let (undone, m) := ((undo d ⟨side, .wqd q⟩).andThen (undo d ⟨side, .wqRing q⟩)) m
    (if undone = some .NICC_SUCCESS then retval else none, m)

def createDpaMkey (daddr mkey : Field) : Step :=
  (assertAddress ⟨side, daddr⟩).andThen (create d ⟨side, mkey⟩)

def initRqRing (ring data : Field) : Step :=
  (assertAddress ⟨side, ring⟩).andThen <|
  (assertAddress ⟨side, data⟩).andThen <|
  (check (d.callocRqRing side) none).andThen <|
  check (d.copyRqRing side) (some .NICC_ERROR_HARDWARE_FAILURE)

def createEthernetQp : Step :=
  (allocateWqMemory d side .sq).andThen <|
  (create d ⟨side, .wqPtr .sq⟩).andThen <|
  (createDpaMkey d side (.wqd .sq) (.mkey .sq)).andThen <|
  (allocateWqMemory d side .rq).andThen <|
  (createDpaMkey d side (.wqd .rq) (.mkey .rq)).andThen <|
  (initRqRing d side (.wqRing .rq) (.wqd .rq)).andThen <|
  (create d ⟨side, .wqPtr .rq⟩).andThen <|
  check (d.copyDbr side) (some .NICC_ERROR_HARDWARE_FAILURE)

def allocateQpMemory : Step :=
  (create d ⟨side, .qpdMbuf⟩).andThen (create d ⟨side, .qpRing⟩)

def createRdmaQp : Step :=
  (allocateDbr d ⟨side, .qpDbr⟩).andThen <|
  (allocateQpMemory d side).andThen <|
  (createDpaMkey d side .qpdMbuf .qpdMkey).andThen <|
  (initRqRing d side .qpRing .qpdMbuf).andThen <|
  create d ⟨side, .qpPtr⟩

def createQp : ChannelType → Step
  | .RDMA => createRdmaQp d side
  | .ETHERNET => createEthernetQp d side
  | _ => check false (some .NICC_ERROR_NOT_FOUND)

/-- The assertion of `__set_local_qp_info`, which is called for RDMA only. -/
def setLocalQpInfo (type : ChannelType) : Step :=
  check (type ≠ .RDMA ∨ d.infoBlank side) none

def copyMetadata : Step := create d ⟨side, .metadata⟩

end

def allocateChannel (d : Driver) (types : Side → ChannelType) : Step :=
  (allocateCq d .prior .sq).andThen <|
  (allocateCq d .next .sq).andThen <|
  (allocateCq d .prior .rq).andThen <|
  (allocateCq d .next .rq).andThen <|
  (createQp d .prior (types .prior)).andThen <|
  (createQp d .next (types .next)).andThen <|
  (setLocalQpInfo d .prior (types .prior)).andThen <|
  (setLocalQpInfo d .next (types .next)).andThen <|
  (copyMetadata d .prior).andThen <|
  copyMetadata d .next

section
variable {d : Driver} {inv : Machine → Prop}

theorem createQp_keeps {side : Side} (creates : ∀ slot, Keeps inv (create d slot))
    (memory : ∀ q, Keeps inv (allocateWqMemory d side q)) (type : ChannelType) :
    Keeps inv (createQp d side type) := by
  have mkeys (daddr mkey : Field) : Keeps inv (createDpaMkey d side daddr mkey) :=
    assertAddress_keeps.andThen (creates _)
  have rings (ring data : Field) : Keeps inv (initRqRing d side ring data) :=
    assertAddress_keeps.andThen (assertAddress_keeps.andThen (check_keeps.andThen check_keeps))
  cases type with
  | UNKNOWN_TYPE => exact check_keeps
  | SHM => exact check_keeps
  | RDMA =>
      exact (creates _).andThen <| ((creates _).andThen (creates _)).andThen <|
        (mkeys _ _).andThen <| (rings _ _).andThen (creates _)
  | ETHERNET =>
      exact (memory .sq).andThen <| (creates _).andThen <| (mkeys _ _).andThen <|
        (memory .rq).andThen <| (mkeys _ _).andThen <| (rings _ _).andThen <|
        (creates _).andThen check_keeps

theorem allocateChannel_keeps (creates : ∀ slot, Keeps inv (create d slot))
    (memory : ∀ side q, Keeps inv (allocateWqMemory d side q)) (types : Side → ChannelType) :
    Keeps inv (allocateChannel d types) := by
  have cqs (side : Side) (q : Queue) : Keeps inv (allocateCq d side q) :=
    ((creates _).andThen (check_keeps.andThen (creates _))).andThen (creates _)
  exact (cqs .prior .sq).andThen <| (cqs .next .sq).andThen <|
    (cqs .prior .rq).andThen <| (cqs .next .rq).andThen <|
    (createQp_keeps creates (memory .prior) _).andThen <|
    (createQp_keeps creates (memory .next) _).andThen <|
    check_keeps.andThen <| check_keeps.andThen <| (creates _).andThen (creates _)

end

section
variable {d : Driver} {side : Side}

theorem undo_keeps_valid {slot : Slot} {m : Machine} (valid : m.Valid Slot.kind)
    (sound : m.Sound slot) : (undo d slot m).2.Valid Slot.kind := by
  rw [undo]
  by_cases null : m.cell slot = 0
  · rw [if_pos null]
    exact valid
  · rw [if_neg null]
    exact valid.release (sound.resolve_left null) _ _

theorem undo_keeps_sound {slot other : Slot} {m : Machine} (apart : other ≠ slot)
    (sound : m.Sound other) : (undo d slot m).2.Sound other := by
  rw [undo]
  by_cases null : m.cell slot = 0
  · rw [if_pos null]
    exact sound
  · rw [if_neg null]
    exact (Ledger.sound_release_other apart _ _).mpr sound

theorem allocateWqBuffers_keeps_valid (q : Queue) :
    Keeps (Ledger.Valid Slot.kind) (allocateWqBuffers d side q) := by
  intro m valid
  have cleared := (valid.overwrite (· = ⟨side, .wqd q⟩) fun _ => 0).overwrite
    (· = ⟨side, .wqRing q⟩) fun _ => 0
  exact (create_keeps_valid.andThen (create_keeps_valid.andThen create_keeps_valid)) _ cleared

variable (d side) in
theorem allocateWqBuffers_sound (q : Queue) (m : Machine) :
    (allocateWqBuffers d side q m).2.Sound ⟨side, .wqd q⟩ ∧
      (allocateWqBuffers d side q m).2.Sound ⟨side, .wqRing q⟩ := by
  have creations (slot : Slot) : Keeps (·.Sound slot) ((create d ⟨side, .wqd q⟩).andThen <|
      (create d ⟨side, .wqRing q⟩).andThen <| allocateDbr d ⟨side, .wqDbr q⟩) :=
    create_keeps_sound.andThen (create_keeps_sound.andThen create_keeps_sound)
  constructor
  · exact creations _ _ (.inl (by simp [Ledger.overwrite]))
  · exact creations _ _ (.inl (by simp [Ledger.overwrite]))

theorem allocateWqMemory_keeps_valid (q : Queue) :
    Keeps (Ledger.Valid Slot.kind) (allocateWqMemory d side q) := by
  intro m valid
  have buffers : (allocateWqBuffers d side q m).2.Valid Slot.kind :=
    allocateWqBuffers_keeps_valid q m valid
  obtain ⟨soundData, soundRing⟩ := allocateWqBuffers_sound d side q m
  unfold allocateWqMemory
  dsimp only
  split_ifs
  · exact buffers
  all_goals
    have first := undo_keeps_valid (d := d) buffers soundData
    have second := undo_keeps_valid (d := d) first (undo_keeps_sound (by simp) soundRing)
    rw [Step.andThen]
    split_ifs
    · exact second
    · exact first

theorem allocateChannel_keeps_valid (types : Side → ChannelType) :
    Keeps (Ledger.Valid Slot.kind) (allocateChannel d types) :=
  allocateChannel_keeps (fun _ => create_keeps_valid) (fun _ => allocateWqMemory_keeps_valid) types

end

end Nicc.Dpa.Channel

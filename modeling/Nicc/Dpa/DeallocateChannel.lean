import Nicc.Dpa.AllocateChannel

namespace Nicc.Dpa.Channel
open Lib Step

/-- What the driver answers during one call of `deallocate_channel`, and what is found in the
blocks of the queues once they have been given back to the C library. -/
structure Attempt where
  refuses : Slot → Bool
  leftBehind : Slot → Nat

def grantingAttempt : Attempt := ⟨fun _ => false, fun _ => 0⟩

section
variable (a : Attempt) (side : Side)

def free (slot : Slot) (cleared : Bool) : Step := fun m =>
  if m.cell slot = 0 then (some .NICC_SUCCESS, m)
  else if a.refuses slot then
    (some .NICC_ERROR_HARDWARE_FAILURE, m.release Slot.kind slot false cleared)
  else (some .NICC_SUCCESS, m.release Slot.kind slot true cleared)

def deallocateCqMemory (q : Queue) : Step :=
  (free a ⟨side, .cqDbr q⟩ true).andThen (free a ⟨side, .cqRing q⟩ true)

def deallocateCq (q : Queue) : Step :=
  (free a ⟨side, .cqPtr q⟩ true).andThen (deallocateCqMemory a side q)

-- `__deallocate_dbr` gets the address of the doorbell record by value.
def deallocateWqMemory (q : Queue) : Step :=
  (free a ⟨side, .wqd q⟩ true).andThen <|
  (free a ⟨side, .wqRing q⟩ true).andThen <|
  free a ⟨side, .wqDbr q⟩ false

def destroyQp : Step :=
  (free a ⟨side, .wqPtr .sq⟩ true).andThen <|
  (deallocateWqMemory a side .sq).andThen <|
  (free a ⟨side, .wqPtr .rq⟩ true).andThen <|
  deallocateWqMemory a side .rq

/-- `free` of `dev_queues`, whose address is kept. -/
def freeDevQueues : Step := fun m =>
  (some .NICC_SUCCESS, m.overwrite (·.field.inDevQueues) a.leftBehind)

def deallocateChannel : Step :=
  (deallocateCq a .prior .sq).andThen <|
  (deallocateCq a .prior .rq).andThen <|
  (deallocateCq a .next .sq).andThen <|
  (deallocateCq a .next .rq).andThen <|
  (destroyQp a .prior).andThen <|
  (destroyQp a .next).andThen <|
  (freeDevQueues a).andThen <|
  (free a ⟨.prior, .metadata⟩ false).andThen <|
  free a ⟨.next, .metadata⟩ false

end

def cqCells (side : Side) (q : Queue) : List (Slot × Bool) :=
  [(⟨side, .cqPtr q⟩, true), (⟨side, .cqDbr q⟩, true), (⟨side, .cqRing q⟩, true)]

def wqCells (side : Side) (q : Queue) : List (Slot × Bool) :=
  [(⟨side, .wqPtr q⟩, true), (⟨side, .wqd q⟩, true), (⟨side, .wqRing q⟩, true),
    (⟨side, .wqDbr q⟩, false)]

def queueCells : List (Slot × Bool) :=
  cqCells .prior .sq ++ cqCells .prior .rq ++ cqCells .next .sq ++ cqCells .next .rq ++
    wqCells .prior .sq ++ wqCells .prior .rq ++ wqCells .next .sq ++ wqCells .next .rq

def metadataCells : List (Slot × Bool) :=
  [(⟨.prior, .metadata⟩, false), (⟨.next, .metadata⟩, false)]

def releaseAll (a : Attempt) (cells : List (Slot × Bool)) : Step := fun m =>
  let (through, m) := Ledger.walk Slot.kind a.refuses cells m
  (some (hardwareCheck through), m)

theorem free_eq (a : Attempt) (slot : Slot) (cleared : Bool) :
    free a slot cleared = releaseAll a [(slot, cleared)] := by
  funext m
  unfold free releaseAll
  by_cases null : m.cell slot = 0
  · simp [Ledger.walk, null, hardwareCheck]
  · by_cases refused : a.refuses slot = true <;> simp [Ledger.walk, null, refused, hardwareCheck]

theorem releaseAll_append (a : Attempt) (cells more : List (Slot × Bool)) :
    releaseAll a (cells ++ more) = (releaseAll a cells).andThen (releaseAll a more) := by
  funext m
  rw [Step.andThen, releaseAll, releaseAll, Ledger.walk_append]
  rcases Ledger.walk Slot.kind a.refuses cells m with ⟨through, freed⟩
  cases through with
  | true => rfl
  | false => rfl

theorem deallocateChannel_eq (a : Attempt) :
    deallocateChannel a = (releaseAll a queueCells).andThen
      ((freeDevQueues a).andThen (releaseAll a metadataCells)) := by
  have cq (side : Side) (q : Queue) : deallocateCq a side q = releaseAll a (cqCells side q) := by
    simp only [deallocateCq, deallocateCqMemory, free_eq, ← releaseAll_append]
    rfl
  have qp (side : Side) : destroyQp a side =
      releaseAll a (wqCells side .sq ++ wqCells side .rq) := by
    simp only [destroyQp, deallocateWqMemory, free_eq, ← releaseAll_append]
    rfl
  have metadata : (free a ⟨.prior, .metadata⟩ false).andThen (free a ⟨.next, .metadata⟩ false) =
      releaseAll a metadataCells := by
    rw [free_eq, free_eq, ← releaseAll_append]
    rfl
  rw [deallocateChannel, metadata]
  simp only [cq, qp, queueCells, releaseAll_append, andThen_assoc]

theorem cells_distinct : ((queueCells ++ metadataCells).map Prod.fst).Nodup := by decide

theorem queueCells_distinct : (queueCells.map Prod.fst).Nodup := by decide

theorem metadataCells_distinct : (metadataCells.map Prod.fst).Nodup := by decide

end Nicc.Dpa.Channel

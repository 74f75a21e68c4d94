import Mathlib.Order.Lattice.Nat
import Mathlib.Data.Finset.Lattice.Fold
import Nicc.Common
import Nicc.Lib.Ledger

/-!
# The driver of the DPA, as a channel sees it

Where a `Channel_DPA` keeps the addresses of its device memory and the handles of its driver
objects, and the calls of FlexIO that create them and release them.
-/

namespace Nicc.Dpa.Channel
open Lib

inductive Side
  | prior
  | next
  deriving DecidableEq, Repr

inductive Queue
  | sq
  | rq
  deriving DecidableEq, Repr

/-- The members for one side. `cqDbr` to `cqRing` are in `sq_cq_data` and `rq_cq_data`, `wqd` to
`wqDbr` in `sq_data` and `rq_data`, `qpDbr` and `qpRing` in `qp_data`, the others in the handler,
and the metadata in the channel. -/
inductive Field
  | cqDbr (q : Queue)
  | cqRing (q : Queue)
  | cqPtr (q : Queue)
  | wqd (q : Queue)
  | wqRing (q : Queue)
  | wqDbr (q : Queue)
  | wqPtr (q : Queue)
  | mkey (q : Queue)
  | qpDbr
  | qpdMbuf
  | qpRing
  | qpdMkey
  | qpPtr
  | metadata
  deriving DecidableEq, Repr

structure Slot where
  side : Side
  field : Field
  deriving DecidableEq, Repr

inductive Kind
  | buffer
  | cq
  | sq
  | rq
  | qp
  | mkey
  deriving DecidableEq, Repr

def Field.kind : Field → Kind
  | cqPtr _ => .cq
  | wqPtr .sq => .sq
  | wqPtr .rq => .rq
  | mkey _ | qpdMkey => .mkey
  | qpPtr => .qp
  | cqDbr _ | cqRing _ | wqd _ | wqRing _ | wqDbr _ | qpDbr | qpdMbuf | qpRing | metadata => .buffer

def Slot.kind (slot : Slot) : Kind := slot.field.kind

def Field.inDevQueues : Field → Bool
  | cqDbr _ | cqRing _ | wqd _ | wqRing _ | wqDbr _ | qpDbr | qpRing => true
  | cqPtr _ | wqPtr _ | mkey _ | qpdMbuf | qpdMkey | qpPtr | metadata => false

abbrev Machine : Type := Ledger Slot Kind

/-- The constructor zeroes `dev_queues`. The other members are not initialized. -/
def constructed (live : Finset (Kind × Nat)) (members : Slot → Nat) : Machine :=
  Ledger.start live fun slot => if slot.field.inDevQueues then 0 else members slot

/-- What the driver and the C library answer during `allocate_channel`. A call that creates
something returns what did not exist before. -/
structure Driver where
  grants : Slot → Bool
  handle : Slot → Finset (Kind × Nat) → Nat
  fresh : ∀ slot live, handle slot live ≠ 0 ∧ (slot.kind, handle slot live) ∉ live
  /-- A creation that fails leaves a null pointer in its slot, or what was there. -/
  clears : Slot → Bool
  undoes : Slot → Bool
  callocCqRing : Side → Queue → Bool
  callocRqRing : Side → Bool
  copyRqRing : Side → Bool
  copyDbr : Side → Bool
  /-- The block of the local `QPInfo` says that it is not initialized. -/
  infoBlank : Side → Bool

def grantingDriver : Driver where
  grants _ := true
  handle _ live := live.sup Prod.snd + 1
  fresh slot live := by
    refine ⟨Nat.succ_ne_zero _, fun alive => ?_⟩
    have bound : live.sup Prod.snd + 1 ≤ live.sup Prod.snd := Finset.le_sup (f := Prod.snd) alive
    omega
  clears _ := true
  undoes _ := true
  callocCqRing _ _ := true
  callocRqRing _ := true
  copyRqRing _ := true
  copyDbr _ := true
  infoBlank _ := true

/-- No return value means that an assertion has stopped the program. -/
abbrev Step : Type := Machine → Option Retval × Machine

namespace Step

def andThen (first next : Step) : Step := fun m =>
  if (first m).1 = some .NICC_SUCCESS then next (first m).2 else first m

theorem andThen_assoc (a b c : Step) : (a.andThen b).andThen c = a.andThen (b.andThen c) := by
  funext m
  by_cases ok : (a m).1 = some .NICC_SUCCESS <;> simp [andThen, ok]

theorem andThen_success {first next : Step} {m : Machine}
    (ok : ((first.andThen next) m).1 = some .NICC_SUCCESS) :
    (first m).1 = some .NICC_SUCCESS ∧ (next (first m).2).1 = some .NICC_SUCCESS ∧
      (first.andThen next) m = next (first m).2 := by
  by_cases firstOk : (first m).1 = some .NICC_SUCCESS
  · have through : (first.andThen next) m = next (first m).2 := if_pos firstOk
    rw [through] at ok
    exact ⟨firstOk, ok, through⟩
  · have stopped : (first.andThen next) m = first m := if_neg firstOk
    rw [stopped] at ok
    exact absurd ok firstOk

def Keeps (inv : Machine → Prop) (step : Step) : Prop := ∀ m, inv m → inv (step m).2

theorem Keeps.andThen {inv : Machine → Prop} {first next : Step} (one : Keeps inv first)
    (two : Keeps inv next) : Keeps inv (first.andThen next) := by
  intro m before
  by_cases ok : (first m).1 = some .NICC_SUCCESS
  · rw [Step.andThen, if_pos ok]
    exact two _ (one m before)
  · rw [Step.andThen, if_neg ok]
    exact one m before

end Step

open Step

def create (d : Driver) (slot : Slot) : Step := fun m =>
  if d.grants slot then (some .NICC_SUCCESS, m.create Slot.kind slot (d.handle slot m.live))
  else (some .NICC_ERROR_HARDWARE_FAILURE,
    if d.clears slot then m.overwrite (· = slot) (fun _ => 0) else m)

def check (ok : Bool) (failure : Option Retval) : Step := fun m =>
  if ok then (some .NICC_SUCCESS, m) else (failure, m)

def assertAddress (slot : Slot) : Step := fun m => check (m.cell slot ≠ 0) none m

def undo (d : Driver) (slot : Slot) : Step := fun m =>
  if m.cell slot = 0 then (some .NICC_SUCCESS, m)
  else
    (if d.undoes slot then some .NICC_SUCCESS else none,
      m.release Slot.kind slot (d.undoes slot) false)

section
variable {d : Driver} {m : Machine} {slot other : Slot}

theorem create_keeps_valid : Keeps (Ledger.Valid Slot.kind) (create d slot) := by
  intro m valid
  unfold create
  split_ifs
  · exact valid.create (d.fresh slot m.live).2
  · exact valid.overwrite _ _
  · exact valid

theorem check_keeps {inv : Machine → Prop} {ok : Bool} {failure : Option Retval} :
    Keeps inv (check ok failure) := by
  intro m before
  unfold check
  split_ifs <;> exact before

theorem assertAddress_keeps {inv : Machine → Prop} : Keeps inv (assertAddress slot) :=
  fun m before => check_keeps m before

theorem create_keeps_sound : Keeps (·.Sound other) (create d slot) := by
  intro m sound
  unfold create
  split_ifs
  · exact sound.create _ _
  · exact sound.overwrite_zero _
  · exact sound

end

end Nicc.Dpa.Channel

import Nicc.Lib.Ring
import Mathlib.Tactic.Cases

/-!
# The worker queue

`soc_shm_lock_free_queue` as its two operations compute it when nothing runs in between. The
memory steps of the two parties are in `Nicc.Soc.QueueSteps`.
-/

namespace Nicc.Soc
open Lib

def kWsQueueSize : Nat := 1024

def mask : Nat := kWsQueueSize - 1

/-- A pointer is `none` when it is null. -/
structure ShmQueue (α : Type) where
  queue : Nat → Option α
  head : Nat
  tail : Nat

namespace ShmQueue

variable {α : Type}

def new : ShmQueue α := ⟨fun _ => none, 0, 0⟩

def enqueue (q : ShmQueue α) (pkt : Option α) : Bool × ShmQueue α :=
  let nextTail := (q.tail + 1) &&& mask
  if nextTail = q.head then (false, q)
  else (true, { q with queue := Function.update q.queue q.tail pkt, tail := nextTail })

def dequeue (q : ShmQueue α) : Option α × ShmQueue α :=
  if q.head = q.tail then (none, q)
  else (q.queue q.head, { q with head := (q.head + 1) &&& mask })

/-- The subtraction of two `size_t` wraps. -/
def getSize (q : ShmQueue α) : Nat := (q.tail + 2 ^ 64 - q.head) % 2 ^ 64 &&& mask

theorem and_mask (n : Nat) : n &&& mask = n % kWsQueueSize :=
  Nat.and_two_pow_sub_one_eq_mod n 10

/-- The queue stores positions `lo` to `hi` of the sequence `f`. One slot always stays unused. -/
structure Stores (q : ShmQueue α) (f : Nat → Option α) (lo hi : Nat) : Prop where
  head : q.head = lo % kWsQueueSize
  tail : q.tail = hi % kWsQueueSize
  ordered : lo ≤ hi
  room : hi < lo + kWsQueueSize
  window : Window kWsQueueSize q.queue f lo hi

theorem new_stores (f : Nat → Option α) : (new : ShmQueue α).Stores f 0 0 where
  head := rfl
  tail := rfl
  ordered := le_rfl
  room := by decide
  window := .empty _ _ _ _

namespace Stores

variable {q : ShmQueue α} {f g : Nat → Option α} {lo hi : Nat}

theorem empty_iff (stores : q.Stores f lo hi) : q.head = q.tail ↔ lo = hi := by
  rw [stores.head, stores.tail]
  exact ⟨fun same => position_unique same stores.ordered stores.room, fun eq => eq ▸ rfl⟩

theorem full_iff (stores : q.Stores f lo hi) :
    (hi + 1) % kWsQueueSize = q.head ↔ hi + 1 = lo + kWsQueueSize := by
  have ordered := stores.ordered
  have room := stores.room
  rw [stores.head]
  constructor
  · intro same
    have wrapped : (hi + 1) % kWsQueueSize = (lo + kWsQueueSize) % kWsQueueSize := by
      rw [same, Nat.add_mod_right]
    exact position_unique wrapped (by omega) (by omega)
  · intro eq
    rw [eq, Nat.add_mod_right]

theorem nextTail (stores : q.Stores f lo hi) : (q.tail + 1) &&& mask = (hi + 1) % kWsQueueSize := by
  rw [and_mask, stores.tail, Nat.mod_add_mod]

theorem nextHead (stores : q.Stores f lo hi) : (q.head + 1) &&& mask = (lo + 1) % kWsQueueSize := by
  rw [and_mask, stores.head, Nat.mod_add_mod]

theorem getSize (stores : q.Stores f lo hi) : q.getSize = hi - lo := by
  have ordered := stores.ordered
  have room := stores.room
  rw [ShmQueue.getSize, and_mask, stores.head, stores.tail]
  simp only [kWsQueueSize] at *
  omega

theorem enqueue (stores : q.Stores f lo hi) (room : hi + 1 < lo + kWsQueueSize) :
    ∃ q', q.enqueue (f hi) = (true, q') ∧ q'.Stores f lo (hi + 1) := by
  have notFull : (q.tail + 1) &&& mask ≠ q.head := by
    rw [stores.nextTail, Ne, stores.full_iff]
    omega
  refine ⟨_, by rw [ShmQueue.enqueue, if_neg notFull], ?_⟩
  exact {
    head := stores.head
    tail := stores.nextTail
    ordered := stores.ordered.trans (Nat.le_succ hi)
    room := room
    window := by rw [stores.tail]; exact stores.window.push stores.room }

theorem dequeue (stores : q.Stores f lo hi) (nonempty : lo < hi) :
    ∃ q', q.dequeue = (f lo, q') ∧ q'.Stores f (lo + 1) hi := by
  have notEmpty : q.head ≠ q.tail := by
    rw [Ne, stores.empty_iff]
    omega
  have front : q.queue q.head = f lo := by rw [stores.head]; exact stores.window.get nonempty
  refine ⟨_, by rw [ShmQueue.dequeue, if_neg notEmpty, front], ?_⟩
  exact {
    head := stores.nextHead
    tail := stores.tail
    ordered := nonempty
    room := stores.room.trans (by omega)
    window := stores.window.shrink (Nat.le_succ lo) le_rfl }

theorem congr (stores : q.Stores f lo hi) (agree : ∀ k, lo ≤ k → k < hi → f k = g k) :
    q.Stores g lo hi :=
  { stores with window := stores.window.congr agree }

end Stores

end ShmQueue

end Nicc.Soc

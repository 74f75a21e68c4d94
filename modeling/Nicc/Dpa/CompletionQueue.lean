import Nicc.Common
import Nicc.Dpa.Queue
import Nicc.Lib.Ring

/-!
# The completion queue of the DPA

The host fills the ring with the owner bit 1. The NIC writes completion `m` into slot `m % N` with
owner bit `m / N % 2`, and the event handler consumes while the bit it reads differs from the one
that it expects of a stale slot.
-/

namespace Nicc.Dpa
open Lib

/-- `completion` is the number of the completion that wrote the entry, which the code cannot see. -/
structure Cqe where
  owner : Nat
  completion : Option Nat

/-- What the driver and the C library answer: the address of the doorbell record, whether `calloc`
finds memory, and the address of the copy on the device. -/
structure HostEnv where
  allocateDbr : Option Nat
  calloc : Nat → Nat → Bool
  copyFromHost : Nat → Option Nat

structure DpaCq where
  cqRingDaddr : Nat
  cqDbrDaddr : Nat
  ring : List Cqe

def toSizeT (n : Int) : Nat := (n % 2 ^ 64).toNat

def setCqeOwner (val : Nat) (cqe : Cqe) : Cqe := { cqe with owner := val &&& 1 }

def setOwners : Nat → Nat → List Cqe → List Cqe
  | 0, _, ring => ring
  | left + 1, i, ring => setOwners left (i + 1) (ring.modify i (setCqeOwner 1))

def allocateCqMemory (env : HostEnv) (logDepth : Nat) (appCq : DpaCq) : Retval × DpaCq :=
  let logCqeBsize := 6
  match env.allocateDbr with
  | none => (.NICC_ERROR_HARDWARE_FAILURE, appCq)
  | some dbr =>
      let appCq := { appCq with cqDbrDaddr := dbr }
      let numOfCqes : Int := Int.bmod (log2value logDepth).toNat (2 ^ 32)
      let ringBsize := toSizeT (numOfCqes * (log2value logCqeBsize).toNat)
      if env.calloc (toSizeT numOfCqes) (log2value logCqeBsize).toNat then
        let cqRingSrc := setOwners numOfCqes.toNat 0
          (List.replicate (toSizeT numOfCqes) ⟨0, none⟩)
        match env.copyFromHost ringBsize with
        | none => (.NICC_ERROR_HARDWARE_FAILURE, appCq)
        | some daddr => (.NICC_SUCCESS, { appCq with
            cqRingDaddr := daddr, ring := cqRingSrc.take (ringBsize / (log2value logCqeBsize).toNat) })
      else (.NICC_ERROR_EXSAUSTED, appCq)

def AllOwned (k : Nat) (ring : List Cqe) : Prop :=
  ring = List.replicate (2 ^ k) ⟨1, none⟩

theorem modify_middle {α : Type} (before : List α) (x : α) (after : List α) (f : α → α) :
    (before ++ x :: after).modify before.length f = before ++ f x :: after := by
  induction before with
  | nil => rfl
  | cons y before ih => simpa using ih

theorem setOwners_append (before after : List Cqe) :
    setOwners after.length before.length (before ++ after) =
      before ++ after.map (setCqeOwner 1) := by
  induction after generalizing before with
  | nil => rfl
  | cons cqe after ih =>
      have next := ih (before ++ [setCqeOwner 1 cqe])
      rw [List.length_append, List.length_singleton, List.append_assoc, List.append_assoc] at next
      rw [List.length_cons, setOwners, modify_middle, List.map_cons]
      exact next

theorem setOwners_all (n : Nat) :
    setOwners n 0 (List.replicate n ⟨0, none⟩) = List.replicate n ⟨1, none⟩ := by
  have all := setOwners_append [] (List.replicate n ⟨0, none⟩)
  rw [List.length_replicate, List.map_replicate] at all
  exact all

theorem toSizeT_natCast {n : Nat} (small : n < 2 ^ 64) : toSizeT n = n := by
  rw [toSizeT]
  omega

theorem numOfCqes_small {k : Nat} (small : k < 31) :
    Int.bmod (log2value k).toNat (2 ^ 32) = (2 ^ k : Nat) := by
  have power : 2 ^ k < 2 ^ 31 := Nat.pow_lt_pow_right (by decide) small
  rw [log2value_toNat (by omega)]
  generalize 2 ^ k = n at *
  rw [Int.bmod_eq_of_le (by omega) (by omega)]

theorem allocateCqMemory_small (env : HostEnv) {k : Nat} (appCq : DpaCq) (small : k < 31) :
    allocateCqMemory env k appCq = match env.allocateDbr with
      | none => (.NICC_ERROR_HARDWARE_FAILURE, appCq)
      | some dbr =>
          if env.calloc (2 ^ k) 64 then
            match env.copyFromHost (2 ^ k * 64) with
            | none => (.NICC_ERROR_HARDWARE_FAILURE, { appCq with cqDbrDaddr := dbr })
            | some daddr => (.NICC_SUCCESS, ⟨daddr, dbr, List.replicate (2 ^ k) ⟨1, none⟩⟩)
          else (.NICC_ERROR_EXSAUSTED, { appCq with cqDbrDaddr := dbr }) := by
  have power : 2 ^ k < 2 ^ 31 := Nat.pow_lt_pow_right (by decide) small
  have entries : toSizeT (2 ^ k : Nat) = 2 ^ k := toSizeT_natCast (by omega)
  have bytes : toSizeT ((2 ^ k : Nat) * (64 : Nat)) = 2 ^ k * 64 :=
    toSizeT_natCast (n := 2 ^ k * 64) (by omega)
  have size : (log2value 6).toNat = 64 := rfl
  simp only [allocateCqMemory, numOfCqes_small small, entries, size, bytes, Int.toNat_natCast,
    setOwners_all, Nat.mul_div_cancel _ (show 0 < 64 by decide), List.take_replicate, Nat.min_self]

theorem allocateCqMemory_large (env : HostEnv) (appCq : DpaCq)
    (overflow : ∀ count size, 2 ^ 64 ≤ count * size → env.calloc count size = false) :
    (allocateCqMemory env 31 appCq).1 ≠ .NICC_SUCCESS := by
  have count : toSizeT (Int.bmod (log2value 31).toNat (2 ^ 32)) = 2 ^ 64 - 2 ^ 31 := by decide
  have none := overflow (2 ^ 64 - 2 ^ 31) (log2value 6).toNat (by decide)
  rw [allocateCqMemory]
  cases env.allocateDbr with
  | none => simp
  | some dbr =>
      simp only [count, none, Bool.false_eq_true, if_false]
      simp

theorem allocateCqMemory_success {env : HostEnv} {k : Nat} {before cq : DpaCq} (bound : k < 32)
    (overflow : ∀ count size, 2 ^ 64 ≤ count * size → env.calloc count size = false)
    (success : allocateCqMemory env k before = (.NICC_SUCCESS, cq)) :
    AllOwned k cq.ring := by
  by_cases small : k < 31
  · rw [allocateCqMemory_small env before small] at success
    split at success
    · cases success
    · split_ifs at success
      · split at success
        · cases success
        · cases success
          rfl
      · cases success
  · obtain rfl : k = 31 := by omega
    exact absurd (congrArg Prod.fst success) (allocateCqMemory_large env before overflow)

structure CqCtx where
  cqNumber : Nat
  cqe : Nat
  cqIdx : Nat
  cqHwOwnerBit : Nat
  cqDbr : Nat

def initCq (cqNum : Nat) (ctx : CqCtx) : CqCtx :=
  { ctx with cqNumber := cqNum, cqe := 0, cqIdx := 0, cqHwOwnerBit := 1 }

def stepCq (cqCtx : CqCtx) (cqIdxMask : Nat) : CqCtx :=
  let cqIdx := (cqCtx.cqIdx + 1) % 2 ^ 32
  let bit := cqCtx.cqHwOwnerBit
  { cqCtx with
    cqIdx := cqIdx
    cqe := cqIdx &&& cqIdxMask
    cqHwOwnerBit := if cqIdx &&& cqIdxMask = 0 then (if bit = 0 then 1 else 0) else bit
    cqDbr := cqIdx }

inductive Pc
  | rescheduled
  | polling
  | processing
  | arming
  deriving DecidableEq

structure Device where
  ring : Nat → Cqe
  rqcqCtx : CqCtx
  isInitalized : Bool
  packetsCount : Nat
  armed : Option Nat
  pc : Pc
  written : Nat
  consumed : List (Option Nat)

def dpaDeviceInit (cqNum : Nat) (d : Device) : Device :=
  { d with rqcqCtx := initCq cqNum d.rqcqCtx, isInitalized := true }

/-- One step of `dpa_event_handler`. An event wakes a thread that waits to be rescheduled. -/
def dpaEventHandler (cqIdxMask : Nat) (d : Device) : Device :=
  match d.pc with
  | .rescheduled => if d.isInitalized then { d with pc := .polling } else d
  | .polling =>
      if (d.ring d.rqcqCtx.cqe).owner ≠ d.rqcqCtx.cqHwOwnerBit then { d with pc := .processing }
      else { d with pc := .arming }
  | .processing =>
      { d with
        packetsCount := (d.packetsCount + 1) % 2 ^ 32
        consumed := d.consumed ++ [(d.ring d.rqcqCtx.cqe).completion]
        rqcqCtx := stepCq d.rqcqCtx cqIdxMask
        pc := .polling }
  | .arming => { d with armed := some d.rqcqCtx.cqIdx, pc := .rescheduled }

def nicWrite (n : Nat) (d : Device) : Device :=
  { d with
    ring := Function.update d.ring (d.written % n) ⟨d.written / n % 2, some d.written⟩
    written := d.written + 1 }

inductive Turn
  | nic
  | handler
  deriving DecidableEq

/-- The NIC never writes over an entry that has not been consumed. -/
def step (k : Nat) (d : Device) : Turn → Except String Device
  | .nic =>
      if d.written < d.consumed.length + 2 ^ k then .ok (nicWrite (2 ^ k) d)
      else .error "completion queue overrun"
  | .handler => .ok (dpaEventHandler (2 ^ k - 1) d)

def loaded (ring : List Cqe) : Device where
  ring i := ring.getD i ⟨0, none⟩
  rqcqCtx := ⟨0, 0, 0, 0, 0⟩
  isInitalized := false
  packetsCount := 0
  armed := none
  pc := .rescheduled
  written := 0
  consumed := []

def entry (n k : Nat) : Cqe :=
  ⟨(k / n + 1) % 2, if k < n then none else some (k - n)⟩

structure Synced (k : Nat) (d : Device) : Prop where
  initialized : d.isInitalized = true
  window : Window (2 ^ k) d.ring (entry (2 ^ k)) d.written (d.written + 2 ^ k)
  consumed : d.consumed = (List.range d.consumed.length).map some
  behind : d.consumed.length ≤ d.written
  ahead : d.written ≤ d.consumed.length + 2 ^ k
  cqe : d.rqcqCtx.cqe = d.consumed.length % 2 ^ k
  cqIdx : d.rqcqCtx.cqIdx = d.consumed.length % 2 ^ 32
  cqHwOwnerBit : d.rqcqCtx.cqHwOwnerBit = (d.consumed.length / 2 ^ k + 1) % 2
  present : d.pc = .processing → d.consumed.length < d.written

namespace Synced

variable {k : Nat} {d : Device}

theorem current (synced : Synced k d) (written : d.consumed.length < d.written) :
    d.ring d.rqcqCtx.cqe = ⟨d.consumed.length / 2 ^ k % 2, some d.consumed.length⟩ := by
  have positive := Nat.two_pow_pos k
  have ahead := synced.ahead
  have stored := synced.window (d.consumed.length + 2 ^ k) ahead (by omega)
  rw [Nat.add_mod_right] at stored
  rw [synced.cqe, stored, entry, if_neg (by omega), Nat.add_div_right _ positive,
    Nat.add_sub_cancel]
  exact congrArg (Cqe.mk · _) (by omega)

theorem stale (synced : Synced k d) (drained : d.consumed.length = d.written) :
    (d.ring d.rqcqCtx.cqe).owner = d.rqcqCtx.cqHwOwnerBit := by
  have positive := Nat.two_pow_pos k
  have stored := synced.window d.consumed.length drained.ge (by omega)
  rw [synced.cqe, stored, synced.cqHwOwnerBit, entry]

theorem polls (synced : Synced k d) :
    (d.ring d.rqcqCtx.cqe).owner ≠ d.rqcqCtx.cqHwOwnerBit ↔ d.consumed.length < d.written := by
  constructor
  · intro differ
    exact lt_of_le_of_ne synced.behind fun drained => differ (synced.stale drained)
  · intro written
    rw [synced.current written, synced.cqHwOwnerBit]
    simp only
    omega

theorem nicWrite (synced : Synced k d) (room : d.written < d.consumed.length + 2 ^ k) :
    Synced k (nicWrite (2 ^ k) d) := by
  have positive := Nat.two_pow_pos k
  have written : entry (2 ^ k) (d.written + 2 ^ k) = ⟨d.written / 2 ^ k % 2, some d.written⟩ := by
    rw [entry, if_neg (by omega), Nat.add_div_right _ positive, Nat.add_sub_cancel]
    exact congrArg (Cqe.mk · _) (by omega)
  have pushed := (synced.window.shrink (Nat.le_succ _) le_rfl).push (by omega)
  rw [Nat.add_mod_right, written, Nat.add_right_comm] at pushed
  exact { synced with
    window := pushed
    behind := synced.behind.trans (Nat.le_succ _)
    ahead := room
    present := fun at_ => (synced.present at_).trans (Nat.lt_succ_self _) }

theorem toggled (n c : Nat) :
    (if (c + 1) % n = 0 then (if (c / n + 1) % 2 = 0 then 1 else 0) else (c / n + 1) % 2) =
      ((c + 1) / n + 1) % 2 := by
  have next : (c + 1) / n = c / n + if n ∣ c + 1 then 1 else 0 := Nat.succ_div
  simp only [Nat.dvd_iff_mod_eq_zero] at next
  rw [next]
  split_ifs <;> omega

theorem stepCq (small : k < 32) (synced : Synced k d) (written : d.consumed.length < d.written) :
    Synced k { d with
      packetsCount := (d.packetsCount + 1) % 2 ^ 32
      consumed := d.consumed ++ [(d.ring d.rqcqCtx.cqe).completion]
      rqcqCtx := stepCq d.rqcqCtx (2 ^ k - 1)
      pc := .polling } := by
  have mask : (d.rqcqCtx.cqIdx + 1) % 2 ^ 32 &&& (2 ^ k - 1) = (d.consumed.length + 1) % 2 ^ k := by
    rw [synced.cqIdx, Nat.mod_add_mod, masked_counter small.le]
  have length : (d.consumed ++ [(d.ring d.rqcqCtx.cqe).completion]).length =
      d.consumed.length + 1 := by simp
  refine {
    initialized := synced.initialized
    window := synced.window
    consumed := ?_
    behind := by rw [length]; exact written
    ahead := by rw [length]; exact synced.ahead.trans (by omega)
    cqe := by rw [length]; exact mask
    cqIdx := by simp only [length, Dpa.stepCq, synced.cqIdx, Nat.mod_add_mod]
    cqHwOwnerBit := ?_
    present := fun at_ => by simp at at_ }
  · rw [length, List.range_succ, List.map_append, ← synced.consumed, synced.current written]
    rfl
  · rw [length, ← toggled]
    simp only [Dpa.stepCq, mask, synced.cqHwOwnerBit]

theorem dpaEventHandler (small : k < 32) (synced : Synced k d) :
    Synced k (dpaEventHandler (2 ^ k - 1) d) := by
  cases at_ : d.pc with
  | rescheduled =>
      simp only [Dpa.dpaEventHandler, at_]
      rw [if_pos synced.initialized]
      exact { synced with present := fun processing => by simp at processing }
  | polling =>
      simp only [Dpa.dpaEventHandler, at_]
      split_ifs with differ
      · exact { synced with present := fun _ => synced.polls.mp differ }
      · exact { synced with present := fun processing => by simp at processing }
  | processing =>
      simp only [Dpa.dpaEventHandler, at_]
      exact synced.stepCq small (synced.present at_)
  | arming =>
      simp only [Dpa.dpaEventHandler, at_]
      exact { synced with present := fun processing => by simp at processing }

end Synced

theorem loaded_synced {k : Nat} {ring : List Cqe} (cqNum : Nat)
    (owned : AllOwned k ring) :
    Synced k (dpaDeviceInit cqNum (loaded ring)) := by
  have positive := Nat.two_pow_pos k
  refine ⟨rfl, fun i _ bound => ?_, rfl, le_rfl, Nat.zero_le _, ?_, rfl, ?_, fun at_ => by cases at_⟩
  · have inside : i < 2 ^ k := by simpa [dpaDeviceInit, loaded] using bound
    simp [dpaDeviceInit, loaded, show ring = _ from owned, entry, Nat.mod_eq_of_lt inside,
      Nat.div_eq_of_lt inside, inside, List.getD_eq_getElem?_getD]
  · simp [dpaDeviceInit, loaded, initCq]
  · simp [dpaDeviceInit, loaded, initCq]

theorem step_synced {k : Nat} (small : k < 32) {d e : Device} {turn : Turn} (synced : Synced k d)
    (stepped : step k d turn = .ok e) : Synced k e := by
  cases turn with
  | nic =>
      rw [step] at stepped
      split_ifs at stepped with room
      cases stepped
      exact synced.nicWrite room
  | handler =>
      cases stepped
      exact synced.dpaEventHandler small

/-- What holds of the device at any time: completions are consumed in the order in which they were
written, from entries that hold them, and polling stops only when all have been consumed. -/
structure InOrder (k : Nat) (d : Device) : Prop where
  consumed : d.consumed = (List.range d.consumed.length).map some
  behind : d.consumed.length ≤ d.written
  fresh : d.pc = .processing → d.consumed.length < d.written ∧
    (d.ring d.rqcqCtx.cqe).completion = some d.consumed.length
  stops : d.pc = .polling → ((dpaEventHandler (2 ^ k - 1) d).pc = .arming ↔
    d.consumed.length = d.written)
  continues : d.pc = .polling → ((dpaEventHandler (2 ^ k - 1) d).pc = .processing ↔
    d.consumed.length < d.written)

theorem Synced.inOrder {k : Nat} {d : Device} (synced : Synced k d) : InOrder k d where
  consumed := synced.consumed
  behind := synced.behind
  fresh at_ := ⟨synced.present at_, by rw [synced.current (synced.present at_)]⟩
  stops at_ := by
    have behind := synced.behind
    have polls := synced.polls
    simp only [Dpa.dpaEventHandler, at_]
    split_ifs with differ
    · have := polls.mp differ
      simp only [false_iff]
      omega
    · have := mt polls.mpr differ
      simp only [true_iff]
      omega
  continues at_ := by
    have polls := synced.polls
    simp only [Dpa.dpaEventHandler, at_]
    split_ifs with differ
    · simpa using polls.mp differ
    · simpa using mt polls.mpr differ

def Pc.delay : Pc → Nat
  | .processing => 0
  | .polling => 1
  | .rescheduled => 2
  | .arming => 3

def Device.distance (d : Device) (w : Nat) : Nat := 2 * (w - d.consumed.length) + d.pc.delay

theorem nicWrite_distance (n w : Nat) (d : Device) : (nicWrite n d).distance w = d.distance w := rfl

theorem Synced.approaches {k w : Nat} {d : Device} (synced : Synced k d) (written : w ≤ d.written)
    (waiting : d.consumed.length < w) :
    (Dpa.dpaEventHandler (2 ^ k - 1) d).distance w + 1 = d.distance w := by
  have differ := synced.polls.mpr (waiting.trans_le written)
  cases at_ : d.pc with
  | rescheduled =>
      simp only [Dpa.dpaEventHandler, Device.distance, at_, if_pos synced.initialized, Pc.delay]
  | polling => simp only [Dpa.dpaEventHandler, Device.distance, at_, if_pos differ, Pc.delay]
  | processing =>
      simp only [Dpa.dpaEventHandler, Device.distance, at_, Pc.delay, List.length_append,
        List.length_singleton]
      omega
  | arming => simp only [Dpa.dpaEventHandler, Device.distance, at_, Pc.delay]

theorem dpaEventHandler_kept (mask : Nat) (d : Device) :
    d.consumed.length ≤ (dpaEventHandler mask d).consumed.length ∧
      (dpaEventHandler mask d).written = d.written := by
  cases at_ : d.pc with
  | rescheduled =>
      simp only [dpaEventHandler, at_]
      split_ifs <;> exact ⟨le_rfl, rfl⟩
  | polling =>
      simp only [dpaEventHandler, at_]
      split_ifs <;> exact ⟨le_rfl, rfl⟩
  | processing =>
      rw [dpaEventHandler, at_]
      exact ⟨by rw [List.length_append]; exact Nat.le_add_right _ _, rfl⟩
  | arming =>
      rw [dpaEventHandler, at_]
      exact ⟨le_rfl, rfl⟩

theorem step_kept {k : Nat} {d e : Device} {turn : Turn} (stepped : step k d turn = .ok e) :
    d.consumed.length ≤ e.consumed.length ∧ d.written ≤ e.written := by
  cases turn with
  | nic =>
      rw [step] at stepped
      split_ifs at stepped
      cases stepped
      exact ⟨le_rfl, Nat.le_succ _⟩
  | handler =>
      cases stepped
      obtain ⟨consumed, written⟩ := dpaEventHandler_kept (2 ^ k - 1) d
      exact ⟨consumed, written.ge⟩

theorem run_kept {k : Nat} {d e : Device} {turns : List Turn} (ran : run (step k) d turns = .ok e) :
    d.consumed.length ≤ e.consumed.length := by
  induction turns generalizing d with
  | nil =>
      cases ran
      exact le_rfl
  | cons turn turns ih =>
      obtain ⟨next, stepped, rest⟩ := run_cons_ok.mp ran
      exact (step_kept stepped).1.trans (ih rest)

theorem run_consumes {k w : Nat} (small : k < 32) {d e : Device} {turns : List Turn}
    (synced : Synced k d) (written : w ≤ d.written) (ran : run (step k) d turns = .ok e)
    (enough : d.distance w ≤ turns.count .handler + 1) : w ≤ e.consumed.length := by
  induction turns generalizing d with
  | nil =>
      cases ran
      rw [Device.distance, List.count_nil] at enough
      omega
  | cons turn turns ih =>
      obtain ⟨next, stepped, rest⟩ := run_cons_ok.mp ran
      have kept := step_synced small synced stepped
      have later := written.trans (step_kept stepped).2
      by_cases waiting : d.consumed.length < w
      · refine ih kept later rest ?_
        cases turn with
        | nic =>
            rw [step] at stepped
            split_ifs at stepped
            cases stepped
            rwa [nicWrite_distance, ← List.count_cons_of_ne (by decide : Turn.nic ≠ .handler)]
        | handler =>
            cases stepped
            have closer := synced.approaches written waiting
            rw [List.count_cons_self] at enough
            omega
      · exact (Nat.le_of_not_lt waiting).trans (run_kept ran)

/-- The host sets up the ring whenever the driver and memory allow it, for every depth up to 30.
Whatever ring it sets up, the handler consumes all completions in order from it, and within two of its
steps for each. -/
theorem completions_in_order {k : Nat} (bound : k < 32) (env : HostEnv) (appCq : DpaCq)
    (overflow : ∀ count size, 2 ^ 64 ≤ count * size → env.calloc count size = false) :
    (k < 31 → env.allocateDbr.isSome → env.calloc (2 ^ k) 64 →
        (env.copyFromHost (2 ^ k * 64)).isSome →
        (allocateCqMemory env k appCq).1 = .NICC_SUCCESS) ∧
      (∀ cq, allocateCqMemory env k appCq = (.NICC_SUCCESS, cq) → AllOwned k cq.ring) ∧
      ∀ ring, AllOwned k ring → ∀ cqNum turns d,
        run (step k) (dpaDeviceInit cqNum (loaded ring)) turns = .ok d →
          InOrder k d ∧ ∀ more e, run (step k) d more = .ok e →
            2 * (d.written - d.consumed.length) + 2 ≤ more.count .handler →
              d.written ≤ e.consumed.length := by
  refine ⟨fun small doorbell memory copied => ?_, fun cq success => ?_,
    fun ring owned cqNum turns d ran => ?_⟩
  · obtain ⟨dbr, doorbell⟩ := Option.isSome_iff_exists.mp doorbell
    obtain ⟨daddr, copied⟩ := Option.isSome_iff_exists.mp copied
    simp [allocateCqMemory_small env appCq small, doorbell, memory, copied]
  · exact allocateCqMemory_success bound overflow success
  · have synced := run_invariant (Synced k) (fun _ => True)
      (fun _ _ _ synced _ stepped => step_synced bound synced stepped)
      (loaded_synced cqNum owned) (fun _ _ => trivial) ran
    refine ⟨synced.inOrder, fun more e ran enough => run_consumes bound synced le_rfl ran ?_⟩
    have delay : d.pc.delay ≤ 3 := by cases d.pc <;> decide
    rw [Device.distance]
    omega

def oneByOne : List Turn := .handler :: (List.replicate 130 [.nic, .handler, .handler]).flatten

theorem completions_in_order_depth_seven :
    ∃ env cq d, allocateCqMemory env 7 ⟨0, 0, []⟩ = (.NICC_SUCCESS, cq) ∧ AllOwned 7 cq.ring ∧
      run (step 7) (dpaDeviceInit 0 (loaded cq.ring)) oneByOne = .ok d ∧ InOrder 7 d ∧
      d.consumed = (List.range 130).map some := by
  let env : HostEnv := ⟨some 64, fun count size => count * size < 2 ^ 64, fun _ => some 4096⟩
  obtain ⟨sets, owned, ordered⟩ := completions_in_order (by decide : 7 < 32) env ⟨0, 0, []⟩
    (fun count size large => by simpa [env] using large)
  have success := sets (by decide) rfl rfl rfl
  let cq := (allocateCqMemory env 7 ⟨0, 0, []⟩).2
  have all : AllOwned 7 cq.ring := owned cq (Prod.ext success rfl)
  have number : (run (step 7) (dpaDeviceInit 0 (loaded cq.ring)) oneByOne).map
      (·.consumed.length) = .ok 130 := by decide +kernel
  obtain ⟨d, ran, length⟩ := map_eq_ok.mp number
  have inOrder := (ordered cq.ring all 0 oneByOne d ran).1
  refine ⟨env, cq, d, Prod.ext success rfl, all, ran, inOrder, ?_⟩
  rw [inOrder.consumed, length]

end Nicc.Dpa

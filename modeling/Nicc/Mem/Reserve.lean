import Nicc.Mem.Partition
import Mathlib.Data.Nat.Bitwise
import Mathlib.Algebra.BigOperators.Ring.List

namespace Nicc
open Lib HugeAlloc

variable {P : Type}

def kHugepageSize : UInt64 := 2 * 1024 * 1024

def roundUp (powerOfTwoNumber x : UInt64) : UInt64 :=
  (x + (powerOfTwoNumber - 1)) &&& ~~~(powerOfTwoNumber - 1)

structure ShmRegion where
  shmKey : Int
  buf : Nat
  size : Nat
  registered : Bool

def ShmRegion.block (r : ShmRegion) : Block := ⟨r.buf, r.size⟩

def ShmRegion.new (shmKey : Int) (buf size : Nat) (registered : Bool) : Except String ShmRegion := do
  assertThat (size % kHugepageSize.toNat = 0) "size % kHugepageSize == 0"
  return ⟨shmKey, buf, size, registered⟩

inductive Errno
  | EEXIST
  | EACCES
  | EINVAL
  | ENOMEM
  | other (strerror : String)

/-- What the system answers: one draw and one answer of `shmget` for each key that is tried, the
address of the mapping, and whether it can be bound to the node. -/
structure ShmAnswers where
  shmget : List (UInt64 × Except Errno Nat)
  shmat : Nat
  mbind : Bool

def shmKey (draw : UInt64) : Int := draw.toUInt32.toInt32.abs.toInt

def xmsg (size : Nat) : Errno → String
  | .EACCES => "eRPC HugeAlloc: SHM allocation error. Insufficient permissions."
  | .EINVAL => "eRPC HugeAlloc: SHM allocation error: SHMMAX/SHMIN mismatch. size = " ++
      toString size ++ " (" ++ toString (size / (1024 * 1024)) ++ " MB)."
  | .other strerror => "eRPC HugeAlloc: Unexpected SHM malloc error " ++ strerror
  | _ => ""

/-- The loop over the keys. Without hugepages there is no key. -/
def shmgetLoop (size : Nat) : List (UInt64 × Except Errno Nat) → Except String (Option Int)
  | [] => .error "while (true)"
  | (_, .error .EEXIST) :: tries => shmgetLoop size tries
  | (_, .error .ENOMEM) :: _ => .ok none
  | (_, .error errno) :: _ => .error (xmsg size errno)
  | (draw, .ok _) :: _ => .ok (some (shmKey draw))

/-- An allocator in use, with its list of mappings and the statistics over them. `asked` records the
size that was asked for with each of them. -/
structure RawSession (P : Type) where
  session : Session P
  shmList : List ShmRegion
  shmReserved : Nat
  asked : List UInt64

namespace RawSession

def empty : RawSession P := ⟨.empty, [], 0, []⟩

def allocRaw (s : RawSession P) (asked : UInt64) (doRegister : Bool) (a : ShmAnswers) :
    Except String (Buffer P × RawSession P) := do
  let size := (roundUp kHugepageSize asked).toNat
  match ← shmgetLoop size a.shmget with
  | none => return (.new 0 0 0, s)
  | some key =>
      assertThat (a.shmat ≠ 0) ("eRPC HugeAlloc: shmat() failed. Key = " ++ toString key)
      assertThat (a.mbind = true) ("eRPC HugeAlloc: mbind() failed. Key " ++ toString key)
      let region ← ShmRegion.new key a.shmat size doRegister
      return (.new a.shmat (2 ^ 64 - 1) (2 ^ 32 - 1), { s with
        shmList := s.shmList ++ [region]
        shmReserved := (s.shmReserved + size) % 2 ^ 64
        asked := s.asked ++ [asked] })

def reserveHugepages (s : RawSession P) (size : UInt64) (a : ShmAnswers) :
    Except String (Bool × RawSession P) := do
  assertThat (kMaxClassSize ≤ size.toNat) "size >= k_max_class_size"
  let (buffer, s) ← s.allocRaw size true a
  if buffer.buf = 0 then return (false, s)
  let numBuffers := size.toNat / kMaxClassSize
  assertThat (1 ≤ numBuffers) "num_buffers >= 1"
  let heap := (rawChunks buffer numBuffers).foldl
    (fun h chunk => h.pushBack (kNumClasses - 1) chunk) s.session.heap
  return (true, { s with session := { s.session with
    heap := heap
    regions := ⟨buffer.buf, numBuffers * kMaxClassSize, buffer.lkey⟩ :: s.session.regions } })

def getStatShmReserved (s : RawSession P) : Except String Nat := do
  assertThat (s.shmReserved % kHugepageSize.toNat = 0) "stats_.shm_reserved_ % kHugepageSize == 0"
  return s.shmReserved

def getStatUserAllocTot (s : RawSession P) : Except String Nat := do
  assertThat (s.session.heap.userAllocTot % kMinClassSize = 0)
    "stats_.user_alloc_tot_ % k_min_class_size == 0"
  return s.session.heap.userAllocTot

def destructor (shmdt : Nat → Bool) (s : RawSession P) : Except String (List Nat) :=
  s.shmList.mapM fun r => do
    assertThat (shmdt r.buf) ("HugeAlloc: Error freeing SHM buf for key " ++ toString r.shmKey)
    return r.buf

inductive RawCall (P : Type)
  | allocRaw (size : UInt64) (doRegister : Bool) (a : ShmAnswers)
  | reserveHugepages (size : UInt64) (a : ShmAnswers)
  | heap (call : Call P)

def step (s : RawSession P) : RawCall P → Except String (RawSession P)
  | .allocRaw size doRegister a => Prod.snd <$> s.allocRaw size doRegister a
  | .reserveHugepages size a => Prod.snd <$> s.reserveHugepages size a
  | .heap call => do
      let session ← s.session.step call
      return { s with session := session }

/-- What the system promises of a mapping that it has bound: it is not empty, it lies in the address
space, and it lies apart from the others. -/
def Maps (s : RawSession P) (asked : UInt64) (a : ShmAnswers) : Prop :=
  let size := (roundUp kHugepageSize asked).toNat
  a.mbind = true → (∃ key, shmgetLoop size a.shmget = .ok (some key)) →
    0 < size ∧ a.shmat + size ≤ 2 ^ 64 ∧
      ∀ r ∈ s.shmList, Disjoint r.block.bytes (Block.bytes ⟨a.shmat, size⟩)

/-- The user gives the freelists memory that came from `alloc_raw`. -/
def Legal (s : RawSession P) : RawCall P → Prop
  | .allocRaw asked _ a => s.Maps asked a
  | .reserveHugepages asked a => s.Maps asked a
  | .heap call => s.session.Legal call ∧ ∀ buf size, call = .addRawBuffer buf size →
      ∃ m ∈ s.shmList, m.buf ≤ buf.buf ∧ buf.buf + size ≤ m.buf + m.size

structure Held (s : RawSession P) : Prop where
  partitioned : s.session.Partitioned
  backed : ∀ b ∈ s.session.buffers, ∃ m ∈ s.shmList,
    m.buf ≤ b.buf ∧ b.buf + b.classSize ≤ m.buf + m.size
  apart : (s.shmList.map fun m => m.block.bytes).Pairwise Disjoint
  sizes : List.Forall₂ (fun asked m => IsLeast {n | kHugepageSize.toNat ∣ n ∧ asked.toNat ≤ n} m.size)
    s.asked s.shmList
  reserved : s.getStatShmReserved = .ok (s.shmList.map ShmRegion.size).sum
  allocated : s.getStatUserAllocTot = .ok (s.session.outstanding.map Buffer.classSize).sum
  detached : s.destructor (fun _ => true) = .ok (s.shmList.map ShmRegion.buf) ∧
    (s.shmList.map ShmRegion.buf).Nodup

end RawSession

theorem and_not_low {w : Nat} (x : BitVec w) (k : Nat) :
    x &&& ~~~(BitVec.ofNat w (2 ^ k - 1)) = (x >>> k) <<< k := by
  apply BitVec.eq_of_getLsbD_eq
  intro i bound
  rw [BitVec.getLsbD_and, BitVec.getLsbD_not, BitVec.getLsbD_ofNat, Nat.testBit_two_pow_sub_one,
    BitVec.getLsbD_shiftLeft, BitVec.getLsbD_ushiftRight]
  by_cases low : i < k
  · simp [bound, low]
  · have back : k + (i - k) = i := by omega
    simp [bound, low, back]

theorem roundUp_toNat (x : UInt64) : (roundUp kHugepageSize x).toNat =
    (x.toNat + (2 ^ 21 - 1)) % 2 ^ 64 / 2 ^ 21 * 2 ^ 21 := by
  have bits : (roundUp kHugepageSize x).toBitVec =
      ((x + (kHugepageSize - 1)).toBitVec >>> 21) <<< 21 := and_not_low _ 21
  have low : (kHugepageSize - 1).toNat = 2 ^ 21 - 1 := rfl
  rw [← UInt64.toNat_toBitVec, bits, BitVec.toNat_shiftLeft, BitVec.toNat_ushiftRight,
    UInt64.toNat_toBitVec, UInt64.toNat_add, low, Nat.shiftRight_eq_div_pow, Nat.shiftLeft_eq]
  omega

theorem roundUp_least {x : UInt64} (positive : 0 < (roundUp kHugepageSize x).toNat) :
    IsLeast {n | kHugepageSize.toNat ∣ n ∧ x.toNat ≤ n} (roundUp kHugepageSize x).toNat := by
  have size : kHugepageSize.toNat = 2 ^ 21 := rfl
  have word := x.toNat_lt
  rw [roundUp_toNat] at positive ⊢
  rw [size]
  refine ⟨⟨Nat.dvd_mul_left _ _, ?_⟩, ?_⟩
  · omega
  · rintro n ⟨⟨k, rfl⟩, fits⟩
    omega

namespace RawSession

structure Backed (s : RawSession P) : Prop where
  tiles : Tiles s.session.regions s.session.heap s.session.outstanding
  inside : ∀ r ∈ s.session.regions, ∃ m ∈ s.shmList,
    m.buf ≤ r.base ∧ r.base + r.size ≤ m.buf + m.size
  once : ∀ a, coverage (s.shmList.map ShmRegion.block) a ≤ 1
  mapped : ∀ m ∈ s.shmList, 0 < m.buf ∧ 0 < m.size ∧ m.buf + m.size ≤ 2 ^ 64
  sizes : List.Forall₂ (fun asked m => IsLeast {n | kHugepageSize.toNat ∣ n ∧ asked.toNat ≤ n} m.size)
    s.asked s.shmList
  reserved : s.shmReserved = (s.shmList.map ShmRegion.size).sum

theorem sum_lt {shmList : List ShmRegion} (once : ∀ a, coverage (shmList.map ShmRegion.block) a ≤ 1)
    (mapped : ∀ m ∈ shmList, 0 < m.buf ∧ 0 < m.size ∧ m.buf + m.size ≤ 2 ^ 64) :
    (shmList.map ShmRegion.size).sum < 2 ^ 64 := by
  have inside : ∀ b ∈ shmList.map ShmRegion.block, 1 ≤ b.base ∧ b.base + b.size ≤ 2 ^ 64 := by
    intro b member
    obtain ⟨m, present, rfl⟩ := List.mem_map.mp member
    obtain ⟨positive, -, space⟩ := mapped m present
    exact ⟨positive, space⟩
  have bound := sum_size_le once inside
  rw [List.map_map] at bound
  change (shmList.map ShmRegion.size).sum ≤ 2 ^ 64 - 1 at bound
  omega

def map (s : RawSession P) (asked : UInt64) (m : ShmRegion) : RawSession P :=
  { s with
    shmList := s.shmList ++ [m]
    shmReserved := (s.shmReserved + m.size) % 2 ^ 64
    asked := s.asked ++ [asked] }

theorem Backed.map {s : RawSession P} (backed : s.Backed) {asked : UInt64} {m : ShmRegion}
    (address : 0 < m.buf) (positive : 0 < m.size) (space : m.buf + m.size ≤ 2 ^ 64)
    (least : IsLeast {n | kHugepageSize.toNat ∣ n ∧ asked.toNat ≤ n} m.size)
    (apart : ∀ r ∈ s.shmList, Disjoint r.block.bytes m.block.bytes) : (s.map asked m).Backed := by
  have mapped : ∀ r ∈ s.shmList ++ [m], 0 < r.buf ∧ 0 < r.size ∧ r.buf + r.size ≤ 2 ^ 64 := by
    intro r member
    rcases List.mem_append.mp member with old | new
    · exact backed.mapped r old
    · rw [List.mem_singleton.mp new]
      exact ⟨address, positive, space⟩
  have once : ∀ a, coverage ((s.shmList ++ [m]).map ShmRegion.block) a ≤ 1 := by
    intro a
    have before := backed.once a
    rw [List.map_append, coverage_append]
    change _ + coverage [m.block] a ≤ 1
    rw [coverage_single]
    split_ifs with within
    · have outside : ¬ 0 < coverage (s.shmList.map ShmRegion.block) a := by
        rw [coverage_pos]
        rintro ⟨b, member, there⟩
        obtain ⟨r, old, rfl⟩ := List.mem_map.mp member
        exact Set.disjoint_left.mp (apart r old) there within
      omega
    · omega
  refine ⟨backed.tiles, fun r member => ?_, once, mapped, ?_, ?_⟩
  · obtain ⟨old, known, bounds⟩ := backed.inside r member
    exact ⟨old, List.mem_append_left _ known, bounds⟩
  · exact List.rel_append backed.sizes (.cons least .nil)
  · have total := sum_lt once mapped
    rw [List.map_append, List.sum_append] at total
    change (s.shmReserved + m.size) % 2 ^ 64 = ((s.shmList ++ [m]).map ShmRegion.size).sum
    rw [List.map_append, List.sum_append, backed.reserved]
    exact Nat.mod_eq_of_lt total

theorem allocRaw_ok {s t : RawSession P} (backed : s.Backed) {asked : UInt64} {doRegister : Bool}
    {a : ShmAnswers} {buffer : Buffer P} (legal : s.Maps asked a)
    (ran : s.allocRaw asked doRegister a = .ok (buffer, t)) :
    (t = s ∧ buffer.buf = 0) ∨ ∃ m, t = s.map asked m ∧ t.Backed ∧ buffer.buf = m.buf ∧
      0 < m.buf ∧ asked.toNat ≤ m.size ∧ m.buf + m.size ≤ 2 ^ 64 ∧
      ∀ r ∈ s.shmList, Disjoint r.block.bytes m.block.bytes := by
  simp only [allocRaw, bind_eq_ok] at ran
  obtain ⟨key, looped, ran⟩ := ran
  cases key with
  | none =>
      cases ran
      exact .inl ⟨rfl, rfl⟩
  | some key =>
      simp only [bind_eq_ok, assertThat_ok, ShmRegion.new, pure_eq_ok, Prod.mk.injEq] at ran
      obtain ⟨-, address, -, bound, m, ⟨-, -, rfl⟩, same, rfl⟩ := ran
      obtain ⟨positive, space, apart⟩ := legal bound ⟨key, looped⟩
      have least := roundUp_least positive
      refine .inr ⟨_, rfl, ?_, by rw [← same, Buffer.new_buf], Nat.pos_of_ne_zero address,
        least.1.2, space, apart⟩
      exact backed.map (Nat.pos_of_ne_zero address) positive space least apart

theorem Backed.reserveHugepages {s t : RawSession P} (backed : s.Backed) {asked : UInt64}
    {a : ShmAnswers} {success : Bool} (legal : s.Maps asked a)
    (ran : s.reserveHugepages asked a = .ok (success, t)) : t.Backed := by
  simp only [RawSession.reserveHugepages, bind_eq_ok, assertThat_ok] at ran
  obtain ⟨-, -, ⟨buffer, u⟩, allocated, ran⟩ := ran
  rcases allocRaw_ok backed legal allocated with
    ⟨rfl, null⟩ | ⟨m, mapped, backedThen, same, address, fits, space, apart⟩
  · rw [if_pos null] at ran
    cases ran
    exact backed
  · have nonnull : ¬ buffer.buf = 0 := by omega
    simp only [nonnull, if_false, bind_eq_ok, assertThat_ok, pure_eq_ok, Prod.mk.injEq] at ran
    obtain ⟨-, positive, -, rfl⟩ := ran
    have whole : asked.toNat / kMaxClassSize * kMaxClassSize ≤ m.size :=
      (Nat.div_mul_le_self _ _).trans fits
    have untouched : u.session = s.session := by rw [mapped]; rfl
    have known : u.shmList = s.shmList ++ [m] := by rw [mapped]; rfl
    have outside : ∀ r ∈ s.session.regions, Disjoint r.block.bytes
        (Block.bytes ⟨buffer.buf, asked.toNat / kMaxClassSize * kMaxClassSize⟩) := by
      intro r member
      obtain ⟨old, there, below, above⟩ := backed.inside r member
      refine Set.disjoint_of_subset ?_ ?_ (apart old there)
      · intro x within
        rw [Block.mem_bytes] at within ⊢
        simp only [Region.block, ShmRegion.block] at within ⊢
        omega
      · intro x within
        rw [Block.mem_bytes] at within ⊢
        simp only [ShmRegion.block] at within ⊢
        omega
    obtain ⟨heap, added, tiles⟩ := backed.tiles.addRawBuffer buffer positive
      (by omega) (by omega) outside
    rw [addRawBuffer_multiple s.session.heap buffer positive] at added
    cases added
    rw [untouched]
    refine { backedThen with tiles := tiles, inside := fun r member => ?_ }
    rcases List.mem_cons.mp member with rfl | old
    · exact ⟨m, by simp [known], by simp [same], by simp only [same]; omega⟩
    · obtain ⟨n, there, bounds⟩ := backed.inside r old
      exact ⟨n, by simp [known, there], bounds⟩

theorem Backed.heap {s : RawSession P} (backed : s.Backed) {call : Call P}
    (legal : s.Legal (.heap call)) {session : Session P}
    (ran : s.session.step call = .ok session) : ({ s with session := session } : RawSession P).Backed := by
  obtain ⟨t, stepped, tiles⟩ := Session.step_tiles backed.tiles legal.1
  obtain rfl := Except.ok.inj (ran.symm.trans stepped)
  refine { backed with tiles := tiles, inside := fun r member => ?_ }
  cases call with
  | addRawBuffer buf size =>
      simp only [Session.step, bind_eq_ok, pure_eq_ok] at ran
      obtain ⟨heap, -, rfl⟩ := ran
      rcases List.mem_cons.mp member with rfl | old
      · exact legal.2 buf size rfl
      · exact backed.inside r old
  | alloc size =>
      simp only [Session.step, bind_eq_ok, pure_eq_ok] at ran
      obtain ⟨_, -, rfl⟩ := ran
      exact backed.inside r member
  | freeBuf buffer =>
      simp only [Session.step, bind_eq_ok, pure_eq_ok] at ran
      obtain ⟨heap, -, rfl⟩ := ran
      exact backed.inside r member

theorem Backed.step {s t : RawSession P} (backed : s.Backed) {call : RawCall P}
    (legal : s.Legal call) (ran : s.step call = .ok t) : t.Backed := by
  cases call with
  | allocRaw asked doRegister a =>
      simp only [RawSession.step, map_eq_ok] at ran
      obtain ⟨⟨buffer, u⟩, allocated, rfl⟩ := ran
      rcases allocRaw_ok backed legal allocated with ⟨rfl, -⟩ | ⟨m, -, backed, -⟩
      · exact backed
      · exact backed
  | reserveHugepages asked a =>
      simp only [RawSession.step, map_eq_ok] at ran
      obtain ⟨⟨success, u⟩, reserved, rfl⟩ := ran
      exact backed.reserveHugepages legal reserved
  | heap call =>
      simp only [RawSession.step, bind_eq_ok, pure_eq_ok] at ran
      obtain ⟨session, stepped, rfl⟩ := ran
      exact backed.heap legal stepped

theorem empty_backed : (empty : RawSession P).Backed where
  tiles := Session.empty_tiles
  inside := by simp [empty, Session.empty]
  once := by simp [empty]
  mapped := by simp [empty]
  sizes := .nil
  reserved := rfl

theorem detach_all (regions : List ShmRegion) :
    (regions.mapM fun r => do
      assertThat (true = true) ("HugeAlloc: Error freeing SHM buf for key " ++ toString r.shmKey)
      return r.buf) = .ok (regions.map ShmRegion.buf) := by
  induction regions with
  | nil => rfl
  | cons r regions ih =>
      rw [List.mapM_cons, ih]
      rfl

theorem Backed.whole {s : RawSession P} (backed : s.Backed) :
    ∀ m ∈ s.shmList, kHugepageSize.toNat ∣ m.size := by
  have sizes := backed.sizes
  generalize s.asked = asked at sizes
  generalize s.shmList = shmList at sizes ⊢
  induction sizes with
  | nil => simp
  | cons least _ ih =>
      intro m member
      rcases List.mem_cons.mp member with rfl | later
      · exact least.1.1
      · exact ih m later

theorem Backed.held {s : RawSession P} (backed : s.Backed) : s.Held where
  partitioned := Session.partitioned_of_tiles backed.tiles
  backed b member := by
    obtain ⟨r, given, placed⟩ := (Session.partitioned_of_tiles backed.tiles).placed b member
    obtain ⟨m, mapped, below, above⟩ := backed.inside r given
    obtain ⟨low, high⟩ := placed.inside
    exact ⟨m, mapped, by omega, by omega⟩
  apart := by
    have apart := disjoint_of_coverage backed.once
    rwa [List.map_map] at apart
  sizes := backed.sizes
  reserved := by
    have whole : kHugepageSize.toNat ∣ (s.shmList.map ShmRegion.size).sum := by
      refine List.dvd_sum fun n member => ?_
      obtain ⟨m, mapped, rfl⟩ := List.mem_map.mp member
      exact backed.whole m mapped
    rw [getStatShmReserved, backed.reserved, assertThat_holds (Nat.mod_eq_zero_of_dvd whole)]
    rfl
  allocated := by
    have whole : kMinClassSize ∣ (s.session.outstanding.map Buffer.classSize).sum := by
      refine List.dvd_sum fun n member => ?_
      obtain ⟨b, held, rfl⟩ := List.mem_map.mp member
      obtain ⟨r, -, -, i, -, -, -, size, -⟩ := backed.tiles.held b held
      rw [size, classMaxSize_eq]
      exact Nat.dvd_mul_right _ _
    rw [getStatUserAllocTot, backed.tiles.total, assertThat_holds (Nat.mod_eq_zero_of_dvd whole)]
    rfl
  detached := by
    refine ⟨detach_all s.shmList, ?_⟩
    have apart := disjoint_of_coverage backed.once
    rw [List.map_map, List.pairwise_map] at apart
    refine List.pairwise_map.mpr (apart.imp_of_mem fun {m n} first second disjoint same => ?_)
    have inside : m.buf ∈ m.block.bytes := ⟨le_rfl, Nat.lt_add_of_pos_right (backed.mapped m first).2.1⟩
    have insideToo : n.buf ∈ n.block.bytes :=
      ⟨le_rfl, Nat.lt_add_of_pos_right (backed.mapped n second).2.1⟩
    exact Set.disjoint_left.mp disjoint inside (same ▸ insideToo)

theorem holds_hugepages {calls : List (RawCall P)} {s : RawSession P}
    (legal : Admits step Legal empty calls) (ran : run step empty calls = .ok s) : s.Held :=
  (run_admitted Backed (fun _ _ _ backed legal ran => backed.step legal ran) empty_backed legal
    ran).held

theorem holds_hugepages_two_mappings : ∃ s, run step (empty : RawSession Nat)
    [.allocRaw 3000000 false ⟨[(5, .error .EEXIST), (6, .ok 1)], 0x200000, true⟩,
      .reserveHugepages 9437184 ⟨[(7, .ok 2)], 0x800000, true⟩] = .ok s ∧ s.Held := by
  have first : step (empty : RawSession Nat)
      (.allocRaw 3000000 false ⟨[(5, .error .EEXIST), (6, .ok 1)], 0x200000, true⟩) =
      .ok (empty.map 3000000 ⟨6, 0x200000, 0x400000, false⟩) := rfl
  obtain ⟨s, second⟩ : ∃ s, step ((empty : RawSession Nat).map 3000000
      ⟨6, 0x200000, 0x400000, false⟩) (.reserveHugepages 9437184 ⟨[(7, .ok 2)], 0x800000, true⟩) =
      .ok s := ⟨_, rfl⟩
  have ran := run_cons_ok.mpr ⟨_, first, run_cons_ok.mpr ⟨s, second, run_nil step s⟩⟩
  refine ⟨s, ran, holds_hugepages ?_ ran⟩
  refine ⟨?_, fun t ranFirst => ?_⟩
  · exact fun _ _ => ⟨by decide, by decide, by simp [empty]⟩
  · obtain rfl := Except.ok.inj (first.symm.trans ranFirst)
    refine ⟨fun _ _ => ⟨by decide, by decide, fun r member => ?_⟩, fun _ _ => trivial⟩
    obtain rfl : r = ⟨6, 0x200000, 0x400000, false⟩ := by simpa [RawSession.map, empty] using member
    refine Set.disjoint_left.mpr fun x low high => ?_
    rw [Block.mem_bytes] at low high
    simp only [ShmRegion.block] at low high
    omega

end RawSession

end Nicc

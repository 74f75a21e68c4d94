import Nicc.Mem.Buffer
import Mathlib.Order.Bounds.Basic
import Mathlib.Tactic.Linarith

namespace Nicc
open Lib

def kMinClassSize : Nat := 64
def kMinClassBitShift : Nat := 6
def kMaxClassSize : Nat := 8 * 1024 * 1024
def kNumClasses : Nat := 18

def classMaxSize (classI : Nat) : Nat := kMinClassSize * (1 <<< classI)

def countLeadingZeros (x : Nat) : Nat := 31 - x.log2

def msbIndex (x : Nat) : Except String Nat := do
  assertThat (x < (2 ^ 31 - 1) / 2) "x < INT32_MAX / 2"
  if x = 0 then return 0
  return 32 - countLeadingZeros x

/-- The size has been checked, so the cast to `int` keeps its value. -/
def getClass (size : Nat) : Except String Nat := do
  assertThat (1 ≤ size ∧ size ≤ kMaxClassSize) "size >= 1 && size <= k_max_class_size"
  msbIndex ((size - 1) >>> kMinClassBitShift)

def getClassSlowLoop (size : Nat) : Nat → Nat → Nat → Option Nat
  | 0, _, _ => none
  | fuel + 1, sizeClass, classLim =>
      if classLim < size then getClassSlowLoop size fuel (sizeClass + 1) (classLim * 2 % 2 ^ 64)
      else some sizeClass

def getClassSlow (fuel size : Nat) : Except String (Option Nat) := do
  assertThat (1 ≤ size ∧ size ≤ kMaxClassSize) "size >= 1 && size <= k_max_class_size"
  return getClassSlowLoop size fuel 0 kMinClassSize

theorem classMaxSize_eq (i : Nat) : classMaxSize i = kMinClassSize * 2 ^ i := by
  simp [classMaxSize, Nat.shiftLeft_eq]

theorem classMaxSize_pos (i : Nat) : 0 < classMaxSize i := by
  rw [classMaxSize_eq]
  exact Nat.mul_pos (by decide) (Nat.two_pow_pos i)

theorem classMaxSize_succ (i : Nat) : classMaxSize (i + 1) = 2 * classMaxSize i := by
  rw [classMaxSize_eq, classMaxSize_eq, Nat.pow_succ', Nat.mul_left_comm]

theorem classMaxSize_mono {i j : Nat} (le : i ≤ j) : classMaxSize i ≤ classMaxSize j := by
  rw [classMaxSize_eq, classMaxSize_eq]
  exact Nat.mul_le_mul_left _ (Nat.pow_le_pow_right (by decide) le)

theorem classMaxSize_le {i : Nat} (bound : i < kNumClasses) : classMaxSize i ≤ kMaxClassSize := by
  have last : classMaxSize (kNumClasses - 1) = kMaxClassSize := by decide
  rw [← last]
  exact classMaxSize_mono (Nat.le_sub_one_of_lt bound)

theorem msbIndex_spec {x : Nat} (bound : x < 2 ^ 17) :
    ∃ c, msbIndex x = .ok c ∧ ∀ i, x < 2 ^ i ↔ c ≤ i := by
  have small : x < (2 ^ 31 - 1) / 2 := by omega
  by_cases zero : x = 0
  · refine ⟨0, by simp [msbIndex, zero], fun i => ?_⟩
    simp [zero]
  · have top : x.log2 < 17 := (Nat.log2_lt zero).mpr bound
    refine ⟨32 - countLeadingZeros x, by simpa [msbIndex, zero] using small, fun i => ?_⟩
    rw [← Nat.log2_lt zero, countLeadingZeros]
    omega

theorem getClass_spec {size : Nat} (positive : 1 ≤ size) (bound : size ≤ kMaxClassSize) :
    ∃ c, getClass size = .ok c ∧ c < kNumClasses ∧ ∀ i, size ≤ classMaxSize i ↔ c ≤ i := by
  have shifted : (size - 1) >>> kMinClassBitShift = (size - 1) / 64 := Nat.shiftRight_eq_div_pow _ 6
  have range : (size - 1) / 64 < 2 ^ 17 := by
    simp only [kMaxClassSize] at bound
    omega
  obtain ⟨c, found, least⟩ := msbIndex_spec range
  have fits : ∀ i, size ≤ classMaxSize i ↔ c ≤ i := by
    intro i
    rw [← least i, classMaxSize_eq, kMinClassSize, Nat.div_lt_iff_lt_mul (by decide)]
    have := Nat.two_pow_pos i
    omega
  refine ⟨c, ?_, ?_, fits⟩
  · rw [getClass, assertThat_holds ⟨positive, bound⟩, shifted]
    exact found
  · exact Nat.lt_succ_of_le ((least 17).mp range)

theorem getClass_classMaxSize {i : Nat} (bound : i < kNumClasses) :
    getClass (classMaxSize i) = .ok i := by
  obtain ⟨c, found, -, least⟩ := getClass_spec (classMaxSize_pos i) (classMaxSize_le bound)
  have low : c ≤ i := (least i).mp le_rfl
  have high : i ≤ c := by
    by_contra less
    have fits : classMaxSize i ≤ classMaxSize c := (least c).mpr le_rfl
    have step : classMaxSize (c + 1) ≤ classMaxSize i := classMaxSize_mono (by omega)
    rw [classMaxSize_succ] at step
    have := classMaxSize_pos c
    omega
  rw [found, Nat.le_antisymm low high]

theorem getClassSlowLoop_eq {size c : Nat} (bound : c < kNumClasses)
    (least : ∀ i, size ≤ classMaxSize i ↔ c ≤ i) {left sizeClass : Nat}
    (position : sizeClass + left = c) (spare : Nat) :
    getClassSlowLoop size (left + 1 + spare) sizeClass (classMaxSize sizeClass) = some c := by
  induction left generalizing sizeClass with
  | zero =>
      have fits : ¬ classMaxSize sizeClass < size := by
        rw [Nat.not_lt, least]
        omega
      rw [Nat.add_right_comm, getClassSlowLoop, if_neg fits]
      exact congrArg some position
  | succ left ih =>
      have short : classMaxSize sizeClass < size := by
        rw [← Nat.not_le, least]
        omega
      -- The limit is a size of a class again, and as such it does not wrap around.
      have doubled : classMaxSize sizeClass * 2 % 2 ^ 64 = classMaxSize (sizeClass + 1) := by
        have fits : classMaxSize (sizeClass + 1) ≤ kMaxClassSize := classMaxSize_le (by omega)
        have word : kMaxClassSize < 2 ^ 64 := by decide
        rw [Nat.mul_comm, ← classMaxSize_succ]
        exact Nat.mod_eq_of_lt (fits.trans_lt word)
      rw [Nat.add_right_comm, getClassSlowLoop, if_pos short, doubled]
      exact ih (by omega)

theorem getClass_eq_slow {size : Nat} (positive : 1 ≤ size) (bound : size ≤ kMaxClassSize) :
    ∃ c, msbIndex ((size - 1) >>> kMinClassBitShift) = .ok c ∧ getClass size = .ok c ∧
      (∀ fuel, kNumClasses ≤ fuel → getClassSlow fuel size = .ok (some c)) ∧
      c < kNumClasses ∧ IsLeast {i | size ≤ classMaxSize i} c := by
  obtain ⟨c, found, small, least⟩ := getClass_spec positive bound
  have checked : getClass size = msbIndex ((size - 1) >>> kMinClassBitShift) := by
    rw [getClass, assertThat_holds ⟨positive, bound⟩]
    rfl
  refine ⟨c, checked ▸ found, found, ?_, small, (least c).mpr le_rfl, fun i fits => (least i).mp fits⟩
  intro fuel enough
  have split : fuel = c + 1 + (fuel - (c + 1)) := by omega
  have loop : getClassSlowLoop size fuel 0 (classMaxSize 0) = some c := by
    rw [split]
    exact getClassSlowLoop_eq small least (Nat.zero_add c) _
  rw [getClassSlow, assertThat_holds ⟨positive, bound⟩]
  exact congrArg Except.ok loop

theorem getClass_eq_slow_boundary :
    ∃ c, msbIndex ((4097 - 1) >>> kMinClassBitShift) = .ok c ∧ getClass 4097 = .ok c ∧
      (∀ fuel, kNumClasses ≤ fuel → getClassSlow fuel 4097 = .ok (some c)) ∧
      c < kNumClasses ∧ IsLeast {i | 4097 ≤ classMaxSize i} c :=
  getClass_eq_slow (by decide) (by decide)

/-- The back of each `std::vector` is the end of its list. -/
structure HugeAlloc (P : Type) where
  freelist : Nat → List (Buffer P)
  userAllocTot : Nat

namespace HugeAlloc

variable {P : Type}

def empty : HugeAlloc P := ⟨fun _ => [], 0⟩

def pushBack (h : HugeAlloc P) (sizeClass : Nat) (buffer : Buffer P) : HugeAlloc P :=
  { h with freelist := Function.update h.freelist sizeClass (h.freelist sizeClass ++ [buffer]) }

def popBack (h : HugeAlloc P) (sizeClass : Nat) : Except String (Buffer P × HugeAlloc P) :=
  match (h.freelist sizeClass).getLast? with
  | none => .error "back() of an empty vector"
  | some buffer => .ok (buffer,
      { h with freelist := Function.update h.freelist sizeClass (h.freelist sizeClass).dropLast })

def split (h : HugeAlloc P) (sizeClass : Nat) : Except String (HugeAlloc P) := do
  assertThat (1 ≤ sizeClass) "size_class >= 1"
  assertThat ((h.freelist sizeClass).isEmpty = false) "!freelist_[size_class].empty()"
  assertThat ((h.freelist (sizeClass - 1)).isEmpty = true) "freelist_[size_class - 1].empty()"
  let (buffer, h) ← h.popBack sizeClass
  assertThat (buffer.classSize = classMaxSize sizeClass)
    "buffer->class_size_ == class_max_size(size_class)"
  let buffer0 := Buffer.new buffer.buf (buffer.classSize / 2) buffer.lkey
  let buffer1 := Buffer.new (buffer.buf + buffer.classSize / 2) (buffer.classSize / 2) buffer.lkey
  return (h.pushBack (sizeClass - 1) buffer0).pushBack (sizeClass - 1) buffer1

def allocFromClass (h : HugeAlloc P) (sizeClass : Nat) :
    Except String (Buffer P × HugeAlloc P) := do
  assertThat (sizeClass < kNumClasses) "size_class < k_num_classes"
  let (buffer, h) ← h.popBack sizeClass
  assertThat (buffer.classSize = classMaxSize sizeClass)
    "buffer->class_size_ == class_max_size(size_class)"
  return (buffer, { h with userAllocTot := (h.userAllocTot + buffer.classSize) % 2 ^ 64 })

def nextClass (h : HugeAlloc P) : Nat → Nat → Nat
  | 0, candidate => candidate
  | left + 1, candidate =>
      if (h.freelist candidate).isEmpty then h.nextClass left (candidate + 1) else candidate

def splitDown (h : HugeAlloc P) (sizeClass : Nat) : Nat → Except String (HugeAlloc P)
  | 0 => .ok h
  | left + 1 => do
      let h ← h.split (sizeClass + left + 1)
      h.splitDown sizeClass left

def alloc (h : HugeAlloc P) (size : Nat) : Except String (Option (Buffer P) × HugeAlloc P) := do
  assertThat (size ≤ kMaxClassSize) "size <= k_max_class_size"
  let sizeClass ← getClass size
  assertThat (sizeClass < kNumClasses) "size_class < k_num_classes"
  if (h.freelist sizeClass).isEmpty = false then
    let (buffer, h) ← h.allocFromClass sizeClass
    return (some buffer, h)
  else
    let next := h.nextClass (kNumClasses - (sizeClass + 1)) (sizeClass + 1)
    if next = kNumClasses then return (none, h)
    assertThat (next < kNumClasses) "next_class < k_num_classes"
    let h ← h.splitDown sizeClass (next - sizeClass)
    assertThat ((h.freelist sizeClass).isEmpty = false) "!freelist_[size_class].empty()"
    let (buffer, h) ← h.allocFromClass sizeClass
    return (some buffer, h)

/-- A full class of chunks is cut first, and the call on the remainder takes the other branch with
the same base address. The class index stands where the constructor expects a size. -/
def addRawBuffer (h : HugeAlloc P) (buf : Buffer P) (size : Nat) : Except String (HugeAlloc P) :=
  if _large : kMaxClassSize ≤ size then do
    let numBuffers := size / kMaxClassSize
    assertThat (1 ≤ numBuffers) "num_buffers >= 1"
    let chunks := (List.range numBuffers).map fun i =>
      Buffer.new (buf.buf + i * kMaxClassSize) kMaxClassSize buf.lkey
    let h := chunks.foldl (fun h chunk => h.pushBack (kNumClasses - 1) chunk) h
    let remainingSize := size % kMaxClassSize
    if 0 < remainingSize then h.addRawBuffer buf remainingSize else return h
  else do
    let sizeClass ← getClass size
    assertThat (sizeClass < kNumClasses) "size_class < k_num_classes"
    return h.pushBack sizeClass (Buffer.new buf.buf sizeClass buf.lkey)
termination_by size
decreasing_by exact (Nat.mod_lt size (by decide)).trans_le _large

def freeBuf (h : HugeAlloc P) (buffer : Buffer P) : Except String (HugeAlloc P) := do
  assertThat (buffer.buf ≠ 0) "buffer->buf_ != nullptr"
  let buffer := { buffer with length := 0, state := .kFREE_BUF }
  let sizeClass ← getClass buffer.classSize
  assertThat (classMaxSize sizeClass = buffer.classSize)
    "class_max_size(size_class) == buffer->class_size_"
  let h := h.pushBack sizeClass buffer
  return { h with userAllocTot := (h.userAllocTot + 2 ^ 64 - buffer.classSize) % 2 ^ 64 }

end HugeAlloc

end Nicc

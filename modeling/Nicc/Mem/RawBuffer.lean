import Nicc.Mem.Partition

namespace Nicc
open Lib

variable {P : Type}

namespace HugeAlloc

structure Adds (buf : Buffer P) (size : Nat) (added : Nat → List (Buffer P)) : Prop where
  disjoint : (((List.range kNumClasses).flatMap added).map fun b => b.block.bytes).Pairwise Disjoint
  inside : ∀ i, ∀ b ∈ added i, buf.buf ≤ b.buf ∧ b.buf + b.classSize ≤ buf.buf + size
  lkey : ∀ i, ∀ b ∈ added i, b.lkey = buf.lkey
  sized : ∀ i, ∀ b ∈ added i, i < kNumClasses ∧ b.classSize = classMaxSize i

/-- No assertion fails later, where the allocator was in order before the region came to it. -/
def KeepsServing (before after : HugeAlloc P) (buf : Buffer P) (size : Nat) : Prop :=
  ∀ regions outstanding, Tiles regions before outstanding →
    (∀ r ∈ regions, Disjoint r.block.bytes (Block.bytes ⟨buf.buf, size⟩)) →
    ∀ calls, Admits Session.step Session.Legal ⟨after, ⟨buf.buf, size, buf.lkey⟩ :: regions,
      outstanding⟩ calls →
    ∃ s, run Session.step ⟨after, ⟨buf.buf, size, buf.lkey⟩ :: regions, outstanding⟩ calls = .ok s

def AddsOnlyGiven (h : HugeAlloc P) (buf : Buffer P) (size : Nat) : Prop :=
  ∃ after added, h.addRawBuffer buf size = .ok after ∧
    (∀ i, after.freelist i = h.freelist i ++ added i) ∧ Adds buf size added ∧
    KeepsServing h after buf size

theorem rawChunks_adds (buf : Buffer P) (count : Nat) :
    Adds buf (count * kMaxClassSize)
      (fun i => if i = kNumClasses - 1 then rawChunks buf count else []) := by
  have last : classMaxSize (kNumClasses - 1) = kMaxClassSize := by decide
  have listed : ∀ {i : Nat} {b : Buffer P},
      b ∈ (if i = kNumClasses - 1 then rawChunks buf count else []) →
        i = kNumClasses - 1 ∧ ∃ k < count,
          b = Buffer.new (buf.buf + k * kMaxClassSize) kMaxClassSize buf.lkey := by
    intro i b member
    split_ifs at member with here
    · obtain ⟨k, bound, rfl⟩ := List.mem_map.mp member
      exact ⟨here, k, List.mem_range.mp bound, rfl⟩
    · cases member
  refine ⟨?_, fun i b member => ?_, fun i b member => ?_, fun i b member => ?_⟩
  · have mapped (l : List (Buffer P)) : l.map (fun b => b.block.bytes) =
        (l.map Buffer.block).map Block.bytes := by
      rw [List.map_map]
      rfl
    rw [mapped]
    apply disjoint_of_coverage
    intro a
    rw [coverage_flatMap, Finset.sum_eq_single (kNumClasses - 1), if_pos rfl, rawChunks_coverage,
      coverage_single]
    · split_ifs <;> omega
    · intro i _ other
      rw [if_neg other]
      rfl
    · intro missing
      exact absurd (Finset.mem_range.mpr (by decide)) missing
  · obtain ⟨-, k, bound, rfl⟩ := listed member
    have fits : (k + 1) * kMaxClassSize ≤ count * kMaxClassSize :=
      Nat.mul_le_mul_right _ (Nat.succ_le_of_lt bound)
    rw [Nat.add_mul, Nat.one_mul] at fits
    rw [Buffer.new_buf, Buffer.new_classSize]
    omega
  · obtain ⟨-, k, -, rfl⟩ := listed member
    exact Buffer.new_lkey ..
  · obtain ⟨rfl, k, -, rfl⟩ := listed member
    exact ⟨by decide, (Buffer.new_classSize ..).trans last.symm⟩

theorem addRawBuffer_multiple_adds (h : HugeAlloc P) (buf : Buffer P) {count : Nat}
    (positive : 1 ≤ count) (mapped : 0 < buf.buf)
    (space : buf.buf + count * kMaxClassSize ≤ 2 ^ 64) :
    AddsOnlyGiven h buf (count * kMaxClassSize) := by
  refine ⟨_, _, addRawBuffer_multiple h buf positive, pushAll_freelist _ _ h,
    rawChunks_adds buf count, ?_⟩
  intro regions outstanding tiles apart calls legal
  obtain ⟨after, added, tiles⟩ := tiles.addRawBuffer buf positive mapped space apart
  have same := added.symm.trans (addRawBuffer_multiple h buf positive)
  rw [← Except.ok.inj same] at legal ⊢
  obtain ⟨s, ran, -⟩ := run_total (fun s : Session P => Tiles s.regions s.heap s.outstanding)
    (fun _ _ tiles legal => Session.step_tiles tiles legal) tiles legal
  exact ⟨s, ran⟩

theorem addRawBuffer_small (h : HugeAlloc P) (buf : Buffer P) {size : Nat} (positive : 1 ≤ size)
    (small : size < kMaxClassSize) : ∃ c, c < kNumClasses ∧
      h.addRawBuffer buf size = .ok (h.pushBack c (Buffer.new buf.buf c buf.lkey)) := by
  obtain ⟨c, found, bound, -⟩ := getClass_spec positive (Nat.le_of_lt small)
  refine ⟨c, bound, ?_⟩
  rw [HugeAlloc.addRawBuffer, dif_neg (Nat.not_le_of_lt small), found, ok_bind,
    assertThat_holds bound]
  rfl

theorem addRawBuffer_remainder (h : HugeAlloc P) (buf : Buffer P) {size : Nat}
    (remainder : ¬ kMaxClassSize ∣ size) : ∃ after c rest, h.addRawBuffer buf size = .ok after ∧
      after.freelist c = h.freelist c ++ (rest ++ [Buffer.new buf.buf c buf.lkey]) := by
  have left : 1 ≤ size % kMaxClassSize := Nat.pos_of_ne_zero fun none =>
    remainder (Nat.dvd_of_mod_eq_zero none)
  have less : size % kMaxClassSize < kMaxClassSize := Nat.mod_lt _ (by decide)
  rcases Nat.lt_or_ge size kMaxClassSize with small | large
  · rw [Nat.mod_eq_of_lt small] at left
    obtain ⟨c, -, added⟩ := addRawBuffer_small h buf left small
    exact ⟨_, c, [], added, pushBack_same h c _⟩
  · have opened := addRawBuffer_large h buf large
    dsimp only at opened
    rw [if_pos (Nat.lt_of_succ_le left)] at opened
    obtain ⟨c, -, added⟩ := addRawBuffer_small ((rawChunks buf (size / kMaxClassSize)).foldl
      (fun h chunk => h.pushBack (kNumClasses - 1) chunk) h) buf left less
    exact ⟨_, c, if c = kNumClasses - 1 then rawChunks buf (size / kMaxClassSize) else [],
      opened.trans added, by rw [pushBack_same, pushAll_freelist, List.append_assoc]⟩

theorem addRawBuffer_remainder_not_sized {h : HugeAlloc P} {buf : Buffer P} {size : Nat}
    (remainder : ¬ kMaxClassSize ∣ size) : ¬ AddsOnlyGiven h buf size := by
  rintro ⟨after, added, ran, grown, adds, -⟩
  obtain ⟨after', c, rest, ran', grown'⟩ := addRawBuffer_remainder h buf remainder
  obtain rfl := Except.ok.inj (ran.symm.trans ran')
  have parts : added c = rest ++ [Buffer.new buf.buf c buf.lkey] :=
    List.append_cancel_left ((grown c).symm.trans grown')
  have member : Buffer.new buf.buf c buf.lkey ∈ added c := by simp [parts]
  have size : c = classMaxSize c := (adds.sized c _ member).2
  rw [classMaxSize_eq, kMinClassSize] at size
  have less : c < 2 ^ c := Nat.lt_two_pow_self
  omega

theorem addsOnlyGiven_iff (h : HugeAlloc P) (buf : Buffer P) {size : Nat} (positive : 1 ≤ size)
    (mapped : 0 < buf.buf) (space : buf.buf + size ≤ 2 ^ 64) :
    AddsOnlyGiven h buf size ↔ kMaxClassSize ∣ size := by
  constructor
  · intro adds
    by_contra remainder
    exact addRawBuffer_remainder_not_sized remainder adds
  · rintro ⟨count, rfl⟩
    rw [Nat.mul_comm] at positive space ⊢
    exact addRawBuffer_multiple_adds h buf (Nat.pos_of_mul_pos_right positive) mapped space

theorem addsOnlyGiven_iff_oneChunk :
    AddsOnlyGiven (empty : HugeAlloc Nat) (.new kMaxClassSize 0 7) kMaxClassSize ↔
      kMaxClassSize ∣ kMaxClassSize :=
  addsOnlyGiven_iff empty (.new kMaxClassSize 0 7) (by decide) (by decide) (by decide)

theorem chunk_and_remainder_not_addsOnlyGiven :
    ¬ AddsOnlyGiven (empty : HugeAlloc Nat) (.new kMaxClassSize 0 7) (kMaxClassSize + 64) :=
  addRawBuffer_remainder_not_sized (by decide)

end HugeAlloc

end Nicc

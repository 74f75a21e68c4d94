import Nicc.Mem.HugeAlloc

/-!
# The allocator partitions its memory

A session is an allocator with the regions it was given and the Buffers its user holds. The free
and the held Buffers together tile the regions after every run of legal calls.
-/

namespace Nicc
open Lib

variable {P : Type}

structure Region where
  base : Nat
  size : Nat
  lkey : Nat

def Region.block (r : Region) : Block := ⟨r.base, r.size⟩

def Placed (r : Region) (b : Buffer P) : Prop :=
  b.lkey = r.lkey ∧ ∃ i chunk index, i < kNumClasses ∧ b.classSize = classMaxSize i ∧
    (chunk + 1) * kMaxClassSize ≤ r.size ∧ (index + 1) * classMaxSize i ≤ kMaxClassSize ∧
    b.buf = r.base + chunk * kMaxClassSize + index * classMaxSize i

theorem Placed.inside {r : Region} {b : Buffer P} (placed : Placed r b) :
    r.base ≤ b.buf ∧ b.buf + b.classSize ≤ r.base + r.size := by
  obtain ⟨-, i, chunk, index, -, size, chunks, slots, address⟩ := placed
  rw [Nat.add_mul, Nat.one_mul] at chunks slots
  omega

theorem Placed.of_sameMemory {r : Region} {b c : Buffer P} (placed : Placed r b)
    (buf : c.buf = b.buf) (classSize : c.classSize = b.classSize) (lkey : c.lkey = b.lkey) :
    Placed r c := by
  rw [Placed, buf, classSize, lkey]
  exact placed

def Fits (regions : List Region) (i : Nat) (b : Buffer P) : Prop :=
  i < kNumClasses ∧ b.classSize = classMaxSize i ∧ ∃ r ∈ regions, Placed r b

theorem Fits.halves {regions : List Region} {i : Nat} {b : Buffer P} (fits : Fits regions (i + 1) b) :
    Fits regions i (Buffer.new b.buf (b.classSize / 2) b.lkey : Buffer P) ∧
      Fits regions i (Buffer.new (b.buf + b.classSize / 2) (b.classSize / 2) b.lkey : Buffer P) := by
  obtain ⟨bound, size, r, member, lkey, j, chunk, index, -, size', chunks, slots, address⟩ := fits
  have whole : classMaxSize j = 2 * classMaxSize i := by rw [← size', size, classMaxSize_succ]
  have half : b.classSize / 2 = classMaxSize i := by omega
  have lower : i < kNumClasses := Nat.lt_of_succ_lt bound
  rw [whole] at slots address
  rw [half]
  have even : (2 * index + 1 + 1) * classMaxSize i ≤ kMaxClassSize := by
    rw [show 2 * index + 1 + 1 = (index + 1) * 2 by omega, Nat.mul_assoc]
    exact slots
  have odd : (2 * index + 1) * classMaxSize i ≤ kMaxClassSize :=
    (Nat.mul_le_mul_right _ (Nat.le_succ _)).trans even
  have twice : 2 * index * classMaxSize i = index * (2 * classMaxSize i) := by
    rw [Nat.mul_comm 2 index, Nat.mul_assoc]
  refine ⟨⟨lower, rfl, r, member, lkey, i, chunk, 2 * index, lower, rfl, chunks, odd, ?_⟩,
    ⟨lower, rfl, r, member, lkey, i, chunk, 2 * index + 1, lower, rfl, chunks, even, ?_⟩⟩
  · rw [twice]
    exact address
  · rw [Nat.add_mul, Nat.one_mul, twice, ← Nat.add_assoc]
    exact congrArg (· + classMaxSize i) address

namespace HugeAlloc

theorem pushBack_same (h : HugeAlloc P) (i : Nat) (b : Buffer P) :
    (h.pushBack i b).freelist i = h.freelist i ++ [b] := Function.update_self ..

theorem pushBack_other (h : HugeAlloc P) {i j : Nat} (other : j ≠ i) (b : Buffer P) :
    (h.pushBack i b).freelist j = h.freelist j := Function.update_of_ne other ..

theorem popBack_ok {h : HugeAlloc P} {i : Nat} (nonempty : (h.freelist i).isEmpty = false) :
    ∃ b t, h.popBack i = .ok (b, t) ∧ h = t.pushBack i b := by
  have present : h.freelist i ≠ [] := by simpa using nonempty
  refine ⟨(h.freelist i).getLast present, _,
    by rw [popBack, List.getLast?_eq_some_getLast present], ?_⟩
  simp [pushBack, List.dropLast_append_getLast]

def freeCoverage (h : HugeAlloc P) (a : Nat) : Nat :=
  ∑ i ∈ Finset.range kNumClasses, coverage ((h.freelist i).map Buffer.block) a

theorem freeCoverage_pushBack (h : HugeAlloc P) {i : Nat} (bound : i < kNumClasses) (b : Buffer P)
    (a : Nat) : (h.pushBack i b).freeCoverage a = h.freeCoverage a + coverage [b.block] a := by
  have updated := sum_update kNumClasses h.freelist
    (fun list => coverage (list.map Buffer.block) a) bound (h.freelist i ++ [b])
  simp only [List.map_append, coverage_append, List.map_cons, List.map_nil] at updated
  simp only [freeCoverage, pushBack]
  omega

def Tidy (regions : List Region) (h : HugeAlloc P) : Prop :=
  ∀ i, ∀ b ∈ h.freelist i, Fits regions i b

theorem tidy_pushBack {regions : List Region} {h : HugeAlloc P} {i : Nat} {b : Buffer P} :
    Tidy regions (h.pushBack i b) ↔ Tidy regions h ∧ Fits regions i b := by
  constructor
  · intro tidy
    refine ⟨fun j c member => ?_, tidy i b (by simp [pushBack_same])⟩
    by_cases same : j = i
    · subst same
      exact tidy j c (by simp [pushBack_same, member])
    · exact tidy j c (by rwa [pushBack_other h same])
  · rintro ⟨tidy, fits⟩ j c member
    by_cases same : j = i
    · subst same
      rw [pushBack_same, List.mem_append, List.mem_singleton] at member
      rcases member with old | rfl
      · exact tidy j c old
      · exact fits
    · rw [pushBack_other h same] at member
      exact tidy j c member

theorem tidy_userAllocTot {regions : List Region} {h : HugeAlloc P} (total : Nat) :
    Tidy regions { h with userAllocTot := total } ↔ Tidy regions h := Iff.rfl

theorem freeCoverage_userAllocTot (h : HugeAlloc P) (total a : Nat) :
    ({ h with userAllocTot := total } : HugeAlloc P).freeCoverage a = h.freeCoverage a := rfl

structure Tiles (regions : List Region) (h : HugeAlloc P) (outstanding : List (Buffer P)) :
    Prop where
  tidy : Tidy regions h
  held : ∀ b ∈ outstanding, ∃ r ∈ regions, Placed r b
  cover : ∀ a, h.freeCoverage a + coverage (outstanding.map Buffer.block) a =
    coverage (regions.map Region.block) a
  once : ∀ a, coverage (regions.map Region.block) a ≤ 1
  space : ∀ r ∈ regions, 0 < r.base ∧ r.base + r.size ≤ 2 ^ 64
  total : h.userAllocTot = (outstanding.map Buffer.classSize).sum

theorem nextClass_spec (h : HugeAlloc P) (left c : Nat) :
    c ≤ h.nextClass left c ∧ h.nextClass left c ≤ c + left ∧
      (∀ j, c ≤ j → j < h.nextClass left c → (h.freelist j).isEmpty = true) ∧
      (h.nextClass left c < c + left → (h.freelist (h.nextClass left c)).isEmpty = false) := by
  induction left generalizing c with
  | zero => exact ⟨le_rfl, le_rfl, fun j low high => by simp [nextClass] at high; omega,
      fun less => by simp [nextClass] at less⟩
  | succ n ih =>
      rw [nextClass]
      split_ifs with empty
      · obtain ⟨low, high, passed, found⟩ := ih (c + 1)
        refine ⟨by omega, by omega, fun j ge lt => ?_, fun lt => found (by omega)⟩
        by_cases first : j = c
        · rw [first, empty]
        · exact passed j (by omega) lt
      · exact ⟨le_rfl, by omega, fun j low high => by omega, fun _ => by simpa using empty⟩

namespace Tiles

variable {regions : List Region} {h : HugeAlloc P} {outstanding : List (Buffer P)}

theorem total_lt (once : ∀ a, coverage (outstanding.map Buffer.block) a ≤ 1)
    (held : ∀ b ∈ outstanding, ∃ r ∈ regions, Placed r b)
    (space : ∀ r ∈ regions, 0 < r.base ∧ r.base + r.size ≤ 2 ^ 64) :
    (outstanding.map Buffer.classSize).sum < 2 ^ 64 := by
  have inside : ∀ c ∈ outstanding.map Buffer.block, 1 ≤ c.base ∧ c.base + c.size ≤ 2 ^ 64 := by
    intro c member
    obtain ⟨b, present, rfl⟩ := List.mem_map.mp member
    obtain ⟨r, known, placed⟩ := held b present
    have bounds := space r known
    have within := placed.inside
    simp only [Buffer.block]
    omega
  have bound := sum_size_le once inside
  rw [List.map_map] at bound
  have same : Block.size ∘ Buffer.block = (Buffer.classSize : Buffer P → Nat) := rfl
  rw [same] at bound
  omega

theorem split (tiles : Tiles regions h outstanding) {i : Nat}
    (nonempty : (h.freelist (i + 1)).isEmpty = false) (empty : (h.freelist i).isEmpty = true) :
    ∃ t, h.split (i + 1) = .ok t ∧ Tiles regions t outstanding ∧ (t.freelist i).isEmpty = false ∧
      ∀ j < i, t.freelist j = h.freelist j := by
  obtain ⟨b, u, popped, rfl⟩ := popBack_ok nonempty
  obtain ⟨tidy, fits⟩ := tidy_pushBack.mp tiles.tidy
  have halves := fits.halves
  refine ⟨(u.pushBack i (Buffer.new b.buf (b.classSize / 2) b.lkey)).pushBack i
    (Buffer.new (b.buf + b.classSize / 2) (b.classSize / 2) b.lkey), ?_, ?_, ?_, ?_⟩
  · simp only [HugeAlloc.split, assertThat_holds (Nat.le_add_left 1 i), assertThat_holds nonempty,
      Nat.add_sub_cancel, assertThat_holds empty, popped, ok_bind, assertThat_holds fits.2.1]
    rfl
  · refine { tiles with tidy := ?_, cover := fun a => ?_ }
    · exact tidy_pushBack.mpr ⟨tidy_pushBack.mpr ⟨tidy, halves.1⟩, halves.2⟩
    · have covered := tiles.cover a
      have cut := coverage_cut b.buf (b.classSize / 2) (b.classSize / 2) a
      have whole : b.classSize / 2 + b.classSize / 2 = b.classSize := by
        rw [fits.2.1, classMaxSize_succ]
        omega
      rw [coverage_cons, whole] at cut
      rw [freeCoverage_pushBack _ fits.1] at covered
      rw [freeCoverage_pushBack _ halves.1.1, freeCoverage_pushBack _ halves.1.1]
      simp only [Buffer.block_new]
      simp only [Buffer.block] at covered ⊢
      omega
  · simp [pushBack_same]
  · intro j below
    rw [pushBack_other _ (by omega), pushBack_other _ (by omega), pushBack_other _ (by omega)]

theorem splitDown {c : Nat} (left : Nat) (tiles : Tiles regions h outstanding)
    (nonempty : (h.freelist (c + left)).isEmpty = false)
    (empty : ∀ j, c ≤ j → j < c + left → (h.freelist j).isEmpty = true) :
    ∃ t, h.splitDown c left = .ok t ∧ Tiles regions t outstanding ∧
      (t.freelist c).isEmpty = false := by
  induction left generalizing h with
  | zero => exact ⟨h, rfl, tiles, nonempty⟩
  | succ n ih =>
      obtain ⟨u, halved, tiles, filled, same⟩ :=
        tiles.split (i := c + n) nonempty (empty (c + n) (by omega) (by omega))
      obtain ⟨t, finished⟩ := ih tiles filled fun j low high => by
        rw [same j high]
        exact empty j low (by omega)
      exact ⟨t, by rw [HugeAlloc.splitDown, halved, ok_bind]; exact finished.1, finished.2⟩

theorem allocFromClass (tiles : Tiles regions h outstanding) {c : Nat}
    (nonempty : (h.freelist c).isEmpty = false) :
    ∃ b t, h.allocFromClass c = .ok (b, t) ∧ b.classSize = classMaxSize c ∧
      Tiles regions t (b :: outstanding) := by
  obtain ⟨b, u, popped, rfl⟩ := popBack_ok nonempty
  obtain ⟨tidy, fits⟩ := tidy_pushBack.mp tiles.tidy
  have held : ∀ c ∈ b :: outstanding, ∃ r ∈ regions, Placed r c := by
    intro c member
    rcases List.mem_cons.mp member with rfl | old
    · exact fits.2.2
    · exact tiles.held c old
  have cover : ∀ a, u.freeCoverage a + coverage ((b :: outstanding).map Buffer.block) a =
      coverage (regions.map Region.block) a := by
    intro a
    have covered := tiles.cover a
    rw [freeCoverage_pushBack _ fits.1] at covered
    rw [List.map_cons, coverage_cons]
    omega
  have bound := total_lt (fun a => by have := cover a; have := tiles.once a; omega) held tiles.space
  refine ⟨b, { u with userAllocTot := (u.userAllocTot + b.classSize) % 2 ^ 64 }, ?_, fits.2.1, ?_⟩
  · simp only [HugeAlloc.allocFromClass, assertThat_holds fits.1, popped, ok_bind,
      assertThat_holds fits.2.1]
    rfl
  · refine { tiles with
      tidy := (tidy_userAllocTot _).mpr tidy, held := held, cover := fun a => ?_, total := ?_ }
    · rw [freeCoverage_userAllocTot]
      exact cover a
    · have before : u.userAllocTot = (outstanding.map Buffer.classSize).sum := tiles.total
      rw [List.map_cons, List.sum_cons] at bound ⊢
      rw [before, Nat.add_comm, Nat.mod_eq_of_lt bound]

theorem alloc (tiles : Tiles regions h outstanding) {size : Nat} (positive : 1 ≤ size)
    (bound : size ≤ kMaxClassSize) :
    ∃ c, getClass size = .ok c ∧ c < kNumClasses ∧ (∀ i, size ≤ classMaxSize i ↔ c ≤ i) ∧
      ((∀ i, c ≤ i → i < kNumClasses → (h.freelist i).isEmpty = true) ∧
          h.alloc size = .ok (none, h) ∨
        (∃ i, c ≤ i ∧ i < kNumClasses ∧ (h.freelist i).isEmpty = false) ∧
          ∃ b t, h.alloc size = .ok (some b, t) ∧ b.classSize = classMaxSize c ∧
            Tiles regions t (b :: outstanding)) := by
  obtain ⟨c, found, small, least⟩ := getClass_spec positive bound
  refine ⟨c, found, small, least, ?_⟩
  have opened : h.alloc size = if (h.freelist c).isEmpty = false then
      (do let allocated ← h.allocFromClass c; return (some allocated.1, allocated.2))
    else
      (do
        let next := h.nextClass (kNumClasses - (c + 1)) (c + 1)
        if next = kNumClasses then return (none, h)
        assertThat (next < kNumClasses) "next_class < k_num_classes"
        let h ← h.splitDown c (next - c)
        assertThat ((h.freelist c).isEmpty = false) "!freelist_[size_class].empty()"
        let allocated ← h.allocFromClass c
        return (some allocated.1, allocated.2)) := by
    rw [HugeAlloc.alloc, assertThat_holds bound, ok_bind, found, ok_bind, assertThat_holds small,
      ok_bind]
  cases here : (h.freelist c).isEmpty with
  | false =>
      obtain ⟨b, t, allocated, exact, tiles⟩ := tiles.allocFromClass here
      refine .inr ⟨⟨c, le_rfl, small, here⟩, b, t, ?_, exact, tiles⟩
      rw [opened, if_pos here, allocated]
      rfl
  | true =>
      obtain ⟨low, high, passed, stopped⟩ := nextClass_spec h (kNumClasses - (c + 1)) (c + 1)
      generalize reached : h.nextClass (kNumClasses - (c + 1)) (c + 1) = next at *
      have empty : ∀ j, c ≤ j → j < next → (h.freelist j).isEmpty = true := by
        intro j ge lt
        by_cases first : j = c
        · rw [first, here]
        · exact passed j (by omega) lt
      rw [if_neg (by simp [here])] at opened
      by_cases none : next = kNumClasses
      · subst none
        exact .inl ⟨empty, by rw [opened, if_pos rfl]; rfl⟩
      · have inside : next < kNumClasses := by omega
        have free := stopped (by omega)
        have distance : c + (next - c) = next := by omega
        obtain ⟨u, cut, tiles, filled⟩ := tiles.splitDown (c := c) (next - c)
          (by rw [distance]; exact free) (fun j ge lt => empty j ge (by omega))
        obtain ⟨b, t, allocated, exact, tiles⟩ := tiles.allocFromClass filled
        refine .inr ⟨⟨next, by omega, inside, free⟩, b, t, ?_, exact, tiles⟩
        rw [opened, if_neg none]
        simp only [assertThat_holds inside, cut, assertThat_holds filled, allocated, ok_bind]
        rfl

theorem freeBuf {before after : List (Buffer P)} {b c : Buffer P}
    (tiles : Tiles regions h (before ++ b :: after)) (buf : c.buf = b.buf)
    (classSize : c.classSize = b.classSize) (lkey : c.lkey = b.lkey) :
    ∃ t, h.freeBuf c = .ok t ∧ Tiles regions t (before ++ after) := by
  obtain ⟨r, member, placed⟩ := tiles.held b (by simp)
  have placed := placed.of_sameMemory buf classSize lkey
  obtain ⟨-, i, chunk, index, small, size, -⟩ := id placed
  have within := placed.inside
  have space := tiles.space r member
  have mapped : c.buf ≠ 0 := by omega
  have sorted : getClass c.classSize = .ok i := by rw [size, getClass_classMaxSize small]
  have inside : c.classSize ≤ h.userAllocTot := by
    rw [tiles.total, classSize]
    simp
    omega
  refine ⟨{ h.pushBack i { c with length := 0, state := .kFREE_BUF } with
    userAllocTot := (h.userAllocTot + 2 ^ 64 - c.classSize) % 2 ^ 64 }, ?_, ?_⟩
  · simp only [HugeAlloc.freeBuf, assertThat_holds mapped, ok_bind, sorted,
      assertThat_holds size.symm]
    rfl
  · refine { tiles with tidy := ?_, held := fun d old => ?_, cover := fun a => ?_, total := ?_ }
    · exact (tidy_userAllocTot _).mpr (tidy_pushBack.mpr ⟨tiles.tidy, small, size, r, member,
        placed.of_sameMemory rfl rfl rfl⟩)
    · exact tiles.held d (by rcases List.mem_append.mp old with first | last <;> simp [*])
    · have covered := tiles.cover a
      have same : b.block = c.block := by rw [Buffer.block, Buffer.block, buf, classSize]
      rw [freeCoverage_userAllocTot, freeCoverage_pushBack h small]
      rw [List.map_append, List.map_cons, coverage_append, coverage_cons, same] at covered
      rw [List.map_append, coverage_append]
      have block : ({ c with length := 0, state := .kFREE_BUF } : Buffer P).block = c.block := rfl
      rw [block]
      omega
    · have before := tiles.total
      have bound := total_lt (fun a => by have := tiles.cover a; have := tiles.once a; omega)
        tiles.held tiles.space
      simp only [List.map_append, List.map_cons, List.sum_append, List.sum_cons] at before bound ⊢
      omega

end Tiles

theorem pushAll_tidy {regions : List Region} {i : Nat} {chunks : List (Buffer P)}
    (fits : ∀ b ∈ chunks, Fits regions i b) {h : HugeAlloc P} (tidy : Tidy regions h) :
    Tidy regions (chunks.foldl (fun h chunk => h.pushBack i chunk) h) := by
  induction chunks generalizing h with
  | nil => exact tidy
  | cons b chunks ih =>
      exact ih (fun c member => fits c (by simp [member]))
        (tidy_pushBack.mpr ⟨tidy, fits b (by simp)⟩)

theorem pushAll_coverage {i : Nat} (bound : i < kNumClasses) (chunks : List (Buffer P))
    (h : HugeAlloc P) (a : Nat) :
    (chunks.foldl (fun h chunk => h.pushBack i chunk) h).freeCoverage a =
      h.freeCoverage a + coverage (chunks.map Buffer.block) a := by
  induction chunks generalizing h with
  | nil => simp
  | cons b chunks ih =>
      rw [List.foldl_cons, ih, freeCoverage_pushBack h bound, List.map_cons,
        coverage_cons b.block (chunks.map Buffer.block), Nat.add_assoc]

theorem pushAll_userAllocTot (i : Nat) (chunks : List (Buffer P)) (h : HugeAlloc P) :
    (chunks.foldl (fun h chunk => h.pushBack i chunk) h).userAllocTot = h.userAllocTot := by
  induction chunks generalizing h with
  | nil => rfl
  | cons b chunks ih => exact ih (h.pushBack i b)

theorem pushAll_freelist (i : Nat) (chunks : List (Buffer P)) (h : HugeAlloc P) (j : Nat) :
    (chunks.foldl (fun h chunk => h.pushBack i chunk) h).freelist j =
      h.freelist j ++ if j = i then chunks else [] := by
  induction chunks generalizing h with
  | nil => simp
  | cons b chunks ih =>
      rw [List.foldl_cons, ih]
      by_cases same : j = i
      · subst same
        simp [pushBack_same]
      · simp [pushBack_other h same, same]

def rawChunks (buf : Buffer P) (count : Nat) : List (Buffer P) :=
  (List.range count).map fun i =>
    Buffer.new (buf.buf + i * kMaxClassSize) kMaxClassSize buf.lkey

theorem addRawBuffer_large (h : HugeAlloc P) (buf : Buffer P) {size : Nat}
    (large : kMaxClassSize ≤ size) :
    h.addRawBuffer buf size =
      let whole := (rawChunks buf (size / kMaxClassSize)).foldl
        (fun h chunk => h.pushBack (kNumClasses - 1) chunk) h
      if 0 < size % kMaxClassSize then whole.addRawBuffer buf (size % kMaxClassSize)
      else .ok whole := by
  have positive : 1 ≤ size / kMaxClassSize := Nat.div_pos large (by decide)
  rw [HugeAlloc.addRawBuffer, dif_pos large]
  simp only [assertThat_holds positive, ok_bind]
  rfl

theorem addRawBuffer_multiple (h : HugeAlloc P) (buf : Buffer P) {count : Nat}
    (positive : 1 ≤ count) :
    h.addRawBuffer buf (count * kMaxClassSize) = .ok ((rawChunks buf count).foldl
      (fun h chunk => h.pushBack (kNumClasses - 1) chunk) h) := by
  have large : kMaxClassSize ≤ count * kMaxClassSize := Nat.le_mul_of_pos_left _ positive
  have whole : 0 < kMaxClassSize := by decide
  rw [addRawBuffer_large h buf large, Nat.mul_mod_left, if_neg (Nat.lt_irrefl 0),
    Nat.mul_div_cancel _ whole]

theorem rawChunks_coverage (buf : Buffer P) (count a : Nat) :
    coverage ((rawChunks buf count).map Buffer.block) a =
      coverage [⟨buf.buf, count * kMaxClassSize⟩] a := by
  rw [rawChunks, List.map_map]
  exact coverage_chunks buf.buf kMaxClassSize count a

theorem Tiles.addRawBuffer {regions : List Region} {h : HugeAlloc P} {outstanding : List (Buffer P)}
    (tiles : Tiles regions h outstanding) (buf : Buffer P) {count : Nat} (positive : 1 ≤ count)
    (mapped : 0 < buf.buf) (space : buf.buf + count * kMaxClassSize ≤ 2 ^ 64)
    (apart : ∀ r ∈ regions, Disjoint r.block.bytes (Block.bytes ⟨buf.buf, count * kMaxClassSize⟩)) :
    ∃ t, h.addRawBuffer buf (count * kMaxClassSize) = .ok t ∧
      Tiles (⟨buf.buf, count * kMaxClassSize, buf.lkey⟩ :: regions) t outstanding := by
  have last : classMaxSize (kNumClasses - 1) = kMaxClassSize := by decide
  generalize region : (⟨buf.buf, count * kMaxClassSize, buf.lkey⟩ : Region) = new at *
  have fits : ∀ b ∈ rawChunks buf count, Fits (new :: regions) (kNumClasses - 1) b := by
    intro b member
    obtain ⟨i, bound, rfl⟩ := List.mem_map.mp member
    refine ⟨by decide, last.symm, new, List.mem_cons_self, by rw [← region]; rfl,
      kNumClasses - 1, i, 0, by decide, last.symm, ?_, by simp [last], by rw [← region]; simp⟩
    rw [← region]
    exact Nat.mul_le_mul_right _ (Nat.succ_le_of_lt (List.mem_range.mp bound))
  have known : ∀ {b : Buffer P}, (∃ r ∈ regions, Placed r b) → ∃ r ∈ new :: regions, Placed r b :=
    fun ⟨r, member, placed⟩ => ⟨r, List.mem_cons_of_mem _ member, placed⟩
  refine ⟨_, addRawBuffer_multiple h buf positive, pushAll_tidy fits ?_,
    fun b member => known (tiles.held b member), fun a => ?_, fun a => ?_, ?_,
    by rw [pushAll_userAllocTot]; exact tiles.total⟩
  · exact fun i b member => ⟨(tiles.tidy i b member).1, (tiles.tidy i b member).2.1,
      known (tiles.tidy i b member).2.2⟩
  · have covered := tiles.cover a
    rw [pushAll_coverage (by decide), rawChunks_coverage, List.map_cons,
      coverage_cons new.block, ← region]
    simp only [Region.block] at covered ⊢
    omega
  · have before := tiles.once a
    rw [List.map_cons, coverage_cons, coverage_single]
    split_ifs with inside
    · have outside : ¬ 0 < coverage (regions.map Region.block) a := by
        rw [coverage_pos]
        rintro ⟨b, member, within⟩
        obtain ⟨r, old, rfl⟩ := List.mem_map.mp member
        rw [← region] at inside
        exact Set.disjoint_left.mp (apart r old) within inside
      omega
    · omega
  · intro r member
    rcases List.mem_cons.mp member with rfl | old
    · rw [← region]
      exact ⟨mapped, space⟩
    · exact tiles.space r old

end HugeAlloc

/-- `freeBuf` is given a Buffer as its user left it. -/
inductive Call (P : Type)
  | addRawBuffer (buf : Buffer P) (size : Nat)
  | alloc (size : Nat)
  | freeBuf (buffer : Buffer P)

structure Session (P : Type) where
  heap : HugeAlloc P
  regions : List Region
  outstanding : List (Buffer P)

namespace Session

/-- Pointers are compared by the memory that they own, which no two live Buffers share. -/
def sameMemory (b c : Buffer P) : Bool :=
  b.buf = c.buf ∧ b.classSize = c.classSize ∧ b.lkey = c.lkey

def empty : Session P := ⟨.empty, [], []⟩

def step (s : Session P) : Call P → Except String (Session P)
  | .addRawBuffer buf size => do
      let heap ← s.heap.addRawBuffer buf size
      return { s with heap := heap, regions := ⟨buf.buf, size, buf.lkey⟩ :: s.regions }
  | .alloc size => do
      let (buffer, heap) ← s.heap.alloc size
      return { s with heap := heap, outstanding := buffer.toList ++ s.outstanding }
  | .freeBuf buffer => do
      let heap ← s.heap.freeBuf buffer
      return { s with heap := heap, outstanding := s.outstanding.eraseP (sameMemory buffer) }

def Legal (s : Session P) : Call P → Prop
  | .addRawBuffer buf size =>
      (∃ count, 1 ≤ count ∧ size = count * kMaxClassSize) ∧
        0 < buf.buf ∧ buf.buf + size ≤ 2 ^ 64 ∧
        ∀ r ∈ s.regions, Disjoint r.block.bytes (Block.bytes ⟨buf.buf, size⟩)
  | .alloc size => 1 ≤ size ∧ size ≤ kMaxClassSize
  | .freeBuf buffer => ∃ b ∈ s.outstanding, sameMemory buffer b

def buffers (s : Session P) : List (Buffer P) :=
  (List.range kNumClasses).flatMap s.heap.freelist ++ s.outstanding

def Serves (h : HugeAlloc P) (size : Nat) : Prop :=
  ∃ result after sizeClass, h.alloc size = .ok (result, after) ∧ getClass size = .ok sizeClass ∧
    (result.isSome ↔ ∃ i, sizeClass ≤ i ∧ i < kNumClasses ∧ h.freelist i ≠ []) ∧
    (∀ b ∈ result, IsLeast {n | size ≤ n ∧ ∃ i, i < kNumClasses ∧ n = classMaxSize i} b.classSize) ∧
    (result = none → after = h)

structure Partitioned (s : Session P) : Prop where
  disjoint : (s.buffers.map fun b => b.block.bytes).Pairwise Disjoint
  covers : ∀ a, (∃ b ∈ s.buffers, a ∈ b.block.bytes) ↔ ∃ r ∈ s.regions, a ∈ r.block.bytes
  placed : ∀ b ∈ s.buffers, ∃ r ∈ s.regions, Placed r b
  sized : ∀ i, ∀ b ∈ s.heap.freelist i, i < kNumClasses ∧ b.classSize = 64 * 2 ^ i
  serves : ∀ size, 1 ≤ size → size ≤ kMaxClassSize → Serves s.heap size
  total : s.heap.userAllocTot = (s.outstanding.map Buffer.classSize).sum

open HugeAlloc

theorem empty_tiles : Tiles [] (HugeAlloc.empty : HugeAlloc P) [] where
  tidy := by simp [Tidy, HugeAlloc.empty]
  held := by simp
  cover := by simp [freeCoverage, HugeAlloc.empty]
  once := by simp
  space := by simp
  total := rfl

theorem step_tiles {s : Session P} {call : Call P} (tiles : Tiles s.regions s.heap s.outstanding)
    (legal : s.Legal call) :
    ∃ t, s.step call = .ok t ∧ Tiles t.regions t.heap t.outstanding := by
  cases call with
  | addRawBuffer buf size =>
      obtain ⟨⟨count, positive, rfl⟩, mapped, space, apart⟩ := legal
      obtain ⟨h, added, tiles⟩ := tiles.addRawBuffer buf positive mapped space apart
      exact ⟨_, by rw [step, added]; rfl, tiles⟩
  | alloc size =>
      obtain ⟨c, -, -, -, ⟨-, refused⟩ | ⟨-, b, h, allocated, -, tiles⟩⟩ :=
        tiles.alloc legal.1 legal.2
      · exact ⟨_, by rw [step, refused]; rfl, tiles⟩
      · exact ⟨_, by rw [step, allocated]; rfl, tiles⟩
  | freeBuf buffer =>
      obtain ⟨b, member, same⟩ := legal
      obtain ⟨c, before, after, -, matched, split, erased⟩ := List.exists_of_eraseP member same
      rw [split] at tiles
      simp only [sameMemory, decide_eq_true_eq] at matched
      obtain ⟨h, freed, tiles⟩ := tiles.freeBuf matched.1 matched.2.1 matched.2.2
      refine ⟨{ s with heap := h, outstanding := before ++ after }, ?_, tiles⟩
      rw [step, freed, ok_bind, erased]
      rfl

theorem serves_of_tiles {regions : List Region} {h : HugeAlloc P} {outstanding : List (Buffer P)}
    (tiles : Tiles regions h outstanding) {size : Nat} (positive : 1 ≤ size)
    (bound : size ≤ kMaxClassSize) : Serves h size := by
  obtain ⟨c, found, small, least, ⟨empty, refused⟩ | ⟨⟨i, low, high, free⟩, b, t, allocated, exact, -⟩⟩ :=
    tiles.alloc positive bound
  · refine ⟨none, h, c, refused, found, ?_, by simp, fun _ => rfl⟩
    simp only [Option.isSome_none, Bool.false_eq_true, false_iff, not_exists]
    rintro i ⟨low, high, free⟩
    exact free (by simpa using empty i low high)
  · refine ⟨some b, t, c, allocated, found, ?_, ?_, by simp⟩
    · simp only [Option.isSome_some, true_iff]
      exact ⟨i, low, high, by simpa using free⟩
    · intro d member
      obtain rfl : b = d := by simpa using member
      rw [exact]
      refine ⟨⟨(least c).mpr le_rfl, c, small, rfl⟩, ?_⟩
      rintro n ⟨fits, j, -, rfl⟩
      exact classMaxSize_mono ((least j).mp fits)

theorem partitioned_of_tiles {s : Session P} (tiles : Tiles s.regions s.heap s.outstanding) :
    s.Partitioned := by
  have count : ∀ a, coverage (s.buffers.map Buffer.block) a =
      coverage (s.regions.map Region.block) a := by
    intro a
    rw [buffers, List.map_append, coverage_append, coverage_flatMap]
    exact tiles.cover a
  have mapped : s.buffers.map (fun b => b.block.bytes) =
      (s.buffers.map Buffer.block).map Block.bytes := by
    rw [List.map_map]
    rfl
  refine ⟨?_, fun a => ?_, fun b member => ?_, fun i b member => ?_, fun size positive bound => ?_,
    tiles.total⟩
  · rw [mapped]
    exact disjoint_of_coverage fun a => by rw [count]; exact tiles.once a
  · have free : 0 < coverage (s.buffers.map Buffer.block) a ↔ _ := coverage_pos
    have given : 0 < coverage (s.regions.map Region.block) a ↔ _ := coverage_pos
    rw [count] at free
    simpa using free.symm.trans given
  · rcases List.mem_append.mp member with free | held
    · obtain ⟨i, -, listed⟩ := List.mem_flatMap.mp free
      exact (tiles.tidy i b listed).2.2
    · exact tiles.held b held
  · have fits := tiles.tidy i b member
    exact ⟨fits.1, fits.2.1.trans (classMaxSize_eq i)⟩
  · exact serves_of_tiles tiles positive bound

theorem partitions_memory (calls : List (Call P)) (legal : Admits step Legal empty calls) :
    ∃ s, run step (empty : Session P) calls = .ok s ∧ s.Partitioned := by
  obtain ⟨s, ran, tiles⟩ := run_total
    (fun s : Session P => Tiles s.regions s.heap s.outstanding)
    (fun _ _ tiles legal => step_tiles tiles legal) empty_tiles legal
  exact ⟨s, ran, partitioned_of_tiles tiles⟩

theorem partitions_memory_oneChunk :
    ∃ s, run step (empty : Session Nat) [.addRawBuffer (.new kMaxClassSize 0 7) kMaxClassSize,
        .alloc 5000000, .freeBuf (.new kMaxClassSize kMaxClassSize 7), .alloc 100] = .ok s ∧
      s.Partitioned := by
  have added : step (empty : Session Nat) (.addRawBuffer (.new kMaxClassSize 0 7) kMaxClassSize) =
      .ok ⟨HugeAlloc.empty.pushBack 17 (.new kMaxClassSize kMaxClassSize 7),
        [⟨kMaxClassSize, kMaxClassSize, 7⟩], []⟩ := by
    rw [step, HugeAlloc.addRawBuffer]
    rfl
  have taken : ∃ h, step (P := Nat) ⟨HugeAlloc.empty.pushBack 17 (.new kMaxClassSize kMaxClassSize 7),
        [⟨kMaxClassSize, kMaxClassSize, 7⟩], []⟩ (.alloc 5000000) =
      .ok ⟨h, [⟨kMaxClassSize, kMaxClassSize, 7⟩], [.new kMaxClassSize kMaxClassSize 7]⟩ := ⟨_, rfl⟩
  obtain ⟨h, taken⟩ := taken
  refine partitions_memory _ ⟨⟨⟨1, by decide⟩, by decide, by decide, by simp [empty]⟩, ?_⟩
  intro s first
  obtain rfl := Except.ok.inj (added.symm.trans first)
  refine ⟨⟨by norm_num, by decide⟩, ?_⟩
  intro s second
  obtain rfl := Except.ok.inj (taken.symm.trans second)
  exact ⟨⟨_, List.mem_cons_self, rfl⟩, fun s _ => ⟨⟨by norm_num, by decide⟩, fun _ _ => trivial⟩⟩

end Session

end Nicc

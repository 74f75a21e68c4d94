import Mathlib.Data.List.Basic
import Mathlib.Data.List.Nodup

/-!
# Objects that refer to each other

The objects that exist, the newest first. An object can be destroyed as long as it exists and no
other object refers to it, and every call that destroys is recorded with whether it could.
-/

namespace Nicc.Lib

structure Naming (O N : Type) where
  name : O → N
  refs : O → List N

structure Objects (O N : Type) where
  live : List O
  destroyed : List (N × Bool)

namespace Objects

variable {O N : Type}

def create (s : Objects O N) (o : O) : Objects O N := { s with live := o :: s.live }

@[simp] theorem create_live (s : Objects O N) (o : O) : (s.create o).live = o :: s.live := rfl

variable [DecidableEq N] (naming : Naming O N)

def Unused (s : Objects O N) (n : N) : Prop :=
  n ∈ s.live.map naming.name ∧ ∀ o ∈ s.live, n ∉ naming.refs o

instance (s : Objects O N) (n : N) : Decidable (s.Unused naming n) :=
  inferInstanceAs (Decidable (_ ∧ _))

def destroy (s : Objects O N) (n : N) : Objects O N where
  live := if s.Unused naming n then s.live.filter (naming.name · ≠ n) else s.live
  destroyed := s.destroyed ++ [(n, decide (s.Unused naming n))]

def Grounded : List O → Prop
  | [] => True
  | o :: older => (∀ n ∈ naming.refs o, n ∈ older.map naming.name) ∧ Grounded older

structure Sound (s : Objects O N) : Prop where
  distinct : (s.live.map naming.name).Nodup
  grounded : Grounded naming s.live
  proper : ∀ call ∈ s.destroyed, call.2 = true

variable {naming} {s : Objects O N}

omit [DecidableEq N] in
theorem Sound.create (sound : s.Sound naming) {o : O}
    (fresh : naming.name o ∉ s.live.map naming.name)
    (known : ∀ n ∈ naming.refs o, n ∈ s.live.map naming.name) : (s.create o).Sound naming where
  distinct := List.nodup_cons.mpr ⟨fresh, sound.distinct⟩
  grounded := ⟨known, sound.grounded⟩
  proper := sound.proper

omit [DecidableEq N] in
theorem Grounded.mono {newer older : List O} (grounded : Grounded naming (newer ++ older)) :
    Grounded naming older := by
  induction newer with
  | nil => exact grounded
  | cons o newer ih => exact ih grounded.2

omit [DecidableEq N] in
theorem Grounded.refs {live : List O} (grounded : Grounded naming live) {o : O} (member : o ∈ live)
    {n : N} (refers : n ∈ naming.refs o) : n ∈ live.map naming.name := by
  induction live with
  | nil => cases member
  | cons first older ih =>
      rcases List.mem_cons.mp member with rfl | later
      · exact List.mem_cons_of_mem _ (grounded.1 n refers)
      · exact List.mem_cons_of_mem _ (ih grounded.2 later)

omit [DecidableEq N] in
theorem Grounded.remove {newer older : List O} {o : O}
    (grounded : Grounded naming (newer ++ o :: older))
    (unused : ∀ p ∈ newer, naming.name o ∉ naming.refs p) : Grounded naming (newer ++ older) := by
  induction newer with
  | nil => exact grounded.2
  | cons first newer ih =>
      refine ⟨fun n refers => ?_, ih grounded.2 fun p member => unused p (List.mem_cons_of_mem _ member)⟩
      have there : n ∈ (newer ++ o :: older).map naming.name := grounded.1 n refers
      change n ∈ (newer ++ older).map naming.name
      simp only [List.map_append, List.map_cons, List.mem_append, List.mem_cons] at there ⊢
      rcases there with first' | rfl | last
      · exact .inl first'
      · exact absurd refers (unused first List.mem_cons_self)
      · exact .inr last

theorem Sound.destroy (sound : s.Sound naming) {newer older : List O} {o : O}
    (live : s.live = newer ++ o :: older) (unused : ∀ p ∈ newer, naming.name o ∉ naming.refs p) :
    (Objects.destroy naming s (naming.name o)).live = newer ++ older ∧
      (Objects.destroy naming s (naming.name o)).Sound naming := by
  have distinct := sound.distinct
  have grounded := sound.grounded
  rw [live] at distinct grounded
  have alone : naming.name o ∉ (newer ++ older).map naming.name := by
    rw [List.map_append, List.map_cons] at distinct
    have moved := (List.perm_middle.nodup_iff).mp distinct
    rw [List.map_append]
    exact (List.nodup_cons.mp moved).1
  have free : s.Unused naming (naming.name o) := by
    refine ⟨by rw [live]; simp, fun p member refers => ?_⟩
    rw [live] at member
    rcases List.mem_append.mp member with new | old
    · exact unused p new refers
    · have known : naming.name o ∈ older.map naming.name := by
        rcases List.mem_cons.mp old with rfl | older'
        · exact (Grounded.mono grounded).1 _ refers
        · exact (Grounded.mono grounded).2.refs older' refers
      exact alone (by rw [List.map_append]; exact List.mem_append_right _ known)
  have left : s.live.filter (naming.name · ≠ naming.name o) = newer ++ older := by
    have kept : ∀ p ∈ newer ++ older, decide (naming.name p ≠ naming.name o) = true := by
      intro p member
      refine decide_eq_true fun same => alone ?_
      rw [← same]
      exact List.mem_map_of_mem member
    rw [live, List.filter_append, List.filter_cons_of_neg (by simp), ← List.filter_append]
    exact List.filter_eq_self.mpr kept
  have after : (Objects.destroy naming s (naming.name o)).live = newer ++ older := by
    rw [Objects.destroy, if_pos free, left]
  refine ⟨after, ?_, ?_, fun call member => ?_⟩
  · rw [after, ← left]
    exact (List.filter_sublist.map _).nodup sound.distinct
  · rw [after]
    exact grounded.remove unused
  · rcases List.mem_append.mp member with before | now
    · exact sound.proper call before
    · rw [List.mem_singleton.mp now]
      exact decide_eq_true free

/-- Destroyed in the reverse order of their creation, the newest objects are gone. -/
theorem Sound.unwind (sound : s.Sound naming) {newest older : List O}
    (live : s.live = newest ++ older) :
    ((newest.map naming.name).foldl (Objects.destroy naming) s).live = older ∧
      ((newest.map naming.name).foldl (Objects.destroy naming) s).Sound naming := by
  induction newest generalizing s with
  | nil => exact ⟨live, sound⟩
  | cons o newest ih =>
      obtain ⟨left, kept⟩ := sound.destroy (List.nil_append _ ▸ live) (fun _ member => absurd member List.not_mem_nil)
      exact ih kept left

end Objects

end Nicc.Lib

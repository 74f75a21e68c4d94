import Mathlib.Data.Finset.Erase
import Mathlib.Data.Finset.Filter
import Mathlib.Data.Finset.Insert
import Mathlib.Logic.Function.Basic

/-!
# Cells that hold handles

An owner keeps the handles of what it has created in cells, and passes them on from there when it
releases. The ledger records what it owns, and whether each handle that it passed on was owned.
-/

namespace Nicc.Lib

/-- `live` is everything that exists, `made` are the cells that hold what a creation returned and
that nothing has been released from since. A release is recorded with whether it was owned. -/
structure Ledger (S K : Type) where
  cell : S → Nat
  made : Finset S
  owned : Finset (K × Nat)
  live : Finset (K × Nat)
  releases : List ((K × Nat) × Bool)

namespace Ledger

variable {S K : Type}

def start (live : Finset (K × Nat)) (cell : S → Nat) : Ledger S K := ⟨cell, ∅, ∅, live, []⟩

def overwrite (l : Ledger S K) (which : S → Bool) (values : S → Nat) : Ledger S K :=
  { l with
    cell := fun s => if which s then values s else l.cell s
    made := l.made.filter fun s => which s = false }

variable (kind : S → K)

def handle (l : Ledger S K) (s : S) : K × Nat := (kind s, l.cell s)

structure Valid (l : Ledger S K) : Prop where
  owns : ∀ s ∈ l.made, l.handle kind s ∈ l.owned
  apart : ∀ s ∈ l.made, ∀ t ∈ l.made, l.handle kind s = l.handle kind t → s = t
  alive : l.owned ⊆ l.live
  proper : ∀ r ∈ l.releases, r.2 = true

/-- Beyond `base` exists what the cells in `made` hold, and nothing else. -/
structure Balanced (base : Finset (K × Nat)) (l : Ledger S K) : Prop where
  valid : l.Valid kind
  live : ∀ h, h ∈ l.live ↔ h ∈ base ∨ ∃ s ∈ l.made, l.handle kind s = h
  new : ∀ s ∈ l.made, l.handle kind s ∉ base

def Sound (l : Ledger S K) (s : S) : Prop := l.cell s = 0 ∨ s ∈ l.made

variable {kind} {l : Ledger S K}

theorem start_valid (live : Finset (K × Nat)) (cell : S → Nat) : (start live cell).Valid kind where
  owns s member := absurd member (Finset.notMem_empty s)
  apart s member := absurd member (Finset.notMem_empty s)
  alive := Finset.empty_subset live
  proper _ member := absurd member List.not_mem_nil

theorem Valid.overwrite (valid : l.Valid kind) (which : S → Bool) (values : S → Nat) :
    (l.overwrite which values).Valid kind := by
  have same {s : S} (member : s ∈ (l.overwrite which values).made) :
      s ∈ l.made ∧ (l.overwrite which values).handle kind s = l.handle kind s := by
    obtain ⟨made, outside⟩ := Finset.mem_filter.mp member
    exact ⟨made, by simp [handle, Ledger.overwrite, outside]⟩
  refine ⟨fun s member => ?_, fun s member t other equal => ?_, valid.alive, valid.proper⟩
  · obtain ⟨made, kept⟩ := same member
    rw [kept]
    exact valid.owns s made
  · obtain ⟨made, kept⟩ := same member
    obtain ⟨madeOther, keptOther⟩ := same other
    rw [kept, keptOther] at equal
    exact valid.apart s made t madeOther equal

theorem Sound.overwrite_zero {s : S} (sound : l.Sound s) (which : S → Bool) :
    (l.overwrite which fun _ => 0).Sound s := by
  cases inside : which s with
  | true => exact .inl (by simp [Ledger.overwrite, inside])
  | false =>
      exact sound.imp (fun null => by simp [Ledger.overwrite, null])
        (fun made => Finset.mem_filter.mpr ⟨made, inside⟩)

theorem start_balanced (live : Finset (K × Nat)) (cell : S → Nat) :
    (start live cell).Balanced kind live where
  valid := start_valid live cell
  live h := by simp [start]
  new s member := absurd member (Finset.notMem_empty s)

theorem Balanced.overwrite {base : Finset (K × Nat)} (balanced : l.Balanced kind base) {which : S → Bool}
    (unmade : ∀ s ∈ l.made, which s = false) (values : S → Nat) :
    (l.overwrite which values).Balanced kind base := by
  have made : (l.overwrite which values).made = l.made := Finset.filter_eq_self.mpr unmade
  have same {s : S} (there : s ∈ l.made) :
      (l.overwrite which values).handle kind s = l.handle kind s := by
    simp [handle, Ledger.overwrite, unmade s there]
  refine ⟨balanced.valid.overwrite which values, fun h => (balanced.live h).trans ?_, ?_⟩
  · rw [made]
    exact or_congr_right (exists_congr fun s => and_congr_right fun there => by rw [same there])
  · intro s there
    rw [made] at there
    rw [same there]
    exact balanced.new s there

/-- The cells up to the first one that stops the walk, that one included. -/
def reached (stops : S × Bool → Bool) (cells : List (S × Bool)) : List (S × Bool) :=
  cells.takeWhile (! stops ·) ++ (cells.find? stops).toList

section
variable {stops : S × Bool → Bool} {cells : List (S × Bool)} {c : S × Bool}

theorem reached_cons (c : S × Bool) (rest : List (S × Bool)) :
    reached stops (c :: rest) = if stops c then [c] else c :: reached stops rest := by
  cases stopped : stops c <;> simp [reached, stopped]

theorem mem_of_mem_reached (member : c ∈ reached stops cells) : c ∈ cells := by
  rcases List.mem_append.mp member with before | stopped
  · exact List.takeWhile_subset _ before
  · exact List.mem_of_find?_eq_some (Option.mem_toList.mp stopped)

theorem mem_reached_append (member : c ∈ reached stops cells) (more : List (S × Bool)) :
    c ∈ reached stops (cells ++ more) := by
  induction cells with
  | nil => exact absurd member List.not_mem_nil
  | cons head rest ih =>
      rw [List.cons_append, reached_cons]
      rw [reached_cons] at member
      split_ifs at member ⊢
      · exact member
      · exact (List.mem_cons.mp member).elim (fun same => same ▸ List.mem_cons_self)
          fun later => List.mem_cons_of_mem _ (ih later)

theorem mem_reached_behind (through : ∀ c ∈ cells, stops c = false) {more : List (S × Bool)}
    (member : c ∈ reached stops more) : c ∈ reached stops (cells ++ more) := by
  induction cells with
  | nil => exact member
  | cons head rest ih =>
      obtain ⟨passes, throughRest⟩ := List.forall_mem_cons.mp through
      rw [List.cons_append, reached_cons, passes]
      exact List.mem_cons_of_mem _ (ih throughRest)

end

variable [DecidableEq S] [DecidableEq K] (kind)

def create (l : Ledger S K) (s : S) (h : Nat) : Ledger S K :=
  { l with
    cell := Function.update l.cell s h
    made := insert s l.made
    owned := insert (kind s, h) l.owned
    live := insert (kind s, h) l.live }

/-- The handle in a cell is passed on. When the release is granted it is gone, and the cell may be
cleared. -/
def release (l : Ledger S K) (s : S) (granted cleared : Bool) : Ledger S K :=
  { cell := if granted && cleared then Function.update l.cell s 0 else l.cell
    made := if granted then l.made.erase s else l.made
    owned := if granted then l.owned.erase (l.handle kind s) else l.owned
    live := if granted then l.live.erase (l.handle kind s) else l.live
    releases := l.releases ++ [(l.handle kind s, decide (l.handle kind s ∈ l.owned))] }

variable {kind}

theorem create_handle_self (l : Ledger S K) (s : S) (h : Nat) :
    (l.create kind s h).handle kind s = (kind s, h) := by
  simp [handle, create]

theorem create_handle_other (l : Ledger S K) {s t : S} (other : t ≠ s) (h : Nat) :
    (l.create kind s h).handle kind t = l.handle kind t := by
  simp [handle, create, Function.update_of_ne other]

theorem Sound.create {s : S} (sound : l.Sound s) (t : S) (h : Nat) :
    (l.create kind t h).Sound s := by
  by_cases same : s = t
  · exact .inr (by simp [Ledger.create, same])
  · exact sound.imp (fun null => by simp [Ledger.create, Function.update_of_ne same, null])
      (Finset.mem_insert_of_mem)

theorem Valid.create (valid : l.Valid kind) {s : S} {h : Nat} (fresh : (kind s, h) ∉ l.live) :
    (l.create kind s h).Valid kind := by
  have old {t : S} (member : t ∈ (l.create kind s h).made) (other : t ≠ s) : t ∈ l.made :=
    (Finset.mem_insert.mp member).resolve_left other
  have unlike {t : S} (member : t ∈ l.made) : l.handle kind t ≠ (kind s, h) := by
    intro equal
    exact fresh (valid.alive (equal ▸ valid.owns t member))
  refine ⟨fun t member => ?_, fun t member u another equal => ?_,
    Finset.insert_subset_insert _ valid.alive, valid.proper⟩
  · by_cases same : t = s
    · rw [same, create_handle_self]
      exact Finset.mem_insert_self _ _
    · rw [create_handle_other l same]
      exact Finset.mem_insert_of_mem (valid.owns t (old member same))
  · by_cases same : t = s
    · by_cases sameToo : u = s
      · rw [same, sameToo]
      · rw [same, create_handle_self, create_handle_other l sameToo] at equal
        exact absurd equal.symm (unlike (old another sameToo))
    · by_cases sameToo : u = s
      · rw [sameToo, create_handle_self, create_handle_other l same] at equal
        exact absurd equal (unlike (old member same))
      · rw [create_handle_other l same, create_handle_other l sameToo] at equal
        exact valid.apart t (old member same) u (old another sameToo) equal

theorem release_cell_other (l : Ledger S K) {s t : S} (other : t ≠ s) (granted cleared : Bool) :
    (l.release kind s granted cleared).cell t = l.cell t := by
  cases granted <;> cases cleared <;> simp [release, Function.update_of_ne other]

theorem release_handle_other (l : Ledger S K) {s t : S} (other : t ≠ s) (granted cleared : Bool) :
    (l.release kind s granted cleared).handle kind t = l.handle kind t := by
  rw [handle, release_cell_other l other, handle]

theorem Valid.release (valid : l.Valid kind) {s : S} (member : s ∈ l.made) (granted cleared : Bool) :
    (l.release kind s granted cleared).Valid kind := by
  have owned : l.handle kind s ∈ l.owned := valid.owns s member
  have proper : ∀ r ∈ (l.release kind s granted cleared).releases, r.2 = true := by
    intro r recorded
    rcases List.mem_append.mp recorded with before | now
    · exact valid.proper r before
    · rw [List.mem_singleton.mp now]
      exact decide_eq_true owned
  cases granted with
  | false => exact ⟨valid.owns, valid.apart, valid.alive, proper⟩
  | true =>
      have left {t : S} (there : t ∈ (l.release kind s true cleared).made) : t ≠ s ∧ t ∈ l.made :=
        Finset.mem_erase.mp there
      refine ⟨fun t there => ?_, fun t there u another equal => ?_,
        Finset.erase_subset_erase _ valid.alive, proper⟩
      · obtain ⟨other, made⟩ := left there
        rw [release_handle_other l other]
        exact Finset.mem_erase.mpr ⟨fun equal => other (valid.apart t made s member equal),
          valid.owns t made⟩
      · obtain ⟨other, made⟩ := left there
        obtain ⟨otherToo, madeToo⟩ := left another
        rw [release_handle_other l other, release_handle_other l otherToo] at equal
        exact valid.apart t made u madeToo equal

section
variable {base : Finset (K × Nat)}

theorem Balanced.create (balanced : l.Balanced kind base) {s : S} {h : Nat} (unmade : s ∉ l.made)
    (fresh : (kind s, h) ∉ l.live) : (l.create kind s h).Balanced kind base := by
  have old {t : S} (there : t ∈ l.made) : (l.create kind s h).handle kind t = l.handle kind t :=
    create_handle_other l (ne_of_mem_of_not_mem there unmade) h
  refine ⟨balanced.valid.create fresh, fun g => ?_, fun t there => ?_⟩
  · rw [show (l.create kind s h).live = insert (kind s, h) l.live from rfl, Finset.mem_insert,
      balanced.live]
    constructor
    · rintro (rfl | before | ⟨t, there, rfl⟩)
      · exact .inr ⟨s, Finset.mem_insert_self _ _, create_handle_self l s h⟩
      · exact .inl before
      · exact .inr ⟨t, Finset.mem_insert_of_mem there, old there⟩
    · rintro (before | ⟨t, there, rfl⟩)
      · exact .inr (.inl before)
      · rcases Finset.mem_insert.mp there with rfl | there
        · exact .inl (create_handle_self l t h)
        · exact .inr (.inr ⟨t, there, (old there).symm⟩)
  · rcases Finset.mem_insert.mp there with rfl | there
    · rw [create_handle_self]
      exact fun before => fresh ((balanced.live _).mpr (.inl before))
    · rw [old there]
      exact balanced.new t there

theorem Balanced.release (balanced : l.Balanced kind base) {s : S} (member : s ∈ l.made)
    (granted cleared : Bool) : (l.release kind s granted cleared).Balanced kind base := by
  have valid := balanced.valid.release member granted cleared
  cases granted with
  | false => exact ⟨valid, balanced.live, balanced.new⟩
  | true =>
      refine ⟨valid, fun g => ?_, fun t there => ?_⟩
      · rw [show (l.release kind s true cleared).live = l.live.erase (l.handle kind s) from rfl,
          Finset.mem_erase, balanced.live]
        constructor
        · rintro ⟨other, before | ⟨t, there, rfl⟩⟩
          · exact .inl before
          · have apart : t ≠ s := fun same => other (congrArg _ same)
            exact .inr ⟨t, Finset.mem_erase.mpr ⟨apart, there⟩, release_handle_other l apart _ _⟩
        · rintro (before | ⟨t, there, rfl⟩)
          · exact ⟨fun same => balanced.new s member (same ▸ before), .inl before⟩
          · obtain ⟨apart, there⟩ := Finset.mem_erase.mp there
            rw [release_handle_other l apart]
            exact ⟨fun same => apart (balanced.valid.apart t there s member same),
              .inr ⟨t, there, rfl⟩⟩
      · obtain ⟨apart, there⟩ := Finset.mem_erase.mp there
        rw [release_handle_other l apart]
        exact balanced.new t there

end

/-- The cells that are not null are released in turn, up to the first refusal. A cell comes with
whether it is cleared. -/
def walk (kind : S → K) (refuses : S → Bool) : List (S × Bool) → Ledger S K → Bool × Ledger S K
  | [], l => (true, l)
  | (s, cleared) :: rest, l =>
      if l.cell s = 0 then walk kind refuses rest l
      else if refuses s then (false, l.release kind s false cleared)
      else walk kind refuses rest (l.release kind s true cleared)

theorem mem_made_release_other {s t : S} (other : t ≠ s) (granted cleared : Bool) :
    t ∈ (l.release kind s granted cleared).made ↔ t ∈ l.made := by
  cases granted <;> simp [release, other]

theorem sound_release_other {s t : S} (other : t ≠ s) (granted cleared : Bool) :
    (l.release kind s granted cleared).Sound t ↔ l.Sound t := by
  rw [Sound, Sound, release_cell_other l other, mem_made_release_other other]

theorem walk_other {refuses : S → Bool} {cells : List (S × Bool)} {t : S}
    (outside : t ∉ cells.map Prod.fst) :
    (walk kind refuses cells l).2.cell t = l.cell t ∧
      (t ∈ (walk kind refuses cells l).2.made ↔ t ∈ l.made) := by
  induction cells generalizing l with
  | nil => exact ⟨rfl, Iff.rfl⟩
  | cons c rest ih =>
      obtain ⟨s, cleared⟩ := c
      rw [List.map_cons, List.mem_cons, not_or] at outside
      obtain ⟨other, outsideRest⟩ := outside
      rw [walk]
      split_ifs
      · exact ih outsideRest
      · exact ⟨release_cell_other l other _ _, mem_made_release_other other _ _⟩
      · obtain ⟨kept, made⟩ := ih (l := l.release kind s true cleared) outsideRest
        exact ⟨kept.trans (release_cell_other l other _ _),
          made.trans (mem_made_release_other other _ _)⟩

theorem walk_keeps_live {refuses : S → Bool} {cells : List (S × Bool)} {k : K}
    (other : ∀ c ∈ cells, kind c.1 ≠ k) {h : Nat} (alive : (k, h) ∈ l.live) :
    (k, h) ∈ (walk kind refuses cells l).2.live := by
  induction cells generalizing l with
  | nil => exact alive
  | cons c rest ih =>
      obtain ⟨s, cleared⟩ := c
      have otherRest := fun d member => other d (List.mem_cons_of_mem _ member)
      rw [walk]
      split_ifs
      · exact ih otherRest alive
      · exact alive
      · refine ih otherRest (Finset.mem_erase.mpr ⟨fun same => ?_, alive⟩)
        exact other (s, cleared) List.mem_cons_self (congrArg Prod.fst same).symm

theorem walk_append (refuses : S → Bool) (cells more : List (S × Bool)) (l : Ledger S K) :
    walk kind refuses (cells ++ more) l =
      if (walk kind refuses cells l).1 then walk kind refuses more (walk kind refuses cells l).2
      else walk kind refuses cells l := by
  induction cells generalizing l with
  | nil => rfl
  | cons c rest ih =>
      obtain ⟨s, cleared⟩ := c
      rw [List.cons_append, walk, walk]
      by_cases null : l.cell s = 0
      · simp only [null, if_true, ih]
      · by_cases refused : refuses s = true
        · simp [null, refused]
        · simp only [null, refused, if_false, ih, Bool.false_eq_true]

section
variable {refuses holds : S → Bool} {cells : List (S × Bool)}

variable (kind) in
theorem agrees_release {s : S} {cleared : Bool} {rest : List (S × Bool)}
    (distinct : (((s, cleared) :: rest).map Prod.fst).Nodup)
    (agrees : ∀ c ∈ (s, cleared) :: rest, holds c.1 = true ↔ l.cell c.1 ≠ 0) (granted : Bool) :
    ∀ c ∈ rest, holds c.1 = true ↔ (l.release kind s granted cleared).cell c.1 ≠ 0 := by
  intro c member
  have other : c.1 ≠ s := fun same =>
    (List.nodup_cons.mp distinct).1 (List.mem_map.mpr ⟨c, member, same⟩)
  rw [release_cell_other l other]
  exact agrees c (List.mem_cons_of_mem _ member)

theorem walk_valid (distinct : (cells.map Prod.fst).Nodup)
    (agrees : ∀ c ∈ cells, holds c.1 = true ↔ l.cell c.1 ≠ 0) (valid : l.Valid kind)
    (sound : ∀ c ∈ reached (fun c => holds c.1 && refuses c.1) cells, l.Sound c.1) :
    (walk kind refuses cells l).2.Valid kind := by
  induction cells generalizing l with
  | nil => exact valid
  | cons c rest ih =>
      obtain ⟨s, cleared⟩ := c
      obtain ⟨fresh, distinctRest⟩ := List.nodup_cons.mp distinct
      obtain ⟨here, agreesRest⟩ := List.forall_mem_cons.mp agrees
      rw [reached_cons] at sound
      rw [walk]
      split_ifs with null refused
      · have free : holds s = false := by simpa [null] using here
        simp only [free, Bool.false_and, Bool.false_eq_true, if_false] at sound
        exact ih distinctRest agreesRest valid fun c member => sound c (List.mem_cons_of_mem _ member)
      · have soundHere : l.Sound s := sound _ (by split_ifs <;> exact List.mem_cons_self)
        exact valid.release (soundHere.resolve_left null) false cleared
      · have soundHere : l.Sound s := sound _ (by split_ifs <;> exact List.mem_cons_self)
        simp only [refused, Bool.and_false, Bool.false_eq_true, if_false] at sound
        refine ih distinctRest (agrees_release kind distinct agrees true)
          (valid.release (soundHere.resolve_left null) true cleared) fun c member => ?_
        have other : c.1 ≠ s := fun same =>
          fresh (List.mem_map.mpr ⟨c, mem_of_mem_reached member, same⟩)
        exact (sound_release_other other true cleared).mpr (sound c (List.mem_cons_of_mem _ member))

theorem walk_through (distinct : (cells.map Prod.fst).Nodup)
    (agrees : ∀ c ∈ cells, holds c.1 = true ↔ l.cell c.1 ≠ 0) :
    (walk kind refuses cells l).1 = true ↔ ∀ c ∈ cells, (holds c.1 && refuses c.1) = false := by
  induction cells generalizing l with
  | nil => simp [walk]
  | cons c rest ih =>
      obtain ⟨s, cleared⟩ := c
      obtain ⟨-, distinctRest⟩ := List.nodup_cons.mp distinct
      obtain ⟨here, agreesRest⟩ := List.forall_mem_cons.mp agrees
      rw [walk, List.forall_mem_cons]
      split_ifs with null refused
      · have free : holds s = false := by simpa [null] using here
        rw [ih distinctRest agreesRest]
        simp [free]
      · have held : holds s = true := here.mpr null
        simp [held, refused]
      · rw [ih distinctRest (agrees_release kind distinct agrees true)]
        simp [refused]

theorem walk_cells (distinct : (cells.map Prod.fst).Nodup)
    (agrees : ∀ c ∈ cells, holds c.1 = true ↔ l.cell c.1 ≠ 0) :
    (∀ c ∈ cells.takeWhile (fun c => !(holds c.1 && refuses c.1)),
      (holds c.1 = true → c.2 = true) → (walk kind refuses cells l).2.cell c.1 = 0) ∧
    ∀ c ∈ cells.dropWhile (fun c => !(holds c.1 && refuses c.1)),
      (walk kind refuses cells l).2.cell c.1 = l.cell c.1 ∧
        (c.1 ∈ (walk kind refuses cells l).2.made ↔ c.1 ∈ l.made) := by
  induction cells generalizing l with
  | nil => simp
  | cons c rest ih =>
      obtain ⟨s, cleared⟩ := c
      obtain ⟨fresh, distinctRest⟩ := List.nodup_cons.mp distinct
      obtain ⟨here, agreesRest⟩ := List.forall_mem_cons.mp agrees
      rw [walk]
      split_ifs with null refused
      · have free : holds s = false := by simpa [null] using here
        obtain ⟨clears, keeps⟩ := ih distinctRest agreesRest
        simp only [List.takeWhile_cons, List.dropWhile_cons, free, Bool.false_and, Bool.not_false,
          if_true, List.forall_mem_cons]
        exact ⟨⟨fun _ => (walk_other fresh).1.trans null, clears⟩, keeps⟩
      · have held : holds s = true := here.mpr null
        simp only [List.takeWhile_cons, List.dropWhile_cons, held, refused, Bool.and_self,
          Bool.not_true, Bool.false_eq_true, if_false]
        exact ⟨fun c member => absurd member List.not_mem_nil, fun c _ => ⟨rfl, Iff.rfl⟩⟩
      · obtain ⟨clears, keeps⟩ := ih distinctRest (agrees_release kind distinct agrees true)
        simp only [List.takeWhile_cons, List.dropWhile_cons, refused, Bool.and_false, Bool.not_false,
          if_true, List.forall_mem_cons]
        refine ⟨⟨fun clearing => (walk_other fresh).1.trans ?_, clears⟩, fun c member => ?_⟩
        · simp [release, clearing (here.mpr null)]
        · have other : c.1 ≠ s := fun same =>
            fresh (List.mem_map.mpr ⟨c, List.dropWhile_subset _ member, same⟩)
          obtain ⟨kept, made⟩ := keeps c member
          exact ⟨kept.trans (release_cell_other l other _ _),
            made.trans (mem_made_release_other other _ _)⟩

end

end Ledger

end Nicc.Lib

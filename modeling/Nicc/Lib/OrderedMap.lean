import Mathlib.Order.Lattice
import Mathlib.Order.Basic
import Mathlib.Data.List.TakeWhile

namespace Nicc.Lib

variable {K V : Type*} [LinearOrder K]

def mapInsert : List (K × V) → K → V → List (K × V)
  | [], key, value => [(key, value)]
  | (k, v) :: rest, key, value =>
      if key < k then (key, value) :: (k, v) :: rest
      else if key = k then (k, v) :: rest
      else (k, v) :: mapInsert rest key value

def Sorted (entries : List (K × V)) : Prop := entries.Pairwise (·.1 < ·.1)

theorem mem_mapInsert {entries : List (K × V)} {key : K} {value : V} {e : K × V}
    (member : e ∈ mapInsert entries key value) : e = (key, value) ∨ e ∈ entries := by
  induction entries with
  | nil => exact .inl (List.mem_singleton.mp member)
  | cons entry rest ih =>
      obtain ⟨k, v⟩ := entry
      rw [mapInsert] at member
      split_ifs at member with before same
      · rcases List.mem_cons.mp member with first | old
        · exact .inl first
        · exact .inr old
      · exact .inr member
      · rcases List.mem_cons.mp member with first | later
        · exact .inr (first ▸ List.mem_cons_self)
        · rcases ih later with new | old
          · exact .inl new
          · exact .inr (List.mem_cons_of_mem _ old)

theorem mapInsert_keeps {entries : List (K × V)} {key : K} {value : V} {e : K × V}
    (member : e ∈ entries) : e ∈ mapInsert entries key value := by
  induction entries with
  | nil => cases member
  | cons entry rest ih =>
      obtain ⟨k, v⟩ := entry
      rw [mapInsert]
      split_ifs
      · exact List.mem_cons_of_mem _ member
      · exact member
      · rcases List.mem_cons.mp member with first | later
        · exact first ▸ List.mem_cons_self
        · exact List.mem_cons_of_mem _ (ih later)

theorem mapInsert_has (entries : List (K × V)) (key : K) (value : V) :
    ∃ v, (key, v) ∈ mapInsert entries key value := by
  induction entries with
  | nil => exact ⟨value, List.mem_cons_self⟩
  | cons entry rest ih =>
      obtain ⟨k, v⟩ := entry
      rw [mapInsert]
      split_ifs with before same
      · exact ⟨value, List.mem_cons_self⟩
      · exact ⟨v, same ▸ List.mem_cons_self⟩
      · obtain ⟨w, member⟩ := ih
        exact ⟨w, List.mem_cons_of_mem _ member⟩

theorem mapInsert_sorted {entries : List (K × V)} (sorted : Sorted entries) (key : K) (value : V) :
    Sorted (mapInsert entries key value) := by
  induction entries with
  | nil => exact List.pairwise_singleton _ _
  | cons entry rest ih =>
      obtain ⟨k, v⟩ := entry
      obtain ⟨first, later⟩ := List.pairwise_cons.mp sorted
      rw [mapInsert]
      split_ifs with before same
      · refine List.pairwise_cons.mpr ⟨fun e member => ?_, sorted⟩
        rcases List.mem_cons.mp member with rfl | old
        · exact before
        · exact before.trans (first e old)
      · exact sorted
      · refine List.pairwise_cons.mpr ⟨fun e member => ?_, ih later⟩
        rcases mem_mapInsert member with rfl | old
        · exact lt_of_le_of_ne (not_lt.mp before) (Ne.symm same)
        · exact first e old

theorem mapInsert_values_nodup {entries : List (K × V)} {value : V}
    (distinct : (entries.map Prod.snd).Nodup) (fresh : value ∉ entries.map Prod.snd) (key : K) :
    ((mapInsert entries key value).map Prod.snd).Nodup := by
  induction entries with
  | nil => simp [mapInsert]
  | cons entry rest ih =>
      obtain ⟨k, v⟩ := entry
      obtain ⟨first, later⟩ := List.nodup_cons.mp distinct
      rw [List.map_cons, List.mem_cons, not_or] at fresh
      rw [mapInsert]
      split_ifs
      · exact List.nodup_cons.mpr ⟨by simpa using fresh, distinct⟩
      · exact distinct
      · refine List.nodup_cons.mpr ⟨fun there => ?_, ih later fresh.2⟩
        obtain ⟨e, member, same⟩ := List.mem_map.mp there
        rcases mem_mapInsert member with rfl | old
        · exact fresh.1 same
        · exact first (same ▸ List.mem_map_of_mem old)

theorem mapInsert_last {entries : List (K × V)} {key : K} (value : V)
    (behind : ∀ e ∈ entries, e.1 < key) :
    mapInsert entries key value = entries ++ [(key, value)] := by
  induction entries with
  | nil => rfl
  | cons entry rest ih =>
      obtain ⟨k, v⟩ := entry
      have past : k < key := behind (k, v) List.mem_cons_self
      rw [mapInsert, if_neg past.not_gt, if_neg past.ne',
        ih fun e member => behind e (List.mem_cons_of_mem _ member), List.cons_append]

theorem mapInsert_perm {entries : List (K × V)} {key : K} (value : V)
    (fresh : ∀ e ∈ entries, e.1 ≠ key) :
    (mapInsert entries key value).Perm ((key, value) :: entries) := by
  induction entries with
  | nil => exact List.Perm.refl _
  | cons entry rest ih =>
      obtain ⟨k, v⟩ := entry
      have other : ¬ key = k := fun same => fresh (k, v) List.mem_cons_self same.symm
      rw [mapInsert, if_neg other]
      split_ifs
      · exact List.Perm.refl _
      · have later := ih fun e member => fresh e (List.mem_cons_of_mem _ member)
        exact (later.cons (k, v)).trans (List.Perm.swap _ _ _)

/-- `insert` of a `std::multimap`: a new entry goes behind all entries with the same key. -/
def multiInsert (entries : List (K × V)) (key : K) (value : V) : List (K × V) :=
  entries.takeWhile (·.1 ≤ key) ++ (key, value) :: entries.dropWhile (·.1 ≤ key)

theorem mem_multiInsert {entries : List (K × V)} {key : K} {value : V} {e : K × V} :
    e ∈ multiInsert entries key value ↔ e = (key, value) ∨ e ∈ entries := by
  rw [multiInsert, List.perm_middle.mem_iff, List.takeWhile_append_dropWhile, List.mem_cons]

def MultiSorted [LT V] (entries : List (K × V)) : Prop :=
  entries.Pairwise fun a b => a.1 < b.1 ∨ (a.1 = b.1 ∧ a.2 < b.2)

theorem MultiSorted.behind [LT V] {entries : List (K × V)} (sorted : MultiSorted entries) (key : K) :
    ∀ e ∈ entries.dropWhile (·.1 ≤ key), key < e.1 := by
  induction entries with
  | nil => simp
  | cons first rest ih =>
      obtain ⟨before, later⟩ := List.pairwise_cons.mp sorted
      intro e member
      by_cases passed : first.1 ≤ key
      · rw [List.dropWhile_cons_of_pos (by simpa using passed)] at member
        exact ih later e member
      · rw [List.dropWhile_cons_of_neg (by simpa using passed)] at member
        rcases List.mem_cons.mp member with rfl | old
        · exact not_le.mp passed
        · rcases before e old with less | ⟨same, -⟩
          · exact (not_le.mp passed).trans less
          · exact same ▸ not_le.mp passed

theorem MultiSorted.insert [LT V] {entries : List (K × V)} (sorted : MultiSorted entries) (key : K)
    {value : V} (newest : ∀ e ∈ entries, e.2 < value) :
    MultiSorted (multiInsert entries key value) := by
  have whole : entries.takeWhile (·.1 ≤ key) ++ entries.dropWhile (·.1 ≤ key) = entries :=
    List.takeWhile_append_dropWhile
  have split := sorted
  rw [MultiSorted, ← whole] at split
  obtain ⟨front, back, across⟩ := List.pairwise_append.mp split
  refine List.pairwise_append.mpr ⟨front, List.pairwise_cons.mpr ⟨fun e member => ?_, back⟩,
    fun e member f other => ?_⟩
  · exact .inl (sorted.behind key e member)
  · rcases List.mem_cons.mp other with rfl | behind
    · have below : e.1 ≤ key := by simpa using List.mem_takeWhile_imp member
      rcases below.lt_or_eq with less | same
      · exact .inl less
      · exact .inr ⟨same, newest e (whole ▸ List.mem_append_left _ member)⟩
    · exact across e member f behind

theorem MultiSorted.nodup {V : Type*} [Preorder V] {entries : List (K × V)}
    (sorted : MultiSorted entries) : entries.Nodup := by
  refine List.Pairwise.imp (fun {a b} before same => ?_) sorted
  subst same
  rcases before with less | ⟨-, less⟩
  · exact lt_irrefl _ less
  · exact lt_irrefl _ less

end Nicc.Lib

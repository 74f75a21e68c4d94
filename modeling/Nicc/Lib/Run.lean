import Mathlib.Data.List.Basic

/-!
# Runs of a machine whose labelled steps can fail

A machine is a step function `σ → ι → Except ε σ`. A run feeds it a list of labels and stops at
the first failure. The rules below carry a property of one step over to all runs.
-/

namespace Nicc.Lib

universe u
variable {ε ι : Type*} {σ : Type u}

@[simp] theorem bind_eq_ok {α β : Type u} {x : Except ε α} {f : α → Except ε β} {b : β} :
    x >>= f = .ok b ↔ ∃ a, x = .ok a ∧ f a = .ok b := by
  cases x <;> simp [bind, Except.bind]

@[simp] theorem pure_eq_ok {α : Type u} {a b : α} : (pure a : Except ε α) = .ok b ↔ a = b := by
  simp [pure, Except.pure]

@[simp] theorem map_eq_ok {α β : Type u} {f : α → β} {x : Except ε α} {b : β} :
    f <$> x = .ok b ↔ ∃ a, x = .ok a ∧ f a = b := by
  cases x <;> simp [Functor.map, Except.map]

@[simp] theorem ok_bind {α β : Type u} (a : α) (f : α → Except ε β) :
    (Except.ok a >>= f) = f a := pure_bind a f

def run (step : σ → ι → Except ε σ) (s : σ) (labels : List ι) : Except ε σ :=
  labels.foldlM step s

@[simp] theorem run_nil (step : σ → ι → Except ε σ) (s : σ) : run step s [] = .ok s := rfl

theorem run_cons_ok {step : σ → ι → Except ε σ} {s t : σ} {l : ι} {ls : List ι} :
    run step s (l :: ls) = .ok t ↔ ∃ u, step s l = .ok u ∧ run step u ls = .ok t := by
  simp [run]

theorem run_append_ok {step : σ → ι → Except ε σ} {s t : σ} {ls ms : List ι} :
    run step s (ls ++ ms) = .ok t ↔ ∃ u, run step s ls = .ok u ∧ run step u ms = .ok t := by
  simp [run]

theorem run_snoc_ok {step : σ → ι → Except ε σ} {s t : σ} {l : ι} {ls : List ι} :
    run step s (ls ++ [l]) = .ok t ↔ ∃ u, run step s ls = .ok u ∧ step u l = .ok t := by
  rw [run_append_ok]
  simp [run]

theorem run_invariant {step : σ → ι → Except ε σ} (inv : σ → Prop) (ok : ι → Prop)
    (preserved : ∀ s l t, inv s → ok l → step s l = .ok t → inv t)
    {s t : σ} {ls : List ι} (start : inv s) (labels : ∀ l ∈ ls, ok l)
    (ran : run step s ls = .ok t) : inv t := by
  induction ls generalizing s with
  | nil => cases ran; exact start
  | cons l ls ih =>
      obtain ⟨u, first, rest⟩ := run_cons_ok.mp ran
      exact ih (preserved s l u start (labels l (by simp)) first)
        (fun m member => labels m (by simp [member])) rest

def Admits (step : σ → ι → Except ε σ) (ok : σ → ι → Prop) : σ → List ι → Prop
  | _, [] => True
  | s, l :: ls => ok s l ∧ ∀ t, step s l = .ok t → Admits step ok t ls

/-- Where every admissible step succeeds and keeps the invariant, every admissible run succeeds. -/
theorem run_total {step : σ → ι → Except ε σ} (inv : σ → Prop) {ok : σ → ι → Prop}
    (progress : ∀ s l, inv s → ok s l → ∃ t, step s l = .ok t ∧ inv t)
    {s : σ} {ls : List ι} (start : inv s) (labels : Admits step ok s ls) :
    ∃ t, run step s ls = .ok t ∧ inv t := by
  induction ls generalizing s with
  | nil => exact ⟨s, rfl, start⟩
  | cons l ls ih =>
      obtain ⟨u, first, kept⟩ := progress s l start labels.1
      obtain ⟨t, rest, finished⟩ := ih kept (labels.2 u first)
      exact ⟨t, run_cons_ok.mpr ⟨u, first, rest⟩, finished⟩

theorem run_admitted {step : σ → ι → Except ε σ} (inv : σ → Prop) {ok : σ → ι → Prop}
    (preserved : ∀ s l t, inv s → ok s l → step s l = .ok t → inv t)
    {s t : σ} {ls : List ι} (start : inv s) (labels : Admits step ok s ls)
    (ran : run step s ls = .ok t) : inv t := by
  induction ls generalizing s with
  | nil => cases ran; exact start
  | cons l ls ih =>
      obtain ⟨u, first, rest⟩ := run_cons_ok.mp ran
      exact ih (preserved s l u start labels.1 first) (labels.2 u first) rest

theorem snoc_getElem? {α : Type*} {xs : List α} {x y : α} {k : Nat}
    (there : (xs ++ [x])[k]? = some y) :
    (k < xs.length ∧ xs[k]? = some y) ∨ (k = xs.length ∧ y = x) := by
  rcases Nat.lt_trichotomy k xs.length with old | here | beyond
  · rw [List.getElem?_append_left old] at there
    exact .inl ⟨old, there⟩
  · rw [here, List.getElem?_concat_length] at there
    exact .inr ⟨here, (Option.some.inj there).symm⟩
  · rw [List.getElem?_eq_none (by simp; omega)] at there
    cases there

theorem getElem?_lt {α : Type*} {xs : List α} {k : Nat} {y : α} (there : xs[k]? = some y) :
    k < xs.length := (List.getElem?_eq_some_iff.mp there).1

end Nicc.Lib

import Nicc.Lib.Run

namespace Nicc

inductive Retval
  | NICC_SUCCESS
  | NICC_ERROR_NOT_IMPLEMENTED
  | NICC_ERROR_NOT_FOUND
  | NICC_ERROR_EXSAUSTED
  | NICC_ERROR_DUPLICATED
  | NICC_ERROR_HARDWARE_FAILURE
  | NICC_ERROR_MEMORY_FAILURE
  | NICC_ERROR
  deriving DecidableEq, Repr

def assertThat (condition : Prop) [Decidable condition] (text : String) : Except String Unit :=
  if condition then .ok () else .error text

@[simp] theorem assertThat_ok {condition : Prop} [Decidable condition] {text : String} {u : Unit} :
    assertThat condition text = .ok u ↔ condition := by
  by_cases holds : condition <;> simp [assertThat, holds]

def hardwareCheck (ok : Prop) [Decidable ok] : Retval :=
  if ok then .NICC_SUCCESS else .NICC_ERROR_HARDWARE_FAILURE

@[simp] theorem hardwareCheck_success {ok : Prop} [Decidable ok] :
    hardwareCheck ok = .NICC_SUCCESS ↔ ok := by
  by_cases holds : ok <;> simp [hardwareCheck, holds]

/-- `if (NICC_SUCCESS != (retval = first)) return retval;` before what follows. -/
def andThen {σ : Type*} (first : Retval × σ) (next : σ → Retval × σ) : Retval × σ :=
  if first.1 = .NICC_SUCCESS then next first.2 else first

theorem andThen_success {σ : Type*} {first : Retval × σ} (next : σ → Retval × σ)
    (ok : first.1 = .NICC_SUCCESS) : andThen first next = next first.2 := if_pos ok

theorem andThen_failure {σ : Type*} {first : Retval × σ} (next : σ → Retval × σ)
    (failed : first.1 ≠ .NICC_SUCCESS) : andThen first next = first := if_neg failed

theorem andThen_success_iff {σ : Type*} {first : Retval × σ} {next : σ → Retval × σ} :
    (andThen first next).1 = .NICC_SUCCESS ↔
      first.1 = .NICC_SUCCESS ∧ (next first.2).1 = .NICC_SUCCESS := by
  by_cases ok : first.1 = .NICC_SUCCESS
  · simp [andThen_success next ok, ok]
  · simp [andThen_failure next ok, ok]

theorem andThen_invariant {σ : Type*} (inv : σ → Prop) {first : Retval × σ}
    {next : σ → Retval × σ} (before : inv first.2) (kept : ∀ s, inv s → inv (next s).2) :
    inv (andThen first next).2 := by
  unfold andThen
  split_ifs
  · exact kept _ before
  · exact before

theorem assertThat_holds {condition : Prop} [Decidable condition] {text : String}
    (holds : condition) : assertThat condition text = .ok () := if_pos holds

end Nicc

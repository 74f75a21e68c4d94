import Nicc.Pipeline.ResourcePool

namespace Nicc.Pipeline
open Lib

abbrev ConfigMap : Type := List (UInt16 × Option Desp)

def NICC_ENABLE_FULL_MASK : UInt16 := 0xffff

namespace Pool

def readConfig (enabledComponents : UInt16) (configMap : ConfigMap) : UInt16 :=
  configMap.foldl (fun enabledComponents config =>
    if enabledComponents &&& config.1 = 0 then enabledComponents
    else enabledComponents ^^^ (config.1 &&& NICC_ENABLE_FULL_MASK)) enabledComponents

/-- One round of the second loop. `init` copies the quota and succeeds. -/
def initComponent (p : Pool) (config : UInt16 × Option Desp) : Except String Pool :=
  match config.2 with
  | none => .error "config_map_iter->second != nullptr"
  | some desp =>
      let cid := config.1.toNat
      if cid = kComponent_FlowEngine ∨ cid = kComponent_DPA ∨ cid = kComponent_SoC then
        .ok { p with componentMap :=
          if (p.componentMap cid).isSome then p.componentMap
          else Function.update p.componentMap cid (some ⟨desp.quota⟩) }
      else .error "SHUTDOWN BY NICC ERROR"

def construct (blocks : Nat → ComponentBlock) (enabledComponents : UInt16) (configMap : ConfigMap) :
    Except String Pool :=
  if readConfig enabledComponents configMap ≠ 0 then .error "SHUTDOWN BY NICC ERROR"
  else run initComponent ⟨fun _ => none, blocks, [], []⟩ configMap

inductive Call
  | allocate (cid : UInt16) (desp : Desp) (cb : Nat)
  | deallocate (cid : UInt16) (cb : Nat)

def Call.cid : Call → UInt16
  | .allocate cid _ _ => cid
  | .deallocate cid _ => cid

def call (p : Pool) : Call → Except String (Retval × Pool)
  | .allocate cid desp cb => p.allocate cid.toNat desp cb
  | .deallocate cid cb => p.deallocate cid.toNat cb

def Usable (enabledComponents : UInt16) (configMap : ConfigMap) (cid : UInt16) : Prop :=
  cid ∈ configMap.map Prod.fst ∧ enabledComponents &&& cid ≠ 0

def Holds (p : Pool) (usable : UInt16 → Prop) : Prop :=
  ∀ cid : UInt16, p.componentMap cid.toNat ≠ none ↔ usable cid

/-- The pool holds the usable components at every time, and a call for another one is refused. -/
def Guarded (usable : UInt16 → Prop) : Pool → List Call → Prop
  | p, [] => p.Holds usable
  | p, c :: calls =>
      p.Holds usable ∧ (¬ usable c.cid → p.call c = .ok (.NICC_ERROR_NOT_FOUND, p)) ∧
        ∀ retval next, p.call c = .ok (retval, next) → Guarded usable next calls

theorem initComponent_map {p next : Pool} {config : UInt16 × Option Desp}
    (made : initComponent p config = .ok next) (cid : UInt16) :
    next.componentMap cid.toNat ≠ none ↔
      p.componentMap cid.toNat ≠ none ∨ cid = config.1 := by
  unfold initComponent at made
  cases given : config.2 with
  | none =>
      rw [given] at made
      cases made
  | some desp =>
      simp only [given] at made
      split_ifs at made with known there
      · cases made
        constructor
        · exact .inl
        · rintro (old | rfl)
          · exact old
          · exact Option.isSome_iff_ne_none.mp there
      · cases made
        by_cases same : cid = config.1
        · subst same
          simp
        · have apart : cid.toNat ≠ config.1.toNat := fun equal => same (UInt16.toNat_inj.mp equal)
          simp [Function.update_of_ne apart, same]

theorem run_initComponent_map {configMap : ConfigMap} {p next : Pool}
    (made : run initComponent p configMap = .ok next) (cid : UInt16) :
    next.componentMap cid.toNat ≠ none ↔
      p.componentMap cid.toNat ≠ none ∨ cid ∈ configMap.map Prod.fst := by
  induction configMap generalizing p with
  | nil =>
      cases made
      simp
  | cons config configMap ih =>
      obtain ⟨q, first, rest⟩ := run_cons_ok.mp made
      rw [ih rest, initComponent_map first, List.map_cons, List.mem_cons, or_assoc]

theorem construct_map {blocks : Nat → ComponentBlock} {enabledComponents : UInt16}
    {configMap : ConfigMap} {p : Pool}
    (made : construct blocks enabledComponents configMap = .ok p) (cid : UInt16) :
    p.componentMap cid.toNat ≠ none ↔ cid ∈ configMap.map Prod.fst := by
  unfold construct at made
  split_ifs at made
  rw [run_initComponent_map made]
  simp

theorem call_missing {p : Pool} {c : Call} (missing : p.componentMap c.cid.toNat = none) :
    p.call c = .error "component != nullptr" := by
  cases c with
  | allocate cid desp cb =>
      simp only [Call.cid] at missing
      rw [call, allocate, missing]
  | deallocate cid cb =>
      simp only [Call.cid] at missing
      rw [call, deallocate, missing]

theorem call_present {p : Pool} {c : Call} (present : p.componentMap c.cid.toNat ≠ none) :
    ∃ retval next, p.call c = .ok (retval, next) ∧
      ∀ cid, next.componentMap cid ≠ none ↔ p.componentMap cid ≠ none := by
  obtain ⟨component, there⟩ := Option.ne_none_iff_exists'.mp present
  have kept (changed : Component) (cid : Nat) :
      Function.update p.componentMap c.cid.toNat (some changed) cid ≠ none ↔
        p.componentMap cid ≠ none := by
    by_cases same : cid = c.cid.toNat
    · simp [same, there]
    · simp [Function.update_of_ne same]
  cases c with
  | allocate cid desp cb =>
      simp only [Call.cid] at there kept
      refine ⟨_, _, by rw [call, allocate, there], ?_⟩
      exact kept _
  | deallocate cid cb =>
      simp only [Call.cid] at there kept
      refine ⟨_, _, by rw [call, deallocate, there], ?_⟩
      exact kept _

theorem guarded_iff_of_holds {usable : UInt16 → Prop} {p : Pool} (holds : p.Holds usable)
    (calls : List Call) : Guarded usable p calls ↔ ∀ c ∈ calls, usable c.cid := by
  induction calls generalizing p with
  | nil => simp [Guarded, holds]
  | cons c calls ih =>
      rw [Guarded, List.forall_mem_cons]
      by_cases allowed : usable c.cid
      · obtain ⟨retval, next, called, kept⟩ := call_present ((holds c.cid).mpr allowed)
        have holdsNext : next.Holds usable := fun cid => (kept cid.toNat).trans (holds cid)
        constructor
        · rintro ⟨-, -, later⟩
          exact ⟨allowed, (ih holdsNext).mp (later retval next called)⟩
        · rintro ⟨-, later⟩
          refine ⟨holds, fun other => absurd allowed other, fun r n again => ?_⟩
          rw [called] at again
          cases again
          exact (ih holdsNext).mpr later
      · have missing : p.componentMap c.cid.toNat = none := by
          by_contra present
          exact allowed ((holds c.cid).mp present)
        constructor
        · rintro ⟨-, refused, -⟩
          rw [call_missing missing] at refused
          cases refused allowed
        · rintro ⟨first, -⟩
          exact absurd first allowed

theorem guarded_iff {blocks : Nat → ComponentBlock} {enabledComponents : UInt16}
    {configMap : ConfigMap} {p : Pool}
    (made : construct blocks enabledComponents configMap = .ok p) (calls : List Call) :
    Guarded (Usable enabledComponents configMap) p calls ↔
      (∀ config ∈ configMap, enabledComponents &&& config.1 ≠ 0) ∧
        ∀ c ∈ calls, Usable enabledComponents configMap c.cid := by
  have held := construct_map made
  by_cases enabled : ∀ config ∈ configMap, enabledComponents &&& config.1 ≠ 0
  · have holds : p.Holds (Usable enabledComponents configMap) := by
      intro cid
      rw [held, Usable]
      refine ⟨fun configured => ⟨configured, ?_⟩, And.left⟩
      obtain ⟨config, member, rfl⟩ := List.mem_map.mp configured
      exact enabled config member
    rw [guarded_iff_of_holds holds]
    exact ⟨fun allowed => ⟨enabled, allowed⟩, And.right⟩
  · refine ⟨fun guarded => absurd ?_ enabled, fun both => absurd both.1 enabled⟩
    have holds : p.Holds (Usable enabledComponents configMap) := by
      cases calls with
      | nil => exact guarded
      | cons c calls => exact guarded.1
    intro config member
    exact ((holds config.1).mp ((held config.1).mpr (List.mem_map_of_mem member))).2

theorem guarded_soc :
    ∃ p, construct (fun _ => .fresh) 4 [(4, some ⟨8, "soc", "mlx5_0", 0⟩)] = .ok p ∧
      Guarded (Usable 4 [(4, some ⟨8, "soc", "mlx5_0", 0⟩)]) p
        [.allocate 4 ⟨2, "soc", "mlx5_0", 0⟩ 0, .deallocate 4 0] := by
  obtain ⟨p, made⟩ : ∃ p, construct (fun _ => .fresh) 4 [(4, some ⟨8, "soc", "mlx5_0", 0⟩)] = .ok p :=
    ⟨_, rfl⟩
  exact ⟨p, made, (guarded_iff made _).mpr ⟨by simp, by simp [Usable, Call.cid]⟩⟩

theorem disabled_held : ∃ p, construct (fun _ => .fresh) 4
    [(2, some ⟨8, "dpa", "mlx5_0", 0⟩), (4, some ⟨8, "soc", "mlx5_0", 0⟩)] = .ok p ∧
      ¬ Guarded (Usable 4 [(2, some ⟨8, "dpa", "mlx5_0", 0⟩), (4, some ⟨8, "soc", "mlx5_0", 0⟩)])
        p [] := by
  obtain ⟨p, made⟩ : ∃ p, construct (fun _ => .fresh) 4
      [(2, some ⟨8, "dpa", "mlx5_0", 0⟩), (4, some ⟨8, "soc", "mlx5_0", 0⟩)] = .ok p := ⟨_, rfl⟩
  refine ⟨p, made, fun holds => ?_⟩
  have held := (construct_map made 2).mpr (by simp)
  exact absurd ((holds 2).mp held).2 (by decide)

end Pool

end Nicc.Pipeline

import Mathlib.Algebra.GroupWithZero.Nat
import Nicc.Pipeline.PoolSetUp
import Nicc.Pipeline.Release
import Mathlib.Algebra.BigOperators.Group.List.Basic

namespace Nicc.Pipeline
open Lib

structure Rental where
  pool : Pool
  live : List (UInt16 × Nat)

namespace Rental

def step (r : Rental) : Pool.Call → Except String Rental
  | .allocate cid desp cb => do
      let (retval, pool) ← r.pool.call (.allocate cid desp cb)
      return ⟨pool, if retval = .NICC_SUCCESS then (cid, cb) :: r.live else r.live⟩
  | .deallocate cid cb => do
      let (_, pool) ← r.pool.call (.deallocate cid cb)
      return ⟨pool, r.live.erase (cid, cb)⟩

/-- A block is fresh when it is requested, and is given back to the component that it is from. -/
def Legal (r : Rental) : Pool.Call → Prop
  | .allocate cid _ cb => r.pool.componentMap cid.toNat ≠ none ∧ cb ∉ r.live.map Prod.snd
  | .deallocate cid cb => (cid, cb) ∈ r.live

def held (blocks : Nat → ComponentBlock) (cid : UInt16) (live : List (UInt16 × Nat)) : Nat :=
  ((live.filter fun e => e.1 = cid).map fun e => (blocks e.2).quota.toNat).sum

def Conserved (configured : UInt16 → Option Nat) (r : Rental) : Prop :=
  ∀ cid, (r.pool.remaining cid.toNat).map (· + held r.pool.blocks cid r.live) = configured cid

def Fair (r : Rental) : Pool.Call → Prop
  | .allocate cid desp cb => ∃ left retval next, r.pool.remaining cid.toNat = some left ∧
      r.pool.call (.allocate cid desp cb) = .ok (retval, next) ∧
      (retval = .NICC_SUCCESS ↔ desp.quota.toNat ≤ left) ∧
      (retval = .NICC_SUCCESS →
        next.remaining cid.toNat = some (left - desp.quota.toNat) ∧
        (next.blocks cb).quota = desp.quota) ∧
      (retval ≠ .NICC_SUCCESS →
        next.componentMap = r.pool.componentMap ∧ next.blocks = r.pool.blocks)
  | .deallocate cid cb => ∃ left next, r.pool.remaining cid.toNat = some left ∧
      r.pool.call (.deallocate cid cb) = .ok (.NICC_SUCCESS, next) ∧
      next.remaining cid.toNat = some (left + (r.pool.blocks cb).quota.toNat)

structure Kept (configured : UInt16 → Option Nat) (r : Rental) : Prop where
  conserved : Conserved configured r
  once : (r.live.map Prod.snd).Nodup
  known : ∀ e ∈ r.live, r.pool.componentMap e.1.toNat ≠ none
  small : ∀ cid quota, configured cid = some quota → quota < 2 ^ 64

section
variable {blocks : Nat → ComponentBlock} {cid : UInt16} {live : List (UInt16 × Nat)}

theorem held_cons (e : UInt16 × Nat) : held blocks cid (e :: live) =
    (if e.1 = cid then (blocks e.2).quota.toNat else 0) + held blocks cid live := by
  by_cases same : e.1 = cid
  · simp [held, same]
  · simp [held, same]

theorem held_erase {e : UInt16 × Nat} (member : e ∈ live) : held blocks cid live =
    (if e.1 = cid then (blocks e.2).quota.toNat else 0) + held blocks cid (live.erase e) := by
  rw [← held_cons]
  exact (((List.perm_cons_erase member).filter _).map _).sum_eq

theorem held_update {cb : Nat} (fresh : cb ∉ live.map Prod.snd) (block : ComponentBlock) :
    held (Function.update blocks cb block) cid live = held blocks cid live := by
  unfold held
  congr 1
  apply List.map_congr_left
  intro e member
  have other : e.2 ≠ cb := by
    rintro rfl
    exact fresh (List.mem_map_of_mem (List.mem_of_mem_filter member))
  rw [Function.update_of_ne other]

end

section
variable {configured : UInt16 → Option Nat} {r : Rental}

theorem remaining_update (p : Pool) (cid : UInt16) (c : Component) (other : UInt16) :
    (Function.update p.componentMap cid.toNat (some c) other.toNat).map (·.quota.toNat) =
      if other = cid then some c.quota.toNat else p.remaining other.toNat := by
  by_cases same : other = cid
  · subst same
    simp
  · have apart : other.toNat ≠ cid.toNat := fun equal => same (UInt16.toNat_inj.mp equal)
    rw [Function.update_of_ne apart, if_neg same]
    rfl

theorem present_update {p : Pool} {cid other : UInt16} {c : Component}
    (present : p.componentMap other.toNat ≠ none ∨ other = cid) :
    Function.update p.componentMap cid.toNat (some c) other.toNat ≠ none := by
  by_cases same : other.toNat = cid.toNat
  · simp [same]
  · rw [Function.update_of_ne same]
    exact present.resolve_right fun equal => same (congrArg _ equal)

theorem Kept.room (kept : Kept configured r) {cid : UInt16} {c : Component}
    (there : r.pool.componentMap cid.toNat = some c) :
    c.quota.toNat + held r.pool.blocks cid r.live < 2 ^ 64 := by
  have total := kept.conserved cid
  rw [Pool.remaining, there] at total
  exact kept.small cid _ total.symm

theorem step_granted (kept : Kept configured r) {cid : UInt16} {desp : Desp} {cb : Nat}
    {c : Component} (there : r.pool.componentMap cid.toNat = some c)
    (fresh : cb ∉ r.live.map Prod.snd) (fits : desp.quota.toNat ≤ c.quota.toNat) :
    Fair r (.allocate cid desp cb) ∧
      ∃ t, r.step (.allocate cid desp cb) = .ok t ∧ Kept configured t := by
  obtain ⟨block, paid, granted⟩ := Pool.allocate_granted there fits cb
  have called : r.pool.call (.allocate cid desp cb) = _ := granted
  have less : (c.quota - desp.quota).toNat = c.quota.toNat - desp.quota.toNat :=
    UInt64.toNat_sub_of_le _ _ (UInt64.le_iff_toNat_le.mpr fits)
  constructor
  · refine ⟨c.quota.toNat, _, _, by rw [Pool.remaining, there]; rfl, called, by simp [fits], ?_, ?_⟩
    · intro _
      refine ⟨?_, ?_⟩
      · rw [Pool.remaining, remaining_update, if_pos rfl, less]
      · dsimp only
        rw [Function.update_self, paid]
    · intro refused
      exact absurd rfl refused
  · refine ⟨_, by rw [step, called, ok_bind]; rfl, ?_, ?_, ?_, kept.small⟩
    · intro other
      have before := kept.conserved other
      simp only [if_true, Pool.remaining, remaining_update, held_cons, held_update fresh,
        Function.update_self, paid]
      by_cases same : other = cid
      · subst same
        rw [Pool.remaining, there] at before
        rw [if_pos rfl, if_pos rfl, ← before]
        simp only [Option.map_some, less]
        congr 1
        omega
      · rw [if_neg same, if_neg (Ne.symm same), Nat.zero_add]
        exact before
    · rw [if_pos rfl]
      exact List.nodup_cons.mpr ⟨fresh, kept.once⟩
    · rw [if_pos rfl]
      intro e member
      apply present_update
      rcases List.mem_cons.mp member with rfl | old
      · exact .inr rfl
      · exact .inl (kept.known e old)

theorem step_refused (kept : Kept configured r) {cid : UInt16} {desp : Desp} {cb : Nat}
    {c : Component} (there : r.pool.componentMap cid.toNat = some c)
    (lacks : c.quota.toNat < desp.quota.toNat) :
    Fair r (.allocate cid desp cb) ∧
      ∃ t, r.step (.allocate cid desp cb) = .ok t ∧ Kept configured t := by
  have called : r.pool.call (.allocate cid desp cb) = .ok (.NICC_ERROR_EXSAUSTED, r.pool) :=
    Pool.allocate_refused there lacks cb
  constructor
  · refine ⟨c.quota.toNat, _, _, by rw [Pool.remaining, there]; rfl, called, ?_, ?_, ?_⟩
    · simp [Nat.not_le.mpr lacks]
    · intro granted
      cases granted
    · exact fun _ => ⟨rfl, rfl⟩
  · exact ⟨r, by rw [step, called, ok_bind]; rfl, kept⟩

theorem step_returned (kept : Kept configured r) {cid : UInt16} {cb : Nat}
    (member : (cid, cb) ∈ r.live) :
    Fair r (.deallocate cid cb) ∧
      ∃ t, r.step (.deallocate cid cb) = .ok t ∧ Kept configured t := by
  obtain ⟨c, there⟩ := Option.ne_none_iff_exists'.mp (kept.known _ member)
  have called : r.pool.call (.deallocate cid cb) = _ := Pool.deallocate_found there cb
  have part : held r.pool.blocks cid r.live =
      (r.pool.blocks cb).quota.toNat + held r.pool.blocks cid (r.live.erase (cid, cb)) := by
    rw [held_erase member, if_pos rfl]
  have room : c.quota.toNat + held r.pool.blocks cid r.live < 2 ^ 64 := kept.room there
  have more : (c.quota + (r.pool.blocks cb).quota).toNat =
      c.quota.toNat + (r.pool.blocks cb).quota.toNat := by
    rw [UInt64.toNat_add]
    exact Nat.mod_eq_of_lt (by omega)
  constructor
  · refine ⟨c.quota.toNat, _, by rw [Pool.remaining, there]; rfl, called, ?_⟩
    rw [Pool.remaining, remaining_update, if_pos rfl, more]
  · refine ⟨_, by rw [step, called, ok_bind]; rfl, ?_, ?_, ?_, kept.small⟩
    · intro other
      have before := kept.conserved other
      rw [held_erase member] at before
      simp only [Pool.remaining, remaining_update]
      by_cases same : other = cid
      · subst same
        rw [Pool.remaining, there, if_pos rfl] at before
        rw [if_pos rfl, ← before]
        simp only [Option.map_some, more]
        congr 1
        omega
      · rw [if_neg (Ne.symm same), Nat.zero_add] at before
        rw [if_neg same]
        exact before
    · exact kept.once.sublist ((List.erase_sublist).map _)
    · intro e still
      apply present_update
      exact .inl (kept.known e (List.mem_of_mem_erase still))

theorem step_kept (kept : Kept configured r) {c : Pool.Call} (legal : r.Legal c) :
    Fair r c ∧ ∃ t, r.step c = .ok t ∧ Kept configured t := by
  cases c with
  | allocate cid desp cb =>
      obtain ⟨present, fresh⟩ := legal
      obtain ⟨component, there⟩ := Option.ne_none_iff_exists'.mp present
      rcases Nat.lt_or_ge component.quota.toNat desp.quota.toNat with lacks | fits
      · exact step_refused kept there lacks
      · exact step_granted kept there fresh fits
  | deallocate cid cb => exact step_returned kept legal

end

def configuredQuotas (p : Pool) (cid : UInt16) : Option Nat := p.remaining cid.toNat

theorem start_kept (p : Pool) : Kept (configuredQuotas p) ⟨p, []⟩ where
  conserved cid := by
    cases there : p.remaining cid.toNat <;> simp [configuredQuotas, held, there]
  once := List.nodup_nil
  known := by simp
  small _ _ configured := DatapathPipeline.Pool.remaining_lt configured

theorem conserves_quotas (p : Pool) {calls : List Pool.Call}
    (legal : Admits step Legal ⟨p, []⟩ calls) :
    ∃ r, run step ⟨p, []⟩ calls = .ok r ∧ Conserved (configuredQuotas p) r ∧
      ∀ c, r.Legal c → Fair r c := by
  obtain ⟨r, ran, kept⟩ := run_total (Kept (configuredQuotas p))
    (fun _ _ kept legal => (step_kept kept legal).2) (start_kept p) legal
  exact ⟨r, ran, kept.conserved, fun _ legal => (step_kept kept legal).1⟩

def socPool : Pool := ⟨fun cid => if cid = kComponent_SoC then some ⟨8⟩ else none,
  fun _ => .fresh, [], []⟩

theorem conserves_quotas_refused : ∃ r, run step ⟨socPool, []⟩
    [.allocate 4 ⟨5, "soc", "mlx5_0", 0⟩ 0, .allocate 4 ⟨5, "soc", "mlx5_0", 0⟩ 1,
      .deallocate 4 0] = .ok r ∧
    Conserved (configuredQuotas socPool) r ∧ ∀ c, r.Legal c → Fair r c := by
  apply conserves_quotas
  have enabled : socPool.componentMap 4 ≠ none := nofun
  refine ⟨⟨enabled, by decide⟩, fun one first => ?_⟩
  obtain rfl := Except.ok.inj (first.symm.trans rfl)
  refine ⟨⟨nofun, by decide⟩, fun two second => ?_⟩
  obtain rfl := Except.ok.inj (second.symm.trans rfl)
  exact ⟨List.mem_singleton.mpr rfl, fun _ _ => trivial⟩

end Rental

end Nicc.Pipeline

import Mathlib.Algebra.GroupWithZero.Nat
import Nicc.Pipeline.SetUp
import Mathlib.Algebra.BigOperators.Group.List.Basic
import Mathlib.Data.List.Nodup
import Mathlib.Data.List.Count

/-!
# What a pipeline takes from the pool and gives back

The pipeline runs against the resource pool. Each request is charged to its component, and the two
loops that release blocks walk the same map.
-/

namespace Nicc.Pipeline
open Lib

def Answers.poolEnv (a : Answers) : Env Pool where
  allocate := Pool.allocate
  deallocate := Pool.deallocate
  init pool block := .ok (a.init block, pool)
  registerAppFunction pool block _ := .ok (a.registerAppFunction block, pool)
  unregisterAppFunction pool block := .ok (a.unregisterAppFunction block, pool)

theorem poolEnv_init (a : Answers) (pool : Pool) (block : Nat) :
    a.poolEnv.init pool block = .ok (a.init block, pool) := rfl

namespace Pool

theorem allocateBlock_granted (specific : Desp → ComponentBlock → ComponentBlock) {c : Component}
    {desp : Desp} (fits : desp.quota.toNat ≤ c.quota.toNat) (cb : ComponentBlock) :
    Component.allocateBlock specific c desp cb =
      (.NICC_SUCCESS, { c with quota := c.quota - desp.quota },
        specific desp { cb with quota := desp.quota, blockName := desp.blockName }) := by
  rw [Component.allocateBlock, if_neg]
  exact fun less => Nat.not_lt.mpr fits (UInt64.lt_iff_toNat_lt.mp less)

theorem allocateBlock_refused (specific : Desp → ComponentBlock → ComponentBlock) {c : Component}
    {desp : Desp} (lacks : c.quota.toNat < desp.quota.toNat) (cb : ComponentBlock) :
    Component.allocateBlock specific c desp cb = (.NICC_ERROR_EXSAUSTED, c, cb) :=
  if_pos (UInt64.lt_iff_toNat_lt.mpr lacks)

-- All three components grant and refuse by the quota alone.

theorem virtualAllocateBlock_granted (cid : Nat) {c : Component} {desp : Desp}
    (fits : desp.quota.toNat ≤ c.quota.toNat) (cb : ComponentBlock) :
    ∃ block : ComponentBlock, block.quota = desp.quota ∧ virtualAllocateBlock cid c desp cb =
      (.NICC_SUCCESS, { c with quota := c.quota - desp.quota }, block) := by
  rw [virtualAllocateBlock]
  split_ifs
  · exact ⟨_, rfl, allocateBlock_granted _ fits cb⟩
  · exact ⟨_, rfl, allocateBlock_granted _ fits cb⟩
  · exact ⟨_, rfl, allocateBlock_granted _ fits cb⟩

theorem virtualAllocateBlock_refused (cid : Nat) {c : Component} {desp : Desp}
    (lacks : c.quota.toNat < desp.quota.toNat) (cb : ComponentBlock) :
    virtualAllocateBlock cid c desp cb = (.NICC_ERROR_EXSAUSTED, c, cb) := by
  rw [virtualAllocateBlock]
  split_ifs
  · exact allocateBlock_refused _ lacks cb
  · exact allocateBlock_refused _ lacks cb
  · exact allocateBlock_refused _ lacks cb

variable {p : Pool} {cid : Nat} {c : Component} {desp : Desp}

theorem allocate_granted (found : p.componentMap cid = some c)
    (fits : desp.quota.toNat ≤ c.quota.toNat) (cb : Nat) :
    ∃ block : ComponentBlock, block.quota = desp.quota ∧ p.allocate cid desp cb =
      .ok (.NICC_SUCCESS, {
        componentMap := Function.update p.componentMap cid (some { c with quota := c.quota - desp.quota })
        blocks := Function.update p.blocks cb block
        granted := p.granted ++ [cb]
        released := p.released }) := by
  obtain ⟨block, paid, granted⟩ := virtualAllocateBlock_granted cid fits (p.blocks cb)
  exact ⟨block, paid, by rw [allocate, found]; simp only [granted, if_true]⟩

theorem allocate_refused (found : p.componentMap cid = some c)
    (lacks : c.quota.toNat < desp.quota.toNat) (cb : Nat) :
    p.allocate cid desp cb = .ok (.NICC_ERROR_EXSAUSTED, p) := by
  have refused := virtualAllocateBlock_refused cid lacks (p.blocks cb)
  rw [allocate, found]
  simp only [refused, ← found, Function.update_eq_self, reduceCtorEq, if_false]

theorem deallocate_found (found : p.componentMap cid = some c) (cb : Nat) :
    p.deallocate cid cb = .ok (.NICC_SUCCESS, { p with
      componentMap := Function.update p.componentMap cid (some ⟨c.quota + (p.blocks cb).quota⟩)
      released := p.released ++ [cb] }) := by
  rw [deallocate, found]
  rfl

end Pool

/-! ## Charges -/

section
variable (cxt : AppContext)

def quotaOf (appFunc : Nat) : Nat := (cxt.function appFunc).cbDesp.quota.toNat

def charge (cid : Nat) (functions : List Nat) : Nat :=
  ((functions.filter fun appFunc => (cxt.function appFunc).componentId = cid).map
    (quotaOf cxt)).sum

def Affordable (pool : Pool) (functions : List Nat) : Prop :=
  ∀ cid quota, pool.remaining cid = some quota → charge cxt cid functions ≤ quota

def Enabled (pool : Pool) (functions : List Nat) : Prop :=
  ∀ appFunc ∈ functions, DatapathPipeline.knownComponent (cxt.function appFunc).componentId ∧
    (pool.remaining (cxt.function appFunc).componentId).isSome

end

theorem charge_append (cxt : AppContext) (cid : Nat) (before after : List Nat) :
    charge cxt cid (before ++ after) = charge cxt cid before + charge cxt cid after := by
  simp [charge]

theorem charge_single (cxt : AppContext) (cid appFunc : Nat) :
    charge cxt cid [appFunc] =
      if (cxt.function appFunc).componentId = cid then quotaOf cxt appFunc else 0 := by
  by_cases same : (cxt.function appFunc).componentId = cid <;> simp [charge, same]

structure Charged (cxt : AppContext) (pool : Pool) (done : List Nat) (now : Pool) : Prop where
  affordable : Affordable cxt pool done
  remaining : ∀ cid, now.remaining cid = (pool.remaining cid).map (· - charge cxt cid done)
  blocks : ∀ block appFunc, done[block]? = some appFunc →
    (now.blocks block).quota.toNat = quotaOf cxt appFunc
  granted : now.granted = List.range done.length
  released : now.released = []

theorem Charged.start {cxt : AppContext} {pool : Pool} (granted : pool.granted = [])
    (released : pool.released = []) : Charged cxt pool [] pool where
  affordable := fun _ _ _ => Nat.zero_le _
  remaining := fun cid => by simp [charge]
  blocks := fun block appFunc found => by simp at found
  granted := granted
  released := released

theorem Pool.component_of_remaining {pool : Pool} {cid quota : Nat}
    (found : pool.remaining cid = some quota) :
    ∃ c, pool.componentMap cid = some c ∧ c.quota.toNat = quota := by
  simpa [Pool.remaining] using found

namespace Charged

variable {cxt : AppContext} {pool now : Pool} {done : List Nat} {appFunc quota : Nat}

theorem grant (charged : Charged cxt pool done now)
    (enabled : pool.remaining (cxt.function appFunc).componentId = some quota)
    (fits : charge cxt (cxt.function appFunc).componentId done + quotaOf cxt appFunc ≤ quota) :
    ∃ after, now.allocate (cxt.function appFunc).componentId (cxt.function appFunc).cbDesp
        done.length = .ok (.NICC_SUCCESS, after) ∧ Charged cxt pool (done ++ [appFunc]) after := by
  have here := charged.remaining (cxt.function appFunc).componentId
  rw [enabled, Option.map_some] at here
  obtain ⟨c, found, left⟩ := Pool.component_of_remaining here
  have enough : (cxt.function appFunc).cbDesp.quota.toNat ≤ c.quota.toNat := by
    rw [left]
    simp only [quotaOf] at fits
    omega
  obtain ⟨block, paid, granted⟩ := now.allocate_granted found enough done.length
  refine ⟨_, granted, ?_⟩
  refine ⟨?_, ?_, ?_, ?_, charged.released⟩
  · intro cid limit known
    rw [charge_append, charge_single]
    split_ifs with same
    · subst same
      obtain rfl : quota = limit := by simpa [enabled] using known
      exact fits
    · exact charged.affordable cid limit known
  · intro cid
    by_cases same : cid = (cxt.function appFunc).componentId
    · subst same
      have less : (c.quota - (cxt.function appFunc).cbDesp.quota).toNat =
          c.quota.toNat - quotaOf cxt appFunc := UInt64.toNat_sub_of_le _ _ (UInt64.le_iff_toNat_le.mpr enough)
      simp only [Pool.remaining, Function.update_self, Option.map_some, less, charge_append,
        charge_single, if_true]
      have known : (pool.componentMap (cxt.function appFunc).componentId).map (·.quota.toNat) = some quota := enabled
      rw [known, Option.map_some, left, Nat.sub_sub]
    · have other := charged.remaining cid
      have apart : ¬ (cxt.function appFunc).componentId = cid := fun eq => same eq.symm
      simp only [Pool.remaining, Function.update_of_ne same, charge_append, charge_single, apart,
        if_false, Nat.add_zero] at other ⊢
      exact other
  · intro i f found
    by_cases last : i = done.length
    · subst last
      obtain rfl : appFunc = f := by simpa using found
      simp only [Function.update_self, paid, quotaOf]
    · have old : done[i]? = some f := by
        rw [List.getElem?_append] at found
        split_ifs at found with inside
        · exact found
        · rw [List.getElem?_eq_none (by simp; omega)] at found
          cases found
      simp only [Function.update_of_ne last]
      exact charged.blocks i f old
  · simp [charged.granted, List.range_succ]

theorem refuse (charged : Charged cxt pool done now)
    (enabled : pool.remaining (cxt.function appFunc).componentId = some quota)
    (lacks : quota < charge cxt (cxt.function appFunc).componentId done + quotaOf cxt appFunc) :
    now.allocate (cxt.function appFunc).componentId (cxt.function appFunc).cbDesp done.length =
      .ok (.NICC_ERROR_EXSAUSTED, now) := by
  have here := charged.remaining (cxt.function appFunc).componentId
  have fits := charged.affordable _ _ enabled
  rw [enabled, Option.map_some] at here
  obtain ⟨c, found, left⟩ := Pool.component_of_remaining here
  have tooMuch : c.quota.toNat < (cxt.function appFunc).cbDesp.quota.toNat := by
    rw [left]
    simp only [quotaOf] at lacks
    omega
  exact now.allocate_refused found tooMuch done.length

end Charged

/-! ## The allocating loop -/

namespace DatapathPipeline

variable {a : Answers} {cxt : AppContext} {pool : Pool}

structure Holds (cxt : AppContext) (pool : Pool) (done : List Nat) (p : DatapathPipeline Pool) :
    Prop where
  charged : Charged cxt pool done p.world
  entries : p.componentApp2blockMap = blockMap done
  newBlocks : p.newBlocks = done.length

theorem blockMap_snoc (done : List Nat) (appFunc : Nat) :
    blockMap (done ++ [appFunc]) = mapInsert (blockMap done) appFunc done.length := by
  rw [blockMap, entriesFrom_append, Nat.zero_add]
  rfl

theorem not_affordable_iff {done : List Nat} {appFunc quota : Nat}
    (affordable : Affordable cxt pool done)
    (enabled : pool.remaining (cxt.function appFunc).componentId = some quota) :
    ¬ Affordable cxt pool (done ++ [appFunc]) ↔
      quota < charge cxt (cxt.function appFunc).componentId done + quotaOf cxt appFunc := by
  constructor
  · intro lacks
    by_contra fits
    refine lacks fun cid limit known => ?_
    rw [charge_append, charge_single]
    split_ifs with same
    · subst same
      obtain rfl : quota = limit := by simpa [enabled] using known
      exact Nat.not_lt.mp fits
    · exact affordable cid limit known
  · intro lacks fits
    have paid := fits _ _ enabled
    rw [charge_append, charge_single, if_pos rfl] at paid
    exact absurd paid (Nat.not_le.mpr lacks)

theorem allocateLoop_affordable (a : Answers) {done : List Nat} {appFunc : Nat}
    {p : DatapathPipeline Pool} (holds : Holds cxt pool done p) (enabled : Enabled cxt pool [appFunc])
    (fits : Affordable cxt pool (done ++ [appFunc])) (rest : List Nat) (retval : Retval) :
    ∃ q, allocateLoop a.poolEnv cxt (appFunc :: rest) retval p =
        allocateLoop a.poolEnv cxt rest (initAnswer a cxt done.length appFunc) q ∧
      Holds cxt pool (done ++ [appFunc]) q := by
  obtain ⟨known, here⟩ := enabled appFunc List.mem_cons_self
  obtain ⟨quota, found⟩ := Option.isSome_iff_exists.mp here
  have paid := fits _ _ found
  rw [charge_append, charge_single, if_pos rfl] at paid
  obtain ⟨after, granted, charged⟩ := holds.charged.grant found paid
  let q : DatapathPipeline Pool := { p with world := after, newBlocks := p.newBlocks + 1 }
  refine ⟨q.enter appFunc done.length, ?_, charged, ?_, ?_⟩
  · have answered : a.poolEnv.allocate p.world (cxt.function appFunc).componentId
        (cxt.function appFunc).cbDesp done.length = .ok (.NICC_SUCCESS, after) := granted
    rw [allocateLoop]
    simp only [assertThat_holds known, ok_bind, holds.newBlocks, answered, ne_eq, not_true_eq_false,
      if_false, initAnswer]
    split_ifs
    · rw [poolEnv_init, ok_bind]
      simp only [q, holds.newBlocks]
    · simp only [q, holds.newBlocks]
  · rw [blockMap_snoc, ← holds.entries]
    rfl
  · rw [List.length_append, List.length_singleton, ← holds.newBlocks]
    rfl

theorem allocateLoop_unaffordable (a : Answers) {done : List Nat} {appFunc : Nat}
    {p : DatapathPipeline Pool} (holds : Holds cxt pool done p) (enabled : Enabled cxt pool [appFunc])
    (lacks : ¬ Affordable cxt pool (done ++ [appFunc])) (rest : List Nat) (retval : Retval) :
    allocateLoop a.poolEnv cxt (appFunc :: rest) retval p =
      .ok (.NICC_ERROR_EXSAUSTED, { p with newBlocks := done.length + 1 }) := by
  obtain ⟨known, here⟩ := enabled appFunc List.mem_cons_self
  obtain ⟨quota, found⟩ := Option.isSome_iff_exists.mp here
  have refused : a.poolEnv.allocate p.world (cxt.function appFunc).componentId
      (cxt.function appFunc).cbDesp done.length = .ok (.NICC_ERROR_EXSAUSTED, p.world) :=
    holds.charged.refuse found ((not_affordable_iff holds.charged.affordable found).mp lacks)
  rw [allocateLoop]
  simp only [assertThat_holds known, ok_bind, holds.newBlocks, refused, ne_eq, reduceCtorEq,
    not_false_eq_true, if_true]
  rfl

theorem allocateLoop_pool {done rest : List Nat} {p : DatapathPipeline Pool}
    (holds : Holds cxt pool done p) (enabled : Enabled cxt pool rest) (retval : Retval) :
    (∃ q, allocateLoop a.poolEnv cxt rest retval p =
        .ok (endAnswer a cxt done.length rest retval, q) ∧ Holds cxt pool (done ++ rest) q) ∨
    ∃ before appFunc after q, rest = before ++ appFunc :: after ∧
      ¬ Affordable cxt pool (done ++ before ++ [appFunc]) ∧
      allocateLoop a.poolEnv cxt rest retval p =
        .ok (.NICC_ERROR_EXSAUSTED, { q with newBlocks := q.newBlocks + 1 }) ∧
      Holds cxt pool (done ++ before) q := by
  induction rest generalizing done p retval with
  | nil => exact .inl ⟨p, rfl, by rwa [List.append_nil]⟩
  | cons appFunc rest ih =>
      have first : Enabled cxt pool [appFunc] := fun f member =>
        enabled f (by rw [List.mem_singleton.mp member]; exact List.mem_cons_self)
      by_cases fits : Affordable cxt pool (done ++ [appFunc])
      · obtain ⟨q, stepped, entered⟩ := allocateLoop_affordable a holds first fits rest retval
        rw [stepped]
        rcases ih entered (fun f member => enabled f (List.mem_cons_of_mem _ member))
            (initAnswer a cxt done.length appFunc) with
          ⟨r, ran, all⟩ | ⟨before, stop, after, r, shape, lacks, ran, some⟩
        · refine .inl ⟨r, ?_, ?_⟩
          · rw [ran, List.length_append, List.length_singleton]
            rfl
          · simpa using all
        · exact .inr ⟨appFunc :: before, stop, after, r, by rw [shape, List.cons_append],
            by simpa using lacks, ran, by simpa using some⟩
      · refine .inr ⟨[], appFunc, rest, p, rfl, by simpa using fits, ?_, by simpa using holds⟩
        rw [allocateLoop_unaffordable a holds first fits, holds.newBlocks]

/-! ## The releasing loop -/

def refund (cxt : AppContext) (pool : Pool) (cid : Nat) (entries : List (Nat × Nat)) : Nat :=
  ((entries.filter fun e => (cxt.function e.1).componentId = cid).map
    fun e => (pool.blocks e.2).quota.toNat).sum

structure Returned (cxt : AppContext) (before : Pool) (entries : List (Nat × Nat)) (after : Pool) :
    Prop where
  remaining : ∀ cid,
    after.remaining cid = (before.remaining cid).map fun q => (q + refund cxt before cid entries) % 2 ^ 64
  blocks : after.blocks = before.blocks
  granted : after.granted = before.granted
  released : after.released = before.released ++ entries.map (·.2)

theorem Pool.remaining_lt {pool : Pool} {cid quota : Nat} (found : pool.remaining cid = some quota) :
    quota < 2 ^ 64 := by
  obtain ⟨c, -, rfl⟩ := Pool.component_of_remaining found
  exact c.quota.toNat_lt

theorem Returned.start (cxt : AppContext) (pool : Pool) : Returned cxt pool [] pool where
  remaining cid := by
    cases here : pool.remaining cid with
    | none => rfl
    | some quota =>
        change some quota = some ((quota + 0) % 2 ^ 64)
        rw [Nat.add_zero, Nat.mod_eq_of_lt (Pool.remaining_lt here)]
  blocks := rfl
  granted := rfl
  released := (List.append_nil _).symm

theorem refund_cons (pool : Pool) (cid : Nat) (e : Nat × Nat) (rest : List (Nat × Nat)) :
    refund cxt pool cid (e :: rest) =
      (if (cxt.function e.1).componentId = cid then (pool.blocks e.2).quota.toNat else 0) +
        refund cxt pool cid rest := by
  by_cases same : (cxt.function e.1).componentId = cid <;> simp [refund, same]

theorem deallocate_returned {e : Nat × Nat} {now : Pool}
    (enabled : (now.remaining (cxt.function e.1).componentId).isSome) :
    ∃ after, now.deallocate (cxt.function e.1).componentId e.2 = .ok (.NICC_SUCCESS, after) ∧
      Returned cxt now [e] after := by
  obtain ⟨quota, known⟩ := Option.isSome_iff_exists.mp enabled
  obtain ⟨c, found, left⟩ := Pool.component_of_remaining known
  refine ⟨_, Pool.deallocate_found found e.2, ?_, rfl, rfl, rfl⟩
  intro cid
  by_cases same : cid = (cxt.function e.1).componentId
  · subst same
    simp only [Pool.remaining, Function.update_self, found, Option.map_some, UInt64.toNat_add,
      refund_cons, if_true]
    rfl
  · have apart : ¬ (cxt.function e.1).componentId = cid := fun eq => same eq.symm
    have other := (Returned.start cxt now).remaining cid
    simp only [Pool.remaining, Function.update_of_ne same, refund_cons, apart, if_false,
      Nat.zero_add] at other ⊢
    exact other

theorem Returned.trans {one two three : Pool} {first second : List (Nat × Nat)}
    (before : Returned cxt one first two) (after : Returned cxt two second three) :
    Returned cxt one (first ++ second) three where
  remaining cid := by
    have same : refund cxt two cid second = refund cxt one cid second := by
      rw [refund, refund, before.blocks]
    have sum : refund cxt one cid (first ++ second) =
        refund cxt one cid first + refund cxt one cid second := by simp [refund]
    rw [after.remaining, before.remaining, Option.map_map, same, sum]
    congr 1
    funext quota
    simp [Nat.add_assoc]
  blocks := after.blocks.trans before.blocks
  granted := after.granted.trans before.granted
  released := by
    rw [after.released, before.released, List.map_append, List.append_assoc]

theorem Returned.enabled {before after : Pool} {entries : List (Nat × Nat)} {cid : Nat}
    (returned : Returned cxt before entries after) (enabled : (before.remaining cid).isSome) :
    (after.remaining cid).isSome := by
  rw [returned.remaining, Option.isSome_map]
  exact enabled

theorem deallocateLoop_pool {entries : List (Nat × Nat)} {now : Pool}
    (enabled : ∀ e ∈ entries, (now.remaining (cxt.function e.1).componentId).isSome)
    (retval : Retval) :
    ∃ after, deallocateLoop a.poolEnv cxt entries retval now =
        .ok (if entries = [] then retval else .NICC_SUCCESS, after) ∧
      Returned cxt now entries after := by
  induction entries generalizing now retval with
  | nil => exact ⟨now, rfl, Returned.start cxt now⟩
  | cons e rest ih =>
      obtain ⟨next, released, first⟩ := deallocate_returned (enabled e List.mem_cons_self)
      obtain ⟨after, ran, later⟩ := ih (fun d member =>
        first.enabled (enabled d (List.mem_cons_of_mem _ member))) .NICC_SUCCESS
      refine ⟨after, ?_, first.trans later⟩
      have answered : a.poolEnv.deallocate now (cxt.function e.1).componentId e.2 =
          .ok (.NICC_SUCCESS, next) := released
      rw [deallocateLoop, answered, ok_bind]
      simpa using ran

/-! ## Taking blocks and giving them back -/

def allocateAndRelease {W : Type} (env : Env W) (cxt : AppContext) (world : W) :
    Except String (DatapathPipeline W) := do
  let (retval, p) ← allocateComponentBlocks env cxt (start world)
  if retval = .NICC_SUCCESS then
    let (_, p) ← deallocateComponentBlocks env cxt p
    return p
  return p

structure GivenBack (pool after : Pool) : Prop where
  once : ∀ block ∈ after.granted, after.released.count block = 1
  remaining : ∀ cid, after.remaining cid = pool.remaining cid

/-- No request fails and no function is repeated, or the very first request fails. -/
def FailsFirstOrNever (a : Answers) (cxt : AppContext) (pool : Pool) : Prop :=
  (Affordable cxt pool cxt.functions ∧ cxt.functions.Nodup ∧
    endAnswer a cxt 0 cxt.functions .NICC_SUCCESS = .NICC_SUCCESS) ∨
  ∃ first rest, cxt.functions = first :: rest ∧ ¬ Affordable cxt pool [first]

theorem charged_enabled {done : List Nat} {now : Pool} (charged : Charged cxt pool done now)
    (enabled : Enabled cxt pool done) :
    ∀ e ∈ blockMap done, (now.remaining (cxt.function e.1).componentId).isSome := by
  intro e member
  rw [charged.remaining, Option.isSome_map]
  exact (enabled e.1 (blockMap_key member)).2

theorem rolled_back_twice {done : List Nat} {retval : Retval} {q : DatapathPipeline Pool}
    (loop : allocateLoop a.poolEnv cxt cxt.functions .NICC_SUCCESS (start pool) = .ok (retval, q))
    (failed : retval ≠ .NICC_SUCCESS) (charged : Charged cxt pool done q.world)
    (entries : q.componentApp2blockMap = blockMap done) (enabled : Enabled cxt pool done)
    (some : done ≠ []) :
    ∃ p, allocateAndRelease a.poolEnv cxt pool = .ok p ∧
      p.world.granted = List.range done.length ∧
      p.world.released = (blockMap done).map (·.2) ++ (blockMap done).map (·.2) := by
  obtain ⟨once, first, firstReturned⟩ :=
    deallocateLoop_pool (a := a) (charged_enabled charged enabled) retval
  rw [if_neg (blockMap_ne_nil some)] at first
  obtain ⟨twice, second, secondReturned⟩ := deallocateLoop_pool (a := a)
    (fun e member => firstReturned.enabled (charged_enabled charged enabled e member)) .NICC_SUCCESS
  refine ⟨{ q with world := twice }, ?_, ?_, ?_⟩
  · rw [allocateAndRelease, allocateComponentBlocks, loop, ok_bind]
    simp only [failed, ne_eq, not_false_eq_true, if_true, entries, first, ok_bind, pure, Except.pure,
      deallocateComponentBlocks, second]
  · exact secondReturned.granted.trans (firstReturned.granted.trans charged.granted)
  · rw [secondReturned.released, firstReturned.released, charged.released, List.nil_append]

theorem released_once {done : List Nat} {q : DatapathPipeline Pool}
    (loop : allocateLoop a.poolEnv cxt cxt.functions .NICC_SUCCESS (start pool) =
      .ok (.NICC_SUCCESS, q))
    (holds : Holds cxt pool done q) (enabled : Enabled cxt pool done) :
    ∃ p, allocateAndRelease a.poolEnv cxt pool = .ok p ∧
      Returned cxt q.world (blockMap done) p.world := by
  obtain ⟨after, ran, returned⟩ :=
    deallocateLoop_pool (a := a) (charged_enabled holds.charged enabled) .NICC_SUCCESS
  refine ⟨{ q with world := after }, ?_, returned⟩
  rw [allocateAndRelease, allocateComponentBlocks, loop, ok_bind]
  simp only [ne_eq, not_true_eq_false, if_false, if_true, pure, Except.pure, ok_bind,
    deallocateComponentBlocks, holds.entries, ran]

theorem not_givenBack_of_twice {now : Pool} {blocks : List Nat} {n : Nat}
    (granted : now.granted = List.range n) (some : n ≠ 0) (released : now.released = blocks ++ blocks) :
    ¬ GivenBack pool now := by
  intro back
  have first : 0 ∈ now.granted := by
    rw [granted]
    exact List.mem_range.mpr (Nat.pos_of_ne_zero some)
  have once := back.once 0 first
  rw [released, List.count_append] at once
  omega

/-! ### Functions that are not repeated -/

theorem refund_blockMap {done : List Nat} {now : Pool} (charged : Charged cxt pool done now)
    (distinct : done.Nodup) (cid : Nat) : refund cxt now cid (blockMap done) = charge cxt cid done := by
  have perm := blockMap_perm distinct
  have paid : ∀ e ∈ done.zipIdx, (now.blocks e.2).quota.toNat = quotaOf cxt e.1 := fun e member =>
    charged.blocks e.2 e.1 (List.mem_zipIdx_iff_getElem?.mp member)
  have entries : refund cxt now cid (blockMap done) = refund cxt now cid done.zipIdx :=
    ((perm.filter _).map _).sum_eq
  have values : refund cxt now cid done.zipIdx =
      ((done.zipIdx.filter fun e => (cxt.function e.1).componentId = cid).map
        fun e => quotaOf cxt e.1).sum := by
    refine congrArg List.sum (List.map_congr_left fun e member => ?_)
    exact paid e (List.mem_filter.mp member).1
  have keys : charge cxt cid done = charge cxt cid (done.zipIdx.map (·.1)) := by
    rw [List.zipIdx_map_fst]
  rw [entries, values, keys, charge, List.filter_map, List.map_map]
  rfl

theorem givenBack_of_nodup {done : List Nat} {now after : Pool} (charged : Charged cxt pool done now)
    (distinct : done.Nodup) (returned : Returned cxt now (blockMap done) after) :
    GivenBack pool after := by
  constructor
  · intro block member
    have perm := blockMap_perm distinct
    have released : after.released.Perm (List.range done.length) := by
      rw [returned.released, charged.released, List.nil_append, List.range_eq_range', ← List.zipIdx_map_snd]
      exact perm.map _
    rw [returned.granted, charged.granted] at member
    rw [released.count_eq]
    exact List.count_eq_one_of_mem List.nodup_range member
  · intro cid
    rw [returned.remaining, charged.remaining, Option.map_map, refund_blockMap charged distinct]
    cases here : pool.remaining cid with
    | none => rfl
    | some quota =>
        have fits := charged.affordable cid quota here
        have small := Pool.remaining_lt here
        simp only [Option.map_some, Function.comp_apply, Nat.sub_add_cancel fits,
          Nat.mod_eq_of_lt small]

theorem nodup_of_givenBack {done : List Nat} {now after : Pool} (charged : Charged cxt pool done now)
    (returned : Returned cxt now (blockMap done) after) (back : GivenBack pool after) :
    done.Nodup := by
  have released : after.released = (blockMap done).map (·.2) := by
    rw [returned.released, charged.released, List.nil_append]
  have granted : after.granted = List.range done.length := returned.granted.trans charged.granted
  have reached : List.range done.length ⊆ (blockMap done).map (·.2) := by
    intro block member
    have once := back.once block (granted ▸ member)
    rw [released] at once
    exact List.count_pos_iff.mp (by omega)
  have many : done.length ≤ (blockMap done).length := by
    have sub := (List.subperm_of_subset List.nodup_range reached).length_le
    simpa using sub
  have sorted : Sorted (blockMap done) := entriesFrom_sorted List.Pairwise.nil 0 done
  have keys : ((blockMap done).map (·.1)).Nodup := by
    rw [List.nodup_iff_pairwise_ne, List.pairwise_map]
    exact sorted.imp fun less => less.ne
  have within : (blockMap done).map (·.1) ⊆ done := by
    intro key member
    obtain ⟨e, entered, rfl⟩ := List.mem_map.mp member
    exact blockMap_key entered
  have perm := (List.subperm_of_subset keys within).perm_of_length_le (by simpa using many)
  exact perm.nodup_iff.mp keys

/-! ## When everything is given back -/

theorem refused_at_once {first : Nat} {rest : List Nat} (functions : cxt.functions = first :: rest)
    (enabled : Enabled cxt pool cxt.functions) (lacks : ¬ Affordable cxt pool [first])
    (holds : Holds cxt pool [] (start pool)) :
    ∃ p, allocateAndRelease a.poolEnv cxt pool = .ok p ∧ p.world = pool := by
  have here : Enabled cxt pool [first] := fun f member =>
    enabled f (by rw [functions, List.mem_singleton.mp member]; exact List.mem_cons_self)
  have loop := allocateLoop_unaffordable a holds here lacks rest .NICC_SUCCESS
  refine ⟨{ start pool with newBlocks := 1 }, ?_, rfl⟩
  rw [allocateAndRelease, allocateComponentBlocks, functions, loop]
  rfl

theorem affordable_front {before after : List Nat} (all : Affordable cxt pool (before ++ after)) :
    Affordable cxt pool before := by
  intro cid quota known
  have paid := all cid quota known
  rw [charge_append] at paid
  omega

theorem first_affordable {functions : List Nat} (all : Affordable cxt pool functions) :
    ¬ ∃ first rest, functions = first :: rest ∧ ¬ Affordable cxt pool [first] := by
  rintro ⟨first, rest, rfl, lacks⟩
  rw [← List.singleton_append] at all
  exact lacks (affordable_front all)

theorem ran_givenBack {p : DatapathPipeline Pool}
    (ran : allocateAndRelease a.poolEnv cxt pool = .ok p) :
    (∃ q, allocateAndRelease a.poolEnv cxt pool = .ok q ∧ GivenBack pool q.world) ↔
      GivenBack pool p.world := by
  constructor
  · rintro ⟨q, again, back⟩
    obtain rfl : p = q := Except.ok.inj (ran.symm.trans again)
    exact back
  · intro back
    exact ⟨p, ran, back⟩

/-- What the pipeline takes is given back once, unless a request behind the first one fails or a
function is repeated. -/
theorem given_back_iff (a : Answers) (cxt : AppContext) (pool : Pool)
    (enabled : Enabled cxt pool cxt.functions) (granted : pool.granted = [])
    (released : pool.released = []) :
    (∃ p, allocateAndRelease a.poolEnv cxt pool = .ok p ∧ GivenBack pool p.world) ↔
      FailsFirstOrNever a cxt pool := by
  have begun : Holds cxt pool [] (start pool) := ⟨Charged.start granted released, rfl, rfl⟩
  rcases allocateLoop_pool (a := a) begun enabled .NICC_SUCCESS with
    ⟨q, loop, holds⟩ | ⟨before, stop, after, q, shape, lacks, loop, holds⟩
  · rw [List.nil_append] at holds
    have notFirst := first_affordable holds.charged.affordable
    by_cases success : endAnswer a cxt 0 cxt.functions .NICC_SUCCESS = .NICC_SUCCESS
    · rw [List.length_nil, success] at loop
      obtain ⟨p, ran, returned⟩ := released_once loop holds enabled
      rw [ran_givenBack ran]
      constructor
      · intro back
        exact .inl ⟨holds.charged.affordable, nodup_of_givenBack holds.charged returned back, success⟩
      · rintro (⟨-, distinct, -⟩ | first)
        · exact givenBack_of_nodup holds.charged distinct returned
        · exact absurd first notFirst
    · have some : cxt.functions ≠ [] := fun none => success (by rw [none]; rfl)
      obtain ⟨p, ran, grants, releases⟩ :=
        rolled_back_twice loop success holds.charged holds.entries enabled some
      rw [ran_givenBack ran]
      constructor
      · intro back
        exact absurd back (not_givenBack_of_twice grants (by simpa using some) releases)
      · rintro (⟨-, -, success'⟩ | first)
        · exact absurd success' success
        · exact absurd first notFirst
  · rw [List.nil_append] at lacks holds
    by_cases none : before = []
    · subst none
      obtain ⟨p, ran, same⟩ := refused_at_once (a := a) shape enabled lacks begun
      have back : GivenBack pool pool := by
        refine ⟨fun block member => ?_, fun cid => rfl⟩
        rw [granted] at member
        cases member
      rw [ran_givenBack ran, same]
      exact ⟨fun _ => .inr ⟨stop, after, shape, lacks⟩, fun _ => back⟩
    · have enabledBefore : Enabled cxt pool before := fun f member =>
        enabled f (by rw [shape]; exact List.mem_append_left _ member)
      obtain ⟨p, ran, grants, releases⟩ := rolled_back_twice loop (by decide) holds.charged
        holds.entries enabledBefore none
      rw [ran_givenBack ran]
      constructor
      · intro back
        exact absurd back (not_givenBack_of_twice grants (by simpa using none) releases)
      · rintro (⟨all, -, -⟩ | ⟨first, rest, functions, lacksFirst⟩)
        · rw [shape, ← List.singleton_append, ← List.append_assoc] at all
          exact absurd (affordable_front all) lacks
        · obtain ⟨f, before, rfl⟩ := List.exists_cons_of_ne_nil none
          rw [shape, List.cons_append] at functions
          obtain rfl : f = first := (List.cons.inj functions).1
          exact absurd ⟨f, before, rfl, lacksFirst⟩ (first_affordable holds.charged.affordable)

theorem given_back_two_functions :
    let cxt : AppContext := ⟨[1, 2], fun _ => ⟨kComponent_SoC, ⟨5, "soc", "mlx5_0", 0⟩⟩⟩
    let pool : Pool := ⟨fun _ => some ⟨10⟩, fun _ => .fresh, [], []⟩
    let a : Answers := ⟨fun _ => .NICC_SUCCESS, fun _ => .NICC_SUCCESS, fun _ => .NICC_SUCCESS,
      fun _ => .NICC_SUCCESS, fun _ => .NICC_SUCCESS⟩
    ∃ p, allocateAndRelease a.poolEnv cxt pool = .ok p ∧ GivenBack pool p.world := by
  intro cxt pool a
  have enabled : Enabled cxt pool cxt.functions := fun _ _ => ⟨.inr (.inr rfl), rfl⟩
  have affordable : Affordable cxt pool cxt.functions := by
    intro cid quota known
    obtain rfl : 10 = quota := Option.some.inj known
    by_cases same : kComponent_SoC = cid <;> simp [charge, quotaOf, cxt, same]
  exact (given_back_iff a cxt pool enabled rfl rfl).mpr (.inl ⟨affordable, by decide, rfl⟩)

theorem second_request_refused :
    let cxt : AppContext := ⟨[1, 2], fun _ => ⟨kComponent_SoC, ⟨5, "soc", "mlx5_0", 0⟩⟩⟩
    let pool : Pool := ⟨fun _ => some ⟨5⟩, fun _ => .fresh, [], []⟩
    let a : Answers := ⟨fun _ => .NICC_SUCCESS, fun _ => .NICC_SUCCESS, fun _ => .NICC_SUCCESS,
      fun _ => .NICC_SUCCESS, fun _ => .NICC_SUCCESS⟩
    ∃ p, allocateAndRelease a.poolEnv cxt pool = .ok p ∧ p.world.released = [0, 0] ∧
      p.world.remaining kComponent_SoC = some 10 ∧ ¬ GivenBack pool p.world := by
  refine ⟨_, rfl, rfl, rfl, fun back => ?_⟩
  have same := back.remaining kComponent_SoC
  cases same

end DatapathPipeline

end Nicc.Pipeline

import Mathlib.Order.Lattice.Nat
import Mathlib.Data.Finset.Lattice.Fold
import Nicc.Pipeline.FunctionStates
import Nicc.Pipeline.SetUp

/-!
# What a pipeline that fails leaves behind

The pipeline runs against the pool and the blocks. A registration that is refused makes it
unregister the functions before, and what follows gives the blocks back to the pool only. Where the
code goes on with a block that the pool has deleted, the model stops.
-/

namespace Nicc.Pipeline
open Lib

structure World where
  pool : Pool
  componentIds : Nat → Nat
  states : FuncStates

def Devices.env (d : Devices) (handlers : Nat → List (Option AppHandler)) : Env World where
  allocate w cid desp block := do
    let (retval, pool) ← w.pool.allocate cid desp block
    return (retval, ⟨pool, Function.update w.componentIds block cid, w.states⟩)
  deallocate w cid block := do
    let (retval, pool) ← w.pool.deallocate cid block
    return (retval, { w with pool := pool })
  init w _ := do
    assertThat d.ibvCtx "dev_state.ibv_ctx"
    assertThat d.fdbDomain "dev_state.fdb_domain"
    return (.NICC_SUCCESS, w)
  registerAppFunction w block appFunc := do
    -- The pool has deleted the blocks that were given back to it.
    assertThat (block ∉ w.pool.released) "component_block"
    let (retval, states) ←
      registerOn d block (w.componentIds block) (handlers appFunc) w.states
    return (retval, { w with states := states })
  unregisterAppFunction w block := do
    assertThat (block ∉ w.pool.released) "component_block"
    let (retval, states) ← unregisterOn d block (w.componentIds block) w.states
    return (retval, { w with states := states })

structure Settled (base : Finset (Member × Nat)) (entries : List (Nat × Nat))
    (now : Nat × Nat → Member → Prop) (s s' : FuncStates) : Prop where
  sane : Sane base s'
  own : ∀ e ∈ entries, ∀ member, (e.2, member) ∈ s'.made ↔ now e member
  others : ∀ slot, slot.1 ∉ entries.map Prod.snd →
    s'.cell slot = s.cell slot ∧ (slot ∈ s'.made ↔ slot ∈ s.made)

section
variable {base : Finset (Member × Nat)} {s t u : FuncStates} {now : Nat × Nat → Member → Prop}

theorem Settled.nil (sane : Sane base s) : Settled base [] now s s :=
  ⟨sane, fun _ member => absurd member List.not_mem_nil, fun _ _ => ⟨rfl, Iff.rfl⟩⟩

theorem Settled.cons {e : Nat × Nat} {rest : List (Nat × Nat)}
    (distinct : ((e :: rest).map Prod.snd).Nodup) (first : Changed base e.2 (now e) s t)
    (later : Settled base rest now t u) : Settled base (e :: rest) now s u := by
  obtain ⟨fresh, -⟩ := List.nodup_cons.mp distinct
  refine ⟨later.sane, fun f there member => ?_, fun slot outside => ?_⟩
  · rcases List.mem_cons.mp there with rfl | behind
    · exact (later.others (f.2, member) fresh).2.trans (first.own member)
    · exact later.own f behind member
  · rw [List.map_cons, List.mem_cons, not_or] at outside
    obtain ⟨cell, made⟩ := first.others slot outside.1
    obtain ⟨cell', made'⟩ := later.others slot outside.2
    exact ⟨cell'.trans cell, made'.trans made⟩

variable {d : Devices} {handlers : Nat → List (Option AppHandler)} {cxt : AppContext}

structure Blocks (cxt : AppContext) (entries : List (Nat × Nat)) (w : World) : Prop where
  kinds : ∀ e ∈ entries, w.componentIds e.2 = (cxt.function e.1).componentId
  distinct : (entries.map Prod.snd).Nodup

theorem Blocks.tail {e : Nat × Nat} {rest : List (Nat × Nat)} {w : World}
    (blocks : Blocks cxt (e :: rest) w) {states : FuncStates} :
    Blocks cxt rest { w with states := states } where
  kinds f member := blocks.kinds f (List.mem_cons_of_mem _ member)
  distinct := (List.nodup_cons.mp blocks.distinct).2

theorem Blocks.apart {e : Nat × Nat} {rest : List (Nat × Nat)} {w : World}
    (blocks : Blocks cxt (e :: rest) w) : ∀ f ∈ rest, f.2 ≠ e.2 := by
  intro f member same
  exact (List.nodup_cons.mp blocks.distinct).1 (same ▸ List.mem_map_of_mem member)

def takes (d : Devices) (cxt : AppContext) (handlers : Nat → List (Option AppHandler))
    (e : Nat × Nat) : Member → Prop :=
  Taken (d.answers e.2) (cxt.function e.1).componentId (handlers e.1)

def sticks (d : Devices) (cxt : AppContext) (handlers : Nat → List (Option AppHandler))
    (e : Nat × Nat) : Member → Prop :=
  Stuck (d.answers e.2) (cxt.function e.1).componentId (handlers e.1)

def keeps (d : Devices) (cxt : AppContext) (handlers : Nat → List (Option AppHandler))
    (e : Nat × Nat) : Member → Prop :=
  Kept (d.answers e.2) (cxt.function e.1).componentId (handlers e.1)

def registers (d : Devices) (cxt : AppContext) (handlers : Nat → List (Option AppHandler))
    (e : Nat × Nat) : Prop :=
  Registers (d.answers e.2) (cxt.function e.1).componentId (handlers e.1)

structure Untouched (d : Devices) (cxt : AppContext) (e : Nat × Nat) (s : FuncStates) : Prop where
  unmade : ∀ member, (e.2, member) ∉ s.made
  quiet : (cxt.function e.1).componentId = kComponent_DPA →
    Quiet (d.answers e.2) (s.cell (e.2, .flexioProcess))

theorem Untouched.keep {e : Nat × Nat} (untouched : Untouched d cxt e s)
    (same : ∀ slot : Nat × Member, slot.1 = e.2 →
      t.cell slot = s.cell slot ∧ (slot ∈ t.made ↔ slot ∈ s.made)) : Untouched d cxt e t where
  unmade member there := untouched.unmade member ((same _ rfl).2.mp there)
  quiet dpa := (same (e.2, .flexioProcess) rfl).1 ▸ untouched.quiet dpa

open DatapathPipeline

theorem registerLoop_settled {entries pairs : List (Nat × Nat)} {w w' : World} {retval : Retval}
    {ended : List (Nat × Nat)} (sorted : Sorted (pairs ++ entries)) (blocks : Blocks cxt entries w)
    (sane : Sane base w.states) (untouched : ∀ e ∈ entries, Untouched d cxt e w.states)
    (ran : registerLoop (d.env handlers) entries .NICC_SUCCESS pairs w =
      .ok (retval, ended, w')) :
    w'.componentIds = w.componentIds ∧
      ((retval = .NICC_SUCCESS ∧ (∀ e ∈ entries, registers d cxt handlers e) ∧
          Settled base entries (takes d cxt handlers) w.states w'.states) ∨
        ∃ before e after middle, entries = before ++ e :: after ∧ retval ≠ .NICC_SUCCESS ∧
          ended = pairs ++ before ∧ (∀ f ∈ before, registers d cxt handlers f) ∧
          ¬ registers d cxt handlers e ∧
          Settled base before (takes d cxt handlers) w.states middle ∧
          Changed base e.2 (sticks d cxt handlers e) middle w'.states) := by
  induction entries generalizing pairs w with
  | nil =>
      cases ran
      exact ⟨rfl, .inl ⟨rfl, fun e member => absurd member List.not_mem_nil, .nil sane⟩⟩
  | cons e rest ih =>
      rw [registerLoop] at ran
      obtain ⟨⟨answer, next⟩, answered, ran⟩ := bind_eq_ok.mp ran
      obtain ⟨_, -, answered⟩ := bind_eq_ok.mp answered
      obtain ⟨⟨_, states⟩, registered, answered⟩ := bind_eq_ok.mp answered
      cases answered
      have untouchedHere := untouched e List.mem_cons_self
      rw [blocks.kinds e List.mem_cons_self] at registered
      have spec := registerOn_spec sane untouchedHere.unmade untouchedHere.quiet registered
      dsimp only at ran
      split_ifs at ran with failed
      · cases ran
        refine ⟨rfl, .inr ⟨[], e, rest, w.states, rfl, failed, (List.append_nil _).symm,
          fun f member => absurd member List.not_mem_nil, fun is => failed (spec.answer.mpr is),
          .nil sane, spec.stuck failed⟩⟩
      · have success := not_not.mp failed
        have changed := spec.taken success
        have behind : ∀ f ∈ pairs, f.1 < e.1 := by
          intro f member
          exact (List.pairwise_append.mp sorted).2.2 f member e List.mem_cons_self
        have split : pairs ++ e :: rest = pairs ++ [e] ++ rest := by simp
        rw [mapInsert_last e.2 behind, success] at ran
        obtain ⟨kinds, outcome⟩ := ih (split ▸ sorted) blocks.tail changed.sane
          (fun f member => (untouched f (List.mem_cons_of_mem _ member)).keep fun slot own =>
            changed.others slot fun same => blocks.apart f member (own.symm.trans same)) ran
        refine ⟨kinds, ?_⟩
        have here := spec.answer.mp success
        rcases outcome with ⟨all, each, settled⟩ |
          ⟨before, f, after, middle, rfl, refused, rfl, each, not, settled, stuck⟩
        · exact .inl ⟨all, List.forall_mem_cons.mpr ⟨here, each⟩,
            settled.cons blocks.distinct changed⟩
        · refine .inr ⟨e :: before, f, after, middle, rfl, refused, by simp,
            List.forall_mem_cons.mpr ⟨here, each⟩, not, settled.cons ?_ changed, stuck⟩
          have distinct := blocks.distinct
          rw [← List.cons_append, List.map_append] at distinct
          exact (List.nodup_append.mp distinct).1

theorem unregisterLoop_settled {entries : List (Nat × Nat)} {w w' : World} {retval answer : Retval}
    (blocks : Blocks cxt entries w) (sane : Sane base w.states)
    (own : ∀ e ∈ entries, ∀ member, (e.2, member) ∈ w.states.made ↔ takes d cxt handlers e member)
    (ran : unregisterLoop (d.env handlers) entries answer w = .ok (retval, w')) :
    Settled base entries (keeps d cxt handlers) w.states w'.states := by
  induction entries generalizing answer w with
  | nil =>
      cases ran
      exact .nil sane
  | cons e rest ih =>
      rw [unregisterLoop] at ran
      obtain ⟨⟨answer, next⟩, answered, ran⟩ := bind_eq_ok.mp ran
      obtain ⟨_, -, answered⟩ := bind_eq_ok.mp answered
      obtain ⟨⟨_, states⟩, unregistered, answered⟩ := bind_eq_ok.mp answered
      cases answered
      rw [blocks.kinds e List.mem_cons_self] at unregistered
      have changed := unregisterOn_spec sane (own e List.mem_cons_self) unregistered
      refine Settled.cons blocks.distinct changed (ih blocks.tail changed.sane ?_ ran)
      intro f there member
      exact (changed.others (f.2, member) (blocks.apart f there)).2.trans
        (own f (List.mem_cons_of_mem _ there) member)

structure Built (cxt : AppContext) (states : FuncStates) (p : DatapathPipeline World) : Prop where
  sorted : Sorted p.componentApp2blockMap
  blocks : Blocks cxt p.componentApp2blockMap p.world
  older : ∀ e ∈ p.componentApp2blockMap, e.2 < p.newBlocks
  states : p.world.states = states

def ask (cxt : AppContext) (p : DatapathPipeline World) (f : Nat) (pool : Pool) :
    DatapathPipeline World :=
  { p with
    world := ⟨pool, Function.update p.world.componentIds p.newBlocks (cxt.function f).componentId,
      p.world.states⟩
    newBlocks := p.newBlocks + 1 }

def grant (cxt : AppContext) (p : DatapathPipeline World) (f : Nat) (pool : Pool) :
    DatapathPipeline World :=
  (ask cxt p f pool).enter f p.newBlocks

theorem Built.ask {p : DatapathPipeline World} (built : Built cxt s p) (f : Nat) (pool : Pool) :
    Built cxt s (ask cxt p f pool) where
  sorted := built.sorted
  blocks := ⟨fun e member => (Function.update_of_ne (built.older e member).ne _ _).trans
    (built.blocks.kinds e member), built.blocks.distinct⟩
  older e member := (built.older e member).trans (Nat.lt_succ_self _)
  states := built.states

theorem Built.grant {p : DatapathPipeline World} (built : Built cxt s p) (f : Nat) (pool : Pool) :
    Built cxt s (grant cxt p f pool) := by
  have fresh : p.newBlocks ∉ p.componentApp2blockMap.map Prod.snd := by
    intro there
    obtain ⟨e, member, same⟩ := List.mem_map.mp there
    exact absurd (built.older e member) (same ▸ lt_irrefl _)
  have asked := built.ask f pool
  refine ⟨mapInsert_sorted built.sorted f p.newBlocks, ⟨fun e member => ?_,
    mapInsert_values_nodup built.blocks.distinct fresh f⟩, fun e member => ?_, built.states⟩
  · rcases mem_mapInsert member with rfl | old
    · exact Function.update_self ..
    · exact asked.blocks.kinds e old
  · rcases mem_mapInsert member with rfl | old
    · exact Nat.lt_succ_self _
    · exact asked.older e old

theorem allocateLoop_cons {f : Nat} {rest : List Nat} {answer retval : Retval}
    {p q : DatapathPipeline World}
    (ran : allocateLoop (d.env handlers) cxt (f :: rest) answer p = .ok (retval, q)) :
    knownComponent (cxt.function f).componentId ∧ ∃ granted pool,
      p.world.pool.allocate (cxt.function f).componentId (cxt.function f).cbDesp p.newBlocks =
        .ok (granted, pool) ∧
      (granted = .NICC_SUCCESS ∧
          allocateLoop (d.env handlers) cxt rest .NICC_SUCCESS (grant cxt p f pool) =
            .ok (retval, q) ∨
        granted ≠ .NICC_SUCCESS ∧ retval = granted ∧ q = ask cxt p f pool) := by
  rw [allocateLoop] at ran
  obtain ⟨_, known, ran⟩ := bind_eq_ok.mp ran
  obtain ⟨⟨granted, world⟩, allocated, ran⟩ := bind_eq_ok.mp ran
  obtain ⟨⟨_, pool⟩, allocation, allocated⟩ := bind_eq_ok.mp allocated
  cases allocated
  refine ⟨assertThat_ok.mp known, granted, pool, allocation, ?_⟩
  dsimp only at ran
  split_ifs at ran with refused flowEngine
  · cases ran
    exact .inr ⟨refused, rfl, rfl⟩
  · obtain ⟨⟨_, world⟩, initialized, ran⟩ := bind_eq_ok.mp ran
    obtain ⟨_, -, initialized⟩ := bind_eq_ok.mp initialized
    obtain ⟨_, -, initialized⟩ := bind_eq_ok.mp initialized
    cases initialized
    exact .inl ⟨not_not.mp refused, ran⟩
  · rw [not_not.mp refused] at ran
    exact .inl ⟨not_not.mp refused, ran⟩

theorem allocateLoop_built {functions : List Nat} {answer retval : Retval}
    {p q : DatapathPipeline World} (built : Built cxt s p)
    (ran : allocateLoop (d.env handlers) cxt functions answer p = .ok (retval, q)) :
    Built cxt s q := by
  induction functions generalizing answer p with
  | nil =>
      cases ran
      exact built
  | cons f rest ih =>
      obtain ⟨-, _, pool, -, ⟨-, ran⟩ | ⟨-, -, rfl⟩⟩ := allocateLoop_cons ran
      · exact ih (built.grant f pool) ran
      · exact built.ask f pool

theorem allocateLoop_length {functions : List Nat} {answer retval : Retval}
    {p q : DatapathPipeline World}
    (ran : allocateLoop (d.env handlers) cxt functions answer p = .ok (retval, q)) :
    retval ≠ .NICC_SUCCESS ∨
      q.componentBlocks.length = p.componentBlocks.length + functions.length := by
  induction functions generalizing answer p with
  | nil =>
      cases ran
      exact .inr rfl
  | cons f rest ih =>
      obtain ⟨-, _, pool, -, ⟨-, ran⟩ | ⟨refused, rfl, -⟩⟩ := allocateLoop_cons ran
      · refine (ih ran).imp_right fun counted => counted.trans ?_
        simp only [grant, ask, enter, List.length_append, List.length_cons, List.length_nil]
        omega
      · exact .inl refused

theorem Pool.deallocate_released {p next : Pool} {cid cb : Nat} {retval : Retval}
    (ran : p.deallocate cid cb = .ok (retval, next)) : next.released = p.released ++ [cb] := by
  rw [deallocate] at ran
  cases found : p.componentMap cid with
  | none =>
      rw [found] at ran
      cases ran
  | some c =>
      rw [found] at ran
      cases ran
      rfl

theorem deallocateLoop_states {entries : List (Nat × Nat)} {answer retval : Retval} {w w' : World}
    (ran : deallocateLoop (d.env handlers) cxt entries answer w = .ok (retval, w')) :
    w'.states = w.states ∧ w'.componentIds = w.componentIds ∧
      w'.pool.released = w.pool.released ++ entries.map Prod.snd := by
  induction entries generalizing answer w with
  | nil =>
      cases ran
      exact ⟨rfl, rfl, (List.append_nil _).symm⟩
  | cons e rest ih =>
      rw [deallocateLoop] at ran
      obtain ⟨⟨_, next⟩, released, ran⟩ := bind_eq_ok.mp ran
      obtain ⟨⟨_, pool⟩, deallocated, released⟩ := bind_eq_ok.mp released
      cases released
      obtain ⟨states, kinds, given⟩ := ih (w := ⟨pool, w.componentIds, w.states⟩) ran
      refine ⟨states, kinds, given.trans ?_⟩
      rw [Pool.deallocate_released deallocated, List.append_assoc]
      rfl

theorem allocateComponentBlocks_built {retval : Retval} {p q : DatapathPipeline World}
    (built : Built cxt s p)
    (ran : allocateComponentBlocks (d.env handlers) cxt p = .ok (retval, q)) : Built cxt s q := by
  obtain ⟨⟨answer, r⟩, looped, ran⟩ := bind_eq_ok.mp ran
  have after := allocateLoop_built built looped
  dsimp only at ran
  split_ifs at ran with refused
  · obtain ⟨⟨_, world⟩, released, ran⟩ := bind_eq_ok.mp ran
    cases ran
    obtain ⟨states, kinds, -⟩ := deallocateLoop_states released
    exact ⟨after.sorted, ⟨fun e member => (congrFun kinds e.2).trans (after.blocks.kinds e member),
      after.blocks.distinct⟩, after.older, states.trans after.states⟩
  · cases ran
    exact after

/-- A pipeline that registers its functions has a block for each: where one was refused, the blocks
have been given back. -/
theorem allocateComponentBlocks_length {retval : Retval} {p q r : DatapathPipeline World}
    (allocated : allocateComponentBlocks (d.env handlers) cxt p = .ok (.NICC_SUCCESS, q))
    (registered : registerFunctions (d.env handlers) q = .ok (retval, r)) :
    q.componentBlocks.length = p.componentBlocks.length + cxt.functions.length := by
  obtain ⟨⟨answer, t⟩, looped, allocated⟩ := bind_eq_ok.mp allocated
  dsimp only at allocated
  split_ifs at allocated with refused
  · obtain ⟨⟨_, world⟩, released, allocated⟩ := bind_eq_ok.mp allocated
    obtain ⟨-, -, given⟩ := deallocateLoop_states released
    cases allocated
    cases entries : t.componentApp2blockMap with
    | nil =>
        rw [entries] at released
        cases released
        exact absurd rfl refused
    | cons e rest =>
        rw [entries] at given
        rw [registerFunctions, entries] at registered
        obtain ⟨_, looped, -⟩ := bind_eq_ok.mp registered
        obtain ⟨_, asked, -⟩ := bind_eq_ok.mp looped
        obtain ⟨_, there, -⟩ := bind_eq_ok.mp asked
        refine absurd ?_ (assertThat_ok.mp there)
        rw [given]
        simp
  · cases allocated
    exact (allocateLoop_length looped).resolve_left refused

theorem registerFunctions_blocks {retval : Retval} {p q : DatapathPipeline World}
    (ran : registerFunctions (d.env handlers) p = .ok (retval, q)) :
    q.componentBlocks = p.componentBlocks := by
  obtain ⟨⟨answer, pairs, world⟩, -, ran⟩ := bind_eq_ok.mp ran
  dsimp only at ran
  split_ifs at ran
  · obtain ⟨⟨_, world⟩, -, ran⟩ := bind_eq_ok.mp ran
    cases ran
    rfl
  · cases ran
    rfl

/-- What is left in the states of the functions once the functions have been registered, or some of
them have and are unregistered again. -/
def LeftIn (d : Devices) (cxt : AppContext) (handlers : Nat → List (Option AppHandler))
    (entries : List (Nat × Nat)) (block : Nat) (member : Member) : Prop :=
  ((∀ e ∈ entries, registers d cxt handlers e) ∧
      ∃ e ∈ entries, e.2 = block ∧ takes d cxt handlers e member) ∨
    ∃ before e after, entries = before ++ e :: after ∧
      (∀ f ∈ before, registers d cxt handlers f) ∧ ¬ registers d cxt handlers e ∧
      ((∃ f ∈ before, f.2 = block ∧ keeps d cxt handlers f member) ∨
        e.2 = block ∧ sticks d cxt handlers e member)

theorem first_failure_unique {α : Type} {holds : α → Prop} {before before' after after' : List α}
    {a a' : α} (same : before ++ a :: after = before' ++ a' :: after') (each : ∀ b ∈ before, holds b)
    (fails : ¬ holds a) (each' : ∀ b ∈ before', holds b) (fails' : ¬ holds a') :
    before = before' ∧ a = a' := by
  induction before generalizing before' with
  | nil =>
      cases before' with
      | nil => exact ⟨rfl, (List.cons.inj same).1⟩
      | cons b before' => exact absurd ((List.cons.inj same).1 ▸ each' b List.mem_cons_self) fails
  | cons b before ih =>
      cases before' with
      | nil => exact absurd ((List.cons.inj same).1 ▸ each b List.mem_cons_self) fails'
      | cons b' before' =>
          obtain ⟨rfl, rest⟩ := List.cons.inj same
          obtain ⟨rfl, rfl⟩ := ih rest (fun c member => each c (List.mem_cons_of_mem _ member))
            (fun c member => each' c (List.mem_cons_of_mem _ member))
          exact ⟨rfl, rfl⟩

theorem registerFunctions_left {p q : DatapathPipeline World} {retval : Retval}
    (built : Built cxt s p) (sane : Sane base s) (empty : s.made = ∅)
    (quiet : ∀ block, Quiet (d.answers block) (s.cell (block, .flexioProcess)))
    (ran : registerFunctions (d.env handlers) p = .ok (retval, q)) :
    q.componentApp2blockMap = p.componentApp2blockMap ∧ Sane base q.world.states ∧
      ∀ block member, (block, member) ∈ q.world.states.made ↔
        LeftIn d cxt handlers p.componentApp2blockMap block member := by
  obtain ⟨sorted, blocks, -, rfl⟩ := built
  have nothing (slot : Nat × Member) : slot ∉ p.world.states.made := by simp [empty]
  refine ⟨registerFunctions_map ran, ?_⟩
  obtain ⟨⟨answer, before, world⟩, looped, ran⟩ := bind_eq_ok.mp ran
  obtain ⟨kinds, ⟨rfl, all, settled⟩ | ⟨_, e, after, middle, shape, refused, rfl, each, not,
    settled, stuck⟩⟩ := registerLoop_settled
      (by simpa using sorted : Sorted ([] ++ p.componentApp2blockMap)) blocks sane
      (fun e _ => ⟨fun member => nothing _, fun _ => quiet e.2⟩) looped
  · cases ran
    refine ⟨settled.sane, fun block member => ⟨fun there => ?_, ?_⟩⟩
    · by_cases inside : block ∈ p.componentApp2blockMap.map Prod.snd
      · obtain ⟨e, listed, rfl⟩ := List.mem_map.mp inside
        exact .inl ⟨all, e, listed, rfl, (settled.own e listed member).mp there⟩
      · exact absurd ((settled.others (block, member) inside).2.mp there) (nothing _)
    · rintro (⟨-, e, listed, rfl, taken⟩ | ⟨before, e, after, shape, -, not, -⟩)
      · exact (settled.own e listed member).mpr taken
      · exact absurd (all e (by rw [shape]; simp)) not
  · have distinct := blocks.distinct
    rw [shape, List.map_append, List.map_cons] at distinct
    obtain ⟨distinctBefore, -, apart⟩ := List.nodup_append.mp distinct
    have other : ∀ f ∈ before, f.2 ≠ e.2 := fun f member =>
      apart f.2 (List.mem_map_of_mem member) e.2 List.mem_cons_self
    have outside : e.2 ∉ before.map Prod.snd := by
      intro there
      obtain ⟨f, member, same⟩ := List.mem_map.mp there
      exact other f member same
    dsimp only at ran
    rw [if_pos refused] at ran
    obtain ⟨⟨_, last⟩, unregistered, ran⟩ := bind_eq_ok.mp ran
    cases ran
    have blocksBefore : Blocks cxt before _ := ⟨fun f member => (congrFun kinds f.2).trans
      (blocks.kinds f (by rw [shape]; exact List.mem_append_left _ member)), distinctBefore⟩
    have unwound := unregisterLoop_settled blocksBefore
      stuck.sane (fun f there member => (stuck.others (f.2, member) (other f there)).2.trans
        (settled.own f there member)) unregistered
    refine ⟨unwound.sane, fun block member => ⟨fun there => ?_, ?_⟩⟩
    · refine .inr ⟨before, e, after, shape, each, not, ?_⟩
      by_cases inside : block ∈ before.map Prod.snd
      · obtain ⟨f, listed, rfl⟩ := List.mem_map.mp inside
        exact .inl ⟨f, listed, rfl, (unwound.own f listed member).mp there⟩
      · have there := (unwound.others (block, member) inside).2.mp there
        by_cases same : block = e.2
        · subst same
          exact .inr ⟨rfl, (stuck.own member).mp there⟩
        · have there := (stuck.others (block, member) same).2.mp there
          exact absurd ((settled.others (block, member) inside).2.mp there) (nothing _)
    · rintro (⟨all, -⟩ | ⟨first, g, rest, shape', each', not', left⟩)
      · exact absurd (all e (by rw [shape]; simp)) not
      · obtain ⟨rfl, rfl⟩ : first = before ∧ g = e :=
          first_failure_unique (shape'.symm.trans shape) each' not' each not
        rcases left with ⟨f, listed, rfl, kept⟩ | ⟨rfl, sticks⟩
        · exact (unwound.own f listed member).mpr kept
        · exact (unwound.others (g.2, member) outside).2.mpr ((stuck.own member).mpr sticks)

theorem deallocateComponentBlocks_states {p q : DatapathPipeline World} {retval : Retval}
    (ran : deallocateComponentBlocks (d.env handlers) cxt p = .ok (retval, q)) :
    q.world.states = p.world.states ∧ q.componentBlocks = p.componentBlocks := by
  obtain ⟨⟨_, world⟩, released, ran⟩ := bind_eq_ok.mp ran
  cases ran
  exact ⟨(deallocateLoop_states released).1, rfl⟩

/-- What exists beyond `live` when the constructor has returned, or runs the pipeline. Where it got
beyond the allocation, every function has got a block. -/
structure LeftBehind (d : Devices) (cxt : AppContext) (handlers : Nat → List (Option AppHandler))
    (live : Finset (Member × Nat)) (stage : Stage) (p : DatapathPipeline World) : Prop where
  balanced : p.world.states.Balanced Prod.snd live
  allocated : stage ≠ .allocation → p.componentBlocks.length = cxt.functions.length
  left : ∀ block member, (block, member) ∈ p.world.states.made ↔
    stage ≠ .allocation ∧ LeftIn d cxt handlers p.componentApp2blockMap block member

/-- A pipeline that stops leaves what the registrations of its functions have made. Unregistering
destroys the process only, and that where nothing is refused. Of the function that was refused stays
what its registration had made by then. Whatever was destroyed was there, and belonged to the
block. -/
theorem left_behind (d : Devices) (cxt : AppContext) (handlers : Nat → List (Option AppHandler))
    (pool : Pool) (componentIds : Nat → Nat) (live : Finset (Member × Nat))
    (members : Nat × Member → Nat)
    (quiet : ∀ block, Quiet (d.answers block) (members (block, .flexioProcess)))
    (loadFromAppDag : Retval) (initControlPlane : DatapathPipeline World → Retval) {stage : Stage}
    {p : DatapathPipeline World}
    (ran : construct (d.env handlers) cxt loadFromAppDag initControlPlane
      ⟨pool, componentIds, Ledger.start live members⟩ = .ok (stage, p)) :
    LeftBehind d cxt handlers live stage p := by
  have sane : Sane live (Ledger.start live members) :=
    ⟨Ledger.start_balanced live members, fun slot there => absurd there (Finset.notMem_empty slot)⟩
  have built : Built cxt (Ledger.start live members)
      (start ⟨pool, componentIds, Ledger.start live members⟩) :=
    ⟨List.Pairwise.nil, ⟨fun e member => absurd member List.not_mem_nil, List.nodup_nil⟩,
      fun e member => absurd member List.not_mem_nil, rfl⟩
  obtain ⟨_, -, ran⟩ := bind_eq_ok.mp ran
  obtain ⟨⟨allocated, q⟩, allocation, ran⟩ := bind_eq_ok.mp ran
  have builtNow := allocateComponentBlocks_built built allocation
  dsimp only at ran
  split_ifs at ran with refused
  · cases ran
    refine ⟨builtNow.states ▸ sane.balanced, fun later => absurd rfl later, fun block member => ?_⟩
    rw [builtNow.states]
    simp [Ledger.start]
  · obtain ⟨⟨registered, r⟩, registration, ran⟩ := bind_eq_ok.mp ran
    obtain ⟨entries, saneNow, left⟩ :=
      registerFunctions_left builtNow sane rfl quiet registration
    rw [← entries] at left
    have counted := allocateComponentBlocks_length (not_not.mp refused ▸ allocation) registration
    rw [← registerFunctions_blocks registration] at counted
    have finish {p : DatapathPipeline World} (states : p.world.states = r.world.states)
        (blocks : p.componentBlocks = r.componentBlocks)
        (same : p.componentApp2blockMap = r.componentApp2blockMap) {stage : Stage}
        (later : stage ≠ .allocation) : LeftBehind d cxt handlers live stage p :=
      ⟨states ▸ saneNow.balanced, fun _ => blocks ▸ counted.trans (Nat.zero_add _),
        fun block member => by rw [states, same, left, and_iff_right later]⟩
    dsimp only at ran
    split_ifs at ran
    · obtain ⟨⟨_, t⟩, released, ran⟩ := bind_eq_ok.mp ran
      cases ran
      obtain ⟨states, blocks⟩ := deallocateComponentBlocks_states released
      exact finish states blocks (deallocateComponentBlocks_map released) (by simp)
    · obtain ⟨⟨_, t⟩, released, ran⟩ := bind_eq_ok.mp ran
      cases ran
      obtain ⟨states, blocks⟩ := deallocateComponentBlocks_states released
      exact finish states blocks (deallocateComponentBlocks_map released) (by simp)
    · cases ran
      exact finish rfl rfl rfl (by simp)

def granting : BlockAnswers where
  versionSet := true
  processCreate := true
  clears := true
  getUar := true
  getPd := true
  eventHandlerCreate := true
  msgStreamCreate := true
  destroyUnfinished := true
  allocateChannel := .ok .NICC_SUCCESS
  processCall := true
  deallocateChannel := .NICC_SUCCESS
  processDestroy := true

def devices (answers : Nat → BlockAnswers) : Devices where
  ibvCtx := true
  fdbDomain := true
  kernel _ := true
  hostStub _ := true
  answers := answers
  address _ live := live.sup Prod.snd + 1
  fresh member live := by
    refine ⟨Nat.succ_ne_zero _, fun there => ?_⟩
    exact absurd (Finset.le_sup (f := Prod.snd) there) (Nat.not_succ_le_self _)

theorem left_behind_refused :
    let d := devices fun block =>
      if block = 1 then { granting with allocateChannel := .ok .NICC_ERROR } else granting
    let cxt : AppContext := ⟨[1, 2], fun f =>
      ⟨if f = 1 then kComponent_DPA else kComponent_SoC, ⟨5, "", "", 0⟩⟩⟩
    let handlers : Nat → List (Option AppHandler) := fun _ => [some ⟨1, 0⟩, some ⟨2, 1⟩]
    let world : World :=
      ⟨⟨fun _ => some ⟨10⟩, fun _ => .fresh, [], []⟩, fun _ => 0, Ledger.start ∅ fun _ => 0⟩
    ∃ p, construct (d.env handlers) cxt .NICC_SUCCESS (fun _ => .NICC_SUCCESS) world =
      .ok (.running, p) ∧ LeftBehind d cxt handlers ∅ .running p ∧
      p.world.states.made =
        {(0, .eventHandler), (0, .stream), (0, .channel), (1, .channel)} := by
  intro d cxt handlers world
  have ran : ∃ p, construct (d.env handlers) cxt .NICC_SUCCESS (fun _ => .NICC_SUCCESS) world =
      .ok (.running, p) ∧ p.world.states.made =
        {(0, .eventHandler), (0, .stream), (0, .channel), (1, .channel)} := ⟨_, rfl, by decide +kernel⟩
  obtain ⟨p, ran, made⟩ := ran
  exact ⟨p, ran, left_behind d cxt handlers _ _ ∅ (fun _ => 0) (fun _ _ => .inr rfl) .NICC_SUCCESS
    (fun _ => .NICC_SUCCESS) ran, made⟩

end

end Nicc.Pipeline

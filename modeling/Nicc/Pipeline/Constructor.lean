import Nicc.Ctrl.ControlPlane
import Nicc.Pipeline.Channels
import Nicc.Pipeline.Release
import Nicc.Pipeline.Remains

/-!
# The constructor of a pipeline

`DatapathPipeline::DatapathPipeline` with its control plane: the blocks are allocated, the functions
are registered, the routers are set up, the channels are connected, and the blocks are run. Only when
all of this has succeeded does it not return.
-/

namespace Nicc.Pipeline
open Lib Channel DatapathPipeline

/-- What an application and the machine bring to a pipeline. `channel` and `qpInfo` are what
`allocate_channel` leaves of the channel of a block. -/
structure Deployment where
  devices : Devices
  handlers : Nat → List (Option AppHandler)
  drivers : Drivers
  channel : Nat → BlockChannel
  qpInfo : Nat → Bool → QPInfo
  connectTo : Host → List String
  received : Host → List Char
  eventHandlerRun : Nat → Bool

def World.routedBlock (w : World) (i : Nat) : Ctrl.RoutedBlock where
  blockName := (w.pool.blocks i).blockName
  componentId := w.componentIds i
  channel := if (i, Member.channel) ∈ w.states.made then some i else none
  routing := decide ((i, Member.routing) ∈ w.states.made)

namespace Deployment

def env (dep : Deployment) : Env World := dep.devices.env dep.handlers

def block (dep : Deployment) (w : World) (i : Nat) : Block :=
  ⟨(w.pool.blocks i).blockName, w.componentIds i, dep.qpInfo i true, dep.qpInfo i false⟩

def initControlPlane (dep : Deployment) (dag : Ctrl.AppDag) (p : DatapathPipeline World) :
    Except String Retval := do
  -- The pool has deleted the blocks that were given back to it.
  assertThat (∀ i ∈ p.componentBlocks, i ∉ p.world.pool.released) "component_block"
  let _ ← run (Ctrl.ControlPlane.initBlock dag p.world.routedBlock) .start p.componentBlocks
  let (outcome, links) := buildChannelConnections dep.drivers.channels dep.connectTo
    (p.componentBlocks.map (dep.block p.world)) dep.received dep.channel
  -- Every block that was asked to connect has done so through its channel.
  assertThat (∀ answer ∈ links.asks, (answer.1.block, Member.channel) ∈ p.world.states.made ∨
    p.world.componentIds answer.1.block = kComponent_FlowEngine) "this->_function_state->channel"
  match outcome with
  | .returned retval =>
      assertThat (retval = .NICC_SUCCESS) "SHUTDOWN BY NICC ERROR"
      return retval
  | .thrown text => throw text
  | .conversion _ => throw "stoi"

def runBlock (dep : Deployment) (w : World) (i : Nat) : Retval :=
  if w.componentIds i = kComponent_DPA then hardwareCheck (dep.eventHandlerRun i = true)
  else if w.componentIds i = kComponent_SoC then .NICC_SUCCESS
  else .NICC_ERROR_NOT_IMPLEMENTED

def runPipeline (dep : Deployment) (w : World) : List Nat → Retval
  | [] => .NICC_SUCCESS
  | i :: rest =>
      let retval := dep.runBlock w i
      if retval ≠ .NICC_SUCCESS then retval else dep.runPipeline w rest

/-- The last step that the constructor has reached, and none where it waits for ever. -/
def construct (dep : Deployment) (cxt : AppContext) (dag : Ctrl.AppDag) (world : World) :
    Except String (Option Stage × DatapathPipeline World) := do
  let p := start world
  let (retval, _) ← Ctrl.PipelineRouting.loadFromAppDag (some dag) []
  assertThat (retval = .NICC_SUCCESS) "SHUTDOWN BY NICC ERROR"
  let (retval, p) ← allocateComponentBlocks dep.env cxt p
  if retval ≠ .NICC_SUCCESS then return (some .allocation, p)
  let (retval, p) ← registerFunctions dep.env p
  if retval ≠ .NICC_SUCCESS then
    let (_, p) ← deallocateComponentBlocks dep.env cxt p
    return (some .registration, p)
  let retval ← dep.initControlPlane dag p
  if retval ≠ .NICC_SUCCESS then
    let (_, p) ← deallocateComponentBlocks dep.env cxt p
    return (some .controlPlane, p)
  if dep.runPipeline p.world p.componentBlocks ≠ .NICC_SUCCESS then return (some .running, p)
  return (none, p)

end Deployment

theorem Pool.allocate_success {p next : Pool} {cid cb : Nat} {desp : Desp} :
    p.allocate cid desp cb = .ok (.NICC_SUCCESS, next) ↔
      ∃ c, p.componentMap cid = some c ∧ desp.quota.toNat ≤ c.quota.toNat ∧
        next = { p with
          componentMap := Function.update p.componentMap cid (some { c with quota := c.quota - desp.quota })
          blocks := Function.update p.blocks cb (virtualAllocateBlock cid c desp (p.blocks cb)).2.2
          granted := p.granted ++ [cb] } := by
  cases found : p.componentMap cid with
  | none => simp [allocate, found]
  | some c =>
      by_cases fits : desp.quota.toNat ≤ c.quota.toNat
      · obtain ⟨block, -, granted⟩ := virtualAllocateBlock_granted cid fits (p.blocks cb)
        simp [allocate, found, granted, fits, eq_comm]
      · rw [allocate_refused found (Nat.lt_of_not_le fits)]
        simp [fits]

theorem Pool.virtualAllocateBlock_name {cid : Nat} {c : Component} {desp : Desp}
    (fits : desp.quota.toNat ≤ c.quota.toNat) (cb : ComponentBlock) :
    (virtualAllocateBlock cid c desp cb).2.2.blockName = desp.blockName := by
  rw [virtualAllocateBlock]
  split_ifs
  · exact congrArg (·.2.2.blockName) (allocateBlock_granted _ fits cb)
  · exact congrArg (·.2.2.blockName) (allocateBlock_granted _ fits cb)
  · exact congrArg (·.2.2.blockName) (allocateBlock_granted _ fits cb)

theorem registerOn_channel {d : Devices} {i cid : Nat} {handlers : List (Option AppHandler)}
    {s s' : FuncStates} (kind : cid = kComponent_DPA ∨ cid = kComponent_SoC)
    (unmade : (i, Member.channel) ∉ s.made)
    (ran : registerOn d i cid handlers s = .ok (.NICC_SUCCESS, s')) :
    (i, Member.channel) ∈ s'.made ↔ handlers ≠ [] := by
  have made (t : FuncStates) : (i, Member.channel) ∈ (makeNew d i .channel t).made :=
    Finset.mem_insert_self _ _
  rw [registerOn] at ran
  split_ifs at ran with dpa soc
  · obtain ⟨_, -, ran⟩ := bind_eq_ok.mp ran
    split_ifs at ran with empty
    · cases ran
      exact iff_of_false unmade (not_not.mpr empty)
    · refine iff_of_true ?_ empty
      split at ran
      case h_1 => cases ran
      case h_2 => cases ran
      case h_3 =>
        rcases proceed_ok.mp ran with ⟨t, -, ran⟩ | ⟨-, failed⟩
        · rcases proceed_ok.mp ran with ⟨u, allocated, ran⟩ | ⟨-, failed⟩
          · obtain ⟨answer, -, allocated⟩ := bind_eq_ok.mp allocated
            obtain ⟨_, -, ran⟩ := bind_eq_ok.mp ran
            split_ifs at allocated with success
            · cases allocated
              obtain ⟨-, rfl⟩ := Prod.ext_iff.mp (Except.ok.inj ran)
              exact made t
            · cases allocated
              exact absurd rfl success
          · exact absurd rfl failed
        · exact absurd rfl failed
      case h_4 => cases ran
  · rw [registerSoC] at ran
    split_ifs at ran with empty
    · cases ran
      exact iff_of_false unmade (not_not.mpr empty)
    · refine iff_of_true ?_ empty
      split at ran
      case h_1 => cases ran
      case h_2 => cases ran
      case h_3 =>
        obtain ⟨answer, -, ran⟩ := bind_eq_ok.mp ran
        split_ifs at ran with success
        · cases ran
          exact Finset.mem_insert_of_mem (made s)
        · cases ran
          exact absurd rfl success
  · exact absurd kind (not_or.mpr ⟨dpa, soc⟩)

section
variable {dep : Deployment} {cxt : AppContext} {p q : DatapathPipeline World} {w : World}
variable {answer retval : Retval} {f : Nat}

theorem allocateComponentBlocks_one
    (ran : allocateComponentBlocks dep.env cxt (start w) = .ok (.NICC_SUCCESS, q))
    (registered : registerFunctions dep.env q = .ok (retval, p))
    (one : q.componentBlocks.length = 1) :
    ∃ f pool, cxt.functions = [f] ∧ knownComponent (cxt.function f).componentId ∧
      w.pool.allocate (cxt.function f).componentId (cxt.function f).cbDesp 0 =
        .ok (.NICC_SUCCESS, pool) ∧ q = grant cxt (start w) f pool := by
  have counted := allocateComponentBlocks_length ran registered
  rw [one] at counted
  obtain ⟨f, only⟩ := List.length_eq_one_iff.mp ((Nat.zero_add _).symm.trans counted.symm)
  obtain ⟨⟨answer, r⟩, looped, ran⟩ := bind_eq_ok.mp ran
  rw [only] at looped
  obtain ⟨known, _, pool, allocated, ⟨rfl, ended⟩ | ⟨refused, rfl, rfl⟩⟩ := allocateLoop_cons looped
  · cases ended
    cases ran
    exact ⟨f, pool, only, known, allocated, rfl⟩
  · dsimp only at ran
    rw [if_pos refused] at ran
    obtain ⟨_, released, ran⟩ := bind_eq_ok.mp ran
    cases released
    cases ran
    exact absurd rfl refused

theorem allocateComponentBlocks_granted_one {pool : Pool} (only : cxt.functions = [f])
    (kind : (cxt.function f).componentId = kComponent_DPA ∨
      (cxt.function f).componentId = kComponent_SoC)
    (allocated : w.pool.allocate (cxt.function f).componentId (cxt.function f).cbDesp 0 =
      .ok (.NICC_SUCCESS, pool)) :
    allocateComponentBlocks dep.env cxt (start w) = .ok (.NICC_SUCCESS, grant cxt (start w) f pool) := by
  have known : knownComponent (cxt.function f).componentId :=
    kind.elim .inl fun soc => .inr (.inr soc)
  have other : (cxt.function f).componentId ≠ kComponent_FlowEngine := by
    rcases kind with kind | kind <;> rw [kind] <;> decide
  have loop : allocateLoop dep.env cxt [f] .NICC_SUCCESS (start w) =
      .ok (.NICC_SUCCESS, grant cxt (start w) f pool) := by
    rw [allocateLoop, assertThat_holds known, ok_bind]
    have asked : dep.env.allocate w (cxt.function f).componentId (cxt.function f).cbDesp 0 =
        .ok (.NICC_SUCCESS, ⟨pool, Function.update w.componentIds 0 (cxt.function f).componentId,
          w.states⟩) := by
      simp only [Deployment.env, Devices.env, allocated, ok_bind]
      rfl
    simp only [start, asked, ok_bind, ne_eq, not_true_eq_false, if_false, other]
    rfl
  rw [allocateComponentBlocks, only, loop]
  rfl

theorem registerFunctions_one {i : Nat} (map : q.componentApp2blockMap = [(f, i)]) :
    registerFunctions dep.env q = .ok (.NICC_SUCCESS, p) ↔
      i ∉ q.world.pool.released ∧
        ∃ s, registerOn dep.devices i (q.world.componentIds i) (dep.handlers f) q.world.states =
          .ok (.NICC_SUCCESS, s) ∧ p = { q with world := { q.world with states := s } } := by
  rw [registerFunctions, map]
  constructor
  · intro ran
    obtain ⟨⟨answer, pairs, world⟩, looped, ran⟩ := bind_eq_ok.mp ran
    obtain ⟨⟨registered, next⟩, asked, looped⟩ := bind_eq_ok.mp looped
    obtain ⟨_, there, asked⟩ := bind_eq_ok.mp asked
    obtain ⟨⟨_, s⟩, registration, asked⟩ := bind_eq_ok.mp asked
    cases asked
    dsimp only at looped
    split_ifs at looped with refused
    · cases looped
      dsimp only at ran
      rw [if_pos refused] at ran
      obtain ⟨_, unregistered, ran⟩ := bind_eq_ok.mp ran
      cases unregistered
      cases ran
      exact absurd rfl refused
    · cases looped
      dsimp only at ran
      rw [if_neg refused] at ran
      cases ran
      exact ⟨assertThat_ok.mp there, s, registration, rfl⟩
  · rintro ⟨there, s, registered, rfl⟩
    have asked : dep.env.registerAppFunction q.world i f =
        .ok (.NICC_SUCCESS, { q.world with states := s }) := by
      simp only [Deployment.env, Devices.env, assertThat_holds there, registered, ok_bind]
      rfl
    rw [registerLoop, asked]
    rfl

theorem buildChannelConnections_one {drivers : Drivers} {connectTo : Host → List String}
    {hostQpInfo : Host → QPInfo} {block : Block} {received : Host → List Char}
    {world : Nat → BlockChannel} (fresh : (world 0).state = 0)
    (decoded : ∀ host, deserialize zeroed (received host) = .ok (hostQpInfo host))
    (connects : Connects drivers connectTo hostQpInfo (world 0) block) :
    ∃ links, buildChannelConnections drivers.channels connectTo [block] received world =
      (.returned .NICC_SUCCESS, links) ∧ links.asks.map (fun answer => answer.1.block) = [0] := by
  rw [build_decoded decoded, connectBlocks_single fresh connects]
  exact ⟨_, rfl, rfl⟩

def Deployment.Connected (dep : Deployment) (block : Block) : Prop :=
  ∃ hostQpInfo, (∀ host, deserialize zeroed (dep.received host) = .ok (hostQpInfo host)) ∧
    Connects dep.drivers dep.connectTo hostQpInfo (dep.channel 0) block

-- A refused connection is thrown, so the blocks are not given back after it.
theorem initControlPlane_ran {dag : Ctrl.AppDag} (ran : dep.initControlPlane dag p = .ok retval) :
    retval = .NICC_SUCCESS ∧ (∀ i ∈ p.componentBlocks, i ∉ p.world.pool.released) ∧
      ∃ links, buildChannelConnections dep.drivers.channels dep.connectTo
          (p.componentBlocks.map (dep.block p.world)) dep.received dep.channel =
          (.returned .NICC_SUCCESS, links) ∧
        ∀ answer ∈ links.asks, (answer.1.block, Member.channel) ∈ p.world.states.made ∨
          p.world.componentIds answer.1.block = kComponent_FlowEngine := by
  obtain ⟨_, there, ran⟩ := bind_eq_ok.mp ran
  obtain ⟨_, -, ran⟩ := bind_eq_ok.mp ran
  cases built : buildChannelConnections dep.drivers.channels dep.connectTo
      (p.componentBlocks.map (dep.block p.world)) dep.received dep.channel with
  | mk outcome links =>
      rw [built] at ran
      obtain ⟨_, channels, ran⟩ := bind_eq_ok.mp ran
      cases outcome with
      | returned answer =>
          obtain ⟨_, success, ran⟩ := bind_eq_ok.mp ran
          obtain rfl := assertThat_ok.mp success
          cases ran
          exact ⟨rfl, assertThat_ok.mp there, links, rfl, assertThat_ok.mp channels⟩
      | thrown text => cases ran
      | conversion e => cases ran

theorem initControlPlane_length {dag : Ctrl.AppDag} (fresh : (dep.channel 0).state = 0)
    (ran : dep.initControlPlane dag p = .ok retval) : p.componentBlocks.length = 1 := by
  obtain ⟨-, -, links, built, -⟩ := initControlPlane_ran ran
  obtain ⟨hostQpInfo, block, -, only, -⟩ := (builds_iff dep.drivers dep.connectTo
    (p.componentBlocks.map (dep.block p.world)) dep.received fresh).mp (congrArg Prod.fst built)
  rw [← List.length_map (dep.block p.world), only]
  rfl

theorem initControlPlane_one (dag : Ctrl.AppDag) (fresh : (dep.channel 0).state = 0)
    (blocks : p.componentBlocks = [0]) :
    dep.initControlPlane dag p = .ok retval ↔ retval = .NICC_SUCCESS ∧
      0 ∉ p.world.pool.released ∧ (0, Member.channel) ∈ p.world.states.made ∧
        dep.Connected (dep.block p.world 0) := by
  constructor
  · intro ran
    obtain ⟨rfl, there, links, built, channels⟩ := initControlPlane_ran ran
    rw [blocks] at there built
    obtain ⟨hostQpInfo, block, decoded, only, connects⟩ := (builds_iff dep.drivers dep.connectTo
      ([0].map (dep.block p.world)) dep.received fresh).mp (congrArg Prod.fst built)
    obtain rfl : dep.block p.world 0 = block := List.singleton_inj.mp only
    obtain ⟨_, again, asks⟩ := buildChannelConnections_one fresh decoded connects
    obtain rfl := congrArg Prod.snd (built.symm.trans again)
    have member : 0 ∈ links.asks.map fun answer => answer.1.block := asks ▸ List.mem_cons_self
    obtain ⟨answer, asked, here⟩ := List.mem_map.mp member
    have channel := channels answer asked
    rw [here] at channel
    exact ⟨rfl, there 0 List.mem_cons_self, channel.resolve_right connects.kind, hostQpInfo, decoded,
      connects⟩
  · rintro ⟨rfl, there, channel, hostQpInfo, decoded, connects⟩
    obtain ⟨links, built, asks⟩ := buildChannelConnections_one fresh decoded connects
    obtain ⟨plane, routed⟩ := (Ctrl.ControlPlane.run_setUp dag [0]
      (Ctrl.ControlPlane.start_setUp p.world.routedBlock)).1.mpr (by
        simp [World.routedBlock, channel])
    have through : ∀ answer ∈ links.asks, (answer.1.block, Member.channel) ∈ p.world.states.made ∨
        p.world.componentIds answer.1.block = kComponent_FlowEngine := by
      intro answer asked
      have here : answer.1.block ∈ links.asks.map fun answer => answer.1.block :=
        List.mem_map_of_mem asked
      rw [asks, List.mem_singleton] at here
      rw [here]
      exact .inl channel
    rw [Deployment.initControlPlane, blocks, assertThat_holds (by simpa using there), ok_bind, routed,
      ok_bind, List.map_cons, List.map_nil, built]
    dsimp only
    rw [assertThat_holds through, ok_bind, assertThat_holds rfl, ok_bind]
    rfl

end

/-- What it takes for the function `f` to be served by a pipeline of its own. -/
structure Serves (dep : Deployment) (cxt : AppContext) (w : World) (f : Nat) : Prop where
  kind : (cxt.function f).componentId = kComponent_DPA ∨
    (cxt.function f).componentId = kComponent_SoC
  granted : ∃ component, w.pool.componentMap (cxt.function f).componentId = some component ∧
    (cxt.function f).cbDesp.quota.toNat ≤ component.quota.toNat
  handlers : dep.handlers f ≠ []
  registered : ∃ s, registerOn dep.devices 0 (cxt.function f).componentId (dep.handlers f) w.states =
    .ok (.NICC_SUCCESS, s)
  connected : dep.Connected ⟨(cxt.function f).cbDesp.blockName, (cxt.function f).componentId,
    dep.qpInfo 0 true, dep.qpInfo 0 false⟩
  runs : (cxt.function f).componentId = kComponent_DPA → dep.eventHandlerRun 0 = true

section
variable {dep : Deployment} {cxt : AppContext} {p : DatapathPipeline World} {w : World} {f : Nat}

/-- The constructor is the one whose control plane always succeeds, except that it throws where this
one does not. -/
theorem construct_agrees {dag : Ctrl.AppDag} {stage : Option Stage}
    (ran : dep.construct cxt dag w = .ok (stage, p)) :
    DatapathPipeline.construct dep.env cxt .NICC_SUCCESS (fun _ => .NICC_SUCCESS) w =
      .ok (stage.getD .running, p) := by
  obtain ⟨_, _, ran⟩ := bind_eq_ok.mp ran
  obtain ⟨_, -, ran⟩ := bind_eq_ok.mp ran
  obtain ⟨⟨answer, q⟩, allocated, ran⟩ := bind_eq_ok.mp ran
  rw [DatapathPipeline.construct, assertThat_holds rfl, ok_bind, allocated, ok_bind]
  by_cases refused : answer = .NICC_SUCCESS
  · subst refused
    obtain ⟨⟨answer, r⟩, registration, ran⟩ := bind_eq_ok.mp ran
    simp only [ne_eq, not_true_eq_false, if_false, registration, ok_bind]
    by_cases failed : answer = .NICC_SUCCESS
    · subst failed
      obtain ⟨retval, planned, ran⟩ := bind_eq_ok.mp ran
      obtain ⟨rfl, -⟩ := initControlPlane_ran planned
      split_ifs at ran
      · exact absurd rfl ‹_›
      · cases ran
        rfl
      · cases ran
        rfl
    · dsimp only at ran
      rw [if_pos failed] at ran ⊢
      obtain ⟨⟨_, t⟩, released, ran⟩ := bind_eq_ok.mp ran
      cases ran
      rw [released]
      rfl
  · dsimp only at ran ⊢
    rw [if_pos refused] at ran ⊢
    cases ran
    rfl

theorem construct_served {dag : Ctrl.AppDag} :
    dep.construct cxt dag w = .ok (none, p) ↔
      ∃ q, allocateComponentBlocks dep.env cxt (start w) = .ok (.NICC_SUCCESS, q) ∧
        registerFunctions dep.env q = .ok (.NICC_SUCCESS, p) ∧
        dep.initControlPlane dag p = .ok .NICC_SUCCESS ∧
        dep.runPipeline p.world p.componentBlocks = .NICC_SUCCESS := by
  rw [Deployment.construct, Ctrl.PipelineRouting.loadFromAppDag, ok_bind]
  dsimp only
  rw [assertThat_holds rfl, ok_bind]
  constructor
  · intro ran
    obtain ⟨⟨answer, q⟩, allocated, ran⟩ := bind_eq_ok.mp ran
    by_cases refused : answer = .NICC_SUCCESS
    · subst refused
      obtain ⟨⟨answer, r⟩, registration, ran⟩ := bind_eq_ok.mp ran
      by_cases failed : answer = .NICC_SUCCESS
      · subst failed
        obtain ⟨retval, planned, ran⟩ := bind_eq_ok.mp ran
        split_ifs at ran with unplanned stopped
        · obtain ⟨_, -, ran⟩ := bind_eq_ok.mp ran
          cases ran
        · cases ran
        · cases ran
          rw [not_not.mp unplanned] at planned
          exact ⟨q, allocated, registration, planned, not_not.mp stopped⟩
      · dsimp only at ran
        rw [if_pos failed] at ran
        obtain ⟨_, -, ran⟩ := bind_eq_ok.mp ran
        cases ran
    · dsimp only at ran
      rw [if_pos refused] at ran
      cases ran
  · rintro ⟨q, allocated, registration, planned, runs⟩
    rw [allocated, ok_bind]
    dsimp only
    rw [if_neg (not_not.mpr rfl), registration, ok_bind]
    dsimp only
    rw [if_neg (not_not.mpr rfl), planned, ok_bind, if_neg (not_not.mpr rfl), runs,
      if_neg (not_not.mpr rfl)]
    rfl

theorem runPipeline_one {i : Nat} :
    dep.runPipeline w [i] = .NICC_SUCCESS ↔ dep.runBlock w i = .NICC_SUCCESS := by
  simp [Deployment.runPipeline]

theorem runBlock_success {i : Nat}
    (kind : w.componentIds i = kComponent_DPA ∨ w.componentIds i = kComponent_SoC) :
    dep.runBlock w i = .NICC_SUCCESS ↔
      (w.componentIds i = kComponent_DPA → dep.eventHandlerRun i = true) := by
  rw [Deployment.runBlock]
  split_ifs with dpa soc
  · rw [hardwareCheck_success]
    exact ⟨fun runs _ => runs, fun runs => runs dpa⟩
  · exact iff_of_true rfl fun is => absurd is dpa
  · exact absurd kind (not_or.mpr ⟨dpa, soc⟩)

theorem grant_componentId (cxt : AppContext) (w : World) (f : Nat) (pool : Pool) :
    (grant cxt (start w) f pool).world.componentIds 0 = (cxt.function f).componentId := by
  simp only [grant, ask, DatapathPipeline.enter, start, Function.update_self]

theorem grant_block {pool : Pool} (granted : w.pool.allocate (cxt.function f).componentId
    (cxt.function f).cbDesp 0 = .ok (.NICC_SUCCESS, pool)) {s : FuncStates} :
    dep.block { (grant cxt (start w) f pool).world with states := s } 0 =
      ⟨(cxt.function f).cbDesp.blockName, (cxt.function f).componentId, dep.qpInfo 0 true,
        dep.qpInfo 0 false⟩ := by
  obtain ⟨component, -, fits, rfl⟩ := Pool.allocate_success.mp granted
  simp only [Deployment.block, grant, ask, DatapathPipeline.enter, start, Function.update_self,
    Pool.virtualAllocateBlock_name fits]

/-- The constructor gets to wait for ever exactly when the application has one function, which is
served. A pipeline of several functions never runs. -/
theorem serves_iff (dep : Deployment) (cxt : AppContext) (dag : Ctrl.AppDag) {pool : Pool}
    (unused : pool.released = []) (componentIds : Nat → Nat) (live : Finset (Member × Nat))
    (members : Nat × Member → Nat) (fresh : (dep.channel 0).state = 0) :
    (∃ p, dep.construct cxt dag ⟨pool, componentIds, Ledger.start live members⟩ = .ok (none, p)) ↔
      ∃ f, cxt.functions = [f] ∧
        Serves dep cxt ⟨pool, componentIds, Ledger.start live members⟩ f := by
  generalize whole : (⟨pool, componentIds, Ledger.start live members⟩ : World) = w
  have unreleased : w.pool.released = [] := by rw [← whole]; exact unused
  have unmade : (0, Member.channel) ∉ w.states.made := by rw [← whole]; exact Finset.notMem_empty _
  constructor
  · rintro ⟨p, ran⟩
    obtain ⟨q, allocated, registered, planned, runs⟩ := construct_served.mp ran
    have one := initControlPlane_length fresh planned
    rw [registerFunctions_blocks registered] at one
    obtain ⟨f, next, only, known, granted, rfl⟩ :=
      allocateComponentBlocks_one allocated registered one
    have blocks : p.componentBlocks = [0] := registerFunctions_blocks registered
    obtain ⟨-, -, channel, connected⟩ := (initControlPlane_one dag fresh blocks).mp planned
    have map : (grant cxt (start w) f next).componentApp2blockMap = [(f, 0)] := rfl
    obtain ⟨-, s, registration, rfl⟩ := (registerFunctions_one map).mp registered
    rw [grant_componentId] at registration
    rw [grant_block granted] at connected
    have kind : (cxt.function f).componentId = kComponent_DPA ∨
        (cxt.function f).componentId = kComponent_SoC := by
      obtain ⟨_, -, connects⟩ := connected
      exact known.imp_right fun other => other.resolve_left connects.kind
    obtain ⟨component, found, fits, -⟩ := Pool.allocate_success.mp granted
    refine ⟨f, only, kind, ⟨component, found, fits⟩,
      (registerOn_channel kind unmade registration).mp channel, ⟨s, registration⟩, connected, ?_⟩
    rw [blocks, runPipeline_one] at runs
    have run := (runBlock_success (by rwa [grant_componentId])).mp runs
    rwa [grant_componentId] at run
  · rintro ⟨f, only, serves⟩
    obtain ⟨component, found, fits⟩ := serves.granted
    obtain ⟨s, registration⟩ := serves.registered
    obtain ⟨next, granted⟩ : ∃ next, w.pool.allocate (cxt.function f).componentId
        (cxt.function f).cbDesp 0 = .ok (.NICC_SUCCESS, next) :=
      ⟨_, Pool.allocate_success.mpr ⟨component, found, fits, rfl⟩⟩
    have channel := (registerOn_channel serves.kind unmade registration).mpr serves.handlers
    rw [← grant_componentId cxt w f next] at registration
    have there : 0 ∉ (grant cxt (start w) f next).world.pool.released := by
      obtain ⟨_, -, -, rfl⟩ := Pool.allocate_success.mp granted
      exact fun there => absurd (unreleased ▸ there) List.not_mem_nil
    have registered := (registerFunctions_one (q := grant cxt (start w) f next) rfl).mpr
      ⟨there, s, registration, rfl⟩
    refine ⟨_, construct_served.mpr ⟨_, allocateComponentBlocks_granted_one only serves.kind granted,
      registered, (initControlPlane_one dag fresh rfl).mpr ⟨rfl, there, channel, ?_⟩, ?_⟩⟩
    · rw [grant_block granted]
      exact serves.connected
    · have kind := serves.kind
      have runs := serves.runs
      rw [← grant_componentId cxt w f next] at kind runs
      exact runPipeline_one.mpr ((runBlock_success kind).mpr runs)

theorem serves_soc :
    let dep : Deployment := {
      devices := devices fun _ => granting
      handlers := fun _ => [some ⟨2, 1⟩]
      drivers := ⟨fun _ _ => ⟨fun _ => 0, some 1, some 2, 0⟩, fun _ _ => ⟨fun _ => 0, 0⟩,
        fun _ => .ok .NICC_SUCCESS⟩
      channel := fun _ => .soc (.new 1 zeroed zeroed)
      qpInfo := fun _ _ => zeroed
      connectTo := fun _ => ["soc"]
      received := fun _ => "qp_num:7".toList
      eventHandlerRun := fun _ => false }
    ∃ p, dep.construct ⟨[1], fun _ => ⟨kComponent_SoC, ⟨5, "soc", "", 0⟩⟩⟩ ⟨fun _ => none⟩
      ⟨⟨fun _ => some ⟨10⟩, fun _ => .fresh, [], []⟩, fun _ => 0, Ledger.start ∅ fun _ => 0⟩ =
        .ok (none, p) := by
  intro dep
  refine (serves_iff dep _ _ rfl _ ∅ (fun _ => 0) rfl).mpr ⟨1, rfl, .inr rfl, ⟨⟨10⟩, rfl, by decide⟩,
    List.cons_ne_nil _ _, ⟨_, rfl⟩, ⟨fun _ => { zeroed with qpNum := 7 }, fun _ => by rfl, ?_⟩,
    fun dpa => absurd dpa (by decide)⟩
  exact ⟨by decide, fun _ => List.mem_singleton.mpr rfl, ⟨rfl, fun _ => ⟨rfl, rfl, rfl, rfl, rfl⟩⟩,
    fun dpa => absurd dpa (by decide)⟩

end

end Nicc.Pipeline

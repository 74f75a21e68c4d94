import Nicc.Ctrl.Retval

namespace Nicc.Ctrl
open Lib Pipeline

structure Router extends ComponentRouting where
  defaultChannel : Option Nat

namespace Router

def new : Router := ⟨⟨fun _ => none, fun _ => none⟩, none⟩

def registerLocalChannel (router : Router) (channelName : String) (channel : Option Nat) :
    Except String Router :=
  match channel with
  | none => .error "SHUTDOWN BY NICC ERROR"
  | some channel =>
      let localChannels := Function.update router.localChannels channelName (some channel)
      .ok { router with localChannels }

def setDefaultChannel (router : Router) (channel : Option Nat) : Router :=
  { router with defaultChannel := channel }

def lookupChannel (router : Router) (kernelRetval : UInt8) : Option Nat :=
  match router.retvalToChannelMap kernelRetval with
  | some channel => some channel
  | none => router.defaultChannel

end Router

structure RoutedBlock where
  blockName : String
  componentId : Nat
  channel : Option Nat
  routing : Bool

/-- Only the blocks on the SoC answer `get_component_routing` with a router. -/
def RoutedBlock.routed (block : RoutedBlock) : Bool :=
  decide (block.componentId = kComponent_SoC) && block.routing

structure ControlPlane where
  routers : Nat → Router
  componentRouters : String → Option Nat

namespace ControlPlane

def start : ControlPlane := ⟨fun _ => .new, fun _ => none⟩

def registerLocalChannels (block : RoutedBlock) (router : Router) : Except String Router := do
  let router ← router.registerLocalChannel "default" block.channel
  .ok (router.setDefaultChannel block.channel)

def initRouter (dag : AppDag) (block : RoutedBlock) (router : Router) : Except String Router := do
  let router ←
    if block.componentId = kComponent_SoC then registerLocalChannels block router else .ok router
  let (_, routing) ←
    DatapathPipeline.initRetvalMappings router.toComponentRouting (dag.componentsMap block.blockName)
  .ok { router with toComponentRouting := routing }

/-- One block. Blocks are numbered, so that one which stands in the list twice has one router. -/
def initBlock (dag : AppDag) (blockAt : Nat → RoutedBlock) (plane : ControlPlane) (i : Nat) :
    Except String ControlPlane :=
  if (blockAt i).routed then do
    let router ← initRouter dag (blockAt i) (plane.routers i)
    .ok ⟨Function.update plane.routers i router,
      Function.update plane.componentRouters (blockAt i).blockName (some i)⟩
  else .ok plane

def Tame (router : Router) (channel : Nat) : Prop :=
  ∀ retval other, router.retvalToChannelMap retval = some other → other = channel

theorem initRetvalMappings_tame (routing : ComponentRouting) {channel : Nat}
    (component : Option DAGComponent) (own : routing.localChannels "default" = some channel)
    (tame : ∀ retval other, routing.retvalToChannelMap retval = some other → other = channel) :
    ∃ next, DatapathPipeline.initRetvalMappings routing component = .ok (.NICC_SUCCESS, next) ∧
      ∀ retval other, next.retvalToChannelMap retval = some other → other = channel := by
  cases component with
  | none => exact ⟨routing, rfl, tame⟩
  | some component =>
      obtain ⟨next, mapped, -, maps⟩ := run_mapEntry component.ctrlEntries own
      refine ⟨next, by rw [DatapathPipeline.initRetvalMappings, mapped]; rfl,
        fun retval other there => ?_⟩
      by_cases installed : ∃ entry ∈ component.ctrlEntries, Installs entry.matchStr retval
      · exact (Option.some.inj (((maps retval).1 installed).symm.trans there)).symm
      · rw [(maps retval).2 fun entry member is => installed ⟨entry, member, is⟩] at there
        exact tame retval other there

theorem initRouter_home (dag : AppDag) {block : RoutedBlock} {router : Router} {channel : Nat}
    (soc : block.componentId = kComponent_SoC) (has : block.channel = some channel)
    (tame : Tame router channel) :
    ∃ next, initRouter dag block router = .ok next ∧ Tame next channel ∧
      next.defaultChannel = some channel := by
  let registered : Router :=
    ⟨⟨router.retvalToChannelMap, Function.update router.localChannels "default" (some channel)⟩,
      some channel⟩
  have local' : registerLocalChannels block router = .ok registered := by
    rw [registerLocalChannels, has]
    rfl
  obtain ⟨routing, mapped, tameNext⟩ :=
    initRetvalMappings_tame registered.toComponentRouting (dag.componentsMap block.blockName)
      (by simp [registered]) tame
  refine ⟨⟨routing, some channel⟩, ?_, tameNext, rfl⟩
  rw [initRouter, if_pos soc, local', ok_bind]
  dsimp only
  rw [mapped, ok_bind]

theorem initRouter_missing {dag : AppDag} {block : RoutedBlock} (router : Router)
    (soc : block.componentId = kComponent_SoC) (missing : block.channel = none) :
    initRouter dag block router = .error "SHUTDOWN BY NICC ERROR" := by
  rw [initRouter, if_pos soc, registerLocalChannels, missing]
  rfl

theorem lookup_home {router : Router} {channel : Nat} (tame : Tame router channel)
    (home : router.defaultChannel = some channel) (kernelRetval : UInt8) :
    router.lookupChannel kernelRetval = some channel := by
  rw [Router.lookupChannel]
  cases mapped : router.retvalToChannelMap kernelRetval with
  | none => exact home
  | some other => exact congrArg some (tame kernelRetval other mapped)

theorem routed_soc {block : RoutedBlock} (routed : block.routed = true) :
    block.componentId = kComponent_SoC := by
  rw [RoutedBlock.routed, Bool.and_eq_true] at routed
  exact of_decide_eq_true routed.1

structure SetUp (blockAt : Nat → RoutedBlock) (done : List Nat) (plane : ControlPlane) : Prop where
  tame : ∀ i channel, (blockAt i).channel = some channel → Tame (plane.routers i) channel
  home : ∀ i ∈ done, (blockAt i).routed = true →
    (plane.routers i).defaultChannel = (blockAt i).channel ∧ (blockAt i).channel ≠ none
  names : ∀ name, plane.componentRouters name =
    (done.filter fun i => (blockAt i).routed && decide ((blockAt i).blockName = name)).getLast?

theorem start_setUp (blockAt : Nat → RoutedBlock) : SetUp blockAt [] start where
  tame _ _ _ _ _ mapped := by cases mapped
  home _ member := absurd member List.not_mem_nil
  names _ := rfl

theorem initBlock_setUp {dag : AppDag} {blockAt : Nat → RoutedBlock} {done : List Nat}
    {plane next : ControlPlane} {i : Nat} (setUp : SetUp blockAt done plane)
    (stepped : initBlock dag blockAt plane i = .ok next) : SetUp blockAt (done ++ [i]) next := by
  rw [initBlock] at stepped
  split_ifs at stepped with routed
  · have soc := routed_soc routed
    cases has : (blockAt i).channel with
    | none =>
        rw [initRouter_missing _ soc has] at stepped
        cases stepped
    | some channel =>
        obtain ⟨router, ok, tame, home⟩ :=
          initRouter_home dag soc has (setUp.tame i channel has)
        rw [ok] at stepped
        cases stepped
        refine ⟨fun j other hasOther => ?_, fun j member routedJ => ?_, fun name => ?_⟩ <;> dsimp only
        · by_cases same : j = i
          · subst same
            obtain rfl := Option.some.inj (has.symm.trans hasOther)
            rwa [Function.update_self]
          · rw [Function.update_of_ne same]
            exact setUp.tame j other hasOther
        · by_cases same : j = i
          · subst same
            rw [Function.update_self, has]
            exact ⟨home, nofun⟩
          · rw [Function.update_of_ne same]
            have before : j ∈ done := by simpa [same] using member
            exact setUp.home j before routedJ
        · rw [List.filter_append]
          by_cases same : name = (blockAt i).blockName
          · subst same
            simp [routed]
          · have turned : ¬ (blockAt i).blockName = name := fun equal => same equal.symm
            simp [Function.update_of_ne same, turned, setUp.names name]
  · cases stepped
    refine ⟨setUp.tame, fun j member routedJ => ?_, fun name => ?_⟩
    · have other : j ≠ i := by
        rintro rfl
        exact routed routedJ
      exact setUp.home j (by simpa [other] using member) routedJ
    · rw [List.filter_append, setUp.names name]
      simp [routed]

theorem initBlock_ok (dag : AppDag) {blockAt : Nat → RoutedBlock} {plane : ControlPlane} (i : Nat)
    (tame : ∀ i channel, (blockAt i).channel = some channel → Tame (plane.routers i) channel) :
    (∃ next, initBlock dag blockAt plane i = .ok next) ↔
      ((blockAt i).routed = true → (blockAt i).channel ≠ none) := by
  rw [initBlock]
  split_ifs with routed
  · cases has : (blockAt i).channel with
    | none =>
        rw [initRouter_missing _ (routed_soc routed) has]
        refine iff_of_false ?_ fun complete => complete routed rfl
        rintro ⟨next, ok⟩
        cases ok
    | some channel =>
        obtain ⟨router, ok, -, -⟩ :=
          initRouter_home dag (routed_soc routed) has (tame i channel has)
        rw [ok]
        exact iff_of_true ⟨_, rfl⟩ fun _ => nofun
  · exact iff_of_true ⟨plane, rfl⟩ fun is => absurd is routed

theorem run_setUp (dag : AppDag) {blockAt : Nat → RoutedBlock} {done : List Nat} (rest : List Nat)
    {plane : ControlPlane} (setUp : SetUp blockAt done plane) :
    ((∃ after, run (initBlock dag blockAt) plane rest = .ok after) ↔
      ∀ i ∈ rest, (blockAt i).routed = true → (blockAt i).channel ≠ none) ∧
    ∀ after, run (initBlock dag blockAt) plane rest = .ok after →
      SetUp blockAt (done ++ rest) after := by
  induction rest generalizing done plane with
  | nil =>
      refine ⟨iff_of_true ⟨plane, rfl⟩ fun i member => absurd member List.not_mem_nil, ?_⟩
      intro after ran
      cases ran
      rwa [List.append_nil]
  | cons i rest ih =>
      have first := initBlock_ok dag i setUp.tame
      constructor
      · constructor
        · rintro ⟨after, ran⟩ j member
          obtain ⟨next, one, more⟩ := run_cons_ok.mp ran
          rcases List.mem_cons.mp member with rfl | later
          · exact first.mp ⟨next, one⟩
          · exact (ih (initBlock_setUp setUp one)).1.mp ⟨after, more⟩ j later
        · intro complete
          obtain ⟨next, one⟩ := first.mpr (complete i List.mem_cons_self)
          obtain ⟨after, more⟩ := (ih (initBlock_setUp setUp one)).1.mpr
            fun j later => complete j (List.mem_cons_of_mem _ later)
          exact ⟨after, run_cons_ok.mpr ⟨next, one, more⟩⟩
      · intro after ran
        obtain ⟨next, one, more⟩ := run_cons_ok.mp ran
        have whole := (ih (initBlock_setUp setUp one)).2 after more
        rwa [List.append_assoc] at whole

/-- The routers are set up unless a block with a router has no channel. Then every return value of a
kernel leads to the channel of its own block, whatever the entries of the DAG say, and a name stands
for the last block that has it. -/
theorem routes_home (dag : AppDag) (blockAt : Nat → RoutedBlock) (blocks : List Nat) :
    ((∃ plane, run (initBlock dag blockAt) start blocks = .ok plane) ↔
      ∀ i ∈ blocks, (blockAt i).routed = true → (blockAt i).channel ≠ none) ∧
    ∀ plane, run (initBlock dag blockAt) start blocks = .ok plane →
      (∀ i ∈ blocks, (blockAt i).routed = true → ∀ kernelRetval,
        (plane.routers i).lookupChannel kernelRetval = (blockAt i).channel) ∧
      ∀ name, plane.componentRouters name = (blocks.filter fun i =>
        (blockAt i).routed && decide ((blockAt i).blockName = name)).getLast? := by
  obtain ⟨succeeds, setUp⟩ := run_setUp dag blocks (start_setUp blockAt)
  refine ⟨succeeds, fun plane ran => ?_⟩
  have whole := setUp plane ran
  rw [List.nil_append] at whole
  refine ⟨fun i member routed kernelRetval => ?_, whole.names⟩
  obtain ⟨home, present⟩ := whole.home i member routed
  obtain ⟨channel, has⟩ := Option.ne_none_iff_exists'.mp present
  rw [has] at home ⊢
  exact lookup_home (whole.tame i channel has) home kernelRetval

end ControlPlane

end Nicc.Ctrl

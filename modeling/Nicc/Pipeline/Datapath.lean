import Nicc.Pipeline.ResourcePool
import Nicc.Lib.OrderedMap
import Mathlib.Data.Nat.Basic

/-!
# Setting up a datapath pipeline

The constructor of `DatapathPipeline` with the three steps that handle component blocks. What the
pool and the blocks do is a parameter, so that the control flow can be read for any of their
answers.
-/

namespace Nicc.Pipeline
open Lib

structure AppFunction where
  componentId : Nat
  cbDesp : Desp

structure AppContext where
  functions : List Nat
  function : Nat → AppFunction

structure Env (W : Type) where
  allocate : W → Nat → Desp → Nat → Except String (Retval × W)
  deallocate : W → Nat → Nat → Except String (Retval × W)
  init : W → Nat → Except String (Retval × W)
  registerAppFunction : W → Nat → Nat → Except String (Retval × W)
  unregisterAppFunction : W → Nat → Except String (Retval × W)

structure DatapathPipeline (W : Type) where
  world : W
  componentApp2blockMap : List (Nat × Nat)
  componentBlocks : List Nat
  newBlocks : Nat

namespace DatapathPipeline

variable {W : Type}

def start (world : W) : DatapathPipeline W := ⟨world, [], [], 0⟩

def enter (p : DatapathPipeline W) (appFunc componentBlock : Nat) : DatapathPipeline W :=
  { p with
    componentApp2blockMap := mapInsert p.componentApp2blockMap appFunc componentBlock
    componentBlocks := p.componentBlocks ++ [componentBlock] }

def knownComponent (cid : Nat) : Prop :=
  cid = kComponent_DPA ∨ cid = kComponent_FlowEngine ∨ cid = kComponent_SoC

instance (cid : Nat) : Decidable (knownComponent cid) :=
  inferInstanceAs (Decidable (_ ∨ _ ∨ _))

/-- The loop over the functions. The answer of the last step is what it ends with. -/
def allocateLoop (env : Env W) (cxt : AppContext) : List Nat → Retval → DatapathPipeline W →
    Except String (Retval × DatapathPipeline W)
  | [], retval, p => .ok (retval, p)
  | appFunc :: rest, _, p => do
      let cid := (cxt.function appFunc).componentId
      assertThat (knownComponent cid) "SHUTDOWN BY NICC ERROR"
      let componentBlock := p.newBlocks
      let (retval, world) ←
        env.allocate p.world cid (cxt.function appFunc).cbDesp componentBlock
      let p := { p with world := world, newBlocks := p.newBlocks + 1 }
      if retval ≠ .NICC_SUCCESS then return (retval, p)
      let p := p.enter appFunc componentBlock
      if cid = kComponent_FlowEngine then
        -- A failure is not looked at before the next allocation has replaced it.
        let (retval, world) ← env.init p.world componentBlock
        allocateLoop env cxt rest retval { p with world := world }
      else allocateLoop env cxt rest retval p

def deallocateLoop (env : Env W) (cxt : AppContext) : List (Nat × Nat) → Retval → W →
    Except String (Retval × W)
  | [], retval, world => .ok (retval, world)
  | (appFunc, componentBlock) :: rest, _, world => do
      let (retval, world) ←
        env.deallocate world (cxt.function appFunc).componentId componentBlock
      deallocateLoop env cxt rest retval world

def allocateComponentBlocks (env : Env W) (cxt : AppContext) (p : DatapathPipeline W) :
    Except String (Retval × DatapathPipeline W) := do
  let (retval, p) ← allocateLoop env cxt cxt.functions .NICC_SUCCESS p
  if retval ≠ .NICC_SUCCESS then
    let (retval, world) ← deallocateLoop env cxt p.componentApp2blockMap retval p.world
    return (retval, { p with world := world })
  return (retval, p)

def deallocateComponentBlocks (env : Env W) (cxt : AppContext) (p : DatapathPipeline W) :
    Except String (Retval × DatapathPipeline W) := do
  let (retval, world) ← deallocateLoop env cxt p.componentApp2blockMap .NICC_SUCCESS p.world
  return (retval, { p with world := world })

def registerLoop (env : Env W) : List (Nat × Nat) → Retval → List (Nat × Nat) → W →
    Except String (Retval × List (Nat × Nat) × W)
  | [], retval, pairs, world => .ok (retval, pairs, world)
  | (appFunc, componentBlock) :: rest, _, pairs, world => do
      let (retval, world) ← env.registerAppFunction world componentBlock appFunc
      if retval ≠ .NICC_SUCCESS then return (retval, pairs, world)
      registerLoop env rest retval (mapInsert pairs appFunc componentBlock) world

def unregisterLoop (env : Env W) : List (Nat × Nat) → Retval → W → Except String (Retval × W)
  | [], retval, world => .ok (retval, world)
  | (_, componentBlock) :: rest, _, world => do
      let (retval, world) ← env.unregisterAppFunction world componentBlock
      unregisterLoop env rest retval world

def registerFunctions (env : Env W) (p : DatapathPipeline W) :
    Except String (Retval × DatapathPipeline W) := do
  let (retval, pairs, world) ← registerLoop env p.componentApp2blockMap .NICC_SUCCESS [] p.world
  if retval ≠ .NICC_SUCCESS then
    let (retval, world) ← unregisterLoop env pairs retval world
    return (retval, { p with world := world })
  return (retval, { p with world := world })

inductive Stage
  | routing
  | allocation
  | registration
  | controlPlane
  | running
  deriving DecidableEq

/-- The constructor, with what the routing and the control plane answer. It tells the last step that
it has reached. What `__run_pipeline` answers only shows in the log. -/
def construct (env : Env W) (cxt : AppContext) (loadFromAppDag : Retval)
    (initControlPlane : DatapathPipeline W → Retval) (world : W) :
    Except String (Stage × DatapathPipeline W) := do
  let p := start world
  assertThat (loadFromAppDag = .NICC_SUCCESS) "SHUTDOWN BY NICC ERROR"
  let (retval, p) ← allocateComponentBlocks env cxt p
  if retval ≠ .NICC_SUCCESS then return (.allocation, p)
  let (retval, p) ← registerFunctions env p
  if retval ≠ .NICC_SUCCESS then
    let (_, p) ← deallocateComponentBlocks env cxt p
    return (.registration, p)
  let retval := initControlPlane p
  if retval ≠ .NICC_SUCCESS then
    let (_, p) ← deallocateComponentBlocks env cxt p
    return (.controlPlane, p)
  return (.running, p)

end DatapathPipeline

end Nicc.Pipeline

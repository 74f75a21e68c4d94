import Nicc.Common
import Mathlib.Logic.Function.Basic

namespace Nicc.Pipeline
open Lib

def kComponent_FlowEngine : Nat := 0x01
def kComponent_DPA : Nat := 0x02
def kComponent_SoC : Nat := 0x04

structure Desp where
  quota : UInt64
  blockName : String
  deviceName : String
  phyPort : UInt8

structure ComponentBlock where
  quota : UInt64
  blockName : String
  deviceName : String
  phyPort : UInt8
  coreId : UInt8
  stateQuota : UInt64

def ComponentBlock.fresh : ComponentBlock := ⟨0, "", "", 0, 0, 0⟩

structure Component where
  quota : UInt64

namespace Component

-- The three components differ in what they copy into the block behind the common fields.
def allocateBlock (specific : Desp → ComponentBlock → ComponentBlock) (c : Component) (desp : Desp)
    (cb : ComponentBlock) : Retval × Component × ComponentBlock :=
  if c.quota < desp.quota then (.NICC_ERROR_EXSAUSTED, c, cb)
  else
    (.NICC_SUCCESS, { c with quota := c.quota - desp.quota },
      specific desp { cb with quota := desp.quota, blockName := desp.blockName })

def deallocateBlock (c : Component) (cb : ComponentBlock) : Retval × Component :=
  (.NICC_SUCCESS, { c with quota := c.quota + cb.quota })

def allocateBlockFlowEngine : Component → Desp → ComponentBlock →
    Retval × Component × ComponentBlock :=
  allocateBlock fun _ cb => { cb with stateQuota := 0 }

def allocateBlockDPA : Component → Desp → ComponentBlock → Retval × Component × ComponentBlock :=
  allocateBlock fun desp cb => { cb with
    deviceName := desp.deviceName, phyPort := desp.phyPort, coreId := 0, stateQuota := desp.quota }

def allocateBlockSoC : Component → Desp → ComponentBlock → Retval × Component × ComponentBlock :=
  allocateBlock fun desp cb => { cb with
    deviceName := desp.deviceName, phyPort := desp.phyPort, stateQuota := 0 }

end Component

/-- Blocks are heap objects, named by their address. `granted` and `released` record the blocks
that `allocate` has granted and those that have been passed to `deallocate`. -/
structure Pool where
  componentMap : Nat → Option Component
  blocks : Nat → ComponentBlock
  granted : List Nat
  released : List Nat

namespace Pool

def virtualAllocateBlock (cid : Nat) : Component → Desp → ComponentBlock →
    Retval × Component × ComponentBlock :=
  if cid = kComponent_FlowEngine then Component.allocateBlockFlowEngine
  else if cid = kComponent_DPA then Component.allocateBlockDPA
  else Component.allocateBlockSoC

def allocate (p : Pool) (cid : Nat) (desp : Desp) (cb : Nat) : Except String (Retval × Pool) :=
  match p.componentMap cid with
  -- The missing component is reported and then dereferenced.
  | none => .error "component != nullptr"
  | some component =>
      let (retval, component, block) := virtualAllocateBlock cid component desp (p.blocks cb)
      .ok (retval, { p with
        componentMap := Function.update p.componentMap cid (some component)
        blocks := Function.update p.blocks cb block
        granted := if retval = .NICC_SUCCESS then p.granted ++ [cb] else p.granted })

def deallocate (p : Pool) (cid : Nat) (cb : Nat) : Except String (Retval × Pool) :=
  match p.componentMap cid with
  | none => .error "component != nullptr"
  | some component =>
      let (retval, component) := component.deallocateBlock (p.blocks cb)
      .ok (retval, { p with
        componentMap := Function.update p.componentMap cid (some component)
        released := p.released ++ [cb] })

def remaining (p : Pool) (cid : Nat) : Option Nat := (p.componentMap cid).map (·.quota.toNat)

end Pool

end Nicc.Pipeline

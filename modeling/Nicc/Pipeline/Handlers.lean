import Nicc.Common
import Nicc.Lib.CountedLoop

namespace Nicc.Pipeline
open Lib

structure AppHandler where
  address : Nat
  tid : UInt8
  deriving DecidableEq, Repr

def lastHandler (tid : UInt8) (handlers : List AppHandler) (old : Option AppHandler) :
    Option AppHandler :=
  ((handlers.filter fun handler => handler.tid = tid).getLast?).or old

theorem lastHandler_cons (tid : UInt8) (handler : AppHandler) (handlers : List AppHandler)
    (old : Option AppHandler) : lastHandler tid (handler :: handlers) old =
      lastHandler tid handlers (if handler.tid = tid then some handler else old) := by
  by_cases same : handler.tid = tid
  · cases rest : handlers.filter fun handler => handler.tid = tid with
    | nil => simp [lastHandler, same, rest]
    | cons next later => simp [lastHandler, same, rest, List.getLast?_cons]
  · simp [lastHandler, same]

namespace ComponentBlockDPA

def Init : UInt8 := 0
def Event : UInt8 := 1

end ComponentBlockDPA

structure ComponentBlockDPA where
  initHandler : Option AppHandler
  eventHandler : Option AppHandler
  deriving DecidableEq, Repr

structure DpaEnv where
  ibvCtx : Bool
  registerEventHandler : AppHandler → Retval
  allocateWrapperResources : Retval
  initWrapperResources : AppHandler → Retval

namespace ComponentBlockDPA

def visit (block : ComponentBlockDPA) : Option AppHandler → Except String ComponentBlockDPA
  | none => .error "app_handler = app_func->handlers[i]"
  | some handler =>
      if handler.tid = Init then .ok { block with initHandler := some handler }
      else if handler.tid = Event then .ok { block with eventHandler := some handler }
      else .error "SHUTDOWN BY NICC ERROR"

/-- `uint8_t i` -/
def registerHandlers (handlers : List (Option AppHandler)) (fuel : Nat) (block : ComponentBlockDPA) :
    Option (Except String (ComponentBlockDPA × List Nat)) :=
  countedLoop visit handlers fuel (0 : BitVec 8) block []

def finish (env : DpaEnv) (block : ComponentBlockDPA) : Retval :=
  match block.initHandler, block.eventHandler with
  | none, _ => .NICC_ERROR_NOT_FOUND
  | some _, none => .NICC_ERROR_NOT_FOUND
  | some init, some event =>
      if env.registerEventHandler event ≠ .NICC_SUCCESS then env.registerEventHandler event
      else if env.allocateWrapperResources ≠ .NICC_SUCCESS then env.allocateWrapperResources
      else env.initWrapperResources init

def registerAppFunction (env : DpaEnv) (handlers : List (Option AppHandler)) (fuel : Nat)
    (block : ComponentBlockDPA) : Option (Except String (Retval × ComponentBlockDPA)) :=
  if env.ibvCtx = false then some (.error "func_state->ibv_ctx = device_state.ibv_ctx")
  else if handlers.length = 0 then some (.ok (.NICC_SUCCESS, block))
  else (registerHandlers handlers fuel block).map fun ended => do
    let (block, _) ← ended
    .ok (finish env block, block)

end ComponentBlockDPA

structure ComponentBlockSoC where
  initHandler : Option AppHandler
  pktHandler : Option AppHandler
  msgHandler : Option AppHandler
  cleanupHandler : Option AppHandler
  deriving DecidableEq, Repr

namespace ComponentBlockSoC

def Init : UInt8 := 0
def PktHandler : UInt8 := 1
def MsgHandler : UInt8 := 2
def Cleanup : UInt8 := 3

def visit (block : ComponentBlockSoC) : Option AppHandler → Except String ComponentBlockSoC
  | none => .error "app_handler = app_func->handlers[i]"
  | some handler =>
      if handler.tid = Init then .ok { block with initHandler := some handler }
      else if handler.tid = PktHandler then .ok { block with pktHandler := some handler }
      else if handler.tid = MsgHandler then .ok { block with msgHandler := some handler }
      else if handler.tid = Cleanup then .ok { block with cleanupHandler := some handler }
      else .error "SHUTDOWN BY NICC ERROR"

/-- `uint64_t i` -/
def registerHandlers (handlers : List (Option AppHandler)) (fuel : Nat) (block : ComponentBlockSoC) :
    Option (Except String (ComponentBlockSoC × List Nat)) :=
  countedLoop visit handlers fuel (0 : BitVec 64) block []

end ComponentBlockSoC

namespace ComponentBlockSoC

def Known (handler : AppHandler) : Prop :=
  handler.tid = Init ∨ handler.tid = PktHandler ∨ handler.tid = MsgHandler ∨ handler.tid = Cleanup

theorem visit_known {handler : AppHandler} (known : Known handler) (block : ComponentBlockSoC) :
    block.visit (some handler) = .ok
      ⟨if handler.tid = Init then some handler else block.initHandler,
        if handler.tid = PktHandler then some handler else block.pktHandler,
        if handler.tid = MsgHandler then some handler else block.msgHandler,
        if handler.tid = Cleanup then some handler else block.cleanupHandler⟩ := by
  rcases known with init | pkt | msg | cleanup
  · simp [visit, init, Init, PktHandler, MsgHandler, Cleanup]
  · simp [visit, pkt, Init, PktHandler, MsgHandler, Cleanup]
  · simp [visit, msg, Init, PktHandler, MsgHandler, Cleanup]
  · simp [visit, cleanup, Init, PktHandler, MsgHandler, Cleanup]

theorem run_visit {handlers : List AppHandler} (known : ∀ handler ∈ handlers, Known handler)
    (block : ComponentBlockSoC) : run visit block (handlers.map some) = .ok
      ⟨lastHandler Init handlers block.initHandler,
        lastHandler PktHandler handlers block.pktHandler,
        lastHandler MsgHandler handlers block.msgHandler,
        lastHandler Cleanup handlers block.cleanupHandler⟩ := by
  induction handlers generalizing block with
  | nil => rfl
  | cons handler handlers ih =>
      simp only [lastHandler_cons, List.map_cons]
      apply run_cons_ok.mpr
      exact ⟨_, visit_known (known handler List.mem_cons_self) block,
        ih (fun other member => known other (List.mem_cons_of_mem _ member)) _⟩

def Visits (handlers : List AppHandler) (block : ComponentBlockSoC) : Prop :=
  registerHandlers (handlers.map some) (handlers.length + 1) block = some (.ok
    (⟨lastHandler Init handlers block.initHandler, lastHandler PktHandler handlers block.pktHandler,
      lastHandler MsgHandler handlers block.msgHandler,
      lastHandler Cleanup handlers block.cleanupHandler⟩, List.range handlers.length))

theorem registerHandlers_ends {handlers : List AppHandler}
    (known : ∀ handler ∈ handlers, Known handler) (size : handlers.length < 2 ^ 64)
    (block : ComponentBlockSoC) : Visits handlers block := by
  have ended := countedLoop_ends (w := 64) (by rwa [List.length_map]) (run_visit known block)
  rw [List.length_map] at ended
  exact ended

end ComponentBlockSoC

namespace ComponentBlockDPA

/-- Every handler is visited once, the last of each kind stays, and the call returns. -/
structure Registers (handlers : List AppHandler) (block : ComponentBlockDPA) : Prop where
  visits : ∃ fuel, registerHandlers (handlers.map some) fuel block = some (.ok
    (⟨lastHandler Init handlers block.initHandler, lastHandler Event handlers block.eventHandler⟩,
      List.range handlers.length))
  returns : ∀ env, ∃ fuel result, registerAppFunction env (handlers.map some) fuel block =
    some result

theorem visit_known {handler : AppHandler} (known : handler.tid = Init ∨ handler.tid = Event)
    (block : ComponentBlockDPA) : block.visit (some handler) = .ok
      ⟨if handler.tid = Init then some handler else block.initHandler,
        if handler.tid = Event then some handler else block.eventHandler⟩ := by
  rcases known with init | event
  · simp [visit, init, Init, Event]
  · simp [visit, event, Init, Event]

theorem run_visit {handlers : List AppHandler}
    (known : ∀ handler ∈ handlers, handler.tid = Init ∨ handler.tid = Event)
    (block : ComponentBlockDPA) : run visit block (handlers.map some) = .ok
      ⟨lastHandler Init handlers block.initHandler,
        lastHandler Event handlers block.eventHandler⟩ := by
  induction handlers generalizing block with
  | nil => rfl
  | cons handler handlers ih =>
      rw [lastHandler_cons, lastHandler_cons, List.map_cons]
      apply run_cons_ok.mpr
      exact ⟨_, visit_known (known handler List.mem_cons_self) block,
        ih (fun other member => known other (List.mem_cons_of_mem _ member)) _⟩

theorem registerHandlers_forever {handlers : List AppHandler}
    (known : ∀ handler ∈ handlers, handler.tid = Init ∨ handler.tid = Event)
    (large : 256 ≤ handlers.length) (fuel : Nat) (block : ComponentBlockDPA) :
    registerHandlers (handlers.map some) fuel block = none := by
  apply countedLoop_forever
  · rw [List.length_map]
    exact large
  · intro block item member
    obtain ⟨handler, present, rfl⟩ := List.mem_map.mp member
    exact ⟨_, visit_known (known handler present) block⟩

/-- The loop of the SoC ends for every list that a vector can hold. -/
theorem registers_iff {handlers : List AppHandler}
    (known : ∀ handler ∈ handlers, handler.tid = Init ∨ handler.tid = Event)
    (block : ComponentBlockDPA) : (Registers handlers block ↔ handlers.length < 256) ∧
      ∀ (others : List AppHandler) (soc : ComponentBlockSoC),
        (∀ handler ∈ others, ComponentBlockSoC.Known handler) → others.length < 2 ^ 64 →
          ComponentBlockSoC.Visits others soc := by
  refine ⟨⟨fun registers => ?_, fun small => ?_⟩, fun others soc each size =>
    ComponentBlockSoC.registerHandlers_ends each size soc⟩
  · by_contra large
    obtain ⟨fuel, ended⟩ := registers.visits
    rw [registerHandlers_forever known (Nat.le_of_not_lt large)] at ended
    cases ended
  · have ended := countedLoop_ends (w := 8) (by rwa [List.length_map]) (run_visit known block)
    rw [List.length_map] at ended
    refine ⟨⟨_, ended⟩, fun env => ⟨handlers.length + 1, ?_⟩⟩
    rw [registerAppFunction]
    split_ifs
    · exact ⟨_, rfl⟩
    · exact ⟨_, rfl⟩
    · rw [registerHandlers, ended]
      exact ⟨_, rfl⟩

theorem registers_two :
    (Registers [⟨1, Init⟩, ⟨2, Event⟩] ⟨none, none⟩ ↔
      [AppHandler.mk 1 Init, AppHandler.mk 2 Event].length < 256) ∧
    ComponentBlockSoC.Visits (List.replicate 256 ⟨1, ComponentBlockSoC.Init⟩)
      ⟨none, none, none, none⟩ := by
  have known : ∀ handler ∈ [AppHandler.mk 1 Init, ⟨2, Event⟩],
      handler.tid = Init ∨ handler.tid = Event := by simp
  obtain ⟨dpa, soc⟩ := registers_iff known ⟨none, none⟩
  refine ⟨dpa, soc _ _ (fun handler member => ?_) (by rw [List.length_replicate]; decide)⟩
  rw [List.eq_of_mem_replicate member]
  exact .inl rfl

theorem full_counter_not_registers :
    ¬ Registers (List.replicate 256 ⟨1, Init⟩) ⟨none, none⟩ := by
  intro registers
  obtain ⟨fuel, ended⟩ := registers.visits
  rw [registerHandlers_forever] at ended
  · cases ended
  · intro handler member
    rw [List.eq_of_mem_replicate member]
    exact .inl rfl
  · rw [List.length_replicate]

end ComponentBlockDPA

end Nicc.Pipeline

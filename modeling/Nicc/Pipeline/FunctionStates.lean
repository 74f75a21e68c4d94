import Nicc.Lib.Ledger
import Nicc.Pipeline.Handlers
import Nicc.Pipeline.ResourcePool

namespace Nicc.Pipeline
open Lib

inductive Member
  | flexioProcess
  | eventHandler
  | stream
  | channel
  | routing
  -- Of the flow engine. A block for the DPA or the SoC has one from its constructor on.
  | functionState
  deriving DecidableEq, Repr

abbrev FuncStates : Type := Ledger (Nat × Member) Member

structure BlockAnswers where
  versionSet : Bool
  processCreate : Bool
  /-- A creation that fails leaves a null pointer, or what was there. -/
  clears : Bool
  getUar : Bool
  getPd : Bool
  eventHandlerCreate : Bool
  /-- Nothing looks at it. -/
  msgStreamCreate : Bool
  destroyUnfinished : Bool
  allocateChannel : Except String Retval
  processCall : Bool
  deallocateChannel : Retval
  processDestroy : Bool

namespace BlockAnswers

def creates (a : BlockAnswers) : Bool := a.versionSet && a.processCreate

def starts (a : BlockAnswers) : Bool :=
  a.creates && (a.getUar && a.getPd && a.eventHandlerCreate)

end BlockAnswers

structure Devices where
  ibvCtx : Bool
  fdbDomain : Bool
  kernel : AppHandler → Bool
  hostStub : AppHandler → Bool
  answers : Nat → BlockAnswers
  address : Member → Finset (Member × Nat) → Nat
  fresh : ∀ member live, address member live ≠ 0 ∧ (member, address member live) ∉ live

/-- `if(NICC_SUCCESS != (retval = first)) goto exit;` before what follows. -/
def proceed {σ : Type} (first : Except String (Retval × σ))
    (next : σ → Except String (Retval × σ)) : Except String (Retval × σ) := do
  let (retval, s) ← first
  if retval = .NICC_SUCCESS then next s else return (retval, s)

theorem proceed_ok {σ : Type} {first : Except String (Retval × σ)}
    {next : σ → Except String (Retval × σ)} {retval : Retval} {t : σ} :
    proceed first next = .ok (retval, t) ↔
      (∃ s, first = .ok (.NICC_SUCCESS, s) ∧ next s = .ok (retval, t)) ∨
        (first = .ok (retval, t) ∧ retval ≠ .NICC_SUCCESS) := by
  cases first with
  | error e => simp [proceed, bind, Except.bind]
  | ok result =>
      obtain ⟨answer, s⟩ := result
      by_cases success : answer = .NICC_SUCCESS
      · subst success
        simp only [proceed, ok_bind, if_true, Except.ok.injEq, Prod.mk.injEq, true_and]
        constructor
        · exact fun ran => .inl ⟨s, rfl, ran⟩
        · rintro (⟨_, rfl, ran⟩ | ⟨⟨rfl, -⟩, failed⟩)
          · exact ran
          · exact absurd rfl failed
      · simp only [proceed, ok_bind, success, if_false, pure_eq_ok, Except.ok.injEq, Prod.mk.injEq,
          false_and, exists_false, false_or]
        constructor
        · rintro ⟨rfl, rfl⟩
          exact ⟨⟨rfl, rfl⟩, success⟩
        · exact And.left

section
variable (d : Devices) (block : Nat)

def destroyProcess (granted : Bool) (s : FuncStates) : FuncStates :=
  if s.cell (block, .flexioProcess) = 0 then s
  else s.release Prod.snd (block, .flexioProcess) granted false

def makeNew (member : Member) (s : FuncStates) : FuncStates :=
  s.create Prod.snd (block, member) (d.address member s.live)

-- The process that is destroyed on the error path stays in the state of the function.
def startProcess (s : FuncStates) : Retval × FuncStates :=
  let a := d.answers block
  let exit (s : FuncStates) := (Retval.NICC_ERROR_HARDWARE_FAILURE,
    destroyProcess block a.destroyUnfinished s)
  if a.versionSet = false then exit s
  else if a.processCreate = false then
    exit (if a.clears then s.overwrite (· = (block, .flexioProcess)) (fun _ => 0) else s)
  else
    let s := makeNew d block .flexioProcess s
    if a.getUar && a.getPd && a.eventHandlerCreate then
      let s := makeNew d block .eventHandler s
      (.NICC_SUCCESS, if a.msgStreamCreate then makeNew d block .stream s else s)
    else exit s

def registerEventHandler (appHandler : AppHandler) (s : FuncStates) :
    Except String (Retval × FuncStates) := do
  assertThat (d.kernel appHandler) "app_handler->binary.dpa.kernel"
  assertThat (d.hostStub appHandler) "app_handler->binary.dpa.host_stub"
  return startProcess d block s

def allocateWrapperResourcesDPA (s : FuncStates) : Except String (Retval × FuncStates) := do
  let s := makeNew d block .channel s
  let retval ← (d.answers block).allocateChannel
  if retval = .NICC_SUCCESS then return (retval, s)
  else return (retval, s.release Prod.snd (block, .channel) true false)

def initWrapperResources (appHandler : AppHandler) (s : FuncStates) :
    Except String (Retval × FuncStates) := do
  assertThat (d.hostStub appHandler) "app_handler->binary.dpa.host_stub"
  return (hardwareCheck (d.answers block).processCall, s)

def registerDPA (handlers : List (Option AppHandler)) (s : FuncStates) :
    Except String (Retval × FuncStates) := do
  assertThat d.ibvCtx "func_state->ibv_ctx = device_state.ibv_ctx"
  if handlers = [] then return (.NICC_SUCCESS, s)
  else match ComponentBlockDPA.registerHandlers handlers (handlers.length + 1) ⟨none, none⟩ with
    -- The loop does not end.
    | none => throw "i<app_func->handlers.size()"
    | some (.error text) => throw text
    | some (.ok (⟨some init, some event⟩, _)) =>
        proceed (registerEventHandler d block event s) fun s =>
          proceed (allocateWrapperResourcesDPA d block s) (initWrapperResources d block init)
    | some (.ok _) => return (.NICC_ERROR_NOT_FOUND, s)

/-- Without handlers nothing has set the channel. -/
def unregisterDPA (s : FuncStates) : Except String (Retval × FuncStates) := do
  assertThat ((block, Member.channel) ∈ s.made) "this->_function_state->channel"
  let a := d.answers block
  if a.deallocateChannel ≠ .NICC_SUCCESS then return (a.deallocateChannel, s)
  else return (hardwareCheck (s.cell (block, .flexioProcess) = 0 ∨ a.processDestroy = true),
    destroyProcess block a.processDestroy s)

def registerSoC (handlers : List (Option AppHandler)) (s : FuncStates) :
    Except String (Retval × FuncStates) :=
  if handlers = [] then .ok (.NICC_SUCCESS, s)
  else match ComponentBlockSoC.registerHandlers handlers (handlers.length + 1)
      ⟨none, none, none, none⟩ with
    | none => throw "i<app_func->handlers.size()"
    | some (.error text) => throw text
    | some (.ok _) => do
        let s := makeNew d block .channel s
        let retval ← (d.answers block).allocateChannel
        if retval = .NICC_SUCCESS then return (retval, makeNew d block .routing s)
        else return (retval, s)

-- The ids of its handlers are those of the DPA, its counter has 64 bits.
def registerFlowEngine (handlers : List (Option AppHandler)) (s : FuncStates) :
    Except String (Retval × FuncStates) :=
  let s := makeNew d block .functionState s
  match countedLoop ComponentBlockDPA.visit handlers (handlers.length + 1) (0 : BitVec 64)
      ⟨none, none⟩ [] with
  | none => throw "i<app_func->handlers.size()"
  | some (.error text) => throw text
  | some (.ok _) => return (.NICC_SUCCESS, s)

def registerOn (componentId : Nat) (handlers : List (Option AppHandler)) (s : FuncStates) :
    Except String (Retval × FuncStates) :=
  if componentId = kComponent_DPA then registerDPA d block handlers s
  else if componentId = kComponent_SoC then registerSoC d block handlers s
  else registerFlowEngine d block handlers s

-- The SoC and the flow engine give nothing back.
def unregisterOn (componentId : Nat) (s : FuncStates) : Except String (Retval × FuncStates) :=
  if componentId = kComponent_DPA then unregisterDPA d block s else .ok (.NICC_SUCCESS, s)

end

def HasHandlers (handlers : List (Option AppHandler)) : Prop :=
  ∃ init event visited, ComponentBlockDPA.registerHandlers handlers (handlers.length + 1)
    ⟨none, none⟩ = some (.ok (⟨some init, some event⟩, visited))

/-- When a registration that returns has succeeded. -/
def Registers (a : BlockAnswers) (componentId : Nat) (handlers : List (Option AppHandler)) : Prop :=
  handlers = [] ∨ (componentId ≠ kComponent_DPA ∧ componentId ≠ kComponent_SoC) ∨
    (a.allocateChannel = .ok .NICC_SUCCESS ∧ (componentId = kComponent_DPA →
      HasHandlers handlers ∧ a.starts = true ∧ a.processCall = true))

/-- What a registration that has succeeded leaves. -/
def Taken (a : BlockAnswers) (componentId : Nat) (handlers : List (Option AppHandler)) :
    Member → Prop
  | .flexioProcess => handlers ≠ [] ∧ componentId = kComponent_DPA
  | .eventHandler => handlers ≠ [] ∧ componentId = kComponent_DPA
  | .stream => handlers ≠ [] ∧ componentId = kComponent_DPA ∧ a.msgStreamCreate = true
  | .channel => handlers ≠ [] ∧ (componentId = kComponent_DPA ∨ componentId = kComponent_SoC)
  | .routing => handlers ≠ [] ∧ componentId = kComponent_SoC
  | .functionState => componentId ≠ kComponent_DPA ∧ componentId ≠ kComponent_SoC

def Started (a : BlockAnswers) : Member → Prop
  | .flexioProcess => a.creates = true ∧ (a.starts = true ∨ a.destroyUnfinished = false)
  | .eventHandler => a.starts = true
  | .stream => a.starts = true ∧ a.msgStreamCreate = true
  | .channel | .routing | .functionState => False

/-- What a registration that has failed leaves. -/
def Stuck (a : BlockAnswers) (componentId : Nat) (handlers : List (Option AppHandler))
    (member : Member) : Prop :=
  (componentId = kComponent_SoC ∧ member = .channel) ∨
    (componentId = kComponent_DPA ∧ HasHandlers handlers ∧ (Started a member ∨
      (member = .channel ∧ a.starts = true ∧ a.allocateChannel = .ok .NICC_SUCCESS)))

/-- What is there once a function that had been registered is unregistered. -/
def Kept (a : BlockAnswers) (componentId : Nat) (handlers : List (Option AppHandler))
    (member : Member) : Prop :=
  Taken a componentId handlers member ∧ (member = .flexioProcess →
    a.deallocateChannel ≠ .NICC_SUCCESS ∨ a.processDestroy = false)

/-- Where no process is created, the member is null afterwards. -/
def Quiet (a : BlockAnswers) (member : Nat) : Prop :=
  a.creates = false → (a.versionSet = true ∧ a.clears = true) ∨ member = 0

structure Sane (base : Finset (Member × Nat)) (s : FuncStates) : Prop where
  balanced : s.Balanced Prod.snd base
  filled : ∀ slot ∈ s.made, s.cell slot ≠ 0

/-- Of the members, those of one block are changed. -/
structure Changed (base : Finset (Member × Nat)) (block : Nat) (now : Member → Prop)
    (s s' : FuncStates) : Prop where
  sane : Sane base s'
  own : ∀ member, (block, member) ∈ s'.made ↔ now member
  others : ∀ slot, slot.1 ≠ block →
    s'.cell slot = s.cell slot ∧ (slot ∈ s'.made ↔ slot ∈ s.made)

section
variable {d : Devices} {base : Finset (Member × Nat)} {block : Nat} {s s' t : FuncStates}
variable {now later : Member → Prop}

theorem Changed.refl (sane : Sane base s) (own : ∀ member, (block, member) ∈ s.made ↔ now member) :
    Changed base block now s s := ⟨sane, own, fun _ _ => ⟨rfl, Iff.rfl⟩⟩

theorem Changed.trans (first : Changed base block now s s') (second : Changed base block later s' t) :
    Changed base block later s t := by
  refine ⟨second.sane, second.own, fun slot other => ?_⟩
  obtain ⟨cell, made⟩ := first.others slot other
  obtain ⟨cell', made'⟩ := second.others slot other
  exact ⟨cell'.trans cell, made'.trans made⟩

theorem Changed.congr (changed : Changed base block now s s')
    (same : ∀ member, now member ↔ later member) : Changed base block later s s' :=
  ⟨changed.sane, fun member => (changed.own member).trans (same member), changed.others⟩

theorem makeNew_changed (member : Member) (sane : Sane base s)
    (own : ∀ other, (block, other) ∈ s.made ↔ now other) (unmade : ¬ now member) :
    Changed base block (fun other => other = member ∨ now other) s (makeNew d block member s) := by
  obtain ⟨nonzero, absent⟩ := d.fresh member s.live
  have fresh : (block, member) ∉ s.made := fun there => unmade ((own member).mp there)
  refine ⟨⟨sane.balanced.create fresh absent, fun slot there => ?_⟩, fun other => ?_,
    fun slot apart => ?_⟩
  · rcases Finset.mem_insert.mp there with rfl | old
    · exact (Function.update_self (block, member) _ s.cell).trans_ne nonzero
    · exact (Function.update_of_ne (ne_of_mem_of_not_mem old fresh) _ s.cell).trans_ne
        (sane.filled slot old)
  · rw [show (makeNew d block member s).made = insert (block, member) s.made from rfl,
      Finset.mem_insert, own, Prod.mk.injEq, and_iff_right rfl]
  · have other : slot ≠ (block, member) := fun same => apart (congrArg Prod.fst same)
    refine ⟨Function.update_of_ne other _ s.cell, ?_⟩
    rw [show (makeNew d block member s).made = insert (block, member) s.made from rfl,
      Finset.mem_insert, or_iff_right other]

theorem release_changed (sane : Sane base s) {member : Member} (granted : Bool)
    (own : ∀ other, (block, other) ∈ s.made ↔ now other) (made : now member) :
    Changed base block (fun other => now other ∧ (other ≠ member ∨ granted = false)) s
      (s.release Prod.snd (block, member) granted false) := by
  have there : (block, member) ∈ s.made := (own member).mpr made
  have cells : (s.release Prod.snd (block, member) granted false).cell = s.cell := by
    cases granted <;> rfl
  have left (slot : Nat × Member) : slot ∈ (s.release Prod.snd (block, member) granted false).made ↔
      slot ∈ s.made ∧ (slot ≠ (block, member) ∨ granted = false) := by
    cases granted <;> simp [Ledger.release, and_comm]
  refine ⟨⟨sane.balanced.release there granted false, fun slot inside => ?_⟩, fun other => ?_,
    fun slot apart => ?_⟩
  · rw [cells]
    exact sane.filled slot ((left slot).mp inside).1
  · rw [left, own]
    simp
  · have other : slot ≠ (block, member) := fun same => apart (congrArg Prod.fst same)
    rw [cells, left]
    simp [other]

theorem destroyProcess_changed (sane : Sane base s) (granted : Bool)
    (own : ∀ member, (block, member) ∈ s.made ↔ now member) (made : now .flexioProcess) :
    Changed base block (fun member => now member ∧ (member ≠ .flexioProcess ∨ granted = false)) s
      (destroyProcess block granted s) := by
  rw [destroyProcess, if_neg (sane.filled _ ((own .flexioProcess).mpr made))]
  exact release_changed sane granted own made

theorem clear_changed (sane : Sane base s) (unmade : ∀ member, (block, member) ∉ s.made) :
    Changed base block (fun _ => False) s
      (s.overwrite (· = (block, .flexioProcess)) (fun _ => 0)) := by
  have outside : ∀ slot ∈ s.made, decide (slot = (block, Member.flexioProcess)) = false :=
    fun slot there => decide_eq_false (ne_of_mem_of_not_mem there (unmade .flexioProcess))
  have made : (s.overwrite (· = (block, .flexioProcess)) (fun _ => 0)).made = s.made :=
    Finset.filter_eq_self.mpr outside
  have cells {slot : Nat × Member} (other : slot ≠ (block, .flexioProcess)) :
      (s.overwrite (· = (block, .flexioProcess)) (fun _ => 0)).cell slot = s.cell slot :=
    if_neg (by simpa using other)
  refine ⟨⟨sane.balanced.overwrite outside _, fun slot there => ?_⟩, fun member => ?_,
    fun slot apart => ⟨cells fun same => apart (congrArg Prod.fst same), by rw [made]⟩⟩
  · rw [made] at there
    rw [cells (ne_of_mem_of_not_mem there (unmade .flexioProcess))]
    exact sane.filled slot there
  · rw [made]
    exact iff_false_intro (unmade member)

theorem startProcess_changed (sane : Sane base s) (unmade : ∀ member, (block, member) ∉ s.made)
    (quiet : Quiet (d.answers block) (s.cell (block, .flexioProcess))) :
    Changed base block (Started (d.answers block)) s (startProcess d block s).2 := by
  have nothing : Changed base block (fun _ => False) s s :=
    .refl sane fun member => iff_false_intro (unmade member)
  have lacks (uncreated : (d.answers block).creates = false) (member : Member) :
      False ↔ Started (d.answers block) member := by
    cases member <;> simp [Started, BlockAnswers.starts, uncreated]
  rw [startProcess]
  cases version : (d.answers block).versionSet with
  | false =>
      have null := (quiet (by simp [BlockAnswers.creates, version])).resolve_left (by simp [version])
      simp only [if_true, destroyProcess, null]
      exact nothing.congr (lacks (by simp [BlockAnswers.creates, version]))
  | true =>
      cases create : (d.answers block).processCreate with
      | false =>
          have quiet := quiet (by simp [BlockAnswers.creates, create])
          simp only [Bool.true_eq_false, if_false, if_true]
          cases clears : (d.answers block).clears with
          | true =>
              simp only [if_true, destroyProcess, Ledger.overwrite]
              exact (clear_changed sane unmade).congr (lacks (by simp [BlockAnswers.creates, create]))
          | false =>
              have null := quiet.resolve_left (by simp [clears])
              simp only [Bool.false_eq_true, if_false, destroyProcess, null, if_true]
              exact nothing.congr (lacks (by simp [BlockAnswers.creates, create]))
      | true =>
          have created := makeNew_changed (d := d) .flexioProcess sane
            (fun member => iff_false_intro (unmade member)) id
          simp only [Bool.true_eq_false, if_false]
          have creates : (d.answers block).creates = true := by
            simp [BlockAnswers.creates, version, create]
          have eventful := created.trans (makeNew_changed (d := d) .eventHandler created.sane
            created.own (by simp))
          have starts (ready : ((d.answers block).getUar && (d.answers block).getPd &&
              (d.answers block).eventHandlerCreate) = true) : (d.answers block).starts = true := by
            rw [BlockAnswers.starts, creates, ready]
            rfl
          split_ifs with ready stream
          · refine (eventful.trans (makeNew_changed (d := d) .stream eventful.sane eventful.own
              (by simp))).congr fun member => ?_
            cases member <;> simp [Started, creates, starts ready, stream]
          · refine eventful.congr fun member => ?_
            cases member <;> simp [Started, creates, starts ready, stream]
          · have stops : (d.answers block).starts = false := by
              rw [BlockAnswers.starts, Bool.eq_false_of_not_eq_true ready, Bool.and_false]
            refine (created.trans (destroyProcess_changed created.sane _ created.own
              (.inl rfl))).congr fun member => ?_
            cases member <;> simp [Started, creates, stops]

theorem startProcess_answer : (startProcess d block s).1 =
    hardwareCheck ((d.answers block).starts = true) := by
  rw [startProcess]
  cases version : (d.answers block).versionSet with
  | false => simp [BlockAnswers.starts, BlockAnswers.creates, version, hardwareCheck]
  | true =>
      cases create : (d.answers block).processCreate with
      | false => simp [BlockAnswers.starts, BlockAnswers.creates, create, hardwareCheck]
      | true =>
          simp only [Bool.true_eq_false, if_false]
          by_cases ready : ((d.answers block).getUar && (d.answers block).getPd &&
            (d.answers block).eventHandlerCreate) = true
          · rw [if_pos ready]
            simp [BlockAnswers.starts, BlockAnswers.creates, version, create, ready, hardwareCheck]
          · rw [if_neg ready]
            simp [BlockAnswers.starts, BlockAnswers.creates, version, create, ready, hardwareCheck]

structure Registration (a : BlockAnswers) (componentId : Nat) (handlers : List (Option AppHandler))
    (base : Finset (Member × Nat)) (block : Nat) (s : FuncStates) (retval : Retval)
    (s' : FuncStates) : Prop where
  answer : retval = .NICC_SUCCESS ↔ Registers a componentId handlers
  taken : retval = .NICC_SUCCESS → Changed base block (Taken a componentId handlers) s s'
  stuck : retval ≠ .NICC_SUCCESS → Changed base block (Stuck a componentId handlers) s s'

variable {componentId : Nat} {handlers : List (Option AppHandler)} {retval : Retval}

theorem registration_empty (sane : Sane base s) (unmade : ∀ member, (block, member) ∉ s.made)
    (kind : componentId = kComponent_DPA ∨ componentId = kComponent_SoC) :
    Registration (d.answers block) componentId [] base block s .NICC_SUCCESS s where
  answer := iff_of_true rfl (.inl rfl)
  taken _ := .refl sane fun member => iff_of_false (unmade member) (by
    cases member <;> simp [Taken]
    exact kind.resolve_left)
  stuck failed := absurd rfl failed

theorem registerFlowEngine_spec (sane : Sane base s) (unmade : ∀ member, (block, member) ∉ s.made)
    (other : componentId ≠ kComponent_DPA ∧ componentId ≠ kComponent_SoC)
    (ran : registerFlowEngine d block handlers s = .ok (retval, s')) :
    Registration (d.answers block) componentId handlers base block s retval s' := by
  rw [registerFlowEngine] at ran
  split at ran
  case h_1 => cases ran
  case h_2 => cases ran
  case h_3 =>
    cases ran
    refine ⟨iff_of_true rfl (.inr (.inl other)), fun _ => ?_, fun failed => absurd rfl failed⟩
    refine (makeNew_changed .functionState sane
      (fun member => iff_false_intro (unmade member)) id).congr fun member => ?_
    cases member <;> simp [Taken, other]

theorem registerSoC_spec (sane : Sane base s) (unmade : ∀ member, (block, member) ∉ s.made)
    (ran : registerSoC d block handlers s = .ok (retval, s')) :
    Registration (d.answers block) kComponent_SoC handlers base block s retval s' := by
  have apart : kComponent_SoC ≠ kComponent_DPA := by decide
  rw [registerSoC] at ran
  split_ifs at ran with empty
  · cases ran
    exact empty ▸ registration_empty sane unmade (.inr rfl)
  · split at ran
    case h_1 => cases ran
    case h_2 => cases ran
    case h_3 =>
      have created := makeNew_changed (d := d) .channel sane
        (fun member => iff_false_intro (unmade member)) id
      obtain ⟨answer, allocated, ran⟩ := bind_eq_ok.mp ran
      split_ifs at ran with success
      · cases ran
        have routed := created.trans (makeNew_changed (d := d) .routing created.sane created.own
          (by simp))
        refine ⟨?_, fun _ => routed.congr fun member => ?_, fun failed => absurd success failed⟩
        · simp [Registers, apart, allocated, success]
        · cases member <;> simp [Taken, empty, apart]
      · cases ran
        refine ⟨?_, fun is => absurd is success, fun _ => created.congr fun member => ?_⟩
        · simp [Registers, empty, apart, allocated, success]
        · cases member <;> simp [Stuck, apart]

theorem allocateWrapperResourcesDPA_ok (sane : Sane base s)
    (own : ∀ member, (block, member) ∈ s.made ↔ now member) (unmade : ¬ now .channel)
    (ran : allocateWrapperResourcesDPA d block s = .ok (retval, s')) :
    (d.answers block).allocateChannel = .ok retval ∧ Changed base block
      (fun member => now member ∨ (member = .channel ∧ retval = .NICC_SUCCESS)) s s' := by
  have created := makeNew_changed (d := d) .channel sane own unmade
  obtain ⟨answer, allocated, ran⟩ := bind_eq_ok.mp ran
  split_ifs at ran with success
  · cases ran
    refine ⟨allocated, created.congr fun member => ?_⟩
    rw [and_iff_left success, or_comm]
  · cases ran
    have deleted := release_changed created.sane true created.own (.inl rfl)
    refine ⟨allocated, (created.trans deleted).congr fun member => ?_⟩
    by_cases same : member = .channel
    · subst same
      simp [success, unmade]
    · simp [same]

theorem registerDPA_spec (sane : Sane base s) (unmade : ∀ member, (block, member) ∉ s.made)
    (quiet : Quiet (d.answers block) (s.cell (block, .flexioProcess)))
    (ran : registerDPA d block handlers s = .ok (retval, s')) :
    Registration (d.answers block) kComponent_DPA handlers base block s retval s' := by
  have apart : kComponent_DPA ≠ kComponent_SoC := by decide
  obtain ⟨-, -, ran⟩ := bind_eq_ok.mp ran
  split_ifs at ran with empty
  · cases ran
    exact empty ▸ registration_empty sane unmade (.inl rfl)
  · split at ran
    case h_1 => cases ran
    case h_2 => cases ran
    case h_3 init event visited found =>
      have has : HasHandlers handlers := ⟨init, event, visited, found⟩
      have started := startProcess_changed sane unmade quiet
      have success : (startProcess d block s).1 = .NICC_SUCCESS ↔ (d.answers block).starts = true :=
        startProcess_answer ▸ hardwareCheck_success
      rcases proceed_ok.mp ran with ⟨t, first, ran⟩ | ⟨first, failed⟩
      · obtain ⟨-, -, first⟩ := bind_eq_ok.mp first
        obtain ⟨-, -, first⟩ := bind_eq_ok.mp first
        obtain ⟨answer, rfl⟩ := Prod.ext_iff.mp (Except.ok.inj first)
        have starts := success.mp answer
        have creates : (d.answers block).creates = true := by
          rw [BlockAnswers.starts, Bool.and_eq_true] at starts
          exact starts.1
        rcases proceed_ok.mp ran with ⟨u, second, ran⟩ | ⟨second, failed⟩
        · obtain ⟨allocated, both⟩ :=
            allocateWrapperResourcesDPA_ok started.sane started.own id second
          obtain ⟨-, -, ran⟩ := bind_eq_ok.mp ran
          cases ran
          have changed := started.trans both
          refine ⟨?_, fun _ => changed.congr fun member => ?_,
            fun failed => changed.congr fun member => ?_⟩
          · simp [Registers, empty, apart, has, starts, allocated]
          · cases member <;> simp [Taken, Started, empty, creates, starts, apart]
          · simp [Stuck, has, starts, allocated, apart]
        · obtain ⟨allocated, both⟩ :=
            allocateWrapperResourcesDPA_ok started.sane started.own id second
          have changed := started.trans both
          refine ⟨?_, fun success => absurd success failed,
            fun _ => changed.congr fun member => ?_⟩
          · simp [Registers, empty, apart, allocated, failed]
          · simp [Stuck, has, allocated, failed, apart]
      · obtain ⟨-, -, first⟩ := bind_eq_ok.mp first
        obtain ⟨-, -, first⟩ := bind_eq_ok.mp first
        obtain ⟨rfl, rfl⟩ := Prod.ext_iff.mp (Except.ok.inj first)
        have stops : (d.answers block).starts = false :=
          Bool.eq_false_of_not_eq_true fun starts => failed (success.mpr starts)
        refine ⟨?_, fun success => absurd success failed,
          fun _ => started.congr fun member => ?_⟩
        · simp [Registers, empty, apart, stops, failed]
        · simp [Stuck, has, stops, apart]
    case h_4 result other found =>
      cases ran
      have lacks : ¬ HasHandlers handlers := by
        rintro ⟨init, event, visited, whole⟩
        exact other init event visited (Except.ok.inj (Option.some.inj (found.symm.trans whole)))
      refine ⟨?_, fun success => absurd success (by simp), fun _ => ?_⟩
      · simp [Registers, empty, apart, lacks]
      · exact .refl sane fun member => iff_of_false (unmade member) (by simp [Stuck, lacks, apart])

theorem registerOn_spec (sane : Sane base s) (unmade : ∀ member, (block, member) ∉ s.made)
    (quiet : componentId = kComponent_DPA →
      Quiet (d.answers block) (s.cell (block, .flexioProcess)))
    (ran : registerOn d block componentId handlers s = .ok (retval, s')) :
    Registration (d.answers block) componentId handlers base block s retval s' := by
  rw [registerOn] at ran
  split_ifs at ran with dpa soc
  · subst dpa
    exact registerDPA_spec sane unmade (quiet rfl) ran
  · subst soc
    exact registerSoC_spec sane unmade ran
  · exact registerFlowEngine_spec sane unmade ⟨dpa, soc⟩ ran

theorem unregisterOn_spec (sane : Sane base s)
    (own : ∀ member, (block, member) ∈ s.made ↔
      Taken (d.answers block) componentId handlers member)
    (ran : unregisterOn d block componentId s = .ok (retval, s')) :
    Changed base block (Kept (d.answers block) componentId handlers) s s' := by
  rw [unregisterOn] at ran
  split_ifs at ran with dpa
  · obtain ⟨_, there, ran⟩ := bind_eq_ok.mp ran
    have taken := (own .channel).mp (assertThat_ok.mp there)
    have process : Taken (d.answers block) componentId handlers .flexioProcess := ⟨taken.1, dpa⟩
    dsimp only at ran
    split_ifs at ran with refused
    · cases ran
      refine (Changed.refl sane own).congr fun member => ?_
      simp [Kept, refused]
    · cases ran
      refine (destroyProcess_changed sane _ own process).congr fun member => ?_
      simp [Kept, not_not.mp refused, imp_iff_not_or]
  · cases ran
    refine (Changed.refl sane own).congr fun member => ?_
    cases member <;> simp [Kept, Taken, dpa]

end

end Nicc.Pipeline

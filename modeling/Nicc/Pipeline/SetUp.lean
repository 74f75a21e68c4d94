import Nicc.Pipeline.Datapath
import Mathlib.Data.List.Basic
import Mathlib.Tactic.Cases

/-!
# What a failed set-up step leads to

Every call that leaves the pipeline may answer anything. Its answers are given by a table over the
blocks: each is asked for once, and registered and unregistered at most once. Only the release of a
block may come twice.
-/

namespace Nicc.Pipeline
open Lib

def entriesFrom (entries : List (Nat × Nat)) (block : Nat) : List Nat → List (Nat × Nat)
  | [] => entries
  | appFunc :: rest => entriesFrom (mapInsert entries appFunc block) (block + 1) rest

def blockMap (functions : List Nat) : List (Nat × Nat) := entriesFrom [] 0 functions

theorem entriesFrom_append (entries : List (Nat × Nat)) (block : Nat) (before after : List Nat) :
    entriesFrom entries block (before ++ after) =
      entriesFrom (entriesFrom entries block before) (block + before.length) after := by
  induction before generalizing entries block with
  | nil => rfl
  | cons appFunc before ih =>
      rw [List.cons_append, entriesFrom, ih, entriesFrom, List.length_cons, Nat.add_right_comm,
        Nat.add_assoc]

theorem entriesFrom_keeps {entries : List (Nat × Nat)} {block : Nat} {functions : List Nat}
    {e : Nat × Nat} (member : e ∈ entries) : e ∈ entriesFrom entries block functions := by
  induction functions generalizing entries block with
  | nil => exact member
  | cons appFunc rest ih => exact ih (mapInsert_keeps member)

theorem entriesFrom_sorted {entries : List (Nat × Nat)} (sorted : Sorted entries) (block : Nat)
    (functions : List Nat) : Sorted (entriesFrom entries block functions) := by
  induction functions generalizing entries block with
  | nil => exact sorted
  | cons appFunc rest ih => exact ih (mapInsert_sorted sorted appFunc block) (block + 1)

theorem entriesFrom_has {entries : List (Nat × Nat)} {block appFunc : Nat} {functions : List Nat}
    (member : appFunc ∈ functions) : ∃ v, (appFunc, v) ∈ entriesFrom entries block functions := by
  induction functions generalizing entries block with
  | nil => cases member
  | cons first rest ih =>
      rw [entriesFrom]
      rcases List.mem_cons.mp member with rfl | later
      · obtain ⟨v, entered⟩ := mapInsert_has entries appFunc block
        exact ⟨v, entriesFrom_keeps entered⟩
      · exact ih later

theorem entriesFrom_key {entries : List (Nat × Nat)} {block : Nat} {functions : List Nat}
    {e : Nat × Nat} (member : e ∈ entriesFrom entries block functions) :
    e ∈ entries ∨ e.1 ∈ functions := by
  induction functions generalizing entries block with
  | nil => exact .inl member
  | cons appFunc rest ih =>
      rcases ih member with entered | later
      · rcases mem_mapInsert entered with rfl | old
        · exact .inr List.mem_cons_self
        · exact .inl old
      · exact .inr (List.mem_cons_of_mem _ later)

theorem blockMap_key {functions : List Nat} {e : Nat × Nat} (member : e ∈ blockMap functions) :
    e.1 ∈ functions :=
  (entriesFrom_key member).resolve_left List.not_mem_nil

theorem entriesFrom_perm {entries : List (Nat × Nat)} {functions : List Nat} (block : Nat)
    (distinct : functions.Nodup) (fresh : ∀ appFunc ∈ functions, ∀ e ∈ entries, e.1 ≠ appFunc) :
    (entriesFrom entries block functions).Perm (functions.zipIdx block ++ entries) := by
  induction functions generalizing entries block with
  | nil => exact List.Perm.refl _
  | cons appFunc rest ih =>
      obtain ⟨new, later⟩ := List.nodup_cons.mp distinct
      have entered : (mapInsert entries appFunc block).Perm ((appFunc, block) :: entries) :=
        mapInsert_perm block (fresh appFunc List.mem_cons_self)
      have apart : ∀ f ∈ rest, ∀ e ∈ mapInsert entries appFunc block, e.1 ≠ f := by
        intro f member e present
        rcases mem_mapInsert present with rfl | old
        · rintro rfl
          exact new member
        · exact fresh f (List.mem_cons_of_mem _ member) e old
      rw [entriesFrom, List.zipIdx_cons, List.cons_append]
      have first := (ih (block + 1) later apart).trans (entered.append_left _)
      exact first.trans List.perm_middle

theorem blockMap_perm {functions : List Nat} (distinct : functions.Nodup) :
    (blockMap functions).Perm functions.zipIdx := by
  have fresh : ∀ appFunc ∈ functions, ∀ e ∈ ([] : List (Nat × Nat)), e.1 ≠ appFunc :=
    fun _ _ _ member => absurd member List.not_mem_nil
  have perm := entriesFrom_perm 0 distinct fresh
  rwa [List.append_nil] at perm

theorem blockMap_ne_nil {functions : List Nat} (nonempty : functions ≠ []) :
    blockMap functions ≠ [] := by
  obtain ⟨appFunc, rest, rfl⟩ := List.exists_cons_of_ne_nil nonempty
  obtain ⟨v, member⟩ : ∃ v, (appFunc, v) ∈ blockMap (appFunc :: rest) :=
    entriesFrom_has List.mem_cons_self
  exact List.ne_nil_of_mem member

structure Answers where
  allocate : Nat → Retval
  init : Nat → Retval
  deallocate : Nat → Retval
  registerAppFunction : Nat → Retval
  unregisterAppFunction : Nat → Retval

def Answers.env (a : Answers) : Env Unit where
  allocate _ _ _ block := .ok (a.allocate block, ())
  deallocate _ _ block := .ok (a.deallocate block, ())
  init _ block := .ok (a.init block, ())
  registerAppFunction _ block _ := .ok (a.registerAppFunction block, ())
  unregisterAppFunction _ block := .ok (a.unregisterAppFunction block, ())

section
variable (a : Answers) (world : Unit) (cid block appFunc : Nat) (desp : Desp)

theorem env_allocate : a.env.allocate world cid desp block = .ok (a.allocate block, ()) := rfl

theorem env_init : a.env.init world block = .ok (a.init block, ()) := rfl

theorem env_register : a.env.registerAppFunction world block appFunc =
    .ok (a.registerAppFunction block, ()) := rfl

end

def lastAnswer (answer : Nat → Retval) (entries : List (Nat × Nat)) (retval : Retval) : Retval :=
  match entries.getLast? with
  | none => retval
  | some e => answer e.2

theorem lastAnswer_cons (answer : Nat → Retval) (e : Nat × Nat) (entries : List (Nat × Nat))
    (retval : Retval) :
    lastAnswer answer (e :: entries) retval = lastAnswer answer entries (answer e.2) := by
  cases entries with
  | nil => rfl
  | cons d rest => rw [lastAnswer, lastAnswer, List.getLast?_cons_cons, List.getLast?_cons]

section
variable (a : Answers) (cxt : AppContext)

def Granted (block appFunc : Nat) : Prop :=
  DatapathPipeline.knownComponent (cxt.function appFunc).componentId ∧
    a.allocate block = .NICC_SUCCESS

def initAnswer (block appFunc : Nat) : Retval :=
  if (cxt.function appFunc).componentId = kComponent_FlowEngine then a.init block
  else .NICC_SUCCESS

def AllGranted (block : Nat) : List Nat → Prop
  | [] => True
  | appFunc :: rest => Granted a cxt block appFunc ∧ AllGranted (block + 1) rest

def AllInitialized (block : Nat) : List Nat → Prop
  | [] => True
  | appFunc :: rest =>
      initAnswer a cxt block appFunc = .NICC_SUCCESS ∧ AllInitialized (block + 1) rest

def endAnswer (block : Nat) : List Nat → Retval → Retval
  | [], retval => retval
  | appFunc :: rest, _ => endAnswer (block + 1) rest (initAnswer a cxt block appFunc)

end

namespace DatapathPipeline

variable {a : Answers} {cxt : AppContext}

theorem deallocateLoop_table (entries : List (Nat × Nat)) (retval : Retval) (world : Unit) :
    deallocateLoop a.env cxt entries retval world =
      .ok (lastAnswer a.deallocate entries retval, world) := by
  induction entries generalizing retval with
  | nil => rfl
  | cons e rest ih =>
      rw [deallocateLoop, lastAnswer_cons]
      exact ih (a.deallocate e.2)

theorem unregisterLoop_table (entries : List (Nat × Nat)) (retval : Retval) (world : Unit) :
    unregisterLoop a.env entries retval world =
      .ok (lastAnswer a.unregisterAppFunction entries retval, world) := by
  induction entries generalizing retval with
  | nil => rfl
  | cons e rest ih =>
      rw [unregisterLoop, lastAnswer_cons]
      exact ih (a.unregisterAppFunction e.2)

def enterAll (p : DatapathPipeline Unit) (functions : List Nat) : DatapathPipeline Unit :=
  functions.foldl (fun p appFunc => { p with newBlocks := p.newBlocks + 1 }.enter appFunc p.newBlocks) p

theorem enterAll_map (p : DatapathPipeline Unit) (functions : List Nat) :
    (p.enterAll functions).componentApp2blockMap =
      entriesFrom p.componentApp2blockMap p.newBlocks functions := by
  induction functions generalizing p with
  | nil => rfl
  | cons appFunc rest ih => exact ih _

theorem allocateLoop_granted {p : DatapathPipeline Unit} {appFunc : Nat}
    (granted : Granted a cxt p.newBlocks appFunc) (rest : List Nat) (retval : Retval) :
    allocateLoop a.env cxt (appFunc :: rest) retval p =
      allocateLoop a.env cxt rest (initAnswer a cxt p.newBlocks appFunc) (p.enterAll [appFunc]) := by
  obtain ⟨known, success⟩ := granted
  rw [allocateLoop]
  simp only [assertThat_holds known, ok_bind, env_allocate, env_init, success, ne_eq, not_true_eq_false,
    if_false, initAnswer]
  split_ifs <;> rfl

theorem allocateLoop_allGranted {p : DatapathPipeline Unit} {functions : List Nat}
    (granted : AllGranted a cxt p.newBlocks functions) (after : List Nat) (retval : Retval) :
    allocateLoop a.env cxt (functions ++ after) retval p =
      allocateLoop a.env cxt after (endAnswer a cxt p.newBlocks functions retval)
        (p.enterAll functions) := by
  induction functions generalizing p retval with
  | nil => rfl
  | cons appFunc rest ih =>
      rw [List.cons_append, allocateLoop_granted granted.1, ih granted.2]
      rfl

theorem enterAll_newBlocks (p : DatapathPipeline Unit) (functions : List Nat) :
    (p.enterAll functions).newBlocks = p.newBlocks + functions.length := by
  induction functions generalizing p with
  | nil => rfl
  | cons appFunc rest ih =>
      rw [List.length_cons, Nat.add_comm rest.length, ← Nat.add_assoc]
      exact ih _

theorem granted_or_stopped (a : Answers) (cxt : AppContext) (block : Nat) (functions : List Nat) :
    AllGranted a cxt block functions ∨ ∃ before appFunc after,
      functions = before ++ appFunc :: after ∧ AllGranted a cxt block before ∧
        ¬ Granted a cxt (block + before.length) appFunc := by
  induction functions generalizing block with
  | nil => exact .inl trivial
  | cons appFunc rest ih =>
      by_cases granted : Granted a cxt block appFunc
      · rcases ih (block + 1) with all | ⟨before, stop, after, rfl, some, refused⟩
        · exact .inl ⟨granted, all⟩
        · refine .inr ⟨appFunc :: before, stop, after, rfl, ⟨granted, some⟩, ?_⟩
          rwa [List.length_cons, Nat.add_comm before.length, ← Nat.add_assoc]
      · exact .inr ⟨[], appFunc, rest, rfl, trivial, granted⟩

theorem allocateComponentBlocks_loop {retval : Retval} {p : DatapathPipeline Unit}
    (loop : allocateLoop a.env cxt cxt.functions .NICC_SUCCESS (start ()) = .ok (retval, p)) :
    allocateComponentBlocks a.env cxt (start ()) =
      .ok (if retval = .NICC_SUCCESS then .NICC_SUCCESS
        else lastAnswer a.deallocate p.componentApp2blockMap retval, p) := by
  rw [allocateComponentBlocks, loop, ok_bind]
  by_cases success : retval = .NICC_SUCCESS
  · simp [success]
  · simp only [success, ne_eq, not_false_eq_true, if_true, if_false, deallocateLoop_table, ok_bind]
    rfl

def grantedAnswer (a : Answers) (cxt : AppContext) : Retval :=
  let retval := endAnswer a cxt 0 cxt.functions .NICC_SUCCESS
  if retval = .NICC_SUCCESS then .NICC_SUCCESS
  else lastAnswer a.deallocate (blockMap cxt.functions) retval

theorem allocateComponentBlocks_granted (granted : AllGranted a cxt 0 cxt.functions) :
    allocateComponentBlocks a.env cxt (start ()) =
      .ok (grantedAnswer a cxt, (start ()).enterAll cxt.functions) := by
  have loop := allocateLoop_allGranted (p := start ()) granted [] .NICC_SUCCESS
  have entries : ((start ()).enterAll cxt.functions).componentApp2blockMap =
      blockMap cxt.functions := enterAll_map _ _
  rw [List.append_nil, allocateLoop] at loop
  rw [allocateComponentBlocks_loop loop, entries]
  rfl

theorem allocateComponentBlocks_refused {before after : List Nat} {appFunc : Nat}
    (functions : cxt.functions = before ++ appFunc :: after) (granted : AllGranted a cxt 0 before)
    (known : knownComponent (cxt.function appFunc).componentId)
    (refused : a.allocate before.length ≠ .NICC_SUCCESS) :
    ∃ p, allocateComponentBlocks a.env cxt (start ()) =
      .ok (lastAnswer a.deallocate (blockMap before) (a.allocate before.length), p) := by
  have block : ((start ()).enterAll before).newBlocks = before.length := by
    rw [enterAll_newBlocks]
    exact Nat.zero_add _
  have entries : ((start ()).enterAll before).componentApp2blockMap = blockMap before :=
    enterAll_map _ _
  have loop : allocateLoop a.env cxt cxt.functions .NICC_SUCCESS (start ()) =
      .ok (a.allocate before.length,
        { (start ()).enterAll before with newBlocks := before.length + 1 }) := by
    rw [functions, allocateLoop_allGranted (p := start ()) granted (appFunc :: after), allocateLoop]
    simp only [assertThat_holds known, ok_bind, env_allocate, block, refused, ne_eq,
      not_false_eq_true, if_true]
    rfl
  have answer := allocateComponentBlocks_loop loop
  rw [if_neg refused, entries] at answer
  exact ⟨_, answer⟩

theorem allocateComponentBlocks_unknown {before after : List Nat} {appFunc : Nat}
    (functions : cxt.functions = before ++ appFunc :: after) (granted : AllGranted a cxt 0 before)
    (unknown : ¬ knownComponent (cxt.function appFunc).componentId) :
    allocateComponentBlocks a.env cxt (start ()) = .error "SHUTDOWN BY NICC ERROR" := by
  have loop := allocateLoop_allGranted (p := start ()) granted (appFunc :: after) .NICC_SUCCESS
  rw [allocateComponentBlocks, functions, loop, allocateLoop, assertThat, if_neg unknown]
  rfl

theorem registerLoop_registered {registered : List (Nat × Nat)}
    (success : ∀ e ∈ registered, a.registerAppFunction e.2 = .NICC_SUCCESS)
    {pairs after : List (Nat × Nat)} (sorted : Sorted (pairs ++ registered ++ after)) (world : Unit) :
    registerLoop a.env (registered ++ after) .NICC_SUCCESS pairs world =
      registerLoop a.env after .NICC_SUCCESS (pairs ++ registered) world := by
  induction registered generalizing pairs with
  | nil => rw [List.append_nil, List.nil_append]
  | cons e rest ih =>
      have first := success e List.mem_cons_self
      have behind : ∀ d ∈ pairs, d.1 < e.1 := by
        intro d member
        rw [List.append_assoc, Sorted, List.pairwise_append] at sorted
        exact sorted.2.2 d member e (by simp)
      have split : pairs ++ e :: rest = pairs ++ [e] ++ rest := by simp
      rw [split] at sorted ⊢
      rw [List.cons_append, registerLoop, env_register, ok_bind]
      simp only [first, ne_eq, not_true_eq_false, if_false, mapInsert_last e.2 behind]
      exact ih (fun d member => success d (List.mem_cons_of_mem _ member)) sorted

theorem registerFunctions_registered {p : DatapathPipeline Unit}
    (sorted : Sorted p.componentApp2blockMap)
    (success : ∀ e ∈ p.componentApp2blockMap, a.registerAppFunction e.2 = .NICC_SUCCESS) :
    registerFunctions a.env p = .ok (.NICC_SUCCESS, p) := by
  have loop : registerLoop a.env (p.componentApp2blockMap ++ []) .NICC_SUCCESS [] p.world =
      registerLoop a.env [] .NICC_SUCCESS ([] ++ p.componentApp2blockMap) p.world :=
    registerLoop_registered success (by simpa using sorted) p.world
  rw [List.append_nil, List.nil_append] at loop
  rw [registerFunctions, loop]
  rfl

theorem registerFunctions_refused {p : DatapathPipeline Unit} (sorted : Sorted p.componentApp2blockMap)
    {before after : List (Nat × Nat)} {e : Nat × Nat}
    (entries : p.componentApp2blockMap = before ++ e :: after)
    (success : ∀ d ∈ before, a.registerAppFunction d.2 = .NICC_SUCCESS)
    (refused : a.registerAppFunction e.2 ≠ .NICC_SUCCESS) :
    registerFunctions a.env p =
      .ok (lastAnswer a.unregisterAppFunction before (a.registerAppFunction e.2), p) := by
  rw [entries] at sorted
  have loop : registerLoop a.env (before ++ e :: after) .NICC_SUCCESS [] p.world =
      registerLoop a.env (e :: after) .NICC_SUCCESS ([] ++ before) p.world :=
    registerLoop_registered success (by simpa using sorted) p.world
  rw [List.nil_append] at loop
  rw [registerFunctions, entries, loop, registerLoop, env_register, ok_bind]
  simp only [refused, ne_eq, not_false_eq_true, if_true, pure, Except.pure, ok_bind]
  rw [unregisterLoop_table, ← entries]
  rfl

theorem registered_or_refused (a : Answers) (entries : List (Nat × Nat)) :
    (∀ e ∈ entries, a.registerAppFunction e.2 = .NICC_SUCCESS) ∨ ∃ before e after,
      entries = before ++ e :: after ∧ (∀ d ∈ before, a.registerAppFunction d.2 = .NICC_SUCCESS) ∧
        a.registerAppFunction e.2 ≠ .NICC_SUCCESS := by
  induction entries with
  | nil => exact .inl fun e member => absurd member List.not_mem_nil
  | cons e rest ih =>
      by_cases success : a.registerAppFunction e.2 = .NICC_SUCCESS
      · rcases ih with all | ⟨before, d, after, rfl, some, refused⟩
        · exact .inl (List.forall_mem_cons.mpr ⟨success, all⟩)
        · exact .inr ⟨e :: before, d, after, rfl, List.forall_mem_cons.mpr ⟨success, some⟩, refused⟩
      · exact .inr ⟨[], e, rest, rfl, fun d member => absurd member List.not_mem_nil, success⟩

def AllAllocated (a : Answers) (cxt : AppContext) : Prop :=
  AllGranted a cxt 0 cxt.functions ∧ AllInitialized a cxt 0 cxt.functions

def AllRegistered (a : Answers) (entries : List (Nat × Nat)) : Prop :=
  ∀ e ∈ entries, a.registerAppFunction e.2 = .NICC_SUCCESS

/-- Both steps answer success exactly when all their parts have succeeded, and the control plane is
reached only then. -/
structure StopsOnFailure (a : Answers) (cxt : AppContext) : Prop where
  allocation : ∀ retval p, allocateComponentBlocks a.env cxt (start ()) = .ok (retval, p) →
    (retval = .NICC_SUCCESS ↔ AllAllocated a cxt)
  registration : ∀ p, allocateComponentBlocks a.env cxt (start ()) = .ok (.NICC_SUCCESS, p) →
    ∀ retval q, registerFunctions a.env p = .ok (retval, q) →
      (retval = .NICC_SUCCESS ↔ AllRegistered a p.componentApp2blockMap)
  controlPlane : ∀ loadFromAppDag initControlPlane stage p,
    construct a.env cxt loadFromAppDag initControlPlane () = .ok (stage, p) →
      stage = .controlPlane ∨ stage = .running →
        AllAllocated a cxt ∧ AllRegistered a p.componentApp2blockMap ∧
          ∀ appFunc ∈ cxt.functions, ∃ block, (appFunc, block) ∈ p.componentApp2blockMap

/-- No failure is forgotten: the last call after a refused allocation or registration has failed
as well, and so has the last initialization when an earlier one has. -/
structure LastCallFails (a : Answers) (cxt : AppContext) : Prop where
  allocation : ∀ before appFunc after, cxt.functions = before ++ appFunc :: after →
    AllGranted a cxt 0 before → knownComponent (cxt.function appFunc).componentId →
    a.allocate before.length ≠ .NICC_SUCCESS →
      lastAnswer a.deallocate (blockMap before) (a.allocate before.length) ≠ .NICC_SUCCESS
  initialization : AllGranted a cxt 0 cxt.functions → ¬ AllInitialized a cxt 0 cxt.functions →
    endAnswer a cxt 0 cxt.functions .NICC_SUCCESS ≠ .NICC_SUCCESS ∧
      lastAnswer a.deallocate (blockMap cxt.functions)
        (endAnswer a cxt 0 cxt.functions .NICC_SUCCESS) ≠ .NICC_SUCCESS
  registration : AllAllocated a cxt → ∀ before e after, blockMap cxt.functions = before ++ e :: after →
    (∀ d ∈ before, a.registerAppFunction d.2 = .NICC_SUCCESS) →
    a.registerAppFunction e.2 ≠ .NICC_SUCCESS →
      lastAnswer a.unregisterAppFunction before (a.registerAppFunction e.2) ≠ .NICC_SUCCESS

theorem endAnswer_initialized {block : Nat} {functions : List Nat}
    (initialized : AllInitialized a cxt block functions) :
    endAnswer a cxt block functions .NICC_SUCCESS = .NICC_SUCCESS := by
  induction functions generalizing block with
  | nil => rfl
  | cons appFunc rest ih =>
      rw [endAnswer, initialized.1]
      exact ih initialized.2

theorem enterAll_sorted (functions : List Nat) :
    Sorted ((start ()).enterAll functions).componentApp2blockMap := by
  rw [enterAll_map]
  exact entriesFrom_sorted List.Pairwise.nil 0 functions

theorem granted_of_allGranted {block : Nat} {before after : List Nat} {appFunc : Nat}
    (granted : AllGranted a cxt block (before ++ appFunc :: after)) :
    Granted a cxt (block + before.length) appFunc := by
  induction before generalizing block with
  | nil => exact granted.1
  | cons first before ih =>
      have later := ih granted.2
      rwa [Nat.add_right_comm, Nat.add_assoc] at later

theorem registerFunctions_map {W : Type} {env : Env W} {p q : DatapathPipeline W} {retval : Retval}
    (ran : registerFunctions env p = .ok (retval, q)) :
    q.componentApp2blockMap = p.componentApp2blockMap := by
  rw [registerFunctions] at ran
  obtain ⟨⟨r, pairs, world⟩, -, ran⟩ := bind_eq_ok.mp ran
  by_cases success : r = .NICC_SUCCESS
  · simp only [success, ne_eq, not_true_eq_false, if_false, pure_eq_ok, Prod.mk.injEq] at ran
    rw [← ran.2]
  · simp only [success, ne_eq, not_false_eq_true, if_true] at ran
    obtain ⟨⟨r, world⟩, -, ran⟩ := bind_eq_ok.mp ran
    cases ran
    rfl

theorem deallocateComponentBlocks_map {W : Type} {env : Env W} {p q : DatapathPipeline W}
    {retval : Retval} (ran : deallocateComponentBlocks env cxt p = .ok (retval, q)) :
    q.componentApp2blockMap = p.componentApp2blockMap := by
  obtain ⟨⟨r, world⟩, -, ran⟩ := bind_eq_ok.mp ran
  cases ran
  rfl

theorem construct_reaches {W : Type} {env : Env W} {world : W} {loadFromAppDag : Retval}
    {initControlPlane : DatapathPipeline W → Retval} {stage : Stage} {p : DatapathPipeline W}
    (ran : construct env cxt loadFromAppDag initControlPlane world = .ok (stage, p))
    (reached : stage = .controlPlane ∨ stage = .running) :
    ∃ q r, allocateComponentBlocks env cxt (start world) = .ok (.NICC_SUCCESS, q) ∧
      registerFunctions env q = .ok (.NICC_SUCCESS, r) ∧
      p.componentApp2blockMap = q.componentApp2blockMap := by
  rw [construct] at ran
  obtain ⟨_, -, ran⟩ := bind_eq_ok.mp ran
  obtain ⟨⟨allocated, q⟩, allocation, ran⟩ := bind_eq_ok.mp ran
  by_cases first : allocated = .NICC_SUCCESS
  · subst first
    simp only [ne_eq, not_true_eq_false, ↓reduceIte] at ran
    obtain ⟨⟨registered, r⟩, registration, ran⟩ := bind_eq_ok.mp ran
    by_cases second : registered = .NICC_SUCCESS
    · subst second
      have kept := registerFunctions_map registration
      refine ⟨q, r, allocation, registration, ?_⟩
      simp only [not_true_eq_false, ↓reduceIte] at ran
      split_ifs at ran
      · cases ran
        exact kept
      · obtain ⟨⟨_, t⟩, released, ran⟩ := bind_eq_ok.mp ran
        cases ran
        rw [deallocateComponentBlocks_map released, kept]
    · simp only [second, not_false_eq_true, if_true] at ran
      obtain ⟨⟨_, t⟩, released, ran⟩ := bind_eq_ok.mp ran
      cases ran
      rcases reached with early | early <;> cases early
  · simp only [first, ne_eq, not_false_eq_true, if_true] at ran
    cases ran
    rcases reached with early | early <;> cases early

theorem allocation_reported (fails : LastCallFails a cxt) {retval : Retval}
    {p : DatapathPipeline Unit}
    (ran : allocateComponentBlocks a.env cxt (start ()) = .ok (retval, p)) :
    (retval = .NICC_SUCCESS ↔ AllAllocated a cxt) ∧
      (retval = .NICC_SUCCESS → p = (start ()).enterAll cxt.functions) := by
  rcases granted_or_stopped a cxt 0 cxt.functions with
    granted | ⟨before, appFunc, after, functions, granted, stopped⟩
  · rw [allocateComponentBlocks_granted granted] at ran
    cases ran
    refine ⟨⟨fun success => ⟨granted, ?_⟩, fun all => ?_⟩, fun _ => rfl⟩
    · by_contra failed
      have ends := fails.initialization granted failed
      rw [grantedAnswer, if_neg ends.1] at success
      exact ends.2 success
    · rw [grantedAnswer, if_pos (endAnswer_initialized all.2)]
  · have notAll : ¬ AllAllocated a cxt := by
      rintro ⟨all, -⟩
      rw [functions] at all
      exact stopped (granted_of_allGranted all)
    rw [Nat.zero_add] at stopped
    by_cases known : knownComponent (cxt.function appFunc).componentId
    · have refused : a.allocate before.length ≠ .NICC_SUCCESS := fun success => stopped ⟨known, success⟩
      obtain ⟨q, answered⟩ := allocateComponentBlocks_refused functions granted known refused
      rw [answered] at ran
      cases ran
      have failed := fails.allocation before appFunc after functions granted known refused
      exact ⟨⟨fun success => absurd success failed, fun all => absurd all notAll⟩,
        fun success => absurd success failed⟩
    · rw [allocateComponentBlocks_unknown functions granted known] at ran
      cases ran

theorem registration_reported (fails : LastCallFails a cxt) (allocated : AllAllocated a cxt)
    {retval : Retval} {q : DatapathPipeline Unit}
    (ran : registerFunctions a.env ((start ()).enterAll cxt.functions) = .ok (retval, q)) :
    retval = .NICC_SUCCESS ↔ AllRegistered a (blockMap cxt.functions) := by
  have sorted := enterAll_sorted cxt.functions
  have entries : ((start ()).enterAll cxt.functions).componentApp2blockMap =
      blockMap cxt.functions := enterAll_map _ _
  rcases registered_or_refused a (blockMap cxt.functions) with
    all | ⟨before, e, after, shape, some, refused⟩
  · rw [registerFunctions_registered sorted (entries ▸ all)] at ran
    cases ran
    exact ⟨fun _ => all, fun _ => rfl⟩
  · rw [registerFunctions_refused sorted (entries.trans shape) some refused] at ran
    cases ran
    have failed := fails.registration allocated before e after shape some refused
    exact ⟨fun success => absurd success failed,
      fun all => absurd (all e (by rw [shape]; simp)) refused⟩

theorem enterAll_entries (functions : List Nat) :
    ((start ()).enterAll functions).componentApp2blockMap = blockMap functions :=
  enterAll_map _ _

theorem StopsOnFailure.lastCallFails {a : Answers} {cxt : AppContext}
    (stops : StopsOnFailure a cxt) : LastCallFails a cxt := by
  refine ⟨?_, ?_, ?_⟩
  · intro before appFunc after functions granted known refused success
    obtain ⟨p, answered⟩ := allocateComponentBlocks_refused functions granted known refused
    have all := (stops.allocation _ p answered).mp success
    have granted := all.1
    rw [functions] at granted
    have last := (granted_of_allGranted granted).2
    rw [Nat.zero_add] at last
    exact refused last
  · intro granted failed
    have answered := allocateComponentBlocks_granted granted
    have reported := stops.allocation _ _ answered
    rw [grantedAnswer] at reported
    by_cases ends : endAnswer a cxt 0 cxt.functions .NICC_SUCCESS = .NICC_SUCCESS
    · rw [if_pos ends] at reported
      exact absurd (reported.mp rfl).2 failed
    · rw [if_neg ends] at reported
      exact ⟨ends, fun success => failed (reported.mp success).2⟩
  · intro allocated before e after shape some refused success
    have answered := allocateComponentBlocks_granted allocated.1
    rw [grantedAnswer, if_pos (endAnswer_initialized allocated.2)] at answered
    have registered := registerFunctions_refused (enterAll_sorted cxt.functions)
      ((enterAll_entries _).trans shape) some refused
    have all := (stops.registration _ answered _ _ registered).mp success
    rw [enterAll_entries, shape] at all
    exact refused (all e (by simp))

theorem LastCallFails.stopsOnFailure {a : Answers} {cxt : AppContext}
    (fails : LastCallFails a cxt) : StopsOnFailure a cxt := by
  have registration : ∀ p, allocateComponentBlocks a.env cxt (start ()) = .ok (.NICC_SUCCESS, p) →
      ∀ retval q, registerFunctions a.env p = .ok (retval, q) →
        (retval = .NICC_SUCCESS ↔ AllRegistered a p.componentApp2blockMap) := by
    intro p ran retval q registered
    obtain ⟨reported, shape⟩ := allocation_reported fails ran
    rw [shape rfl] at registered ⊢
    rw [enterAll_entries]
    exact registration_reported fails (reported.mp rfl) registered
  refine ⟨fun retval p ran => (allocation_reported fails ran).1, registration, ?_⟩
  intro loadFromAppDag initControlPlane stage p ran reached
  obtain ⟨q, r, allocation, registered, kept⟩ := construct_reaches ran reached
  obtain ⟨reported, shape⟩ := allocation_reported fails allocation
  refine ⟨reported.mp rfl, ?_, ?_⟩
  · rw [kept]
    exact (registration q allocation _ r registered).mp rfl
  · intro appFunc member
    rw [kept, shape rfl, enterAll_entries]
    exact entriesFrom_has member

/-- A failure stops the pipeline exactly when the last call after it fails, too. -/
theorem stops_iff (a : Answers) (cxt : AppContext) :
    StopsOnFailure a cxt ↔ LastCallFails a cxt :=
  ⟨StopsOnFailure.lastCallFails, LastCallFails.stopsOnFailure⟩

theorem refused_allocation_forgotten :
    let cxt : AppContext := ⟨[1, 2], fun _ => ⟨kComponent_SoC, ⟨5, "soc", "mlx5_0", 0⟩⟩⟩
    let a : Answers := ⟨fun block => if block = 1 then .NICC_ERROR_EXSAUSTED else .NICC_SUCCESS,
      fun _ => .NICC_SUCCESS, fun _ => .NICC_SUCCESS, fun _ => .NICC_SUCCESS, fun _ => .NICC_SUCCESS⟩
    (∃ p, construct a.env cxt .NICC_SUCCESS (fun _ => .NICC_SUCCESS) () = .ok (.running, p)) ∧
      ¬ AllAllocated a cxt ∧ ¬ StopsOnFailure a cxt := by
  intro cxt a
  have notAll : ¬ AllAllocated a cxt := fun all => by cases all.1.2.1.2
  have ran : ∃ p, construct a.env cxt .NICC_SUCCESS (fun _ => .NICC_SUCCESS) () = .ok (.running, p) :=
    ⟨_, rfl⟩
  refine ⟨ran, notAll, fun stops => ?_⟩
  obtain ⟨p, ran⟩ := ran
  exact notAll (stops.controlPlane _ _ _ p ran (.inr rfl)).1

end DatapathPipeline

end Nicc.Pipeline

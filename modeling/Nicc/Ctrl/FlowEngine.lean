import Nicc.Ctrl.FlowMAT
import Nicc.Ctrl.FlowWildcards
import Nicc.Lib.OrderedMap

/-!
# The tables of the flow engine

`FlowDomain` and `FlowMAT` over the objects of the mlx5dv driver. The driver is called inside
constructors, and the wrappers record what a constructor has made.
-/

namespace Nicc.Ctrl
open Lib

inductive DrObject
  | table (handle domain : Nat) (level : Int)
  | matcher (handle tbl : Nat) (priority : Int) (criteria : UInt8) (params : MatchParam)

structure FlowMatcherFlowEngine where
  base : FlowMatcher
  mlx5dvDrTbl : Option Nat
  mlx5dvMatcher : Option Nat
  mlx5dvDrMatchParameters : MatchParam
  mlx5dvDrMatchPriority : Int
  mlx5dvDrMatchCriteria : UInt8

structure FlowMATFlowEngine where
  base : FlowMAT
  mlx5dvDrFdbDomain : Nat
  mlx5dvDrTbl : Option Nat
  mlx5dvDrTblLevel : Int

/-- Tables are named by their position among all that have been constructed. -/
structure FlowDomainFlowEngine where
  fdbDomain : Nat
  tableMap : List (Int × Nat)
  tables : List FlowMATFlowEngine
  created : List DrObject

namespace FlowMatcherFlowEngine

/-- `__create_mlx5dv_dr_matcher`. The driver answers with `handle`, or with a null pointer. -/
def createMlx5dvDrMatcher (handle : Option Nat) (m : FlowMatcherFlowEngine) :
    Except String (Retval × FlowMatcherFlowEngine × List DrObject) :=
  match m.mlx5dvDrTbl with
  | none => .error "this->_mlx5dv_dr_tbl"
  | some tbl =>
      let m := { m with mlx5dvMatcher := handle }
      match handle with
      | none => .ok (.NICC_ERROR_HARDWARE_FAILURE, m, [])
      | some h => .ok (.NICC_SUCCESS, m, [.matcher h tbl m.mlx5dvDrMatchPriority
          m.mlx5dvDrMatchCriteria m.mlx5dvDrMatchParameters])

def construct (handle : Option Nat) (matchWc : FlowWildcards) (tbl : Option Nat)
    (matchParam : MatchParam) (priority : Int) (criteria : UInt8) :
    Except String (FlowMatcherFlowEngine × List DrObject) := do
  let (_, m, created) ← createMlx5dvDrMatcher handle
    ⟨.ofWildcards matchWc, tbl, none, matchParam, priority, criteria⟩
  .ok (m, created)

end FlowMatcherFlowEngine

namespace FlowMATFlowEngine

def createMlx5dvDrTable (handle : Option Nat) (t : FlowMATFlowEngine) :
    Retval × FlowMATFlowEngine × List DrObject :=
  let t := { t with mlx5dvDrTbl := handle }
  match handle with
  | none => (.NICC_ERROR_HARDWARE_FAILURE, t, [])
  | some h => (.NICC_SUCCESS, t, [.table h t.mlx5dvDrFdbDomain t.mlx5dvDrTblLevel])

def construct (handle : Option Nat) (hash : Nat → UInt32) (level : Int) (fdbDomain : Nat) :
    Except String (FlowMATFlowEngine × List DrObject) := do
  assertThat (fdbDomain ≠ 0) "fdb_domain"
  let (_, t, created) := createMlx5dvDrTable handle ⟨.empty hash, fdbDomain, none, level⟩
  .ok (t, created)

-- The bits for the packet header and for the metadata are added to a variable that has no value
-- yet: the macro that is to set it to zero adds no bits.
def criteria (uninitialized : UInt8) : UInt8 := uninitialized ||| 0 ||| 1 ||| 4

def createMatcherHook (handle : Option Nat) (uninitialized : UInt8) (t : FlowMATFlowEngine)
    (wc : FlowWildcards) (priority : Int) :
    Except String (Retval × Option (FlowMatcherFlowEngine × List DrObject)) := do
  assertThat (t.mlx5dvDrTbl ≠ none) "this->_mlx5dv_dr_tbl"
  let (retval, matchParam) := wc.convertToMlx5dvDr .zero
  if retval ≠ .NICC_SUCCESS then return (retval, none)
  let made ← FlowMatcherFlowEngine.construct handle wc t.mlx5dvDrTbl matchParam priority
    (criteria uninitialized)
  return (.NICC_SUCCESS, some made)

def createMatcher (handle : Option Nat) (uninitialized : UInt8) (t : FlowMATFlowEngine)
    (wc : FlowWildcards) (priority : Int) :
    Except String (Retval × FlowMATFlowEngine × List DrObject) := do
  if 0 < t.base.count (.ofWildcards wc) then return (.NICC_ERROR_DUPLICATED, t, [])
  let (retval, made) ← createMatcherHook handle uninitialized t wc priority
  match made with
  | none => .error "*matcher"
  | some (matcher, created) =>
      if retval = .NICC_SUCCESS then
        let entryMap := CompareMap.insert FlowMatcher.below t.base.entryMap matcher.base []
        return (retval, { t with base := { t.base with entryMap := entryMap } }, created)
      else return (retval, t, created)

end FlowMATFlowEngine

namespace FlowDomainFlowEngine

def start (fdbDomain : Nat) : FlowDomainFlowEngine := ⟨fdbDomain, [], [], []⟩

def createTable (handle : Option Nat) (hash : Nat → UInt32) (d : FlowDomainFlowEngine)
    (level : Int) : Except String (Retval × FlowDomainFlowEngine) := do
  let (table, created) ← FlowMATFlowEngine.construct handle hash level d.fdbDomain
  -- The hook has nothing else to do, and succeeds.
  return (.NICC_SUCCESS, { d with
    tableMap := multiInsert d.tableMap level d.tables.length
    tables := d.tables ++ [table]
    created := d.created ++ created })

def createMatcher (handle : Option Nat) (uninitialized : UInt8) (d : FlowDomainFlowEngine)
    (table : Nat) (wc : FlowWildcards) (priority : Int) : Except String (Retval × FlowDomainFlowEngine) :=
  match d.tables[table]? with
  | none => .error "FlowMAT*"
  | some t => do
      let (retval, t, created) ← t.createMatcher handle uninitialized wc priority
      return (retval, { d with
        tables := d.tables.set table t
        created := d.created ++ created })

inductive Call
  | createTable (level : Int) (hash : Nat → UInt32) (handle : Option Nat)
  | createMatcher (table : Nat) (wc : FlowWildcards) (priority : Int) (uninitialized : UInt8)
      (handle : Option Nat)

def step (d : FlowDomainFlowEngine) : Call → Except String (Retval × FlowDomainFlowEngine)
  | .createTable level hash handle => d.createTable handle hash level
  | .createMatcher table wc priority uninitialized handle =>
      d.createMatcher handle uninitialized table wc priority

def Created (before after : FlowDomainFlowEngine) : Prop :=
  ∃ object, after.created = before.created ++ [object]

def Recorded (before after : FlowDomainFlowEngine) : Call → Prop
  | .createTable level _ _ =>
      after.tableMap = multiInsert before.tableMap level before.tables.length
  | .createMatcher table wc _ _ _ => ∃ t u, before.tables[table]? = some t ∧
      after.tables[table]? = some u ∧
      u.base.count (.ofWildcards wc) = t.base.count (.ofWildcards wc) + 1

def SameMaps (before after : FlowDomainFlowEngine) : Prop :=
  after.tableMap = before.tableMap ∧ ∀ i : Nat, ∀ t, before.tables[i]? = some t →
    ∃ u, after.tables[i]? = some u ∧ u.base.entryMap = t.base.entryMap

structure Faithful (before : FlowDomainFlowEngine) (call : Call) (retval : Retval)
    (after : FlowDomainFlowEngine) : Prop where
  recorded : retval = .NICC_SUCCESS ∧ Recorded before after call ↔ Created before after
  refused : ¬ Created before after → retval ≠ .NICC_SUCCESS ∧ SameMaps before after

def Mirrors : FlowDomainFlowEngine → List Call → Prop
  | _, [] => True
  | d, call :: calls => ∀ retval next, d.step call = .ok (retval, next) →
      Faithful d call retval next ∧ Mirrors next calls

def AsksDriver (d : FlowDomainFlowEngine) : Call → Prop
  | .createTable _ _ _ => d.fdbDomain ≠ 0
  | .createMatcher table wc _ _ _ => ∃ t, d.tables[table]? = some t ∧ t.mlx5dvDrTbl ≠ none ∧
      t.base.count (.ofWildcards wc) = 0

def Call.handle : Call → Option Nat
  | .createTable _ _ handle => handle
  | .createMatcher _ _ _ _ handle => handle

def Granted : FlowDomainFlowEngine → List Call → Prop
  | _, [] => True
  | d, call :: calls => (d.AsksDriver call → call.handle ≠ none) ∧
      ∀ retval next, d.step call = .ok (retval, next) → Granted next calls

end FlowDomainFlowEngine

namespace FlowMATFlowEngine

variable {t : FlowMATFlowEngine} {wc : FlowWildcards}

def driverMatcher (handle : Option Nat) (uninitialized : UInt8) (tbl : Nat) (wc : FlowWildcards)
    (priority : Int) : List DrObject :=
  handle.toList.map fun h =>
    .matcher h tbl priority (criteria uninitialized) (wc.convertToMlx5dvDr .zero).2

def withMatcher (t : FlowMATFlowEngine) (wc : FlowWildcards) : FlowMATFlowEngine :=
  { t with base := { t.base with
    entryMap := CompareMap.insert FlowMatcher.below t.base.entryMap (.ofWildcards wc) [] } }

theorem withMatcher_count (fresh : t.base.count (.ofWildcards wc) = 0) :
    (t.withMatcher wc).base.count (.ofWildcards wc) = 1 :=
  CompareMap.count_insert FlowMAT.below_irrefl fresh []

theorem createMatcher_duplicated (known : t.base.count (.ofWildcards wc) ≠ 0)
    (handle : Option Nat) (uninitialized : UInt8) (priority : Int) :
    t.createMatcher handle uninitialized wc priority = .ok (.NICC_ERROR_DUPLICATED, t, []) := by
  rw [createMatcher, if_pos (Nat.pos_of_ne_zero known)]
  rfl

theorem createMatcher_lost (fresh : t.base.count (.ofWildcards wc) = 0)
    (lost : t.mlx5dvDrTbl = none) (handle : Option Nat) (uninitialized : UInt8) (priority : Int) :
    t.createMatcher handle uninitialized wc priority = .error "this->_mlx5dv_dr_tbl" := by
  rw [createMatcher, if_neg (by omega), createMatcherHook, lost]
  rfl

theorem createMatcher_new (fresh : t.base.count (.ofWildcards wc) = 0) {tbl : Nat}
    (there : t.mlx5dvDrTbl = some tbl) (handle : Option Nat) (uninitialized : UInt8)
    (priority : Int) : t.createMatcher handle uninitialized wc priority =
      .ok (.NICC_SUCCESS, t.withMatcher wc,
        driverMatcher handle uninitialized tbl wc priority) := by
  have present : t.mlx5dvDrTbl ≠ none := by simp [there]
  have constructed : FlowMatcherFlowEngine.construct handle wc (some tbl)
      (wc.convertToMlx5dvDr .zero).2 priority (criteria uninitialized) =
        .ok (⟨.ofWildcards wc, some tbl, handle, (wc.convertToMlx5dvDr .zero).2, priority,
          criteria uninitialized⟩, driverMatcher handle uninitialized tbl wc priority) := by
    cases handle with
    | none => rfl
    | some h => rfl
  have hook : createMatcherHook handle uninitialized t wc priority = .ok (.NICC_SUCCESS, some
      (⟨.ofWildcards wc, some tbl, handle, (wc.convertToMlx5dvDr .zero).2, priority,
        criteria uninitialized⟩, driverMatcher handle uninitialized tbl wc priority)) := by
    rw [createMatcherHook, assertThat_holds present, ok_bind, there]
    change (FlowMatcherFlowEngine.construct handle wc (some tbl) (wc.convertToMlx5dvDr .zero).2
      priority (criteria uninitialized) >>= fun made => .ok (Retval.NICC_SUCCESS, some made)) = _
    rw [constructed]
    rfl
  rw [createMatcher, if_neg (by omega), hook]
  rfl

end FlowMATFlowEngine

namespace FlowDomainFlowEngine

variable {d next : FlowDomainFlowEngine} {retval : Retval}

def newTable (d : FlowDomainFlowEngine) (handle : Option Nat) (hash : Nat → UInt32)
    (level : Int) : FlowMATFlowEngine :=
  ⟨.empty hash, d.fdbDomain, handle, level⟩

theorem createTable_eq (domain : d.fdbDomain ≠ 0) (handle : Option Nat) (hash : Nat → UInt32)
    (level : Int) : d.createTable handle hash level = .ok (.NICC_SUCCESS, { d with
      tableMap := multiInsert d.tableMap level d.tables.length
      tables := d.tables ++ [d.newTable handle hash level]
      created := d.created ++ handle.toList.map fun h => .table h d.fdbDomain level }) := by
  rw [createTable, FlowMATFlowEngine.construct, assertThat_holds domain, ok_bind]
  cases handle with
  | none => rfl
  | some h => rfl

theorem createTable_faithful_iff {level : Int} {hash : Nat → UInt32} {handle : Option Nat}
    (ran : d.step (.createTable level hash handle) = .ok (retval, next)) :
    Faithful d (.createTable level hash handle) retval next ↔
      (d.AsksDriver (.createTable level hash handle) → handle ≠ none) := by
  have domain : d.fdbDomain ≠ 0 := by
    intro null
    simp [step, createTable, FlowMATFlowEngine.construct, null] at ran
  rw [step, createTable_eq domain] at ran
  cases ran
  cases handle with
  | none =>
      apply iff_of_false
      · intro faithful
        obtain ⟨object, created⟩ := faithful.recorded.mp ⟨rfl, rfl⟩
        simp at created
      · exact fun served => served domain rfl
  | some h =>
      apply iff_of_true
      · exact ⟨⟨fun _ => ⟨_, rfl⟩, fun _ => ⟨rfl, rfl⟩⟩, fun refused => absurd ⟨_, rfl⟩ refused⟩
      · exact fun _ => Option.some_ne_none h

theorem createMatcher_ran {table : Nat} {t : FlowMATFlowEngine} (there : d.tables[table]? = some t)
    {wc : FlowWildcards} {priority : Int} {uninitialized : UInt8} {handle : Option Nat}
    {u : FlowMATFlowEngine} {created : List DrObject}
    (made : t.createMatcher handle uninitialized wc priority = .ok (retval, u, created)) :
    d.step (.createMatcher table wc priority uninitialized handle) =
      .ok (retval, { d with tables := d.tables.set table u, created := d.created ++ created }) := by
  rw [step, createMatcher, there]
  dsimp only
  rw [made]
  rfl

theorem createMatcher_new_faithful {table tbl : Nat} {t : FlowMATFlowEngine} {wc : FlowWildcards}
    {priority : Int} {uninitialized : UInt8} {handle : Option Nat}
    (there : d.tables[table]? = some t) (fresh : t.base.count (.ofWildcards wc) = 0)
    (known : t.mlx5dvDrTbl = some tbl) :
    Faithful d (.createMatcher table wc priority uninitialized handle) .NICC_SUCCESS { d with
        tables := d.tables.set table (t.withMatcher wc)
        created := d.created ++ FlowMATFlowEngine.driverMatcher handle uninitialized tbl wc priority } ↔
      (d.AsksDriver (.createMatcher table wc priority uninitialized handle) → handle ≠ none) := by
  have inside := getElem?_lt there
  have asked : d.AsksDriver (.createMatcher table wc priority uninitialized handle) :=
    ⟨t, there, by simp [known], fresh⟩
  have recorded : Recorded d { d with
      tables := d.tables.set table (t.withMatcher wc)
      created := d.created ++ FlowMATFlowEngine.driverMatcher handle uninitialized tbl wc priority }
      (.createMatcher table wc priority uninitialized handle) :=
    ⟨t, t.withMatcher wc, there, List.getElem?_set_self inside, by
      rw [FlowMATFlowEngine.withMatcher_count fresh, fresh]⟩
  cases handle with
  | none =>
      apply iff_of_false
      · intro faithful
        obtain ⟨object, created⟩ := faithful.recorded.mp ⟨rfl, recorded⟩
        simp [FlowMATFlowEngine.driverMatcher] at created
      · exact fun served => served asked rfl
  | some h =>
      apply iff_of_true
      · exact ⟨⟨fun _ => ⟨_, rfl⟩, fun _ => ⟨rfl, recorded⟩⟩, fun refused => absurd ⟨_, rfl⟩ refused⟩
      · exact fun _ => Option.some_ne_none h

theorem createMatcher_faithful_iff {table : Nat} {wc : FlowWildcards} {priority : Int}
    {uninitialized : UInt8} {handle : Option Nat}
    (ran : d.step (.createMatcher table wc priority uninitialized handle) = .ok (retval, next)) :
    Faithful d (.createMatcher table wc priority uninitialized handle) retval next ↔
      (d.AsksDriver (.createMatcher table wc priority uninitialized handle) → handle ≠ none) := by
  cases there : d.tables[table]? with
  | none =>
      rw [step, createMatcher, there] at ran
      cases ran
  | some t =>
      by_cases fresh : t.base.count (.ofWildcards wc) = 0
      · cases known : t.mlx5dvDrTbl with
        | none =>
            rw [step, createMatcher, there] at ran
            simp only [FlowMATFlowEngine.createMatcher_lost fresh known] at ran
            cases ran
        | some tbl =>
            rw [createMatcher_ran there (FlowMATFlowEngine.createMatcher_new fresh known ..)] at ran
            cases ran
            exact createMatcher_new_faithful there fresh known
      · rw [createMatcher_ran there (FlowMATFlowEngine.createMatcher_duplicated fresh ..)] at ran
        cases ran
        apply iff_of_true
        · have same : d.tables.set table t = d.tables := by
            obtain ⟨bound, rfl⟩ := List.getElem?_eq_some_iff.mp there
            exact List.set_getElem_self bound
          have refused : ¬ Created d { d with
              tables := d.tables.set table t, created := d.created ++ [] } := by
            rintro ⟨object, created⟩
            simp at created
          refine ⟨⟨fun success => ?_, fun created => absurd created refused⟩, fun _ => ?_⟩
          · cases success.1
          · exact ⟨nofun, rfl, fun i u old => ⟨u, by rw [same, old], rfl⟩⟩
        · rintro ⟨u, again, -, absent⟩
          cases there.symm.trans again
          exact absurd absent fresh

theorem faithful_iff {call : Call} (ran : d.step call = .ok (retval, next)) :
    Faithful d call retval next ↔ (d.AsksDriver call → call.handle ≠ none) := by
  cases call with
  | createTable level hash handle => exact createTable_faithful_iff ran
  | createMatcher table wc priority uninitialized handle => exact createMatcher_faithful_iff ran

theorem AsksDriver.returns {call : Call} (asked : d.AsksDriver call) :
    ∃ retval next, d.step call = .ok (retval, next) := by
  cases call with
  | createTable level hash handle => exact ⟨_, _, createTable_eq asked handle hash level⟩
  | createMatcher table wc priority uninitialized handle =>
      obtain ⟨t, there, present, fresh⟩ := asked
      obtain ⟨tbl, known⟩ := Option.ne_none_iff_exists'.mp present
      exact ⟨_, _, createMatcher_ran there (FlowMATFlowEngine.createMatcher_new fresh known ..)⟩

theorem mirrors_iff_granted (d : FlowDomainFlowEngine) (calls : List Call) :
    Mirrors d calls ↔ Granted d calls := by
  induction calls generalizing d with
  | nil => exact Iff.rfl
  | cons call calls ih =>
      constructor
      · intro mirrors
        refine ⟨fun asked => ?_, fun retval next ran => (ih next).mp (mirrors retval next ran).2⟩
        obtain ⟨retval, next, ran⟩ := asked.returns
        exact (faithful_iff ran).mp (mirrors retval next ran).1 asked
      · rintro ⟨served, rest⟩ retval next ran
        exact ⟨(faithful_iff ran).mpr served, (ih next).mpr (rest retval next ran)⟩

theorem refused_table_recorded : ¬ Mirrors (start 1) [.createTable 0 (fun _ => 0) none] := by
  intro mirrors
  obtain ⟨served, -⟩ := mirrors _ _ (createTable_eq (by decide) none (fun _ => 0) 0)
  obtain ⟨object, created⟩ := served.recorded.mp ⟨rfl, rfl⟩
  simp [start] at created

end FlowDomainFlowEngine

end Nicc.Ctrl

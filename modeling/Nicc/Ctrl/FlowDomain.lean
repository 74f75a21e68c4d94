import Nicc.Ctrl.FlowEngine
import Nicc.Lib.OrderedMap

namespace Nicc.Ctrl
open Lib

namespace FlowDomainFlowEngine

/-- `__detory_table` of the flow engine, whose body is empty. -/
def detoryTableHook (_level : Int) (_table : Nat) : Retval := .NICC_SUCCESS

def destoryTable (d : FlowDomainFlowEngine) (table : Nat) : Retval × FlowDomainFlowEngine :=
  match d.tableMap.find? (·.2 = table) with
  | none => (.NICC_ERROR_NOT_FOUND, d)
  | some (level, _) =>
      let retval := detoryTableHook level table
      if retval = .NICC_SUCCESS then
        (retval, { d with tableMap := d.tableMap.eraseP (·.2 = table) })
      else (retval, d)

/-- A call on a table whose hook of the flow engine has an empty body. -/
def onTable (d : FlowDomainFlowEngine) (table : Nat) (call : FlowMAT → Retval × FlowMAT) :
    Except String (Retval × FlowDomainFlowEngine) :=
  match d.tables[table]? with
  | none => .error "FlowMAT*"
  | some t => .ok ((call t.base).1,
      { d with tables := d.tables.set table { t with base := (call t.base).2 } })

inductive ChainCall
  | create (call : Call)
  | destoryTable (table : Nat)
  | detoryMatcher (table : Nat) (matcher : FlowMatcher)
  | loadEntries (table : Nat) (cal : Nat → UInt32) (matcher : FlowMatcher) (entries len : Nat)
  | unloadEntries (table : Nat) (matcher : FlowMatcher) (entries len : Nat)

def chainStep (d : FlowDomainFlowEngine) :
    ChainCall → Except String (Retval × FlowDomainFlowEngine)
  | .create call => d.step call
  | .destoryTable table => .ok (d.destoryTable table)
  | .detoryMatcher table matcher => d.onTable table (·.detoryMatcher matcher)
  | .loadEntries table cal matcher entries len =>
      d.onTable table (FlowMAT.loadEntries cal · matcher entries len)
  | .unloadEntries table matcher entries len =>
      d.onTable table (·.unloadEntries matcher entries len)

end FlowDomainFlowEngine

/-- What a domain is for: the level of every table that was ever created, and the tables that are
in use. -/
structure Registry where
  levels : List Int
  inUse : Finset Nat

namespace Registry
open FlowDomainFlowEngine

def empty : Registry := ⟨[], ∅⟩

/-- The answer is left open where it depends on the matchers of a table. -/
def step (r : Registry) : ChainCall → Option Retval × Registry
  | .create (.createTable level _ _) =>
      (some .NICC_SUCCESS, ⟨r.levels ++ [level], insert r.levels.length r.inUse⟩)
  | .destoryTable table =>
      if table ∈ r.inUse then (some .NICC_SUCCESS, { r with inUse := r.inUse.erase table })
      else (some .NICC_ERROR_NOT_FOUND, r)
  | _ => (none, r)

end Registry

namespace FlowDomainFlowEngine

structure Represents (r : Registry) (d : FlowDomainFlowEngine) : Prop where
  sorted : MultiSorted d.tableMap
  listed : ∀ level table, (level, table) ∈ d.tableMap ↔
    table ∈ r.inUse ∧ r.levels[table]? = some level
  levels : d.tables.map (·.mlx5dvDrTblLevel) = r.levels
  created : ∀ table ∈ r.inUse, table < r.levels.length

structure Keeps (before after : FlowDomainFlowEngine) : Prop where
  created : before.created <+: after.created
  tables : before.tables.map (·.mlx5dvDrTbl) <+: after.tables.map (·.mlx5dvDrTbl)

theorem map_set_same {α β : Type*} {f : α → β} {xs : List α} {i : Nat} {x y : α}
    (there : xs[i]? = some x) (same : f y = f x) : (xs.set i y).map f = xs.map f := by
  apply List.ext_getElem?
  intro j
  rw [List.map_set, same]
  by_cases here : i = j
  · subst here
    simp [List.getElem?_set_self', there]
  · rw [List.getElem?_set_ne here]

theorem mem_eraseP_value {entries : List (Int × Nat)} (distinct : entries.Nodup) {level : Int}
    {table : Nat} (there : (level, table) ∈ entries)
    (alone : ∀ other, (other, table) ∈ entries → other = level) (e : Int × Nat) :
    e ∈ entries.eraseP (·.2 = table) ↔ e ∈ entries ∧ e.2 ≠ table := by
  obtain ⟨⟨first, second⟩, before, after, untouched, found, split, erased⟩ :=
    List.exists_of_eraseP (p := fun e : Int × Nat => decide (e.2 = table)) there (by simp)
  obtain rfl : second = table := by simpa using found
  rw [erased]
  have unlike : ∀ f ∈ before ++ after, f.2 ≠ second := by
    rintro ⟨l, t⟩ member rfl
    have old : (l, t) ∈ entries := by
      rw [split]
      rcases List.mem_append.mp member with front | back
      · exact List.mem_append_left _ front
      · exact List.mem_append_right _ (List.mem_cons_of_mem _ back)
    have here : (first, t) ∈ entries := by simp [split]
    obtain rfl : l = first := (alone l old).trans (alone first here).symm
    rw [split] at distinct
    exact (List.nodup_cons.mp ((List.perm_middle.nodup_iff).mp distinct)).1 member
  constructor
  · intro member
    refine ⟨?_, unlike e member⟩
    rw [split]
    rcases List.mem_append.mp member with front | back
    · exact List.mem_append_left _ front
    · exact List.mem_append_right _ (List.mem_cons_of_mem _ back)
  · rintro ⟨member, other⟩
    rw [split] at member
    rcases List.mem_append.mp member with front | back
    · exact List.mem_append_left _ front
    · rcases List.mem_cons.mp back with rfl | back
      · exact absurd rfl other
      · exact List.mem_append_right _ back

namespace Represents

variable {r : Registry} {d next : FlowDomainFlowEngine}

theorem length (represents : Represents r d) : d.tables.length = r.levels.length := by
  rw [← represents.levels, List.length_map]

theorem tables (represents : Represents r d) {table : Nat} {t : FlowMATFlowEngine}
    (there : d.tables[table]? = some t) (base : FlowMAT) (created : List DrObject) :
    Represents r { d with
      tables := d.tables.set table { t with base := base }, created := d.created ++ created } ∧
    Keeps d { d with
      tables := d.tables.set table { t with base := base }, created := d.created ++ created } := by
  refine ⟨{ represents with levels := ?_ }, ⟨List.prefix_append _ _, ?_⟩⟩
  · exact (map_set_same (y := { t with base := base }) there rfl).trans represents.levels
  · have same : (d.tables.set table { t with base := base }).map (·.mlx5dvDrTbl) =
        d.tables.map (·.mlx5dvDrTbl) := map_set_same there rfl
    exact same.symm ▸ List.prefix_rfl

theorem createTable (represents : Represents r d) {retval : Retval} {level : Int}
    {hash : Nat → UInt32} {handle : Option Nat}
    (ran : d.step (.createTable level hash handle) = .ok (retval, next)) :
    retval = .NICC_SUCCESS ∧
      Represents (r.step (.create (.createTable level hash handle))).2 next ∧ Keeps d next := by
  have domain : d.fdbDomain ≠ 0 := by
    intro null
    simp [FlowDomainFlowEngine.step, FlowDomainFlowEngine.createTable, FlowMATFlowEngine.construct,
      null] at ran
  rw [FlowDomainFlowEngine.step, createTable_eq domain] at ran
  cases ran
  have known : ∀ e ∈ d.tableMap, e.2 < d.tables.length := by
    rintro ⟨l, t⟩ member
    rw [represents.length]
    exact represents.created t ((represents.listed l t).mp member).1
  refine ⟨rfl, ⟨represents.sorted.insert level known, fun l t => ?_, ?_, fun t member => ?_⟩,
    ⟨List.prefix_append _ _, by rw [List.map_append]; exact List.prefix_append _ _⟩⟩
  · rw [mem_multiInsert, represents.listed, represents.length, Registry.step, Finset.mem_insert,
      Prod.mk.injEq]
    constructor
    · rintro (⟨rfl, rfl⟩ | ⟨used, there⟩)
      · exact ⟨.inl rfl, List.getElem?_concat_length⟩
      · exact ⟨.inr used, (List.getElem?_append_left (getElem?_lt there)).trans there⟩
    · rintro ⟨rfl | used, there⟩
      · rw [List.getElem?_concat_length] at there
        exact .inl ⟨(Option.some.inj there).symm, rfl⟩
      · rw [List.getElem?_append_left (represents.created t used)] at there
        exact .inr ⟨used, there⟩
  · rw [List.map_append, represents.levels]
    rfl
  · rw [Registry.step, List.length_append, List.length_singleton]
    rcases Finset.mem_insert.mp member with rfl | used
    · exact Nat.lt_succ_self _
    · exact Nat.lt_succ_of_lt (represents.created t used)

theorem destoryTable (represents : Represents r d) (table : Nat) :
    some (d.destoryTable table).1 = (r.step (.destoryTable table)).1 ∧
      Represents (r.step (.destoryTable table)).2 (d.destoryTable table).2 ∧
      Keeps d (d.destoryTable table).2 := by
  by_cases used : table ∈ r.inUse
  · obtain ⟨level, found⟩ : ∃ level, r.levels[table]? = some level :=
      ⟨_, List.getElem?_eq_getElem (represents.created table used)⟩
    have there : (level, table) ∈ d.tableMap := (represents.listed level table).mpr ⟨used, found⟩
    have alone : ∀ other, (other, table) ∈ d.tableMap → other = level := by
      intro other member
      exact Option.some.inj (((represents.listed other table).mp member).2.symm.trans found)
    have erased := mem_eraseP_value represents.sorted.nodup there alone
    have searched : d.destoryTable table = (.NICC_SUCCESS,
        { d with tableMap := d.tableMap.eraseP (·.2 = table) }) := by
      obtain ⟨e, first⟩ : ∃ e, d.tableMap.find? (·.2 = table) = some e :=
        Option.isSome_iff_exists.mp (List.find?_isSome.mpr ⟨(level, table), there, by simp⟩)
      rw [FlowDomainFlowEngine.destoryTable, first]
      rfl
    rw [searched, Registry.step, if_pos used]
    refine ⟨rfl, ⟨represents.sorted.sublist List.eraseP_sublist, fun l t => ?_, represents.levels,
      fun t member => represents.created t (Finset.mem_of_mem_erase member)⟩,
      ⟨List.prefix_rfl, List.prefix_rfl⟩⟩
    rw [erased, represents.listed, Finset.mem_erase]
    constructor
    · rintro ⟨⟨member, at_⟩, other⟩
      exact ⟨⟨other, member⟩, at_⟩
    · rintro ⟨⟨other, member⟩, at_⟩
      exact ⟨⟨member, at_⟩, other⟩
  · have missing : d.tableMap.find? (·.2 = table) = none := by
      rw [List.find?_eq_none]
      rintro ⟨l, t⟩ member
      simp only [decide_eq_true_eq]
      rintro rfl
      exact used ((represents.listed l t).mp member).1
    rw [FlowDomainFlowEngine.destoryTable, missing, Registry.step, if_neg used]
    exact ⟨rfl, represents, List.prefix_rfl, List.prefix_rfl⟩

theorem onTable (represents : Represents r d) {retval : Retval} {table : Nat}
    {call : FlowMAT → Retval × FlowMAT} (ran : d.onTable table call = .ok (retval, next)) :
    Represents r next ∧ Keeps d next := by
  rw [FlowDomainFlowEngine.onTable] at ran
  cases there : d.tables[table]? with
  | none =>
      rw [there] at ran
      cases ran
  | some t =>
      rw [there] at ran
      cases ran
      simpa using represents.tables there (call t.base).2 []

theorem createMatcher (represents : Represents r d) {retval : Retval} {table : Nat}
    {wc : FlowWildcards} {priority : Int} {uninitialized : UInt8} {handle : Option Nat}
    (ran : d.step (.createMatcher table wc priority uninitialized handle) = .ok (retval, next)) :
    Represents r next ∧ Keeps d next := by
  cases there : d.tables[table]? with
  | none =>
      rw [FlowDomainFlowEngine.step, FlowDomainFlowEngine.createMatcher, there] at ran
      cases ran
  | some t =>
      by_cases fresh : t.base.count (.ofWildcards wc) = 0
      · cases known : t.mlx5dvDrTbl with
        | none =>
            rw [FlowDomainFlowEngine.step, FlowDomainFlowEngine.createMatcher, there] at ran
            simp only [FlowMATFlowEngine.createMatcher_lost fresh known] at ran
            cases ran
        | some tbl =>
            rw [createMatcher_ran there (FlowMATFlowEngine.createMatcher_new fresh known ..)] at ran
            cases ran
            exact represents.tables there _ _
      · rw [createMatcher_ran there (FlowMATFlowEngine.createMatcher_duplicated fresh ..)] at ran
        cases ran
        exact represents.tables there t.base []

theorem step (represents : Represents r d) {retval : Retval} {call : ChainCall}
    (ran : d.chainStep call = .ok (retval, next)) :
    (∀ answer ∈ (r.step call).1, retval = answer) ∧ Represents (r.step call).2 next ∧
      Keeps d next := by
  have unanswered : ∀ answer ∈ (none : Option Retval), retval = answer := by simp
  cases call with
  | create call =>
      cases call with
      | createTable level hash handle =>
          obtain ⟨success, follows⟩ := represents.createTable ran
          exact ⟨fun answer given => success.trans (Option.some.inj given), follows⟩
      | createMatcher table wc priority uninitialized handle =>
          exact ⟨unanswered, represents.createMatcher ran⟩
  | destoryTable table =>
      obtain ⟨answered, follows⟩ := represents.destoryTable table
      have same : d.destoryTable table = (retval, next) := Except.ok.inj ran
      rw [same] at answered follows
      exact ⟨fun answer given => Option.some.inj (answered.trans given), follows⟩
  | detoryMatcher table matcher =>
      have ran : d.onTable table (·.detoryMatcher matcher) = .ok (retval, next) := ran
      exact ⟨unanswered, represents.onTable ran⟩
  | loadEntries table cal matcher entries len =>
      have ran : d.onTable table (FlowMAT.loadEntries cal · matcher entries len) =
        .ok (retval, next) := ran
      exact ⟨unanswered, represents.onTable ran⟩
  | unloadEntries table matcher entries len =>
      have ran : d.onTable table (·.unloadEntries matcher entries len) = .ok (retval, next) := ran
      exact ⟨unanswered, represents.onTable ran⟩

end Represents

def Tracks : FlowDomainFlowEngine → Registry → List ChainCall → Prop
  | _, _, [] => True
  | d, r, call :: calls => ∀ retval next, d.chainStep call = .ok (retval, next) →
      (∀ answer ∈ (r.step call).1, retval = answer) ∧ Represents (r.step call).2 next ∧
        Keeps d next ∧ Tracks next (r.step call).2 calls

theorem Represents.tracks {r : Registry} {d : FlowDomainFlowEngine} (represents : Represents r d)
    (calls : List ChainCall) : Tracks d r calls := by
  induction calls generalizing d r with
  | nil => trivial
  | cons call calls ih =>
      intro retval next ran
      obtain ⟨answered, represents, keeps⟩ := represents.step ran
      exact ⟨answered, represents, keeps, ih represents⟩

theorem start_represents (fdbDomain : Nat) : Represents .empty (start fdbDomain) where
  sorted := List.Pairwise.nil
  listed := by simp [start, Registry.empty]
  levels := rfl
  created := by simp [Registry.empty]

theorem tracks_registry (fdbDomain : Nat) (calls : List ChainCall) :
    Tracks (start fdbDomain) .empty calls :=
  (start_represents fdbDomain).tracks calls

end FlowDomainFlowEngine

end Nicc.Ctrl

import Nicc.Ctrl.AppDag
import Nicc.Lib.Text
import Mathlib.Data.List.Forall2

namespace Nicc.Ctrl
open Lib Pipeline

structure MatchCondition where
  field : List Char
  operatorType : List Char
  value : List Char
  deriving DecidableEq

structure ActionSpec where
  actionType : List Char
  target : List Char
  channelName : List Char
  deriving DecidableEq

structure DAGEdgeRule where
  sourceComponentName : String
  conditions : List MatchCondition
  action : ActionSpec
  sourceComponent : Nat
  kernelRetval : UInt8
  targetComponentId : List Char
  targetChannelName : List Char

namespace PipelineRouting

def parseMatchCondition (matchStr : List Char) : MatchCondition :=
  let found : Option (Nat × List Char) :=
    match find ['!', '='] matchStr, find ['='] matchStr, find ['>'] matchStr,
      find ['<'] matchStr with
    | some neqPos, _, _, _ => some (neqPos, ['!', '='])
    | none, some eqPos, _, _ => some (eqPos, ['='])
    | none, none, some gtPos, _ => some (gtPos, ['>'])
    | none, none, none, some ltPos => some (ltPos, ['<'])
    | none, none, none, none => none
  match found with
  | some (opPos, op) => ⟨matchStr.take opPos, op, matchStr.drop (opPos + op.length)⟩
  | none => ⟨matchStr, "exists".toList, []⟩

def parseActionSpec (actionStr : List Char) : ActionSpec :=
  match find ['('] actionStr with
  | none => ⟨actionStr, [], []⟩
  | some parenPos =>
      let actionType := actionStr.take parenPos
      match findFrom [')'] parenPos actionStr with
      | none => ⟨actionType, [], []⟩
      | some closeParenPos =>
          let targetSpec := (actionStr.drop (parenPos + 1)).take (closeParenPos - parenPos - 1)
          match find [':'] targetSpec with
          | some colonPos =>
              ⟨actionType, targetSpec.take colonPos, targetSpec.drop (colonPos + 1)⟩
          | none => ⟨actionType, targetSpec, "default".toList⟩

def componentNameToType (componentName : String) : Nat :=
  if componentName = "soc" then kComponent_SoC
  else if componentName = "dpa" then kComponent_DPA
  else if componentName = "flow_engine" then kComponent_FlowEngine
  else if componentName = "root" then kComponent_FlowEngine
  else kComponent_SoC

def extractRetvalFromConditions : List MatchCondition → UInt8
  | [] => 0
  | condition :: conditions =>
      if condition.field = "retval".toList ∧ condition.operatorType = ['='] then
        match stoul condition.value with
        | .ok value => value.toUInt8
        | .error _ => extractRetvalFromConditions conditions
      else extractRetvalFromConditions conditions

def ruleOf (componentName : String) (entry : CtrlEntry) : DAGEdgeRule :=
  let conditions := [parseMatchCondition entry.matchStr]
  let action := parseActionSpec entry.actionStr
  { sourceComponentName := componentName
    conditions := conditions
    action := action
    sourceComponent := componentNameToType componentName
    kernelRetval := extractRetvalFromConditions conditions
    targetComponentId := action.target
    targetChannelName := action.channelName }

def componentNames : List String := ["root", "soc", "dpa", "flow_engine", "decompress", "sha"]

-- A component that is missing is skipped. Every entry has a match and an action.
def loadFromAppDag (appDag : Option AppDag) (rules : List DAGEdgeRule) :
    Except String (Retval × List DAGEdgeRule) :=
  match appDag with
  | none => .error "SHUTDOWN BY NICC ERROR"
  | some dag => .ok (.NICC_SUCCESS, componentNames.foldl (fun rules componentName =>
      (dag.entries componentName).foldl (fun rules entry =>
        rules ++ [ruleOf componentName entry]) rules) rules)

structure Written (text : List Char) (action : ActionSpec) : Prop where
  channel : ∀ t g c, '(' ∉ t → ':' ∉ g → ')' ∉ g → ')' ∉ c →
    text = t ++ '(' :: (g ++ ':' :: c) ++ [')'] → action = ⟨t, g, c⟩
  target : ∀ t g, '(' ∉ t → ':' ∉ g → ')' ∉ g →
    text = t ++ '(' :: g ++ [')'] → action = ⟨t, g, "default".toList⟩
  simple : ∀ t, '(' ∉ t → text = t → action = ⟨t, [], []⟩

theorem parseActionSpec_call {t spec : List Char} (freeType : '(' ∉ t) (freeSpec : ')' ∉ spec) :
    parseActionSpec (t ++ '(' :: spec ++ [')']) =
      match find [':'] spec with
      | some colonPos => ⟨t, spec.take colonPos, spec.drop (colonPos + 1)⟩
      | none => ⟨t, spec, "default".toList⟩ := by
  have opened : find ['('] (t ++ '(' :: spec ++ [')']) = some t.length := by
    rw [List.append_assoc]
    exact find_char_append freeType _
  have closed : findFrom [')'] t.length (t ++ '(' :: spec ++ [')']) =
      some (t ++ '(' :: spec).length := by
    apply findFrom_char_append
    simp [freeSpec]
  have first : (t ++ '(' :: spec ++ [')']).take t.length = t := by simp
  have inside : ((t ++ '(' :: spec ++ [')']).drop (t.length + 1)).take
      ((t ++ '(' :: spec).length - t.length - 1) = spec := by simp [← List.drop_drop]
  simp only [parseActionSpec, opened, closed, first, inside]

theorem parseActionSpec_written (text : List Char) : Written text (parseActionSpec text) where
  channel := by
    rintro t g c freeType freeTarget closedTarget closedChannel rfl
    have free : ')' ∉ g ++ ':' :: c := by simp [closedTarget, closedChannel]
    rw [parseActionSpec_call freeType free, find_char_append freeTarget]
    simp [← List.drop_drop]
  target := by
    rintro t g freeType freeTarget closed rfl
    rw [parseActionSpec_call freeType closed, find_char_eq_none freeTarget]
  simple := by
    rintro t freeType rfl
    rw [parseActionSpec, find_char_eq_none freeType]

structure Keeps (name : String) (entry : CtrlEntry) (rule : DAGEdgeRule) : Prop where
  source : rule.sourceComponentName = name
  condition : rule.conditions = [parseMatchCondition entry.matchStr]
  action : Written entry.actionStr rule.action

/-- The rules with a component as their source stand for its entries, one for one and in order. -/
def KeepsAll (dag : AppDag) (rules : List DAGEdgeRule) : Prop :=
  ∀ name, List.Forall₂ (Keeps name) (dag.entries name)
    (rules.filter (·.sourceComponentName = name))

theorem loadFromAppDag_eq (dag : AppDag) (rules : List DAGEdgeRule) :
    loadFromAppDag (some dag) rules = .ok (.NICC_SUCCESS,
      rules ++ componentNames.flatMap fun name => (dag.entries name).map (ruleOf name)) := by
  have inner (name : String) (entries : List CtrlEntry) (rules : List DAGEdgeRule) :
      entries.foldl (fun rules entry => rules ++ [ruleOf name entry]) rules =
        rules ++ entries.map (ruleOf name) := by
    induction entries generalizing rules with
    | nil => simp
    | cons entry entries ih => rw [List.foldl_cons, ih]; simp
  have outer (names : List String) (rules : List DAGEdgeRule) :
      names.foldl (fun rules name => (dag.entries name).foldl (fun rules entry =>
        rules ++ [ruleOf name entry]) rules) rules =
        rules ++ names.flatMap fun name => (dag.entries name).map (ruleOf name) := by
    induction names generalizing rules with
    | nil => simp
    | cons name names ih => rw [List.foldl_cons, ih, inner]; simp
  rw [loadFromAppDag, outer]

theorem filter_source (entriesOf : String → List CtrlEntry) {names : List String}
    (distinct : names.Nodup) (name : String) :
    (names.flatMap fun other => (entriesOf other).map (ruleOf other)).filter
        (·.sourceComponentName = name) =
      if name ∈ names then (entriesOf name).map (ruleOf name) else [] := by
  have own (other : String) : ((entriesOf other).map (ruleOf other)).filter
      (·.sourceComponentName = name) =
      if other = name then (entriesOf name).map (ruleOf name) else [] := by
    rw [List.filter_map]
    by_cases same : other = name
    · subst same
      simp [Function.comp_def, ruleOf]
    · simp [Function.comp_def, ruleOf, same]
  induction names with
  | nil => rfl
  | cons other names ih =>
      obtain ⟨fresh, distinctRest⟩ := List.nodup_cons.mp distinct
      rw [List.flatMap_cons, List.filter_append, own, ih distinctRest]
      by_cases same : other = name
      · subst same
        simp [fresh]
      · have turned : ¬ name = other := fun equal => same equal.symm
        simp [same, turned]

theorem forall₂_ruleOf (name : String) (entries : List CtrlEntry) :
    List.Forall₂ (Keeps name) entries (entries.map (ruleOf name)) := by
  induction entries with
  | nil => exact .nil
  | cons entry entries ih => exact .cons ⟨rfl, rfl, parseActionSpec_written _⟩ ih

theorem loadFromAppDag_keeps_iff {items : List GraphItem} {dag : AppDag}
    (loaded : AppDag.loadFromFile items = .ok dag) :
    (∃ rules, loadFromAppDag (some dag) [] = .ok (.NICC_SUCCESS, rules) ∧ KeepsAll dag rules) ↔
      dag.entries "remote_host" = [] ∧ dag.entries "local_host" = [] := by
  have rules := loadFromAppDag_eq dag []
  rw [List.nil_append] at rules
  rw [rules]
  have distinct : componentNames.Nodup := by decide
  constructor
  · rintro ⟨_, same, keeps⟩
    cases same
    have remote := keeps "remote_host"
    have local' := keeps "local_host"
    rw [filter_source dag.entries distinct, if_neg (by decide)] at remote local'
    exact ⟨List.forall₂_nil_right_iff.mp remote, List.forall₂_nil_right_iff.mp local'⟩
  · rintro ⟨remote, local'⟩
    refine ⟨_, rfl, fun name => ?_⟩
    rw [filter_source dag.entries distinct]
    by_cases walked : name ∈ componentNames
    · rw [if_pos walked]
      exact forall₂_ruleOf name _
    · have empty : dag.entries name = [] := by
        by_cases known : name ∈ AppDag.knownNames
        · have host : name = "remote_host" ∨ name = "local_host" := by
            simp_all [AppDag.knownNames, componentNames]
          rcases host with rfl | rfl
          · exact remote
          · exact local'
        · exact AppDag.loadFromFile_known loaded known
      rw [if_neg walked, empty]
      exact .nil

def threeComponents : List GraphItem :=
  [⟨some "root", [⟨"nw_proto=17".toList, "fwd(dpa:udp)".toList⟩]⟩,
    ⟨some "dpa", [⟨"retval=1".toList, "fwd(soc)".toList⟩, ⟨"retval=2".toList, "drop".toList⟩]⟩,
    ⟨some "soc", [⟨"retval=0".toList, "fwd(dpa:reply)".toList⟩]⟩]

theorem threeComponents_kept : ∃ dag, AppDag.loadFromFile threeComponents = .ok dag ∧
    (dag.entries "dpa").length = 2 ∧
      ∃ rules, loadFromAppDag (some dag) [] = .ok (.NICC_SUCCESS, rules) ∧ KeepsAll dag rules := by
  obtain ⟨dag, loaded, noHosts, two⟩ : ∃ dag, AppDag.loadFromFile threeComponents = .ok dag ∧
      (dag.entries "remote_host" = [] ∧ dag.entries "local_host" = []) ∧
        (dag.entries "dpa").length = 2 := ⟨_, rfl, ⟨rfl, rfl⟩, rfl⟩
  exact ⟨dag, loaded, two, (loadFromAppDag_keeps_iff loaded).mpr noHosts⟩

theorem host_rule_lost : ∃ dag, AppDag.loadFromFile
    [⟨some "remote_host", [⟨"retval=1".toList, "fwd(soc)".toList⟩]⟩] = .ok dag ∧
      ¬ ∃ rules, loadFromAppDag (some dag) [] = .ok (.NICC_SUCCESS, rules) ∧
        KeepsAll dag rules := by
  refine ⟨_, rfl, ?_⟩
  rintro ⟨rules, loaded, keeps⟩
  cases loaded
  have lengths := (keeps "remote_host").length_eq
  cases lengths

end PipelineRouting

end Nicc.Ctrl

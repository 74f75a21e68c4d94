import Nicc.Pipeline.ResourcePool

namespace Nicc.Ctrl
open Lib Pipeline

def kComponent_Unknown : Nat := 0x00
def kRemote_Host : Nat := 0x1000
def kLocal_Host : Nat := 0x2000

structure CtrlEntry where
  matchStr : List Char
  actionStr : List Char

structure DAGComponent where
  name : String
  componentId : Nat
  ctrlEntries : List CtrlEntry

structure GraphItem where
  component : Option String
  entries : List CtrlEntry

def componentNameToId (name : String) : Except String Nat :=
  if name = "root" then .ok kComponent_Unknown
  else if name = "flow_engine" then .ok kComponent_FlowEngine
  else if name = "dpa" then .ok kComponent_DPA
  else if name = "soc" then .ok kComponent_SoC
  else if name = "remote_host" then .ok kRemote_Host
  else if name = "local_host" then .ok kLocal_Host
  else .error "SHUTDOWN BY NICC ERROR"

structure AppDag where
  componentsMap : String → Option DAGComponent

namespace AppDag

def storeItem (dag : AppDag) (item : GraphItem) : Except String AppDag :=
  match item.component with
  | none => .ok dag
  | some name => do
      let id ← componentNameToId name
      .ok ⟨Function.update dag.componentsMap name (some ⟨name, id, item.entries⟩)⟩

def loadFromFile (items : List GraphItem) : Except String AppDag :=
  run storeItem ⟨fun _ => none⟩ items

def entries (dag : AppDag) (name : String) : List CtrlEntry :=
  match dag.componentsMap name with
  | none => []
  | some component => component.ctrlEntries

def knownNames : List String := ["root", "flow_engine", "dpa", "soc", "remote_host", "local_host"]

theorem componentNameToId_ok {name : String} {id : Nat} (known : componentNameToId name = .ok id) :
    name ∈ knownNames := by
  unfold componentNameToId at known
  split_ifs at known with root flowEngine dpa soc remote local' <;> simp [knownNames, *]

theorem storeItem_known {dag next : AppDag} {item : GraphItem} (stored : storeItem dag item = .ok next)
    (known : ∀ name, dag.componentsMap name ≠ none → name ∈ knownNames) :
    ∀ name, next.componentsMap name ≠ none → name ∈ knownNames := by
  intro name present
  unfold storeItem at stored
  cases called : item.component with
  | none =>
      rw [called] at stored
      cases stored
      exact known name present
  | some new =>
      rw [called] at stored
      obtain ⟨id, accepted, made⟩ := bind_eq_ok.mp stored
      cases made
      by_cases same : name = new
      · exact same ▸ componentNameToId_ok accepted
      · apply known name
        change Function.update dag.componentsMap new _ name ≠ none at present
        rwa [Function.update_of_ne same] at present

theorem loadFromFile_known {items : List GraphItem} {dag : AppDag}
    (loaded : loadFromFile items = .ok dag) {name : String} (unknown : name ∉ knownNames) :
    dag.entries name = [] := by
  have known := run_invariant
    (fun dag : AppDag => ∀ name, dag.componentsMap name ≠ none → name ∈ knownNames) (fun _ => True)
    (fun _ _ _ before _ stored => storeItem_known stored before)
    (fun _ present => absurd rfl present) (fun _ _ => trivial) loaded
  have absent : dag.componentsMap name = none := by
    by_contra present
    exact unknown (known name present)
  rw [entries, absent]

end AppDag

end Nicc.Ctrl

import Nicc.Ctrl.FlowWildcards
import Nicc.Dpa.AllocateChannel
import Nicc.Lib.Objects

namespace Nicc.Dpa.ControlRule
open Lib Ctrl

inductive Kind
  | matchMask
  | flowTable
  | drTable
  | drMatcher
  | flowRule
  | drAction
  | drRule
  deriving DecidableEq, Repr

inductive Object
  | matchMask (p : Nat)
  | flowTable (p : Nat)
  | drTable (p domain : Nat) (level : Int)
  | drMatcher (p table : Nat) (priority : Int) (criteria : UInt8) (mask : MatchParam)
  | flowRule (p : Nat)
  | drAction (p tir : Nat)
  | drRule (p matcher : Nat) (value : MatchParam) (actions : List Nat)

namespace Object

def name : Object → Kind × Nat
  | matchMask p => (.matchMask, p)
  | flowTable p => (.flowTable, p)
  | drTable p .. => (.drTable, p)
  | drMatcher p .. => (.drMatcher, p)
  | flowRule p => (.flowRule, p)
  | drAction p _ => (.drAction, p)
  | drRule p .. => (.drRule, p)

def refs : Object → List (Kind × Nat)
  | drMatcher _ table .. => [(.drTable, table)]
  | drRule _ matcher _ actions => (.drMatcher, matcher) :: actions.map (.drAction, ·)
  | _ => []

def naming : Naming Object (Kind × Nat) := ⟨name, refs⟩

end Object

abbrev Store : Type := Objects Object (Kind × Nat)

/-- What the driver and the C library answer in one call. A pointer that is returned is not null, and
is not that of something that exists. -/
structure Driver where
  grants : Kind → Bool
  handle : Kind → List Object → Nat
  fresh : ∀ kind live, handle kind live ≠ 0 ∧ (kind, handle kind live) ∉ live.map Object.name

def make (d : Driver) (kind : Kind) (object : Nat → Object) (s : Store) : Nat × Store :=
  if d.grants kind then (d.handle kind s.live, s.create (object (d.handle kind s.live)))
  else (0, s)

def destroy (kind : Kind) (p : Nat) (s : Store) : Store := s.destroy Object.naming (kind, p)

def destroyIf (kind : Kind) (p : Nat) (s : Store) : Store := if p ≠ 0 then destroy kind p s else s

structure DrFlowTable where
  self : Nat
  drTable : Nat
  drMatcher : Nat

def DrFlowTable.release (tbl : DrFlowTable) (s : Store) : Store :=
  destroy .flowTable tbl.self (destroyIf .drTable tbl.drTable (destroyIf .drMatcher tbl.drMatcher s))

/-- No table comes with an error. -/
def createFlowTable (d : Driver) (domain : Nat) (level priority : Int) (matchMask : MatchParam)
    (s : Store) : Option DrFlowTable × Store :=
  let (self, s) := make d .flowTable .flowTable s
  if self = 0 then (none, s)
  else
    let tbl : DrFlowTable := ⟨self, 0, 0⟩
    let (drTable, s) := make d .drTable (.drTable · domain level) s
    let tbl := { tbl with drTable := drTable }
    if drTable = 0 then (none, tbl.release s)
    else
      let (drMatcher, s) := make d .drMatcher (.drMatcher · tbl.drTable priority 1 matchMask) s
      let tbl := { tbl with drMatcher := drMatcher }
      if drMatcher = 0 then (none, tbl.release s)
      else (some tbl, s)

def SRC_MAC : Nat := 0xa088c2bf464e

def devxSet (bits : MatchParam) (field : MatchField) (value : Nat) : MatchParam :=
  Function.update bits field (BitVec.ofNat field.width value)

def matchMask : MatchParam :=
  devxSet (devxSet MatchParam.zero .smac_47_16 0xffffffff) .smac_15_0 0xffff

/-- The same memory is filled a second time. -/
def matchValue : MatchParam :=
  devxSet (devxSet matchMask .smac_47_16 (SRC_MAC >>> 16)) .smac_15_0 (SRC_MAC % (1 <<< 16))

def exit (mask : Nat) (s : Store) : Retval × Store :=
  (.NICC_ERROR_HARDWARE_FAILURE, destroyIf .matchMask mask s)

def createRule (d : Driver) (tir mask : Nat) (rxFlowTable : DrFlowTable) (s : Store) :
    Retval × Store :=
  let (rxRule, s) := make d .flowRule .flowRule s
  if rxRule = 0 then exit mask (rxFlowTable.release s)
  else
    let (drAction, s) := make d .drAction (.drAction · tir) s
    if drAction = 0 then exit mask (rxFlowTable.release (destroy .flowRule rxRule s))
    else
      let (drRule, s) := make d .drRule (.drRule · rxFlowTable.drMatcher matchValue [drAction]) s
      if drRule = 0 then
        exit mask (rxFlowTable.release (destroy .flowRule rxRule (destroyIf .drAction drAction s)))
      else (.NICC_SUCCESS, destroy .matchMask mask s)

def internalAddControlPlaneRule (d : Driver) (domain tir : Nat) (s : Store) : Retval × Store :=
  let (mask, s) := make d .matchMask .matchMask s
  if mask = 0 then exit mask s
  else
    match createFlowTable d domain 0 0 matchMask s with
    | (none, s) => exit mask s
    | (some rxFlowTable, s) => createRule d tir mask rxFlowTable s

def addControlPlaneRule (d : Driver) (type : Channel.ChannelType) (domain tir : Nat) (s : Store) :
    Retval × Store :=
  if type = .ETHERNET then internalAddControlPlaneRule d domain tir s else (.NICC_SUCCESS, s)

abbrev Packet : Type := MatchParam

def Packet.sourceMac (packet : Packet) : BitVec 48 :=
  (packet .smac_47_16 : BitVec 32) ++ (packet .smac_15_0 : BitVec 16)

def Catches (mask value : MatchParam) (packet : Packet) : Prop :=
  ∀ field, packet field &&& mask field = value field &&& mask field

theorem append_eq_append {w v : Nat} {high high' : BitVec w} {low low' : BitVec v} :
    high ++ low = high' ++ low' ↔ high = high' ∧ low = low' := by
  constructor
  · intro same
    have first := congrArg (BitVec.extractLsb' v w) same
    have last := congrArg (BitVec.setWidth v) same
    rw [BitVec.extractLsb'_append_eq_left, BitVec.extractLsb'_append_eq_left] at first
    rw [BitVec.setWidth_append_eq_right, BitVec.setWidth_append_eq_right] at last
    exact ⟨first, last⟩
  · rintro ⟨rfl, rfl⟩
    rfl

theorem matchMask_field (field : MatchField) :
    matchMask field = if field = .smac_47_16 ∨ field = .smac_15_0 then BitVec.allOnes field.width
      else BitVec.ofNat field.width 0 := by
  by_cases low : field = .smac_15_0
  · subst low
    rfl
  · by_cases high : field = .smac_47_16
    · subst high
      rfl
    · rw [if_neg (by simp [low, high]), matchMask, devxSet, Function.update_of_ne low, devxSet,
        Function.update_of_ne high]
      rfl

theorem catches_iff (packet : Packet) :
    Catches matchMask matchValue packet ↔ packet.sourceMac = BitVec.ofNat 48 SRC_MAC := by
  have split : BitVec.ofNat 48 SRC_MAC =
      (matchValue .smac_47_16 : BitVec 32) ++ (matchValue .smac_15_0 : BitVec 16) := rfl
  have parts : packet.sourceMac = BitVec.ofNat 48 SRC_MAC ↔
      packet .smac_47_16 = matchValue .smac_47_16 ∧ packet .smac_15_0 = matchValue .smac_15_0 := by
    rw [split]
    exact append_eq_append (w := 32) (v := 16)
  rw [parts]
  constructor
  · intro caught
    have first := caught .smac_47_16
    have last := caught .smac_15_0
    rw [matchMask_field, if_pos (.inl rfl), BitVec.and_allOnes, BitVec.and_allOnes] at first
    rw [matchMask_field, if_pos (.inr rfl), BitVec.and_allOnes, BitVec.and_allOnes] at last
    exact ⟨first, last⟩
  · rintro ⟨first, last⟩ field
    rw [matchMask_field]
    split_ifs with source
    · rcases source with rfl | rfl
      · exact congrArg (· &&& _) first
      · exact congrArg (· &&& _) last
    · rw [BitVec.and_zero, BitVec.and_zero]

section
variable {d : Driver} {kind : Kind} {object : Nat → Object} {s : Store}

theorem make_granted (granted : d.grants kind = true) :
    make d kind object s = (d.handle kind s.live, s.create (object (d.handle kind s.live))) :=
  if_pos granted

theorem make_refused (refused : ¬ d.grants kind = true) : make d kind object s = (0, s) :=
  if_neg refused

theorem handle_ne (d : Driver) (kind : Kind) (live : List Object) : d.handle kind live ≠ 0 :=
  (d.fresh kind live).1

theorem destroyIf_zero (kind : Kind) (s : Store) : destroyIf kind 0 s = s := if_neg (by simp)

theorem destroyIf_there (kind : Kind) {p : Nat} (there : p ≠ 0) (s : Store) :
    destroyIf kind p s = destroy kind p s := if_pos there

end

structure Grown (newest : List Object) (before after : Store) : Prop where
  live : after.live = newest ++ before.live
  sound : after.Sound Object.naming

namespace Grown

variable {newest rest : List Object} {before s : Store}

theorem create (grown : Grown newest before s) (d : Driver) (kind : Kind) (object : Nat → Object)
    (named : ∀ p, (object p).name = (kind, p))
    (known : ∀ n ∈ (object (d.handle kind s.live)).refs, n ∈ newest.map Object.name) :
    Grown (object (d.handle kind s.live) :: newest) before
      (s.create (object (d.handle kind s.live))) where
  live := congrArg (object (d.handle kind s.live) :: ·) grown.live
  sound := by
    refine grown.sound.create ?_ fun n refers => ?_
    · change (object (d.handle kind s.live)).name ∉ s.live.map Object.name
      rw [named]
      exact (d.fresh kind s.live).2
    · change n ∈ s.live.map Object.name
      rw [grown.live, List.map_append]
      exact List.mem_append_left _ (known n refers)

theorem unwind (newest : List Object) (grown : Grown (newest ++ rest) before s) :
    Grown rest before ((newest.map Object.name).foldl (Objects.destroy Object.naming) s) := by
  obtain ⟨live, sound⟩ := grown.sound.unwind (grown.live.trans (List.append_assoc ..))
  exact ⟨live, sound⟩

theorem createFlowTable (grown : Grown newest before s) (d : Driver) (domain : Nat)
    (level priority : Int) (mask : MatchParam) :
    (∃ self table matcher after, createFlowTable d domain level priority mask s =
        (some ⟨self, table, matcher⟩, after) ∧ table ≠ 0 ∧ matcher ≠ 0 ∧
      (d.grants .flowTable = true ∧ d.grants .drTable = true ∧ d.grants .drMatcher = true) ∧
      Grown ([.drMatcher matcher table priority 1 mask, .drTable table domain level,
        .flowTable self] ++ newest) before after) ∨
    (∃ after, createFlowTable d domain level priority mask s = (none, after) ∧
      ¬ (d.grants .flowTable = true ∧ d.grants .drTable = true ∧ d.grants .drMatcher = true) ∧
      Grown newest before after) := by
  unfold ControlRule.createFlowTable
  by_cases one : d.grants .flowTable = true
  · have first := grown.create d .flowTable .flowTable (fun _ => rfl)
      (fun n refers => by cases refers)
    rw [make_granted one]
    simp only [handle_ne, if_false]
    by_cases two : d.grants .drTable = true
    · have second := first.create d .drTable (.drTable · domain level) (fun _ => rfl)
        (fun n refers => by cases refers)
      rw [make_granted two]
      simp only [handle_ne, if_false]
      by_cases three : d.grants .drMatcher = true
      · rw [make_granted three]
        simp only [handle_ne, if_false]
        refine .inl ⟨_, _, _, _, rfl, handle_ne _ _ _, handle_ne _ _ _, ⟨one, two, three⟩, ?_⟩
        refine second.create d .drMatcher (.drMatcher · _ priority 1 mask) (fun _ => rfl) ?_
        intro n refers
        rw [List.mem_singleton.mp refers]
        exact List.mem_cons_self
      · rw [make_refused three]
        refine .inr ⟨_, rfl, fun all => three all.2.2, ?_⟩
        rw [DrFlowTable.release, destroyIf_zero, destroyIf_there _ (handle_ne _ _ _)]
        exact unwind [_, _] second
    · rw [make_refused two]
      refine .inr ⟨_, rfl, fun all => two all.2.1, ?_⟩
      rw [DrFlowTable.release, destroyIf_zero, destroyIf_zero]
      exact unwind [_] first
  · rw [make_refused one]
    exact .inr ⟨_, rfl, fun all => one all.1, grown⟩

theorem release {self table matcher domain : Nat} {level priority : Int} {criteria : UInt8}
    {mask : MatchParam}
    (grown : Grown ([.drMatcher matcher table priority criteria mask, .drTable table domain level,
      .flowTable self] ++ rest) before s) (hasTable : table ≠ 0) (hasMatcher : matcher ≠ 0) :
    Grown rest before (DrFlowTable.release ⟨self, table, matcher⟩ s) := by
  rw [DrFlowTable.release, destroyIf_there _ hasMatcher, destroyIf_there _ hasTable]
  exact unwind [_, _, _] grown

theorem exit {mask : Nat} (grown : Grown [.matchMask mask] before s) (there : mask ≠ 0) :
    ∃ after, exit mask s = (.NICC_ERROR_HARDWARE_FAILURE, after) ∧ Grown [] before after := by
  refine ⟨_, rfl, ?_⟩
  rw [destroyIf_there _ there]
  exact unwind [_] grown

end Grown

structure Call where
  driver : Driver
  type : Channel.ChannelType
  domain : Nat
  tir : Nat

def kinds : List Kind :=
  [.matchMask, .flowTable, .drTable, .drMatcher, .flowRule, .drAction, .drRule]

def Call.granted (c : Call) : Bool := decide (c.type = .ETHERNET) && kinds.all c.driver.grants

def step (s : Store) (c : Call) : Retval × Store :=
  addControlPlaneRule c.driver c.type c.domain c.tir s

def addAll (s : Store) (calls : List Call) : Store := calls.foldl (fun s c => (step s c).2) s

/-- Six objects are left, of which the newest steers the packets of one source to the queue. -/
def Installed (domain tir : Nat) (before after : List Object) : Prop :=
  ∃ flowTable table matcher flowRule action rule mask value, after =
    [.drRule rule matcher value [action], .drAction action tir, .flowRule flowRule,
      .drMatcher matcher table 0 1 mask, .drTable table domain 0, .flowTable flowTable] ++ before ∧
    ∀ packet, Catches mask value packet ↔ packet.sourceMac = BitVec.ofNat 48 SRC_MAC

structure Served (c : Call) (before : Store) (retval : Retval) (after : Store) : Prop where
  answer : retval = .NICC_SUCCESS ↔ c.type = .ETHERNET → c.granted = true
  refused : c.granted = false → after.live = before.live
  installed : c.granted = true → Installed c.domain c.tir before.live after.live

def EachServed : Store → List Call → Prop
  | _, [] => True
  | s, c :: calls => Served c s (step s c).1 (step s c).2 ∧ EachServed (step s c).2 calls

theorem all_grants (d : Driver) :
    kinds.all d.grants = true ↔ ∀ kind, d.grants kind = true := by
  rw [List.all_eq_true]
  refine ⟨fun all kind => all kind ?_, fun all kind _ => all kind⟩
  cases kind <;> decide

theorem not_all_grants {d : Driver} {kind : Kind} (refused : ¬ d.grants kind = true) :
    kinds.all d.grants = false := by
  rw [← Bool.not_eq_true, all_grants]
  exact fun all => refused (all kind)

theorem Grown.installed {before s : Store} {mask : Nat} (newest : List Object)
    (grown : Grown (newest ++ [.matchMask mask]) before s)
    (unused : ∀ o ∈ newest, (.matchMask, mask) ∉ o.refs) :
    (destroy .matchMask mask s).live = newest ++ before.live ∧
      (destroy .matchMask mask s).Sound Object.naming :=
  grown.sound.destroy (o := .matchMask mask) (grown.live.trans (List.append_assoc ..)) unused

theorem no_refs {n : Kind × Nat} {newest : List Object} (refers : n ∈ ([] : List (Kind × Nat))) :
    n ∈ newest.map Object.name := by cases refers

theorem createRule_spec {before s : Store} {domain self table matcher mask : Nat}
    (grown : Grown ([.drMatcher matcher table 0 1 matchMask, .drTable table domain 0,
      .flowTable self] ++ [.matchMask mask]) before s)
    (hasTable : table ≠ 0) (hasMatcher : matcher ≠ 0) (hasMask : mask ≠ 0) (d : Driver) (tir : Nat) :
    (∃ after, createRule d tir mask ⟨self, table, matcher⟩ s = (.NICC_SUCCESS, after) ∧
      (d.grants .flowRule = true ∧ d.grants .drAction = true ∧ d.grants .drRule = true) ∧
      Installed domain tir before.live after.live ∧ after.Sound Object.naming) ∨
    (∃ after, createRule d tir mask ⟨self, table, matcher⟩ s =
        (.NICC_ERROR_HARDWARE_FAILURE, after) ∧
      kinds.all d.grants = false ∧ Grown [] before after) := by
  unfold createRule
  by_cases rules : d.grants .flowRule = true
  · have withRule := grown.create d .flowRule .flowRule (fun _ => rfl) (fun _ => no_refs)
    rw [make_granted rules]
    simp only [handle_ne, if_false]
    by_cases actions : d.grants .drAction = true
    · have withAction := withRule.create d .drAction (.drAction · tir) (fun _ => rfl)
        (fun _ => no_refs)
      rw [make_granted actions]
      simp only [handle_ne, if_false]
      by_cases drRules : d.grants .drRule = true
      · have whole := withAction.create d .drRule (.drRule · matcher matchValue [_]) (fun _ => rfl)
          (by
            intro n refers
            rcases List.mem_cons.mp refers with rfl | action
            · simp [Object.name]
            · rw [List.mem_singleton.mp action]
              exact List.mem_cons_self)
        rw [make_granted drRules]
        simp only [handle_ne, if_false]
        obtain ⟨live, sound⟩ := whole.installed [_, _, _, _, _, _] (by simp [Object.refs])
        exact .inl ⟨_, rfl, ⟨rules, actions, drRules⟩,
          ⟨_, _, _, _, _, _, _, _, live, catches_iff⟩, sound⟩
      · rw [make_refused drRules]
        simp only [if_true]
        rw [destroyIf_there _ (handle_ne _ _ _)]
        obtain ⟨after, left, back⟩ :=
          ((Grown.unwind [_, _] withAction).release hasTable hasMatcher).exit hasMask
        exact .inr ⟨after, left, not_all_grants drRules, back⟩
    · rw [make_refused actions]
      simp only [if_true]
      obtain ⟨after, left, back⟩ :=
        ((Grown.unwind [_] withRule).release hasTable hasMatcher).exit hasMask
      exact .inr ⟨after, left, not_all_grants actions, back⟩
  · rw [make_refused rules]
    simp only [if_true]
    obtain ⟨after, left, back⟩ := (grown.release hasTable hasMatcher).exit hasMask
    exact .inr ⟨after, left, not_all_grants rules, back⟩

theorem internalAddControlPlaneRule_spec {s : Store} (sound : s.Sound Object.naming) (d : Driver)
    (domain tir : Nat) :
    (∃ after, internalAddControlPlaneRule d domain tir s = (.NICC_SUCCESS, after) ∧
      kinds.all d.grants = true ∧ Installed domain tir s.live after.live ∧
      after.Sound Object.naming) ∨
    (∃ after, internalAddControlPlaneRule d domain tir s =
        (.NICC_ERROR_HARDWARE_FAILURE, after) ∧
      kinds.all d.grants = false ∧ Grown [] s after) := by
  have start : Grown [] s s := ⟨rfl, sound⟩
  unfold internalAddControlPlaneRule
  by_cases masks : d.grants .matchMask = true
  · have withMask := start.create d .matchMask .matchMask (fun _ => rfl) (fun _ => no_refs)
    have hasMask := handle_ne d .matchMask s.live
    rw [make_granted masks]
    simp only [hasMask, if_false]
    rcases withMask.createFlowTable d domain 0 0 matchMask with
      ⟨self, table, matcher, s2, made, hasTable, hasMatcher, ⟨selfs, tables, matchers⟩, withTable⟩ |
      ⟨s2, failed, refused, back⟩
    · rw [made]
      rcases createRule_spec withTable hasTable hasMatcher hasMask d tir with
        ⟨after, ran, ⟨rules, actions, drRules⟩, installed, sound⟩ | failed
      · refine .inl ⟨after, ran, (all_grants d).mpr fun kind => ?_, installed, sound⟩
        cases kind <;> assumption
      · exact .inr failed
    · rw [failed]
      obtain ⟨after, left, back⟩ := back.exit hasMask
      refine .inr ⟨after, left, ?_, back⟩
      rw [← Bool.not_eq_true, all_grants]
      exact fun all => refused ⟨all _, all _, all _⟩
  · rw [make_refused masks]
    simp only [if_true]
    exact .inr ⟨s, by rw [exit, destroyIf_zero], not_all_grants masks, start⟩

theorem step_served {s : Store} (sound : s.Sound Object.naming) (c : Call) :
    Served c s (step s c).1 (step s c).2 ∧ (step s c).2.Sound Object.naming := by
  by_cases ethernet : c.type = .ETHERNET
  · have whole : c.granted = kinds.all c.driver.grants := by simp [Call.granted, ethernet]
    have called : step s c = internalAddControlPlaneRule c.driver c.domain c.tir s :=
      if_pos ethernet
    rcases internalAddControlPlaneRule_spec sound c.driver c.domain c.tir with
      ⟨after, ran, all, installed, kept⟩ | ⟨after, ran, refused, back⟩
    · rw [called, ran]
      rw [all] at whole
      exact ⟨⟨by simp [whole], by simp [whole], fun _ => installed⟩, kept⟩
    · rw [called, ran]
      rw [refused] at whole
      exact ⟨⟨by simp [whole, ethernet], fun _ => back.live, by simp [whole]⟩, back.sound⟩
  · have called : step s c = (.NICC_SUCCESS, s) := if_neg ethernet
    have nothing : c.granted = false := by simp [Call.granted, ethernet]
    rw [called]
    exact ⟨⟨by simp [ethernet], fun _ => rfl, by simp [nothing]⟩, sound⟩

theorem rules_rolled_back {s : Store} (sound : s.Sound Object.naming) (calls : List Call) :
    EachServed s calls ∧ (addAll s calls).Sound Object.naming ∧
      s.live <:+ (addAll s calls).live ∧
      (addAll s calls).live.length = s.live.length + 6 * calls.countP Call.granted := by
  induction calls generalizing s with
  | nil => exact ⟨trivial, sound, List.suffix_refl _, rfl⟩
  | cons c calls ih =>
      obtain ⟨served, kept⟩ := step_served sound c
      obtain ⟨each, finished, older, counted⟩ := ih kept
      refine ⟨⟨served, each⟩, finished, ?_⟩
      change s.live <:+ (addAll (step s c).2 calls).live ∧
        (addAll (step s c).2 calls).live.length = _
      cases granted : c.granted with
      | true =>
          obtain ⟨_, _, _, _, _, _, _, _, live, -⟩ := served.installed granted
          rw [live] at older counted
          refine ⟨(List.suffix_append _ _).trans older, ?_⟩
          rw [List.countP_cons_of_pos granted, counted, List.length_append]
          simp only [List.length_cons, List.length_nil]
          omega
      | false =>
          rw [served.refused granted] at older counted
          rw [List.countP_cons_of_neg (by simp [granted])]
          exact ⟨older, counted⟩

def sumOfHandles (live : List Object) : Nat := live.foldr (fun o total => o.name.2 + total) 0

theorem le_sumOfHandles {live : List Object} {o : Object} (member : o ∈ live) :
    o.name.2 ≤ sumOfHandles live := by
  induction live with
  | nil => exact absurd member List.not_mem_nil
  | cons p live ih =>
      rw [sumOfHandles, List.foldr_cons]
      rcases List.mem_cons.mp member with rfl | later
      · exact Nat.le_add_right _ _
      · exact (ih later).trans (Nat.le_add_left _ _)

theorem sumOfHandles_fresh (kind : Kind) (live : List Object) :
    sumOfHandles live + 1 ≠ 0 ∧ (kind, sumOfHandles live + 1) ∉ live.map Object.name := by
  refine ⟨Nat.succ_ne_zero _, fun there => ?_⟩
  obtain ⟨o, member, same⟩ := List.mem_map.mp there
  have bound := le_sumOfHandles member
  rw [same] at bound
  exact absurd bound (Nat.not_succ_le_self _)

def answering (grants : Kind → Bool) : Driver :=
  ⟨grants, fun _ live => sumOfHandles live + 1, sumOfHandles_fresh⟩

theorem refused_then_granted :
    let calls : List Call := [⟨answering (· ≠ .drRule), .ETHERNET, 7, 5⟩,
      ⟨answering fun _ => true, .ETHERNET, 7, 5⟩]
    EachServed ⟨[], []⟩ calls ∧ (addAll ⟨[], []⟩ calls).Sound Object.naming ∧
      [] <:+ (addAll ⟨[], []⟩ calls).live ∧
      (addAll ⟨[], []⟩ calls).live.length = 0 + 6 * calls.countP Call.granted :=
  rules_rolled_back (s := ⟨[], []⟩) ⟨List.nodup_nil, trivial, by simp⟩ _

end Nicc.Dpa.ControlRule

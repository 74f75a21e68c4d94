import Nicc.Ctrl.Routing

namespace Nicc.Ctrl
open Lib

structure ComponentRouting where
  retvalToChannelMap : UInt8 → Option Nat
  localChannels : String → Option Nat

namespace ComponentRouting

def addRetvalMapping (routing : ComponentRouting) (retval : UInt8) (channel : Nat) :
    ComponentRouting :=
  { routing with
    retvalToChannelMap := Function.update routing.retvalToChannelMap retval (some channel) }

end ComponentRouting

namespace DatapathPipeline

/-- One entry. A text that cannot be read is reported and skipped, a missing default channel
throws what the handler does not catch. -/
def mapEntry (routing : ComponentRouting) (entry : CtrlEntry) : Except String ComponentRouting :=
  if find "retval=".toList entry.matchStr = some 0 then
    match stoi (entry.matchStr.drop 7) with
    | .error _ => .ok routing
    | .ok kernelRetval =>
        match routing.localChannels "default" with
        | none => .error "SHUTDOWN BY NICC ERROR"
        | some targetChannel =>
            .ok (routing.addRetvalMapping (UInt8.ofInt kernelRetval) targetChannel)
  else .ok routing

def initRetvalMappings (routing : ComponentRouting) (component : Option DAGComponent) :
    Except String (Retval × ComponentRouting) :=
  match component with
  | none => .ok (.NICC_SUCCESS, routing)
  | some component => do
      let routing ← run mapEntry routing component.ctrlEntries
      .ok (.NICC_SUCCESS, routing)

end DatapathPipeline

open DatapathPipeline PipelineRouting

def Installs (s : List Char) (key : UInt8) : Prop :=
  ∀ (routing : ComponentRouting) (channel : Nat) (action : List Char),
    routing.localChannels "default" = some channel →
      mapEntry routing ⟨s, action⟩ = .ok (routing.addRetvalMapping key channel)

def ReadsRetval (s : List Char) : Prop :=
  (parseMatchCondition s).field = "retval".toList ∧ (parseMatchCondition s).operatorType = ['='] ∧
    ∃ n, stoul (parseMatchCondition s).value = .ok n

def numberWritten (s : List Char) : Option Int :=
  if "retval=".toList <+: s then scanNumber (s.drop 7) else none

structure ReadsAlike (s : List Char) : Prop where
  same : ReadsRetval s ↔ ∃ key, Installs s key
  value : ∀ key, Installs s key →
    extractRetvalFromConditions [parseMatchCondition s] = key ∧
      numberWritten s = some (key.toNat : Int)
  range : ∀ number, numberWritten s = some number → number < 0 ∨ 255 < number →
    ¬ ReadsRetval s ∧ ∀ key, ¬ Installs s key

/-- The number behind `retval=` is one that both routers read, or one that neither of them can. -/
def Readable (s : List Char) : Prop :=
  ∀ text, s = "retval=".toList ++ text → ∀ number, scanNumber text = some number →
    2 ^ 64 ≤ number.natAbs ∨
      if find ['!', '='] s = none then 0 ≤ number ∧ number ≤ 255
      else number < -2 ^ 31 ∨ 2 ^ 31 ≤ number

theorem prefix_cases (s : List Char) :
    "retval=".toList <+: s ↔ ∃ text, s = "retval=".toList ++ text :=
  ⟨fun ⟨text, whole⟩ => ⟨text, whole.symm⟩, fun ⟨text, whole⟩ => ⟨text, whole.symm⟩⟩

theorem drop_retval (text : List Char) : ("retval=".toList ++ text).drop 7 = text := rfl

theorem mapEntry_other {s : List Char} (other : ¬ "retval=".toList <+: s)
    (routing : ComponentRouting) (action : List Char) :
    mapEntry routing ⟨s, action⟩ = .ok routing := by
  rw [mapEntry, if_neg (find_eq_zero.not.mpr other)]

theorem mapEntry_retval (text : List Char) (routing : ComponentRouting) (action : List Char) :
    mapEntry routing ⟨"retval=".toList ++ text, action⟩ = match stoi text with
      | .error _ => .ok routing
      | .ok kernelRetval => match routing.localChannels "default" with
        | none => .error "SHUTDOWN BY NICC ERROR"
        | some targetChannel =>
            .ok (routing.addRetvalMapping (UInt8.ofInt kernelRetval) targetChannel) := by
  have first : find "retval=".toList ("retval=".toList ++ text) = some 0 :=
    find_eq_zero.mpr (List.prefix_append _ _)
  rw [mapEntry, if_pos first]
  rfl

theorem Installs.shown {s : List Char} {key : UInt8} (installs : Installs s key) :
    mapEntry ⟨fun _ => none, fun _ => some 0⟩ ⟨s, []⟩ =
      .ok ⟨Function.update (fun _ => none) key (some 0), fun _ => some 0⟩ :=
  installs _ 0 [] rfl

theorem mappings_ne (key : UInt8) :
    (Except.ok ⟨fun _ => none, fun _ => some 0⟩ : Except String ComponentRouting) ≠
      .ok ⟨Function.update (fun _ => none) key (some 0), fun _ => some 0⟩ := by
  intro same
  have maps := congrFun (congrArg ComponentRouting.retvalToChannelMap (Except.ok.inj same)) key
  simp at maps

theorem installs_iff {s : List Char} {key : UInt8} :
    Installs s key ↔ ∃ text number, s = "retval=".toList ++ text ∧ stoi text = .ok number ∧
      UInt8.ofInt number = key := by
  constructor
  · intro installs
    have shown := installs.shown
    by_cases before : "retval=".toList <+: s
    · obtain ⟨text, rfl⟩ := (prefix_cases s).mp before
      rw [mapEntry_retval] at shown
      cases read : stoi text with
      | error failure =>
          rw [read] at shown
          exact absurd shown (mappings_ne key)
      | ok number =>
          rw [read] at shown
          refine ⟨text, number, rfl, read, ?_⟩
          have maps := congrFun (congrArg ComponentRouting.retvalToChannelMap
            (Except.ok.inj shown)) key
          by_contra other
          have turned : key ≠ UInt8.ofInt number := fun same => other same.symm
          simp [ComponentRouting.addRetvalMapping, turned] at maps
    · rw [mapEntry_other before] at shown
      exact absurd shown (mappings_ne key)
  · rintro ⟨text, number, rfl, read, rfl⟩ routing channel action default
    rw [mapEntry_retval, read, default]

theorem installs_or_skips (s : List Char) :
    (∃ key, Installs s key ∧ ∀ other, Installs s other → other = key) ∨
      ((∀ key, ¬ Installs s key) ∧ ∀ routing action, mapEntry routing ⟨s, action⟩ = .ok routing) := by
  by_cases before : "retval=".toList <+: s
  · obtain ⟨text, rfl⟩ := (prefix_cases s).mp before
    cases read : stoi text with
    | error failure =>
        right
        constructor
        · intro key installs
          obtain ⟨other, number, same, readOther, -⟩ := installs_iff.mp installs
          rw [← List.append_cancel_left same, read] at readOther
          cases readOther
        · intro routing action
          rw [mapEntry_retval, read]
    | ok number =>
        left
        refine ⟨_, installs_iff.mpr ⟨text, number, rfl, read, rfl⟩, fun other installs => ?_⟩
        obtain ⟨again, n, same, readAgain, rfl⟩ := installs_iff.mp installs
        rw [← List.append_cancel_left same, read] at readAgain
        rw [Except.ok.inj readAgain]
  · right
    constructor
    · intro key installs
      obtain ⟨text, number, rfl, -⟩ := installs_iff.mp installs
      exact before (List.prefix_append _ _)
    · intro routing action
      exact mapEntry_other before routing action

theorem run_mapEntry {channel : Nat} (entries : List CtrlEntry) {routing : ComponentRouting}
    (default : routing.localChannels "default" = some channel) :
    ∃ next, run mapEntry routing entries = .ok next ∧
      next.localChannels = routing.localChannels ∧
      ∀ key, ((∃ entry ∈ entries, Installs entry.matchStr key) →
          next.retvalToChannelMap key = some channel) ∧
        ((∀ entry ∈ entries, ¬ Installs entry.matchStr key) →
          next.retvalToChannelMap key = routing.retvalToChannelMap key) := by
  induction entries generalizing routing with
  | nil =>
      refine ⟨routing, rfl, rfl, fun key => ⟨?_, fun _ => rfl⟩⟩
      rintro ⟨entry, member, -⟩
      cases member
  | cons entry entries ih =>
      rcases installs_or_skips entry.matchStr with ⟨key, installs, only⟩ | ⟨skips, stays⟩
      · have first := installs routing channel entry.actionStr default
        have defaultKept : (routing.addRetvalMapping key channel).localChannels "default" =
          some channel := default
        obtain ⟨next, ran, locals, maps⟩ := ih defaultKept
        refine ⟨next, run_cons_ok.mpr ⟨_, first, ran⟩, locals, fun other => ⟨?_, ?_⟩⟩
        · rintro ⟨there, member, installed⟩
          by_cases later : ∃ e ∈ entries, Installs e.matchStr other
          · exact (maps other).1 later
          · have here : there = entry := (List.mem_cons.mp member).resolve_right
              fun behind => later ⟨there, behind, installed⟩
            rw [here] at installed
            obtain rfl := only other installed
            rw [(maps other).2 fun e behind ok => later ⟨e, behind, ok⟩]
            exact Function.update_self _ _ _
        · intro none
          have apart : other ≠ key := by
            rintro rfl
            exact none entry List.mem_cons_self installs
          rw [(maps other).2 fun e behind => none e (List.mem_cons_of_mem _ behind)]
          exact Function.update_of_ne apart _ _
      · have first := stays routing entry.actionStr
        obtain ⟨next, ran, locals, maps⟩ := ih default
        refine ⟨next, run_cons_ok.mpr ⟨_, first, ran⟩, locals, fun other => ⟨?_, ?_⟩⟩
        · rintro ⟨there, member, installed⟩
          rcases List.mem_cons.mp member with rfl | behind
          · exact absurd installed (skips other)
          · exact (maps other).1 ⟨there, behind, installed⟩
        · intro none
          exact (maps other).2 fun e behind => none e (List.mem_cons_of_mem _ behind)

theorem parseMatchCondition_written {text : List Char}
    (unequal : find ['!', '='] ("retval=".toList ++ text) = none) :
    parseMatchCondition ("retval=".toList ++ text) = ⟨"retval".toList, ['='], text⟩ := by
  have equal : find ['='] ("retval=".toList ++ text) = some 6 :=
    find_char_append (show '=' ∉ "retval".toList by decide) text
  simp only [parseMatchCondition, unequal, equal]
  rfl

theorem parseMatchCondition_retval (s : List Char) :
    ((parseMatchCondition s).field = "retval".toList ∧
      (parseMatchCondition s).operatorType = ['=']) ↔
      find ['!', '='] s = none ∧ "retval=".toList <+: s := by
  constructor
  · rintro ⟨field, op⟩
    unfold parseMatchCondition at field op
    cases unequal : find ['!', '='] s with
    | some position =>
        rw [unequal] at op
        simp at op
    | none =>
        refine ⟨rfl, ?_⟩
        rw [unequal] at field op
        cases equal : find ['='] s with
        | some position =>
            rw [equal] at field
            have split := find_char_split equal
            have taken : s.take position = "retval".toList := field
            rw [taken] at split
            exact ⟨_, by rw [split]; rfl⟩
        | none =>
            rw [equal] at op
            cases greater : find ['>'] s <;> cases less : find ['<'] s <;>
              simp [greater, less] at op
  · rintro ⟨unequal, before⟩
    obtain ⟨text, rfl⟩ := (prefix_cases s).mp before
    rw [parseMatchCondition_written unequal]
    exact ⟨rfl, rfl⟩

theorem readsRetval_iff {s : List Char} :
    ReadsRetval s ↔ find ['!', '='] s = none ∧ ∃ text number, s = "retval=".toList ++ text ∧
      scanNumber text = some number ∧ number.natAbs < 2 ^ 64 := by
  unfold ReadsRetval
  rw [← and_assoc, parseMatchCondition_retval, and_assoc]
  refine and_congr_right fun unequal => ?_
  constructor
  · rintro ⟨before, n, read⟩
    obtain ⟨text, rfl⟩ := (prefix_cases s).mp before
    rw [parseMatchCondition_written unequal] at read
    obtain ⟨number, scanned, small, -⟩ := stoul_ok_iff.mp read
    exact ⟨text, number, rfl, scanned, small⟩
  · rintro ⟨text, number, rfl, scanned, small⟩
    rw [parseMatchCondition_written unequal]
    exact ⟨List.prefix_append _ _, _, stoul_ok_iff.mpr ⟨number, scanned, small, rfl⟩⟩

theorem narrow {number : Int} (low : 0 ≤ number) (high : number ≤ 255) :
    (UInt64.ofInt number).toUInt8 = UInt8.ofInt number ∧
      ((UInt8.ofInt number).toNat : Int) = number := by
  obtain ⟨n, rfl⟩ := Int.eq_ofNat_of_zero_le low
  constructor
  · apply UInt8.toNat_inj.mp
    simp [UInt64.ofInt, UInt8.ofInt]
    omega
  · simp [UInt8.ofInt]
    omega

theorem numberWritten_retval (text : List Char) :
    numberWritten ("retval=".toList ++ text) = scanNumber text := by
  rw [numberWritten, if_pos (List.prefix_append _ _), drop_retval]

theorem ReadsAlike.of_neither {s : List Char} (reads : ¬ ReadsRetval s)
    (installs : ∀ key, ¬ Installs s key) : ReadsAlike s where
  same := ⟨fun read => absurd read reads, fun ⟨key, installed⟩ => absurd installed (installs key)⟩
  value key installed := absurd installed (installs key)
  range _ _ _ := ⟨reads, installs⟩

theorem ReadsAlike.readable {s : List Char} (alike : ReadsAlike s) : Readable s := by
  rintro text rfl number scanned
  rcases Nat.lt_or_ge number.natAbs (2 ^ 64) with small | large
  · right
    split_ifs with unequal
    · by_contra outside
      have reads : ReadsRetval ("retval=".toList ++ text) :=
        readsRetval_iff.mpr ⟨unequal, text, number, rfl, scanned, small⟩
      have written : numberWritten ("retval=".toList ++ text) = some number := by
        rw [numberWritten_retval, scanned]
      exact (alike.range number written (by omega)).1 reads
    · by_contra inside
      have read : stoi text = .ok number := stoi_ok_iff.mpr ⟨scanned, by omega, by omega⟩
      have installs := installs_iff.mpr ⟨text, number, rfl, read, rfl⟩
      exact unequal (readsRetval_iff.mp (alike.same.mpr ⟨_, installs⟩)).1
  · exact .inl large

theorem scanned_unique {text other : List Char} {number n : Int}
    (scanned : scanNumber text = some number)
    (same : "retval=".toList ++ text = "retval=".toList ++ other)
    (read : scanNumber other = some n) : n = number := by
  rw [← List.append_cancel_left same, scanned] at read
  exact (Option.some.inj read).symm

theorem readsAlike_number {text : List Char} {number : Int}
    (unequal : find ['!', '='] ("retval=".toList ++ text) = none)
    (scanned : scanNumber text = some number) (low : 0 ≤ number) (high : number ≤ 255) :
    ReadsAlike ("retval=".toList ++ text) := by
  have reads : ReadsRetval ("retval=".toList ++ text) :=
    readsRetval_iff.mpr ⟨unequal, text, number, rfl, scanned, by omega⟩
  have read : stoi text = .ok number := stoi_ok_iff.mpr ⟨scanned, by omega, by omega⟩
  have unsigned : stoul text = .ok (UInt64.ofInt number) :=
    stoul_ok_iff.mpr ⟨number, scanned, by omega, rfl⟩
  refine ⟨⟨fun _ => ⟨_, installs_iff.mpr ⟨text, number, rfl, read, rfl⟩⟩, fun _ => reads⟩,
    fun key installs => ?_, fun n written outside => ?_⟩
  · obtain ⟨other, n, same, readOther, rfl⟩ := installs_iff.mp installs
    obtain rfl := scanned_unique scanned same (stoi_ok_iff.mp readOther).1
    rw [parseMatchCondition_written unequal, numberWritten_retval, scanned, (narrow low high).2]
    refine ⟨?_, rfl⟩
    rw [extractRetvalFromConditions, if_pos ⟨rfl, rfl⟩]
    dsimp only
    rw [unsigned]
    exact (narrow low high).1
  · rw [numberWritten_retval, scanned] at written
    cases written
    omega

theorem Readable.readsAlike {s : List Char} (readable : Readable s) : ReadsAlike s := by
  by_cases before : "retval=".toList <+: s
  · obtain ⟨text, rfl⟩ := (prefix_cases s).mp before
    cases scanned : scanNumber text with
    | none =>
        apply ReadsAlike.of_neither
        · intro reads
          obtain ⟨-, other, number, same, read, -⟩ := readsRetval_iff.mp reads
          rw [← List.append_cancel_left same, scanned] at read
          cases read
        · intro key installs
          obtain ⟨other, number, same, read, -⟩ := installs_iff.mp installs
          rw [← List.append_cancel_left same] at read
          rw [(stoi_ok_iff.mp read).1] at scanned
          cases scanned
    | some number =>
        by_cases readByBoth : find ['!', '='] ("retval=".toList ++ text) = none ∧
            0 ≤ number ∧ number ≤ 255
        · obtain ⟨unequal, low, high⟩ := readByBoth
          exact readsAlike_number unequal scanned low high
        · have unread := readable text rfl number scanned
          apply ReadsAlike.of_neither
          · intro reads
            obtain ⟨unequal, other, n, same, read, small⟩ := readsRetval_iff.mp reads
            obtain rfl := scanned_unique scanned same read
            rw [if_pos unequal] at unread
            exact readByBoth ⟨unequal, unread.resolve_left (by omega)⟩
          · intro key installs
            obtain ⟨other, n, same, read, -⟩ := installs_iff.mp installs
            obtain ⟨scannedOther, low, high⟩ := stoi_ok_iff.mp read
            obtain rfl := scanned_unique scanned same scannedOther
            split_ifs at unread with unequal
            · exact readByBoth ⟨unequal, unread.resolve_left (by omega)⟩
            · omega
  · apply ReadsAlike.of_neither
    · intro reads
      obtain ⟨-, text, number, rfl, -⟩ := readsRetval_iff.mp reads
      exact before (List.prefix_append _ _)
    · intro key installs
      obtain ⟨text, number, rfl, -⟩ := installs_iff.mp installs
      exact before (List.prefix_append _ _)

theorem readsAlike_iff (s : List Char) : ReadsAlike s ↔ Readable s :=
  ⟨ReadsAlike.readable, Readable.readsAlike⟩

theorem large_retval : ¬ ReadsAlike "retval=256".toList := by
  intro alike
  have read := alike.readable "256".toList rfl 256 rfl
  have noSign : find ['!', '='] "retval=256".toList = none := by decide
  rw [if_pos noSign] at read
  omega

end Nicc.Ctrl

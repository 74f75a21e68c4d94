import Nicc.Channel.Connect
import Nicc.Channel.Tokens
import Mathlib.Data.List.Infix

namespace Nicc.Channel
open Lib

theorem tokenParts_cut {key : String} {value text : List Char} (inKey : ':' ∉ key.toList)
    (inValue : ':' ∉ value) (cut : text <+: token key value) :
    (tokenParts text = (text, []) ∧ text <+: key.toList ∧ text ≠ key.toList) ∨
      ∃ v, tokenParts text = (key.toList, v) ∧ v <+: value ∧ (v = [] ∨ text = token key v) := by
  have alone : ∀ {t : List Char}, ':' ∉ t → tokenParts t = (t, []) := by
    intro t free
    simp only [tokenParts, getline_last free]
    rfl
  rcases Nat.lt_or_ge key.toList.length text.length with past | inside
  · obtain ⟨behind, rfl⟩ := List.prefix_of_prefix_length_le (List.prefix_append _ _) cut past.le
    have behindCut := (List.prefix_append_right_inj _).mp cut
    cases behind with
    | nil => simp at past
    | cons c v =>
        obtain ⟨rfl, before⟩ := List.cons_prefix_cons.mp behindCut
        refine .inr ⟨v, ?_, before, .inr rfl⟩
        have free : ':' ∉ v := fun member => inValue (before.subset member)
        simp only [tokenParts, getline_append inKey, Option.getD_some, getline_last free]
  · have before := List.prefix_of_prefix_length_le cut (List.prefix_append _ _) inside
    have free : ':' ∉ text := fun member => inKey (before.subset member)
    by_cases whole : text = key.toList
    · exact .inr ⟨[], by rw [alone free, whole], List.nil_prefix, .inl rfl⟩
    · exact .inl ⟨alone free, before, whole⟩

def Wide (x : QPInfo) (key value : List Char) : Prop :=
  (key = "qp_num".toList ∧ value = decimal x.qpNum.toNat ∧ 2 ^ 31 ≤ x.qpNum.toNat) ∨
    (key = "mtu".toList ∧ value = decimal x.mtu.toNat ∧ 2 ^ 31 ≤ x.mtu.toNat)

def Unreadable (x : QPInfo) (text : List Char) : Prop :=
  (tokenParts text).1 ∈ numericKeys ∧
    ((tokenParts text).2 = [] ∨ Wide x (tokenParts text).1 (tokenParts text).2)

def Settled (x : QPInfo) (text : List Char) : Prop :=
  (Unreadable x text ∧ ∀ y, ∃ e, readToken y text = .error e) ∨
    (¬ Unreadable x text ∧
      ∀ y, ∃ z, readToken y text = .ok z ∧ z.isInitialized = y.isInitialized)

theorem settled_error {x : QPInfo} {text : List Char} {e : StoiError}
    (unreadable : Unreadable x text) (failed : stoi (tokenParts text).2 = .error e) :
    Settled x text :=
  .inl ⟨unreadable, fun y => ⟨e, by rw [readToken_parts, readField_error unreadable.1 failed]⟩⟩

theorem settled_ok {x : QPInfo} {text : List Char} (readable : ¬ Unreadable x text)
    (number : (tokenParts text).1 ∈ numericKeys → ∃ k, stoi (tokenParts text).2 = .ok k)
    (bytes : (tokenParts text).1 ∈ byteKeys →
      ∀ piece ∈ lines ',' (tokenParts text).2, ∃ k, stoi piece = .ok k)
    (other : (tokenParts text).1 ≠ "is_initialized".toList) : Settled x text := by
  refine .inr ⟨readable, fun y => ?_⟩
  obtain ⟨z, ok, kept⟩ := readField_ok number bytes y
  exact ⟨z, by rw [readToken_parts, ok], kept other⟩

def keys : List (List Char) :=
  ["qp_num".toList, "lid".toList, "gid".toList, "gid_table_index".toList, "mac".toList,
    "mtu".toList, "hostname".toList, "nic_name".toList, "is_initialized".toList]

theorem cut_key_not_numeric : ∀ key ∈ keys, ∀ text ∈ key.inits,
    text ≠ key → text ∉ numericKeys := by
  decide

theorem settled_key {x : QPInfo} {key text : List Char} (known : key ∈ keys)
    (parts : tokenParts text = (text, [])) (cut : text <+: key) (strict : text ≠ key) :
    Settled x text := by
  have other := cut_key_not_numeric key known text ((List.mem_inits _ _).mpr cut) strict
  refine settled_ok ?_ ?_ ?_ ?_ <;> simp only [Unreadable, parts]
  · exact fun both => other both.1
  · exact fun numeric => absurd numeric other
  · exact fun _ piece member => by cases member
  · rintro rfl
    exact other (by decide)

theorem settled_number {x : QPInfo} {key text v : List Char} {n : Nat} (numeric : key ∈ numericKeys)
    (width : n < 2 ^ 32) (wide : ∀ v, Wide x key v ↔ v = decimal n ∧ 2 ^ 31 ≤ n)
    (parts : tokenParts text = (key, v)) (cut : v <+: decimal n)
    (other : v ≠ [] → key ≠ "is_initialized".toList) : Settled x text := by
  by_cases empty : v = []
  · refine settled_error (e := .invalidArgument) ?_ ?_ <;> simp only [Unreadable, parts]
    · exact ⟨numeric, .inl empty⟩
    · rw [empty]
      rfl
  · have value := stoi_cut width empty cut
    by_cases large : v = decimal n ∧ 2 ^ 31 ≤ n
    · refine settled_error (e := .outOfRange) ?_ ?_ <;> simp only [Unreadable, parts]
      · exact ⟨numeric, .inr ((wide v).mpr large)⟩
      · rw [value, if_pos large]
    · refine settled_ok ?_ ?_ ?_ ?_ <;> simp only [Unreadable, parts]
      · rintro ⟨-, gone | tooWide⟩
        · exact empty gone
        · exact large ((wide v).mp tooWide)
      · exact fun _ => ⟨_, by rw [value, if_neg large]⟩
      · exact fun isBytes => absurd numeric (byteKeys_not_numeric key isBytes)
      · exact other empty

theorem settled_bytes {x : QPInfo} {key text v : List Char} {n : Nat} {bytes : Vector UInt8 n}
    (isBytes : key ∈ byteKeys) (parts : tokenParts text = (key, v)) (cut : v <+: bytesText bytes) :
    Settled x text := by
  have digits : ∀ {byte : UInt8} {piece : List Char}, piece ≠ [] → piece <+: decimal byte.toNat →
      ∃ k, stoi piece = .ok k := by
    intro byte piece nonempty before
    have small := byte.toNat_lt
    rw [stoi_cut (by omega) nonempty before, if_neg (by omega)]
    exact ⟨_, rfl⟩
  refine settled_ok ?_ ?_ ?_ ?_ <;> simp only [Unreadable, parts]
  · exact fun both => byteKeys_not_numeric key isBytes both.1
  · exact fun numeric => absurd numeric (byteKeys_not_numeric key isBytes)
  · intro _ piece member
    by_cases whole : v = bytesText bytes
    · rw [whole, lines_bytesText] at member
      obtain ⟨byte, -, rfl⟩ := List.mem_map.mp member
      exact digits (decimal_ne_nil _) List.prefix_rfl
    · have shape : bytesText bytes =
          (bytes.toList.map fun byte => decimal byte.toNat).flatMap (· ++ [',']) ++ [] := by
        rw [bytesText, List.append_nil, List.flatMap_map]
        rfl
      rw [shape] at cut whole
      obtain ⟨nonempty, ⟨part, there, before⟩ | ⟨before, -⟩⟩ :=
        lines_prefix (by
          intro part there
          obtain ⟨byte, -, rfl⟩ := List.mem_map.mp there
          exact ⟨decimal_ne_nil _, not_mem_decimal rfl⟩) List.not_mem_nil cut whole piece member
      · obtain ⟨byte, -, rfl⟩ := List.mem_map.mp there
        exact digits nonempty before
      · exact absurd (List.prefix_nil.mp before) nonempty
  · rintro rfl
    exact absurd isBytes (by decide)

theorem settled_name {x : QPInfo} {key text v : List Char} (parts : tokenParts text = (key, v))
    (noNumber : key ∉ numericKeys) (noBytes : key ∉ byteKeys) : Settled x text := by
  refine settled_ok ?_ ?_ ?_ ?_ <;> simp only [Unreadable, parts]
  · exact fun both => noNumber both.1
  · exact fun numeric => absurd numeric noNumber
  · exact fun isBytes => absurd isBytes noBytes
  · rintro rfl
    exact noNumber (by decide)

def fields (x : QPInfo) : List (String × List Char) :=
  [("qp_num", decimal x.qpNum.toNat), ("lid", decimal x.lid.toNat), ("gid", bytesText x.gid),
    ("gid_table_index", decimal x.gidTableIndex.toNat), ("mac", bytesText x.macAddr),
    ("mtu", decimal x.mtu.toNat), ("hostname", cString x.hostname),
    ("nic_name", cString x.nicName)]

theorem serialize_fields (x : QPInfo) : serialize x =
    ((fields x).map fun field => token field.1 field.2).flatMap (· ++ [';']) ++
      token "is_initialized" (decimal x.isInitialized.toNat) := by
  rw [serialize_tokens]
  simp only [fields, List.map_cons, List.map_nil, List.flatMap_cons, List.flatMap_nil,
    List.append_assoc, List.cons_append, List.nil_append]

theorem keys_free : ∀ key ∈ keys, ':' ∉ key ∧ ';' ∉ key := by decide

theorem field_free {x : QPInfo} (hostname : Separable (cString x.hostname))
    (nicName : Separable (cString x.nicName)) {key : String} {value : List Char}
    (member : (key, value) ∈ fields x) : key.toList ∈ keys ∧ ':' ∉ value ∧ ';' ∉ value := by
  have number : ∀ n, ':' ∉ decimal n ∧ ';' ∉ decimal n :=
    fun n => ⟨not_mem_decimal rfl, not_mem_decimal rfl⟩
  have bytes : ∀ {n : Nat} (bytes : Vector UInt8 n), ':' ∉ bytesText bytes ∧ ';' ∉ bytesText bytes :=
    fun _ => ⟨not_mem_bytesText rfl (by decide), not_mem_bytesText rfl (by decide)⟩
  simp only [fields, List.mem_cons, List.not_mem_nil, or_false, Prod.mk.injEq] at member
  rcases member with ⟨rfl, rfl⟩ | ⟨rfl, rfl⟩ | ⟨rfl, rfl⟩ | ⟨rfl, rfl⟩ | ⟨rfl, rfl⟩ | ⟨rfl, rfl⟩ |
    ⟨rfl, rfl⟩ | ⟨rfl, rfl⟩
  · exact ⟨by decide, number _⟩
  · exact ⟨by decide, number _⟩
  · exact ⟨by decide, bytes _⟩
  · exact ⟨by decide, number _⟩
  · exact ⟨by decide, bytes _⟩
  · exact ⟨by decide, number _⟩
  · exact ⟨by decide, hostname.colon, hostname.semicolon⟩
  · exact ⟨by decide, nicName.colon, nicName.semicolon⟩

theorem field_settled {x : QPInfo} (hostname : Separable (cString x.hostname))
    (nicName : Separable (cString x.nicName)) {key : String} {value text : List Char}
    (member : (key, value) ∈ fields x) (cut : text <+: token key value) :
    Settled x text := by
  have small : ∀ {key : List Char} {n : Nat}, n < 2 ^ 31 → key ≠ "qp_num".toList →
      key ≠ "mtu".toList → ∀ v, Wide x key v ↔ v = decimal n ∧ 2 ^ 31 ≤ n := by
    intro key n bound noQpNum noMtu v
    simp only [Wide, noQpNum, noMtu, false_and, or_false, false_iff, not_and]
    omega
  have apart : "qp_num".toList ≠ "mtu".toList := by decide
  obtain ⟨known, colon, -⟩ := field_free hostname nicName member
  obtain ⟨parts, before, strict⟩ | ⟨v, parts, before, -⟩ :=
    tokenParts_cut (keys_free _ known).1 colon cut
  · exact settled_key known parts before strict
  simp only [fields, List.mem_cons, List.not_mem_nil, or_false, Prod.mk.injEq] at member
  rcases member with ⟨rfl, rfl⟩ | ⟨rfl, rfl⟩ | ⟨rfl, rfl⟩ | ⟨rfl, rfl⟩ | ⟨rfl, rfl⟩ | ⟨rfl, rfl⟩ |
    ⟨rfl, rfl⟩ | ⟨rfl, rfl⟩
  · refine settled_number (by decide) x.qpNum.toNat_lt (fun v => ?_) parts before fun _ => by decide
    simp only [Wide, true_and, apart, false_and, or_false]
  · have bound := x.lid.toNat_lt
    exact settled_number (by decide) (by omega) (small (by omega) (by decide) (by decide)) parts
      before fun _ => by decide
  · exact settled_bytes (by decide) parts before
  · have bound := x.gidTableIndex.toNat_lt
    exact settled_number (by decide) (by omega) (small (by omega) (by decide) (by decide)) parts
      before fun _ => by decide
  · exact settled_bytes (by decide) parts before
  · refine settled_number (by decide) x.mtu.toNat_lt (fun v => ?_) parts before fun _ => by decide
    simp only [Wide, true_and, apart.symm, false_and, false_or]
  · exact settled_name parts (by decide) (by decide)
  · exact settled_name parts (by decide) (by decide)

theorem flag_settled {x : QPInfo} {flag : Bool} {text : List Char}
    (cut : text <+: token "is_initialized" (decimal flag.toNat))
    (strict : text ≠ token "is_initialized" (decimal flag.toNat)) : Settled x text := by
  obtain ⟨parts, before, shorter⟩ | ⟨v, parts, before, whole⟩ :=
    tokenParts_cut (by decide) (not_mem_decimal rfl) cut
  · exact settled_key (by decide) parts before shorter
  · have nothing : v = [] := by
      rcases whole with gone | rfl
      · exact gone
      · have digit : (decimal flag.toNat).length = 1 := by cases flag <;> rfl
        have shorter : v.length ≤ 1 := digit ▸ before.length_le
        by_contra more
        have full : v.length = (decimal flag.toNat).length := by
          have := List.length_pos_iff.mpr more
          omega
        exact strict (by rw [before.eq_of_length full])
    refine settled_error (e := .invalidArgument) ?_ ?_ <;> simp only [Unreadable, parts]
    · exact ⟨by decide, .inl nothing⟩
    · rw [nothing]
      rfl

theorem line_settled {x : QPInfo} (hostname : Separable (cString x.hostname))
    (nicName : Separable (cString x.nicName)) {text : List Char} (cut : text <+: serialize x)
    (strict : text ≠ serialize x) : ∀ line ∈ lines ';' text, Settled x line := by
  intro line member
  have whole : ∀ part ∈ (fields x).map (fun field => token field.1 field.2),
      part ≠ [] ∧ ';' ∉ part := by
    intro part there
    obtain ⟨⟨key, value⟩, known, rfl⟩ := List.mem_map.mp there
    obtain ⟨isKey, -, semicolon⟩ := field_free hostname nicName known
    exact ⟨by simp [token], not_mem_token (by decide) (keys_free _ isKey).2 semicolon⟩
  rw [serialize_fields] at cut strict
  obtain ⟨-, ⟨part, there, before⟩ | ⟨before, shorter⟩⟩ :=
    lines_prefix whole (not_mem_token (by decide) (by decide) (not_mem_decimal rfl)) cut strict
      line member
  · obtain ⟨⟨key, value⟩, known, rfl⟩ := List.mem_map.mp there
    exact field_settled hostname nicName known before
  · exact flag_settled before shorter

theorem run_settled {x : QPInfo} {texts : List (List Char)}
    (settled : ∀ text ∈ texts, Settled x text) (y : QPInfo) :
    ((∃ text ∈ texts, Unreadable x text) ∧ ∃ e, run readToken y texts = .error e) ∨
      ((¬ ∃ text ∈ texts, Unreadable x text) ∧
        ∃ z, run readToken y texts = .ok z ∧ z.isInitialized = y.isInitialized) := by
  induction texts generalizing y with
  | nil => exact .inr ⟨by simp, y, rfl, rfl⟩
  | cons text texts ih =>
      have later := fun t member => settled t (List.mem_cons_of_mem text member)
      rcases settled text List.mem_cons_self with ⟨unreadable, fails⟩ | ⟨readable, reads⟩
      · obtain ⟨e, failed⟩ := fails y
        refine .inl ⟨⟨text, List.mem_cons_self, unreadable⟩, e, ?_⟩
        rw [run, List.foldlM_cons, failed]
        rfl
      · obtain ⟨z, ok, kept⟩ := reads y
        have first : run readToken y (text :: texts) = run readToken z texts := by
          rw [run, List.foldlM_cons, ok, ok_bind, run]
        rw [first, List.exists_mem_cons_iff]
        simp only [readable, false_or]
        rcases ih later z with bad | ⟨fine, w, done, same⟩
        · exact .inl bad
        · exact .inr ⟨fine, w, done, same.trans kept⟩

def Refused (x : QPInfo) (text : List Char) : Prop := ∃ line ∈ lines ';' text, Unreadable x line

theorem deserialize_cut {x : QPInfo} (hostname : Separable (cString x.hostname))
    (nicName : Separable (cString x.nicName)) {text : List Char} (cut : text <+: serialize x)
    (strict : text ≠ serialize x) (y : QPInfo) :
    (Refused x text ∧ ∃ e, deserialize y text = .error e) ∨
      (¬ Refused x text ∧
        ∃ z, deserialize y text = .ok z ∧ z.isInitialized = y.isInitialized) :=
  run_settled (line_settled hostname nicName cut strict) y

inductive HostChannel
  | soc (c : ChannelSoC) (verbs : Verbs)
  | dpa (c : ChannelDPA) (flexio : Flexio)

namespace HostChannel

def state : HostChannel → UInt16
  | soc c _ => c.state
  | dpa c _ => c.state

def connectQp (channel : HostChannel) (isPrior : Bool) (qpInfo : QPInfo) : Retval × UInt16 :=
  match channel with
  | soc c verbs =>
      let (retval, c) := c.connectQp verbs isPrior none qpInfo
      (retval, c.state)
  | dpa c flexio =>
      let (retval, c) := c.connectQp flexio isPrior none qpInfo
      (retval, c.state)

def Rejects (channel : HostChannel) (isPrior : Bool) (text : List Char) : Prop :=
  ∀ qpInfo, deserialize zeroed text = .ok qpInfo →
    (channel.connectQp isPrior qpInfo).1 ≠ .NICC_SUCCESS ∧
      (channel.connectQp isPrior qpInfo).2 &&& connectedBit isPrior = 0

def IsDPA : HostChannel → Prop
  | soc _ _ => False
  | dpa _ _ => True

def DriverFails : HostChannel → Prop
  | soc c verbs => ¬ c.Succeeds verbs
  | dpa _ _ => False

/-- Only `Channel_DPA` looks at the flag. `Channel_SoC` connects to whatever can be decoded. -/
theorem rejects_cut_iff {x : QPInfo} (hostname : Separable (cString x.hostname))
    (nicName : Separable (cString x.nicName)) {text : List Char} (cut : text <+: serialize x)
    (strict : text ≠ serialize x) {channel : HostChannel} {isPrior : Bool}
    (apart : channel.state &&& connectedBit isPrior = 0) :
    channel.Rejects isPrior text ↔ channel.IsDPA ∨ Refused x text ∨ channel.DriverFails := by
  rcases deserialize_cut hostname nicName cut strict zeroed with
    ⟨refused, e, thrown⟩ | ⟨readable, z, decoded, uninitialized⟩
  · refine iff_of_true (fun qpInfo ok => ?_) (.inr (.inl refused))
    rw [thrown] at ok
    cases ok
  · have only : channel.Rejects isPrior text ↔ (channel.connectQp isPrior z).1 ≠ .NICC_SUCCESS ∧
        (channel.connectQp isPrior z).2 &&& connectedBit isPrior = 0 := by
      refine ⟨fun rejects => rejects z decoded, fun refuses qpInfo ok => ?_⟩
      rw [decoded] at ok
      cases ok
      exact refuses
    rw [only]
    cases channel with
    | dpa c flexio =>
        refine iff_of_true ?_ (.inl trivial)
        simp only [connectQp, ChannelDPA.connectQp_uninitialized apart flexio uninitialized]
        exact ⟨nofun, apart⟩
    | soc c verbs =>
        simp only [connectQp, IsDPA, DriverFails, readable, false_or]
        rcases ChannelSoC.connectQp_host apart verbs z with
          ⟨succeeds, success, -⟩ | ⟨fails, failure, same⟩
        · exact iff_of_false (fun rejected => rejected.1 success) (not_not.mpr succeeds)
        · refine iff_of_true ⟨failure, ?_⟩ fails
          rw [same]
          exact apart

def freshSoC : ChannelSoC where
  state := 0
  devPortId := 1
  localAh := none
  qpForPrior := ⟨0, none, true⟩
  qpForNext := ⟨0, none, true⟩
  qpForPriorInfo := zeroed
  qpForNextInfo := zeroed
  calls := []

def willing : Verbs := ⟨fun _ => 0, some 1, some 2, 0⟩

def sample : QPInfo := { zeroed with qpNum := 7, isInitialized := true }

theorem sample_name : Separable (cString (Vector.replicate 64 '\x00')) := by
  rw [cString_replicate]
  exact ⟨List.not_mem_nil, List.not_mem_nil⟩

theorem sample_cut : "qp_num:7;".toList <+: serialize sample ∧
    "qp_num:7;".toList ≠ serialize sample := by
  have shape : serialize sample = "qp_num:7;".toList ++ (serialize sample).drop 9 := by
    rw [serialize_tokens]
    rfl
  have longer : 9 < (serialize sample).length := by
    rw [serialize_tokens]
    simp only [token, List.length_append, List.length_cons, String.reduceToList]
    omega
  refine ⟨⟨_, shape.symm⟩, fun same => ?_⟩
  rw [← same] at longer
  exact absurd longer (by decide)

def freshDPA : ChannelDPA := ⟨0, Vector.replicate 6 0, Vector.replicate 16 0, []⟩

theorem sample_key : "qp_num:".toList <+: serialize sample ∧ "qp_num:".toList ≠ serialize sample := by
  have within : "qp_num:".toList <+: "qp_num:7;".toList := by decide
  refine ⟨within.trans sample_cut.1, fun same => ?_⟩
  have longer := sample_cut.1.length_le
  rw [← same] at longer
  exact absurd longer (by decide)

theorem rejects_cut_sample :
    (dpa freshDPA ⟨fun _ => 0, 0⟩).Rejects true "qp_num:7;".toList ∧
    (soc freshSoC willing).Rejects true "qp_num:".toList ∧
    (soc freshSoC ⟨fun _ => 1, none, none, 1⟩).Rejects true "qp_num:7;".toList := by
  refine ⟨?_, ?_, ?_⟩
  · exact (rejects_cut_iff sample_name sample_name sample_cut.1 sample_cut.2 rfl).mpr (.inl trivial)
  · have refused : Refused sample "qp_num:".toList :=
      ⟨"qp_num:".toList, by decide, by decide, .inl (by decide)⟩
    exact (rejects_cut_iff sample_name sample_name sample_key.1 sample_key.2 rfl).mpr
      (.inr (.inl refused))
  · exact (rejects_cut_iff sample_name sample_name sample_cut.1 sample_cut.2 rfl).mpr
      (.inr (.inr fun succeeds => absurd succeeds.init (by decide)))

theorem cut_connects : "qp_num:7;".toList <+: serialize sample ∧
    "qp_num:7;".toList ≠ serialize sample ∧ sample.isInitialized = true ∧
    ¬ (soc freshSoC willing).Rejects true "qp_num:7;".toList := by
  refine ⟨sample_cut.1, sample_cut.2, rfl, fun rejects => ?_⟩
  have decoded : deserialize zeroed "qp_num:7;".toList = .ok { zeroed with qpNum := 7 } := rfl
  exact (rejects _ decoded).1 rfl

end HostChannel

end Nicc.Channel

import Nicc.Channel.Connect
import Nicc.Channel.Tokens

namespace Nicc.Channel
open Lib Dpa

structure Resolve where
  portLid : UInt16
  gid : Vector UInt8 16
  gidIndex : UInt8
  macAddr : Vector UInt8 6
  deviceName : Vector Char maxNicNameLen

def ChannelSoC.setLocalQpInfo (resolve : Resolve) (qpId : UInt64) (qpInfo : QPInfo) :
    Except String QPInfo := do
  assertThat (qpInfo.isInitialized = false) "qp_info->is_initialized == false"
  return { qpInfo with
    qpNum := qpId.toUInt32
    lid := resolve.portLid
    gid := resolve.gid
    gidTableIndex := resolve.gidIndex
    mtu := UInt32.ofNat kMTU
    nicName := resolve.deviceName
    macAddr := resolve.macAddr
    isInitialized := true }

def ChannelDPA.setLocalQpInfo (resolve : Resolve) (qpNum : UInt32) (qpInfo : QPInfo) :
    Except String QPInfo := do
  assertThat (qpInfo.isInitialized = false) "qp_info->is_initialized == false"
  let hostname := strncpy qpInfo.hostname "DPA".toList (maxHostnameLen - 1)
  return { qpInfo with
    qpNum := qpNum
    lid := resolve.portLid
    gid := resolve.gid
    gidTableIndex := resolve.gidIndex
    mtu := (log2value DPA_LOG_WQ_DATA_ENTRY_BSIZE).toUInt32
    hostname := hostname.set (maxHostnameLen - 1) '\x00' maxHostnameLen_end
    nicName := resolve.deviceName
    macAddr := resolve.macAddr
    isInitialized := true }

inductive ChannelKind
  | soc
  | dpa
  deriving DecidableEq

/-- The QP number of the SoC channel is kept as a `size_t`. -/
def setLocalQpInfo (kind : ChannelKind) (resolve : Resolve) (qpNum : UInt32) (qpInfo : QPInfo) :
    Except String QPInfo :=
  match kind with
  | .soc => ChannelSoC.setLocalQpInfo resolve qpNum.toUInt64 qpInfo
  | .dpa => ChannelDPA.setLocalQpInfo resolve qpNum qpInfo

def sent (kind : ChannelKind) (resolve : Resolve) (qpNum : UInt32) (block : QPInfo) :
    Option (List Char) :=
  match setLocalQpInfo kind resolve qpNum block with
  | .error _ => none
  | .ok filled =>
      if '\x00' ∈ filled.hostname.toList ∧ '\x00' ∈ filled.nicName.toList then
        some (serialize filled)
      else none

theorem deserialize_append (x : QPInfo) (first second : List Char) :
    deserialize x (first ++ ';' :: second) =
      (deserialize x first >>= fun y => deserialize y second) := by
  have alone : ∀ (x : QPInfo) {line : List Char}, ';' ∉ line →
      deserialize x line = readToken x line := by
    intro x line free
    by_cases empty : line = []
    · rw [empty]
      rfl
    · rw [deserialize, lines_last empty free, run, List.foldlM_cons]
      exact bind_pure _
  have step : ∀ (x : QPInfo) {line : List Char} (rest : List Char), ';' ∉ line →
      deserialize x (line ++ ';' :: rest) = readToken x line >>= fun y => deserialize y rest := by
    intro x line rest free
    rw [deserialize, lines_append free, run, List.foldlM_cons]
    rfl
  induction size : first.length using Nat.strong_induction_on generalizing x first with
  | _ n ih =>
      by_cases inside : ';' ∈ first
      · obtain ⟨line, rest, rfl, free⟩ := List.eq_append_cons_of_mem inside
        rw [List.append_assoc, List.cons_append, step x _ free, step x _ free, bind_assoc]
        congr 1
        funext y
        exact ih rest.length (by rw [← size]; simp; omega) y rest rfl
      · rw [step x second inside, alone x inside]

theorem deserialize_token (x : QPInfo) {key : String} {value : List Char}
    (inKey : ':' ∉ key.toList ∧ ';' ∉ key.toList) (inValue : ':' ∉ value ∧ ';' ∉ value) :
    deserialize x (token key value) = readField x key.toList value := by
  rw [deserialize, lines_last (by simp [token]) (not_mem_token (by decide) inKey.2 inValue.2), run,
    List.foldlM_cons, readToken_token x inKey.1 inValue.1]
  exact bind_pure _

theorem deserialize_alike {x y : QPInfo} (same : SameFields x y) (text : List Char) :
    Alike (deserialize x text) (deserialize y text) := by
  rw [deserialize, deserialize]
  induction lines ';' text generalizing x y with
  | nil => exact .ended same
  | cons line rest ih =>
      rw [run, run, List.foldlM_cons, List.foldlM_cons]
      exact (readField_alike same _ _).bind fun a b kept => ih kept

def front (x : QPInfo) : List Char :=
  token "qp_num" (decimal x.qpNum.toNat) ++ ';' ::
    (token "lid" (decimal x.lid.toNat) ++ ';' ::
    (token "gid" (bytesText x.gid) ++ ';' ::
    (token "gid_table_index" (decimal x.gidTableIndex.toNat) ++ ';' ::
    (token "mac" (bytesText x.macAddr) ++ ';' ::
    token "mtu" (decimal x.mtu.toNat)))))

def back (x : QPInfo) : List Char :=
  token "nic_name" (cString x.nicName) ++ ';' ::
    token "is_initialized" (decimal x.isInitialized.toNat)

theorem serialize_parts (x : QPInfo) : serialize x =
    front x ++ ';' :: (token "hostname" (cString x.hostname) ++ ';' :: back x) := by
  rw [serialize_tokens]
  simp only [front, back, List.append_assoc, List.cons_append]

theorem number_free (n : Nat) : ':' ∉ decimal n ∧ ';' ∉ decimal n :=
  ⟨not_mem_decimal rfl, not_mem_decimal rfl⟩

theorem bytes_free {n : Nat} (bytes : Vector UInt8 n) :
    ':' ∉ bytesText bytes ∧ ';' ∉ bytesText bytes :=
  ⟨not_mem_bytesText rfl (by decide), not_mem_bytesText rfl (by decide)⟩

theorem deserialize_front {x : QPInfo} (qpNum : x.qpNum.toNat < 2 ^ 31) (mtu : x.mtu.toNat < 2 ^ 31)
    (y : QPInfo) : ∃ z, deserialize y (front x) = .ok z ∧ SameFields z x := by
  rw [front, deserialize_append, deserialize_token y (by decide) (number_free _),
    readField_qpNum, if_pos qpNum, ok_bind,
    deserialize_append, deserialize_token _ (by decide) (number_free _), readField_lid, ok_bind,
    deserialize_append, deserialize_token _ (by decide) (bytes_free _), readField_gid, ok_bind,
    deserialize_append, deserialize_token _ (by decide) (number_free _), readField_gidTableIndex,
    ok_bind,
    deserialize_append, deserialize_token _ (by decide) (bytes_free _), readField_mac, ok_bind,
    deserialize_token _ (by decide) (number_free _), readField_mtu, if_pos mtu]
  exact ⟨_, rfl, rfl, rfl, rfl, rfl, rfl, rfl⟩

theorem deserialize_back {x : QPInfo} (ends : '\x00' ∈ x.nicName.toList)
    (name : Separable (cString x.nicName)) (y : QPInfo) :
    ∃ z, deserialize y (back x) = .ok z ∧ SameFields z y ∧
      cString z.nicName = cString x.nicName ∧ z.isInitialized = x.isInitialized := by
  rw [back, deserialize_append, deserialize_token y (by decide) ⟨name.colon, name.semicolon⟩,
    readField_nicName, ok_bind, deserialize_token _ (by decide) (number_free _),
    readField_isInitialized]
  exact ⟨_, rfl, ⟨rfl, rfl, rfl, rfl, rfl, rfl⟩,
    cString_strncpy (by decide) rfl y.nicName x.nicName ends, rfl⟩

def behind (name : List Char) : List Char := (name.dropWhile (· ≠ ';')).drop 1

theorem readToken_hostname (y : QPInfo) (text : List Char) :
    ∃ z, readToken y (token "hostname" text) = .ok z ∧ SameFields z y := by
  have key : (getline ':' (token "hostname" text)).getD ([], []) = ("hostname".toList, text) :=
    getline_token (by decide)
  simp only [readToken, key, readField_hostname]
  exact ⟨_, rfl, rfl, rfl, rfl, rfl, rfl, rfl⟩

theorem deserialize_hostname (y : QPInfo) (name : List Char) :
    Alike (deserialize y (token "hostname" name)) (deserialize y (behind name)) := by
  have alone : ∀ {text : List Char}, ';' ∉ text →
      deserialize y (token "hostname" text) = readToken y (token "hostname" text) := by
    intro text free
    rw [deserialize, lines_last (by simp [token]) (not_mem_token (by decide) (by decide) free), run,
      List.foldlM_cons]
    exact bind_pure _
  by_cases inside : ';' ∈ name
  · obtain ⟨first, rest, rfl, free⟩ := List.eq_append_cons_of_mem inside
    have split : token "hostname" (first ++ ';' :: rest) =
        token "hostname" first ++ ';' :: rest := by
      simp only [token, List.append_assoc, List.cons_append]
    obtain ⟨z, ok, same⟩ := readToken_hostname y first
    rw [split, deserialize_append, alone free, ok, ok_bind, behind, dropWhile_append_delim free]
    exact deserialize_alike same rest
  · have nothing : name.dropWhile (· ≠ ';') = [] := by
      rw [List.dropWhile_eq_nil_iff]
      intro c member
      simpa using fun same : c = ';' => inside (same ▸ member)
    obtain ⟨z, ok, same⟩ := readToken_hostname y name
    rw [alone inside, ok, behind, nothing]
    exact .ended same

def ChannelKind.mtu : ChannelKind → UInt32
  | .soc => UInt32.ofNat ChannelSoC.kMTU
  | .dpa => (log2value DPA_LOG_WQ_DATA_ENTRY_BSIZE).toUInt32

def own (kind : ChannelKind) (resolve : Resolve) (qpNum : UInt32) : QPInfo :=
  { zeroed with
    qpNum := qpNum
    lid := resolve.portLid
    gid := resolve.gid
    gidTableIndex := resolve.gidIndex
    mtu := kind.mtu
    macAddr := resolve.macAddr
    nicName := resolve.deviceName
    isInitialized := true }

structure Describes (kind : ChannelKind) (resolve : Resolve) (qpNum : UInt32) (z : QPInfo) :
    Prop where
  fields : SameFields z (own kind resolve qpNum)
  nicName : cString z.nicName = cString resolve.deviceName
  isInitialized : z.isInitialized = true

def Delivers (kind : ChannelKind) (resolve : Resolve) (qpNum : UInt32) (block other y : QPInfo) :
    Prop :=
  ∃ text, sent kind resolve qpNum block = some text ∧ sent kind resolve qpNum other = some text ∧
    ∃ z, deserialize y text = .ok z ∧ Describes kind resolve qpNum z

/-- The tokens behind the first separator of the name say nothing else than the channel. -/
def Harmless (kind : ChannelKind) (resolve : Resolve) (qpNum : UInt32) (name : List Char) : Prop :=
  Confirm (lines ';' (behind name)) (own kind resolve qpNum)

theorem harmless_iff {kind : ChannelKind} {resolve : Resolve} {qpNum : UInt32} {name : List Char} :
    Harmless kind resolve qpNum name ↔
      ∃ w, deserialize (own kind resolve qpNum) (behind name) = .ok w ∧
        SameFields w (own kind resolve qpNum) :=
  (run_same_iff _ _).symm

theorem describes_iff {kind : ChannelKind} {resolve : Resolve} {qpNum : UInt32}
    (ends : '\x00' ∈ resolve.deviceName.toList) (name : Separable (cString resolve.deviceName))
    (width : qpNum.toNat < 2 ^ 24) (y : QPInfo) (hostname : List Char) :
    (∃ z, deserialize y (front (own kind resolve qpNum) ++ ';' ::
        (token "hostname" hostname ++ ';' :: back (own kind resolve qpNum))) = .ok z ∧
      Describes kind resolve qpNum z) ↔ Harmless kind resolve qpNum hostname := by
  have mtu : kind.mtu.toNat < 2 ^ 31 := by cases kind <;> decide
  obtain ⟨u, frontOk, frontSame⟩ := deserialize_front (x := own kind resolve qpNum)
    (show qpNum.toNat < 2 ^ 31 by omega) mtu y
  rw [deserialize_append, frontOk, ok_bind, deserialize_append, harmless_iff]
  have garbage := deserialize_hostname u hostname
  have alike := deserialize_alike frontSame (behind hostname)
  generalize deserialize u (token "hostname" hostname) = read at garbage
  generalize deserialize (own kind resolve qpNum) (behind hostname) = apart at alike
  generalize deserialize u (behind hostname) = middle at garbage alike
  cases garbage with
  | threw e =>
      cases alike
      constructor
      · rintro ⟨z, thrown, -⟩
        cases thrown
      · rintro ⟨w, thrown, -⟩
        cases thrown
  | @ended v m same =>
      cases alike with
      | @ended _ w kept =>
          obtain ⟨z, backOk, backSame, nicName, flag⟩ :=
            deserialize_back (x := own kind resolve qpNum) ends name v
          have joined : SameFields z w := (backSame.trans same).trans kept
          rw [ok_bind, backOk]
          constructor
          · rintro ⟨_, ok, describes⟩
            cases ok
            exact ⟨w, rfl, joined.symm.trans describes.fields⟩
          · rintro ⟨_, ok, harmless⟩
            cases ok
            exact ⟨z, rfl, joined.trans harmless, nicName, flag⟩

def hostnameOf (kind : ChannelKind) (block : QPInfo) : Vector Char maxHostnameLen :=
  match kind with
  | .soc => block.hostname
  | .dpa =>
      (strncpy block.hostname "DPA".toList (maxHostnameLen - 1)).set (maxHostnameLen - 1) '\x00'
        maxHostnameLen_end

theorem sent_eq {kind : ChannelKind} {resolve : Resolve} {qpNum : UInt32} {block : QPInfo}
    (ends : '\x00' ∈ resolve.deviceName.toList) (blank : block.isInitialized = false) :
    sent kind resolve qpNum block =
      if '\x00' ∈ (hostnameOf kind block).toList then
        some (front (own kind resolve qpNum) ++ ';' ::
          (token "hostname" (cString (hostnameOf kind block)) ++ ';' ::
            back (own kind resolve qpNum)))
      else none := by
  have filled : setLocalQpInfo kind resolve qpNum block =
      .ok { own kind resolve qpNum with hostname := hostnameOf kind block } := by
    cases kind <;>
      simp only [setLocalQpInfo, ChannelSoC.setLocalQpInfo, ChannelDPA.setLocalQpInfo,
        assertThat_holds blank, ok_bind, UInt32.toUInt32_toUInt64] <;> rfl
  rw [sent, filled]
  simp only [own, ends, and_true, serialize_parts]
  rfl

theorem hostnameOf_dpa (block : QPInfo) : '\x00' ∈ (hostnameOf .dpa block).toList ∧
    cString (hostnameOf .dpa block) = "DPA".toList := by
  have size : maxHostnameLen - 1 < maxHostnameLen := by decide
  have clean : '\x00' ∉ "DPA".toList := by decide
  have written := strncpy_toList size block.hostname clean (by decide) rfl
  rw [hostnameOf, cString, written]
  exact ⟨by simp [maxHostnameLen], by decide⟩

theorem harmless_plain {kind : ChannelKind} {resolve : Resolve} {qpNum : UInt32} {name : List Char}
    (plain : ';' ∉ name) : Harmless kind resolve qpNum name := by
  have nothing : name.dropWhile (· ≠ ';') = [] := by
    rw [List.dropWhile_eq_nil_iff]
    intro c member
    simpa using fun same : c = ';' => plain (same ▸ member)
  rw [harmless_iff, behind, nothing]
  exact ⟨_, rfl, rfl, rfl, rfl, rfl, rfl, rfl⟩

theorem delivers_iff {kind : ChannelKind} {resolve : Resolve} {qpNum : UInt32}
    {block other : QPInfo} (ends : '\x00' ∈ resolve.deviceName.toList)
    (name : Separable (cString resolve.deviceName)) (width : qpNum.toNat < 2 ^ 24)
    (blank : block.isInitialized = false) (otherBlank : other.isInitialized = false) (y : QPInfo) :
    Delivers kind resolve qpNum block other y ↔ kind = .dpa ∨
      ('\x00' ∈ block.hostname.toList ∧ '\x00' ∈ other.hostname.toList ∧
        cString block.hostname = cString other.hostname ∧
        Harmless kind resolve qpNum (cString block.hostname)) := by
  rw [Delivers, sent_eq ends blank, sent_eq ends otherBlank]
  cases kind with
  | dpa =>
      obtain ⟨terminated, text⟩ := hostnameOf_dpa block
      obtain ⟨otherTerminated, otherText⟩ := hostnameOf_dpa other
      rw [if_pos terminated, if_pos otherTerminated, text, otherText]
      refine iff_of_true ⟨_, rfl, rfl, ?_⟩ (.inl rfl)
      exact (describes_iff ends name width y _).mpr (harmless_plain (by decide))
  | soc =>
      refine Iff.trans ?_ (or_iff_right nofun).symm
      constructor
      · rintro ⟨text, first, second, described⟩
        split_ifs at first with terminated
        split_ifs at second with otherTerminated
        obtain rfl := Option.some.inj first
        have same := List.append_cancel_left (Option.some.inj second)
        simp only [List.cons.injEq, true_and, token, List.append_assoc, List.cons_append,
          List.append_cancel_left_eq] at same
        have texts := List.append_cancel_right same
        exact ⟨terminated, otherTerminated, texts.symm,
          (describes_iff ends name width y _).mp described⟩
      · rintro ⟨terminated, otherTerminated, same, harmless⟩
        have filled : '\x00' ∈ (hostnameOf .soc block).toList := terminated
        have otherFilled : '\x00' ∈ (hostnameOf .soc other).toList := otherTerminated
        have texts : cString (hostnameOf .soc block) = cString (hostnameOf .soc other) := same
        rw [if_pos filled, if_pos otherFilled, ← texts]
        exact ⟨_, rfl, rfl, (describes_iff ends name width y _).mpr harmless⟩

def samplePort : Resolve where
  portLid := 3
  gid := Vector.replicate 16 1
  gidIndex := 3
  macAddr := Vector.replicate 6 2
  deviceName := Vector.replicate maxNicNameLen '\x00'

theorem samplePort_name : '\x00' ∈ samplePort.deviceName.toList ∧
    Separable (cString samplePort.deviceName) := by
  have text : cString samplePort.deviceName = [] := cString_replicate _
  rw [text]
  exact ⟨by decide, List.not_mem_nil, List.not_mem_nil⟩

def leftOver : QPInfo :=
  { zeroed with hostname := strncpy zeroed.hostname "x;lid:3".toList (maxHostnameLen - 1) }

theorem leftOver_harmless : Harmless .soc samplePort 9 (cString leftOver.hostname) :=
  harmless_iff.mpr ⟨own .soc samplePort 9, rfl, rfl, rfl, rfl, rfl, rfl, rfl⟩

-- The two blocks differ behind the NUL.
theorem delivers_leftOver : Delivers .soc samplePort 9 leftOver
    { leftOver with hostname := leftOver.hostname.set 40 'y' (by decide) } zeroed :=
  (delivers_iff samplePort_name.1 samplePort_name.2 (by decide) rfl rfl zeroed).mpr
    (.inr ⟨by decide, by decide, by decide, leftOver_harmless⟩)

def garbage : QPInfo :=
  { zeroed with hostname := strncpy zeroed.hostname "x;qp_num:5".toList (maxHostnameLen - 1) }

theorem garbage_sent : garbage.isInitialized = false ∧
    ¬ Delivers .soc samplePort 9 garbage garbage zeroed := by
  refine ⟨rfl, ?_⟩
  rintro ⟨text, first, -, z, ok, describes⟩
  have terminated : '\x00' ∈ (hostnameOf .soc garbage).toList := by decide
  rw [sent_eq samplePort_name.1 rfl, if_pos terminated] at first
  obtain rfl := Option.some.inj first
  obtain ⟨w, read, same⟩ := harmless_iff.mp ((describes_iff samplePort_name.1 samplePort_name.2
    (by decide) zeroed (cString (hostnameOf .soc garbage))).mp ⟨z, ok, describes⟩)
  have injected : deserialize (own .soc samplePort 9)
      (behind (cString (hostnameOf .soc garbage))) =
        .ok { own .soc samplePort 9 with qpNum := 5 } := rfl
  rw [injected] at read
  cases read
  exact absurd same.qpNum (by decide)

end Nicc.Channel

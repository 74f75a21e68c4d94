import Nicc.Lib.Text

namespace Nicc.Channel
open Lib

def maxHostnameLen : Nat := 64
def maxNicNameLen : Nat := 64

theorem maxHostnameLen_end : maxHostnameLen - 1 < maxHostnameLen := by decide

structure QPInfo where
  qpNum : UInt32
  lid : UInt16
  gid : Vector UInt8 16
  gidTableIndex : UInt8
  mtu : UInt32
  macAddr : Vector UInt8 6
  hostname : Vector Char maxHostnameLen
  nicName : Vector Char maxNicNameLen
  isInitialized : Bool

def zeroed : QPInfo where
  qpNum := 0
  lid := 0
  gid := Vector.replicate 16 0
  gidTableIndex := 0
  mtu := 0
  macAddr := Vector.replicate 6 0
  hostname := Vector.replicate maxHostnameLen '\x00'
  nicName := Vector.replicate maxNicNameLen '\x00'
  isInitialized := false

def cString {n : Nat} (array : Vector Char n) : List Char :=
  array.toList.takeWhile (· ≠ '\x00')

/-- `strncpy`, which pads with NUL, of the string that `value.c_str()` points to. -/
def strncpy {n : Nat} (dest : Vector Char n) (value : List Char) (count : Nat) : Vector Char n :=
  let src := value.takeWhile (· ≠ '\x00')
  Vector.ofFn fun i => if i < count then src.getD i '\x00' else dest[i]

def bytesText {n : Nat} (bytes : Vector UInt8 n) : List Char :=
  bytes.toList.flatMap fun byte => decimal byte.toNat ++ ",".toList

def serialize (x : QPInfo) : List Char :=
  "qp_num:".toList ++ decimal x.qpNum.toNat ++ ";".toList ++
  ("lid:".toList ++ decimal x.lid.toNat ++ ";".toList) ++
  "gid:".toList ++
  bytesText x.gid ++
  (";gid_table_index:".toList ++ decimal x.gidTableIndex.toNat ++ ";".toList) ++
  "mac:".toList ++
  bytesText x.macAddr ++
  (";mtu:".toList ++ decimal x.mtu.toNat ++ ";".toList) ++
  ("hostname:".toList ++ cString x.hostname ++ ";".toList) ++
  ("nic_name:".toList ++ cString x.nicName ++ ";".toList) ++
  ("is_initialized:".toList ++ decimal x.isInitialized.toNat)

def readBytes {n : Nat} : List (List Char) → Nat → Vector UInt8 n →
    Except StoiError (Vector UInt8 n)
  | [], _, bytes => .ok bytes
  | token :: tokens, i, bytes =>
      if bound : i < n then do
        let value ← stoi token
        readBytes tokens (i + 1) (bytes.set i (UInt8.ofInt value))
      else .ok bytes

def readField (x : QPInfo) (key value : List Char) : Except StoiError QPInfo := do
  if key = "qp_num".toList then
    return { x with qpNum := UInt32.ofInt (← stoi value) }
  else if key = "lid".toList then
    return { x with lid := UInt16.ofInt (← stoi value) }
  else if key = "gid".toList then
    return { x with gid := ← readBytes (lines ',' value) 0 x.gid }
  else if key = "gid_table_index".toList then
    return { x with gidTableIndex := UInt8.ofInt (← stoi value) }
  else if key = "mac".toList then
    return { x with macAddr := ← readBytes (lines ',' value) 0 x.macAddr }
  else if key = "mtu".toList then
    return { x with mtu := UInt32.ofInt (← stoi value) }
  else if key = "hostname".toList then
    let hostname := strncpy x.hostname value (maxHostnameLen - 1)
    return { x with hostname := hostname.set (maxHostnameLen - 1) '\x00' maxHostnameLen_end }
  else if key = "nic_name".toList then
    let nicName := strncpy x.nicName value (maxNicNameLen - 1)
    return { x with nicName := nicName.set (maxNicNameLen - 1) '\x00' }
  else if key = "is_initialized".toList then
    return { x with isInitialized := (← stoi value) ≠ 0 }
  else return x

-- A part of the token that is missing leaves the string it was to be read into empty.
def readToken (x : QPInfo) (token : List Char) : Except StoiError QPInfo :=
  let (key, rest) := (getline ':' token).getD ([], [])
  let (value, _) := (getline ':' rest).getD ([], [])
  readField x key value

def deserialize (x : QPInfo) (data : List Char) : Except StoiError QPInfo :=
  run readToken x (lines ';' data)

def token (key : String) (value : List Char) : List Char := key.toList ++ ':' :: value

theorem serialize_tokens (x : QPInfo) : serialize x =
    token "qp_num" (decimal x.qpNum.toNat) ++ ';' ::
    (token "lid" (decimal x.lid.toNat) ++ ';' ::
    (token "gid" (bytesText x.gid) ++ ';' ::
    (token "gid_table_index" (decimal x.gidTableIndex.toNat) ++ ';' ::
    (token "mac" (bytesText x.macAddr) ++ ';' ::
    (token "mtu" (decimal x.mtu.toNat) ++ ';' ::
    (token "hostname" (cString x.hostname) ++ ';' ::
    (token "nic_name" (cString x.nicName) ++ ';' ::
    token "is_initialized" (decimal x.isInitialized.toNat)))))))) := by
  unfold serialize
  simp only [token, String.reduceToList, List.cons_append, List.nil_append, List.append_assoc]

theorem not_mem_bytesText {n : Nat} {bytes : Vector UInt8 n} {c : Char} (other : c.isDigit = false)
    (apart : c ≠ ',') : c ∉ bytesText bytes := by
  intro member
  obtain ⟨byte, -, inside⟩ := List.mem_flatMap.mp member
  rcases List.mem_append.mp inside with digit | comma
  · exact not_mem_decimal other digit
  · exact apart (by simpa using comma)

theorem not_mem_token {key : String} {value : List Char} {c : Char} (other : c ≠ ':')
    (inKey : c ∉ key.toList) (inValue : c ∉ value) : c ∉ token key value := by
  simp [token, other, inKey, inValue]

structure Separable (name : List Char) : Prop where
  semicolon : ';' ∉ name
  colon : ':' ∉ name

theorem lines_serialize {x : QPInfo} (hostname : Separable (cString x.hostname))
    (nicName : Separable (cString x.nicName)) : lines ';' (serialize x) =
    [token "qp_num" (decimal x.qpNum.toNat), token "lid" (decimal x.lid.toNat),
      token "gid" (bytesText x.gid), token "gid_table_index" (decimal x.gidTableIndex.toNat),
      token "mac" (bytesText x.macAddr), token "mtu" (decimal x.mtu.toNat),
      token "hostname" (cString x.hostname), token "nic_name" (cString x.nicName),
      token "is_initialized" (decimal x.isInitialized.toNat)] := by
  have number : ∀ n, ';' ∉ decimal n := fun n => not_mem_decimal rfl
  have bytes : ∀ {n : Nat} (bytes : Vector UInt8 n), ';' ∉ bytesText bytes :=
    fun _ => not_mem_bytesText rfl (by decide)
  rw [serialize_tokens,
    lines_append (not_mem_token (by decide) (by decide) (number _)),
    lines_append (not_mem_token (by decide) (by decide) (number _)),
    lines_append (not_mem_token (by decide) (by decide) (bytes _)),
    lines_append (not_mem_token (by decide) (by decide) (number _)),
    lines_append (not_mem_token (by decide) (by decide) (bytes _)),
    lines_append (not_mem_token (by decide) (by decide) (number _)),
    lines_append (not_mem_token (by decide) (by decide) hostname.semicolon),
    lines_append (not_mem_token (by decide) (by decide) nicName.semicolon),
    lines_last (by simp [token]) (not_mem_token (by decide) (by decide) (number _))]

theorem getline_token {key : String} {value : List Char} (inKey : ':' ∉ key.toList) :
    (getline ':' (token key value)).getD ([], []) = (key.toList, value) := by
  rw [token, getline_append inKey, Option.getD_some]

theorem lines_bytesText {n : Nat} (bytes : Vector UInt8 n) :
    lines ',' (bytesText bytes) = bytes.toList.map fun byte => decimal byte.toNat := by
  rw [bytesText]
  induction bytes.toList with
  | nil => rfl
  | cons byte rest ih =>
      have comma : ",".toList = [','] := rfl
      rw [List.flatMap_cons, List.map_cons, comma, List.append_assoc, List.singleton_append,
        lines_append (not_mem_decimal rfl), ← comma, ih]

theorem stoi_small {n : Nat} (small : n < 2 ^ 31) : stoi (decimal n) = .ok (n : Int) := by
  rw [stoi_decimal, if_pos small]

theorem stoi_byte (byte : UInt8) : stoi (decimal byte.toNat) = .ok (byte.toNat : Int) :=
  stoi_small (byte.toNat_lt.trans (by decide))

theorem uint8_ofInt_toNat (byte : UInt8) : UInt8.ofInt (byte.toNat : Int) = byte := by
  apply UInt8.toNat_inj.mp
  have small := byte.toNat_lt
  simp only [UInt8.ofInt, UInt8.toNat_ofNat']
  omega

theorem readBytes_all {n : Nat} (bytes : Vector UInt8 n) (i : Nat) (into : Vector UInt8 n)
    (done : ∀ j (inside : j < n), j < i → into[j] = bytes[j]) :
    readBytes ((bytes.toList.drop i).map fun byte => decimal byte.toNat) i into = .ok bytes := by
  induction left : n - i generalizing i into with
  | zero =>
      have past : bytes.toList.length ≤ i := by
        rw [Vector.length_toList]
        omega
      rw [List.drop_eq_nil_of_le past, List.map_nil, readBytes]
      congr 1
      exact Vector.ext fun j inside => done j inside (by omega)
  | succ k ih =>
      have inside : i < n := by omega
      have next : bytes.toList.drop i = bytes[i] :: bytes.toList.drop (i + 1) := by
        rw [List.drop_eq_getElem_cons (by rw [Vector.length_toList]; exact inside),
          Vector.getElem_toList]
      rw [next, List.map_cons, readBytes, dif_pos inside, stoi_byte, ok_bind, uint8_ofInt_toNat]
      refine ih (i + 1) _ (fun j bound before => ?_) (by omega)
      rw [Vector.getElem_set]
      split_ifs with here
      · simp only [here]
      · exact done j bound (by omega)

theorem readBytes_text {n : Nat} (bytes into : Vector UInt8 n) :
    readBytes (lines ',' (bytesText bytes)) 0 into = .ok bytes := by
  rw [lines_bytesText, ← List.drop_zero (l := bytes.toList)]
  exact readBytes_all bytes 0 into fun j _ before => absurd before (Nat.not_lt_zero j)

theorem not_mem_cString {n : Nat} (array : Vector Char n) : '\x00' ∉ cString array := by
  intro member
  have := List.mem_takeWhile_imp member
  simp at this

theorem cString_length {n : Nat} {array : Vector Char n} (terminated : '\x00' ∈ array.toList) :
    (cString array).length < n := by
  have shorter : cString array ≠ array.toList := by
    intro whole
    exact not_mem_cString array (whole ▸ terminated)
  have before : cString array <+: array.toList := List.takeWhile_prefix _
  have bound := before.length_le
  rw [Vector.length_toList] at bound
  refine lt_of_le_of_ne bound fun same => shorter (before.eq_of_length ?_)
  rw [Vector.length_toList, same]

theorem strncpy_toList {n count : Nat} (size : count < n) (dest : Vector Char n)
    {value : List Char} (clean : '\x00' ∉ value) (fits : value.length ≤ count)
    (last : n = count + 1) :
    ((strncpy dest value count).set count '\x00' size).toList =
      value ++ List.replicate (n - value.length) '\x00' := by
  have all : value.takeWhile (· ≠ '\x00') = value := by
    apply List.takeWhile_eq_self_iff.mpr
    intro c member
    simpa using fun same : c = '\x00' => clean (same ▸ member)
  apply List.ext_getElem
  · simp
    omega
  · intro i low high
    rw [Vector.length_toList] at low
    rw [Vector.getElem_toList, Vector.getElem_set]
    by_cases final : count = i
    · rw [if_pos final, List.getElem_append_right (by omega), List.getElem_replicate]
    · have copied : i < count := by omega
      rw [if_neg final]
      simp only [strncpy, all, Vector.getElem_ofFn, copied, if_true]
      by_cases inside : i < value.length
      · simp [inside]
      · rw [List.getElem_append_right (by omega), List.getElem_replicate]
        simp [inside]

theorem cString_strncpy {n count : Nat} (size : count < n) (last : n = count + 1)
    (dest array : Vector Char n) (ends : '\x00' ∈ array.toList) :
    cString ((strncpy dest (cString array) count).set count '\x00' size) = cString array := by
  have clean := not_mem_cString array
  have fits := cString_length ends
  rw [cString, strncpy_toList size dest clean (by omega) last, List.takeWhile_append_of_pos]
  · have positive : n - (cString array).length = n - (cString array).length - 1 + 1 := by omega
    rw [positive, List.replicate_succ, List.takeWhile_cons_of_neg (by simp), List.append_nil]
  · intro c member
    simpa using fun same : c = '\x00' => clean (same ▸ member)

theorem readToken_token (x : QPInfo) {key : String} {value : List Char} (inKey : ':' ∉ key.toList)
    (inValue : ':' ∉ value) : readToken x (token key value) = readField x key.toList value := by
  simp only [readToken, getline_token inKey, getline_last inValue]

theorem uint16_ofInt_toNat (n : UInt16) : UInt16.ofInt (n.toNat : Int) = n := by
  apply UInt16.toNat_inj.mp
  have small := n.toNat_lt
  simp only [UInt16.ofInt, UInt16.toNat_ofNat']
  omega

theorem uint32_ofInt_toNat (n : UInt32) : UInt32.ofInt (n.toNat : Int) = n := by
  apply UInt32.toNat_inj.mp
  have small := n.toNat_lt
  simp only [UInt32.ofInt, UInt32.toNat_ofNat']
  omega

theorem readField_qpNum (x : QPInfo) (n : UInt32) :
    readField x "qp_num".toList (decimal n.toNat) =
      if n.toNat < 2 ^ 31 then .ok { x with qpNum := n } else .error .outOfRange := by
  rw [readField, if_pos rfl, stoi_decimal]
  split_ifs
  · rw [ok_bind, uint32_ofInt_toNat]
    rfl
  · rfl

theorem readField_mtu (x : QPInfo) (n : UInt32) :
    readField x "mtu".toList (decimal n.toNat) =
      if n.toNat < 2 ^ 31 then .ok { x with mtu := n } else .error .outOfRange := by
  rw [readField]
  iterate 5 rw [if_neg (by decide)]
  rw [if_pos rfl, stoi_decimal]
  split_ifs
  · rw [ok_bind, uint32_ofInt_toNat]
    rfl
  · rfl

theorem readField_lid (x : QPInfo) (n : UInt16) :
    readField x "lid".toList (decimal n.toNat) = .ok { x with lid := n } := by
  rw [readField, if_neg (by decide), if_pos rfl, stoi_small (n.toNat_lt.trans (by decide)), ok_bind,
    uint16_ofInt_toNat]
  rfl

theorem readField_gid (x : QPInfo) (gid : Vector UInt8 16) :
    readField x "gid".toList (bytesText gid) = .ok { x with gid := gid } := by
  rw [readField]
  iterate 2 rw [if_neg (by decide)]
  rw [if_pos rfl, readBytes_text, ok_bind]
  rfl

theorem readField_gidTableIndex (x : QPInfo) (n : UInt8) :
    readField x "gid_table_index".toList (decimal n.toNat) = .ok { x with gidTableIndex := n } := by
  rw [readField]
  iterate 3 rw [if_neg (by decide)]
  rw [if_pos rfl, stoi_byte, ok_bind, uint8_ofInt_toNat]
  rfl

theorem readField_mac (x : QPInfo) (mac : Vector UInt8 6) :
    readField x "mac".toList (bytesText mac) = .ok { x with macAddr := mac } := by
  rw [readField]
  iterate 4 rw [if_neg (by decide)]
  rw [if_pos rfl, readBytes_text, ok_bind]
  rfl

theorem readField_hostname (x : QPInfo) (value : List Char) :
    readField x "hostname".toList value = .ok { x with
      hostname := (strncpy x.hostname value (maxHostnameLen - 1)).set (maxHostnameLen - 1) '\x00'
        maxHostnameLen_end } := by
  rw [readField]
  iterate 6 rw [if_neg (by decide)]
  rw [if_pos rfl]
  rfl

theorem readField_nicName (x : QPInfo) (value : List Char) :
    readField x "nic_name".toList value = .ok { x with
      nicName := (strncpy x.nicName value (maxNicNameLen - 1)).set (maxNicNameLen - 1) '\x00' } := by
  rw [readField]
  iterate 7 rw [if_neg (by decide)]
  rw [if_pos rfl]
  rfl

theorem readField_isInitialized (x : QPInfo) (flag : Bool) :
    readField x "is_initialized".toList (decimal flag.toNat) =
      .ok { x with isInitialized := flag } := by
  rw [readField]
  iterate 8 rw [if_neg (by decide)]
  rw [if_pos rfl, stoi_small (flag.toNat_lt.trans (by decide)), ok_bind]
  cases flag <;> rfl

def received (y x : QPInfo) : QPInfo :=
  let hostname := strncpy y.hostname (cString x.hostname) (maxHostnameLen - 1)
  let nicName := strncpy y.nicName (cString x.nicName) (maxNicNameLen - 1)
  { x with
    hostname := hostname.set (maxHostnameLen - 1) '\x00' maxHostnameLen_end
    nicName := nicName.set (maxNicNameLen - 1) '\x00' }

theorem deserialize_serialize (y : QPInfo) {x : QPInfo} (hostname : Separable (cString x.hostname))
    (nicName : Separable (cString x.nicName)) :
    deserialize y (serialize x) =
      if x.qpNum.toNat < 2 ^ 31 ∧ x.mtu.toNat < 2 ^ 31 then .ok (received y x)
      else .error .outOfRange := by
  have number : ∀ n, ':' ∉ decimal n := fun n => not_mem_decimal rfl
  have bytes : ∀ {n : Nat} (bytes : Vector UInt8 n), ':' ∉ bytesText bytes :=
    fun _ => not_mem_bytesText rfl (by decide)
  rw [deserialize, lines_serialize hostname nicName]
  simp only [run, List.foldlM_cons, List.foldlM_nil,
    readToken_token _ (show ':' ∉ "qp_num".toList by decide) (number _),
    readToken_token _ (show ':' ∉ "lid".toList by decide) (number _),
    readToken_token _ (show ':' ∉ "gid".toList by decide) (bytes _),
    readToken_token _ (show ':' ∉ "gid_table_index".toList by decide) (number _),
    readToken_token _ (show ':' ∉ "mac".toList by decide) (bytes _),
    readToken_token _ (show ':' ∉ "mtu".toList by decide) (number _),
    readToken_token _ (show ':' ∉ "hostname".toList by decide) hostname.colon,
    readToken_token _ (show ':' ∉ "nic_name".toList by decide) nicName.colon,
    readToken_token _ (show ':' ∉ "is_initialized".toList by decide) (number _)]
  by_cases qpNum : x.qpNum.toNat < 2 ^ 31
  · by_cases mtu : x.mtu.toNat < 2 ^ 31
    · simp only [readField_qpNum, readField_lid, readField_gid, readField_gidTableIndex,
        readField_mac, readField_mtu, readField_hostname, readField_nicName,
        readField_isInitialized, qpNum, mtu, and_self, if_true, ok_bind]
      rfl
    · simp only [readField_qpNum, readField_lid, readField_gid, readField_gidTableIndex,
        readField_mac, readField_mtu, qpNum, mtu, and_false, if_true, if_false, ok_bind]
      rfl
  · simp only [readField_qpNum, qpNum, false_and, if_false]
    rfl

structure Agree (x y : QPInfo) : Prop where
  qpNum : x.qpNum = y.qpNum
  lid : x.lid = y.lid
  gid : x.gid = y.gid
  gidTableIndex : x.gidTableIndex = y.gidTableIndex
  mtu : x.mtu = y.mtu
  macAddr : x.macAddr = y.macAddr
  hostname : cString x.hostname = cString y.hostname
  nicName : cString x.nicName = cString y.nicName
  isInitialized : x.isInitialized = y.isInitialized

structure WellFormed (x : QPInfo) : Prop where
  hostnameEnds : '\x00' ∈ x.hostname.toList
  nicNameEnds : '\x00' ∈ x.nicName.toList
  hostname : Separable (cString x.hostname)
  nicName : Separable (cString x.nicName)

-- Plain `rfl` would first compare `received y x` with `x`, array by array.
theorem received_agree (y : QPInfo) {x : QPInfo} (wellFormed : WellFormed x) :
    Agree (received y x) x := by
  constructor <;> simp only [received]
  case hostname =>
    exact cString_strncpy (by decide) rfl y.hostname x.hostname wellFormed.hostnameEnds
  case nicName =>
    exact cString_strncpy (by decide) rfl y.nicName x.nicName wellFormed.nicNameEnds

theorem WellFormed.reads {x y z : QPInfo} (wellFormed : WellFormed x)
    (read : deserialize y (serialize x) = .ok z) : z = received y x := by
  rw [deserialize_serialize y wellFormed.hostname wellFormed.nicName] at read
  split_ifs at read
  exact (Except.ok.inj read).symm

theorem WellFormed.read_iff {x : QPInfo} (wellFormed : WellFormed x) (y : QPInfo) :
    (∃ z, deserialize y (serialize x) = .ok z) ↔
      x.qpNum.toNat < 2 ^ 31 ∧ x.mtu.toNat < 2 ^ 31 := by
  rw [deserialize_serialize y wellFormed.hostname wellFormed.nicName]
  split_ifs with small
  · exact iff_of_true ⟨_, rfl⟩ small
  · exact iff_of_false (fun ⟨_, read⟩ => nomatch read) small

theorem decodes_iff {x : QPInfo} (wellFormed : WellFormed x) (y : QPInfo) :
    (∃ z, deserialize y (serialize x) = .ok z ∧ Agree z x) ↔
      x.qpNum.toNat < 2 ^ 31 ∧ x.mtu.toNat < 2 ^ 31 := by
  rw [← wellFormed.read_iff y]
  constructor
  · rintro ⟨z, read, -⟩
    exact ⟨z, read⟩
  · rintro ⟨z, read⟩
    refine ⟨z, read, ?_⟩
    rw [wellFormed.reads read]
    exact received_agree y wellFormed

theorem cString_replicate (n : Nat) : cString (Vector.replicate n '\x00') = [] := by
  cases n <;> simp [cString, List.replicate_succ]

theorem zeroed_wellFormed (qpNum mtu : UInt32) :
    WellFormed { zeroed with qpNum := qpNum, mtu := mtu } := by
  have separable : Separable (cString (Vector.replicate 64 '\x00')) := by
    rw [cString_replicate]
    exact ⟨List.not_mem_nil, List.not_mem_nil⟩
  have ends : '\x00' ∈ (Vector.replicate 64 '\x00').toList := by simp
  exact ⟨ends, ends, separable, separable⟩

theorem decodes_small_qpNum :
    ∃ z, deserialize zeroed (serialize { zeroed with qpNum := 7, mtu := 5 }) = .ok z ∧
      Agree z { zeroed with qpNum := 7, mtu := 5 } :=
  (decodes_iff (zeroed_wellFormed 7 5) zeroed).mpr (by decide)

theorem large_qpNum_refused :
    WellFormed { zeroed with qpNum := 2147483648, mtu := 5 } ∧
      deserialize zeroed (serialize { zeroed with qpNum := 2147483648, mtu := 5 }) =
        .error .outOfRange ∧
      ¬ ∃ z, deserialize zeroed (serialize { zeroed with qpNum := 2147483648, mtu := 5 }) = .ok z ∧
        Agree z { zeroed with qpNum := 2147483648, mtu := 5 } := by
  have wellFormed := zeroed_wellFormed 2147483648 5
  have refused : deserialize zeroed (serialize { zeroed with qpNum := 2147483648, mtu := 5 }) =
      .error .outOfRange := by
    rw [deserialize_serialize zeroed wellFormed.hostname wellFormed.nicName, if_neg (by decide)]
  refine ⟨wellFormed, refused, ?_⟩
  rw [refused]
  rintro ⟨z, ok, -⟩
  cases ok

end Nicc.Channel

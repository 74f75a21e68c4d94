import Nicc.Channel.QPInfo

namespace Nicc.Channel
open Lib

def tokenParts (token : List Char) : List Char × List Char :=
  let (key, rest) := (getline ':' token).getD ([], [])
  let (value, _) := (getline ':' rest).getD ([], [])
  (key, value)

theorem readToken_parts (x : QPInfo) (token : List Char) :
    readToken x token = readField x (tokenParts token).1 (tokenParts token).2 := rfl

def numericKeys : List (List Char) :=
  ["qp_num".toList, "lid".toList, "gid_table_index".toList, "mtu".toList, "is_initialized".toList]

def byteKeys : List (List Char) := ["gid".toList, "mac".toList]

theorem byteKeys_not_numeric : ∀ key ∈ byteKeys, key ∉ numericKeys := by decide

structure SameFields (x y : QPInfo) : Prop where
  qpNum : x.qpNum = y.qpNum
  lid : x.lid = y.lid
  gid : x.gid = y.gid
  gidTableIndex : x.gidTableIndex = y.gidTableIndex
  macAddr : x.macAddr = y.macAddr
  mtu : x.mtu = y.mtu

theorem SameFields.symm {x y : QPInfo} (same : SameFields x y) : SameFields y x :=
  ⟨same.qpNum.symm, same.lid.symm, same.gid.symm, same.gidTableIndex.symm, same.macAddr.symm,
    same.mtu.symm⟩

theorem SameFields.trans {x y z : QPInfo} (first : SameFields x y) (second : SameFields y z) :
    SameFields x z :=
  ⟨first.qpNum.trans second.qpNum, first.lid.trans second.lid, first.gid.trans second.gid,
    first.gidTableIndex.trans second.gidTableIndex, first.macAddr.trans second.macAddr,
    first.mtu.trans second.mtu⟩

structure Sets {β : Type} (key : List Char) (set : QPInfo → β → QPInfo) : Prop where
  same {x y : QPInfo} (value : β) : SameFields x y → SameFields (set x value) (set y value)
  flag : key ≠ "is_initialized".toList → ∀ x value, (set x value).isInitialized = x.isInitialized

theorem Sets.hostname (key : List Char) (name : QPInfo → List Char → Vector Char maxHostnameLen) :
    Sets key fun x text => { x with hostname := name x text } :=
  ⟨fun _ same => { same with }, fun _ _ _ => rfl⟩

theorem Sets.nicName (key : List Char) (name : QPInfo → List Char → Vector Char maxNicNameLen) :
    Sets key fun x text => { x with nicName := name x text } :=
  ⟨fun _ same => { same with }, fun _ _ _ => rfl⟩

inductive Reads (key value : List Char) : Prop
  | number (set : QPInfo → Int → QPInfo) (numeric : key ∈ numericKeys) (sets : Sets key set)
      (reads : ∀ x, readField x key value = stoi value >>= fun k => pure (set x k))
  | bytes {n : Nat} (get : QPInfo → Vector UInt8 n) (set : QPInfo → Vector UInt8 n → QPInfo)
      (listed : key ∈ byteKeys) (sets : Sets key set)
      (gets : ∀ {x y : QPInfo}, SameFields x y → get x = get y)
      (reads : ∀ x, readField x key value =
        readBytes (lines ',' value) 0 (get x) >>= fun bytes => pure (set x bytes))
  | text (set : QPInfo → List Char → QPInfo) (free : key ∉ numericKeys) (sets : Sets key set)
      (reads : ∀ x, readField x key value = .ok (set x value))

theorem readField_reads (key value : List Char) : Reads key value := by
  by_cases qpNum : key = "qp_num".toList
  · exact .number (fun x k => { x with qpNum := UInt32.ofInt k }) (by rw [qpNum]; decide)
      ⟨fun _ same => { same with qpNum := rfl }, fun _ _ _ => rfl⟩
      fun x => by rw [readField, if_pos qpNum]
  by_cases lid : key = "lid".toList
  · exact .number (fun x k => { x with lid := UInt16.ofInt k }) (by rw [lid]; decide)
      ⟨fun _ same => { same with lid := rfl }, fun _ _ _ => rfl⟩
      fun x => by rw [readField, if_neg qpNum, if_pos lid]
  by_cases gid : key = "gid".toList
  · exact .bytes (·.gid) (fun x bytes => { x with gid := bytes }) (by rw [gid]; decide)
      ⟨fun _ same => { same with gid := rfl }, fun _ _ _ => rfl⟩ (·.gid)
      fun x => by rw [readField, if_neg qpNum, if_neg lid, if_pos gid]
  by_cases gidTableIndex : key = "gid_table_index".toList
  · exact .number (fun x k => { x with gidTableIndex := UInt8.ofInt k })
      (by rw [gidTableIndex]; decide)
      ⟨fun _ same => { same with gidTableIndex := rfl }, fun _ _ _ => rfl⟩
      fun x => by rw [readField, if_neg qpNum, if_neg lid, if_neg gid, if_pos gidTableIndex]
  by_cases mac : key = "mac".toList
  · exact .bytes (·.macAddr) (fun x bytes => { x with macAddr := bytes }) (by rw [mac]; decide)
      ⟨fun _ same => { same with macAddr := rfl }, fun _ _ _ => rfl⟩ (·.macAddr)
      fun x => by rw [readField, if_neg qpNum, if_neg lid, if_neg gid, if_neg gidTableIndex,
        if_pos mac]
  by_cases mtu : key = "mtu".toList
  · exact .number (fun x k => { x with mtu := UInt32.ofInt k }) (by rw [mtu]; decide)
      ⟨fun _ same => { same with mtu := rfl }, fun _ _ _ => rfl⟩
      fun x => by rw [readField, if_neg qpNum, if_neg lid, if_neg gid, if_neg gidTableIndex,
        if_neg mac, if_pos mtu]
  by_cases hostname : key = "hostname".toList
  · refine .text _ (by rw [hostname]; decide) (.hostname key fun x text =>
      (strncpy x.hostname text (maxHostnameLen - 1)).set (maxHostnameLen - 1) '\x00'
        maxHostnameLen_end) fun x => ?_
    rw [hostname, readField_hostname]
  by_cases nicName : key = "nic_name".toList
  · refine .text _ (by rw [nicName]; decide) (.nicName key fun x text =>
      (strncpy x.nicName text (maxNicNameLen - 1)).set (maxNicNameLen - 1) '\x00') fun x => ?_
    rw [nicName, readField_nicName]
  by_cases flag : key = "is_initialized".toList
  · exact .number (fun x k => { x with isInitialized := k ≠ 0 }) (by rw [flag]; decide)
      ⟨fun _ same => { same with }, fun other => absurd flag other⟩
      fun x => by rw [readField, if_neg qpNum, if_neg lid, if_neg gid, if_neg gidTableIndex,
        if_neg mac, if_neg mtu, if_neg hostname, if_neg nicName, if_pos flag]
  · have free : key ∉ numericKeys := by
      simp only [numericKeys, List.mem_cons, List.not_mem_nil, or_false, not_or]
      exact ⟨qpNum, lid, gidTableIndex, mtu, flag⟩
    refine .text (fun x _ => x) free ⟨fun _ same => same, fun _ _ _ => rfl⟩ fun x => ?_
    rw [readField, if_neg qpNum, if_neg lid, if_neg gid, if_neg gidTableIndex, if_neg mac,
      if_neg mtu, if_neg hostname, if_neg nicName, if_neg flag]
    rfl

theorem readField_error {key value : List Char} {e : StoiError} (numeric : key ∈ numericKeys)
    (unreadable : stoi value = .error e) (x : QPInfo) : readField x key value = .error e := by
  cases readField_reads key value with
  | number set _ _ reads =>
      rw [reads, unreadable]
      rfl
  | bytes get set listed => exact absurd numeric (byteKeys_not_numeric key listed)
  | text set free => exact absurd numeric free

theorem readBytes_ok {n : Nat} {pieces : List (List Char)}
    (readable : ∀ piece ∈ pieces, ∃ k, stoi piece = .ok k) (i : Nat) (bytes : Vector UInt8 n) :
    ∃ filled, readBytes pieces i bytes = .ok filled := by
  induction pieces generalizing i bytes with
  | nil => exact ⟨bytes, rfl⟩
  | cons piece pieces ih =>
      rw [readBytes]
      split_ifs with bound
      · obtain ⟨k, ok⟩ := readable piece List.mem_cons_self
        rw [ok, ok_bind]
        exact ih (fun p member => readable p (List.mem_cons_of_mem _ member)) _ _
      · exact ⟨bytes, rfl⟩

theorem readField_ok {key value : List Char}
    (number : key ∈ numericKeys → ∃ k, stoi value = .ok k)
    (bytes : key ∈ byteKeys → ∀ piece ∈ lines ',' value, ∃ k, stoi piece = .ok k) (x : QPInfo) :
    ∃ z, readField x key value = .ok z ∧
      (key ≠ "is_initialized".toList → z.isInitialized = x.isInitialized) := by
  cases readField_reads key value with
  | number set numeric sets reads =>
      obtain ⟨k, ok⟩ := number numeric
      rw [reads, ok]
      exact ⟨set x k, rfl, fun other => sets.flag other x k⟩
  | bytes get set listed sets gets reads =>
      obtain ⟨filled, ok⟩ := readBytes_ok (bytes listed) 0 (get x)
      rw [reads, ok]
      exact ⟨set x filled, rfl, fun other => sets.flag other x filled⟩
  | text set free sets reads =>
      exact ⟨set x value, reads x, fun other => sets.flag other x value⟩

inductive Alike : Except StoiError QPInfo → Except StoiError QPInfo → Prop
  | threw (e : StoiError) : Alike (.error e) (.error e)
  | ended {x y : QPInfo} (same : SameFields x y) : Alike (.ok x) (.ok y)

theorem Alike.bind {x y : Except StoiError QPInfo} {f g : QPInfo → Except StoiError QPInfo}
    (alike : Alike x y) (later : ∀ a b, SameFields a b → Alike (f a) (g b)) :
    Alike (x >>= f) (y >>= g) := by
  cases alike with
  | threw e => exact .threw e
  | ended same => exact later _ _ same

theorem readField_alike {x y : QPInfo} (same : SameFields x y) (key value : List Char) :
    Alike (readField x key value) (readField y key value) := by
  cases readField_reads key value with
  | number set _ sets reads =>
      rw [reads, reads]
      cases stoi value with
      | error e => exact .threw e
      | ok k => exact .ended (sets.same k same)
  | bytes get set _ sets gets reads =>
      rw [reads, reads, gets same]
      cases readBytes (lines ',' value) 0 (get y) with
      | error e => exact .threw e
      | ok bytes => exact .ended (sets.same bytes same)
  | text set _ sets reads =>
      rw [reads, reads]
      exact .ended (sets.same value same)

def lastOf {β : Type} (pick : List Char → Option β) (tokens : List (List Char)) : Option β :=
  tokens.reverse.findSome? pick

theorem lastOf_cons {β : Type} (pick : List Char → Option β) (token : List Char)
    (tokens : List (List Char)) :
    lastOf pick (token :: tokens) = (lastOf pick tokens).or (pick token) := by
  simp [lastOf, List.findSome?_append]

def numberOf {β : Type} (key : String) (convert : Int → β) (token : List Char) : Option β :=
  let (named, value) := tokenParts token
  if named = key.toList then convert <$> (stoi value).toOption else none

def byteOf (key : String) (i : Nat) (token : List Char) : Option UInt8 :=
  let (named, value) := tokenParts token
  if named = key.toList then
    (lines ',' value)[i]?.bind fun piece => UInt8.ofInt <$> (stoi piece).toOption
  else none

/-- Nothing that is read as a number fails to be one. -/
structure Readable (token : List Char) : Prop where
  number : (tokenParts token).1 ∈ numericKeys → ∃ k, stoi (tokenParts token).2 = .ok k
  gid : (tokenParts token).1 = "gid".toList →
    ∀ piece ∈ (lines ',' (tokenParts token).2).take 16, ∃ k, stoi piece = .ok k
  mac : (tokenParts token).1 = "mac".toList →
    ∀ piece ∈ (lines ',' (tokenParts token).2).take 6, ∃ k, stoi piece = .ok k

theorem readBytes_ok_iff {n : Nat} (pieces : List (List Char)) (i : Nat) (bytes : Vector UInt8 n) :
    (∃ filled, readBytes pieces i bytes = .ok filled) ↔
      ∀ piece ∈ pieces.take (n - i), ∃ k, stoi piece = .ok k := by
  induction pieces generalizing i bytes with
  | nil => simp [readBytes]
  | cons piece pieces ih =>
      rw [readBytes]
      split_ifs with bound
      · have left : n - i = n - (i + 1) + 1 := by omega
        rw [left, List.take_succ_cons, List.forall_mem_cons]
        cases value : stoi piece with
        | error e => simp [bind, Except.bind]
        | ok k => simpa using ih (i + 1) (bytes.set i (UInt8.ofInt k))
      · simp [show n - i = 0 by omega]

theorem readBytes_getElem {n : Nat} {pieces : List (List Char)} {i : Nat} {bytes filled : Vector UInt8 n}
    (read : readBytes pieces i bytes = .ok filled) (j : Nat) (inside : j < n) :
    filled[j] = if i ≤ j then
      (pieces[j - i]?.bind fun piece => UInt8.ofInt <$> (stoi piece).toOption).getD bytes[j]
      else bytes[j] := by
  induction pieces generalizing i bytes with
  | nil =>
      cases read
      simp
  | cons piece pieces ih =>
      rw [readBytes] at read
      split_ifs at read with bound
      · obtain ⟨k, value, rest⟩ := bind_eq_ok.mp read
        rw [ih rest, Vector.getElem_set]
        rcases Nat.lt_trichotomy i j with before | rfl | after
        · rw [if_pos (by omega), if_neg (by omega), if_pos (by omega),
            show j - i = j - (i + 1) + 1 by omega, List.getElem?_cons_succ]
        · rw [if_neg (by omega), if_pos rfl, if_pos le_rfl, Nat.sub_self, List.getElem?_cons_zero]
          simp [value, Except.toOption]
        · rw [if_neg (by omega), if_neg (by omega), if_neg (by omega)]
      · cases read
        rw [if_neg (by omega)]

structure Overwrites (token : List Char) (x z : QPInfo) : Prop where
  qpNum : z.qpNum = (numberOf "qp_num" UInt32.ofInt token).getD x.qpNum
  lid : z.lid = (numberOf "lid" UInt16.ofInt token).getD x.lid
  gidTableIndex : z.gidTableIndex =
    (numberOf "gid_table_index" UInt8.ofInt token).getD x.gidTableIndex
  mtu : z.mtu = (numberOf "mtu" UInt32.ofInt token).getD x.mtu
  gid : ∀ i (inside : i < 16), z.gid[i] = (byteOf "gid" i token).getD x.gid[i]
  mac : ∀ i (inside : i < 6), z.macAddr[i] = (byteOf "mac" i token).getD x.macAddr[i]

theorem numberOf_read {β : Type} {key : String} {convert : Int → β} {token : List Char} {k : Int}
    (named : (tokenParts token).1 = key.toList) (value : stoi (tokenParts token).2 = .ok k) :
    numberOf key convert token = some (convert k) := by
  simp only [numberOf, named, value, if_true]
  rfl

theorem numberOf_other {β : Type} {name key : String} {convert : Int → β} {token : List Char}
    (named : (tokenParts token).1 = name.toList) (other : name ≠ key) :
    numberOf key convert token = none := by
  simp only [numberOf, named, String.toList_inj, other, if_false]

theorem byteOf_read {key : String} {token : List Char} {n : Nat} {bytes filled : Vector UInt8 n}
    (named : (tokenParts token).1 = key.toList)
    (read : readBytes (lines ',' (tokenParts token).2) 0 bytes = .ok filled) (i : Nat)
    (inside : i < n) : filled[i] = (byteOf key i token).getD bytes[i] := by
  rw [readBytes_getElem read, if_pos (Nat.zero_le _), Nat.sub_zero, byteOf]
  simp only [named, if_true]

theorem byteOf_other {name key : String} {i : Nat} {token : List Char}
    (named : (tokenParts token).1 = name.toList) (other : name ≠ key) :
    byteOf key i token = none := by
  simp only [byteOf, named, String.toList_inj, other, if_false]

theorem readToken_overwrites {token : List Char} {x z : QPInfo} (read : readToken x token = .ok z) :
    Overwrites token x z := by
  rw [readToken_parts, readField] at read
  by_cases qpNum : (tokenParts token).1 = "qp_num".toList
  · rw [if_pos qpNum] at read
    obtain ⟨k, value, result⟩ := bind_eq_ok.mp read
    obtain rfl := pure_eq_ok.mp result
    constructor <;> simp (disch := decide) only [numberOf_read qpNum value, numberOf_other qpNum,
      byteOf_other qpNum, Option.getD_some, Option.getD_none, implies_true]
  rw [if_neg qpNum] at read
  by_cases lid : (tokenParts token).1 = "lid".toList
  · rw [if_pos lid] at read
    obtain ⟨k, value, result⟩ := bind_eq_ok.mp read
    obtain rfl := pure_eq_ok.mp result
    constructor <;> simp (disch := decide) only [numberOf_read lid value, numberOf_other lid,
      byteOf_other lid, Option.getD_some, Option.getD_none, implies_true]
  rw [if_neg lid] at read
  by_cases gid : (tokenParts token).1 = "gid".toList
  · rw [if_pos gid] at read
    obtain ⟨bytes, filled, result⟩ := bind_eq_ok.mp read
    obtain rfl := pure_eq_ok.mp result
    constructor <;> first
      | exact byteOf_read gid filled
      | simp (disch := decide) only [numberOf_other gid, byteOf_other gid, Option.getD_none,
          implies_true]
  rw [if_neg gid] at read
  by_cases gidTableIndex : (tokenParts token).1 = "gid_table_index".toList
  · rw [if_pos gidTableIndex] at read
    obtain ⟨k, value, result⟩ := bind_eq_ok.mp read
    obtain rfl := pure_eq_ok.mp result
    constructor <;> simp (disch := decide) only [numberOf_read gidTableIndex value,
      numberOf_other gidTableIndex, byteOf_other gidTableIndex, Option.getD_some, Option.getD_none,
      implies_true]
  rw [if_neg gidTableIndex] at read
  by_cases mac : (tokenParts token).1 = "mac".toList
  · rw [if_pos mac] at read
    obtain ⟨bytes, filled, result⟩ := bind_eq_ok.mp read
    obtain rfl := pure_eq_ok.mp result
    constructor <;> first
      | exact byteOf_read mac filled
      | simp (disch := decide) only [numberOf_other mac, byteOf_other mac, Option.getD_none,
          implies_true]
  rw [if_neg mac] at read
  by_cases mtu : (tokenParts token).1 = "mtu".toList
  · rw [if_pos mtu] at read
    obtain ⟨k, value, result⟩ := bind_eq_ok.mp read
    obtain rfl := pure_eq_ok.mp result
    constructor <;> simp (disch := decide) only [numberOf_read mtu value, numberOf_other mtu,
      byteOf_other mtu, Option.getD_some, Option.getD_none, implies_true]
  rw [if_neg mtu] at read
  by_cases hostname : (tokenParts token).1 = "hostname".toList
  · rw [if_pos hostname] at read
    obtain rfl := pure_eq_ok.mp read
    constructor <;> simp (disch := decide) only [numberOf_other hostname, byteOf_other hostname,
      Option.getD_none, implies_true]
  rw [if_neg hostname] at read
  by_cases nicName : (tokenParts token).1 = "nic_name".toList
  · rw [if_pos nicName] at read
    obtain rfl := pure_eq_ok.mp read
    constructor <;> simp (disch := decide) only [numberOf_other nicName, byteOf_other nicName,
      Option.getD_none, implies_true]
  rw [if_neg nicName] at read
  by_cases flag : (tokenParts token).1 = "is_initialized".toList
  · rw [if_pos flag] at read
    obtain ⟨k, value, result⟩ := bind_eq_ok.mp read
    obtain rfl := pure_eq_ok.mp result
    constructor <;> simp (disch := decide) only [numberOf_other flag, byteOf_other flag,
      Option.getD_none, implies_true]
  rw [if_neg flag] at read
  obtain rfl := pure_eq_ok.mp read
  constructor <;> simp only [numberOf, byteOf, qpNum, lid, gid, gidTableIndex, mac, mtu, if_false,
    Option.getD_none, implies_true]

theorem bind_pure_ok {β γ : Type} {e : Except StoiError β} {f : β → γ} :
    (∃ z, (e >>= fun a => pure (f a)) = .ok z) ↔ ∃ a, e = .ok a := by
  cases e with
  | error e => exact iff_of_false (fun ⟨_, read⟩ => nomatch read) (fun ⟨_, read⟩ => nomatch read)
  | ok a => exact iff_of_true ⟨f a, rfl⟩ ⟨a, rfl⟩

theorem readable_number {token : List Char} (numeric : (tokenParts token).1 ∈ numericKeys) :
    Readable token ↔ ∃ k, stoi (tokenParts token).2 = .ok k := by
  have noBytes : (tokenParts token).1 ∉ byteKeys :=
    fun listed => byteKeys_not_numeric _ listed numeric
  refine ⟨fun readable => readable.number numeric, fun value => ⟨fun _ => value, ?_, ?_⟩⟩
  · exact fun gid => absurd (by rw [gid]; decide) noBytes
  · exact fun mac => absurd (by rw [mac]; decide) noBytes

theorem readToken_ok_iff (x : QPInfo) (token : List Char) :
    (∃ z, readToken x token = .ok z) ↔ Readable token := by
  rw [readToken_parts, readField]
  by_cases qpNum : (tokenParts token).1 = "qp_num".toList
  · rw [if_pos qpNum, bind_pure_ok, readable_number (by rw [qpNum]; decide)]
  rw [if_neg qpNum]
  by_cases lid : (tokenParts token).1 = "lid".toList
  · rw [if_pos lid, bind_pure_ok, readable_number (by rw [lid]; decide)]
  rw [if_neg lid]
  by_cases gid : (tokenParts token).1 = "gid".toList
  · rw [if_pos gid, bind_pure_ok, readBytes_ok_iff]
    refine ⟨fun bytes => ⟨?_, fun _ => bytes, ?_⟩, fun readable => readable.gid gid⟩ <;>
      exact fun other => absurd other (by rw [gid]; decide)
  rw [if_neg gid]
  by_cases gidTableIndex : (tokenParts token).1 = "gid_table_index".toList
  · rw [if_pos gidTableIndex, bind_pure_ok, readable_number (by rw [gidTableIndex]; decide)]
  rw [if_neg gidTableIndex]
  by_cases mac : (tokenParts token).1 = "mac".toList
  · rw [if_pos mac, bind_pure_ok, readBytes_ok_iff]
    refine ⟨fun bytes => ⟨?_, ?_, fun _ => bytes⟩, fun readable => readable.mac mac⟩ <;>
      exact fun other => absurd other (by rw [mac]; decide)
  rw [if_neg mac]
  by_cases mtu : (tokenParts token).1 = "mtu".toList
  · rw [if_pos mtu, bind_pure_ok, readable_number (by rw [mtu]; decide)]
  rw [if_neg mtu]
  by_cases hostname : (tokenParts token).1 = "hostname".toList
  · rw [if_pos hostname]
    refine iff_of_true ⟨_, rfl⟩ ⟨?_, ?_, ?_⟩ <;>
      exact fun other => absurd other (by rw [hostname]; decide)
  rw [if_neg hostname]
  by_cases nicName : (tokenParts token).1 = "nic_name".toList
  · rw [if_pos nicName]
    refine iff_of_true ⟨_, rfl⟩ ⟨?_, ?_, ?_⟩ <;>
      exact fun other => absurd other (by rw [nicName]; decide)
  rw [if_neg nicName]
  by_cases flag : (tokenParts token).1 = "is_initialized".toList
  · rw [if_pos flag, bind_pure_ok, readable_number (by rw [flag]; decide)]
  rw [if_neg flag]
  refine iff_of_true ⟨_, rfl⟩ ⟨fun numeric => ?_, fun named => absurd named gid,
    fun named => absurd named mac⟩
  exfalso
  simp only [numericKeys, List.mem_cons, List.not_mem_nil, or_false] at numeric
  rcases numeric with named | named | named | named | named
  exacts [qpNum named, lid named, gidTableIndex named, mtu named, flag named]

theorem run_ok_iff (tokens : List (List Char)) (x : QPInfo) :
    (∃ z, run readToken x tokens = .ok z) ↔ ∀ token ∈ tokens, Readable token := by
  induction tokens generalizing x with
  | nil => exact iff_of_true ⟨x, rfl⟩ (List.forall_mem_nil _)
  | cons token tokens ih =>
      rw [List.forall_mem_cons, ← readToken_ok_iff x]
      constructor
      · rintro ⟨z, ran⟩
        obtain ⟨y, read, rest⟩ := run_cons_ok.mp ran
        exact ⟨⟨y, read⟩, (ih y).mp ⟨z, rest⟩⟩
      · rintro ⟨⟨y, read⟩, later⟩
        obtain ⟨z, rest⟩ := (ih y).mpr later
        exact ⟨z, run_cons_ok.mpr ⟨y, read, rest⟩⟩

structure Leaves (tokens : List (List Char)) (x z : QPInfo) : Prop where
  qpNum : z.qpNum = (lastOf (numberOf "qp_num" UInt32.ofInt) tokens).getD x.qpNum
  lid : z.lid = (lastOf (numberOf "lid" UInt16.ofInt) tokens).getD x.lid
  gidTableIndex : z.gidTableIndex =
    (lastOf (numberOf "gid_table_index" UInt8.ofInt) tokens).getD x.gidTableIndex
  mtu : z.mtu = (lastOf (numberOf "mtu" UInt32.ofInt) tokens).getD x.mtu
  gid : ∀ i (inside : i < 16), z.gid[i] = (lastOf (byteOf "gid" i) tokens).getD x.gid[i]
  mac : ∀ i (inside : i < 6), z.macAddr[i] = (lastOf (byteOf "mac" i) tokens).getD x.macAddr[i]

theorem run_leaves {tokens : List (List Char)} {x z : QPInfo} (ran : run readToken x tokens = .ok z) :
    Leaves tokens x z := by
  induction tokens generalizing x with
  | nil =>
      cases ran
      constructor <;> simp [lastOf]
  | cons token tokens ih =>
      obtain ⟨y, read, rest⟩ := run_cons_ok.mp ran
      have first := readToken_overwrites read
      have later := ih rest
      have joined {β : Type} (pick : List Char → Option β) (old : β) :
          (lastOf pick tokens).getD ((pick token).getD old) =
            (lastOf pick (token :: tokens)).getD old := by
        rw [lastOf_cons]
        cases lastOf pick tokens <;> rfl
      constructor
      · rw [later.qpNum, first.qpNum, joined]
      · rw [later.lid, first.lid, joined]
      · rw [later.gidTableIndex, first.gidTableIndex, joined]
      · rw [later.mtu, first.mtu, joined]
      · intro i inside
        rw [later.gid i inside, first.gid i inside, joined]
      · intro i inside
        rw [later.mac i inside, first.mac i inside, joined]

/-- The tokens can be read, and the last one that gives a field of `x` gives it what it is. -/
structure Confirm (tokens : List (List Char)) (x : QPInfo) : Prop where
  readable : ∀ token ∈ tokens, Readable token
  qpNum : ∀ n ∈ lastOf (numberOf "qp_num" UInt32.ofInt) tokens, n = x.qpNum
  lid : ∀ n ∈ lastOf (numberOf "lid" UInt16.ofInt) tokens, n = x.lid
  gidTableIndex : ∀ n ∈ lastOf (numberOf "gid_table_index" UInt8.ofInt) tokens, n = x.gidTableIndex
  mtu : ∀ n ∈ lastOf (numberOf "mtu" UInt32.ofInt) tokens, n = x.mtu
  gid : ∀ i (inside : i < 16), ∀ byte ∈ lastOf (byteOf "gid" i) tokens, byte = x.gid[i]
  mac : ∀ i (inside : i < 6), ∀ byte ∈ lastOf (byteOf "mac" i) tokens, byte = x.macAddr[i]

theorem getD_eq_iff {β : Type} {given : Option β} {old : β} :
    given.getD old = old ↔ ∀ value ∈ given, value = old := by
  cases given <;> simp

theorem run_same_iff (tokens : List (List Char)) (x : QPInfo) :
    (∃ z, run readToken x tokens = .ok z ∧ SameFields z x) ↔ Confirm tokens x := by
  constructor
  · rintro ⟨z, ran, same⟩
    have leaves := run_leaves ran
    refine ⟨(run_ok_iff tokens x).mp ⟨z, ran⟩, getD_eq_iff.mp (leaves.qpNum.symm.trans same.qpNum),
      getD_eq_iff.mp (leaves.lid.symm.trans same.lid),
      getD_eq_iff.mp (leaves.gidTableIndex.symm.trans same.gidTableIndex),
      getD_eq_iff.mp (leaves.mtu.symm.trans same.mtu), fun i inside => ?_, fun i inside => ?_⟩
    · exact getD_eq_iff.mp ((leaves.gid i inside).symm.trans (by rw [same.gid]))
    · exact getD_eq_iff.mp ((leaves.mac i inside).symm.trans (by rw [same.macAddr]))
  · intro confirm
    obtain ⟨z, ran⟩ := (run_ok_iff tokens x).mpr confirm.readable
    have leaves := run_leaves ran
    refine ⟨z, ran, leaves.qpNum.trans (getD_eq_iff.mpr confirm.qpNum),
      leaves.lid.trans (getD_eq_iff.mpr confirm.lid), ?_,
      leaves.gidTableIndex.trans (getD_eq_iff.mpr confirm.gidTableIndex), ?_,
      leaves.mtu.trans (getD_eq_iff.mpr confirm.mtu)⟩
    · exact Vector.ext fun i inside =>
        (leaves.gid i inside).trans (getD_eq_iff.mpr (confirm.gid i inside))
    · exact Vector.ext fun i inside =>
        (leaves.mac i inside).trans (getD_eq_iff.mpr (confirm.mac i inside))

end Nicc.Channel

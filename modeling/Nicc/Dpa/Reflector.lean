import Nicc.Dpa.Queue
import Nicc.Lib.Memory
import Nicc.Lib.Ring
import Nicc.Lib.Run
import Mathlib.Data.List.Infix

/-!
# The packet processing of the DPA kernels

`process_packet` copies a packet into the next entry of the send buffer, swaps its MAC addresses
and describes the entry to the send queue. The NIC sends the entries later, while packets keep
coming.
-/

namespace Nicc.Dpa
open Lib

abbrev Frame := List UInt8

def swapBytes (a b : Nat) (mem : Nat → UInt8) : Nat → UInt8 :=
  Function.update (Function.update mem a (mem b)) b (mem a)

def swapFrom : Nat → Nat → Nat → (Nat → UInt8) → Nat → UInt8
  | 0, _, _, mem => mem
  | left + 1, smac, dmac, mem => swapFrom left (smac + 1) (dmac + 1) (swapBytes smac dmac mem)

def swapMacs (packet : Nat) (mem : Nat → UInt8) : Nat → UInt8 :=
  swapFrom 6 (packet + 6) packet mem

def swapped (f : Frame) : Frame := (f.drop 6).take 6 ++ f.take 6 ++ f.drop 12

theorem swapFrom_apply {left width : Nat} (apart : left ≤ width) (dmac : Nat) (mem : Nat → UInt8)
    (a : Nat) :
    swapFrom left (dmac + width) dmac mem a =
      if dmac ≤ a ∧ a < dmac + left then mem (a + width)
      else if dmac + width ≤ a ∧ a < dmac + width + left then mem (a - width)
      else mem a := by
  induction left generalizing dmac mem with
  | zero =>
      rw [swapFrom, if_neg (by omega), if_neg (by omega)]
  | succ left ih =>
      have next : dmac + width + 1 = dmac + 1 + width := by omega
      rw [swapFrom, next, ih (by omega)]
      simp only [swapBytes, Function.update_apply]
      split_ifs <;> first | rfl | omega | (congr 1; omega)

theorem swapMacs_read (packet : Nat) (mem : Nat → UInt8) {n : Nat} (addresses : 12 ≤ n) :
    readAt (swapMacs packet mem) packet n = swapped (readAt mem packet n) := by
  apply List.ext_getElem
  · simp only [swapped, readAt_length, List.length_append, List.length_take, List.length_drop]
    omega
  · intro i low high
    rw [readAt_length] at low
    rw [readAt_getElem, swapMacs, swapFrom_apply (by decide)]
    simp only [swapped, List.getElem_append, List.getElem_take, List.getElem_drop, readAt_getElem,
      List.length_append, List.length_take, List.length_drop, readAt_length]
    split_ifs <;> first | omega | (congr 1; omega)

theorem swapMacs_outside (packet : Nat) (mem : Nat → UInt8) {a : Nat}
    (outside : a < packet ∨ packet + 12 ≤ a) : swapMacs packet mem a = mem a := by
  rw [swapMacs, swapFrom_apply (by decide), if_neg (by omega), if_neg (by omega)]

/-- `modify` is what a kernel does to the send buffer behind the addresses, `payload` what becomes
of the frame there. -/
structure Kernel where
  modify : Nat → Nat → Nat → (Nat → UInt8) → Nat → UInt8
  payload : Nat → Frame → Frame
  modify_read : ∀ txBuffIdx dataSz sqData mem,
    readAt (modify txBuffIdx dataSz sqData mem) sqData dataSz =
      payload txBuffIdx (readAt mem sqData dataSz)
  modify_outside : ∀ txBuffIdx dataSz sqData mem a, a < sqData ∨ sqData + dataSz ≤ a →
    modify txBuffIdx dataSz sqData mem a = mem a

def udpEcho : Kernel where
  modify _ _ _ mem := mem
  payload _ f := f
  modify_read _ _ _ _ := rfl
  modify_outside _ _ _ _ _ _ := rfl

def bytesOf (text : String) : List UInt8 := text.toList.map fun c => c.toNat.toUInt8

def eventDemo : List UInt8 := bytesOf "  Event demo***************"

def hexDigit (txBuffIdx : Nat) : UInt8 :=
  (bytesOf "0123456789abcdef").getD (txBuffIdx &&& 0xf) 0

def rdmaSimpleModify (txBuffIdx dataSz sqData : Nat) (mem : Nat → UInt8) : Nat → UInt8 :=
  if dataSz = 65 then
    let mem := storeAt mem (sqData + 0x2a) (eventDemo.take (65 - 0x2a))
    storeAt mem (sqData + 0x2a) [hexDigit txBuffIdx]
  else mem

/-- A frame of 65 bytes keeps its headers, and its payload becomes a digit and the rest of the
text. -/
def rdmaSimplePayload (txBuffIdx : Nat) (f : Frame) : Frame :=
  if f.length = 65 then
    f.take 0x2a ++ hexDigit txBuffIdx :: (eventDemo.take (65 - 0x2a)).tail
  else f

theorem eventDemo_length : (eventDemo.take (65 - 0x2a)).length = 23 := by decide

theorem rdmaSimpleModify_read (txBuffIdx dataSz sqData : Nat) (mem : Nat → UInt8) :
    readAt (rdmaSimpleModify txBuffIdx dataSz sqData mem) sqData dataSz =
      rdmaSimplePayload txBuffIdx (readAt mem sqData dataSz) := by
  rw [rdmaSimpleModify, rdmaSimplePayload, readAt_length]
  split_ifs with hardcoded
  · obtain ⟨space, rest, text⟩ : ∃ space rest, eventDemo.take (65 - 0x2a) = space :: rest :=
      List.exists_cons_of_length_eq_add_one eventDemo_length
    have length : rest.length + 1 = 23 := by
      rw [← eventDemo_length, text, List.length_cons]
    have fits : 0x2a + (hexDigit txBuffIdx :: rest).length = dataSz := by
      rw [List.length_cons, length, hardcoded]
    simp only [text, storeAt_head, List.tail_cons]
    rw [readAt_storeAt _ _ fits.le, fits, List.drop_of_length_le (readAt_length _ _ _).le,
      List.append_nil]
  · rfl

theorem rdmaSimpleModify_outside (txBuffIdx dataSz sqData : Nat) (mem : Nat → UInt8) (a : Nat)
    (outside : a < sqData ∨ sqData + dataSz ≤ a) :
    rdmaSimpleModify txBuffIdx dataSz sqData mem a = mem a := by
  rw [rdmaSimpleModify]
  split_ifs with hardcoded
  · have text := eventDemo_length
    rw [storeAt_outside _ (by rw [List.length_singleton]; omega),
      storeAt_outside _ (by omega)]
  · rfl

def rdmaSimple : Kernel where
  modify := rdmaSimpleModify
  payload := rdmaSimplePayload
  modify_read := rdmaSimpleModify_read
  modify_outside := rdmaSimpleModify_outside

inductive CtrlSegCe
  | MLX5_CTRL_SEG_CE_CQE_ON_CQE_ERROR
  deriving DecidableEq

inductive CtrlSegType
  | FLEXIO_CTRL_SEG_SEND_EN
  deriving DecidableEq

inductive SqeSeg
  | ctrl (sqPi sqNumber : Nat) (ce : CtrlSegCe) (type : CtrlSegType)
  | eth (mss checksum inlineSz : Nat) (inlineHdr : Option Nat)
  | memPtrData (dataSz lkey addr : Nat)
  | other

/-- What `process_packet` uses of `dev_ctx`, the memory of the device and the NIC that sends.
`sqCi` is how far the NIC has come in the send queue, `received` and `sent` record the frames, and
`others` is the memory as all others have left it. -/
structure Reflector where
  mem : Nat → UInt8
  lkey : Nat
  rqRing : Nat → Nat
  rqReturned : Nat
  sqNumber : Nat
  sqWqeSegIdx : Nat
  sqRing : Nat → SqeSeg
  sqPi : Nat
  sqTxBuff : Nat
  txBuffIdx : Nat
  doorbell : Nat
  sqCi : Nat
  received : List Frame
  sent : List Frame
  others : Nat → UInt8

namespace Reflector

def getNextDte (r : Reflector) (dtIdxMask logDtEntrySz : Nat) : Nat × Reflector :=
  let mask := ((r.txBuffIdx &&& dtIdxMask) <<< logDtEntrySz) % 2 ^ 32
  (r.sqTxBuff + mask, { r with txBuffIdx := (r.txBuffIdx + 1) % 2 ^ 32 })

def getNextSqe (r : Reflector) (sqIdxMask : Nat) : Nat × Reflector :=
  (r.sqWqeSegIdx &&& sqIdxMask, { r with sqWqeSegIdx := (r.sqWqeSegIdx + 1) % 2 ^ 32 })

def setSqe (r : Reflector) (swqe : Nat) (seg : SqeSeg) : Reflector :=
  { r with sqRing := Function.update r.sqRing swqe seg }

def processPacket (kernel : Kernel) (logSqeNumSegs rqWqeIdx dataSz : Nat) (r : Reflector) :
    Reflector :=
  let sqIdxMask := DPA_SQ_IDX_MASK logSqeNumSegs
  let rqData := r.rqRing (rqWqeIdx &&& DPA_RQ_IDX_MASK)
  let (sqData, r) := r.getNextDte DPA_DATA_IDX_MASK DPA_LOG_WQ_DATA_ENTRY_BSIZE
  let mem := storeAt r.mem sqData (readAt r.mem rqData dataSz)
  let mem := swapMacs sqData mem
  let r := { r with mem := kernel.modify r.txBuffIdx dataSz sqData mem }
  let (swqe, r) := r.getNextSqe sqIdxMask
  let r := r.setSqe swqe (.ctrl r.sqPi r.sqNumber .MLX5_CTRL_SEG_CE_CQE_ON_CQE_ERROR
    .FLEXIO_CTRL_SEG_SEND_EN)
  let (swqe, r) := r.getNextSqe sqIdxMask
  let r := r.setSqe swqe (.eth 0 0 0 none)
  let (swqe, r) := r.getNextSqe sqIdxMask
  let r := r.setSqe swqe (.memPtrData dataSz r.lkey sqData)
  let (_, r) := r.getNextSqe sqIdxMask
  let sqPi := (r.sqPi + 1) % 2 ^ 32
  { r with sqPi := sqPi, doorbell := sqPi, rqReturned := r.rqReturned + 1 }

def wqe (r : Reflector) (i : Nat) : SqeSeg × SqeSeg × SqeSeg :=
  (r.sqRing (4 * i), r.sqRing (4 * i + 1), r.sqRing (4 * i + 2))

inductive Refused
  | nothingPending
  | badWqe
  deriving DecidableEq

def nicSend (r : Reflector) : Except Refused Reflector :=
  if r.sqCi = r.doorbell then .error .nothingPending
  else
    match r.wqe (r.sqCi % 2 ^ DPA_LOG_SQ_RING_DEPTH) with
    | (.ctrl sqPi sqNumber _ _, .eth 0 0 0 none, .memPtrData dataSz lkey addr) =>
        if sqPi = r.sqCi ∧ sqNumber = r.sqNumber ∧ lkey = r.lkey then
          .ok { r with
            sqCi := (r.sqCi + 1) % 2 ^ 32
            sent := r.sent ++ [readAt r.mem addr dataSz] }
        else .error .badWqe
    | _ => .error .badWqe

/-- Before a packet is processed, the NIC and the other users of the memory have brought it to
`mem`, with the packet in the receive entry of the completion. -/
inductive Turn
  | packet (mem : Nat → UInt8) (rqWqeIdx dataSz : Nat)
  | send

def step (kernel : Kernel) (logSqeNumSegs : Nat) (r : Reflector) : Turn → Except Refused Reflector
  | .packet mem rqWqeIdx dataSz =>
      let frame := readAt mem (r.rqRing (rqWqeIdx &&& DPA_RQ_IDX_MASK)) dataSz
      .ok (processPacket kernel logSqeNumSegs rqWqeIdx dataSz
        { r with mem := mem, others := mem, received := r.received ++ [frame] })
  | .send => r.nicSend

def entryBsize : Nat := 2 ^ DPA_LOG_WQ_DATA_ENTRY_BSIZE
def sqDepth : Nat := 2 ^ DPA_LOG_SQ_RING_DEPTH

/-- Nobody else writes to the send buffer. A packet has its two addresses and fits an entry, it was
not received into the send buffer, and the NIC is not a whole ring behind. -/
def Admissible (r : Reflector) : Turn → Prop
  | .packet mem rqWqeIdx dataSz =>
      let rqData := r.rqRing (rqWqeIdx &&& DPA_RQ_IDX_MASK)
      (∀ a, r.sqTxBuff ≤ a → a < r.sqTxBuff + sqDepth * entryBsize → mem a = r.mem a) ∧
        12 ≤ dataSz ∧ dataSz ≤ entryBsize ∧
        (rqData + dataSz ≤ r.sqTxBuff ∨ r.sqTxBuff + sqDepth * entryBsize ≤ rqData) ∧
        r.received.length < r.sent.length + sqDepth
  | .send => True

def initial (mem : Nat → UInt8) (lkey : Nat) (rqRing : Nat → Nat) (sqNumber : Nat)
    (sqRing : Nat → SqeSeg) (sqTxBuff : Nat) : Reflector where
  mem := mem
  lkey := lkey
  rqRing := rqRing
  rqReturned := 0
  sqNumber := sqNumber
  sqWqeSegIdx := 0
  sqRing := sqRing
  sqPi := 0
  sqTxBuff := sqTxBuff
  txBuffIdx := 0
  doorbell := 0
  sqCi := 0
  received := []
  sent := []
  others := mem

def filled (kernel : Kernel) (c sqData : Nat) (frame : Frame) (mem : Nat → UInt8) : Nat → UInt8 :=
  kernel.modify ((c + 1) % 2 ^ 32) frame.length sqData (swapMacs sqData (storeAt mem sqData frame))

def processed (kernel : Kernel) (r : Reflector) (c rqWqeIdx dataSz : Nat) : Reflector :=
  let sqData := r.sqTxBuff + entryBsize * (c % sqDepth)
  let i := 4 * (c % sqDepth)
  { r with
    mem := filled kernel c sqData
      (readAt r.mem (r.rqRing (rqWqeIdx &&& DPA_RQ_IDX_MASK)) dataSz) r.mem
    sqRing := Function.update (Function.update (Function.update r.sqRing
      i (.ctrl (c % 2 ^ 32) r.sqNumber .MLX5_CTRL_SEG_CE_CQE_ON_CQE_ERROR
        .FLEXIO_CTRL_SEG_SEND_EN))
      (i + 1) (.eth 0 0 0 none))
      (i + 2) (.memPtrData dataSz r.lkey sqData)
    txBuffIdx := (c + 1) % 2 ^ 32
    sqWqeSegIdx := 4 * (c + 1) % 2 ^ 32
    sqPi := (c + 1) % 2 ^ 32
    doorbell := (c + 1) % 2 ^ 32
    rqReturned := r.rqReturned + 1 }

theorem processPacket_eq (kernel : Kernel) {r : Reflector} {c : Nat}
    (txBuffIdx : r.txBuffIdx = c % 2 ^ 32) (sqWqeSegIdx : r.sqWqeSegIdx = 4 * c % 2 ^ 32)
    (sqPi : r.sqPi = c % 2 ^ 32) (rqWqeIdx dataSz : Nat) :
    r.processPacket kernel 2 rqWqeIdx dataSz = r.processed kernel c rqWqeIdx dataSz := by
  have dataMask : DPA_DATA_IDX_MASK = 2 ^ 7 - 1 := rfl
  have segMask : DPA_SQ_IDX_MASK 2 = 2 ^ 9 - 1 := rfl
  have entry : (c % 2 ^ 7) <<< DPA_LOG_WQ_DATA_ENTRY_BSIZE % 2 ^ 32 =
      entryBsize * (c % sqDepth) := by
    simp only [Nat.shiftLeft_eq, DPA_LOG_WQ_DATA_ENTRY_BSIZE, entryBsize, sqDepth,
      DPA_LOG_SQ_RING_DEPTH]
    omega
  have segment (j : Nat) (inside : j < 4) : (4 * c + j) % 2 ^ 9 = 4 * (c % sqDepth) + j := by
    simp only [sqDepth, DPA_LOG_SQ_RING_DEPTH]
    omega
  have first : 4 * c % 2 ^ 9 = 4 * (c % sqDepth) := segment 0 (by decide)
  have second := segment 1 (by decide)
  have third := segment 2 (by decide)
  simp only [processPacket, processed, getNextDte, getNextSqe, setSqe, txBuffIdx, sqWqeSegIdx, sqPi, dataMask,
    segMask, Nat.mod_add_mod, masked_counter (by decide : 7 ≤ 32), entry, Nat.add_assoc,
    masked_counter (by decide : 9 ≤ 32), Nat.reduceAdd, Nat.mul_add, Nat.mul_one, filled,
    readAt_length]
  simp only [first, second, third]

end Reflector

def Kernel.reflected (kernel : Kernel) (k : Nat) (f : Frame) : Frame :=
  kernel.payload ((k + 1) % 2 ^ 32) (swapped f)

namespace Reflector

theorem filled_read (kernel : Kernel) (c sqData : Nat) (mem : Nat → UInt8) {frame : Frame}
    (addresses : 12 ≤ frame.length) :
    readAt (filled kernel c sqData frame mem) sqData frame.length =
      kernel.reflected c frame := by
  rw [filled, kernel.modify_read, swapMacs_read _ _ addresses, readAt_storeAt_same,
    Kernel.reflected]

theorem filled_outside (kernel : Kernel) (c sqData : Nat) (mem : Nat → UInt8) {frame : Frame}
    (addresses : 12 ≤ frame.length) {a : Nat}
    (outside : a < sqData ∨ sqData + frame.length ≤ a) :
    filled kernel c sqData frame mem a = mem a := by
  rw [filled, kernel.modify_outside _ _ _ _ _ outside, swapMacs_outside _ _ (by omega),
    storeAt_outside _ outside]

theorem wqe_update {r r' : Reflector} (i : Nat) (ctrl eth data : SqeSeg)
    (ring : r'.sqRing = Function.update (Function.update (Function.update r.sqRing
      (4 * i) ctrl) (4 * i + 1) eth) (4 * i + 2) data) :
    r'.wqe = Function.update r.wqe i (ctrl, eth, data) := by
  funext j
  rw [Function.update_apply]
  simp only [wqe, ring, Function.update_apply]
  split_ifs <;> first | rfl | omega

def entryAt (r : Reflector) (k : Nat) : Nat := r.sqTxBuff + entryBsize * (k % sqDepth)

def request (r : Reflector) (k : Nat) : SqeSeg × SqeSeg × SqeSeg :=
  (.ctrl (k % 2 ^ 32) r.sqNumber .MLX5_CTRL_SEG_CE_CQE_ON_CQE_ERROR .FLEXIO_CTRL_SEG_SEND_EN,
    .eth 0 0 0 none, .memPtrData (r.received.getD k []).length r.lkey (r.entryAt k))

theorem entries_apart (base : Nat) {i j a : Nat} (differ : i ≠ j) (low : base + entryBsize * i ≤ a)
    (high : a < base + entryBsize * i + entryBsize) :
    a < base + entryBsize * j ∨ base + entryBsize * j + entryBsize ≤ a := by
  simp only [entryBsize, DPA_LOG_WQ_DATA_ENTRY_BSIZE] at *
  omega

theorem entry_within (base k : Nat) :
    base + entryBsize * (k % sqDepth) + entryBsize ≤ base + sqDepth * entryBsize := by
  have inside : k % sqDepth < sqDepth := Nat.mod_lt _ (by decide)
  simp only [entryBsize, DPA_LOG_WQ_DATA_ENTRY_BSIZE, sqDepth, DPA_LOG_SQ_RING_DEPTH] at *
  omega

structure Synced (kernel : Kernel) (ring : Nat → SqeSeg) (r : Reflector) : Prop where
  txBuffIdx : r.txBuffIdx = r.received.length % 2 ^ 32
  sqWqeSegIdx : r.sqWqeSegIdx = 4 * r.received.length % 2 ^ 32
  sqPi : r.sqPi = r.received.length % 2 ^ 32
  doorbell : r.doorbell = r.received.length % 2 ^ 32
  sqCi : r.sqCi = r.sent.length % 2 ^ 32
  behind : r.sent.length ≤ r.received.length
  ahead : r.received.length ≤ r.sent.length + sqDepth
  fits : ∀ f ∈ r.received, f.length ≤ entryBsize
  described : Window sqDepth r.wqe r.request r.sent.length r.received.length
  stored : ∀ k f, r.sent.length ≤ k → r.received[k]? = some f →
    readAt r.mem (r.entryAt k) f.length = kernel.reflected k f
  sent : r.sent <+: r.received.mapIdx kernel.reflected
  returned : r.rqReturned = r.received.length
  elsewhere : ∀ a, a < r.sqTxBuff ∨ r.sqTxBuff + sqDepth * entryBsize ≤ a → r.mem a = r.others a
  within : ∀ i, 4 * sqDepth ≤ i → r.sqRing i = ring i

theorem initial_synced (kernel : Kernel) (mem : Nat → UInt8) (lkey : Nat) (rqRing : Nat → Nat)
    (sqNumber : Nat) (sqRing : Nat → SqeSeg) (sqTxBuff : Nat) :
    Synced kernel sqRing (initial mem lkey rqRing sqNumber sqRing sqTxBuff) where
  txBuffIdx := rfl
  sqWqeSegIdx := rfl
  sqPi := rfl
  doorbell := rfl
  sqCi := rfl
  behind := le_rfl
  ahead := Nat.zero_le _
  fits _ member := by cases member
  described := Window.empty _ _ _ 0
  stored _ _ _ there := by simp [initial] at there
  sent := List.prefix_rfl
  returned := rfl
  elsewhere _ _ := rfl
  within _ _ := rfl

namespace Synced

variable {kernel : Kernel} {ring : Nat → SqeSeg} {r : Reflector}

theorem pending (synced : Synced kernel ring r) :
    r.sqCi = r.doorbell ↔ r.sent.length = r.received.length := by
  have ahead := synced.ahead
  rw [synced.sqCi, synced.doorbell]
  constructor
  · intro same
    exact position_unique same synced.behind
      (ahead.trans_lt (Nat.add_lt_add_left (by decide) _))
  · intro same
    rw [same]

theorem nicSend (synced : Synced kernel ring r) (behind : r.sent.length < r.received.length) :
    ∃ f, r.received[r.sent.length]? = some f ∧
      r.nicSend = .ok { r with
        sqCi := (r.sent.length + 1) % 2 ^ 32
        sent := r.sent ++ [kernel.reflected r.sent.length f] } := by
  obtain ⟨f, there⟩ : ∃ f, r.received[r.sent.length]? = some f :=
    ⟨_, List.getElem?_eq_getElem behind⟩
  have slot : r.sent.length % 2 ^ 32 % 2 ^ DPA_LOG_SQ_RING_DEPTH = r.sent.length % sqDepth :=
    Nat.mod_mod_of_dvd _ (by decide)
  have described := synced.described r.sent.length le_rfl behind
  have size : (r.received.getD r.sent.length []).length = f.length := by
    rw [List.getD_eq_getElem?_getD, there, Option.getD_some]
  refine ⟨f, there, ?_⟩
  rw [Reflector.nicSend, if_neg (mt synced.pending.mp behind.ne), synced.sqCi, slot, described,
    request, size]
  simp only [true_and, if_true, Nat.mod_add_mod,
    synced.stored _ f le_rfl there]

theorem send (synced : Synced kernel ring r) {r' : Reflector} (sends : r.nicSend = .ok r') :
    Synced kernel ring r' := by
  have behind : r.sent.length < r.received.length := by
    refine synced.behind.lt_of_ne fun none => ?_
    rw [Reflector.nicSend, if_pos (synced.pending.mpr none)] at sends
    cases sends
  obtain ⟨f, there, ran⟩ := synced.nicSend behind
  rw [ran] at sends
  cases sends
  have length : (r.sent ++ [kernel.reflected r.sent.length f]).length = r.sent.length + 1 := by simp
  refine { synced with
    sqCi := by rw [length]
    behind := by rw [length]; exact behind
    ahead := by rw [length]; exact synced.ahead.trans (by omega)
    described := by
      rw [length]
      exact synced.described.shrink (Nat.le_succ _) le_rfl
    stored := fun k g low there => by
      rw [length] at low
      exact synced.stored k g (by omega) there
    sent := ?_ }
  have inside : r.sent.length < (r.received.mapIdx kernel.reflected).length := by
    rw [List.length_mapIdx]
    exact behind
  have next : (r.received.mapIdx kernel.reflected).get ⟨_, inside⟩ =
      kernel.reflected r.sent.length f := by
    rw [List.get_eq_getElem, List.getElem_mapIdx, (List.getElem?_eq_some_iff.mp there).2]
  rw [← next]
  exact List.concat_get_prefix synced.sent inside

theorem packet (synced : Synced kernel ring r) {mem : Nat → UInt8} {rqWqeIdx dataSz : Nat}
    (admissible : r.Admissible (.packet mem rqWqeIdx dataSz)) {r' : Reflector}
    (stepped : step kernel 2 r (.packet mem rqWqeIdx dataSz) = .ok r') :
    Synced kernel ring r' := by
  obtain ⟨kept, addresses, fits, apart, room⟩ := admissible
  let n := r.received.length
  let frame := readAt mem (r.rqRing (rqWqeIdx &&& DPA_RQ_IDX_MASK)) dataSz
  let t : Reflector := { r with mem := mem, others := mem, received := r.received ++ [frame] }
  have size : frame.length = dataSz := readAt_length _ _ _
  have ran := processPacket_eq kernel (r := t) (c := n) synced.txBuffIdx synced.sqWqeSegIdx
    synced.sqPi rqWqeIdx dataSz
  rw [step, ran] at stepped
  cases stepped
  let r' := t.processed kernel n rqWqeIdx dataSz
  let entry := r.sqTxBuff + entryBsize * (n % sqDepth)
  have length : r'.received.length = n + 1 := List.length_append
  have inside : n % sqDepth < sqDepth := Nat.mod_lt _ (by decide)
  have within : entry + entryBsize ≤ r.sqTxBuff + sqDepth * entryBsize := entry_within _ _
  have mem_outside {a : Nat} (outside : a < entry ∨ entry + entryBsize ≤ a) : r'.mem a = mem a :=
    filled_outside kernel n entry mem (size.ge.trans' addresses) (by omega)
  exact {
    txBuffIdx := congrArg (· % 2 ^ 32) length.symm
    sqWqeSegIdx := congrArg (4 * · % 2 ^ 32) length.symm
    sqPi := congrArg (· % 2 ^ 32) length.symm
    doorbell := congrArg (· % 2 ^ 32) length.symm
    sqCi := synced.sqCi
    behind := synced.behind.trans (length.symm ▸ Nat.le_succ _)
    ahead := length.symm ▸ room
    fits := fun f member => by
      rcases List.mem_append.mp member with old | new
      · exact synced.fits f old
      · rw [List.mem_singleton.mp new]
        exact size.le.trans fits
    described := by
      have old (k : Nat) (_ : r.sent.length ≤ k) (k_lt : k < n) : r.request k = r'.request k := by
        simp only [request, entryAt]
        rw [show r'.received.getD k [] = r.received.getD k [] from
          List.getD_append _ _ _ _ k_lt]
        rfl
      have newest : (r'.received.getD n []).length = dataSz := by
        rw [show r'.received.getD n [] = frame by
          exact (List.getD_append_right _ _ _ _ le_rfl).trans (by simp), size]
      have added : r'.wqe = Function.update r.wqe (n % sqDepth) (r'.request n) := by
        rw [request, newest]
        exact wqe_update (r := t) _ _ _ _ rfl
      rw [length, added]
      exact (synced.described.congr old).push room
    stored := fun k f low there => by
      change r.sent.length ≤ k at low
      rcases snoc_getElem? there with ⟨old, there⟩ | ⟨rfl, rfl⟩
      · have differ : k % sqDepth ≠ n % sqDepth := fun same =>
          absurd (position_unique same old.le (by omega)) old.ne
        have short := synced.fits f (List.mem_of_getElem? there)
        rw [← synced.stored k f low there]
        refine readAt_congr fun a start stop => ?_
        change r.sqTxBuff + entryBsize * (k % sqDepth) ≤ a at start
        change a < r.sqTxBuff + entryBsize * (k % sqDepth) + f.length at stop
        have region := entry_within r.sqTxBuff k
        rw [mem_outside (entries_apart _ differ start (by omega)),
          kept a (by omega) (by omega)]
      · exact filled_read kernel n entry mem (size.ge.trans' addresses)
    sent := by
      refine synced.sent.trans ?_
      change _ <+: t.received.mapIdx _
      rw [List.mapIdx_append]
      exact List.prefix_append _ _
    returned := (congrArg (· + 1) synced.returned).trans length.symm
    elsewhere := fun a outside => by
      refine mem_outside ?_
      change a < r.sqTxBuff ∨ r.sqTxBuff + sqDepth * entryBsize ≤ a at outside
      omega
    within := fun i beyond => by
      change Function.update _ _ _ i = _
      rw [Function.update_of_ne (by omega), Function.update_of_ne (by omega),
        Function.update_of_ne (by omega)]
      exact synced.within i beyond }

theorem step (synced : Synced kernel ring r) {turn : Turn} (admissible : r.Admissible turn)
    {r' : Reflector} (stepped : step kernel 2 r turn = .ok r') : Synced kernel ring r' := by
  cases turn with
  | packet mem rqWqeIdx dataSz => exact synced.packet admissible stepped
  | send => exact synced.send stepped

end Synced

structure Reflects (kernel : Kernel) (ring : Nat → SqeSeg) (r : Reflector) : Prop where
  sent : r.sent <+: r.received.mapIdx kernel.reflected
  follows : r.sent.length < r.received.length →
    ∃ r', r.nicSend = .ok r' ∧ r'.sent = (r.received.mapIdx kernel.reflected).take (r.sent.length + 1)
  stops : r.sent.length = r.received.length → r.nicSend = .error .nothingPending
  returned : r.rqReturned = r.received.length
  elsewhere : ∀ a, a < r.sqTxBuff ∨ r.sqTxBuff + sqDepth * entryBsize ≤ a → r.mem a = r.others a
  within : ∀ i, 4 * sqDepth ≤ i → r.sqRing i = ring i

theorem Synced.reflects {kernel : Kernel} {ring : Nat → SqeSeg} {r : Reflector}
    (synced : Synced kernel ring r) : Reflects kernel ring r where
  sent := synced.sent
  follows behind := by
    obtain ⟨f, -, sends⟩ := synced.nicSend behind
    have after := (synced.send sends).sent
    refine ⟨_, sends, ?_⟩
    have taken := List.prefix_iff_eq_take.mp after
    rw [List.length_append, List.length_singleton] at taken
    exact taken
  stops drained := by rw [Reflector.nicSend, if_pos (synced.pending.mpr drained)]
  returned := synced.returned
  elsewhere := synced.elsewhere
  within := synced.within

/-- The NIC sends what was received, in order and each packet once, with the addresses swapped and
the payload that the kernel gives it. -/
theorem frames_reflected (kernel : Kernel) (mem : Nat → UInt8) (lkey : Nat) (rqRing : Nat → Nat)
    (sqNumber : Nat) (sqRing : Nat → SqeSeg) (sqTxBuff : Nat) {logSqeNumSegs : Nat}
    (segments : logSqeNumSegs = 2) {turns : List Turn} {r : Reflector}
    (admissible : Admits (step kernel logSqeNumSegs) Admissible
      (initial mem lkey rqRing sqNumber sqRing sqTxBuff) turns)
    (ran : run (step kernel logSqeNumSegs) (initial mem lkey rqRing sqNumber sqRing sqTxBuff) turns =
      .ok r) :
    Reflects kernel sqRing r := by
  subst segments
  have synced : Synced kernel sqRing r := run_admitted (Synced kernel sqRing)
    (fun _ _ _ synced admissible stepped => synced.step admissible stepped)
    (initial_synced kernel mem lkey rqRing sqNumber sqRing sqTxBuff) admissible ran
  exact synced.reflects

def schedule (r : Reflector) : List (Option Frame) → List Turn
  | [] => []
  | some frame :: rest =>
      let turn := .packet (storeAt r.mem 0x100000 frame) 5 frame.length
      turn :: match step rdmaSimple 2 r turn with
        | .ok r => schedule r rest
        | .error _ => []
  | none :: rest =>
      .send :: match step rdmaSimple 2 r .send with
        | .ok r => schedule r rest
        | .error _ => []

theorem nicSend_kept {r t : Reflector} (sent : r.nicSend = .ok t) :
    t.rqRing = r.rqRing ∧ t.sqTxBuff = r.sqTxBuff ∧ t.received = r.received := by
  unfold nicSend at sent
  split at sent
  · cases sent
  · split at sent
    · split at sent
      · cases sent
        exact ⟨rfl, rfl, rfl⟩
      · cases sent
    · cases sent

theorem schedule_admissible {r : Reflector} {events : List (Option Frame)}
    (rqRing : r.rqRing = fun _ => 0x100000) (sqTxBuff : r.sqTxBuff = 0x8000)
    (room : r.received.length + events.length ≤ sqDepth)
    (frames : ∀ frame ∈ events.filterMap id, 12 ≤ frame.length ∧ frame.length ≤ entryBsize) :
    Admits (step rdmaSimple 2) Admissible r (schedule r events) := by
  induction events generalizing r with
  | nil => trivial
  | cons event rest ih =>
      rw [List.length_cons] at room
      cases event with
      | none =>
          refine ⟨trivial, fun t sent => ?_⟩
          obtain ⟨keptRing, keptBuff, kept⟩ := nicSend_kept sent
          simp only [sent]
          exact ih (keptRing.trans rqRing) (keptBuff.trans sqTxBuff) (by rw [kept]; omega) frames
      | some frame =>
          obtain ⟨⟨addresses, fits⟩, framesRest⟩ := List.forall_mem_cons.mp frames
          refine ⟨⟨fun a low high => ?_, addresses, fits, .inr ?_, by omega⟩, fun t stepped => ?_⟩
          · have outside : a < 0x100000 := by
              simp only [sqTxBuff, sqDepth, entryBsize, DPA_LOG_SQ_RING_DEPTH,
                DPA_LOG_WQ_DATA_ENTRY_BSIZE] at high
              omega
            exact storeAt_outside _ (.inl outside)
          · rw [rqRing, sqTxBuff]
            decide
          · simp only [stepped]
            cases stepped
            refine ih rqRing sqTxBuff ?_ framesRest
            change (r.received ++ [_]).length + _ ≤ _
            rw [List.length_append, List.length_singleton]
            omega

def numberedFrame (length : Nat) : Frame := (List.range length).map Nat.toUInt8

def sample : Reflector := initial (fun _ => 0) 7 (fun _ => 0x100000) 3 (fun _ => .other) 0x8000

def interleaved : List (Option Frame) :=
  [some (numberedFrame 65), some (numberedFrame 64), none, some (numberedFrame 65), none, none]

theorem frames_reflected_sample :
    ∃ r, run (step rdmaSimple 2) sample (schedule sample interleaved) = .ok r ∧
      r.sent = [rdmaSimple.reflected 0 (numberedFrame 65),
        rdmaSimple.reflected 1 (numberedFrame 64), rdmaSimple.reflected 2 (numberedFrame 65)] := by
  have admissible : Admits (step rdmaSimple 2) Admissible sample (schedule sample interleaved) :=
    schedule_admissible rfl rfl (by decide) (by decide)
  obtain ⟨r, ran, received, sent⟩ : ∃ r, run (step rdmaSimple 2) sample (schedule sample interleaved) =
      .ok r ∧ r.received = interleaved.filterMap id ∧ r.sent.length = 3 := by
    refine ⟨_, rfl, ?_, rfl⟩
    decide +kernel
  have reflects := frames_reflected rdmaSimple (fun _ => 0) 7 (fun _ => 0x100000) 3
    (fun _ => .other) 0x8000 rfl admissible ran
  have whole := List.prefix_iff_eq_take.mp reflects.sent
  rw [received, sent] at whole
  exact ⟨r, ran, whole⟩

end Reflector

end Nicc.Dpa

import Nicc.Channel.QPInfo
import Nicc.Common
import Nicc.Dpa.Queue

/-!
# Connecting a channel to a host

`connect_qp` of `Channel_SoC` and of `Channel_DPA`. What the drivers answer is a parameter, and the
calls that they get are recorded.
-/

namespace Nicc.Channel
open Lib Dpa

def kChannel_State_Prior_Connected : UInt16 := 0x0001
def kChannel_State_Next_Connected : UInt16 := 0x0010

def connectedBit (isPrior : Bool) : UInt16 :=
  if isPrior then kChannel_State_Prior_Connected else kChannel_State_Next_Connected

inductive QpState
  | RESET
  | INIT
  | RTR
  | RTS
  deriving DecidableEq

structure AhAttr where
  isGlobal : UInt8 := 0
  dlid : UInt16 := 0
  sl : UInt8 := 0
  srcPathBits : UInt8 := 0
  portNum : UInt8 := 0
  dgid : Vector UInt8 16 := Vector.replicate 16 0
  sgidIndex : UInt8 := 0
  hopLimit : UInt8 := 0
  trafficClass : UInt8 := 0
  flowLabel : UInt32 := 0

inductive AccessFlag
  | LOCAL_WRITE
  | REMOTE_WRITE
  | REMOTE_READ
  | REMOTE_ATOMIC

inductive AttrMask
  | STATE
  | PKEY_INDEX
  | PORT
  | ACCESS_FLAGS
  | AV
  | PATH_MTU
  | DEST_QPN
  | RQ_PSN
  | MAX_DEST_RD_ATOMIC
  | MIN_RNR_TIMER
  | TIMEOUT
  | RETRY_CNT
  | RNR_RETRY
  | SQ_PSN
  | MAX_QP_RD_ATOMIC

inductive PathMtu
  | MTU_1024
  | MTU_2048
  | MTU_4096

structure QpAttr where
  qpState : QpState := .RESET
  pkeyIndex : UInt16 := 0
  portNum : UInt8 := 0
  qpAccessFlags : List AccessFlag := []
  pathMtu : Option PathMtu := none
  destQpNum : UInt32 := 0
  rqPsn : UInt32 := 0
  maxDestRdAtomic : UInt8 := 0
  minRnrTimer : UInt8 := 0
  ahAttr : AhAttr := {}
  sqPsn : UInt32 := 0
  timeout : UInt8 := 0
  retryCnt : UInt8 := 0
  rnrRetry : UInt8 := 0
  maxRdAtomic : UInt8 := 0

inductive VerbsCall
  | modifyQp (attr : QpAttr) (mask : List AttrMask)
  | createAh (attr : AhAttr)
  | postRecv

/-- What the calls of `libibverbs` answer. Each of them is made at most once per connection. -/
structure Verbs where
  modifyQp : QpState → Int
  createLocalAh : Option Nat
  createRemoteAh : Option Nat
  postRecv : Int

structure RDMASoCQP where
  remoteQpId : UInt64
  remoteAh : Option Nat
  recvWrCircular : Bool

structure ChannelSoC where
  state : UInt16
  devPortId : UInt8
  localAh : Option Nat
  qpForPrior : RDMASoCQP
  qpForNext : RDMASoCQP
  qpForPriorInfo : QPInfo
  qpForNextInfo : QPInfo
  calls : List VerbsCall

namespace ChannelSoC

def kDefaultGIDIndex : UInt8 := 1
def kMTU : Nat := 4096

def qp (c : ChannelSoC) (isPrior : Bool) : RDMASoCQP :=
  if isPrior then c.qpForPrior else c.qpForNext

def setQp (c : ChannelSoC) (isPrior : Bool) (qp : RDMASoCQP) : ChannelSoC :=
  if isPrior then { c with qpForPrior := qp } else { c with qpForNext := qp }

def called (c : ChannelSoC) (call : VerbsCall) : ChannelSoC := { c with calls := c.calls ++ [call] }

def modifyQp (c : ChannelSoC) (verbs : Verbs) (attr : QpAttr) (mask : List AttrMask) :
    Retval × ChannelSoC :=
  (hardwareCheck (verbs.modifyQp attr.qpState = 0), c.called (.modifyQp attr mask))

def createLocalAh (c : ChannelSoC) (verbs : Verbs) (localQpInfo : QPInfo) : Retval × ChannelSoC :=
  if c.localAh.isSome then (.NICC_SUCCESS, c)
  else
    let ahAttr : AhAttr := {
      isGlobal := 1, dlid := 0, sl := 0, srcPathBits := 0, portNum := c.devPortId
      dgid := localQpInfo.gid, sgidIndex := kDefaultGIDIndex, hopLimit := 1, trafficClass := 0
      flowLabel := 0 }
    (hardwareCheck verbs.createLocalAh.isSome,
      { c with localAh := verbs.createLocalAh }.called (.createAh ahAttr))

def remoteAhAttr (remoteQpInfo : QPInfo) : AhAttr :=
  { sl := 0, srcPathBits := 0, portNum := 1, dlid := remoteQpInfo.lid, dgid := remoteQpInfo.gid
    isGlobal := 1, sgidIndex := kDefaultGIDIndex, hopLimit := 2, trafficClass := 0 }

def createAh (c : ChannelSoC) (verbs : Verbs) (isPrior : Bool) (localQpInfo remoteQpInfo : QPInfo) :
    Retval × ChannelSoC :=
  andThen (c.createLocalAh verbs localQpInfo) fun c =>
  let qp := { c.qp isPrior with
    remoteQpId := remoteQpInfo.qpNum.toUInt64, remoteAh := verbs.createRemoteAh }
  (hardwareCheck verbs.createRemoteAh.isSome,
    (c.setQp isPrior qp).called (.createAh (remoteAhAttr remoteQpInfo)))

def pathMtu : Nat → Option PathMtu
  | 1024 => some .MTU_1024
  | 2048 => some .MTU_2048
  | 4096 => some .MTU_4096
  | _ => none

def connectQpToHost (c : ChannelSoC) (verbs : Verbs) (isPrior : Bool)
    (remoteQpInfo localQpInfo : QPInfo) : Retval × ChannelSoC :=
  let initAttr : QpAttr := {
    qpState := .INIT, pkeyIndex := 0, portNum := c.devPortId
    qpAccessFlags := [.LOCAL_WRITE, .REMOTE_WRITE, .REMOTE_READ, .REMOTE_ATOMIC] }
  andThen (c.modifyQp verbs initAttr [.STATE, .PKEY_INDEX, .PORT, .ACCESS_FLAGS]) fun c =>
  match pathMtu kMTU with
  | none => (.NICC_ERROR_HARDWARE_FAILURE, c)
  | some mtu =>
      let rtrAttr : QpAttr := {
        qpState := .RTR, pathMtu := some mtu, destQpNum := remoteQpInfo.qpNum, rqPsn := 0
        maxDestRdAtomic := 1, minRnrTimer := 12, ahAttr := remoteAhAttr remoteQpInfo }
      andThen (c.modifyQp verbs rtrAttr
        [.STATE, .AV, .PATH_MTU, .DEST_QPN, .RQ_PSN, .MAX_DEST_RD_ATOMIC, .MIN_RNR_TIMER]) fun c =>
      andThen (c.createAh verbs isPrior localQpInfo remoteQpInfo) fun c =>
      let rtsAttr : QpAttr := { rtrAttr with
        qpState := .RTS, sqPsn := 0, timeout := 14, retryCnt := 7, rnrRetry := 7, maxRdAtomic := 1 }
      andThen (c.modifyQp verbs rtsAttr
        [.STATE, .TIMEOUT, .RETRY_CNT, .RNR_RETRY, .SQ_PSN, .MAX_QP_RD_ATOMIC]) fun c =>
      (.NICC_SUCCESS,
        c.setQp isPrior { c.qp isPrior with remoteQpId := remoteQpInfo.qpNum.toUInt64 })

-- The ring of requests is cut open for the call. After a failure it stays so.
def fillRecvQueue (c : ChannelSoC) (verbs : Verbs) (isPrior : Bool) : Retval × ChannelSoC :=
  let qp := { c.qp isPrior with recvWrCircular := decide (verbs.postRecv = 0) }
  (hardwareCheck (verbs.postRecv = 0), (c.setQp isPrior qp).called .postRecv)

def connectQpToComponentBlock (c : ChannelSoC) : Retval × ChannelSoC :=
  (.NICC_ERROR_NOT_IMPLEMENTED, c)

def connectQp (c : ChannelSoC) (verbs : Verbs) (isPrior : Bool)
    (neighbourComponentBlock : Option Nat) (qpInfo : QPInfo) : Retval × ChannelSoC :=
  let localQpInfo := if isPrior then c.qpForPriorInfo else c.qpForNextInfo
  if c.state &&& connectedBit isPrior ≠ 0 then (.NICC_ERROR_DUPLICATED, c)
  else
    andThen (match neighbourComponentBlock with
      | some _ => c.connectQpToComponentBlock
      | none =>
          andThen (c.connectQpToHost verbs isPrior qpInfo localQpInfo) fun c =>
          c.fillRecvQueue verbs isPrior) fun c =>
    (.NICC_SUCCESS, { c with state := c.state ||| connectedBit isPrior })

@[simp] theorem called_state (c : ChannelSoC) (call : VerbsCall) :
    (c.called call).state = c.state := rfl

@[simp] theorem called_localAh (c : ChannelSoC) (call : VerbsCall) :
    (c.called call).localAh = c.localAh := rfl

@[simp] theorem setQp_state (c : ChannelSoC) (isPrior : Bool) (qp : RDMASoCQP) :
    (c.setQp isPrior qp).state = c.state := by cases isPrior <;> rfl

@[simp] theorem modifyQp_success {c : ChannelSoC} {verbs : Verbs} {attr : QpAttr}
    {mask : List AttrMask} :
    (c.modifyQp verbs attr mask).1 = .NICC_SUCCESS ↔ verbs.modifyQp attr.qpState = 0 := by
  simp [modifyQp]

@[simp] theorem modifyQp_state (c : ChannelSoC) (verbs : Verbs) (attr : QpAttr)
    (mask : List AttrMask) : (c.modifyQp verbs attr mask).2.state = c.state := rfl

@[simp] theorem modifyQp_localAh (c : ChannelSoC) (verbs : Verbs) (attr : QpAttr)
    (mask : List AttrMask) : (c.modifyQp verbs attr mask).2.localAh = c.localAh := rfl

@[simp] theorem createAh_success {c : ChannelSoC} {verbs : Verbs} {isPrior : Bool}
    {localQpInfo remoteQpInfo : QPInfo} :
    (c.createAh verbs isPrior localQpInfo remoteQpInfo).1 = .NICC_SUCCESS ↔
      (c.localAh.isSome ∨ verbs.createLocalAh.isSome) ∧ verbs.createRemoteAh.isSome := by
  rw [createAh, andThen_success_iff, createLocalAh]
  split_ifs with known <;> simp [known]

@[simp] theorem createAh_state (c : ChannelSoC) (verbs : Verbs) (isPrior : Bool)
    (localQpInfo remoteQpInfo : QPInfo) :
    (c.createAh verbs isPrior localQpInfo remoteQpInfo).2.state = c.state := by
  refine andThen_invariant (fun d : ChannelSoC => d.state = c.state) ?_ fun d same => by simpa using same
  rw [createLocalAh]
  split_ifs <;> simp

@[simp] theorem fillRecvQueue_success {c : ChannelSoC} {verbs : Verbs} {isPrior : Bool} :
    (c.fillRecvQueue verbs isPrior).1 = .NICC_SUCCESS ↔ verbs.postRecv = 0 := by
  simp [fillRecvQueue]

@[simp] theorem fillRecvQueue_state (c : ChannelSoC) (verbs : Verbs) (isPrior : Bool) :
    (c.fillRecvQueue verbs isPrior).2.state = c.state := by
  simp [fillRecvQueue]

structure Succeeds (c : ChannelSoC) (verbs : Verbs) : Prop where
  init : verbs.modifyQp .INIT = 0
  rtr : verbs.modifyQp .RTR = 0
  localAh : c.localAh.isSome ∨ verbs.createLocalAh.isSome
  remoteAh : verbs.createRemoteAh.isSome
  rts : verbs.modifyQp .RTS = 0
  recvs : verbs.postRecv = 0

theorem connectQpToHost_success {c : ChannelSoC} {verbs : Verbs} {isPrior : Bool}
    {remoteQpInfo localQpInfo : QPInfo} :
    (c.connectQpToHost verbs isPrior remoteQpInfo localQpInfo).1 = .NICC_SUCCESS ↔
      verbs.modifyQp .INIT = 0 ∧ verbs.modifyQp .RTR = 0 ∧
        ((c.localAh.isSome ∨ verbs.createLocalAh.isSome) ∧ verbs.createRemoteAh.isSome) ∧
        verbs.modifyQp .RTS = 0 := by
  have mtu : pathMtu kMTU = some .MTU_4096 := rfl
  simp only [connectQpToHost, mtu, andThen_success_iff, modifyQp_success, modifyQp_localAh,
    createAh_success, and_true]

theorem connectQpToHost_state (c : ChannelSoC) (verbs : Verbs) (isPrior : Bool)
    (remoteQpInfo localQpInfo : QPInfo) :
    (c.connectQpToHost verbs isPrior remoteQpInfo localQpInfo).2.state = c.state := by
  have mtu : pathMtu kMTU = some .MTU_4096 := rfl
  simp only [connectQpToHost, mtu]
  refine andThen_invariant (fun d : ChannelSoC => d.state = c.state) rfl fun d same => ?_
  refine andThen_invariant (fun d : ChannelSoC => d.state = c.state) same fun d same => ?_
  refine andThen_invariant (fun d : ChannelSoC => d.state = c.state) (by simpa using same)
    fun d same => ?_
  exact andThen_invariant (fun d : ChannelSoC => d.state = c.state) same fun d same =>
    by simpa using same

theorem connectQp_host {c : ChannelSoC} {isPrior : Bool}
    (apart : c.state &&& connectedBit isPrior = 0) (verbs : Verbs) (qpInfo : QPInfo) :
    (c.Succeeds verbs ∧ (c.connectQp verbs isPrior none qpInfo).1 = .NICC_SUCCESS ∧
        (c.connectQp verbs isPrior none qpInfo).2.state = c.state ||| connectedBit isPrior) ∨
      (¬ c.Succeeds verbs ∧ (c.connectQp verbs isPrior none qpInfo).1 ≠ .NICC_SUCCESS ∧
        (c.connectQp verbs isPrior none qpInfo).2.state = c.state) := by
  let localQpInfo := if isPrior then c.qpForPriorInfo else c.qpForNextInfo
  let whole : Retval × ChannelSoC :=
    andThen (c.connectQpToHost verbs isPrior qpInfo localQpInfo) fun c =>
    c.fillRecvQueue verbs isPrior
  have unfolded : c.connectQp verbs isPrior none qpInfo = andThen whole fun c =>
      (.NICC_SUCCESS, { c with state := c.state ||| connectedBit isPrior }) := by
    rw [connectQp, if_neg (not_not.mpr apart)]
  have state : whole.2.state = c.state :=
    andThen_invariant (fun d : ChannelSoC => d.state = c.state)
      (connectQpToHost_state c verbs isPrior qpInfo localQpInfo) fun d same => by simpa using same
  have success : whole.1 = .NICC_SUCCESS ↔ c.Succeeds verbs := by
    rw [andThen_success_iff, connectQpToHost_success, fillRecvQueue_success]
    constructor
    · rintro ⟨⟨init, rtr, ⟨localAh, remoteAh⟩, rts⟩, recvs⟩
      exact ⟨init, rtr, localAh, remoteAh, rts, recvs⟩
    · rintro ⟨init, rtr, localAh, remoteAh, rts, recvs⟩
      exact ⟨⟨init, rtr, ⟨localAh, remoteAh⟩, rts⟩, recvs⟩
  rw [unfolded]
  by_cases ok : whole.1 = .NICC_SUCCESS
  · rw [andThen_success _ ok]
    exact .inl ⟨success.mp ok, rfl, by rw [state]⟩
  · rw [andThen_failure _ ok]
    exact .inr ⟨mt success.mpr ok, ok, state⟩

end ChannelSoC

inductive FlexioPathMtu
  | MTU_BYTES_1K
  | MTU_BYTES_2K
  | MTU_BYTES_4K

structure FlexioQpAttr where
  remoteQpNum : UInt32
  destMac : Vector UInt8 6
  rgidOrRip : Vector UInt8 16
  gidTableIndex : UInt8
  rlid : UInt16
  fl : UInt32
  minRnrNakTimer : UInt8
  pathMtu : Option FlexioPathMtu
  retryCount : UInt8
  vhcaPortNum : UInt8
  udpSport : UInt16
  grh : UInt8
  qpAccessMask : List AccessFlag
  nextState : QpState

inductive FlexioCall
  | qpModify (attr : FlexioQpAttr)
  | host2devMemcpy (dbr : UInt32)

structure Flexio where
  qpModify : QpState → Nat
  host2devMemcpy : Nat

structure ChannelDPA where
  state : UInt16
  remoteMacAddr : Vector UInt8 6
  remoteGid : Vector UInt8 16
  calls : List FlexioCall

namespace ChannelDPA

def pathMtu : UInt64 → Option FlexioPathMtu
  | 1024 => some .MTU_BYTES_1K
  | 2048 => some .MTU_BYTES_2K
  | 4096 => some .MTU_BYTES_4K
  | _ => none

def qpModify (c : ChannelDPA) (flexio : Flexio) (attr : FlexioQpAttr) : Retval × ChannelDPA :=
  (hardwareCheck (flexio.qpModify attr.nextState = 0),
    { c with calls := c.calls ++ [.qpModify attr] })

-- An MTU that the switch does not know is reported, and the attribute stays zero.
def connectQpToHost (c : ChannelDPA) (flexio : Flexio) (qpInfo : QPInfo) : Retval × ChannelDPA :=
  if qpInfo.isInitialized = false then (.NICC_ERROR_NOT_FOUND, c)
  else
    let c := { c with remoteMacAddr := qpInfo.macAddr, remoteGid := qpInfo.gid }
    let attr : FlexioQpAttr := {
      remoteQpNum := qpInfo.qpNum, destMac := c.remoteMacAddr, rgidOrRip := c.remoteGid
      gidTableIndex := qpInfo.gidTableIndex, rlid := qpInfo.lid, fl := 0, minRnrNakTimer := 1
      pathMtu := pathMtu (log2value DPA_LOG_WQ_DATA_ENTRY_BSIZE), retryCount := 0, vhcaPortNum := 0x1
      udpSport := 0xc000, grh := 0x1, qpAccessMask := [.REMOTE_WRITE, .LOCAL_WRITE]
      nextState := .INIT }
    andThen (c.qpModify flexio attr) fun c =>
    andThen (c.qpModify flexio { attr with nextState := .RTR }) fun c =>
    c.qpModify flexio { attr with nextState := .RTS }

def htobe32 (x : UInt32) : UInt32 :=
  x <<< 24 ||| (x &&& (0xff00 : UInt32)) <<< 8 ||| ((x >>> 8) &&& (0xff00 : UInt32)) ||| x >>> 24

def fillRecvQueue (c : ChannelDPA) (flexio : Flexio) : Retval × ChannelDPA :=
  let dbr := htobe32 (log2value DPA_LOG_RQ_RING_DEPTH &&& 0xffff).toUInt32
  (hardwareCheck (flexio.host2devMemcpy = 0),
    { c with calls := c.calls ++ [.host2devMemcpy dbr] })

def connectQpToComponentBlock (c : ChannelDPA) : Retval × ChannelDPA :=
  (.NICC_ERROR_NOT_IMPLEMENTED, c)

def connectQp (c : ChannelDPA) (flexio : Flexio) (isPrior : Bool)
    (neighbourComponentBlock : Option Nat) (qpInfo : QPInfo) : Retval × ChannelDPA :=
  if c.state &&& connectedBit isPrior ≠ 0 then (.NICC_ERROR_DUPLICATED, c)
  else
    andThen (match neighbourComponentBlock with
      | some _ => c.connectQpToComponentBlock
      | none => andThen (c.connectQpToHost flexio qpInfo) fun c => c.fillRecvQueue flexio) fun c =>
    (.NICC_SUCCESS, { c with state := c.state ||| connectedBit isPrior })

theorem connectQp_uninitialized {c : ChannelDPA} {isPrior : Bool}
    (apart : c.state &&& connectedBit isPrior = 0) (flexio : Flexio) {qpInfo : QPInfo}
    (uninitialized : qpInfo.isInitialized = false) :
    c.connectQp flexio isPrior none qpInfo = (.NICC_ERROR_NOT_FOUND, c) := by
  have host : c.connectQpToHost flexio qpInfo = (.NICC_ERROR_NOT_FOUND, c) := by
    rw [connectQpToHost, if_pos uninitialized]
  have failed : (Retval.NICC_ERROR_NOT_FOUND, c).1 ≠ .NICC_SUCCESS := nofun
  rw [connectQp, if_neg (not_not.mpr apart)]
  simp only [host, andThen_failure _ failed]

end ChannelDPA

end Nicc.Channel

import Nicc.Channel.Connect

/-!
# Attempts to connect a channel of the SoC

A side can be asked to connect again after a failure. What one attempt does to the connection bits,
to the address handles and to the QP of its side, and what any run of attempts leaves.
-/

namespace Nicc.Channel
open Lib

namespace ChannelSoC

/-- The attempt gets to the creation of the remote address handle. -/
structure Reaches (c : ChannelSoC) (verbs : Verbs) (isPrior : Bool)
    (neighbourComponentBlock : Option Nat) : Prop where
  apart : c.state &&& connectedBit isPrior = 0
  host : neighbourComponentBlock = none
  init : verbs.modifyQp .INIT = 0
  rtr : verbs.modifyQp .RTR = 0
  localAh : (c.localAh <|> verbs.createLocalAh).isSome

def isCreateAh : VerbsCall → Bool
  | .createAh _ => true
  | _ => false

/-- The connection that an `ibv_modify_qp` to RTR sets up: the QP number and the GID of the peer. -/
def peerOf : VerbsCall → Option (UInt32 × Vector UInt8 16)
  | .modifyQp attr _ => if attr.qpState = .RTR then some (attr.destQpNum, attr.ahAttr.dgid) else none
  | _ => none

theorem connectQp_refused {c : ChannelSoC} {isPrior : Bool}
    (connected : c.state &&& connectedBit isPrior ≠ 0) (verbs : Verbs) (neighbour : Option Nat)
    (qpInfo : QPInfo) :
    c.connectQp verbs isPrior neighbour qpInfo = (.NICC_ERROR_DUPLICATED, c) := if_pos connected

theorem connectQp_neighbour (c : ChannelSoC) (verbs : Verbs) (isPrior : Bool) (neighbour : Nat)
    (qpInfo : QPInfo) :
    (c.connectQp verbs isPrior (some neighbour) qpInfo).1 ≠ .NICC_SUCCESS ∧
      (c.connectQp verbs isPrior (some neighbour) qpInfo).2 = c := by
  rw [connectQp]
  split_ifs
  · exact ⟨by simp, rfl⟩
  · rw [andThen_failure _ (by simp [connectQpToComponentBlock])]
    exact ⟨by simp [connectQpToComponentBlock], rfl⟩

def left (c : ChannelSoC) (isPrior : Bool) (localAh : Option Nat) (qp : RDMASoCQP)
    (made : List VerbsCall) : ChannelSoC :=
  { c with localAh := localAh, calls := c.calls ++ made }.setQp isPrior qp

@[simp] theorem left_state (c : ChannelSoC) (isPrior : Bool) (localAh : Option Nat)
    (qp : RDMASoCQP) (made : List VerbsCall) :
    (c.left isPrior localAh qp made).state = c.state := by cases isPrior <;> rfl

@[simp] theorem left_localAh (c : ChannelSoC) (isPrior : Bool) (localAh : Option Nat)
    (qp : RDMASoCQP) (made : List VerbsCall) :
    (c.left isPrior localAh qp made).localAh = localAh := by cases isPrior <;> rfl

@[simp] theorem left_calls (c : ChannelSoC) (isPrior : Bool) (localAh : Option Nat)
    (qp : RDMASoCQP) (made : List VerbsCall) :
    (c.left isPrior localAh qp made).calls = c.calls ++ made := by cases isPrior <;> rfl

@[simp] theorem left_qp_self (c : ChannelSoC) (isPrior : Bool) (localAh : Option Nat)
    (qp : RDMASoCQP) (made : List VerbsCall) :
    (c.left isPrior localAh qp made).qp isPrior = qp := by cases isPrior <;> rfl

@[simp] theorem left_qp_other (c : ChannelSoC) (isPrior : Bool) (localAh : Option Nat)
    (qp : RDMASoCQP) (made : List VerbsCall) :
    (c.left isPrior localAh qp made).qp (!isPrior) = c.qp (!isPrior) := by cases isPrior <;> rfl

theorem left_called (c : ChannelSoC) (isPrior : Bool) (localAh : Option Nat) (qp : RDMASoCQP)
    (made : List VerbsCall) (call : VerbsCall) :
    (c.left isPrior localAh qp made).called call = c.left isPrior localAh qp (made ++ [call]) := by
  cases isPrior <;> simp [left, setQp, called]

theorem left_setQp (c : ChannelSoC) (isPrior : Bool) (localAh : Option Nat) (qp new : RDMASoCQP)
    (made : List VerbsCall) :
    (c.left isPrior localAh qp made).setQp isPrior new = c.left isPrior localAh new made := by
  cases isPrior <;> rfl

theorem called_left (c : ChannelSoC) (isPrior : Bool) (localAh : Option Nat) (qp : RDMASoCQP)
    (made : List VerbsCall) (call : VerbsCall) :
    (c.called call).left isPrior localAh qp made = c.left isPrior localAh qp (call :: made) := by
  cases isPrior <;> simp [left, setQp, called]

def localAhAttr (c : ChannelSoC) (localQpInfo : QPInfo) : AhAttr := {
  isGlobal := 1, dlid := 0, sl := 0, srcPathBits := 0, portNum := c.devPortId
  dgid := localQpInfo.gid, sgidIndex := kDefaultGIDIndex, hopLimit := 1, trafficClass := 0
  flowLabel := 0 }

theorem createAh_reaches {c : ChannelSoC} {verbs : Verbs} (isPrior : Bool)
    (localQpInfo remoteQpInfo : QPInfo) (localAh : (c.localAh <|> verbs.createLocalAh).isSome) :
    ∃ made, c.createAh verbs isPrior localQpInfo remoteQpInfo =
        (hardwareCheck verbs.createRemoteAh.isSome,
          c.left isPrior (c.localAh <|> verbs.createLocalAh)
            ⟨remoteQpInfo.qpNum.toUInt64, verbs.createRemoteAh, (c.qp isPrior).recvWrCircular⟩
            made) ∧
      made.countP isCreateAh = (if c.localAh.isSome then 1 else 2) ∧ made.filterMap peerOf = [] := by
  cases known : c.localAh with
  | some ah =>
      refine ⟨[.createAh (remoteAhAttr remoteQpInfo)], ?_, rfl, rfl⟩
      have skipped : c.createLocalAh verbs localQpInfo = (.NICC_SUCCESS, c) := by
        rw [createLocalAh, if_pos (by simp [known])]
      rw [createAh, skipped, andThen_success _ rfl]
      cases isPrior <;> simp [left, setQp, called, qp, known]
  | none =>
      replace localAh : verbs.createLocalAh.isSome := by simpa [known] using localAh
      refine ⟨[.createAh (localAhAttr c localQpInfo), .createAh (remoteAhAttr remoteQpInfo)],
        ?_, rfl, rfl⟩
      have first : c.createLocalAh verbs localQpInfo = (.NICC_SUCCESS,
          { c with localAh := verbs.createLocalAh }.called
            (.createAh (localAhAttr c localQpInfo))) := by
        simp [createLocalAh, known, hardwareCheck, localAh, localAhAttr]
      rw [createAh, first, andThen_success _ rfl]
      cases isPrior <;> simp [left, setQp, called, qp]

theorem createAh_stops {c : ChannelSoC} {verbs : Verbs} (isPrior : Bool)
    (localQpInfo remoteQpInfo : QPInfo) (stops : (c.localAh <|> verbs.createLocalAh).isSome = false) :
    c.createAh verbs isPrior localQpInfo remoteQpInfo =
      (.NICC_ERROR_HARDWARE_FAILURE, c.called (.createAh (localAhAttr c localQpInfo))) := by
  have unknown : c.localAh = none := by
    cases known : c.localAh with
    | none => rfl
    | some ah => simp [known] at stops
  have refused : verbs.createLocalAh = none := by simpa [unknown] using stops
  have first : c.createLocalAh verbs localQpInfo = (.NICC_ERROR_HARDWARE_FAILURE,
      c.called (.createAh (localAhAttr c localQpInfo))) := by
    simp [createLocalAh, unknown, hardwareCheck, refused, localAhAttr, called]
  rw [createAh, first, andThen_failure _ (by simp)]

def initAttr (c : ChannelSoC) : QpAttr := {
  qpState := .INIT, pkeyIndex := 0, portNum := c.devPortId
  qpAccessFlags := [.LOCAL_WRITE, .REMOTE_WRITE, .REMOTE_READ, .REMOTE_ATOMIC] }

def rtrAttr (remoteQpInfo : QPInfo) : QpAttr := {
  qpState := .RTR, pathMtu := some .MTU_4096, destQpNum := remoteQpInfo.qpNum, rqPsn := 0
  maxDestRdAtomic := 1, minRnrTimer := 12, ahAttr := remoteAhAttr remoteQpInfo }

def rtsAttr (remoteQpInfo : QPInfo) : QpAttr := { rtrAttr remoteQpInfo with
  qpState := .RTS, sqPsn := 0, timeout := 14, retryCnt := 7, rnrRetry := 7, maxRdAtomic := 1 }

def initCall (c : ChannelSoC) : VerbsCall :=
  .modifyQp c.initAttr [.STATE, .PKEY_INDEX, .PORT, .ACCESS_FLAGS]

def rtrCall (remoteQpInfo : QPInfo) : VerbsCall :=
  .modifyQp (rtrAttr remoteQpInfo)
    [.STATE, .AV, .PATH_MTU, .DEST_QPN, .RQ_PSN, .MAX_DEST_RD_ATOMIC, .MIN_RNR_TIMER]

def rtsCall (remoteQpInfo : QPInfo) : VerbsCall :=
  .modifyQp (rtsAttr remoteQpInfo)
    [.STATE, .TIMEOUT, .RETRY_CNT, .RNR_RETRY, .SQ_PSN, .MAX_QP_RD_ATOMIC]

theorem connectQpToHost_eq (c : ChannelSoC) (verbs : Verbs) (isPrior : Bool)
    (remoteQpInfo localQpInfo : QPInfo) :
    c.connectQpToHost verbs isPrior remoteQpInfo localQpInfo =
      if verbs.modifyQp .INIT ≠ 0 then (.NICC_ERROR_HARDWARE_FAILURE, c.called c.initCall)
      else if verbs.modifyQp .RTR ≠ 0 then
        (.NICC_ERROR_HARDWARE_FAILURE, (c.called c.initCall).called (rtrCall remoteQpInfo))
      else
        andThen (((c.called c.initCall).called (rtrCall remoteQpInfo)).createAh verbs isPrior
          localQpInfo remoteQpInfo) fun d =>
        if verbs.modifyQp .RTS ≠ 0 then
          (.NICC_ERROR_HARDWARE_FAILURE, d.called (rtsCall remoteQpInfo))
        else
          (.NICC_SUCCESS, (d.called (rtsCall remoteQpInfo)).setQp isPrior
            { d.qp isPrior with remoteQpId := remoteQpInfo.qpNum.toUInt64 }) := by
  have mtu : pathMtu kMTU = some .MTU_4096 := rfl
  have step {next : ChannelSoC → Retval × ChannelSoC} (d : ChannelSoC) (attr : QpAttr)
      (mask : List AttrMask) : andThen (d.modifyQp verbs attr mask) next =
        if verbs.modifyQp attr.qpState ≠ 0 then
          (.NICC_ERROR_HARDWARE_FAILURE, d.called (.modifyQp attr mask))
        else next (d.called (.modifyQp attr mask)) := by
    by_cases ok : verbs.modifyQp attr.qpState = 0 <;> simp [andThen, modifyQp, hardwareCheck, ok]
  simp only [connectQpToHost, mtu, step]
  cases isPrior <;> rfl

def localInfo (c : ChannelSoC) (isPrior : Bool) : QPInfo :=
  if isPrior then c.qpForPriorInfo else c.qpForNextInfo

theorem connectQp_failed {c d : ChannelSoC} {verbs : Verbs} {isPrior : Bool} {qpInfo : QPInfo}
    (apart : c.state &&& connectedBit isPrior = 0)
    (host : c.connectQpToHost verbs isPrior qpInfo (c.localInfo isPrior) =
      (.NICC_ERROR_HARDWARE_FAILURE, d)) :
    c.connectQp verbs isPrior none qpInfo = (.NICC_ERROR_HARDWARE_FAILURE, d) := by
  rw [connectQp, if_neg (not_not.mpr apart)]
  have host' := host
  rw [localInfo] at host'
  simp only [host', andThen, reduceCtorEq, if_false]

theorem connectQp_connected {c d : ChannelSoC} {verbs : Verbs} {isPrior : Bool} {qpInfo : QPInfo}
    (apart : c.state &&& connectedBit isPrior = 0)
    (host : c.connectQpToHost verbs isPrior qpInfo (c.localInfo isPrior) = (.NICC_SUCCESS, d)) :
    c.connectQp verbs isPrior none qpInfo =
      if verbs.postRecv ≠ 0 then (.NICC_ERROR_HARDWARE_FAILURE, (d.fillRecvQueue verbs isPrior).2)
      else (.NICC_SUCCESS, { (d.fillRecvQueue verbs isPrior).2 with
        state := (d.fillRecvQueue verbs isPrior).2.state ||| connectedBit isPrior }) := by
  rw [connectQp, if_neg (not_not.mpr apart)]
  have host' := host
  rw [localInfo] at host'
  by_cases recvs : verbs.postRecv = 0 <;>
    simp [host', andThen, fillRecvQueue, hardwareCheck, recvs]

theorem connectQp_stops {c : ChannelSoC} {verbs : Verbs} {isPrior : Bool} {neighbour : Option Nat}
    (qpInfo : QPInfo) (stops : ¬ c.Reaches verbs isPrior neighbour) :
    ∃ made, (c.connectQp verbs isPrior neighbour qpInfo).1 ≠ .NICC_SUCCESS ∧
      (c.connectQp verbs isPrior neighbour qpInfo).2 = { c with calls := c.calls ++ made } ∧
      (made.countP isCreateAh = 0 ∨
        made.countP isCreateAh = 1 ∧ c.localAh = none ∧ verbs.createLocalAh = none) := by
  by_cases apart : c.state &&& connectedBit isPrior = 0
  swap
  · rw [connectQp_refused apart]
    exact ⟨[], nofun, by rw [List.append_nil], .inl rfl⟩
  cases neighbour with
  | some neighbour =>
      obtain ⟨failed, same⟩ := connectQp_neighbour c verbs isPrior neighbour qpInfo
      exact ⟨[], failed, by rw [same, List.append_nil], .inl rfl⟩
  | none =>
      by_cases init : verbs.modifyQp .INIT = 0
      swap
      · rw [connectQp_failed apart (by rw [connectQpToHost_eq, if_pos init])]
        exact ⟨[c.initCall], nofun, rfl, .inl rfl⟩
      by_cases rtr : verbs.modifyQp .RTR = 0
      swap
      · rw [connectQp_failed apart (by rw [connectQpToHost_eq, if_neg (not_not.mpr init), if_pos rtr])]
        exact ⟨[c.initCall, rtrCall qpInfo], nofun, by simp [called], .inl rfl⟩
      have refused : (c.localAh <|> verbs.createLocalAh).isSome = false := by
        by_contra localAh
        exact stops ⟨apart, rfl, init, rtr, eq_true_of_ne_false localAh⟩
      have first := createAh_stops (c := (c.called c.initCall).called (rtrCall qpInfo)) isPrior
        (c.localInfo isPrior) qpInfo refused
      rw [connectQp_failed apart (by
        rw [connectQpToHost_eq, if_neg (not_not.mpr init), if_neg (not_not.mpr rtr), first,
          andThen_failure _ (by simp)])]
      refine ⟨[c.initCall, rtrCall qpInfo, .createAh (c.localAhAttr (c.localInfo isPrior))], nofun,
        ?_, .inr ⟨rfl, ?_⟩⟩
      · simp [called, localAhAttr]
      · cases known : c.localAh <;> simp_all

theorem connectQp_reaches {c : ChannelSoC} {verbs : Verbs} {isPrior : Bool}
    {neighbour : Option Nat} (qpInfo : QPInfo) (reaches : c.Reaches verbs isPrior neighbour) :
    ∃ made qp, (c.connectQp verbs isPrior neighbour qpInfo).2 =
        (if (c.connectQp verbs isPrior neighbour qpInfo).1 = .NICC_SUCCESS then
          { c.left isPrior (c.localAh <|> verbs.createLocalAh) qp made with
            state := c.state ||| connectedBit isPrior }
        else c.left isPrior (c.localAh <|> verbs.createLocalAh) qp made) ∧
      qp.remoteAh = verbs.createRemoteAh ∧ qp.remoteQpId = qpInfo.qpNum.toUInt64 ∧
      ((c.connectQp verbs isPrior neighbour qpInfo).1 = .NICC_SUCCESS → qp.recvWrCircular = true) ∧
      made.countP isCreateAh = (if c.localAh.isSome then 1 else 2) ∧
      made.filterMap peerOf = [(qpInfo.qpNum, qpInfo.gid)] ∧
      ((c.connectQp verbs isPrior neighbour qpInfo).1 = .NICC_SUCCESS ↔
        verbs.createRemoteAh.isSome ∧ verbs.modifyQp .RTS = 0 ∧ verbs.postRecv = 0) := by
  obtain ⟨apart, rfl, init, rtr, localAh⟩ := reaches
  obtain ⟨ahs, created, count, silent⟩ := createAh_reaches
    (c := (c.called c.initCall).called (rtrCall qpInfo)) isPrior (c.localInfo isPrior) qpInfo localAh
  rw [called_left, called_left] at created
  have host := connectQpToHost_eq c verbs isPrior qpInfo (c.localInfo isPrior)
  rw [if_neg (not_not.mpr init), if_neg (not_not.mpr rtr), created] at host
  have counted (more : List VerbsCall) (others : more.countP isCreateAh = 0) :
      (c.initCall :: rtrCall qpInfo :: ahs ++ more).countP isCreateAh =
        (if c.localAh.isSome then 1 else 2) := by
    rw [List.countP_append, others]
    exact count
  have peers (more : List VerbsCall) (others : more.filterMap peerOf = []) :
      (c.initCall :: rtrCall qpInfo :: ahs ++ more).filterMap peerOf =
        [(qpInfo.qpNum, qpInfo.gid)] := by
    rw [List.filterMap_append, others, List.append_nil, List.filterMap_cons, List.filterMap_cons,
      silent]
    rfl
  have circular : (((c.called c.initCall).called (rtrCall qpInfo)).qp isPrior).recvWrCircular =
      (c.qp isPrior).recvWrCircular := by cases isPrior <;> rfl
  rw [circular] at host
  let qp : RDMASoCQP :=
    ⟨qpInfo.qpNum.toUInt64, verbs.createRemoteAh, (c.qp isPrior).recvWrCircular⟩
  by_cases remoteAh : verbs.createRemoteAh.isSome = true
  swap
  · rw [andThen_failure _ (by simp [remoteAh]), hardwareCheck, if_neg remoteAh] at host
    rw [connectQp_failed apart host]
    refine ⟨c.initCall :: rtrCall qpInfo :: ahs ++ [], qp, ?_, rfl, rfl, by simp, counted [] rfl,
      peers [] rfl, ?_⟩
    · rw [List.append_nil]
      rfl
    · simp [remoteAh]
  rw [andThen_success _ (by simp [remoteAh])] at host
  by_cases rts : verbs.modifyQp .RTS = 0
  swap
  · simp only [rts, ne_eq, not_false_eq_true, if_true, left_called] at host
    rw [connectQp_failed apart host]
    refine ⟨c.initCall :: rtrCall qpInfo :: ahs ++ [rtsCall qpInfo], qp, rfl, rfl, rfl, by simp,
      counted [_] rfl, peers [_] rfl, ?_⟩
    simp [rts]
  simp only [rts, ne_eq, not_true_eq_false, if_false, left_called, left_setQp] at host
  rw [connectQp_connected apart host]
  refine ⟨c.initCall :: rtrCall qpInfo :: ahs ++ [rtsCall qpInfo, .postRecv],
    { qp with recvWrCircular := decide (verbs.postRecv = 0) }, ?_, rfl, rfl, ?_,
    counted [_, _] rfl, peers [_, _] rfl, ?_⟩
  · by_cases recvs : verbs.postRecv = 0
    · simp [fillRecvQueue, recvs, left_setQp, left_called, qp]
    · simp [fillRecvQueue, recvs, left_setQp, left_called, qp]
  · by_cases recvs : verbs.postRecv = 0 <;> simp [recvs]
  · by_cases recvs : verbs.postRecv = 0 <;> simp [recvs, remoteAh, rts]

/-! ## Runs of attempts -/

structure Attempt where
  isPrior : Bool
  neighbour : Option Nat
  qpInfo : QPInfo
  verbs : Verbs

/-- What `allocate_channel` leaves of the members that an attempt looks at. -/
def new (devPortId : UInt8) (qpForPriorInfo qpForNextInfo : QPInfo) : ChannelSoC where
  state := 0
  devPortId := devPortId
  localAh := none
  qpForPrior := ⟨0xffffffffffffffff, none, true⟩
  qpForNext := ⟨0xffffffffffffffff, none, true⟩
  qpForPriorInfo := qpForPriorInfo
  qpForNextInfo := qpForNextInfo
  calls := []

/-- A channel with what its attempts have answered, and with the address handles that the driver has
created for this port and for the peer of each side. -/
structure Life where
  channel : ChannelSoC
  log : List (Attempt × Retval)
  localAhs : List Nat
  remoteAhs : Bool → List Nat

def ahCalls (before after : ChannelSoC) : Nat :=
  (after.calls.drop before.calls.length).countP isCreateAh

namespace Life

def start (channel : ChannelSoC) : Life := ⟨channel, [], [], fun _ => []⟩

def attempt (life : Life) (a : Attempt) : Life :=
  let (retval, channel) := life.channel.connectQp a.verbs a.isPrior a.neighbour a.qpInfo
  let calls := ahCalls life.channel channel
  let localAsked := if life.channel.localAh.isSome then 0 else 1
  { channel := channel
    log := life.log ++ [(a, retval)]
    localAhs := life.localAhs ++
      if localAsked = 1 ∧ 1 ≤ calls then a.verbs.createLocalAh.toList else []
    remoteAhs := Function.update life.remoteAhs a.isPrior (life.remoteAhs a.isPrior ++
      if localAsked < calls then a.verbs.createRemoteAh.toList else []) }

def attempts (life : Life) (as : List Attempt) : Life := as.foldl attempt life

def answer (life : Life) (a : Attempt) : Retval :=
  (life.channel.connectQp a.verbs a.isPrior a.neighbour a.qpInfo).1

@[simp] theorem attempt_log (life : Life) (a : Attempt) :
    (life.attempt a).log = life.log ++ [(a, life.answer a)] := rfl

theorem attempt_channel (life : Life) (a : Attempt) :
    (life.attempt a).channel =
      (life.channel.connectQp a.verbs a.isPrior a.neighbour a.qpInfo).2 := rfl

theorem attempt_stops {life : Life} {a : Attempt}
    (stops : ¬ life.channel.Reaches a.verbs a.isPrior a.neighbour) :
    life.answer a ≠ .NICC_SUCCESS ∧
      (∃ made, (life.attempt a).channel =
        { life.channel with calls := life.channel.calls ++ made }) ∧
      (life.attempt a).localAhs = life.localAhs ∧ (life.attempt a).remoteAhs = life.remoteAhs := by
  obtain ⟨made, failed, same, count⟩ := connectQp_stops a.qpInfo stops
  have calls : ahCalls life.channel
      (life.channel.connectQp a.verbs a.isPrior a.neighbour a.qpInfo).2 = made.countP isCreateAh := by
    rw [same, ahCalls, List.drop_left]
  refine ⟨failed, ⟨made, same⟩, ?_, ?_⟩
  · simp only [attempt, calls]
    rcases count with none | ⟨one, unknown, refused⟩
    · simp [none]
    · simp [one, unknown, refused]
  · simp only [attempt, calls]
    rcases count with none | ⟨one, unknown, refused⟩
    · simp [none]
    · simp [one, unknown]

theorem attempt_reaches {life : Life} {a : Attempt}
    (reaches : life.channel.Reaches a.verbs a.isPrior a.neighbour) :
    (∃ made qp, (life.attempt a).channel =
        (if life.answer a = .NICC_SUCCESS then
          { life.channel.left a.isPrior (life.channel.localAh <|> a.verbs.createLocalAh) qp made with
            state := life.channel.state ||| connectedBit a.isPrior }
        else life.channel.left a.isPrior (life.channel.localAh <|> a.verbs.createLocalAh) qp made) ∧
      qp.remoteAh = a.verbs.createRemoteAh ∧ qp.remoteQpId = a.qpInfo.qpNum.toUInt64 ∧
      (life.answer a = .NICC_SUCCESS → qp.recvWrCircular = true)) ∧
      (life.attempt a).localAhs = life.localAhs ++
        (if life.channel.localAh.isSome then [] else a.verbs.createLocalAh.toList) ∧
      (life.attempt a).remoteAhs = Function.update life.remoteAhs a.isPrior
        (life.remoteAhs a.isPrior ++ a.verbs.createRemoteAh.toList) ∧
      (life.answer a = .NICC_SUCCESS → a.verbs.createRemoteAh.isSome) := by
  obtain ⟨made, qp, value, remoteAh, remoteQpId, circular, count, -, success⟩ :=
    connectQp_reaches a.qpInfo reaches
  have calls : ahCalls life.channel
      (life.channel.connectQp a.verbs a.isPrior a.neighbour a.qpInfo).2 =
        if life.channel.localAh.isSome then 1 else 2 := by
    rw [value, ahCalls, ← count]
    split_ifs <;> simp
  refine ⟨⟨made, qp, value, remoteAh, remoteQpId, circular⟩, ?_, ?_,
    fun ok => (success.mp ok).1⟩
  · simp only [attempt, calls]
    cases known : life.channel.localAh <;> simp
  · simp only [attempt, calls]
    cases known : life.channel.localAh <;> simp

/-- A side is connected when an attempt on it has succeeded. Its QP is then the one of that attempt,
and the later attempts on it have been refused. -/
structure Settled (life : Life) : Prop where
  bit : ∀ isPrior, life.channel.state &&& connectedBit isPrior ≠ 0 ↔
    ∃ entry ∈ life.log, entry.1.isPrior = isPrior ∧ entry.2 = .NICC_SUCCESS
  peer : ∀ entry ∈ life.log, entry.2 = .NICC_SUCCESS →
    entry.1.neighbour = none ∧ entry.1.verbs.createRemoteAh.isSome ∧
      life.channel.qp entry.1.isPrior =
        ⟨entry.1.qpInfo.qpNum.toUInt64, entry.1.verbs.createRemoteAh, true⟩
  later : ∀ (i j : Nat) (entry after : Attempt × Retval), life.log[i]? = some entry →
    life.log[j]? = some after → i < j →
    entry.2 = .NICC_SUCCESS → after.1.isPrior = entry.1.isPrior → after.2 = .NICC_ERROR_DUPLICATED

theorem or_and_bit (state bit mask : UInt16) :
    (state ||| bit) &&& mask = state &&& mask ||| bit &&& mask := by
  simp only [← UInt16.toBitVec_inj, UInt16.toBitVec_and, UInt16.toBitVec_or,
    BitVec.and_or_distrib_right]

theorem connectedBit_other (isPrior : Bool) (state : UInt16) :
    (state ||| connectedBit isPrior) &&& connectedBit (!isPrior) =
      state &&& connectedBit (!isPrior) := by
  have apart : connectedBit isPrior &&& connectedBit (!isPrior) = 0 := by
    cases isPrior <;> decide
  rw [or_and_bit, apart, UInt16.or_zero]

theorem connectedBit_self (isPrior : Bool) (state : UInt16) :
    (state ||| connectedBit isPrior) &&& connectedBit isPrior ≠ 0 := by
  rw [or_and_bit]
  cases isPrior <;> simp [connectedBit, kChannel_State_Prior_Connected,
    kChannel_State_Next_Connected]

theorem answer_refused {life : Life} {a : Attempt}
    (connected : life.channel.state &&& connectedBit a.isPrior ≠ 0) :
    life.answer a = .NICC_ERROR_DUPLICATED ∧ (life.attempt a).channel = life.channel := by
  rw [answer, attempt_channel, connectQp_refused connected]
  exact ⟨rfl, rfl⟩

theorem attempt_bit (life : Life) (a : Attempt) (isPrior : Bool) :
    (life.attempt a).channel.state &&& connectedBit isPrior ≠ 0 ↔
      life.channel.state &&& connectedBit isPrior ≠ 0 ∨
        (a.isPrior = isPrior ∧ life.answer a = .NICC_SUCCESS) := by
  by_cases reaches : life.channel.Reaches a.verbs a.isPrior a.neighbour
  · obtain ⟨⟨made, qp, value, -, -⟩, -, -, -⟩ := attempt_reaches reaches
    by_cases success : life.answer a = .NICC_SUCCESS
    · rw [value, if_pos success]
      by_cases same : a.isPrior = isPrior
      · subst same
        exact ⟨fun _ => .inr ⟨rfl, success⟩, fun _ => connectedBit_self _ _⟩
      · have other : isPrior = !a.isPrior := by
          cases isPrior <;> cases side : a.isPrior <;> simp_all
        rw [other, connectedBit_other, ← other]
        exact ⟨.inl, fun set => set.resolve_right fun new => same new.1⟩
    · rw [value, if_neg success, left_state]
      exact ⟨.inl, fun set => set.resolve_right fun new => success new.2⟩
  · obtain ⟨failed, ⟨made, same⟩, -, -⟩ := attempt_stops reaches
    rw [same]
    exact ⟨.inl, fun set => set.resolve_right fun new => failed new.2⟩

theorem attempt_qp_kept {life : Life} (a : Attempt) {isPrior : Bool}
    (kept : life.channel.state &&& connectedBit isPrior ≠ 0 ∨ isPrior = !a.isPrior) :
    (life.attempt a).channel.qp isPrior = life.channel.qp isPrior := by
  by_cases reaches : life.channel.Reaches a.verbs a.isPrior a.neighbour
  · obtain ⟨⟨made, qp, value, -, -⟩, -, -, -⟩ := attempt_reaches reaches
    have other : isPrior = !a.isPrior := by
      refine kept.elim (fun connected => ?_) id
      by_contra same
      have own : isPrior = a.isPrior := by
        cases isPrior <;> cases side : a.isPrior <;> simp_all
      exact connected (own ▸ reaches.apart)
    rw [value, other]
    split_ifs
    · exact left_qp_other _ _ _ _ _
    · exact left_qp_other _ _ _ _ _
  · obtain ⟨-, ⟨made, same⟩, -, -⟩ := attempt_stops reaches
    rw [same]
    rfl

theorem attempt_qp_success {life : Life} {a : Attempt} (success : life.answer a = .NICC_SUCCESS) :
    a.neighbour = none ∧ a.verbs.createRemoteAh.isSome ∧
      (life.attempt a).channel.qp a.isPrior =
        ⟨a.qpInfo.qpNum.toUInt64, a.verbs.createRemoteAh, true⟩ := by
  by_cases reaches : life.channel.Reaches a.verbs a.isPrior a.neighbour
  · obtain ⟨⟨made, qp, value, remoteAh, remoteQpId, circular⟩, -, -, created⟩ :=
      attempt_reaches reaches
    have own : (life.attempt a).channel.qp a.isPrior = qp := by
      rw [value, if_pos success]
      exact left_qp_self _ _ _ _ _
    refine ⟨reaches.host, created success, ?_⟩
    rw [own, ← remoteAh, ← remoteQpId, ← circular success]
  · exact absurd success (attempt_stops reaches).1

theorem start_settled (devPortId : UInt8) (qpForPriorInfo qpForNextInfo : QPInfo) :
    Settled (start (new devPortId qpForPriorInfo qpForNextInfo)) where
  bit isPrior := by simp [start, new]
  peer entry member := absurd member List.not_mem_nil
  later i j entry after there := by simp [start] at there

theorem Settled.attempt {life : Life} (settled : Settled life) (a : Attempt) :
    Settled (life.attempt a) := by
  refine ⟨fun isPrior => ?_, fun entry member success => ?_,
    fun i j entry after first second before success side => ?_⟩
  · rw [attempt_bit, settled.bit, attempt_log]
    simp only [List.mem_append, List.mem_singleton, or_and_right, exists_or, exists_eq_left]
  · rcases List.mem_append.mp member with old | new
    · have connected := (settled.bit entry.1.isPrior).mpr ⟨entry, old, rfl, success⟩
      rw [attempt_qp_kept a (.inl connected)]
      exact settled.peer entry old success
    · obtain rfl := List.mem_singleton.mp new
      exact attempt_qp_success success
  · rw [attempt_log] at first second
    rcases snoc_getElem? second with ⟨inside, old⟩ | ⟨here, rfl⟩
    · rcases snoc_getElem? first with ⟨-, oldFirst⟩ | ⟨there, -⟩
      · exact settled.later i j entry after oldFirst old before success side
      · omega
    · rcases snoc_getElem? first with ⟨-, oldFirst⟩ | ⟨there, -⟩
      · exact (answer_refused ((settled.bit a.isPrior).mpr
          ⟨entry, List.mem_of_getElem? oldFirst, side.symm, success⟩)).1
      · omega

theorem attempts_invariant (inv : Life → Prop) (kept : ∀ life a, inv life → inv (life.attempt a))
    {life : Life} (before : inv life) (as : List Attempt) : inv (life.attempts as) := by
  induction as generalizing life with
  | nil => exact before
  | cons a as ih => exact ih (kept life a before)

theorem attempts_settled (devPortId : UInt8) (qpForPriorInfo qpForNextInfo : QPInfo)
    (as : List Attempt) :
    Settled ((start (new devPortId qpForPriorInfo qpForNextInfo)).attempts as) :=
  attempts_invariant Settled (fun _ a settled => settled.attempt a) (start_settled _ _ _) as

end Life

/-! ## What the destructor gives back -/

inductive DestroyCall
  | deregMr
  | destroyQp (isPrior : Bool)
  | destroySendCq (isPrior : Bool)
  | destroyRecvCq (isPrior : Bool)
  | destroyAh (ah : Option Nat)
  | deallocPd
  | closeDevice

def destructor (c : ChannelSoC) : List DestroyCall :=
  [.deregMr,
    .destroyQp true, .destroySendCq true, .destroyRecvCq true,
    .destroyQp false, .destroySendCq false, .destroyRecvCq false,
    .destroyAh c.localAh, .destroyAh c.qpForPrior.remoteAh, .destroyAh c.qpForNext.remoteAh,
    .deallocPd, .closeDevice]

def DestroyCall.ah? : DestroyCall → Option (Option Nat)
  | .destroyAh ah => some ah
  | _ => none

namespace Life

def createdAhs (life : Life) : List Nat :=
  life.localAhs ++ (life.remoteAhs true ++ life.remoteAhs false)

structure Accounted (life : Life) : Prop where
  localAh : life.localAhs = life.channel.localAh.toList
  remote : ∀ isPrior ah, (life.channel.qp isPrior).remoteAh = some ah → ah ∈ life.remoteAhs isPrior
  known : ∀ isPrior, life.remoteAhs isPrior ≠ [] → life.channel.localAh.isSome

theorem start_accounted (devPortId : UInt8) (qpForPriorInfo qpForNextInfo : QPInfo) :
    Accounted (start (new devPortId qpForPriorInfo qpForNextInfo)) where
  localAh := rfl
  remote isPrior ah there := by cases isPrior <;> cases there
  known isPrior some := absurd rfl some

theorem Accounted.attempt {life : Life} (accounted : Accounted life) (a : Attempt) :
    Accounted (life.attempt a) := by
  by_cases reaches : life.channel.Reaches a.verbs a.isPrior a.neighbour
  · obtain ⟨⟨made, qp, value, remoteAh, -⟩, localAhs, remoteAhs, -⟩ := attempt_reaches reaches
    have localAh : (life.attempt a).channel.localAh =
        (life.channel.localAh <|> a.verbs.createLocalAh) := by
      rw [value]
      split_ifs
      · exact left_localAh _ _ _ _ _
      · exact left_localAh _ _ _ _ _
    have own : (life.attempt a).channel.qp a.isPrior = qp := by
      rw [value]
      split_ifs
      · exact left_qp_self _ _ _ _ _
      · exact left_qp_self _ _ _ _ _
    refine ⟨?_, fun isPrior ah there => ?_, fun isPrior some => ?_⟩
    · rw [localAhs, accounted.localAh, localAh]
      cases life.channel.localAh <;> simp
    · by_cases same : isPrior = a.isPrior
      · subst same
        rw [own, remoteAh] at there
        rw [remoteAhs, Function.update_self]
        exact List.mem_append_right _ (by simp [there])
      · have other : isPrior = !a.isPrior := by
          cases isPrior <;> cases side : a.isPrior <;> simp_all
        rw [attempt_qp_kept a (.inr other)] at there
        rw [remoteAhs, Function.update_of_ne same]
        exact accounted.remote isPrior ah there
    · rw [localAh]
      exact reaches.localAh
  · obtain ⟨-, ⟨made, same⟩, localAhs, remoteAhs⟩ := attempt_stops reaches
    refine ⟨?_, fun isPrior ah there => ?_, fun isPrior some => ?_⟩
    · rw [localAhs, same]
      exact accounted.localAh
    · rw [same] at there
      rw [remoteAhs]
      exact accounted.remote isPrior ah there
    · rw [remoteAhs] at some
      rw [same]
      exact accounted.known isPrior some

/-- The destructor gives back the address handles that have been created, each of them once and no
null pointer, exactly when for each side one remote handle has been created, and it is still there. -/
theorem destructor_gives_back_iff (devPortId : UInt8) (qpForPriorInfo qpForNextInfo : QPInfo)
    (as : List Attempt) :
    let life := (start (new devPortId qpForPriorInfo qpForNextInfo)).attempts as
    (life.channel.destructor.filterMap DestroyCall.ah?).Perm (life.createdAhs.map some) ↔
      ∀ isPrior, ∃ ah, life.remoteAhs isPrior = [ah] ∧
        (life.channel.qp isPrior).remoteAh = some ah := by
  intro life
  have accounted : Accounted life :=
    attempts_invariant Accounted (fun _ a accounted => accounted.attempt a)
      (start_accounted _ _ _) as
  have passed : life.channel.destructor.filterMap DestroyCall.ah? =
      [life.channel.localAh, (life.channel.qp true).remoteAh, (life.channel.qp false).remoteAh] := rfl
  rw [passed]
  constructor
  · intro same
    have proper : ∀ ah ∈ [life.channel.localAh, (life.channel.qp true).remoteAh,
        (life.channel.qp false).remoteAh], ah.isSome := by
      intro ah member
      obtain ⟨h, -, rfl⟩ := List.mem_map.mp (same.mem_iff.mp member)
      rfl
    obtain ⟨la, localAh⟩ := Option.isSome_iff_exists.mp (proper life.channel.localAh (by simp))
    have remote (isPrior : Bool) : ∃ ah, (life.channel.qp isPrior).remoteAh = some ah :=
      Option.isSome_iff_exists.mp (proper _ (by cases isPrior <;> simp))
    have some (isPrior : Bool) : 0 < (life.remoteAhs isPrior).length := by
      obtain ⟨ah, there⟩ := remote isPrior
      exact List.length_pos_of_mem (accounted.remote isPrior ah there)
    have total : 3 = (life.remoteAhs true).length + (life.remoteAhs false).length + 1 := by
      have lengths := same.length_eq
      simp only [createdAhs, accounted.localAh, localAh, Option.toList_some, List.length_map,
        List.length_append, List.length_cons, List.length_nil] at lengths
      omega
    intro isPrior
    have one : (life.remoteAhs isPrior).length = 1 := by
      have prior := some true
      have next := some false
      cases isPrior <;> omega
    obtain ⟨ah, only⟩ := List.length_eq_one_iff.mp one
    obtain ⟨there, held⟩ := remote isPrior
    have inside := accounted.remote isPrior there held
    rw [only, List.mem_singleton] at inside
    exact ⟨ah, only, inside ▸ held⟩
  · intro once
    obtain ⟨prior, priorOnly, priorHeld⟩ := once true
    obtain ⟨next, nextOnly, nextHeld⟩ := once false
    obtain ⟨la, localAh⟩ := Option.isSome_iff_exists.mp
      (accounted.known true (by rw [priorOnly]; exact List.cons_ne_nil _ _))
    rw [createdAhs, accounted.localAh, localAh, priorOnly, nextOnly, priorHeld, nextHeld]
    exact List.Perm.refl _

end Life

structure Granted (verbs : Verbs) : Prop where
  init : verbs.modifyQp .INIT = 0
  rtr : verbs.modifyQp .RTR = 0
  remoteAh : verbs.createRemoteAh.isSome
  rts : verbs.modifyQp .RTS = 0
  recvs : verbs.postRecv = 0

theorem connectQp_host_success {c : ChannelSoC} {isPrior : Bool}
    (apart : c.state &&& connectedBit isPrior = 0) (verbs : Verbs) (qpInfo : QPInfo) :
    (c.connectQp verbs isPrior none qpInfo).1 = .NICC_SUCCESS ↔
      (c.localAh <|> verbs.createLocalAh).isSome ∧ Granted verbs := by
  constructor
  · intro success
    by_cases reaches : c.Reaches verbs isPrior none
    · obtain ⟨made, qp, -, -, -, -, -, -, iff⟩ := connectQp_reaches qpInfo reaches
      obtain ⟨remoteAh, rts, recvs⟩ := iff.mp success
      exact ⟨reaches.localAh, reaches.init, reaches.rtr, remoteAh, rts, recvs⟩
    · obtain ⟨-, failed, -⟩ := connectQp_stops qpInfo reaches
      exact absurd success failed
  · rintro ⟨localAh, granted⟩
    have reaches : c.Reaches verbs isPrior none := ⟨apart, rfl, granted.init, granted.rtr, localAh⟩
    obtain ⟨made, qp, -, -, -, -, -, -, iff⟩ := connectQp_reaches qpInfo reaches
    exact iff.mpr ⟨granted.remoteAh, granted.rts, granted.recvs⟩

theorem connectQp_host_connected {c : ChannelSoC} {isPrior : Bool} {verbs : Verbs} {qpInfo : QPInfo}
    (success : (c.connectQp verbs isPrior none qpInfo).1 = .NICC_SUCCESS) :
    (c.connectQp verbs isPrior none qpInfo).2.state = c.state ||| connectedBit isPrior ∧
      (c.connectQp verbs isPrior none qpInfo).2.localAh.isSome ∧
      (c.connectQp verbs isPrior none qpInfo).2.calls.filterMap peerOf =
        c.calls.filterMap peerOf ++ [(qpInfo.qpNum, qpInfo.gid)] := by
  by_cases reaches : c.Reaches verbs isPrior none
  · obtain ⟨made, qp, value, -, -, -, -, peers, -⟩ := connectQp_reaches qpInfo reaches
    rw [value, if_pos success]
    refine ⟨rfl, ?_, ?_⟩
    · exact (congrArg Option.isSome (left_localAh c isPrior _ qp made)).trans reaches.localAh
    · rw [← peers, ← List.filterMap_append, ← left_calls c isPrior _ qp made]
  · obtain ⟨-, failed, -⟩ := connectQp_stops qpInfo reaches
    exact absurd success failed

end ChannelSoC

/-! ## The DPA channel -/

namespace ChannelDPA

def peerOf : FlexioCall → Option (UInt32 × Vector UInt8 16)
  | .qpModify attr =>
      if attr.nextState = .RTR then some (attr.remoteQpNum, attr.rgidOrRip) else none
  | .host2devMemcpy _ => none

structure Granted (flexio : Flexio) : Prop where
  init : flexio.qpModify .INIT = 0
  rtr : flexio.qpModify .RTR = 0
  rts : flexio.qpModify .RTS = 0
  doorbell : flexio.host2devMemcpy = 0

theorem connectQp_neighbour (c : ChannelDPA) (flexio : Flexio) (isPrior : Bool) (neighbour : Nat)
    (qpInfo : QPInfo) :
    (c.connectQp flexio isPrior (some neighbour) qpInfo).1 ≠ .NICC_SUCCESS := by
  rw [connectQp]
  split_ifs
  · simp
  · rw [andThen_failure _ (by simp [connectQpToComponentBlock])]
    simp [connectQpToComponentBlock]

theorem connectQp_host_success {c : ChannelDPA} {isPrior : Bool}
    (apart : c.state &&& connectedBit isPrior = 0) (flexio : Flexio) (qpInfo : QPInfo) :
    (c.connectQp flexio isPrior none qpInfo).1 = .NICC_SUCCESS ↔
      qpInfo.isInitialized = true ∧ Granted flexio := by
  have host : (c.connectQpToHost flexio qpInfo).1 = .NICC_SUCCESS ↔ qpInfo.isInitialized = true ∧
      flexio.qpModify .INIT = 0 ∧ flexio.qpModify .RTR = 0 ∧ flexio.qpModify .RTS = 0 := by
    cases initialized : qpInfo.isInitialized with
    | false => simp [connectQpToHost, initialized]
    | true =>
        simp only [connectQpToHost, initialized, Bool.true_eq_false, if_false, andThen_success_iff,
          qpModify, hardwareCheck_success, true_and]
  have fill (d : ChannelDPA) :
      (d.fillRecvQueue flexio).1 = .NICC_SUCCESS ↔ flexio.host2devMemcpy = 0 := by
    simp [fillRecvQueue]
  rw [connectQp, if_neg (not_not.mpr apart), andThen_success_iff, andThen_success_iff, host, fill]
  constructor
  · rintro ⟨⟨⟨initialized, init, rtr, rts⟩, doorbell⟩, -⟩
    exact ⟨initialized, init, rtr, rts, doorbell⟩
  · rintro ⟨initialized, init, rtr, rts, doorbell⟩
    exact ⟨⟨⟨initialized, init, rtr, rts⟩, doorbell⟩, rfl⟩

theorem connectQp_host_connected {c : ChannelDPA} {isPrior : Bool} {flexio : Flexio}
    {qpInfo : QPInfo} (success : (c.connectQp flexio isPrior none qpInfo).1 = .NICC_SUCCESS) :
    (c.connectQp flexio isPrior none qpInfo).2.state = c.state ||| connectedBit isPrior ∧
      (c.connectQp flexio isPrior none qpInfo).2.calls.filterMap peerOf =
        c.calls.filterMap peerOf ++ [(qpInfo.qpNum, qpInfo.gid)] := by
  have apart : c.state &&& connectedBit isPrior = 0 := by
    by_contra connected
    rw [connectQp, if_pos connected] at success
    cases success
  obtain ⟨initialized, init, rtr, rts, doorbell⟩ :=
    (connectQp_host_success apart flexio qpInfo).mp success
  simp [connectQp, apart, connectQpToHost, initialized, andThen, qpModify, init, rtr, rts,
    fillRecvQueue, doorbell, hardwareCheck, peerOf]

end ChannelDPA

end Nicc.Channel

import Nicc.Channel.Attempts
import Nicc.Pipeline.Connections

namespace Nicc.Pipeline
open Lib Channel

inductive BlockChannel
  | soc (channel : ChannelSoC)
  | dpa (channel : ChannelDPA)

/-- What the drivers answer when a block connects one of its two sides, and what comes of the rule
that is added for a block. -/
structure Drivers where
  verbs : Nat → Bool → Verbs
  flexio : Nat → Bool → Flexio
  addControlPlaneRule : Nat → Except String Retval

namespace BlockChannel

def state : BlockChannel → UInt16
  | soc channel => channel.state
  | dpa channel => channel.state

-- A call without a neighbour comes with the `QPInfo` of a host.
def connectQp (drivers : Drivers) (block : Nat) (isPrior : Bool) (neighbour : Option Nat)
    (qpInfo : Option QPInfo) : BlockChannel → Retval × BlockChannel
  | soc channel => Prod.map id soc
      (channel.connectQp (drivers.verbs block isPrior) isPrior neighbour (qpInfo.getD zeroed))
  | dpa channel => Prod.map id dpa
      (channel.connectQp (drivers.flexio block isPrior) isPrior neighbour (qpInfo.getD zeroed))

end BlockChannel

def Drivers.channels (drivers : Drivers) : Channels (Nat → BlockChannel) where
  connectQp world block isPrior neighbour qpInfo :=
    ((world block).connectQp drivers block isPrior neighbour qpInfo).map id
      (Function.update world block)
  addControlPlaneRule world block := (drivers.addControlPlaneRule block).map fun _ => world

/-- The handle of the own port is created once, when the side of the remote host is connected. -/
def BlockChannel.Served (drivers : Drivers) (block : Nat) (hostQpInfo : Host → QPInfo) :
    BlockChannel → Prop
  | soc channel =>
      (channel.localAh <|> (drivers.verbs block true).createLocalAh).isSome ∧
        ∀ host : Host, ChannelSoC.Granted (drivers.verbs block host.isPrior)
  | dpa _ => ∀ host : Host, (hostQpInfo host).isInitialized = true ∧
      ChannelDPA.Granted (drivers.flexio block host.isPrior)

namespace BlockChannel

def peers : BlockChannel → List (UInt32 × Vector UInt8 16)
  | soc channel => channel.calls.filterMap ChannelSoC.peerOf
  | dpa channel => channel.calls.filterMap ChannelDPA.peerOf

theorem connectQp_neighbour (drivers : Drivers) (block : Nat) (isPrior : Bool) (neighbour : Nat)
    (qpInfo : Option QPInfo) (channel : BlockChannel) :
    (channel.connectQp drivers block isPrior (some neighbour) qpInfo).1 ≠ .NICC_SUCCESS := by
  cases channel with
  | soc channel =>
      exact (ChannelSoC.connectQp_neighbour channel (drivers.verbs block isPrior) isPrior neighbour
        (qpInfo.getD zeroed)).1
  | dpa channel =>
      exact ChannelDPA.connectQp_neighbour channel (drivers.flexio block isPrior) isPrior neighbour
        (qpInfo.getD zeroed)

def connectBoth (drivers : Drivers) (block : Nat) (hostQpInfo : Host → QPInfo)
    (channel : BlockChannel) : Retval × BlockChannel :=
  andThen (channel.connectQp drivers block true none (some (hostQpInfo .remoteHost))) fun channel =>
    channel.connectQp drivers block false none (some (hostQpInfo .localHost))

theorem connectBoth_success {drivers : Drivers} {block : Nat} {hostQpInfo : Host → QPInfo}
    {channel : BlockChannel} (fresh : channel.state = 0) :
    (channel.connectBoth drivers block hostQpInfo).1 = .NICC_SUCCESS ↔
      channel.Served drivers block hostQpInfo := by
  have prior : channel.state &&& connectedBit true = 0 := by rw [fresh]; decide
  have next : (channel.state ||| connectedBit true) &&& connectedBit false = 0 := by
    rw [fresh]; decide
  rw [connectBoth, andThen_success_iff]
  cases channel with
  | soc channel =>
      have first := ChannelSoC.connectQp_host_success prior (drivers.verbs block true)
        (hostQpInfo .remoteHost)
      have second (success : (channel.connectQp (drivers.verbs block true) true none
          (hostQpInfo .remoteHost)).1 = .NICC_SUCCESS) :
          ((channel.connectQp (drivers.verbs block true) true none (hostQpInfo .remoteHost)).2.connectQp
            (drivers.verbs block false) false none (hostQpInfo .localHost)).1 = .NICC_SUCCESS ↔
          ChannelSoC.Granted (drivers.verbs block false) := by
        obtain ⟨state, localAh, -⟩ := ChannelSoC.connectQp_host_connected success
        have apart : (channel.connectQp (drivers.verbs block true) true none
            (hostQpInfo .remoteHost)).2.state &&& connectedBit false = 0 := by
          rw [state]
          exact next
        rw [ChannelSoC.connectQp_host_success apart]
        exact and_iff_right (by simp [localAh])
      constructor
      · rintro ⟨one, two⟩
        obtain ⟨localAh, granted⟩ := first.mp one
        refine ⟨localAh, fun host => ?_⟩
        cases host with
        | remoteHost => exact granted
        | localHost => exact (second one).mp two
      · rintro ⟨localAh, granted⟩
        have one := first.mpr ⟨localAh, granted .remoteHost⟩
        exact ⟨one, (second one).mpr (granted .localHost)⟩
  | dpa channel =>
      have first := ChannelDPA.connectQp_host_success prior (drivers.flexio block true)
        (hostQpInfo .remoteHost)
      have second (success : (channel.connectQp (drivers.flexio block true) true none
          (hostQpInfo .remoteHost)).1 = .NICC_SUCCESS) :
          ((channel.connectQp (drivers.flexio block true) true none
            (hostQpInfo .remoteHost)).2.connectQp
            (drivers.flexio block false) false none (hostQpInfo .localHost)).1 = .NICC_SUCCESS ↔
          (hostQpInfo .localHost).isInitialized = true ∧
            ChannelDPA.Granted (drivers.flexio block false) := by
        apply ChannelDPA.connectQp_host_success
        rw [(ChannelDPA.connectQp_host_connected success).1]
        exact next
      constructor
      · rintro ⟨one, two⟩ host
        cases host with
        | remoteHost => exact first.mp one
        | localHost => exact (second one).mp two
      · intro served
        have one := first.mpr (served .remoteHost)
        exact ⟨one, (second one).mpr (served .localHost)⟩

def peerAt (qpInfo : QPInfo) : UInt32 × Vector UInt8 16 := (qpInfo.qpNum, qpInfo.gid)

theorem connectBoth_peers {drivers : Drivers} {block : Nat} {hostQpInfo : Host → QPInfo}
    {channel : BlockChannel}
    (success : (channel.connectBoth drivers block hostQpInfo).1 = .NICC_SUCCESS) :
    (channel.connectBoth drivers block hostQpInfo).2.peers =
      channel.peers ++ [peerAt (hostQpInfo .remoteHost), peerAt (hostQpInfo .localHost)] := by
  rw [connectBoth] at success ⊢
  obtain ⟨one, two⟩ := andThen_success_iff.mp success
  rw [andThen_success _ one]
  cases channel with
  | soc channel =>
      obtain ⟨-, -, first⟩ := ChannelSoC.connectQp_host_connected one
      obtain ⟨-, -, second⟩ := ChannelSoC.connectQp_host_connected two
      exact second.trans ((congrArg (· ++ _) first).trans (List.append_assoc _ _ _))
  | dpa channel =>
      obtain ⟨-, first⟩ := ChannelDPA.connectQp_host_connected one
      obtain ⟨-, second⟩ := ChannelDPA.connectQp_host_connected two
      exact second.trans ((congrArg (· ++ _) first).trans (List.append_assoc _ _ _))

end BlockChannel

section
variable {drivers : Drivers} {connectTo : Host → List String} {hostQpInfo : Host → QPInfo}

theorem connectLoop_neighbour {block : Nat} {sides : List (Bool × Option Nat × Option QPInfo)}
    {world : Nat → BlockChannel}
    (success : (connectLoop drivers.channels block sides world).1 = .NICC_SUCCESS) :
    ∀ side ∈ sides, side.2.1 = none := by
  induction sides generalizing world with
  | nil => exact fun _ member => absurd member List.not_mem_nil
  | cons side rest ih =>
      obtain ⟨isPrior, neighbour, qpInfo⟩ := side
      simp only [connectLoop] at success
      split_ifs at success with failed
      · exact absurd success failed
      · intro other member
        rcases List.mem_cons.mp member with rfl | later
        · cases neighbour with
          | none => rfl
          | some j =>
              exact absurd (BlockChannel.connectQp_neighbour drivers block isPrior j qpInfo
                (world block)) failed
        · exact ih success other later

theorem connectToNeighbour_alone {componentId : Nat} {ask : Ask} {world : Nat → BlockChannel}
    (success : (connectToNeighbour drivers.channels componentId ask world).1 = .NICC_SUCCESS) :
    componentId ≠ kComponent_FlowEngine ∧ ask.priorBlock = none ∧ ask.nextBlock = none := by
  rw [connectToNeighbour] at success
  by_cases flowEngine : componentId = kComponent_FlowEngine
  · rw [if_pos flowEngine] at success
    cases success
  rw [if_neg flowEngine] at success
  have alone := connectLoop_neighbour success
  refine ⟨flowEngine, ?_, ?_⟩
  · cases prior : ask.priorBlock with
    | none => rfl
    | some j => exact alone (true, some j, none) (by simp [prior])
  · cases next : ask.nextBlock with
    | none => rfl
    | some j => exact alone (false, some j, none) (by simp [next])

theorem connectToNeighbour_hosts (drivers : Drivers) {componentId : Nat}
    (other : componentId ≠ kComponent_FlowEngine) (block : Nat) (world : Nat → BlockChannel) (hostQpInfo : Host → QPInfo) :
    let ask : Ask := ⟨block, none, none, fun _ => true, fun host => some (hostQpInfo host)⟩
    let both := (world block).connectBoth drivers block hostQpInfo
    (connectToNeighbour drivers.channels componentId ask world).1 = both.1 ∧
      (both.1 = .NICC_SUCCESS →
        (connectToNeighbour drivers.channels componentId ask world).2 block = both.2) := by
  intro ask both
  let first := (world block).connectQp drivers block true none (some (hostQpInfo .remoteHost))
  let between := Function.update world block first.2
  let second := (between block).connectQp drivers block false none (some (hostQpInfo .localHost))
  have loop : connectToNeighbour drivers.channels componentId ask world =
      if first.1 ≠ .NICC_SUCCESS then (first.1, between)
      else if second.1 ≠ .NICC_SUCCESS then (second.1, Function.update between block second.2)
      else (.NICC_SUCCESS, Function.update between block second.2) := by
    rw [connectToNeighbour, if_neg other]
    rfl
  have here : between block = first.2 := Function.update_self _ _ _
  have whole : both = andThen first fun _ => second := by
    simp only [both, BlockChannel.connectBoth, andThen, second, here]
    rfl
  rw [loop, whole]
  by_cases one : first.1 = .NICC_SUCCESS
  · rw [andThen_success _ one, if_neg (not_not.mpr one)]
    by_cases two : second.1 = .NICC_SUCCESS
    · rw [if_neg (not_not.mpr two)]
      exact ⟨two.symm, fun _ => Function.update_self _ _ _⟩
    · rw [if_pos two]
      exact ⟨rfl, fun success => absurd success two⟩
  · rw [andThen_failure _ one, if_pos one]
    exact ⟨rfl, fun success => absurd success one⟩

variable {links : Links (Nat → BlockChannel)} {block : Block} {i : Nat}

def ownAsk (connectTo : Host → List String) (hostQpInfo : Host → QPInfo)
    (links : Links (Nat → BlockChannel)) (block : Block) (i : Nat) : Ask where
  block := i
  priorBlock := links.priorBlock.map (·.1)
  nextBlock := none
  isConnectedTo := (links.flag connectTo block).isConnectedTo
  qpInfo host := some (hostQpInfo host)

def asked (drivers : Drivers) (connectTo : Host → List String) (hostQpInfo : Host → QPInfo)
    (links : Links (Nat → BlockChannel)) (block : Block) (i : Nat) :
    Retval × Links (Nat → BlockChannel) :=
  (links.flag connectTo block).ask drivers.channels block (ownAsk connectTo hostQpInfo links block i)

theorem connectBlock_eq :
    connectBlock drivers.channels connectTo hostQpInfo links (block, i) =
      if (asked drivers connectTo hostQpInfo links block i).1 ≠ .NICC_SUCCESS then
        .error (.returned (asked drivers connectTo hostQpInfo links block i).1,
          (asked drivers connectTo hostQpInfo links block i).2)
      else
        Links.addRule drivers.channels
          { (asked drivers connectTo hostQpInfo links block i).2.complete block with
            priorBlock := some (i, block) } i block := by
  have unfolded : connectBlock drivers.channels connectTo hostQpInfo links (block, i) =
      if (asked drivers connectTo hostQpInfo links block i).1 ≠ .NICC_SUCCESS then
        .error (.returned (asked drivers connectTo hostQpInfo links block i).1,
          (asked drivers connectTo hostQpInfo links block i).2)
      else
        ((asked drivers connectTo hostQpInfo links block i).2.complete block).linkPrior
          drivers.channels i >>= fun links =>
        Links.addRule drivers.channels { links with priorBlock := some (i, block) } i block := rfl
  rw [unfolded]
  split_ifs with failed
  · rfl
  · obtain ⟨-, alone, -⟩ := connectToNeighbour_alone (not_not.mp failed)
    have first : ((asked drivers connectTo hostQpInfo links block i).2.complete block).priorBlock =
        none := by
      change links.priorBlock = none
      cases known : links.priorBlock with
      | none => rfl
      | some prior => simp [ownAsk, known] at alone
    rw [Links.linkPrior, first]
    rfl

theorem addRule_granted (links : Links (Nat → BlockChannel))
    (granted : block.componentId = kComponent_DPA →
      ∃ retval, drivers.addControlPlaneRule i = .ok retval) :
    links.addRule drivers.channels i block = .ok links := by
  rw [Links.addRule]
  split_ifs with dpa
  · obtain ⟨retval, ok⟩ := granted dpa
    simp only [Drivers.channels, ok, Except.map]
  · rfl

theorem addRule_thrown (links : Links (Nat → BlockChannel)) (dpa : block.componentId = kComponent_DPA)
    {text : String} (throws : drivers.addControlPlaneRule i = .error text) :
    links.addRule drivers.channels i block = .error (.thrown text, links) := by
  simp only [Links.addRule, dpa, if_true, Drivers.channels, throws, Except.map]

theorem rule_cases (drivers : Drivers) (block : Block) (i : Nat) :
    (block.componentId = kComponent_DPA → ∃ retval, drivers.addControlPlaneRule i = .ok retval) ∨
      (block.componentId = kComponent_DPA ∧ ∃ text, drivers.addControlPlaneRule i = .error text) := by
  by_cases dpa : block.componentId = kComponent_DPA
  · cases rule : drivers.addControlPlaneRule i with
    | ok retval => exact .inl fun _ => ⟨retval, rfl⟩
    | error text => exact .inr ⟨dpa, text, rfl⟩
  · exact .inl fun is => absurd is dpa

theorem connectBlock_ok {after : Links (Nat → BlockChannel)}
    (ran : connectBlock drivers.channels connectTo hostQpInfo links (block, i) = .ok after) :
    (asked drivers connectTo hostQpInfo links block i).1 = .NICC_SUCCESS ∧
      after = { (asked drivers connectTo hostQpInfo links block i).2.complete block with
        priorBlock := some (i, block) } ∧
      (block.componentId = kComponent_DPA → ∃ retval, drivers.addControlPlaneRule i = .ok retval) := by
  rw [connectBlock_eq] at ran
  split_ifs at ran with failed
  refine ⟨not_not.mp failed, ?_⟩
  rcases rule_cases drivers block i with granted | ⟨dpa, text, throws⟩
  · rw [addRule_granted _ granted] at ran
    cases ran
    exact ⟨rfl, granted⟩
  · rw [addRule_thrown _ dpa throws] at ran
    cases ran

theorem connectBlock_error {stopped : Outcome × Links (Nat → BlockChannel)}
    (ran : connectBlock drivers.channels connectTo hostQpInfo links (block, i) = .error stopped) :
    stopped.1 ≠ .returned .NICC_SUCCESS := by
  rw [connectBlock_eq] at ran
  split_ifs at ran with failed
  · cases ran
    exact fun same => failed (Outcome.returned.inj same)
  · rcases rule_cases drivers block i with granted | ⟨dpa, text, throws⟩
    · rw [addRule_granted _ granted] at ran
      cases ran
    · rw [addRule_thrown _ dpa throws] at ran
      cases ran
      exact nofun

theorem run_error {blocks : List (Block × Nat)} {stopped : Outcome × Links (Nat → BlockChannel)}
    (ran : run (connectBlock drivers.channels connectTo hostQpInfo) links blocks = .error stopped) :
    stopped.1 ≠ .returned .NICC_SUCCESS := by
  induction blocks generalizing links with
  | nil => cases ran
  | cons block rest ih =>
      rw [run, List.foldlM_cons] at ran
      cases first : connectBlock drivers.channels connectTo hostQpInfo links block with
      | error early =>
          rw [first] at ran
          cases ran
          exact connectBlock_error first
      | ok next =>
          rw [first] at ran
          exact ih ran

/-- The second block is asked to connect to the first, which no channel does. -/
theorem run_alone {blocks : List (Block × Nat)} {after : Links (Nat → BlockChannel)}
    (ran : run (connectBlock drivers.channels connectTo hostQpInfo) links blocks = .ok after) :
    blocks.length ≤ 1 := by
  rcases blocks with _ | ⟨first, _ | ⟨second, rest⟩⟩
  · exact Nat.zero_le 1
  · exact Nat.le_refl 1
  · obtain ⟨between, one, more⟩ := run_cons_ok.mp ran
    obtain ⟨last, two, rest⟩ := run_cons_ok.mp more
    obtain ⟨-, rfl, -⟩ := connectBlock_ok one
    obtain ⟨success, -⟩ := connectBlock_ok two
    obtain ⟨-, alone, -⟩ := connectToNeighbour_alone success
    cases alone

structure Connects (drivers : Drivers) (connectTo : Host → List String)
    (hostQpInfo : Host → QPInfo) (channel : BlockChannel) (block : Block) : Prop where
  kind : block.componentId ≠ kComponent_FlowEngine
  named : ∀ host, block.blockName ∈ connectTo host
  served : channel.Served drivers 0 hostQpInfo
  rule : block.componentId = kComponent_DPA → ∃ retval, drivers.addControlPlaneRule 0 = .ok retval

theorem asked_named (drivers : Drivers) (world : Nat → BlockChannel)
    (hostQpInfo : Host → QPInfo) (kind : block.componentId ≠ kComponent_FlowEngine)
    (named : ∀ host, block.blockName ∈ connectTo host) :
    (asked drivers connectTo hostQpInfo (Links.start world) block 0).1 =
        ((world 0).connectBoth drivers 0 hostQpInfo).1 ∧
      (((world 0).connectBoth drivers 0 hostQpInfo).1 = .NICC_SUCCESS →
        (asked drivers connectTo hostQpInfo (Links.start world) block 0).2.world 0 =
          ((world 0).connectBoth drivers 0 hostQpInfo).2) := by
  have ask : ownAsk connectTo hostQpInfo (Links.start world) block 0 =
      ⟨0, none, none, fun _ => true, fun host => some (hostQpInfo host)⟩ := by
    simp [ownAsk, Links.flag, Links.start, named]
  have hosts := connectToNeighbour_hosts drivers kind 0 world hostQpInfo
  rw [← ask] at hosts
  exact hosts

theorem connectBlocks_ran {blocks : List Block} {after : Links (Nat → BlockChannel)}
    (ran : run (connectBlock drivers.channels connectTo hostQpInfo) links blocks.zipIdx = .ok after)
    (connected : ∀ host, after.isConnectedTo host = true) :
    connectBlocks drivers.channels connectTo hostQpInfo blocks links =
      (.returned .NICC_SUCCESS, after) := by
  rw [connectBlocks, ran]
  simp only [connected, Bool.and_true, if_true]

theorem connectBlocks_returned {blocks : List Block} :
    (connectBlocks drivers.channels connectTo hostQpInfo blocks links).1 = .returned .NICC_SUCCESS ↔
      ∃ after, run (connectBlock drivers.channels connectTo hostQpInfo) links blocks.zipIdx =
        .ok after ∧ ∀ host, after.isConnectedTo host = true := by
  constructor
  · intro success
    cases ran : run (connectBlock drivers.channels connectTo hostQpInfo) links blocks.zipIdx with
    | error stopped =>
        rw [connectBlocks, ran] at success
        exact absurd success (run_error ran)
    | ok after =>
        refine ⟨after, rfl, fun host => ?_⟩
        rw [connectBlocks, ran] at success
        by_contra apart
        have failed : (after.isConnectedTo .remoteHost && after.isConnectedTo .localHost) = false := by
          cases host <;> simp_all
        simp only [failed, Bool.false_eq_true, if_false] at success
        cases success
  · rintro ⟨after, ran, connected⟩
    rw [connectBlocks_ran ran connected]

theorem connectBlocks_single {world : Nat → BlockChannel} (fresh : (world 0).state = 0)
    (connects : Connects drivers connectTo hostQpInfo (world 0) block) :
    connectBlocks drivers.channels connectTo hostQpInfo [block] (Links.start world) =
      (.returned .NICC_SUCCESS, { (asked drivers connectTo hostQpInfo (Links.start world) block
        0).2.complete block with priorBlock := some (0, block) }) := by
  obtain ⟨answer, -⟩ := asked_named drivers world hostQpInfo connects.kind connects.named
  have success := answer.trans ((BlockChannel.connectBoth_success fresh).mpr connects.served)
  refine connectBlocks_ran (run_cons_ok.mpr ⟨_, ?_, rfl⟩) fun host =>
    decide_eq_true (connects.named host)
  rw [connectBlock_eq, if_neg (not_not.mpr success), addRule_granted _ connects.rule]

theorem connectBlocks_success {world : Nat → BlockChannel} {blocks : List Block}
    (fresh : (world 0).state = 0) :
    (connectBlocks drivers.channels connectTo hostQpInfo blocks (Links.start world)).1 =
        .returned .NICC_SUCCESS ↔
      ∃ block, blocks = [block] ∧ Connects drivers connectTo hostQpInfo (world 0) block := by
  constructor
  · intro success
    obtain ⟨after, ran, connected⟩ := connectBlocks_returned.mp success
    have short := run_alone ran
    rcases blocks with _ | ⟨block, _ | ⟨second, rest⟩⟩
    · cases ran
      cases connected .remoteHost
    · obtain ⟨last, one, rest⟩ := run_cons_ok.mp ran
      cases rest
      obtain ⟨success, rfl, rule⟩ := connectBlock_ok one
      have named (host : Host) : block.blockName ∈ connectTo host :=
        of_decide_eq_true (connected host)
      obtain ⟨kind, -, -⟩ := connectToNeighbour_alone success
      rw [(asked_named drivers world hostQpInfo kind named).1, BlockChannel.connectBoth_success fresh] at success
      exact ⟨block, rfl, kind, named, success, rule⟩
    · simp at short
  · rintro ⟨block, rfl, connects⟩
    rw [connectBlocks_single fresh connects]

theorem connectBlocks_left {world : Nat → BlockChannel} (fresh : (world 0).state = 0)
    (connects : Connects drivers connectTo hostQpInfo (world 0) block) :
    let links := (connectBlocks drivers.channels connectTo hostQpInfo [block] (Links.start world)).2
    (links.world 0).peers = (world 0).peers ++
        [BlockChannel.peerAt (hostQpInfo .remoteHost), BlockChannel.peerAt (hostQpInfo .localHost)] ∧
      ∀ host, links.sent host = [serialize (block.getQpInfo host.isPrior)] := by
  have both := (BlockChannel.connectBoth_success fresh).mpr connects.served
  rw [connectBlocks_single fresh connects]
  constructor
  · rw [← BlockChannel.connectBoth_peers both]
    exact congrArg BlockChannel.peers ((asked_named drivers world hostQpInfo connects.kind connects.named).2 both)
  · intro host
    exact if_pos (decide_eq_true (connects.named host))

theorem build_decoded {received : Host → List Char}
    (decoded : ∀ host, deserialize zeroed (received host) = .ok (hostQpInfo host))
    (blocks : List Block) (world : Nat → BlockChannel) :
    buildChannelConnections drivers.channels connectTo blocks received world =
      connectBlocks drivers.channels connectTo hostQpInfo blocks (Links.start world) := by
  simp only [buildChannelConnections, decoded]
  congr 1
  funext host
  cases host <;> rfl

/-- The connections of a pipeline are built exactly when it has one block, which is not one of the
flow engine and which both hosts name, and its drivers serve it. -/
theorem builds_iff (drivers : Drivers) (connectTo : Host → List String) (blocks : List Block)
    (received : Host → List Char) {world : Nat → BlockChannel} (fresh : (world 0).state = 0) :
    (buildChannelConnections drivers.channels connectTo blocks received world).1 =
        .returned .NICC_SUCCESS ↔
      ∃ hostQpInfo block, (∀ host, deserialize zeroed (received host) = .ok (hostQpInfo host)) ∧
        blocks = [block] ∧ Connects drivers connectTo hostQpInfo (world 0) block := by
  constructor
  · intro built
    have each (host : Host) : ∃ qpInfo, deserialize zeroed (received host) = .ok qpInfo := by
      cases read : deserialize zeroed (received host) with
      | ok qpInfo => exact ⟨qpInfo, rfl⟩
      | error e =>
          rw [buildChannelConnections] at built
          cases host with
          | localHost =>
              simp only [read] at built
              cases built
          | remoteHost =>
              cases other : deserialize zeroed (received .localHost) <;>
                simp only [other, read] at built <;> cases built
    choose hostQpInfo decoded using each
    rw [build_decoded decoded, connectBlocks_success fresh] at built
    obtain ⟨block, only, connects⟩ := built
    exact ⟨hostQpInfo, block, decoded, only, connects⟩
  · rintro ⟨hostQpInfo, block, decoded, rfl, connects⟩
    rw [build_decoded decoded, connectBlocks_single fresh connects]

/-- After the exchange both ends know each other: the QPs of the block have been told the QP numbers
and the GIDs that the hosts have sent. What each host is sent back reads as the `QPInfo` of its side,
as far as the QP number and the MTU of that side are read at all. -/
theorem ends_agree (drivers : Drivers) (connectTo : Host → List String) {blocks : List Block}
    (own : Host → QPInfo) (wellFormed : ∀ host, WellFormed (own host))
    (filled : ∀ block ∈ blocks, ∀ isPrior, WellFormed (block.getQpInfo isPrior))
    {world : Nat → BlockChannel} (fresh : (world 0).state = 0) (silent : (world 0).peers = [])
    (built : (buildChannelConnections drivers.channels connectTo blocks
      (fun host => serialize (own host)) world).1 = .returned .NICC_SUCCESS) :
    let links := (buildChannelConnections drivers.channels connectTo blocks
      (fun host => serialize (own host)) world).2
    (links.world 0).peers =
        [BlockChannel.peerAt (own .remoteHost), BlockChannel.peerAt (own .localHost)] ∧
      ∃ block, blocks = [block] ∧ ∀ host, ∃ message, links.sent host = [message] ∧
        (∀ qpInfo, deserialize zeroed message = .ok qpInfo →
          Agree qpInfo (block.getQpInfo host.isPrior)) ∧
        ((∃ qpInfo, deserialize zeroed message = .ok qpInfo) ↔
          (block.getQpInfo host.isPrior).qpNum.toNat < 2 ^ 31 ∧
            (block.getQpInfo host.isPrior).mtu.toNat < 2 ^ 31) := by
  obtain ⟨hostQpInfo, block, decoded, rfl, connects⟩ := (builds_iff drivers connectTo blocks
    (fun host => serialize (own host)) fresh).mp built
  obtain ⟨peers, sent⟩ := connectBlocks_left fresh connects
  rw [build_decoded decoded]
  refine ⟨?_, block, rfl, fun host => ⟨_, sent host, ?_, ?_⟩⟩
  · have same (x : QPInfo) : BlockChannel.peerAt (received zeroed x) = BlockChannel.peerAt x := by
      simp only [BlockChannel.peerAt, received]
    rw [peers, silent, (wellFormed .remoteHost).reads (decoded .remoteHost),
      (wellFormed .localHost).reads (decoded .localHost), same, same, List.nil_append]
  · intro qpInfo read
    have formed := filled block List.mem_cons_self host.isPrior
    rw [formed.reads read]
    exact received_agree zeroed formed
  · exact (filled block List.mem_cons_self host.isPrior).read_iff zeroed

def servingDrivers : Drivers where
  verbs _ _ := ⟨fun _ => 0, some 1, some 2, 0⟩
  flexio _ _ := ⟨fun _ => 0, 0⟩
  addControlPlaneRule _ := .ok .NICC_SUCCESS

def numbered (qpNum : UInt32) : QPInfo := { zeroed with qpNum := qpNum, mtu := 5 }

def hostSent : Host → QPInfo
  | .remoteHost => numbered 7
  | .localHost => numbered 8

def singleBlock : Block := ⟨"soc", kComponent_SoC, numbered 3, numbered 4⟩

def singleWorld : Nat → BlockChannel := fun _ => .soc (.new 1 (numbered 3) (numbered 4))

def singleLinks : Links (Nat → BlockChannel) :=
  (buildChannelConnections servingDrivers.channels (fun _ => ["soc"]) [singleBlock]
    (fun host => serialize (hostSent host)) singleWorld).2

theorem ends_agree_single :
    (singleLinks.world 0).peers = [(7, zeroed.gid), (8, zeroed.gid)] ∧
      ∀ host, ∃ message, singleLinks.sent host = [message] ∧
        ∃ qpInfo, deserialize zeroed message = .ok qpInfo ∧
          Agree qpInfo (singleBlock.getQpInfo host.isPrior) := by
  have formed (qpNum : UInt32) : WellFormed (numbered qpNum) := zeroed_wellFormed qpNum 5
  have decoded : ∀ host, deserialize zeroed (serialize (hostSent host)) =
      .ok (received zeroed (hostSent host)) := by
    intro host
    cases host <;>
      rw [hostSent, deserialize_serialize zeroed (formed _).hostname (formed _).nicName,
        if_pos (by decide)]
  have connects : Connects servingDrivers (fun _ => ["soc"])
      (fun host => received zeroed (hostSent host)) (singleWorld 0) singleBlock :=
    ⟨by decide, fun _ => List.mem_singleton.mpr rfl, ⟨rfl, fun _ => ⟨rfl, rfl, rfl, rfl, rfl⟩⟩,
      fun _ => ⟨_, rfl⟩⟩
  have filled : ∀ block ∈ [singleBlock], ∀ isPrior, WellFormed (block.getQpInfo isPrior) := by
    intro block member isPrior
    rw [List.mem_singleton.mp member]
    cases isPrior <;> exact formed _
  have fresh : (singleWorld 0).state = 0 := rfl
  have built : (buildChannelConnections servingDrivers.channels (fun _ => ["soc"]) [singleBlock]
      (fun host => serialize (hostSent host)) singleWorld).1 = .returned .NICC_SUCCESS := by
    rw [build_decoded decoded, connectBlocks_single fresh connects]
  obtain ⟨peers, block, same, sent⟩ := ends_agree servingDrivers (fun _ => ["soc"]) hostSent
    (fun host => by cases host <;> exact formed _) filled fresh rfl built
  obtain rfl := List.singleton_inj.mp same
  refine ⟨peers, fun host => ?_⟩
  obtain ⟨message, alone, agrees, reads⟩ := sent host
  obtain ⟨qpInfo, read⟩ := reads.mpr (by cases host <;> decide)
  exact ⟨message, alone, qpInfo, read, agrees qpInfo read⟩

end

end Nicc.Pipeline

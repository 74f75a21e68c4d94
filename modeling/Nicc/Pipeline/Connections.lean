import Nicc.Channel.QPInfo
import Nicc.Pipeline.ResourcePool
import Mathlib.Data.List.TakeWhile

namespace Nicc.Pipeline
open Lib Channel

inductive Host
  | remoteHost
  | localHost
  deriving DecidableEq

structure Block where
  blockName : String
  componentId : Nat
  qpForPriorInfo : QPInfo
  qpForNextInfo : QPInfo

def Block.getQpInfo (block : Block) (isPrior : Bool) : QPInfo :=
  if isPrior then block.qpForPriorInfo else block.qpForNextInfo

def Host.isPrior : Host → Bool
  | .remoteHost => true
  | .localHost => false

structure Ask where
  block : Nat
  priorBlock : Option Nat
  nextBlock : Option Nat
  isConnectedTo : Host → Bool
  qpInfo : Host → Option QPInfo

structure Channels (W : Type) where
  connectQp : W → Nat → Bool → Option Nat → Option QPInfo → Retval × W
  addControlPlaneRule : W → Nat → Except String W

section
variable {W : Type} (channels : Channels W)

def connectLoop (block : Nat) : List (Bool × Option Nat × Option QPInfo) → W → Retval × W
  | [], world => (.NICC_SUCCESS, world)
  | (isPrior, neighbour, qpInfo) :: rest, world =>
      let (retval, world) := channels.connectQp world block isPrior neighbour qpInfo
      if retval ≠ .NICC_SUCCESS then (retval, world) else connectLoop block rest world

/-- The blocks on the SoC and on the DPA connect their channel, up to the first failure. A block of
the flow engine has none. -/
def connectToNeighbour (componentId : Nat) (ask : Ask) (world : W) : Retval × W :=
  if componentId = kComponent_FlowEngine then (.NICC_ERROR_NOT_IMPLEMENTED, world)
  else
    connectLoop channels ask.block
      ((if ask.isConnectedTo .remoteHost then [(true, none, ask.qpInfo .remoteHost)] else []) ++
      (if ask.isConnectedTo .localHost then [(false, none, ask.qpInfo .localHost)] else []) ++
      (if ask.priorBlock.isSome then [(true, ask.priorBlock, none)] else []) ++
      (if ask.nextBlock.isSome then [(false, ask.nextBlock, none)] else [])) world

/-- The variables of the loop, with every call of `connect_to_neighbour` and what it answered, and
with the messages sent to each host. -/
structure Links (W : Type) where
  world : W
  isConnectedTo : Host → Bool
  priorBlock : Option (Nat × Block)
  asks : List (Ask × Retval)
  sent : Host → List (List Char)

def Links.start (world : W) : Links W := ⟨world, fun _ => false, none, [], fun _ => []⟩

inductive Outcome
  | returned (retval : Retval)
  | thrown (text : String)
  | conversion (error : StoiError)

namespace Links

def ask (links : Links W) (block : Block) (ask : Ask) : Retval × Links W :=
  let (retval, world) := connectToNeighbour channels block.componentId ask links.world
  (retval, { links with world := world, asks := links.asks ++ [(ask, retval)] })

/-- The flags are set for the hosts that name the block. They are never cleared. -/
def flag (connectTo : Host → List String) (links : Links W) (block : Block) : Links W :=
  { links with isConnectedTo := fun host =>
      links.isConnectedTo host || decide (block.blockName ∈ connectTo host) }

def complete (links : Links W) (block : Block) : Links W :=
  { links with sent := fun host =>
      if links.isConnectedTo host then
        links.sent host ++ [serialize (block.getQpInfo host.isPrior)]
      else links.sent host }

def linkPrior (links : Links W) (i : Nat) : Except (Outcome × Links W) (Links W) :=
  match links.priorBlock with
  | none => .ok links
  | some (j, prior) =>
      let (retval, links) := links.ask channels prior
        { block := j, priorBlock := none, nextBlock := some i
          isConnectedTo := fun _ => false, qpInfo := fun _ => none }
      if retval ≠ .NICC_SUCCESS then .error (.returned retval, links) else .ok links

def addRule (links : Links W) (i : Nat) (block : Block) : Except (Outcome × Links W) (Links W) :=
  if block.componentId = kComponent_DPA then
    match channels.addControlPlaneRule links.world i with
    | .error text => .error (.thrown text, links)
    -- What the rule answers is not looked at.
    | .ok world => .ok { links with world := world }
  else .ok links

end Links

def connectBlock (connectTo : Host → List String) (hostQpInfo : Host → QPInfo) (links : Links W)
    (current : Block × Nat) : Except (Outcome × Links W) (Links W) :=
  let (block, i) := current
  let links := links.flag connectTo block
  let (retval, links) := links.ask channels block
    { block := i, priorBlock := links.priorBlock.map (·.1), nextBlock := none
      isConnectedTo := links.isConnectedTo, qpInfo := fun host => some (hostQpInfo host) }
  if retval ≠ .NICC_SUCCESS then .error (.returned retval, links)
  else do
    let links ← (links.complete block).linkPrior channels i
    Links.addRule channels { links with priorBlock := some (i, block) } i block

def connectBlocks (connectTo : Host → List String) (hostQpInfo : Host → QPInfo)
    (blocks : List Block) (links : Links W) : Outcome × Links W :=
  match run (connectBlock channels connectTo hostQpInfo) links blocks.zipIdx with
  | .error stopped => stopped
  | .ok links =>
      if links.isConnectedTo .remoteHost && links.isConnectedTo .localHost then
        (.returned .NICC_SUCCESS, links)
      else (.thrown "SHUTDOWN BY NICC ERROR", links)

/-- The function, with the messages that the two hosts have sent. It leaves its log behind however it
ends. -/
def buildChannelConnections (connectTo : Host → List String) (blocks : List Block)
    (received : Host → List Char) (world : W) : Outcome × Links W :=
  let links := Links.start world
  match deserialize zeroed (received .localHost) with
  | .error e => (.conversion e, links)
  | .ok localHostQpInfo =>
      match deserialize zeroed (received .remoteHost) with
      | .error e => (.conversion e, links)
      | .ok remoteHostQpInfo =>
          let hostQpInfo : Host → QPInfo
            | .remoteHost => remoteHostQpInfo
            | .localHost => localHostQpInfo
          connectBlocks channels connectTo hostQpInfo blocks links

end

def named (connectTo : List String) (block : Block) : Bool := decide (block.blockName ∈ connectTo)

def heard (connectTo : List String) (blocks : List Block) : Bool := blocks.any (named connectTo)

def message (host : Host) (block : Block) : List Char :=
  serialize (block.getQpInfo host.isPrior)

variable {W : Type} {channels : Channels W} {connectTo : Host → List String}
  {hostQpInfo : Host → QPInfo}

structure Traced (connectTo : Host → List String) (done : List Block) (links : Links W) : Prop where
  flags : ∀ host, links.isConnectedTo host = heard (connectTo host) done
  sent : ∀ host, links.sent host =
    (done.dropWhile fun block => !named (connectTo host) block).map (message host)
  own : ∀ answer ∈ links.asks, answer.1.nextBlock = none →
    answer.1.block < done.length ∧ ∀ host,
      answer.1.isConnectedTo host = heard (connectTo host) (done.take (answer.1.block + 1))
  link : ∀ answer ∈ links.asks, answer.1.nextBlock ≠ none → ∀ host,
    answer.1.isConnectedTo host = false

def Failed (links : Links W) : Prop := ∃ answer ∈ links.asks, answer.2 ≠ .NICC_SUCCESS

theorem Traced.start (world : W) : Traced connectTo [] (Links.start world) where
  flags _ := rfl
  sent _ := rfl
  own _ member := absurd member List.not_mem_nil
  link _ member := absurd member List.not_mem_nil

theorem heard_snoc (connectTo : List String) (done : List Block) (block : Block) :
    heard connectTo (done ++ [block]) = (heard connectTo done || named connectTo block) := by
  simp [heard]

theorem sent_snoc (connectTo : List String) (done : List Block) (block : Block) :
    (done ++ [block]).dropWhile (fun b => !named connectTo b) =
      if heard connectTo (done ++ [block]) then
        (done.dropWhile fun b => !named connectTo b) ++ [block]
      else done.dropWhile fun b => !named connectTo b := by
  simp only [heard_snoc, List.dropWhile_append, List.isEmpty_iff]
  by_cases before : heard connectTo done = true
  · have some : done.dropWhile (fun b => !named connectTo b) ≠ [] := by
      simpa [heard] using before
    rw [if_neg some, before, Bool.true_or, if_pos rfl]
  · have none : done.dropWhile (fun b => !named connectTo b) = [] := by
      simpa [heard] using before
    rw [none, if_pos rfl, Bool.not_eq_true _ |>.mp before, Bool.false_or]
    cases here : named connectTo block <;> simp [here]

theorem Traced.round {done : List Block} {links : Links W} (traced : Traced connectTo done links)
    (block : Block) {ask : Ask} (at' : ask.block = done.length) (last : ask.nextBlock = none)
    (flags : ask.isConnectedTo = (links.flag connectTo block).isConnectedTo) :
    Traced connectTo (done ++ [block])
      (((links.flag connectTo block).ask channels block ask).2.complete block) := by
  have flagged : ∀ host, (links.flag connectTo block).isConnectedTo host =
      heard (connectTo host) (done ++ [block]) := by
    intro host
    rw [heard_snoc, ← traced.flags]
    rfl
  refine ⟨flagged, fun host => ?_, ?_, ?_⟩
  · have sends : (((links.flag connectTo block).ask channels block ask).2.complete block).sent host =
        if (links.flag connectTo block).isConnectedTo host then
          links.sent host ++ [message host block] else links.sent host := rfl
    rw [sends, sent_snoc, flagged, traced.sent]
    split_ifs
    · rw [List.map_append]
      rfl
    · rfl
  · intro answer member own
    rcases List.mem_append.mp member with old | new
    · obtain ⟨inside, same⟩ := traced.own answer old own
      refine ⟨by rw [List.length_append]; omega, fun host => ?_⟩
      rw [same, List.take_append_of_le_length inside]
    · obtain rfl := List.mem_singleton.mp new
      refine ⟨by simp [at'], fun host => ?_⟩
      rw [List.take_of_length_le (by simp [at']), flags, flagged]
  · intro answer member next
    rcases List.mem_append.mp member with old | new
    · exact traced.link answer old next
    · obtain rfl := List.mem_singleton.mp new
      exact absurd last next

theorem Traced.linked {done : List Block} {links : Links W} (traced : Traced connectTo done links)
    (block : Block) {ask : Ask} (next : ask.nextBlock ≠ none)
    (silent : ∀ host, ask.isConnectedTo host = false) :
    Traced connectTo done (links.ask channels block ask).2 := by
  refine ⟨traced.flags, traced.sent, ?_, ?_⟩
  · intro answer member own
    rcases List.mem_append.mp member with old | new
    · exact traced.own answer old own
    · obtain rfl := List.mem_singleton.mp new
      exact absurd own next
  · intro answer member someNext
    rcases List.mem_append.mp member with old | new
    · exact traced.link answer old someNext
    · obtain rfl := List.mem_singleton.mp new
      exact silent

theorem ask_failed {links : Links W} {block : Block} {ask : Ask}
    (refused : (links.ask channels block ask).1 ≠ .NICC_SUCCESS) :
    Failed (links.ask channels block ask).2 :=
  ⟨_, List.mem_append_right _ List.mem_cons_self, refused⟩

theorem linkPrior_ok {done : List Block} {links after : Links W} {i : Nat}
    (traced : Traced connectTo done links) (linked : links.linkPrior channels i = .ok after) :
    Traced connectTo done after := by
  rw [Links.linkPrior] at linked
  cases prior : links.priorBlock with
  | none =>
      rw [prior] at linked
      cases linked
      exact traced
  | some entry =>
      simp only [prior] at linked
      split_ifs at linked
      cases linked
      exact traced.linked entry.2 (by simp) fun _ => rfl

theorem linkPrior_error {links : Links W} {i : Nat} {stopped : Outcome × Links W}
    (failed : links.linkPrior channels i = .error stopped) : Failed stopped.2 := by
  rw [Links.linkPrior] at failed
  cases prior : links.priorBlock with
  | none =>
      rw [prior] at failed
      cases failed
  | some entry =>
      simp only [prior] at failed
      split_ifs at failed with refused
      cases failed
      exact ask_failed refused

theorem addRule_ok {done : List Block} {links after : Links W} {i : Nat} {block : Block}
    (traced : Traced connectTo done links) (added : links.addRule channels i block = .ok after) :
    Traced connectTo done after := by
  rw [Links.addRule] at added
  split_ifs at added
  · split at added
    · cases added
    · cases added
      exact ⟨traced.flags, traced.sent, traced.own, traced.link⟩
  · cases added
    exact traced

theorem addRule_error {done : List Block} {links : Links W} {i : Nat} {block : Block}
    {stopped : Outcome × Links W} (traced : Traced connectTo done links)
    (failed : links.addRule channels i block = .error stopped) :
    Traced connectTo done stopped.2 := by
  rw [Links.addRule] at failed
  split_ifs at failed
  split at failed
  · cases failed
    exact traced
  · cases failed

theorem connectBlock_traced (channels : Channels W) (hostQpInfo : Host → QPInfo)
    {done : List Block} {links : Links W} (traced : Traced connectTo done links)
    (block : Block) :
    (∀ after, connectBlock channels connectTo hostQpInfo links (block, done.length) = .ok after →
      Traced connectTo (done ++ [block]) after) ∧
    ∀ stopped, connectBlock channels connectTo hostQpInfo links (block, done.length) =
      .error stopped → Failed stopped.2 ∨ Traced connectTo (done ++ [block]) stopped.2 := by
  let ask : Ask := {
    block := done.length, priorBlock := links.priorBlock.map (·.1), nextBlock := none
    isConnectedTo := (links.flag connectTo block).isConnectedTo
    qpInfo := fun host => some (hostQpInfo host) }
  have rounded : Traced connectTo (done ++ [block])
      (((links.flag connectTo block).ask channels block ask).2.complete block) :=
    traced.round block rfl rfl rfl
  have unfolded : connectBlock channels connectTo hostQpInfo links (block, done.length) =
      if ((links.flag connectTo block).ask channels block ask).1 ≠ .NICC_SUCCESS then
        .error (.returned ((links.flag connectTo block).ask channels block ask).1,
          ((links.flag connectTo block).ask channels block ask).2)
      else
        (((links.flag connectTo block).ask channels block ask).2.complete block).linkPrior
            channels done.length >>= fun links =>
          Links.addRule channels { links with priorBlock := some (done.length, block) }
            done.length block := rfl
  rw [unfolded]
  split_ifs with refused
  · refine ⟨fun _ ran => (by cases ran), fun stopped ran => .inl ?_⟩
    cases ran
    exact ask_failed refused
  · cases linked : (((links.flag connectTo block).ask channels block ask).2.complete block).linkPrior
        channels done.length with
    | error stopped =>
        refine ⟨fun _ ran => (by cases ran), fun stopped' ran => .inl ?_⟩
        cases ran
        exact linkPrior_error linked
    | ok next =>
        have kept := linkPrior_ok rounded linked
        have moved : Traced connectTo (done ++ [block])
            { next with priorBlock := some (done.length, block) } :=
          ⟨kept.flags, kept.sent, kept.own, kept.link⟩
        exact ⟨fun after ran => addRule_ok moved ran, fun stopped ran => .inr (addRule_error moved ran)⟩

theorem run_traced {done rest : List Block} {links : Links W}
    (traced : Traced connectTo done links) :
    (∀ after, run (connectBlock channels connectTo hostQpInfo) links (rest.zipIdx done.length) =
      .ok after → Traced connectTo (done ++ rest) after) ∧
    ∀ stopped, run (connectBlock channels connectTo hostQpInfo) links (rest.zipIdx done.length) =
      .error stopped → Failed stopped.2 ∨
        ∃ front, front <+: rest ∧ Traced connectTo (done ++ front) stopped.2 := by
  induction rest generalizing done links with
  | nil =>
      refine ⟨fun after ran => ?_, fun stopped ran => (by cases ran)⟩
      cases ran
      rwa [List.append_nil]
  | cons block rest ih =>
      obtain ⟨steps, stops⟩ := connectBlock_traced channels hostQpInfo traced block
      have shape : done ++ block :: rest = done ++ [block] ++ rest := by simp
      rw [List.zipIdx_cons, run, List.foldlM_cons, shape]
      cases first : connectBlock channels connectTo hostQpInfo links (block, done.length) with
      | error stopped =>
          refine ⟨fun _ ran => (by cases ran), fun stopped' ran => ?_⟩
          cases ran
          rcases stops stopped first with failed | here
          · exact .inl failed
          · exact .inr ⟨[block], ⟨rest, rfl⟩, here⟩
      | ok next =>
          have later := ih (steps next first)
          rw [List.length_append, List.length_singleton] at later
          refine ⟨fun after ran => later.1 after ran, fun stopped ran => ?_⟩
          rcases later.2 stopped ran with failed | ⟨front, inside, here⟩
          · exact .inl failed
          · refine .inr ⟨block :: front, List.cons_prefix_cons.mpr ⟨rfl, inside⟩, ?_⟩
            rwa [List.append_assoc] at here

structure CallsSucceed (blocks : List Block) (links : Links W) : Prop where
  made : ∀ i < blocks.length, ∃ answer ∈ links.asks,
    answer.1.block = i ∧ answer.1.nextBlock = none
  success : ∀ answer ∈ links.asks, answer.2 = .NICC_SUCCESS

/-- The blocks that a host names, and they alone, are asked to connect to it and are announced to it,
in their order. -/
structure ConnectedAsNamed (connectTo : Host → List String) (blocks : List Block) (links : Links W) :
    Prop where
  asked : ∀ host i block, blocks[i]? = some block →
    ((∃ answer ∈ links.asks, answer.1.block = i ∧ answer.1.isConnectedTo host = true) ↔
      block.blockName ∈ connectTo host)
  sent : ∀ host, links.sent host =
    (blocks.filter (named (connectTo host))).map (message host)

def NamedLast (connectTo : List String) (blocks : List Block) : Prop :=
  blocks.Pairwise fun earlier later =>
    earlier.blockName ∈ connectTo → later.blockName ∈ connectTo

theorem connectBlocks_traced {blocks : List Block} {links : Links W}
    (begun : Traced connectTo [] links) :
    Failed (connectBlocks channels connectTo hostQpInfo blocks links).2 ∨
      ∃ front, front <+: blocks ∧
        Traced connectTo front (connectBlocks channels connectTo hostQpInfo blocks links).2 := by
  rw [connectBlocks]
  split
  · rename_i stopped ran
    exact (run_traced begun).2 stopped ran
  · rename_i after ran
    have all := (run_traced begun).1 after ran
    split_ifs
    · exact .inr ⟨blocks, List.prefix_rfl, all⟩
    · exact .inr ⟨blocks, List.prefix_rfl, all⟩

theorem build_traced {blocks : List Block} {received : Host → List Char} {world : W}
    {links : Links W}
    (built : (buildChannelConnections channels connectTo blocks received world).2 = links)
    (succeed : CallsSucceed blocks links) : Traced connectTo blocks links := by
  have settled : Failed links ∨ ∃ front, front <+: blocks ∧ Traced connectTo front links := by
    have begun : Traced connectTo [] (Links.start world) := Traced.start world
    rw [← built, buildChannelConnections]
    split
    · exact .inr ⟨[], List.nil_prefix, begun⟩
    · split
      · exact .inr ⟨[], List.nil_prefix, begun⟩
      · exact connectBlocks_traced begun
  rcases settled with ⟨answer, member, failed⟩ | ⟨front, inside, traced⟩
  · exact absurd (succeed.success answer member) failed
  · have reached : blocks.length ≤ front.length := by
      by_contra short
      obtain ⟨answer, member, at', own⟩ := succeed.made front.length (Nat.not_le.mp short)
      have within := (traced.own answer member own).1
      omega
    rwa [← inside.eq_of_length_le reached]

theorem asked_iff {blocks : List Block} {links : Links W} (traced : Traced connectTo blocks links)
    (succeed : CallsSucceed blocks links) (host : Host) {i : Nat} (inside : i < blocks.length) :
    (∃ answer ∈ links.asks, answer.1.block = i ∧ answer.1.isConnectedTo host = true) ↔
      heard (connectTo host) (blocks.take (i + 1)) = true := by
  constructor
  · rintro ⟨answer, member, rfl, set⟩
    by_cases own : answer.1.nextBlock = none
    · rwa [(traced.own answer member own).2] at set
    · rw [traced.link answer member own] at set
      cases set
  · intro set
    obtain ⟨answer, member, rfl, own⟩ := succeed.made i inside
    exact ⟨answer, member, rfl, by rwa [(traced.own answer member own).2]⟩

theorem filter_of_namedLast {connectTo : List String} {blocks : List Block}
    (last : NamedLast connectTo blocks) :
    blocks.dropWhile (fun block => !named connectTo block) = blocks.filter (named connectTo) := by
  induction blocks with
  | nil => rfl
  | cons block rest ih =>
      obtain ⟨first, later⟩ := List.pairwise_cons.mp last
      cases here : named connectTo block with
      | false =>
          rw [List.dropWhile_cons, List.filter_cons, here]
          exact ih later
      | true =>
          have all : ∀ b ∈ rest, named connectTo b = true := fun b member =>
            decide_eq_true (first b member (of_decide_eq_true here))
          rw [List.dropWhile_cons, List.filter_cons, here, List.filter_eq_self.mpr all]
          rfl

theorem heard_iff_of_namedLast {connectTo : List String} {blocks : List Block}
    (last : NamedLast connectTo blocks) {i : Nat} {block : Block} (found : blocks[i]? = some block) :
    heard connectTo (blocks.take (i + 1)) = true ↔ block.blockName ∈ connectTo := by
  obtain ⟨inside, rfl⟩ := List.getElem?_eq_some_iff.mp found
  constructor
  · intro set
    obtain ⟨b, member, here⟩ := List.any_eq_true.mp set
    obtain ⟨j, before, rfl⟩ := List.mem_take_iff_getElem.mp member
    have name : blocks[j].blockName ∈ connectTo := of_decide_eq_true here
    rcases Nat.lt_or_eq_of_le (by omega : j ≤ i) with earlier | rfl
    · exact List.pairwise_iff_getElem.mp last j i _ inside earlier name
    · exact name
  · intro name
    refine List.any_eq_true.mpr ⟨blocks[i], ?_, decide_eq_true name⟩
    exact List.mem_take_iff_getElem.mpr ⟨i, by omega, rfl⟩

theorem namedLast_of_heard {connectTo : List String} {blocks : List Block}
    (heardIff : ∀ i block, blocks[i]? = some block →
      heard connectTo (blocks.take (i + 1)) = true → block.blockName ∈ connectTo) :
    NamedLast connectTo blocks := by
  refine List.pairwise_iff_getElem.mpr fun i j before inside earlier name => ?_
  refine heardIff j _ (List.getElem?_eq_getElem inside) (List.any_eq_true.mpr ?_)
  exact ⟨blocks[i], List.mem_take_iff_getElem.mpr ⟨i, by omega, rfl⟩, decide_eq_true name⟩

/-- The connections are those that the hosts name exactly when, for each host, the blocks that it
names are the last ones of the pipeline. -/
theorem connectedAsNamed_iff (channels : Channels W) (connectTo : Host → List String)
    (blocks : List Block) (received : Host → List Char) (world : W)
    (succeed : CallsSucceed blocks
      (buildChannelConnections channels connectTo blocks received world).2) :
    ConnectedAsNamed connectTo blocks
        (buildChannelConnections channels connectTo blocks received world).2 ↔
      ∀ host, NamedLast (connectTo host) blocks := by
  have traced := build_traced rfl succeed
  constructor
  · intro connected host
    refine namedLast_of_heard fun i block found set => ?_
    have inside := (List.getElem?_eq_some_iff.mp found).1
    exact (connected.asked host i block found).mp ((asked_iff traced succeed host inside).mpr set)
  · intro last
    refine ⟨fun host i block found => ?_, fun host => ?_⟩
    · have inside := (List.getElem?_eq_some_iff.mp found).1
      rw [asked_iff traced succeed host inside]
      exact heard_iff_of_namedLast (last host) found
    · rw [traced.sent, filter_of_namedLast (last host)]

theorem connectedAsNamed_last :
    let channels : Channels Unit := ⟨fun _ _ _ _ _ => (.NICC_SUCCESS, ()), fun _ _ => .ok ()⟩
    let blocks : List Block :=
      [⟨"dpa", kComponent_DPA, zeroed, zeroed⟩, ⟨"soc", kComponent_SoC, zeroed, zeroed⟩]
    let connectTo : Host → List String := fun _ => ["soc"]
    ConnectedAsNamed connectTo blocks
      (buildChannelConnections channels connectTo blocks (fun _ => "qp_num:7".toList) ()).2 := by
  intro channels blocks connectTo
  have succeed : CallsSucceed blocks
      (buildChannelConnections channels connectTo blocks (fun _ => "qp_num:7".toList) ()).2 :=
    ⟨by decide, by decide⟩
  refine (connectedAsNamed_iff channels connectTo blocks _ () succeed).mpr fun host => ?_
  exact List.pairwise_pair.mpr fun _ => by decide

theorem first_block_named :
    let channels : Channels Unit := ⟨fun _ _ _ _ _ => (.NICC_SUCCESS, ()), fun _ _ => .ok ()⟩
    let blocks : List Block :=
      [⟨"dpa", kComponent_DPA, zeroed, zeroed⟩, ⟨"soc", kComponent_SoC, zeroed, zeroed⟩]
    let connectTo : Host → List String
      | .remoteHost => ["dpa"]
      | .localHost => ["soc"]
    let links := (buildChannelConnections channels connectTo blocks (fun _ => "qp_num:7".toList) ()).2
    CallsSucceed blocks links ∧ (links.sent .remoteHost).length = 2 ∧
      ¬ ConnectedAsNamed connectTo blocks links := by
  intro channels blocks connectTo links
  have two : (links.sent .remoteHost).length = 2 := rfl
  refine ⟨⟨by decide, by decide⟩, two, fun connected => ?_⟩
  rw [connected.sent] at two
  cases two

end Nicc.Pipeline

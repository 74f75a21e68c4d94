import Nicc.Lib.Memory
import Nicc.Soc.UserState

namespace Nicc.Soc
open Lib

abbrev Content := Nat → UInt8

structure MyAppState where
  messageCounter : Int
  processingBuffer : Content
  isInitialized : Bool

def MyAppState.new : MyAppState := ⟨0, fun _ => 0, false⟩

def sizeofProcessingBuffer : Nat := 1024

def socInitHandler (sizeofMyAppState : Nat) : UserStateInfo MyAppState :=
  ⟨some { MyAppState.new with messageCounter := 0, isInitialized := true }, sizeofMyAppState⟩

def keepShort (buffer : Content) (length : Nat) (frame : Content) : Content :=
  if length < sizeofProcessingBuffer then storeAt buffer 0 (readAt frame 0 length) else buffer

def socMsgHandler (msg : Msg Content) : Option MyAppState → Reply Content MyAppState
  | none => ⟨.NICC_ERROR, msg.frame, none⟩
  | some state =>
      if state.isInitialized then
        ⟨.NICC_SUCCESS, msg.frame, some { state with
          messageCounter := Int.bmod (state.messageCounter + 1) (2 ^ 32)
          processingBuffer := keepShort state.processingBuffer msg.buffer.length msg.frame }⟩
      else ⟨.NICC_ERROR, msg.frame, some state⟩

theorem socMsgHandler_isSome (msg : Msg Content) (state : Option MyAppState) :
    (socMsgHandler msg state).state.isSome = state.isSome := by
  cases state with
  | none => rfl
  | some state =>
      rw [socMsgHandler]
      split_ifs <;> rfl

theorem socMsgHandler_frame (msg : Msg Content) (state : Option MyAppState) :
    (socMsgHandler msg state).frame = msg.frame := by
  cases state with
  | none => rfl
  | some state =>
      rw [socMsgHandler]
      split_ifs <;> rfl

def socEcho (sizeofMyAppState : Nat) : UserHandlers Content MyAppState where
  initHandler := some (socInitHandler sizeofMyAppState)
  msgHandler := some socMsgHandler
  cleanupHandler := true
  keeps handler registered msg state := by
    cases registered
    exact socMsgHandler_isSome msg state

theorem socEcho_counts (size : Nat) (msg : Msg Content) (counter : Int) (buffer : Content) :
    ((socEcho size).reply msg (some ⟨counter, buffer, true⟩)).state =
      some ⟨Int.bmod (counter + 1) (2 ^ 32), keepShort buffer msg.buffer.length msg.frame, true⟩ := rfl

theorem socEcho_stateAfter (size : Nat) (msgs : List (Msg Content)) :
    (socEcho size).stateAfter msgs = some {
      messageCounter := Int.bmod msgs.length (2 ^ 32)
      processingBuffer :=
        msgs.foldl (fun buffer msg => keepShort buffer msg.buffer.length msg.frame) fun _ => 0
      isInitialized := true } := by
  induction msgs using List.reverseRecOn with
  | nil => rfl
  | append_singleton msgs msg ih =>
      have counted : Int.bmod (Int.bmod msgs.length (2 ^ 32) + 1) (2 ^ 32) =
          Int.bmod (msgs ++ [msg]).length (2 ^ 32) := by
        rw [Int.bmod_add_bmod, List.length_append, List.length_singleton, Nat.cast_add, Nat.cast_one]
      rw [UserHandlers.stateAfter_snoc, ih, socEcho_counts, counted, List.foldl_append,
        List.foldl_cons, List.foldl_nil]

theorem socEcho_transcript (size : Nat) (msgs : List (Msg Content)) :
    (socEcho size).transcript msgs = msgs.map fun msg => ⟨msg.frame, msg.frame⟩ := by
  induction msgs using List.reverseRecOn with
  | nil => rfl
  | append_singleton msgs msg ih =>
      have same : ((socEcho size).reply msg ((socEcho size).stateAfter msgs)).frame = msg.frame :=
        socMsgHandler_frame msg _
      rw [UserHandlers.transcript_snoc, ih, same, List.map_append]
      rfl

theorem told_frames {sent : List (Received Content)} {told : List (Msg Content)}
    (tells : List.Forall₂ Tells sent told) : told.map Msg.frame = frames sent := by
  induction tells with
  | nil => rfl
  | cons first rest ih => exact congrArg₂ List.cons first.frame ih

theorem told_kept {sent : List (Received Content)} {told : List (Msg Content)}
    (tells : List.Forall₂ Tells sent told) (buffer : Content) :
    told.foldl (fun buffer msg => keepShort buffer msg.buffer.length msg.frame) buffer =
      sent.foldl (fun buffer p => keepShort buffer p.completion.byteLen p.completion.frame)
        buffer := by
  induction tells generalizing buffer with
  | nil => rfl
  | cons first rest ih =>
      rw [List.foldl_cons, List.foldl_cons, first.length, first.frame]
      exact ih _

structure Echoed (size : Nat) (w : Wrapper Content MyAppState)
    (sent waiting : List (Received Content)) : Prop where
  received : (w.soc.recv .prior).received = sent ++ waiting
  backlog : waiting.length ≤ kAppRxMsgBatchSize
  posted : (w.soc.send .next).posted = List.zipWith sentAs sent (frames sent)
  cleanedUp : (w.finish (socEcho size)).cleanedUp = [{
    messageCounter := Int.bmod sent.length (2 ^ 32)
    processingBuffer := sent.foldl
      (fun buffer p => keepShort buffer p.completion.byteLen p.completion.frame) fun _ => 0
    isInitialized := true }]

theorem echoes {size : Nat} {raw : Buffer BufPtr} {mem : Nat → Content} {s : SoC Content}
    (started : SoC.channelSoC raw mem = .ok s) {nics : List (NicAnswers Content)}
    (polled : ∀ n ∈ nics, n.Polled) {w : Wrapper Content MyAppState}
    (ran : run (Wrapper.launch (socEcho size)) (Wrapper.start (socEcho size) s) nics = .ok w) :
    ∃ sent waiting, Echoed size w sent waiting ∧
      Answered w.soc (nics.map NicAnswers.alone) sent := by
  obtain ⟨rx, tx, boundary, shown, answered⟩ := run_shown (socEcho size) started polled ran
  have forwarded := boundary.forwarded
  have lane := boundary.rx.forward.lane
  have tells := shown.each (by
    rw [lane.input.received]
    exact lane.ordered.worked_completed)
  refine ⟨_, _, ⟨forwarded.received, forwarded.backlog, ?_, ?_⟩, answered⟩
  · rw [forwarded.toNext, shown.handled, socEcho_transcript, List.map_map, ← told_frames tells]
    rfl
  · rw [finish_cleanedUp shown.untouched, shown.state, socEcho_stateAfter, told_kept tells,
      ← tells.length_eq]
    rfl

theorem echoes_forty : ∃ (s : SoC Content) (w : Wrapper Content MyAppState)
    (sent waiting : List (Received Content)), SoC.channelSoC (.new 0 0 0) (fun _ _ => 0) = .ok s ∧
      run (Wrapper.launch (socEcho 1048)) (Wrapper.start (socEcho 1048) s)
        [Rest.start.nicAnswers (List.replicate 40 ⟨64, fun _ => 7⟩) []] = .ok w ∧
      Echoed 1048 w sent waiting ∧ (w.soc.recv .prior).received.length = 40 ∧
      (w.soc.send .next).posted.length = 40 := by
  obtain ⟨s, started, -⟩ := channelSoC_built (.new 0 0 0) (fun _ _ => 0 : Nat → Content)
  have boundary := channelSoC_boundary started
  rw [← start_soc (socEcho 1048) s] at boundary
  obtain ⟨w, launched⟩ := wrapper_launch_runs (socEcho 1048) boundary
    (List.replicate 40 ⟨64, fun _ => 7⟩) [] (by simp [kRxBatchSize]) (by decide)
    (by simp [Rest.start, kNumRxRingEntries]) (by decide)
  have ran : run (Wrapper.launch (socEcho 1048)) (Wrapper.start (socEcho 1048) s)
      [Rest.start.nicAnswers (List.replicate 40 ⟨64, fun _ => 7⟩) []] = .ok w :=
    run_cons_ok.mpr ⟨w, launched, rfl⟩
  obtain ⟨sent, waiting, echoed, answered⟩ := echoes started (fun n member => by
    rw [List.mem_singleton.mp member]
    exact Rest.start.answers_polled _ _ (by simp [kRxBatchSize]) (by decide)) ran
  refine ⟨s, w, sent, waiting, started, ran, echoed, answered.received .prior, ?_⟩
  rw [echoed.posted, List.length_zipWith, frames, List.length_map, Nat.min_self]
  exact answered.sent

end Nicc.Soc

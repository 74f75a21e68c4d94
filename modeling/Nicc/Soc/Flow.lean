import Nicc.Soc.Lane

namespace Nicc.Soc
open Lib

@[simp] theorem Side.other_other (d : Side) : d.other.other = d := by cases d <;> rfl

theorem Side.other_ne (d : Side) : d.other ≠ d := by cases d <;> decide

namespace SoC

variable {α : Type}

def slots (s : SoC α) (d : Side) : Nat → Buffer BufPtr := fun i => s.bufs ⟨d, i⟩

def memory (s : SoC α) (l : Layout) (d : Side) : Nat → α := fun i => s.mem (l.addr d i)

section
variable (s : SoC α) (d : Side) (l : Layout)

@[simp] theorem setRecv_recv (r : RecvHalf α) : (s.setRecv d r).recv d = r :=
  Function.update_self ..

@[simp] theorem setRecv_recv_other (r : RecvHalf α) :
    (s.setRecv d r).recv d.other = s.recv d.other := Function.update_of_ne d.other_ne _ _

@[simp] theorem setRecv_send (r : RecvHalf α) : (s.setRecv d r).send = s.send := rfl

@[simp] theorem setRecv_bufs (r : RecvHalf α) : (s.setRecv d r).bufs = s.bufs := rfl

@[simp] theorem setRecv_slots (r : RecvHalf α) : (s.setRecv d r).slots = s.slots := rfl

@[simp] theorem setRecv_memory (r : RecvHalf α) : (s.setRecv d r).memory = s.memory := rfl

@[simp] theorem setSend_send (t : SendHalf α) : (s.setSend d t).send d = t :=
  Function.update_self ..

@[simp] theorem setSend_other (t : SendHalf α) : (s.setSend d.other t).send d = s.send d :=
  Function.update_of_ne d.other_ne.symm _ _

@[simp] theorem setSend_recv (t : SendHalf α) : (s.setSend d t).recv = s.recv := rfl

@[simp] theorem setSend_bufs (t : SendHalf α) : (s.setSend d t).bufs = s.bufs := rfl

@[simp] theorem setSend_slots (t : SendHalf α) : (s.setSend d t).slots = s.slots := rfl

@[simp] theorem setSend_memory (t : SendHalf α) : (s.setSend d t).memory = s.memory := rfl

@[simp] theorem setState_recv (p : BufPtr) (state : BufState) :
    (s.setState p state).recv = s.recv := rfl

@[simp] theorem setState_send (p : BufPtr) (state : BufState) :
    (s.setState p state).send = s.send := rfl

@[simp] theorem setState_memory (p : BufPtr) (state : BufState) :
    (s.setState p state).memory = s.memory := rfl

@[simp] theorem setState_slots (i : Nat) (state : BufState) :
    (s.setState ⟨d, i⟩ state).slots d = recolored (s.slots d) i state := by
  funext j
  by_cases same : j = i
  · subst same
    simp [slots, setState, recolored]
  · have apart : (⟨d, j⟩ : BufPtr) ≠ ⟨d, i⟩ := fun eq => same (BufPtr.mk.inj eq).2
    rw [recolored_of_ne same]
    exact Function.update_of_ne apart _ _

@[simp] theorem setState_slots_other (i : Nat) (state : BufState) :
    (s.setState ⟨d, i⟩ state).slots d.other = s.slots d.other := by
  funext j
  have apart : (⟨d.other, j⟩ : BufPtr) ≠ ⟨d, i⟩ := fun eq => d.other_ne (BufPtr.mk.inj eq).1
  exact Function.update_of_ne apart _ _

@[simp] theorem setLength_recv (p : BufPtr) (length : Nat) :
    (s.setLength p length).recv = s.recv := rfl

@[simp] theorem setLength_send (p : BufPtr) (length : Nat) :
    (s.setLength p length).send = s.send := rfl

@[simp] theorem setLength_memory (p : BufPtr) (length : Nat) :
    (s.setLength p length).memory = s.memory := rfl

@[simp] theorem setLength_slots (i length : Nat) :
    (s.setLength ⟨d, i⟩ length).slots d = resized (s.slots d) i length := by
  funext j
  by_cases same : j = i
  · subst same
    simp [slots, setLength, resized]
  · have apart : (⟨d, j⟩ : BufPtr) ≠ ⟨d, i⟩ := fun eq => same (BufPtr.mk.inj eq).2
    rw [resized_of_ne same]
    exact Function.update_of_ne apart _ _

@[simp] theorem setLength_slots_other (i length : Nat) :
    (s.setLength ⟨d, i⟩ length).slots d.other = s.slots d.other := by
  funext j
  have apart : (⟨d.other, j⟩ : BufPtr) ≠ ⟨d, i⟩ := fun eq => d.other_ne (BufPtr.mk.inj eq).1
  exact Function.update_of_ne apart _ _

@[simp] theorem setMem_memory (i : Nat) (frame : α) :
    (s.setMem (l.addr d i) frame).memory l d = Function.update (s.memory l d) i frame := by
  funext j
  by_cases same : j = i
  · subst same
    simp [memory, setMem]
  · have apart : l.addr d j ≠ l.addr d i := fun eq => same (l.addr_inj eq)
    simp only [memory, setMem, Function.update_of_ne same, Function.update_of_ne apart]

theorem setMem_memory_other (k j : Nat) (frame : α) :
    (s.setMem (l.addr d (slotOf k)) frame).memory l d.other (slotOf j) =
      s.memory l d.other (slotOf j) := by
  have apart : l.addr d.other (slotOf j) ≠ l.addr d (slotOf k) :=
    (l.addr_other (slotOf_lt k) (slotOf_lt j)).symm
  simp only [memory, setMem, Function.update_of_ne apart]

end

end SoC

variable {α : Type} {l : Layout} {d : Side} {s s' : SoC α} {left : List α} {c : Counts}

structure Lane (l : Layout) (d : Side) (s : SoC α) (left : List α) (c : Counts) : Prop where
  ordered : c.Ordered
  rings : Rings l d (s.recv d) (s.send d.other) (s.slots d)
  colors : Colors (s.slots d) c.freed c.posted
  input : Input l d (s.recv d) (s.slots d) (s.memory l d) left c
  output : Output d (s.recv d).received (s.send d.other) left c

structure Heads (d : Side) (s : SoC α) (c : Counts) : Prop where
  recvHead : (s.recv d).recvHead = slotOf c.posted
  ringHead : (s.recv d).ringHead = slotOf c.dispatched
  waitForDisp : c.dispatched + (s.recv d).waitForDisp = c.completed
  freeSendWrNum : (s.send d.other).freeSendWrNum + c.sent = c.freed + kNumTxRingEntries
  reaped : (s.send d.other).reaped = c.freed

structure SameLane (l : Layout) (d : Side) (s s' : SoC α) : Prop where
  recv : s'.recv d = s.recv d
  send : s'.send d.other = s.send d.other
  slots : s'.slots d = s.slots d
  memory : ∀ k, s'.memory l d (slotOf k) = s.memory l d (slotOf k)

structure SameWorker (s s' : SoC α) : Prop where
  rxQueue : s'.tmpWorkerRxQueue = s.tmpWorkerRxQueue
  txQueue : s'.tmpWorkerTxQueue = s.tmpWorkerTxQueue
  handled : s'.handled = s.handled
  fullBranches : s'.fullBranches = s.fullBranches

theorem SameLane.refl (l : Layout) (d : Side) (s : SoC α) : SameLane l d s s :=
  ⟨rfl, rfl, rfl, fun _ => rfl⟩

theorem SameLane.trans {s'' : SoC α} (first : SameLane l d s s') (second : SameLane l d s' s'') :
    SameLane l d s s'' where
  recv := second.recv.trans first.recv
  send := second.send.trans first.send
  slots := second.slots.trans first.slots
  memory k := (second.memory k).trans (first.memory k)

theorem SameWorker.refl (s : SoC α) : SameWorker s s := ⟨rfl, rfl, rfl, rfl⟩

theorem SameWorker.trans {s'' : SoC α} (first : SameWorker s s') (second : SameWorker s' s'') :
    SameWorker s s'' where
  rxQueue := second.rxQueue.trans first.rxQueue
  txQueue := second.txQueue.trans first.txQueue
  handled := second.handled.trans first.handled
  fullBranches := second.fullBranches.trans first.fullBranches

theorem Lane.same (lane : Lane l d s left c) (same : SameLane l d s s') : Lane l d s' left c := by
  obtain ⟨ordered, rings, colors, input, output⟩ := lane
  rw [← same.recv, ← same.send, ← same.slots] at rings
  rw [← same.slots] at colors
  rw [← same.recv, ← same.slots] at input
  rw [← same.recv, ← same.send] at output
  exact ⟨ordered, rings, colors, input.congr same.memory, output⟩

theorem Lane.waiting (lane : Lane l d s left c) (ringHead waitForDisp : Nat) :
    Lane l d (s.setRecv d { s.recv d with ringHead := ringHead, waitForDisp := waitForDisp }) left
      c := by
  refine ⟨lane.ordered, ?_, lane.colors, ?_, ?_⟩
  · rw [SoC.setRecv_recv]
    exact { lane.rings with }
  · rw [SoC.setRecv_recv]
    exact { lane.input with }
  · rw [SoC.setRecv_recv]
    exact { lane.output with }

theorem Heads.same (heads : Heads d s c) (same : SameLane l d s s') : Heads d s' c := by
  obtain ⟨recvHead, ringHead, waitForDisp, freeSendWrNum, reaped⟩ := heads
  rw [← same.recv] at recvHead ringHead waitForDisp
  rw [← same.send] at freeSendWrNum reaped
  exact ⟨recvHead, ringHead, waitForDisp, freeSendWrNum, reaped⟩

end Nicc.Soc

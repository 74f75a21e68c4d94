import Nicc.Soc.Queue
import Mathlib.Data.List.Infix

/-!
# One producer and one consumer on the worker queue

Every load and store of `head_`, `tail_` and a slot of `queue_` is a step of its own. A schedule
picks the party that moves next. Each party is in program order inside its own call.
-/

namespace Nicc.Soc.QueueSteps
open Lib

inductive Producer (α : Type) where
  | ready
  | compare (pkt : α) (nextTail : Nat)
  | index (pkt : α) (nextTail : Nat)
  | store (pkt : α) (nextTail slot : Nat)
  | publish (pkt : α) (nextTail : Nat)

inductive Consumer (α : Type) where
  | ready
  | compare (head : Nat)
  | index
  | read (slot : Nat)
  | advance (ret : Option α)
  | publish (ret : Option α) (nextHead : Nat)

inductive Return (α : Type) where
  | enqueue (pkt : α) (ok : Bool)
  | dequeue (ret : Option α)
  deriving DecidableEq

structure State (α : Type) where
  q : ShmQueue α
  producer : Producer α
  consumer : Consumer α
  returns : List (Return α)
  reads : List (Option α)

/-- Who moves. `pkt` is the argument of the next `enqueue` and is used when that call starts. -/
inductive Move (α : Type) where
  | producer (pkt : α)
  | consumer

variable {α : Type}

def stepProducer (s : State α) (next : α) : State α :=
  match s.producer with
  | .ready => { s with producer := .compare next ((s.q.tail + 1) &&& mask) }
  | .compare pkt nextTail =>
      if nextTail = s.q.head then
        { s with producer := .ready, returns := s.returns ++ [.enqueue pkt false] }
      else { s with producer := .index pkt nextTail }
  | .index pkt nextTail => { s with producer := .store pkt nextTail s.q.tail }
  | .store pkt nextTail slot =>
      { s with
        q := { s.q with queue := Function.update s.q.queue slot (some pkt) }
        producer := .publish pkt nextTail }
  | .publish pkt nextTail =>
      { s with
        q := { s.q with tail := nextTail }
        producer := .ready
        returns := s.returns ++ [.enqueue pkt true] }

def stepConsumer (s : State α) : State α :=
  match s.consumer with
  | .ready => { s with consumer := .compare s.q.head }
  | .compare head =>
      if head = s.q.tail then
        { s with consumer := .ready, returns := s.returns ++ [.dequeue none] }
      else { s with consumer := .index }
  | .index => { s with consumer := .read s.q.head }
  | .read slot =>
      { s with consumer := .advance (s.q.queue slot), reads := s.reads ++ [s.q.queue slot] }
  | .advance ret => { s with consumer := .publish ret ((s.q.head + 1) &&& mask) }
  | .publish ret nextHead =>
      { s with
        q := { s.q with head := nextHead }
        consumer := .ready
        returns := s.returns ++ [.dequeue ret] }

def step (s : State α) : Move α → State α
  | .producer pkt => stepProducer s pkt
  | .consumer => stepConsumer s

def start : State α := ⟨.new, .ready, .ready, [], []⟩

def interleave (moves : List (Move α)) : State α := moves.foldl step start

def accepted (returns : List (Return α)) : List α :=
  returns.filterMap fun | .enqueue pkt true => some pkt | _ => none

def dequeued (returns : List (Return α)) : List α :=
  returns.filterMap fun | .dequeue ret => ret | _ => none

section Logs

variable (rs : List (Return α)) (pkt : α)

@[simp] theorem accepted_true : accepted (rs ++ [.enqueue pkt true]) = accepted rs ++ [pkt] := by
  simp [accepted]

@[simp] theorem accepted_false : accepted (rs ++ [.enqueue pkt false]) = accepted rs := by
  simp [accepted]

@[simp] theorem accepted_dequeue (ret : Option α) :
    accepted (rs ++ [.dequeue ret]) = accepted rs := by
  simp [accepted]

@[simp] theorem dequeued_enqueue (ok : Bool) :
    dequeued (rs ++ [.enqueue pkt ok]) = dequeued rs := by
  simp [dequeued]

@[simp] theorem dequeued_some : dequeued (rs ++ [.dequeue (some pkt)]) = dequeued rs ++ [pkt] := by
  simp [dequeued]

@[simp] theorem dequeued_none : dequeued (rs ++ [.dequeue none]) = dequeued rs := by
  simp [dequeued]

end Logs

def outstanding (s : State α) : Nat := (accepted s.returns).length - (dequeued s.returns).length

/-- What a correct bounded queue guarantees to its two parties, in one state of a run. -/
structure Fifo (s : State α) : Prop where
  inOrder : dequeued s.returns <+: accepted s.returns
  bounded : outstanding s ≤ 1023
  refusedWhenFull : ∀ move pkt, (step s move).returns = s.returns ++ [.enqueue pkt false] →
    outstanding s = 1023
  nullWhenEmpty : ∀ move, (step s move).returns = s.returns ++ [.dequeue none] →
    outstanding s = 0
  readInOrder : s.reads <+: (accepted s.returns).map some
  overwritesRead : ∀ pkt nextTail slot, s.producer = .store pkt nextTail slot →
    ∀ k < (accepted s.returns).length, k % kWsQueueSize = slot → k < s.reads.length

def ProducerFacts (queue : Nat → Option α) (lo hi : Nat) : Producer α → Prop
  | .ready => True
  | .compare _ nextTail => nextTail = (hi + 1) % kWsQueueSize
  | .index _ nextTail => nextTail = (hi + 1) % kWsQueueSize ∧ hi + 1 < lo + kWsQueueSize
  | .store _ nextTail slot =>
      nextTail = (hi + 1) % kWsQueueSize ∧ hi + 1 < lo + kWsQueueSize ∧ slot = hi % kWsQueueSize
  | .publish pkt nextTail =>
      nextTail = (hi + 1) % kWsQueueSize ∧ hi + 1 < lo + kWsQueueSize ∧
        queue (hi % kWsQueueSize) = some pkt

def ConsumerFacts (reads : Nat) (accepted : List α) (lo : Nat) : Consumer α → Prop
  | .ready => reads = lo
  | .compare head => reads = lo ∧ head = lo % kWsQueueSize
  | .index => reads = lo ∧ lo < accepted.length
  | .read slot => reads = lo ∧ lo < accepted.length ∧ slot = lo % kWsQueueSize
  | .advance ret => reads = lo + 1 ∧ lo < accepted.length ∧ ret = accepted[lo]?
  | .publish ret nextHead =>
      reads = lo + 1 ∧ lo < accepted.length ∧ ret = accepted[lo]? ∧
        nextHead = (lo + 1) % kWsQueueSize

structure InvAt (s : State α) (accepted dequeued : List α) : Prop where
  stores : s.q.Stores (fun k => accepted[k]?) dequeued.length accepted.length
  inOrder : dequeued <+: accepted
  reads : s.reads <+: accepted.map some
  producer : ProducerFacts s.q.queue dequeued.length accepted.length s.producer
  consumer : ConsumerFacts s.reads.length accepted dequeued.length s.consumer

def Inv (s : State α) : Prop := InvAt s (accepted s.returns) (dequeued s.returns)

theorem start_inv : Inv (start : State α) where
  stores := ShmQueue.new_stores _
  inOrder := List.prefix_rfl
  reads := List.prefix_rfl
  producer := trivial
  consumer := rfl

theorem ConsumerFacts.accept {reads lo : Nat} {values : List α} {c : Consumer α} (pkt : α)
    (facts : ConsumerFacts reads values lo c) : ConsumerFacts reads (values ++ [pkt]) lo c := by
  have kept (inside : lo < values.length) : (values ++ [pkt])[lo]? = values[lo]? :=
    List.getElem?_append_left inside
  cases c with
  | ready => exact facts
  | compare head => exact facts
  | index => exact ⟨facts.1, by simp; have := facts.2; omega⟩
  | read slot => exact ⟨facts.1, by simp; have := facts.2.1; omega, facts.2.2⟩
  | advance ret =>
      exact ⟨facts.1, by simp; have := facts.2.1; omega, facts.2.2.trans (kept facts.2.1).symm⟩
  | publish ret nextHead =>
      exact ⟨facts.1, by simp; have := facts.2.1; omega,
        facts.2.2.1.trans (kept facts.2.1).symm, facts.2.2.2⟩

theorem ProducerFacts.take {queue : Nat → Option α} {lo hi : Nat} {p : Producer α}
    (facts : ProducerFacts queue lo hi p) : ProducerFacts queue (lo + 1) hi p := by
  cases p with
  | ready => trivial
  | compare pkt nextTail => exact facts
  | index pkt nextTail => exact ⟨facts.1, by have := facts.2; omega⟩
  | store pkt nextTail slot => exact ⟨facts.1, by have := facts.2.1; omega, facts.2.2⟩
  | publish pkt nextTail => exact ⟨facts.1, by have := facts.2.1; omega, facts.2.2⟩

theorem stepProducer_inv (s : State α) (next : α) (inv : Inv s) : Inv (stepProducer s next) := by
  have facts := inv.producer
  unfold stepProducer
  split
  case h_1 ready => exact { inv with producer := inv.stores.nextTail }
  case h_2 pkt nextTail compare =>
    rw [compare] at facts
    split
    case isTrue full =>
      unfold Inv
      rw [accepted_false, dequeued_enqueue]
      exact { inv with producer := trivial }
    case isFalse notFull =>
      rw [facts, inv.stores.full_iff] at notFull
      have room := lt_of_le_of_ne (Nat.succ_le_of_lt inv.stores.room) notFull
      exact { inv with producer := ⟨facts, room⟩ }
  case h_3 pkt nextTail index =>
    rw [index] at facts
    exact { inv with producer := ⟨facts.1, facts.2, inv.stores.tail⟩ }
  case h_4 pkt nextTail slot store =>
    rw [store] at facts
    obtain ⟨nextTailEq, room, rfl⟩ := facts
    -- the slot written is the one behind the window, so the window keeps its contents
    have window := inv.stores.window.overwrite inv.stores.room (some pkt)
    exact { inv with
      stores := { inv.stores with window := window }
      producer := ⟨nextTailEq, room, Function.update_self ..⟩ }
  case h_5 pkt nextTail publish =>
    rw [publish] at facts
    obtain ⟨nextTailEq, room, stored⟩ := facts
    have ordered := inv.stores.ordered
    have length : (accepted s.returns ++ [pkt]).length = (accepted s.returns).length + 1 := by simp
    have kept : Window kWsQueueSize s.q.queue (fun k => (accepted s.returns ++ [pkt])[k]?)
        (dequeued s.returns).length (accepted s.returns).length :=
      inv.stores.window.congr fun k _ inside => (List.getElem?_append_left inside).symm
    unfold Inv
    rw [accepted_true, dequeued_enqueue]
    refine ⟨⟨inv.stores.head, ?_, ?_, ?_, ?_⟩, ?_, ?_, trivial, inv.consumer.accept pkt⟩
    · rw [length]; exact nextTailEq
    · rw [length]; exact Nat.le_succ_of_le ordered
    · rw [length]; exact room
    · rw [length]; exact kept.extend (by simpa using stored)
    · exact inv.inOrder.trans (List.prefix_append _ _)
    · rw [List.map_append]
      exact inv.reads.trans (List.prefix_append _ _)

theorem stepConsumer_inv (s : State α) (inv : Inv s) : Inv (stepConsumer s) := by
  have facts := inv.consumer
  unfold stepConsumer
  split
  case h_1 ready =>
    rw [ready] at facts
    exact { inv with consumer := ⟨facts, inv.stores.head⟩ }
  case h_2 head compare =>
    rw [compare] at facts
    obtain ⟨reads, rfl⟩ := facts
    split
    case isTrue empty =>
      unfold Inv
      rw [accepted_dequeue, dequeued_none]
      exact { inv with consumer := reads }
    case isFalse nonempty =>
      rw [← inv.stores.head, inv.stores.empty_iff] at nonempty
      exact { inv with consumer := ⟨reads, lt_of_le_of_ne inv.stores.ordered nonempty⟩ }
  case h_3 index =>
    rw [index] at facts
    exact { inv with consumer := ⟨facts.1, facts.2, inv.stores.head⟩ }
  case h_4 slot read =>
    rw [read] at facts
    obtain ⟨reads, inside, rfl⟩ := facts
    have front := inv.stores.window.get inside
    have longer : s.reads.length < ((accepted s.returns).map some).length := by simpa [reads]
    have next := List.concat_get_prefix inv.reads longer
    simp only [List.get_eq_getElem, List.getElem_map, reads, ← List.getElem?_eq_getElem inside] at next
    exact { inv with
      reads := by simpa only [front] using next
      consumer := ⟨by simp [reads], inside, front⟩ }
  case h_5 ret advance =>
    rw [advance] at facts
    exact { inv with consumer := ⟨facts.1, facts.2.1, facts.2.2, inv.stores.nextHead⟩ }
  case h_6 ret nextHead publish =>
    rw [publish] at facts
    obtain ⟨reads, inside, rfl, nextHeadEq⟩ := facts
    rw [List.getElem?_eq_getElem inside]
    have length (x : α) : (dequeued s.returns ++ [x]).length = (dequeued s.returns).length + 1 := by
      simp
    unfold Inv
    rw [accepted_dequeue, dequeued_some]
    refine ⟨⟨?_, inv.stores.tail, ?_, ?_, ?_⟩, ?_, inv.reads, ?_, ?_⟩
    · rw [length]; exact nextHeadEq
    · rw [length]; exact inside
    · rw [length]; exact inv.stores.room.trans (by omega)
    · rw [length]; exact inv.stores.window.shrink (Nat.le_succ _) le_rfl
    · exact List.concat_get_prefix inv.inOrder inside
    · rw [length]; exact inv.producer.take
    · rw [length]; exact reads

theorem step_inv (s : State α) (move : Move α) (inv : Inv s) : Inv (step s move) := by
  cases move with
  | producer pkt => exact stepProducer_inv s pkt inv
  | consumer => exact stepConsumer_inv s inv

theorem interleave_inv (moves : List (Move α)) : Inv (interleave moves) :=
  List.foldlRecOn moves step start_inv fun s inv move _ => step_inv s move inv

theorem stepConsumer_keeps_refusals (s : State α) (pkt : α) :
    (stepConsumer s).returns ≠ s.returns ++ [.enqueue pkt false] := by
  unfold stepConsumer
  cases s.consumer with
  | compare head => dsimp only; split <;> simp
  | _ => simp

theorem stepProducer_keeps_nulls (s : State α) (next : α) :
    (stepProducer s next).returns ≠ s.returns ++ [.dequeue none] := by
  unfold stepProducer
  cases s.producer with
  | compare pkt nextTail => dsimp only; split <;> simp
  | _ => simp

theorem refused_full {s : State α} (inv : Inv s) {move : Move α} {pkt : α}
    (refused : (step s move).returns = s.returns ++ [.enqueue pkt false]) :
    outstanding s = 1023 := by
  cases move with
  | consumer => exact absurd refused (stepConsumer_keeps_refusals s pkt)
  | producer next =>
      have facts := inv.producer
      cases phase : s.producer with
      | compare pkt' nextTail =>
          rw [phase] at facts
          by_cases full : nextTail = s.q.head
          · rw [facts, inv.stores.full_iff] at full
            simp only [outstanding, kWsQueueSize] at *
            omega
          · simp [step, stepProducer, phase, full] at refused
      | _ => simp [step, stepProducer, phase] at refused

theorem null_empty {s : State α} (inv : Inv s) {move : Move α}
    (null : (step s move).returns = s.returns ++ [.dequeue none]) : outstanding s = 0 := by
  cases move with
  | producer next => exact absurd null (stepProducer_keeps_nulls s next)
  | consumer =>
      have facts := inv.consumer
      cases phase : s.consumer with
      | compare head =>
          rw [phase] at facts
          by_cases empty : head = s.q.tail
          · rw [facts.2, ← inv.stores.head, inv.stores.empty_iff] at empty
            simp [outstanding, empty]
          · simp [step, stepConsumer, phase, empty] at null
      | publish ret nextHead =>
          rw [phase] at facts
          obtain ⟨-, inside, rfl, -⟩ := facts
          simp [step, stepConsumer, phase, List.getElem?_eq_getElem inside] at null
      | _ => simp [step, stepConsumer, phase] at null

theorem interleave_ordered (moves : List (Move α)) : Fifo (interleave moves) := by
  have inv := interleave_inv moves
  generalize interleave moves = s at inv
  have ordered := inv.stores.ordered
  have room := inv.stores.room
  refine ⟨inv.inOrder, ?_, fun _ _ => refused_full inv, fun _ => null_empty inv, inv.reads, ?_⟩
  · simp only [outstanding, kWsQueueSize] at *
    omega
  · intro pkt nextTail slot store k published same
    have facts := inv.producer
    have reads : (dequeued s.returns).length ≤ s.reads.length := by
      have := inv.consumer
      cases consumer : s.consumer <;> simp only [consumer, ConsumerFacts] at this <;> omega
    rw [store] at facts
    obtain ⟨-, -, rfl⟩ := facts
    by_contra unread
    exact absurd (position_unique same (by omega) (by omega)) (by omega)

def Producer.moves : Producer α → Nat
  | .ready => 0
  | .compare .. => 1
  | .index .. => 2
  | .store .. => 3
  | .publish .. => 4

def Consumer.moves : Consumer α → Nat
  | .ready => 0
  | .compare _ => 1
  | .index => 2
  | .read _ => 3
  | .advance _ => 4
  | .publish .. => 5

def Move.isProducer : Move α → Bool
  | .producer _ => true
  | .consumer => false

def Return.isEnqueue : Return α → Bool
  | .enqueue .. => true
  | .dequeue _ => false

def enqueues (s : State α) : Nat := s.returns.countP Return.isEnqueue

def dequeues (s : State α) : Nat := s.returns.countP (! Return.isEnqueue ·)

theorem stepProducer_moves (s : State α) (next : α) :
    5 * enqueues s + s.producer.moves + 1 ≤
        5 * enqueues (stepProducer s next) + (stepProducer s next).producer.moves ∧
      dequeues (stepProducer s next) = dequeues s ∧ (stepProducer s next).consumer = s.consumer := by
  cases phase : s.producer with
  | compare pkt nextTail =>
      by_cases full : nextTail = s.q.head
      · simp [stepProducer, phase, full, enqueues, dequeues, Producer.moves, Return.isEnqueue]
        omega
      · simp [stepProducer, phase, full, enqueues, dequeues, Producer.moves]
  | publish pkt nextTail =>
      simp [stepProducer, phase, enqueues, dequeues, Producer.moves, Return.isEnqueue]
      omega
  | _ => simp [stepProducer, phase, enqueues, dequeues, Producer.moves]

theorem stepConsumer_moves (s : State α) :
    6 * dequeues s + s.consumer.moves + 1 ≤
        6 * dequeues (stepConsumer s) + (stepConsumer s).consumer.moves ∧
      enqueues (stepConsumer s) = enqueues s ∧ (stepConsumer s).producer = s.producer := by
  cases phase : s.consumer with
  | compare head =>
      by_cases empty : head = s.q.tail
      · simp [stepConsumer, phase, empty, enqueues, dequeues, Consumer.moves, Return.isEnqueue]
        omega
      · simp [stepConsumer, phase, empty, enqueues, dequeues, Consumer.moves]
  | publish ret nextHead =>
      simp [stepConsumer, phase, enqueues, dequeues, Consumer.moves, Return.isEnqueue]
      omega
  | _ => simp [stepConsumer, phase, enqueues, dequeues, Consumer.moves]

theorem interleave_moves (moves : List (Move α)) :
    moves.countP Move.isProducer ≤
        5 * enqueues (interleave moves) + (interleave moves).producer.moves ∧
      moves.countP (! Move.isProducer ·) ≤
        6 * dequeues (interleave moves) + (interleave moves).consumer.moves := by
  induction moves using List.reverseRecOn with
  | nil => exact ⟨Nat.zero_le _, Nat.zero_le _⟩
  | append_singleton moves move ih =>
      obtain ⟨producer, consumer⟩ := ih
      rw [interleave, List.foldl_append] at *
      cases move with
      | producer next =>
          obtain ⟨made, others, kept⟩ := stepProducer_moves (moves.foldl step start) next
          have mine : (Move.producer next).isProducer = true := rfl
          simp only [List.countP_append, List.countP_singleton, mine, Bool.not_true,
            Bool.false_eq_true, if_true, if_false, List.foldl_cons, List.foldl_nil, step, others,
            kept]
          exact ⟨by omega, by omega⟩
      | consumer =>
          obtain ⟨made, others, kept⟩ := stepConsumer_moves (moves.foldl step start)
          have mine : (Move.consumer : Move α).isProducer = false := rfl
          simp only [List.countP_append, List.countP_singleton, mine, Bool.not_false,
            Bool.false_eq_true, if_true, if_false, List.foldl_cons, List.foldl_nil, step, others,
            kept]
          exact ⟨by omega, by omega⟩

/-- A call returns after at most so many moves of its own party, whatever the other does. -/
structure WaitFree (moves : List (Move α)) (s : State α) : Prop where
  enqueue : moves.countP Move.isProducer < 5 * (enqueues s + 1)
  dequeue : moves.countP (! Move.isProducer ·) < 6 * (dequeues s + 1)

theorem interleave_waitFree (moves : List (Move α)) : WaitFree moves (interleave moves) := by
  obtain ⟨producer, consumer⟩ := interleave_moves moves
  constructor
  · have : (interleave moves).producer.moves < 5 := by
      cases (interleave moves).producer <;> simp [Producer.moves]
    omega
  · have : (interleave moves).consumer.moves < 6 := by
      cases (interleave moves).consumer <;> simp [Consumer.moves]
    omega

theorem enqueue_alone (s : State α) (pkt : α) (ready : s.producer = .ready) :
    let moves := if (s.q.enqueue (some pkt)).1 then 5 else 2
    (List.replicate moves (.producer pkt)).foldl step s =
      { s with
        q := (s.q.enqueue (some pkt)).2
        returns := s.returns ++ [.enqueue pkt (s.q.enqueue (some pkt)).1] } := by
  obtain ⟨q, producer, consumer, returns, reads⟩ := s
  subst ready
  by_cases full : (q.tail + 1) &&& mask = q.head <;>
    simp [List.replicate, step, stepProducer, ShmQueue.enqueue, full]

theorem dequeue_alone (s : State α) (ready : s.consumer = .ready) :
    let moves := if s.q.head = s.q.tail then 2 else 6
    ∃ reads, (List.replicate moves .consumer).foldl step s =
      { s with
        q := s.q.dequeue.2
        returns := s.returns ++ [.dequeue s.q.dequeue.1]
        reads := reads } := by
  obtain ⟨q, producer, consumer, returns, reads⟩ := s
  subst ready
  by_cases empty : q.head = q.tail <;>
    simp [List.replicate, step, stepConsumer, ShmQueue.dequeue, empty]

/-- A call whose moves are not interleaved is the call of the queue as a function. -/
structure Sequential (s : State α) : Prop where
  enqueue : ∀ pkt, s.producer = .ready → ∃ n, (List.replicate n (.producer pkt)).foldl step s =
    { s with
      q := (s.q.enqueue (some pkt)).2
      returns := s.returns ++ [.enqueue pkt (s.q.enqueue (some pkt)).1] }
  dequeue : s.consumer = .ready → ∃ n reads, (List.replicate n .consumer).foldl step s =
    { s with
      q := s.q.dequeue.2
      returns := s.returns ++ [.dequeue s.q.dequeue.1]
      reads := reads }

theorem interleave_fifo (moves : List (Move α)) :
    Fifo (interleave moves) ∧ WaitFree moves (interleave moves) ∧ Sequential (interleave moves) :=
  ⟨interleave_ordered moves, interleave_waitFree moves,
    fun pkt ready => ⟨_, enqueue_alone _ pkt ready⟩,
    fun ready => ⟨_, dequeue_alone _ ready⟩⟩

def overlapping : List (Move Nat) :=
  [.producer 7, .producer 7, .consumer, .producer 7, .producer 7, .producer 7, .producer 8,
    .consumer, .consumer, .consumer, .producer 8, .consumer, .consumer, .consumer, .consumer,
    .producer 8, .producer 8, .producer 8]

theorem overlapping_fifo :
    (interleave overlapping).returns =
        [.enqueue 7 true, .dequeue (some 7), .dequeue none, .enqueue 8 true] ∧
      Fifo (interleave overlapping) :=
  ⟨by decide, (interleave_fifo overlapping).1⟩

end Nicc.Soc.QueueSteps

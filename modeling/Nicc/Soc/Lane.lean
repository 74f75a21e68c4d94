import Nicc.Soc.Channel

/-!
# Packets of one direction, counted

The packets that a QP receives leave on the other QP. Position `k` stands for the `k`-th receive
buffer in the order of posting, which is in slot `k % 2048` of the ring, and for the packet that it
carries. How far each stage of the datapath has come is a number.
-/

namespace Nicc.Soc
open Lib

def slotOf (k : Nat) : Nat := k % kNumRxRingEntries

def ptr (d : Side) (k : Nat) : BufPtr := ⟨d, slotOf k⟩

theorem slotOf_lt (k : Nat) : slotOf k < kNumRxRingEntries := Nat.mod_lt _ (by decide)

theorem slotOf_succ (k : Nat) : (slotOf k + 1) % kNumRxRingEntries = slotOf (k + 1) := by
  rw [slotOf, slotOf, Nat.mod_add_mod]

theorem slotOf_add (k j : Nat) : (slotOf k + j) % kNumRxRingEntries = slotOf (k + j) := by
  rw [slotOf, slotOf, Nat.mod_add_mod]

theorem circular_slotOf (k : Nat) : circular kNumRxRingEntries (slotOf k) = slotOf (k + 1) := by
  have bound := slotOf_lt k
  rw [← slotOf_succ, circular]
  split_ifs with inside
  · rw [Nat.mod_eq_of_lt (by omega)]
  · have last : slotOf k + 1 = kNumRxRingEntries := by omega
    rw [last, Nat.mod_self]

theorem slotOf_ne {j k : Nat} (apart : j ≠ k) (above : j < k + kNumRxRingEntries)
    (below : k < j + kNumRxRingEntries) : slotOf j ≠ slotOf k := by
  intro same
  rcases Nat.le_total j k with le | le
  · exact apart (position_unique same le below)
  · exact apart (position_unique same.symm le above).symm

structure Layout where
  base : Side → Nat
  lkey : Nat
  apart : base .next + kRQDepth * kRecvMbufSize ≤ base .prior

namespace Layout

variable (l : Layout)

def addr (d : Side) (i : Nat) : Nat := l.base d + i * kRecvMbufSize

def recvSge (d : Side) (i : Nat) : Sge := ⟨l.addr d i, kRecvMbufSize, l.lkey⟩

def recvWr (d : Side) (k : Nat) : RecvWr := ⟨slotOf k, l.recvSge d (slotOf k)⟩

theorem addr_inj {d : Side} {i j : Nat} (same : l.addr d i = l.addr d j) : i = j := by
  simp only [addr, kRecvMbufSize] at same
  omega

theorem addr_other {d : Side} {i j : Nat} (left : i < kNumRxRingEntries)
    (right : j < kNumRxRingEntries) : l.addr d i ≠ l.addr d.other j := by
  have apart := l.apart
  simp only [kRQDepth, kNumRxRingEntries, kRecvMbufSize] at *
  cases d
  · simp only [addr, Side.other, kRecvMbufSize]
    omega
  · simp only [addr, Side.other, kRecvMbufSize]
    omega

end Layout

/-- How many positions each stage has been through, from the last stage to the first. `queued` is the
position of the first entry of `_tx_queue`. -/
structure Counts where
  freed : Nat
  queued : Nat
  sent : Nat
  mounted : Nat
  collected : Nat
  worked : Nat
  dispatched : Nat
  measured : Nat
  completed : Nat
  posted : Nat

/-- No stage overtakes the one before it, and no buffer is posted again before it has been freed. -/
structure Counts.Ordered (c : Counts) : Prop where
  freed : c.freed ≤ c.sent
  queued : c.queued ≤ c.sent
  sent : c.sent ≤ c.mounted
  mounted : c.mounted ≤ c.collected
  collected : c.collected ≤ c.worked
  worked : c.worked ≤ c.dispatched
  dispatched : c.dispatched ≤ c.measured
  measured : c.measured ≤ c.completed
  completed : c.completed ≤ c.posted
  posted : c.posted ≤ c.freed + kNumRxRingEntries

namespace Counts.Ordered

variable {c : Counts}

theorem ends (ordered : c.Ordered) :
    c.sent ≤ c.worked ∧ c.posted ≤ c.sent + kNumRxRingEntries := by
  have := ordered.freed
  have := ordered.sent
  have := ordered.mounted
  have := ordered.collected
  have := ordered.posted
  omega

theorem worked_completed (ordered : c.Ordered) : c.worked ≤ c.completed :=
  ordered.worked.trans (ordered.dispatched.trans ordered.measured)

end Counts.Ordered

def sentAs {α : Type} (p : Received α) (frame : α) : Sent α :=
  ⟨⟨p.wr.sge.addr, p.completion.byteLen, p.wr.sge.lkey⟩, frame⟩

structure Rings {α : Type} (l : Layout) (d : Side) (r : RecvHalf α) (t : SendHalf α)
    (slots : Nat → Buffer BufPtr) : Prop where
  rxRing : ∀ i, r.rxRing i = ⟨d, i⟩
  recvSgl : ∀ i, r.recvSgl i = l.recvSge d i
  recvWrNext : ∀ k, r.recvWrNext (slotOf k) = some (slotOf (k + 1))
  sendWrNext : ∀ k, t.sendWrNext (slotOf k) = some (slotOf (k + 1))
  buf : ∀ i, (slots i).buf = l.addr d i
  lkey : ∀ i, (slots i).lkey = l.lkey
  next : ∀ k, (slots (slotOf k)).next = some (ptr d (k + 1))

structure Colors (slots : Nat → Buffer BufPtr) (freed posted : Nat) : Prop where
  busy : ∀ k, freed ≤ k → k < posted → (slots (slotOf k)).state ≠ .kFREE_BUF
  free : ∀ k, posted ≤ k → k < freed + kNumRxRingEntries → (slots (slotOf k)).state = .kFREE_BUF

structure Input {α : Type} (l : Layout) (d : Side) (r : RecvHalf α) (slots : Nat → Buffer BufPtr)
    (memory : Nat → α) (left : List α) (c : Counts) : Prop where
  posted : r.posted = (List.range c.posted).map (l.recvWr d)
  received : r.received.length = c.completed
  arrived : ∀ k p, r.received[k]? = some p → p.wr = l.recvWr d k
  lengths : ∀ k p, r.received[k]? = some p → c.sent ≤ k → k < c.measured →
    (slots (slotOf k)).length = p.completion.byteLen
  found : ∀ k p, r.received[k]? = some p → c.worked ≤ k → memory (slotOf k) = p.completion.frame
  leftLength : left.length = c.worked
  leftThere : ∀ k a, left[k]? = some a → c.sent ≤ k → memory (slotOf k) = a

structure Output {α : Type} (d : Side) (received : List (Received α)) (t : SendHalf α) (left : List α)
    (c : Counts) : Prop where
  txQueue : ∀ k, c.queued ≤ k → k < c.collected → t.txQueue (k - c.queued) = some (ptr d k)
  txQueueIdx : c.queued + t.txQueueIdx = c.collected
  sendHead : t.sendHead = slotOf c.freed
  sendTail : t.sendTail = slotOf c.mounted
  swRing : Window kNumRxRingEntries t.swRing (fun k => some (ptr d k)) c.freed c.mounted
  sendSgl : ∀ k p, received[k]? = some p → c.sent ≤ k → k < c.mounted →
    t.sendSgl (slotOf k) = ⟨p.wr.sge.addr, p.completion.byteLen, p.wr.sge.lkey⟩
  sentLength : t.posted.length = c.sent
  sends : ∀ k p a, received[k]? = some p → left[k]? = some a → k < c.sent →
    t.posted[k]? = some (sentAs p a)

variable {α : Type} {l : Layout} {d : Side} {r : RecvHalf α} {t : SendHalf α}
  {slots slots' : Nat → Buffer BufPtr} {memory : Nat → α} {left : List α} {c : Counts}

def recolored (slots : Nat → Buffer BufPtr) (i : Nat) (state : BufState) : Nat → Buffer BufPtr :=
  Function.update slots i { slots i with state := state }

def resized (slots : Nat → Buffer BufPtr) (i length : Nat) : Nat → Buffer BufPtr :=
  Function.update slots i { slots i with length := length }

structure SameRing (slots slots' : Nat → Buffer BufPtr) : Prop where
  buf : ∀ i, (slots' i).buf = (slots i).buf
  lkey : ∀ i, (slots' i).lkey = (slots i).lkey
  next : ∀ i, (slots' i).next = (slots i).next

theorem recolored_of_ne {i j : Nat} (apart : j ≠ i) (state : BufState) :
    recolored slots i state j = slots j := Function.update_of_ne apart _ _

theorem recolored_state (i : Nat) (state : BufState) : (recolored slots i state i).state = state := by
  simp [recolored]

theorem recolored_length (i : Nat) (state : BufState) (j : Nat) :
    (recolored slots i state j).length = (slots j).length := by
  by_cases same : j = i
  · subst same
    simp [recolored]
  · rw [recolored_of_ne same]

theorem recolored_sameRing (i : Nat) (state : BufState) : SameRing slots (recolored slots i state) := by
  refine ⟨fun j => ?_, fun j => ?_, fun j => ?_⟩ <;>
    by_cases same : j = i <;> simp [recolored, same]

theorem resized_of_ne {i j : Nat} (apart : j ≠ i) (length : Nat) :
    resized slots i length j = slots j := Function.update_of_ne apart _ _

theorem resized_length (i length : Nat) : (resized slots i length i).length = length := by
  simp [resized]

theorem resized_state (i length j : Nat) : (resized slots i length j).state = (slots j).state := by
  by_cases same : j = i
  · subst same
    simp [resized]
  · rw [resized_of_ne same]

theorem resized_sameRing (i length : Nat) : SameRing slots (resized slots i length) := by
  refine ⟨fun j => ?_, fun j => ?_, fun j => ?_⟩ <;>
    by_cases same : j = i <;> simp [resized, same]

theorem Rings.sameRing (rings : Rings l d r t slots) (same : SameRing slots slots') :
    Rings l d r t slots' :=
  { rings with
    buf := fun i => (same.buf i).trans (rings.buf i)
    lkey := fun i => (same.lkey i).trans (rings.lkey i)
    next := fun k => (same.next _).trans (rings.next k) }

namespace Colors

variable {freed posted k : Nat}

theorem use (colors : Colors slots freed posted) (fits : posted ≤ freed + kNumRxRingEntries)
    (low : freed ≤ k) (high : k < posted) {state : BufState} (used : state ≠ .kFREE_BUF) :
    Colors (recolored slots (slotOf k) state) freed posted := by
  constructor
  · intro j above below
    by_cases same : j = k
    · rw [same, recolored_state]
      exact used
    · rw [recolored_of_ne (slotOf_ne same (by omega) (by omega))]
      exact colors.busy j above below
  · intro j above below
    rw [recolored_of_ne (slotOf_ne (by omega) (by omega) (by omega))]
    exact colors.free j above below

theorem reap (colors : Colors slots freed posted) (fits : posted ≤ freed + kNumRxRingEntries)
    (high : freed < posted) : Colors (recolored slots (slotOf freed) .kFREE_BUF) (freed + 1) posted := by
  constructor
  · intro j above below
    rw [recolored_of_ne (slotOf_ne (by omega) (by omega) (by omega))]
    exact colors.busy j (by omega) below
  · intro j above below
    by_cases last : j = freed + kNumRxRingEntries
    · have same : slotOf j = slotOf freed := by
        rw [last, slotOf, Nat.add_mod_right]
        rfl
      rw [same, recolored_state]
    · rw [recolored_of_ne (slotOf_ne (by omega) (by omega) (by omega))]
      exact colors.free j above (by omega)

theorem post (colors : Colors slots freed posted) (low : freed ≤ posted)
    (fits : posted < freed + kNumRxRingEntries) :
    Colors (recolored slots (slotOf posted) .kPOSTED) freed (posted + 1) := by
  constructor
  · intro j above below
    by_cases last : j = posted
    · rw [last, recolored_state]
      decide
    · rw [recolored_of_ne (slotOf_ne last (by omega) (by omega))]
      exact colors.busy j above (by omega)
  · intro j above below
    rw [recolored_of_ne (slotOf_ne (by omega) (by omega) (by omega))]
    exact colors.free j (by omega) below

theorem resize (colors : Colors slots freed posted) (i length : Nat) :
    Colors (resized slots i length) freed posted where
  busy j above below := by
    rw [resized_state]
    exact colors.busy j above below
  free j above below := by
    rw [resized_state]
    exact colors.free j above below

end Colors

namespace Input

variable (input : Input l d r slots memory left c)

include input

theorem sameLength (same : ∀ i, (slots' i).length = (slots i).length) :
    Input l d r slots' memory left c :=
  { input with
    lengths := fun k p there open' inside =>
      (same _).trans (input.lengths k p there open' inside) }

theorem post (more : Nat) :
    Input l d { r with posted := r.posted ++ (List.range' c.posted more).map (l.recvWr d) } slots memory
      left { c with posted := c.posted + more } :=
  { input with
    posted := by
      change r.posted ++ _ = (List.range (c.posted + more)).map (l.recvWr d)
      rw [input.posted, ← List.map_append, List.range_eq_range', List.range_eq_range']
      congr 1
      have joined := List.range'_append_1 (s := 0) (m := c.posted) (n := more)
      rwa [Nat.zero_add] at joined }

theorem oldest (outstanding : c.completed < c.posted) :
    r.posted[r.received.length]? = some (l.recvWr d c.completed) := by
  rw [input.received, input.posted, List.getElem?_map, List.getElem?_range outstanding]
  rfl

theorem complete (ordered : c.Ordered) (outstanding : c.completed < c.posted)
    (completion : Completion α) :
    Input l d { r with received := r.received ++ [⟨l.recvWr d c.completed, completion⟩] } slots
      (Function.update memory (slotOf c.completed) completion.frame) left
      { c with completed := c.completed + 1 } := by
  obtain ⟨sentLow, room⟩ : c.sent ≤ c.worked ∧ c.posted ≤ c.sent + kNumRxRingEntries := ordered.ends
  have workedLow : c.worked ≤ c.completed := ordered.worked_completed
  have old : ∀ k, c.sent ≤ k → k < c.completed →
      Function.update memory (slotOf c.completed) completion.frame (slotOf k) = memory (slotOf k) :=
    fun k low high => Function.update_of_ne (slotOf_ne (by omega) (by omega) (by omega)) _ _
  refine ⟨input.posted, ?_, ?_, ?_, ?_, input.leftLength, ?_⟩
  · rw [List.length_append, input.received]
    rfl
  · intro k p there
    rcases snoc_getElem? there with ⟨-, before⟩ | ⟨rfl, rfl⟩
    · exact input.arrived k p before
    · rw [input.received]
  · intro k p there open' inside
    have measured := ordered.measured
    rcases snoc_getElem? there with ⟨-, before⟩ | ⟨rfl, -⟩
    · exact input.lengths k p before open' inside
    · rw [input.received] at inside
      exact absurd inside (Nat.not_lt.mpr measured)
  · intro k p there open'
    rcases snoc_getElem? there with ⟨high, before⟩ | ⟨rfl, rfl⟩
    · rw [input.received] at high
      rw [old k (sentLow.trans open') high]
      exact input.found k p before open'
    · rw [input.received, Function.update_self]
  · intro k a there open'
    have high := getElem?_lt there
    rw [input.leftLength] at high
    rw [old k open' (high.trans_le workedLow)]
    exact input.leftThere k a there open'

theorem measure (ordered : c.Ordered) (inside : c.measured < c.completed) {p : Received α}
    (there : r.received[c.measured]? = some p) :
    Input l d r (resized slots (slotOf c.measured) p.completion.byteLen) memory left
      { c with measured := c.measured + 1 } := by
  obtain ⟨sentLow, room⟩ := ordered.ends
  have completed := ordered.completed
  refine { input with lengths := fun k q found (open' : c.sent ≤ k) high => ?_ }
  rcases Nat.lt_succ_iff_lt_or_eq.mp high with before | rfl
  · rw [resized_of_ne (slotOf_ne (by omega) (by omega) (by omega))]
    exact input.lengths k q found open' before
  · obtain rfl : p = q := Option.some.inj (there.symm.trans found)
    exact resized_length _ _

theorem work (ordered : c.Ordered) (inside : c.worked < c.dispatched) (frame : α) :
    Input l d r slots (Function.update memory (slotOf c.worked) frame) (left ++ [frame])
      { c with worked := c.worked + 1 } := by
  obtain ⟨sentLow, room⟩ := ordered.ends
  have completed : c.worked < c.completed :=
    inside.trans_le (ordered.dispatched.trans ordered.measured)
  have bound := ordered.completed
  have other : ∀ k, c.sent ≤ k → k < c.completed → k ≠ c.worked →
      Function.update memory (slotOf c.worked) frame (slotOf k) = memory (slotOf k) :=
    fun k low high apart => Function.update_of_ne (slotOf_ne apart (by omega) (by omega)) _ _
  refine { input with found := ?_, leftLength := ?_, leftThere := ?_ }
  · intro k p there open'
    have high := getElem?_lt there
    rw [input.received] at high
    have past : c.worked < k := open'
    rw [other k (by omega) high (by omega)]
    exact input.found k p there (by omega)
  · rw [List.length_append, input.leftLength]
    rfl
  · intro k a there open'
    rcases snoc_getElem? there with ⟨high, before⟩ | ⟨rfl, rfl⟩
    · rw [input.leftLength] at high
      rw [other k open' (by omega) (by omega)]
      exact input.leftThere k a before open'
    · rw [input.leftLength, Function.update_self]

theorem send (ordered : c.Ordered) : Input l d r slots memory left { c with sent := c.mounted } :=
  { input with
    lengths := fun k p there (open' : c.mounted ≤ k) inside =>
      input.lengths k p there (ordered.sent.trans open') inside
    leftThere := fun k a there (open' : c.mounted ≤ k) =>
      input.leftThere k a there (ordered.sent.trans open') }

theorem congr {memory' : Nat → α} (same : ∀ k, memory' (slotOf k) = memory (slotOf k)) :
    Input l d r slots memory' left c :=
  { input with
    found := fun k p there open' => (same k).trans (input.found k p there open')
    leftThere := fun k a there open' => (same k).trans (input.leftThere k a there open') }

end Input

namespace Output

variable {received : List (Received α)} (output : Output d received t left c)

include output

theorem extend (ordered : c.Ordered) (length : received.length = c.completed)
    (leftLength : left.length = c.worked) (packets : List (Received α)) (frames : List α) :
    Output d (received ++ packets) t (left ++ frames) c := by
  have worked := ordered.worked_completed
  have mounted : c.mounted ≤ c.worked := ordered.mounted.trans ordered.collected
  have sent := ordered.sent
  refine { output with sendSgl := ?_, sends := ?_ }
  · intro k p there open' inside
    rw [List.getElem?_append_left (by omega)] at there
    exact output.sendSgl k p there open' inside
  · intro k p a there kept inside
    rw [List.getElem?_append_left (by omega)] at there kept
    exact output.sends k p a there kept inside

theorem collect :
    Output d received
      { t with
        txQueue := Function.update t.txQueue t.txQueueIdx (some (ptr d c.collected))
        txQueueIdx := t.txQueueIdx + 1 } left { c with collected := c.collected + 1 } := by
  have idx := output.txQueueIdx
  refine { output with txQueue := ?_, txQueueIdx := ?_ }
  · intro k (low : c.queued ≤ k) (high : k < c.collected + 1)
    change Function.update t.txQueue t.txQueueIdx _ (k - c.queued) = _
    by_cases last : k = c.collected
    · have here : k - c.queued = t.txQueueIdx := by omega
      rw [here, Function.update_self, last]
    · rw [Function.update_of_ne (by omega)]
      exact output.txQueue k low (by omega)
  · change c.queued + (t.txQueueIdx + 1) = c.collected + 1
    omega

theorem reap :
    Output d received { t with sendHead := (t.sendHead + 1) % kNumTxRingEntries } left
      { c with freed := c.freed + 1 } :=
  { output with
    sendHead := by
      change (t.sendHead + 1) % kNumRxRingEntries = slotOf (c.freed + 1)
      rw [output.sendHead, slotOf_succ]
    swRing := output.swRing.shrink (Nat.le_succ _) le_rfl }

theorem mount (ordered : c.Ordered) (room : c.mounted < c.freed + kNumRxRingEntries) {p : Received α}
    (there : received[c.mounted]? = some p) (free : Nat) :
    Output d received
      { t with
        sendSgl := Function.update t.sendSgl t.sendTail
          ⟨p.wr.sge.addr, p.completion.byteLen, p.wr.sge.lkey⟩
        swRing := Function.update t.swRing t.sendTail (some (ptr d c.mounted))
        sendTail := (t.sendTail + 1) % kNumTxRingEntries
        freeSendWrNum := free } left { c with mounted := c.mounted + 1 } := by
  have freed := ordered.freed
  have sent := ordered.sent
  refine { output with sendTail := ?_, swRing := ?_, sendSgl := ?_ }
  · change (t.sendTail + 1) % kNumRxRingEntries = slotOf (c.mounted + 1)
    rw [output.sendTail, slotOf_succ]
  · change Window kNumRxRingEntries (Function.update t.swRing t.sendTail _) _ c.freed (c.mounted + 1)
    rw [output.sendTail]
    exact output.swRing.push room
  · intro k q found (open' : c.sent ≤ k) (inside : k < c.mounted + 1)
    change Function.update t.sendSgl t.sendTail _ (slotOf k) = _
    rw [output.sendTail]
    by_cases last : k = c.mounted
    · subst last
      obtain rfl : p = q := Option.some.inj (there.symm.trans found)
      rw [Function.update_self]
    · rw [Function.update_of_ne (slotOf_ne last (by omega) (by omega))]
      exact output.sendSgl k q found open' (by omega)

theorem send (frames : List (Sent α)) (length : frames.length = c.mounted - c.sent)
    (ordered : c.Ordered)
    (each : ∀ k p a, received[k]? = some p → left[k]? = some a → c.sent ≤ k → k < c.mounted →
      frames[k - c.sent]? = some (sentAs p a)) :
    Output d received { t with posted := t.posted ++ frames } left { c with sent := c.mounted } := by
  have sent := ordered.sent
  refine { output with sendSgl := ?_, sentLength := ?_, sends := ?_ }
  · intro k p there (open' : c.mounted ≤ k) (inside : k < c.mounted)
    exact absurd inside (Nat.not_lt.mpr open')
  · change (t.posted ++ frames).length = c.mounted
    rw [List.length_append, output.sentLength, length]
    omega
  · intro k p a there kept (inside : k < c.mounted)
    change (t.posted ++ frames)[k]? = _
    by_cases old : k < c.sent
    · rw [List.getElem?_append_left (output.sentLength ▸ old)]
      exact output.sends k p a there kept old
    · rw [List.getElem?_append_right (by rw [output.sentLength]; omega), output.sentLength]
      exact each k p a there kept (by omega) inside

theorem flushed :
    Output d received { t with txQueueIdx := 0 } left { c with queued := c.collected } :=
  { output with
    txQueue := fun k (low : c.collected ≤ k) (high : k < c.collected) =>
      absurd high (Nat.not_lt.mpr low)
    txQueueIdx := rfl }

end Output

end Nicc.Soc

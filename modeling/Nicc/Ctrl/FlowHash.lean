import Nicc.Ctrl.Crc32
import Nicc.Ctrl.Flow

namespace Nicc.Ctrl
open Lib

def octets {w : Nat} (x : BitVec w) : Nat → List (BitVec 8)
  | 0 => []
  | n + 1 => (x >>> (8 * n)).setWidth 8 :: octets x n

theorem octets_length {w : Nat} (x : BitVec w) (n : Nat) : (octets x n).length = n := by
  induction n with
  | zero => rfl
  | succ n ih => rw [octets, List.length_cons, ih]

theorem octets_bits {w n : Nat} {x y : BitVec w} (same : octets x n = octets y n) {i : Nat}
    (bound : i < 8 * n) : x.getLsbD i = y.getLsbD i := by
  induction n with
  | zero => omega
  | succ n ih =>
      obtain ⟨head, tail⟩ := List.cons_eq_cons.mp same
      by_cases low : i < 8 * n
      · exact ih tail low
      · have bit := congrArg (·.getLsbD (i - 8 * n)) head
        have inside : i - 8 * n < 8 := by omega
        have back : 8 * n + (i - 8 * n) = i := by omega
        simpa only [BitVec.getLsbD_setWidth, BitVec.getLsbD_ushiftRight, inside, back, decide_true,
          Bool.true_and] using bit

theorem flatMap_injective {α β : Type*} {l : List α} {f g : α → List β}
    (lengths : ∀ a ∈ l, (f a).length = (g a).length) (same : l.flatMap f = l.flatMap g) :
    ∀ a ∈ l, f a = g a := by
  induction l with
  | nil => simp
  | cons a l ih =>
      obtain ⟨lengthHead, lengthTail⟩ := List.forall_mem_cons.mp lengths
      obtain ⟨head, tail⟩ := List.append_inj same lengthHead
      exact List.forall_mem_cons.mpr ⟨head, ih lengthTail tail⟩

/-- The members in the order of the structure, which has no other padding than its own. -/
def FlowField.order : List FlowField :=
  [.coreRetval, .padNicc, .inPort, .padPhy, .dlDst, .dlSrc, .dlType, .padL2, .nwSrc, .nwDst,
    .ctNwSrc, .ctNwDst, .ipv6Src, .ipv6Dst, .ctIpv6Src, .ctIpv6Dst, .ipv6Label, .nwFrag, .nwTos,
    .nwTtl, .nwProto, .ndTarget, .arpSha, .arpTha, .tcpFlags, .padL4First, .tpSrc, .tpDst,
    .ctTpSrc, .ctTpDst, .igmpGroupIp4, .padL4Second]

def FlowField.bytes (field : FlowField) : Nat := field.width / 8

theorem FlowField.width_eq (field : FlowField) : field.width = 8 * field.bytes := by
  cases field <;> rfl

def Flow.image (f : Flow) : List (BitVec 8) :=
  FlowField.order.flatMap fun field => octets (f field) field.bytes

theorem Flow.image_length (f : Flow) : f.image.length = 168 := by
  have sizes : (FlowField.order.map FlowField.bytes).sum = 168 := by decide
  rw [Flow.image, List.length_flatMap]
  simp only [octets_length]
  exact sizes

theorem Flow.image_injective {f g : Flow} (same : f.image = g.image) : f = g := by
  have pieces := flatMap_injective (fun field _ => by rw [octets_length, octets_length]) same
  funext field
  have listed : field ∈ FlowField.order := by cases field <;> decide
  apply BitVec.eq_of_getLsbD_eq
  intro i bound
  rw [field.width_eq] at bound
  exact octets_bits (pieces field listed) bound

structure FlowMatch where
  flow : Flow
  wildcards : FlowWildcards

def FlowMatch.image (m : FlowMatch) : List (BitVec 8) := m.flow.image ++ m.wildcards.masks.image

theorem FlowMatch.image_length (m : FlowMatch) : m.image.length = 336 := by
  rw [FlowMatch.image, List.length_append, Flow.image_length, Flow.image_length]

theorem FlowMatch.image_injective {a b : FlowMatch} (same : a.image = b.image) : a = b := by
  obtain ⟨flows, masks⟩ := List.append_inj same (by rw [Flow.image_length, Flow.image_length])
  obtain ⟨flow, ⟨mask⟩⟩ := a
  obtain ⟨flow', ⟨mask'⟩⟩ := b
  obtain rfl := Flow.image_injective flows
  obtain rfl := Flow.image_injective masks
  rfl

inductive FlowActionType
  | UNKNOWN
  | DROP
  | FWD
  deriving DecidableEq, Repr

def FlowActionType.byte : FlowActionType → BitVec 8
  | UNKNOWN => 0
  | DROP => 1
  | FWD => 2

structure FlowAction where
  actionType : FlowActionType

namespace FlowHash

def fmfHash (m : FlowMatch) : BitVec 32 := UtilsCRC32.hash m.image 0xFFFFFFFF

def actHash (action : FlowAction) : BitVec 32 := UtilsCRC32.hash [action.actionType.byte] 0xFFFFFFFF

def cal (m : FlowMatch) (action : FlowAction) : BitVec 32 := fmfHash m ||| actHash action

def remainder (a b : FlowMatch) : BitVec 32 :=
  Crc.feed polynomial 0 (List.zipWith (· ^^^ ·) a.image b.image)

end FlowHash

end Nicc.Ctrl

import Nicc.Ctrl.FlowHash
import Nicc.Ctrl.FlowMAT

namespace Nicc.Ctrl
open Lib CompareMap

namespace Flow

def equals (a b : Flow) : Bool := a.image == b.image

def above (a b : Flow) : Bool := stored (b .tpDst) < stored (a .tpDst)

end Flow

namespace FlowWildcards

def equals (a b : FlowWildcards) : Bool := a.masks.equals b.masks

def below (a b : FlowWildcards) : Bool := a.masks.below b.masks

def above (a b : FlowWildcards) : Bool := a.masks.above b.masks

end FlowWildcards

namespace FlowMatcher

def equals (a b : FlowMatcher) : Bool := a.matchWc.equals b.matchWc

def above (a b : FlowMatcher) : Bool := a.matchWc.above b.matchWc

end FlowMatcher

namespace Flow

theorem equals_iff (a b : Flow) : a.equals b = true ↔ a = b := by
  rw [equals, beq_iff_eq]
  exact ⟨image_injective, congrArg image⟩

theorem stored_stored (x : BitVec 16) : stored (stored x) = x := by
  apply BitVec.eq_of_getLsbD_eq
  intro i bound
  simp only [stored, BitVec.getLsbD_or, BitVec.getLsbD_shiftLeft, BitVec.getLsbD_ushiftRight]
  by_cases low : i < 8
  · have outside : x.getLsbD (8 + (8 + i)) = false := BitVec.getLsbD_of_ge x _ (by omega)
    simp [low, outside, show 8 + i < 16 by omega, show ¬ 8 + i < 8 by omega]
  · have outside : x.getLsbD (8 + (8 + i)) = false := BitVec.getLsbD_of_ge x _ (by omega)
    simp [low, bound, outside, show i - 8 < 8 by omega, show 8 + (i - 8) = i by omega]

theorem stored_injective {x y : BitVec 16} (same : stored x = stored y) : x = y := by
  rw [← stored_stored x, same, stored_stored]

def port (f : Flow) : Nat := (stored (f .tpDst)).toNat

theorem port_eq_iff (a b : Flow) : a.port = b.port ↔ a .tpDst = b .tpDst := by
  constructor
  · intro same
    exact stored_injective (BitVec.eq_of_toNat_eq same)
  · intro same
    rw [port, same]
    rfl

theorem below_port (a b : Flow) : a.below b = decide (a.port < b.port) := by
  rw [below, decide_eq_decide]
  exact BitVec.lt_def

theorem above_port (a b : Flow) : a.above b = decide (b.port < a.port) := below_port b a

end Flow

namespace FlowWildcards

theorem equals_iff (a b : FlowWildcards) : a.equals b = true ↔ a = b := by
  obtain ⟨a⟩ := a
  obtain ⟨b⟩ := b
  rw [FlowWildcards.mk.injEq]
  exact Flow.equals_iff a b

theorem below_port (a b : FlowWildcards) : a.below b = decide (a.masks.port < b.masks.port) :=
  Flow.below_port a.masks b.masks

theorem above_port (a b : FlowWildcards) : a.above b = decide (b.masks.port < a.masks.port) :=
  Flow.above_port a.masks b.masks

end FlowWildcards

namespace FlowMatcher

theorem equals_iff (a b : FlowMatcher) : a.equals b = true ↔ a = b := by
  obtain ⟨a⟩ := a
  obtain ⟨b⟩ := b
  rw [FlowMatcher.mk.injEq]
  exact FlowWildcards.equals_iff a b

theorem below_port (a b : FlowMatcher) :
    a.below b = decide (a.matchWc.masks.port < b.matchWc.masks.port) :=
  FlowWildcards.below_port a.matchWc b.matchWc

theorem above_port (a b : FlowMatcher) :
    a.above b = decide (b.matchWc.masks.port < a.matchWc.masks.port) :=
  FlowWildcards.above_port a.matchWc b.matchWc

end FlowMatcher

namespace Flow

structure Ordered (a b c : Flow) : Prop where
  flows : Consistent (List Nat) Flow.below Flow.above Flow.equals a b c
  wildcards : Consistent (List Nat) FlowWildcards.below FlowWildcards.above FlowWildcards.equals
    ⟨a⟩ ⟨b⟩ ⟨c⟩
  matchers : Consistent (List Nat) FlowMatcher.below FlowMatcher.above FlowMatcher.equals
    ⟨⟨a⟩⟩ ⟨⟨b⟩⟩ ⟨⟨c⟩⟩
  constructed : Consistent (List Nat) FlowMatcher.below FlowMatcher.above FlowMatcher.equals
    (.ofWildcards ⟨a⟩) (.ofWildcards ⟨b⟩) (.ofWildcards ⟨c⟩)

theorem consistent_iff_port (a b c : Flow) :
    Consistent (List Nat) Flow.below Flow.above Flow.equals a b c ↔ (a.port = b.port → a = b) :=
  consistent_iff below_port above_port equals_iff a b c

theorem consistent_wildcards {a b c : FlowWildcards} :
    Consistent (List Nat) FlowWildcards.below FlowWildcards.above FlowWildcards.equals a b c ↔
      (a.masks.port = b.masks.port → a = b) :=
  consistent_iff FlowWildcards.below_port FlowWildcards.above_port FlowWildcards.equals_iff a b c

theorem consistent_matchers {a b c : FlowMatcher} :
    Consistent (List Nat) FlowMatcher.below FlowMatcher.above FlowMatcher.equals a b c ↔
      (a.matchWc.masks.port = b.matchWc.masks.port → a = b) :=
  consistent_iff FlowMatcher.below_port FlowMatcher.above_port FlowMatcher.equals_iff a b c

theorem ordered_iff (a b c : Flow) : Ordered a b c ↔ a = b ∨ a .tpDst ≠ b .tpDst := by
  have condition : (a = b ∨ a .tpDst ≠ b .tpDst) ↔ (a.port = b.port → a = b) := by
    rw [port_eq_iff, or_iff_not_imp_right, not_ne_iff]
  rw [condition]
  constructor
  · intro ordered
    exact (consistent_iff_port a b c).mp ordered.flows
  · intro separated
    constructor
    case flows => exact (consistent_iff_port a b c).mpr separated
    case wildcards =>
      apply consistent_wildcards.mpr
      intro same
      exact congrArg FlowWildcards.mk (separated same)
    case matchers =>
      apply consistent_matchers.mpr
      intro same
      exact congrArg (fun f => FlowMatcher.mk ⟨f⟩) (separated same)
    case constructed => exact consistent_matchers.mpr fun _ => rfl

theorem not_ordered_nwSrc :
    ¬ Ordered Flow.zero (Function.update Flow.zero .nwSrc 1) Flow.zero := by
  intro ordered
  have same := (consistent_iff_port _ _ _).mp ordered.flows rfl
  have bits := congrArg (· .nwSrc) same
  rw [Function.update_self] at bits
  exact absurd bits (by decide)

end Flow

end Nicc.Ctrl

import Nicc.Ctrl.Flow
import Nicc.Common

namespace Nicc.Ctrl

inductive MatchField
  | source_port
  | smac_47_16 | smac_15_0 | ethertype
  | dmac_47_16 | dmac_15_0 | first_prio | first_cfi | first_vid
  | ip_protocol | ip_dscp | ip_ecn | cvlan_tag | svlan_tag | frag | ip_version | tcp_flags
  | tcp_sport | tcp_dport
  | ip_ttl_hoplimit
  | udp_sport | udp_dport
  | src_ip_127_96 | src_ip_95_64 | src_ip_63_32 | src_ip_31_0
  | dst_ip_127_96 | dst_ip_95_64 | dst_ip_63_32 | dst_ip_31_0
  deriving DecidableEq, Repr

namespace MatchField

def width : MatchField → Nat
  | source_port => 16
  | smac_47_16 => 32 | smac_15_0 => 16 | ethertype => 16
  | dmac_47_16 => 32 | dmac_15_0 => 16 | first_prio => 3 | first_cfi => 1 | first_vid => 12
  | ip_protocol => 8 | ip_dscp => 6 | ip_ecn => 2 | cvlan_tag => 1 | svlan_tag => 1 | frag => 1
  | ip_version => 4 | tcp_flags => 9
  | tcp_sport => 16 | tcp_dport => 16
  | ip_ttl_hoplimit => 8
  | udp_sport => 16 | udp_dport => 16
  | src_ip_127_96 => 32 | src_ip_95_64 => 32 | src_ip_63_32 => 32 | src_ip_31_0 => 32
  | dst_ip_127_96 => 32 | dst_ip_95_64 => 32 | dst_ip_63_32 => 32 | dst_ip_31_0 => 32

def origins : MatchField → List (FlowField × Nat)
  | source_port => [(.inPort, 0)]
  | smac_47_16 => [(.dlSrc, 16)] | smac_15_0 => [(.dlSrc, 0)]
  | ethertype => [(.dlType, 0)]
  | dmac_47_16 => [(.dlDst, 16)] | dmac_15_0 => [(.dlDst, 0)]
  | ip_protocol => [(.nwProto, 0)]
  | ip_dscp => [(.nwTos, 2)] | ip_ecn => [(.nwTos, 0)]
  | tcp_flags => [(.tcpFlags, 0)]
  | tcp_sport => [(.tpSrc, 0)] | tcp_dport => [(.tpDst, 0)]
  | ip_ttl_hoplimit => [(.nwTtl, 0)]
  | udp_sport => [(.tpSrc, 0)] | udp_dport => [(.tpDst, 0)]
  | src_ip_127_96 => [(.ipv6Src, 96)] | src_ip_95_64 => [(.ipv6Src, 64)]
  | src_ip_63_32 => [(.ipv6Src, 32)] | src_ip_31_0 => [(.nwSrc, 0), (.ipv6Src, 0)]
  | dst_ip_127_96 => [(.ipv6Dst, 96)] | dst_ip_95_64 => [(.ipv6Dst, 64)]
  | dst_ip_63_32 => [(.ipv6Dst, 32)] | dst_ip_31_0 => [(.nwDst, 0), (.ipv6Dst, 0)]
  | first_prio | first_cfi | first_vid | cvlan_tag | svlan_tag | frag | ip_version => []

end MatchField

abbrev MatchParam : Type := (field : MatchField) → BitVec field.width

namespace MatchParam

def zero : MatchParam := fun _ => 0

def setWhen (bits : MatchParam) (present : Bool) (fields : List MatchField) : MatchParam :=
  fun spec => if present ∧ spec ∈ fields then BitVec.allOnes spec.width else bits spec

end MatchParam

namespace FlowWildcards
open MatchField

-- The branch of `core_retval` is empty. The values are `0xffff` for the fields of 16 bits and
-- `0xffffffff` for those of 32.
def convertToMlx5dvDr (wc : FlowWildcards) (bits : MatchParam) : Retval × MatchParam :=
  let masks := wc.masks
  let bits := bits.setWhen (masks .inPort ≠ 0) [source_port]
  let bits := bits.setWhen (masks .dlSrc ≠ 0) [smac_47_16, smac_15_0]
  let bits := bits.setWhen (masks .dlDst ≠ 0) [dmac_47_16, dmac_15_0]
  let bits := bits.setWhen (masks .dlType ≠ 0) [ethertype]
  let bits := bits.setWhen (masks .nwSrc ≠ 0)
    [src_ip_127_96, src_ip_95_64, src_ip_63_32, src_ip_31_0]
  let bits := bits.setWhen (masks .nwDst ≠ 0)
    [dst_ip_127_96, dst_ip_95_64, dst_ip_63_32, dst_ip_31_0]
  let bits := bits.setWhen (masks .tpSrc ≠ 0) [tcp_sport, udp_sport]
  let bits := bits.setWhen (masks .tpDst ≠ 0) [tcp_dport, udp_dport]
  (.NICC_SUCCESS, bits)

/-- The bit `b` of a flow field and the bit `bit` of a hardware field are the same bit of a
packet. -/
def Counterpart (field : FlowField) (b : Nat) (spec : MatchField) (bit : Nat) : Prop :=
  bit < spec.width ∧ ∃ first, (field, first) ∈ spec.origins ∧ b = first + bit

/-- The pattern has to match where the wildcard has to match, and nowhere else. -/
structure Preserves (masks : Flow) (bits : MatchParam) : Prop where
  sound : ∀ spec bit, (bits spec).getLsbD bit = true →
    ∃ field b, Counterpart field b spec bit ∧ (masks field).getLsbD b = true
  complete : ∀ field b, (masks field).getLsbD b = true →
    (∃ spec bit, Counterpart field b spec bit) ∧
      ∀ spec bit, Counterpart field b spec bit → (bits spec).getLsbD bit = true

def trigger : MatchField → Option FlowField
  | source_port => some .inPort
  | smac_47_16 | smac_15_0 => some .dlSrc
  | dmac_47_16 | dmac_15_0 => some .dlDst
  | ethertype => some .dlType
  | src_ip_127_96 | src_ip_95_64 | src_ip_63_32 | src_ip_31_0 => some .nwSrc
  | dst_ip_127_96 | dst_ip_95_64 | dst_ip_63_32 | dst_ip_31_0 => some .nwDst
  | tcp_sport | udp_sport => some .tpSrc
  | tcp_dport | udp_dport => some .tpDst
  | _ => none

def Triggered (masks : Flow) (spec : MatchField) : Prop :=
  ∃ field, trigger spec = some field ∧ masks field ≠ 0

theorem convertToMlx5dvDr_bit (wc : FlowWildcards) (spec : MatchField) (bit : Nat) :
    ((wc.convertToMlx5dvDr MatchParam.zero).2 spec).getLsbD bit = true ↔
      bit < spec.width ∧ Triggered wc.masks spec := by
  have whole : (wc.convertToMlx5dvDr MatchParam.zero).2 spec =
      if (trigger spec).any (fun field => wc.masks field ≠ 0) then BitVec.allOnes spec.width
      else 0 := by
    cases spec <;> simp [convertToMlx5dvDr, MatchParam.setWhen, MatchParam.zero, trigger]
  rw [whole]
  by_cases fires : (trigger spec).any (fun field => wc.masks field ≠ 0) = true
  · rw [if_pos fires]
    simp_all [Option.any_eq_true, Triggered]
  · rw [if_neg fires]
    simp_all [Option.any_eq_true, Triggered]

def soleFields : List FlowField := [.dlSrc, .dlDst, .dlType, .tpSrc, .tpDst]

def translatedFields : List FlowField := .inPort :: .nwSrc :: .nwDst :: soleFields

def WholeAddress (nw : BitVec 32) (ipv6 : BitVec 128) : Prop :=
  if nw = 0 then ipv6 = 0 else ipv6 ||| nw.setWidth 128 = BitVec.allOnes 128

instance (nw : BitVec 32) (ipv6 : BitVec 128) : Decidable (WholeAddress nw ipv6) :=
  inferInstanceAs (Decidable (if nw = 0 then ipv6 = 0 else _))

/-- The wildcards that the hardware fields, each empty or whole, can express. -/
structure WholeFields (masks : Flow) : Prop where
  others : ∀ field, field ∉ FlowField.ipv6Src :: .ipv6Dst :: translatedFields → masks field = 0
  whole : ∀ field ∈ soleFields, masks field = 0 ∨ masks field = BitVec.allOnes field.width
  inPort : masks .inPort = 0 ∨ masks .inPort = 0xffff
  source : WholeAddress (masks .nwSrc) (masks .ipv6Src)
  destination : WholeAddress (masks .nwDst) (masks .ipv6Dst)

section
variable {w : Nat} {v : BitVec w}

theorem ne_zero_of_bit {b : Nat} (present : v.getLsbD b = true) : v ≠ 0 := by
  rintro rfl
  simp at present

theorem eq_zero_of_bits (absent : ∀ b, v.getLsbD b ≠ true) : v = 0 := by
  apply BitVec.eq_of_getLsbD_eq
  intro b _
  simpa using absent b

end

theorem wholeAddress_iff (nw : BitVec 32) (ipv6 : BitVec 128) :
    WholeAddress nw ipv6 ↔
      (∀ b, ipv6.getLsbD b = true → nw ≠ 0) ∧
      (nw ≠ 0 → ∀ b, 32 ≤ b → b < 128 → ipv6.getLsbD b = true) ∧
      (nw ≠ 0 → ∀ b < 32, nw.getLsbD b = true ∨ ipv6.getLsbD b = true) := by
  unfold WholeAddress
  by_cases empty : nw = 0
  · rw [if_pos empty]
    constructor
    · rintro rfl
      simp [empty]
    · rintro ⟨absent, -, -⟩
      exact eq_zero_of_bits fun b present => absent b present empty
  · rw [if_neg empty]
    constructor
    · intro covered
      have bit (b : Nat) (bound : b < 128) :
          ipv6.getLsbD b = true ∨ nw.getLsbD b = true := by
        have same : (ipv6 ||| nw.setWidth 128).getLsbD b = (BitVec.allOnes 128).getLsbD b := by
          rw [covered]
        rw [BitVec.getLsbD_or, BitVec.getLsbD_setWidth, BitVec.getLsbD_allOnes] at same
        simpa [bound] using same
      refine ⟨fun _ _ => empty, fun _ b high bound => ?_, fun _ b bound => ?_⟩
      · rcases bit b bound with present | present
        · exact present
        · rw [BitVec.getLsbD_of_ge nw b high] at present
          cases present
      · exact (bit b (by omega)).symm
    · rintro ⟨-, high, low⟩
      apply BitVec.eq_of_getLsbD_eq
      intro b bound
      rw [BitVec.getLsbD_or, BitVec.getLsbD_setWidth, BitVec.getLsbD_allOnes]
      by_cases above : 32 ≤ b
      · simp [high empty b above bound, bound]
      · rcases low empty b (by omega) with present | present <;> simp [present, bound]

theorem sole_origin {spec : MatchField} {field : FlowField} (sole : field ∈ soleFields)
    (fires : trigger spec = some field) :
    ∃ first, spec.origins = [(field, first)] ∧ first + spec.width ≤ field.width := by
  cases spec <;> simp_all [trigger, soleFields, origins] <;> subst fires <;>
    simp_all [width, FlowField.width]

theorem sole_counterpart {field : FlowField} (sole : field ∈ soleFields) {b : Nat}
    (bound : b < field.width) : ∃ spec first bit, bit < spec.width ∧
      trigger spec = some field ∧ spec.origins = [(field, first)] ∧ b = first + bit := by
  simp only [soleFields, List.mem_cons, List.not_mem_nil, or_false] at sole
  rcases sole with rfl | rfl | rfl | rfl | rfl
  · by_cases low : b < 16
    · exact ⟨smac_15_0, 0, b, low, rfl, rfl, by omega⟩
    · exact ⟨smac_47_16, 16, b - 16, by simp [width, FlowField.width] at *; omega, rfl, rfl, by omega⟩
  · by_cases low : b < 16
    · exact ⟨dmac_15_0, 0, b, low, rfl, rfl, by omega⟩
    · exact ⟨dmac_47_16, 16, b - 16, by simp [width, FlowField.width] at *; omega, rfl, rfl, by omega⟩
  · exact ⟨ethertype, 0, b, bound, rfl, rfl, by omega⟩
  · exact ⟨tcp_sport, 0, b, bound, rfl, rfl, by omega⟩
  · exact ⟨tcp_dport, 0, b, bound, rfl, rfl, by omega⟩

theorem source_counterpart {b : Nat} (high : 32 ≤ b) (bound : b < 128) :
    ∃ spec first bit, bit < spec.width ∧ trigger spec = some .nwSrc ∧
      spec.origins = [(.ipv6Src, first)] ∧ b = first + bit := by
  rcases Nat.lt_or_ge b 64 with low | low
  · exact ⟨src_ip_63_32, 32, b - 32, by simp [width]; omega, rfl, rfl, by omega⟩
  · rcases Nat.lt_or_ge b 96 with middle | middle
    · exact ⟨src_ip_95_64, 64, b - 64, by simp [width]; omega, rfl, rfl, by omega⟩
    · exact ⟨src_ip_127_96, 96, b - 96, by simp [width]; omega, rfl, rfl, by omega⟩

theorem destination_counterpart {b : Nat} (high : 32 ≤ b) (bound : b < 128) :
    ∃ spec first bit, bit < spec.width ∧ trigger spec = some .nwDst ∧
      spec.origins = [(.ipv6Dst, first)] ∧ b = first + bit := by
  rcases Nat.lt_or_ge b 64 with low | low
  · exact ⟨dst_ip_63_32, 32, b - 32, by simp [width]; omega, rfl, rfl, by omega⟩
  · rcases Nat.lt_or_ge b 96 with middle | middle
    · exact ⟨dst_ip_95_64, 64, b - 64, by simp [width]; omega, rfl, rfl, by omega⟩
    · exact ⟨dst_ip_127_96, 96, b - 96, by simp [width]; omega, rfl, rfl, by omega⟩

theorem trigger_of_origin {spec : MatchField} {field : FlowField} {first : Nat}
    (origin : (field, first) ∈ spec.origins) :
    (field ∈ translatedFields → trigger spec = some field) ∧
      (field = .ipv6Src → trigger spec = some .nwSrc) ∧
      (field = .ipv6Dst → trigger spec = some .nwDst) ∧
      (field ∉ FlowField.ipv6Src :: .ipv6Dst :: translatedFields → trigger spec = none) := by
  cases spec <;> simp_all [origins, trigger, translatedFields, soleFields] <;>
    (try rcases origin with ⟨rfl, -⟩ | ⟨rfl, -⟩) <;> simp

theorem exists_counterpart {field : FlowField}
    (member : field ∈ FlowField.ipv6Src :: .ipv6Dst :: translatedFields) {b : Nat}
    (bound : b < field.width) (port : field = .inPort → b < 16) :
    ∃ spec bit, Counterpart field b spec bit := by
  simp only [translatedFields, List.mem_cons] at member
  rcases member with rfl | rfl | rfl | rfl | rfl | sole
  · rcases Nat.lt_or_ge b 32 with low | high
    · exact ⟨src_ip_31_0, b, low, 0, by simp [origins], by omega⟩
    · obtain ⟨spec, first, bit, inside, -, origin, located⟩ := source_counterpart high bound
      exact ⟨spec, bit, inside, first, by simp [origin], located⟩
  · rcases Nat.lt_or_ge b 32 with low | high
    · exact ⟨dst_ip_31_0, b, low, 0, by simp [origins], by omega⟩
    · obtain ⟨spec, first, bit, inside, -, origin, located⟩ := destination_counterpart high bound
      exact ⟨spec, bit, inside, first, by simp [origin], located⟩
  · exact ⟨source_port, b, port rfl, 0, by simp [origins], by omega⟩
  · exact ⟨src_ip_31_0, b, bound, 0, by simp [origins], by omega⟩
  · exact ⟨dst_ip_31_0, b, bound, 0, by simp [origins], by omega⟩
  · obtain ⟨spec, first, bit, inside, -, origin, located⟩ := sole_counterpart sole bound
    exact ⟨spec, bit, inside, first, by simp [origin], located⟩

def AddressWord (nw ipv6 : FlowField) (spec : MatchField) : Prop :=
  spec.width = 32 ∧ (spec.origins = [(nw, 0), (ipv6, 0)] ∨
    ∃ first, 32 ≤ first ∧ first ≤ 96 ∧ spec.origins = [(ipv6, first)])

theorem trigger_cases {spec : MatchField} {cause : FlowField} (fires : trigger spec = some cause) :
    cause ∈ soleFields ∨ (spec = source_port ∧ cause = .inPort) ∨
      (cause = .nwSrc ∧ AddressWord .nwSrc .ipv6Src spec) ∨
      (cause = .nwDst ∧ AddressWord .nwDst .ipv6Dst spec) := by
  cases spec <;> cases fires <;> simp [soleFields, AddressWord, origins, width]

theorem AddressWord.bit {masks : Flow} {nw ipv6 : FlowField} {spec : MatchField}
    (word : AddressWord nw ipv6 spec) {bit : Nat} (bound : bit < spec.width)
    (high : ∀ b, 32 ≤ b → b < 128 → (masks ipv6).getLsbD b = true)
    (low : ∀ b < 32, (masks nw).getLsbD b = true ∨ (masks ipv6).getLsbD b = true) :
    ∃ field b, Counterpart field b spec bit ∧ (masks field).getLsbD b = true := by
  obtain ⟨width, origin | ⟨first, above, fits, origin⟩⟩ := word
  · rcases low bit (by omega) with owned | owned
    · exact ⟨nw, bit, ⟨bound, 0, by simp [origin], by omega⟩, owned⟩
    · exact ⟨ipv6, bit, ⟨bound, 0, by simp [origin], by omega⟩, owned⟩
  · exact ⟨ipv6, first + bit, ⟨bound, first, by simp [origin], rfl⟩,
      high (first + bit) (by omega) (by omega)⟩

section
variable {wc : FlowWildcards}

theorem Preserves.origin_bit (preserves : Preserves wc.masks (wc.convertToMlx5dvDr .zero).2)
    {spec : MatchField} {field cause : FlowField} {first bit : Nat}
    (fires : trigger spec = some cause) (present : wc.masks cause ≠ 0)
    (origin : spec.origins = [(field, first)]) (bound : bit < spec.width) :
    (wc.masks field).getLsbD (first + bit) = true := by
  have isSet := (convertToMlx5dvDr_bit wc spec bit).mpr ⟨bound, cause, fires, present⟩
  obtain ⟨other, b, ⟨-, start, member, rfl⟩, owned⟩ := preserves.sound spec bit isSet
  rw [origin, List.mem_singleton, Prod.mk.injEq] at member
  obtain ⟨rfl, rfl⟩ := member
  exact owned

theorem Preserves.set (preserves : Preserves wc.masks (wc.convertToMlx5dvDr .zero).2)
    {field : FlowField} {b : Nat} (present : (wc.masks field).getLsbD b = true) :
    ∃ spec bit first, (field, first) ∈ spec.origins ∧ b = first + bit ∧ bit < spec.width ∧
      Triggered wc.masks spec := by
  obtain ⟨⟨spec, bit, bound, first, origin, located⟩, filled⟩ := preserves.complete field b present
  have isSet := filled spec bit ⟨bound, first, origin, located⟩
  obtain ⟨-, triggered⟩ := (convertToMlx5dvDr_bit wc spec bit).mp isSet
  exact ⟨spec, bit, first, origin, located, bound, triggered⟩

theorem Preserves.address (preserves : Preserves wc.masks (wc.convertToMlx5dvDr .zero).2)
    {nw ipv6 : FlowField} (low : MatchField) (width : low.width = 32)
    (lowFires : trigger low = some nw) (lowOrigins : low.origins = [(nw, 0), (ipv6, 0)])
    (cause : ∀ {spec first}, (ipv6, first) ∈ MatchField.origins spec → trigger spec = some nw)
    (words : ∀ {b : Nat}, 32 ≤ b → b < 128 → ∃ spec first bit, bit < MatchField.width spec ∧
      trigger spec = some nw ∧ spec.origins = [(ipv6, first)] ∧ b = first + bit) :
    (∀ b, (wc.masks ipv6).getLsbD b = true → wc.masks nw ≠ 0) ∧
      (wc.masks nw ≠ 0 → ∀ b, 32 ≤ b → b < 128 → (wc.masks ipv6).getLsbD b = true) ∧
      (wc.masks nw ≠ 0 → ∀ b < 32,
        (wc.masks nw).getLsbD b = true ∨ (wc.masks ipv6).getLsbD b = true) := by
  refine ⟨fun b present => ?_, fun empty b high bound => ?_, fun empty b bound => ?_⟩
  · obtain ⟨spec, bit, first, origin, -, -, other, fires, caused⟩ := preserves.set present
    rw [cause origin] at fires
    cases fires
    exact caused
  · obtain ⟨spec, first, bit, inside, fires, origin, rfl⟩ := words high bound
    exact preserves.origin_bit fires empty origin inside
  · have isSet := (convertToMlx5dvDr_bit wc low b).mpr ⟨by omega, nw, lowFires, empty⟩
    obtain ⟨field, _, ⟨-, first, origin, rfl⟩, present⟩ := preserves.sound _ _ isSet
    simp only [lowOrigins, List.mem_cons, Prod.mk.injEq, List.not_mem_nil, or_false] at origin
    rcases origin with ⟨rfl, rfl⟩ | ⟨rfl, rfl⟩
    · exact .inl (by simpa using present)
    · exact .inr (by simpa using present)

theorem Preserves.wholeFields (preserves : Preserves wc.masks (wc.convertToMlx5dvDr .zero).2) :
    WholeFields wc.masks where
  others := by
    intro field other
    apply eq_zero_of_bits
    intro b present
    obtain ⟨spec, bit, first, origin, -, -, cause, fires, -⟩ := preserves.set present
    rw [(trigger_of_origin origin).2.2.2 other] at fires
    cases fires
  whole := by
    intro field sole
    by_cases empty : wc.masks field = 0
    · exact .inl empty
    · right
      apply BitVec.eq_of_getLsbD_eq
      intro b bound
      obtain ⟨spec, first, bit, inside, fires, origin, rfl⟩ := sole_counterpart sole bound
      rw [preserves.origin_bit fires empty origin inside, BitVec.getLsbD_allOnes,
        decide_eq_true bound]
  inPort := by
    by_cases empty : wc.masks .inPort = 0
    · exact .inl empty
    · right
      apply BitVec.eq_of_getLsbD_eq
      intro b bound
      change _ = ((BitVec.allOnes 16).setWidth 32).getLsbD b
      rw [BitVec.getLsbD_setWidth, BitVec.getLsbD_allOnes]
      by_cases low : b < 16
      · have whole : (wc.masks .inPort).getLsbD (0 + b) = true :=
          preserves.origin_bit (show trigger source_port = _ from rfl) empty rfl low
        rw [Nat.zero_add] at whole
        simp [whole, low, show b < 32 by omega]
      · have absent : (wc.masks .inPort).getLsbD b ≠ true := by
          intro present
          obtain ⟨spec, bit, first, origin, located, inside, -⟩ := preserves.set present
          cases spec <;> simp [origins, width] at origin inside
          omega
        simp [absent, low]
  source := (wholeAddress_iff _ _).mpr (preserves.address src_ip_31_0 rfl rfl rfl
    (fun origin => (trigger_of_origin origin).2.1 rfl) source_counterpart)
  destination := (wholeAddress_iff _ _).mpr (preserves.address dst_ip_31_0 rfl rfl rfl
    (fun origin => (trigger_of_origin origin).2.2.1 rfl) destination_counterpart)

theorem WholeFields.sound (whole : WholeFields wc.masks) {spec : MatchField} {bit : Nat}
    (bound : bit < spec.width) (triggered : Triggered wc.masks spec) :
    ∃ field b, Counterpart field b spec bit ∧ (wc.masks field).getLsbD b = true := by
  obtain ⟨cause, fires, present⟩ := triggered
  rcases trigger_cases fires with sole | ⟨rfl, rfl⟩ | ⟨rfl, word⟩ | ⟨rfl, word⟩
  · obtain ⟨first, origin, fits⟩ := sole_origin sole fires
    refine ⟨cause, first + bit, ⟨bound, first, by simp [origin], rfl⟩, ?_⟩
    rw [(whole.whole cause sole).resolve_left present, BitVec.getLsbD_allOnes]
    exact decide_eq_true (by omega)
  · refine ⟨.inPort, bit, ⟨bound, 0, by simp [origins], by omega⟩, ?_⟩
    rw [whole.inPort.resolve_left present]
    change ((BitVec.allOnes 16).setWidth 32).getLsbD bit = true
    rw [BitVec.getLsbD_setWidth, BitVec.getLsbD_allOnes]
    have inside : bit < 16 := bound
    simp [inside, show bit < 32 by omega]
  · obtain ⟨-, high, low⟩ := (wholeAddress_iff _ _).mp whole.source
    exact word.bit bound (high present) (low present)
  · obtain ⟨-, high, low⟩ := (wholeAddress_iff _ _).mp whole.destination
    exact word.bit bound (high present) (low present)

theorem WholeFields.preserves (whole : WholeFields wc.masks) :
    Preserves wc.masks (wc.convertToMlx5dvDr .zero).2 where
  sound := by
    intro spec bit isSet
    obtain ⟨bound, triggered⟩ := (convertToMlx5dvDr_bit wc spec bit).mp isSet
    exact whole.sound bound triggered
  complete := by
    intro field b present
    have nonzero := ne_zero_of_bit present
    have member : field ∈ FlowField.ipv6Src :: .ipv6Dst :: translatedFields := by
      by_contra other
      exact nonzero (whole.others field other)
    have fires : ∀ spec first, (field, first) ∈ origins spec → Triggered wc.masks spec := by
      intro spec first origin
      rcases List.mem_cons.mp member with rfl | member
      · exact ⟨.nwSrc, (trigger_of_origin origin).2.1 rfl,
          ((wholeAddress_iff _ _).mp whole.source).1 b present⟩
      · rcases List.mem_cons.mp member with rfl | member
        · exact ⟨.nwDst, (trigger_of_origin origin).2.2.1 rfl,
            ((wholeAddress_iff _ _).mp whole.destination).1 b present⟩
        · exact ⟨field, (trigger_of_origin origin).1 member, nonzero⟩
    constructor
    · refine exists_counterpart member (BitVec.lt_of_getLsbD present) ?_
      rintro rfl
      rw [whole.inPort.resolve_left nonzero] at present
      change ((BitVec.allOnes 16).setWidth 32).getLsbD b = true at present
      rw [BitVec.getLsbD_setWidth, BitVec.getLsbD_allOnes] at present
      simpa using (Bool.and_eq_true_iff.mp present).2
    · rintro spec bit ⟨bound, first, origin, -⟩
      exact (convertToMlx5dvDr_bit wc spec bit).mpr ⟨bound, fires spec first origin⟩

theorem preserves_iff (wc : FlowWildcards) :
    ((wc.convertToMlx5dvDr .zero).1 = .NICC_SUCCESS →
      Preserves wc.masks (wc.convertToMlx5dvDr .zero).2) ↔ WholeFields wc.masks :=
  ⟨fun translated => (translated rfl).wholeFields, fun whole _ => whole.preserves⟩

end

theorem prefix_widened :
    ¬ (((only .nwSrc 0xffffff00).convertToMlx5dvDr .zero).1 = .NICC_SUCCESS →
      Preserves (only .nwSrc 0xffffff00).masks
        ((only .nwSrc 0xffffff00).convertToMlx5dvDr .zero).2) := by
  intro translated
  have source := (translated rfl).wholeFields.source
  have partly : ¬ WholeAddress 0xffffff00 0 := by decide
  exact partly source

end FlowWildcards

end Nicc.Ctrl

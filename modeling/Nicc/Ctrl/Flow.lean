import Mathlib.Data.Fintype.Pi

/-!
# Flows and wildcards

`flow_t` of `mat.h` as the function from its fields to their bits, `in_port` in the order of the
host and the others in that of the network.
-/

namespace Nicc.Ctrl

inductive FlowField
  | coreRetval | padNicc
  | inPort | padPhy
  | dlDst | dlSrc | dlType | padL2
  | nwSrc | nwDst | ctNwSrc | ctNwDst
  | ipv6Src | ipv6Dst | ctIpv6Src | ctIpv6Dst
  | ipv6Label | nwFrag | nwTos | nwTtl | nwProto
  | ndTarget | arpSha | arpTha
  | tcpFlags | padL4First | tpSrc | tpDst | ctTpSrc | ctTpDst
  | igmpGroupIp4 | padL4Second
  deriving DecidableEq, Repr

instance : Fintype FlowField where
  elems := {.coreRetval, .padNicc, .inPort, .padPhy, .dlDst, .dlSrc, .dlType, .padL2, .nwSrc,
    .nwDst, .ctNwSrc, .ctNwDst, .ipv6Src, .ipv6Dst, .ctIpv6Src, .ctIpv6Dst, .ipv6Label, .nwFrag,
    .nwTos, .nwTtl, .nwProto, .ndTarget, .arpSha, .arpTha, .tcpFlags, .padL4First, .tpSrc, .tpDst,
    .ctTpSrc, .ctTpDst, .igmpGroupIp4, .padL4Second}
  complete field := by cases field <;> decide

def FlowField.width : FlowField → Nat
  | coreRetval => 8 | padNicc => 56
  | inPort => 32 | padPhy => 32
  | dlDst => 48 | dlSrc => 48 | dlType => 16 | padL2 => 16
  | nwSrc => 32 | nwDst => 32 | ctNwSrc => 32 | ctNwDst => 32
  | ipv6Src => 128 | ipv6Dst => 128 | ctIpv6Src => 128 | ctIpv6Dst => 128
  | ipv6Label => 32 | nwFrag => 8 | nwTos => 8 | nwTtl => 8 | nwProto => 8
  | ndTarget => 128 | arpSha => 48 | arpTha => 48
  | tcpFlags => 16 | padL4First => 16 | tpSrc => 16 | tpDst => 16 | ctTpSrc => 16 | ctTpDst => 16
  | igmpGroupIp4 => 32 | padL4Second => 32

abbrev Flow : Type := (field : FlowField) → BitVec field.width

namespace Flow

def zero : Flow := fun _ => 0

/-- The number that the host reads from a big-endian field. -/
def stored (value : BitVec 16) : BitVec 16 := value <<< 8 ||| value >>> 8

/-- `operator<`, which compares `tp_dst` and nothing else. -/
def below (a b : Flow) : Bool := stored (a .tpDst) < stored (b .tpDst)

end Flow

structure FlowWildcards where
  masks : Flow
  deriving DecidableEq

def FlowWildcards.only (field : FlowField) (mask : BitVec field.width) : FlowWildcards :=
  ⟨Function.update Flow.zero field mask⟩

end Nicc.Ctrl

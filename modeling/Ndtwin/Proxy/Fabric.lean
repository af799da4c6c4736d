import Ndtwin.Proxy.Pipeline

/-!
# A fabric of switches

`p4_proxy/p4_src/ndtwin_switch.p4` from the other side: what becomes of an IPv4 packet that is
handed from switch to switch. The tables are given by the action they have for each key, so that
they stand for any content; the links say where a frame that leaves through a port arrives.
-/

namespace Ndtwin.Proxy

/-- `CPU_PORT` -/
def cpuPort : BitVec 9 := 255

/-- The port that `mark_to_drop` sets. -/
def dropPort : BitVec 9 := 511

/-- An action of the ingress tables. -/
inductive IngressAction where
  | ipv4Forward (dstAddr : BitVec 48) (port : BitVec 9)
  | drop
  | sendToCpu
  | noAction
  deriving DecidableEq, Repr

/-- The content of `flow_5tuple` and `ipv4_lpm`, as the action of a key; `none` is a miss. -/
structure IngressTables where
  flow5tuple : PacketKeys → Option IngressAction
  ipv4Lpm : PacketKeys → Option IngressAction

/-- A packet with a valid IPv4 header, from a data port. -/
structure Ipv4Packet where
  /-- The table keys; the ingress port is that of the switch the packet arrived at last. -/
  keys : PacketKeys
  ttl : UInt8
  srcMac : BitVec 48
  dstMac : BitVec 48

/-- The keys of a packet that arrives through a port. -/
def PacketKeys.arriving (p : PacketKeys) (port : BitVec 9) : PacketKeys where
  value field := if field = .ingressPort then port.toNat else p.value field
  value_lt field := by
    split
    · next h => subst h; exact port.isLt
    · exact p.value_lt field

/-- The table part of `MyIngress.apply`: the 5-tuple table first, then the destination, whose
    default action is `send_to_cpu`. -/
def IngressTables.action (t : IngressTables) (keys : PacketKeys) : IngressAction :=
  match t.flow5tuple keys with
  | some action => action
  | none => (t.ipv4Lpm keys).getD .sendToCpu

namespace IngressAction

/-- `standard_metadata.egress_spec` after the action; it is 0 before it. -/
def egressSpec : IngressAction → BitVec 9
  | .ipv4Forward _ port => port
  | .drop => dropPort
  | .sendToCpu => cpuPort
  | .noAction => 0

/-- What the action does to the headers. -/
def rewrite (action : IngressAction) (p : Ipv4Packet) : Ipv4Packet :=
  match action with
  | .ipv4Forward dstAddr _ =>
    { p with
      srcMac := p.dstMac
      dstMac := dstAddr
      ttl := if 0 < p.ttl then p.ttl - 1 else p.ttl }
  | .drop | .sendToCpu | .noAction => p

/-- The action is `ipv4_forward` and the packet leaves through a port that is not the CPU's. -/
def forwardsOut : IngressAction → Bool
  | .ipv4Forward _ port => port ≠ cpuPort ∧ port ≠ dropPort
  | .drop | .sendToCpu | .noAction => false

end IngressAction

/-- Switches, and where a frame that leaves one of them through a port arrives. No link ends at
    the CPU port: what comes from there is a packet-out of the controller. -/
structure Fabric (ι : Type) where
  tables : ι → IngressTables
  links : ι → BitVec 9 → Option (ι × BitVec 9)
  links_data : ∀ i port j port', links i port = some (j, port') → port' ≠ cpuPort

/-- A packet about to be processed by a switch. -/
structure Arrival (ι : Type) where
  switch : ι
  packet : Ipv4Packet

namespace Fabric

variable {ι : Type} (f : Fabric ι)

/-- The action that the switch takes. -/
def actionAt (a : Arrival ι) : IngressAction := (f.tables a.switch).action a.packet.keys

/-- One hop: `none` when the packet is dropped, handed to the controller, or leaves the fabric. -/
def hop (a : Arrival ι) : Option (Arrival ι) :=
  let action := f.actionAt a
  if action.egressSpec = cpuPort ∨ action.egressSpec = dropPort then none
  else
    (f.links a.switch action.egressSpec).map fun (next, port) =>
      let packet := action.rewrite a.packet
      { switch := next, packet := { packet with keys := packet.keys.arriving port } }

/-- The switches that process the packet, up to `n` of them. -/
def visits : (n : Nat) → Arrival ι → List (Arrival ι)
  | 0, _ => []
  | n + 1, a =>
    a :: match f.hop a with
      | none => []
      | some a' => visits n a'

/-- How often `ipv4_forward` sends the packet out of a port, in the first `n` switches. -/
def forwards (n : Nat) (a : Arrival ι) : Nat :=
  (f.visits n a).countP fun v => (f.actionAt v).forwardsOut

end Fabric

end Ndtwin.Proxy

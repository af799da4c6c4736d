import Ndtwin.Proxy.P4Client

/-!
# The ingress pipeline

`p4_proxy/p4_src/ndtwin_switch.p4`: how the tables of a switch treat an IPv4 packet. The parser
has turned the packet into the values of the table keys, with the L4 ports lifted into metadata;
`flow_5tuple` is tried first, by priority, and `ipv4_lpm` after it. The packet is one that comes
in through a data port: what comes in through `CPU_PORT` carries a header of the controller, which
says where it goes, and no table is asked.
-/

namespace Ndtwin.Proxy

/-- What the tables see of an IPv4 packet from a data port: a value for each key, of its width. -/
structure PacketKeys where
  value : P4Field → Nat
  value_lt : ∀ field, value field < 2 ^ field.bits

/-- A ternary key is hit by a value that agrees with it where the mask is set. -/
def TernaryMatch.hits (t : TernaryMatch) (p : PacketKeys) : Bool :=
  p.value t.field &&& Python.fromBytes t.mask =
    Python.fromBytes t.value &&& Python.fromBytes t.mask

/-- A `flow_5tuple` entry: keys that it does not name are not looked at. -/
def FiveTupleKey.hits (key : FiveTupleKey) (p : PacketKeys) : Bool :=
  key.keys.all fun t => t.hits p

/-- An `ipv4_lpm` entry: the first bits of the destination agree. -/
def LpmKey.hits (key : LpmKey) (p : PacketKeys) : Bool :=
  p.value .dstAddr / 2 ^ (32 - key.prefixLen) =
    Python.fromBytes key.value / 2 ^ (32 - key.prefixLen)

/-- What the ingress tables decide about a packet. -/
inductive Verdict where
  | forward (port : Nat)
  /-- The default action of `ipv4_lpm`. -/
  | sendToCpu
  deriving DecidableEq, Repr

/-- The table part of `MyIngress.apply`: a hit of `flow_5tuple` of maximal priority, else the
    longest prefix of `ipv4_lpm`, else its default action. Which of several hits of the same
    priority wins is not determined. -/
inductive P4Switch.Decides (switch : P4Switch) (p : PacketKeys) : Verdict → Prop where
  | flow5tuple {key : FiveTupleKey} {action : Forward}
      (hentry : switch.flow5tuple.lookup key = some action) (hhits : key.hits p = true)
      (hbest : ∀ key' ∈ switch.flow5tuple, key'.hits p = true → key'.priority ≤ key.priority) :
      switch.Decides p (.forward (Python.fromBytes action.port))
  | ipv4Lpm (hmiss : ∀ key ∈ switch.flow5tuple, key.hits p = false)
      {key : LpmKey} {action : Forward}
      (hentry : switch.ipv4Lpm.lookup key = some action) (hhits : key.hits p = true)
      (hlongest : ∀ key' ∈ switch.ipv4Lpm, key'.hits p = true →
        key'.prefixLen ≤ key.prefixLen) :
      switch.Decides p (.forward (Python.fromBytes action.port))
  | default (hmiss : ∀ key ∈ switch.flow5tuple, key.hits p = false)
      (hmissLpm : ∀ key ∈ switch.ipv4Lpm, key.hits p = false) :
      switch.Decides p .sendToCpu

end Ndtwin.Proxy

import Ndtwin.ForStd.OnesComplement

/-!
# The program of a switch

`p4_proxy/p4_src/ndtwin_switch.p4`: the headers with their fields, the parser, what the actions
do to a packet, the checksum stage and the deparser. Which action a table selects is a parameter;
`Pipeline` says what the tables hold. The counters and the sampled copies are left out.
-/

namespace Ndtwin.Proxy.Program

open OnesComplement

/-! ## Headers -/

/-- `ethernet_t` -/
structure Ethernet where
  dstAddr : BitVec 48
  srcAddr : BitVec 48
  etherType : BitVec 16
  deriving DecidableEq, Repr

/-- `ipv4_t` -/
structure Ipv4 where
  version : BitVec 4
  ihl : BitVec 4
  diffserv : BitVec 8
  totalLen : BitVec 16
  identification : BitVec 16
  flags : BitVec 3
  fragOffset : BitVec 13
  ttl : BitVec 8
  protocol : BitVec 8
  hdrChecksum : BitVec 16
  srcAddr : BitVec 32
  dstAddr : BitVec 32
  deriving DecidableEq, Repr

/-- `tcp_t` -/
structure Tcp where
  srcPort : BitVec 16
  dstPort : BitVec 16
  seqNo : BitVec 32
  ackNo : BitVec 32
  dataOffset : BitVec 4
  res : BitVec 4
  flags : BitVec 8
  window : BitVec 16
  checksum : BitVec 16
  urgentPtr : BitVec 16
  deriving DecidableEq, Repr

/-- `udp_t` -/
structure Udp where
  srcPort : BitVec 16
  dstPort : BitVec 16
  length_ : BitVec 16
  checksum : BitVec 16
  deriving DecidableEq, Repr

/-- `icmp_t` -/
structure Icmp where
  icmpType : BitVec 8
  icmpCode : BitVec 8
  checksum : BitVec 16
  deriving DecidableEq, Repr

/-- `packet_in_header_t` -/
structure PacketInHeader where
  reason : BitVec 8
  ingressPort : BitVec 9
  egressPort : BitVec 9
  frameLength : BitVec 16
  samplingRate : BitVec 16
  pad : BitVec 6
  deriving DecidableEq, Repr

/-- `packet_out_header_t` -/
structure PacketOutHeader where
  egressPort : BitVec 9
  pad : BitVec 7
  deriving DecidableEq, Repr

/-- `headers`; a header that is not valid is missing. -/
structure Headers where
  packetOut : Option PacketOutHeader := none
  packetIn : Option PacketInHeader := none
  ethernet : Option Ethernet := none
  ipv4 : Option Ipv4 := none
  tcp : Option Tcp := none
  udp : Option Udp := none
  icmp : Option Icmp := none
  deriving DecidableEq, Repr

/-! A header on the wire: its fields in order, the first one in the highest bits. -/

def Ethernet.toBits (h : Ethernet) : BitVec 112 := h.dstAddr ++ h.srcAddr ++ h.etherType

def Ethernet.ofBits (v : BitVec 112) : Ethernet where
  dstAddr := v.extractLsb' 64 48
  srcAddr := v.extractLsb' 16 48
  etherType := v.extractLsb' 0 16

def Ipv4.toBits (h : Ipv4) : BitVec 160 :=
  h.version ++ h.ihl ++ h.diffserv ++ h.totalLen ++ h.identification ++ h.flags ++ h.fragOffset ++
    h.ttl ++ h.protocol ++ h.hdrChecksum ++ h.srcAddr ++ h.dstAddr

def Ipv4.ofBits (v : BitVec 160) : Ipv4 where
  version := v.extractLsb' 156 4
  ihl := v.extractLsb' 152 4
  diffserv := v.extractLsb' 144 8
  totalLen := v.extractLsb' 128 16
  identification := v.extractLsb' 112 16
  flags := v.extractLsb' 109 3
  fragOffset := v.extractLsb' 96 13
  ttl := v.extractLsb' 88 8
  protocol := v.extractLsb' 80 8
  hdrChecksum := v.extractLsb' 64 16
  srcAddr := v.extractLsb' 32 32
  dstAddr := v.extractLsb' 0 32

def Tcp.toBits (h : Tcp) : BitVec 160 :=
  h.srcPort ++ h.dstPort ++ h.seqNo ++ h.ackNo ++ h.dataOffset ++ h.res ++ h.flags ++ h.window ++
    h.checksum ++ h.urgentPtr

def Tcp.ofBits (v : BitVec 160) : Tcp where
  srcPort := v.extractLsb' 144 16
  dstPort := v.extractLsb' 128 16
  seqNo := v.extractLsb' 96 32
  ackNo := v.extractLsb' 64 32
  dataOffset := v.extractLsb' 60 4
  res := v.extractLsb' 56 4
  flags := v.extractLsb' 48 8
  window := v.extractLsb' 32 16
  checksum := v.extractLsb' 16 16
  urgentPtr := v.extractLsb' 0 16

def Udp.toBits (h : Udp) : BitVec 64 := h.srcPort ++ h.dstPort ++ h.length_ ++ h.checksum

def Udp.ofBits (v : BitVec 64) : Udp where
  srcPort := v.extractLsb' 48 16
  dstPort := v.extractLsb' 32 16
  length_ := v.extractLsb' 16 16
  checksum := v.extractLsb' 0 16

def Icmp.toBits (h : Icmp) : BitVec 32 := h.icmpType ++ h.icmpCode ++ h.checksum

def Icmp.ofBits (v : BitVec 32) : Icmp where
  icmpType := v.extractLsb' 24 8
  icmpCode := v.extractLsb' 16 8
  checksum := v.extractLsb' 0 16

def PacketInHeader.toBits (h : PacketInHeader) : BitVec 64 :=
  h.reason ++ h.ingressPort ++ h.egressPort ++ h.frameLength ++ h.samplingRate ++ h.pad

def PacketOutHeader.ofBits (v : BitVec 16) : PacketOutHeader where
  egressPort := v.extractLsb' 7 9
  pad := v.extractLsb' 0 7

/-! ## Parser -/

def typeIpv4 : BitVec 16 := 0x0800
def typeLldp : BitVec 16 := 0x88CC
def ipProtoIcmp : BitVec 8 := 1
def ipProtoTcp : BitVec 8 := 6
def ipProtoUdp : BitVec 8 := 17
def cpuPort : BitVec 9 := 255
def pktinReasonPacketIn : BitVec 8 := 0

/-- The fields of `metadata` that the tables look at. -/
structure Metadata where
  l4SrcPort : BitVec 16 := 0
  l4DstPort : BitVec 16 := 0
  deriving DecidableEq, Repr

/-- What the parser has got: the headers so far, and the bytes behind them. -/
structure Parsed where
  hdr : Headers := {}
  metadata : Metadata := {}
  payload : List UInt8
  deriving DecidableEq, Repr

/-- `packet.extract(..)` of a header of `w` bits: `none` when the packet is too short. -/
def extract (w : Nat) (packet : List UInt8) : Option (BitVec w × List UInt8) :=
  if packet.length < w / 8 then none
  else some (BitVec.ofNat w (Python.fromBytes (packet.take (w / 8))), packet.drop (w / 8))

/-- `parse_tcp` -/
def parseTcp (p : Parsed) : Parsed :=
  match extract 160 p.payload with
  | none => p
  | some (bits, rest) =>
    let tcp := Tcp.ofBits bits
    { hdr := { p.hdr with tcp := some tcp }
      metadata := { l4SrcPort := tcp.srcPort, l4DstPort := tcp.dstPort }
      payload := rest }

/-- `parse_udp` -/
def parseUdp (p : Parsed) : Parsed :=
  match extract 64 p.payload with
  | none => p
  | some (bits, rest) =>
    let udp := Udp.ofBits bits
    { hdr := { p.hdr with udp := some udp }
      metadata := { l4SrcPort := udp.srcPort, l4DstPort := udp.dstPort }
      payload := rest }

/-- `parse_icmp` -/
def parseIcmp (p : Parsed) : Parsed :=
  match extract 32 p.payload with
  | none => p
  | some (bits, rest) =>
    let icmp := Icmp.ofBits bits
    { hdr := { p.hdr with icmp := some icmp }
      -- type and code stand where the ports of TCP and UDP stand
      metadata := { l4SrcPort := icmp.icmpType.setWidth 16, l4DstPort := icmp.icmpCode.setWidth 16 }
      payload := rest }

/-- `parse_ipv4` -/
def parseIpv4 (p : Parsed) : Parsed :=
  match extract 160 p.payload with
  | none => p
  | some (bits, rest) =>
    let ipv4 := Ipv4.ofBits bits
    let p := { p with hdr := { p.hdr with ipv4 := some ipv4 }, payload := rest }
    -- a later fragment has no header behind this one; options are not skipped
    if ipv4.fragOffset = 0 ∧ ipv4.protocol = ipProtoTcp then parseTcp p
    else if ipv4.fragOffset = 0 ∧ ipv4.protocol = ipProtoUdp then parseUdp p
    else if ipv4.fragOffset = 0 ∧ ipv4.protocol = ipProtoIcmp then parseIcmp p
    else p

/-- `parse_ethernet` -/
def parseEthernet (p : Parsed) : Parsed :=
  match extract 112 p.payload with
  | none => p
  | some (bits, rest) =>
    let ethernet := Ethernet.ofBits bits
    let p := { p with hdr := { p.hdr with ethernet := some ethernet }, payload := rest }
    if ethernet.etherType = typeIpv4 then parseIpv4 p else p

/-- `MyParser` -/
def parse (ingressPort : BitVec 9) (packet : List UInt8) : Parsed :=
  -- a packet of the controller has a header of its own in front
  if ingressPort = cpuPort then
    match extract 16 packet with
    | none => { payload := packet }
    | some (bits, rest) =>
      parseEthernet { hdr := { packetOut := some (.ofBits bits) }, payload := rest }
  else parseEthernet { payload := packet }

/-! ## Ingress -/

/-- What a table selects for a packet. -/
inductive TableAction where
  | ipv4Forward (dstAddr : BitVec 48) (port : BitVec 9)
  | forwardL2 (port : BitVec 9)
  | drop
  | sendToCpu
  | noAction
  deriving DecidableEq, Repr

/-- `ipv4_forward`, on the headers. -/
def ipv4Forward (dstAddr : BitVec 48) (hdr : Headers) : Headers :=
  { hdr with
    ethernet := hdr.ethernet.map fun h => { h with srcAddr := h.dstAddr, dstAddr := dstAddr }
    ipv4 := hdr.ipv4.map fun h => if h.ttl > 0 then { h with ttl := h.ttl - 1 } else h }

/-- `send_to_cpu`, on the headers. -/
def sendToCpu (ingressPort : BitVec 9) (hdr : Headers) : Headers :=
  { hdr with
    packetIn := some {
      reason := pktinReasonPacketIn
      ingressPort := ingressPort
      egressPort := 0
      frameLength := 0
      samplingRate := 0
      pad := 0 } }

/-- The egress port and the headers after an action; `none` is a packet that is dropped. -/
def TableAction.apply (action : TableAction) (ingressPort : BitVec 9) (hdr : Headers) :
    Option (BitVec 9) × Headers :=
  match action with
  | .ipv4Forward dstAddr port => (some port, Program.ipv4Forward dstAddr hdr)
  | .forwardL2 port => (some port, hdr)
  | .drop => (none, hdr)
  | .sendToCpu => (some cpuPort, Program.sendToCpu ingressPort hdr)
  -- the egress port keeps its initial value
  | .noAction => (some 0, hdr)

/-- What the tables select: `flow_5tuple` and `ipv4_lpm` for an IPv4 packet, `l2_forward` for
    another frame. -/
abbrev Tables := BitVec 9 → Headers → Metadata → TableAction

/-- `MyIngress.apply` -/
def ingress (tables : Tables) (ingressPort : BitVec 9) (hdr : Headers) (metadata : Metadata) :
    Option (BitVec 9) × Headers :=
  match hdr.packetOut with
  -- the controller has said where it goes
  | some out => (some out.egressPort, hdr)
  | none =>
    match hdr.ipv4, hdr.ethernet with
    | some _, _ => (tables ingressPort hdr metadata).apply ingressPort hdr
    | none, none => (some 0, hdr)
    | none, some ethernet =>
      if ethernet.etherType = typeLldp then TableAction.sendToCpu.apply ingressPort hdr
      else (tables ingressPort hdr metadata).apply ingressPort hdr

/-! ## Egress -/

/-- The fields that the checksum is computed over. -/
def Ipv4.checksummed (h : Ipv4) : BitVec 144 :=
  h.version ++ h.ihl ++ h.diffserv ++ h.totalLen ++ h.identification ++ h.flags ++ h.fragOffset ++
    h.ttl ++ h.protocol ++ h.srcAddr ++ h.dstAddr

/-- `update_checksum(..)` -/
def Ipv4.updateChecksum (h : Ipv4) : Ipv4 :=
  { h with hdrChecksum := BitVec.ofNat 16 (csum16 (Python.bytesOf 18 h.checksummed.toNat)) }

/-- `MyComputeChecksum` -/
def computeChecksum (hdr : Headers) : Headers :=
  { hdr with ipv4 := hdr.ipv4.map Ipv4.updateChecksum }

/-- `packet.emit(..)` -/
def emit {w : Nat} (bits : Option (BitVec w)) : List UInt8 :=
  (bits.map fun v => Python.bytesOf (w / 8) v.toNat).getD []

/-- `MyDeparser`, and what was not parsed. -/
def deparse (hdr : Headers) (payload : List UInt8) : List UInt8 :=
  emit (hdr.packetIn.map PacketInHeader.toBits) ++ emit (hdr.ethernet.map Ethernet.toBits) ++
    emit (hdr.ipv4.map Ipv4.toBits) ++ emit (hdr.tcp.map Tcp.toBits) ++
    emit (hdr.udp.map Udp.toBits) ++ emit (hdr.icmp.map Icmp.toBits) ++ payload

/-- A packet through the switch: the port and the bytes that it leaves with. -/
def run (tables : Tables) (ingressPort : BitVec 9) (packet : List UInt8) :
    Option (BitVec 9 × List UInt8) :=
  let p := parse ingressPort packet
  match ingress tables ingressPort p.hdr p.metadata with
  | (none, _) => none
  | (some port, hdr) =>
    some (port, deparse (computeChecksum { hdr with packetOut := none }) p.payload)

end Ndtwin.Proxy.Program

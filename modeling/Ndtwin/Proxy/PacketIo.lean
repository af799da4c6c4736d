import Ndtwin.Proxy.LldpBeacon
import Ndtwin.Proxy.SFlowEmitter
import Ndtwin.Proxy.SwitchProgram

/-!
# Packets between a switch and its controller

The CPU port of `p4_proxy/p4_src/ndtwin_switch.p4` and the client at the other end of the stream,
`send_packet_out` and `handle_packet_in` of `p4_client.py` with `sample_from_packet_in` of
`sflow_emitter.py`. The P4Runtime server of the switch stands between the two: it writes the
metadata of a packet-out as a `packet_out` header in front of the frame, and turns the first 64
bits of what leaves through the CPU port into the metadata of a packet-in.
-/

namespace Ndtwin.Proxy

namespace Program

/-! ## The CPU port -/

def pktinReasonSample : BitVec 8 := 1
def sampleRate : BitVec 16 := 256
def sampleTruncBytes : Nat := 128

def PacketInHeader.ofBits (v : BitVec 64) : PacketInHeader where
  reason := v.extractLsb' 56 8
  ingressPort := v.extractLsb' 47 9
  egressPort := v.extractLsb' 38 9
  frameLength := v.extractLsb' 22 16
  samplingRate := v.extractLsb' 6 16
  pad := v.extractLsb' 0 6

def PacketOutHeader.toBits (h : PacketOutHeader) : BitVec 16 := h.egressPort ++ h.pad

/-- `packet_in` of a sampled copy, as `MyEgress` fills it in. -/
def sampleHeader (ingressPort egressPort : BitVec 9) (packet : List UInt8) : PacketInHeader where
  reason := pktinReasonSample
  ingressPort := ingressPort
  egressPort := egressPort
  frameLength := BitVec.ofNat 16 packet.length
  samplingRate := sampleRate
  pad := 0

/-- The copy that is cloned when a packet is sampled: the packet as it came in, behind a header
    of its own, cut off after `SAMPLE_TRUNC_BYTES`. -/
def sampledCopy (ingressPort egressPort : BitVec 9) (packet : List UInt8) : List UInt8 :=
  let p := parse ingressPort packet
  let hdr := { p.hdr with
    packetIn := some (sampleHeader ingressPort egressPort packet), packetOut := none }
  (deparse (computeChecksum hdr) p.payload).take sampleTruncBytes

end Program

/-- A packet-in or packet-out of P4Runtime: metadata by id, and the frame. -/
structure PacketMessage where
  metadata : List (Nat × List UInt8)
  payload : List UInt8
  deriving DecidableEq, Repr

/-- What the server makes of a packet that leaves through the CPU port. A packet with less than a
    header is dropped. -/
def packetInOf (packet : List UInt8) : Option PacketMessage :=
  (Program.extract 64 packet).map fun (bits, frame) =>
    let h := Program.PacketInHeader.ofBits bits
    { metadata := [
        (1, Python.bytesOf 1 h.reason.toNat), (2, Python.bytesOf 2 h.ingressPort.toNat),
        (3, Python.bytesOf 2 h.egressPort.toNat), (4, Python.bytesOf 2 h.frameLength.toNat),
        (5, Python.bytesOf 2 h.samplingRate.toNat), (6, Python.bytesOf 1 h.pad.toNat)]
      payload := frame }

/-- The value of a metadata field; the last one of an id counts. -/
def PacketMessage.valueOf (msg : PacketMessage) (id default : Nat) : Nat :=
  msg.metadata.foldl (fun value field =>
    if field.1 = id then Python.fromBytes field.2 else value) default

/-- What the server puts into the pipeline for a packet-out: a value that does not fit its field
    is refused. -/
def packetOutOf (msg : PacketMessage) : Option (List UInt8) :=
  let egressPort := msg.valueOf 1 0
  let pad := msg.valueOf 2 0
  if egressPort < 2 ^ 9 ∧ pad < 2 ^ 7 then
    let h : Program.PacketOutHeader :=
      { egressPort := BitVec.ofNat 9 egressPort, pad := BitVec.ofNat 7 pad }
    some (Program.emit (some h.toBits) ++ msg.payload)
  else none

/-! ## The client -/

/-- `send_packet_out` -/
def sendPacketOut (egressPort : Int) (payload : List UInt8) : Except Python.Error PacketMessage := do
  let port ← Python.toBytes 2 egressPort
  return { metadata := [(1, port), (2, [0])], payload := payload }

/-- `sample_from_packet_in` -/
def sampleFromPacketIn (packetIn : PacketMessage) : Option SampledPacket :=
  -- PKTIN_META_REASON is 1, PKTIN_REASON_PACKET_IN is 0 and PKTIN_REASON_SAMPLE is 1
  if packetIn.valueOf 1 0 ≠ 1 then none
  else
    let frame := packetIn.payload
    if frame.isEmpty then none
    else
      let samplingRate := packetIn.valueOf 5 0
      if samplingRate = 0 then none
      else
        let reported := packetIn.valueOf 4 0
        some {
          ingressPort := packetIn.valueOf 2 0
          egressPort := packetIn.valueOf 3 0
          frameLength := if reported = 0 then frame.length else reported
          samplingRate := samplingRate
          frame := frame }

/-- Where `handle_packet_in` of the client takes a packet. -/
inductive CpuPacket where
  | sample (sample : SampledPacket)
  | packetIn (ingressPort : Int) (payload : List UInt8)

/-- `handle_packet_in` of the client: telemetry is told apart by its metadata. -/
def dispatchPacketIn (packet : PacketMessage) : CpuPacket :=
  match sampleFromPacketIn packet with
  | some sample => .sample sample
  | none => .packetIn (packet.valueOf 2 0) packet.payload

end Ndtwin.Proxy

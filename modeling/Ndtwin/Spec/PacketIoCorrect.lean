import Ndtwin.Proxy.PacketIo
import Ndtwin.Spec.HeaderChecksumCorrect
import Ndtwin.Spec.LldpBeaconCorrect

/-!
# Packets between a switch and its controller

A frame with the LLDP ethertype that comes in on a cable leaves through the CPU port, whatever the
tables hold, and the client hands it on as it was, with the port it came in on. Any other frame
keeps its ethertype on its way through the switch, and so does what is punted of it. A sampled
copy never gets past the client.

## Key results

- `extract_emit`: a header that was written is read back
- `run_packetOut`: a packet-out leaves by the port it names, as it was sent
- `run_of_lldp`: an LLDP frame goes to the controller
- `run_of_not_lldp`: what becomes of any other frame
- `dispatchPacketIn_sampledCopy`: a sampled copy is no packet-in
-/

namespace Ndtwin.Proxy.Program

open Python

/-! ## Headers read back -/

theorem length_emit {w : Nat} (bits : BitVec w) : (emit (some bits)).length = w / 8 :=
  length_bytesOf _ _

/-- Writing a header and reading it again. -/
theorem extract_emit {w : Nat} (hw : 8 ∣ w) (bits : BitVec w) (rest : List UInt8) :
    extract w (emit (some bits) ++ rest) = some (bits, rest) := by
  have hlen := length_emit bits
  have hlt : bits.toNat < 256 ^ (w / 8) := by
    rw [show 256 = 2 ^ 8 from rfl, ← pow_mul, Nat.mul_div_cancel' hw]
    exact bits.isLt
  have hbits : fromBytes (emit (some bits)) = bits.toNat := fromBytes_bytesOf hlt
  rw [extract, if_neg (by rw [List.length_append]; omega), List.take_left' hlen,
    List.drop_left' hlen, hbits, BitVec.ofNat_toNat, BitVec.setWidth_eq]

/-- Bits of an appended vector, in numbers. -/
theorem toNat_extractLsb'_append {v w : Nat} (x : BitVec v) (y : BitVec w) (start len : Nat) :
    ((x ++ y).extractLsb' start len).toNat =
      (x.toNat * 2 ^ w + y.toNat) / 2 ^ start % 2 ^ len := by
  rw [BitVec.extractLsb'_toNat, Nat.shiftRight_eq_div_pow, toNat_append_eq]

theorem Ethernet.ofBits_toBits (h : Ethernet) : Ethernet.ofBits h.toBits = h := by
  obtain ⟨dst, src, type⟩ := h
  have hdst := dst.isLt
  have hsrc := src.isLt
  have htype := type.isLt
  unfold Ethernet.toBits Ethernet.ofBits
  simp only [Ethernet.mk.injEq, ← BitVec.toNat_inj, toNat_extractLsb'_append, toNat_append_eq]
  omega

theorem PacketInHeader.ofBits_toBits (h : PacketInHeader) : PacketInHeader.ofBits h.toBits = h := by
  obtain ⟨reason, ingressPort, egressPort, frameLength, samplingRate, pad⟩ := h
  have hreason := reason.isLt
  have hingress := ingressPort.isLt
  have hegress := egressPort.isLt
  have hlength := frameLength.isLt
  have hrate := samplingRate.isLt
  have hpad := pad.isLt
  unfold PacketInHeader.toBits PacketInHeader.ofBits
  simp only [PacketInHeader.mk.injEq, ← BitVec.toNat_inj, toNat_extractLsb'_append,
    toNat_append_eq]
  omega

theorem PacketOutHeader.ofBits_toBits (h : PacketOutHeader) :
    PacketOutHeader.ofBits h.toBits = h := by
  obtain ⟨egressPort, pad⟩ := h
  have hegress := egressPort.isLt
  have hpad := pad.isLt
  unfold PacketOutHeader.toBits PacketOutHeader.ofBits
  simp only [PacketOutHeader.mk.injEq, ← BitVec.toNat_inj, toNat_extractLsb'_append]
  omega

/-! ## The ethertype of a frame -/

/-- The ethertype of a frame; `none` when it is too short to have one. -/
def etherTypeOf (frame : List UInt8) : Option (BitVec 16) :=
  (extract 112 frame).map fun header => (Ethernet.ofBits header.1).etherType

theorem etherTypeOf_emit (h : Ethernet) (rest : List UInt8) :
    etherTypeOf (emit (some h.toBits) ++ rest) = some h.etherType := by
  rw [etherTypeOf, extract_emit (by decide), Option.map_some, Ethernet.ofBits_toBits]

/-- What a frame starts with, and what is left of it. -/
theorem exists_ethernet {frame : List UInt8} {type : BitVec 16} (h : etherTypeOf frame = some type) :
    ∃ bits rest, extract 112 frame = some (bits, rest) ∧
      (Ethernet.ofBits bits).etherType = type := by
  obtain ⟨⟨bits, rest⟩, hextract, htype⟩ := Option.map_eq_some_iff.mp h
  exact ⟨bits, rest, hextract, htype⟩

/-- The bytes 12 and 13 of a frame with the type 0x88cc. -/
theorem etherTypeOf_eq_lldp {addresses rest : List UInt8} (haddresses : addresses.length = 12) :
    etherTypeOf (addresses ++ 0x88 :: 0xcc :: rest) = some typeLldp := by
  have hsplit : (addresses ++ 0x88 :: 0xcc :: rest).take 14 = addresses ++ [0x88, 0xcc] := by
    rw [List.take_append, haddresses, List.take_of_length_le (by omega)]
    rfl
  have hlast : fromBytes [0x88, 0xcc] = 0x88cc := by decide
  rw [etherTypeOf, extract, if_neg (by simp [haddresses]; omega)]
  rw [Option.map_some, Option.some.injEq, ← BitVec.toNat_inj, Ethernet.ofBits]
  dsimp only
  rw [BitVec.extractLsb'_toNat, BitVec.toNat_ofNat, hsplit, fromBytes_append, hlast,
    Nat.shiftRight_zero]
  show _ = 0x88cc
  simp only [List.length_cons, List.length_nil]
  omega

/-- A beacon has the type of LLDP. -/
theorem etherTypeOf_of_beacon {frame : List UInt8} {dpid port : Int}
    (h : parseLldpPacket frame = .ok (some (dpid, port))) : etherTypeOf frame = some typeLldp := by
  obtain ⟨haddresses⟩ := parseLldpPacket_eq_some_iff.mp h
  exact etherTypeOf_eq_lldp haddresses

/-! ## A packet through the parser -/

section Parse

variable {ingressPort : BitVec 9} {frame : List UInt8} {bits : BitVec 112} {rest : List UInt8}

/-- The same headers up to the Ethernet header. -/
def SameFront (p p' : Parsed) : Prop :=
  p'.hdr.packetOut = p.hdr.packetOut ∧ p'.hdr.packetIn = p.hdr.packetIn ∧
    p'.hdr.ethernet = p.hdr.ethernet

theorem sameFront_parseTcp (p : Parsed) : SameFront p (parseTcp p) := by
  unfold parseTcp
  split <;> exact ⟨rfl, rfl, rfl⟩

theorem sameFront_parseUdp (p : Parsed) : SameFront p (parseUdp p) := by
  unfold parseUdp
  split <;> exact ⟨rfl, rfl, rfl⟩

theorem sameFront_parseIcmp (p : Parsed) : SameFront p (parseIcmp p) := by
  unfold parseIcmp
  split <;> exact ⟨rfl, rfl, rfl⟩

/-- The states from `parse_ipv4` on add headers behind the Ethernet header. -/
theorem sameFront_parseIpv4 (p : Parsed) : SameFront p (parseIpv4 p) := by
  unfold parseIpv4
  split
  · exact ⟨rfl, rfl, rfl⟩
  · dsimp only
    split_ifs
    · exact sameFront_parseTcp _
    · exact sameFront_parseUdp _
    · exact sameFront_parseIcmp _
    · exact ⟨rfl, rfl, rfl⟩

/-- A frame on a cable is parsed from its Ethernet header on. -/
theorem parse_front (hport : ingressPort ≠ cpuPort) (h : extract 112 frame = some (bits, rest)) :
    (parse ingressPort frame).hdr.packetOut = none ∧
      (parse ingressPort frame).hdr.packetIn = none ∧
      (parse ingressPort frame).hdr.ethernet = some (Ethernet.ofBits bits) := by
  rw [parse, if_neg hport, parseEthernet]
  dsimp only
  rw [h]
  dsimp only
  split
  · exact sameFront_parseIpv4 _
  · exact ⟨rfl, rfl, rfl⟩

/-- A frame that is no IPv4 packet is its Ethernet header and a payload. -/
theorem parse_of_not_ipv4 (hport : ingressPort ≠ cpuPort)
    (h : extract 112 frame = some (bits, rest))
    (htype : (Ethernet.ofBits bits).etherType ≠ typeIpv4) :
    parse ingressPort frame =
      { hdr := { ethernet := some (Ethernet.ofBits bits) }, payload := rest } := by
  rw [parse, if_neg hport, parseEthernet]
  dsimp only
  rw [h]
  exact if_neg htype

/-- A frame that is too short is all payload. -/
theorem parse_of_short (hport : ingressPort ≠ cpuPort) (h : extract 112 frame = none) :
    parse ingressPort frame = { payload := frame } := by
  rw [parse, if_neg hport, parseEthernet]
  dsimp only
  rw [h]

end Parse

/-- The bytes behind the Ethernet header. -/
def behindEthernet (hdr : Headers) (payload : List UInt8) : List UInt8 :=
  emit (hdr.ipv4.map Ipv4.toBits) ++ emit (hdr.tcp.map Tcp.toBits) ++
    emit (hdr.udp.map Udp.toBits) ++ emit (hdr.icmp.map Icmp.toBits) ++ payload

theorem deparse_eq (hdr : Headers) (payload : List UInt8) :
    deparse hdr payload = emit (hdr.packetIn.map PacketInHeader.toBits) ++
      (emit (hdr.ethernet.map Ethernet.toBits) ++ behindEthernet hdr payload) := by
  simp [deparse, behindEthernet, List.append_assoc]

@[simp] theorem emit_none {w : Nat} : emit (none : Option (BitVec w)) = [] := rfl

/-! ## A frame through a switch -/

/-- The header that `send_to_cpu` fills in. -/
def puntHeader (ingressPort : BitVec 9) : PacketInHeader where
  reason := pktinReasonPacketIn
  ingressPort := ingressPort
  egressPort := 0
  frameLength := 0
  samplingRate := 0
  pad := 0

/-- The action sends to the CPU port without the header that goes there. -/
def TableAction.namesCpu : TableAction → Bool
  | .ipv4Forward _ port | .forwardL2 port => port = cpuPort
  | .drop | .sendToCpu | .noAction => false

/-- No table selects an action that sends to the CPU port without its header. -/
def SparesCpu (tables : Tables) : Prop :=
  ∀ ingressPort hdr metadata, (tables ingressPort hdr metadata).namesCpu = false

/-- What an action leaves in front of the IPv4 header: either the packet is punted, or it keeps
    its ethertype. -/
theorem apply_front {action : TableAction} {ingressPort port : BitVec 9} {hdr hdr' : Headers}
    {ethernet : Ethernet} (hpacketIn : hdr.packetIn = none) (hethernet : hdr.ethernet = some ethernet)
    (h : action.apply ingressPort hdr = (some port, hdr')) :
    (port = cpuPort ∧ hdr'.packetIn = some (puntHeader ingressPort) ∧
      hdr'.ethernet = some ethernet) ∨
    (hdr'.packetIn = none ∧
      (∃ ethernet', hdr'.ethernet = some ethernet' ∧ ethernet'.etherType = ethernet.etherType) ∧
      (action.namesCpu = false → port ≠ cpuPort)) := by
  cases action with
  | ipv4Forward dstAddr out =>
    obtain ⟨rfl, rfl⟩ : out = port ∧ ipv4Forward dstAddr hdr = hdr' := by
      simpa [TableAction.apply] using h
    refine .inr ⟨hpacketIn, ⟨{ ethernet with srcAddr := ethernet.dstAddr, dstAddr := dstAddr }, ?_,
      rfl⟩, by simp [TableAction.namesCpu]⟩
    simp [ipv4Forward, hethernet]
  | forwardL2 out =>
    obtain ⟨rfl, rfl⟩ : out = port ∧ hdr = hdr' := by simpa [TableAction.apply] using h
    exact .inr ⟨hpacketIn, ⟨ethernet, hethernet, rfl⟩, by simp [TableAction.namesCpu]⟩
  | drop => simp [TableAction.apply] at h
  | sendToCpu =>
    obtain ⟨rfl, rfl⟩ : cpuPort = port ∧ sendToCpu ingressPort hdr = hdr' := by
      simpa [TableAction.apply] using h
    exact .inl ⟨rfl, rfl, hethernet⟩
  | noAction =>
    obtain ⟨rfl, rfl⟩ : 0 = port ∧ hdr = hdr' := by simpa [TableAction.apply] using h
    exact .inr ⟨hpacketIn, ⟨ethernet, hethernet, rfl⟩, fun _ => by decide⟩

section Run

variable {tables : Tables} {ingressPort : BitVec 9} {frame : List UInt8}

/-- An LLDP frame goes to the controller as it came in, whatever the tables hold. -/
theorem run_of_lldp (hport : ingressPort ≠ cpuPort) (htype : etherTypeOf frame = some typeLldp) :
    run tables ingressPort frame =
      some (cpuPort, emit (some (puntHeader ingressPort).toBits) ++ frame) := by
  obtain ⟨bits, rest, hextract, hlldp⟩ := exists_ethernet htype
  have hparse := parse_of_not_ipv4 hport hextract (by rw [hlldp]; decide)
  have hbytes : emit (some (Ethernet.ofBits bits).toBits) ++ rest = frame := by
    rw [Ethernet.toBits_ofBits]
    exact emit_extract (by decide) hextract
  rw [run, hparse]
  dsimp only [ingress]
  rw [if_pos hlldp]
  dsimp only [TableAction.apply, sendToCpu]
  rw [deparse_eq]
  simp only [computeChecksum, behindEthernet, Option.map_some, Option.map_none, emit_none,
    List.nil_append]
  rw [hbytes]
  rfl

/-- What becomes of a frame of another type: it is punted, or sent out, and keeps its type. -/
theorem run_of_not_lldp (hport : ingressPort ≠ cpuPort) (htype : etherTypeOf frame ≠ some typeLldp)
    {port : BitVec 9} {out : List UInt8} (h : run tables ingressPort frame = some (port, out)) :
    (port = cpuPort ∧ ∃ frame', out = emit (some (puntHeader ingressPort).toBits) ++ frame' ∧
      etherTypeOf frame' = etherTypeOf frame) ∨
    (etherTypeOf out = etherTypeOf frame ∧ (SparesCpu tables → port ≠ cpuPort)) := by
  cases hextract : extract 112 frame with
  | none =>
    -- the packet is too short for a header, and keeps the initial egress port
    rw [run, parse_of_short hport hextract] at h
    obtain ⟨rfl, rfl⟩ : 0 = port ∧ frame = out := by
      simpa [ingress, computeChecksum, deparse] using h
    exact .inr ⟨rfl, fun _ => by decide⟩
  | some header =>
    obtain ⟨bits, rest⟩ := header
    have hof : etherTypeOf frame = some (Ethernet.ofBits bits).etherType := by
      rw [etherTypeOf, hextract, Option.map_some]
    obtain ⟨hpacketOut, hpacketIn, hethernet⟩ := parse_front hport hextract
    -- a table selects the action: `flow_5tuple` and `ipv4_lpm`, or `l2_forward`
    have hingress : ingress tables ingressPort (parse ingressPort frame).hdr
        (parse ingressPort frame).metadata =
        (tables ingressPort (parse ingressPort frame).hdr (parse ingressPort frame).metadata).apply
          ingressPort (parse ingressPort frame).hdr := by
      rw [ingress, hpacketOut, hethernet]
      dsimp only
      split
      · rfl
      · next heq => exact absurd heq (by simp)
      · next heq =>
        obtain rfl := Option.some.inj heq
        rw [if_neg]
        intro hlldp
        exact htype (hof.trans (congrArg some hlldp))
    rw [run] at h
    rw [hingress] at h
    split at h
    · simp at h
    · next port' hdr' happly =>
      obtain ⟨rfl, rfl⟩ := Prod.mk.inj (Option.some.inj h)
      rw [deparse_eq, hof]
      rcases apply_front hpacketIn hethernet happly with
        ⟨rfl, hpunt, hsame⟩ | ⟨hnone, ⟨ethernet', hsame, htype'⟩, hspares⟩
      · refine .inl ⟨rfl, _, by simp only [computeChecksum, hpunt, Option.map_some]; rfl, ?_⟩
        simp only [hsame, Option.map_some]
        exact etherTypeOf_emit _ _
      · refine .inr ⟨?_, fun hall => hspares (hall _ _ _)⟩
        simp only [computeChecksum, hnone, hsame, Option.map_some, Option.map_none, emit_none,
          List.nil_append]
        rw [etherTypeOf_emit, htype']

/-- A packet-out leaves by the port that its header names, and without it. -/
theorem run_packetOut (port : BitVec 9) (pad : BitVec 7)
    (htype : etherTypeOf frame = some typeLldp) :
    run tables cpuPort
        (emit (some (PacketOutHeader.toBits { egressPort := port, pad := pad })) ++ frame) =
      some (port, frame) := by
  obtain ⟨bits, rest, hextract, hlldp⟩ := exists_ethernet htype
  have hbytes : emit (some (Ethernet.ofBits bits).toBits) ++ rest = frame := by
    rw [Ethernet.toBits_ofBits]
    exact emit_extract (by decide) hextract
  have hparse : parse cpuPort
        (emit (some (PacketOutHeader.toBits { egressPort := port, pad := pad })) ++ frame) =
      { hdr := { packetOut := some { egressPort := port, pad := pad }
                 ethernet := some (Ethernet.ofBits bits) }
        payload := rest } := by
    rw [parse, if_pos rfl, extract_emit (by decide)]
    dsimp only
    rw [PacketOutHeader.ofBits_toBits, parseEthernet]
    dsimp only
    rw [hextract]
    dsimp only
    rw [hlldp, if_neg (by decide)]
  rw [run, hparse]
  dsimp only [ingress]
  rw [deparse_eq]
  simp only [computeChecksum, behindEthernet, Option.map_some, Option.map_none, emit_none,
    List.nil_append]
  rw [hbytes]

end Run

end Ndtwin.Proxy.Program

namespace Ndtwin.Proxy

open Program

/-! ## Packet-ins at the client -/

section Dispatch

variable {header : PacketInHeader} {frame : List UInt8} {message : PacketMessage}

theorem packetInOf_emit (header : PacketInHeader) (frame : List UInt8) :
    ∃ message, packetInOf (emit (some header.toBits) ++ frame) = some message ∧
      message.payload = frame ∧ message.valueOf 1 0 = header.reason.toNat ∧
      message.valueOf 2 0 = header.ingressPort.toNat ∧
      message.valueOf 5 0 = header.samplingRate.toNat := by
  have hreason := header.reason.isLt
  have hport := header.ingressPort.isLt
  have hrate := header.samplingRate.isLt
  refine ⟨_, by rw [packetInOf, extract_emit (by decide)]; rfl, rfl, ?_, ?_, ?_⟩
  · show Python.fromBytes (Python.bytesOf 1 (PacketInHeader.ofBits header.toBits).reason.toNat) = _
    rw [PacketInHeader.ofBits_toBits, Python.fromBytes_bytesOf (by omega)]
  · show Python.fromBytes
      (Python.bytesOf 2 (PacketInHeader.ofBits header.toBits).ingressPort.toNat) = _
    rw [PacketInHeader.ofBits_toBits, Python.fromBytes_bytesOf (by omega)]
  · show Python.fromBytes
      (Python.bytesOf 2 (PacketInHeader.ofBits header.toBits).samplingRate.toNat) = _
    rw [PacketInHeader.ofBits_toBits, Python.fromBytes_bytesOf (by omega)]

/-- A punted frame gets to the topology manager, with the port it came in on. -/
theorem dispatchPacketIn_punt (ingressPort : BitVec 9) (frame : List UInt8) :
    ∃ message, packetInOf (emit (some (puntHeader ingressPort).toBits) ++ frame) = some message ∧
      dispatchPacketIn message = .packetIn ingressPort.toNat frame := by
  obtain ⟨message, hmessage, hpayload, hreason, hport, -⟩ :=
    packetInOf_emit (puntHeader ingressPort) frame
  have hnone : sampleFromPacketIn message = none := by
    have hpunt : (puntHeader ingressPort).reason.toNat = 0 := rfl
    rw [sampleFromPacketIn, hreason, hpunt]
    exact if_pos (by decide)
  refine ⟨message, hmessage, ?_⟩
  rw [dispatchPacketIn, hnone, hport, hpayload]
  rfl

/-- A sampled copy does not, unless nothing is left of the frame. -/
theorem dispatchPacketIn_sampledCopy (ingressPort egressPort : BitVec 9) (frame : List UInt8) :
    ∃ message, packetInOf (sampledCopy ingressPort egressPort frame) = some message ∧
      ∀ port payload, dispatchPacketIn message = .packetIn port payload → payload = [] := by
  have hcopy : ∃ rest, sampledCopy ingressPort egressPort frame =
      emit (some (sampleHeader ingressPort egressPort frame).toBits) ++ rest := by
    rw [sampledCopy]
    dsimp only
    rw [deparse_eq, List.take_append]
    simp only [computeChecksum, Option.map_some]
    rw [List.take_of_length_le (by rw [length_emit]; decide)]
    exact ⟨_, rfl⟩
  obtain ⟨rest, hcopy⟩ := hcopy
  obtain ⟨message, hmessage, hpayload, hreason, -, hrate⟩ :=
    packetInOf_emit (sampleHeader ingressPort egressPort frame) rest
  refine ⟨message, hcopy ▸ hmessage, ?_⟩
  intro port payload hdispatch
  -- the reason and the rate are those of a sample, so only an empty frame is let through
  have hreason' : message.valueOf 1 0 = 1 := hreason
  have hrate' : message.valueOf 5 0 = 256 := hrate
  rw [dispatchPacketIn, sampleFromPacketIn, hreason', hrate', if_neg (by decide)] at hdispatch
  dsimp only at hdispatch
  by_cases hempty : message.payload.isEmpty = true
  · rw [if_pos hempty] at hdispatch
    cases hdispatch
    exact List.isEmpty_iff.mp hempty
  · rw [if_neg hempty, if_neg (by decide)] at hdispatch
    simp at hdispatch

end Dispatch

/-! ## Packet-outs -/

/-- What the sender puts out of a port of nine bits leaves by this port. -/
theorem packetOutOf_sendPacketOut (port : BitVec 9) (payload : List UInt8) :
    ∃ message, sendPacketOut port.toNat payload = .ok message ∧
      packetOutOf message =
        some (emit (some (PacketOutHeader.toBits { egressPort := port, pad := 0 })) ++ payload) := by
  have hlt := port.isLt
  obtain ⟨bytes, hbytes⟩ : ∃ bytes, Python.toBytes 2 (port.toNat : Int) = .ok bytes := by
    rw [isOk_toBytes_iff]
    omega
  have hvalue : Python.fromBytes bytes = port.toNat := by
    have := (toBytes_ok hbytes).1
    omega
  refine ⟨_, by rw [sendPacketOut, hbytes, EState.ok_bind]; rfl, ?_⟩
  rw [packetOutOf]
  dsimp only
  have hport : PacketMessage.valueOf { metadata := [(1, bytes), (2, [0])], payload := payload } 1 0 =
      port.toNat := hvalue
  have hpad : PacketMessage.valueOf { metadata := [(1, bytes), (2, [0])], payload := payload } 2 0 =
      0 := rfl
  rw [hport, hpad, if_pos ⟨hlt, by decide⟩, BitVec.ofNat_toNat, BitVec.setWidth_eq]
  rfl

end Ndtwin.Proxy

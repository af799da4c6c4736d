import Ndtwin.Proxy.SwitchProgram

/-!
# The header checksum of a forwarded packet

The checksum stage sums the twenty bytes of the IPv4 header that the parser knows. Options come
behind them and are not looked at, but they belong to the header that a receiver sums up.

## Key results

- `run_forwarded`: the bytes of a packet that is forwarded
- `forwarded_checksum_iff`: when its header checksum is correct
-/

namespace Ndtwin.Proxy.Program

open OnesComplement Python

/-! ## Headers as bytes -/

theorem Ethernet.toBits_ofBits (v : BitVec 112) : (Ethernet.ofBits v).toBits = v := by
  unfold toBits ofBits
  dsimp only
  repeat rw [BitVec.extractLsb'_append_extractLsb'_eq_extractLsb' (by rfl)]
  exact BitVec.extractLsb'_eq_self

theorem Ipv4.toBits_ofBits (v : BitVec 160) : (Ipv4.ofBits v).toBits = v := by
  unfold toBits ofBits
  dsimp only
  repeat rw [BitVec.extractLsb'_append_extractLsb'_eq_extractLsb' (by rfl)]
  exact BitVec.extractLsb'_eq_self

theorem Tcp.toBits_ofBits (v : BitVec 160) : (Tcp.ofBits v).toBits = v := by
  unfold toBits ofBits
  dsimp only
  repeat rw [BitVec.extractLsb'_append_extractLsb'_eq_extractLsb' (by rfl)]
  exact BitVec.extractLsb'_eq_self

theorem Udp.toBits_ofBits (v : BitVec 64) : (Udp.ofBits v).toBits = v := by
  unfold toBits ofBits
  dsimp only
  repeat rw [BitVec.extractLsb'_append_extractLsb'_eq_extractLsb' (by rfl)]
  exact BitVec.extractLsb'_eq_self

theorem Icmp.toBits_ofBits (v : BitVec 32) : (Icmp.ofBits v).toBits = v := by
  unfold toBits ofBits
  dsimp only
  repeat rw [BitVec.extractLsb'_append_extractLsb'_eq_extractLsb' (by rfl)]
  exact BitVec.extractLsb'_eq_self

/-- Reading a header and writing it again. -/
theorem emit_extract {w : Nat} {packet rest : List UInt8} {bits : BitVec w} (hw : 8 ∣ w)
    (h : extract w packet = some (bits, rest)) : emit (some bits) ++ rest = packet := by
  obtain ⟨k, rfl⟩ := hw
  have hk : 8 * k / 8 = k := Nat.mul_div_cancel_left k (by decide)
  rw [extract, hk] at h
  obtain ⟨hlong, h⟩ := Option.ite_none_left_eq_some.mp h
  obtain ⟨rfl, rfl⟩ := Prod.mk.inj (Option.some.inj h)
  have hlen : (packet.take k).length = k := List.length_take_of_le (Nat.le_of_not_lt hlong)
  -- the bytes that were read fill the header exactly
  have hlt : fromBytes (packet.take k) < 2 ^ (8 * k) := by
    have hbytes := fromBytes_lt (packet.take k)
    rwa [hlen, show 256 = 2 ^ 8 from rfl, ← pow_mul] at hbytes
  show bytesOf (8 * k / 8) (BitVec.ofNat (8 * k) (fromBytes (packet.take k))).toNat ++ _ = packet
  rw [BitVec.toNat_ofNat, Nat.mod_eq_of_lt hlt, hk, bytesOf_fromBytes hlen, List.take_append_drop]

/-- The bytes behind the IPv4 header. -/
def l4Bytes (p : Parsed) : List UInt8 :=
  emit (p.hdr.tcp.map Tcp.toBits) ++ emit (p.hdr.udp.map Udp.toBits) ++
    emit (p.hdr.icmp.map Icmp.toBits) ++ p.payload

/-- The headers up to IPv4 are the same, and so are the bytes behind them. -/
structure SameFrame (p p' : Parsed) : Prop where
  packetOut : p'.hdr.packetOut = p.hdr.packetOut
  packetIn : p'.hdr.packetIn = p.hdr.packetIn
  ethernet : p'.hdr.ethernet = p.hdr.ethernet
  ipv4 : p'.hdr.ipv4 = p.hdr.ipv4
  bytes : l4Bytes p' = l4Bytes p

theorem SameFrame.refl (p : Parsed) : SameFrame p p := ⟨rfl, rfl, rfl, rfl, rfl⟩

/-- No header behind the IPv4 header was parsed. -/
structure NoL4 (p : Parsed) : Prop where
  tcp : p.hdr.tcp = none
  udp : p.hdr.udp = none
  icmp : p.hdr.icmp = none

section L4

variable {p : Parsed} (h : NoL4 p)
include h

theorem NoL4.l4Bytes : l4Bytes p = p.payload := by
  rw [Program.l4Bytes, h.tcp, h.udp, h.icmp]
  rfl

theorem sameFrame_parseTcp : SameFrame p (parseTcp p) := by
  rw [parseTcp]
  cases hextract : extract 160 p.payload with
  | none => exact .refl p
  | some e =>
    obtain ⟨bits, rest⟩ := e
    refine ⟨rfl, rfl, rfl, rfl, ?_⟩
    rw [h.l4Bytes, ← emit_extract (by decide) hextract, l4Bytes, h.udp, h.icmp]
    dsimp only
    rw [Option.map_some, Tcp.toBits_ofBits]
    simp [emit]

theorem sameFrame_parseUdp : SameFrame p (parseUdp p) := by
  rw [parseUdp]
  cases hextract : extract 64 p.payload with
  | none => exact .refl p
  | some e =>
    obtain ⟨bits, rest⟩ := e
    refine ⟨rfl, rfl, rfl, rfl, ?_⟩
    rw [h.l4Bytes, ← emit_extract (by decide) hextract, l4Bytes, h.tcp, h.icmp]
    dsimp only
    rw [Option.map_some, Udp.toBits_ofBits]
    simp [emit]

theorem sameFrame_parseIcmp : SameFrame p (parseIcmp p) := by
  rw [parseIcmp]
  cases hextract : extract 32 p.payload with
  | none => exact .refl p
  | some e =>
    obtain ⟨bits, rest⟩ := e
    refine ⟨rfl, rfl, rfl, rfl, ?_⟩
    rw [h.l4Bytes, ← emit_extract (by decide) hextract, l4Bytes, h.tcp, h.udp]
    dsimp only
    rw [Option.map_some, Icmp.toBits_ofBits]
    simp [emit]

end L4

/-! ## The frame -/

/-- The header length of the IPv4 packet in a frame, in words of four bytes. -/
def ihlOf (frame : List UInt8) : Nat := (frame.getD 14 0).toNat % 16

/-- The IPv4 header of a frame. -/
def headerOf (frame : List UInt8) : List UInt8 := (frame.drop 14).take (4 * ihlOf frame)

/-- The options of the IPv4 header of a frame. -/
def optionsOf (frame : List UInt8) : List UInt8 := (frame.drop 34).take (4 * ihlOf frame - 20)

/-- A frame with an IPv4 packet whose header is all there. -/
structure IsIpv4 (frame : List UInt8) : Prop where
  etherType : fromBytes ((frame.drop 12).take 2) = 0x0800
  ihl : 5 ≤ ihlOf frame
  length : 14 + 4 * ihlOf frame ≤ frame.length

/-- The header checksum of a frame is correct. -/
def ChecksumCorrect (frame : List UInt8) : Prop := onesSum (headerOf frame) = 0xFFFF

instance (frame : List UInt8) : Decidable (ChecksumCorrect frame) :=
  inferInstanceAs (Decidable (_ = _))

/-- The Ethernet header of a frame. -/
def ethernetOf (frame : List UInt8) : Ethernet :=
  .ofBits (BitVec.ofNat 112 (fromBytes (frame.take 14)))

/-- The IPv4 header of a frame, without options. -/
def ipv4Of (frame : List UInt8) : Ipv4 :=
  .ofBits (BitVec.ofNat 160 (fromBytes ((frame.drop 14).take 20)))

theorem etherType_ethernetOf {frame : List UInt8} (h : IsIpv4 frame) :
    (ethernetOf frame).etherType = typeIpv4 := by
  have hlen := h.length
  have hihl := h.ihl
  -- the type is in the last two of the fourteen bytes
  have hsplit : frame.take (12 + 2) = frame.take 12 ++ (frame.drop 12).take 2 := List.take_add
  have hlast : ((frame.drop 12).take 2).length = 2 := by
    rw [List.length_take, List.length_drop]
    omega
  rw [← BitVec.toNat_inj, ethernetOf, Ethernet.ofBits]
  dsimp only
  rw [BitVec.extractLsb'_toNat, BitVec.toNat_ofNat, hsplit, fromBytes_append, hlast, h.etherType,
    Nat.shiftRight_zero]
  show _ = 0x0800
  omega

theorem ihl_ipv4Of {frame : List UInt8} (h : IsIpv4 frame) :
    (ipv4Of frame).ihl.toNat = ihlOf frame := by
  have hlen := h.length
  have hihl := h.ihl
  -- version and header length are in the first byte
  have hcons : (frame.drop 14).take 20 = frame.getD 14 0 :: (frame.drop 15).take 19 := by
    have hfirst : frame[14]? = some frame[14] := List.getElem?_eq_getElem (by omega)
    rw [List.drop_eq_getElem_cons (by omega), List.take_succ_cons, List.getD_eq_getElem?_getD,
      hfirst, Option.getD_some]
  have htail : ((frame.drop 15).take 19).length = 19 := by
    rw [List.length_take, List.length_drop]
    omega
  have hlt := fromBytes_lt ((frame.drop 15).take 19)
  have hfirst := (frame.getD 14 0).toNat_lt
  rw [ipv4Of, Ipv4.ofBits]
  dsimp only
  rw [BitVec.extractLsb'_toNat, BitVec.toNat_ofNat, hcons, fromBytes_cons, ihlOf,
    Nat.shiftRight_eq_div_pow]
  rw [htail] at hlt ⊢
  omega

/-- What the parser makes of a frame with an IPv4 packet. -/
theorem parse_of_isIpv4 {frame : List UInt8} (h : IsIpv4 frame) {ingressPort : BitVec 9}
    (hport : ingressPort ≠ cpuPort) :
    SameFrame { hdr := { ethernet := some (ethernetOf frame), ipv4 := some (ipv4Of frame) },
                payload := frame.drop 34 } (parse ingressPort frame) := by
  have hlen := h.length
  have hihl := h.ihl
  have hethernet : extract 112 frame =
      some (BitVec.ofNat 112 (fromBytes (frame.take 14)), frame.drop 14) := by
    rw [extract]
    exact if_neg (by omega)
  have hipv4 : extract 160 (frame.drop 14) =
      some (BitVec.ofNat 160 (fromBytes ((frame.drop 14).take 20)), frame.drop 34) := by
    rw [extract, if_neg (by rw [List.length_drop]; omega), List.drop_drop]
  rw [parse, if_neg hport, parseEthernet, hethernet]
  dsimp only
  rw [← ethernetOf, if_pos (etherType_ethernetOf h), parseIpv4]
  dsimp only
  rw [hipv4]
  dsimp only
  rw [← ipv4Of]
  -- whichever header is parsed next, its bytes were the payload
  have hno : NoL4 { hdr := { ethernet := some (ethernetOf frame), ipv4 := some (ipv4Of frame) },
                    payload := frame.drop 34 } := ⟨rfl, rfl, rfl⟩
  split
  · exact sameFrame_parseTcp hno
  · split
    · exact sameFrame_parseUdp hno
    · split
      · exact sameFrame_parseIcmp hno
      · exact .refl _

/-! ## The header in numbers -/

theorem toNat_append_eq {v w : Nat} (x : BitVec v) (y : BitVec w) :
    (x ++ y).toNat = x.toNat * 2 ^ w + y.toNat := by
  rw [BitVec.toNat_append, ← Nat.shiftLeft_add_eq_or_of_lt y.isLt, Nat.shiftLeft_eq]

/-- The fields in front of the checksum. -/
def Ipv4.leading (h : Ipv4) : BitVec 80 :=
  h.version ++ h.ihl ++ h.diffserv ++ h.totalLen ++ h.identification ++ h.flags ++ h.fragOffset ++
    h.ttl ++ h.protocol

theorem Ipv4.toNat_toBits (h : Ipv4) : h.toBits.toNat =
    ((h.leading.toNat * 2 ^ 16 + h.hdrChecksum.toNat) * 2 ^ 32 + h.srcAddr.toNat) * 2 ^ 32 +
      h.dstAddr.toNat := by
  have happend : h.toBits = h.leading ++ h.hdrChecksum ++ h.srcAddr ++ h.dstAddr := rfl
  rw [happend, toNat_append_eq, toNat_append_eq, toNat_append_eq]

theorem Ipv4.toNat_checksummed (h : Ipv4) : h.checksummed.toNat =
    (h.leading.toNat * 2 ^ 32 + h.srcAddr.toNat) * 2 ^ 32 + h.dstAddr.toNat := by
  have happend : h.checksummed = h.leading ++ h.srcAddr ++ h.dstAddr := rfl
  rw [happend, toNat_append_eq, toNat_append_eq]

/-- The header length stands in the low half of the first byte. -/
theorem Ipv4.toBits_div (h : Ipv4) : h.toBits.toNat / 2 ^ 152 % 16 = h.ihl.toNat := by
  -- below the header length are 152 bits, 72 of them in front of the checksum
  have hleading : h.leading.toNat / 2 ^ 72 % 16 = h.ihl.toNat := by
    have hihl := h.ihl.isLt
    have hdiffserv := h.diffserv.isLt
    have htotalLen := h.totalLen.isLt
    have hidentification := h.identification.isLt
    have hflags := h.flags.isLt
    have hfragOffset := h.fragOffset.isLt
    have httl := h.ttl.isLt
    have hprotocol := h.protocol.isLt
    unfold leading
    repeat rw [toNat_append_eq]
    omega
  have hchecksum := h.hdrChecksum.isLt
  have hsrc := h.srcAddr.isLt
  have hdst := h.dstAddr.isLt
  rw [toNat_toBits]
  omega

@[simp] theorem Ipv4.updateChecksum_leading (h : Ipv4) :
    h.updateChecksum.leading = h.leading := by rw [updateChecksum, leading, leading]

@[simp] theorem Ipv4.updateChecksum_ihl (h : Ipv4) : h.updateChecksum.ihl = h.ihl := by
  rw [updateChecksum]

@[simp] theorem Ipv4.updateChecksum_srcAddr (h : Ipv4) :
    h.updateChecksum.srcAddr = h.srcAddr := by rw [updateChecksum]

@[simp] theorem Ipv4.updateChecksum_dstAddr (h : Ipv4) :
    h.updateChecksum.dstAddr = h.dstAddr := by rw [updateChecksum]

theorem Ipv4.toNat_updateChecksum (h : Ipv4) : h.updateChecksum.hdrChecksum.toNat =
    0xFFFF - onesSum (bytesOf 18 h.checksummed.toNat) := by
  have hlt := onesSum_lt (bytesOf 18 h.checksummed.toNat)
  rw [updateChecksum, BitVec.toNat_ofNat, csum16, Nat.mod_eq_of_lt (by omega)]

/-- With its checksum the header sums up to zero. -/
theorem Ipv4.updateChecksum_modEq (h : Ipv4) :
    h.updateChecksum.toBits.toNat ≡ 0 [MOD 0xFFFF] := by
  have hbytes : fromBytes (bytesOf 18 h.checksummed.toNat) = h.checksummed.toNat :=
    fromBytes_bytesOf (h.checksummed.isLt.trans_eq (by decide))
  have hmod := @onesSum_modEq (bytesOf 18 h.checksummed.toNat) (by rw [length_bytesOf])
  have hlt := onesSum_lt (bytesOf 18 h.checksummed.toNat)
  rw [hbytes] at hmod
  rw [toNat_toBits, updateChecksum_leading, updateChecksum_srcAddr, updateChecksum_dstAddr,
    toNat_updateChecksum]
  -- the checksum is the complement of the sum of the rest, and 2 ^ 16 counts as one
  generalize onesSum (bytesOf 18 h.checksummed.toNat) = n at hmod hlt
  rw [toNat_checksummed] at hmod
  unfold Nat.ModEq at *
  omega

/-! ## The packet that leaves -/

/-- The Ethernet header that `ipv4_forward` leaves. -/
def Ethernet.forwarded (dstAddr : BitVec 48) (h : Ethernet) : Ethernet :=
  { h with srcAddr := h.dstAddr, dstAddr := dstAddr }

/-- The IPv4 header that `ipv4_forward` leaves. -/
def Ipv4.forwarded (h : Ipv4) : Ipv4 := if h.ttl > 0 then { h with ttl := h.ttl - 1 } else h

@[simp] theorem Ipv4.forwarded_ihl (h : Ipv4) : h.forwarded.ihl = h.ihl := by
  rw [forwarded]
  split <;> rfl

/-- The headers of a packet that is forwarded. -/
def forwardedHeaders (dstAddr : BitVec 48) (frame : List UInt8) : List UInt8 :=
  emit (some ((ethernetOf frame).forwarded dstAddr).toBits) ++
    emit (some (ipv4Of frame).forwarded.updateChecksum.toBits)

section Forwarded

variable {tables : Tables} {ingressPort port : BitVec 9} {dstAddr : BitVec 48}
  {frame : List UInt8}

/-- A packet that is forwarded leaves with new headers; what is behind them stays. -/
theorem run_forwarded (h : IsIpv4 frame) (hport : ingressPort ≠ cpuPort)
    (hforward : tables ingressPort (parse ingressPort frame).hdr
      (parse ingressPort frame).metadata = .ipv4Forward dstAddr port) :
    run tables ingressPort frame =
      some (port, forwardedHeaders dstAddr frame ++ frame.drop 34) := by
  have hparse := parse_of_isIpv4 h hport
  have hpacketOut : (parse ingressPort frame).hdr.packetOut = none := hparse.packetOut
  have hpacketIn : (parse ingressPort frame).hdr.packetIn = none := hparse.packetIn
  have hethernet : (parse ingressPort frame).hdr.ethernet = some (ethernetOf frame) :=
    hparse.ethernet
  have hipv4 : (parse ingressPort frame).hdr.ipv4 = some (ipv4Of frame) := hparse.ipv4
  have hbytes : l4Bytes (parse ingressPort frame) = frame.drop 34 := hparse.bytes
  -- neither a packet of the controller nor dropped: the action is applied and the headers written
  rw [run, ingress, hpacketOut, hipv4]
  dsimp only
  rw [hforward, TableAction.apply]
  dsimp only
  rw [deparse, computeChecksum, ipv4Forward, hpacketIn, hethernet, hipv4, ← hbytes, l4Bytes,
    forwardedHeaders]
  dsimp only
  simp [emit, List.append_assoc, Ipv4.forwarded, Ethernet.forwarded]

theorem ihlOf_forwarded (h : IsIpv4 frame) (rest : List UInt8) :
    ihlOf (forwardedHeaders dstAddr frame ++ rest) = ihlOf frame := by
  rw [ihlOf, forwardedHeaders, ← ihl_ipv4Of h, ← Ipv4.forwarded_ihl, ← Ipv4.updateChecksum_ihl,
    ← Ipv4.toBits_div]
  generalize (ipv4Of frame).forwarded.updateChecksum.toBits = bits
  -- the byte with the header length comes from the number of the whole header
  have hfirst : emit (some bits) =
      UInt8.ofNat (bits.toNat / 256 ^ 19) :: bytesOf 19 bits.toNat := bytesOf_succ 19 _
  have hbyte : (UInt8.ofNat (bits.toNat / 256 ^ 19)).toNat = bits.toNat / 256 ^ 19 % 256 :=
    UInt8.toNat_ofNat'
  rw [List.append_assoc, List.getD_eq_getElem?_getD,
    List.getElem?_append_right (by rw [emit, Option.map_some, Option.getD_some, length_bytesOf]),
    hfirst]
  show (UInt8.ofNat (bits.toNat / 256 ^ 19)).toNat % 16 = _
  omega

/-- The header that leaves: the twenty bytes that the switch writes, and the options as they
    came. -/
theorem headerOf_forwarded (h : IsIpv4 frame) :
    headerOf (forwardedHeaders dstAddr frame ++ frame.drop 34) =
      emit (some (ipv4Of frame).forwarded.updateChecksum.toBits) ++ optionsOf frame := by
  have hihl := h.ihl
  have hethernet : (emit (some ((ethernetOf frame).forwarded dstAddr).toBits)).length = 14 :=
    length_bytesOf _ _
  have hipv4 : (emit (some (ipv4Of frame).forwarded.updateChecksum.toBits)).length = 20 :=
    length_bytesOf _ _
  rw [headerOf, ihlOf_forwarded h, forwardedHeaders, List.append_assoc,
    List.drop_left' hethernet, List.take_append, hipv4, List.take_of_length_le (by omega),
    optionsOf]

/-- The twenty bytes are not all zero: one of them holds the header length. -/
theorem toNat_forwarded_ne_zero (h : IsIpv4 frame) :
    (ipv4Of frame).forwarded.updateChecksum.toBits.toNat ≠ 0 := by
  intro hzero
  have hihl := h.ihl
  have hdiv := (ipv4Of frame).forwarded.updateChecksum.toBits_div
  rw [hzero, Ipv4.updateChecksum_ihl, Ipv4.forwarded_ihl, ihl_ipv4Of h] at hdiv
  omega

/-- A sum without options is right; what the options add to it must be a zero. -/
theorem onesSum_emit_append {bits : BitVec 160} {options : List UInt8} (hne : bits.toNat ≠ 0)
    (hbits : bits.toNat ≡ 0 [MOD 0xFFFF]) (heven : options.length % 2 = 0) :
    onesSum (emit (some bits) ++ options) = 0xFFFF ↔
      onesSum options = 0 ∨ onesSum options = 0xFFFF := by
  have hlength : (emit (some bits) ++ options).length % 2 = 0 := by
    have hemit : (emit (some bits)).length = 20 := length_bytesOf _ _
    rw [List.length_append, hemit]
    omega
  have hvalue : fromBytes (emit (some bits)) = bits.toNat :=
    fromBytes_bytesOf (bits.isLt.trans_eq (by decide))
  -- only a sum of nothing but zeros is 0, and this is none
  have hnonzero : fromBytes (emit (some bits) ++ options) ≠ 0 := by
    have hmul := Nat.mul_ne_zero hne (pow_ne_zero options.length (show 256 ≠ 0 by decide))
    rw [fromBytes_append, hvalue]
    omega
  have hsum := fromBytes_append_modEq (emit (some bits)) heven
  rw [hvalue] at hsum
  have hoptions := onesSum_modEq heven
  have hlt := onesSum_lt options
  rw [onesSum_eq_max_iff hlength, and_iff_right hnonzero]
  unfold Nat.ModEq at *
  omega

/-- A forwarded packet leaves with a correct header checksum exactly if the options of its header
    do not count in the sum. -/
theorem forwarded_checksum_iff (h : IsIpv4 frame) (hport : ingressPort ≠ cpuPort)
    (hforward : tables ingressPort (parse ingressPort frame).hdr
      (parse ingressPort frame).metadata = .ipv4Forward dstAddr port) :
    ∃ out, run tables ingressPort frame = some (port, out) ∧
      (ChecksumCorrect out ↔
        onesSum (optionsOf frame) = 0 ∨ onesSum (optionsOf frame) = 0xFFFF) := by
  have hihl := h.ihl
  have hlen := h.length
  have heven : (optionsOf frame).length % 2 = 0 := by
    rw [optionsOf, List.length_take, List.length_drop]
    omega
  refine ⟨_, run_forwarded h hport hforward, ?_⟩
  rw [ChecksumCorrect, headerOf_forwarded h]
  exact onesSum_emit_append (toNat_forwarded_ne_zero h) (Ipv4.updateChecksum_modEq _) heven

end Forwarded

/-- The tables of a switch with one route. -/
def oneRoute : Tables := fun _ hdr _ =>
  if hdr.ipv4.map Ipv4.dstAddr = some 0x0A000002 then .ipv4Forward 0x00000000000B 2
  else .sendToCpu

/-- A packet without options. -/
def plainFrame : List UInt8 :=
  [0, 0, 0, 0, 0, 1, 0, 0, 0, 0, 0, 2, 8, 0,
    69, 0, 0, 20, 0, 0, 0, 0, 64, 17, 102, 215, 10, 0, 0, 1, 10, 0, 0, 2]

/-- A packet with the router alert option. -/
def optionFrame : List UInt8 :=
  [0, 0, 0, 0, 0, 1, 0, 0, 0, 0, 0, 2, 8, 0,
    70, 0, 0, 24, 0, 0, 0, 0, 64, 17, 209, 206, 10, 0, 0, 1, 10, 0, 0, 2, 148, 4, 0, 0]

theorem plainFrame_checksum : ∃ out, run oneRoute 1 plainFrame = some (2, out) ∧
    (ChecksumCorrect out ↔
      onesSum (optionsOf plainFrame) = 0 ∨ onesSum (optionsOf plainFrame) = 0xFFFF) :=
  forwarded_checksum_iff ⟨by decide, by decide, by decide⟩ (by decide)
    (show oneRoute 1 _ _ = .ipv4Forward 0x00000000000B 2 by decide +kernel)

/-- The packet came with a correct checksum, and leaves without one. -/
theorem optionFrame_checksum : IsIpv4 optionFrame ∧ ChecksumCorrect optionFrame ∧
    ∃ out, run oneRoute 1 optionFrame = some (2, out) ∧ ¬ChecksumCorrect out :=
  ⟨⟨by decide, by decide, by decide⟩, by decide, _, rfl, by decide +kernel⟩

end Ndtwin.Proxy.Program

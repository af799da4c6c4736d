import Ndtwin.Proxy.Fabric
import Ndtwin.Spec.PacketIoCorrect

/-!
# One Switch, Three Views

The tables of a switch are seen as their entries (`P4Switch.Decides`), as the action they have for
the keys of a packet (`IngressTables`), and as a part of the program that takes a frame apart and
puts it together again (`Program.run`). Here each view is tied to the next one. All of it is about
packets that come in through a data port: what comes from the CPU port carries a header of the
controller, and no table is asked.

## Key results

- `decides_iff`: a verdict is what some tables with these entries select
- `run_carried`: the program does to a frame what the action says about the packet in it
- `frameVisits_holding`: frames go through a fabric as their packets do
-/

namespace Ndtwin.Proxy

/-! ## Entries and actions -/

/-- What an entry does; the proxy installs no other action than `ipv4_forward`. -/
def Forward.toAction (f : Forward) : IngressAction :=
  .ipv4Forward (BitVec.ofNat 48 (Python.fromBytes f.dstAddr))
    (BitVec.ofNat 9 (Python.fromBytes f.port))

/-- Where a packet goes under an action. -/
def IngressAction.verdict : IngressAction → Option Verdict
  | .ipv4Forward _ port => some (.forward port.toNat)
  | .sendToCpu => some .sendToCpu
  | .drop | .noAction => none

section Table

variable {κ ρ : Type} [DecidableEq κ] [LinearOrder ρ] {m : AssocMap κ Forward}
  {hits : κ → PacketKeys → Bool} {rank : κ → ρ} {p : PacketKeys}

/-- What a table with these entries may select for a packet: an entry that is hit and of the
    highest rank among those, and nothing when there is none. -/
inductive Selects (m : AssocMap κ Forward) (hits : κ → PacketKeys → Bool) (rank : κ → ρ)
    (p : PacketKeys) : Option IngressAction → Prop
  | hit {key : κ} {action : Forward} : m.lookup key = some action → hits key p = true →
    (∀ key' ∈ m, hits key' p = true → rank key' ≤ rank key) →
    Selects m hits rank p (some action.toAction)
  | miss : (∀ key ∈ m, hits key p = false) → Selects m hits rank p none

/-- A table always has an answer. -/
theorem exists_selects (m : AssocMap κ Forward) (hits : κ → PacketKeys → Bool) (rank : κ → ρ)
    (p : PacketKeys) : ∃ answer, Selects m hits rank p answer := by
  by_cases hmiss : ∀ key ∈ m, hits key p = false
  · exact ⟨none, .miss hmiss⟩
  · -- the entries that are hit are finitely many, so one of them ranks highest
    obtain ⟨key₀, hkey₀, hhits₀⟩ : ∃ key ∈ m, hits key p = true := by simpa using hmiss
    have hmem₀ : key₀ ∈ (m.keys.filter fun key => hits key p).toFinset := by
      rw [List.mem_toFinset, List.mem_filter]
      exact ⟨hkey₀, hhits₀⟩
    obtain ⟨key, hkey, hbest⟩ := Finset.exists_max_image _ rank ⟨key₀, hmem₀⟩
    rw [List.mem_toFinset, List.mem_filter] at hkey
    obtain ⟨action, haction⟩ := AssocMap.exists_of_mem hkey.1
    refine ⟨_, .hit haction hkey.2 ?_⟩
    intro key' hkey' hhits'
    apply hbest
    rw [List.mem_toFinset, List.mem_filter]
    exact ⟨hkey', hhits'⟩

/-- Any answer that is possible for one packet is the one of some table. -/
theorem exists_select_of_selects {answer : Option IngressAction}
    (h : Selects m hits rank p answer) :
    ∃ select : PacketKeys → Option IngressAction,
      (∀ q, Selects m hits rank q (select q)) ∧ select p = answer := by
  classical
  choose select hselect using exists_selects m hits rank
  refine ⟨Function.update select p answer, ?_, Function.update_self ..⟩
  intro q
  by_cases hq : q = p
  · rw [hq, Function.update_self]
    exact h
  · rw [Function.update_of_ne hq]
    exact hselect q

end Table

/-- Tables that hold the entries of a switch. Which of several best hits they select is theirs. -/
structure IngressTables.Holds (t : IngressTables) (switch : P4Switch) : Prop where
  flow5tuple : ∀ p,
    Selects switch.flow5tuple FiveTupleKey.hits FiveTupleKey.priority p (t.flow5tuple p)
  ipv4Lpm : ∀ p, Selects switch.ipv4Lpm LpmKey.hits LpmKey.prefixLen p (t.ipv4Lpm p)

/-- The ports of the entries are ports of the pipeline, of nine bits. -/
structure P4Switch.NarrowPorts (switch : P4Switch) : Prop where
  flow5tuple : ∀ key action, switch.flow5tuple.lookup key = some action →
    Python.fromBytes action.port < 2 ^ 9
  ipv4Lpm : ∀ key action, switch.ipv4Lpm.lookup key = some action →
    Python.fromBytes action.port < 2 ^ 9

theorem Forward.verdict_toAction {f : Forward} (h : Python.fromBytes f.port < 2 ^ 9) :
    f.toAction.verdict = some (.forward (Python.fromBytes f.port)) := by
  rw [toAction, IngressAction.verdict, BitVec.toNat_ofNat, Nat.mod_eq_of_lt h]

section Decides

variable {switch : P4Switch} {p : PacketKeys}

/-- The action of the tables is a verdict of the entries. -/
theorem IngressTables.Holds.decides {t : IngressTables} (h : t.Holds switch)
    (hnarrow : switch.NarrowPorts) :
    ∃ v, (t.action p).verdict = some v ∧ switch.Decides p v := by
  have hfirst := h.flow5tuple p
  rw [action]
  generalize t.flow5tuple p = first at hfirst
  cases hfirst with
  | hit hentry hhits hbest =>
    exact ⟨_, Forward.verdict_toAction (hnarrow.flow5tuple _ _ hentry),
      .flow5tuple hentry hhits hbest⟩
  | miss hmiss =>
    have hsecond := h.ipv4Lpm p
    dsimp only
    generalize t.ipv4Lpm p = second at hsecond
    cases hsecond with
    | hit hentry hhits hlongest =>
      exact ⟨_, Forward.verdict_toAction (hnarrow.ipv4Lpm _ _ hentry),
        .ipv4Lpm hmiss hentry hhits hlongest⟩
    | miss hmissLpm => exact ⟨_, rfl, .default hmiss hmissLpm⟩

/-- Tables with given answers for one packet. -/
theorem exists_holds_of_selects {first second : Option IngressAction}
    (hfirst : Selects switch.flow5tuple FiveTupleKey.hits FiveTupleKey.priority p first)
    (hsecond : Selects switch.ipv4Lpm LpmKey.hits LpmKey.prefixLen p second) :
    ∃ t : IngressTables, t.Holds switch ∧ t.flow5tuple p = first ∧ t.ipv4Lpm p = second := by
  obtain ⟨select, hselect, rfl⟩ := exists_select_of_selects hfirst
  obtain ⟨select', hselect', rfl⟩ := exists_select_of_selects hsecond
  exact ⟨⟨select, select'⟩, ⟨hselect, hselect'⟩, rfl, rfl⟩

/-- The verdicts of the entries of a switch are those of the tables that hold these entries. -/
theorem decides_iff (hnarrow : switch.NarrowPorts) {v : Verdict} :
    switch.Decides p v ↔
      ∃ t : IngressTables, t.Holds switch ∧ (t.action p).verdict = some v := by
  constructor
  · intro h
    obtain ⟨other, hother⟩ :=
      exists_selects switch.ipv4Lpm LpmKey.hits LpmKey.prefixLen p
    cases h with
    | flow5tuple hentry hhits hbest =>
      obtain ⟨t, ht, hfirst, -⟩ := exists_holds_of_selects (.hit hentry hhits hbest) hother
      refine ⟨t, ht, ?_⟩
      rw [IngressTables.action, hfirst]
      exact Forward.verdict_toAction (hnarrow.flow5tuple _ _ hentry)
    | ipv4Lpm hmiss hentry hhits hlongest =>
      obtain ⟨t, ht, hfirst, hsecond⟩ :=
        exists_holds_of_selects (.miss hmiss) (.hit hentry hhits hlongest)
      refine ⟨t, ht, ?_⟩
      rw [IngressTables.action, hfirst, hsecond]
      exact Forward.verdict_toAction (hnarrow.ipv4Lpm _ _ hentry)
    | default hmiss hmissLpm =>
      obtain ⟨t, ht, hfirst, hsecond⟩ := exists_holds_of_selects (.miss hmiss) (.miss hmissLpm)
      refine ⟨t, ht, ?_⟩
      rw [IngressTables.action, hfirst, hsecond]
      rfl
  · rintro ⟨t, ht, hverdict⟩
    obtain ⟨v', hverdict', hdecides⟩ := ht.decides (p := p) hnarrow
    rw [hverdict, Option.some.injEq] at hverdict'
    exact hverdict' ▸ hdecides

end Decides

/-! ## Packets and headers -/

/-- The table keys of a packet that came in through a port, after the parser. -/
def keysOf (ingressPort : BitVec 9) (ipv4 : Program.Ipv4) (metadata : Program.Metadata) :
    PacketKeys where
  value
    | .ingressPort => ingressPort.toNat
    | .srcAddr => ipv4.srcAddr.toNat
    | .dstAddr => ipv4.dstAddr.toNat
    | .protocol => ipv4.protocol.toNat
    | .l4SrcPort => metadata.l4SrcPort.toNat
    | .l4DstPort => metadata.l4DstPort.toNat
  value_lt field := by cases field <;> exact BitVec.isLt _

/-- The packet that the headers make up; `none` without an IPv4 header. -/
def packetOf (ingressPort : BitVec 9) (p : Program.Parsed) : Option Ipv4Packet :=
  match p.hdr.ethernet, p.hdr.ipv4 with
  | some ethernet, some ipv4 => some
    { keys := keysOf ingressPort ipv4 p.metadata
      ttl := UInt8.ofBitVec ipv4.ttl
      srcMac := ethernet.srcAddr
      dstMac := ethernet.dstAddr }
  | _, _ => none

/-- The action as the program applies it. -/
def IngressAction.toTableAction : IngressAction → Program.TableAction
  | .ipv4Forward dstAddr port => .ipv4Forward dstAddr port
  | .drop => .drop
  | .sendToCpu => .sendToCpu
  | .noAction => .noAction

/-- The tables as the program asks them; `other` is what it asks without an IPv4 header. -/
def IngressTables.toProgram (t : IngressTables) (other : Program.Tables) : Program.Tables :=
  fun ingressPort hdr metadata =>
    match hdr.ipv4 with
    | some ipv4 => (t.action (keysOf ingressPort ipv4 metadata)).toTableAction
    | none => other ingressPort hdr metadata

/-- A frame that comes in through a data port holds this IPv4 packet. -/
structure Carries (port : BitVec 9) (frame : List UInt8) (packet : Ipv4Packet) : Prop where
  dataPort : port ≠ cpuPort
  packet : packetOf port (Program.parse port frame) = some packet

namespace Program

theorem Ipv4.ofBits_toBits (h : Ipv4) : Ipv4.ofBits h.toBits = h := by
  obtain ⟨version, ihl, diffserv, totalLen, identification, flags, fragOffset, ttl, protocol,
    hdrChecksum, srcAddr, dstAddr⟩ := h
  have hversion := version.isLt
  have hihl := ihl.isLt
  have hdiffserv := diffserv.isLt
  have htotalLen := totalLen.isLt
  have hidentification := identification.isLt
  have hflags := flags.isLt
  have hfragOffset := fragOffset.isLt
  have httl := ttl.isLt
  have hprotocol := protocol.isLt
  have hhdrChecksum := hdrChecksum.isLt
  have hsrcAddr := srcAddr.isLt
  have hdstAddr := dstAddr.isLt
  unfold Ipv4.toBits Ipv4.ofBits
  simp only [Ipv4.mk.injEq, ← BitVec.toNat_inj, toNat_extractLsb'_append, toNat_append_eq]
  omega

/-- What the parser makes of the bytes behind an IPv4 header. -/
def behindIpv4 (ethernet : Ethernet) (ipv4 : Ipv4) (rest : List UInt8) : Parsed :=
  let p := { hdr := { ethernet := some ethernet, ipv4 := some ipv4 }, payload := rest }
  if ipv4.fragOffset = 0 ∧ ipv4.protocol = ipProtoTcp then parseTcp p
  else if ipv4.fragOffset = 0 ∧ ipv4.protocol = ipProtoUdp then parseUdp p
  else if ipv4.fragOffset = 0 ∧ ipv4.protocol = ipProtoIcmp then parseIcmp p
  else p

/-- The fields that the parser goes by behind the header, and those that the tables look at. -/
structure Ipv4.SameFlow (ipv4 ipv4' : Ipv4) : Prop where
  srcAddr : ipv4'.srcAddr = ipv4.srcAddr
  dstAddr : ipv4'.dstAddr = ipv4.dstAddr
  protocol : ipv4'.protocol = ipv4.protocol
  fragOffset : ipv4'.fragOffset = ipv4.fragOffset

@[simp] theorem Ipv4.updateChecksum_ttl (ipv4 : Ipv4) :
    ipv4.updateChecksum.ttl = ipv4.ttl := by rw [updateChecksum]

theorem Ipv4.sameFlow_updateChecksum (ipv4 : Ipv4) : ipv4.SameFlow ipv4.updateChecksum := by
  rw [updateChecksum]
  exact ⟨rfl, rfl, rfl, rfl⟩

theorem Ipv4.sameFlow_forwarded (ipv4 : Ipv4) :
    ipv4.SameFlow ipv4.forwarded.updateChecksum := by
  rw [forwarded, updateChecksum]
  split
  · exact ⟨rfl, rfl, rfl, rfl⟩
  · exact ⟨rfl, rfl, rfl, rfl⟩

section BehindIpv4

variable {ethernet ethernet' : Ethernet} {ipv4 ipv4' : Ipv4} {rest : List UInt8}

/-- The headers up to IPv4 stay, and the bytes behind them are those that were read. -/
theorem sameFrame_behindIpv4 (ethernet : Ethernet) (ipv4 : Ipv4) (rest : List UInt8) : SameFrame
    { hdr := { ethernet := some ethernet, ipv4 := some ipv4 }, payload := rest }
    (behindIpv4 ethernet ipv4 rest) := by
  have hno : NoL4 { hdr := { ethernet := some ethernet, ipv4 := some ipv4 }, payload := rest } :=
    ⟨rfl, rfl, rfl⟩
  rw [behindIpv4]
  split
  · exact sameFrame_parseTcp hno
  · split
    · exact sameFrame_parseUdp hno
    · split
      · exact sameFrame_parseIcmp hno
      · exact .refl _

/-- The L4 ports are read off the bytes behind the header; of the header itself only the fragment
    offset and the protocol matter. -/
theorem metadata_behindIpv4 (h : ipv4.SameFlow ipv4') :
    (behindIpv4 ethernet' ipv4' rest).metadata = (behindIpv4 ethernet ipv4 rest).metadata := by
  unfold behindIpv4 parseTcp parseUdp parseIcmp
  dsimp only
  rw [h.fragOffset, h.protocol]
  split
  · cases extract 160 rest <;> rfl
  · split
    · cases extract 64 rest <;> rfl
    · split
      · cases extract 32 rest <;> rfl
      · rfl

/-- A frame on a cable that is put together of an Ethernet and an IPv4 header is taken apart into
    these. -/
theorem parse_emit {port : BitVec 9} (hport : port ≠ cpuPort)
    (htype : ethernet.etherType = typeIpv4) :
    parse port (emit (some ethernet.toBits) ++ (emit (some ipv4.toBits) ++ rest)) =
      behindIpv4 ethernet ipv4 rest := by
  rw [parse, if_neg hport, parseEthernet]
  dsimp only
  rw [extract_emit (by decide)]
  dsimp only
  rw [Ethernet.ofBits_toBits, if_pos htype, parseIpv4]
  dsimp only
  rw [extract_emit (by decide)]
  dsimp only
  rw [Ipv4.ofBits_toBits]
  rfl

/-- An IPv4 packet gets the action that the tables select for it. -/
theorem ingress_behindIpv4 {tables : Tables} {port : BitVec 9} :
    ingress tables port (behindIpv4 ethernet ipv4 rest).hdr
        (behindIpv4 ethernet ipv4 rest).metadata =
      (tables port (behindIpv4 ethernet ipv4 rest).hdr
        (behindIpv4 ethernet ipv4 rest).metadata).apply port
          (behindIpv4 ethernet ipv4 rest).hdr := by
  have hsame := sameFrame_behindIpv4 ethernet ipv4 rest
  have hpacketOut : (behindIpv4 ethernet ipv4 rest).hdr.packetOut = none := hsame.packetOut
  have hipv4 : (behindIpv4 ethernet ipv4 rest).hdr.ipv4 = some ipv4 := hsame.ipv4
  rw [ingress, hpacketOut, hipv4]

/-- A packet that the action leaves with these two headers goes out with them in front. -/
theorem run_of_apply (ethernet' : Ethernet) (ipv4' : Ipv4) {tables : Tables}
    {port out : BitVec 9} (hport : port ≠ cpuPort)
    (htype : ethernet.etherType = typeIpv4)
    (happly : (tables port (behindIpv4 ethernet ipv4 rest).hdr
      (behindIpv4 ethernet ipv4 rest).metadata).apply port (behindIpv4 ethernet ipv4 rest).hdr =
        (some out, { (behindIpv4 ethernet ipv4 rest).hdr with
          ethernet := some ethernet', ipv4 := some ipv4' })) :
    run tables port (emit (some ethernet.toBits) ++ (emit (some ipv4.toBits) ++ rest)) = some
      (out, emit (some ethernet'.toBits) ++ (emit (some ipv4'.updateChecksum.toBits) ++ rest)) := by
  have hsame := sameFrame_behindIpv4 ethernet ipv4 rest
  have hpacketIn : (behindIpv4 ethernet ipv4 rest).hdr.packetIn = none := hsame.packetIn
  have hbytes : l4Bytes (behindIpv4 ethernet ipv4 rest) = rest := hsame.bytes
  rw [run, parse_emit hport htype, ingress_behindIpv4, happly]
  dsimp only
  rw [deparse, computeChecksum, hpacketIn]
  conv_rhs => rw [← hbytes, l4Bytes]
  simp [emit, List.append_assoc]

end BehindIpv4

end Program

open Program (emit behindIpv4 typeIpv4)

/-- The packet of a frame that was taken apart. -/
theorem packetOf_behindIpv4 (port : BitVec 9) (ethernet : Program.Ethernet) (ipv4 : Program.Ipv4)
    (rest : List UInt8) : packetOf port (behindIpv4 ethernet ipv4 rest) = some
      { keys := keysOf port ipv4 (behindIpv4 ethernet ipv4 rest).metadata
        ttl := UInt8.ofBitVec ipv4.ttl
        srcMac := ethernet.srcAddr
        dstMac := ethernet.dstAddr } := by
  have hsame := Program.sameFrame_behindIpv4 ethernet ipv4 rest
  rw [packetOf, hsame.ethernet, hsame.ipv4]

/-- A frame that holds an IPv4 packet is an Ethernet header, an IPv4 header and what is behind. -/
theorem Carries.exists_headers {port : BitVec 9} {frame : List UInt8} {packet : Ipv4Packet}
    (h : Carries port frame packet) :
    ∃ (ethernet : Program.Ethernet) (ipv4 : Program.Ipv4) (rest : List UInt8),
      ethernet.etherType = typeIpv4 ∧
        frame = emit (some ethernet.toBits) ++ (emit (some ipv4.toBits) ++ rest) := by
  have hport : port ≠ Program.cpuPort := h.dataPort
  have hpacket := h.packet
  cases hextract : Program.extract 112 frame with
  | none =>
    rw [Program.parse_of_short hport hextract] at hpacket
    exact absurd hpacket (by simp [packetOf])
  | some header =>
    obtain ⟨bits, behind⟩ := header
    by_cases htype : (Program.Ethernet.ofBits bits).etherType = typeIpv4
    · cases hextract' : Program.extract 160 behind with
      | none =>
        -- the IPv4 header is cut short, so none was parsed
        rw [Program.parse, if_neg hport, Program.parseEthernet] at hpacket
        dsimp only at hpacket
        rw [hextract] at hpacket
        dsimp only at hpacket
        rw [if_pos htype, Program.parseIpv4] at hpacket
        dsimp only at hpacket
        rw [hextract'] at hpacket
        exact absurd hpacket (by simp [packetOf])
      | some header' =>
        obtain ⟨bits', rest⟩ := header'
        refine ⟨.ofBits bits, .ofBits bits', rest, htype, ?_⟩
        rw [Program.Ethernet.toBits_ofBits, Program.Ipv4.toBits_ofBits,
          Program.emit_extract (by decide) hextract', Program.emit_extract (by decide) hextract]
    · rw [Program.parse_of_not_ipv4 hport hextract htype] at hpacket
      exact absurd hpacket (by simp [packetOf])

/-! ## One switch -/

section Run

variable {port : BitVec 9} {frame : List UInt8} {packet : Ipv4Packet}

theorem keysOf_arriving {ipv4 ipv4' : Program.Ipv4} (h : ipv4.SameFlow ipv4')
    (metadata : Program.Metadata) (q : BitVec 9) :
    keysOf q ipv4' metadata = (keysOf port ipv4 metadata).arriving q := by
  rw [keysOf, PacketKeys.arriving, PacketKeys.mk.injEq]
  funext field
  cases field with
  | ingressPort => rfl
  | srcAddr => exact congrArg BitVec.toNat h.srcAddr
  | dstAddr => exact congrArg BitVec.toNat h.dstAddr
  | protocol => exact congrArg BitVec.toNat h.protocol
  | l4SrcPort => rfl
  | l4DstPort => rfl

theorem ttl_forwarded (ipv4 : Program.Ipv4) : UInt8.ofBitVec ipv4.forwarded.ttl =
    if 0 < UInt8.ofBitVec ipv4.ttl then UInt8.ofBitVec ipv4.ttl - 1
    else UInt8.ofBitVec ipv4.ttl := by
  have hpos : 0 < UInt8.ofBitVec ipv4.ttl ↔ ipv4.ttl > 0 := Iff.rfl
  rw [Program.Ipv4.forwarded]
  simp only [hpos]
  split
  · rfl
  · rfl

/-- A frame put together of an Ethernet and an IPv4 header holds their packet. -/
theorem carries_emit {ethernet : Program.Ethernet} (htype : ethernet.etherType = typeIpv4)
    (hport : port ≠ cpuPort) (ipv4 : Program.Ipv4) (rest : List UInt8) :
    Carries port (emit (some ethernet.toBits) ++ (emit (some ipv4.toBits) ++ rest))
      { keys := keysOf port ipv4 (behindIpv4 ethernet ipv4 rest).metadata
        ttl := UInt8.ofBitVec ipv4.ttl
        srcMac := ethernet.srcAddr
        dstMac := ethernet.dstAddr } where
  dataPort := hport
  packet := by rw [Program.parse_emit hport htype, packetOf_behindIpv4]

/-- A frame of the same flow holds the packet with the keys of the port where it comes in. -/
theorem carries_sent (ethernet ethernet' : Program.Ethernet) {ipv4 ipv4' : Program.Ipv4}
    (htype : ethernet'.etherType = typeIpv4) (h : ipv4.SameFlow ipv4') (rest : List UInt8)
    {q : BitVec 9} (hq : q ≠ cpuPort) :
    Carries q (emit (some ethernet'.toBits) ++ (emit (some ipv4'.toBits) ++ rest))
      { keys := (keysOf port ipv4 (behindIpv4 ethernet ipv4 rest).metadata).arriving q
        ttl := UInt8.ofBitVec ipv4'.ttl
        srcMac := ethernet'.srcAddr
        dstMac := ethernet'.dstAddr } := by
  have hmetadata : (behindIpv4 ethernet' ipv4' rest).metadata =
      (behindIpv4 ethernet ipv4 rest).metadata := Program.metadata_behindIpv4 h
  rw [← keysOf_arriving h, ← hmetadata]
  exact carries_emit htype hq ipv4' rest

/-- The program does to a frame what the action of the tables says about the packet in it: where
    it goes, and what it holds when it comes in at the next data port. -/
theorem run_carried (t : IngressTables) (other : Program.Tables) (h : Carries port frame packet) :
    (t.action packet.keys = .drop ∧ Program.run (t.toProgram other) port frame = none) ∨
    ∃ out, Program.run (t.toProgram other) port frame =
        some ((t.action packet.keys).egressSpec, out) ∧
      (t.action packet.keys ≠ .sendToCpu → ∀ q, q ≠ cpuPort →
        Carries q out { (t.action packet.keys).rewrite packet with
          keys := ((t.action packet.keys).rewrite packet).keys.arriving q }) := by
  obtain ⟨ethernet, ipv4, rest, htype, rfl⟩ := h.exists_headers
  have hport : port ≠ Program.cpuPort := h.dataPort
  have hsame := Program.sameFrame_behindIpv4 ethernet ipv4 rest
  have hethernet : (behindIpv4 ethernet ipv4 rest).hdr.ethernet = some ethernet := hsame.ethernet
  have hipv4 : (behindIpv4 ethernet ipv4 rest).hdr.ipv4 = some ipv4 := hsame.ipv4
  obtain rfl := Option.some.inj (h.packet.symm.trans (carries_emit htype hport ipv4 rest).packet)
  have htables : t.toProgram other port (behindIpv4 ethernet ipv4 rest).hdr
      (behindIpv4 ethernet ipv4 rest).metadata = (t.action (keysOf port ipv4
        (behindIpv4 ethernet ipv4 rest).metadata)).toTableAction := by
    rw [IngressTables.toProgram, hipv4]
  dsimp only
  generalize t.action (keysOf port ipv4 (behindIpv4 ethernet ipv4 rest).metadata) = action
    at htables
  cases action with
  | drop =>
    left
    refine ⟨rfl, ?_⟩
    rw [Program.run, Program.parse_emit hport htype, Program.ingress_behindIpv4, htables]
    rfl
  | sendToCpu =>
    right
    rw [Program.run, Program.parse_emit hport htype, Program.ingress_behindIpv4, htables]
    exact ⟨_, rfl, fun hne => absurd rfl hne⟩
  | ipv4Forward dstAddr egress =>
    right
    refine ⟨_, Program.run_of_apply (ethernet.forwarded dstAddr) ipv4.forwarded hport htype ?_, ?_⟩
    · rw [htables]
      show (some egress, Program.ipv4Forward dstAddr _) = _
      rw [Program.ipv4Forward, hethernet, hipv4]
      rfl
    · intro _ q hq
      dsimp only [IngressAction.rewrite]
      rw [← ttl_forwarded, ← Program.Ipv4.updateChecksum_ttl]
      exact carries_sent ethernet (ethernet.forwarded dstAddr) htype ipv4.sameFlow_forwarded rest hq
  | noAction =>
    right
    refine ⟨_, Program.run_of_apply ethernet ipv4 hport htype ?_, ?_⟩
    · rw [htables, ← hethernet, ← hipv4]
      rfl
    · intro _ q hq
      dsimp only [IngressAction.rewrite]
      rw [← ipv4.updateChecksum_ttl]
      exact carries_sent ethernet ethernet htype ipv4.sameFlow_updateChecksum rest hq

end Run

/-! ## Frames through a fabric -/

/-- A frame about to come in at a switch. -/
structure FrameArrival (ι : Type) where
  switch : ι
  port : BitVec 9
  frame : List UInt8

namespace Fabric

variable {ι : Type} (f : Fabric ι) (other : Program.Tables)

/-- One hop of a frame: through the program of the switch, and over the link behind the port. -/
def frameHop (s : FrameArrival ι) : Option (FrameArrival ι) :=
  match Program.run ((f.tables s.switch).toProgram other) s.port s.frame with
  | none => none
  | some (egress, frame) =>
    if egress = cpuPort ∨ egress = dropPort then none
    else (f.links s.switch egress).map fun (next, port) =>
      { switch := next, port := port, frame := frame }

/-- The frames as they come in at the switches on the way, up to `n` of them. -/
def frameVisits : (n : Nat) → FrameArrival ι → List (FrameArrival ι)
  | 0, _ => []
  | n + 1, s =>
    s :: match f.frameHop other s with
      | none => []
      | some s' => frameVisits n s'

end Fabric

/-- The frame that comes in holds the packet that arrives. -/
structure Holding {ι : Type} (s : FrameArrival ι) (a : Arrival ι) : Prop where
  switch : s.switch = a.switch
  carries : Carries s.port s.frame a.packet

section Fabric

variable {ι : Type} (f : Fabric ι) (other : Program.Tables) {s : FrameArrival ι} {a : Arrival ι}

/-- A frame goes on exactly if its packet does, and to the same switch. -/
theorem frameHop_holding (h : Holding s a) :
    Option.Rel Holding (f.frameHop other s) (f.hop a) := by
  obtain ⟨hswitch, hcarries⟩ := h
  have hrun := run_carried (f.tables a.switch) other hcarries
  rw [Fabric.frameHop, Fabric.hop, Fabric.actionAt, hswitch]
  generalize (f.tables a.switch).action a.packet.keys = action at hrun
  obtain ⟨rfl, hdropped⟩ | ⟨out, hout, hsent⟩ := hrun
  · rw [hdropped]
    exact .none
  · rw [hout]
    dsimp only
    split
    · exact .none
    · next hegress =>
      cases hlink : f.links a.switch action.egressSpec with
      | none => exact .none
      | some link =>
        obtain ⟨next, port⟩ := link
        have hcpu : action ≠ .sendToCpu := by
          rintro rfl
          exact hegress (.inl rfl)
        exact .some ⟨rfl, hsent hcpu port (f.links_data _ _ _ _ hlink)⟩

/-- The frames come in where their packets arrive, one for one, all the way. -/
theorem frameVisits_holding (n : Nat) (h : Holding s a) :
    List.Forall₂ Holding (f.frameVisits other n s) (f.visits n a) := by
  induction n generalizing s a with
  | zero => exact .nil
  | succ n ih =>
    have hhop := frameHop_holding f other h
    rw [Fabric.frameVisits, Fabric.visits]
    generalize f.frameHop other s = s' at hhop
    generalize f.hop a = a' at hhop
    cases hhop with
    | none => exact .cons h .nil
    | some hnext => exact .cons h (ih hnext)

end Fabric

end Ndtwin.Proxy

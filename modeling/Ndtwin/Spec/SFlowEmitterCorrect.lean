import Ndtwin.Proxy.SFlowEmitter
import Ndtwin.Spec.FlowSampleCorrect
import Ndtwin.Spec.HandlePacketCorrect

/-!
# sFlow Emitter Round Trip

The proxy writes sFlow datagrams and the kernel reads them, with nothing shared but word
offsets. Every datagram the emitter builds is one that the sample loop walks sample by
sample: the bytes are the words of `sampleWords`, each sample is well formed, none of them
advances wrongly, and the words read back are the fields of the packet and of its frame.

## Key results

- `buildDatagram_eq`: the emitted bytes, as words
- `sampleWords_spec`: what the kernel makes of one emitted sample
- `emitted_datagram_roundtrip`: what an emitted datagram does to the collector
-/

namespace Ndtwin.Proxy

open Ndtwin.Kernel

/-! ## What is emitted -/

/-- The number fits a 32-bit field. -/
def FitsU32 (x : Int) : Prop := 0 ≤ x ∧ x < 2 ^ 32

instance (x : Int) : Decidable (FitsU32 x) := inferInstanceAs (Decidable (_ ∧ _))

/-- A field as the word that the kernel finds in its buffer. -/
def fieldWord (x : Int) : UInt32 := Words.ntohl (UInt32.ofNat x.toNat)

theorem leBytes_ntohl (w : UInt32) : Words.leBytes (Words.ntohl w) = CText.bytesBE w.toNat :=
  Words.leBytes_leWord _ _ _ _

theorem packU32_ok {x : Int} (h : FitsU32 x) : packU32 x = .ok (Words.leBytes (fieldWord x)) := by
  have hx : (UInt32.ofNat x.toNat).toNat = x.toNat := by
    obtain ⟨h₀, h₁⟩ := h
    exact UInt32.toNat_ofNat_of_lt' (by simp only [UInt32.size]; omega)
  unfold packU32
  unfold FitsU32 at h
  rw [if_pos h, fieldWord, leBytes_ntohl, hx]

theorem packU32s_ok {xs : List Int} (h : ∀ x ∈ xs, FitsU32 x) :
    packU32s xs = .ok ((xs.map fieldWord).flatMap Words.leBytes) := by
  induction xs with
  | nil => rfl
  | cons x xs ih =>
    rw [packU32s, packU32_ok (h x List.mem_cons_self),
      ih fun y hy => h y (List.mem_cons_of_mem x hy)]
    rfl

theorem length_padToWord_mod (bs : List UInt8) : (padToWord bs).length % 4 = 0 := by
  unfold padToWord
  split
  · assumption
  · rw [List.length_append, List.length_replicate]
    omega

theorem padToWord_getElem? {bs : List UInt8} {i : Nat} (h : i < bs.length) :
    (padToWord bs)[i]? = bs[i]? := by
  unfold padToWord
  split
  · rfl
  · exact List.getElem?_append_left h

theorem length_le_padToWord (bs : List UInt8) : bs.length ≤ (padToWord bs).length := by
  unfold padToWord
  split
  · exact Nat.le_refl _
  · rw [List.length_append]
    exact Nat.le_add_right _ _

/-- The frame bytes of a sample. -/
def captured (maxHeaderBytes : Nat) (p : SampledPacket) : List UInt8 :=
  p.frame.take maxHeaderBytes

/-- The captured frame as it is sent. -/
def sentFrame (maxHeaderBytes : Nat) (p : SampledPacket) : List UInt8 :=
  padToWord (captured maxHeaderBytes p)

/-- The fields in front of the frame. -/
def sampleFields (agent : SwitchAgent) (maxHeaderBytes : Nat) (p : SampledPacket) : List Int :=
  [1, 80 + (sentFrame maxHeaderBytes p).length, (agent.sampleSequence + 1) % 2 ^ 32,
    2 * 2 ^ 24 + p.ingressPort % 2 ^ 24, p.samplingRate,
    (agent.samplePool + p.samplingRate) % 2 ^ 32, agent.dropped, p.ingressPort, p.egressPort, 2,
    1001, 16, 0, 0, 0, 0, 1, 16 + (sentFrame maxHeaderBytes p).length, 1, p.frameLength, 0,
    (captured maxHeaderBytes p).length]

/-- The words of a sample. -/
def sampleWords (agent : SwitchAgent) (maxHeaderBytes : Nat) (p : SampledPacket) :
    List UInt32 :=
  (sampleFields agent maxHeaderBytes p).map fieldWord ++
    Words.toWords (sentFrame maxHeaderBytes p)

/-- The agent after a sample. -/
def afterSample (agent : SwitchAgent) (p : SampledPacket) : SwitchAgent :=
  { agent with
    sampleSequence := (agent.sampleSequence + 1) % 2 ^ 32
    samplePool := (agent.samplePool + p.samplingRate) % 2 ^ 32 }

/-- The numbers of a packet fit their fields. -/
structure FieldsFit (p : SampledPacket) : Prop where
  ingressPort : FitsU32 p.ingressPort
  egressPort : FitsU32 p.egressPort
  frameLength : FitsU32 p.frameLength
  samplingRate : FitsU32 p.samplingRate

/-- Fields followed by more bytes, behind their tag and length. -/
theorem lengthPrefixed_eq {tag n : Int} (htag : FitsU32 tag) (hn : FitsU32 n) {xs : List Int}
    {rest : List UInt8} (hsize : n = 4 * xs.length + rest.length) :
    lengthPrefixed tag ((xs.map fieldWord).flatMap Words.leBytes ++ rest) =
      .ok (((tag :: n :: xs).map fieldWord).flatMap Words.leBytes ++ rest) := by
  have hlength : ((((xs.map fieldWord).flatMap Words.leBytes ++ rest).length : Nat) : Int) = n := by
    rw [List.length_append, Words.length_flatMap_leBytes, List.length_map, hsize]
    omega
  have hfits : ∀ x ∈ ([tag, n] : List Int), FitsU32 x := by
    intro x hx
    simp only [List.mem_cons, List.not_mem_nil, or_false] at hx
    rcases hx with rfl | rfl
    · exact htag
    · exact hn
  unfold lengthPrefixed
  rw [hlength, packU32s_ok hfits, EState.ok_bind, ← List.append_assoc, ← List.flatMap_append,
    ← List.map_append]
  rfl

theorem extendedSwitchRecord_eq :
    extendedSwitchRecord =
      .ok ((([1001, 16, 0, 0, 0, 0] : List Int).map fieldWord).flatMap Words.leBytes) := by
  decide +kernel

theorem rawHeaderRecord_eq {frameLength : Int} (hlength : FitsU32 frameLength)
    {frame : List UInt8} (hsize : 16 + (padToWord frame).length < 2 ^ 32) :
    rawHeaderRecord frameLength frame =
      .ok ((([1, 16 + ((padToWord frame).length : Int), 1, frameLength, 0, frame.length] :
        List Int).map fieldWord).flatMap Words.leBytes ++ padToWord frame) := by
  have hframe := length_le_padToWord frame
  have hfields : ∀ x ∈ ([1, frameLength, 0, (frame.length : Int)] : List Int), FitsU32 x := by
    simp only [List.mem_cons, List.not_mem_nil, or_false, forall_eq_or_imp, forall_eq]
    refine ⟨?_, hlength, ?_, ?_⟩ <;> (unfold FitsU32; omega)
  unfold rawHeaderRecord
  rw [packU32s_ok hfields, EState.ok_bind]
  refine lengthPrefixed_eq ⟨by decide, by decide⟩ ?_ ?_
  · unfold FitsU32
    omega
  · simp only [List.length_cons, List.length_nil]
    omega

theorem nextSampleSequence_bind {β : Type} (f : Int → AgentM β) (agent : SwitchAgent) :
    (nextSampleSequence >>= f) agent = f ((agent.sampleSequence + 1) % 2 ^ 32)
      { agent with sampleSequence := (agent.sampleSequence + 1) % 2 ^ 32 } := rfl

theorem advancePool_bind {β : Type} (samplingRate : Int) (f : Int → AgentM β)
    (agent : SwitchAgent) :
    (advancePool samplingRate >>= f) agent = f ((agent.samplePool + samplingRate) % 2 ^ 32)
      { agent with samplePool := (agent.samplePool + samplingRate) % 2 ^ 32 } := rfl

/-- The bytes of a sample, as words. -/
theorem buildFlowSample_eq {agent : SwitchAgent} (hdropped : FitsU32 agent.dropped)
    {p : SampledPacket} (hfits : FieldsFit p) {maxHeaderBytes : Nat}
    (hsize : 80 + (sentFrame maxHeaderBytes p).length < 2 ^ 32) :
    buildFlowSample p maxHeaderBytes agent =
      .ok ((sampleWords agent maxHeaderBytes p).flatMap Words.leBytes) (afterSample agent p) := by
  have hrecord : rawHeaderRecord p.frameLength (p.frame.take maxHeaderBytes) =
      .ok ((([1, 16 + ((sentFrame maxHeaderBytes p).length : Int), 1, p.frameLength, 0,
        (captured maxHeaderBytes p).length] : List Int).map fieldWord).flatMap Words.leBytes ++
        sentFrame maxHeaderBytes p) :=
    rawHeaderRecord_eq hfits.frameLength (show 16 + (sentFrame maxHeaderBytes p).length < 2 ^ 32 by omega)
  have hfields : ∀ x ∈ ([(agent.sampleSequence + 1) % 2 ^ 32,
      2 * 2 ^ 24 + p.ingressPort % 2 ^ 24, p.samplingRate,
      (agent.samplePool + p.samplingRate) % 2 ^ 32, agent.dropped, p.ingressPort, p.egressPort,
      2] : List Int), FitsU32 x := by
    simp only [List.mem_cons, List.not_mem_nil, or_false, forall_eq_or_imp, forall_eq]
    refine ⟨?_, ?_, hfits.samplingRate, ?_, hdropped, hfits.ingressPort, hfits.egressPort, ?_⟩ <;>
      (unfold FitsU32; omega)
  -- the fields, both records and the frame are one list of fields followed by the frame
  have hprefixed : lengthPrefixed 1
      ((([(agent.sampleSequence + 1) % 2 ^ 32, 2 * 2 ^ 24 + p.ingressPort % 2 ^ 24,
        p.samplingRate, (agent.samplePool + p.samplingRate) % 2 ^ 32, agent.dropped,
        p.ingressPort, p.egressPort, 2] : List Int).map fieldWord).flatMap Words.leBytes ++
        (([1001, 16, 0, 0, 0, 0] : List Int).map fieldWord).flatMap Words.leBytes ++
        ((([1, 16 + ((sentFrame maxHeaderBytes p).length : Int), 1, p.frameLength, 0,
          (captured maxHeaderBytes p).length] : List Int).map fieldWord).flatMap Words.leBytes ++
          sentFrame maxHeaderBytes p)) =
      .ok ((sampleWords agent maxHeaderBytes p).flatMap Words.leBytes) := by
    have haligned : (sentFrame maxHeaderBytes p).length % 4 = 0 := length_padToWord_mod _
    have hall : sampleFields agent maxHeaderBytes p =
        1 :: (80 + ((sentFrame maxHeaderBytes p).length : Int)) ::
          ([(agent.sampleSequence + 1) % 2 ^ 32, 2 * 2 ^ 24 + p.ingressPort % 2 ^ 24,
            p.samplingRate, (agent.samplePool + p.samplingRate) % 2 ^ 32, agent.dropped,
            p.ingressPort, p.egressPort, 2] ++ [1001, 16, 0, 0, 0, 0] ++
            [1, 16 + ((sentFrame maxHeaderBytes p).length : Int), 1, p.frameLength, 0,
              (captured maxHeaderBytes p).length]) := rfl
    rw [← List.append_assoc, ← List.flatMap_append, ← List.map_append, ← List.flatMap_append,
      ← List.map_append, sampleWords, List.flatMap_append,
      Words.flatMap_leBytes_toWords haligned, hall]
    refine lengthPrefixed_eq ⟨by decide, by decide⟩ ?_ ?_
    · unfold FitsU32
      omega
    · simp only [List.length_cons, List.length_nil, List.length_append]
      omega
  unfold buildFlowSample
  rw [EState.ofExcept_bind extendedSwitchRecord_eq, EState.ofExcept_bind hrecord,
    nextSampleSequence_bind, advancePool_bind, EState.get_bind, EState.ofExcept_bind
    (packU32s_ok hfields)]
  exact EState.ofExcept_apply hprefixed _

/-- The samples of a datagram, each built by the agent as the one before it left it. -/
def emittedSamples (maxHeaderBytes : Nat) : SwitchAgent → List SampledPacket → List (List UInt32)
  | _, [] => []
  | agent, p :: ps =>
    sampleWords agent maxHeaderBytes p :: emittedSamples maxHeaderBytes (afterSample agent p) ps

theorem length_emittedSamples (maxHeaderBytes : Nat) (agent : SwitchAgent)
    (ps : List SampledPacket) :
    (emittedSamples maxHeaderBytes agent ps).length = ps.length := by
  induction ps generalizing agent with
  | nil => rfl
  | cons p ps ih => rw [emittedSamples, List.length_cons, ih, List.length_cons]

/-- The bytes of a datagram with these packets. -/
def datagramSize (maxHeaderBytes : Nat) (ps : List SampledPacket) : Nat :=
  28 + (ps.map fun p => 88 + (sentFrame maxHeaderBytes p).length).sum

theorem length_sampleWords (agent : SwitchAgent) (maxHeaderBytes : Nat) (p : SampledPacket) :
    4 * (sampleWords agent maxHeaderBytes p).length =
      88 + (sentFrame maxHeaderBytes p).length := by
  have haligned : (sentFrame maxHeaderBytes p).length % 4 = 0 := length_padToWord_mod _
  have hwords := Words.length_flatMap_leBytes (Words.toWords (sentFrame maxHeaderBytes p))
  rw [Words.flatMap_leBytes_toWords haligned] at hwords
  rw [sampleWords, List.length_append, Nat.mul_add, ← hwords]
  rfl

theorem datagramSize_cons (maxHeaderBytes : Nat) (p : SampledPacket) (ps : List SampledPacket) :
    datagramSize maxHeaderBytes (p :: ps) =
      88 + (sentFrame maxHeaderBytes p).length + datagramSize maxHeaderBytes ps := by
  unfold datagramSize
  rw [List.map_cons, List.sum_cons]
  omega

theorem length_flatten_emittedSamples (maxHeaderBytes : Nat) (agent : SwitchAgent)
    (ps : List SampledPacket) :
    28 + 4 * (emittedSamples maxHeaderBytes agent ps).flatten.length =
      datagramSize maxHeaderBytes ps := by
  induction ps generalizing agent with
  | nil => rfl
  | cons p ps ih =>
    have hp := length_sampleWords agent maxHeaderBytes p
    have hps := ih (afterSample agent p)
    rw [emittedSamples, List.flatten_cons, List.length_append, datagramSize_cons]
    omega

theorem length_le_datagramSize (maxHeaderBytes : Nat) (ps : List SampledPacket) :
    ps.length ≤ datagramSize maxHeaderBytes ps := by
  induction ps with
  | nil => exact Nat.zero_le _
  | cons p ps ih =>
    rw [datagramSize_cons, List.length_cons]
    omega

theorem length_sentFrame_le_datagramSize {maxHeaderBytes : Nat} {ps : List SampledPacket}
    {p : SampledPacket} (hp : p ∈ ps) :
    (sentFrame maxHeaderBytes p).length ≤ datagramSize maxHeaderBytes ps := by
  induction ps with
  | nil => exact absurd hp List.not_mem_nil
  | cons q ps ih =>
    rw [datagramSize_cons]
    rcases List.mem_cons.mp hp with rfl | hmem
    · omega
    · have hle := ih hmem
      omega

/-- The bytes of all samples, as words. -/
theorem buildFlowSamples_eq {maxHeaderBytes : Nat} {ps : List SampledPacket}
    (hfits : ∀ p ∈ ps, FieldsFit p)
    (hsize : ∀ p ∈ ps, 80 + (sentFrame maxHeaderBytes p).length < 2 ^ 32) {agent : SwitchAgent}
    (hdropped : FitsU32 agent.dropped) :
    buildFlowSamples maxHeaderBytes ps agent =
      .ok ((emittedSamples maxHeaderBytes agent ps).flatten.flatMap Words.leBytes)
        (ps.foldl afterSample agent) := by
  induction ps generalizing agent with
  | nil => rfl
  | cons p ps ih =>
    have hhead := buildFlowSample_eq hdropped (hfits p List.mem_cons_self)
      (hsize p List.mem_cons_self)
    have htail := @ih (fun q hq => hfits q (List.mem_cons_of_mem p hq))
      (fun q hq => hsize q (List.mem_cons_of_mem p hq)) (afterSample agent p) hdropped
    rw [buildFlowSamples, EState.bind_of_ok hhead, EState.bind_of_ok htail, emittedSamples,
      List.flatten_cons, List.flatMap_append]
    rfl

/-- An address as the word that the kernel finds in its buffer. -/
def addressWord (address : List UInt8) : UInt32 := (Words.toWords address).headD 0

/-- An accepted address is four bytes. -/
theorem exists_bytes_of_inetAtonOrThrow {s : String} {address : List UInt8}
    (h : inetAtonOrThrow s = .ok address) : ∃ b₀ b₁ b₂ b₃, address = [b₀, b₁, b₂, b₃] := by
  unfold inetAtonOrThrow at h
  split at h
  · exact nomatch h
  split at h
  · next hbytes =>
    cases h
    match address, CText.inetAton_length hbytes with
    | [b₀, b₁, b₂, b₃], _ => exact ⟨b₀, b₁, b₂, b₃, rfl⟩
  · exact nomatch h

/-- The header of a datagram of an agent. -/
def emittedHeader (agent : SwitchAgent) (uptimeMs : Int) (agentIp : UInt32) : SFlowHeader where
  addressType := fieldWord 1
  agentIp := agentIp
  subAgentId := fieldWord agent.subAgentId
  sequenceNumber := fieldWord ((agent.datagramSequence + 1) % 2 ^ 32)
  uptime := fieldWord uptimeMs

theorem nextDatagramSequence_bind {β : Type} (f : Int → AgentM β) (agent : SwitchAgent) :
    (nextDatagramSequence >>= f) agent = f ((agent.datagramSequence + 1) % 2 ^ 32)
      { agent with datagramSequence := (agent.datagramSequence + 1) % 2 ^ 32 } := rfl

/-- The samples do not depend on the number of the datagram. -/
theorem emittedSamples_datagramSequence (maxHeaderBytes : Nat) (agent : SwitchAgent) (n : Int)
    (ps : List SampledPacket) :
    emittedSamples maxHeaderBytes { agent with datagramSequence := n } ps =
      emittedSamples maxHeaderBytes agent ps := by
  induction ps generalizing agent with
  | nil => rfl
  | cons p ps ih =>
    show sampleWords agent maxHeaderBytes p :: emittedSamples maxHeaderBytes
      { afterSample agent p with datagramSequence := n } ps = _
    rw [ih, emittedSamples]

/-- The agent after a datagram. -/
def afterDatagram (agent : SwitchAgent) (ps : List SampledPacket) : SwitchAgent :=
  ps.foldl afterSample
    { agent with datagramSequence := (agent.datagramSequence + 1) % 2 ^ 32 }

/-- The bytes in front of the samples, as words. -/
theorem headerBytes_eq (b₀ b₁ b₂ b₃ : UInt8) (front rest count : List UInt32) :
    front.flatMap Words.leBytes ++ [b₀, b₁, b₂, b₃] ++ rest.flatMap Words.leBytes ++
        count.flatMap Words.leBytes =
      (front ++ Words.leWord b₀ b₁ b₂ b₃ :: rest ++ count).flatMap Words.leBytes := by
  rw [List.flatMap_append, List.flatMap_append, List.flatMap_cons, Words.leBytes_leWord,
    List.append_assoc (front.flatMap Words.leBytes)]

/-- The sequence number is kept within its field, so the numbers of the header fit. -/
theorem fitsU32_headerNumbers {agent : SwitchAgent} {uptimeMs : Int}
    (hsub : FitsU32 agent.subAgentId) (huptime : FitsU32 uptimeMs) :
    ∀ x ∈ ([agent.subAgentId, (agent.datagramSequence + 1) % 2 ^ 32, uptimeMs] : List Int),
      FitsU32 x := by
  simp only [List.mem_cons, List.not_mem_nil, or_false, forall_eq_or_imp, forall_eq]
  refine ⟨hsub, ?_, huptime⟩
  unfold FitsU32
  omega

/-- The bytes of a datagram, as words. -/
theorem buildDatagram_eq {agent : SwitchAgent} {uptimeMs : Int} {b₀ b₁ b₂ b₃ : UInt8}
    (haddress : inetAtonOrThrow agent.agentIp = .ok [b₀, b₁, b₂, b₃])
    (hsub : FitsU32 agent.subAgentId) (hdropped : FitsU32 agent.dropped)
    (huptime : FitsU32 uptimeMs) {maxHeaderBytes : Nat} {ps : List SampledPacket} (hne : ps ≠ [])
    (hfits : ∀ p ∈ ps, FieldsFit p)
    (hsize : ∀ p ∈ ps, 80 + (sentFrame maxHeaderBytes p).length < 2 ^ 32)
    (hlength : ps.length < 2 ^ 32) :
    buildDatagram ps uptimeMs maxHeaderBytes agent =
      .ok (datagram (emittedHeader agent uptimeMs (Words.leWord b₀ b₁ b₂ b₃))
        (emittedSamples maxHeaderBytes agent ps)) (afterDatagram agent ps) := by
  have hversion : ∀ x ∈ ([5, 1] : List Int), FitsU32 x := by decide
  have hnumbers := fitsU32_headerNumbers hsub huptime
  have hcount : ∀ x ∈ ([(ps.length : Int)] : List Int), FitsU32 x := by
    simp only [List.mem_singleton, forall_eq]
    unfold FitsU32
    omega
  have hpayload := @buildFlowSamples_eq maxHeaderBytes ps hfits hsize
    { agent with datagramSequence := (agent.datagramSequence + 1) % 2 ^ 32 } hdropped
  rw [emittedSamples_datagramSequence] at hpayload
  unfold buildDatagram
  -- the calls in the order of the source: version, address, sequence, uptime, count, samples
  rw [if_neg (by simp [hne]), EState.ofExcept_bind (packU32s_ok hversion), EState.get_bind,
    EState.ofExcept_bind haddress, nextDatagramSequence_bind,
    EState.ofExcept_bind (packU32s_ok hnumbers), EState.ofExcept_bind (packU32s_ok hcount),
    EState.bind_of_ok hpayload, headerBytes_eq, ← List.flatMap_append, datagram, datagramWords,
    length_emittedSamples]
  rfl

/-! ## What the kernel reads -/

/-- A byte of a frame; 0 past its end. -/
def byteOf (f : List UInt8) (i : Nat) : UInt8 := f[i]?.getD 0

/-- The EtherType of IPv4. -/
def IsIPv4 (f : List UInt8) : Prop := byteOf f 12 = 8 ∧ byteOf f 13 = 0

instance (f : List UInt8) : Decidable (IsIPv4 f) := inferInstanceAs (Decidable (_ ∧ _))

/-- An untagged IPv4 frame without options, of which the first 48 bytes were captured,
    carrying TCP, UDP or ICMP, and no later fragment. -/
structure TrackedFrame (f : List UInt8) : Prop where
  long : 48 ≤ f.length
  etherType : IsIPv4 f
  ihl : byteOf f 14 &&& 0x0F = 5
  protocol : byteOf f 23 = 6 ∨ byteOf f 23 = 17 ∨ byteOf f 23 = 1
  firstFragment : Words.be16 (byteOf f 20) (byteOf f 21) &&& 0x1FFF = 0

/-- A frame that is not IPv4, of which the first 16 bytes were captured. -/
structure OtherFrame (f : List UInt8) : Prop where
  long : 16 ≤ f.length
  etherType : ¬ IsIPv4 f

/-- A reader returns what stands in the sample. -/
theorem sampleReader_of_getElem? {s : List UInt32} {k w : UInt32} (h : s[k.toNat]? = some w) :
    Collector.sampleReader s 0 k = .ok (Words.ntohl w) := by
  unfold Collector.sampleReader SFlow.boundedWord
  rw [UInt32.zero_add, h]
  rfl

/-- An address that stands across two words. -/
theorem ipFromFrontBack_beWord (a₀ a₁ a₂ a₃ b₀ b₁ b₂ b₃ : UInt8) :
    ipFromFrontBack (Words.beWord a₀ a₁ a₂ a₃) (Words.beWord b₀ b₁ b₂ b₃) =
      Words.leWord a₂ a₃ b₀ b₁ := by
  have ha₂ := a₂.toNat_lt
  have ha₃ := a₃.toNat_lt
  have hb₀ := b₀.toNat_lt
  have hb₁ := b₁.toNat_lt
  have ho₁ := Words.toNat_byte2 a₀ a₁ a₂ a₃
  have ho₂ := Words.toNat_byte3 a₀ a₁ a₂ a₃
  have ho₃ := Words.toNat_byte0 b₀ b₁ b₂ b₃
  have ho₄ := Words.toNat_byte1 b₀ b₁ b₂ b₃
  have hnat := Words.toNat_shifted_or (by rw [ho₁]; exact ha₂) (by rw [ho₂]; exact ha₃)
    (by rw [ho₃]; exact hb₀) (by rw [ho₄]; exact hb₁)
  rw [ho₁, ho₂, ho₃, ho₄, ← Words.toNat_leWord, UInt32.toNat_inj] at hnat
  unfold ipFromFrontBack
  simp only [hnat, Words.ntohl_leWord]

section Read

variable (agent : SwitchAgent) (maxHeaderBytes : Nat) (p : SampledPacket)

/-- A field of an emitted sample, read back. -/
theorem read_field {k : UInt32} {x : Int}
    (h : (sampleFields agent maxHeaderBytes p)[k.toNat]? = some x) :
    Collector.sampleReader (sampleWords agent maxHeaderBytes p) 0 k =
      .ok (UInt32.ofNat x.toNat) := by
  have hk := (List.getElem?_eq_some_iff.mp h).1
  have hget : (sampleWords agent maxHeaderBytes p)[k.toNat]? = some (fieldWord x) := by
    rw [sampleWords, List.getElem?_append_left (by rw [List.length_map]; exact hk),
      List.getElem?_map, h]
    rfl
  rw [sampleReader_of_getElem? hget, fieldWord, Words.ntohl_ntohl]

/-- A word of the frame of an emitted sample, read back. -/
theorem read_frame {k : UInt32} (i : Nat) (hk : k.toNat = 22 + i)
    (h : 4 * i + 3 < (captured maxHeaderBytes p).length) :
    Collector.sampleReader (sampleWords agent maxHeaderBytes p) 0 k =
      .ok (Words.beWord (byteOf (captured maxHeaderBytes p) (4 * i))
        (byteOf (captured maxHeaderBytes p) (4 * i + 1))
        (byteOf (captured maxHeaderBytes p) (4 * i + 2))
        (byteOf (captured maxHeaderBytes p) (4 * i + 3))) := by
  have hsent : 4 * i + 3 < (sentFrame maxHeaderBytes p).length :=
    Nat.lt_of_lt_of_le h (length_le_padToWord _)
  have hbyte : ∀ j, j ≤ 4 * i + 3 →
      (sentFrame maxHeaderBytes p)[j]? = (captured maxHeaderBytes p)[j]? :=
    fun j hj => padToWord_getElem? (by omega)
  have hget : (sampleWords agent maxHeaderBytes p)[k.toNat]? =
      (Words.toWords (sentFrame maxHeaderBytes p))[i]? := by
    have hfields : ((sampleFields agent maxHeaderBytes p).map fieldWord).length = 22 := rfl
    rw [sampleWords, List.getElem?_append_right (by omega), hfields, hk,
      Nat.add_sub_cancel_left]
  rw [Words.toWords_getElem? hsent, hbyte _ (by omega), hbyte _ (by omega), hbyte _ (by omega),
    hbyte _ (by omega)] at hget
  rw [sampleReader_of_getElem? hget, Words.ntohl_leWord]
  rfl

/-- The locals of `handlePacket` for a tracked packet, from the bytes of its frame. -/
def decodedPacket : FlowSample :=
  let f := captured maxHeaderBytes p
  { samplingRate := UInt32.ofNat p.samplingRate.toNat
    inputPort := UInt32.ofNat p.ingressPort.toNat
    outputPort := UInt32.ofNat p.egressPort.toNat
    frameLength := UInt32.ofNat p.frameLength.toNat
    frag := Words.be16 (byteOf f 20) (byteOf f 21)
    protocol := byteOf f 23
    srcIp := Words.leWord (byteOf f 26) (byteOf f 27) (byteOf f 28) (byteOf f 29)
    dstIp := Words.leWord (byteOf f 30) (byteOf f 31) (byteOf f 32) (byteOf f 33)
    srcPort := if byteOf f 23 ≠ 1 then Words.be16 (byteOf f 34) (byteOf f 35) else 0
    dstPort := if byteOf f 23 ≠ 1 then Words.be16 (byteOf f 36) (byteOf f 37) else 0
    icmpType := if byteOf f 23 ≠ 1 then 0 else Words.be16 0 (byteOf f 34)
    icmpCode := if byteOf f 23 ≠ 1 then 0 else Words.be16 0 (byteOf f 35)
    isAckPacket := byteOf f 23 = 6 ∧ byteOf f 47 &&& 0x10 ≠ 0 }

theorem decodeFrame_other (h : OtherFrame (captured maxHeaderBytes p))
    (samplingRate inputPort outputPort frameLength : UInt32) :
    decodeFrame (Collector.sampleReader (sampleWords agent maxHeaderBytes p) 0) 25 samplingRate
      inputPort outputPort frameLength = .ok none := by
  have hlong := h.long
  have hread := read_frame agent maxHeaderBytes p (k := 25) 3 rfl (by omega)
  have hne : (Words.beWord (byteOf (captured maxHeaderBytes p) (4 * 3))
      (byteOf (captured maxHeaderBytes p) (4 * 3 + 1))
      (byteOf (captured maxHeaderBytes p) (4 * 3 + 2))
      (byteOf (captured maxHeaderBytes p) (4 * 3 + 3)) >>> 16) &&& 0xFFFF ≠ 0x0800 :=
    fun heq => h.etherType ((Words.high16_eq_iff _ _ _ _ 0x0800 8 0 rfl).mp heq)
  unfold decodeFrame
  rw [hread, EState.ok_bind, if_pos hne]
  rfl

/-- The transport header of a tracked packet. -/
theorem decodeTransport_tracked (hlong : 48 ≤ (captured maxHeaderBytes p).length)
    {s : FlowSample} (hprotocol : s.protocol = byteOf (captured maxHeaderBytes p) 23) :
    decodeTransport (Collector.sampleReader (sampleWords agent maxHeaderBytes p) 0) 25 s =
      .ok (if byteOf (captured maxHeaderBytes p) 23 ≠ 1 then
          { s with
            srcPort := Words.be16 (byteOf (captured maxHeaderBytes p) 34)
              (byteOf (captured maxHeaderBytes p) 35)
            dstPort := Words.be16 (byteOf (captured maxHeaderBytes p) 36)
              (byteOf (captured maxHeaderBytes p) 37)
            isAckPacket := if byteOf (captured maxHeaderBytes p) 23 = 6 then
              decide (byteOf (captured maxHeaderBytes p) 47 &&& 0x10 ≠ 0) else s.isAckPacket }
        else
          { s with
            icmpType := Words.be16 0 (byteOf (captured maxHeaderBytes p) 34)
            icmpCode := Words.be16 0 (byteOf (captured maxHeaderBytes p) 35) }) := by
  have hread₃₀ := read_frame agent maxHeaderBytes p (k := 25 + 5) 8 rfl (by omega)
  have hread₃₁ := read_frame agent maxHeaderBytes p (k := 25 + 6) 9 rfl (by omega)
  have hread₃₃ := read_frame agent maxHeaderBytes p (k := 25 + 8) 11 rfl (by omega)
  unfold decodeTransport
  rw [hread₃₀, hread₃₁, hread₃₃, hprotocol]
  -- ICMP has its type and code where the others have their source port
  by_cases hicmp : byteOf (captured maxHeaderBytes p) 23 = 1
  · rw [if_neg (not_not.mpr hicmp), if_neg (not_not.mpr hicmp), EState.ok_bind,
      Words.toUInt16_byte2, Words.toUInt16_byte3]
    rfl
  · rw [if_pos hicmp, if_pos hicmp, EState.ok_bind, EState.ok_bind, Words.toUInt16_low16,
      Words.toUInt16_high16]
    by_cases htcp : byteOf (captured maxHeaderBytes p) 23 = 6
    · rw [if_pos htcp, if_pos htcp, EState.ok_bind, Words.toUInt8_byte3]
      rfl
    · rw [if_neg htcp, if_neg htcp]
      rfl

/-- The frame of a tracked packet. -/
theorem decodeFrame_tracked (h : TrackedFrame (captured maxHeaderBytes p)) :
    decodeFrame (Collector.sampleReader (sampleWords agent maxHeaderBytes p) 0) 25
      (UInt32.ofNat p.samplingRate.toNat) (UInt32.ofNat p.ingressPort.toNat)
      (UInt32.ofNat p.egressPort.toNat) (UInt32.ofNat p.frameLength.toNat) =
      .ok (some (decodedPacket maxHeaderBytes p)) := by
  have hlong := h.long
  have hread₂₅ := read_frame agent maxHeaderBytes p (k := 25) 3 rfl (by omega)
  have hread₂₇ := read_frame agent maxHeaderBytes p (k := 25 + 2) 5 rfl (by omega)
  have hread₂₈ := read_frame agent maxHeaderBytes p (k := 25 + 3) 6 rfl (by omega)
  have hread₂₉ := read_frame agent maxHeaderBytes p (k := 25 + 4) 7 rfl (by omega)
  have hread₃₀ := read_frame agent maxHeaderBytes p (k := 25 + 5) 8 rfl (by omega)
  have hipv4 : (Words.beWord (byteOf (captured maxHeaderBytes p) (4 * 3))
      (byteOf (captured maxHeaderBytes p) (4 * 3 + 1))
      (byteOf (captured maxHeaderBytes p) (4 * 3 + 2))
      (byteOf (captured maxHeaderBytes p) (4 * 3 + 3)) >>> 16) &&& 0xFFFF = 0x0800 :=
    (Words.high16_eq_iff _ _ _ _ 0x0800 8 0 rfl).mpr h.etherType
  unfold decodeFrame
  rw [hread₂₅, EState.ok_bind, if_neg (not_not.mpr hipv4), hread₂₇, EState.ok_bind, hread₂₈,
    EState.ok_bind, hread₂₉, EState.ok_bind, hread₃₀, EState.ok_bind, Words.toUInt16_high16,
    Words.toUInt8_byte3, ipFromFrontBack_beWord, ipFromFrontBack_beWord,
    decodeTransport_tracked agent maxHeaderBytes p hlong rfl, EState.ok_bind]
  by_cases hicmp : byteOf (captured maxHeaderBytes p) 23 = 1
  · simp [decodedPacket, hicmp, pure, Except.pure]
  · by_cases htcp : byteOf (captured maxHeaderBytes p) 23 = 6
    · simp [decodedPacket, htcp, pure, Except.pure]
    · simp [decodedPacket, hicmp, htcp, pure, Except.pure]

/-- What an emitted sample asks for, once its frame is read. -/
def frameEvent : Option FlowSample → SampleEvent
  | none => .skipped
  | some s => .flow s

/-- An emitted sample is read up to its frame, and the next one is looked for behind it. -/
theorem decodeSample_emitted {frame : Option FlowSample}
    (hframe : decodeFrame (Collector.sampleReader (sampleWords agent maxHeaderBytes p) 0) 25
      (UInt32.ofNat p.samplingRate.toNat) (UInt32.ofNat p.ingressPort.toNat)
      (UInt32.ofNat p.egressPort.toNat) (UInt32.ofNat p.frameLength.toNat) = .ok frame)
    (hfirst : ∀ s, frame = some s → s.fragOff = 0) :
    decodeSample .mininet (Collector.sampleReader (sampleWords agent maxHeaderBytes p) 0) =
      .ok (frameEvent frame,
        some (UInt32.ofNat (80 + (sentFrame maxHeaderBytes p).length) / 4 + 2)) := by
  have htype := read_field agent maxHeaderBytes p (k := 0) rfl
  have hlen := read_field agent maxHeaderBytes p (k := 1) rfl
  have hrate := read_field agent maxHeaderBytes p (k := 4) rfl
  have hinput := read_field agent maxHeaderBytes p (k := 7) rfl
  have houtput := read_field agent maxHeaderBytes p (k := 8) rfl
  have hdata := read_field agent maxHeaderBytes p (k := 11) rfl
  have hframeLength := read_field agent maxHeaderBytes p (k := 19) rfl
  have hnat : (80 + ((sentFrame maxHeaderBytes p).length : Int)).toNat =
      80 + (sentFrame maxHeaderBytes p).length := by omega
  have hdataLength : UInt32.ofNat (16 : Int).toNat = 16 := rfl
  -- the sixteen bytes of extended data come before the frame in this mode
  have hshift : frameShift .mininet (UInt32.ofNat (16 : Int).toNat) = 6 := by decide
  rw [hnat] at hlen
  unfold decodeSample decodeBrocade
  rw [htype, EState.ok_bind, hlen, EState.ok_bind, if_neg (by decide), if_neg (by decide),
    if_pos (by decide), hrate, EState.ok_bind, hinput, EState.ok_bind, houtput, EState.ok_bind,
    readFlowDataLength_mininet, hdata, EState.ok_bind, hshift]
  simp only
  rw [show (6 : UInt32) + 13 = 19 from rfl, hframeLength, EState.ok_bind,
    show (6 : UInt32) + 19 = 25 from rfl, hframe, EState.ok_bind, hdataLength]
  have hadvance : ∀ n : UInt32, 6 + flowAdvance .mininet n 16 = n / 4 + 2 := by
    intro n
    have hsix : (16 : UInt32) / 4 + 2 = 6 := rfl
    rw [flowAdvance, hsix, UInt32.add_comm, UInt32.sub_add_cancel]
  cases frame with
  | none =>
    rw [flowOutcome, hadvance]
    rfl
  | some s =>
    -- no emitted frame is a later fragment, so none is skipped
    have hkept : ¬ (s.isTracked ∧ s.fragOff ≠ 0) := fun hs => hs.2 (hfirst s rfl)
    rw [flowOutcome, if_neg hkept, hadvance]
    rfl

/-- The frame of a packet as `handlePacket` reads it: `none` when it is not IPv4. -/
def decodedFrame : Option FlowSample :=
  if IsIPv4 (captured maxHeaderBytes p) then some (decodedPacket maxHeaderBytes p) else none

theorem decodeFrame_emitted
    (hframe : TrackedFrame (captured maxHeaderBytes p) ∨ OtherFrame (captured maxHeaderBytes p)) :
    decodeFrame (Collector.sampleReader (sampleWords agent maxHeaderBytes p) 0) 25
      (UInt32.ofNat p.samplingRate.toNat) (UInt32.ofNat p.ingressPort.toNat)
      (UInt32.ofNat p.egressPort.toNat) (UInt32.ofNat p.frameLength.toNat) =
        .ok (decodedFrame maxHeaderBytes p) ∧
      ∀ s, decodedFrame maxHeaderBytes p = some s → s.fragOff = 0 := by
  unfold decodedFrame
  rcases hframe with htracked | hother
  · rw [if_pos htracked.etherType]
    refine ⟨decodeFrame_tracked agent maxHeaderBytes p htracked, ?_⟩
    intro s hs
    cases hs
    exact htracked.firstFragment
  · rw [if_neg hother.etherType]
    exact ⟨decodeFrame_other agent maxHeaderBytes p hother _ _ _ _, fun s hs => nomatch hs⟩

/-- An emitted sample is well formed, advances correctly, and asks for what its frame says. -/
theorem sampleWords_spec
    (hframe : TrackedFrame (captured maxHeaderBytes p) ∨ OtherFrame (captured maxHeaderBytes p))
    (hsize : (sentFrame maxHeaderBytes p).length ≤ 65535) :
    WellFormedSample .mininet (sampleWords agent maxHeaderBytes p) ∧
      ¬ Misadvances .mininet (sampleWords agent maxHeaderBytes p) ∧
      eventOf .mininet (sampleWords agent maxHeaderBytes p) =
        frameEvent (decodedFrame maxHeaderBytes p) := by
  obtain ⟨hread, hfirst⟩ := decodeFrame_emitted agent maxHeaderBytes p hframe
  have hdecode := decodeSample_emitted agent maxHeaderBytes p hread hfirst
  have htype := (sampleReader_eq_ok (read_field agent maxHeaderBytes p (k := 0) rfl)).2
  have hlen := (sampleReader_eq_ok (read_field agent maxHeaderBytes p (k := 1) rfl)).2
  have hnat : (80 + ((sentFrame maxHeaderBytes p).length : Int)).toNat =
      80 + (sentFrame maxHeaderBytes p).length := by omega
  rw [hnat] at hlen
  have hwords := length_sampleWords agent maxHeaderBytes p
  have hwf : WellFormedSample .mininet (sampleWords agent maxHeaderBytes p) := by
    refine ⟨?_, ⟨_, hdecode⟩, Or.inl ?_⟩
    · rw [← hlen, toNat_div_four, UInt32.toNat_ofNat_of_lt' (by simp only [UInt32.size]; omega)]
      omega
    · rw [← htype]
      decide
  refine ⟨hwf, ?_, ?_⟩
  · obtain ⟨event, advance, hdecode', hadvance⟩ := decodeSample_advance hwf
    rw [hdecode] at hdecode'
    rw [← hadvance, ← hlen]
    injection hdecode' with hpair
    injection hpair with _ hsome
    exact (Option.some.inj hsome).symm
  · rw [eventOf, hdecode]

end Read

/-! ## Effects -/

/-- The packets of the batch that the kernel counts. -/
def ipv4Packets (maxHeaderBytes : Nat) (ps : List SampledPacket) : List SampledPacket :=
  ps.filter fun p => IsIPv4 (captured maxHeaderBytes p)

/-- The IPv4 packets of a batch, applied. -/
def applyPackets (env : CollectorEnv) (agentIp : UInt32) (maxHeaderBytes : Nat)
    (ps : List SampledPacket) (c : Collector) : Collector :=
  (ipv4Packets maxHeaderBytes ps).foldl
    (fun c p => Collector.applyFlow env agentIp (decodedPacket maxHeaderBytes p) c) c

/-- A packet whose frame the kernel can read. -/
def ReadableFrame (maxHeaderBytes : Nat) (p : SampledPacket) : Prop :=
  TrackedFrame (captured maxHeaderBytes p) ∨ OtherFrame (captured maxHeaderBytes p)

theorem emittedSamples_spec {maxHeaderBytes : Nat} {ps : List SampledPacket}
    (hframe : ∀ p ∈ ps, ReadableFrame maxHeaderBytes p)
    (hsize : ∀ p ∈ ps, (sentFrame maxHeaderBytes p).length ≤ 65535) (agent : SwitchAgent) :
    ∀ s ∈ emittedSamples maxHeaderBytes agent ps,
      WellFormedSample .mininet s ∧ ¬ Misadvances .mininet s := by
  induction ps generalizing agent with
  | nil => exact fun s hs => absurd hs List.not_mem_nil
  | cons p ps ih =>
    intro s hs
    rw [emittedSamples, List.mem_cons] at hs
    rcases hs with rfl | hs
    · have hspec := sampleWords_spec agent maxHeaderBytes p (hframe p List.mem_cons_self)
        (hsize p List.mem_cons_self)
      exact ⟨hspec.1, hspec.2.1⟩
    · exact ih (fun q hq => hframe q (List.mem_cons_of_mem p hq))
        (fun q hq => hsize q (List.mem_cons_of_mem p hq)) _ s hs

/-- Applying the emitted samples is applying the IPv4 packets. -/
theorem foldl_emittedSamples (env : CollectorEnv) (agentIp : UInt32) {maxHeaderBytes : Nat}
    {ps : List SampledPacket} (hframe : ∀ p ∈ ps, ReadableFrame maxHeaderBytes p)
    (hsize : ∀ p ∈ ps, (sentFrame maxHeaderBytes p).length ≤ 65535) (agent : SwitchAgent)
    (c : Collector) :
    (emittedSamples maxHeaderBytes agent ps).foldl
        (fun c s => Collector.applySample env agentIp (eventOf .mininet s) c) c =
      applyPackets env agentIp maxHeaderBytes ps c := by
  induction ps generalizing agent c with
  | nil => rfl
  | cons p ps ih =>
    have hevent := (sampleWords_spec agent maxHeaderBytes p (hframe p List.mem_cons_self)
      (hsize p List.mem_cons_self)).2.2
    rw [emittedSamples, List.foldl_cons, hevent,
      ih (fun q hq => hframe q (List.mem_cons_of_mem p hq))
        (fun q hq => hsize q (List.mem_cons_of_mem p hq))]
    unfold applyPackets ipv4Packets decodedFrame
    rw [List.filter_cons]
    by_cases hipv4 : IsIPv4 (captured maxHeaderBytes p)
    · rw [if_pos hipv4, if_pos (decide_eq_true hipv4)]
      rfl
    · rw [if_neg hipv4, if_neg (by simpa using hipv4)]
      rfl

/-- An emitted datagram has the effect of its IPv4 packets. -/
theorem handlePacket_emitted (env : CollectorEnv) (hmode : env.mode = .mininet)
    (h : SFlowHeader) {maxHeaderBytes : Nat} {ps : List SampledPacket}
    (hframe : ∀ p ∈ ps, ReadableFrame maxHeaderBytes p)
    (hsize : datagramSize maxHeaderBytes ps ≤ 65535) (agent : SwitchAgent) (c : Collector) :
    Collector.handlePacket env (datagram h (emittedSamples maxHeaderBytes agent ps)) c =
      applyPackets env h.agentIp maxHeaderBytes ps c := by
  have hsent : ∀ p ∈ ps, (sentFrame maxHeaderBytes p).length ≤ 65535 :=
    fun p hp => Nat.le_trans (length_sentFrame_le_datagramSize hp) hsize
  have hspec := emittedSamples_spec hframe hsent agent
  have hlength : (datagram h (emittedSamples maxHeaderBytes agent ps)).length ≤ 65535 := by
    have hflatten := length_flatten_emittedSamples maxHeaderBytes agent ps
    rw [length_datagram]
    omega
  have hwf : ∀ s ∈ emittedSamples maxHeaderBytes agent ps, WellFormedSample env.mode s :=
    fun s hs => hmode ▸ (hspec s hs).1
  have hgood : ∀ s ∈ (emittedSamples maxHeaderBytes agent ps).dropLast,
      ¬ Misadvances env.mode s :=
    fun s hs => hmode ▸ (hspec s (List.dropLast_subset _ hs)).2
  have hdecode := Collector.decodeDatagram_eq env h hwf hlength c
  rw [Collector.sampleLoop_datagram env h hwf hgood hlength c] at hdecode
  rw [Collector.handlePacket_eq_of_loop hdecode rfl, hmode]
  exact foldl_emittedSamples env h.agentIp hframe hsent agent c

/-! ## The batch, read at every key -/

/-- The first byte of the transport header of an IPv4 frame. -/
def transportStart (f : List UInt8) : Nat := 14 + 4 * (byteOf f 14 &&& 0x0F).toNat

/-- The 5-tuple of an IPv4 frame, addresses in network order. For ICMP, type and code stand
    in place of the ports. -/
def fiveTuple (f : List UInt8) : SFlow.FlowKey :=
  let l4 := transportStart f
  { srcIP := Words.leWord (byteOf f 26) (byteOf f 27) (byteOf f 28) (byteOf f 29)
    dstIP := Words.leWord (byteOf f 30) (byteOf f 31) (byteOf f 32) (byteOf f 33)
    srcPort := if byteOf f 23 = 1 then Words.be16 0 (byteOf f l4)
      else Words.be16 (byteOf f l4) (byteOf f (l4 + 1))
    dstPort := if byteOf f 23 = 1 then Words.be16 0 (byteOf f (l4 + 1))
      else Words.be16 (byteOf f (l4 + 2)) (byteOf f (l4 + 3))
    protocol := byteOf f 23 }

theorem flowKeyOf_decodedPacket {maxHeaderBytes : Nat} {p : SampledPacket}
    (h : TrackedFrame (captured maxHeaderBytes p)) :
    Collector.flowKeyOf (decodedPacket maxHeaderBytes p) =
      fiveTuple (captured maxHeaderBytes p) := by
  have hstart : transportStart (captured maxHeaderBytes p) = 34 := by
    rw [transportStart, h.ihl]
    rfl
  unfold fiveTuple Collector.flowKeyOf
  simp only [hstart]
  by_cases hicmp : byteOf (captured maxHeaderBytes p) 23 = 1
  · simp [decodedPacket, hicmp]
  · simp [decodedPacket, hicmp]

theorem isTracked_decodedPacket {maxHeaderBytes : Nat} {p : SampledPacket}
    (h : TrackedFrame (captured maxHeaderBytes p)) :
    (decodedPacket maxHeaderBytes p).isTracked = true := by
  have hprotocol := h.protocol
  simp only [FlowSample.isTracked, decodedPacket, Bool.or_eq_true, beq_iff_eq]
  rcases hprotocol with htcp | hudp | hicmp
  · exact Or.inl (Or.inl htcp)
  · exact Or.inl (Or.inr hudp)
  · exact Or.inr hicmp

theorem ofNat_toNat_eq_iff {x : Int} (h : FitsU32 x) (n : UInt32) :
    UInt32.ofNat x.toNat = n ↔ x = n.toNat := by
  obtain ⟨h₀, h₁⟩ := h
  rw [← UInt32.toNat_inj, UInt32.toNat_ofNat_of_lt' (by simp only [UInt32.size]; omega)]
  omega

theorem toUInt64_ofNat {x : Int} (h : FitsU32 x) :
    (UInt32.ofNat x.toNat).toUInt64 = UInt64.ofNat x.toNat := by
  obtain ⟨h₀, h₁⟩ := h
  rw [← UInt64.toNat_inj, UInt32.toNat_toUInt64,
    UInt32.toNat_ofNat_of_lt' (by simp only [UInt32.size]; omega),
    UInt64.toNat_ofNat_of_lt' (by simp only [UInt64.size]; omega)]

/-- The bytes a packet stands for. -/
def scaledLength (p : SampledPacket) : Nat := (p.frameLength * p.samplingRate).toNat

theorem sampledBytes_decodedPacket (maxHeaderBytes : Nat) {p : SampledPacket}
    (hfits : FieldsFit p) :
    Collector.sampledBytes (decodedPacket maxHeaderBytes p) = UInt64.ofNat (scaledLength p) := by
  have hmul : (p.frameLength * p.samplingRate).toNat =
      p.frameLength.toNat * p.samplingRate.toNat :=
    Int.toNat_mul hfits.frameLength.1 hfits.samplingRate.1
  rw [scaledLength, hmul, UInt64.ofNat_mul]
  show (UInt32.ofNat _).toUInt64 * (UInt32.ofNat _).toUInt64 = _
  rw [toUInt64_ofNat hfits.frameLength, toUInt64_ofNat hfits.samplingRate]

/-- A sum kept in a 64-bit counter. -/
theorem foldl_add_ofNat {β : Type} (n : β → Nat) (l : List β) (a : UInt64) :
    l.foldl (fun a x => a + UInt64.ofNat (n x)) a = a + UInt64.ofNat (l.map n).sum := by
  induction l generalizing a with
  | nil => exact (UInt64.add_zero a).symm
  | cons x xs ih =>
    rw [List.foldl_cons, ih, List.map_cons, List.sum_cons, UInt64.ofNat_add, UInt64.add_assoc]

/-- The port of an agent that `key` names. -/
def OnPort (agentIp : UInt32) (key : SFlow.AgentKey) (port : Int) : Prop :=
  key.agentIP = agentIp ∧ port = key.interfacePort.toNat

instance (agentIp : UInt32) (key : SFlow.AgentKey) (port : Int) :
    Decidable (OnPort agentIp key port) :=
  inferInstanceAs (Decidable (_ ∧ _))

theorem agentKey_eq_iff (agentIp : UInt32) (key : SFlow.AgentKey) {port : Int}
    (h : FitsU32 port) :
    (⟨agentIp, UInt32.ofNat port.toNat⟩ : SFlow.AgentKey) = key ↔ OnPort agentIp key port := by
  rw [OnPort, ← ofNat_toNat_eq_iff h]
  cases key
  simp only [SFlow.AgentKey.mk.injEq]
  rw [eq_comm]

/-- A packet that the kernel counts if it is IPv4: its numbers fit their fields, it came in at
    a port, and its frame can be read. -/
structure Emittable (maxHeaderBytes : Nat) (p : SampledPacket) : Prop where
  fits : FieldsFit p
  ingress : p.ingressPort ≠ 0
  frame : ReadableFrame maxHeaderBytes p

section Batch

variable {env : CollectorEnv} (hmode : env.mode = .mininet) (hports : ∀ n, env.lookupOfport n = n)
  (agentIp : UInt32) {maxHeaderBytes : Nat} {ps : List SampledPacket}
  (hps : ∀ p ∈ ps, Emittable maxHeaderBytes p) (c : Collector)

include hps in
/-- What a batch does to a view, from what one tracked packet does to it. -/
theorem view_applyPackets {τ : Type} (view : Collector → τ) (g : τ → SampledPacket → τ)
    (hstep : ∀ c p, FieldsFit p → TrackedFrame (captured maxHeaderBytes p) →
      (decodedPacket maxHeaderBytes p).inputPort ≠ 0 →
      view (Collector.applyFlow env agentIp (decodedPacket maxHeaderBytes p) c) = g (view c) p) :
    view (applyPackets env agentIp maxHeaderBytes ps c) =
      (ipv4Packets maxHeaderBytes ps).foldl g (view c) := by
  refine List.foldl_hom_of_mem ?_ c
  intro c p hp
  obtain ⟨hmem, hipv4⟩ := List.mem_filter.mp hp
  have hemit := hps p hmem
  have hframe : TrackedFrame (captured maxHeaderBytes p) :=
    hemit.frame.resolve_right fun hother => hother.etherType (of_decide_eq_true hipv4)
  refine hstep c p hemit.fits hframe ?_
  show UInt32.ofNat p.ingressPort.toNat ≠ 0
  rw [Ne, ofNat_toNat_eq_iff hemit.fits.ingressPort]
  exact hemit.ingress

include hmode hports hps

theorem malformedDatagrams_applyPackets :
    (applyPackets env agentIp maxHeaderBytes ps c).malformedDatagrams = c.malformedDatagrams := by
  rw [view_applyPackets agentIp hps c Collector.malformedDatagrams fun m _ => m]
  · exact List.foldl_fixed _
  · intro c p _ htracked hinput
    exact Collector.malformedDatagrams_applyFlow hmode hports agentIp
      (isTracked_decodedPacket htracked) hinput c

/-- The ingress bank of every key. -/
theorem byteCredit_applyPackets (key : SFlow.AgentKey) :
    Collector.byteCredit (applyPackets env agentIp maxHeaderBytes ps c).counterReports key =
      Collector.byteCredit c.counterReports key +
        UInt64.ofNat ((((ipv4Packets maxHeaderBytes ps).filter fun p =>
          OnPort agentIp key p.ingressPort).map scaledLength).sum) := by
  rw [← foldl_add_ofNat, ← List.foldl_ite_eq_foldl_filter]
  refine view_applyPackets agentIp hps c
    (fun c => Collector.byteCredit c.counterReports key) _ ?_
  intro c p hfits htracked hinput
  rw [Collector.byteCredit_applyFlow hmode hports agentIp (isTracked_decodedPacket htracked)
    hinput, sampledBytes_decodedPacket maxHeaderBytes hfits]
  exact if_congr (agentKey_eq_iff agentIp key hfits.ingressPort) rfl rfl

/-- The egress bank of every key. -/
theorem byteCredit_egress_applyPackets (key : SFlow.AgentKey) :
    Collector.byteCredit (applyPackets env agentIp maxHeaderBytes ps c).egressCounterReports key =
      Collector.byteCredit c.egressCounterReports key +
        UInt64.ofNat ((((ipv4Packets maxHeaderBytes ps).filter fun p =>
          OnPort agentIp key p.egressPort ∧ p.egressPort ≠ 0).map scaledLength).sum) := by
  rw [← foldl_add_ofNat, ← List.foldl_ite_eq_foldl_filter]
  refine view_applyPackets agentIp hps c
    (fun c => Collector.byteCredit c.egressCounterReports key) _ ?_
  intro c p hfits htracked hinput
  rw [Collector.byteCredit_egress_applyFlow hmode hports agentIp
    (isTracked_decodedPacket htracked) hinput, sampledBytes_decodedPacket maxHeaderBytes hfits]
  exact if_congr (and_congr (agentKey_eq_iff agentIp key hfits.egressPort)
    (not_congr (ofNat_toNat_eq_iff hfits.egressPort 0))) rfl rfl

/-- The record of every flow at every port. -/
theorem recordOf_applyPackets (key : SFlow.FlowKey) (agentKey : SFlow.AgentKey) :
    Collector.recordOf (applyPackets env agentIp maxHeaderBytes ps c).flowInfoTable key agentKey =
      ((ipv4Packets maxHeaderBytes ps).filter fun p =>
        fiveTuple (captured maxHeaderBytes p) = key ∧ OnPort agentIp agentKey p.ingressPort).foldl
        (fun record p => some (Collector.FlowRecord.push record
          (UInt64.ofNat p.frameLength.toNat) (UInt32.ofNat p.samplingRate.toNat)))
        (Collector.recordOf c.flowInfoTable key agentKey) := by
  rw [← List.foldl_ite_eq_foldl_filter]
  refine view_applyPackets agentIp hps c
    (fun c => Collector.recordOf c.flowInfoTable key agentKey) _ ?_
  intro c p hfits htracked hinput
  rw [Collector.recordOf_applyFlow hmode hports agentIp (isTracked_decodedPacket htracked) hinput,
    flowKeyOf_decodedPacket htracked]
  refine if_congr (and_congr_right fun _ => agentKey_eq_iff agentIp agentKey hfits.ingressPort)
    ?_ rfl
  rw [← toUInt64_ofNat hfits.frameLength]
  rfl

/-- The flows that are known. -/
theorem mem_applyPackets (key : SFlow.FlowKey) :
    key ∈ (applyPackets env agentIp maxHeaderBytes ps c).flowInfoTable ↔
      key ∈ c.flowInfoTable ∨
        ∃ p ∈ ipv4Packets maxHeaderBytes ps, fiveTuple (captured maxHeaderBytes p) = key := by
  rw [← List.foldl_or_iff]
  refine iff_of_eq (view_applyPackets agentIp hps c (fun c => key ∈ c.flowInfoTable) _ ?_)
  intro c p hfits htracked hinput
  rw [Collector.mem_applyFlow hmode hports agentIp (isTracked_decodedPacket htracked) hinput,
    flowKeyOf_decodedPacket htracked]

end Batch

end Ndtwin.Proxy

namespace Ndtwin.Spec

open Ndtwin.Kernel Ndtwin.Proxy

/-- Every non-empty batch of packets whose numbers fit their fields, that came in at a port,
    whose frames are tracked IPv4 or not IPv4, and that fits the receive buffer, is built into a
    datagram that the kernel in Mininet, with interface indices for ports, takes whole. No
    datagram is reported as malformed; each ingress bank grows by the scaled lengths of the
    IPv4 packets of its port, and each egress bank by those of its non-zero port; the flow
    table gets the 5-tuples of the IPv4 packets and no others, each with the lengths and the
    rate of its packets; and the packets that are not IPv4 have no effect at all. -/
theorem emitted_datagram_roundtrip (env : CollectorEnv) (hmode : env.mode = .mininet)
    (hports : ∀ n, env.lookupOfport n = n) (agent : SwitchAgent) (address : List UInt8)
    (haddress : inetAtonOrThrow agent.agentIp = .ok address) (hsub : FitsU32 agent.subAgentId)
    (hdropped : FitsU32 agent.dropped) (uptimeMs : Int) (huptime : FitsU32 uptimeMs)
    (maxHeaderBytes : Nat) (ps : List SampledPacket) (hne : ps ≠ [])
    (hps : ∀ p ∈ ps, Emittable maxHeaderBytes p)
    (hsize : datagramSize maxHeaderBytes ps ≤ 65535) (c : Collector) :
    ∃ bytes agent', buildDatagram ps uptimeMs maxHeaderBytes agent = .ok bytes agent' ∧
      bytes.length = datagramSize maxHeaderBytes ps ∧
      Collector.handlePacket env bytes c =
        applyPackets env (addressWord address) maxHeaderBytes ps c ∧
      (Collector.handlePacket env bytes c).malformedDatagrams = c.malformedDatagrams ∧
      (∀ key, Collector.byteCredit (Collector.handlePacket env bytes c).counterReports key =
        Collector.byteCredit c.counterReports key +
          UInt64.ofNat ((((ipv4Packets maxHeaderBytes ps).filter fun p =>
            OnPort (addressWord address) key p.ingressPort).map scaledLength).sum)) ∧
      (∀ key, Collector.byteCredit (Collector.handlePacket env bytes c).egressCounterReports key =
        Collector.byteCredit c.egressCounterReports key +
          UInt64.ofNat ((((ipv4Packets maxHeaderBytes ps).filter fun p =>
            OnPort (addressWord address) key p.egressPort ∧ p.egressPort ≠ 0).map scaledLength).sum)) ∧
      (∀ key agentKey,
        Collector.recordOf (Collector.handlePacket env bytes c).flowInfoTable key agentKey =
          ((ipv4Packets maxHeaderBytes ps).filter fun p =>
            fiveTuple (captured maxHeaderBytes p) = key ∧
              OnPort (addressWord address) agentKey p.ingressPort).foldl
            (fun record p => some (Collector.FlowRecord.push record
              (UInt64.ofNat p.frameLength.toNat) (UInt32.ofNat p.samplingRate.toNat)))
            (Collector.recordOf c.flowInfoTable key agentKey)) ∧
      (∀ key, key ∈ (Collector.handlePacket env bytes c).flowInfoTable ↔
        key ∈ c.flowInfoTable ∨
          ∃ p ∈ ipv4Packets maxHeaderBytes ps, fiveTuple (captured maxHeaderBytes p) = key) := by
  obtain ⟨b₀, b₁, b₂, b₃, rfl⟩ := exists_bytes_of_inetAtonOrThrow haddress
  -- what fits a UDP payload has no length that needs more than a word
  have hframes : ∀ p ∈ ps, 80 + (sentFrame maxHeaderBytes p).length < 2 ^ 32 := by
    intro p hp
    have hle := @length_sentFrame_le_datagramSize maxHeaderBytes ps p hp
    omega
  have hlength := length_le_datagramSize maxHeaderBytes ps
  have hbuild := buildDatagram_eq haddress hsub hdropped huptime hne
    (fun p hp => (hps p hp).fits) hframes (by omega)
  have hhandle := handlePacket_emitted env hmode
    (emittedHeader agent uptimeMs (Words.leWord b₀ b₁ b₂ b₃)) (fun p hp => (hps p hp).frame) hsize
    agent c
  refine ⟨_, _, hbuild, ?_, hhandle, ?_⟩
  · have hflatten := length_flatten_emittedSamples maxHeaderBytes agent ps
    rw [length_datagram]
    omega
  rw [hhandle]
  exact ⟨malformedDatagrams_applyPackets hmode hports _ hps c,
    byteCredit_applyPackets hmode hports _ hps c,
    byteCredit_egress_applyPackets hmode hports _ hps c,
    recordOf_applyPackets hmode hports _ hps c, mem_applyPackets hmode hports _ hps c⟩

/-- A Mininet whose interface indices are its ports. -/
def mininetEnv : CollectorEnv where
  mode := .mininet
  lookupOfport := id
  pathKnown _ _ := false
  steadyClock n := n
  systemClock n := n

/-- A TCP segment from 10.0.0.1:8080 to 10.0.0.2:80, captured up to its flags. -/
def tcpPacket : SampledPacket where
  ingressPort := 1
  egressPort := 2
  frameLength := 1000
  samplingRate := 100
  frame := List.replicate 12 0 ++ [0x08, 0x00, 0x45, 0, 0, 50, 0, 0, 0, 0, 64, 6, 0, 0, 10, 0, 0, 1,
    10, 0, 0, 2, 0x1f, 0x90, 0, 80, 0, 0, 0, 0, 0, 0, 0, 0, 0x50, 0x10]

/-- An ARP request. -/
def arpPacket : SampledPacket where
  ingressPort := 2
  egressPort := 1
  frameLength := 60
  samplingRate := 100
  frame := List.replicate 12 0 ++ [0x08, 0x06, 0x00, 0x01]

theorem tcpAndArp_roundtrip :
    ∃ bytes agent', buildDatagram [tcpPacket, arpPacket, tcpPacket] 5 128
        { agentIp := "192.168.123.11" } = .ok bytes agent' ∧
      (Collector.handlePacket mininetEnv bytes {}).malformedDatagrams = 0 ∧
      Collector.byteCredit (Collector.handlePacket mininetEnv bytes {}).counterReports
        ⟨0x0b7ba8c0, 1⟩ = 200000 ∧
      Collector.byteCredit (Collector.handlePacket mininetEnv bytes {}).egressCounterReports
        ⟨0x0b7ba8c0, 2⟩ = 200000 ∧
      Collector.byteCredit (Collector.handlePacket mininetEnv bytes {}).counterReports
        ⟨0x0b7ba8c0, 2⟩ = 0 ∧
      Collector.recordOf (Collector.handlePacket mininetEnv bytes {}).flowInfoTable
        { srcIP := 0x0100000a, dstIP := 0x0200000a, srcPort := 8080, dstPort := 80, protocol := 6 }
        ⟨0x0b7ba8c0, 1⟩ = some { bytes := 2000, packets := 2, samplingRate := 100 } := by
  have htcp : Emittable 128 tcpPacket :=
    ⟨⟨by decide, by decide, by decide, by decide⟩, by decide,
      Or.inl ⟨by decide, by decide, by decide, by decide, by decide⟩⟩
  have harp : Emittable 128 arpPacket :=
    ⟨⟨by decide, by decide, by decide, by decide⟩, by decide, Or.inr ⟨by decide, by decide⟩⟩
  have hall : ∀ p ∈ [tcpPacket, arpPacket, tcpPacket], Emittable 128 p := by
    simp only [List.mem_cons, List.not_mem_nil, or_false, forall_eq_or_imp, forall_eq]
    exact ⟨htcp, harp, htcp⟩
  obtain ⟨bytes, agent', hbuild, -, -, hmalformed, hingress, hegress, hrecord, -⟩ :=
    emitted_datagram_roundtrip mininetEnv rfl (fun _ => rfl) { agentIp := "192.168.123.11" }
      [192, 168, 123, 11] (by decide +kernel) (by decide) (by decide) 5 (by decide) 128
      [tcpPacket, arpPacket, tcpPacket] (by decide) hall (by decide) {}
  refine ⟨bytes, agent', hbuild, hmalformed, ?_, ?_, ?_, ?_⟩
  · rw [hingress]
    decide +kernel
  · rw [hegress]
    decide +kernel
  · rw [hingress]
    decide +kernel
  · rw [hrecord]
    decide +kernel

end Ndtwin.Spec

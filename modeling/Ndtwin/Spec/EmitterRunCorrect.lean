import Ndtwin.ForStd.Run
import Ndtwin.Spec.SFlowEmitterCorrect

/-!
# Batching in the sFlow Emitter

`emit`, `flush` and `close` share the buffers and the counters of each switch. A batch leaves
its buffer when it is full, when another switch emits and finds it too old, or at an explicit
flush; whichever comes first takes all of it. `readDatagram` reads a datagram back from its bytes,
and the ledger of a switch says that what is read from its datagrams are its samples in order,
numbered from 1.

A batch of 2 ^ 32 samples has no datagram: the number of samples is a field of 32 bits, so
`build_datagram` throws, and `_flush_one` has emptied the buffer by then.

## Key results

- `readDatagram_emitted`: a datagram of the emitter, read back
- `sendSamples_ledger`: a datagram that was sent extends the ledger of its switch
- `flushOne_conserves`: a flush moves what is buffered to the wire
- `emitter_delivers`: in every run with batches of less than 2 ^ 32 samples no sample is lost,
  duplicated or sent for another switch
-/

namespace Ndtwin.Proxy

open Ndtwin.Kernel

/-! ## Reading a datagram -/

/-- A word of a datagram, as a number. -/
def wordAt (ws : List UInt32) (k : Nat) : Nat := (Words.ntohl (ws.getD k 0)).toNat

/-- The number of a flow sample, and the packet in it; the frame is as much as was captured. -/
def readSample (ws : List UInt32) : Nat × SampledPacket where
  fst := wordAt ws 2
  snd := {
    ingressPort := wordAt ws 7
    egressPort := wordAt ws 8
    frameLength := wordAt ws 19
    samplingRate := wordAt ws 4
    frame := ((ws.drop 22).flatMap Words.leBytes).take (wordAt ws 21) }

/-- Flow samples one behind the other; the second word of each is its length in bytes. -/
def readSamples : Nat → List UInt32 → List (Nat × SampledPacket)
  | 0, _ => []
  | count + 1, ws => readSample ws :: readSamples count (ws.drop (2 + wordAt ws 1 / 4))

structure WireDatagram where
  agentIp : UInt32
  sequence : Nat
  samples : List (Nat × SampledPacket)

/-- What a datagram carries. -/
def readDatagram (bytes : List UInt8) : WireDatagram :=
  let ws := Words.toWords bytes
  { agentIp := ws.getD 2 0
    sequence := wordAt ws 4
    samples := readSamples (wordAt ws 6) (ws.drop 7) }

/-- A packet with its frame cut to what is captured. -/
def SampledPacket.truncated (maxHeaderBytes : Nat) (p : SampledPacket) : SampledPacket :=
  { p with frame := captured maxHeaderBytes p }

/-- A packet that an emitter can put into a datagram. -/
structure InRange (maxHeaderBytes : Nat) (p : SampledPacket) : Prop where
  fields : FieldsFit p
  size : 80 + (sentFrame maxHeaderBytes p).length < 2 ^ 32

theorem ntohl_fieldWord {x : Int} (hx : FitsU32 x) :
    ((Words.ntohl (fieldWord x)).toNat : Int) = x := by
  have hlt : x.toNat < UInt32.size := by
    obtain ⟨h₀, h₁⟩ := hx
    simp only [UInt32.size]
    omega
  rw [fieldWord, Words.ntohl_ntohl, UInt32.toNat_ofNat_of_lt' hlt]
  exact Int.toNat_of_nonneg hx.1

section Sample

variable (agent : SwitchAgent) {maxHeaderBytes : Nat} {p : SampledPacket} (rest : List UInt32)

theorem wordAt_sampleWords {k : Nat} {x : Int}
    (h : (sampleFields agent maxHeaderBytes p)[k]? = some x) (hx : FitsU32 x) :
    (wordAt (sampleWords agent maxHeaderBytes p ++ rest) k : Int) = x := by
  have hk := (List.getElem?_eq_some_iff.mp h).1
  have hget : (sampleWords agent maxHeaderBytes p ++ rest)[k]? = some (fieldWord x) := by
    rw [sampleWords, List.append_assoc, List.getElem?_append_left (by rw [List.length_map]; exact hk),
      List.getElem?_map, h]
    rfl
  rw [wordAt, List.getD_eq_getElem?_getD, hget]
  exact ntohl_fieldWord hx

theorem captured_prefix_sentFrame : captured maxHeaderBytes p <+: sentFrame maxHeaderBytes p := by
  unfold sentFrame padToWord
  split
  · exact List.prefix_refl _
  · exact List.prefix_append _ _

/-- The frame of a sample, read back. -/
theorem frame_sampleWords :
    (((sampleWords agent maxHeaderBytes p ++ rest).drop 22).flatMap Words.leBytes).take
      (captured maxHeaderBytes p).length = captured maxHeaderBytes p := by
  have haligned : (sentFrame maxHeaderBytes p).length % 4 = 0 := length_padToWord_mod _
  have hfields : ((sampleFields agent maxHeaderBytes p).map fieldWord).length = 22 := rfl
  have hdrop : (sampleWords agent maxHeaderBytes p ++ rest).drop 22 =
      Words.toWords (sentFrame maxHeaderBytes p) ++ rest := by
    rw [sampleWords, List.append_assoc, ← hfields, List.drop_left]
  rw [hdrop, List.flatMap_append, Words.flatMap_leBytes_toWords haligned]
  obtain ⟨padding, hpadding⟩ := @captured_prefix_sentFrame maxHeaderBytes p
  rw [← hpadding, List.append_assoc, List.take_left]

theorem readSample_sampleWords (hp : InRange maxHeaderBytes p) :
    readSample (sampleWords agent maxHeaderBytes p ++ rest) =
      (((agent.sampleSequence + 1) % 2 ^ 32).toNat, p.truncated maxHeaderBytes) := by
  have hsize := hp.size
  have hcaptured : (captured maxHeaderBytes p).length ≤ (sentFrame maxHeaderBytes p).length :=
    length_le_padToWord _
  have hsequence : (wordAt (sampleWords agent maxHeaderBytes p ++ rest) 2 : Int) =
      (agent.sampleSequence + 1) % 2 ^ 32 := by
    apply wordAt_sampleWords agent rest rfl
    unfold FitsU32
    omega
  have hlength : (wordAt (sampleWords agent maxHeaderBytes p ++ rest) 21 : Int) =
      (captured maxHeaderBytes p).length := by
    apply wordAt_sampleWords agent rest rfl
    unfold FitsU32
    omega
  have hframe := @frame_sampleWords agent maxHeaderBytes p rest
  rw [← Int.ofNat_inj.mp hlength] at hframe
  unfold readSample SampledPacket.truncated
  rw [hframe, wordAt_sampleWords agent rest rfl hp.fields.ingressPort,
    wordAt_sampleWords agent rest rfl hp.fields.egressPort,
    wordAt_sampleWords agent rest rfl hp.fields.frameLength,
    wordAt_sampleWords agent rest rfl hp.fields.samplingRate, ← hsequence, Int.toNat_natCast]

/-- The length word of a sample leads to the next one. -/
theorem drop_sampleWords (hp : InRange maxHeaderBytes p) :
    (sampleWords agent maxHeaderBytes p ++ rest).drop
      (2 + wordAt (sampleWords agent maxHeaderBytes p ++ rest) 1 / 4) = rest := by
  have hsize := hp.size
  have haligned : (sentFrame maxHeaderBytes p).length % 4 = 0 := length_padToWord_mod _
  have hword : (wordAt (sampleWords agent maxHeaderBytes p ++ rest) 1 : Int) =
      80 + (sentFrame maxHeaderBytes p).length := by
    apply wordAt_sampleWords agent rest rfl
    unfold FitsU32
    omega
  have hwords := length_sampleWords agent maxHeaderBytes p
  have hlength : 2 + wordAt (sampleWords agent maxHeaderBytes p ++ rest) 1 / 4 =
      (sampleWords agent maxHeaderBytes p).length := by
    omega
  rw [hlength, List.drop_left]

end Sample

/-- Packets as they are read from the wire, numbered behind the first `start` ones. -/
def numbered (maxHeaderBytes start : Nat) (ps : List SampledPacket) : List (Nat × SampledPacket) :=
  (ps.zipIdx (start + 1)).map fun x => (x.2 % 2 ^ 32, x.1.truncated maxHeaderBytes)

theorem numbered_cons (maxHeaderBytes start : Nat) (p : SampledPacket) (ps : List SampledPacket) :
    numbered maxHeaderBytes start (p :: ps) =
      ((start + 1) % 2 ^ 32, p.truncated maxHeaderBytes) ::
        numbered maxHeaderBytes (start + 1) ps := rfl

theorem numbered_append (maxHeaderBytes start : Nat) (ps qs : List SampledPacket) :
    numbered maxHeaderBytes start (ps ++ qs) =
      numbered maxHeaderBytes start ps ++ numbered maxHeaderBytes (start + ps.length) qs := by
  rw [numbered, List.zipIdx_append, List.map_append, numbered, numbered]
  rw [show start + 1 + ps.length = start + ps.length + 1 by omega]

theorem length_numbered (maxHeaderBytes start : Nat) (ps : List SampledPacket) :
    (numbered maxHeaderBytes start ps).length = ps.length := by
  rw [numbered, List.length_map, List.length_zipIdx]

/-- The samples of a datagram, read back; the agent has numbered `start` samples before. -/
theorem readSamples_emitted {maxHeaderBytes start : Nat} {ps : List SampledPacket}
    (hps : ∀ p ∈ ps, InRange maxHeaderBytes p) {agent : SwitchAgent}
    (hagent : agent.sampleSequence = (start : Int) % 2 ^ 32) :
    readSamples ps.length (emittedSamples maxHeaderBytes agent ps).flatten =
      numbered maxHeaderBytes start ps := by
  induction ps generalizing agent start with
  | nil => rfl
  | cons p ps ih =>
    have hp : InRange maxHeaderBytes p := hps p List.mem_cons_self
    have hnext : (afterSample agent p).sampleSequence = ((start + 1 : Nat) : Int) % 2 ^ 32 := by
      show (agent.sampleSequence + 1) % 2 ^ 32 = _
      omega
    have hnumber : ((agent.sampleSequence + 1) % 2 ^ 32).toNat = (start + 1) % 2 ^ 32 := by
      omega
    have hrest := ih (fun q hq => hps q (List.mem_cons_of_mem p hq)) hnext
    rw [List.length_cons, emittedSamples, List.flatten_cons, readSamples,
      readSample_sampleWords agent _ hp, drop_sampleWords agent _ hp, hrest, hnumber, numbered_cons]

/-- The address of an agent, as the word that the kernel finds in its buffer. -/
def agentWord (agent : SwitchAgent) : UInt32 :=
  match inetAtonOrThrow agent.agentIp with
  | .ok address => addressWord address
  | .error _ => 0

/-- An agent as `register_switch` makes it, whatever its counters are by now. -/
structure AgentOk (agent : SwitchAgent) : Prop where
  address : ∃ bytes, inetAtonOrThrow agent.agentIp = .ok bytes
  subAgentId : FitsU32 agent.subAgentId
  dropped : FitsU32 agent.dropped

/-- What is built from packets in range, and what is read back from it. -/
theorem readDatagram_emitted {agent : SwitchAgent} (hagent : AgentOk agent) {uptimeMs : Int}
    (huptime : FitsU32 uptimeMs) {maxHeaderBytes datagrams samples : Nat}
    {ps : List SampledPacket} (hne : ps ≠ []) (hps : ∀ p ∈ ps, InRange maxHeaderBytes p)
    (hlength : ps.length < 2 ^ 32) (hdatagrams : agent.datagramSequence = (datagrams : Int) % 2 ^ 32)
    (hsamples : agent.sampleSequence = (samples : Int) % 2 ^ 32) :
    ∃ bytes, buildDatagram ps uptimeMs maxHeaderBytes agent = .ok bytes (afterDatagram agent ps) ∧
      readDatagram bytes =
        ⟨agentWord agent, (datagrams + 1) % 2 ^ 32, numbered maxHeaderBytes samples ps⟩ := by
  obtain ⟨address, haddress⟩ := hagent.address
  obtain ⟨b₀, b₁, b₂, b₃, rfl⟩ := exists_bytes_of_inetAtonOrThrow haddress
  refine ⟨_, buildDatagram_eq haddress hagent.subAgentId hagent.dropped huptime hne
    (fun p hp => (hps p hp).fields) (fun p hp => (hps p hp).size) hlength, ?_⟩
  have hword : agentWord agent = Words.leWord b₀ b₁ b₂ b₃ := by
    rw [agentWord, haddress]
    rfl
  have hsequence : (Words.ntohl (fieldWord ((agent.datagramSequence + 1) % 2 ^ 32))).toNat =
      (datagrams + 1) % 2 ^ 32 := by
    have hfield := @ntohl_fieldWord ((agent.datagramSequence + 1) % 2 ^ 32)
      (by unfold FitsU32; omega)
    omega
  -- the length word is written and read in network order, so both conversions cancel
  have hcount : (Words.ntohl (Words.ntohl
      (UInt32.ofNat (emittedSamples maxHeaderBytes agent ps).length))).toNat = ps.length := by
    rw [Words.ntohl_ntohl, length_emittedSamples]
    exact UInt32.toNat_ofNat_of_lt' hlength
  unfold readDatagram datagram
  rw [Words.toWords_flatMap_leBytes]
  show WireDatagram.mk _ (Words.ntohl (fieldWord _)).toNat
    (readSamples (Words.ntohl (Words.ntohl (UInt32.ofNat _))).toNat _) = _
  rw [hsequence, hcount, hword]
  exact congrArg _ (readSamples_emitted hps hsamples)

/-! ## Agents -/

theorem sampleSequence_foldl {agent : SwitchAgent} {samples : Nat}
    (h : agent.sampleSequence = (samples : Int) % 2 ^ 32) (ps : List SampledPacket) :
    (ps.foldl afterSample agent).sampleSequence = ((samples + ps.length : Nat) : Int) % 2 ^ 32 := by
  induction ps generalizing agent samples with
  | nil => exact h
  | cons p ps ih =>
    have hnext : (afterSample agent p).sampleSequence = ((samples + 1 : Nat) : Int) % 2 ^ 32 := by
      show (agent.sampleSequence + 1) % 2 ^ 32 = _
      omega
    have hrest := ih hnext
    rw [List.foldl_cons, List.length_cons]
    rwa [show samples + (ps.length + 1) = samples + 1 + ps.length by omega]

/-- Samples change neither the address nor the number of the last datagram. -/
theorem foldl_afterSample_keeps (agent : SwitchAgent) (ps : List SampledPacket) :
    (ps.foldl afterSample agent).agentIp = agent.agentIp ∧
      (ps.foldl afterSample agent).subAgentId = agent.subAgentId ∧
      (ps.foldl afterSample agent).dropped = agent.dropped ∧
      (ps.foldl afterSample agent).datagramSequence = agent.datagramSequence := by
  induction ps generalizing agent with
  | nil => exact ⟨rfl, rfl, rfl, rfl⟩
  | cons p ps ih => exact ih (afterSample agent p)

theorem agentOk_afterDatagram {agent : SwitchAgent} (h : AgentOk agent)
    (ps : List SampledPacket) : AgentOk (afterDatagram agent ps) := by
  obtain ⟨hip, hsub, hdropped, -⟩ := foldl_afterSample_keeps
    { agent with datagramSequence := (agent.datagramSequence + 1) % 2 ^ 32 } ps
  constructor
  · rw [afterDatagram, hip]
    exact h.address
  · rw [afterDatagram, hsub]
    exact h.subAgentId
  · rw [afterDatagram, hdropped]
    exact h.dropped

theorem agentWord_afterDatagram (agent : SwitchAgent) (ps : List SampledPacket) :
    agentWord (afterDatagram agent ps) = agentWord agent := by
  have hip := (foldl_afterSample_keeps
    { agent with datagramSequence := (agent.datagramSequence + 1) % 2 ^ 32 } ps).1
  rw [agentWord, afterDatagram, hip, agentWord]

/-! ## The ledger of a switch -/

namespace SFlowEmitter

variable {τ : Type}

/-- The datagrams that were sent for a switch, read back. -/
def datagramsOf (e : SFlowEmitter τ) (dpid : Int) : List WireDatagram :=
  (e.wire.filter (·.dpid = dpid)).map fun d => readDatagram d.bytes

/-- The samples that were sent for a switch. -/
def samplesOnWire (e : SFlowEmitter τ) (dpid : Int) : List (Nat × SampledPacket) :=
  (e.datagramsOf dpid).flatMap WireDatagram.samples

/-- The numbers from 1, modulo 2 ^ 32. -/
def sequenceNumbers (n : Nat) : List Nat := (List.range' 1 n).map (· % 2 ^ 32)

/-- The wire and the counters agree that `sent` are the packets sent for each switch. -/
structure Ledger (e : SFlowEmitter τ) (sent : Int → List SampledPacket) : Prop where
  agents : ∀ dpid agent, e.agents.lookup dpid = some agent → AgentOk agent ∧
    agent.datagramSequence = ((e.datagramsOf dpid).length : Int) % 2 ^ 32 ∧
    agent.sampleSequence = ((sent dpid).length : Int) % 2 ^ 32
  samples : ∀ dpid, e.samplesOnWire dpid = numbered e.maxHeaderBytes 0 (sent dpid)
  sequences : ∀ dpid, (e.datagramsOf dpid).map WireDatagram.sequence =
    sequenceNumbers (e.datagramsOf dpid).length
  address : ∀ d ∈ e.wire, ∃ agent, e.agents.lookup d.dpid = some agent ∧
    (readDatagram d.bytes).agentIp = agentWord agent
  total : e.samplesSent = (e.wire.map fun d => (readDatagram d.bytes).samples.length).sum

theorem sequenceNumbers_succ (n : Nat) :
    sequenceNumbers (n + 1) = sequenceNumbers n ++ [(n + 1) % 2 ^ 32] := by
  rw [sequenceNumbers, List.range'_1_concat, List.map_append, sequenceNumbers, Nat.add_comm 1 n]
  rfl

/-- The datagrams of a switch when one more is on the wire. -/
theorem datagramsOf_append {e e' : SFlowEmitter τ} {dpid : Int} {bytes : List UInt8}
    (h : e'.wire = e.wire ++ [⟨dpid, bytes⟩]) (d : Int) :
    e'.datagramsOf d =
      if d = dpid then e.datagramsOf d ++ [readDatagram bytes] else e.datagramsOf d := by
  unfold datagramsOf
  rw [h, List.filter_append, List.map_append]
  by_cases hd : d = dpid
  · subst hd
    simp
  · have hne : ¬dpid = d := fun heq => hd heq.symm
    simp [hd, hne]

/-- A batch in range is sent, and extends the ledger of its switch. -/
theorem sendSamples_ledger {env : EmitterEnv τ} (haccepts : ∀ n, env.accepts n = true)
    {e : SFlowEmitter τ} {sent : Int → List SampledPacket} (h : Ledger e sent) {dpid : Int}
    {agent : SwitchAgent} (hagent : e.agents.lookup dpid = some agent) {ps : List SampledPacket}
    (hne : ps ≠ []) (hps : ∀ p ∈ ps, InRange e.maxHeaderBytes p) (hlength : ps.length < 2 ^ 32)
    {uptimeMs : Int} (huptime : FitsU32 uptimeMs) :
    Ledger (e.sendSamples env dpid agent ps uptimeMs).2
      (Function.update sent dpid (sent dpid ++ ps)) := by
  obtain ⟨hok, hdatagrams, hsamples⟩ := h.agents dpid agent hagent
  obtain ⟨bytes, hbuild, hread⟩ := readDatagram_emitted hok huptime hne hps hlength hdatagrams
    hsamples
  have hsend : (e.sendSamples env dpid agent ps uptimeMs).2 =
      { e with
        agents := e.agents.set dpid (afterDatagram agent ps)
        datagramsSent := e.datagramsSent + 1
        samplesSent := e.samplesSent + ps.length
        wire := e.wire ++ [⟨dpid, bytes⟩] } := by
    simp only [sendSamples, hbuild, haccepts, if_true]
  rw [hsend]
  have hof := fun d => @datagramsOf_append τ e { e with
    agents := e.agents.set dpid (afterDatagram agent ps)
    datagramsSent := e.datagramsSent + 1
    samplesSent := e.samplesSent + ps.length
    wire := e.wire ++ [⟨dpid, bytes⟩] } dpid bytes rfl d
  constructor
  · intro d a ha
    rw [AssocMap.lookup_set] at ha
    rw [hof]
    by_cases hd : d = dpid
    · subst hd
      rw [if_pos rfl] at ha
      cases Option.some.inj ha
      -- writing the samples moves the sample counter only
      have hseq := (foldl_afterSample_keeps
        { agent with datagramSequence := (agent.datagramSequence + 1) % 2 ^ 32 } ps).2.2.2
      refine ⟨agentOk_afterDatagram hok ps, ?_, ?_⟩
      · rw [if_pos rfl, afterDatagram, hseq, List.length_append, hdatagrams]
        simp only [List.length_cons, List.length_nil]
        omega
      · rw [Function.update_self, List.length_append]
        exact @sampleSequence_foldl
          { agent with datagramSequence := (agent.datagramSequence + 1) % 2 ^ 32 } _ hsamples ps
    · rw [if_neg hd] at ha
      rw [if_neg hd, Function.update_of_ne hd]
      exact h.agents d a ha
  · intro d
    unfold samplesOnWire
    rw [hof]
    by_cases hd : d = dpid
    · subst hd
      have hbefore := h.samples d
      unfold samplesOnWire at hbefore
      rw [if_pos rfl, Function.update_self, List.flatMap_append, hbefore, hread, numbered_append,
        Nat.zero_add]
      simp
    · rw [if_neg hd, Function.update_of_ne hd]
      exact h.samples d
  · intro d
    rw [hof]
    by_cases hd : d = dpid
    · rw [if_pos hd, List.map_append, h.sequences, List.length_append]
      simp only [List.map_cons, List.map_nil, List.length_cons, List.length_nil, hread]
      subst hd
      exact (sequenceNumbers_succ _).symm
    · rw [if_neg hd]
      exact h.sequences d
  · -- a datagram carries the agent address of its own switch
    intro d hd
    rcases List.mem_append.mp hd with hold | hnew
    · obtain ⟨a, ha, hip⟩ := h.address d hold
      dsimp only
      rw [AssocMap.lookup_set]
      by_cases heq : d.dpid = dpid
      · rw [heq, hagent] at ha
        cases Option.some.inj ha
        exact ⟨_, if_pos heq, hip.trans (agentWord_afterDatagram agent ps).symm⟩
      · exact ⟨a, by rw [if_neg heq, ha], hip⟩
    · rw [List.mem_singleton.mp hnew]
      refine ⟨afterDatagram agent ps, ?_, ?_⟩
      · dsimp only
        rw [AssocMap.lookup_set, if_pos rfl]
      · rw [hread, agentWord_afterDatagram]
  · dsimp only
    rw [List.map_append, List.sum_append, h.total]
    simp only [List.map_cons, List.map_nil, List.sum_cons, List.sum_nil, hread, length_numbered,
      Nat.add_zero]

/-- Sending touches neither the buffers nor the settings. -/
theorem sendSamples_keeps (env : EmitterEnv τ) (dpid : Int) (agent : SwitchAgent)
    (ps : List SampledPacket) (uptimeMs : Int) (e : SFlowEmitter τ) :
    (e.sendSamples env dpid agent ps uptimeMs).2.pending = e.pending ∧
      (e.sendSamples env dpid agent ps uptimeMs).2.maxHeaderBytes = e.maxHeaderBytes ∧
      (e.sendSamples env dpid agent ps uptimeMs).2.batchSize = e.batchSize := by
  unfold sendSamples
  split
  · exact ⟨rfl, rfl, rfl⟩
  · dsimp only
    split
    · exact ⟨rfl, rfl, rfl⟩
    · exact ⟨rfl, rfl, rfl⟩

/-- Sending for a switch leaves every switch registered. -/
theorem sendSamples_registered (env : EmitterEnv τ) (dpid : Int) (agent : SwitchAgent)
    (ps : List SampledPacket) (uptimeMs : Int) {e : SFlowEmitter τ} {d : Int}
    (h : d ∈ e.agents) : d ∈ (e.sendSamples env dpid agent ps uptimeMs).2.agents := by
  have hset : ∀ a, d ∈ e.agents.set dpid a := by
    intro a
    rw [← AList.lookup_isSome, AssocMap.lookup_set]
    split
    · rfl
    · exact AList.lookup_isSome.mpr h
  unfold sendSamples
  split
  · exact hset _
  · dsimp only
    split
    · exact hset _
    · exact hset _

/-! ## Buffers -/

/-- Everything emitted is on the wire or buffered, and what is buffered can be sent. -/
structure Conserves (e : SFlowEmitter τ) (emitted : Int → List SampledPacket) : Prop where
  ledger : ∃ sent, Ledger e sent ∧ ∀ dpid, sent dpid ++ e.buffered dpid = emitted dpid
  registered : ∀ dpid, e.buffered dpid ≠ [] → dpid ∈ e.agents
  inRange : ∀ dpid, ∀ p ∈ e.buffered dpid, InRange e.maxHeaderBytes p
  length : ∀ dpid, (e.buffered dpid).length < 2 ^ 32

theorem buffered_erase {e e' : SFlowEmitter τ} {dpid : Int}
    (h : e'.pending = e.pending.erase dpid) (d : Int) :
    e'.buffered d = if d = dpid then [] else e.buffered d := by
  unfold buffered
  rw [h, AssocMap.lookup_erase_eq]
  split
  · rfl
  · rfl

/-- A flush empties the buffer of its switch and no other. -/
theorem flushOne_buffered (env : EmitterEnv τ) (dpid uptimeMs : Int) (e : SFlowEmitter τ)
    (d : Int) :
    (e.flushOne env dpid uptimeMs).2.buffered d = if d = dpid then [] else e.buffered d := by
  apply buffered_erase
  unfold flushOne
  dsimp only
  split
  · rfl
  · split
    · rfl
    · exact (sendSamples_keeps _ _ _ _ _ _).1

theorem flushOne_settings (env : EmitterEnv τ) (dpid uptimeMs : Int) (e : SFlowEmitter τ) :
    (e.flushOne env dpid uptimeMs).2.maxHeaderBytes = e.maxHeaderBytes ∧
      (e.flushOne env dpid uptimeMs).2.batchSize = e.batchSize := by
  unfold flushOne
  dsimp only
  split
  · exact ⟨rfl, rfl⟩
  · split
    · exact ⟨rfl, rfl⟩
    · exact (sendSamples_keeps _ _ _ _ _ _).2

theorem flushOne_registered (env : EmitterEnv τ) (dpid uptimeMs : Int) {e : SFlowEmitter τ}
    {d : Int} (h : d ∈ e.agents) : d ∈ (e.flushOne env dpid uptimeMs).2.agents := by
  unfold flushOne
  dsimp only
  split
  · exact h
  · split
    · exact h
    · exact sendSamples_registered _ _ _ _ _ h

/-- The ledger speaks of the wire, the agents and two settings. -/
theorem Ledger.congr {e e' : SFlowEmitter τ} {sent : Int → List SampledPacket} (h : Ledger e sent)
    (hwire : e'.wire = e.wire) (hagents : e'.agents = e.agents)
    (hmax : e'.maxHeaderBytes = e.maxHeaderBytes) (htotal : e'.samplesSent = e.samplesSent) :
    Ledger e' sent := by
  have hof : ∀ d, e'.datagramsOf d = e.datagramsOf d := by
    intro d
    rw [datagramsOf, hwire, datagramsOf]
  constructor
  · intro d a ha
    rw [hagents] at ha
    rw [hof]
    exact h.agents d a ha
  · intro d
    rw [samplesOnWire, hof, hmax]
    exact h.samples d
  · intro d
    rw [hof]
    exact h.sequences d
  · rw [hwire, hagents]
    exact h.address
  · rw [hwire, htotal]
    exact h.total

/-- A flush moves what is buffered for its switch to the wire. -/
theorem flushOne_conserves {env : EmitterEnv τ} (haccepts : ∀ n, env.accepts n = true)
    {e : SFlowEmitter τ} {emitted : Int → List SampledPacket} (h : Conserves e emitted)
    (dpid : Int) {uptimeMs : Int} (huptime : FitsU32 uptimeMs) :
    Conserves (e.flushOne env dpid uptimeMs).2 emitted := by
  obtain ⟨sent, hledger, hsent⟩ := h.ledger
  have hbuffered := e.flushOne_buffered env dpid uptimeMs
  have hmax := (e.flushOne_settings env dpid uptimeMs).1
  constructor
  · by_cases hempty : e.buffered dpid = []
    · -- nothing to send
      have hflush : (e.flushOne env dpid uptimeMs).2 = { e with
          pending := e.pending.erase dpid
          pendingSince := e.pendingSince.erase dpid } := by
        simp only [flushOne, hempty, List.isEmpty_nil, if_true]
      refine ⟨sent, hflush ▸ hledger.congr rfl rfl rfl rfl, fun d => ?_⟩
      rw [hbuffered, ← hsent d]
      split
      · next hd => rw [hd, hempty]
      · rfl
    · -- the whole buffer goes into one datagram
      obtain ⟨agent, hagent⟩ := AssocMap.exists_of_mem (h.registered dpid hempty)
      have hflush : (e.flushOne env dpid uptimeMs).2 =
          (sendSamples env dpid agent (e.buffered dpid) uptimeMs { e with
            pending := e.pending.erase dpid
            pendingSince := e.pendingSince.erase dpid }).2 := by
        simp only [flushOne, List.isEmpty_iff, hempty, if_false, hagent]
      refine ⟨Function.update sent dpid (sent dpid ++ e.buffered dpid), ?_, fun d => ?_⟩
      · have herased : Ledger { e with
            pending := e.pending.erase dpid
            pendingSince := e.pendingSince.erase dpid } sent := hledger.congr rfl rfl rfl rfl
        rw [hflush]
        exact sendSamples_ledger haccepts herased hagent hempty (h.inRange dpid) (h.length dpid)
          huptime
      · rw [hbuffered, ← hsent d]
        by_cases hd : d = dpid
        · rw [if_pos hd, hd, Function.update_self, List.append_nil]
        · rw [if_neg hd, Function.update_of_ne hd]
  · intro d hd
    rw [hbuffered] at hd
    split at hd
    · exact absurd rfl hd
    · exact flushOne_registered env dpid uptimeMs (h.registered d hd)
  · intro d p hp
    rw [hbuffered] at hp
    rw [hmax]
    split at hp
    · exact absurd hp List.not_mem_nil
    · exact h.inRange d p hp
  · intro d
    rw [hbuffered]
    split
    · exact Nat.two_pow_pos 32
    · exact h.length d

theorem Conserves.congr {e e' : SFlowEmitter τ} {emitted : Int → List SampledPacket}
    (h : Conserves e emitted) (hpending : e'.pending = e.pending) (hwire : e'.wire = e.wire)
    (hagents : e'.agents = e.agents) (hmax : e'.maxHeaderBytes = e.maxHeaderBytes)
    (htotal : e'.samplesSent = e.samplesSent) : Conserves e' emitted := by
  have hbuffered : e'.buffered = e.buffered := by
    funext d
    rw [buffered, hpending, buffered]
  obtain ⟨sent, hledger, hsent⟩ := h.ledger
  constructor
  · refine ⟨sent, hledger.congr hwire hagents hmax htotal, ?_⟩
    rw [hbuffered]
    exact hsent
  · rw [hbuffered, hagents]
    exact h.registered
  · rw [hbuffered, hmax]
    exact h.inRange
  · rw [hbuffered]
    exact h.length

/-! ## Sweeps -/

/-- Every buffer has room before it is full. -/
def HasRoom (e : SFlowEmitter τ) : Prop := ∀ dpid, ((e.buffered dpid).length : Int) < e.batchSize

/-- What a run keeps: everything is accounted for, and no buffer is full. -/
structure Steady (batchSize : Int) (maxHeaderBytes : Nat) (e : SFlowEmitter τ)
    (emitted : Int → List SampledPacket) : Prop where
  conserves : Conserves e emitted
  hasRoom : HasRoom e
  batchSize_eq : e.batchSize = max 1 batchSize
  maxHeaderBytes_eq : e.maxHeaderBytes = maxHeaderBytes

theorem Steady.congr {batchSize : Int} {maxHeaderBytes : Nat} {e e' : SFlowEmitter τ}
    {emitted : Int → List SampledPacket} (h : Steady batchSize maxHeaderBytes e emitted)
    (hpending : e'.pending = e.pending) (hwire : e'.wire = e.wire) (hagents : e'.agents = e.agents)
    (hmax : e'.maxHeaderBytes = e.maxHeaderBytes) (hsize : e'.batchSize = e.batchSize)
    (htotal : e'.samplesSent = e.samplesSent) : Steady batchSize maxHeaderBytes e' emitted := by
  refine ⟨h.conserves.congr hpending hwire hagents hmax htotal, fun d => ?_,
    hsize.trans h.batchSize_eq, hmax.trans h.maxHeaderBytes_eq⟩
  rw [buffered, hpending, hsize]
  exact h.hasRoom d

/-- Turns that each keep the emitter steady. -/
theorem foldl_steady {batchSize : Int} {maxHeaderBytes : Nat}
    {emitted : Int → List SampledPacket} {turn : SFlowEmitter τ → Int → SFlowEmitter τ}
    (hturn : ∀ e d, Steady batchSize maxHeaderBytes e emitted →
      Steady batchSize maxHeaderBytes (turn e d) emitted) {e : SFlowEmitter τ}
    (h : Steady batchSize maxHeaderBytes e emitted) (ds : List Int) :
    Steady batchSize maxHeaderBytes (ds.foldl turn e) emitted := by
  induction ds generalizing e with
  | nil => exact h
  | cons d ds ih => exact ih (hturn e d h)

section Sweep

variable {env : EmitterEnv τ} (haccepts : ∀ n, env.accepts n = true) {batchSize : Int}
  {maxHeaderBytes : Nat} {emitted : Int → List SampledPacket} {uptimeMs : Int}
  (huptime : FitsU32 uptimeMs)

include haccepts huptime

theorem flushOne_steady {e : SFlowEmitter τ} (h : Steady batchSize maxHeaderBytes e emitted)
    (dpid : Int) : Steady batchSize maxHeaderBytes (e.flushOne env dpid uptimeMs).2 emitted := by
  obtain ⟨hmax, hsize⟩ := e.flushOne_settings env dpid uptimeMs
  refine ⟨flushOne_conserves haccepts h.conserves dpid huptime, fun d => ?_,
    hsize.trans h.batchSize_eq, hmax.trans h.maxHeaderBytes_eq⟩
  rw [flushOne_buffered, hsize]
  split
  · have := h.batchSize_eq
    simp only [List.length_nil]
    omega
  · exact h.hasRoom d

theorem flushAged_steady {e : SFlowEmitter τ} (h : Steady batchSize maxHeaderBytes e emitted)
    (other : Int) : Steady batchSize maxHeaderBytes (flushAged env uptimeMs e other) emitted := by
  apply flushOne_steady haccepts huptime
  exact h.congr rfl rfl rfl rfl rfl rfl

/-- A sample that is sent alone. -/
theorem sendSamples_steady {e : SFlowEmitter τ} (h : Steady batchSize maxHeaderBytes e emitted)
    (hunbatched : ¬1 < e.batchSize) {dpid : Int} {agent : SwitchAgent}
    (hagent : e.agents.lookup dpid = some agent) {sample : SampledPacket}
    (hsample : InRange maxHeaderBytes sample) :
    Steady batchSize maxHeaderBytes (e.sendSamples env dpid agent [sample] uptimeMs).2
      (Function.update emitted dpid (emitted dpid ++ [sample])) := by
  obtain ⟨sent, hledger, hsent⟩ := h.conserves.ledger
  obtain ⟨hpending, hmax, hsize⟩ := e.sendSamples_keeps env dpid agent [sample] uptimeMs
  -- without batching nothing is ever buffered
  have hempty : ∀ d, e.buffered d = [] := by
    intro d
    have hroom := h.hasRoom d
    apply List.eq_nil_of_length_eq_zero
    omega
  have hempty' : ∀ d, (e.sendSamples env dpid agent [sample] uptimeMs).2.buffered d = [] := by
    intro d
    rw [buffered, hpending]
    exact hempty d
  have hsend := sendSamples_ledger haccepts hledger hagent (List.cons_ne_nil sample [])
    (by
      intro p hp
      rw [List.mem_singleton.mp hp, h.maxHeaderBytes_eq]
      exact hsample)
    (by simp) huptime
  refine ⟨⟨⟨_, hsend, fun d => ?_⟩, ?_, ?_, ?_⟩, ?_, hsize.trans h.batchSize_eq,
    hmax.trans h.maxHeaderBytes_eq⟩
  · have hd := hsent d
    rw [hempty, List.append_nil] at hd
    rw [hempty', List.append_nil]
    by_cases heq : d = dpid
    · subst heq
      rw [Function.update_self, Function.update_self, hd]
    · rw [Function.update_of_ne heq, Function.update_of_ne heq, hd]
  · exact fun d hd => absurd (hempty' d) hd
  · intro d p hp
    rw [hempty'] at hp
    exact absurd hp List.not_mem_nil
  · intro d
    rw [hempty']
    exact Nat.two_pow_pos 32
  · intro d
    have hone := h.batchSize_eq
    rw [hempty', hsize]
    simp only [List.length_nil]
    omega

/-- The part of `emit` before its sweep: the sample joins its batch, and a full batch is sent. -/
theorem emit_batch_steady (hbatch : batchSize < 2 ^ 32) {e e₁ : SFlowEmitter τ}
    (h : Steady batchSize maxHeaderBytes e emitted) {dpid : Int} (hdpid : dpid ∈ e.agents)
    {sample : SampledPacket} (hsample : InRange maxHeaderBytes sample)
    (hpending : e₁.pending = e.pending.set dpid (e.buffered dpid ++ [sample]))
    (hwire : e₁.wire = e.wire) (hagents : e₁.agents = e.agents)
    (hmax : e₁.maxHeaderBytes = e.maxHeaderBytes) (hsize : e₁.batchSize = e.batchSize)
    (htotal : e₁.samplesSent = e.samplesSent) :
    Steady batchSize maxHeaderBytes
      (if e₁.batchSize ≤ ((e.buffered dpid ++ [sample]).length : Int) then
        flushOne env dpid uptimeMs { e₁ with batchesFlushedFull := e₁.batchesFlushedFull + 1 }
      else (true, e₁)).2
      (Function.update emitted dpid (emitted dpid ++ [sample])) := by
  obtain ⟨sent, hledger, hsent⟩ := h.conserves.ledger
  have hbound := h.batchSize_eq
  have hbuffered : ∀ d, e₁.buffered d =
      if d = dpid then e.buffered dpid ++ [sample] else e.buffered d := by
    intro d
    unfold buffered
    rw [hpending, AssocMap.lookup_set]
    split
    · rfl
    · rfl
  -- until the flush, the sample is only moved to the buffer
  have hconserves : Conserves e₁ (Function.update emitted dpid (emitted dpid ++ [sample])) := by
    constructor
    · refine ⟨sent, hledger.congr hwire hagents hmax htotal, fun d => ?_⟩
      rw [hbuffered]
      by_cases hd : d = dpid
      · rw [if_pos hd, hd, Function.update_self, ← List.append_assoc, hsent]
      · rw [if_neg hd, Function.update_of_ne hd, hsent]
    · intro d hd
      rw [hagents]
      by_cases heq : d = dpid
      · exact heq ▸ hdpid
      · rw [hbuffered, if_neg heq] at hd
        exact h.conserves.registered d hd
    · intro d p hp
      rw [hbuffered] at hp
      rw [hmax]
      split at hp
      · rcases List.mem_append.mp hp with hold | hnew
        · exact h.conserves.inRange dpid p hold
        · rw [List.mem_singleton.mp hnew, h.maxHeaderBytes_eq]
          exact hsample
      · exact h.conserves.inRange d p hp
    · intro d
      rw [hbuffered]
      split
      · -- a buffer below the batch size has room for one more
        have hroom := h.hasRoom dpid
        rw [List.length_append, List.length_singleton]
        omega
      · exact h.conserves.length d
  by_cases hfull : e₁.batchSize ≤ ((e.buffered dpid ++ [sample]).length : Int)
  · rw [if_pos hfull]
    have hcounted : Conserves { e₁ with batchesFlushedFull := e₁.batchesFlushedFull + 1 }
        (Function.update emitted dpid (emitted dpid ++ [sample])) :=
      hconserves.congr rfl rfl rfl rfl rfl
    obtain ⟨hmax', hsize'⟩ := flushOne_settings env dpid uptimeMs
      { e₁ with batchesFlushedFull := e₁.batchesFlushedFull + 1 }
    refine ⟨flushOne_conserves haccepts hcounted dpid huptime, fun d => ?_,
      (hsize'.trans hsize).trans hbound, (hmax'.trans hmax).trans h.maxHeaderBytes_eq⟩
    rw [flushOne_buffered, hsize']
    -- the flush empties the buffer that was full
    show ((if d = dpid then [] else e₁.buffered d).length : Int) < e₁.batchSize
    rw [hbuffered, hsize]
    by_cases hd : d = dpid
    · rw [if_pos hd]
      simp only [List.length_nil]
      omega
    · rw [if_neg hd, if_neg hd]
      exact h.hasRoom d
  · rw [if_neg hfull]
    refine ⟨hconserves, fun d => ?_, hsize.trans hbound, hmax.trans h.maxHeaderBytes_eq⟩
    show ((e₁.buffered d).length : Int) < e₁.batchSize
    rw [hbuffered]
    by_cases hd : d = dpid
    · rw [if_pos hd]
      omega
    · rw [if_neg hd, hsize]
      exact h.hasRoom d

theorem emit_steady (hbatch : batchSize < 2 ^ 32) {e : SFlowEmitter τ}
    (h : Steady batchSize maxHeaderBytes e emitted) {dpid : Int} (hdpid : dpid ∈ e.agents)
    {sample : SampledPacket} (hsample : InRange maxHeaderBytes sample) :
    Steady batchSize maxHeaderBytes (e.emit env dpid sample uptimeMs).2
      (Function.update emitted dpid (emitted dpid ++ [sample])) := by
  obtain ⟨agent, hagent⟩ := AssocMap.exists_of_mem hdpid
  unfold emit
  rw [hagent]
  dsimp only
  split
  · -- batching: the sweep goes on from where the batch was left
    apply foldl_steady
    · exact fun e d he => flushAged_steady haccepts huptime he d
    · have hfirst := @emit_batch_steady τ env haccepts batchSize maxHeaderBytes emitted uptimeMs
        huptime hbatch e { e with
          pending := e.pending.set dpid (e.buffered dpid ++ [sample])
          pendingSince := e.pendingSince.set dpid
            ((e.pendingSince.lookup dpid).getD (env.monotonic e.readings))
          readings := e.readings + 1 } h dpid hdpid sample hsample rfl rfl rfl rfl rfl rfl
      exact hfirst.congr rfl rfl rfl rfl rfl rfl
  · next hunbatched => exact sendSamples_steady haccepts huptime h hunbatched hagent hsample

theorem flush_steady {e : SFlowEmitter τ} (h : Steady batchSize maxHeaderBytes e emitted) :
    Steady batchSize maxHeaderBytes (e.flush env (some uptimeMs)) emitted := by
  apply foldl_steady
  · exact fun e d he => flushOne_steady haccepts huptime he d
  · exact h

end Sweep

/-! ## Runs -/

/-- The sample that a call emits for a switch. -/
def Call.sampleFor (dpid : Int) : Call → Option SampledPacket
  | .emit d sample _ | .handleSample d sample => if d = dpid then some sample else none
  | .registerSwitch _ _ | .flush _ | .close => none

/-- The samples that a run emits for a switch. -/
def emittedFor (dpid : Int) (calls : List Call) : List SampledPacket :=
  calls.filterMap (Call.sampleFor dpid)

/-- The calls that are made: a switch is registered once, with an address, before it emits; the
    samples are in range, and `sysUpTime` is a field of 32 bits. -/
def Allowed (maxHeaderBytes : Nat) (e : SFlowEmitter τ) : Call → Prop
  | .registerSwitch dpid agentIp => dpid ∉ e.agents ∧ ∃ bytes, inetAtonOrThrow agentIp = .ok bytes
  | .emit dpid sample uptimeMs =>
    dpid ∈ e.agents ∧ InRange maxHeaderBytes sample ∧ FitsU32 uptimeMs
  | .handleSample dpid sample => dpid ∈ e.agents ∧ InRange maxHeaderBytes sample
  | .flush uptimeMs => ∀ uptime, uptimeMs = some uptime → FitsU32 uptime
  | .close => True

theorem fitsU32_uptimeMs (env : EmitterEnv τ) (e : SFlowEmitter τ) :
    FitsU32 (e.uptimeMs env).1 := by
  unfold uptimeMs FitsU32
  omega

theorem registerSwitch_steady {batchSize : Int} {maxHeaderBytes : Nat} {e : SFlowEmitter τ}
    {emitted : Int → List SampledPacket} (h : Steady batchSize maxHeaderBytes e emitted)
    {dpid : Int} {agentIp : String} (hnew : dpid ∉ e.agents)
    (haddress : ∃ bytes, inetAtonOrThrow agentIp = .ok bytes) :
    Steady batchSize maxHeaderBytes (e.registerSwitch dpid agentIp) emitted := by
  obtain ⟨sent, hledger, hsent⟩ := h.conserves.ledger
  -- a switch that is not registered has no datagram on the wire
  have hother : ∀ d ∈ e.wire, d.dpid ≠ dpid := by
    rintro d hd rfl
    obtain ⟨agent, hagent, -⟩ := hledger.address d hd
    exact hnew (AssocMap.mem_of_lookup hagent)
  have hnone : e.datagramsOf dpid = [] := by
    rw [datagramsOf, List.filter_eq_nil_iff.mpr]
    · rfl
    · intro d hd
      simpa using hother d hd
  have hunsent : sent dpid = [] := by
    have hsamples := hledger.samples dpid
    rw [samplesOnWire, hnone, List.flatMap_nil] at hsamples
    have hlength := congrArg List.length hsamples
    rw [length_numbered] at hlength
    exact List.eq_nil_of_length_eq_zero hlength.symm
  refine ⟨⟨⟨sent, ⟨?_, hledger.samples, hledger.sequences, ?_, hledger.total⟩, hsent⟩, ?_,
    h.conserves.inRange, h.conserves.length⟩, h.hasRoom, h.batchSize_eq, h.maxHeaderBytes_eq⟩
  · intro d a ha
    rw [registerSwitch, AssocMap.lookup_set] at ha
    split at ha
    · next hd =>
      cases Option.some.inj ha
      subst hd
      have hzero : FitsU32 0 := by decide
      refine ⟨⟨haddress, hzero, hzero⟩, ?_, ?_⟩
      · show (0 : Int) = ((e.datagramsOf d).length : Int) % 2 ^ 32
        rw [hnone]
        rfl
      · rw [hunsent]
        rfl
    · exact hledger.agents d a ha
  · intro d hd
    obtain ⟨agent, hagent, hip⟩ := hledger.address d hd
    refine ⟨agent, ?_, hip⟩
    rw [registerSwitch, AssocMap.lookup_set, if_neg (hother d hd), hagent]
  · intro d hd
    rw [registerSwitch, ← AList.lookup_isSome, AssocMap.lookup_set]
    split
    · rfl
    · exact AList.lookup_isSome.mpr (h.conserves.registered d hd)

/-- The ledger of a call that emits one sample. -/
theorem update_eq_sampleFor {emitted : Int → List SampledPacket} {dpid : Int}
    {sample : SampledPacket} {call : Call}
    (hcall : ∀ d, call.sampleFor d = if dpid = d then some sample else none) :
    Function.update emitted dpid (emitted dpid ++ [sample]) =
      fun d => emitted d ++ (call.sampleFor d).toList := by
  funext d
  rw [hcall]
  by_cases hd : d = dpid
  · subst hd
    rw [Function.update_self, if_pos rfl]
    rfl
  · rw [Function.update_of_ne hd, if_neg fun heq => hd heq.symm]
    exact (List.append_nil _).symm

/-- What one call does to the ledgers. -/
theorem step_steady {env : EmitterEnv τ} (haccepts : ∀ n, env.accepts n = true) {batchSize : Int}
    (hbatch : batchSize < 2 ^ 32) {maxHeaderBytes : Nat} {e : SFlowEmitter τ}
    {emitted : Int → List SampledPacket} (h : Steady batchSize maxHeaderBytes e emitted)
    {call : Call} (hcall : Allowed maxHeaderBytes e call) :
    Steady batchSize maxHeaderBytes (e.step env call)
      fun d => emitted d ++ (call.sampleFor d).toList := by
  have hclock : Steady batchSize maxHeaderBytes (e.uptimeMs env).2 emitted :=
    h.congr rfl rfl rfl rfl rfl rfl
  cases call with
  | registerSwitch dpid agentIp =>
    simp only [Call.sampleFor, Option.toList_none, List.append_nil]
    exact registerSwitch_steady h hcall.1 hcall.2
  | emit dpid sample uptimeMs =>
    rw [← update_eq_sampleFor fun d => rfl]
    exact emit_steady haccepts hcall.2.2 hbatch h hcall.1 hcall.2.1
  | handleSample dpid sample =>
    rw [← update_eq_sampleFor fun d => rfl]
    exact emit_steady haccepts (fitsU32_uptimeMs env e) hbatch hclock hcall.1 hcall.2
  | flush uptimeMs =>
    simp only [Call.sampleFor, Option.toList_none, List.append_nil]
    cases uptimeMs with
    | none => exact flush_steady haccepts (fitsU32_uptimeMs env e) hclock
    | some uptime => exact flush_steady haccepts (hcall uptime rfl) h
  | close =>
    simp only [Call.sampleFor, Option.toList_none, List.append_nil]
    exact flush_steady haccepts (fitsU32_uptimeMs env e) hclock

theorem run_steady {env : EmitterEnv τ} (haccepts : ∀ n, env.accepts n = true) {batchSize : Int}
    (hbatch : batchSize < 2 ^ 32) {maxHeaderBytes : Nat} {e : SFlowEmitter τ}
    {emitted : Int → List SampledPacket} (h : Steady batchSize maxHeaderBytes e emitted)
    {calls : List Call}
    (hcalls : GuardedRun.Guarded (step env) (Allowed maxHeaderBytes) e calls) :
    Steady batchSize maxHeaderBytes (GuardedRun.run (step env) e calls)
      fun d => emitted d ++ emittedFor d calls := by
  induction calls generalizing e emitted with
  | nil =>
    simp only [emittedFor, List.filterMap_nil, List.append_nil]
    exact h
  | cons call calls ih =>
    obtain ⟨hcall, hrest⟩ := hcalls
    have hrun := ih (step_steady haccepts hbatch h hcall) hrest
    have hemitted : (fun d => emitted d ++ emittedFor d (call :: calls)) =
        fun d => (emitted d ++ (call.sampleFor d).toList) ++ emittedFor d calls := by
      funext d
      rw [List.append_assoc, emittedFor, List.filterMap_cons]
      cases call.sampleFor d with
      | none => rfl
      | some sample => rfl
    rw [GuardedRun.run_cons, hemitted]
    exact hrun

theorem init_steady (batchSize : Int) (maxHeaderBytes : Nat) :
    Steady batchSize maxHeaderBytes (init batchSize maxHeaderBytes : SFlowEmitter τ)
      fun _ => [] := by
  refine ⟨⟨⟨fun _ => [], ⟨?_, fun _ => rfl, fun _ => rfl, ?_, rfl⟩, fun _ => rfl⟩, ?_, ?_, ?_⟩, ?_,
    rfl, rfl⟩
  · intro d a ha
    exact nomatch ha
  · intro d hd
    exact absurd hd List.not_mem_nil
  · exact fun d hd => absurd rfl hd
  · intro d p hp
    exact absurd hp List.not_mem_nil
  · exact fun d => Nat.two_pow_pos 32
  · intro d
    show (0 : Int) < max 1 batchSize
    omega

/-- A flush of several switches empties their buffers. -/
theorem buffered_foldl_flushOne (env : EmitterEnv τ) (uptimeMs : Int) (ds : List Int)
    (e : SFlowEmitter τ) (d : Int) :
    (ds.foldl (fun e dpid => (flushOne env dpid uptimeMs e).2) e).buffered d =
      if d ∈ ds then [] else e.buffered d := by
  induction ds generalizing e with
  | nil => rfl
  | cons dpid ds ih =>
    rw [List.foldl_cons, ih, flushOne_buffered]
    by_cases hd : d = dpid
    · simp [hd]
    · simp [hd]

/-- After `close` nothing is buffered. -/
theorem buffered_close (env : EmitterEnv τ) (e : SFlowEmitter τ) (d : Int) :
    (e.close env).buffered d = [] := by
  have hflush : (e.close env).buffered d =
      if d ∈ e.pending.toPairs.map Prod.fst then [] else e.buffered d :=
    buffered_foldl_flushOne env _ _ _ d
  rw [hflush]
  split
  · rfl
  · next hd =>
    cases hlookup : e.pending.lookup d with
    | none => rw [buffered, hlookup]; rfl
    | some batch =>
      exact absurd (List.mem_map.mpr ⟨(d, batch), AssocMap.mem_toPairs.mpr hlookup, rfl⟩) hd

/-- For every switch the samples on the wire, in order, followed by those still buffered, are the
    ones that were emitted for it; a datagram is sent under the address of its switch, the
    datagrams and the samples of a switch are numbered from 1, `samples_sent` counts the samples
    on the wire, and after `close` nothing is buffered. -/
structure Delivers (e : SFlowEmitter τ) (calls : List Call) : Prop where
  samples : ∀ dpid, (e.samplesOnWire dpid).map Prod.snd ++
      (e.buffered dpid).map (SampledPacket.truncated e.maxHeaderBytes) =
    (emittedFor dpid calls).map (SampledPacket.truncated e.maxHeaderBytes)
  singleAgent : ∀ d ∈ e.wire, ∃ agent, e.agents.lookup d.dpid = some agent ∧
    (readDatagram d.bytes).agentIp = agentWord agent
  datagramNumbers : ∀ dpid, (e.datagramsOf dpid).map WireDatagram.sequence =
    sequenceNumbers (e.datagramsOf dpid).length
  sampleNumbers : ∀ dpid, (e.samplesOnWire dpid).map Prod.fst =
    sequenceNumbers (e.samplesOnWire dpid).length
  samplesSent : e.samplesSent =
    (e.wire.map fun d => (readDatagram d.bytes).samples.length).sum
  closed : calls.getLast? = some .close → ∀ dpid, e.buffered dpid = []

theorem map_snd_numbered (maxHeaderBytes start : Nat) (ps : List SampledPacket) :
    (numbered maxHeaderBytes start ps).map Prod.snd =
      ps.map (SampledPacket.truncated maxHeaderBytes) := by
  induction ps generalizing start with
  | nil => rfl
  | cons p ps ih => rw [numbered_cons, List.map_cons, ih, List.map_cons]

theorem map_fst_numbered (maxHeaderBytes start : Nat) (ps : List SampledPacket) :
    (numbered maxHeaderBytes start ps).map Prod.fst =
      (List.range' (start + 1) ps.length).map (· % 2 ^ 32) := by
  induction ps generalizing start with
  | nil => rfl
  | cons p ps ih => rw [numbered_cons, List.map_cons, ih, List.length_cons, List.range'_succ,
      List.map_cons]

theorem delivers_of_steady {batchSize : Int} {maxHeaderBytes : Nat} {e : SFlowEmitter τ}
    {calls : List Call} (h : Steady batchSize maxHeaderBytes e fun d => emittedFor d calls)
    (hclosed : calls.getLast? = some .close → ∀ dpid, e.buffered dpid = []) :
    Delivers e calls := by
  obtain ⟨sent, hledger, hsent⟩ := h.conserves.ledger
  refine ⟨fun d => ?_, hledger.address, hledger.sequences, fun d => ?_, hledger.total, hclosed⟩
  · rw [hledger.samples, map_snd_numbered, ← List.map_append, hsent]
  · rw [hledger.samples, map_fst_numbered, length_numbered]
    rfl

end SFlowEmitter

end Ndtwin.Proxy

namespace Ndtwin.Spec

open Ndtwin.Proxy GuardedRun

/-- With batches of less than 2 ^ 32 samples and a socket that accepts, every run of calls
    delivers the samples of every switch. -/
theorem emitter_delivers {τ : Type} (env : EmitterEnv τ) (haccepts : ∀ n, env.accepts n = true)
    (batchSize : Int) (hbatch : batchSize < 2 ^ 32) (maxHeaderBytes : Nat)
    (calls : List SFlowEmitter.Call)
    (hcalls : Guarded (SFlowEmitter.step env) (SFlowEmitter.Allowed maxHeaderBytes)
      (SFlowEmitter.init batchSize maxHeaderBytes) calls) :
    SFlowEmitter.Delivers
      (run (SFlowEmitter.step env) (SFlowEmitter.init batchSize maxHeaderBytes) calls) calls := by
  have hsteady := SFlowEmitter.run_steady haccepts hbatch
    (SFlowEmitter.init_steady batchSize maxHeaderBytes) hcalls
  apply SFlowEmitter.delivers_of_steady hsteady
  intro hlast dpid
  -- the last call is `close`, whatever was called before
  obtain ⟨before, rfl⟩ := List.getLast?_eq_some_iff.mp hlast
  rw [run_append]
  exact SFlowEmitter.buffered_close env _ dpid

/-- A clock under which no batch is ever too old. -/
def youngEnv : EmitterEnv Unit where
  monotonic _ := ()
  isAged _ _ := false
  millis _ := 0
  accepts _ := true

theorem inRange_tcpPacket : InRange 128 tcpPacket :=
  ⟨⟨by decide, by decide, by decide, by decide⟩, by decide⟩

theorem inRange_arpPacket : InRange 128 arpPacket :=
  ⟨⟨by decide, by decide, by decide, by decide⟩, by decide⟩

/-- Batches of two: a full one, and the rest at `close`. -/
theorem emitter_delivers_pairs :
    SFlowEmitter.Delivers
      (run (SFlowEmitter.step youngEnv) (SFlowEmitter.init 2 128)
        [.registerSwitch 1 "192.168.123.11", .emit 1 tcpPacket 5, .emit 1 arpPacket 6,
          .handleSample 1 tcpPacket, .close])
      [.registerSwitch 1 "192.168.123.11", .emit 1 tcpPacket 5, .emit 1 arpPacket 6,
        .handleSample 1 tcpPacket, .close] := by
  apply emitter_delivers youngEnv (fun _ => rfl) 2 (by decide) 128
  have haddress : ∃ bytes, inetAtonOrThrow "192.168.123.11" = .ok bytes :=
    ⟨[192, 168, 123, 11], by decide +kernel⟩
  refine ⟨⟨by decide, haddress⟩, ⟨?_, inRange_tcpPacket, by decide⟩,
    ⟨?_, inRange_arpPacket, by decide⟩, ⟨?_, inRange_tcpPacket⟩, trivial, trivial⟩
  · decide +kernel
  · decide +kernel
  · decide +kernel

/-! ## Batches without a datagram -/

/-- Too many samples for the field that counts them. -/
theorem buildDatagram_of_many {agent : SwitchAgent} {address : List UInt8}
    (haddress : inetAtonOrThrow agent.agentIp = .ok address) (hsub : FitsU32 agent.subAgentId)
    {uptimeMs : Int} (huptime : FitsU32 uptimeMs) {maxHeaderBytes : Nat} {ps : List SampledPacket}
    (hmany : 2 ^ 32 ≤ ps.length) :
    ∃ agent', buildDatagram ps uptimeMs maxHeaderBytes agent = .error .structError agent' := by
  have hversion : ∀ x ∈ ([5, 1] : List Int), FitsU32 x := by decide
  have hnumbers := fitsU32_headerNumbers hsub huptime
  have hcount : packU32s [(ps.length : Int)] = .error .structError := by
    have hlarge : ¬(0 ≤ (ps.length : Int) ∧ (ps.length : Int) < 2 ^ 32) := by omega
    rw [packU32s, packU32, if_neg hlarge]
    rfl
  have hne : ¬ps.isEmpty = true := by
    rw [List.isEmpty_iff]
    rintro rfl
    simp at hmany
  refine ⟨{ agent with datagramSequence := (agent.datagramSequence + 1) % 2 ^ 32 }, ?_⟩
  unfold buildDatagram
  rw [if_neg hne, EState.ofExcept_bind (packU32s_ok hversion), EState.get_bind,
    EState.ofExcept_bind haddress, nextDatagramSequence_bind,
    EState.ofExcept_bind (packU32s_ok hnumbers), hcount]
  rfl

/-- A batch that has no datagram never gets to the socket. -/
theorem flushOne_wire_of_error {τ : Type} {env : EmitterEnv τ} {dpid uptimeMs : Int}
    {e : SFlowEmitter τ} {agent agent' : SwitchAgent} {err : EmitError}
    (hagent : e.agents.lookup dpid = some agent)
    (herror : buildDatagram (e.buffered dpid) uptimeMs e.maxHeaderBytes agent =
      .error err agent') : (e.flushOne env dpid uptimeMs).2.wire = e.wire := by
  simp only [SFlowEmitter.flushOne, hagent, SFlowEmitter.sendSamples, herror]
  split
  · rfl
  · rfl

/-- The agent of the switch that fills its buffer. -/
def fillingAgent : SwitchAgent := { agentIp := "192.168.123.11" }

/-- Switch 1 alone is registered, has `n` packets buffered, and has sent none. -/
structure Filling (batchSize : Int) (n : Nat) (e : SFlowEmitter Unit) : Prop where
  batchSize_eq : e.batchSize = batchSize
  agent : e.agents.lookup 1 = some fillingAgent
  buffered : e.buffered 1 = List.replicate n tcpPacket
  wire : e.wire = []

theorem agedOthers_youngEnv (dpid : Int) (l : List (Int × Unit)) (n : Nat) :
    (SFlowEmitter.agedOthers youngEnv dpid l n).1 = [] := by
  induction l generalizing n with
  | nil => rfl
  | cons x l ih =>
    rw [SFlowEmitter.agedOthers]
    split
    · exact ih n
    · exact ih (n + 1)

/-- The emitter with one more packet in the buffer of the filling switch. -/
def withPacket (e : SFlowEmitter Unit) : SFlowEmitter Unit :=
  { e with
    pending := e.pending.set 1 (e.buffered 1 ++ [tcpPacket])
    pendingSince := e.pendingSince.set 1 ((e.pendingSince.lookup 1).getD ())
    readings := e.readings + 1 }

theorem filling_withPacket {batchSize : Int} {n : Nat} {e : SFlowEmitter Unit}
    (h : Filling batchSize n e) : Filling batchSize (n + 1) (withPacket e) := by
  refine ⟨h.batchSize_eq, h.agent, ?_, h.wire⟩
  unfold withPacket SFlowEmitter.buffered
  rw [AssocMap.lookup_set, if_pos rfl, Option.getD_some, List.replicate_succ', ← h.buffered]
  rfl

/-- A packet that does not fill the batch stays in the buffer. -/
theorem filling_emit {batchSize : Int} {n : Nat} (hroom : (n + 1 : Nat) < batchSize)
    {e : SFlowEmitter Unit} (h : Filling batchSize n e) :
    Filling batchSize (n + 1) (e.emit youngEnv 1 tcpPacket 0).2 := by
  have hbatched : 1 < e.batchSize := by
    rw [h.batchSize_eq]
    omega
  have hnot : ¬e.batchSize ≤ ((e.buffered 1 ++ [tcpPacket]).length : Int) := by
    rw [h.batchSize_eq, h.buffered, List.length_append, List.length_replicate,
      List.length_singleton]
    omega
  obtain ⟨hsize, hagent, hbuffered, hwire⟩ := filling_withPacket h
  unfold SFlowEmitter.emit
  rw [h.agent]
  dsimp only
  rw [if_pos hbatched, if_neg hnot, agedOthers_youngEnv]
  exact ⟨hsize, hagent, hbuffered, hwire⟩

/-- The packet that fills a batch of 2 ^ 32 samples or more: nothing is sent or kept. -/
theorem lost_emit {batchSize : Int} {n : Nat} (hfull : batchSize = (n + 1 : Nat))
    (hmany : 2 ^ 32 ≤ n + 1) {e : SFlowEmitter Unit} (h : Filling batchSize n e) :
    (e.step youngEnv (.emit 1 tcpPacket 0)).buffered 1 = [] ∧
      (e.step youngEnv (.emit 1 tcpPacket 0)).wire = [] := by
  have hbatched : 1 < e.batchSize := by
    rw [h.batchSize_eq]
    omega
  have hlength : (e.buffered 1 ++ [tcpPacket]).length = n + 1 := by
    rw [h.buffered, List.length_append, List.length_replicate, List.length_singleton]
  have hreached : e.batchSize ≤ ((e.buffered 1 ++ [tcpPacket]).length : Int) := by
    rw [h.batchSize_eq, hlength, hfull]
  have hnext := filling_withPacket h
  obtain ⟨agent', herror⟩ := @buildDatagram_of_many fillingAgent [192, 168, 123, 11]
    (by decide +kernel) (by decide) 0 (by decide) e.maxHeaderBytes ((withPacket e).buffered 1)
    (by rw [hnext.buffered, List.length_replicate]; exact hmany)
  have hcounted : Filling batchSize (n + 1) { withPacket e with
      batchesFlushedFull := (withPacket e).batchesFlushedFull + 1 } :=
    ⟨hnext.batchSize_eq, hnext.agent, hnext.buffered, hnext.wire⟩
  have hflushed : (SFlowEmitter.flushOne youngEnv 1 0 { withPacket e with
      batchesFlushedFull := (withPacket e).batchesFlushedFull + 1 }).2.wire = [] :=
    (flushOne_wire_of_error hcounted.agent herror).trans hcounted.wire
  -- The batch is full, so it is taken from the buffer before the datagram is built.
  show (e.emit youngEnv 1 tcpPacket 0).2.buffered 1 = [] ∧
    (e.emit youngEnv 1 tcpPacket 0).2.wire = []
  unfold SFlowEmitter.emit
  rw [h.agent]
  dsimp only
  rw [if_pos hbatched, if_pos hreached, agedOthers_youngEnv]
  refine ⟨?_, hflushed⟩
  exact (SFlowEmitter.flushOne_buffered youngEnv 1 0 _ 1).trans (if_pos rfl)

theorem filling_run {batchSize : Int} {n k : Nat} (hroom : (n + k : Nat) < batchSize)
    {e : SFlowEmitter Unit} (h : Filling batchSize n e) :
    Guarded (SFlowEmitter.step youngEnv) (SFlowEmitter.Allowed 128) e
        (List.replicate k (.emit 1 tcpPacket 0)) ∧
      Filling batchSize (n + k)
        (run (SFlowEmitter.step youngEnv) e (List.replicate k (.emit 1 tcpPacket 0))) := by
  induction k generalizing n e with
  | zero => exact ⟨trivial, h⟩
  | succ k ih =>
    have hregistered : (1 : Int) ∈ e.agents := by
      rw [← AList.lookup_isSome, h.agent]
      rfl
    have hemit := @filling_emit batchSize n (by omega) e h
    obtain ⟨hguard, hrest⟩ := @ih (n + 1) (by omega) _ hemit
    rw [List.replicate_succ, show n + (k + 1) = n + 1 + k by omega]
    exact ⟨⟨⟨hregistered, inRange_tcpPacket, by decide⟩, hguard⟩, hrest⟩

/-- The calls of a switch that emits the same packet again and again. -/
def fillingCalls (count : Nat) : List SFlowEmitter.Call :=
  .registerSwitch 1 "192.168.123.11" :: List.replicate count (.emit 1 tcpPacket 0)

theorem lost_run {n : Nat} (hmany : 2 ^ 32 ≤ n + 1) :
    Guarded (SFlowEmitter.step youngEnv) (SFlowEmitter.Allowed 128)
        (SFlowEmitter.init (n + 1 : Nat) 128) (fillingCalls (n + 1)) ∧
      ¬SFlowEmitter.Delivers (run (SFlowEmitter.step youngEnv)
        (SFlowEmitter.init (n + 1 : Nat) 128) (fillingCalls (n + 1))) (fillingCalls (n + 1)) := by
  have hregistered : Filling (n + 1 : Nat) 0 (SFlowEmitter.step youngEnv
      (SFlowEmitter.init (n + 1 : Nat) 128) (.registerSwitch 1 "192.168.123.11")) := by
    refine ⟨?_, ?_, rfl, rfl⟩
    · show max 1 ((n + 1 : Nat) : Int) = _
      omega
    · rfl
  obtain ⟨hguard, hfilled⟩ := @filling_run _ 0 n (by omega) _ hregistered
  rw [Nat.zero_add] at hfilled
  obtain ⟨hbuffered, hwire⟩ := lost_emit rfl hmany hfilled
  have hmember : (1 : Int) ∈ (run (SFlowEmitter.step youngEnv) (SFlowEmitter.step youngEnv
      (SFlowEmitter.init (n + 1 : Nat) 128) (.registerSwitch 1 "192.168.123.11"))
      (List.replicate n (.emit 1 tcpPacket 0))).agents := by
    rw [← AList.lookup_isSome, hfilled.agent]
    rfl
  unfold fillingCalls
  rw [List.replicate_succ']
  constructor
  · refine ⟨⟨AList.notMem_empty 1, [192, 168, 123, 11], by decide +kernel⟩, guarded_append.mpr ⟨hguard, ?_⟩⟩
    exact ⟨⟨hmember, inRange_tcpPacket, by decide⟩, trivial⟩
  · -- the wire and the buffer are both empty, yet the run emitted the packet
    intro hdelivers
    have hsamples := hdelivers.samples 1
    rw [run_cons, run_append, run_cons, run_nil] at hsamples
    have hnothing : ∀ e : SFlowEmitter Unit, e.wire = [] → e.samplesOnWire 1 = [] := by
      intro e he
      rw [SFlowEmitter.samplesOnWire, SFlowEmitter.datagramsOf, he]
      rfl
    have hemitted : tcpPacket ∈ SFlowEmitter.emittedFor 1 (.registerSwitch 1 "192.168.123.11" ::
        (List.replicate n (.emit 1 tcpPacket 0) ++ [.emit 1 tcpPacket 0])) := by
      apply List.mem_filterMap.mpr
      exact ⟨.emit 1 tcpPacket 0, by simp, rfl⟩
    rw [hnothing _ hwire, hbuffered] at hsamples
    rw [List.map_eq_nil_iff.mp hsamples.symm] at hemitted
    exact absurd hemitted List.not_mem_nil

/-- A batch size of 2 ^ 32: the batch is full and has no datagram, so all of it is lost. -/
theorem full_batch_lost :
    Guarded (SFlowEmitter.step youngEnv) (SFlowEmitter.Allowed 128)
        (SFlowEmitter.init (4294967295 + 1 : Nat) 128) (fillingCalls (4294967295 + 1)) ∧
      ¬SFlowEmitter.Delivers (run (SFlowEmitter.step youngEnv)
        (SFlowEmitter.init (4294967295 + 1 : Nat) 128) (fillingCalls (4294967295 + 1)))
        (fillingCalls (4294967295 + 1)) :=
  lost_run (by decide)

end Ndtwin.Spec

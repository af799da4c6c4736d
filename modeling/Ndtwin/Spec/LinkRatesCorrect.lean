import Mathlib.Data.List.Induction
import Mathlib.Data.UInt
import Ndtwin.Kernel.LinkRates
import Ndtwin.Spec.SFlowEmitterCorrect

/-!
# Link Rates

Every drain of a side takes what the samples banked since the last one. An egress bank is always
emptied, and its bytes are published when the port leads to a host; behind a switch the edge
belongs to the sampler downstream and the bytes are dropped. An ingress bank is published on the
edge of the other side and emptied, when the topology knows that side. So what a drain publishes
for a port comes from the interval of that drain, as long as the drain before emptied the bank.

## Key results

- `credit_handlePacket`: what a datagram adds to a bank
- `credit_eq_banked`: a bank holds what came since the last drain
- `drain_publishes_interval`: what a drain publishes and what it leaves
-/

namespace Ndtwin.Spec

open Ndtwin.Kernel SFlow Collector

/-! ## What is banked -/

section Banked

variable (env : CollectorEnv)

/-- The bank of a side to which a sample is credited. -/
def creditedTo (agentIp : UInt32) (s : FlowSample) : BankSide → Option AgentKey
  | .ingress =>
    let inputPort := env.lookupOfport s.inputPort
    some ⟨agentIp, if inputPort ≠ 0 then inputPort else env.lookupOfport s.outputPort⟩
  | .egress =>
    if env.lookupOfport s.inputPort ≠ 0 ∧ env.lookupOfport s.outputPort ≠ 0 then
      some ⟨agentIp, env.lookupOfport s.outputPort⟩
    else none

/-- The bytes, scaled by the sampling rate, that a sample adds to a bank. -/
def sampleCredit (side : BankSide) (agentIp : UInt32) (event : SampleEvent) (key : AgentKey) :
    UInt64 :=
  match event with
  | .flow s =>
    if env.mode = .mininet ∧ s.isTracked ∧ creditedTo env agentIp s side = some key then
      sampledBytes s
    else 0
  | .counter _ _ _ _ | .skipped => 0

/-- The samples that the loop of `handlePacket` decodes. -/
def loopSamples (words : List UInt32) : Nat → UInt32 → UInt32 → List SampleEvent
  | 0, _, _ => []
  | remaining + 1, index, previousIndex =>
    if index ≤ previousIndex then []
    else if index.toNat + 1 ≥ words.length then []
    else
      match decodeSample env.mode (sampleReader words index) with
      | .error _ => []
      | .ok (event, none) => [event]
      | .ok (event, some advance) =>
        event :: loopSamples words remaining (index + advance) index

/-- The agent of a datagram and its samples. -/
def datagramSamples (buffer : List UInt8) : UInt32 × List SampleEvent :=
  if buffer.length < 7 * 4 ∨ buffer.length % 4 ≠ 0 then (0, [])
  else
    match Words.toWords buffer with
    | w₀ :: w₁ :: agentIp :: w₃ :: w₄ :: w₅ :: w₆ :: rest =>
      let words := w₀ :: w₁ :: agentIp :: w₃ :: w₄ :: w₅ :: w₆ :: rest
      if Words.ntohl w₀ ≠ 5 then (0, [])
      else if (Words.ntohl w₆).toNat > (words.length - 7) / 2 then (0, [])
      else (agentIp, loopSamples env words (Words.ntohl w₆).toNat 7 0)
    | _ => (0, [])

/-- What the samples of a datagram add to a bank. -/
def datagramCredit (side : BankSide) (buffer : List UInt8) (key : AgentKey) : UInt64 :=
  ((datagramSamples env buffer).2.map fun event =>
    sampleCredit env side (datagramSamples env buffer).1 event key).sum

/-- What the packets of a run add to a bank. -/
def banked (side : BankSide) (key : AgentKey) : List RateEvent → UInt64
  | [] => 0
  | .handlePacket buffer :: events => datagramCredit env side buffer key + banked side key events
  | .drain _ _ _ _ :: events => banked side key events

end Banked

/-! ## Intervals -/

/-- The topology of a drain of this side. -/
def drainOf (side : BankSide) : RateEvent → Option Graph
  | .drain side' graph _ _ => if side' = side then some graph else none
  | .handlePacket _ => none

/-- The events since the last drain of a side. -/
def sinceDrain (side : BankSide) (events : List RateEvent) : List RateEvent :=
  events.foldl (fun since event =>
    if (drainOf side event).isSome then [] else since ++ [event]) []

/-- The topology at the last drain of a side. -/
def lastDrain (side : BankSide) (events : List RateEvent) : Option Graph :=
  events.foldl (fun last event => (drainOf side event).or last) none

/-- The drain empties this bank. -/
def Empties (g : Graph) (key : AgentKey) : BankSide → Prop
  | .ingress => (g.getAgentKeyFromTheOtherSide key).isSome
  | .egress => True

/-- The edge on which a drain publishes a bank: towards the port for an ingress bank, and out of
    the port to a host for an egress bank. -/
def publishedOn (g : Graph) (key : AgentKey) : BankSide → Option EdgeDesc
  | .ingress => (g.getAgentKeyFromTheOtherSide key).bind g.findEdgeByAgentIpAndPort
  | .egress => g.findEdgeToHostByAgentIpAndPort key

/-- The last drain, if there was one, emptied this bank. -/
def EmptiedBefore (side : BankSide) (events : List RateEvent) (key : AgentKey) : Prop :=
  ∀ g ∈ lastDrain side events, Empties g key side

/-- The drain has an edge for this bank: the other side is known, or the port leads to a host. -/
def Pays (g : Graph) (key : AgentKey) : BankSide → Prop
  | .ingress => (g.getAgentKeyFromTheOtherSide key).isSome
  | .egress => (g.findEdgeToHostByAgentIpAndPort key).isSome

/-- The bytes in a bank of a side. -/
def credit (c : Collector) (side : BankSide) (key : AgentKey) : UInt64 :=
  byteCredit (c.banks side) key

variable {env : CollectorEnv} {side : BankSide} {key : AgentKey}

/-! ## Packets -/

/-- A counter report leaves the bytes in the banks. -/
theorem byteCredit_insert {reports : AssocMap AgentKey CounterInfo} {k : AgentKey}
    {st : CounterInfo} (hst : st.inputByteCountOnALinkMultiplySampingRate = byteCredit reports k) :
    byteCredit (reports.insert k st) key = byteCredit reports key := by
  unfold byteCredit at hst ⊢
  rw [AssocMap.lookup_insert_eq]
  by_cases hk : key = k
  · subst hk
    rw [if_pos rfl, ← hst, Option.getD_some]
  · rw [if_neg hk]

theorem credit_applyCounter (agentIp index : UInt32) (speed input output : UInt64)
    (c : Collector) :
    credit (applyCounter env agentIp index speed input output c) side key = credit c side key := by
  unfold applyCounter
  cases env.mode with
  | mininet => rfl
  | testbed =>
    dsimp only [readSteadyClock]
    rw [apply_ite fun c => credit c side key]
    cases side with
    | egress => exact ite_self _
    | ingress =>
      split
      · exact byteCredit_insert rfl
      · exact byteCredit_insert rfl

theorem banks_updateFlowTable (key : SFlow.FlowKey) (agentKey : AgentKey) (isIngress : Bool)
    (s : FlowSample) (c : Collector) :
    (updateFlowTable env key agentKey isIngress s c).banks side = c.banks side := by
  obtain ⟨hingress, hegress, -⟩ := updateFlowTable_frame env key agentKey isIngress s c
  cases side with
  | ingress => exact hingress
  | egress => exact hegress

/-- A tracked sample banks its bytes, in Mininet. -/
theorem banks_applyTracked (agentIp : UInt32) (s : FlowSample) (c : Collector) :
    (applyTracked env agentIp s c).banks side =
      if env.mode = .mininet then
        match creditedTo env agentIp s side with
        | some k => bank (c.banks side) k (sampledBytes s)
        | none => c.banks side
      else c.banks side := by
  -- what follows the banks writes the flow table and the calls to the topology only
  have hcalls : ∀ (b : Bool) (c' : Collector) (calls : List TopologyCall),
      (if b = true then { c' with topologyCalls := calls } else c').banks side = c'.banks side := by
    intro b c' calls
    cases b <;> cases side <;> rfl
  unfold applyTracked
  dsimp only
  rw [hcalls, banks_updateFlowTable]
  cases hmode : env.mode with
  | testbed => simp
  | mininet =>
    cases side with
    | ingress => simp [banks, creditedTo, sampledBytes]
    | egress =>
      simp only [if_true, banks, creditedTo, sampledBytes, decide_eq_true_eq]
      split <;> rfl

theorem credit_applySample (agentIp : UInt32) (event : SampleEvent) (c : Collector) :
    credit (applySample env agentIp event c) side key =
      credit c side key + sampleCredit env side agentIp event key := by
  cases event with
  | counter index speed input output =>
    rw [applySample, credit_applyCounter, sampleCredit, UInt64.add_zero]
  | skipped => rw [applySample, sampleCredit, UInt64.add_zero]
  | flow s =>
    have hfinal : credit (applySample env agentIp (.flow s) c) side key =
        credit (if s.isTracked then applyTracked env agentIp s c else c) side key := by
      cases side <;> rfl
    rw [hfinal, sampleCredit]
    by_cases htracked : s.isTracked = true
    · rw [if_pos htracked, credit, credit, banks_applyTracked]
      by_cases hmode : env.mode = .mininet
      · rw [if_pos hmode]
        cases hkey : creditedTo env agentIp s side with
        | none => simp
        | some k =>
          simp only [byteCredit_bank, hmode, htracked, true_and, Option.some.injEq,
            eq_comm (a := k)]
          split
          · rfl
          · rw [UInt64.add_zero]
      · rw [if_neg hmode, if_neg fun h => hmode h.1, UInt64.add_zero]
    · rw [if_neg htracked, if_neg fun h => htracked h.2.1, UInt64.add_zero]

/-- The loop applies the samples that it decodes, in order. -/
theorem collector_sampleLoop (env : CollectorEnv) (agentIp : UInt32) (words : List UInt32)
    (remaining : Nat) (index previousIndex : UInt32) (c : Collector) :
    (sampleLoop env agentIp words remaining index previousIndex c).collector =
      (loopSamples env words remaining index previousIndex).foldl
        (fun c event => c.applySample env agentIp event) c := by
  induction remaining generalizing index previousIndex c with
  | zero => rfl
  | succ remaining ih =>
    unfold sampleLoop loopSamples
    split
    · rfl
    · split
      · rfl
      · cases decodeSample env.mode (sampleReader words index) with
        | error e => rfl
        | ok outcome =>
          obtain ⟨event, _ | advance⟩ := outcome
          · rfl
          · exact ih _ _ _

/-- The loop banks the samples that it decodes. -/
theorem credit_sampleLoop (agentIp : UInt32) (words : List UInt32) (remaining : Nat)
    (index previousIndex : UInt32) (c : Collector) :
    credit (sampleLoop env agentIp words remaining index previousIndex c).collector side key =
      credit c side key + ((loopSamples env words remaining index previousIndex).map fun event =>
        sampleCredit env side agentIp event key).sum := by
  rw [collector_sampleLoop]
  generalize loopSamples env words remaining index previousIndex = events
  induction events generalizing c with
  | nil => simp
  | cons event events ih =>
    rw [List.foldl_cons, ih, credit_applySample, List.map_cons, List.sum_cons, UInt64.add_assoc]

/-- A datagram is either not looked at, or goes to the sample loop. -/
theorem decodeDatagram_cases (env : CollectorEnv) (buffer : List UInt8) :
    ((∀ c, decodeDatagram env buffer c = none) ∧ datagramSamples env buffer = (0, [])) ∨
      ∃ agentIp words n, (∀ c, decodeDatagram env buffer c =
          some (sampleLoop env agentIp words n 7 0 c)) ∧
        datagramSamples env buffer = (agentIp, loopSamples env words n 7 0) := by
  unfold decodeDatagram datagramSamples
  by_cases hlength : buffer.length < 7 * 4 ∨ buffer.length % 4 ≠ 0
  · simp only [if_pos hlength]
    exact .inl ⟨fun _ => trivial, trivial⟩
  · simp only [if_neg hlength]
    -- a header of seven words, or fewer words
    rcases Words.toWords buffer with
      _ | ⟨w₀, _ | ⟨w₁, _ | ⟨agentIp, _ | ⟨w₃, _ | ⟨w₄, _ | ⟨w₅, _ | ⟨w₆, rest⟩⟩⟩⟩⟩⟩⟩
    iterate 7 · exact .inl ⟨fun _ => rfl, rfl⟩
    dsimp only
    by_cases hversion : Words.ntohl w₀ ≠ 5
    · simp only [if_pos hversion]
      exact .inl ⟨fun _ => trivial, trivial⟩
    · simp only [if_neg hversion]
      split
      · exact .inl ⟨fun _ => rfl, rfl⟩
      · exact .inr ⟨agentIp, _, _, fun _ => rfl, rfl⟩

/-- What every sample keeps, a datagram keeps. -/
theorem handlePacket_induction {P : Collector → Prop}
    (hsample : ∀ agentIp event c, P c → P (applySample env agentIp event c))
    (hmalformed : ∀ n c, P c → P { c with malformedDatagrams := n }) (buffer : List UInt8)
    {c : Collector} (h : P c) : P (c.handlePacket env buffer) := by
  have hloop : ∀ (agentIp : UInt32) (events : List SampleEvent) (c : Collector), P c →
      P (events.foldl (fun c event => c.applySample env agentIp event) c) := by
    intro agentIp events
    induction events with
    | nil => exact fun c hc => hc
    | cons event events ih => exact fun c hc => ih _ (hsample agentIp event c hc)
  unfold handlePacket
  cases decodeDatagram_cases env buffer with
  | inl hnone =>
    rw [hnone.1]
    exact h
  | inr hdecoded =>
    obtain ⟨agentIp, words, n, hdecode, -⟩ := hdecoded
    have hend := hloop agentIp (loopSamples env words n 7 0) c h
    rw [← collector_sampleLoop] at hend
    rw [hdecode]
    dsimp only
    split
    · exact hend
    · exact hmalformed _ _ hend

theorem credit_handlePacket_of_loop {buffer : List UInt8} {c : Collector} {loopEnd : LoopEnd}
    (h : decodeDatagram env buffer c = some loopEnd) :
    credit (c.handlePacket env buffer) side key = credit loopEnd.collector side key := by
  unfold handlePacket
  rw [h]
  dsimp only
  cases loopEnd.truncated with
  | none => rfl
  | some _ => cases side <;> rfl

/-- What a datagram adds to a bank. -/
theorem credit_handlePacket (buffer : List UInt8) (c : Collector) :
    credit (c.handlePacket env buffer) side key =
      credit c side key + datagramCredit env side buffer key := by
  unfold datagramCredit
  rcases decodeDatagram_cases env buffer with
    ⟨hnone, hsamples⟩ | ⟨agentIp, words, n, hloop, hsamples⟩
  · rw [hsamples, handlePacket, hnone]
    simp
  · rw [hsamples, credit_handlePacket_of_loop (hloop c), credit_sampleLoop]

/-! ## Drains -/

theorem byteCredit_mapVals (f : AgentKey → CounterInfo → CounterInfo)
    (reports : AssocMap AgentKey CounterInfo)
    (hf : (f key {}).inputByteCountOnALinkMultiplySampingRate = 0) :
    byteCredit (reports.mapVals f) key =
      (f key ((reports.lookup key).getD {})).inputByteCountOnALinkMultiplySampingRate := by
  unfold byteCredit
  rw [AssocMap.lookup_mapVals]
  cases reports.lookup key with
  | none => simp [hf]
  | some value => rfl

/-- A drain empties the banks of its side that it gets to. -/
theorem credit_drain_self {g : Graph} (h : Empties g key side) (hmode : env.mode = .mininet)
    (elapsed : Nat) (hpositive : 0 < elapsed) (c : Collector) :
    credit ((RateEvent.drain side g elapsed hpositive).apply env c).1 side key = 0 := by
  cases side with
  | ingress =>
    obtain ⟨other, hother⟩ := Option.isSome_iff_exists.mp h
    show credit (drainIngressBanks env g elapsed c).1 .ingress key = 0
    unfold drainIngressBanks
    rw [if_pos hmode]
    show byteCredit (AssocMap.mapVals _ c.counterReports) key = 0
    rw [byteCredit_mapVals]
    · rw [hother]
      rfl
    · rw [hother]
      rfl
  | egress =>
    show byteCredit (AssocMap.mapVals _ c.egressCounterReports) key = 0
    rw [byteCredit_mapVals]
    · rfl
    · rfl

/-- A drain of one side leaves the banks of the other. -/
theorem credit_drain_other {side' : BankSide} (hside : side' ≠ side) (g : Graph) (elapsed : Nat)
    (hpositive : 0 < elapsed) (c : Collector) :
    credit ((RateEvent.drain side' g elapsed hpositive).apply env c).1 side key =
      credit c side key := by
  cases side' <;> cases side
  · exact absurd rfl hside
  · show credit (drainIngressBanks env g elapsed c).1 .egress key = _
    unfold drainIngressBanks
    split <;> rfl
  · rfl
  · exact absurd rfl hside

/-- Outside Mininet nothing is banked. -/
theorem datagramCredit_testbed (hmode : env.mode ≠ .mininet) (buffer : List UInt8) :
    datagramCredit env side buffer key = 0 := by
  have hzero : ∀ agentIp event, sampleCredit env side agentIp event key = 0 := by
    intro agentIp event
    cases event with
    | flow s => exact if_neg fun h => hmode h.1
    | counter _ _ _ _ | skipped => rfl
  unfold datagramCredit
  simp only [hzero]
  generalize (datagramSamples env buffer).2 = samples
  induction samples with
  | nil => rfl
  | cons _ samples ih => rw [List.map_cons, List.sum_cons, ih]; rfl

/-! ## Runs -/

theorem run_concat (events : List RateEvent) (event : RateEvent) :
    RateEvent.run env (events ++ [event]) = (event.apply env (RateEvent.run env events)).1 := by
  rw [RateEvent.run, RateEvent.run, List.foldl_concat]

theorem credit_start : credit {} side key = 0 := by
  cases side <;> rfl

theorem credit_run_testbed (hmode : env.mode ≠ .mininet) (events : List RateEvent) :
    credit (RateEvent.run env events) side key = 0 := by
  induction events using List.reverseRecOn with
  | nil => exact credit_start
  | append_singleton events event ih =>
    rw [run_concat]
    cases event with
    | handlePacket buffer =>
      show credit (handlePacket env buffer _) side key = 0
      rw [credit_handlePacket, ih, datagramCredit_testbed hmode]
      rfl
    | drain side' g elapsed hpositive =>
      by_cases hside : side' = side
      · subst hside
        cases side' with
        | ingress =>
          show credit (drainIngressBanks env g elapsed _).1 .ingress key = 0
          unfold drainIngressBanks
          rw [if_neg hmode]
          exact ih
        | egress =>
          show byteCredit (AssocMap.mapVals _ _) key = 0
          rw [byteCredit_mapVals _ _ rfl]
          rfl
      · rw [credit_drain_other hside, ih]

/-- After a drain, the banks that it gets to are empty. -/
theorem credit_after_drain {g : Graph} (h : Empties g key side) (events : List RateEvent)
    (elapsed : Nat) (hpositive : 0 < elapsed) :
    credit ((RateEvent.drain side g elapsed hpositive).apply env (RateEvent.run env events)).1 side
      key = 0 := by
  by_cases hmode : env.mode = .mininet
  · exact credit_drain_self h hmode elapsed hpositive _
  · rw [← run_concat]
    exact credit_run_testbed hmode _

theorem banked_concat (events : List RateEvent) (event : RateEvent) :
    banked env side key (events ++ [event]) =
      banked env side key events + banked env side key [event] := by
  induction events with
  | nil => simp [banked]
  | cons e events ih =>
    cases e with
    | handlePacket buffer => rw [List.cons_append, banked, ih, banked, UInt64.add_assoc]
    | drain _ _ _ _ => rw [List.cons_append, banked, ih, banked]

theorem sinceDrain_concat (events : List RateEvent) (event : RateEvent) :
    sinceDrain side (events ++ [event]) =
      if (drainOf side event).isSome then [] else sinceDrain side events ++ [event] := by
  rw [sinceDrain, sinceDrain, List.foldl_concat]

theorem lastDrain_concat (events : List RateEvent) (event : RateEvent) :
    lastDrain side (events ++ [event]) = (drainOf side event).or (lastDrain side events) := by
  rw [lastDrain, lastDrain, List.foldl_concat]

/-- A bank that the last drain emptied holds what came since. -/
theorem credit_eq_banked (events : List RateEvent) (h : EmptiedBefore side events key) :
    credit (RateEvent.run env events) side key =
      banked env side key (sinceDrain side events) := by
  induction events using List.reverseRecOn with
  | nil => exact credit_start
  | append_singleton events event ih =>
    rw [run_concat, sinceDrain_concat]
    unfold EmptiedBefore at h ih
    rw [lastDrain_concat] at h
    cases event with
    | handlePacket buffer =>
      show credit (handlePacket env buffer _) side key = banked env side key (_ ++ [_])
      rw [credit_handlePacket, ih h, banked_concat, banked, banked, UInt64.add_zero]
    | drain side' g elapsed hpositive =>
      by_cases hside : side' = side
      · -- the drain of this side starts a new interval
        subst hside
        rw [drainOf, if_pos rfl] at h ⊢
        exact credit_after_drain (h g rfl) events elapsed hpositive
      · rw [drainOf, if_neg hside] at h ⊢
        rw [credit_drain_other hside]
        show _ = banked env side key (_ ++ [_])
        rw [ih h, banked_concat, banked, banked, UInt64.add_zero]

/-! ## Publications -/

/-- A port behind which a host stands has that edge as its first one. -/
theorem findEdge_of_toHost {g : Graph} {edge : EdgeDesc}
    (h : g.findEdgeToHostByAgentIpAndPort key = some edge) :
    g.findEdgeByAgentIpAndPort key = some edge := by
  unfold Graph.findEdgeToHostByAgentIpAndPort at h
  unfold Graph.findEdgeByAgentIpAndPort Graph.findEdge
  cases hfind : g.edges.find? fun e => Graph.leavesPort key e.props with
  | none =>
    rw [hfind] at h
    exact nomatch h
  | some e =>
    rw [hfind] at h
    dsimp only at h
    split at h
    · rw [← h]
      rfl
    · exact nomatch h

/-- The other side of a port has an edge: the one it was read from. -/
theorem exists_edge_of_otherSide {g : Graph} {other : AgentKey}
    (h : g.getAgentKeyFromTheOtherSide key = some other) :
    ∃ edge, g.findEdgeByAgentIpAndPort other = some edge := by
  obtain ⟨e, hfind, rfl⟩ := Option.map_eq_some_iff.mp h
  have hleaves : (g.edges.find? fun e' => Graph.leavesPort
      { agentIP := front e.props.srcIp, interfacePort := e.props.srcInterface } e'.props).isSome := by
    rw [List.find?_isSome]
    exact ⟨e, List.mem_of_find?_eq_some hfind, by simp [Graph.leavesPort]⟩
  obtain ⟨e', he'⟩ := Option.isSome_iff_exists.mp hleaves
  exact ⟨e'.desc, by rw [Graph.findEdgeByAgentIpAndPort, Graph.findEdge, he']; rfl⟩

theorem exists_edge_of_pays {g : Graph} (h : Pays g key side) :
    ∃ edge, publishedOn g key side = some edge := by
  cases side with
  | ingress =>
    obtain ⟨other, hother⟩ := Option.isSome_iff_exists.mp h
    obtain ⟨edge, hedge⟩ := exists_edge_of_otherSide hother
    exact ⟨edge, by rw [publishedOn, hother]; exact hedge⟩
  | egress => exact Option.isSome_iff_exists.mp h

theorem updateLinkInfo_eq_some {g : Graph} {bytes : UInt64} {elapsed : Nat}
    (hpositive : 0 < elapsed) {p : Publication} :
    g.updateLinkInfoLeftLinkBandwidth key bytes elapsed = some p ↔
      g.findEdgeByAgentIpAndPort key = some p.edge ∧ p.bytes = bytes ∧ p.elapsed = elapsed := by
  unfold Graph.updateLinkInfoLeftLinkBandwidth
  rw [if_pos hpositive, Option.map_eq_some_iff]
  constructor
  · rintro ⟨edge, hedge, rfl⟩
    exact ⟨hedge, rfl, rfl⟩
  · rintro ⟨hedge, rfl, rfl⟩
    exact ⟨p.edge, hedge, rfl⟩

/-- What the turn of a drain for one bank publishes. -/
def turn (g : Graph) (elapsed : Nat) (key : AgentKey) (bytes : UInt64) :
    BankSide → Option Publication
  | .ingress =>
    match g.getAgentKeyFromTheOtherSide key with
    | none => none
    | some other => g.updateLinkInfoLeftLinkBandwidth other bytes elapsed
  | .egress =>
    if (g.findEdgeToHostByAgentIpAndPort key).isSome then
      g.updateLinkInfoLeftLinkBandwidth key bytes elapsed
    else none

theorem turn_eq_some {g : Graph} {bytes : UInt64} {elapsed : Nat} (hpositive : 0 < elapsed)
    {p : Publication} :
    turn g elapsed key bytes side = some p ↔
      publishedOn g key side = some p.edge ∧ p.bytes = bytes ∧ p.elapsed = elapsed := by
  unfold turn publishedOn
  cases side with
  | ingress =>
    cases g.getAgentKeyFromTheOtherSide key with
    | none => simp
    | some other => exact updateLinkInfo_eq_some hpositive
  | egress =>
    cases hhost : g.findEdgeToHostByAgentIpAndPort key with
    | none => simp
    | some edge =>
      dsimp only
      rw [Option.isSome_some, if_pos rfl, updateLinkInfo_eq_some hpositive,
        findEdge_of_toHost hhost]

/-- A drain takes its turn for every entry, in Mininet. -/
theorem published_drain {g : Graph} {elapsed : Nat} (hpositive : 0 < elapsed) (c : Collector) :
    ((RateEvent.drain side g elapsed hpositive).apply env c).2 =
      if side = .ingress → env.mode = .mininet then
        (c.banks side).toPairs.filterMap fun p =>
          turn g elapsed p.1 p.2.inputByteCountOnALinkMultiplySampingRate side
      else [] := by
  cases side with
  | egress =>
    rw [if_pos fun h => nomatch h]
    rfl
  | ingress =>
    show (drainIngressBanks env g elapsed c).2 = _
    unfold drainIngressBanks
    by_cases hmode : env.mode = .mininet
    · rw [if_pos hmode, if_pos fun _ => hmode]
      rfl
    · rw [if_neg hmode, if_neg fun h => hmode (h rfl)]

/-- What a drain publishes: the bytes of each bank with an entry and an edge. -/
theorem mem_published_iff {g : Graph} {elapsed : Nat} (hpositive : 0 < elapsed) {c : Collector}
    {p : Publication} :
    p ∈ ((RateEvent.drain side g elapsed hpositive).apply env c).2 ↔
      (side = .ingress → env.mode = .mininet) ∧ ∃ key, key ∈ c.banks side ∧
        publishedOn g key side = some p.edge ∧ p.bytes = credit c side key ∧
        p.elapsed = elapsed := by
  rw [published_drain]
  by_cases hmode : side = .ingress → env.mode = .mininet
  · rw [if_pos hmode, List.mem_filterMap]
    constructor
    · rintro ⟨⟨key, value⟩, hmem, hturn⟩
      rw [AssocMap.mem_toPairs] at hmem
      obtain ⟨hedge, hbytes, helapsed⟩ := (turn_eq_some hpositive).mp hturn
      refine ⟨hmode, key, ?_, hedge, ?_, helapsed⟩
      · rw [← AList.lookup_isSome, hmem]
        rfl
      · rw [hbytes, credit, byteCredit, hmem]
        rfl
    · rintro ⟨-, key, hmem, hedge, hbytes, helapsed⟩
      obtain ⟨value, hvalue⟩ := AssocMap.exists_of_mem hmem
      refine ⟨(key, value), AssocMap.mem_toPairs.mpr hvalue, (turn_eq_some hpositive).mpr ?_⟩
      refine ⟨hedge, ?_, helapsed⟩
      rw [hbytes, credit, byteCredit, hvalue]
      rfl
  · rw [if_neg hmode]
    exact iff_of_false List.not_mem_nil fun h => hmode h.1

/-! ## The theorem -/

/-- What a drain of a side does after these events. -/
structure DrainSound (env : CollectorEnv) (events : List RateEvent) (side : BankSide) (g : Graph)
    (elapsed : Nat) (hpositive : 0 < elapsed) : Prop where
  /-- The banks that it gets to are empty, whoever reported in the interval. -/
  emptied : ∀ key, Empties g key side →
    credit ((RateEvent.drain side g elapsed hpositive).apply env (RateEvent.run env events)).1 side
      key = 0
  /-- What came since the last drain for a bank with an edge is published. -/
  published : ∀ key, EmptiedBefore side events key → Pays g key side →
    banked env side key (sinceDrain side events) ≠ 0 →
    ∃ edge, publishedOn g key side = some edge ∧
      { edge := edge, bytes := banked env side key (sinceDrain side events), elapsed := elapsed } ∈
        ((RateEvent.drain side g elapsed hpositive).apply env (RateEvent.run env events)).2
  /-- What is published is the credit of a bank, and nothing of it is from before the last drain. -/
  current : ∀ p ∈ ((RateEvent.drain side g elapsed hpositive).apply env (RateEvent.run env events)).2,
    p.elapsed = elapsed ∧ ∃ key ∈ (RateEvent.run env events).banks side,
      publishedOn g key side = some p.edge ∧ p.bytes = credit (RateEvent.run env events) side key ∧
      (EmptiedBefore side events key → p.bytes = banked env side key (sinceDrain side events))

/-- Every drain of every run publishes, for the banks that the drain before emptied, what came
    in its own interval, and it leaves empty the banks that it gets to. -/
theorem drain_publishes_interval (env : CollectorEnv) (events : List RateEvent) (side : BankSide)
    (g : Graph) (elapsed : Nat) (hpositive : 0 < elapsed) :
    DrainSound env events side g elapsed hpositive := by
  constructor
  · intro key hempties
    exact credit_after_drain hempties events elapsed hpositive
  · intro key hemptied hpays hbanked
    obtain ⟨edge, hedge⟩ := exists_edge_of_pays hpays
    have hcredit : credit (RateEvent.run env events) side key = _ := credit_eq_banked events hemptied
    have hmode : env.mode = .mininet := by
      by_contra hmode
      rw [credit_run_testbed hmode] at hcredit
      exact hbanked hcredit.symm
    have hentry : key ∈ (RateEvent.run env events).banks side := by
      by_contra hnone
      unfold credit byteCredit at hcredit
      rw [AList.lookup_eq_none.mpr hnone] at hcredit
      exact hbanked hcredit.symm
    refine ⟨edge, hedge, ?_⟩
    rw [mem_published_iff]
    exact ⟨fun _ => hmode, key, hentry, hedge, hcredit.symm, rfl⟩
  · intro p hp
    obtain ⟨-, key, hmem, hedge, hbytes, helapsed⟩ := (mem_published_iff hpositive).mp hp
    refine ⟨helapsed, key, hmem, hedge, hbytes, fun hemptied => ?_⟩
    rw [hbytes, credit_eq_banked events hemptied]

/-- A UDP packet of 1000 bytes that enters switch 192.168.0.1 at port 1 and leaves at port 2,
    sampled at a rate of 1. -/
def forwardedSample : List UInt32 :=
  [1, 112, 0, 0, 1, 0, 0, 1, 2, 0, 0, 0, 0, 0, 0, 1000, 0, 0, 0, 0, 0, 0x08000000, 0, 17,
    0x00000a00, 0x00010a00, 0x00020035, 0x00350000, 0, 0].map Words.ntohl

def forwarded : RateEvent := .handlePacket (datagram agentHeader [forwardedSample])

/-- A host at port 1 of the switch and another switch at port 2. -/
def hostAndSwitch : Graph where
  vertices := [{ vertexType := .switch, ip := [agentHeader.agentIp], dpid := 1 },
    { vertexType := .switch, ip := [2], dpid := 2 },
    { vertexType := .host, ip := [3], dpid := 0 }]
  edges := [
    ⟨⟨0, 1⟩, { srcIp := [agentHeader.agentIp], srcDpid := 1, srcInterface := 2,
               dstIp := [2], dstDpid := 2, dstInterface := 1 }⟩,
    ⟨⟨2, 0⟩, { srcIp := [3], srcDpid := 0, srcInterface := 0,
               dstIp := [agentHeader.agentIp], dstDpid := 1, dstInterface := 1 }⟩]
  inRange := by decide
  sorted := by decide

/-- The bytes of the packet are published on the link from the host, and the bank is empty. -/
theorem forwarded_published :
    { edge := ⟨2, 0⟩, bytes := 1000, elapsed := 1000000000 } ∈
        ((RateEvent.drain .ingress hostAndSwitch 1000000000 (by decide)).apply mininetEnv
          (RateEvent.run mininetEnv [forwarded])).2 ∧
      credit ((RateEvent.drain .ingress hostAndSwitch 1000000000 (by decide)).apply mininetEnv
        (RateEvent.run mininetEnv [forwarded])).1 .ingress ⟨agentHeader.agentIp, 1⟩ = 0 := by
  have hsound := drain_publishes_interval mininetEnv [forwarded] .ingress hostAndSwitch 1000000000
    (by decide)
  have hknown : (hostAndSwitch.getAgentKeyFromTheOtherSide ⟨agentHeader.agentIp, 1⟩).isSome := by
    decide +kernel
  have hemptied : EmptiedBefore .ingress [forwarded] ⟨agentHeader.agentIp, 1⟩ := fun g hg => nomatch hg
  have hbanked : banked mininetEnv .ingress ⟨agentHeader.agentIp, 1⟩
      (sinceDrain .ingress [forwarded]) = 1000 := by decide +kernel
  obtain ⟨edge, hedge, hmem⟩ := hsound.published _ hemptied hknown (by rw [hbanked]; decide)
  rw [hbanked] at hmem
  obtain rfl : edge = ⟨2, 0⟩ := by
    have hexpected : publishedOn hostAndSwitch ⟨agentHeader.agentIp, 1⟩ .ingress =
        some ⟨2, 0⟩ := by decide +kernel
    exact Option.some.inj (hedge.symm.trans hexpected)
  exact ⟨hmem, hsound.emptied _ hknown⟩

/-- Every bank is empty after the drain, and all that came in its interval is published. -/
structure DrainComplete (env : CollectorEnv) (events : List RateEvent) (side : BankSide)
    (g : Graph) (elapsed : Nat) (hpositive : 0 < elapsed) : Prop where
  emptied : ∀ key, credit ((RateEvent.drain side g elapsed hpositive).apply env
    (RateEvent.run env events)).1 side key = 0
  published : ∀ key, banked env side key (sinceDrain side events) ≠ 0 →
    ∃ edge, { edge := edge, bytes := banked env side key (sinceDrain side events),
              elapsed := elapsed } ∈
      ((RateEvent.drain side g elapsed hpositive).apply env (RateEvent.run env events)).2
  current : ∀ p ∈ ((RateEvent.drain side g elapsed hpositive).apply env (RateEvent.run env events)).2,
    ∃ key, p.bytes = banked env side key (sinceDrain side events)

/-- A topology that knows no switch. -/
def unlinked : Graph := .edgeless []

/-- Towards a switch the egress bytes are dropped, and a port that the topology does not know
    keeps its ingress bytes. -/
theorem forwarded_not_complete :
    ¬DrainComplete mininetEnv [forwarded] .egress hostAndSwitch 1000000000 (by decide) ∧
      ¬DrainComplete mininetEnv [forwarded] .ingress unlinked 1000000000 (by decide) := by
  constructor
  · intro hcomplete
    have hbanked : banked mininetEnv .egress ⟨agentHeader.agentIp, 2⟩
        (sinceDrain .egress [forwarded]) ≠ 0 := by decide +kernel
    obtain ⟨edge, hmem⟩ := hcomplete.published _ hbanked
    have hnothing : ((RateEvent.drain .egress hostAndSwitch 1000000000 (by decide)).apply mininetEnv
        (RateEvent.run mininetEnv [forwarded])).2 = [] := by decide +kernel
    rw [hnothing] at hmem
    exact nomatch hmem
  · intro hcomplete
    have hleft : credit ((RateEvent.drain .ingress unlinked 1000000000 (by decide)).apply mininetEnv
        (RateEvent.run mininetEnv [forwarded])).1 .ingress ⟨agentHeader.agentIp, 1⟩ = 1000 := by
      decide +kernel
    rw [hcomplete.emptied] at hleft
    exact absurd hleft (by decide)

end Ndtwin.Spec

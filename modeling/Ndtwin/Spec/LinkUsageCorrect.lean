import Ndtwin.ForStd.Run
import Ndtwin.Kernel.LinkUsage
import Ndtwin.Spec.TopologyFileCorrect

/-!
# Link Usage

Both writers of an edge keep its usage within its bandwidth: a counter sample brings a bandwidth of
its own and the part of it that is left, and the rate loop takes off what the bandwidth allows.

## Key results

- `calls_counter`: the call that a counter sample makes
- `bounded_run`: the usage never exceeds the bandwidth
- `usage_sound`: no subtraction wraps, and what is used and what is left make up the bandwidth
-/

namespace Ndtwin.Kernel

open SFlow Collector TopologyFile

/-! ## The calls of a sample -/

namespace LinkMonitor

section Calls

variable {env : CollectorEnv} {s : LinkMonitor} {agentIp : UInt32}

/-- The counters of a sample are a later reading of both counters of its port. -/
def Reports (env : CollectorEnv) (s : LinkMonitor) (agentIp interfaceIndex : UInt32)
    (inputOctets outputOctets : UInt64) : Prop :=
  s.Compares env agentIp interfaceIndex ∧
    inputOctets ≥ (s.lastReport agentIp interfaceIndex).lastReceivedInputOctets ∧
    outputOctets ≥ (s.lastReport agentIp interfaceIndex).lastReceivedOutputOctets

instance (env : CollectorEnv) (s : LinkMonitor) (agentIp interfaceIndex : UInt32)
    (inputOctets outputOctets : UInt64) :
    Decidable (s.Reports env agentIp interfaceIndex inputOctets outputOctets) :=
  inferInstanceAs (Decidable (_ ∧ _))

theorem isSome_averageBps (octets last : UInt64) (interval : Int) :
    (averageBps octets last interval).isSome = true ↔ octets ≥ last := by
  unfold averageBps
  split <;> simp [*]

/-- A counter sample calls the topology monitor when it has two readings to compare. -/
theorem calls_counter (interfaceIndex : UInt32) (interfaceSpeed inputOctets outputOctets : UInt64) :
    s.calls env agentIp (.counter interfaceIndex interfaceSpeed inputOctets outputOctets) =
      if s.Reports env agentIp interfaceIndex inputOctets outputOctets then
        [.updateLinkInfo ⟨agentIp, interfaceIndex⟩
          (bandwidthLeft interfaceSpeed ((averageBps inputOctets
            (s.lastReport agentIp interfaceIndex).lastReceivedInputOctets
            (s.interval env agentIp interfaceIndex)).getD 0))
          (bandwidthLeft interfaceSpeed ((averageBps outputOctets
            (s.lastReport agentIp interfaceIndex).lastReceivedOutputOctets
            (s.interval env agentIp interfaceIndex)).getD 0))
          interfaceSpeed]
      else [] := by
  have hnone : ¬(env.mode = .testbed ∧ s.interval env agentIp interfaceIndex ≠ 0) →
      ¬s.Reports env agentIp interfaceIndex inputOctets outputOctets :=
    fun h hreports => h ⟨hreports.1.1, hreports.1.2.1⟩
  unfold calls applySample applyCounter
  cases hmode : env.mode with
  | mininet =>
    -- Only the testbed sends counter samples on.
    rw [if_neg (hnone fun h => absurd (hmode.symm.trans h.1) (by decide)), List.drop_length]
  | testbed =>
    dsimp only [readSteadyClock]
    by_cases hinterval : s.interval env agentIp interfaceIndex = 0
    · -- Two samples of the same millisecond are not compared.
      rw [if_neg (hnone fun h => h.2 hinterval)]
      unfold interval lastReport at hinterval
      rw [if_pos hinterval, List.drop_length]
    · have hcompares : s.Reports env agentIp interfaceIndex inputOctets outputOctets ↔
          (s.lastReport agentIp interfaceIndex).lastReportTimestampInMilliseconds ≠ 0 ∧
            inputOctets ≥ (s.lastReport agentIp interfaceIndex).lastReceivedInputOctets ∧
            outputOctets ≥ (s.lastReport agentIp interfaceIndex).lastReceivedOutputOctets := by
        rw [Reports, Compares, and_iff_right hmode, and_iff_right hinterval]
      unfold interval lastReport at hinterval
      rw [if_neg hinterval, List.drop_left]
      refine if_congr ?_ rfl rfl
      rw [isSome_averageBps, isSome_averageBps, hcompares]
      exact Iff.rfl

/-- The call changes no bandwidth. -/
def Touches : TopologyCall → Prop
  | .updateLinkInfo _ _ _ _ => False
  | .touchReverseEdge _ _ | .touchEdgeToHost _ _ | .touchEdge _ _ => True

theorem touches_of_mem_edgeTouches {key : SFlow.FlowKey} {isIngress : Bool}
    {relevantPort outputPort : UInt32} {call : TopologyCall}
    (h : call ∈ edgeTouches agentIp key isIngress relevantPort outputPort) : Touches call := by
  unfold edgeTouches at h
  split at h
  · cases List.mem_cons.mp h with
    | inl heq => exact heq ▸ trivial
    | inr hmem =>
      split at hmem
      · exact List.mem_singleton.mp hmem ▸ trivial
      · cases hmem
  · exact List.mem_singleton.mp h ▸ trivial

theorem topologyCalls_updateFlowTable (key : SFlow.FlowKey) (agentKey : AgentKey)
    (isIngress : Bool) (f : FlowSample) (c : Collector) :
    (updateFlowTable env key agentKey isIngress f c).topologyCalls = c.topologyCalls := by
  unfold updateFlowTable
  split <;> rfl

/-- A flow sample asks for edges to be touched. -/
theorem exists_touches_applyFlow (f : FlowSample) (c : Collector) :
    ∃ calls, (applyFlow env agentIp f c).topologyCalls = c.topologyCalls ++ calls ∧
      ∀ call ∈ calls, Touches call := by
  have hnone : ∃ calls, c.topologyCalls = c.topologyCalls ++ calls ∧ ∀ call ∈ calls, Touches call :=
    ⟨[], (List.append_nil _).symm, fun call h => absurd h List.not_mem_nil⟩
  unfold applyFlow
  dsimp only
  split
  · unfold applyTracked
    dsimp only
    split
    · refine ⟨_, congrArg₂ (· ++ ·) ?_ rfl, fun call h => touches_of_mem_edgeTouches h⟩
      rw [topologyCalls_updateFlowTable]
      split <;> rfl
    · rw [topologyCalls_updateFlowTable]
      split <;> exact hnone
  · exact hnone

theorem touches_of_mem_calls_flow {f : FlowSample} {call : TopologyCall}
    (h : call ∈ s.calls env agentIp (.flow f)) : Touches call := by
  obtain ⟨calls, heq, htouches⟩ := @exists_touches_applyFlow env agentIp f s.collector
  rw [LinkMonitor.calls, applySample, heq, List.drop_left] at h
  exact htouches call h

end Calls

/-! ## The writes of a call -/

section Writes

variable {t : Topology}

theorem links_updateLink (t : Topology) (edge d : EdgeDesc) (f : LinkInfo → LinkInfo) :
    (t.updateLink edge f).links d = if d = edge then f (t.links edge) else t.links d :=
  Function.update_apply _ _ _ _

theorem call_of_touches {c : TopologyCall} (h : Touches c) (t : Topology) : call t c = t := by
  cases c with
  | updateLinkInfo key leftIn leftOut speed => cases h
  | touchReverseEdge key flow => rfl
  | touchEdgeToHost key flow => rfl
  | touchEdge key flow => rfl

theorem bandwidthLeft_le (interfaceSpeed avg : UInt64) :
    bandwidthLeft interfaceSpeed avg ≤ interfaceSpeed := by
  unfold bandwidthLeft
  split
  · exact UInt64.zero_le
  · next h =>
    rw [UInt64.le_iff_toNat_le, UInt64.toNat_sub_of_le _ _ (UInt64.not_lt.mp h)]
    exact Nat.sub_le _ _

/-- What is used and what is left make up the bandwidth. -/
def Complete (left : LinkInfo → UInt64) (l : LinkInfo) : Prop :=
  l.linkBandwidthUsage.toNat + (left l).toNat = l.linkBandwidth.toNat

/-- The usage is within the bandwidth. -/
def Bounded (l : LinkInfo) : Prop := l.linkBandwidthUsage ≤ l.linkBandwidth

theorem Complete.bounded {left : LinkInfo → UInt64} {l : LinkInfo} (h : Complete left l) :
    Bounded l := by
  unfold Complete at h
  rw [Bounded, UInt64.le_iff_toNat_le]
  omega

theorem complete_counted {left interfaceSpeed : UInt64} (h : left ≤ interfaceSpeed)
    (l : LinkInfo) : Complete LinkInfo.leftBandwidth (l.counted left interfaceSpeed) := by
  rw [Complete, LinkInfo.counted]
  dsimp only
  rw [UInt64.toNat_sub_of_le _ _ h, Nat.sub_add_cancel (UInt64.le_iff_toNat_le.mp h)]

theorem leftIn_le (estimatedIn : UInt64) (l : LinkInfo) :
    l.leftIn estimatedIn ≤ l.linkBandwidth :=
  bandwidthLeft_le l.linkBandwidth estimatedIn

theorem complete_sampled (estimatedIn : UInt64) (l : LinkInfo) :
    Complete LinkInfo.leftBandwidthFromFlowSample (l.sampled estimatedIn) := by
  have hle := leftIn_le estimatedIn l
  rw [Complete, LinkInfo.sampled]
  dsimp only
  rw [if_neg (UInt64.not_lt.mpr hle), UInt64.toNat_sub_of_le _ _ hle,
    Nat.sub_add_cancel (UInt64.le_iff_toNat_le.mp hle)]

/-- After `updateLinkInfo` both edges are as it left them, and the others as they were. -/
theorem links_updateLinkInfo {key : AgentKey} {leftIn leftOut interfaceSpeed : UInt64}
    (hin : leftIn ≤ interfaceSpeed) (hout : leftOut ≤ interfaceSpeed) (d : EdgeDesc) :
    (t.updateLinkInfo key leftIn leftOut interfaceSpeed).links d = t.links d ∧
        (∀ ends ∈ t.linkEnds key, d ≠ ends.1 ∧ d ≠ ends.2) ∨
      Complete LinkInfo.leftBandwidth
          ((t.updateLinkInfo key leftIn leftOut interfaceSpeed).links d) ∧
        ((t.updateLinkInfo key leftIn leftOut interfaceSpeed).links d).linkBandwidth =
          interfaceSpeed ∧ (t.linkEnds key).isSome = true := by
  unfold Topology.updateLinkInfo
  cases hends : t.linkEnds key with
  | none => exact .inl ⟨rfl, fun ends h => absurd h (by simp)⟩
  | some ends =>
    obtain ⟨edge, revEdge⟩ := ends
    dsimp only
    rw [links_updateLink]
    split
    · exact .inr ⟨complete_counted hin _, rfl, rfl⟩
    · next hrev =>
      rw [links_updateLink]
      split
      · exact .inr ⟨complete_counted hout _, rfl, rfl⟩
      · next hedge =>
        refine .inl ⟨rfl, fun ends h => ?_⟩
        obtain rfl := Option.some.inj h
        exact ⟨hedge, hrev⟩

end Writes

/-! ## The writes of a step -/

section Steps

variable {env : CollectorEnv}

/-- A sample makes no call that counts, or it is a counter sample with two readings. -/
theorem foldl_calls (s : LinkMonitor) (agentIp : UInt32) (event : SampleEvent) :
    ((s.calls env agentIp event).foldl call s.topology = s.topology ∧
        ∀ c ∈ s.calls env agentIp event, Touches c) ∨
      ∃ interfaceIndex interfaceSpeed inputOctets outputOctets leftIn leftOut,
        event = .counter interfaceIndex interfaceSpeed inputOctets outputOctets ∧
        s.Reports env agentIp interfaceIndex inputOctets outputOctets ∧
        leftIn ≤ interfaceSpeed ∧ leftOut ≤ interfaceSpeed ∧
        s.calls env agentIp event =
          [.updateLinkInfo ⟨agentIp, interfaceIndex⟩ leftIn leftOut interfaceSpeed] := by
  have htouches : ∀ {calls : List TopologyCall}, (∀ c ∈ calls, Touches c) →
      calls.foldl call s.topology = s.topology := by
    intro calls h
    induction calls with
    | nil => rfl
    | cons c calls ih =>
      rw [List.foldl_cons, call_of_touches (h c List.mem_cons_self)]
      exact ih fun c' hc' => h c' (List.mem_cons_of_mem c hc')
  cases event with
  | counter interfaceIndex interfaceSpeed inputOctets outputOctets =>
    rw [calls_counter]
    by_cases hreports : s.Reports env agentIp interfaceIndex inputOctets outputOctets
    · rw [if_pos hreports]
      exact .inr ⟨interfaceIndex, interfaceSpeed, inputOctets, outputOctets, _, _, rfl, hreports,
        bandwidthLeft_le _ _, bandwidthLeft_le _ _, rfl⟩
    · rw [if_neg hreports]
      exact .inl ⟨rfl, fun c h => absurd h List.not_mem_nil⟩
  | flow f =>
    -- A flow sample only records the flow on the links.
    have hflow : ∀ c ∈ s.calls env agentIp (.flow f), Touches c :=
      fun c h => touches_of_mem_calls_flow h
    exact .inl ⟨htouches hflow, hflow⟩
  | skipped =>
    have hnone : s.calls env agentIp .skipped = [] := List.drop_length
    rw [hnone]
    exact .inl ⟨rfl, fun c h => absurd h List.not_mem_nil⟩

/-- An edge after a step: as it was, or updated, and then what is used and what is left make up its
    bandwidth. -/
theorem links_step (s : LinkMonitor) (e : LinkStep) (d : EdgeDesc) :
    (s.step env e).topology.links d = s.topology.links d ∧
        (∀ u ∈ s.updates env e, u.edge ≠ d) ∨
      ∃ left, Complete left ((s.step env e).topology.links d) ∧
        ∀ u ∈ s.updates env e, u.edge = d → u.left = left := by
  cases e with
  | sample agentIp event =>
    rw [step, updates]
    dsimp only
    cases @foldl_calls env s agentIp event with
    | inl h =>
      rw [h.1]
      refine .inl ⟨rfl, fun u hu => ?_⟩
      obtain ⟨c, hc, hu⟩ := List.mem_flatMap.mp hu
      have htouches := h.2 c hc
      cases c with
      | updateLinkInfo key leftIn leftOut speed => cases htouches
      | touchReverseEdge key flow => cases hu
      | touchEdgeToHost key flow => cases hu
      | touchEdge key flow => cases hu
    -- One call with the two readings, which writes the link and its reverse.
    | inr h =>
      obtain ⟨interfaceIndex, interfaceSpeed, _, _, leftIn, leftOut, -, -, hin, hout, hcalls⟩ := h
      rw [hcalls, List.foldl_cons, List.foldl_nil, List.flatMap_singleton, call, callUpdates]
      have hwrites := @links_updateLinkInfo s.topology ⟨agentIp, interfaceIndex⟩ leftIn leftOut
        interfaceSpeed hin hout d
      cases hends : s.topology.linkEnds ⟨agentIp, interfaceIndex⟩ with
      | none =>
        rw [hends] at hwrites
        refine hwrites.imp (fun h => ⟨h.1, fun u hu => ?_⟩) fun h => absurd h.2.2 (by simp)
        cases hu
      | some ends =>
        obtain ⟨edge, revEdge⟩ := ends
        rw [hends] at hwrites
        dsimp only
        refine hwrites.imp (fun h => ⟨h.1, fun u hu => ?_⟩) fun h => ⟨_, h.1, fun u hu _ => ?_⟩
        · obtain ⟨hedge, hrev⟩ := h.2 _ rfl
          cases List.mem_cons.mp hu with
          | inl heq => exact heq ▸ hedge.symm
          | inr hmem => exact List.mem_singleton.mp hmem ▸ hrev.symm
        · cases List.mem_cons.mp hu with
          | inl heq => exact heq ▸ rfl
          | inr hmem => exact List.mem_singleton.mp hmem ▸ rfl
  | malformed => exact .inl ⟨rfl, fun u hu => absurd hu List.not_mem_nil⟩
  | rateUpdate key estimatedIn elapsed =>
    rw [step, updates]
    dsimp only
    -- The periodic rate writes the one edge that the interface belongs to.
    unfold Topology.updateLinkInfoLeftLinkBandwidth
    split
    · cases hedge : s.topology.graph.findEdgeByAgentIpAndPort key with
      | none => exact .inl ⟨rfl, fun u hu => absurd hu List.not_mem_nil⟩
      | some edge =>
        dsimp only
        rw [links_updateLink]
        by_cases hd : d = edge
        · rw [if_pos hd]
          refine .inr ⟨_, complete_sampled _ _, fun u hu _ => ?_⟩
          rw [List.mem_singleton.mp hu]
        · rw [if_neg hd]
          refine .inl ⟨rfl, fun u hu => ?_⟩
          rw [List.mem_singleton.mp hu]
          exact Ne.symm hd
    · exact .inl ⟨rfl, fun u hu => absurd hu List.not_mem_nil⟩

/-- Every edge keeps its usage within its bandwidth. -/
theorem bounded_step (s : LinkMonitor) (e : LinkStep) (h : ∀ d, Bounded (s.topology.links d))
    (d : EdgeDesc) : Bounded ((s.step env e).topology.links d) := by
  cases @links_step env s e d with
  | inl hsame => exact hsame.1 ▸ h d
  | inr hupdate =>
    obtain ⟨left, hcomplete, -⟩ := hupdate
    exact hcomplete.bounded

/-- No subtraction of a step takes away more than there is. -/
theorem le_of_mem_subtractions (s : LinkMonitor) (e : LinkStep) {p : Subtraction}
    (h : p ∈ s.subtractions env e) : p.2 ≤ p.1 := by
  have haverage : ∀ {octets last : UInt64}, p ∈ averageSubtractions octets last → p.2 ≤ p.1 := by
    intro octets last hp
    unfold averageSubtractions at hp
    split at hp
    · next hle => exact List.mem_singleton.mp hp ▸ hle
    · cases hp
  have hleft : ∀ {interfaceSpeed avg : UInt64}, p ∈ leftSubtractions interfaceSpeed avg →
      p.2 ≤ p.1 := by
    intro interfaceSpeed avg hp
    unfold leftSubtractions at hp
    split at hp
    · cases hp
    · next hle => exact List.mem_singleton.mp hp ▸ UInt64.not_lt.mp hle
  cases e with
  | sample agentIp event =>
    cases event with
    | counter interfaceIndex interfaceSpeed inputOctets outputOctets =>
      rw [subtractions] at h
      cases List.mem_append.mp h with
      | inl haverages =>
        split at haverages
        · simp only [List.mem_append] at haverages
          obtain ((hp | hp) | hp) | hp := haverages
          · exact haverage hp
          · exact haverage hp
          · exact hleft hp
          · exact hleft hp
        · cases haverages
      | inr hcalls =>
        obtain ⟨c, hc, hp⟩ := List.mem_flatMap.mp hcalls
        cases @foldl_calls env s agentIp
            (.counter interfaceIndex interfaceSpeed inputOctets outputOctets) with
        | inl hnone =>
          have htouches := hnone.2 c hc
          cases c with
          | updateLinkInfo key leftIn leftOut speed => cases htouches
          | touchReverseEdge key flow => cases hp
          | touchEdgeToHost key flow => cases hp
          | touchEdge key flow => cases hp
        | inr hone =>
          obtain ⟨_, speed, _, _, leftIn, leftOut, -, -, hin, hout, heq⟩ := hone
          rw [heq] at hc
          obtain rfl := List.mem_singleton.mp hc
          rw [callSubtractions] at hp
          split at hp
          · cases List.mem_cons.mp hp with
            | inl hfirst => exact hfirst ▸ hout
            | inr hsecond => exact List.mem_singleton.mp hsecond ▸ hin
          · cases hp
    | flow f => cases h
    | skipped => cases h
  | malformed => cases h
  | rateUpdate key estimatedIn elapsed =>
    rw [subtractions] at h
    split at h
    · cases hedge : s.topology.graph.findEdgeByAgentIpAndPort key with
      | none =>
        rw [hedge] at h
        cases h
      | some edge =>
        rw [hedge] at h
        -- both subtractions of the update are those of `bandwidthLeft`
        cases List.mem_append.mp h with
        | inl hp => exact hleft hp
        | inr hp => exact hleft hp
    · cases h

end Steps

/-! ## Every run -/

/-- A step in a state: the usage of no edge exceeds its bandwidth, no subtraction wraps, and what
    is used of an updated edge and what was found left on it make up its bandwidth. -/
structure UsageSound (env : CollectorEnv) (s : LinkMonitor) (e : LinkStep) : Prop where
  bounded : ∀ d, (s.topology.links d).linkBandwidthUsage ≤ (s.topology.links d).linkBandwidth
  noWrap : ∀ p ∈ s.subtractions env e, p.2 ≤ p.1
  complete : ∀ u ∈ s.updates env e,
    ((s.step env e).topology.links u.edge).linkBandwidthUsage.toNat +
        (u.left ((s.step env e).topology.links u.edge)).toNat =
      ((s.step env e).topology.links u.edge).linkBandwidth.toNat

theorem usageSound_of_bounded {env : CollectorEnv} {s : LinkMonitor}
    (h : ∀ d, Bounded (s.topology.links d)) (e : LinkStep) : UsageSound env s e := by
  refine ⟨h, fun p hp => le_of_mem_subtractions s e hp, fun u hu => ?_⟩
  cases @links_step env s e u.edge with
  | inl hsame => exact absurd rfl (hsame.2 u hu)
  | inr hupdate =>
    obtain ⟨left, hcomplete, hleft⟩ := hupdate
    rw [hleft u hu rfl]
    exact hcomplete

/-- A loaded topology uses nothing. -/
theorem bounded_load {mode : DeploymentMode} {j : Json} {t : Topology}
    (h : Topology.empty.loadStaticTopologyFromFile mode j = .ok t) (d : EdgeDesc) :
    Bounded (t.links d) := by
  obtain ⟨nodes, entries, -, -, rfl⟩ := Topology.exists_of_loadStaticTopologyFromFile h
  exact links_foldl Bounded entries (fun _ => UInt64.zero_le) (fun _ _ => UInt64.zero_le) d

/-- From a loaded topology, every step of every run is sound. -/
theorem usage_sound {mode : DeploymentMode} {j : Json} {t : Topology}
    (h : Topology.empty.loadStaticTopologyFromFile mode j = .ok t) (env : CollectorEnv)
    (c : Collector) (steps : List LinkStep) (e : LinkStep) :
    UsageSound env (GuardedRun.run (step env) ⟨c, t⟩ steps) e := by
  refine usageSound_of_bounded ?_ e
  exact GuardedRun.run_of_step (fun s : LinkMonitor => ∀ d, Bounded (s.topology.links d)) bounded_step
    (bounded_load h) steps

/-- A collector of the testbed whose clock shows one second more at every reading. -/
def testbedEnv : CollectorEnv where
  mode := .testbed
  lookupOfport n := n
  pathKnown _ _ := false
  steadyClock n := 1000 * (n + 1)
  systemClock _ := 0

/-- The port of the first switch of `twoWayLink`, by its address. -/
def port1 : AgentKey := { agentIP := 0x0100000A, interfacePort := 1 }

/-- A counter sample of that port. -/
def counterOf (interfaceSpeed inputOctets outputOctets : UInt64) : LinkStep :=
  .sample port1.agentIP (.counter port1.interfacePort interfaceSpeed inputOctets outputOctets)

/-- Two counter samples, and the rate of a flow sample after them. -/
theorem usage_sound_twoWayLink : ∃ t,
    Topology.empty.loadStaticTopologyFromFile .testbed twoWayLink = .ok t ∧
    UsageSound testbedEnv (GuardedRun.run (step testbedEnv) ⟨{}, t⟩
      [counterOf 1000000000 0 0, counterOf 1000000000 125 250]) (.rateUpdate port1 8000 1) :=
  exists_load_twoWayLink.imp fun _ h => ⟨h, usage_sound h _ _ _ _⟩

end LinkMonitor

end Ndtwin.Kernel

import Ndtwin.Spec.LinkRatesCorrect
import Ndtwin.Spec.LinkUsageCorrect

/-!
# Divisions by the bandwidth of a link

The interval of a counter sample is tested before it divides, and so is the interval of the rate
loop. The speed of the interface is taken from the sample as it is, divides at once, and stays in
the edge, where it divides again when a flow sample comes.

## Key results

- `collector_datagram`: a datagram as the sequence of its samples
- `divisors_iff`: when no division of a run is by zero
-/

namespace Ndtwin.Kernel.LinkMonitor

open SFlow Collector TopologyFile Spec

/-! ## Datagrams -/

/-- What reaches the links. -/
inductive LinkEvent where
  | datagram (buffer : List UInt8)
  | rateUpdate (key : AgentKey) (estimatedIn : UInt64) (elapsed : Int)
  deriving DecidableEq, Repr

/-- The loop over the samples of the datagram runs past its end. -/
def isTruncated (env : CollectorEnv) (buffer : List UInt8) : Bool :=
  ((decodeDatagram env buffer {}).bind LoopEnd.truncated).isSome

/-- A datagram sample by sample. -/
def datagramSteps (env : CollectorEnv) (buffer : List UInt8) : List LinkStep :=
  (datagramSamples env buffer).2.map (.sample (datagramSamples env buffer).1) ++
    if isTruncated env buffer then [.malformed] else []

def LinkEvent.steps (env : CollectorEnv) : LinkEvent → List LinkStep
  | .datagram buffer => datagramSteps env buffer
  | .rateUpdate key estimatedIn elapsed => [.rateUpdate key estimatedIn elapsed]

section Datagrams

variable (env : CollectorEnv) (agentIp : UInt32)

/-- The collector after some samples does not depend on the topology. -/
theorem collector_run_samples (events : List SampleEvent) (s : LinkMonitor) :
    (GuardedRun.run (step env) s (events.map (.sample agentIp))).collector =
      events.foldl (fun c event => c.applySample env agentIp event) s.collector := by
  induction events generalizing s with
  | nil => rfl
  | cons event events ih =>
    rw [List.map_cons, GuardedRun.run_cons, ih, List.foldl_cons]
    rfl

/-- Where the loop breaks off depends on the datagram only. -/
theorem truncated_sampleLoop (words : List UInt32) (remaining : Nat) (index previousIndex : UInt32)
    (c c' : Collector) :
    (sampleLoop env agentIp words remaining index previousIndex c).truncated =
      (sampleLoop env agentIp words remaining index previousIndex c').truncated := by
  induction remaining generalizing index previousIndex c c' with
  | zero => rfl
  | succ remaining ih =>
    unfold sampleLoop
    split
    · rfl
    · split
      · rfl
      · cases decodeSample env.mode (sampleReader words index) with
        | error e => rfl
        | ok outcome =>
          obtain ⟨event, _ | advance⟩ := outcome
          · rfl
          · exact ih _ _ _ _

/-- After the samples of a datagram the collector is what `handlePacket` leaves. -/
theorem collector_datagram (buffer : List UInt8) (s : LinkMonitor) :
    (GuardedRun.run (step env) s (datagramSteps env buffer)).collector =
      s.collector.handlePacket env buffer := by
  rw [datagramSteps, GuardedRun.run_append]
  unfold isTruncated handlePacket
  cases decodeDatagram_cases env buffer with
  | inl hnone =>
    rw [hnone.1, hnone.1, hnone.2]
    rfl
  | inr hloop =>
    obtain ⟨agentIp, words, n, hdecode, hsamples⟩ := hloop
    have hcollector := collector_run_samples env agentIp (loopSamples env words n 7 0) s
    rw [← collector_sampleLoop env agentIp words n 7 0 s.collector] at hcollector
    rw [hdecode, hdecode, hsamples, Option.bind_some]
    dsimp only
    rw [truncated_sampleLoop env agentIp words n 7 0 {} s.collector, ← hcollector]
    cases (sampleLoop env agentIp words n 7 0 s.collector).truncated with
    | none => rfl
    | some _ => rfl

end Datagrams

/-! ## Divisors -/

section Divisors

variable {env : CollectorEnv}

/-- A counter sample that updates a link knows the speed of its interface. -/
def SpeedKnown (env : CollectorEnv) (s : LinkMonitor) : LinkStep → Prop
  | .sample agentIp (.counter interfaceIndex interfaceSpeed inputOctets outputOctets) =>
    s.Reports env agentIp interfaceIndex inputOctets outputOctets →
      (s.topology.linkEnds ⟨agentIp, interfaceIndex⟩).isSome = true → interfaceSpeed ≠ 0
  | .sample _ (.flow _) | .sample _ .skipped | .malformed | .rateUpdate _ _ _ => True

/-- Every link has a bandwidth. -/
def Known (s : LinkMonitor) : Prop := ∀ d, (s.topology.links d).linkBandwidth ≠ 0

/-- No division of the step is by zero. -/
def Divides (env : CollectorEnv) (s : LinkMonitor) (e : LinkStep) : Prop :=
  ∀ n ∈ s.divisors env e, n ≠ 0

instance (env : CollectorEnv) (s : LinkMonitor) (e : LinkStep) : Decidable (Divides env s e) :=
  inferInstanceAs (Decidable (∀ n ∈ s.divisors env e, n ≠ 0))

theorem toNat_ne_zero {n : UInt64} : (n.toNat : Int) ≠ 0 ↔ n ≠ 0 := by
  rw [Ne, Int.natCast_eq_zero, ← UInt64.toNat_zero, UInt64.toNat_inj]

theorem divides_counter_iff (s : LinkMonitor) (agentIp interfaceIndex : UInt32)
    (interfaceSpeed inputOctets outputOctets : UInt64) :
    Divides env s (.sample agentIp
        (.counter interfaceIndex interfaceSpeed inputOctets outputOctets)) ↔
      SpeedKnown env s (.sample agentIp
        (.counter interfaceIndex interfaceSpeed inputOctets outputOctets)) := by
  have hinterval : ∀ n ∈ (if s.Compares env agentIp interfaceIndex then
      (if inputOctets ≥ (s.lastReport agentIp interfaceIndex).lastReceivedInputOctets then
        [s.interval env agentIp interfaceIndex] else []) ++
      (if outputOctets ≥ (s.lastReport agentIp interfaceIndex).lastReceivedOutputOctets then
        [s.interval env agentIp interfaceIndex] else [])
      else []), n ≠ 0 := by
    intro n hn
    split at hn
    · next hcompares =>
      have heq : n = s.interval env agentIp interfaceIndex := by
        cases List.mem_append.mp hn with
        | inl h =>
          split at h
          · exact List.mem_singleton.mp h
          · cases h
        | inr h =>
          split at h
          · exact List.mem_singleton.mp h
          · cases h
      exact heq ▸ hcompares.2.1
    · cases hn
  -- The interval was tested before, so what is left is the speed of the sample.
  rw [Divides, SpeedKnown, divisors, List.forall_mem_append, and_iff_right hinterval,
    calls_counter]
  by_cases hreports : s.Reports env agentIp interfaceIndex inputOctets outputOctets
  · rw [if_pos hreports, List.flatMap_singleton, callDivisors]
    by_cases hends : (s.topology.linkEnds ⟨agentIp, interfaceIndex⟩).isSome = true
    · rw [if_pos hends]
      simp only [List.mem_cons, List.not_mem_nil, or_false, or_self, forall_eq, toNat_ne_zero,
        hreports, hends, forall_const]
    · rw [if_neg hends]
      exact iff_of_true (fun n hn => absurd hn List.not_mem_nil) fun _ h => absurd h hends
  · rw [if_neg hreports]
    exact iff_of_true (fun n hn => absurd hn List.not_mem_nil) fun h => absurd h hreports

theorem divides_iff {s : LinkMonitor} (h : s.Known) (e : LinkStep) :
    Divides env s e ↔ SpeedKnown env s e := by
  cases e with
  | sample agentIp event =>
    cases event with
    | counter interfaceIndex interfaceSpeed inputOctets outputOctets =>
      exact divides_counter_iff s _ _ _ _ _
    | flow f => exact iff_of_true (fun n hn => absurd hn List.not_mem_nil) trivial
    | skipped => exact iff_of_true (fun n hn => absurd hn List.not_mem_nil) trivial
  | malformed => exact iff_of_true (fun n hn => absurd hn List.not_mem_nil) trivial
  | rateUpdate key estimatedIn elapsed =>
    refine iff_of_true (fun n hn => ?_) trivial
    rw [divisors] at hn
    split at hn
    · next hpositive =>
      cases List.mem_cons.mp hn with
      | inl heq => exact heq ▸ hpositive.ne'
      | inr hmem =>
        obtain ⟨edge, -, rfl⟩ := Option.map_eq_some_iff.mp (Option.mem_toList.mp hmem)
        exact toNat_ne_zero.mpr (h edge)
    · cases hn

/-- A link keeps a bandwidth when no sample brings a speed of zero. -/
theorem known_step {s : LinkMonitor} {e : LinkStep} (h : s.Known) (he : SpeedKnown env s e) :
    (s.step env e).Known := by
  intro d
  cases e with
  | sample agentIp event =>
    rw [step]
    dsimp only
    cases @foldl_calls env s agentIp event with
    | inl hnone =>
      rw [hnone.1]
      exact h d
    | inr hone =>
      obtain ⟨interfaceIndex, interfaceSpeed, _, _, leftIn, leftOut, rfl, hreports, hin, hout,
        hcalls⟩ := hone
      rw [hcalls, List.foldl_cons, List.foldl_nil, call]
      -- An updated edge takes the speed of the sample for its bandwidth.
      cases @links_updateLinkInfo s.topology ⟨agentIp, interfaceIndex⟩ leftIn leftOut
          interfaceSpeed hin hout d with
      | inl hsame =>
        rw [hsame.1]
        exact h d
      | inr hupdate =>
        rw [hupdate.2.1]
        exact he hreports hupdate.2.2
  | malformed => exact h d
  | rateUpdate key estimatedIn elapsed =>
    rw [step]
    dsimp only
    unfold Topology.updateLinkInfoLeftLinkBandwidth
    split
    · split
      · exact h d
      · next edge _ =>
        rw [links_updateLink]
        split
        · exact h edge
        · exact h d
    · exact h d

end Divisors

/-! ## Every run -/

/-- Every link of the file has a bandwidth. -/
def FileKnown (j : Json) : Prop :=
  ∀ entries, readEntries readEdge j "edges" = .ok entries → ∀ e ∈ entries, e.linkBandwidth ≠ 0

theorem known_load {mode : DeploymentMode} {j : Json} {t : Topology}
    (h : Topology.empty.loadStaticTopologyFromFile mode j = .ok t) (hfile : FileKnown j)
    (c : Collector) : Known ⟨c, t⟩ := by
  obtain ⟨nodes, entries, -, hentries, rfl⟩ := Topology.exists_of_loadStaticTopologyFromFile h
  have hdefault : ({} : LinkInfo).linkBandwidth ≠ 0 := by decide
  exact links_foldl (fun l => l.linkBandwidth ≠ 0) entries (fun _ => hdefault)
    (hfile entries hentries)

/-- In a run from a loaded topology whose links have a bandwidth, no division is by zero exactly if
    every counter sample that updates a link knows the speed of its interface. -/
theorem divisors_iff {mode : DeploymentMode} {j : Json} {t : Topology}
    (h : Topology.empty.loadStaticTopologyFromFile mode j = .ok t) (hfile : FileKnown j)
    (env : CollectorEnv) (c : Collector) (events : List LinkEvent) :
    GuardedRun.Guarded (step env) (Divides env) ⟨c, t⟩ (events.flatMap (LinkEvent.steps env)) ↔
      GuardedRun.Guarded (step env) (SpeedKnown env) ⟨c, t⟩
        (events.flatMap (LinkEvent.steps env)) :=
  GuardedRun.guarded_congr Known (fun _ e hs => divides_iff hs e)
    (fun _ _ hs he => known_step hs he) (known_load h hfile c) _

/-- A counter sample, in the form of type 4, of port 1 of the first switch of `twoWayLink`. -/
def counterWords (interfaceSpeed : UInt32) : List UInt32 :=
  ([4, 112, 0, 0, 1, 1, 1, 88, 1, 6, 0, interfaceSpeed, 1, 3] ++ List.replicate 16 0).map
    Words.ntohl

/-- A datagram with that sample. -/
def counterDatagram (interfaceSpeed : UInt32) : LinkEvent :=
  .datagram (datagram { agentHeader with agentIp := port1.agentIP } [counterWords interfaceSpeed])

/-- The second of two samples with the speed of the link. -/
theorem knownSpeed_divides : ∃ t,
    Topology.empty.loadStaticTopologyFromFile .testbed twoWayLink = .ok t ∧
    (GuardedRun.Guarded (step testbedEnv) (Divides testbedEnv) ⟨{}, t⟩
        ([counterDatagram 1000000000, counterDatagram 1000000000].flatMap
          (LinkEvent.steps testbedEnv)) ↔
      GuardedRun.Guarded (step testbedEnv) (SpeedKnown testbedEnv) ⟨{}, t⟩
        ([counterDatagram 1000000000, counterDatagram 1000000000].flatMap
          (LinkEvent.steps testbedEnv))) := by
  obtain ⟨t, h⟩ := exists_load_twoWayLink
  refine ⟨t, h, divisors_iff h (fun entries hentries => ?_) _ _ _⟩
  have hall : ∀ entries ∈ (readEntries readEdge twoWayLink "edges").toOption,
      ∀ e ∈ entries, e.linkBandwidth ≠ 0 := by decide +kernel
  rw [hentries] at hall
  exact hall entries rfl

/-- The second of two samples that do not know the speed divides by zero. -/
theorem unknownSpeed_divides : ∃ t,
    Topology.empty.loadStaticTopologyFromFile .testbed twoWayLink = .ok t ∧
    ¬GuardedRun.Guarded (step testbedEnv) (Divides testbedEnv) ⟨{}, t⟩
      ([counterDatagram 0, counterDatagram 0].flatMap (LinkEvent.steps testbedEnv)) :=
  ⟨_, rfl, by decide +kernel⟩

end Ndtwin.Kernel.LinkMonitor

import Ndtwin.ForStd.Run
import Ndtwin.Kernel.ImmediateRates
import Ndtwin.Spec.LinkRatesCorrect
import Ndtwin.Spec.SlidingWindowCorrect

/-!
# Immediate rates

The rates of a flow are what is left in the windows of its agents, divided by the agents that had a
sample in their queue before the windows were refreshed. So an agent that has gone quiet counts once
more in the divisor.

## Key results

- `refresh_eq`: a refresh keeps the samples inside the window
- `hopTotals_eq`: what the loop over the agents adds up
- `ordered_run`: the windows of every run are in order
- `immediate_rates_iff`: when the rates are those of the agents with a sample in the window
-/

namespace Ndtwin.Kernel

open SFlow Collector

namespace SFlow

/-! ## Windows -/

/-- The sample is inside the window that ends at `now`. -/
def ExtractedSFlowData.Inside (now : Int) (sample : ExtractedSFlowData) : Prop :=
  now - sample.timestampInMilliseconds ≤ timeUnitInterval

instance (now : Int) : DecidablePred (ExtractedSFlowData.Inside now) := fun sample =>
  inferInstanceAs (Decidable (now - sample.timestampInMilliseconds ≤ timeUnitInterval))

/-- The bytes of some samples. -/
def byteSum (samples : List ExtractedSFlowData) : UInt64 :=
  (samples.map fun sample => sample.packetFrameLengthInByte.toUInt64).sum

/-- A queue in order: its sum is that of its samples, and they are in the order of their times. -/
structure AutoRefreshQueue.Ordered (q : AutoRefreshQueue) : Prop where
  sum : q.sum = byteSum q.queue
  sorted : q.queue.Pairwise fun a b => a.timestampInMilliseconds ≤ b.timestampInMilliseconds

/-- The samples of a queue inside the window. -/
def AutoRefreshQueue.inside (now : Int) (q : AutoRefreshQueue) : List ExtractedSFlowData :=
  q.queue.filter fun sample => sample.Inside now

theorem byteSum_eq (samples : List ExtractedSFlowData) :
    byteSum samples = UInt64.ofNat (AutoRefreshQueue.totalBytes samples) := by
  induction samples with
  | nil => rfl
  | cons sample samples ih =>
    rw [AutoRefreshQueue.totalBytes_cons, UInt64.ofNat_add, AutoRefreshQueue.ofNat_length, ← ih]
    rw [byteSum, List.map_cons, List.sum_cons, byteSum]

/-- A refresh keeps the samples inside the window. -/
theorem refresh_eq {q : AutoRefreshQueue} (h : q.Ordered) (now : Int) :
    q.refresh now = { queue := q.inside now, sum := byteSum (q.inside now) } := by
  rw [AutoRefreshQueue.refresh, h.sum, byteSum_eq, byteSum_eq]
  exact AutoRefreshQueue.dropStale_eq_fresh now h.sorted

theorem AutoRefreshQueue.Ordered.refresh {q : AutoRefreshQueue} (h : q.Ordered) (now : Int) :
    (q.refresh now).Ordered := by
  rw [refresh_eq h]
  exact ⟨rfl, h.sorted.sublist List.filter_sublist⟩

/-- A sample that is not older than those in the queue. -/
theorem AutoRefreshQueue.Ordered.append {q : AutoRefreshQueue} (h : q.Ordered)
    {sample : ExtractedSFlowData}
    (hsample : ∀ s ∈ q.queue, s.timestampInMilliseconds ≤ sample.timestampInMilliseconds) :
    ({ queue := q.queue ++ [sample]
       sum := q.sum + sample.packetFrameLengthInByte.toUInt64 } : AutoRefreshQueue).Ordered := by
  constructor
  · dsimp only
    rw [h.sum, byteSum, byteSum, List.map_append, List.sum_append, List.map_singleton,
      List.sum_singleton]
  · refine List.pairwise_append.mpr ⟨h.sorted, List.pairwise_singleton _ _, ?_⟩
    intro s hs s' hs'
    obtain rfl := List.mem_singleton.mp hs'
    exact hsample s hs

/-! ## The loop over the agents -/

/-- The agent has a sample in its queue. -/
def FlowStats.IsQueued (stats : FlowStats) : Prop := stats.packetQueue.queue ≠ []

/-- The agent has a sample inside its window. -/
def FlowStats.IsLive (now : Int) (stats : FlowStats) : Prop := stats.packetQueue.inside now ≠ []

instance : DecidablePred FlowStats.IsQueued := fun stats =>
  inferInstanceAs (Decidable (stats.packetQueue.queue ≠ []))

instance (now : Int) : DecidablePred (FlowStats.IsLive now) := fun stats =>
  inferInstanceAs (Decidable (stats.packetQueue.inside now ≠ []))

/-- The bytes inside the window, scaled by the sampling rate. -/
def FlowStats.windowBytes (now : Int) (stats : FlowStats) : UInt64 :=
  byteSum (stats.packetQueue.inside now) * stats.currentSamplingRate

/-- The packets inside the window, scaled by the sampling rate. -/
def FlowStats.windowPackets (now : Int) (stats : FlowStats) : UInt64 :=
  UInt64.ofNat (stats.packetQueue.inside now).length * stats.currentSamplingRate

theorem FlowStats.IsLive.isQueued {now : Int} {stats : FlowStats} (h : stats.IsLive now) :
    stats.IsQueued := by
  intro hempty
  rw [IsLive, AutoRefreshQueue.inside, hempty] at h
  exact h rfl

theorem windowBytes_of_not_isLive {now : Int} {stats : FlowStats} (h : ¬stats.IsLive now) :
    stats.windowBytes now = 0 := by
  rw [FlowStats.windowBytes, not_not.mp h]
  exact UInt64.zero_mul

theorem windowPackets_of_not_isLive {now : Int} {stats : FlowStats} (h : ¬stats.IsLive now) :
    stats.windowPackets now = 0 := by
  rw [FlowStats.windowPackets, not_not.mp h]
  exact UInt64.zero_mul

theorem size_ne_zero_iff {stats : FlowStats} : stats.packetQueue.size ≠ 0 ↔ stats.IsQueued :=
  List.length_eq_zero_iff.not

theorem add_eq {stats : FlowStats} (h : stats.packetQueue.Ordered) (totals : HopTotals)
    (now : Int) :
    totals.add now stats =
      { accumulatedEstimatedBytes := totals.accumulatedEstimatedBytes + stats.windowBytes now
        accumulatedEstimatedPackets :=
          totals.accumulatedEstimatedPackets + stats.windowPackets now
        hopsCounter := totals.hopsCounter + if stats.IsQueued then 1 else 0 } := by
  rw [HopTotals.add]
  by_cases hqueued : stats.IsQueued
  · rw [if_pos (size_ne_zero_iff.mpr hqueued), if_pos hqueued, refresh_eq h]
    rfl
  · have hlive : ¬stats.IsLive now := fun hlive => hqueued hlive.isQueued
    rw [if_neg (size_ne_zero_iff.not.mpr hqueued), if_neg hqueued, windowBytes_of_not_isLive hlive,
      windowPackets_of_not_isLive hlive, UInt64.add_zero, UInt64.add_zero, Int.add_zero]

/-- The agents with a sample in their queue. -/
def queuedAgents (pairs : List (AgentKey × FlowStats)) : List (AgentKey × FlowStats) :=
  pairs.filter fun p => p.2.IsQueued

/-- The agents with a sample inside their window. -/
def liveAgents (now : AgentKey → Int) (pairs : List (AgentKey × FlowStats)) :
    List (AgentKey × FlowStats) :=
  pairs.filter fun p => p.2.IsLive (now p.1)

/-- The bytes inside the windows of some agents. -/
def agentBytes (now : AgentKey → Int) (pairs : List (AgentKey × FlowStats)) : UInt64 :=
  (pairs.map fun p => p.2.windowBytes (now p.1)).sum

/-- The packets inside the windows of some agents. -/
def agentPackets (now : AgentKey → Int) (pairs : List (AgentKey × FlowStats)) : UInt64 :=
  (pairs.map fun p => p.2.windowPackets (now p.1)).sum

section Agents

variable {now : AgentKey → Int}

/-- The loop adds up all windows, and counts the agents with a sample in their queue. -/
theorem foldl_add_eq {pairs : List (AgentKey × FlowStats)}
    (h : ∀ p ∈ pairs, p.2.packetQueue.Ordered) (totals : HopTotals) :
    pairs.foldl (fun totals p => totals.add (now p.1) p.2) totals =
      { accumulatedEstimatedBytes := totals.accumulatedEstimatedBytes + agentBytes now pairs
        accumulatedEstimatedPackets := totals.accumulatedEstimatedPackets + agentPackets now pairs
        hopsCounter := totals.hopsCounter + (queuedAgents pairs).length } := by
  induction pairs generalizing totals with
  | nil =>
    obtain ⟨bytes, packets, hops⟩ := totals
    simp [agentBytes, agentPackets, queuedAgents]
  | cons p pairs ih =>
    have hcount : ((queuedAgents (p :: pairs)).length : Int) =
        (if p.2.IsQueued then 1 else 0) + (queuedAgents pairs).length := by
      unfold queuedAgents
      rw [List.filter_cons]
      by_cases hqueued : p.2.IsQueued
      · rw [if_pos (decide_eq_true hqueued), if_pos hqueued, List.length_cons]
        omega
      · rw [if_neg (by simpa using hqueued), if_neg hqueued]
        omega
    rw [List.foldl_cons, ih (fun q hq => h q (List.mem_cons_of_mem p hq)),
      add_eq (h p List.mem_cons_self), hcount]
    simp only [agentBytes, agentPackets, List.map_cons, List.sum_cons, UInt64.add_assoc,
      Int.add_assoc]

/-- Agents without a sample inside their window add nothing. -/
theorem agentBytes_liveAgents (pairs : List (AgentKey × FlowStats)) :
    agentBytes now (liveAgents now pairs) = agentBytes now pairs :=
  List.sum_map_filter fun _ _ hlive => windowBytes_of_not_isLive (of_decide_eq_false hlive)

theorem agentPackets_liveAgents (pairs : List (AgentKey × FlowStats)) :
    agentPackets now (liveAgents now pairs) = agentPackets now pairs :=
  List.sum_map_filter fun _ _ hlive => windowPackets_of_not_isLive (of_decide_eq_false hlive)

theorem liveAgents_queuedAgents (pairs : List (AgentKey × FlowStats)) :
    liveAgents now (queuedAgents pairs) = liveAgents now pairs := by
  unfold liveAgents queuedAgents
  rw [List.filter_filter]
  refine List.filter_congr fun p _ => ?_
  rw [Bool.eq_iff_iff, Bool.and_eq_true, decide_eq_true_eq, decide_eq_true_eq]
  exact and_iff_left_of_imp FlowStats.IsLive.isQueued

/-- As many agents are queued as are live exactly if all that are queued are live. -/
theorem length_queuedAgents_eq_iff (pairs : List (AgentKey × FlowStats)) :
    (queuedAgents pairs).length = (liveAgents now pairs).length ↔
      ∀ p ∈ pairs, p.2.IsQueued → p.2.IsLive (now p.1) := by
  rw [← liveAgents_queuedAgents, eq_comm, liveAgents, List.length_filter_eq_length_iff]
  simp only [queuedAgents, List.mem_filter, decide_eq_true_eq, and_imp]

end Agents

/-! ## One flow -/

/-- The immediate rates of a flow are those of the agents with a sample inside their window. -/
structure Averages (now : AgentKey → Int) (info info' : FlowInfo) : Prop where
  /-- No other agent counts in the divisor. -/
  divisor : (info.hopTotals now).hopsCounter =
    (liveAgents now info.agentFlowStats.toPairs).length
  byteRate : liveAgents now info.agentFlowStats.toPairs ≠ [] →
    info'.estimatedFlowSendingRateImmediately =
      agentBytes now (liveAgents now info.agentFlowStats.toPairs) * 8 /
        UInt64.ofNat (liveAgents now info.agentFlowStats.toPairs).length
  packetRate : liveAgents now info.agentFlowStats.toPairs ≠ [] →
    info'.estimatedPacketSendingRateImmediately =
      agentPackets now (liveAgents now info.agentFlowStats.toPairs) /
        UInt64.ofNat (liveAgents now info.agentFlowStats.toPairs).length
  cleared : liveAgents now info.agentFlowStats.toPairs = [] →
    info'.estimatedFlowSendingRateImmediately = 0 ∧
      info'.estimatedPacketSendingRateImmediately = 0 ∧ info'.isElephantFlowImmediately = false

/-- The windows of a flow are in order. -/
def FlowInfo.Ordered (info : FlowInfo) : Prop :=
  ∀ p ∈ info.agentFlowStats.toPairs, p.2.packetQueue.Ordered

theorem hopTotals_eq {info : FlowInfo} (h : info.Ordered) (now : AgentKey → Int) :
    info.hopTotals now =
      { accumulatedEstimatedBytes := agentBytes now (liveAgents now info.agentFlowStats.toPairs)
        accumulatedEstimatedPackets :=
          agentPackets now (liveAgents now info.agentFlowStats.toPairs)
        hopsCounter := (queuedAgents info.agentFlowStats.toPairs).length } := by
  rw [FlowInfo.hopTotals, foldl_add_eq h, agentBytes_liveAgents, agentPackets_liveAgents]
  dsimp only
  rw [UInt64.zero_add, UInt64.zero_add, Int.zero_add]

theorem computeEstimatedRates_of_pos {n : Nat} (h : n ≠ 0) (bytes packets : UInt64) :
    computeEstimatedRates bytes packets n =
      { flowSendingRate := bytes / UInt64.ofNat n
        packetSendingRate := packets / UInt64.ofNat n
        hasActiveHops := true } := by
  rw [computeEstimatedRates, if_neg (by omega)]
  have hcast : UInt64.ofInt (n : Int) = UInt64.ofNat n := by
    rw [UInt64.ofInt, ← UInt64.toNat_inj, UInt64.toNat_ofNat', UInt64.toNat_ofNat']
    omega
  rw [hcast]

/-- The rates of a flow are those of its live agents exactly if every agent with a sample in its
    queue has one inside its window. -/
theorem averages_iff {info : FlowInfo} (h : info.Ordered) (now : AgentKey → Int) :
    Averages now info (info.estimateImmediately now) ↔
      ∀ p ∈ info.agentFlowStats.toPairs, p.2.IsQueued → p.2.IsLive (now p.1) := by
  rw [← length_queuedAgents_eq_iff]
  constructor
  · -- The divisor counts the live hops, and the average asks for the queued ones.
    intro haverages
    have hdivisor := haverages.divisor
    rw [hopTotals_eq h] at hdivisor
    exact Int.ofNat_inj.mp hdivisor
  · intro hlength
    have htotals := hopTotals_eq h now
    rw [hlength] at htotals
    -- Without a live hop nothing is divided, and both rates are zero.
    by_cases hlive : liveAgents now info.agentFlowStats.toPairs = []
    · have hnone : info.estimateImmediately now = { info with
          agentFlowStats := info.agentFlowStats.mapVals fun key => FlowStats.refreshed (now key)
          estimatedFlowSendingRateImmediately := 0
          estimatedPacketSendingRateImmediately := 0
          isElephantFlowImmediately := false } := by
        rw [FlowInfo.estimateImmediately, htotals, hlive]
        rfl
      rw [hnone]
      exact ⟨by rw [htotals], fun hne => absurd hlive hne, fun hne => absurd hlive hne,
        fun _ => ⟨rfl, rfl, rfl⟩⟩
    · have hpos : (liveAgents now info.agentFlowStats.toPairs).length ≠ 0 :=
        List.length_eq_zero_iff.not.mpr hlive
      refine ⟨by rw [htotals], fun _ => ?_, fun _ => ?_, fun hnone => absurd hnone hlive⟩
      · rw [FlowInfo.estimateImmediately, htotals]
        dsimp only
        rw [computeEstimatedRates_of_pos hpos]
        rfl
      · rw [FlowInfo.estimateImmediately, htotals]
        dsimp only
        rw [computeEstimatedRates_of_pos hpos]
        rfl

end SFlow

/-! ## The flow table -/

namespace Collector

/-- The windows of the flow table are in order. -/
def Ordered (c : Collector) : Prop :=
  ∀ key info, c.flowInfoTable.lookup key = some info → info.Ordered

/-! ## Runs -/

/-- The steady clock does not go back. -/
def Steady (env : CollectorEnv) : Prop :=
  ∀ ⦃n m⦄, n ≤ m → env.steadyClock n ≤ env.steadyClock m

/-- A queue in order whose samples are not later than a reading of the clock. -/
structure WindowAt (env : CollectorEnv) (n : Nat) (q : AutoRefreshQueue) : Prop where
  ordered : q.Ordered
  taken : ∀ sample ∈ q.queue, sample.timestampInMilliseconds ≤ env.steadyClock n

/-- The windows of the flow table are in order, and not ahead of the clock. -/
def Timely (env : CollectorEnv) (c : Collector) : Prop :=
  ∀ key info, c.flowInfoTable.lookup key = some info →
    ∀ agent stats, info.agentFlowStats.lookup agent = some stats →
      WindowAt env c.steadyReadings stats.packetQueue

theorem Timely.orderedTable {env : CollectorEnv} {c : Collector} (h : Timely env c) :
    c.Ordered := by
  rintro key info hinfo ⟨agent, stats⟩ hp
  exact (h key info hinfo agent stats (AssocMap.mem_toPairs.mp hp)).ordered

theorem windowAt_empty (env : CollectorEnv) (n : Nat) : WindowAt env n {} :=
  ⟨⟨rfl, .nil⟩, fun _ h => absurd h List.not_mem_nil⟩

section Clock

variable {env : CollectorEnv} (hclock : Steady env)
include hclock

theorem WindowAt.mono {n m : Nat} (hle : n ≤ m) {q : AutoRefreshQueue} (h : WindowAt env n q) :
    WindowAt env m q :=
  ⟨h.ordered, fun sample hsample => (h.taken sample hsample).trans (hclock hle)⟩

omit hclock in
theorem WindowAt.refresh {n : Nat} {q : AutoRefreshQueue} (h : WindowAt env n q) (now : Int) :
    WindowAt env n (q.refresh now) := by
  refine ⟨h.ordered.refresh now, fun sample hsample => ?_⟩
  rw [refresh_eq h.ordered] at hsample
  exact h.taken sample (List.mem_of_mem_filter hsample)

/-- A frame is pushed with two readings of the clock. -/
theorem windowAt_pushFrame (stats : FlowStats) (frameLength : UInt32) (c : Collector)
    (h : WindowAt env c.steadyReadings stats.packetQueue) :
    WindowAt env (pushFrame env stats frameLength c).2.steadyReadings
      (pushFrame env stats frameLength c).1.packetQueue := by
  have happend : WindowAt env (c.steadyReadings + 2)
      { queue := stats.packetQueue.queue ++ [⟨frameLength, env.steadyClock c.steadyReadings⟩],
        sum := stats.packetQueue.sum + frameLength.toUInt64 } := by
    refine ⟨h.ordered.append h.taken, fun sample hsample => ?_⟩
    have hlater : env.steadyClock c.steadyReadings ≤ env.steadyClock (c.steadyReadings + 2) :=
      hclock (Nat.le_add_right _ _)
    cases List.mem_append.mp hsample with
    | inl hold => exact (h.taken sample hold).trans hlater
    | inr hnew => exact List.mem_singleton.mp hnew ▸ hlater
  exact happend.refresh _

theorem Timely.frame {c c' : Collector} (h : Timely env c)
    (htable : c'.flowInfoTable = c.flowInfoTable)
    (hreadings : c.steadyReadings ≤ c'.steadyReadings) : Timely env c' := by
  intro key info hinfo agent stats hstats
  rw [htable] at hinfo
  exact (h key info hinfo agent stats hstats).mono hclock hreadings

/-- One agent of one flow gets a new window. -/
theorem Timely.insert {c c' : Collector} (h : Timely env c)
    (hreadings : c.steadyReadings ≤ c'.steadyReadings) {key : SFlow.FlowKey} {info info' : FlowInfo}
    {agent : AgentKey} {stats : FlowStats}
    (htable : c'.flowInfoTable = c.flowInfoTable.insert key info')
    (hagents : info'.agentFlowStats = info.agentFlowStats.insert agent stats)
    (hinfo : c.flowInfoTable.lookup key = some info ∨ info.agentFlowStats = ∅)
    (hstats : WindowAt env c'.steadyReadings stats.packetQueue) : Timely env c' := by
  intro key' info'' hinfo'' agent' stats' hstats'
  rw [htable, AssocMap.lookup_insert_eq] at hinfo''
  split at hinfo''
  · obtain rfl := Option.some.inj hinfo''
    rw [hagents, AssocMap.lookup_insert_eq] at hstats'
    split at hstats'
    · obtain rfl := Option.some.inj hstats'
      exact hstats
    · cases hinfo with
      | inl hold => exact (h key info hold agent' stats' hstats').mono hclock hreadings
      | inr hnone =>
        rw [hnone] at hstats'
        cases hstats'
  · exact (h key' info'' hinfo'' agent' stats' hstats').mono hclock hreadings

omit hclock in
theorem packetQueue_addFrame (stats : FlowStats) (isIngress : Bool) (frameLength : UInt32) :
    (addFrame stats isIngress frameLength).packetQueue = stats.packetQueue := by
  unfold addFrame
  split <;> rfl

omit hclock in
theorem packetQueue_startFrame (stats : FlowStats) (isIngress : Bool) (frameLength : UInt32) :
    (startFrame stats isIngress frameLength).packetQueue = stats.packetQueue := by
  unfold startFrame
  split <;> rfl

theorem timely_updateFlowTable (key : SFlow.FlowKey) (agentKey : AgentKey) (isIngress : Bool)
    (s : FlowSample) {c : Collector} (h : Timely env c) :
    Timely env (updateFlowTable env key agentKey isIngress s c) := by
  unfold updateFlowTable
  cases hinfo : c.flowInfoTable.lookup key with
  | some info =>
    dsimp only
    have hold : WindowAt env c.steadyReadings
        ((info.agentFlowStats.lookup agentKey).getD {}).packetQueue := by
      cases hstats : info.agentFlowStats.lookup agentKey with
      | none => exact windowAt_empty env _
      | some stats => exact h key info hinfo agentKey stats hstats
    refine h.insert hclock (Nat.le_add_right _ 2) rfl rfl (.inl hinfo) ?_
    refine windowAt_pushFrame hclock _ s.frameLength c ?_
    rw [packetQueue_addFrame]
    exact hold
  | none =>
    dsimp only
    refine @Timely.insert env hclock c _ h (Nat.le_add_right _ 2) key {} _ agentKey _ rfl rfl
      (.inr rfl) ?_
    refine windowAt_pushFrame hclock _ s.frameLength _ ?_
    rw [packetQueue_startFrame]
    exact windowAt_empty env _

theorem timely_applyCounter (agentIp index : UInt32) (speed input output : UInt64)
    {c : Collector} (h : Timely env c) :
    Timely env (applyCounter env agentIp index speed input output c) := by
  unfold applyCounter
  cases env.mode with
  | mininet => exact h
  | testbed =>
    dsimp only [readSteadyClock]
    split
    · exact h.frame hclock rfl (Nat.le_add_right _ 1)
    · exact h.frame hclock rfl (Nat.le_add_right _ 1)

theorem timely_applyFlow (agentIp : UInt32) (s : FlowSample) {c : Collector} (h : Timely env c) :
    Timely env (applyFlow env agentIp s c) := by
  unfold applyFlow
  dsimp only
  split
  · refine Timely.frame hclock ?_ rfl (Nat.le_refl _)
    unfold applyTracked
    dsimp only
    -- the banks come before the flow table, and the calls to the topology after it
    have hbanked : ∀ {c' : Collector}, c'.flowInfoTable = c.flowInfoTable →
        c'.steadyReadings = c.steadyReadings → Timely env c' :=
      fun htable hreadings => h.frame hclock htable hreadings.ge
    split
    · refine Timely.frame hclock (timely_updateFlowTable hclock _ _ _ s ?_) rfl (Nat.le_refl _)
      split
      · exact hbanked rfl rfl
      · exact h
    · refine timely_updateFlowTable hclock _ _ _ s ?_
      split
      · exact hbanked rfl rfl
      · exact h
  · exact h.frame hclock rfl (Nat.le_refl _)

theorem timely_applySample (agentIp : UInt32) (event : SampleEvent) {c : Collector}
    (h : Timely env c) : Timely env (applySample env agentIp event c) := by
  cases event with
  | counter index speed input output => exact timely_applyCounter hclock _ _ _ _ _ h
  | flow s => exact timely_applyFlow hclock _ s h
  | skipped => exact h

theorem timely_handlePacket (buffer : List UInt8) {c : Collector} (h : Timely env c) :
    Timely env (c.handlePacket env buffer) :=
  Spec.handlePacket_induction (fun agentIp event _ hc => timely_applySample hclock agentIp event hc)
    (fun _ _ hc => hc.frame hclock rfl (Nat.le_refl _)) buffer h

omit hclock in
theorem agentFlowStats_estimateImmediately (now : AgentKey → Int) (info : FlowInfo) :
    (info.estimateImmediately now).agentFlowStats =
      info.agentFlowStats.mapVals fun key => FlowStats.refreshed (now key) := by
  unfold FlowInfo.estimateImmediately
  dsimp only
  split <;> rfl

omit hclock in
/-- The pass over the flows refreshes windows. -/
theorem timely_immediate (now : SFlow.FlowKey → AgentKey → Int) {c : Collector}
    (h : Timely env c) : Timely env (c.calAvgFlowSendingRatesImmediately now) := by
  intro key info' hinfo' agent stats' hstats'
  rw [calAvgFlowSendingRatesImmediately] at hinfo'
  dsimp only at hinfo'
  rw [AssocMap.lookup_mapVals] at hinfo'
  obtain ⟨info, hinfo, rfl⟩ := Option.map_eq_some_iff.mp hinfo'
  rw [agentFlowStats_estimateImmediately, AssocMap.lookup_mapVals] at hstats'
  obtain ⟨stats, hstats, rfl⟩ := Option.map_eq_some_iff.mp hstats'
  have hwindow := h key info hinfo agent stats hstats
  unfold FlowStats.refreshed
  split
  · exact hwindow.refresh _
  · exact hwindow

end Clock

/-- What changes the flow table. -/
inductive FlowTableEvent where
  | handlePacket (buffer : List UInt8)
  | immediate (now : SFlow.FlowKey → AgentKey → Int)
  /-- An idle flow is erased. -/
  | erase (key : SFlow.FlowKey)

def FlowTableEvent.apply (env : CollectorEnv) (c : Collector) : FlowTableEvent → Collector
  | .handlePacket buffer => c.handlePacket env buffer
  | .immediate now => c.calAvgFlowSendingRatesImmediately now
  | .erase key => { c with flowInfoTable := c.flowInfoTable.erase key }

theorem timely_apply {env : CollectorEnv} (hclock : Steady env) (c : Collector)
    (event : FlowTableEvent) (h : Timely env c) : Timely env (event.apply env c) := by
  cases event with
  | handlePacket buffer => exact timely_handlePacket hclock buffer h
  | immediate now => exact timely_immediate now h
  | erase key =>
    intro key' info hinfo
    have hne : key' ≠ key := by
      rintro rfl
      rw [FlowTableEvent.apply] at hinfo
      dsimp only at hinfo
      rw [AList.lookup_erase] at hinfo
      cases hinfo
    rw [FlowTableEvent.apply] at hinfo
    dsimp only at hinfo
    rw [AList.lookup_erase_ne hne] at hinfo
    exact h key' info hinfo

/-- With a steady clock, the windows of every run are in order. -/
theorem ordered_run {env : CollectorEnv} (hclock : Steady env)
    (events : List FlowTableEvent) :
    (GuardedRun.run (FlowTableEvent.apply env) {} events).Ordered := by
  have hstart : Timely env {} := by
    intro key info hinfo
    cases hinfo
  exact (GuardedRun.run_of_step (Timely env) (timely_apply hclock) hstart events).orderedTable

/-! ## The pass over the flows -/

/-- For every flow, the rates are those of the agents with a sample inside their window exactly if
    every agent with a sample in its queue has one inside its window. -/
theorem immediate_rates_iff {c : Collector} (h : c.Ordered)
    (now : SFlow.FlowKey → AgentKey → Int) (key : SFlow.FlowKey) (info : FlowInfo)
    (hinfo : c.flowInfoTable.lookup key = some info) :
    ∃ info', (c.calAvgFlowSendingRatesImmediately now).flowInfoTable.lookup key = some info' ∧
      (Averages (now key) info info' ↔
        ∀ agent stats, info.agentFlowStats.lookup agent = some stats →
          stats.IsQueued → stats.IsLive (now key agent)) := by
  refine ⟨info.estimateImmediately (now key), ?_, ?_⟩
  · rw [calAvgFlowSendingRatesImmediately, AssocMap.lookup_mapVals, hinfo]
    rfl
  · rw [averages_iff (h key info hinfo)]
    constructor
    · intro hall agent stats hstats
      exact hall (agent, stats) (AssocMap.mem_toPairs.mpr hstats)
    · rintro hall ⟨agent, stats⟩ hp
      exact hall agent stats (AssocMap.mem_toPairs.mp hp)

/-- The steady clock is 600 ms later at each reading. -/
def slowClock : CollectorEnv := { Spec.mininetEnv with steadyClock := fun n => 600 * n }

theorem steady_slowClock : Steady slowClock := by
  intro n m hle
  show (600 * n : Int) ≤ 600 * m
  omega

/-- An agent reports a UDP packet of 1000 bytes, sampled at a rate of 1. -/
def report (agentIp : UInt32) : FlowTableEvent :=
  .handlePacket (datagram { Spec.agentHeader with agentIp := agentIp } [Spec.forwardedSample])

/-- The flow of that packet. -/
def udpFlow : SFlow.FlowKey where
  srcIP := 0x0100000a
  dstIP := 0x0200000a
  srcPort := 53
  dstPort := 53
  protocol := 17

/-- What the table holds of that flow. -/
def udpFlowInfo (c : Collector) : FlowInfo := (c.flowInfoTable.lookup udpFlow).getD {}

theorem lookup_udpFlow {c : Collector} (h : (c.flowInfoTable.lookup udpFlow).isSome) :
    c.flowInfoTable.lookup udpFlow = some (udpFlowInfo c) :=
  (Option.getD_of_ne_none (Option.isSome_iff_ne_none.mp h) {}).symm

/-- An agent reports at 0 ms. -/
def oneReport : Collector := GuardedRun.run (FlowTableEvent.apply slowClock) {} [report 1]

/-- At 1000 ms the rates are those of this agent. -/
theorem oneReport_averages :
    ∃ info', (oneReport.calAvgFlowSendingRatesImmediately fun _ _ => 1000).flowInfoTable.lookup
        udpFlow = some info' ∧ Averages (fun _ => 1000) (udpFlowInfo oneReport) info' := by
  obtain ⟨info', hinfo', hiff⟩ := immediate_rates_iff (ordered_run steady_slowClock [report 1])
    (fun _ _ => 1000) udpFlow (udpFlowInfo oneReport) (lookup_udpFlow (by decide +kernel))
  refine ⟨info', hinfo', hiff.mpr fun agent stats hstats _ => ?_⟩
  have hlive : ∀ p ∈ (udpFlowInfo oneReport).agentFlowStats.toPairs, p.2.IsLive 1000 := by
    decide +kernel
  exact hlive (agent, stats) (AssocMap.mem_toPairs.mpr hstats)

/-- Another agent reports at 1200 ms. -/
def twoReports : Collector :=
  GuardedRun.run (FlowTableEvent.apply slowClock) {} [report 1, report 2]

/-- At 2000 ms the report of the first agent has left its window, but the agent is still counted:
    the rate is 4000 bit/s and not 8000. -/
theorem quietAgent_counted :
    ¬∀ (now : SFlow.FlowKey → AgentKey → Int) (key : SFlow.FlowKey) (info info' : FlowInfo),
      twoReports.flowInfoTable.lookup key = some info →
      (twoReports.calAvgFlowSendingRatesImmediately now).flowInfoTable.lookup key = some info' →
      Averages (now key) info info' := by
  intro hall
  have haverages := hall (fun _ _ => 2000) udpFlow _ _ (lookup_udpFlow (by decide +kernel))
    (lookup_udpFlow (by decide +kernel))
  have hrate := haverages.byteRate (by decide +kernel)
  revert hrate
  decide +kernel

end Collector

end Ndtwin.Kernel

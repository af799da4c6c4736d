import Ndtwin.ForStd.List
import Ndtwin.Kernel.FlowLinkUsageCollector

/-!
# Flow Sample Effects

What one flow sample does to the collector in Mininet, where interface indices are ports: its
bytes, scaled by the sampling rate, go to the ingress bank of its input port and to the egress
bank of its output port, and its flow gets a record under the input port. A bank is read
through `byteCredit` and the flow table through `recordOf`, each of which changes only at the
keys of the sample.

## Key results

- `byteCredit_bank`, `recordOf_updateFlowTable`: one write, read at any key
- `byteCredit_applyFlow`, `byteCredit_egress_applyFlow`, `recordOf_applyFlow`: one sample
-/

namespace Ndtwin.Kernel.Collector

open SFlow

/-! ## Views -/

/-- The bytes in a bank; a key without an entry has none. -/
def byteCredit (reports : AssocMap AgentKey CounterInfo) (key : AgentKey) : UInt64 :=
  ((reports.lookup key).getD {}).inputByteCountOnALinkMultiplySampingRate

/-- What the flow table holds of a flow that entered at a port. -/
structure FlowRecord where
  bytes : UInt64
  packets : UInt64
  samplingRate : UInt32
  deriving DecidableEq, Repr

/-- The part of the statistics that a record is made of. -/
def recordOfStats (stats : FlowStats) : FlowRecord where
  bytes := stats.ingressByteCountCurrent
  packets := stats.ingresspacketCountCurrent
  samplingRate := stats.samplingRate

/-- The record of a flow at a port. -/
def recordOf (table : AssocMap SFlow.FlowKey FlowInfo) (key : SFlow.FlowKey)
    (agentKey : AgentKey) : Option FlowRecord :=
  ((table.lookup key).bind fun info => info.agentFlowStats.lookup agentKey).map recordOfStats

/-- A record with one more frame. -/
def FlowRecord.push (record : Option FlowRecord) (frameLength : UInt64) (samplingRate : UInt32) :
    FlowRecord where
  bytes := ((record.map FlowRecord.bytes).getD 0) + frameLength
  packets := ((record.map FlowRecord.packets).getD 0) + 1
  samplingRate := samplingRate

/-! ## One write -/

theorem byteCredit_bank (reports : AssocMap AgentKey CounterInfo) (key key' : AgentKey)
    (bytes : UInt64) :
    byteCredit (bank reports key bytes) key' =
      if key' = key then byteCredit reports key' + bytes else byteCredit reports key' := by
  unfold byteCredit bank
  simp only
  rw [AssocMap.lookup_insert_eq]
  by_cases hkey : key' = key
  · subst hkey
    rw [if_pos rfl, if_pos rfl, Option.getD_some]
  · rw [if_neg hkey, if_neg hkey]

/-- One entry of the flow table is written, and in it the record of one port. -/
theorem updateFlowTable_spec (env : CollectorEnv) (key : SFlow.FlowKey) (agentKey : AgentKey)
    (s : FlowSample) (c : Collector) :
    ∃ info,
      (updateFlowTable env key agentKey true s c).flowInfoTable =
        c.flowInfoTable.insert key info ∧
      ∀ agentKey', (info.agentFlowStats.lookup agentKey').map recordOfStats =
        if agentKey' = agentKey then
          some (FlowRecord.push (recordOf c.flowInfoTable key agentKey') s.frameLength.toUInt64
            s.samplingRate)
        else recordOf c.flowInfoTable key agentKey' := by
  unfold recordOf
  cases hinfo : c.flowInfoTable.lookup key with
  | some info =>
    unfold updateFlowTable
    simp only [hinfo]
    refine ⟨_, rfl, fun agentKey' => ?_⟩
    rw [Option.bind_some, AssocMap.lookup_insert_eq]
    by_cases hkey : agentKey' = agentKey
    · subst hkey
      rw [if_pos rfl, if_pos rfl]
      cases info.agentFlowStats.lookup agentKey' with
      | none => rfl
      | some stats => rfl
    · rw [if_neg hkey, if_neg hkey]
  | none =>
    unfold updateFlowTable
    simp only [hinfo]
    refine ⟨_, rfl, fun agentKey' => ?_⟩
    rw [Option.bind_none, AssocMap.lookup_insert_eq]
    by_cases hkey : agentKey' = agentKey
    · -- a new flow starts its counts where an existing one adds to 0
      rw [if_pos hkey, if_pos hkey]
      simp [FlowRecord.push, recordOfStats, pushFrame, startFrame, readSteadyClock]
    · rw [if_neg hkey, if_neg hkey]
      rfl

/-- The record of any flow at any port after a frame that entered at a port. -/
theorem recordOf_updateFlowTable (env : CollectorEnv) (key key' : SFlow.FlowKey)
    (agentKey agentKey' : AgentKey) (s : FlowSample) (c : Collector) :
    recordOf (updateFlowTable env key agentKey true s c).flowInfoTable key' agentKey' =
      if key = key' ∧ agentKey = agentKey' then
        some (FlowRecord.push (recordOf c.flowInfoTable key' agentKey') s.frameLength.toUInt64
          s.samplingRate)
      else recordOf c.flowInfoTable key' agentKey' := by
  obtain ⟨info, htable, hrecord⟩ := updateFlowTable_spec env key agentKey s c
  rw [htable, recordOf, AssocMap.lookup_insert_eq]
  by_cases hkey : key' = key
  · subst hkey
    rw [if_pos rfl, Option.bind_some, hrecord]
    simp [eq_comm]
  · rw [if_neg hkey, if_neg (fun h => hkey h.1.symm), recordOf]

theorem mem_updateFlowTable (env : CollectorEnv) (key key' : SFlow.FlowKey)
    (agentKey : AgentKey) (s : FlowSample) (c : Collector) :
    key' ∈ (updateFlowTable env key agentKey true s c).flowInfoTable ↔
      key' ∈ c.flowInfoTable ∨ key = key' := by
  obtain ⟨info, htable, -⟩ := updateFlowTable_spec env key agentKey s c
  rw [htable, AList.mem_insert, or_comm, eq_comm]

/-- The flow table is written, the clocks are read, and nothing else changes. -/
theorem updateFlowTable_frame (env : CollectorEnv) (key : SFlow.FlowKey) (agentKey : AgentKey)
    (isIngress : Bool) (s : FlowSample) (c : Collector) :
    (updateFlowTable env key agentKey isIngress s c).counterReports = c.counterReports ∧
    (updateFlowTable env key agentKey isIngress s c).egressCounterReports =
      c.egressCounterReports ∧
    (updateFlowTable env key agentKey isIngress s c).malformedDatagrams =
      c.malformedDatagrams := by
  unfold updateFlowTable
  split
  · exact ⟨rfl, rfl, rfl⟩
  · exact ⟨rfl, rfl, rfl⟩

/-! ## One sample -/

/-- The bytes a sample stands for. -/
def sampledBytes (s : FlowSample) : UInt64 := s.frameLength.toUInt64 * s.samplingRate.toUInt64

section Mininet

variable {env : CollectorEnv} (hmode : env.mode = .mininet) (hports : ∀ n, env.lookupOfport n = n)
  (agentIp : UInt32) {s : FlowSample} (htracked : s.isTracked = true) (hinput : s.inputPort ≠ 0)

include hmode hports htracked hinput

/-- A tracked sample with an input port, in parts. -/
theorem applyFlow_eq (c : Collector) :
    ∃ calls : List TopologyCall, applyFlow env agentIp s c =
      { updateFlowTable env (flowKeyOf s) ⟨agentIp, s.inputPort⟩ true s
          { c with
            counterReports := bank c.counterReports ⟨agentIp, s.inputPort⟩ (sampledBytes s)
            egressCounterReports :=
              if s.outputPort ≠ 0 then
                bank c.egressCounterReports ⟨agentIp, s.outputPort⟩ (sampledBytes s)
              else c.egressCounterReports } with
        addresedSampleNum := (updateFlowTable env (flowKeyOf s) ⟨agentIp, s.inputPort⟩ true s
          { c with
            counterReports := bank c.counterReports ⟨agentIp, s.inputPort⟩ (sampledBytes s)
            egressCounterReports :=
              if s.outputPort ≠ 0 then
                bank c.egressCounterReports ⟨agentIp, s.outputPort⟩ (sampledBytes s)
              else c.egressCounterReports }).addresedSampleNum + 1
        topologyCalls := calls } := by
  unfold applyFlow applyTracked
  simp only [htracked, hmode, hports, hinput, if_true, ne_eq, not_false_eq_true, decide_true,
    true_and]
  split
  · exact ⟨_, rfl⟩
  · exact ⟨_, rfl⟩

theorem malformedDatagrams_applyFlow (c : Collector) :
    (applyFlow env agentIp s c).malformedDatagrams = c.malformedDatagrams := by
  obtain ⟨calls, heq⟩ := applyFlow_eq hmode hports agentIp htracked hinput c
  rw [heq]
  exact (updateFlowTable_frame _ _ _ _ _ _).2.2

theorem byteCredit_applyFlow (c : Collector) (key : AgentKey) :
    byteCredit (applyFlow env agentIp s c).counterReports key =
      if (⟨agentIp, s.inputPort⟩ : AgentKey) = key then
        byteCredit c.counterReports key + sampledBytes s
      else byteCredit c.counterReports key := by
  obtain ⟨calls, heq⟩ := applyFlow_eq hmode hports agentIp htracked hinput c
  rw [heq]
  show byteCredit (updateFlowTable _ _ _ _ _ _).counterReports key = _
  rw [(updateFlowTable_frame _ _ _ _ _ _).1, byteCredit_bank]
  simp only [eq_comm]

theorem byteCredit_egress_applyFlow (c : Collector) (key : AgentKey) :
    byteCredit (applyFlow env agentIp s c).egressCounterReports key =
      if (⟨agentIp, s.outputPort⟩ : AgentKey) = key ∧ s.outputPort ≠ 0 then
        byteCredit c.egressCounterReports key + sampledBytes s
      else byteCredit c.egressCounterReports key := by
  obtain ⟨calls, heq⟩ := applyFlow_eq hmode hports agentIp htracked hinput c
  rw [heq]
  show byteCredit (updateFlowTable _ _ _ _ _ _).egressCounterReports key = _
  rw [(updateFlowTable_frame _ _ _ _ _ _).2.1]
  show byteCredit (if s.outputPort ≠ 0 then _ else _) key = _
  by_cases houtput : s.outputPort = 0
  · rw [if_neg (not_not.mpr houtput), if_neg fun h => h.2 houtput]
  · rw [if_pos houtput, byteCredit_bank]
    simp only [eq_comm, houtput, ne_eq, not_false_eq_true, and_true]

theorem recordOf_applyFlow (c : Collector) (key : SFlow.FlowKey) (agentKey : AgentKey) :
    recordOf (applyFlow env agentIp s c).flowInfoTable key agentKey =
      if flowKeyOf s = key ∧ (⟨agentIp, s.inputPort⟩ : AgentKey) = agentKey then
        some (FlowRecord.push (recordOf c.flowInfoTable key agentKey) s.frameLength.toUInt64
          s.samplingRate)
      else recordOf c.flowInfoTable key agentKey := by
  obtain ⟨calls, heq⟩ := applyFlow_eq hmode hports agentIp htracked hinput c
  rw [heq]
  exact recordOf_updateFlowTable _ _ _ _ _ _ _

theorem mem_applyFlow (c : Collector) (key : SFlow.FlowKey) :
    key ∈ (applyFlow env agentIp s c).flowInfoTable ↔ key ∈ c.flowInfoTable ∨ flowKeyOf s = key := by
  obtain ⟨calls, heq⟩ := applyFlow_eq hmode hports agentIp htracked hinput c
  rw [heq]
  exact mem_updateFlowTable _ _ _ _ _ _

end Mininet

end Ndtwin.Kernel.Collector

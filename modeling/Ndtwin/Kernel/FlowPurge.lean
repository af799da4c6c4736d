import Ndtwin.Kernel.FlowLinkUsageCollector

/-!
# Purging idle flows

`src/ndt_core/collection/FlowLinkUsageCollector.cpp`: `purgeIdleFlows` next to the workers that
run `handlePacket`. A pass of the purge lists the idle flows under one lock section and erases
each of them under a section of its own; the flow-table part of a sample is one section as well.
Between any two sections the other thread can run. The system clock does not go back.
-/

namespace Ndtwin.Kernel

/-- `FLOW_IDLE_TIMEOUT`, in milliseconds. -/
def flowIdleTimeout : Int := 15000

/-- Where `purgeIdleFlows` stands: between two passes, or with flows left to erase. -/
inductive PurgePhase where
  | sleeping
  | erasing (toRemove : List SFlow.FlowKey)
  deriving DecidableEq, Repr

/-- The collector with its purge thread. -/
structure PurgeSystem where
  collector : Collector := {}
  /-- The system clock, in milliseconds. -/
  now : Int := 0
  phase : PurgePhase := .sleeping
  /-- When a flow was sampled last; observed, no code reads it. -/
  latestSample : SFlow.FlowKey → Option Int := fun _ => none

inductive PurgeEvent where
  | tick (millis : Nat)
  /-- A worker gets to the flow-table section of a sample. -/
  | sample (agentIp : UInt32) (event : SampleEvent)
  /-- The section of a pass that lists the idle flows. -/
  | list
  /-- The section that erases the next listed flow. -/
  | erase
  deriving DecidableEq, Repr

/-- The test of `purgeIdleFlows`. -/
def SFlow.FlowInfo.isIdle (info : SFlow.FlowInfo) (now : Int) : Bool :=
  if now ≤ info.endTime then false else flowIdleTimeout ≤ now - info.endTime

/-- `toRemove` -/
def Collector.idleFlows (c : Collector) (now : Int) : List SFlow.FlowKey :=
  (c.flowInfoTable.toPairs.filter fun p => p.2.isIdle now).map Prod.fst

/-- The flow that a sample updates. -/
def SampleEvent.flow? : SampleEvent → Option SFlow.FlowKey
  | .flow s => if s.isTracked then some (Collector.flowKeyOf s) else none
  | .counter _ _ _ _ | .skipped => none

namespace PurgeSystem

/-- The flows that the pass has listed and not erased yet. -/
def pending (s : PurgeSystem) : List SFlow.FlowKey :=
  match s.phase with
  | .sleeping => []
  | .erasing toRemove => toRemove

/-- One section; a section that its thread is not at leaves the state. -/
def step (env : CollectorEnv) (s : PurgeSystem) : PurgeEvent → PurgeSystem
  | .tick millis => { s with now := s.now + millis }
  | .sample agentIp event =>
    { s with
      collector := s.collector.applySample { env with systemClock := fun _ => s.now } agentIp event
      latestSample := fun key =>
        if event.flow? = some key then some s.now else s.latestSample key }
  | .list =>
    match s.phase with
    | .sleeping => { s with phase := .erasing (s.collector.idleFlows s.now) }
    | .erasing _ => s
  | .erase =>
    match s.phase with
    | .sleeping => s
    | .erasing [] => { s with phase := .sleeping }
    | .erasing (key :: rest) =>
      { s with
        collector := { s.collector with
          flowInfoTable := s.collector.flowInfoTable.erase key }
        phase := .erasing rest }

/-- The event takes the flow out of the flow table. -/
def Removes (env : CollectorEnv) (s : PurgeSystem) (event : PurgeEvent) (key : SFlow.FlowKey) :
    Prop :=
  key ∈ s.collector.flowInfoTable ∧ key ∉ (s.step env event).collector.flowInfoTable

end PurgeSystem

end Ndtwin.Kernel

import Ndtwin.ForStd.LastSeen
import Ndtwin.Kernel.LinkRates

/-!
# The flow sets of the edges

`src/ndt_core/collection/TopologyAndFlowMonitor.cpp`: a sample of a flow touches the edge it
crossed (`touchEdgeFlow`), and `flushEdgeFlowLoop` erases what was not touched for two seconds. Both
hold the graph lock, so each is one step. The collector's calls are those that `handlePacket`
records.

The clock is the sequence of the readings of `Clock::now()`, in nanoseconds.
-/

namespace Ndtwin.Kernel

open SFlow

/-- `findReverseEdgeByAgentIpAndPort`: the other direction of the first edge of the port. -/
def Graph.findReverseEdgeByAgentIpAndPort (g : Graph) (key : AgentKey) : Option EdgeDesc :=
  match g.edges.find? fun e => leavesPort key e.props with
  | some e => (g.edges.find? fun r =>
      r.desc.source = e.desc.target ∧ r.desc.target = e.desc.source).map Edge.desc
  | none => none

/-- The flow sets of the edges, and how often the clock was read. -/
structure EdgeFlows where
  flowSets : AssocMap EdgeDesc (LastSeen SFlow.FlowKey) := ∅
  readings : Nat := 0
  /-- A history that no step reads: the touches, with their times. -/
  touched : List (EdgeDesc × SFlow.FlowKey × Int) := []

namespace EdgeFlows

/-- `(*m_graph)[e].flowSet`; an edge that was never touched has none. -/
def flowSet (s : EdgeFlows) (e : EdgeDesc) : LastSeen SFlow.FlowKey := (s.flowSets.lookup e).getD ∅

/-- The time after which a flow is flushed: two seconds. -/
def flowTtl : Int := 2000000000

section Steps

variable (clock : Nat → Int) (g : Graph)

/-- `touchEdgeFlow` -/
def touchEdgeFlow (s : EdgeFlows) (e : EdgeDesc) (key : SFlow.FlowKey) : EdgeFlows :=
  let now := clock s.readings
  { flowSets := s.flowSets.insert e ((s.flowSet e).insert key now)
    readings := s.readings + 1
    touched := s.touched ++ [(e, key, now)] }

/-- The edge that a call of the collector touches. -/
def edgeOf : TopologyCall → Option (EdgeDesc × SFlow.FlowKey)
  | .updateLinkInfo .. => none
  | .touchReverseEdge key flow => (g.findReverseEdgeByAgentIpAndPort key).map fun e => (e, flow)
  | .touchEdgeToHost key flow => (g.findEdgeToHostByAgentIpAndPort key).map fun e => (e, flow)
  | .touchEdge key flow => (g.findEdgeByAgentIpAndPort key).map fun e => (e, flow)

/-- A call of the collector. -/
def call (s : EdgeFlows) (c : TopologyCall) : EdgeFlows :=
  match edgeOf g c with
  | some (e, key) => s.touchEdgeFlow clock e key
  | none => s

/-- The inner loop of `flushEdgeFlowLoop`: the clock is read for every flow of the edge. -/
def flushEdge (s : EdgeFlows) (e : EdgeDesc) : EdgeFlows :=
  { s with
    flowSets := s.flowSets.insert e (LastSeen.prune clock flowTtl s.readings (s.flowSet e))
    readings := s.readings + (s.flowSet e).toPairs.length }

/-- A pass of `flushEdgeFlowLoop`. -/
def flush (s : EdgeFlows) : EdgeFlows := (g.edges.map Edge.desc).foldl (flushEdge clock) s

inductive Event where
  | call (c : TopologyCall)
  | flush

def step (s : EdgeFlows) : Event → EdgeFlows
  | .call c => s.call clock g c
  | .flush => s.flush clock g

end Steps

/-- When a flow last touched an edge. -/
def lastTouch (s : EdgeFlows) (e : EdgeDesc) (key : SFlow.FlowKey) : Option Int :=
  ((s.touched.filter fun t => t.1 = e ∧ t.2.1 = key).getLast?).map fun t => t.2.2

end EdgeFlows

end Ndtwin.Kernel

import Ndtwin.Kernel.FlowLinkUsageCollector
import Ndtwin.Kernel.Graph

/-!
# Link rates from flow samples

`src/ndt_core/collection/FlowLinkUsageCollector.cpp`: `handlePacket` banks the scaled bytes of
every sample, and the rate loop, `calAvgFlowSendingRatesPeriodically`, drains the banks about once a
second into the usage of the links. The ingress banks are drained in the loop itself and the egress
banks by `creditHostBoundEgressEdges`, each under a lock section of its own.

The lookups and the write are those of `TopologyAndFlowMonitor.cpp`. What an edge then shows is
the bytes over the interval, in floating point; here a publication keeps both.
-/

namespace Ndtwin.Kernel

open SFlow

/-! ## The topology -/

/-- `front()` of the addresses of an end. A topology file can leave them empty at an edge of a
    switch, for which C++ leaves `front()` undefined; that no edge has an empty end is assumed,
    and the value here is none that the source promises. -/
def front (ips : List UInt32) : UInt32 := ips.headD 0

namespace Graph

/-- The edge leaves this port of this agent. -/
def leavesPort (key : AgentKey) (e : EdgeProperties) : Bool :=
  front e.srcIp = key.agentIP ∧ e.srcInterface = key.interfacePort

/-- `findEdgeByAgentIpAndPort` -/
def findEdgeByAgentIpAndPort (g : Graph) (key : AgentKey) : Option EdgeDesc :=
  g.findEdge (leavesPort key)

/-- `findEdgeToHostByAgentIpAndPort`: only the first edge of the port is looked at. -/
def findEdgeToHostByAgentIpAndPort (g : Graph) (key : AgentKey) : Option EdgeDesc :=
  match g.edges.find? fun e => leavesPort key e.props with
  | some e => if e.props.dstDpid = 0 then some e.desc else none
  | none => none

/-- `getAgentKeyFromTheOtherSide` -/
def getAgentKeyFromTheOtherSide (g : Graph) (key : AgentKey) : Option AgentKey :=
  (g.edges.find? fun e => front e.props.dstIp = key.agentIP ∧
    e.props.dstInterface = key.interfacePort).map fun e =>
      { agentIP := front e.props.srcIp, interfacePort := e.props.srcInterface }

end Graph

/-- What is written to an edge: bytes, and the nanoseconds in which they came. -/
structure Publication where
  edge : EdgeDesc
  bytes : UInt64
  elapsed : Nat
  deriving DecidableEq, Repr

/-- `updateLinkInfoLeftLinkBandwidth`: nothing for an interval that is not positive or a port
    without an edge. -/
def Graph.updateLinkInfoLeftLinkBandwidth (g : Graph) (key : AgentKey) (bytes : UInt64)
    (elapsed : Nat) : Option Publication :=
  if 0 < elapsed then
    (g.findEdgeByAgentIpAndPort key).map fun edge =>
      { edge := edge, bytes := bytes, elapsed := elapsed }
  else none

/-! ## Drains -/

/-- A bank after its bytes were taken. -/
def SFlow.CounterInfo.zeroed (value : CounterInfo) : CounterInfo :=
  { value with inputByteCountOnALinkMultiplySampingRate := 0 }

namespace Collector

/-- The drain of the ingress banks in `calAvgFlowSendingRatesPeriodically`. -/
def drainIngressBanks (env : CollectorEnv) (g : Graph) (elapsed : Nat) (c : Collector) :
    Collector × List Publication :=
  if env.mode = .mininet then
    ({ c with counterReports := c.counterReports.mapVals fun key value =>
        match g.getAgentKeyFromTheOtherSide key with
        -- "Other Side Agent Miss": the loop goes on to the next entry
        | none => value
        | some _ => value.zeroed },
      c.counterReports.toPairs.filterMap fun p =>
        match g.getAgentKeyFromTheOtherSide p.1 with
        | none => none
        | some other => g.updateLinkInfoLeftLinkBandwidth other
            p.2.inputByteCountOnALinkMultiplySampingRate elapsed)
  else (c, [])

/-- `creditHostBoundEgressEdges` -/
def creditHostBoundEgressEdges (g : Graph) (elapsed : Nat) (c : Collector) :
    Collector × List Publication :=
  ({ c with egressCounterReports := c.egressCounterReports.mapVals fun _ value => value.zeroed },
    c.egressCounterReports.toPairs.filterMap fun p =>
      if (g.findEdgeToHostByAgentIpAndPort p.1).isSome then
        g.updateLinkInfoLeftLinkBandwidth p.1 p.2.inputByteCountOnALinkMultiplySampingRate elapsed
      else none)

end Collector

/-! ## Runs -/

/-- Where a sample crossed the switch. -/
inductive BankSide where
  | ingress
  | egress
  deriving DecidableEq, Repr

/-- The banks of a side. -/
def Collector.banks (c : Collector) : BankSide → AssocMap AgentKey CounterInfo
  | .ingress => c.counterReports
  | .egress => c.egressCounterReports

inductive RateEvent where
  | handlePacket (buffer : List UInt8)
  /-- The drain of one side, with the topology of that moment and the interval since the last
      iteration of the loop, in which it slept for a second. -/
  | drain (side : BankSide) (graph : Graph) (elapsed : Nat) (positive : 0 < elapsed)

namespace RateEvent

/-- One event: the collector after it, and what it published. -/
def apply (env : CollectorEnv) (c : Collector) : RateEvent → Collector × List Publication
  | .handlePacket buffer => (c.handlePacket env buffer, [])
  | .drain .ingress graph elapsed _ => c.drainIngressBanks env graph elapsed
  | .drain .egress graph elapsed _ => c.creditHostBoundEgressEdges graph elapsed

/-- The collector after a run from the start. -/
def run (env : CollectorEnv) (events : List RateEvent) : Collector :=
  events.foldl (fun c event => (event.apply env c).1) {}

end RateEvent

end Ndtwin.Kernel

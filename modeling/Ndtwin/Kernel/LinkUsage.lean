import Ndtwin.Kernel.LinkRates
import Ndtwin.Kernel.TopologyFile

/-!
# The usage of the links

`src/ndt_core/collection/TopologyAndFlowMonitor.cpp`: the two functions that write the bandwidths
of an edge, `updateLinkInfo` for a counter sample and `updateLinkInfoLeftLinkBandwidth` for the
bytes of flow samples. The counter branch of `handlePacket` in `FlowLinkUsageCollector.cpp` calls
the first one.

The utilization of an edge is a floating-point number that nothing modelled reads. It is left out,
but not the divisions by which it is computed.
-/

namespace Ndtwin.Kernel

open SFlow

/-! ## Writes -/

/-- What `updateLinkInfo` writes to an edge. -/
def LinkInfo.counted (left interfaceSpeed : UInt64) (l : LinkInfo) : LinkInfo :=
  { l with
    leftBandwidth := left
    linkBandwidthUsage := interfaceSpeed - left
    linkBandwidth := interfaceSpeed }

/-- `leftIn` of `updateLinkInfoLeftLinkBandwidth` -/
def LinkInfo.leftIn (estimatedIn : UInt64) (l : LinkInfo) : UInt64 :=
  if estimatedIn > l.linkBandwidth then 0 else l.linkBandwidth - estimatedIn

/-- What `updateLinkInfoLeftLinkBandwidth` writes to an edge. -/
def LinkInfo.sampled (estimatedIn : UInt64) (l : LinkInfo) : LinkInfo :=
  let leftIn := l.leftIn estimatedIn
  { l with
    leftBandwidthFromFlowSample := leftIn
    -- `leftIn` never exceeds the bandwidth, but the source guards this subtraction as well.
    linkBandwidthUsage := if leftIn > l.linkBandwidth then 0 else l.linkBandwidth - leftIn }

namespace Topology

/-- `(*m_graph)[edge]` written through. -/
def updateLink (t : Topology) (edge : EdgeDesc) (f : LinkInfo → LinkInfo) : Topology :=
  { t with links := Function.update t.links edge (f (t.links edge)) }

/-- The edge of a port and its reverse edge, the one that leaves the port at the other end. -/
def linkEnds (t : Topology) (key : AgentKey) : Option (EdgeDesc × EdgeDesc) := do
  let edge ← t.graph.findEdgeByAgentIpAndPort key
  let props ← t.graph.propsOf edge
  let revEdge ← t.graph.findEdgeByAgentIpAndPort
    { agentIP := front props.dstIp, interfacePort := props.dstInterface }
  return (edge, revEdge)

/-- `updateLinkInfo` -/
def updateLinkInfo (t : Topology) (key : AgentKey) (leftIn leftOut interfaceSpeed : UInt64) :
    Topology :=
  match t.linkEnds key with
  | none => t
  | some (edge, revEdge) =>
    -- The edge leaves the port and takes what goes out, its reverse what comes in.
    (t.updateLink edge (.counted leftOut interfaceSpeed)).updateLink revEdge
      (.counted leftIn interfaceSpeed)

/-- `updateLinkInfoLeftLinkBandwidth`, once the bytes and the seconds have been made a rate: an
    interval that is not positive changes nothing. -/
def updateLinkInfoLeftLinkBandwidth (t : Topology) (key : AgentKey) (estimatedIn : UInt64)
    (elapsed : Int) : Topology :=
  if 0 < elapsed then
    match t.graph.findEdgeByAgentIpAndPort key with
    | none => t
    | some edge => t.updateLink edge (.sampled estimatedIn)
  else t

end Topology

/-! ## Steps -/

/-- The collector, and the topology that it writes to. -/
structure LinkMonitor where
  collector : Collector
  topology : Topology

inductive LinkStep where
  /-- One sample of a datagram. -/
  | sample (agentIp : UInt32) (event : SampleEvent)
  /-- The end of a datagram that broke off. -/
  | malformed
  /-- One bank drained by the rate loop: the rate of its bytes, and the interval. -/
  | rateUpdate (key : AgentKey) (estimatedIn : UInt64) (elapsed : Int)
  deriving DecidableEq, Repr

namespace LinkMonitor

/-- A call of the collector, as far as it changes the bandwidths. -/
def call (t : Topology) : TopologyCall → Topology
  | .updateLinkInfo key leftIn leftOut interfaceSpeed =>
    t.updateLinkInfo key leftIn leftOut interfaceSpeed
  | .touchReverseEdge _ _ | .touchEdgeToHost _ _ | .touchEdge _ _ => t

/-- The calls that a sample makes. -/
def calls (env : CollectorEnv) (s : LinkMonitor) (agentIp : UInt32) (event : SampleEvent) :
    List TopologyCall :=
  (s.collector.applySample env agentIp event).topologyCalls.drop s.collector.topologyCalls.length

def step (env : CollectorEnv) (s : LinkMonitor) : LinkStep → LinkMonitor
  | .sample agentIp event =>
    { collector := s.collector.applySample env agentIp event
      topology := (s.calls env agentIp event).foldl call s.topology }
  | .malformed =>
    { s with collector := { s.collector with
        malformedDatagrams := s.collector.malformedDatagrams + 1 } }
  | .rateUpdate key estimatedIn elapsed =>
    { s with topology := s.topology.updateLinkInfoLeftLinkBandwidth key estimatedIn elapsed }

/-! ## The arithmetic of a step -/

/-- The last report of a port. -/
def lastReport (s : LinkMonitor) (agentIp interfaceIndex : UInt32) : CounterInfo :=
  (s.collector.counterReports.lookup ⟨agentIp, interfaceIndex⟩).getD {}

/-- `interval` of a counter sample, in whole seconds. -/
def interval (env : CollectorEnv) (s : LinkMonitor) (agentIp interfaceIndex : UInt32) : Int :=
  (env.steadyClock s.collector.steadyReadings -
    (s.lastReport agentIp interfaceIndex).lastReportTimestampInMilliseconds).tdiv 1000

/-- The counters of a sample are compared with those of an earlier one. -/
def Compares (env : CollectorEnv) (s : LinkMonitor) (agentIp interfaceIndex : UInt32) : Prop :=
  env.mode = .testbed ∧ s.interval env agentIp interfaceIndex ≠ 0 ∧
    (s.lastReport agentIp interfaceIndex).lastReportTimestampInMilliseconds ≠ 0

instance (env : CollectorEnv) (s : LinkMonitor) (agentIp interfaceIndex : UInt32) :
    Decidable (s.Compares env agentIp interfaceIndex) :=
  inferInstanceAs (Decidable (_ ∧ _))

/-- The divisors in a call to the topology monitor: the utilization of both edges. -/
def callDivisors (t : Topology) : TopologyCall → List Int
  | .updateLinkInfo key _ _ interfaceSpeed =>
    if (t.linkEnds key).isSome then [interfaceSpeed.toNat, interfaceSpeed.toNat] else []
  | .touchReverseEdge _ _ | .touchEdgeToHost _ _ | .touchEdge _ _ => []

/-- The divisors of the divisions that a step carries out. -/
def divisors (env : CollectorEnv) (s : LinkMonitor) : LinkStep → List Int
  | .sample agentIp (.counter interfaceIndex interfaceSpeed inputOctets outputOctets) =>
    let last := s.lastReport agentIp interfaceIndex
    let averages :=
      if s.Compares env agentIp interfaceIndex then
        -- A counter that fell behind its last reading is not averaged.
        (if inputOctets ≥ last.lastReceivedInputOctets then
          [s.interval env agentIp interfaceIndex] else []) ++
        (if outputOctets ≥ last.lastReceivedOutputOctets then
          [s.interval env agentIp interfaceIndex] else [])
      else []
    averages ++
      (s.calls env agentIp (.counter interfaceIndex interfaceSpeed inputOctets outputOctets)).flatMap
        (callDivisors s.topology)
  | .sample _ (.flow _) | .sample _ .skipped | .malformed => []
  | .rateUpdate key _ elapsed =>
    if 0 < elapsed then
      -- The seconds below the rate, and the bandwidth below the utilization.
      elapsed :: ((s.topology.graph.findEdgeByAgentIpAndPort key).map fun edge =>
        ((s.topology.links edge).linkBandwidth.toNat : Int)).toList
    else []

/-- Minuend and subtrahend of an unsigned subtraction. -/
abbrev Subtraction := UInt64 × UInt64

/-- The subtraction in `averageBps`. -/
def averageSubtractions (octets last : UInt64) : List Subtraction :=
  if octets ≥ last then [(octets, last)] else []

/-- The subtraction in `bandwidthLeft`. -/
def leftSubtractions (interfaceSpeed avg : UInt64) : List Subtraction :=
  if avg > interfaceSpeed then [] else [(interfaceSpeed, avg)]

/-- The subtractions in a call to the topology monitor: the usage of both edges. -/
def callSubtractions (t : Topology) : TopologyCall → List Subtraction
  | .updateLinkInfo key leftIn leftOut interfaceSpeed =>
    if (t.linkEnds key).isSome then [(interfaceSpeed, leftOut), (interfaceSpeed, leftIn)] else []
  | .touchReverseEdge _ _ | .touchEdgeToHost _ _ | .touchEdge _ _ => []

/-- The subtractions in `updateLinkInfoLeftLinkBandwidth`. -/
def sampledSubtractions (estimatedIn : UInt64) (l : LinkInfo) : List Subtraction :=
  (if estimatedIn > l.linkBandwidth then [] else [(l.linkBandwidth, estimatedIn)]) ++
    (if l.leftIn estimatedIn > l.linkBandwidth then []
      else [(l.linkBandwidth, l.leftIn estimatedIn)])

/-- The unsigned subtractions that a step carries out. -/
def subtractions (env : CollectorEnv) (s : LinkMonitor) : LinkStep → List Subtraction
  | .sample agentIp (.counter interfaceIndex interfaceSpeed inputOctets outputOctets) =>
    let last := s.lastReport agentIp interfaceIndex
    let interval := s.interval env agentIp interfaceIndex
    let avgIn := Collector.averageBps inputOctets last.lastReceivedInputOctets interval
    let avgOut := Collector.averageBps outputOctets last.lastReceivedOutputOctets interval
    let averages :=
      if s.Compares env agentIp interfaceIndex then
        averageSubtractions inputOctets last.lastReceivedInputOctets ++
          averageSubtractions outputOctets last.lastReceivedOutputOctets ++
          leftSubtractions interfaceSpeed (avgIn.getD 0) ++
          leftSubtractions interfaceSpeed (avgOut.getD 0)
      else []
    averages ++
      (s.calls env agentIp (.counter interfaceIndex interfaceSpeed inputOctets outputOctets)).flatMap
        (callSubtractions s.topology)
  | .sample _ (.flow _) | .sample _ .skipped | .malformed => []
  | .rateUpdate key estimatedIn elapsed =>
    if 0 < elapsed then
      ((s.topology.graph.findEdgeByAgentIpAndPort key).map fun edge =>
        sampledSubtractions estimatedIn (s.topology.links edge)).getD []
    else []

/-- An edge that was updated, and the bandwidth that the update found left on it. -/
structure Update where
  edge : EdgeDesc
  left : LinkInfo → UInt64

/-- The edges that a call updates. -/
def callUpdates (t : Topology) : TopologyCall → List Update
  | .updateLinkInfo key _ _ _ =>
    match t.linkEnds key with
    | none => []
    | some (edge, revEdge) => [⟨edge, LinkInfo.leftBandwidth⟩, ⟨revEdge, LinkInfo.leftBandwidth⟩]
  | .touchReverseEdge _ _ | .touchEdgeToHost _ _ | .touchEdge _ _ => []

/-- The edges that a step updates. -/
def updates (env : CollectorEnv) (s : LinkMonitor) : LinkStep → List Update
  | .sample agentIp event => (s.calls env agentIp event).flatMap (callUpdates s.topology)
  | .malformed => []
  | .rateUpdate key _ elapsed =>
    if 0 < elapsed then
      ((s.topology.graph.findEdgeByAgentIpAndPort key).map fun edge =>
        ⟨edge, LinkInfo.leftBandwidthFromFlowSample⟩).toList
    else []

end LinkMonitor

end Ndtwin.Kernel

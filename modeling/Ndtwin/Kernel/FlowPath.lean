import Ndtwin.Kernel.Classifier
import Ndtwin.Kernel.FlowLinkUsageCollector
import Ndtwin.Kernel.Graph

/-!
# Paths of flows

`calFlowPathByQueried` of `src/ndt_core/collection/FlowLinkUsageCollector.cpp`: for each flow in
the table, a walk over the graph that asks the classifier at every switch for the port the flow
leaves by. The graph and the classifier are those at the time of the walk; what is recorded in
the failure log is left out.
-/

namespace Ndtwin.Kernel

/-- `fk`: the key of a flow for the classifier, with host byte order. -/
def classifierKey (key : SFlow.FlowKey) : FlowKey :=
  { ipProto := key.protocol
    ipv4Dst := Words.ntohl key.dstIP
    ipv4Src := Words.ntohl key.srcIP
    tpDst := key.dstPort
    tpSrc := key.srcPort
    ethType := 0x0800 }

/-- `hop < 100` -/
def hopLimit : Nat := 100

/-- The loop over the hops, with the hops that are left: `ok` and `path`. The target of an edge is
    always a vertex. -/
def walkHops (g : Graph) (c : Classifier) (key : SFlow.FlowKey) :
    Nat → EdgeDesc → List (UInt64 × UInt32) → Bool × List (UInt64 × UInt32)
  | 0, _, path => (false, path)
  | hops + 1, edge, path =>
    match g.vertices[edge.target]? with
    | none => (false, path)
    | some srcSw =>
      -- a host vertex ends the walk, whichever host it is
      if srcSw.dpid = 0 then
        (true, if key.dstIP ∈ srcSw.ip then path ++ [(key.dstIP.toUInt64, 0)] else path)
      else
        match c.lookup srcSw.dpid (classifierKey key) 0 with
        | none => (false, path)
        | some effect =>
          match effect.outputPorts with
          | [] => (false, path)
          | outPort :: _ =>
            let path := path ++ [(srcSw.dpid, outPort)]
            match g.findEdgeByDpidAndPort srcSw.dpid outPort with
            | none => (false, path)
            | some next => walkHops g c key hops next path

/-- The path of one flow: `ok` and `path`. -/
def walkFlow (g : Graph) (c : Classifier) (key : SFlow.FlowKey) :
    Bool × List (UInt64 × UInt32) :=
  if (classifierKey key).ipv4Src = 0 ∨ (classifierKey key).ipv4Dst = 0 then (false, [])
  else
    match g.findEdgeByHostIp key.srcIP with
    | none => (false, [])
    | some edge =>
      match g.propsOf edge with
      | none => (false, [])
      | some props =>
        walkHops g c key hopLimit edge [(key.srcIP.toUInt64, props.dstInterface)]

/-- What is committed for a flow. -/
def committedPath (g : Graph) (c : Classifier) (key : SFlow.FlowKey) : List (UInt64 × UInt32) :=
  if (walkFlow g c key).1 then (walkFlow g c key).2 else []

/-- The commit of one flow; a flow that is gone by then is not put back. -/
def Collector.commitPath (g : Graph) (c : Classifier) (collector : Collector)
    (key : SFlow.FlowKey) : Collector :=
  match collector.flowInfoTable.lookup key with
  | none => collector
  | some info =>
    let info := { info with flowPath := committedPath g c key }
    { collector with flowInfoTable := collector.flowInfoTable.insert key info }

/-- A pass of `calFlowPathByQueried` over the flows of the table. -/
def Collector.calFlowPathByQueried (g : Graph) (c : Classifier) (collector : Collector) :
    Collector :=
  collector.flowInfoTable.keys.foldl (Collector.commitPath g c) collector

end Ndtwin.Kernel

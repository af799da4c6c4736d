import Ndtwin.ForStd.AssocMap

/-!
# The network graph of the proxy

`TopologyManager.net` in `p4_proxy/proxy_agent/topology_manager.py`: a networkx `DiGraph` whose
nodes are datapath ids and host addresses. Nodes and edges keep the order in which they were
added, and nothing is ever removed.
-/

namespace Ndtwin.Proxy

/-- A node: an `int` for a switch, a `str` for a host. -/
inductive NetNode where
  | dpid (n : Int)
  | ip (s : String)
  deriving DecidableEq, Repr

/-- The `type` attribute of a node. -/
inductive NetNodeType where
  | switch
  | host
  deriving DecidableEq, Repr

/-- The attributes of a node; a node that only an edge mentions has none. -/
structure NetNodeData where
  type : Option NetNodeType := none
  mac : Option String := none
  deriving DecidableEq, Repr

/-- The graph, with the `port` attribute of every edge. -/
structure NetGraph where
  nodes : AssocMap NetNode NetNodeData := ∅
  edges : AssocMap (NetNode × NetNode) Int := ∅

namespace NetGraph

/-- An end of an edge that is not a node yet becomes one. -/
def touchNode (net : NetGraph) (n : NetNode) : NetGraph :=
  match net.nodes.lookup n with
  | some _ => net
  | none => { net with nodes := net.nodes.set n {} }

/-- `net.add_edge(u, v, port=port)` -/
def addEdge (net : NetGraph) (u v : NetNode) (port : Int) : NetGraph :=
  let net := (net.touchNode u).touchNode v
  { net with edges := net.edges.set (u, v) port }

/-- `add_switch`, on the graph. -/
def addSwitch (net : NetGraph) (dpid : Int) : NetGraph :=
  let data := (net.nodes.lookup (.dpid dpid)).getD {}
  { net with nodes := net.nodes.set (.dpid dpid) { data with type := some .switch } }

/-- `add_link` -/
def addLink (net : NetGraph) (srcDpid dstDpid srcPort dstPort : Int) : NetGraph :=
  (net.addEdge (.dpid srcDpid) (.dpid dstDpid) srcPort).addEdge (.dpid dstDpid) (.dpid srcDpid)
    dstPort

/-- `add_host` -/
def addHost (net : NetGraph) (ip mac : String) (switchDpid port : Int) : NetGraph :=
  let data := (net.nodes.lookup (.ip ip)).getD {}
  let net := { net with
    nodes := net.nodes.set (.ip ip) { data with type := some .host, mac := some mac } }
  (net.addEdge (.dpid switchDpid) (.ip ip) port).addEdge (.ip ip) (.dpid switchDpid) 0

/-- Endpoints are compared by dpid and port. -/
instance lawfulBEqEndpoint : LawfulBEq (Int × Int) := inferInstance

/-- The source of an edge and its port are one of the endpoints. -/
def isDown (downEndpoints : List (Int × Int)) (u : NetNode) (port : Int) : Bool :=
  match u with
  | .dpid n => (n, port) ∈ downEndpoints
  | .ip _ => false

/-- The graph without `down_edges(net, down_endpoints)`. -/
def withoutDown (net : NetGraph) (downEndpoints : List (Int × Int)) : NetGraph :=
  { net with edges := net.edges.filterPairs fun e port => !isDown downEndpoints e.1 port }

end NetGraph

end Ndtwin.Proxy

import Ndtwin.Router.IntelligentRouter

/-!
# Hosts and their addresses

The graphs of `intelligent_router.py` with the attribute `ip_list` of their nodes, the index by
address that `find_host_by_ip` keeps, and what `_packet_in_handler` learns. An index is made for
one graph, and made again for the other graph or after a node was added.
-/

namespace Ndtwin.Router

/-- A routing graph with the attribute `ip_list` of the nodes that have it. -/
structure HostNet extends DiGraph RouterNode Int where
  ipLists : AssocMap RouterNode (List String) := ∅

namespace HostNet

/-- `nodes[v].get("ip_list", ())` -/
def ipList (net : HostNet) (v : RouterNode) : List String := (net.ipLists.lookup v).getD []

/-- `add_node(v)` -/
def addNode (net : HostNet) (v : RouterNode) : HostNet :=
  { net with toDiGraph := net.toDiGraph.addNode v }

/-- `nodes[v]["ip_list"] = ips` -/
def setIpList (net : HostNet) (v : RouterNode) (ips : List String) : HostNet :=
  { net with ipLists := net.ipLists.insert v ips }

/-- `add_node(v, ip_list=ips)`: a node that is there gets the new list. -/
def addHost (net : HostNet) (v : RouterNode) (ips : List String) : HostNet :=
  (net.addNode v).setIpList v ips

/-- `if ip_src not in ip_list: ip_list.append(ip_src)`, for the list of a node. -/
def appendIp (net : HostNet) (v : RouterNode) (ipSrc : String) (ipList : List String) : HostNet :=
  if ipSrc ∈ ipList then net else net.setIpList v (ipList ++ [ipSrc])

/-- `add_edge(u, v, port=port)` -/
def addEdge (net : HostNet) (u v : RouterNode) (port : Int) : HostNet :=
  { net with toDiGraph := net.toDiGraph.addEdge u v port }

/-- `remove_edge(u, v)` -/
def removeEdge (net : HostNet) (u v : RouterNode) : HostNet :=
  { net with toDiGraph := net.toDiGraph.removeEdge u v }

/-- `all_hosts_ip_list` -/
def allHostsIpList (net : HostNet) : List String := net.nodes.flatMap net.ipList

/-- The linear scan: the first node whose `ip_list` has the address. -/
def scan (net : HostNet) (ip : String) : Option RouterNode :=
  net.nodes.find? fun v => ip ∈ net.ipList v

/-- The loop that fills the index with `setdefault`. -/
def buildIndex (net : HostNet) : AssocMap String RouterNode :=
  net.nodes.foldl (fun index v =>
    (net.ipList v).foldl (fun index ip => if ip ∈ index then index else index.insert ip v) index) ∅

end HostNet

/-! ## The index -/

/-- Which graph it is, as `id(net)` tells. -/
inductive NetId where
  | static
  | dynamic
  deriving DecidableEq, Repr

/-- `_host_ip_token` and `_host_ip_index` -/
structure HostIpIndex where
  token : Option (NetId × Nat) := none
  index : AssocMap String RouterNode := ∅

/-- The index that `find_host_by_ip` looks into. -/
def HostIpIndex.refresh (r : HostIpIndex) (id : NetId) (net : HostNet) : HostIpIndex :=
  -- A node more is noticed, another address of a node is not.
  let token := (id, net.nodes.length)
  if r.token = some token then r else { token := some token, index := net.buildIndex }

/-- `find_host_by_ip`, and the index that it leaves. -/
def HostIpIndex.findHostByIp (r : HostIpIndex) (id : NetId) (net : HostNet) (targetIp : String) :
    Option RouterNode × HostIpIndex :=
  let r := r.refresh id net
  (r.index.lookup targetIp, r)

/-! ## Graph operations -/

/-- The graphs of the application, and the index. -/
structure RouterNets where
  isDynamicallyDetectTopo : Bool := false
  staticNet : HostNet := {}
  dynamicNet : HostNet := {}
  hostIp : HostIpIndex := {}

/-- What a packet that was sent to the controller says. -/
structure PacketIn where
  dpid : Int
  inPort : Int
  ethSrc : String
  /-- That of the Ethernet header: a frame with a VLAN tag has the type of the tag. -/
  ethertype : UInt16
  arp : Bool := false
  /-- Source and destination of the IPv4 header, if there is one. -/
  ipv4 : Option (String × String) := none
  icmp : Bool := false
  deriving DecidableEq, Repr

/-- `ether_types.ETH_TYPE_IP` -/
def ethTypeIp : UInt16 := 0x0800

/-- `ether_types.ETH_TYPE_LLDP` -/
def ethTypeLldp : UInt16 := 0x88CC

/-- `multicast_ips_to_ignore` -/
def multicastIpsToIgnore : List String := ["224.0.0.251", "224.0.0.252", "239.255.255.250"]

/-- The host and the address that a packet lets the handler learn. -/
def PacketIn.learned (p : PacketIn) : Option (RouterNode × String) :=
  match p.ipv4 with
  | none => none
  | some (ipSrc, ipDst) =>
    if p.ethertype = ethTypeLldp ∨ p.arp then none
    -- Behind a VLAN tag the multicast addresses are not looked at.
    else if p.ethertype = ethTypeIp ∧ ipDst ∈ multicastIpsToIgnore then none
    else if p.icmp then some (.mac p.ethSrc, ipSrc)
    else none

namespace RouterNets

def net (s : RouterNets) : NetId → HostNet
  | .static => s.staticNet
  | .dynamic => s.dynamicNet

/-- One of the graphs changes. -/
def update (s : RouterNets) (id : NetId) (f : HostNet → HostNet) : RouterNets :=
  match id with
  | .static => { s with staticNet := f s.staticNet }
  | .dynamic => { s with dynamicNet := f s.dynamicNet }

/-- `add_edge(u, v, port=port)`, unless the edge is there. -/
def linkOnce (net : HostNet) (u v : RouterNode) (port : Int) : HostNet :=
  if net.hasEdge u v then net else net.addEdge u v port

/-- What the handler does for a host and an address: `none` when the node has no `ip_list`, which
    raises. -/
def learn (net : HostNet) (dpid inPort : Int) (hostId : RouterNode) (ipSrc : String) :
    Option HostNet :=
  let net? :=
    if hostId ∈ net.nodes then (net.ipLists.lookup hostId).map (net.appendIp hostId ipSrc)
    else some (net.addHost hostId [ipSrc])
  -- The switch reaches the host by the port of the packet, the host the switch by port 0.
  net?.map fun net => linkOnce (linkOnce net (.dpid dpid) hostId inPort) hostId (.dpid dpid) 0

/-- `_packet_in_handler` -/
def packetInHandler (s : RouterNets) (p : PacketIn) : RouterNets :=
  match p.learned with
  | none => s
  | some (hostId, ipSrc) =>
    if s.isDynamicallyDetectTopo then
      match learn s.dynamicNet p.dpid p.inPort hostId ipSrc with
      | none => s
      | some net => { s with dynamicNet := net }
    else s

end RouterNets

/-- What is done with the graphs. -/
inductive NetEvent where
  | addNode (id : NetId) (v : RouterNode)
  | addHost (id : NetId) (v : RouterNode) (ips : List String)
  | addEdge (id : NetId) (u v : RouterNode) (port : Int)
  | removeEdge (id : NetId) (u v : RouterNode)
  /-- There is no static topology file. -/
  | fallBackToDynamic
  | packetIn (p : PacketIn)
  /-- `find_host_by_ip` -/
  | lookup (id : NetId) (targetIp : String)

/-- One operation. -/
def RouterNets.step (s : RouterNets) : NetEvent → RouterNets
  | .addNode id v => s.update id fun net => net.addNode v
  | .addHost id v ips => s.update id fun net => net.addHost v ips
  | .addEdge id u v port => s.update id fun net => net.addEdge u v port
  | .removeEdge id u v => s.update id fun net => net.removeEdge u v
  | .fallBackToDynamic => { s with isDynamicallyDetectTopo := true }
  | .packetIn p => s.packetInHandler p
  | .lookup id targetIp => { s with hostIp := (s.hostIp.findHostByIp id (s.net id) targetIp).2 }

end Ndtwin.Router

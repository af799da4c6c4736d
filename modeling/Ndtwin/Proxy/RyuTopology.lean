import Ndtwin.ForStd.Hex
import Ndtwin.Proxy.TopologyManager

/-!
# The links reply of the proxy

`p4_proxy/proxy_agent/ryu_topology.py` and `down_link_endpoints` of `topology_manager.py`: what
`GET /v1.0/topology/links` answers. There is no way to say in this reply that a link is down, so
a direction that the watchdog believes is down is left out.
-/

namespace Ndtwin.Proxy

/-- The endpoints that one entry of `_link_beacons` adds: its source when it is down, and its
    far end unless the other direction has live evidence. -/
def downEndpointsOf (beacons : AssocMap Link LinkEntry) (link : Link) (entry : LinkEntry) :
    List (Int × Int) :=
  if ¬ entry.down then []
  else
    match beacons.lookup link.reverse with
    | none => [(link.srcDpid, link.srcPort), (link.dstDpid, link.dstPort)]
    | some reverse =>
      if reverse.down then [(link.srcDpid, link.srcPort), (link.dstDpid, link.dstPort)]
      else [(link.srcDpid, link.srcPort)]

/-- `down_link_endpoints`; only membership in it is used. -/
def downLinkEndpoints (beacons : AssocMap Link LinkEntry) : List (Int × Int) :=
  beacons.toPairs.flatMap fun (link, entry) => downEndpointsOf beacons link entry

namespace NetGraph

/-- The node is one of type `switch`. -/
def isSwitch (net : NetGraph) (n : NetNode) : Bool :=
  ((net.nodes.lookup n).bind NetNodeData.type) = some .switch

/-- One edge of the loop of `render_links`. -/
def listedLink (net : NetGraph) (down : List (Int × Int)) :
    (NetNode × NetNode) × Int → Option Link
  | ((.dpid src, .dpid dst), srcPort) =>
    if net.isSwitch (.dpid src) ∧ net.isSwitch (.dpid dst) ∧ (src, srcPort) ∉ down then
      some {
        srcDpid := src
        srcPort := srcPort
        dstDpid := dst
        dstPort := (net.edges.lookup (.dpid dst, .dpid src)).getD 0 }
    else none
  -- a host is not of type `switch`
  | _ => none

/-- The links that `render_links` lists. -/
def listedLinks (net : NetGraph) (down : List (Int × Int)) : List Link :=
  net.edges.toPairs.filterMap (net.listedLink down)

end NetGraph

/-- `f"{int(n):0<width>x}"`: a minus sign counts as one of the characters. -/
def hexText (width : Nat) (n : Int) : String :=
  if n < 0 then String.ofList ('-' :: Hex.padded (width - 1) n.natAbs)
  else String.ofList (Hex.padded width n.natAbs)

/-- `_port_endpoint`, without an address. -/
def portEndpoint (dpid port : Int) : Json :=
  .obj [("dpid", .str (hexText 16 dpid)), ("port_no", .str (hexText 8 port)),
    ("name", .str ("s" ++ toString dpid ++ "-eth" ++ toString port))]

/-- An entry of the reply. -/
def renderLink (link : Link) : Json :=
  .obj [("src", portEndpoint link.srcDpid link.srcPort),
    ("dst", portEndpoint link.dstDpid link.dstPort)]

/-- `render_links` -/
def renderLinks (links : List Link) : Json := .arr (links.map renderLink)

end Ndtwin.Proxy

import Ndtwin.ForStd.Json
import Ndtwin.ForStd.Walk
import Ndtwin.Proxy.TopologyManager

/-!
# The destination paths of the proxy

`installed_path` and `render_destination_paths` of `p4_proxy/proxy_agent/ryu_topology.py`: the
path between two hosts as the rules on the switches have it, and the reply that lists the paths
of all pairs. With no rules on record the shortest paths are listed instead.
-/

namespace Ndtwin.Proxy

/-- `installed`: the out-port for a destination address at a switch. -/
abbrev InstalledRoutes := AssocMap (Int × String) Int

namespace NetGraph

/-- `net.neighbors(u)`, in the order in which the edges were added. -/
def neighbors (net : NetGraph) (u : NetNode) : List NetNode :=
  net.edges.toPairs.filterMap fun e => if e.1.1 = u then some e.1.2 else none

/-- `installed.get((current, dst_host))`; the keys have a datapath id. -/
def installedPort (installed : InstalledRoutes) (dst : String) : NetNode → Option Int
  | .dpid dpid => installed.lookup (dpid, dst)
  | .ip _ => none

/-- The next node of the loop of `installed_path`, before it looks for a loop. -/
def nextHop (net : NetGraph) (installed : InstalledRoutes) (down : List (Int × Int))
    (dst : String) (current : NetNode) : Option NetNode :=
  match installedPort installed dst current with
  | none => none
  | some outPort =>
    if isDown down current outPort then none
    else (net.neighbors current).find? fun v => net.edges.lookup (current, v) = some outPort

/-- `installed_path` -/
def installedPath (net : NetGraph) (installed : InstalledRoutes) (down : List (Int × Int))
    (src dst : String) : Option (List NetNode) :=
  match net.neighbors (.ip src) with
  | [] => none
  | first :: _ =>
    Walk.follow (net.nextHop installed down dst) (.ip dst) (net.nodes.keys.length + 1) [.ip src]
      first

/-- The hosts of `render_destination_paths`; a host is a `str`. -/
def hosts (net : NetGraph) : List String :=
  net.nodes.toPairs.filterMap fun n =>
    match n with
    | (.ip s, data) => if data.type = some .host then some s else none
    | (.dpid _, _) => none

end NetGraph

/-- A number of Python as `nlohmann::json` reads it from its text. -/
def numberJson (i : Int) : Json :=
  if 0 ≤ i ∧ i < 2 ^ 64 then .uint i.toNat
  else if - 2 ^ 63 ≤ i ∧ i < 0 then .int i
  else .float i 0

/-- `str(node) if node in (src, dst) else int(node)`, for the nodes that a path has. -/
def nodeJson : NetNode → Json
  | .ip s => .str s
  | .dpid d => numberJson d

/-- The port in the entry of a node: of the first switch towards the source, of every other node
    towards the next one, and 0 at the end. -/
def hopPorts (net : NetGraph) : List NetNode → List Int
  | [] => []
  | [_] => [0]
  | first :: second :: rest =>
    (net.edges.lookup (second, first)).getD 0 :: go (second :: rest)
where
  go : List NetNode → List Int
    | [] => []
    | [_] => [0]
    | u :: v :: rest => (net.edges.lookup (u, v)).getD 0 :: go (v :: rest)

/-- An entry of the reply. -/
def renderPath (net : NetGraph) (hops : List NetNode) : Json :=
  .arr (List.zipWith (fun node port => .arr [nodeJson node, numberJson port]) hops
    (hopPorts net hops))

/-- The hops of a pair of hosts in `render_destination_paths`. -/
def pairHops (shortestPath : ShortestPath) (net : NetGraph) (down : List (Int × Int))
    (installed : InstalledRoutes) (src dst : String) : Option (List NetNode) :=
  if installed.entries.isEmpty then shortestPath (net.withoutDown down) (.ip src) (.ip dst)
  else net.installedPath installed down src dst

/-- The paths that `render_destination_paths` lists. -/
def destinationPaths (shortestPath : ShortestPath) (net : NetGraph) (down : List (Int × Int))
    (installed : InstalledRoutes) : List (List NetNode) :=
  net.hosts.flatMap fun src =>
    net.hosts.filterMap fun dst =>
      if src = dst then none else pairHops shortestPath net down installed src dst

/-- `render_destination_paths` -/
def renderDestinationPaths (shortestPath : ShortestPath) (net : NetGraph)
    (down : List (Int × Int)) (installed : InstalledRoutes) : Json :=
  .obj [("status", .str "success"),
    ("all_destination_paths",
      .arr ((destinationPaths shortestPath net down installed).map (renderPath net)))]

end Ndtwin.Proxy

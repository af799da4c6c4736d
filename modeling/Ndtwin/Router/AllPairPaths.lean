import Ndtwin.ForStd.EState
import Ndtwin.Router.HostNet

/-!
# Routes between all hosts

`install_all_pair_paths` of `intelligent_router.py`, with `is_all_dst_biased` off. For every
address, a search over the switches goes backwards from the switch of the host and sends a rule
to every switch that it visits; then the paths are read off the parents. The graph and the
connected switches stay as they are during the walk. The log lines are left out.
-/

namespace Ndtwin.Router

/-- A key of `parent_hash` and a stop of a path: an address or a node. No node is named like an
    address. -/
inductive PathNode where
  | ip (s : String)
  | node (v : RouterNode)
  deriving DecidableEq, Repr

/-- An entry of `all_destination_paths`: where the path passes, and by which port it goes on. -/
abbrev ReportedPath := List (PathNode × Int)

/-- What `add_flow` sends to a switch: the packets to an address leave by a port. -/
structure SentRule where
  dpid : Int
  ipv4Dst : String
  outPort : Int
  deriving DecidableEq, Repr

/-- What ends the walk. -/
inductive WalkError where
  /-- `NetworkXError`: the neighbours of a node that is not there. -/
  | noNode
  /-- `IndexError` -/
  | noNeighbor
  /-- `KeyError` -/
  | noEdge
  /-- A loop went on longer than its bound. -/
  | outOfFuel
  deriving DecidableEq, Repr

/-- The walk changes the rules that were sent. -/
abbrev WalkM := EStateM WalkError (List SentRule)

/-- What the walk reads. -/
structure WalkEnv where
  net : HostNet
  /-- The datapath ids of `self.switches`. -/
  switches : List Int
  /-- `find_host_by_ip(net, ip)` -/
  findHostByIp : String → Option RouterNode
  /-- `hash_dst_ip`: the digest of `sha256` as a number. -/
  hashDstIp : String → Nat

namespace WalkEnv

variable (env : WalkEnv)

/-- `is_switch` -/
def isSwitch : RouterNode → Bool
  | .dpid d => d ∈ env.switches
  | .mac _ => false

/-- `switches.get(node)` -/
def datapath : RouterNode → Option Int
  | .dpid d => if d ∈ env.switches then some d else none
  | .mac _ => none

/-- `find_connected_switch` -/
def findConnectedSwitch : Option RouterNode → Except WalkError RouterNode
  | none => .error .noNode
  | some host =>
    match env.net.neighbors host with
    | [] => .error .noNeighbor
    | switch :: _ => .ok switch

/-- `net[switch][host]["port"]` -/
def getHostPort (host : Option RouterNode) (switch : RouterNode) : Except WalkError Int :=
  match host.bind (env.net.edge? switch) with
  | none => .error .noEdge
  | some port => .ok port

/-- `str(neighbor)` -/
def nodeText : RouterNode → String
  | .dpid d => toString d
  | .mac s => s

/-- `neighbors.sort(..)`, by the hash of the address and the neighbour. -/
def sortNeighbors (dstIp : String) (neighbors : List RouterNode) : List RouterNode :=
  neighbors.mergeSort fun a b =>
    env.hashDstIp (dstIp ++ nodeText a) ≤ env.hashDstIp (dstIp ++ nodeText b)

end WalkEnv

/-! ## The search -/

/-- The variables of the search. -/
structure WalkSearch where
  parentHash : AssocMap PathNode (Option PathNode)
  visited : List RouterNode
  queue : List (RouterNode × Option RouterNode)

namespace WalkEnv

variable (env : WalkEnv)

/-- `add_flow` -/
def addFlow (rule : SentRule) : WalkM PUnit := modify fun rules => rules ++ [rule]

/-- `out_port`: `none` when the edge to the previous switch has vanished. -/
def outPort (dstHost : Option RouterNode) (current : RouterNode) :
    Option RouterNode → Except WalkError (Option Int)
  | none => (env.getHostPort dstHost current).map some
  | some prev => .ok (env.net.edge? current prev)

/-- What is put into the queue at a switch. -/
def enqueued (dstIp : String) (visited : List RouterNode) (current : RouterNode) :
    List (RouterNode × Option RouterNode) :=
  ((env.sortNeighbors dstIp (env.net.neighbors current)).filter fun neighbor =>
    neighbor ∉ visited ∧ env.isSwitch neighbor ∧ env.net.hasEdge neighbor current).map
      fun neighbor => (neighbor, some current)

/-- One pass of the loop, with an entry taken from the queue. -/
def visitSwitch (dstIp : String) (dstHost : Option RouterNode) (s : WalkSearch)
    (current : RouterNode) (prev : Option RouterNode)
    (queue : List (RouterNode × Option RouterNode)) : WalkM WalkSearch :=
  if current ∈ s.visited then return { s with queue := queue }
  else do
    let s := { s with visited := s.visited ++ [current], queue := queue }
    match ← EState.ofExcept (env.outPort dstHost current prev) with
    | none => return s
    | some port =>
      let parent := (prev.map PathNode.node).getD (.ip dstIp)
      let s := { s with parentHash := s.parentHash.set (.node current) (some parent) }
      match env.datapath current with
      -- not connected
      | none => return s
      | some dpid =>
        addFlow { dpid := dpid, ipv4Dst := dstIp, outPort := port }
        return { s with queue := queue ++ env.enqueued dstIp s.visited current }

/-- `while queue`, with a bound on the passes. -/
def search (dstIp : String) (dstHost : Option RouterNode) : Nat → WalkSearch → WalkM WalkSearch
  | 0, _ => throw .outOfFuel
  | fuel + 1, s =>
    match s.queue with
    | [] => return s
    | (current, prev) :: queue => do
      let s ← env.visitSwitch dstIp dstHost s current prev queue
      search dstIp dstHost fuel s

/-- The search before its loop. -/
def initial (dstIp : String) (dstSwitch : RouterNode) : WalkSearch where
  parentHash := (∅ : AssocMap PathNode (Option PathNode)).set (.ip dstIp) none
  visited := []
  queue := [(dstSwitch, none)]

/-! ## The paths -/

/-- The port from a stop to the next one: `none` is a `KeyError`. -/
def hopPort (node nextHop : PathNode) : Option Int :=
  let target :=
    match nextHop with
    | .ip s => env.findHostByIp s
    | .node v => if env.isSwitch v then some v else none
  match node, target with
  | .node v, some w => env.net.edge? v w
  | _, _ => none

/-- `while node is not None`, with a bound on the passes. -/
def walkParents (parentHash : AssocMap PathNode (Option PathNode)) :
    Nat → PathNode → ReportedPath → Except WalkError ReportedPath
  | 0, _, _ => .error .outOfFuel
  | fuel + 1, node, path =>
    match (parentHash.lookup node).join with
    | none => .ok (path ++ [(node, 0)])
    | some nextHop =>
      match env.hopPort node nextHop with
      | none => .error .noEdge
      | some port => walkParents parentHash fuel nextHop (path ++ [(node, port)])

/-- One pass of the loop over the sources. -/
def sourcePath (dstIp : String) (switch : PathNode) (path : ReportedPath) (srcIp : String) :
    WalkM (List ReportedPath) :=
  if srcIp = dstIp then return []
  else do
    let srcHost := env.findHostByIp srcIp
    let srcSwitch ← EState.ofExcept (env.findConnectedSwitch srcHost)
    let port ← EState.ofExcept (env.getHostPort srcHost srcSwitch)
    if .node srcSwitch = switch then return [(.ip srcIp, port) :: path] else return []

/-- The paths that a loop reports, one pass after the other. -/
def collect {α : Type} (pass : α → WalkM (List ReportedPath)) : List α → WalkM (List ReportedPath)
  | [] => return []
  | a :: as => do
    let paths ← pass a
    let rest ← collect pass as
    return paths ++ rest

/-- One pass of the loop over `parent_hash`: a path with a vanished edge is dropped. -/
def report (dstIp : String) (parentHash : AssocMap PathNode (Option PathNode))
    (switch : PathNode) : WalkM (List ReportedPath) :=
  match env.walkParents parentHash (parentHash.keys.length + 1) switch [] with
  | .error .noEdge => return []
  | .error e => throw e
  | .ok path => collect (env.sourcePath dstIp switch path) env.net.allHostsIpList

/-- The search and the paths towards one address. -/
def walkTo (dstIp : String) : WalkM (List ReportedPath) := do
  let dstHost := env.findHostByIp dstIp
  let dstSwitch ← EState.ofExcept (env.findConnectedSwitch dstHost)
  let s ← env.search dstIp dstHost (env.net.edges.keys.length + 2) (initial dstIp dstSwitch)
  collect (env.report dstIp s.parentHash) s.parentHash.keys

/-- `install_all_pair_paths`: what becomes of `all_destination_paths`. -/
def installAllPairPaths : WalkM (List ReportedPath) :=
  collect env.walkTo env.net.allHostsIpList

end WalkEnv

end Ndtwin.Router

import Ndtwin.Proxy.LinkWatchdog
import Ndtwin.Proxy.MatchFields
import Ndtwin.Proxy.NetGraph

/-!
# The topology manager

`p4_proxy/proxy_agent/topology_manager.py`: the flow operations behind the REST routes, the
installation of all routes, and the re-adoption of a switch. Each of them writes to switches
through a `P4RuntimeClient` and keeps the record `_installed_routes` of what it wrote.

The client of a switch stands for the switch itself: re-adoption replaces the client, and both
clients write to the same tables. `networkx.shortest_path` is a parameter.
-/

namespace Ndtwin.Proxy

/-- `nx.shortest_path(search, source, target)`; `none` for `NetworkXNoPath`. -/
abbrev ShortestPath := NetGraph → NetNode → NetNode → Option (List NetNode)

/-- A dictionary of paths by destination and source. -/
abbrev DestPaths := List (NetNode × List (NetNode × List NetNode))

/-- `TopologyManager` -/
structure TopologyManager where
  /-- `switches`, as the tables behind each client. -/
  switches : AssocMap Int P4Switch := ∅
  net : NetGraph := {}
  destPaths : DestPaths := []
  installedRoutes : AssocMap (Int × String) Int := ∅
  /-- Whether the last probe of a switch was answered. -/
  lastProbe : AssocMap Int Bool := ∅
  watchdog : LinkWatchdog

/-- A call of a method: it may raise, and what it did before stays. -/
abbrev RouteM := EStateM RouteError TopologyManager

/-- An expression that may raise a built-in exception. -/
def py {α : Type} : Except Python.Error α → RouteM α
  | .ok a => pure a
  | .error e => throw (.python e)

/-- A call of a client method: `self.switches[dpid]` and what the call writes there. -/
def onSwitch {α : Type} (dpid : Int) (call : ClientM α) : RouteM α := fun m =>
  match m.switches.lookup dpid with
  | none => .error (.python .keyError) m
  | some switch =>
    match call switch with
    | .ok a switch' => .ok a { m with switches := m.switches.set dpid switch' }
    -- what the call wrote before it raised stays
    | .error e switch' =>
      .error (.python e) { m with switches := m.switches.set dpid switch' }

/-! ## Reading a request -/

/-- The integer a number equals, as a dictionary key sees it. -/
def integerKey? : Json → Option Int
  | .float mantissa exponent =>
    if 0 ≤ exponent then some (mantissa * 10 ^ exponent.toNat)
    -- a fraction equals no key
    else if mantissa % 10 ^ (-exponent).toNat = 0 then some (mantissa / 10 ^ (-exponent).toNat)
    else none
  | v => Python.asInt? v

/-- `dpid in self.switches`, with the key it is found under. -/
def knownDpid (m : TopologyManager) : Json → Except Python.Error (Option Int)
  -- a list or a dictionary cannot be hashed
  | .arr _ | .obj _ => .error .typeError
  | v => .ok ((integerKey? v).filter fun n => (m.switches.lookup n).isSome)

/-- A request that names its switch by an integer finds it under that integer. -/
theorem eq_of_knownDpid_uint {m : TopologyManager} {n : Nat} {d : Int}
    (h : knownDpid m (.uint n) = .ok (some d)) : d = n := by
  simp only [knownDpid, integerKey?, Python.asInt?, Except.ok.injEq,
    Option.filter_eq_some_iff, Option.some.injEq] at h
  exact h.1.symm

/-- `match_dict.get(..)` needs a dictionary. -/
def dictFields : Json → Except Python.Error (List (String × Json))
  | .obj fields => .ok fields
  | _ => .error .attributeError

/-- `d.get(key)` -/
def getField (fields : List (String × Json)) (key : String) : Json :=
  ((fields.find? fun f => f.1 = key).map Prod.snd).getD .null

/-- `match_dict.get("nw_dst") or match_dict.get("ipv4_dst")` -/
def ipv4DstOf (fields : List (String × Json)) : Json :=
  let nwDst := getField fields "nw_dst"
  if Python.truthy nwDst then nwDst else getField fields "ipv4_dst"

/-- The loop over the actions: the port of the last `OUTPUT`. -/
def outPortOf : (outPort : Json) → List Json → Except Python.Error Json
  | outPort, [] => .ok outPort
  | outPort, .obj fields :: rest =>
    match getField fields "type" with
    | .str "OUTPUT" => outPortOf (getField fields "port") rest
    | _ => outPortOf outPort rest
  -- an action that is no dictionary has no `get`
  | _, _ :: _ => .error .attributeError

/-- The actions of a request: what iterates as strings has no `get`. -/
def outPort : Json → Except Python.Error Json
  | .arr elems => outPortOf .null elems
  | .obj [] | .str "" => .ok .null
  | .obj _ | .str _ => .error .attributeError
  | _ => .error .typeError

/-- A value as a node of the graph, if one equals it. -/
def netNodeOf : Json → Except Python.Error (Option NetNode)
  | .arr _ | .obj _ => .error .typeError
  | .str s => .ok (some (.ip s))
  | v => .ok ((integerKey? v).map .dpid)

/-- The address of a host that is not in the graph. -/
def defaultMac : String := "00:00:00:00:00:00"

/-- `self.net.nodes[n].get("mac", "00:00:00:00:00:00")` -/
def NetGraph.macOf (net : NetGraph) (n : NetNode) : String :=
  ((net.nodes.lookup n).bind NetNodeData.mac).getD defaultMac

/-- `next_hop_mac` of a destination. -/
def nextHopMac (net : NetGraph) (ipv4Dst : Json) : Except Python.Error String := do
  match ← netNodeOf ipv4Dst with
  | none => return defaultMac
  | some n => return net.macOf n

/-- `next_hop_mac` in the 5-tuple branches: only of a destination that is named. -/
def nextHopMac5tuple (net : NetGraph) (ipv4Dst : Json) : Except Python.Error String :=
  if Python.truthy ipv4Dst then nextHopMac net ipv4Dst else .ok defaultMac

/-! ## Flow operations -/

/-- `_installed_routes[(dpid, ipv4_dst)] = out_port`. A write that was accepted had an address
    and a port number. -/
def recordRoute (dpid : Int) (ipv4Dst outPort : Json) : RouteM Unit :=
  match ipv4Dst, Python.asInt? outPort with
  | .str dst, some port => modify fun m =>
      { m with installedRoutes := m.installedRoutes.set (dpid, dst) port }
  | _, _ => pure ()

/-- `_installed_routes.pop((dpid, ipv4_dst), None)` -/
def withdrawRoute (dpid : Int) (ipv4Dst : Json) : RouteM Unit :=
  match ipv4Dst with
  | .str dst => modify fun m =>
      { m with installedRoutes := m.installedRoutes.erase (dpid, dst) }
  | _ => pure ()

/-- The checks of a match, and its fields. -/
def checkedMatch (matchDict : Json) (action : String) : RouteM (List (String × Json)) := do
  EState.ofExcept (refuseUnsupported matchDict)
  EState.ofExcept (checkMatchValues matchDict action)
  py (dictFields matchDict)

/-- `route_flow` -/
def routeFlow (dpid matchDict actions priority : Json) (answers : Answers) : RouteM Bool := do
  let m ← get
  match ← py (knownDpid m dpid) with
  | none => return false
  | some dpid => do
    let fields ← checkedMatch matchDict "installed"
    let ipv4Dst := ipv4DstOf fields
    match ← py (outPort actions) with
    -- no `OUTPUT` among the actions
    | .null => return false
    | out =>
      -- a 5-tuple rule is not recorded
      if needsFiveTuple matchDict then do
        let keys ← EState.ofExcept (fiveTupleKeys fields)
        let mac ← py (nextHopMac5tuple m.net ipv4Dst)
        onSwitch dpid (insert5tupleRule keys (p4Priority priority) mac out answers)
      else if Python.truthy ipv4Dst then do
        let mac ← py (nextHopMac m.net ipv4Dst)
        let success ← onSwitch dpid (insertIpv4Route ipv4Dst 32 mac out answers)
        if success then do
          recordRoute dpid ipv4Dst out
          return true
        else return false
      else return false

/-- `unroute_flow` -/
def unrouteFlow (dpid matchDict priority : Json) (answers : Answers) : RouteM Bool := do
  let m ← get
  match ← py (knownDpid m dpid) with
  | none => return false
  | some dpid => do
    let fields ← checkedMatch matchDict "deleted"
    let ipv4Dst := ipv4DstOf fields
    if needsFiveTuple matchDict then do
      let keys ← EState.ofExcept (fiveTupleKeys fields)
      onSwitch dpid (delete5tupleRule keys (p4Priority priority) answers)
    else if Python.truthy ipv4Dst then do
      let success ← onSwitch dpid (deleteIpv4Route ipv4Dst 32 answers)
      if success then do
        withdrawRoute dpid ipv4Dst
        return true
      else return false
    else return false

/-- `modify_flow` -/
def modifyFlow (dpid matchDict actions priority : Json) (answers : Answers) : RouteM Bool := do
  let m ← get
  match ← py (knownDpid m dpid) with
  | none => return false
  | some dpid => do
    let fields ← checkedMatch matchDict "modified"
    let ipv4Dst := ipv4DstOf fields
    match ← py (outPort actions) with
    | .null => return false
    | out =>
      if needsFiveTuple matchDict then do
        let keys ← EState.ofExcept (fiveTupleKeys fields)
        let mac ← py (nextHopMac5tuple m.net ipv4Dst)
        onSwitch dpid (modify5tupleRule keys (p4Priority priority) mac out answers)
      else if Python.truthy ipv4Dst then do
        let mac ← py (nextHopMac m.net ipv4Dst)
        let success ← onSwitch dpid (modifyIpv4Route ipv4Dst 32 mac out answers)
        if success then do
          recordRoute dpid ipv4Dst out
          return true
        else return false
      else return false

/-! ## All routes -/

/-- The links that the watchdog believes down. -/
def LinkWatchdog.downLinks (w : LinkWatchdog) : List Link :=
  w.linkBeacons.toPairs.filterMap fun (link, entry) => if entry.down then some link else none

/-- The other direction of a link. -/
def Link.reverse (l : Link) : Link :=
  { srcDpid := l.dstDpid, srcPort := l.dstPort, dstDpid := l.srcDpid, dstPort := l.srcPort }

/-- A switch into which every known link is silent while it answers the probe. -/
def isSuspect (w : LinkWatchdog) (lastProbe : AssocMap Int Bool) (dpid : Int) : Bool :=
  -- a switch into which no link is known is no suspect
  let inbound := w.linkBeacons.keys.filter fun l => l.dstDpid = dpid
  !inbound.isEmpty && inbound.all (fun l => l ∈ w.downLinks) && lastProbe.lookup dpid = some true

/-- `reroutable_down_endpoints` -/
def reroutableDownEndpoints (w : LinkWatchdog) (lastProbe : AssocMap Int Bool) :
    List (Int × Int) :=
  w.downLinks.filterMap fun l =>
    if isSuspect w lastProbe l.dstDpid ∧ l.reverse ∉ w.downLinks then none
    else some (l.srcDpid, l.srcPort)

/-- `calculate_all_paths` -/
def calculateAllPaths (shortestPath : ShortestPath) (net : NetGraph)
    (excludeEndpoints : List (Int × Int)) : DestPaths :=
  let search := net.withoutDown excludeEndpoints
  net.nodes.keys.map fun dst =>
    (dst, net.nodes.keys.filterMap fun src =>
      -- a node that cannot be reached is left out
      if src = dst then none else (shortestPath search src dst).map fun path => (src, path))

/-- A path to a host from a switch on which it is to be installed. -/
structure RouteTask where
  dst : NetNode
  src : NetNode
  path : List NetNode
  deriving DecidableEq, Repr

/-- The passes of the loop of `install_initial_routes` that are not skipped. -/
def routeTasks (net : NetGraph) (destPaths : DestPaths) (onlyDpid : Option Int) :
    List RouteTask :=
  let typeOf (n : NetNode) := (net.nodes.lookup n).bind NetNodeData.type
  (destPaths.filter fun d => typeOf d.1 = some .host).flatMap fun d =>
    (d.2.filter fun s => typeOf s.1 = some .switch ∧
      (onlyDpid = none ∨ some s.1 = onlyDpid.map .dpid)).map fun s =>
        { dst := d.1, src := s.1, path := s.2 }

/-- `path[path.index(src) + 1]` -/
def nextNode (src : NetNode) : List NetNode → Except Python.Error NetNode
  | [] => .error .valueError
  | n :: rest =>
    if n = src then
      match rest with
      | [] => .error .indexError
      | next :: _ => .ok next
    else nextNode src rest

/-- A route to write: the switch, the destination, the next hop and the port. -/
structure PlannedRoute where
  dpid : Int
  dst : Json
  mac : String
  outPort : Int

/-- What a pass of the loop finds out before it writes. -/
def planRoute (m : TopologyManager) (task : RouteTask) : Except Python.Error PlannedRoute := do
  let next ← nextNode task.src task.path
  match m.net.edges.lookup (task.src, next), task.src with
  | none, _ => .error .keyError
  -- a host is not among the switches
  | some _, .ip _ => .error .keyError
  | some outPort, .dpid dpid =>
    match m.switches.lookup dpid with
    | none => .error .keyError
    | some _ =>
      return { dpid := dpid
               dst := match task.dst with
                 | .dpid n => .int n
                 | .ip s => .str s
               mac := m.net.macOf task.dst
               outPort := outPort }

/-- The loop of `install_initial_routes`: how many routes were accepted and attempted. The
    switch answers each attempt on its own. -/
def installRoutes (answers : Nat → Answers) :
    (installed attempted : Nat) → List RouteTask → RouteM (Nat × Nat)
  | installed, attempted, [] => return (installed, attempted)
  | installed, attempted, task :: tasks => do
    let m ← get
    let route ← py (planRoute m task)
    let accepted ← onSwitch route.dpid
      (insertIpv4Route route.dst 32 route.mac (.int route.outPort) (answers attempted))
    if accepted then do
      recordRoute route.dpid route.dst (.int route.outPort)
      installRoutes answers (installed + 1) (attempted + 1) tasks
    -- a refused route is counted, and the loop goes on
    else installRoutes answers installed (attempted + 1) tasks

/-- `install_initial_routes` -/
def installInitialRoutes (shortestPath : ShortestPath) (onlyDpid : Option Int)
    (answers : Nat → Answers) : RouteM (Nat × Nat) := do
  let m ← get
  let destPaths := calculateAllPaths shortestPath m.net
    (reroutableDownEndpoints m.watchdog m.lastProbe)
  set { m with destPaths := destPaths }
  installRoutes answers 0 0 (routeTasks m.net destPaths onlyDpid)

/-! ## Re-adoption -/

/-- What `readopt_switch` meets: each step of taking over the switch may raise, with the text
    it reports. -/
structure ReadoptEnv where
  clientFactory : Except String Unit := .ok ()
  start : Except String Unit := .ok ()
  mastershipConfirmed : Bool := true
  setForwardingPipelineConfig : Except String Unit := .ok ()
  /-- `sample_callback is not None` -/
  sampling : Bool := true
  writeCloneSession : Bool := true
  answers : Nat → Answers := fun _ => {}

/-- What `readopt_switch` returns. -/
inductive ReadoptResult where
  | unknownSwitch (dpid : Int)
  | failed (step error : String)
  | routesRefused (dpid : Int) (cloneSession : Bool) (attempted : Nat)
  | success (dpid : Int) (cloneSession : Bool) (routesInstalled routesAttempted : Nat)
  deriving DecidableEq, Repr

/-- The error of a stream that did not become primary. -/
def notPrimary : String :=
  "arbitration was not granted within the settle window; the old client (or another controller) " ++
    "likely still holds mastership. The switch was not touched."

/-- `readopt_switch` -/
def readoptSwitch (shortestPath : ShortestPath) (dpid : Int) (env : ReadoptEnv) :
    RouteM ReadoptResult := do
  let m ← get
  match m.switches.lookup dpid with
  | none => return .unknownSwitch dpid
  | some switch =>
    match env.clientFactory, env.start with
    | .error e, _ => return .failed "build" e
    | _, .error e => return .failed "pipeline" e
    | .ok _, .ok _ =>
      if !env.mastershipConfirmed then return .failed "mastership" notPrimary
      else
        match env.setForwardingPipelineConfig with
        | .error e => return .failed "pipeline" e
        | .ok _ => do
          -- pushing the pipeline empties the tables of the switch
          set { m with switches := m.switches.set dpid switch.pushPipeline }
          let cloneSession := !env.sampling || env.writeCloneSession
          let (routes, attempted) ← installInitialRoutes shortestPath (some dpid) env.answers
          if attempted > 0 ∧ routes = 0 then return .routesRefused dpid cloneSession attempted
          else return .success dpid cloneSession routes attempted

/-! ## Concurrent calls

A REST request is handled on a thread of its own, and the watchdog installs routes on another.
`_net_lock` is taken for the record alone, so between the write of a call to the switch and its
record the other calls go on. -/

/-- A call that writes `ipv4_lpm` for a destination at a switch, past its checks. -/
inductive RouteCall where
  | routeFlow (nextHopMac : String) (outPort : Json)
  | modifyFlow (nextHopMac : String) (outPort : Json)
  | unrouteFlow
  /-- A pass of the loop of `install_initial_routes`. -/
  | installRoute (nextHopMac : String) (outPort : Int)

/-- The write to the switch, which refuses nothing by itself. -/
def RouteCall.write (dpid : Int) (dst : String) : RouteCall → RouteM Bool
  | .routeFlow mac out => onSwitch dpid (insertIpv4Route (.str dst) 32 mac out {})
  | .modifyFlow mac out => onSwitch dpid (modifyIpv4Route (.str dst) 32 mac out {})
  | .unrouteFlow => onSwitch dpid (deleteIpv4Route (.str dst) 32 {})
  | .installRoute mac out => onSwitch dpid (insertIpv4Route (.str dst) 32 mac (.int out) {})

/-- The change of the record. -/
def RouteCall.record (dpid : Int) (dst : String) : RouteCall → RouteM Unit
  | .routeFlow _ out => recordRoute dpid (.str dst) out
  | .modifyFlow _ out => recordRoute dpid (.str dst) out
  | .unrouteFlow => withdrawRoute dpid (.str dst)
  | .installRoute _ out => recordRoute dpid (.str dst) (.int out)

/-- How far a call is. -/
inductive CallStage where
  | ready
  | written
  | returned
  deriving DecidableEq, Repr

/-- The manager, and how far each of the calls is. -/
structure RouteThreads where
  manager : TopologyManager
  stages : List CallStage

/-- A step of the `i`-th call. -/
inductive CallStep where
  | write (i : Nat)
  | record (i : Nat)
  deriving DecidableEq, Repr

/-- One step of one of the calls for a destination at a switch. A write that does not succeed
    is not a step. -/
def RouteThreads.step (dpid : Int) (dst : String) (calls : List RouteCall) (t : RouteThreads) :
    CallStep → Option RouteThreads
  | .write i =>
    match calls[i]?, t.stages[i]? with
    | some call, some .ready =>
      match call.write dpid dst t.manager with
      -- other calls may go on between this write and its record
      | .ok true m => some { manager := m, stages := t.stages.set i .written }
      | _ => none
    | _, _ => none
  | .record i =>
    match calls[i]?, t.stages[i]? with
    | some call, some .written =>
      some {
        manager := EState.finalState (call.record dpid dst) t.manager
        stages := t.stages.set i .returned }
    | _, _ => none

/-- No call has begun. -/
def RouteThreads.start (m : TopologyManager) (calls : List RouteCall) : RouteThreads where
  manager := m
  stages := List.replicate calls.length .ready

end Ndtwin.Proxy

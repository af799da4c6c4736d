import Mathlib.Algebra.Order.Ring.Int
import Mathlib.Data.Finset.Sort
import Mathlib.Data.Int.Order.Basic
import Ndtwin.ForStd.DiGraph

/-!
# The Ryu application

`intelligent_router.py`: the handlers of link and switch events, and the two workers they leave
work to. `_route_reinstall_worker` computes all routes again once the topology has stopped
changing, and `_topology_worker` rebuilds the graph after switches have entered.

Ryu's greenlets are cooperative: a greenlet runs until it sleeps, waits or does a request, so
what stands between two such points is one step. A worker is represented by the point at which
it waits. The walk over all host pairs is a point of this kind too, since it yields inside.
-/

namespace Ndtwin.Router

/-! ## Data -/

/-- A node of a routing graph: the datapath id of a switch, the MAC of a host. -/
inductive RouterNode where
  | dpid (n : Int)
  | mac (s : String)
  deriving DecidableEq, Repr

/-- A routing graph; the attribute of an edge is its `port`. -/
abbrev RoutingGraph := DiGraph RouterNode Int

/-- A port of a switch. -/
structure LinkPort where
  dpid : Int
  portNo : Int
  deriving DecidableEq, Repr

/-- `ev.link` -/
structure Link where
  src : LinkPort
  dst : LinkPort
  deriving DecidableEq, Repr

/-- What the log says about route reinstallation. -/
inductive LogLine where
  /-- `topology changed (%s); route reinstall scheduled` -/
  | topologyChanged (reason : String)
  /-- `route reinstall waiting for the initial install to finish` -/
  | waitingForInitialInstall
  /-- `initial install still not done after %ds; recomputing anyway` -/
  | initialInstallNotDone (waited : Nat)
  /-- `recomputing all-pair routes after topology change` -/
  | recomputing
  /-- `route reinstall done` -/
  | reinstallDone
  /-- `topology changed again during the recompute (seq %d -> %d); recomputing` -/
  | changedAgain (seen seq : Nat)
  deriving DecidableEq, Repr

/-- Where `_route_reinstall_worker` waits. -/
inductive ReinstallPhase where
  /-- Spawned and not run yet. -/
  | spawned
  /-- In `hub.sleep(reinstall_quiet_period)`. -/
  | quiet (seen : Nat)
  /-- In `hub.sleep(1)`, waiting for the initial install. -/
  | awaitingInitialInstall (seen waited : Nat)
  /-- In `install_all_pair_paths`. -/
  | walking (seen : Nat)
  deriving DecidableEq, Repr

/-- Where `_topology_worker` waits. -/
inductive TopologyPhase where
  /-- In `_topology_dirty.wait()`. -/
  | waiting
  /-- Trying to read the switches, until the deadline. -/
  | readingSwitches
  /-- In `get_link`. -/
  | readingLinks
  /-- In the notification of the first of these switches. -/
  | notifying (dpids : List Int)
  /-- In `_maybe_install_initial_routes`. -/
  | installing
  deriving DecidableEq, Repr

/-- `IntelligentRyu`, with its greenlets. -/
structure IntelligentRouter where
  isDynamicallyDetectTopo : Bool := false
  staticNet : RoutingGraph := {}
  dynamicNet : RoutingGraph := {}
  /-- The datapath ids of `self.switches`. -/
  switches : List Int := []
  installInitialOpenflowEntriesCompleted : Bool := false
  topologyChangeSeq : Nat := 0
  reinstallWorkerRunning : Bool := false
  reinstallWorkers : List ReinstallPhase := []
  pendingSwitchDpids : Finset Int := ∅
  topologyDirty : Bool := false
  topologyWorkerStarted : Bool := false
  topologyWorker : Option TopologyPhase := none
  topologyRebuilds : Nat := 0
  topologyCoalesced : Nat := 0
  log : List LogLine := []

/-- `sorted(dpids)` -/
def sortedDpids (dpids : Finset Int) : List Int := dpids.sort (· ≤ ·)

namespace IntelligentRouter

/-- `self.logger.warning(..)` -/
def logged (r : IntelligentRouter) (line : LogLine) : IntelligentRouter :=
  { r with log := r.log ++ [line] }

/-- `_active_net` -/
def activeNet (r : IntelligentRouter) : RoutingGraph :=
  if r.isDynamicallyDetectTopo then r.dynamicNet else r.staticNet

/-- A change of the graph that `_active_net` returns. -/
def updateActiveNet (r : IntelligentRouter) (f : RoutingGraph → RoutingGraph) :
    IntelligentRouter :=
  if r.isDynamicallyDetectTopo then { r with dynamicNet := f r.dynamicNet }
  else { r with staticNet := f r.staticNet }

/-! ## Route reinstallation -/

/-- `_schedule_route_reinstall` -/
def scheduleRouteReinstall (r : IntelligentRouter) (reason : String) : IntelligentRouter :=
  let r := { r with topologyChangeSeq := r.topologyChangeSeq + 1 }
  let r := r.logged (.topologyChanged reason)
  -- the worker that is running will see the new number
  if r.reinstallWorkerRunning then r
  else { r with
    reinstallWorkerRunning := true
    reinstallWorkers := r.reinstallWorkers ++ [.spawned] }

/-- `initial_install_wait_limit` -/
def initialInstallWaitLimit : Nat := 240

/-- The worker reads the sequence number and sleeps for the quiet period. -/
def quietPeriod (r : IntelligentRouter) : IntelligentRouter × Option ReinstallPhase :=
  (r, some (.quiet r.topologyChangeSeq))

/-- The worker starts the walk. -/
def startWalk (r : IntelligentRouter) (seen : Nat) :
    IntelligentRouter × Option ReinstallPhase :=
  (r.logged .recomputing, some (.walking seen))

/-- The loop that waits for the initial install, and what follows it. -/
def awaitInitialInstall (r : IntelligentRouter) (seen waited : Nat) :
    IntelligentRouter × Option ReinstallPhase :=
  if r.installInitialOpenflowEntriesCompleted then r.startWalk seen
  else if waited < initialInstallWaitLimit then (r, some (.awaitingInitialInstall seen waited))
  else (r.logged (.initialInstallNotDone waited)).startWalk seen

/-- `_route_reinstall_worker`, from one point at which it waits to the next; `none` when it has
    returned. -/
def reinstallStep (r : IntelligentRouter) :
    ReinstallPhase → IntelligentRouter × Option ReinstallPhase
  | .spawned => r.quietPeriod
  | .quiet seen =>
    if r.topologyChangeSeq = seen then
      if r.installInitialOpenflowEntriesCompleted then r.startWalk seen
      else (r.logged .waitingForInitialInstall).awaitInitialInstall seen 0
    -- the topology is still changing
    else r.quietPeriod
  | .awaitingInitialInstall seen waited => r.awaitInitialInstall seen (waited + 1)
  -- a change during the walk starts another quiet period
  | .walking seen =>
    let r := r.logged .reinstallDone
    if r.topologyChangeSeq = seen then ({ r with reinstallWorkerRunning := false }, none)
    else (r.logged (.changedAgain seen r.topologyChangeSeq)).quietPeriod

/-- The `i`-th reinstall worker continues. -/
def resumeReinstall (r : IntelligentRouter) (i : Nat) : IntelligentRouter :=
  match r.reinstallWorkers[i]? with
  | none => r
  | some phase =>
    match r.reinstallStep phase with
    | (r, some phase) => { r with reinstallWorkers := r.reinstallWorkers.set i phase }
    | (r, none) => { r with reinstallWorkers := r.reinstallWorkers.eraseIdx i }

/-! ## Link events -/

/-- `on_link_delete`, without the notification of the kernel. -/
def onLinkDelete (r : IntelligentRouter) (link : Link) : IntelligentRouter :=
  let u := RouterNode.dpid link.src.dpid
  let v := RouterNode.dpid link.dst.dpid
  let r :=
    if r.activeNet.hasEdge u v then r.updateActiveNet fun net => net.removeEdge u v else r
  r.scheduleRouteReinstall s!"link {link.src.dpid} -> {link.dst.dpid} down"

/-- `on_link_add`, without the notification of the kernel. -/
def onLinkAdd (r : IntelligentRouter) (link : Link) : IntelligentRouter :=
  let u := RouterNode.dpid link.src.dpid
  let v := RouterNode.dpid link.dst.dpid
  let r :=
    -- an edge that is there keeps its port
    if r.activeNet.hasEdge u v then r
    else r.updateActiveNet fun net => net.addEdge u v link.src.portNo
  r.scheduleRouteReinstall s!"link {link.src.dpid} -> {link.dst.dpid} up"

/-! ## Topology rebuilds -/

/-- `get_topology_data`, the handler of `EventSwitchEnter`. -/
def getTopologyData (r : IntelligentRouter) (dpid : Int) : IntelligentRouter :=
  let r := { r with pendingSwitchDpids := insert dpid r.pendingSwitchDpids }
  -- counted with the rebuild that is due anyway
  let r := if r.topologyDirty then { r with topologyCoalesced := r.topologyCoalesced + 1 } else r
  let r := { r with topologyDirty := true }
  if r.topologyWorkerStarted then r
  else { r with topologyWorkerStarted := true, topologyWorker := some .waiting }

/-- The worker waits for the next event: a rebuild has returned or raised. -/
def endRebuild (r : IntelligentRouter) : IntelligentRouter :=
  { r with topologyWorker := some .waiting }

/-- `_topology_dirty.wait()` returns, and `_rebuild_topology` starts. -/
def startRebuild (r : IntelligentRouter) : IntelligentRouter :=
  -- an event from here on asks for another rebuild
  { r with
    topologyDirty := false
    topologyRebuilds := r.topologyRebuilds + 1
    topologyWorker := some .readingSwitches }

/-- The switches have been read; an empty list is what is left at the deadline. -/
def switchesRead (r : IntelligentRouter) (switchList : List Int) : IntelligentRouter :=
  if switchList.isEmpty then r.endRebuild
  else { r with
    switches := switchList
    dynamicNet := switchList.foldl (fun net dpid => net.addNode (.dpid dpid)) r.dynamicNet
    topologyWorker := some .readingLinks }

/-- The edges of a link, forward and reverse. -/
def addLinkEdges (net : RoutingGraph) (link : Link) : RoutingGraph :=
  let u := RouterNode.dpid link.src.dpid
  let v := RouterNode.dpid link.dst.dpid
  (net.addEdge u v link.src.portNo).addEdge v u link.dst.portNo

/-- `_drain_pending_dpids` -/
def drainPendingDpids (r : IntelligentRouter) : List Int × IntelligentRouter :=
  (sortedDpids r.pendingSwitchDpids, { r with pendingSwitchDpids := ∅ })

/-- The head of the notification loop. -/
def notifyNext (r : IntelligentRouter) (dpids : List Int) : IntelligentRouter :=
  { r with topologyWorker := some (if dpids.isEmpty then .installing else .notifying dpids) }

/-- The links have been read; `none` when `get_link` did not answer. -/
def linksRead (r : IntelligentRouter) : Option (List Link) → IntelligentRouter
  | none => r.endRebuild
  | some linksList =>
    let r := { r with dynamicNet := linksList.foldl addLinkEdges r.dynamicNet }
    let (dpids, r) := r.drainPendingDpids
    r.notifyNext dpids

/-- What `_topology_worker` waits for. -/
inductive TopologyInput where
  | dirty
  | switchList (switchList : List Int)
  | linksList (linksList : Option (List Link))
  /-- A notification has returned; `_notify_switch_entered` does not raise. -/
  | notified
  /-- `_maybe_install_initial_routes` has returned. -/
  | installed
  | raised

/-- `_topology_worker` with `_rebuild_topology`, from one point at which it waits to the next.
    What it does not wait for does not happen. -/
def topologyStep (r : IntelligentRouter) (input : TopologyInput) : IntelligentRouter :=
  match r.topologyWorker, input with
  | some .waiting, .dirty => if r.topologyDirty then r.startRebuild else r
  | some .readingSwitches, .switchList switchList => r.switchesRead switchList
  | some .readingLinks, .linksList linksList => r.linksRead linksList
  | some (.notifying dpids), .notified => r.notifyNext dpids.tail
  | some .installing, .installed => r.endRebuild
  | some .readingSwitches, .raised => r.endRebuild
  | some .readingLinks, .raised => r.endRebuild
  | some .installing, .raised => r.endRebuild
  | _, _ => r

end IntelligentRouter

/-! ## Events -/

/-- `EventLinkAdd` and `EventLinkDelete` -/
inductive LinkEvent where
  | add (link : Link)
  | delete (link : Link)
  deriving DecidableEq, Repr

/-- What happens to the application, in the order in which the greenlets run. -/
inductive RouterEvent where
  | link (e : LinkEvent)
  | switchEnter (dpid : Int)
  /-- The `i`-th reinstall worker wakes up, or ends its walk. -/
  | reinstall (i : Nat)
  /-- The initial install is done. -/
  | initialInstallDone
  /-- There is no static topology file. -/
  | fallBackToDynamic
  | topology (input : IntelligentRouter.TopologyInput)

/-- The handler of a link event. -/
def IntelligentRouter.onLink (r : IntelligentRouter) : LinkEvent → IntelligentRouter
  | .add link => r.onLinkAdd link
  | .delete link => r.onLinkDelete link

/-- One event. -/
def IntelligentRouter.step (r : IntelligentRouter) : RouterEvent → IntelligentRouter
  | .link e => r.onLink e
  | .switchEnter dpid => r.getTopologyData dpid
  | .reinstall i => r.resumeReinstall i
  | .initialInstallDone => { r with installInitialOpenflowEntriesCompleted := true }
  | .fallBackToDynamic => { r with isDynamicallyDetectTopo := true }
  | .topology input => r.topologyStep input

end Ndtwin.Router

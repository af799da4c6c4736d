import Ndtwin.Proxy.TopologyManager

/-!
# Watchdog passes of the topology manager

`run_watchdog_pass` in `p4_proxy/proxy_agent/topology_manager.py`: one pass of the link
watchdog, from the beliefs it brings up to date over the reports to the kernel to the routes it
installs again. While a report is on its way the receive threads go on, so packets come in
between any two reports.

The push of the paths that follows a reinstallation changes nothing here and is left out.
-/

namespace Ndtwin.Proxy

/-- A packet-in, with the time it is handled at and what `parse_lldp_packet` made of it. -/
structure PacketIn where
  now : Int
  deviceId : Int
  ingressPort : Int
  lldpInfo : Option (Int × Int)
  /-- How the switches answer, if routes are installed. -/
  answers : Nat → Answers := fun _ => {}

/-- `handle_packet_in`: a link that is not in the graph yet is added, and routes are installed
    over it. -/
def TopologyManager.handlePacketIn (shortestPath : ShortestPath) (m : TopologyManager)
    (p : PacketIn) : TopologyManager :=
  let m := { m with
    watchdog := m.watchdog.handlePacketIn p.now p.deviceId p.ingressPort p.lldpInfo }
  match p.lldpInfo with
  | none => m
  | some (srcDpid, srcPort) =>
    if srcDpid = p.deviceId then m
    else if (m.net.edges.lookup (.dpid srcDpid, .dpid p.deviceId)).isSome then m
    else
      let m := { m with net := m.net.addLink srcDpid p.deviceId srcPort p.ingressPort }
      EState.finalState (installInitialRoutes shortestPath none p.answers) m

/-- What a pass meets. -/
structure WatchdogEnv where
  now : Int
  /-- The answers of the kernel to the reports of the pass, in order; a call that raises is a
      refusal. There is none when no kernel is configured. -/
  kernel : Option (Nat → Bool)
  /-- The packets that come in while a report is on its way. -/
  packets : Nat → List PacketIn := fun _ => []
  /-- How the switches answer, if routes are installed. -/
  answers : Nat → Answers := fun _ => {}

/-- `_notify_link`, for the `i`-th report of the pass. -/
def WatchdogEnv.notifyLink (env : WatchdogEnv) (i : Nat) : Bool :=
  match env.kernel with
  | none => true
  | some answer => answer i

/-- The loop of `check_link_beacons` over the links to report. -/
def reportLinks (shortestPath : ShortestPath) (env : WatchdogEnv) :
    (i : Nat) → List (Link × Bool) → PassResult → TopologyManager → PassResult × TopologyManager
  | _, [], result, m => (result, m)
  | i, (link, down) :: todo, result, m =>
    let m := (env.packets i).foldl (TopologyManager.handlePacketIn shortestPath) m
    if env.notifyLink i then
      let m := { m with watchdog := m.watchdog.acknowledge link down }
      reportLinks shortestPath env (i + 1) todo (LinkWatchdog.PassResult.reported result link down) m
    else
      reportLinks shortestPath env (i + 1) todo (LinkWatchdog.PassResult.refused result link) m

/-- The beliefs at a time: the first critical section of `check_link_beacons`. -/
def refreshBeliefs (w : LinkWatchdog) (now : Int) : LinkWatchdog :=
  { w with linkBeacons := w.linkBeacons.mapVals fun _ entry => w.refresh now entry }

/-- `check_link_beacons` -/
def checkLinkBeacons (shortestPath : ShortestPath) (env : WatchdogEnv) (m : TopologyManager) :
    PassResult × TopologyManager :=
  let m := { m with watchdog := refreshBeliefs m.watchdog env.now }
  let unacked := LinkWatchdog.unackedOf m.watchdog.linkBeacons
  reportLinks shortestPath env 0 unacked {} m

/-- What a pass did. -/
structure WatchdogPass where
  result : PassResult
  /-- The state in which `install_initial_routes` was called, if it was. -/
  reroutedFrom : Option TopologyManager
  manager : TopologyManager

/-- `run_watchdog_pass`; an exception of the reinstallation is caught. -/
def runWatchdogPass (shortestPath : ShortestPath) (env : WatchdogEnv) (m : TopologyManager) :
    WatchdogPass :=
  let (result, m) := checkLinkBeacons shortestPath env m
  if result.down ≠ [] ∨ result.up ≠ [] then
    { result := result
      reroutedFrom := some m
      manager := EState.finalState (installInitialRoutes shortestPath none env.answers) m }
  else
    { result := result, reroutedFrom := none, manager := m }

end Ndtwin.Proxy

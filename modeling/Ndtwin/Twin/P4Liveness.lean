import Ndtwin.Kernel.P4Liveness
import Ndtwin.Kernel.TopologyMonitor
import Ndtwin.Proxy.SwitchLiveness

/-!
# Whether a P4 switch is up, from the probe to the graph

The proxy probes its switches and hears their beacons; the kernel reads the state of the switches
once for each pass of `pingWorker` and judges one switch after the other by it, and it polls the
list of switches. Between any two of these steps the others can happen: a judgement is made by a
reply that may be old, and so is the application of a list.
-/

namespace Ndtwin.Twin

open Proxy Kernel

/-- What the proxy had seen when it made a reply: the probes and the beacons, oldest first. -/
structure Moment where
  now : Int
  probes : List (Int × Bool × Int)
  beacons : List (Int × Int)

/-- A list of switches, with the moment of it, which is history as well. -/
structure SwitchList where
  dpids : List Int
  made : Moment

/-- The proxy and the kernel, as far as the switches are concerned. -/
structure P4Twin where
  proxy : SwitchLiveness := {}
  /-- The clock of the proxy, in nanoseconds. -/
  now : Int := 0
  graph : Graph
  /-- `p4SwitchState` of the pass in progress. -/
  p4SwitchState : Option Json := none
  /-- The lists of switches that the kernel has not applied yet. -/
  lists : List SwitchList := []
  /-- From here on a history that no step reads: the probes and beacons, … -/
  probes : List (Int × Bool × Int) := []
  beacons : List (Int × Int) := []
  /-- … the moment of `p4SwitchState`, … -/
  fetchedAt : Option Moment := none
  /-- … and that of every reply with the state or the list of the switches. -/
  moments : List Moment := []

namespace P4Twin

/-- What the proxy has seen by now. -/
def moment (s : P4Twin) : Moment := { now := s.now, probes := s.probes, beacons := s.beacons }

inductive Event where
  | tick (elapsed : Nat)
  /-- The proxy builds a client. -/
  | addSwitch (dpid : UInt64) (client : SwitchClient)
  | packetIn (deviceId : Int) (lldpInfo : Option (Int × Int))
  /-- A probe of a switch completes. -/
  | probe (dpid : UInt64) (ok : Bool) (detail : String)
  /-- The kernel reads the state of the switches; nothing comes of it when the proxy cannot be
      reached or what it says cannot be read. -/
  | fetch (reached : Bool) (links : Json)
  /-- The pass judges a vertex. -/
  | judge (v : Nat) (bridges : Option (List (List Char)))
  /-- The proxy lists its switches. -/
  | list
  /-- The kernel applies the oldest list. -/
  | applyList

variable (switch : Nat → DeviceConfigurationAndPowerManager.MininetSwitch)

open DeviceConfigurationAndPowerManager in
def step (s : P4Twin) : Event → P4Twin
  | .tick elapsed => { s with now := s.now + elapsed }
  | .addSwitch dpid client =>
    { s with proxy := { s.proxy with switches := s.proxy.switches.insert dpid.toNat client } }
  | .packetIn deviceId lldpInfo =>
    { s with
      proxy := s.proxy.recordPacketIn s.now deviceId lldpInfo
      beacons := s.beacons ++ (lldpInfo.map fun b => (b.1, s.now)).toList }
  | .probe dpid ok detail =>
    { s with
      proxy := s.proxy.recordProbe s.now dpid.toNat ok detail
      probes := s.probes ++ [((dpid.toNat : Int), ok, s.now)] }
  | .fetch true links =>
    { s with
      p4SwitchState := some (s.proxy.switchLiveness s.now links)
      fetchedAt := some s.moment
      moments := s.moments ++ [s.moment] }
  | .fetch false _ => { s with p4SwitchState := none, fetchedAt := none }
  | .judge v bridges =>
    match s.graph.vertices[v]? with
    | some vertex =>
      { s with graph := judgeVertex switch bridges s.p4SwitchState s.graph (vertex, v) }
    | none => s
  | .list =>
    { s with
      lists := s.lists ++ [{ dpids := s.proxy.connectedSwitchDpids, made := s.moment }]
      moments := s.moments ++ [s.moment] }
  | .applyList =>
    match s.lists with
    | [] => s
    | list :: rest =>
      { s with
        lists := rest
        graph := TopologyMonitor.updateSwitches (.parsed (renderSwitches list.dpids)) s.graph }

/-- Both processes at their start. -/
def start (g : Graph) : P4Twin := { graph := g }

/-- The flag `isUp` of a vertex. -/
def upOf (s : P4Twin) (v : Nat) : Option Bool := (s.graph.vertices[v]?).map VertexProperties.isUp

end P4Twin

end Ndtwin.Twin

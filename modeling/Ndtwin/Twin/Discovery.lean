import Ndtwin.ForStd.Run
import Ndtwin.Proxy.Fabric
import Ndtwin.Proxy.PacketIo

/-!
# Link discovery

The switches, the cables between them and the proxy: the beacon sender hands beacons to the
switches, each switch runs its program on what comes in, cables carry what goes out, and the
receive threads of `p4_proxy/proxy_agent/p4_client.py` hand to the topology manager what reaches
the CPU port. Frames and packet-ins are delivered in any order, and may be lost. Between any two
steps the other threads of the proxy go on, and the tables of a switch may hold anything.
-/

namespace Ndtwin.Twin

open Proxy

/-- A port of a switch. -/
abbrev Endpoint := Int × BitVec 9

/-- The cables between the switches. -/
structure Cabling where
  far : Endpoint → Option Endpoint
  symm : ∀ e e', far e = some e' → far e' = some e
  /-- No cable is plugged into the CPU port. -/
  data : ∀ e e', far e = some e' → e.2 ≠ Program.cpuPort

/-- What the other threads of the proxy do to the manager: REST requests, re-adoption, the
    liveness poller, and the parts of a pass of the watchdog. -/
inductive OtherThread where
  | routeFlow (dpid matchDict actions priority : Json) (answers : Answers)
  | unrouteFlow (dpid matchDict priority : Json) (answers : Answers)
  | modifyFlow (dpid matchDict actions priority : Json) (answers : Answers)
  | installInitialRoutes (onlyDpid : Option Int) (answers : Nat → Answers)
  | readoptSwitch (dpid : Int) (env : ReadoptEnv)
  | probe (dpid : Int) (answered : Bool)
  | seedExpectedLinks (now : Int)
  | refreshBeliefs (now : Int)
  | acknowledge (link : Link) (down : Bool)

/-- What does not change while the system runs. -/
structure Site where
  shortestPath : ShortestPath
  cabling : Cabling
  /-- What `load_switch_links` makes of the topology file. -/
  declared : List Link

/-- A step of another thread; what it raises is caught there. -/
def OtherThread.step (site : Site) (m : TopologyManager) : OtherThread → TopologyManager
  | .routeFlow dpid matchDict actions priority answers =>
    EState.finalState (Proxy.routeFlow dpid matchDict actions priority answers) m
  | .unrouteFlow dpid matchDict priority answers =>
    EState.finalState (Proxy.unrouteFlow dpid matchDict priority answers) m
  | .modifyFlow dpid matchDict actions priority answers =>
    EState.finalState (Proxy.modifyFlow dpid matchDict actions priority answers) m
  | .installInitialRoutes onlyDpid answers =>
    EState.finalState (Proxy.installInitialRoutes site.shortestPath onlyDpid answers) m
  | .readoptSwitch dpid env =>
    EState.finalState (Proxy.readoptSwitch site.shortestPath dpid env) m
  | .probe dpid answered => { m with lastProbe := m.lastProbe.set dpid answered }
  | .seedExpectedLinks now =>
    { m with watchdog := m.watchdog.seedExpectedLinks now site.declared }
  | .refreshBeliefs now => { m with watchdog := Proxy.refreshBeliefs m.watchdog now }
  | .acknowledge link down => { m with watchdog := m.watchdog.acknowledge link down }

/-- The proxy, and what is on its way. -/
structure Discovery where
  manager : TopologyManager
  /-- Frames on a cable, with where they arrive. -/
  frames : List (Endpoint × List UInt8) := []
  /-- Packet-ins that were not received yet, with the switch they come from. -/
  packetIns : List (Int × PacketMessage) := []
  /-- The switches whose receive thread was ended by an exception. -/
  ended : List Int := []
  /-- The thread `lldp-beacon` is alive. -/
  beaconing : Bool := true

namespace Discovery

inductive Event where
  /-- The sender serves a port of a switch. -/
  | beacon (dpid port : Int) (tables : Program.Tables)
  /-- A host, or anything else that is no switch, sends a frame to a port. -/
  | inject (endpoint : Endpoint) (frame : List UInt8)
  /-- The `i`-th frame arrives; `sampled` says whether the random number is 0. -/
  | arrive (i : Nat) (tables : Program.Tables) (sampled : Bool)
  | loseFrame (i : Nat)
  /-- The receive thread takes up the `i`-th packet-in. -/
  | receive (i : Nat) (now : Int) (answers : Nat → Answers)
  | losePacketIn (i : Nat)
  | other (thread : OtherThread)

/-- A packet for the controller: the server may not be able to make a packet-in of it. -/
def punt (s : Discovery) (dpid : Int) (packet : List UInt8) : Discovery :=
  match packetInOf packet with
  | none => s
  | some message => { s with packetIns := s.packetIns ++ [(dpid, message)] }

/-- What a switch sends out. -/
def emit (s : Discovery) (cabling : Cabling) (dpid : Int) :
    Option (BitVec 9 × List UInt8) → Discovery
  | none => s
  | some (port, packet) =>
    if port = Program.cpuPort then s.punt dpid packet
    else
      match cabling.far (dpid, port) with
      -- it leaves for a host, or for nowhere
      | none => s
      | some endpoint => { s with frames := s.frames ++ [(endpoint, packet)] }

/-- A frame through a switch. A packet for the CPU port is not sampled, one that is dropped is. -/
def forward (s : Discovery) (cabling : Cabling) (dpid : Int) (ingressPort : BitVec 9)
    (frame : List UInt8) (tables : Program.Tables) (sampled : Bool) : Discovery :=
  let out := Program.run tables ingressPort frame
  let egressPort := (out.map Prod.fst).getD dropPort
  let s := s.emit cabling dpid out
  if sampled ∧ egressPort ≠ Program.cpuPort then
    s.punt dpid (Program.sampledCopy ingressPort egressPort frame)
  else s

/-- The body of the inner loop of the sender. -/
def beaconMessage (dpid port : Int) : Except Python.Error PacketMessage := do
  let packet ← createLldpPacket dpid port
  sendPacketOut port packet

/-- What a receive thread does with a packet-in. -/
def deliver (s : Discovery) (shortestPath : ShortestPath) (dpid now : Int)
    (answers : Nat → Answers) (message : PacketMessage) : Discovery :=
  match dispatchPacketIn message with
  -- a sample goes to the emitter
  | .sample _ => s
  | .packetIn ingressPort payload =>
    let packet : StreamPacket :=
      { now := now, ingressPort := ingressPort, payload := payload, answers := answers }
    match packet.handlePacketIn shortestPath dpid s.manager with
    | .ok _ m => { s with manager := m }
    | .error _ m => { s with manager := m, ended := dpid :: s.ended }

/-- One step; `none` when the event is not enabled. -/
def step (site : Site) (s : Discovery) : Event → Option Discovery
  | .beacon dpid port tables =>
    if s.beaconing ∧ (s.manager.switches.lookup dpid).isSome ∧
        port ∈ lldpPortsFor (loadSwitchLinkPorts site.declared) dpid then
      match beaconMessage dpid port with
      | .error _ => some { s with beaconing := false }
      | .ok message =>
        match packetOutOf message with
        | none => some s
        | some packet =>
          some (s.emit site.cabling dpid (Program.run tables Program.cpuPort packet))
    else none
  | .inject endpoint frame =>
    if endpoint.2 = Program.cpuPort then none
    else some { s with frames := s.frames ++ [(endpoint, frame)] }
  | .arrive i tables sampled =>
    match s.frames[i]? with
    | none => none
    | some ((dpid, port), frame) =>
      let s := { s with frames := s.frames.eraseIdx i }
      some (s.forward site.cabling dpid port frame tables sampled)
  | .loseFrame i => if i < s.frames.length then some { s with frames := s.frames.eraseIdx i } else none
  | .receive i now answers =>
    match s.packetIns[i]? with
    | none => none
    | some (dpid, message) =>
      if dpid ∈ s.ended then none
      else
        let s := { s with packetIns := s.packetIns.eraseIdx i }
        some (s.deliver site.shortestPath dpid now answers message)
  | .losePacketIn i =>
    if i < s.packetIns.length then some { s with packetIns := s.packetIns.eraseIdx i } else none
  | .other thread => some { s with manager := thread.step site s.manager }

end Discovery

end Ndtwin.Twin

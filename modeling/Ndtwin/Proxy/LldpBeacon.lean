import Ndtwin.ForStd.PythonText
import Ndtwin.ForStd.SortedInsert
import Ndtwin.Proxy.WatchdogPass

/-!
# LLDP beacons

`create_lldp_packet`, `parse_lldp_packet` and `handle_packet_in` in
`p4_proxy/proxy_agent/topology_manager.py`, under the receive thread of `p4_client.py`. A switch
is told to send a beacon on each of its ports; the switch at the other end hands it to its
receive thread, which learns the link from it. The numbers of a beacon are decimal text behind
the LLDP ethertype.

A receive thread catches the errors of the stream and nothing else, so an exception of
`handle_packet_in` ends it. Telemetry samples are told apart before and do not come here.
-/

namespace Ndtwin.Proxy

/-! ## The frame -/

/-- `LLDP_SOURCE_MAC_PREFIX` -/
def lldpSourceMacPrefix : List UInt8 := [0x0e, 0x00, 0x00, 0x00]

/-- `lldp_source_mac`: the dpid is masked to 16 bits. -/
def lldpSourceMac (dpid : Int) : Except Python.Error (List UInt8) := do
  let low ← Python.toBytes 2 (dpid % 65536)
  return lldpSourceMacPrefix ++ low

/-- `create_lldp_packet` -/
def createLldpPacket (dpid port : Int) : Except Python.Error (List UInt8) := do
  let dstMac ← Python.fromHex "0180c200000e".toList
  let srcMac ← lldpSourceMac dpid
  let ethertype ← Python.fromHex "88cc".toList
  let dpidText ← Python.strInt dpid
  let portText ← Python.strInt port
  let payload := Python.encodeUtf8 ("DPID:".toList ++ dpidText ++ ",PORT:".toList ++ portText)
  return dstMac ++ srcMac ++ ethertype ++ payload

/-- `int(part.split(":")[1])` -/
def numberOf (part : List Char) : Except Python.Error Int := do
  let text ← Python.item (part.splitOn ':') 1
  Python.toInt (.str (String.ofList text))

/-- The body of the `try` of `parse_lldp_packet`. -/
def readBeacon (packetBytes : List UInt8) : Except Python.Error (Option (Int × Int)) := do
  let payload ← Python.decodeUtf8 (packetBytes.drop 14)
  if "DPID:".toList.isPrefixOf payload then do
    let parts := payload.splitOn ','
    let dpid ← numberOf (← Python.item parts 0)
    let port ← numberOf (← Python.item parts 1)
    return some (dpid, port)
  else return none

/-- `parse_lldp_packet` -/
def parseLldpPacket (packetBytes : List UInt8) : Except Python.Error (Option (Int × Int)) :=
  if packetBytes.length < 14 then .ok none
  else
    let ethertype := Python.hexText ((packetBytes.take 14).drop 12)
    if ethertype ≠ "88cc".toList then .ok none
    else
      match readBeacon packetBytes with
      | .ok info => .ok info
      -- the `except` is bare
      | .error _ => .ok none

/-! ## Ports that beacon -/

/-- `load_switch_link_ports`, given what `load_switch_links` made of the topology file. -/
def loadSwitchLinkPorts (links : List Link) : AssocMap Int (List Int) :=
  links.foldl (fun ports l =>
    let known := (ports.lookup l.srcDpid).getD []
    ports.set l.srcDpid (SortedInsert.insertNew (fun p q : Int => p < q) id l.srcPort known)) ∅

/-- `LLDP_FALLBACK_PORTS` -/
def lldpFallbackPorts : List Int := [1, 2, 3, 4, 5, 6]

/-- `lldp_ports_for` -/
def lldpPortsFor (linkPorts : AssocMap Int (List Int)) (dpid : Int) : List Int :=
  match linkPorts.lookup dpid with
  | none | some [] => lldpFallbackPorts
  | some ports => ports

/-! ## Packets that come in -/

/-- A packet of a receive thread. -/
structure StreamPacket where
  now : Int
  ingressPort : Int
  payload : List UInt8
  /-- How the switches answer, if routes are installed. -/
  answers : Nat → Answers := fun _ => {}
  /-- What the other threads do to the manager before the packet is handled. -/
  others : TopologyManager → TopologyManager := id

namespace StreamPacket

/-- The start of `handle_packet_in`, under the lock. -/
def recordPacketIn (deviceId : Int) (p : StreamPacket) (lldpInfo : Option (Int × Int))
    (m : TopologyManager) : TopologyManager :=
  { m with watchdog := m.watchdog.handlePacketIn p.now deviceId p.ingressPort lldpInfo }

/-- The end of `handle_packet_in`, outside of the lock: a link that is not in the graph yet is
    added, and all routes are installed again. -/
def discoverLink (shortestPath : ShortestPath) (deviceId : Int) (p : StreamPacket) :
    (lldpInfo : Option (Int × Int)) → RouteM Unit
  | none => return
  | some (srcDpid, srcPort) =>
    -- a switch that hears itself is no link
    if srcDpid = deviceId then return
    else do
      let m ← get
      if (m.net.edges.lookup (.dpid srcDpid, .dpid deviceId)).isSome then return
      else do
        set { m with net := m.net.addLink srcDpid deviceId srcPort p.ingressPort }
        let _ ← installInitialRoutes shortestPath none p.answers
        return

/-- `handle_packet_in` -/
def handlePacketIn (shortestPath : ShortestPath) (deviceId : Int) (p : StreamPacket) :
    RouteM Unit := do
  let lldpInfo ← py (parseLldpPacket p.payload)
  modify (recordPacketIn deviceId p lldpInfo)
  discoverLink shortestPath deviceId p lldpInfo

/-- A pass of the loop of `_stream_receiver`. -/
def receive (shortestPath : ShortestPath) (deviceId : Int) (p : StreamPacket) : RouteM Unit := do
  modify p.others
  handlePacketIn shortestPath deviceId p

end StreamPacket

/-- `_stream_receiver`: the thread ends when this raises. -/
def streamReceiver (shortestPath : ShortestPath) (deviceId : Int) (packets : List StreamPacket) :
    RouteM Unit :=
  packets.forM (StreamPacket.receive shortestPath deviceId)

end Ndtwin.Proxy

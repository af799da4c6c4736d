import Ndtwin.Proxy.RyuTopology

/-!
# What the proxy knows of its switches

`p4_proxy/proxy_agent/topology_manager.py`: every probe and every packet of a switch is recorded
with its time, `GET /p4/switch_state` reports the ages, and `GET /v1.0/topology/switches` lists
the switches that are not known to be gone. The clock is in nanoseconds; an age is rounded to
milliseconds.
-/

namespace Ndtwin.Proxy

/-- An entry of `_last_probe`. -/
structure Probe where
  ok : Bool
  detail : String
  «at» : Int

/-- What `switch_liveness` reads of a client. -/
structure SwitchClient where
  streamAlive : Bool
  grpcAddr : Json

/-- The part of `TopologyManager` under `_liveness_lock`, without the links. -/
structure SwitchLiveness where
  switches : AssocMap Int SwitchClient := ∅
  lastProbe : AssocMap Int Probe := ∅
  lastPacketIn : AssocMap Int Int := ∅
  lastLldpFrom : AssocMap Int Int := ∅

namespace SwitchLiveness

/-- What `handle_packet_in` records: the packet for the switch that sent it, the beacon for the
    switch that it names. -/
def recordPacketIn (now deviceId : Int) (lldpInfo : Option (Int × Int)) (s : SwitchLiveness) :
    SwitchLiveness :=
  { s with
    lastPacketIn := s.lastPacketIn.insert deviceId now
    lastLldpFrom :=
      match lldpInfo with
      | some (srcDpid, _) => s.lastLldpFrom.insert srcDpid now
      | none => s.lastLldpFrom }

/-- What the poller records of a probe. -/
def recordProbe (now dpid : Int) (ok : Bool) (detail : String) (s : SwitchLiveness) :
    SwitchLiveness :=
  { s with lastProbe := s.lastProbe.insert dpid { ok := ok, detail := detail, «at» := now } }

/-- `connected_switch_dpids` -/
def connectedSwitchDpids (s : SwitchLiveness) : List Int :=
  (s.switches.keys.insertionSort (· ≤ ·)).filter fun dpid =>
    (s.lastProbe.lookup dpid).map Probe.ok ≠ some false

/-- `round(x, 3)` of a time in seconds: to milliseconds, and a half to the even one. -/
def roundMillis (ns : Int) : Int :=
  let q := ns / 1000000
  let r := ns % 1000000
  if r < 500000 then q else if 500000 < r then q + 1 else if q % 2 = 0 then q else q + 1

/-- `age` -/
def age (now : Int) : Option Int → Json
  | none => .null
  | some «then» => .float (roundMillis (now - «then»)) (-3)

/-- The entry of a switch in the reply. -/
def switchState (s : SwitchLiveness) (now dpid : Int) : Json :=
  let probe := s.lastProbe.lookup dpid
  let client := s.switches.lookup dpid
  .obj [
    ("probe_ok", (probe.map fun p => Json.bool p.ok).getD .null),
    ("probe_detail", .str ((probe.map Probe.detail).getD "")),
    ("probe_age_s", age now (probe.map Probe.at)),
    ("last_packet_in_age_s", age now (s.lastPacketIn.lookup dpid)),
    ("last_lldp_age_s", age now (s.lastLldpFrom.lookup dpid)),
    ("stream_alive", .bool ((client.map SwitchClient.streamAlive).getD false)),
    ("grpc_addr", (client.map SwitchClient.grpcAddr).getD .null)]

/-- The switches of the reply. -/
def reportedDpids (s : SwitchLiveness) : List Int :=
  (s.switches.keys ++ s.lastProbe.keys ++ s.lastLldpFrom.keys).dedup.insertionSort (· ≤ ·)

/-- `switch_liveness`; `links` is what `link_liveness` reports. -/
def switchLiveness (s : SwitchLiveness) (now : Int) (links : Json) : Json :=
  .obj [
    ("status", .str "success"),
    ("probe_interval_s", .float 20 (-1)),
    ("switches", .obj (s.reportedDpids.map fun dpid => (toString dpid, s.switchState now dpid))),
    ("links", links)]

end SwitchLiveness

/-- `render_switches` -/
def renderSwitches (switchDpids : List Int) : Json :=
  .arr ((switchDpids.insertionSort (· ≤ ·)).map fun dpid =>
    .obj [("dpid", .str (hexText 16 dpid)), ("ports", .arr [])])

end Ndtwin.Proxy

import Ndtwin.ForStd.AssocMap

/-!
# The link watchdog of the proxy agent

`p4_proxy/proxy_agent/topology_manager.py`: LLDP beacons refresh one entry per link
direction, and a watchdog thread periodically turns silence into a belief about the link
and reports the beliefs the kernel has not acknowledged.

The receive threads and the watchdog share `_link_beacons` under `_liveness_lock`; each
critical section is one step. The report to the kernel is an HTTP call made without the
lock, so between two steps of a pass any number of beacons can arrive. Times are those of
the monotonic clock, in its ticks, and so is the beacon interval they are compared with.
-/

namespace Ndtwin.Proxy

/-- A link direction: source switch and port, destination switch and port. -/
structure Link where
  srcDpid : Int
  srcPort : Int
  dstDpid : Int
  dstPort : Int
  deriving DecidableEq, Repr

/-- An entry of `_link_beacons`. -/
structure LinkEntry where
  «at» : Int
  down : Bool
  acked : Bool
  seen : Bool
  deriving DecidableEq

/-- What `check_link_beacons` returns. -/
structure PassResult where
  down : List Link := []
  up : List Link := []
  unacked : List Link := []
  deriving DecidableEq

/-- Where the watchdog thread is in `check_link_beacons`. -/
inductive WatchdogPhase where
  /-- Between two passes. -/
  | idle
  /-- At the head of the report loop, with what is still to be reported. -/
  | reporting (todo : List (Link × Bool)) (result : PassResult)
  /-- The kernel has accepted a report, and the entry is not marked yet. -/
  | acking (link : Link) (down : Bool) (todo : List (Link × Bool)) (result : PassResult)
  deriving DecidableEq

/-- The part of the `TopologyManager` that beacons and the watchdog work on. -/
structure LinkWatchdog where
  linkBeacons : AssocMap Link LinkEntry := ∅
  lastPacketIn : AssocMap Int Int := ∅
  lastLldpFrom : AssocMap Int Int := ∅
  /-- `LLDP_BEACON_INTERVAL_S`, which the environment can override. -/
  beaconInterval : Int
  phase : WatchdogPhase := .idle

namespace LinkWatchdog

/-- `LINK_BEACON_TIMEOUT_S` -/
def linkBeaconTimeout (w : LinkWatchdog) : Int := 3 * w.beaconInterval

/-- `LINK_STARTUP_GRACE_S` -/
def linkStartupGrace (w : LinkWatchdog) : Int := 6 * w.beaconInterval

/-- `_link_timeout` -/
def linkTimeout (w : LinkWatchdog) (entry : LinkEntry) : Int :=
  if entry.seen then w.linkBeaconTimeout else w.linkStartupGrace

/-- The bookkeeping of `handle_packet_in`, given what `parse_lldp_packet` made of the
    payload. -/
def handlePacketIn (w : LinkWatchdog) (now : Int) (deviceId ingressPort : Int)
    (lldpInfo : Option (Int × Int)) : LinkWatchdog :=
  let w := { w with lastPacketIn := w.lastPacketIn.set deviceId now }
  match lldpInfo with
  | none => w
  | some (srcDpid, srcPort) =>
    let w := { w with lastLldpFrom := w.lastLldpFrom.set srcDpid now }
    if srcDpid = deviceId then w
    else
      let link : Link :=
        { srcDpid := srcDpid, srcPort := srcPort, dstDpid := deviceId, dstPort := ingressPort }
      let entry :=
        match w.linkBeacons.lookup link with
        -- a link the kernel has never been told is down needs no telling that it is up
        | none => { «at» := now, down := false, acked := true, seen := true }
        | some entry => { entry with «at» := now, seen := true }
      { w with linkBeacons := w.linkBeacons.set link entry }

/-- The loop of `seed_expected_links` over the links of the topology file. -/
def seedExpectedLinks (w : LinkWatchdog) (now : Int) (links : List Link) : LinkWatchdog :=
  links.foldl (fun w link =>
    match w.linkBeacons.lookup link with
    | some _ => w
    | none =>
      let entry : LinkEntry := { «at» := now, down := false, acked := true, seen := false }
      { w with linkBeacons := w.linkBeacons.set link entry }) w

/-- The belief of an entry brought up to date: a change is not acknowledged. -/
def refresh (w : LinkWatchdog) (now : Int) (entry : LinkEntry) : LinkEntry :=
  let down : Bool := now - entry.at > w.linkTimeout entry
  if down ≠ entry.down then { entry with down := down, acked := false } else entry

/-- The links to report: those not acknowledged, with their belief. -/
def unackedOf (m : AssocMap Link LinkEntry) : List (Link × Bool) :=
  m.toPairs.filterMap fun (link, entry) => if entry.acked then none else some (link, entry.down)

/-- The first critical section of `check_link_beacons`. -/
def beginPass (w : LinkWatchdog) (now : Int) : LinkWatchdog :=
  let beacons := w.linkBeacons.mapVals fun _ entry => w.refresh now entry
  { w with linkBeacons := beacons, phase := .reporting (unackedOf beacons) {} }

/-- The second critical section: acknowledge the belief that was reported. -/
def acknowledge (w : LinkWatchdog) (link : Link) (down : Bool) : LinkWatchdog :=
  match w.linkBeacons.lookup link with
  | none => w
  | some entry =>
    if entry.down = down then
      { w with linkBeacons := w.linkBeacons.set link { entry with acked := true } }
    else w

/-- A link is listed as down or as up when the kernel took the report. -/
def PassResult.reported (r : PassResult) (link : Link) (down : Bool) : PassResult :=
  if down then { r with down := r.down ++ [link] } else { r with up := r.up ++ [link] }

def PassResult.refused (r : PassResult) (link : Link) : PassResult :=
  { r with unacked := r.unacked ++ [link] }

end LinkWatchdog

/-- A report made to the kernel, and its answer. -/
structure LinkReport where
  link : Link
  down : Bool
  accepted : Bool
  deriving DecidableEq

/-- The watchdog with the kernel at the other end. The last two fields are a history: the
    state of each link in the last report about it that the kernel accepted (`false`, that
    is up, when there is none), and the reports of the pass in progress, or of the last. -/
structure WatchdogSystem where
  w : LinkWatchdog
  kernelView : Link → Bool := fun _ => false
  passLog : List LinkReport := []

namespace WatchdogSystem

inductive Event where
  /-- A packet-in, with what `parse_lldp_packet` made of it. -/
  | packetIn (now : Int) (deviceId ingressPort : Int) (lldpInfo : Option (Int × Int))
  | seed (now : Int) (links : List Link)
  | beginPass (now : Int)
  /-- `_notify_link`: the kernel's answer; a call that raises is a refusal. -/
  | answer (accepted : Bool)
  | acknowledge
  | endPass

/-- One step; `none` when the event is not enabled. -/
def step (s : WatchdogSystem) : Event → Option WatchdogSystem
  | .packetIn now deviceId ingressPort lldpInfo =>
    some { s with w := s.w.handlePacketIn now deviceId ingressPort lldpInfo }
  | .seed now links => some { s with w := s.w.seedExpectedLinks now links }
  | .beginPass now =>
    match s.w.phase with
    | .idle => some { s with w := s.w.beginPass now, passLog := [] }
    | _ => none
  | .answer accepted =>
    match s.w.phase with
    | .reporting ((link, down) :: todo) result =>
      let report : LinkReport := { link := link, down := down, accepted := accepted }
      if accepted then
        some {
          w := { s.w with phase := .acking link down todo result }
          kernelView := fun l => if l = link then down else s.kernelView l
          passLog := s.passLog ++ [report] }
      else
        some { s with
          w := { s.w with phase := .reporting todo (LinkWatchdog.PassResult.refused result link) }
          passLog := s.passLog ++ [report] }
    | _ => none
  | .acknowledge =>
    match s.w.phase with
    | .acking link down todo result =>
      some { s with
        w := { s.w.acknowledge link down with
          phase := .reporting todo (LinkWatchdog.PassResult.reported result link down) } }
    | _ => none
  | .endPass =>
    match s.w.phase with
    | .reporting [] _ => some { s with w := { s.w with phase := .idle } }
    | _ => none

/-- A proxy that has just started, for a beacon interval. -/
def init (beaconInterval : Int) : WatchdogSystem := { w := { beaconInterval := beaconInterval } }

end WatchdogSystem

end Ndtwin.Proxy

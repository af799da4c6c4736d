import Ndtwin.Kernel.HttpSession
import Ndtwin.Proxy.RyuTopology

/-!
# Link state of proxy and kernel

The two processes that keep the state of the links: the proxy, whose watchdog turns beacons into
beliefs and reports what changes, and the kernel, which marks edges on a report and polls the
links the proxy lists. A report is handled by the kernel in one step, and so is the application
of a reply; between any two steps of a pass, packets can come in and replies can be made and
applied. Replies are applied in the order in which they were made.
-/

namespace Ndtwin.Twin

open Proxy Kernel

/-- The numbers of `_link_body` as the kernel reads them. -/
def payloadOf (link : Link) : LinkEventPayload where
  srcDpid := UInt64.ofInt link.srcDpid
  srcInterface := UInt32.ofInt link.srcPort
  dstDpid := UInt64.ofInt link.dstDpid
  dstInterface := UInt32.ofInt link.dstPort

/-- What `handle_packet_in` does to the graph: a link that is not in it yet is added. -/
def discoverLink (net : NetGraph) (deviceId ingressPort : Int) (lldpInfo : Option (Int × Int)) :
    NetGraph :=
  match lldpInfo with
  | none => net
  | some (srcDpid, srcPort) =>
    if srcDpid = deviceId then net
    else if (net.edges.lookup (.dpid srcDpid, .dpid deviceId)).isSome then net
    else net.addLink srcDpid deviceId srcPort ingressPort

structure LinkState where
  watchdog : WatchdogSystem
  net : NetGraph
  /-- The graph of the kernel. -/
  graph : Graph
  /-- The replies that the kernel has not applied yet, oldest first, as the links they list. -/
  replies : List (List Link) := []
  /-- A reply was applied since the links that the proxy would list last changed. -/
  polled : Bool := false

namespace LinkState

/-- The endpoints the proxy believes are down. -/
def down (s : LinkState) : List (Int × Int) := downLinkEndpoints s.watchdog.w.linkBeacons

/-- The links the proxy would list now. -/
def answer (s : LinkState) : List Link := s.net.listedLinks s.down

inductive Event where
  /-- A switch registers with the proxy. -/
  | addSwitch (dpid : Int)
  | packetIn (now : Int) (deviceId ingressPort : Int) (lldpInfo : Option (Int × Int))
  | seed (now : Int) (links : List Link)
  | beginPass (now : Int)
  /-- The next report of the pass reaches the kernel. -/
  | report
  | acknowledge
  | endPass
  /-- The proxy answers a poll. -/
  | makeReply
  /-- The kernel applies the oldest reply. -/
  | applyReply

/-- A step of the proxy: a reply applied before it counts as long as it changes nothing that
    would be listed. -/
def proxyStep (s s' : LinkState) : LinkState :=
  { s' with polled := s.polled && decide (s'.answer = s.answer) }

/-- A step of the watchdog; one that is not enabled does nothing. -/
def onWatchdog (s : LinkState) (e : WatchdogSystem.Event) : LinkState :=
  match s.watchdog.step e with
  | some watchdog => s.proxyStep { s with watchdog := watchdog }
  | none => s

/-- The kernel's side of a report: its answer and the graph. -/
def handleReport (link : Link) (down : Bool) (g : Graph) : HttpResponse × Graph :=
  if down then HttpSession.handleLinkFailure (payloadOf link) g
  else HttpSession.handleLinkRecovery (payloadOf link) g

def step (s : LinkState) : Event → LinkState
  | .addSwitch dpid => s.proxyStep { s with net := s.net.addSwitch dpid }
  | .packetIn now deviceId ingressPort lldpInfo =>
    match s.watchdog.step (.packetIn now deviceId ingressPort lldpInfo) with
    | some watchdog => s.proxyStep { s with
        watchdog := watchdog, net := discoverLink s.net deviceId ingressPort lldpInfo }
    | none => s
  | .seed now links => s.onWatchdog (.seed now links)
  | .beginPass now => s.onWatchdog (.beginPass now)
  | .report =>
    match s.watchdog.w.phase with
    | .reporting ((link, down) :: _) _ =>
      -- the notifier takes nothing but status 200 for an acceptance
      let (response, g) := handleReport link down s.graph
      { s with graph := g }.onWatchdog (.answer (decide (response.status = HttpStatus.ok)))
    | _ => s
  | .acknowledge => s.onWatchdog .acknowledge
  | .endPass => s.onWatchdog .endPass
  | .makeReply => { s with replies := s.replies ++ [s.answer] }
  | .applyReply =>
    match s.replies with
    | [] => s
    | reply :: replies =>
      { s with
        replies := replies
        graph := TopologyMonitor.updateLinks (.parsed (renderLinks reply)) s.graph
        polled := true }

/-- Both processes at their start. -/
def start (beaconInterval : Int) (net : NetGraph) (g : Graph) : LinkState :=
  { watchdog := WatchdogSystem.init beaconInterval, net := net, graph := g }

/-- Every entry of the watchdog is acknowledged, and a reply was applied since the last
    change. -/
def Settled (s : LinkState) : Prop :=
  (∀ link entry, s.watchdog.w.linkBeacons.lookup link = some entry → entry.acked = true) ∧
    s.polled = true

/-- The flag `isUp` of the kernel's edge for a link direction, found by its source. -/
def edgeUp (g : Graph) (link : Link) : Bool :=
  match g.edges.find? fun e => e.props.srcDpid = UInt64.ofInt link.srcDpid ∧
      e.props.srcInterface = UInt32.ofInt link.srcPort with
  | some e => e.props.isUp
  | none => false

end LinkState

end Ndtwin.Twin

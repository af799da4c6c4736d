import Ndtwin.Spec.FlowPathCorrect
import Ndtwin.Spec.InitialRoutesCorrect
import Ndtwin.Spec.LinkStateCorrect
import Ndtwin.Spec.PacketIoCorrect
import Ndtwin.Spec.SwitchTablesCorrect
import Ndtwin.Twin.Discovery

/-!
# Link Discovery Correctness

A beacon names the port it was sent out of, and the switch that punts it names the port it came
in on: what the proxy learns from the two is a cable. Nothing else that reaches the receive
threads is read as a beacon, as long as no host sends one, so the links of the graph and those
that the watchdog looks after are cables. A beacon that is not lost on its way puts its link into
the graph in both directions, and no exception ends the sender or a receive thread.

## Key results

- `exists_joins_of_step`: what one step leaves on the way
- `progress_step`: a beacon gets on, unless it is lost
- `discovery_correct`: every run
-/

namespace Ndtwin.Proxy

/-! ## What the other threads leave alone -/

/-- What route operations read and do not write: the graph, the watchdog, and which switches
    there are. -/
def Beside (m m' : TopologyManager) : Prop := SameFrame m m' ∧ m'.watchdog = m.watchdog

theorem Beside.refl (m : TopologyManager) : Beside m m := ⟨⟨rfl, fun _ => rfl⟩, rfl⟩

theorem Beside.trans {m₁ m₂ m₃ : TopologyManager} (h : Beside m₁ m₂) (h' : Beside m₂ m₃) :
    Beside m₁ m₃ :=
  ⟨h.1.trans h'.1, h'.2.trans h.2⟩

theorem beside_withSwitch {m : TopologyManager} {dpid : Int} {switch : P4Switch}
    (hswitch : m.switches.lookup dpid = some switch) (switch' : P4Switch) :
    Beside m (m.withSwitch dpid switch') :=
  ⟨sameFrame_withSwitch hswitch switch', rfl⟩

section Operations

variable {m₀ m : TopologyManager} (h : Beside m₀ m)
include h

theorem beside_onSwitch {α : Type} (dpid : Int) (call : ClientM α) :
    EState.EndsIn (Beside m₀) (onSwitch dpid call) m := by
  unfold EState.EndsIn
  cases hswitch : m.switches.lookup dpid with
  | none =>
    unfold EState.finalState onSwitch
    rw [hswitch]
    exact h
  | some switch =>
    cases hrun : call switch with
    | ok a switch' =>
      rw [EState.finalState_of_ok (onSwitch_of_ok hswitch hrun)]
      exact h.trans (beside_withSwitch hswitch switch')
    | error e switch' =>
      rw [EState.finalState_of_error (onSwitch_of_error hswitch hrun)]
      exact h.trans (beside_withSwitch hswitch switch')

theorem beside_recordRoute (dpid : Int) (ipv4Dst out : Json) :
    EState.EndsIn (Beside m₀) (recordRoute dpid ipv4Dst out) m := by
  unfold recordRoute
  split
  · exact h
  · exact h

theorem beside_withdrawRoute (dpid : Int) (ipv4Dst : Json) :
    EState.EndsIn (Beside m₀) (withdrawRoute dpid ipv4Dst) m := by
  unfold withdrawRoute
  split
  · exact h
  · exact h

/-- A call that writes to a switch, and the change of the record after it. -/
theorem beside_write_record {d : Int} {call : ClientM Bool} {record : RouteM Unit}
    (hrecord : ∀ m', Beside m₀ m' → EState.EndsIn (Beside m₀) record m') :
    EState.EndsIn (Beside m₀) (do
      let success ← onSwitch d call
      if success then do
        record
        return true
      else return false) m := by
  apply EState.endsIn_bind (beside_onSwitch h d call)
  intro success m' h'
  split
  · apply EState.endsIn_bind (hrecord m' h')
    intro _ m'' h''
    exact h''
  · exact h'

variable (dpid matchDict actions priority : Json) (answers : Answers)

theorem beside_routeFlow :
    EState.EndsIn (Beside m₀) (routeFlow dpid matchDict actions priority answers) m := by
  unfold routeFlow
  apply endsIn_storing m dpid matchDict actions h "installed"
    (fun keys mac out => insert5tupleRule keys (p4Priority priority) mac out answers)
    (fun ipv4Dst mac out => insertIpv4Route ipv4Dst 32 mac out answers)
  · intro d _ fields keys mac out _ _ _ _
    exact beside_onSwitch h d _
  · intro d _ fields mac out _ _
    exact beside_write_record h fun m' h' => beside_recordRoute h' d (ipv4DstOf fields) out

theorem beside_modifyFlow :
    EState.EndsIn (Beside m₀) (modifyFlow dpid matchDict actions priority answers) m := by
  unfold modifyFlow
  apply endsIn_storing m dpid matchDict actions h "modified"
    (fun keys mac out => modify5tupleRule keys (p4Priority priority) mac out answers)
    (fun ipv4Dst mac out => modifyIpv4Route ipv4Dst 32 mac out answers)
  · intro d _ fields keys mac out _ _ _ _
    exact beside_onSwitch h d _
  · intro d _ fields mac out _ _
    exact beside_write_record h fun m' h' => beside_recordRoute h' d (ipv4DstOf fields) out

theorem beside_unrouteFlow :
    EState.EndsIn (Beside m₀) (unrouteFlow dpid matchDict priority answers) m := by
  unfold unrouteFlow
  apply EState.endsIn_get_bind
  apply endsIn_py_bind h
  intro known _
  cases known with
  | none => exact h
  | some d =>
    apply endsIn_checkedMatch_bind h
    intro fields _
    simp only
    split
    · apply EState.endsIn_ofExcept_bind h
      intro keys _
      exact beside_onSwitch h d _
    · split
      · exact beside_write_record h fun m' h' => beside_withdrawRoute h' d (ipv4DstOf fields)
      · exact h

end Operations

theorem beside_installRoutes {m₀ m : TopologyManager} (h : Beside m₀ m) (answers : Nat → Answers)
    (tasks : List RouteTask) (installed attempted : Nat) :
    EState.EndsIn (Beside m₀) (installRoutes answers installed attempted tasks) m := by
  induction tasks generalizing installed attempted m with
  | nil => exact h
  | cons task tasks ih =>
    rw [installRoutes]
    apply EState.endsIn_get_bind
    apply endsIn_py_bind h
    intro route _
    apply EState.endsIn_bind (beside_onSwitch h route.dpid _)
    intro accepted m' h'
    split
    · apply EState.endsIn_bind (beside_recordRoute h' _ _ _)
      intro _ m'' h''
      exact ih h'' (installed + 1) (attempted + 1)
    · exact ih h' installed (attempted + 1)

theorem beside_installInitialRoutes {m₀ m : TopologyManager} (h : Beside m₀ m)
    (shortestPath : ShortestPath) (onlyDpid : Option Int) (answers : Nat → Answers) :
    EState.EndsIn (Beside m₀) (installInitialRoutes shortestPath onlyDpid answers) m := by
  -- the paths are set before the routes are installed
  have hpaths : ∀ paths, Beside m₀ { m with destPaths := paths } := fun _ => h
  exact beside_installRoutes (hpaths _) answers _ 0 0

/-- Re-adoption empties a switch that is known, and installs its routes. -/
theorem beside_readoptSwitch {m₀ m : TopologyManager} (h : Beside m₀ m)
    (shortestPath : ShortestPath) (dpid : Int) (env : ReadoptEnv) :
    EState.EndsIn (Beside m₀) (readoptSwitch shortestPath dpid env) m := by
  unfold readoptSwitch
  apply EState.endsIn_get_bind
  cases hswitch : m.switches.lookup dpid with
  | none => exact h
  | some switch =>
    simp only
    split
    · exact h
    · exact h
    split
    · exact h
    split
    · exact h
    show EState.EndsIn _ (installInitialRoutes shortestPath (some dpid) env.answers >>= _)
      (m.withSwitch dpid switch.pushPipeline)
    have hpushed := h.trans (beside_withSwitch hswitch switch.pushPipeline)
    apply EState.endsIn_bind
      (beside_installInitialRoutes hpushed shortestPath (some dpid) env.answers)
    intro result m' h'
    split
    · exact h'
    · exact h'

/-! ## Routes that can be written -/

/-- A shortest path that is found follows the edges of the graph. Only its first hop matters. -/
def FollowsEdges (shortestPath : ShortestPath) : Prop :=
  ∀ g s t path, s ≠ t → shortestPath g s t = some path →
    ∃ next rest, path = s :: next :: rest ∧ (g.edges.lookup (s, next)).isSome = true

/-- Every route over the graph can be written: a switch has a client, a host an address and a
    hardware address, and ports have two bytes. -/
structure Plannable (m : TopologyManager) : Prop where
  switch : ∀ v, m.net.isSwitch v = true →
    ∃ dpid, v = .dpid dpid ∧ (m.switches.lookup dpid).isSome = true
  host : ∀ v, Spec.isHost m.net v = true → ∃ ip, v = .ip ip ∧
    (∃ bytes, inetAton ip = .ok bytes) ∧ ∃ bytes, macBytes (m.net.macOf v) = .ok bytes
  port : ∀ dpid v port, m.net.edges.lookup (.dpid dpid, v) = some port → 0 ≤ port ∧ port < 2 ^ 16

theorem Plannable.writable {m : TopologyManager} (h : Plannable m) {shortestPath : ShortestPath}
    (hfollows : FollowsEdges shortestPath) {task : RouteTask}
    (htask : task ∈ tasksOf shortestPath m none) : Writable m task := by
  obtain ⟨-, -, hne, hhost, hswitch, hpath⟩ := Spec.mem_routeTasks.mp htask
  obtain ⟨dpid, hsrc, hclient⟩ := h.switch _ hswitch
  obtain ⟨ip, hdst, haddress, hmac⟩ := h.host _ hhost
  obtain ⟨next, rest, htaskPath, hedge⟩ := hfollows _ _ _ _ hne hpath
  -- the search leaves edges out, and adds none
  obtain ⟨port, hsome⟩ := Option.isSome_iff_exists.mp hedge
  have hport : m.net.edges.lookup (task.src, next) = some port := by
    rw [Spec.searchGraph, NetGraph.withoutDown, AssocMap.lookup_filterPairs] at hsome
    exact (Option.filter_eq_some_iff.mp hsome).1
  refine ⟨dpid, next, port, ip, hsrc, hdst, ?_, hport, hclient, h.port dpid next port (hsrc ▸ hport),
    haddress, hmac⟩
  rw [htaskPath, nextNode, if_pos rfl]

end Ndtwin.Proxy

namespace Ndtwin.Twin

open Proxy

/-! ## Cables -/

/-- A cable, with its ports as the proxy has them. -/
def Cabling.Joins (c : Cabling) (a p b q : Int) : Prop :=
  ∃ p' q' : BitVec 9, c.far (a, p') = some (b, q') ∧ p = p'.toNat ∧ q = q'.toNat

theorem Cabling.Joins.symm {c : Cabling} {a p b q : Int} (h : c.Joins a p b q) :
    c.Joins b q a p := by
  obtain ⟨p', q', hfar, hp, hq⟩ := h
  exact ⟨q', p', c.symm _ _ hfar, hq, hp⟩

/-- What the proxy is promised: its paths follow the edges of the graph, and the links of the
    topology file are cables. -/
structure Site.Reliable (site : Site) : Prop where
  follows : FollowsEdges site.shortestPath
  declared : ∀ l ∈ site.declared, site.cabling.Joins l.srcDpid l.srcPort l.dstDpid l.dstPort

namespace Discovery

variable {site : Site}

/-! ## What the manager knows -/

/-- The links of the manager are cables, and it can write its routes and beacons. -/
structure Knows (site : Site) (m : TopologyManager) : Prop where
  edge : ∀ a b p, m.net.edges.lookup (.dpid a, .dpid b) = some p →
    ∃ q, site.cabling.Joins a p b q ∧ m.net.edges.lookup (.dpid b, .dpid a) = some q
  link : ∀ l e, m.watchdog.linkBeacons.lookup l = some e →
    site.cabling.Joins l.srcDpid l.srcPort l.dstDpid l.dstPort
  plannable : Plannable m
  dpid : ∀ d, (m.switches.lookup d).isSome = true → 0 ≤ d ∧ d < 2 ^ 64

/-- Every edge and every entry of the link table is still there. -/
structure Extends (m m' : TopologyManager) : Prop where
  edge : ∀ k, (m.net.edges.lookup k).isSome = true → (m'.net.edges.lookup k).isSome = true
  link : ∀ l, (m.watchdog.linkBeacons.lookup l).isSome = true →
    (m'.watchdog.linkBeacons.lookup l).isSome = true

theorem Extends.refl (m : TopologyManager) : Extends m m := ⟨fun _ h => h, fun _ h => h⟩

theorem Extends.trans {m₁ m₂ m₃ : TopologyManager} (h : Extends m₁ m₂) (h' : Extends m₂ m₃) :
    Extends m₁ m₃ :=
  ⟨fun k hk => h'.edge k (h.edge k hk), fun l hl => h'.link l (h.link l hl)⟩

section Manager

variable {m m' : TopologyManager}

theorem Knows.beside (h : Knows site m) (hb : Beside m m') : Knows site m' := by
  obtain ⟨⟨hnet, hswitches⟩, hwatchdog⟩ := hb
  refine ⟨?_, ?_, ⟨?_, ?_, ?_⟩, ?_⟩
  · rw [hnet]
    exact h.edge
  · rw [hwatchdog]
    exact h.link
  · intro v hv
    rw [hnet] at hv
    obtain ⟨d, hd, hclient⟩ := h.plannable.switch v hv
    exact ⟨d, hd, (hswitches d).trans hclient⟩
  · rw [hnet]
    exact h.plannable.host
  · rw [hnet]
    exact h.plannable.port
  · intro d hd
    rw [hswitches] at hd
    exact h.dpid d hd

theorem extends_of_beside (hb : Beside m m') : Extends m m' := by
  obtain ⟨⟨hnet, -⟩, hwatchdog⟩ := hb
  refine ⟨?_, ?_⟩
  · rw [hnet]
    exact fun _ h => h
  · rw [hwatchdog]
    exact fun _ h => h

/-- Only the watchdog changes, and enters no link that is no cable. -/
theorem Knows.setWatchdog (h : Knows site m) {w : LinkWatchdog}
    (hw : ∀ l e, w.linkBeacons.lookup l = some e →
      (∃ e₀, m.watchdog.linkBeacons.lookup l = some e₀) ∨
        site.cabling.Joins l.srcDpid l.srcPort l.dstDpid l.dstPort) :
    Knows site { m with watchdog := w } where
  edge := h.edge
  link l e hl := by
    cases hw l e hl with
    | inl hold =>
      obtain ⟨e₀, he₀⟩ := hold
      exact h.link l e₀ he₀
    | inr hjoins => exact hjoins
  plannable := ⟨h.plannable.switch, h.plannable.host, h.plannable.port⟩
  dpid := h.dpid

theorem isSome_of_beliefsKept {t t' : AssocMap Link LinkEntry} (h : Spec.BeliefsKept t t')
    {l : Link} (hl : (t.lookup l).isSome = true) : (t'.lookup l).isSome = true := by
  have hbelief : ∀ t : AssocMap Link LinkEntry,
      (Spec.beliefOf t l).isSome = (t.lookup l).isSome := fun t => Option.isSome_map
  rw [← hbelief] at hl ⊢
  cases h l with
  | inl hsame => exact hsame ▸ hl
  | inr hnew =>
    rw [hnew.2]
    rfl

theorem isSome_acknowledge (w : LinkWatchdog) (link : Link) (down : Bool) (l : Link) :
    ((w.acknowledge link down).linkBeacons.lookup l).isSome = (w.linkBeacons.lookup l).isSome := by
  have hdown := congrArg Option.isSome (Spec.downOf_acknowledge w link down l)
  rwa [Spec.downOf, Spec.downOf, Option.isSome_map, Option.isSome_map] at hdown

/-- The steps of the other threads. -/
theorem other_step (hsite : site.Reliable) (h : Knows site m) (thread : OtherThread) :
    Knows site (thread.step site m) ∧ Extends m (thread.step site m) := by
  have hroute : ∀ m', Beside m m' → Knows site m' ∧ Extends m m' :=
    fun m' hb => ⟨h.beside hb, extends_of_beside hb⟩
  cases thread with
  | routeFlow dpid matchDict actions priority answers =>
    exact hroute _ (beside_routeFlow (.refl m) dpid matchDict actions priority answers)
  | unrouteFlow dpid matchDict priority answers =>
    exact hroute _ (beside_unrouteFlow (.refl m) dpid matchDict priority answers)
  | modifyFlow dpid matchDict actions priority answers =>
    exact hroute _ (beside_modifyFlow (.refl m) dpid matchDict actions priority answers)
  | installInitialRoutes onlyDpid answers =>
    exact hroute _ (beside_installInitialRoutes (.refl m) site.shortestPath onlyDpid answers)
  | readoptSwitch dpid env =>
    exact hroute _ (beside_readoptSwitch (.refl m) site.shortestPath dpid env)
  | probe dpid answered => exact hroute _ ⟨⟨rfl, fun _ => rfl⟩, rfl⟩
  | seedExpectedLinks now =>
    refine ⟨h.setWatchdog fun l e hl => ?_, fun _ hk => hk, ?_⟩
    · exact (Spec.lookup_seedExpectedLinks hl).imp_right (hsite.declared l)
    · intro l hl
      have hkept := (Spec.seedExpectedLinks_beliefs now site.declared m.watchdog).1
      exact isSome_of_beliefsKept hkept hl
  | refreshBeliefs now =>
    have hlookup : ∀ l, (Proxy.refreshBeliefs m.watchdog now).linkBeacons.lookup l =
        (m.watchdog.linkBeacons.lookup l).map (m.watchdog.refresh now) :=
      fun l => AssocMap.lookup_mapVals _ _ _
    refine ⟨h.setWatchdog fun l e hl => ?_, fun _ hk => hk, ?_⟩
    · rw [hlookup] at hl
      obtain ⟨e₀, he₀, -⟩ := Option.map_eq_some_iff.mp hl
      exact .inl ⟨e₀, he₀⟩
    · intro l hl
      show ((Proxy.refreshBeliefs m.watchdog now).linkBeacons.lookup l).isSome = true
      rw [hlookup, Option.isSome_map]
      exact hl
  | acknowledge link down =>
    have hsome := isSome_acknowledge m.watchdog link down
    refine ⟨h.setWatchdog fun l e hl => ?_, fun _ hk => hk, ?_⟩
    · have hl' := hsome l
      rw [hl, Option.isSome_some] at hl'
      exact .inl (Option.isSome_iff_exists.mp hl'.symm)
    · intro l hl
      exact (hsome l).trans hl

/-! ## A packet-in at the manager -/

theorem lookup_addLink (net : NetGraph) (a b p q : Int) (k : NetNode × NetNode) :
    (net.addLink a b p q).edges.lookup k =
      if k = (.dpid b, .dpid a) then some q
      else if k = (.dpid a, .dpid b) then some p else net.edges.lookup k := by
  rw [NetGraph.addLink, Spec.lookup_addEdge, Spec.lookup_addEdge]

/-- An end of an edge that is not a node yet gets no attribute. -/
theorem attribute_addEdge {α : Type} {read : NetNodeData → Option α}
    (hnone : read {} = none) (net : NetGraph) (u v w : NetNode) (port : Int) :
    ((net.addEdge u v port).nodes.lookup w).bind read =
      (net.nodes.lookup w).bind read := by
  have htouch : ∀ (net : NetGraph) (n : NetNode),
      ((net.touchNode n).nodes.lookup w).bind read =
        (net.nodes.lookup w).bind read := by
    intro net n
    unfold NetGraph.touchNode
    split
    · rfl
    · next hmiss =>
      dsimp only
      rw [AssocMap.lookup_set]
      split
      · next heq =>
        rw [heq, hmiss]
        exact hnone
      · rfl
  exact (htouch _ v).trans (htouch net u)

theorem isSwitch_addLink (net : NetGraph) (a b p q : Int) (v : NetNode) :
    (net.addLink a b p q).isSwitch v = net.isSwitch v := by
  rw [NetGraph.isSwitch, NetGraph.isSwitch, NetGraph.addLink, attribute_addEdge rfl,
    attribute_addEdge rfl]

theorem isHost_addLink (net : NetGraph) (a b p q : Int) (v : NetNode) :
    Spec.isHost (net.addLink a b p q) v = Spec.isHost net v := by
  rw [Spec.isHost, Spec.isHost, NetGraph.addLink, attribute_addEdge rfl, attribute_addEdge rfl]

theorem macOf_addLink (net : NetGraph) (a b p q : Int) (v : NetNode) :
    (net.addLink a b p q).macOf v = net.macOf v := by
  rw [NetGraph.macOf, NetGraph.macOf, NetGraph.addLink, attribute_addEdge rfl,
    attribute_addEdge rfl]

/-- A cable that is taken up as a link. -/
theorem Knows.addLink (h : Knows site m) {a b p q : Int} (hjoins : site.cabling.Joins a p b q)
    (hne : a ≠ b) : Knows site { m with net := m.net.addLink a b p q } where
  edge a' b' p' hedge := by
    have hedge' : (m.net.addLink a b p q).edges.lookup (.dpid a', .dpid b') = some p' := hedge
    show ∃ q', site.cabling.Joins a' p' b' q' ∧
      (m.net.addLink a b p q).edges.lookup (.dpid b', .dpid a') = some q'
    rw [lookup_addLink] at hedge' ⊢
    split_ifs at hedge' with hback hthere
    · obtain ⟨rfl, rfl⟩ : a' = b ∧ b' = a := by simpa using hback
      obtain rfl := Option.some.inj hedge'
      exact ⟨p, hjoins.symm, by simp [hne]⟩
    · obtain ⟨rfl, rfl⟩ : a' = a ∧ b' = b := by simpa using hthere
      obtain rfl := Option.some.inj hedge'
      exact ⟨q, hjoins, by simp⟩
    · -- another edge, whose other direction is not one of the two either
      obtain ⟨q', hold, hlookup⟩ := h.edge a' b' p' hedge'
      refine ⟨q', hold, ?_⟩
      rw [if_neg, if_neg, hlookup]
      · rintro heq
        obtain ⟨rfl, rfl⟩ : b' = a ∧ a' = b := by simpa using heq
        exact hback rfl
      · rintro heq
        obtain ⟨rfl, rfl⟩ : b' = b ∧ a' = a := by simpa using heq
        exact hthere rfl
  link := h.link
  plannable :=
    { switch := fun v hv => h.plannable.switch v (by rwa [isSwitch_addLink] at hv)
      host := fun v hv => by
        have hhost : Spec.isHost (m.net.addLink a b p q) v = true := hv
        rw [isHost_addLink] at hhost
        obtain ⟨ip, hip, haddress, hmac⟩ := h.plannable.host v hhost
        refine ⟨ip, hip, haddress, ?_⟩
        show ∃ bytes, macBytes ((m.net.addLink a b p q).macOf v) = .ok bytes
        rw [macOf_addLink]
        exact hmac
      port := fun d v port hedge => by
        have hedge' : (m.net.addLink a b p q).edges.lookup (.dpid d, v) = some port := hedge
        obtain ⟨p', q', -, rfl, rfl⟩ := hjoins
        have hp := p'.isLt
        have hq := q'.isLt
        rw [lookup_addLink] at hedge'
        split_ifs at hedge'
        · obtain rfl := Option.some.inj hedge'
          omega
        · obtain rfl := Option.some.inj hedge'
          omega
        · exact h.plannable.port d v port hedge' }
  dpid := h.dpid

/-- A frame that is read as a beacon tells of a cable from its port to this one. -/
def Truthful (site : Site) (dpid port : Int) (frame : List UInt8) : Prop :=
  ∀ a p, parseLldpPacket frame = .ok (some (a, p)) → site.cabling.Joins a p dpid port

/-- The link is in the graph, both ways, and the watchdog looks after it. -/
structure Heard (m : TopologyManager) (a p b q : Int) : Prop where
  there : (m.net.edges.lookup (.dpid a, .dpid b)).isSome = true
  back : (m.net.edges.lookup (.dpid b, .dpid a)).isSome = true
  link : (m.watchdog.linkBeacons.lookup ⟨a, p, b, q⟩).isSome = true

theorem Heard.extends {a p b q : Int} (h : Heard m a p b q) (he : Extends m m') :
    Heard m' a p b q :=
  ⟨he.edge _ h.there, he.edge _ h.back, he.link _ h.link⟩

/-- A beacon of another switch is entered into the link table. -/
theorem isSome_handlePacketIn (w : LinkWatchdog) (now deviceId ingressPort : Int) {a p : Int}
    (hne : a ≠ deviceId) :
    ((w.handlePacketIn now deviceId ingressPort (some (a, p))).linkBeacons.lookup
      ⟨a, p, deviceId, ingressPort⟩).isSome = true := by
  rw [LinkWatchdog.handlePacketIn]
  dsimp only
  rw [if_neg hne]
  dsimp only
  rw [AssocMap.lookup_set, if_pos rfl, Option.isSome_some]

/-- The bookkeeping of a packet-in. -/
theorem recordPacketIn_spec (h : Knows site m) {dpid : Int} {packet : StreamPacket}
    (htruthful : Truthful site dpid packet.ingressPort packet.payload)
    {info : Option (Int × Int)} (hparse : parseLldpPacket packet.payload = .ok info) :
    Knows site (packet.recordPacketIn dpid info m) ∧
      Extends m (packet.recordPacketIn dpid info m) := by
  refine ⟨h.setWatchdog fun l e hl => ?_, fun _ hk => hk, fun l hl => ?_⟩
  · refine (Spec.lookup_handlePacketIn hl).imp_right ?_
    rintro ⟨a, p, rfl, -, rfl⟩
    exact htruthful a p hparse
  · exact isSome_of_beliefsKept
      (Spec.handlePacketIn_beliefs m.watchdog packet.now dpid packet.ingressPort info).1 hl

/-- Taking up a cable as a new link. -/
theorem discoverLink_spec (hsite : site.Reliable) {dpid a p : Int} {packet : StreamPacket}
    (hrecord : Knows site (packet.recordPacketIn dpid (some (a, p)) m))
    (hjoins : site.cabling.Joins a p dpid packet.ingressPort) (hnew : IsNew m.net dpid a) :
    ∃ m', StreamPacket.discoverLink site.shortestPath dpid packet (some (a, p))
        (packet.recordPacketIn dpid (some (a, p)) m) = .ok () m' ∧ Knows site m' ∧
      Beside (discovered dpid packet a p m) m' := by
  have hadd : Knows site (discovered dpid packet a p m) := hrecord.addLink hjoins hnew.1
  -- all routes over the new graph can be written
  have hok : EState.isOk ((installInitialRoutes site.shortestPath none packet.answers >>=
      fun _ => pure ()) (discovered dpid packet a p m)) = true := by
    rw [EState.isOk_bind_of_pure, isOk_installInitialRoutes_iff]
    exact fun task htask => hadd.plannable.writable hsite.follows htask
  have hbeside := beside_installInitialRoutes (Beside.refl (discovered dpid packet a p m))
    site.shortestPath none packet.answers
  have hrun := EState.eq_ok_of_isOk hok
  rw [EState.finalState_bind_of_keeps fun _ _ => rfl] at hrun
  exact ⟨_, (discoverLink_of_new (packet.recordPacketIn dpid (some (a, p)) m) hnew p).trans hrun,
    hadd.beside hbeside, hbeside⟩

theorem heard_discovered {dpid a p : Int} {packet : StreamPacket} (hne : a ≠ dpid) :
    Heard (discovered dpid packet a p m) a p dpid packet.ingressPort := by
  have hedges := lookup_addLink m.net a dpid p packet.ingressPort
  refine ⟨?_, ?_, isSome_handlePacketIn m.watchdog packet.now dpid packet.ingressPort hne⟩
  · show ((m.net.addLink a dpid p packet.ingressPort).edges.lookup _).isSome = true
    rw [hedges, if_neg (by simp [hne]), if_pos rfl, Option.isSome_some]
  · show ((m.net.addLink a dpid p packet.ingressPort).edges.lookup _).isSome = true
    rw [hedges, if_pos rfl, Option.isSome_some]

theorem extends_addLink (m : TopologyManager) (a b p q : Int) :
    Extends m { m with net := m.net.addLink a b p q } := by
  refine ⟨fun k hk => ?_, fun _ hl => hl⟩
  show ((m.net.addLink a b p q).edges.lookup k).isSome = true
  rw [lookup_addLink]
  split_ifs
  · rfl
  · rfl
  · exact hk

/-- A truthful packet-in does not raise, and a beacon of another switch is heard. -/
theorem handlePacketIn_spec (hsite : site.Reliable) (h : Knows site m) {dpid : Int}
    (packet : StreamPacket) (htruthful : Truthful site dpid packet.ingressPort packet.payload) :
    ∃ m', packet.handlePacketIn site.shortestPath dpid m = .ok () m' ∧ Knows site m' ∧
      Extends m m' ∧ ∀ a p, parseLldpPacket packet.payload = .ok (some (a, p)) → a ≠ dpid →
        Heard m' a p dpid packet.ingressPort := by
  obtain ⟨info, hparse⟩ := parseLldpPacket_total packet.payload
  obtain ⟨hrecord, hextends⟩ := recordPacketIn_spec h htruthful hparse
  rw [handlePacketIn_of_parse hparse]
  by_cases hnew : ∃ a p, info = some (a, p) ∧ IsNew m.net dpid a
  · obtain ⟨a, p, rfl, hnew⟩ := hnew
    obtain ⟨m', hrun, hknows, hbeside⟩ := discoverLink_spec hsite hrecord (htruthful a p hparse) hnew
    have hlater := extends_of_beside hbeside
    refine ⟨m', hrun, hknows, (hextends.trans (extends_addLink _ _ _ _ _)).trans hlater, ?_⟩
    intro a' p' hparse' _
    cases hparse.symm.trans hparse'
    exact (heard_discovered hnew.1).extends hlater
  · have hold : ∀ a p, info = some (a, p) → ¬ IsNew m.net dpid a :=
      fun a p hinfo hn => hnew ⟨a, p, hinfo, hn⟩
    refine ⟨_, discoverLink_of_old (packet.recordPacketIn dpid info m) hold, hrecord, hextends, ?_⟩
    intro a p hparse' hne
    cases hparse.symm.trans hparse'
    -- the graph has the link, and with it the way back
    have hsome : (m.net.edges.lookup (.dpid a, .dpid dpid)).isSome = true := by
      rw [Option.isSome_iff_ne_none]
      exact fun hnone => hold a p rfl ⟨hne, hnone⟩
    obtain ⟨port, hport⟩ := Option.isSome_iff_exists.mp hsome
    obtain ⟨q, -, hback⟩ := h.edge a dpid port hport
    exact ⟨hsome, Option.isSome_iff_exists.mpr ⟨q, hback⟩,
      isSome_handlePacketIn m.watchdog packet.now dpid packet.ingressPort hne⟩

end Manager

/-! ## What is on its way -/

/-- A frame of another type is read as no beacon. -/
theorem truthful_of_type {dpid port : Int} {frame : List UInt8}
    (h : Program.etherTypeOf frame ≠ some Program.typeLldp) : Truthful site dpid port frame :=
  fun _ _ hparse => absurd (Program.etherTypeOf_of_beacon hparse) h

/-- What the manager would get of a packet that leaves through the CPU port is truthful. -/
def PuntsTruthful (site : Site) (dpid : Int) (packet : List UInt8) : Prop :=
  ∀ message port payload, packetInOf packet = some message →
    dispatchPacketIn message = .packetIn port payload → Truthful site dpid port payload

/-- A frame behind the header of `send_to_cpu`. -/
theorem puntsTruthful_punt {dpid : Int} {ingressPort : BitVec 9} {frame : List UInt8}
    (h : Truthful site dpid ingressPort.toNat frame) :
    PuntsTruthful site dpid
      (Program.emit (some (Program.puntHeader ingressPort).toBits) ++ frame) := by
  intro message port payload hmessage hdispatch
  obtain ⟨message', hmessage', hdispatch'⟩ := dispatchPacketIn_punt ingressPort frame
  obtain rfl := Option.some.inj (hmessage.symm.trans hmessage')
  cases hdispatch.symm.trans hdispatch'
  exact h

theorem puntsTruthful_sampledCopy (dpid : Int) (ingressPort egressPort : BitVec 9)
    (frame : List UInt8) :
    PuntsTruthful site dpid (Program.sampledCopy ingressPort egressPort frame) := by
  intro message port payload hmessage hdispatch
  obtain ⟨message', hmessage', hempty⟩ :=
    dispatchPacketIn_sampledCopy ingressPort egressPort frame
  obtain rfl := Option.some.inj (hmessage.symm.trans hmessage')
  rw [hempty port payload hdispatch]
  exact truthful_of_type (by decide)

/-- The invariant: what the manager knows, and what is on its way to it, are cables. -/
structure Sound (site : Site) (s : Discovery) : Prop where
  knows : Knows site s.manager
  frames : ∀ f ∈ s.frames,
    f.1.2 ≠ Program.cpuPort ∧ Truthful site f.1.1 f.1.2.toNat f.2
  packetIns : ∀ f ∈ s.packetIns, ∀ port payload,
    dispatchPacketIn f.2 = .packetIn port payload → Truthful site f.1 port payload
  ended : s.ended = []
  beaconing : s.beaconing = true

section Step

variable {s s' : Discovery}

theorem Sound.punt (h : Sound site s) {dpid : Int} {packet : List UInt8}
    (hpacket : PuntsTruthful site dpid packet) : Sound site (s.punt dpid packet) := by
  unfold Discovery.punt
  split
  · exact h
  · next message hmessage =>
    refine { h with packetIns := fun f hf => ?_ }
    cases List.mem_append.mp hf with
    | inl hold => exact h.packetIns f hold
    | inr hnew =>
      obtain rfl := List.mem_singleton.mp hnew
      exact fun port payload hdispatch => hpacket message port payload hmessage hdispatch

theorem Sound.emit (h : Sound site s) {dpid : Int} {out : Option (BitVec 9 × List UInt8)}
    (hcpu : ∀ packet, out = some (Program.cpuPort, packet) → PuntsTruthful site dpid packet)
    (hcable : ∀ port packet e, out = some (port, packet) → port ≠ Program.cpuPort →
      site.cabling.far (dpid, port) = some e → Truthful site e.1 e.2.toNat packet) :
    Sound site (s.emit site.cabling dpid out) := by
  unfold Discovery.emit
  split
  · exact h
  · next port packet =>
    split
    · next heq => exact h.punt (hcpu packet (by rw [heq]))
    · next hport =>
      split
      · exact h
      · next e hfar =>
        refine { h with frames := fun f hf => ?_ }
        cases List.mem_append.mp hf with
        | inl hold => exact h.frames f hold
        | inr hnew =>
          obtain rfl := List.mem_singleton.mp hnew
          -- the other end of a cable is no CPU port
          exact ⟨site.cabling.data _ _ (site.cabling.symm _ _ hfar),
            hcable port packet e rfl hport hfar⟩

/-- A truthful frame through a switch. -/
theorem Sound.forward (h : Sound site s) {dpid : Int} {port : BitVec 9} {frame : List UInt8}
    {tables : Program.Tables} (hport : port ≠ Program.cpuPort)
    (htruthful : Truthful site dpid port.toNat frame) (htables : Program.SparesCpu tables)
    (sampled : Bool) : Sound site (s.forward site.cabling dpid port frame tables sampled) := by
  have hemit : Sound site
      (s.emit site.cabling dpid (Program.run tables port frame)) := by
    by_cases htype : Program.etherTypeOf frame = some Program.typeLldp
    · rw [Program.run_of_lldp hport htype]
      refine h.emit (fun packet hout => ?_) (fun port' packet e hout hne => ?_)
      · obtain rfl := (Prod.mk.inj (Option.some.inj hout)).2
        exact puntsTruthful_punt htruthful
      · exact absurd (Prod.mk.inj (Option.some.inj hout)).1.symm hne
    · refine h.emit (fun packet hout => ?_) (fun port' packet e hout hne _ => ?_)
      · cases Program.run_of_not_lldp hport htype hout with
        | inl hpunt =>
          obtain ⟨-, frame', rfl, htype'⟩ := hpunt
          exact puntsTruthful_punt (truthful_of_type (htype' ▸ htype))
        | inr hsent => exact absurd rfl (hsent.2 htables)
      · cases Program.run_of_not_lldp hport htype hout with
        | inl hpunt => exact absurd hpunt.1 hne
        | inr hsent => exact truthful_of_type (hsent.1 ▸ htype)
  unfold Discovery.forward
  dsimp only
  split
  · exact hemit.punt (puntsTruthful_sampledCopy _ _ _ _)
  · exact hemit

theorem Sound.deliver (hsite : site.Reliable) (h : Sound site s) {dpid : Int}
    {message : PacketMessage}
    (htruthful : ∀ port payload, dispatchPacketIn message = .packetIn port payload →
      Truthful site dpid port payload) (now : Int) (answers : Nat → Answers) :
    Sound site (s.deliver site.shortestPath dpid now answers message) := by
  unfold Discovery.deliver
  split
  · exact h
  · next port payload hdispatch =>
    obtain ⟨m', hrun, hknows, -⟩ := handlePacketIn_spec hsite h.knows
      { now := now, ingressPort := port, payload := payload, answers := answers }
      (htruthful port payload hdispatch)
    dsimp only
    rw [hrun]
    exact { h with knows := hknows }

/-! ## Ports that beacon -/

theorem mem_loadSwitchLinkPorts {links : List Link} {dpid port : Int} {ports : List Int}
    (h : (loadSwitchLinkPorts links).lookup dpid = some ports) (hport : port ∈ ports) :
    ∃ l ∈ links, l.srcDpid = dpid ∧ l.srcPort = port := by
  -- what was there before the loop, and what the loop adds
  have hloop : ∀ (links : List Link) (known : AssocMap Int (List Int)) (ports : List Int),
      (links.foldl (fun ports l => ports.set l.srcDpid (SortedInsert.insertNew
        (fun p q : Int => p < q) id l.srcPort ((ports.lookup l.srcDpid).getD []))) known).lookup
          dpid = some ports → port ∈ ports →
      port ∈ (known.lookup dpid).getD [] ∨ ∃ l ∈ links, l.srcDpid = dpid ∧ l.srcPort = port := by
    intro links
    induction links with
    | nil =>
      intro known ports hlookup hport
      rw [List.foldl_nil] at hlookup
      rw [hlookup]
      exact .inl hport
    | cons l links ih =>
      intro known ports hlookup hport
      rw [List.foldl_cons] at hlookup
      cases ih _ ports hlookup hport with
      | inr hlater =>
        obtain ⟨l', hl', hsame⟩ := hlater
        exact .inr ⟨l', List.mem_cons_of_mem l hl', hsame⟩
      | inl hset =>
        rw [AssocMap.lookup_set] at hset
        split_ifs at hset with hdpid
        · cases SortedInsert.mem_of_mem_insertNew hset with
          | inl hnew => exact .inr ⟨l, List.mem_cons_self, hdpid.symm, hnew.symm⟩
          | inr hold => exact .inl (hdpid ▸ hold)
        · exact .inl hset
  have hstart := hloop links ∅ ports h hport
  simpa using hstart

/-- A port that the sender serves is one of nine bits, and not the CPU port. -/
theorem exists_port_of_mem (hsite : site.Reliable) {dpid port : Int}
    (h : port ∈ lldpPortsFor (loadSwitchLinkPorts site.declared) dpid) :
    ∃ port' : BitVec 9, port = port'.toNat ∧ port' ≠ Program.cpuPort := by
  have hfallback : ∀ port ∈ lldpFallbackPorts,
      ∃ port' : BitVec 9, port = port'.toNat ∧ port' ≠ Program.cpuPort := by
    intro port hport
    refine ⟨BitVec.ofNat 9 port.toNat, ?_⟩
    revert port
    decide
  unfold lldpPortsFor at h
  split at h
  · exact hfallback port h
  · exact hfallback port h
  · next ports _ hports =>
    obtain ⟨l, hl, -, rfl⟩ := mem_loadSwitchLinkPorts hports h
    obtain ⟨p, q, hfar, hp, -⟩ := hsite.declared l hl
    exact ⟨p, hp, site.cabling.data _ _ hfar⟩

/-- The packet of a beacon: the switch sends the beacon out of its port, as it was made. -/
theorem beacon_spec {dpid : Int} (hdpid : 0 ≤ dpid ∧ dpid < 2 ^ 64) (port : BitVec 9) :
    ∃ frame message packet, beaconMessage dpid port.toNat = .ok message ∧
      packetOutOf message = some packet ∧
      parseLldpPacket frame = .ok (some (dpid, (port.toNat : Int))) ∧
      ∀ tables, Program.run tables Program.cpuPort packet = some (port, frame) := by
  obtain ⟨n, rfl⟩ := Int.eq_ofNat_of_zero_le hdpid.1
  have hport := port.isLt
  have hdpid64 : n < 2 ^ 64 := by omega
  have hport32 : port.toNat < 2 ^ 32 := by omega
  obtain ⟨frame, hframe⟩ := exists_createLldpPacket hdpid64 hport32
  have hparse := parseLldpPacket_createLldpPacket hframe
  obtain ⟨message, hmessage, hpacket⟩ := packetOutOf_sendPacketOut port frame
  refine ⟨frame, message, _, ?_, hpacket, hparse, fun tables => ?_⟩
  · rw [beaconMessage, hframe, EState.ok_bind, hmessage]
  · exact Program.run_packetOut port 0 (Program.etherTypeOf_of_beacon hparse)

/-- An event that no one outside of the fabric takes for a beacon, and whose tables leave the CPU
    port to `send_to_cpu`. -/
def Event.Allowed : Event → Prop
  | .inject _ frame => parseLldpPacket frame = .ok none
  | .arrive _ tables _ => Program.SparesCpu tables
  | .beacon _ _ _ | .loseFrame _ | .receive _ _ _ | .losePacketIn _ | .other _ => True

theorem Sound.eraseFrame (h : Sound site s) (i : Nat) :
    Sound site { s with frames := s.frames.eraseIdx i } :=
  { h with frames := fun f hf => h.frames f (List.mem_of_mem_eraseIdx hf) }

theorem Sound.erasePacketIn (h : Sound site s) (i : Nat) :
    Sound site { s with packetIns := s.packetIns.eraseIdx i } :=
  { h with packetIns := fun f hf => h.packetIns f (List.mem_of_mem_eraseIdx hf) }

/-- One step keeps the invariant. -/
theorem sound_step (hsite : site.Reliable) (h : Sound site s) {e : Event} (he : e.Allowed)
    (hstep : step site s e = some s') : Sound site s' := by
  cases e with
  | beacon dpid port tables =>
    rw [step] at hstep
    split at hstep
    · next hcond =>
      obtain ⟨port', rfl, hcpu⟩ := exists_port_of_mem hsite hcond.2.2
      obtain ⟨frame, message, packet, hmessage, hpacket, hparse, hrun⟩ :=
        beacon_spec (h.knows.dpid dpid hcond.2.1) port'
      rw [hmessage] at hstep
      dsimp only at hstep
      rw [hpacket] at hstep
      dsimp only at hstep
      rw [hrun] at hstep
      obtain rfl := Option.some.inj hstep
      refine h.emit (fun packet hout => ?_) (fun port packet e hout _ hfar => ?_)
      · exact absurd (Prod.mk.inj (Option.some.inj hout)).1 hcpu
      · obtain ⟨rfl, rfl⟩ := Prod.mk.inj (Option.some.inj hout)
        intro a p hparse'
        cases hparse.symm.trans hparse'
        exact ⟨port', e.2, hfar, rfl, rfl⟩
    · simp at hstep
  | inject endpoint frame =>
    rw [step] at hstep
    split at hstep
    · simp at hstep
    · next hport =>
      obtain rfl := Option.some.inj hstep
      refine { h with frames := fun f hf => ?_ }
      cases List.mem_append.mp hf with
      | inl hold => exact h.frames f hold
      | inr hnew =>
        obtain rfl := List.mem_singleton.mp hnew
        refine ⟨hport, fun a p hparse => ?_⟩
        cases he.symm.trans hparse
  | arrive i tables sampled =>
    rw [step] at hstep
    split at hstep
    · simp at hstep
    · next dpid port frame hget =>
      obtain rfl := Option.some.inj hstep
      obtain ⟨hport, htruthful⟩ := h.frames _ (List.mem_of_getElem? hget)
      exact (h.eraseFrame i).forward hport htruthful he sampled
  | loseFrame i =>
    rw [step] at hstep
    obtain ⟨-, hstep⟩ := Option.ite_none_right_eq_some.mp hstep
    exact Option.some.inj hstep ▸ h.eraseFrame i
  | receive i now answers =>
    rw [step] at hstep
    split at hstep
    · simp at hstep
    · next dpid message hget =>
      rw [if_neg (by rw [h.ended]; exact List.not_mem_nil)] at hstep
      obtain rfl := Option.some.inj hstep
      exact (h.erasePacketIn i).deliver hsite (h.packetIns _ (List.mem_of_getElem? hget)) now answers
  | losePacketIn i =>
    rw [step] at hstep
    obtain ⟨-, hstep⟩ := Option.ite_none_right_eq_some.mp hstep
    exact Option.some.inj hstep ▸ h.erasePacketIn i
  | other thread =>
    rw [step] at hstep
    obtain rfl := Option.some.inj hstep
    exact { h with knows := (other_step hsite h.knows thread).1 }

/-! ## A beacon on its way -/

/-- The beacon is on its cable, on its way from the switch at the other end to the proxy, or it
    was heard. -/
def Underway (s : Discovery) (frame : List UInt8) (a p b : Int) (q : BitVec 9) : Prop :=
  ((b, q), frame) ∈ s.frames ∨
  (∃ message, (b, message) ∈ s.packetIns ∧ dispatchPacketIn message = .packetIn q.toNat frame) ∨
  Heard s.manager a p b q.toNat

/-- More is on its way, and the manager is the same. -/
structure Adds (s s' : Discovery) : Prop where
  frames : s.frames ⊆ s'.frames
  packetIns : s.packetIns ⊆ s'.packetIns
  manager : s'.manager = s.manager

theorem Adds.refl (s : Discovery) : Adds s s := ⟨fun _ h => h, fun _ h => h, rfl⟩

theorem Adds.trans {s₁ s₂ s₃ : Discovery} (h : Adds s₁ s₂) (h' : Adds s₂ s₃) : Adds s₁ s₃ :=
  ⟨fun _ hf => h'.frames (h.frames hf), fun _ hf => h'.packetIns (h.packetIns hf),
    h'.manager.trans h.manager⟩

theorem Underway.adds {frame : List UInt8} {a p b : Int} {q : BitVec 9}
    (h : Underway s frame a p b q) (hadds : Adds s s') : Underway s' frame a p b q := by
  rcases h with hframe | ⟨message, hmessage, hdispatch⟩ | hheard
  · exact .inl (hadds.frames hframe)
  · exact .inr (.inl ⟨message, hadds.packetIns hmessage, hdispatch⟩)
  · exact .inr (.inr (hadds.manager ▸ hheard))

theorem adds_punt (s : Discovery) (dpid : Int) (packet : List UInt8) :
    Adds s (s.punt dpid packet) := by
  unfold Discovery.punt
  split
  · exact .refl s
  · exact ⟨fun _ h => h, List.subset_append_left _ _, rfl⟩

theorem adds_emit (s : Discovery) (cabling : Cabling) (dpid : Int)
    (out : Option (BitVec 9 × List UInt8)) : Adds s (s.emit cabling dpid out) := by
  unfold Discovery.emit
  split
  · exact .refl s
  · split
    · exact adds_punt s dpid _
    · split
      · exact .refl s
      · exact ⟨List.subset_append_left _ _, fun _ h => h, rfl⟩

theorem adds_forward (s : Discovery) (cabling : Cabling) (dpid : Int) (port : BitVec 9)
    (frame : List UInt8) (tables : Program.Tables) (sampled : Bool) :
    Adds s (s.forward cabling dpid port frame tables sampled) := by
  unfold Discovery.forward
  dsimp only
  have hemit := adds_emit s cabling dpid (Program.run tables port frame)
  split
  · exact hemit.trans (adds_punt _ _ _)
  · exact hemit

/-- A beacon that arrives is punted. -/
theorem underway_forward {dpid a p : Int} {port : BitVec 9} {frame : List UInt8}
    (hport : port ≠ Program.cpuPort) (hparse : parseLldpPacket frame = .ok (some (a, p)))
    (tables : Program.Tables) (sampled : Bool) :
    Underway (s.forward site.cabling dpid port frame tables sampled) frame a p dpid port := by
  have hrun : Program.run tables port frame = _ :=
    Program.run_of_lldp hport (Program.etherTypeOf_of_beacon hparse)
  obtain ⟨message, hmessage, hdispatch⟩ := dispatchPacketIn_punt port frame
  refine .inr (.inl ⟨message, ?_, hdispatch⟩)
  unfold Discovery.forward
  rw [hrun]
  simp [Discovery.emit, Discovery.punt, hmessage]

/-- What a receive thread does with a packet-in, and when it hears a beacon. -/
theorem deliver_spec (hsite : site.Reliable) (hknows : Knows site s.manager) {dpid : Int}
    {message : PacketMessage}
    (htruthful : ∀ port payload, dispatchPacketIn message = .packetIn port payload →
      Truthful site dpid port payload) (now : Int) (answers : Nat → Answers) :
    (s.deliver site.shortestPath dpid now answers message).frames = s.frames ∧
    (s.deliver site.shortestPath dpid now answers message).packetIns = s.packetIns ∧
    Extends s.manager (s.deliver site.shortestPath dpid now answers message).manager ∧
    ∀ port frame a p, dispatchPacketIn message = .packetIn port frame →
      parseLldpPacket frame = .ok (some (a, p)) → a ≠ dpid →
      Heard (s.deliver site.shortestPath dpid now answers message).manager a p dpid port := by
  unfold Discovery.deliver
  split
  · next sample hsample =>
    refine ⟨rfl, rfl, .refl _, fun port frame a p hdispatch => ?_⟩
    cases hsample.symm.trans hdispatch
  · next port payload hdispatch =>
    obtain ⟨m', hrun, -, hextends, hheard⟩ := handlePacketIn_spec hsite hknows
      { now := now, ingressPort := port, payload := payload, answers := answers }
      (htruthful port payload hdispatch)
    dsimp only
    rw [hrun]
    refine ⟨rfl, rfl, hextends, fun port' frame a p hdispatch' hparse hne => ?_⟩
    cases hdispatch.symm.trans hdispatch'
    exact hheard a p hparse hne

theorem mem_eraseIdx_or {α : Type} {l : List α} {x : α} (h : x ∈ l) (i : Nat) :
    x ∈ l.eraseIdx i ∨ l[i]? = some x := by
  obtain ⟨j, hj⟩ := List.mem_iff_getElem?.mp h
  by_cases hij : j = i
  · exact .inr (hij ▸ hj)
  · exact .inl (List.mem_eraseIdx_iff_getElem?.mpr ⟨j, hij, hj⟩)

/-- The event takes something off its way. -/
def Event.loses : Event → Bool
  | .loseFrame _ | .losePacketIn _ => true
  | .beacon _ _ _ | .inject _ _ | .arrive _ _ _ | .receive _ _ _ | .other _ => false

/-- One step that loses nothing leaves a beacon on its way, or takes it further. -/
theorem underway_step (hsite : site.Reliable) (h : Sound site s) {frame : List UInt8}
    {a p b : Int} {q : BitVec 9} (hparse : parseLldpPacket frame = .ok (some (a, p)))
    (hne : a ≠ b) (hway : Underway s frame a p b q) {e : Event} (he : e.loses = false)
    (hstep : step site s e = some s') : Underway s' frame a p b q := by
  cases e with
  | beacon dpid port tables =>
    rw [step] at hstep
    split at hstep
    · split at hstep
      · obtain rfl := Option.some.inj hstep
        exact hway
      · split at hstep
        · obtain rfl := Option.some.inj hstep
          exact hway
        · obtain rfl := Option.some.inj hstep
          exact hway.adds (adds_emit _ _ _ _)
    · simp at hstep
  | inject endpoint injected =>
    rw [step] at hstep
    split at hstep
    · simp at hstep
    · obtain rfl := Option.some.inj hstep
      exact hway.adds ⟨List.subset_append_left _ _, fun _ h => h, rfl⟩
  | arrive i tables sampled =>
    rw [step] at hstep
    split at hstep
    · simp at hstep
    · next dpid port arrived hget =>
      obtain rfl := Option.some.inj hstep
      have hadds := adds_forward { s with frames := s.frames.eraseIdx i } site.cabling dpid port
        arrived tables sampled
      rcases hway with hframe | hlater
      · cases mem_eraseIdx_or hframe i with
        | inl hmem => exact .inl (hadds.frames hmem)
        | inr hthis =>
          cases hget.symm.trans hthis
          obtain ⟨hport, -⟩ := h.frames _ hframe
          exact underway_forward hport hparse tables sampled
      · exact Underway.adds (s := { s with frames := s.frames.eraseIdx i }) (.inr hlater) hadds
  | loseFrame i => simp [Event.loses] at he
  | receive i now answers =>
    rw [step] at hstep
    split at hstep
    · simp at hstep
    · next dpid message hget =>
      rw [if_neg (by rw [h.ended]; exact List.not_mem_nil)] at hstep
      obtain rfl := Option.some.inj hstep
      have htruthful : ∀ port payload, dispatchPacketIn message = .packetIn port payload →
          Truthful site dpid port payload := h.packetIns _ (List.mem_of_getElem? hget)
      obtain ⟨hframes, hpacketIns, hextends, hheard⟩ := deliver_spec
        (s := { s with packetIns := s.packetIns.eraseIdx i }) hsite h.knows htruthful now answers
      rcases hway with hframe | ⟨message', hmem, hdispatch⟩ | hknown
      · exact .inl (by rwa [hframes])
      · cases mem_eraseIdx_or hmem i with
        | inl hother => exact .inr (.inl ⟨message', by rwa [hpacketIns], hdispatch⟩)
        | inr hthis =>
          cases hget.symm.trans hthis
          exact .inr (.inr (hheard _ _ a p hdispatch hparse hne))
      · exact .inr (.inr (hknown.extends hextends))
  | losePacketIn i => simp [Event.loses] at he
  | other thread =>
    rw [step] at hstep
    obtain rfl := Option.some.inj hstep
    rcases hway with hframe | hmessage | hknown
    · exact .inl hframe
    · exact .inr (.inl hmessage)
    · exact .inr (.inr (hknown.extends (other_step hsite h.knows thread).2))

end Step

end Discovery

end Ndtwin.Twin

namespace Ndtwin.Spec

open Proxy Twin Twin.Discovery GuardedRun

/-- The proxy before anything was discovered: the switches and hosts are there, with values that
    a route can be written with. -/
structure Undiscovered (m : TopologyManager) : Prop where
  edges : ∀ a b, m.net.edges.lookup (.dpid a, .dpid b) = none
  links : ∀ l, m.watchdog.linkBeacons.lookup l = none
  plannable : Plannable m
  dpid : ∀ d, (m.switches.lookup d).isSome = true → 0 ≤ d ∧ d < 2 ^ 64

theorem Undiscovered.sound {m : TopologyManager} (h : Undiscovered m) (site : Site) :
    Sound site { manager := m } where
  knows :=
    { edge := fun a b p hedge => by simp [h.edges a b] at hedge
      link := fun l e hl => by simp [h.links l] at hl
      plannable := h.plannable
      dpid := h.dpid }
  frames := by simp
  packetIns := by simp
  ended := rfl
  beaconing := rfl

/-- Runs keep the invariant. -/
theorem sound_exec {site : Site} (hsite : site.Reliable) {es : List Event}
    (hallowed : ∀ e ∈ es, e.Allowed) {s s' : Discovery}
    (hrun : exec (step site) s es = some s') (h : Sound site s) : Sound site s' := by
  induction es generalizing s with
  | nil => exact Option.some.inj hrun ▸ h
  | cons e es ih =>
    obtain ⟨s₁, hstep, hrest⟩ := exec_cons_eq_some hrun
    have hsound := sound_step hsite h (hallowed e List.mem_cons_self) hstep
    exact ih (fun e' he' => hallowed e' (List.mem_cons_of_mem e he')) hrest hsound

/-- A beacon stays on its way through a run that loses nothing, until it is heard. -/
theorem underway_exec {site : Site} (hsite : site.Reliable) {es : List Event}
    (hallowed : ∀ e ∈ es, e.Allowed) (hkept : ∀ e ∈ es, e.loses = false) {s s' : Discovery}
    (hrun : exec (step site) s es = some s') (h : Sound site s) {frame : List UInt8} {a p b : Int}
    {q : BitVec 9} (hparse : parseLldpPacket frame = .ok (some (a, p))) (hne : a ≠ b)
    (hway : Underway s frame a p b q) : Underway s' frame a p b q := by
  induction es generalizing s with
  | nil => exact Option.some.inj hrun ▸ hway
  | cons e es ih =>
    obtain ⟨s₁, hstep, hrest⟩ := exec_cons_eq_some hrun
    have hsound := sound_step hsite h (hallowed e List.mem_cons_self) hstep
    have hnext := underway_step hsite h hparse hne hway (hkept e List.mem_cons_self) hstep
    exact ih (fun e' he' => hallowed e' (List.mem_cons_of_mem e he'))
      (fun e' he' => hkept e' (List.mem_cons_of_mem e he')) hrest hsound hnext

/-- The sender puts the beacon of a port on the cable that is plugged into it. -/
theorem underway_beacon {site : Site} {s s' : Discovery} (h : Sound site s) {dpid port b q : Int}
    {tables : Program.Tables} (hjoins : site.cabling.Joins dpid port b q)
    (hstep : step site s (.beacon dpid port tables) = some s') :
    ∃ frame q', parseLldpPacket frame = .ok (some (dpid, port)) ∧ q = (q' : BitVec 9).toNat ∧
      Underway s' frame dpid port b q' := by
  obtain ⟨port', q', hfar, rfl, rfl⟩ := hjoins
  have hport := site.cabling.data _ _ hfar
  rw [step] at hstep
  obtain ⟨hcond, hstep⟩ := Option.ite_none_right_eq_some.mp hstep
  obtain ⟨frame, message, packet, hmessage, hpacket, hparse, hsent⟩ :=
    beacon_spec (h.knows.dpid dpid hcond.2.1) port'
  rw [hmessage] at hstep
  dsimp only at hstep
  rw [hpacket] at hstep
  dsimp only at hstep
  rw [hsent] at hstep
  obtain rfl := Option.some.inj hstep
  refine ⟨frame, q', hparse, rfl, .inl ?_⟩
  simp [Discovery.emit, hport, hfar]

/-- In every run of the sender, the switches, the cables, the receive threads and the other
    threads of the proxy: the links of the graph and of the watchdog are cables, the graph has
    them in both directions, no exception ends a thread, and when nothing is on its way any more,
    every beacon that nothing was lost after has made its cable a link. -/
theorem discovery_correct (site : Site) (hsite : site.Reliable) (m : TopologyManager)
    (hstart : Undiscovered m) (es : List Event) (hallowed : ∀ e ∈ es, e.Allowed) (s : Discovery)
    (hrun : exec (step site) { manager := m } es = some s) :
    (∀ a b p, s.manager.net.edges.lookup (.dpid a, .dpid b) = some p →
      ∃ q, site.cabling.Joins a p b q ∧
        s.manager.net.edges.lookup (.dpid b, .dpid a) = some q) ∧
    (∀ l e, s.manager.watchdog.linkBeacons.lookup l = some e →
      site.cabling.Joins l.srcDpid l.srcPort l.dstDpid l.dstPort) ∧
    s.ended = [] ∧ s.beaconing = true ∧
    ∀ pre post dpid port tables, es = pre ++ .beacon dpid port tables :: post →
      (∀ e ∈ post, e.loses = false) → s.frames = [] → s.packetIns = [] →
      ∀ b q, site.cabling.Joins dpid port b q → dpid ≠ b → Heard s.manager dpid port b q := by
  have hsound := sound_exec hsite hallowed hrun (hstart.sound site)
  refine ⟨hsound.knows.edge, hsound.knows.link, hsound.ended, hsound.beaconing, ?_⟩
  rintro pre post dpid port tables rfl hkept hframes hpacketIns b q hjoins hne
  obtain ⟨s₁, hpre, hrest⟩ := exec_append_eq_some hrun
  obtain ⟨s₂, hbeacon, hpost⟩ := exec_cons_eq_some hrest
  have hsound₁ := sound_exec hsite (fun e he => hallowed e (by simp [he])) hpre
    (hstart.sound site)
  have hsound₂ := sound_step hsite hsound₁ (hallowed _ (by simp)) hbeacon
  obtain ⟨frame, q', hparse, rfl, hway⟩ := underway_beacon hsound₁ hjoins hbeacon
  have hlast := underway_exec hsite (fun e he => hallowed e (by simp [he])) hkept hpost hsound₂
    hparse hne hway
  -- nothing is on its way, so it was heard
  rcases hlast with hframe | ⟨message, hmessage, -⟩ | hheard
  · simp [hframes] at hframe
  · simp [hpacketIns] at hmessage
  · exact hheard

/-! ## Two switches and one cable -/

/-- Port 1 of switch 1 and port 2 of switch 2. -/
def oneCable : Cabling where
  far e :=
    if e = (1, 1) then some (2, 2)
    else if e = (2, 2) then some (1, 1)
    else none
  symm e e' h := by
    split_ifs at h with h₁ h₂
    · obtain rfl := Option.some.inj h
      simp [h₁]
    · obtain rfl := Option.some.inj h
      simp [h₂]
  data e e' h := by
    split_ifs at h with h₁ h₂
    · subst h₁
      decide
    · subst h₂
      decide

abbrev cabledSite : Site where
  shortestPath := atMostTwoHops
  cabling := oneCable
  declared := [⟨1, 1, 2, 2⟩, ⟨2, 2, 1, 1⟩]

theorem followsEdges_atMostTwoHops : FollowsEdges atMostTwoHops := by
  intro g s t path hne hpath
  rw [atMostTwoHops, if_neg hne] at hpath
  split_ifs at hpath with hedge
  · obtain rfl := Option.some.inj hpath
    exact ⟨t, [], rfl, hedge⟩
  · obtain ⟨n, hfind, rfl⟩ := Option.map_eq_some_iff.mp hpath
    have hfound := List.find?_some hfind
    rw [Bool.and_eq_true] at hfound
    exact ⟨n, [t], rfl, hfound.1⟩

theorem cabledSite_reliable : cabledSite.Reliable where
  follows := followsEdges_atMostTwoHops
  declared l hl := by
    cases hl with
    | head => exact ⟨1, 2, rfl, rfl, rfl⟩
    | tail _ hl =>
      obtain rfl := List.mem_singleton.mp hl
      exact ⟨2, 1, rfl, rfl, rfl⟩

theorem unlinkedSwitches_edges (k : NetNode × NetNode) :
    unlinkedSwitches.net.edges.lookup k =
      if k = (.ip "10.0.0.2", .dpid 2) then some 0
      else if k = (.dpid 2, .ip "10.0.0.2") then some 1 else none := by
  rw [unlinkedSwitches, NetGraph.addHost]
  dsimp only
  rw [lookup_addEdge, lookup_addEdge]
  rfl

theorem mem_unlinkedSwitches {v : NetNode} {type : NetNodeType}
    (h : (unlinkedSwitches.net.nodes.lookup v).bind NetNodeData.type = some type) :
    v = .dpid 1 ∨ v = .dpid 2 ∨ v = .ip "10.0.0.2" := by
  have hkeys : unlinkedSwitches.net.nodes.keys = [.dpid 1, .dpid 2, .ip "10.0.0.2"] := by
    decide +kernel
  have hmem := mem_keys_of_lookup h
  rw [hkeys] at hmem
  simpa using hmem

theorem unlinkedSwitches_plannable : Plannable unlinkedSwitches where
  switch v hv := by
    rcases mem_unlinkedSwitches (of_decide_eq_true hv) with rfl | rfl | rfl
    · exact ⟨1, rfl, by decide⟩
    · exact ⟨2, rfl, by decide⟩
    · exact absurd hv (by decide)
  host v hv := by
    rcases mem_unlinkedSwitches (of_decide_eq_true hv) with rfl | rfl | rfl
    · exact absurd hv (by decide)
    · exact absurd hv (by decide)
    · refine ⟨_, rfl, ⟨[10, 0, 0, 2], by decide +kernel⟩, ⟨[0, 0, 0, 0, 0, 2], by decide +kernel⟩⟩
  port dpid v port hedge := by
    rw [unlinkedSwitches_edges] at hedge
    split_ifs at hedge
    · obtain rfl := Option.some.inj hedge
      decide
    · obtain rfl := Option.some.inj hedge
      decide

theorem unlinkedSwitches_undiscovered : Undiscovered unlinkedSwitches where
  edges a b := by simp [unlinkedSwitches_edges]
  links l := rfl
  plannable := unlinkedSwitches_plannable
  dpid d hd := by
    have hmem : d ∈ unlinkedSwitches.switches.keys := AList.lookup_isSome.mp hd
    have hkeys : unlinkedSwitches.switches.keys = [1, 2] := by decide +kernel
    rw [hkeys] at hmem
    have hcases : d = 1 ∨ d = 2 := by simpa using hmem
    omega

/-- The beacon of switch 1 gets to switch 2, and from there to the proxy. -/
def oneBeacon : List Event :=
  [.beacon 1 1 fun _ _ _ => .noAction, .arrive 0 (fun _ _ _ => .noAction) false,
    .receive 0 0 fun _ => {}]

/-- The cable is found: switch 1 and switch 2 are linked, both ways. -/
theorem oneBeacon_heard :
    ∃ s, exec (step cabledSite) { manager := unlinkedSwitches } oneBeacon = some s ∧
      Heard s.manager 1 1 2 2 := by
  have hrun : ((exec (step cabledSite) { manager := unlinkedSwitches } oneBeacon).map fun s =>
      (s.frames.length, s.packetIns.length)) = some (0, 0) := by decide +kernel
  obtain ⟨s, hs, hempty⟩ := Option.map_eq_some_iff.mp hrun
  obtain ⟨hframes, hpacketIns⟩ := Prod.mk.inj hempty
  have hallowed : ∀ e ∈ oneBeacon, e.Allowed := by
    simp [oneBeacon, Event.Allowed, Program.SparesCpu, Program.TableAction.namesCpu]
  obtain ⟨-, -, -, -, hheard⟩ := discovery_correct cabledSite cabledSite_reliable unlinkedSwitches
    unlinkedSwitches_undiscovered oneBeacon hallowed s hs
  refine ⟨s, hs, hheard [] _ 1 1 _ rfl ?_ (List.length_eq_zero_iff.mp hframes)
    (List.length_eq_zero_iff.mp hpacketIns) 2 2 ⟨1, 2, rfl, rfl, rfl⟩ (by decide)⟩
  simp [Event.loses]

end Ndtwin.Spec

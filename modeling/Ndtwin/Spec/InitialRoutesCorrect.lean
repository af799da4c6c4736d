import Ndtwin.ForStd.Bfs
import Ndtwin.Proxy.Pipeline
import Ndtwin.Proxy.RyuTopology
import Ndtwin.Spec.DestinationPathsCorrect
import Ndtwin.Spec.InstalledRoutesCorrect

/-!
# The initial routes lead along shortest paths

`install_initial_routes` takes the first hop of a shortest path at every switch, each path chosen
on its own. Following the ports from switch to switch is still a shortest way, since every hop
leads one step closer to the host in the graph that the paths were searched in.

## Key results

- `installRoutes_accepted`: the loop, when no write is refused
- `exists_hop`: the port at a switch leads one step closer
- `initial_routes_shortest`: the ways of all switches to all hosts
- `initial_routes_in_tables`: the tables of the switches send packets on these ways
-/

namespace Ndtwin.Spec

open Ndtwin.Proxy

/-! ## Graphs and searches -/

/-- The node is one of type `host`. -/
def isHost (net : NetGraph) (n : NetNode) : Bool :=
  ((net.nodes.lookup n).bind NetNodeData.type) = some .host

/-- A graph of switches that the manager has clients for and of hosts at one switch each. -/
structure Routable (m : TopologyManager) : Prop where
  /-- An edge makes its ends nodes. -/
  ends : ∀ u v port, m.net.edges.lookup (u, v) = some port →
    u ∈ m.net.nodes.keys ∧ v ∈ m.net.nodes.keys
  switch : ∀ v, m.net.isSwitch v = true → ∃ d, v = .dpid d ∧ (m.switches.lookup d).isSome = true
  host : ∀ v, isHost m.net v = true → ∃ ip, v = .ip ip
  link : ∀ u v port, m.net.isSwitch u = true → m.net.edges.lookup (u, v) = some port →
    m.net.isSwitch v = true ∨ isHost m.net v = true
  singleHomed : ∀ h, isHost m.net h = true → ∃ s,
    (∀ v port, m.net.edges.lookup (h, v) = some port → v = s) ∧
    ∀ v port, m.net.edges.lookup (v, h) = some port → v = s
  ports : ∀ d v w port, m.net.edges.lookup (.dpid d, v) = some port →
    m.net.edges.lookup (.dpid d, w) = some port → v = w

/-- What `nx.shortest_path` promises of the nodes of a graph. -/
structure FindsShortest (shortestPath : ShortestPath) (g : NetGraph) : Prop where
  path : ∀ s ∈ g.nodes.keys, ∀ t ∈ g.nodes.keys, ∀ p, shortestPath g s t = some p →
    Walk.Route (fun u v => v ∈ g.neighbors u) t s p ∧
      ∃ n, p.length = n + 1 ∧ Bfs.IsDist g.neighbors s t n
  noPath : ∀ s ∈ g.nodes.keys, ∀ t ∈ g.nodes.keys, shortestPath g s t = none →
    ∀ n, ¬Bfs.Reaches g.neighbors s n t

/-- The endpoints that the search leaves out. -/
def downEndpoints (m : TopologyManager) : List (Int × Int) :=
  reroutableDownEndpoints m.watchdog m.lastProbe

/-- The graph that the paths are searched in. -/
def searchGraph (m : TopologyManager) : NetGraph := m.net.withoutDown (downEndpoints m)

/-- No write of a route for a host over a link of a switch is refused. -/
def WritesAccepted (m : TopologyManager) (answers : Nat → Answers) : Prop :=
  ∀ d v port ip, m.net.edges.lookup (.dpid d, v) = some port → isHost m.net (.ip ip) = true →
    ∀ n switch, ∃ switch', insertIpv4Route (.str ip) 32 (m.net.macOf (.ip ip)) (.int port)
      (answers n) switch = .ok true switch'

theorem mem_neighbors_withoutDown {net : NetGraph} {down : List (Int × Int)} {u v : NetNode} :
    v ∈ (net.withoutDown down).neighbors u ↔
      ∃ port, net.edges.lookup (u, v) = some port ∧ NetGraph.isDown down u port = false := by
  rw [mem_neighbors]
  refine exists_congr fun port => ?_
  rw [NetGraph.withoutDown, AssocMap.lookup_filterPairs, Option.filter_eq_some_iff,
    Bool.not_eq_true']

/-! ## The loop -/

/-- A pass of the loop writes a port for a host at a switch. -/
def Plans (m : TopologyManager) (answers : Nat → Answers) (task : RouteTask) (r : Int × String)
    (port : Int) : Prop :=
  planRoute m task =
      .ok { dpid := r.1, dst := .str r.2, mac := m.net.macOf (.ip r.2), outPort := port } ∧
    ∀ n switch, ∃ switch', insertIpv4Route (.str r.2) 32 (m.net.macOf (.ip r.2)) (.int port)
      (answers n) switch = .ok true switch'

theorem SameFrame.plans {m m' : TopologyManager} (h : SameFrame m m') {answers : Nat → Answers}
    {task : RouteTask} {r : Int × String} {port : Int} :
    Plans m' answers task r port ↔ Plans m answers task r port := by
  unfold Plans
  rw [h.planRoute, h.1]

/-- One pass of the loop, when its write is not refused. -/
theorem installRoutes_cons {answers : Nat → Answers} {task : RouteTask} {m : TopologyManager}
    {r : Int × String} {port : Int} (h : Plans m answers task r port) (tasks : List RouteTask)
    (installed attempted : Nat) :
    ∃ m', installRoutes answers installed attempted (task :: tasks) m =
        installRoutes answers (installed + 1) (attempted + 1) tasks m' ∧ SameFrame m m' ∧
      ∀ r', m'.recorded r' = if r' = r then some port else m.recorded r' := by
  obtain ⟨hplan, haccept⟩ := h
  obtain ⟨-, ⟨switch, hswitch⟩, -⟩ := planRoute_ok hplan
  obtain ⟨switch', hinsert⟩ := haccept attempted switch
  have hrecord : recordRoute r.1 (.str r.2) (.int port) (m.withSwitch r.1 switch') =
      .ok () (EState.finalState (recordRoute r.1 (.str r.2) (.int port))
        (m.withSwitch r.1 switch')) := rfl
  refine ⟨EState.finalState (recordRoute r.1 (.str r.2) (.int port)) (m.withSwitch r.1 switch'), ?_,
    (sameFrame_withSwitch hswitch switch').trans (sameFrame_recordRoute _ _ _ _), ?_⟩
  · rw [installRoutes, EState.get_bind, py_bind hplan,
      EState.bind_of_ok (onSwitch_of_ok hswitch hinsert), if_pos rfl, EState.bind_of_ok hrecord]
  · intro r'
    show (m.installedRoutes.set (r.1, r.2) port).lookup r' = _
    rw [AssocMap.lookup_set]
    rfl

/-- A pass is about one route. -/
theorem Plans.unique {m : TopologyManager} {answers : Nat → Answers} {task : RouteTask}
    {r r' : Int × String} {port port' : Int} (h : Plans m answers task r port)
    (h' : Plans m answers task r' port') : r' = r ∧ port' = port := by
  have heq := Except.ok.inj (h'.1.symm.trans h.1)
  obtain ⟨hdpid, hdst, _, hport⟩ := PlannedRoute.mk.inj heq
  exact ⟨Prod.ext hdpid (Json.str.inj hdst), hport⟩

/-- The loop returns when no write is refused, with a planned port for every planned route. -/
theorem installRoutes_accepted (answers : Nat → Answers) {tasks : List RouteTask}
    {m : TopologyManager} (hplans : ∀ task ∈ tasks, ∃ r port, Plans m answers task r port)
    (installed attempted : Nat) :
    ∃ m', installRoutes answers installed attempted tasks m =
        .ok (installed + tasks.length, attempted + tasks.length) m' ∧
      SameFrame m m' ∧
      (∀ r, (∀ task ∈ tasks, ∀ port, ¬Plans m answers task r port) →
        m'.recorded r = m.recorded r) ∧
      ∀ r, (∃ task ∈ tasks, ∃ port, Plans m answers task r port) →
        ∃ task ∈ tasks, ∃ port, Plans m answers task r port ∧ m'.recorded r = some port := by
  induction tasks generalizing m installed attempted with
  | nil =>
    refine ⟨m, rfl, ⟨rfl, fun _ => rfl⟩, fun _ _ => rfl, ?_⟩
    rintro r ⟨_, h, _⟩
    exact absurd h List.not_mem_nil
  | cons task tasks ih =>
    obtain ⟨r₀, port₀, hplan⟩ := hplans task List.mem_cons_self
    obtain ⟨m₁, hpass, hframe, hrecorded⟩ := installRoutes_cons hplan tasks installed attempted
    obtain ⟨m', hrun, hframe', hkept, hwritten⟩ := ih (fun task' htask' => by
      obtain ⟨r, port, h⟩ := hplans task' (List.mem_cons_of_mem _ htask')
      exact ⟨r, port, (SameFrame.plans hframe).mpr h⟩) (installed + 1) (attempted + 1)
    simp only [SameFrame.plans hframe] at hkept hwritten
    refine ⟨m', ?_, hframe.trans hframe', fun r hr => ?_, fun r hr => ?_⟩
    · rw [hpass, hrun, List.length_cons, Nat.add_right_comm installed, Nat.add_right_comm attempted]
      rfl
    · have hne : r ≠ r₀ := fun heq => hr task List.mem_cons_self port₀ (heq ▸ hplan)
      rw [hkept r fun task' htask' => hr task' (List.mem_cons_of_mem _ htask'), hrecorded,
        if_neg hne]
    · by_cases hlater : ∃ task' ∈ tasks, ∃ port, Plans m answers task' r port
      · obtain ⟨task', htask', port, h, hport⟩ := hwritten r hlater
        exact ⟨task', List.mem_cons_of_mem _ htask', port, h, hport⟩
      · -- the last pass about this route
        obtain ⟨task', htask', port, h⟩ := hr
        rcases List.mem_cons.mp htask' with rfl | htask'
        · obtain ⟨rfl, rfl⟩ := hplan.unique h
          refine ⟨task', List.mem_cons_self, port, h, ?_⟩
          rw [hkept r fun task'' htask'' port' h' => hlater ⟨task'', htask'', port', h'⟩,
            hrecorded, if_pos rfl]
        · exact absurd ⟨task', htask', port, h⟩ hlater

/-! ## The tasks -/

variable {shortestPath : ShortestPath} {m : TopologyManager} {answers : Nat → Answers}

/-- The paths of all pairs. -/
def allPaths (shortestPath : ShortestPath) (m : TopologyManager) : DestPaths :=
  calculateAllPaths shortestPath m.net (downEndpoints m)

/-- The paths of all nodes to one. -/
def pathsTo (shortestPath : ShortestPath) (m : TopologyManager) (dst : NetNode) :
    List (NetNode × List NetNode) :=
  m.net.nodes.keys.filterMap fun src =>
    if src = dst then none
    else (shortestPath (searchGraph m) src dst).map fun path => (src, path)

theorem mem_pathsTo {dst src : NetNode} {path : List NetNode} :
    (src, path) ∈ pathsTo shortestPath m dst ↔
      src ∈ m.net.nodes.keys ∧ src ≠ dst ∧ shortestPath (searchGraph m) src dst = some path := by
  rw [pathsTo, List.mem_filterMap]
  constructor
  · rintro ⟨src', hsrc, h⟩
    obtain ⟨hne, h⟩ := Option.ite_none_left_eq_some.mp h
    obtain ⟨path', hpath, heq⟩ := Option.map_eq_some_iff.mp h
    cases heq
    exact ⟨hsrc, hne, hpath⟩
  · rintro ⟨hsrc, hne, hpath⟩
    refine ⟨src, hsrc, ?_⟩
    rw [if_neg hne, hpath]
    rfl

theorem allPaths_eq : allPaths shortestPath m =
    m.net.nodes.keys.map fun dst => (dst, pathsTo shortestPath m dst) := rfl

/-- The paths that are installed: from a switch to a host. -/
theorem mem_routeTasks {task : RouteTask} :
    task ∈ routeTasks m.net (allPaths shortestPath m) none ↔
      task.dst ∈ m.net.nodes.keys ∧ task.src ∈ m.net.nodes.keys ∧ task.src ≠ task.dst ∧
        isHost m.net task.dst = true ∧ m.net.isSwitch task.src = true ∧
          shortestPath (searchGraph m) task.src task.dst = some task.path := by
  rw [routeTasks, allPaths_eq, List.mem_flatMap]
  constructor
  · rintro ⟨d, hd, htask⟩
    obtain ⟨hmem, hhost⟩ := List.mem_filter.mp hd
    obtain ⟨dst, hdst, rfl⟩ := List.mem_map.mp hmem
    obtain ⟨⟨src, path⟩, hs, rfl⟩ := List.mem_map.mp htask
    obtain ⟨hmem, hswitch⟩ := List.mem_filter.mp hs
    obtain ⟨hsrc, hne, hpath⟩ := mem_pathsTo.mp hmem
    exact ⟨hdst, hsrc, hne, hhost, decide_eq_true (of_decide_eq_true hswitch).1, hpath⟩
  · rintro ⟨hdst, hsrc, hne, hhost, hswitch, hpath⟩
    refine ⟨(task.dst, pathsTo shortestPath m task.dst),
      List.mem_filter.mpr ⟨List.mem_map.mpr ⟨task.dst, hdst, rfl⟩, hhost⟩,
      List.mem_map.mpr ⟨(task.src, task.path), List.mem_filter.mpr ⟨?_, ?_⟩, rfl⟩⟩
    · exact mem_pathsTo.mpr ⟨hsrc, hne, hpath⟩
    · exact decide_eq_true ⟨of_decide_eq_true hswitch, .inl rfl⟩

theorem mem_keys_of_lookup {net : NetGraph} {v : NetNode} {type : NetNodeType}
    (h : (net.nodes.lookup v).bind NetNodeData.type = some type) : v ∈ net.nodes.keys := by
  obtain ⟨data, hdata, _⟩ := Option.bind_eq_some_iff.mp h
  exact AssocMap.mem_of_lookup hdata

/-- The task of a switch and a host says how the switch is to be programmed. -/
theorem exists_plan (hroutable : Routable m) (hfinds : FindsShortest shortestPath (searchGraph m))
    (haccepted : WritesAccepted m answers) {task : RouteTask}
    (htask : task ∈ routeTasks m.net (allPaths shortestPath m) none) :
    ∃ d ip port v n, task.src = .dpid d ∧ task.dst = .ip ip ∧
      Plans m answers task (d, ip) port ∧ m.net.edges.lookup (.dpid d, v) = some port ∧
      (d, port) ∉ downEndpoints m ∧
      Bfs.IsDist (searchGraph m).neighbors (.dpid d) (.ip ip) (n + 1) ∧
      Bfs.IsDist (searchGraph m).neighbors v (.ip ip) n := by
  obtain ⟨hdst, hsrc, hne, hhost, hswitch, hpath⟩ := mem_routeTasks.mp htask
  obtain ⟨d, hd, hclient⟩ := hroutable.switch _ hswitch
  obtain ⟨ip, hip⟩ := hroutable.host _ hhost
  obtain ⟨client, hclient⟩ := Option.isSome_iff_exists.mp hclient
  obtain ⟨hroute, n, hlen, hdist⟩ := hfinds.path _ hsrc _ hdst _ hpath
  obtain ⟨dst, src, path⟩ := task
  dsimp only at *
  subst hd hip
  -- the path goes on behind its source
  cases hroute with
  | @step _ v ns hv hroute =>
    obtain ⟨port, hedge, hup⟩ := mem_neighbors_withoutDown.mp hv
    obtain ⟨rest, rfl⟩ := hroute.exists_cons
    obtain ⟨n, rfl⟩ : ∃ k, n = k + 1 := ⟨n - 1, by simp at hlen; omega⟩
    have hup' : (d, port) ∉ downEndpoints m := by simpa [NetGraph.isDown] using hup
    refine ⟨d, ip, port, v, n, rfl, rfl, ⟨?_, haccepted d v port ip hedge hhost⟩, hedge, hup', hdist,
      hdist.of_route hv hroute (Nat.succ.inj hlen)⟩
    have hnext : nextNode (.dpid d) (.dpid d :: v :: rest) = .ok v := by
      rw [nextNode, if_pos rfl]
    rw [planRoute, hnext, EState.ok_bind, hedge]
    dsimp only
    rw [hclient]
    rfl

/-- What the call leaves at every switch that has a path to a host. -/
def Programmed (m m' : TopologyManager) : Prop :=
  ∀ d ip n, m.net.isSwitch (.dpid d) = true → isHost m.net (.ip ip) = true →
    Bfs.IsDist (searchGraph m).neighbors (.dpid d) (.ip ip) n →
    ∃ port v k, m'.recorded (d, ip) = some port ∧ m.net.edges.lookup (.dpid d, v) = some port ∧
      (d, port) ∉ downEndpoints m ∧ n = k + 1 ∧
      Bfs.IsDist (searchGraph m).neighbors v (.ip ip) k

/-- `install_initial_routes` returns, and every write was accepted. -/
theorem installInitialRoutes_programmed (hroutable : Routable m)
    (hfinds : FindsShortest shortestPath (searchGraph m)) (haccepted : WritesAccepted m answers) :
    ∃ count m', installInitialRoutes shortestPath none answers m = .ok (count, count) m' ∧
      Programmed m m' := by
  have hplans : ∀ task ∈ routeTasks m.net (allPaths shortestPath m) none,
      ∃ r port, Plans { m with destPaths := allPaths shortestPath m } answers task r port := by
    intro task htask
    obtain ⟨d, ip, port, _, _, _, _, hplan, _⟩ := exists_plan hroutable hfinds haccepted htask
    exact ⟨(d, ip), port, hplan⟩
  obtain ⟨m', hrun, -, -, hwritten⟩ := installRoutes_accepted answers hplans 0 0
  refine ⟨_, m', hrun, fun d ip n hswitch hhost hdist => ?_⟩
  have hsrc : .dpid d ∈ m.net.nodes.keys := mem_keys_of_lookup (of_decide_eq_true hswitch)
  have hdst : .ip ip ∈ m.net.nodes.keys := mem_keys_of_lookup (of_decide_eq_true hhost)
  -- there is a path, so the pair has a task
  obtain ⟨path, hpath⟩ : ∃ path, shortestPath (searchGraph m) (.dpid d) (.ip ip) = some path := by
    rw [← Option.ne_none_iff_exists']
    intro hnone
    exact hfinds.noPath _ hsrc _ hdst hnone n hdist.reaches
  have htask : (⟨.ip ip, .dpid d, path⟩ : RouteTask) ∈
      routeTasks m.net (allPaths shortestPath m) none :=
    mem_routeTasks.mpr ⟨hdst, hsrc, by simp, hhost, hswitch, hpath⟩
  obtain ⟨d', ip', port', _, _, hd, hip, hplan, _⟩ :=
    exists_plan hroutable hfinds haccepted htask
  cases hd
  cases hip
  -- the task that wrote last says what the port is
  obtain ⟨task, htask, port, hplan, hrecorded⟩ := hwritten (d, ip) ⟨_, htask, port', hplan⟩
  obtain ⟨d', ip', port', v, k, _, _, hplan', hedge, hup, hdist', hcloser⟩ :=
    exists_plan hroutable hfinds haccepted htask
  obtain ⟨heq, rfl⟩ := hplan.unique hplan'
  cases heq
  exact ⟨port', v, k, hrecorded, hedge, hup, hdist.unique hdist', hcloser⟩

/-! ## The ways -/

/-- What is closer to a host than a switch is a switch, or the host itself. -/
theorem Routable.switch_of_closer (h : Routable m) {d : Int} {ip : String} {v : NetNode}
    {port : Int} {n : ℕ} (hswitch : m.net.isSwitch (.dpid d) = true)
    (hedge : m.net.edges.lookup (.dpid d, v) = some port)
    (hdist : Bfs.IsDist (searchGraph m).neighbors (.dpid d) (.ip ip) (n + 1))
    (hcloser : Bfs.IsDist (searchGraph m).neighbors v (.ip ip) n) :
    v = .ip ip ∨ m.net.isSwitch v = true := by
  rcases h.link _ _ _ hswitch hedge with hv | hv
  · exact .inr hv
  · -- the way on from another host leads back to its switch
    left
    obtain ⟨s, hout, hin⟩ := h.singleHomed v hv
    cases n with
    | zero => exact hcloser.eq_of_zero
    | succ n =>
      obtain ⟨w, hw, hreaches⟩ := hcloser.reaches.exists_head
      obtain ⟨port', hback, _⟩ := mem_neighbors_withoutDown.mp hw
      rw [hout w port' hback, ← hin _ port hedge] at hreaches
      exact absurd (hdist.le n hreaches) (by omega)

/-- The sources of a link with both directions down are left out. -/
theorem mem_downEndpoints_of_both {l : Link} (hl : l ∈ m.watchdog.downLinks)
    (hreverse : l.reverse ∈ m.watchdog.downLinks) :
    (l.srcDpid, l.srcPort) ∈ downEndpoints m := by
  refine List.mem_filterMap.mpr ⟨l, hl, if_neg ?_⟩
  rintro ⟨_, hnot⟩
  exact hnot hreverse

/-- At the distance `n` of a host, and a switch unless it is the host. -/
def Away (m : TopologyManager) (ip : String) (v : NetNode) (n : ℕ) : Prop :=
  Bfs.IsDist (searchGraph m).neighbors v (.ip ip) n ∧ (v = .ip ip ∨ m.net.isSwitch v = true)

/-- The port at a switch leads one step closer. -/
theorem exists_hop {m' : TopologyManager} (hroutable : Routable m) (hprogrammed : Programmed m m')
    {ip : String} (hhost : isHost m.net (.ip ip) = true) {v : NetNode} {n : ℕ}
    (h : Away m ip v (n + 1)) : ∃ w, m.net.nextHop m'.installedRoutes [] ip v = some w ∧ Away m ip w n := by
  obtain ⟨hdist, rfl | hswitch⟩ := h
  · exact absurd (hdist.le 0 .root) (Nat.not_succ_le_zero n)
  · obtain ⟨d, rfl, _⟩ := hroutable.switch v hswitch
    obtain ⟨port, w, k, hrecorded, hedge, _, hk, hcloser⟩ :=
      hprogrammed d ip (n + 1) hswitch hhost hdist
    obtain rfl : n = k := Nat.succ.inj hk
    refine ⟨w, ?_, hcloser, hroutable.switch_of_closer hswitch hedge hdist hcloser⟩
    rw [nextHop_iff_hop hroutable.ports]
    exact ⟨d, port, rfl, hrecorded, List.not_mem_nil, hedge⟩

/-- `install_initial_routes`, with no write refused: from every switch that has a path to a host
    in the graph without the endpoints that are down, the ports lead to the host over as few hops
    as there are in this graph, each hop one step closer and none from an endpoint that is down. -/
theorem initial_routes_shortest (m : TopologyManager) (shortestPath : ShortestPath)
    (answers : Nat → Answers) (hroutable : Routable m)
    (hfinds : FindsShortest shortestPath (searchGraph m)) (haccepted : WritesAccepted m answers) :
    ∃ count m', installInitialRoutes shortestPath none answers m = .ok (count, count) m' ∧
      ∀ d ip k, m.net.isSwitch (.dpid d) = true → isHost m.net (.ip ip) = true →
        Bfs.Reaches (searchGraph m).neighbors (.dpid d) k (.ip ip) →
        ∃ n ns, Bfs.IsDist (searchGraph m).neighbors (.dpid d) (.ip ip) n ∧
          Walk.Route (fun u v => m.net.nextHop m'.installedRoutes [] ip u = some v) (.ip ip)
            (.dpid d) ns ∧ ns.length = n + 1 ∧ ns.Nodup ∧
          (∀ i v, ns[i]? = some v → i ≤ n ∧
            Bfs.IsDist (searchGraph m).neighbors v (.ip ip) (n - i)) ∧
          ∀ d' port, .dpid d' ∈ ns → m'.recorded (d', ip) = some port →
            (d', port) ∉ downEndpoints m ∧
            ∀ l ∈ m.watchdog.downLinks, l.reverse ∈ m.watchdog.downLinks →
              (d', port) ≠ (l.srcDpid, l.srcPort) := by
  obtain ⟨count, m', hrun, hprogrammed⟩ :=
    installInitialRoutes_programmed hroutable hfinds haccepted
  refine ⟨count, m', hrun, fun d ip k hswitch hhost hreaches => ?_⟩
  obtain ⟨n, hdist⟩ := hreaches.exists_isDist
  have hstart : Away m ip (.dpid d) n := ⟨hdist, .inr hswitch⟩
  obtain ⟨ns, hroute, hlen, hnodup, haway⟩ := @Walk.exists_route_of_closer _
    (fun u v => m.net.nextHop m'.installedRoutes [] ip u = some v) (.ip ip) (Away m ip)
    (fun v h => h.1.eq_of_zero)
    (fun v n n' h h' => h.1.unique h'.1)
    (fun v n h => exists_hop hroutable hprogrammed hhost h) _ _ hstart
  refine ⟨n, ns, hdist, hroute, hlen, hnodup, fun i v hv => ?_, fun d' port hd' hport => ?_⟩
  · obtain ⟨hi, hv⟩ := haway i v hv
    exact ⟨hi, hv.1⟩
  · obtain ⟨i, hi⟩ := List.mem_iff_getElem?.mp hd'
    obtain ⟨_, hdist', heq | hswitch'⟩ := haway i _ hi
    · cases heq
    · obtain ⟨port', _, _, hrecorded, _, hup, _⟩ := hprogrammed d' ip _ hswitch' hhost hdist'
      obtain rfl : port' = port := Option.some.inj (hrecorded.symm.trans hport)
      refine ⟨hup, fun l hl hreverse heq => ?_⟩
      rw [heq] at hup
      exact hup (mem_downEndpoints_of_both hl hreverse)

/-! ## The tables -/

/-- An entry for a single address decides about the packets for it that `flow_5tuple` leaves. -/
theorem decides_of_hostEntry {switch : P4Switch} {value : List UInt8} {action : Forward}
    (hentry : switch.ipv4Lpm.lookup ⟨value, 32⟩ = some action)
    (hprefixes : ∀ key ∈ switch.ipv4Lpm, key.prefixLen ≤ 32) {p : PacketKeys}
    (hdst : p.value .dstAddr = Python.fromBytes value)
    (hmiss : ∀ key ∈ switch.flow5tuple, key.hits p = false) :
    switch.Decides p (.forward (Python.fromBytes action.port)) := by
  apply P4Switch.Decides.ipv4Lpm hmiss hentry
  · rw [LpmKey.hits, hdst]
    exact decide_eq_true rfl
  · intro key hkey _
    exact hprefixes key hkey

/-- At every switch that has a path to a host there is an entry for the address of the host, whose
    port leads one step closer, and it decides about what `flow_5tuple` leaves of the packets for
    the host. -/
def InTables (m m' : TopologyManager) : Prop :=
  ∀ d ip n, m.net.isSwitch (.dpid d) = true → isHost m.net (.ip ip) = true →
    Bfs.IsDist (searchGraph m).neighbors (.dpid d) (.ip ip) n →
    ∃ switch value action v k, m'.switches.lookup d = some switch ∧ inetAton ip = .ok value ∧
      switch.ipv4Lpm.lookup ⟨value, 32⟩ = some action ∧
      m.net.edges.lookup (.dpid d, v) = some (Python.fromBytes action.port : Int) ∧
      n = k + 1 ∧ Bfs.IsDist (searchGraph m).neighbors v (.ip ip) k ∧
      ((∀ key ∈ switch.ipv4Lpm, key.prefixLen ≤ 32) → ∀ p : PacketKeys,
        p.value .dstAddr = Python.fromBytes value →
        (∀ key ∈ switch.flow5tuple, key.hits p = false) →
        switch.Decides p (.forward (Python.fromBytes action.port)))

/-- A record that is mirrored in the switches has its ports in their tables. -/
theorem Programmed.inTables {m' : TopologyManager} (h : Programmed m m')
    (hmirrored : m'.RoutesMirrored) : InTables m m' := by
  intro d ip n hswitch hhost hdist
  obtain ⟨port, v, k, hrecorded, hedge, _, hk, hcloser⟩ := h d ip n hswitch hhost hdist
  obtain hstale | ⟨addr, haddr, hpresent⟩ := hmirrored.recorded (d, ip) port hrecorded
  · exact absurd hstale (Set.notMem_empty _)
  · obtain ⟨value, hvalue, rfl⟩ : ∃ value, inetAton ip = .ok value ∧ addr = (d, ⟨value, 32⟩) := by
      unfold routeAddr at haddr
      split at haddr
      · next value hvalue => exact ⟨value, hvalue, (Option.some.inj haddr).symm⟩
      · cases haddr
    obtain ⟨action, haction, rfl⟩ := Option.map_eq_some_iff.mp hpresent
    obtain ⟨switch, hlookup, hentry⟩ := Option.bind_eq_some_iff.mp haction
    exact ⟨switch, value, action, v, k, hlookup, hvalue, hentry, hedge, hk, hcloser,
      fun hprefixes _ hdst hmiss => decides_of_hostEntry hentry hprefixes hdst hmiss⟩

/-- `install_initial_routes` with no write refused, from a record that the switches mirror and
    with no address spelled in two ways: the record is mirrored again, and the tables send what is
    for a host one step closer to it. -/
theorem initial_routes_in_tables (m : TopologyManager) (shortestPath : ShortestPath)
    (answers : Nat → Answers) (hroutable : Routable m)
    (hfinds : FindsShortest shortestPath (searchGraph m)) (haccepted : WritesAccepted m answers)
    (hmirrored : m.RoutesMirrored)
    (hspelling : OneSpelling (m.names ∪ planned (tasksOf shortestPath m none))) :
    ∃ count m', installInitialRoutes shortestPath none answers m = .ok (count, count) m' ∧
      m'.RoutesMirrored ∧ InTables m m' := by
  obtain ⟨count, m', hrun, hprogrammed⟩ :=
    installInitialRoutes_programmed hroutable hfinds haccepted
  have hends := @installInitialRoutes_mirrored shortestPath m none answers ∅ 0 hspelling hmirrored
    fun i hi => absurd hi (Nat.not_lt_zero i)
  rw [EState.EndsIn, EState.finalState_of_ok hrun, Set.empty_sdiff] at hends
  exact ⟨count, m', hrun, hends, hprogrammed.inTables hends⟩

/-! ## Two switches -/

/-- A switch that does not refuse accepts a route that can be encoded. -/
theorem insertIpv4Route_of_entry {dst : Json} {mac : String} {port : Json} {key : LpmKey}
    {action : Forward} (hentry : routeEntry dst 32 mac port = .ok (key, action))
    (switch : P4Switch) :
    ∃ switch', insertIpv4Route dst 32 mac port {} switch = .ok true switch' := by
  by_cases hkey : key ∈ switch.ipv4Lpm
  · -- the insert is retried as a modify
    have hinsert : writeTable .insert key action none switch.ipv4Lpm = .error .unknown := by
      rw [writeTable]
      exact if_pos hkey
    have hmodify : writeTable .modify key action none switch.ipv4Lpm =
        .ok (switch.ipv4Lpm.insert key action) := by
      rw [writeTable]
      exact if_pos hkey
    refine ⟨{ switch with ipv4Lpm := switch.ipv4Lpm.insert key action }, ?_⟩
    unfold insertIpv4Route
    rw [EState.ofExcept_bind hentry]
    dsimp only
    rw [EState.bind_of_ok (by rw [writeIpv4Lpm_apply, hinsert])]
    dsimp only
    rw [if_pos (.inr rfl)]
    unfold modifyIpv4Route
    rw [EState.ofExcept_bind hentry]
    dsimp only
    rw [EState.bind_of_ok (by rw [writeIpv4Lpm_apply, hmodify])]
    rfl
  · exact ⟨_, insertIpv4Route_accepts dst 32 mac port {} hentry rfl hkey⟩

/-- Two switches with a link that is down in both directions, and a host at the second one. -/
def cutNetwork : TopologyManager where
  switches := ((∅ : AssocMap Int P4Switch).insert 1 {}).insert 2 {}
  net := (((({} : NetGraph).addSwitch 1).addSwitch 2).addHost "10.0.0.1" "02:00:00:00:00:01" 2 1).addLink
    1 2 2 2
  watchdog := {
    linkBeacons := ((∅ : AssocMap Link LinkEntry).insert ⟨1, 2, 2, 2⟩ ⟨0, true, true, true⟩).insert
      ⟨2, 2, 1, 2⟩ ⟨0, true, true, true⟩
    beaconInterval := 5 }

/-- Paths of at most one hop. -/
def atMostOneHop : ShortestPath := fun g s t =>
  if s = t then some [s] else if t ∈ g.neighbors s then some [s, t] else none

theorem cutNetwork_edge {u v : NetNode} {port : Int}
    (h : cutNetwork.net.edges.lookup (u, v) = some port) :
    (u = .dpid 2 ∧ v = .ip "10.0.0.1" ∧ port = 1) ∨
      (u = .ip "10.0.0.1" ∧ v = .dpid 2 ∧ port = 0) ∨
      (u = .dpid 1 ∧ v = .dpid 2 ∧ port = 2) ∨ (u = .dpid 2 ∧ v = .dpid 1 ∧ port = 2) := by
  have hmem := AssocMap.mem_toPairs.mpr h
  have hpairs : cutNetwork.net.edges.toPairs =
      [((.dpid 2, .ip "10.0.0.1"), 1), ((.ip "10.0.0.1", .dpid 2), 0), ((.dpid 1, .dpid 2), 2),
        ((.dpid 2, .dpid 1), 2)] := rfl
  rw [hpairs] at hmem
  simpa [and_assoc] using hmem

theorem cutNetwork_nodes : cutNetwork.net.nodes.toPairs =
    [(.dpid 1, ⟨some .switch, none⟩), (.dpid 2, ⟨some .switch, none⟩),
      (.ip "10.0.0.1", ⟨some .host, some "02:00:00:00:00:01"⟩)] := rfl

theorem cutNetwork_type {v : NetNode} {type : NetNodeType}
    (h : (cutNetwork.net.nodes.lookup v).bind NetNodeData.type = some type) :
    (v = .dpid 1 ∧ type = .switch) ∨ (v = .dpid 2 ∧ type = .switch) ∨
      (v = .ip "10.0.0.1" ∧ type = .host) := by
  obtain ⟨data, hdata, htype⟩ := Option.bind_eq_some_iff.mp h
  have hmem := AssocMap.mem_toPairs.mpr hdata
  rw [cutNetwork_nodes] at hmem
  simp only [List.mem_cons, Prod.mk.injEq, List.not_mem_nil, or_false] at hmem
  rcases hmem with ⟨rfl, rfl⟩ | ⟨rfl, rfl⟩ | ⟨rfl, rfl⟩
  · exact .inl ⟨rfl, (Option.some.inj htype).symm⟩
  · exact .inr (.inl ⟨rfl, (Option.some.inj htype).symm⟩)
  · exact .inr (.inr ⟨rfl, (Option.some.inj htype).symm⟩)

theorem cutNetwork_routable : Routable cutNetwork where
  ends u v port h := by
    rcases cutNetwork_edge h with ⟨rfl, rfl, _⟩ | ⟨rfl, rfl, _⟩ | ⟨rfl, rfl, _⟩ | ⟨rfl, rfl, _⟩ <;>
      decide
  switch v h := by
    rcases cutNetwork_type (of_decide_eq_true h) with ⟨rfl, _⟩ | ⟨rfl, _⟩ | ⟨_, h⟩
    · exact ⟨1, rfl, rfl⟩
    · exact ⟨2, rfl, rfl⟩
    · cases h
  host v h := by
    rcases cutNetwork_type (of_decide_eq_true h) with ⟨_, h⟩ | ⟨_, h⟩ | ⟨rfl, _⟩
    · cases h
    · cases h
    · exact ⟨_, rfl⟩
  link u v port _ h := by
    rcases cutNetwork_edge h with ⟨_, rfl, _⟩ | ⟨_, rfl, _⟩ | ⟨_, rfl, _⟩ | ⟨_, rfl, _⟩ <;> decide
  singleHomed h hh := by
    refine ⟨.dpid 2, fun v port hedge => ?_, fun v port hedge => ?_⟩
    · rcases cutNetwork_edge hedge with ⟨rfl, _⟩ | ⟨_, rfl, _⟩ | ⟨rfl, _⟩ | ⟨rfl, _⟩
      · cases hh
      · rfl
      · cases hh
      · cases hh
    · rcases cutNetwork_edge hedge with ⟨rfl, _⟩ | ⟨_, rfl, _⟩ | ⟨_, rfl, _⟩ | ⟨rfl, _⟩
      · rfl
      · cases hh
      · cases hh
      · rfl
  ports d v w port hv hw := by
    rcases cutNetwork_edge hv with ⟨hd, rfl, hp⟩ | ⟨hd, _⟩ | ⟨hd, rfl, hp⟩ | ⟨hd, rfl, hp⟩ <;>
    rcases cutNetwork_edge hw with ⟨hd', rfl, hp'⟩ | ⟨hd', _⟩ | ⟨hd', rfl, hp'⟩ | ⟨hd', rfl, hp'⟩ <;>
    simp_all

/-- The graph without the link. -/
theorem cutNetwork_neighbors {u v : NetNode} (h : v ∈ (searchGraph cutNetwork).neighbors u) :
    (u = .dpid 2 ∧ v = .ip "10.0.0.1") ∨ (u = .ip "10.0.0.1" ∧ v = .dpid 2) := by
  obtain ⟨port, hedge, hup⟩ := mem_neighbors_withoutDown.mp h
  rcases cutNetwork_edge hedge with ⟨rfl, rfl, rfl⟩ | ⟨rfl, rfl, rfl⟩ | ⟨rfl, rfl, rfl⟩ |
    ⟨rfl, rfl, rfl⟩
  · exact .inl ⟨rfl, rfl⟩
  · exact .inr ⟨rfl, rfl⟩
  · cases hup
  · cases hup

theorem atMostOneHop_findsShortest : FindsShortest atMostOneHop (searchGraph cutNetwork) where
  path s _ t _ p h := by
    rw [atMostOneHop] at h
    by_cases heq : s = t
    · subst heq
      rw [if_pos rfl] at h
      obtain rfl := Option.some.inj h
      exact ⟨.arrive, 0, rfl, .root, fun m _ => Nat.zero_le m⟩
    · rw [if_neg heq] at h
      obtain ⟨hmem, h⟩ := Option.ite_none_right_eq_some.mp h
      obtain rfl := Option.some.inj h
      refine ⟨.step hmem .arrive, 1, rfl, .step .root hmem, fun m hm => ?_⟩
      by_contra hlt
      obtain rfl : m = 0 := by omega
      cases hm
      exact heq rfl
  noPath s _ t ht h n hreaches := by
    rw [atMostOneHop] at h
    have hnot : s ≠ t ∧ t ∉ (searchGraph cutNetwork).neighbors s := by
      by_contra hor
      simp only [not_and_or, not_not] at hor
      rcases hor with heq | hmem
      · simp [heq] at h
      · rw [if_pos hmem] at h
        split at h
        · cases h
        · cases h
    -- a second step only leads back
    have hwithin : t = s ∨ t ∈ (searchGraph cutNetwork).neighbors s := by
      clear h hnot ht
      induction hreaches with
      | root => exact .inl rfl
      | @step _ v w _ hw ih =>
        rcases ih with rfl | hv
        · exact .inr hw
        · left
          rcases cutNetwork_neighbors hv with ⟨rfl, rfl⟩ | ⟨rfl, rfl⟩ <;>
            rcases cutNetwork_neighbors hw with ⟨h, rfl⟩ | ⟨h, rfl⟩ <;> simp_all
    rcases hwithin with heq | hmem
    · exact hnot.1 heq.symm
    · exact hnot.2 hmem

/-- The host is reached from its switch, and the link that is down is not used. -/
theorem cutNetwork_shortest :
    ∃ count m', installInitialRoutes atMostOneHop none (fun _ => {}) cutNetwork =
        .ok (count, count) m' ∧
      ∃ ns, Walk.Route (fun u v => cutNetwork.net.nextHop m'.installedRoutes [] "10.0.0.1" u = some v)
        (.ip "10.0.0.1") (.dpid 2) ns ∧ ns.length = 2 := by
  have haccepted : WritesAccepted cutNetwork fun _ => {} := by
    intro d v port ip hedge hhost n switch
    rcases cutNetwork_type (of_decide_eq_true hhost) with ⟨h, _⟩ | ⟨h, _⟩ | ⟨h, _⟩
    · cases h
    · cases h
    · cases h
      rcases cutNetwork_edge hedge with ⟨_, _, rfl⟩ | ⟨h, _⟩ | ⟨_, _, rfl⟩ | ⟨_, _, rfl⟩
      · exact insertIpv4Route_of_entry rfl switch
      · cases h
      · exact insertIpv4Route_of_entry rfl switch
      · exact insertIpv4Route_of_entry rfl switch
  obtain ⟨count, m', hrun, hways⟩ := initial_routes_shortest cutNetwork atMostOneHop (fun _ => {})
    cutNetwork_routable atMostOneHop_findsShortest haccepted
  have hmem : .ip "10.0.0.1" ∈ (searchGraph cutNetwork).neighbors (.dpid 2) := by decide
  have hreaches : Bfs.Reaches (searchGraph cutNetwork).neighbors (.dpid 2) 1 (.ip "10.0.0.1") :=
    .step .root hmem
  obtain ⟨n, ns, hdist, hroute, hlen, _⟩ := hways 2 "10.0.0.1" 1 rfl rfl hreaches
  refine ⟨count, m', hrun, ns, hroute, ?_⟩
  have hle := hdist.le 1 hreaches
  have hpos : n ≠ 0 := by
    rintro rfl
    cases hdist.eq_of_zero
  omega

end Ndtwin.Spec

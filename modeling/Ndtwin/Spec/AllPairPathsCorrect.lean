import Ndtwin.ForStd.List
import Ndtwin.Spec.AllPairWalkCorrect
import Ndtwin.Spec.HostIndexCorrect

/-!
# The trees of the walk over all pairs

With every switch connected and every host at one switch, the walk sends one rule for every
address to every switch that has a way to the host over links in both directions. The rules lead
there on a shortest way, and this way is what is reported. All of this rests on
`find_host_by_ip`: with an index that lacks an address the walk is lost.

## Key results

- `WalkEnv.installs_of_found`: what the walk does when every address is found
- `installs_iff`: it does so exactly when every address is found
-/

namespace Ndtwin.Router

/-- A switch, as its name tells. -/
def RouterNode.isDpid : RouterNode → Bool
  | .dpid _ => true
  | .mac _ => false

namespace HostNet

/-- The switches that a switch is linked to in both directions. -/
def twoWay (net : HostNet) (u : RouterNode) : List RouterNode :=
  (net.neighbors u).filter fun w => u.isDpid ∧ w.isDpid ∧ net.hasEdge w u

/-- Where the port of a switch leads. -/
def peer (net : HostNet) (u : RouterNode) (port : Int) : Option RouterNode :=
  (net.neighbors u).find? fun w => net.edge? u w = some port

/-- The host of an address, and the switch that it hangs at. -/
structure HostAt (net : HostNet) (ip : String) (host : RouterNode) (d : Int) : Prop where
  node : host ∈ net.nodes
  listed : ip ∈ net.ipList host
  mac : ¬host.isDpid
  up : ∀ v, net.hasEdge host v = true ↔ v = .dpid d
  down : ∀ v, net.hasEdge v host = true ↔ v = .dpid d

/-- A graph whose switches have no addresses and use a port once, and whose hosts hang at one
    switch each and share no address. -/
structure Regular (net : HostNet) (switches : List Int) : Prop where
  ends : ∀ u v, net.hasEdge u v = true → u ∈ net.nodes ∧ v ∈ net.nodes
  connected : ∀ d, .dpid d ∈ net.nodes → d ∈ switches
  host : ∀ v ∈ net.nodes, ∀ ip ∈ net.ipList v, ∃ d, net.HostAt ip v d
  ports : ∀ u v w port, u.isDpid = true → net.edge? u v = some port → net.edge? u w = some port →
    v = w
  nodup : net.allHostsIpList.Nodup

variable {net : HostNet} {switches : List Int} {u w : RouterNode} {port : Int} {ip : String}

theorem mem_twoWay : w ∈ net.twoWay u ↔ u.isDpid = true ∧ w.isDpid = true ∧
    net.hasEdge u w = true ∧ net.hasEdge w u = true := by
  rw [twoWay, List.mem_filter, DiGraph.mem_neighbors, decide_eq_true_iff]
  tauto

theorem twoWay_symm (h : w ∈ net.twoWay u) : u ∈ net.twoWay w := by
  obtain ⟨hu, hw, hedge, hback⟩ := mem_twoWay.mp h
  exact mem_twoWay.mpr ⟨hw, hu, hback, hedge⟩

theorem peer_eq_some_iff (h : net.Regular switches) (hu : u.isDpid = true) :
    net.peer u port = some w ↔ net.edge? u w = some port := by
  constructor
  · intro hpeer
    simpa using List.find?_some hpeer
  · intro hedge
    have hw : w ∈ net.neighbors u := by
      rw [DiGraph.mem_neighbors, DiGraph.hasEdge, hedge]
      rfl
    cases hfind : net.peer u port with
    | none =>
      have hnone := List.find?_eq_none.mp hfind w hw
      simp [hedge] at hnone
    | some v =>
      have hv : net.edge? u v = some port := by simpa using List.find?_some hfind
      rw [h.ports u v w port hu hv hedge]

theorem Regular.exists_hostAt (h : net.Regular switches) (hip : ip ∈ net.allHostsIpList) :
    ∃ host d, net.HostAt ip host d := by
  obtain ⟨host, hnode, hlisted⟩ := List.mem_flatMap.mp hip
  exact ⟨host, h.host host hnode ip hlisted⟩

/-- Only one node has an address. -/
theorem Regular.host_unique (h : net.Regular switches) {v v' : RouterNode} (hv : v ∈ net.nodes)
    (hip : ip ∈ net.ipList v) (hv' : v' ∈ net.nodes) (hip' : ip ∈ net.ipList v') : v = v' := by
  by_contra hne
  obtain ⟨_, hpairwise⟩ := List.nodup_flatMap.mp h.nodup
  have : Std.Symm (Function.onFun List.Disjoint net.ipList) := ⟨fun _ _ hab => hab.symm⟩
  have hdisjoint : List.Disjoint (net.ipList v) (net.ipList v') := hpairwise.forall hv hv' hne
  exact hdisjoint hip hip'

theorem Regular.scan_eq (h : net.Regular switches) {host : RouterNode} (hnode : host ∈ net.nodes)
    (hlisted : ip ∈ net.ipList host) : net.scan ip = some host := by
  cases hscan : net.scan ip with
  | none =>
    have hnone := List.find?_eq_none.mp hscan host hnode
    simp [hlisted] at hnone
  | some v =>
    have hv : ip ∈ net.ipList v := by simpa using List.find?_some hscan
    rw [h.host_unique (List.mem_of_find?_eq_some hscan) hv hnode hlisted]

end HostNet

/-! ## Forwarding -/

/-- The port by which a switch sends on what is for an address. -/
def rulePort (rules : List SentRule) (ip : String) : RouterNode → Option Int
  | .dpid d => (rules.find? fun rule => rule.dpid = d ∧ rule.ipv4Dst = ip).map SentRule.outPort
  | .mac _ => none

/-- Where a switch sends on what is for an address. -/
def forward (net : HostNet) (rules : List SentRule) (ip : String) (u : RouterNode) :
    Option RouterNode :=
  (rulePort rules ip u).bind (net.peer u)

/-- A way from the switch of a source to the host of an address, as it is reported. -/
def wayPath (rules : List SentRule) (srcIp dstIp : String) (srcPort : Int)
    (way : List RouterNode) : ReportedPath :=
  (.ip srcIp, srcPort) ::
    (way.dropLast.map fun u => (.node u, (rulePort rules dstIp u).getD 0)) ++ [(.ip dstIp, 0)]

/-- A path from one address to another. -/
def isFor (srcIp dstIp : String) (path : ReportedPath) : Bool :=
  path.head?.map Prod.fst = some (.ip srcIp) ∧ path.getLast?.map Prod.fst = some (.ip dstIp)

/-- The rules make up a tree of shortest ways for every address, and the ways that lead from
    one address to another are what is reported. -/
structure Installs (net : HostNet) (paths : List ReportedPath) (rules : List SentRule) :
    Prop where
  rule : ∀ ip host s, net.HostAt ip host s → ∀ d n,
    Bfs.IsDist net.twoWay (.dpid d) (.dpid s) n →
    ∃ port, rules.filter (fun rule => rule.dpid = d ∧ rule.ipv4Dst = ip) = [⟨d, ip, port⟩]
  way : ∀ ip host s, net.HostAt ip host s → ∀ d n,
    Bfs.IsDist net.twoWay (.dpid d) (.dpid s) n →
    ∃ way, Walk.Route (fun u w => forward net rules ip u = some w) host (.dpid d) way ∧
      way.length = n + 2 ∧ way.Nodup
  path : ∀ srcIp srcHost d srcPort dstIp dstHost s n, srcIp ≠ dstIp →
    net.HostAt srcIp srcHost d → net.edge? (.dpid d) srcHost = some srcPort →
    net.HostAt dstIp dstHost s → Bfs.IsDist net.twoWay (.dpid d) (.dpid s) n →
    ∃ way, Walk.Route (fun u w => forward net rules dstIp u = some w) dstHost (.dpid d) way ∧
      paths.filter (isFor srcIp dstIp) = [wayPath rules srcIp dstIp srcPort way]
  only : ∀ path ∈ paths, ∃ srcIp srcHost d dstIp dstHost s n, srcIp ≠ dstIp ∧
    net.HostAt srcIp srcHost d ∧ net.HostAt dstIp dstHost s ∧
    Bfs.IsDist net.twoWay (.dpid d) (.dpid s) n ∧ isFor srcIp dstIp path = true

/-- What a walk reads: one of the graphs, and `find_host_by_ip` with the index as it is. -/
def RouterNets.walkEnv (s : RouterNets) (id : NetId) (switches : List Int)
    (hashDstIp : String → Nat) : WalkEnv where
  net := s.net id
  switches := switches
  findHostByIp ip := (s.hostIp.findHostByIp id (s.net id) ip).1
  hashDstIp := hashDstIp

/-- A lookup does not change what the next one answers. -/
theorem HostIpIndex.findHostByIp_findHostByIp (r : HostIpIndex) (id : NetId) (net : HostNet)
    (ip ip' : String) :
    ((r.findHostByIp id net ip).2.findHostByIp id net ip').1 = (r.findHostByIp id net ip').1 := by
  have hrefresh : (r.refresh id net).refresh id net = r.refresh id net := by
    refine if_pos ?_
    by_cases htoken : r.token = some (id, net.nodes.length)
    · rw [refresh, if_pos htoken, htoken]
    · rw [refresh, if_neg htoken]
  show ((r.refresh id net).refresh id net).index.lookup ip' = _
  rw [hrefresh]
  rfl

namespace WalkEnv

variable {env : WalkEnv} {ip : String} {host u v w : RouterNode} {s : Int} {port : Int}
  {b : Bfs.State RouterNode} {paths : List ReportedPath} {rules : List SentRule}

theorem isDpid_of_isSwitch (h : env.isSwitch v = true) : v.isDpid = true := by
  cases v with
  | dpid d => rfl
  | mac s => cases h

/-- A host whose address is found hangs where the graph says. -/
theorem hangsAt_of_hostAt (h : env.net.HostAt ip host s) (hfound : env.findHostByIp ip = some host) :
    ∃ port, env.HangsAt ip host (.dpid s) port := by
  have hmem : .dpid s ∈ env.net.neighbors host := DiGraph.mem_neighbors.mpr ((h.up _).mpr rfl)
  obtain ⟨port, hport⟩ := Option.isSome_iff_exists.mp ((h.down _).mpr rfl)
  refine ⟨port, hfound, ?_, hport⟩
  cases hneighbors : env.net.neighbors host with
  | nil =>
    rw [hneighbors] at hmem
    exact absurd hmem List.not_mem_nil
  | cons v rest =>
    have hv : v ∈ env.net.neighbors host := hneighbors ▸ List.mem_cons_self
    obtain rfl := (h.up v).mp (DiGraph.mem_neighbors.mp hv)
    rw [findConnectedSwitch, hneighbors]

section Regular

variable (hreg : env.net.Regular env.switches)
include hreg

theorem isSwitch_of_hasEdge (hu : u.isDpid = true)
    (hedge : env.net.hasEdge u w = true ∨ env.net.hasEdge w u = true) : env.isSwitch u = true := by
  have hnode : u ∈ env.net.nodes := by
    rcases hedge with hedge | hedge
    · exact (hreg.ends _ _ hedge).1
    · exact (hreg.ends _ _ hedge).2
  cases u with
  | dpid d => exact decide_eq_true (hreg.connected d hnode)
  | mac m => cases hu

theorem mem_linked_iff_twoWay : w ∈ env.linked ip u ↔ w ∈ env.net.twoWay u := by
  rw [mem_linked, HostNet.mem_twoWay]
  constructor
  · rintro ⟨hu, hw, hedge, hback⟩
    exact ⟨isDpid_of_isSwitch hu, isDpid_of_isSwitch hw, hedge, hback⟩
  · rintro ⟨hu, hw, hedge, hback⟩
    exact ⟨isSwitch_of_hasEdge hreg hu (.inl hedge), isSwitch_of_hasEdge hreg hw (.inl hback),
      hedge, hback⟩

/-- The depth of a visited switch is its distance from the switch of the host. -/
theorem Ended.isDist_twoWay (h : env.Ended ip (.dpid s) b) (hv : v ∈ b.done) :
    Bfs.IsDist env.net.twoWay v (.dpid s) (b.depth v) :=
  ((h.inv.isDist (Bfs.mem_seen_of_done hv)).congr fun _ _ => mem_linked_iff_twoWay hreg).symm
    fun _ _ => HostNet.twoWay_symm

theorem Ended.done_of_isDist (h : env.Ended ip (.dpid s) b) {n : ℕ}
    (hdist : Bfs.IsDist env.net.twoWay v (.dpid s) n) : v ∈ b.done ∧ b.depth v = n := by
  have hreach := (hdist.symm fun _ _ => HostNet.twoWay_symm).reaches
  have hv : v ∈ b.done := (h.inv.done_iff h.queue).mpr
    ⟨n, hreach.congr fun _ _ => (mem_linked_iff_twoWay hreg).mpr⟩
  exact ⟨hv, (h.isDist_twoWay hreg hv).unique hdist⟩

omit hreg in
theorem Ended.isDpid (h : env.Ended ip (.dpid s) b) (hv : v ∈ b.done) : v.isDpid = true := by
  cases hparent : b.parent v with
  | none =>
    rw [h.eq_root hv hparent]
    rfl
  | some w => exact isDpid_of_isSwitch (h.parent hv hparent).2.1

theorem Ended.datapath (h : env.Ended ip (.dpid s) b) (hhost : env.net.HostAt ip host s) {d : Int}
    (hd : .dpid d ∈ b.done) : env.datapath (.dpid d) = some d := by
  have hswitch : env.isSwitch (.dpid d) = true := by
    cases hparent : b.parent (.dpid d) with
    | none =>
      cases h.eq_root hd hparent
      exact isSwitch_of_hasEdge hreg rfl (.inl ((hhost.down _).mpr rfl))
    | some w => exact (h.parent hd hparent).2.1
  exact datapath_eq_some.mpr ⟨rfl, of_decide_eq_true hswitch⟩

end Regular

/-! ## What serves one address -/

/-- What was sent and reported for an address comes from one search. -/
structure Served (env : WalkEnv) (ip : String) (host : RouterNode) (s : Int)
    (paths : List ReportedPath) (rules : List SentRule) (b : Bfs.State RouterNode) : Prop extends
    env.Ended ip (.dpid s) b where
  rules : ∀ d, rules.filter (fun rule => rule.dpid = d ∧ rule.ipv4Dst = ip) =
    (b.done.filterMap fun v => env.ruleOf ip host v (b.parent v)).filter
      fun rule => rule.dpid = d ∧ rule.ipv4Dst = ip
  paths : ∀ srcIp, paths.filter (isFor srcIp ip) =
    (b.done.flatMap (env.reportsAt ip host (.dpid s) b)).filter (isFor srcIp ip)

theorem ruleOf_eq_some {parent : Option RouterNode} {rule : SentRule}
    (h : env.ruleOf ip host v parent = some rule) :
    v = .dpid rule.dpid ∧ rule.ipv4Dst = ip ∧ env.portOf host v parent = some rule.outPort := by
  obtain ⟨d, hd, hport⟩ := Option.bind_eq_some_iff.mp h
  obtain ⟨port, hport', rfl⟩ := Option.map_eq_some_iff.mp hport
  exact ⟨(datapath_eq_some.mp hd).1, rfl, hport'⟩

theorem isFor_cons_pathOf {srcIp dstIp srcIp' dstIp' : String} {dstSwitch : RouterNode} :
    isFor srcIp dstIp ((.ip srcIp', port) :: env.pathOf dstIp' host dstSwitch b v) = true ↔
      srcIp' = srcIp ∧ dstIp' = dstIp := by
  rw [isFor, decide_eq_true_iff, getLast?_cons_pathOf, List.head?_cons]
  simp

theorem exists_of_pathFrom {dstIp srcIp : String} {switch : PathNode} {path path' : ReportedPath}
    (h : env.pathFrom dstIp switch path srcIp = some path') :
    ∃ port, path' = (.ip srcIp, port) :: path := by
  rw [pathFrom] at h
  obtain ⟨_, h⟩ := Option.ite_none_left_eq_some.mp h
  obtain ⟨stop, _, h⟩ := Option.bind_eq_some_iff.mp h
  obtain ⟨_, h⟩ := Option.ite_none_right_eq_some.mp h
  exact ⟨stop.2, (Option.some.inj h).symm⟩

/-- The part of the walk that serves an address. -/
theorem exists_served (hreg : env.net.Regular env.switches) (hattached : env.Attached)
    {parts : List (List ReportedPath × List SentRule)}
    (hparts : List.Forall₂ env.IsPart env.net.allHostsIpList parts)
    (hip : ip ∈ env.net.allHostsIpList) (hhangs : env.HangsAt ip host (.dpid s) port) :
    ∃ b, Served env ip host s (parts.flatMap Prod.fst) (parts.flatMap Prod.snd) b := by
  obtain ⟨l₁, part, l₂, rfl, hpart, hother⟩ :=
    List.exists_split_of_forall₂ hparts hreg.nodup hip
  obtain ⟨host', dstSwitch', port', b, hhangs', hended, hpaths, hrules⟩ := hpart
  obtain ⟨rfl, rfl, rfl⟩ := hhangs.unique hhangs'
  refine ⟨b, hended, fun d => ?_, fun srcIp => ?_⟩
  · rw [← hrules]
    -- The parts of the other addresses send rules for these only.
    refine List.filter_flatMap_split fun c hc => ?_
    obtain ⟨ip', _, hne, _, _, _, _, _, _, _, hsent⟩ := hother c hc
    rw [hsent, List.filter_eq_nil_iff]
    intro rule hrule
    obtain ⟨v, _, hrule⟩ := List.mem_filterMap.mp hrule
    have hdst := (ruleOf_eq_some hrule).2.1
    rw [decide_eq_true_iff, hdst]
    exact fun h => hne h.2
  · rw [← hpaths]
    refine List.filter_flatMap_split fun c hc => ?_
    obtain ⟨ip', _, hne, _, _, _, _, _, _, hreported, _⟩ := hother c hc
    rw [hreported, List.filter_eq_nil_iff]
    intro path hpath
    obtain ⟨v, _, hpath⟩ := List.mem_flatMap.mp hpath
    obtain ⟨_, _, _, _, _, _, rfl⟩ := (mem_reportsAt hattached).mp hpath
    rw [isFor_cons_pathOf]
    exact fun h => hne h.2

/-- One rule is sent to a visited switch, with the port to its parent. -/
theorem Served.rule (h : Served env ip host s paths rules b)
    (hreg : env.net.Regular env.switches) (hhost : env.net.HostAt ip host s) {d : Int}
    (hd : .dpid d ∈ b.done) :
    ∃ port, env.portOf host (.dpid d) (b.parent (.dpid d)) = some port ∧
      rules.filter (fun rule => rule.dpid = d ∧ rule.ipv4Dst = ip) = [⟨d, ip, port⟩] := by
  obtain ⟨port₀, hport₀⟩ := Option.isSome_iff_exists.mp ((hhost.down _).mpr rfl)
  obtain ⟨port, hport⟩ := h.toEnded.portOf hport₀ hd
  have hrule : env.ruleOf ip host (.dpid d) (b.parent (.dpid d)) = some ⟨d, ip, port⟩ := by
    rw [ruleOf, h.toEnded.datapath hreg hhost hd, hport]
    rfl
  have hnodup : b.done.Nodup := h.toEnded.seen_eq ▸ h.toEnded.inv.nodup
  refine ⟨port, hport, ?_⟩
  rw [h.rules, ← flatMap_toList]
  rw [List.filter_flatMap_of_nodup hnodup hd, hrule]
  · simp
  · intro v _ hne
    rw [List.filter_eq_nil_iff]
    intro rule hmem hrule
    obtain ⟨hv, _⟩ := ruleOf_eq_some (Option.mem_toList.mp hmem)
    exact hne (hv.trans (congrArg RouterNode.dpid (of_decide_eq_true hrule).1))

theorem Served.rulePort (h : Served env ip host s paths rules b)
    (hreg : env.net.Regular env.switches) (hhost : env.net.HostAt ip host s) (hv : v ∈ b.done) :
    ∃ port, env.portOf host v (b.parent v) = some port ∧ rulePort rules ip v = some port := by
  cases v with
  | mac m => cases h.toEnded.isDpid hv
  | dpid d =>
    obtain ⟨port, hport, hrule⟩ := h.rule hreg hhost hv
    refine ⟨port, hport, ?_⟩
    rw [Router.rulePort, ← List.head?_filter, hrule]
    rfl

theorem Served.forward (h : Served env ip host s paths rules b)
    (hreg : env.net.Regular env.switches) (hhost : env.net.HostAt ip host s) (hv : v ∈ b.done) :
    forward env.net rules ip v = some ((b.parent v).getD host) := by
  obtain ⟨port, hport, hrule⟩ := h.rulePort hreg hhost hv
  rw [Router.forward, hrule, Option.bind_some,
    HostNet.peer_eq_some_iff hreg (h.toEnded.isDpid hv)]
  exact hport

/-- The rules lead along the parents to the host. -/
theorem Served.way (h : Served env ip host s paths rules b)
    (hreg : env.net.Regular env.switches) (hhost : env.net.HostAt ip host s) (hv : v ∈ b.done) :
    Walk.Route (fun u w => Router.forward env.net rules ip u = some w) host v
        (routeOf b (.dpid s) v ++ [host]) ∧
      (routeOf b (.dpid s) v ++ [host]).length = b.depth v + 2 ∧
      (routeOf b (.dpid s) v ++ [host]).Nodup := by
  obtain ⟨hroute, hlen, hnodup⟩ := h.toEnded.route hv
  have hroot : .dpid s ∈ b.done := h.toEnded.seen_eq ▸ h.toEnded.inv.root_seen
  refine ⟨hroute.concat ?_ ?_, ?_, ?_⟩
  · rintro u w ⟨hu, hparent⟩
    rw [h.forward hreg hhost hu, hparent, Option.getD_some]
  · rw [h.forward hreg hhost hroot, h.toEnded.inv.root_parent, Option.getD_none]
  · rw [List.length_append, hlen, List.length_singleton]
  · refine List.nodup_append.mpr ⟨hnodup, List.nodup_singleton host, ?_⟩
    rintro u hu _ hlast rfl
    rw [List.mem_singleton.mp hlast] at hu
    exact hhost.mac (h.toEnded.isDpid (h.toEnded.mem_of_route hroute _ hu))

theorem Served.wayPath (h : Served env ip host s paths rules b)
    (hreg : env.net.Regular env.switches) (hhost : env.net.HostAt ip host s) (hv : v ∈ b.done)
    (srcIp : String) (srcPort : Int) :
    wayPath rules srcIp ip srcPort (routeOf b (.dpid s) v ++ [host]) =
      (.ip srcIp, srcPort) :: env.pathOf ip host (.dpid s) b v := by
  have hhops : (routeOf b (.dpid s) v).map (fun u => (PathNode.node u, (Router.rulePort rules ip u).getD 0)) =
      (routeOf b (.dpid s) v).map (env.hopOf host b) := by
    refine List.map_congr_left fun u hu => ?_
    obtain ⟨port, hport, hrule⟩ :=
      h.rulePort hreg hhost (h.toEnded.mem_of_route (h.toEnded.route hv).1 u hu)
    rw [hopOf, hport, hrule]
  rw [Router.wayPath, List.dropLast_concat, hhops]
  rfl

/-- One path is reported from an address at a visited switch. -/
theorem Served.path (h : Served env ip host s paths rules b)
    (hreg : env.net.Regular env.switches) (hattached : env.Attached) {srcIp : String}
    (hsrc : srcIp ∈ env.net.allHostsIpList) (hne : srcIp ≠ ip) {srcHost : RouterNode}
    {srcPort : Int} (hsrcHangs : env.HangsAt srcIp srcHost v srcPort) (hv : v ∈ b.done) :
    paths.filter (isFor srcIp ip) =
      [(.ip srcIp, srcPort) :: env.pathOf ip host (.dpid s) b v] := by
  have hnodup : b.done.Nodup := h.toEnded.seen_eq ▸ h.toEnded.inv.nodup
  have hothers : ∀ w ∈ b.done, w ≠ v →
      (env.reportsAt ip host (.dpid s) b w).filter (isFor srcIp ip) = [] := by
    intro w _ hwv
    rw [List.filter_eq_nil_iff]
    intro path hpath hfor
    obtain ⟨_, _, _, _, _, hhangs, rfl⟩ := (mem_reportsAt hattached).mp hpath
    obtain ⟨rfl, _⟩ := isFor_cons_pathOf.mp hfor
    exact hwv (hsrcHangs.unique hhangs).2.1
  have hreport : env.pathFrom ip (.node v) (env.pathOf ip host (.dpid s) b v) srcIp =
      some ((.ip srcIp, srcPort) :: env.pathOf ip host (.dpid s) b v) := by
    rw [pathFrom, if_neg hne, hsrcHangs.sourceStop, Option.bind_some, if_pos rfl]
  -- The report of one switch, and in it the one of one source.
  rw [h.paths, List.filter_flatMap_of_nodup hnodup hv hothers, reportsAt, ← flatMap_toList,
    List.filter_flatMap_of_nodup hreg.nodup hsrc, hreport]
  · have hfor : isFor srcIp ip ((.ip srcIp, srcPort) :: env.pathOf ip host (.dpid s) b v) = true :=
      isFor_cons_pathOf.mpr ⟨rfl, rfl⟩
    rw [Option.toList_some, List.filter_cons_of_pos hfor, List.filter_nil]
  · intro srcIp' _ hsrcIp'
    rw [List.filter_eq_nil_iff]
    intro path hpath hfor
    obtain ⟨port, rfl⟩ := exists_of_pathFrom (Option.mem_toList.mp hpath)
    exact hsrcIp' (isFor_cons_pathOf.mp hfor).1

/-! ## The whole walk -/

theorem mem_allHostsIpList (hhost : env.net.HostAt ip host s) : ip ∈ env.net.allHostsIpList :=
  List.mem_flatMap.mpr ⟨host, hhost.node, hhost.listed⟩

section Installs

variable (hreg : env.net.Regular env.switches)
include hreg

/-- When every address is found, the hosts hang where the graph says. -/
theorem hangsAt_of_found
    (hfound : ∀ ip ∈ env.net.allHostsIpList, env.findHostByIp ip = env.net.scan ip)
    (hhost : env.net.HostAt ip host s) : ∃ port, env.HangsAt ip host (.dpid s) port := by
  refine hangsAt_of_hostAt hhost ?_
  rw [hfound ip (mem_allHostsIpList hhost), hreg.scan_eq hhost.node hhost.listed]

/-- A walk that finds every address installs the trees. -/
theorem installs_of_found
    (hfound : ∀ ip ∈ env.net.allHostsIpList, env.findHostByIp ip = env.net.scan ip) :
    ∃ paths rules, env.installAllPairPaths [] = .ok paths rules ∧
      Installs env.net paths rules := by
  have hattached : env.Attached := by
    intro ip hip
    obtain ⟨host, s, hhost⟩ := hreg.exists_hostAt hip
    obtain ⟨port, hhangs⟩ := hangsAt_of_found hreg hfound hhost
    exact ⟨host, .dpid s, port, hhangs⟩
  obtain ⟨parts, hparts, hrun⟩ := installAllPairPaths_spec hattached
  have hserved : ∀ ip host s, env.net.HostAt ip host s →
      ∃ b, Served env ip host s (parts.flatMap Prod.fst) (parts.flatMap Prod.snd) b := by
    intro ip host s hhost
    obtain ⟨port, hhangs⟩ := hangsAt_of_found hreg hfound hhost
    exact exists_served hreg hattached hparts (mem_allHostsIpList hhost) hhangs
  -- Rules, ways and reported paths are read off the part that serves the destination.
  refine ⟨_, _, hrun, ⟨?_, ?_, ?_, ?_⟩⟩
  · intro ip host s hhost d n hdist
    obtain ⟨b, h⟩ := hserved ip host s hhost
    obtain ⟨port, _, hrule⟩ := h.rule hreg hhost (h.toEnded.done_of_isDist hreg hdist).1
    exact ⟨port, hrule⟩
  · intro ip host s hhost d n hdist
    obtain ⟨b, h⟩ := hserved ip host s hhost
    obtain ⟨hd, hdepth⟩ := h.toEnded.done_of_isDist hreg hdist
    obtain ⟨hroute, hlen, hnodup⟩ := h.way hreg hhost hd
    exact ⟨_, hroute, hdepth ▸ hlen, hnodup⟩
  · intro srcIp srcHost d srcPort dstIp dstHost s n hne hsrc hsrcPort hdst hdist
    obtain ⟨b, h⟩ := hserved dstIp dstHost s hdst
    obtain ⟨hd, _⟩ := h.toEnded.done_of_isDist hreg hdist
    obtain ⟨port, hhangs⟩ := hangsAt_of_found hreg hfound hsrc
    obtain rfl : port = srcPort := Option.some.inj (hhangs.port.symm.trans hsrcPort)
    refine ⟨_, (h.way hreg hdst hd).1, ?_⟩
    rw [h.wayPath hreg hdst hd]
    exact h.path hreg hattached (mem_allHostsIpList hsrc) hne hhangs hd
  · -- A path that is reported comes from one part, and this part serves one destination.
    intro path hpath
    obtain ⟨part, hpart, hpath⟩ := List.mem_flatMap.mp hpath
    obtain ⟨dstIp, hip, host', dstSwitch, port', b, hhangs', hended, hpaths, _⟩ :=
      List.exists_left_of_forall₂ hparts hpart
    obtain ⟨dstHost, s, hdst⟩ := hreg.exists_hostAt hip
    obtain ⟨port, hhangs⟩ := hangsAt_of_found hreg hfound hdst
    obtain ⟨rfl, rfl, rfl⟩ := hhangs.unique hhangs'
    rw [hpaths, List.mem_flatMap] at hpath
    obtain ⟨v, hv, hpath⟩ := hpath
    obtain ⟨srcIp, hsrcIp, hne, srcHost', srcPort, hsrcHangs, rfl⟩ :=
      (mem_reportsAt hattached).mp hpath
    obtain ⟨srcHost, d, hsrc⟩ := hreg.exists_hostAt hsrcIp
    obtain ⟨_, hhangs''⟩ := hangsAt_of_found hreg hfound hsrc
    obtain ⟨rfl, rfl, rfl⟩ := hhangs''.unique hsrcHangs
    exact ⟨srcIp, srcHost', d, dstIp, _, s, b.depth (.dpid d), hne, hsrc, hdst,
      hended.isDist_twoWay hreg hv, isFor_cons_pathOf.mpr ⟨rfl, rfl⟩⟩

/-- A walk that installs the trees finds every address. -/
theorem found_of_installs (hrun : env.installAllPairPaths [] = .ok paths rules)
    (hinstalls : Installs env.net paths rules) :
    ∀ ip ∈ env.net.allHostsIpList, env.findHostByIp ip = env.net.scan ip := by
  intro ip hip
  obtain ⟨host, s, hhost⟩ := hreg.exists_hostAt hip
  rw [hreg.scan_eq hhost.node hhost.listed]
  have hroot : Bfs.IsDist env.net.twoWay (.dpid s) (.dpid s) 0 := ⟨.root, fun m _ => Nat.zero_le m⟩
  -- the switch of the host sends to the host
  obtain ⟨way, hroute, hlen, _⟩ := hinstalls.way ip host s hhost s 0 hroot
  obtain ⟨port, hrule, hedge⟩ : ∃ port, rulePort rules ip (.dpid s) = some port ∧
      env.net.edge? (.dpid s) host = some port := by
    cases hroute with
    | arrive => cases hhost.mac rfl
    | @step _ w ns hhop hroute =>
      cases hroute with
      | arrive =>
        obtain ⟨port, hrule, hpeer⟩ := Option.bind_eq_some_iff.mp hhop
        exact ⟨port, hrule, (HostNet.peer_eq_some_iff hreg rfl).mp hpeer⟩
      | step _ hroute =>
        obtain ⟨rest, rfl⟩ := hroute.exists_cons
        simp at hlen
  -- and it does so by the rule of the search
  obtain ⟨rule, hfind, rfl⟩ := Option.map_eq_some_iff.mp hrule
  have hmem := List.mem_of_find?_eq_some hfind
  obtain ⟨hdpid, hdst⟩ : rule.dpid = s ∧ rule.ipv4Dst = ip := by
    simpa using List.find?_some hfind
  have hattached := attached_of_installAllPairPaths hrun
  obtain ⟨parts, hparts, hrun'⟩ := installAllPairPaths_spec hattached
  cases hrun.symm.trans hrun'
  obtain ⟨part, hpart, hmem⟩ := List.mem_flatMap.mp hmem
  obtain ⟨ip', _, host', dstSwitch, port', b, hhangs, hended, _, hrules⟩ :=
    List.exists_left_of_forall₂ hparts hpart
  rw [hrules, List.mem_filterMap] at hmem
  obtain ⟨v, hv, hsent⟩ := hmem
  obtain ⟨rfl, rfl, hportOf⟩ := ruleOf_eq_some hsent
  rw [hdpid] at hv hportOf
  have hsame := hreg.ports _ _ _ _ rfl hportOf hedge
  cases hparent : b.parent (.dpid s) with
  | none =>
    rw [hparent, Option.getD_none] at hsame
    rw [← hdst, ← hsame]
    exact hhangs.found
  | some w =>
    rw [hparent, Option.getD_some] at hsame
    obtain rfl := hsame
    exact absurd (isDpid_of_isSwitch (hended.parent hv hparent).2.2.1) hhost.mac

end Installs

end WalkEnv

/-- The walk installs the trees exactly if the index answers for every address with its host. -/
theorem installs_iff (s : RouterNets) (id : NetId) (switches : List Int)
    (hashDstIp : String → Nat) (hreg : (s.net id).Regular switches) :
    (∃ paths rules, (s.walkEnv id switches hashDstIp).installAllPairPaths [] = .ok paths rules ∧
        Installs (s.net id) paths rules) ↔
      ∀ ip ∈ (s.net id).allHostsIpList,
        (s.hostIp.findHostByIp id (s.net id) ip).1 = (s.net id).scan ip := by
  constructor
  · rintro ⟨paths, rules, hrun, hinstalls⟩
    exact @WalkEnv.found_of_installs (s.walkEnv id switches hashDstIp) _ _ hreg hrun hinstalls
  · exact @WalkEnv.installs_of_found (s.walkEnv id switches hashDstIp) hreg

/-! ## Graphs to try it on -/

/-- What makes a graph regular, as checks over its nodes and edges. -/
theorem HostNet.regular_of_pairs {net : HostNet} {switches : List Int} (home : RouterNode → Int)
    (hends : ∀ e ∈ net.edges.toPairs, e.1.1 ∈ net.nodes ∧ e.1.2 ∈ net.nodes)
    (hconnected : ∀ v ∈ net.nodes, v.isDpid = true → v ∈ switches.map RouterNode.dpid)
    (hhost : ∀ v ∈ net.nodes, net.ipList v ≠ [] → ¬v.isDpid = true ∧
      (∀ w ∈ net.nodes, net.hasEdge v w = true ↔ w = .dpid (home v)) ∧
      (∀ w ∈ net.nodes, net.hasEdge w v = true ↔ w = .dpid (home v)) ∧
      .dpid (home v) ∈ net.nodes)
    (hports : ∀ e ∈ net.edges.toPairs, ∀ e' ∈ net.edges.toPairs, e.1.1.isDpid = true →
      e.1.1 = e'.1.1 → e.2 = e'.2 → e.1.2 = e'.1.2)
    (hnodup : net.allHostsIpList.Nodup) : net.Regular switches := by
  have hedges : ∀ u w, net.hasEdge u w = true → u ∈ net.nodes ∧ w ∈ net.nodes := by
    intro u w hedge
    obtain ⟨port, hport⟩ := Option.isSome_iff_exists.mp hedge
    exact hends _ (AssocMap.mem_toPairs.mpr hport)
  refine {
    ends := hedges
    connected := fun d hd => ?_
    host := fun v hv ip hip => ?_
    ports := fun u v w port hu hv hw =>
      hports _ (AssocMap.mem_toPairs.mpr hv) _ (AssocMap.mem_toPairs.mpr hw) hu rfl rfl
    nodup := hnodup }
  · obtain ⟨d', hd', heq⟩ := List.mem_map.mp (hconnected _ hd rfl)
    exact RouterNode.dpid.inj heq ▸ hd'
  · obtain ⟨hmac, hup, hdown, hhome⟩ := hhost v hv (List.ne_nil_of_mem hip)
    refine ⟨home v, hv, hip, hmac, fun w => ⟨fun hedge => ?_, ?_⟩, fun w => ⟨fun hedge => ?_, ?_⟩⟩
    · exact (hup w (hedges _ _ hedge).2).mp hedge
    · rintro rfl
      exact (hup _ hhome).mpr rfl
    · exact (hdown w (hedges _ _ hedge).1).mp hedge
    · rintro rfl
      exact (hdown _ hhome).mpr rfl

/-- Three switches, one of them linked in one direction only, and two hosts. -/
def oneWayNet : HostNet :=
  let net : HostNet := {}
  let net := (net.addHost (.mac "a") ["10.0.0.1", "10.0.0.2"]).addHost (.mac "b") ["10.0.0.3"]
  let net := (net.addEdge (.dpid 1) (.mac "a") 1).addEdge (.mac "a") (.dpid 1) 0
  let net := (net.addEdge (.dpid 2) (.mac "b") 1).addEdge (.mac "b") (.dpid 2) 0
  let net := (net.addEdge (.dpid 1) (.dpid 2) 2).addEdge (.dpid 2) (.dpid 1) 2
  net.addEdge (.dpid 1) (.dpid 3) 3

theorem installs_oneWayNet :
    ∃ paths rules, (RouterNets.walkEnv { staticNet := oneWayNet } .static [1, 2, 3]
        fun _ => 0).installAllPairPaths [] = .ok paths rules ∧ Installs oneWayNet paths rules := by
  refine (installs_iff { staticNet := oneWayNet } .static [1, 2, 3] (fun _ => 0) ?_).mpr (by decide)
  exact HostNet.regular_of_pairs (fun v => if v = .mac "a" then 1 else 2) (by decide) (by decide)
    (by decide) (by decide) (by decide)

/-- After a second address was learned, the walk is lost. -/
theorem secondAddress_not_installed :
    ((GuardedRun.run RouterNets.step {} RouterNets.secondAddress).net .dynamic).Regular [1] ∧
    ¬∃ paths rules,
      ((GuardedRun.run RouterNets.step {} RouterNets.secondAddress).walkEnv .dynamic [1]
        fun _ => 0).installAllPairPaths [] = .ok paths rules ∧
      Installs ((GuardedRun.run RouterNets.step {} RouterNets.secondAddress).net .dynamic)
        paths rules := by
  constructor
  · exact HostNet.regular_of_pairs (fun _ => 1) (by decide) (by decide) (by decide) (by decide)
      (by decide)
  · rintro ⟨paths, rules, hrun, _⟩
    obtain ⟨host, _, _, hhangs⟩ :=
      WalkEnv.attached_of_installAllPairPaths hrun "10.0.0.2" (by decide)
    have hnone : ((GuardedRun.run RouterNets.step {} RouterNets.secondAddress).walkEnv .dynamic [1]
        fun _ => 0).findHostByIp "10.0.0.2" = none := by decide
    cases hnone.symm.trans hhangs.found

end Ndtwin.Router

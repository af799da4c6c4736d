import Ndtwin.ForStd.List
import Ndtwin.Kernel.DestinationPaths
import Ndtwin.Proxy.DestinationPaths

/-!
# Switch Counts against Installed Routes

The proxy walks the rules on the switches, writes the paths it finds as JSON, and the kernel reads
them back and counts the switches of each. Between two hosts there is a count afterwards exactly
when the rules lead from one to the other over links that are up, and it is the number of switches
on the way. The loop of `installed_path` is bounded by the number of nodes, and a walk that
repeats no node is never longer.

An interface of the kernel has 32 bits and a datapath id is not negative: a hop with another
number is refused.

## Key results

- `nextHop_iff_hop`: one turn of the loop is one hop
- `installedPath_eq_some_iff`: `installed_path` finds exactly the walks that arrive
- `parsePath_renderPath`: a rendered path, read back
- `counts_match_walks`: the counts after a push or a pull
-/

namespace Ndtwin.Spec

open Ndtwin.Proxy Ndtwin.Kernel

/-! ## Topologies and walks -/

/-- The address of a host as the kernel stores it. -/
def hostWord (h : String) : UInt32 :=
  networkWord ((CText.inetPton4 (CText.cStr h)).getD [])

/-- A snapshot of the graph: hosts on one switch each, with addresses of their own, and switches
    with a port of its own for each link. -/
structure TopologySnapshot where
  net : NetGraph
  /-- An edge makes its ends nodes. -/
  nodes_of_edge : ∀ u v port, net.edges.lookup (u, v) = some port →
    u ∈ net.nodes.keys ∧ v ∈ net.nodes.keys
  singleHomed : ∀ h ∈ net.hosts, ∃ dpid, net.neighbors (.ip h) = [.dpid dpid]
  dotted : ∀ h ∈ net.hosts, (CText.inetPton4 (CText.cStr h)).isSome
  distinct : ∀ h ∈ net.hosts, ∀ h' ∈ net.hosts, hostWord h = hostWord h' → h = h'
  dpid_lt : ∀ d, .dpid d ∈ net.nodes.keys → d < 2 ^ 63
  ports : ∀ d v w port, net.edges.lookup (.dpid d, v) = some port →
    net.edges.lookup (.dpid d, w) = some port → v = w

/-- The rule at `u` for the destination leads over a link that is up to `v`. -/
def Hop (net : NetGraph) (installed : InstalledRoutes) (down : List (Int × Int)) (dst : String)
    (u v : NetNode) : Prop :=
  ∃ dpid port, u = .dpid dpid ∧ installed.lookup (dpid, dst) = some port ∧ (dpid, port) ∉ down ∧
    net.edges.lookup (u, v) = some port

/-- Following the rules from the switch of the source leads to the destination, over the nodes
    `ns`, and to no node twice. -/
def Reaches (net : NetGraph) (installed : InstalledRoutes) (down : List (Int × Int))
    (src dst : String) (ns : List NetNode) : Prop :=
  ∃ dpid, .dpid dpid ∈ net.neighbors (.ip src) ∧
    Walk.Route (Hop net installed down dst) (.ip dst) (.dpid dpid) ns ∧ (.ip src :: ns).Nodup

def isDpid : NetNode → Bool
  | .dpid _ => true
  | .ip _ => false

/-- The number of switches among the nodes. -/
def switchesOn (ns : List NetNode) : Nat := (ns.filter isDpid).length

/-- For each pair of hosts there is a count exactly when the rules lead from one to the other,
    and it is the number of switches on the way; there is nothing for any other pair. -/
structure CountsMatch (net : NetGraph) (installed : InstalledRoutes) (down : List (Int × Int))
    (maps : PathMaps) : Prop where
  counts : ∀ src ∈ net.hosts, ∀ dst ∈ net.hosts, src ≠ dst → ∀ n,
    maps.getSwitchCount (hostWord src, hostWord dst) = some n ↔
      ∃ ns, Reaches net installed down src dst ns ∧ n = switchesOn ns
  others : ∀ pair, (∀ src ∈ net.hosts, ∀ dst ∈ net.hosts, src ≠ dst →
      ∀ ns, Reaches net installed down src dst ns → pair ≠ (hostWord src, hostWord dst)) →
    maps.switchCountMap.lookup pair = none ∧ maps.allPathMap.lookup pair = none

/-! ## The walk -/

theorem mem_neighbors {net : NetGraph} {u v : NetNode} :
    v ∈ net.neighbors u ↔ ∃ port, net.edges.lookup (u, v) = some port := by
  unfold NetGraph.neighbors
  rw [List.mem_filterMap]
  constructor
  · rintro ⟨⟨⟨a, b⟩, port⟩, hmem, h⟩
    dsimp only at h
    split at h
    · next ha =>
      rw [← Option.some.inj h, ← ha]
      exact ⟨port, AssocMap.mem_toPairs.mp hmem⟩
    · exact nomatch h
  · rintro ⟨port, h⟩
    exact ⟨((u, v), port), AssocMap.mem_toPairs.mpr h, if_pos rfl⟩

/-- One turn of the loop of `installed_path` is one hop, if the ports of a switch differ. -/
theorem nextHop_iff_hop {net : NetGraph}
    (hports : ∀ d v w port, net.edges.lookup (.dpid d, v) = some port →
      net.edges.lookup (.dpid d, w) = some port → v = w)
    (installed : InstalledRoutes) (down : List (Int × Int)) (dst : String) (u v : NetNode) :
    net.nextHop installed down dst u = some v ↔ Hop net installed down dst u v := by
  cases u with
  | ip s =>
    constructor
    · intro h
      exact nomatch h
    · rintro ⟨_, _, h, _⟩
      exact nomatch h
  | dpid d =>
    constructor
    · intro h
      unfold NetGraph.nextHop NetGraph.installedPort at h
      split at h
      · exact nomatch h
      · next port hport =>
        split at h
        · exact nomatch h
        · next hup =>
          have hedge := List.find?_some h
          refine ⟨d, port, rfl, hport, ?_, by simpa using hedge⟩
          simpa [NetGraph.isDown] using hup
    · rintro ⟨d', port, heq, hport, hup, hedge⟩
      cases heq
      have hup' : ¬NetGraph.isDown down (.dpid d) port = true := by
        simpa [NetGraph.isDown] using hup
      -- the search stops at a neighbour behind this port, and there is only one
      have hfound : ((net.neighbors (.dpid d)).find? fun w =>
          net.edges.lookup (.dpid d, w) = some port).isSome := by
        rw [List.find?_isSome]
        exact ⟨v, mem_neighbors.mpr ⟨port, hedge⟩, decide_eq_true hedge⟩
      obtain ⟨w, hw⟩ := Option.isSome_iff_exists.mp hfound
      have hwedge : net.edges.lookup (.dpid d, w) = some port := by
        simpa using List.find?_some hw
      have hwv : w = v := hports d w v port hwedge hedge
      unfold NetGraph.nextHop NetGraph.installedPort
      simp only [hport, hup']
      rw [hw, hwv]
      rfl

section Snapshot

variable (snap : TopologySnapshot) (installed : InstalledRoutes) (down : List (Int × Int))

theorem nextHop_eq_some_iff (dst : String) (u v : NetNode) :
    snap.net.nextHop installed down dst u = some v ↔ Hop snap.net installed down dst u v :=
  nextHop_iff_hop snap.ports installed down dst u v

theorem route_subset_nodes {dst : String} {u : NetNode} {ns : List NetNode}
    (hu : u ∈ snap.net.nodes.keys)
    (h : Walk.Route (Hop snap.net installed down dst) (.ip dst) u ns) :
    ns ⊆ snap.net.nodes.keys := by
  induction h with
  | arrive => exact List.cons_subset.mpr ⟨hu, List.nil_subset _⟩
  | step hhop _ ih =>
    obtain ⟨_, port, _, _, _, hedge⟩ := hhop
    exact List.cons_subset.mpr ⟨hu, ih (snap.nodes_of_edge _ _ port hedge).2⟩

/-- `installed_path` finds the walks that arrive; its bound cuts none of them off. -/
theorem installedPath_eq_some_iff {src : String} (hsrc : src ∈ snap.net.hosts) (dst : String)
    (hops : List NetNode) :
    snap.net.installedPath installed down src dst = some hops ↔
      ∃ ns, hops = .ip src :: ns ∧ Reaches snap.net installed down src dst ns := by
  obtain ⟨dpid, hfirst⟩ := snap.singleHomed src hsrc
  have hedge : .dpid dpid ∈ snap.net.neighbors (.ip src) := by
    rw [hfirst]
    exact List.mem_cons_self
  obtain ⟨port, hlookup⟩ := mem_neighbors.mp hedge
  have hnode := (snap.nodes_of_edge _ _ port hlookup).2
  have hstart : ([.ip src] ++ [.dpid dpid] : List NetNode).Nodup := by simp
  unfold NetGraph.installedPath
  rw [hfirst]
  dsimp only
  rw [Walk.follow_eq_some_iff (nextHop_eq_some_iff snap installed down dst) hstart
    (fun ns h => route_subset_nodes snap installed down hnode h) (Nat.le_succ _)]
  constructor
  · rintro ⟨ns, rfl, hroute, hnodup⟩
    exact ⟨ns, rfl, dpid, hedge, hroute, hnodup⟩
  · rintro ⟨ns, rfl, dpid', hedge', hroute, hnodup⟩
    rw [hfirst, List.mem_singleton] at hedge'
    cases hedge'
    exact ⟨ns, rfl, hroute, hnodup⟩

/-- The only host on the way is the destination. -/
theorem route_hosts {dst : String} {u : NetNode} {ns : List NetNode}
    (h : Walk.Route (Hop snap.net installed down dst) (.ip dst) u ns) :
    ∀ node ∈ ns, isDpid node = true ∨ node = .ip dst := by
  induction h with
  | arrive =>
    intro node hnode
    exact Or.inr (List.mem_singleton.mp hnode)
  | step hhop _ ih =>
    intro node hnode
    rcases List.mem_cons.mp hnode with rfl | hrest
    · obtain ⟨d, _, rfl, _⟩ := hhop
      exact Or.inl rfl
    · exact ih node hrest

/-- Every node on the way but the last is a switch. -/
theorem length_route {dst : String} {u : NetNode} {ns : List NetNode}
    (h : Walk.Route (Hop snap.net installed down dst) (.ip dst) u ns) :
    ns.length = switchesOn ns + 1 := by
  induction h with
  | arrive => rfl
  | step hhop _ ih =>
    obtain ⟨d, _, rfl, _⟩ := hhop
    rw [List.length_cons, ih]
    rfl

end Snapshot

/-! ## Reading a path back -/

/-- The kernel's number of a node. -/
def nodeId : NetNode → UInt64
  | .ip s => (hostWord s).toUInt64
  | .dpid d => UInt64.ofInt d

/-- A node that the kernel can read. -/
def Readable : NetNode → Prop
  | .ip s => (CText.inetPton4 (CText.cStr s)).isSome
  | .dpid d => 0 ≤ d ∧ d < 2 ^ 63

def PortInRange (port : Int) : Prop := 0 ≤ port ∧ port < 2 ^ 32

theorem asInt64_numberJson {i : Int} (h₀ : 0 ≤ i) (h₁ : i < 2 ^ 63) :
    asInt64 (numberJson i) = some i := by
  have hsmall : 0 ≤ i ∧ i < 2 ^ 64 := by omega
  rw [numberJson, if_pos hsmall, asInt64, Int.toNat_of_nonneg h₀, Int.bmod_eq_of_le (by omega)
    (by omega)]

theorem numberJson_ne_str (i : Int) (s : String) : numberJson i ≠ .str s := by
  unfold numberJson
  split
  · exact fun h => nomatch h
  · split
    · exact fun h => nomatch h
    · exact fun h => nomatch h

theorem parseNodeField_nodeJson {node : NetNode} (h : Readable node) :
    parseNodeField (nodeJson node) = some (nodeId node) := by
  cases node with
  | ip s =>
    obtain ⟨address, haddress⟩ := Option.isSome_iff_exists.mp h
    rw [nodeJson, parseNodeField, haddress, nodeId, hostWord, haddress]
    rfl
  | dpid d =>
    have hraw := asInt64_numberJson h.1 h.2
    have hnot : ¬d < 0 := by
      have := h.1
      omega
    rw [nodeJson]
    unfold parseNodeField
    split
    · next s hs => exact absurd hs (numberJson_ne_str d s)
    · rw [hraw]
      exact if_neg hnot

theorem parsePortField_numberJson {port : Int} (h : PortInRange port) :
    parsePortField (numberJson port) = some (UInt32.ofInt port) := by
  obtain ⟨h₀, h₁⟩ := h
  have hraw := @asInt64_numberJson port h₀ (by omega)
  have hnot : ¬(port < 0 ∨ port > 2 ^ 32 - 1) := by omega
  unfold parsePortField
  split
  · next s hs => exact absurd hs (numberJson_ne_str port s)
  · rw [hraw]
    exact if_neg hnot

theorem tryParsePathNode_hop {node : NetNode} {port : Int} (hnode : Readable node)
    (hport : PortInRange port) :
    tryParsePathNode (.arr [nodeJson node, numberJson port]) =
      some (nodeId node, UInt32.ofInt port) := by
  rw [tryParsePathNode, parseNodeField_nodeJson hnode, parsePortField_numberJson hport]

/-- The path that the kernel makes of some hops. -/
def kernelPath (net : NetGraph) (hops : List NetNode) : Path :=
  List.zipWith (fun node port => (nodeId node, UInt32.ofInt port)) hops (hopPorts net hops)

theorem length_hopPorts_go (net : NetGraph) (hops : List NetNode) :
    (hopPorts.go net hops).length = hops.length := by
  induction hops with
  | nil => rfl
  | cons u hops ih =>
    cases hops with
    | nil => rfl
    | cons v rest =>
      rw [hopPorts.go, List.length_cons, ih]
      rfl

theorem length_hopPorts (net : NetGraph) (hops : List NetNode) :
    (hopPorts net hops).length = hops.length := by
  match hops with
  | [] => rfl
  | [_] => rfl
  | first :: second :: rest =>
    rw [hopPorts, List.length_cons, length_hopPorts_go]
    rfl

theorem map_fst_zipWith {α β γ δ : Type*} (f : α → γ) (g : β → δ) {l : List α} {l' : List β}
    (h : l'.length = l.length) :
    (List.zipWith (fun a b => (f a, g b)) l l').map Prod.fst = l.map f := by
  induction l generalizing l' with
  | nil => rfl
  | cons a l ih =>
    cases l' with
    | nil => exact nomatch h
    | cons b l' =>
      rw [List.zipWith_cons_cons, List.map_cons, ih (by simpa using h), List.map_cons]

theorem map_fst_kernelPath (net : NetGraph) (hops : List NetNode) :
    (kernelPath net hops).map Prod.fst = hops.map nodeId :=
  map_fst_zipWith nodeId UInt32.ofInt (length_hopPorts net hops)

theorem length_kernelPath (net : NetGraph) (hops : List NetNode) :
    (kernelPath net hops).length = hops.length := by
  have h := congrArg List.length (map_fst_kernelPath net hops)
  rwa [List.length_map, List.length_map] at h

section Ports

variable {net : NetGraph}
  (hports : ∀ u v port, net.edges.lookup (u, v) = some port → PortInRange port)

include hports

theorem portInRange_getD (u v : NetNode) : PortInRange ((net.edges.lookup (u, v)).getD 0) := by
  cases h : net.edges.lookup (u, v) with
  | none => exact ⟨Int.le_refl 0, by decide⟩
  | some port => exact hports u v port h

theorem portInRange_hopPorts_go (hops : List NetNode) :
    ∀ port ∈ hopPorts.go net hops, PortInRange port := by
  induction hops with
  | nil => exact fun port h => absurd h List.not_mem_nil
  | cons u hops ih =>
    cases hops with
    | nil =>
      intro port h
      rw [List.mem_singleton.mp h]
      exact ⟨Int.le_refl 0, by decide⟩
    | cons v rest =>
      intro port h
      rcases List.mem_cons.mp h with rfl | hrest
      · exact portInRange_getD hports u v
      · exact ih port hrest

theorem portInRange_hopPorts (hops : List NetNode) :
    ∀ port ∈ hopPorts net hops, PortInRange port := by
  match hops with
  | [] => exact fun port h => absurd h List.not_mem_nil
  | [u] => exact portInRange_hopPorts_go hports [u]
  | first :: second :: rest =>
    intro port h
    rcases List.mem_cons.mp h with rfl | hrest
    · exact portInRange_getD hports second first
    · exact portInRange_hopPorts_go hports (second :: rest) port hrest

end Ports

theorem mapM_zipWith {hops : List NetNode} {ports : List Int}
    (hhops : ∀ node ∈ hops, Readable node) (hports : ∀ port ∈ ports, PortInRange port) :
    (List.zipWith (fun node port => Json.arr [nodeJson node, numberJson port]) hops ports).mapM
        tryParsePathNode =
      some (List.zipWith (fun node port => (nodeId node, UInt32.ofInt port)) hops ports) := by
  induction hops generalizing ports with
  | nil => rfl
  | cons node hops ih =>
    cases ports with
    | nil => rfl
    | cons port ports =>
      have hhead := tryParsePathNode_hop (hhops node List.mem_cons_self)
        (hports port List.mem_cons_self)
      have htail := ih (fun n hn => hhops n (List.mem_cons_of_mem node hn))
        (fun p hp => hports p (List.mem_cons_of_mem port hp))
      rw [List.zipWith_cons_cons, List.mapM_cons, hhead, htail, List.zipWith_cons_cons]
      rfl

/-- A rendered path, read back. -/
theorem parsePath_renderPath {net : NetGraph}
    (hports : ∀ u v port, net.edges.lookup (u, v) = some port → PortInRange port)
    {hops : List NetNode} (hhops : ∀ node ∈ hops, Readable node) :
    parsePath (renderPath net hops) = some (kernelPath net hops) :=
  mapM_zipWith hhops (portInRange_hopPorts hports hops)

/-! ## The maps of the kernel -/

/-- The addresses at the ends of a path. -/
def pathKey (path : Path) : Option (UInt32 × UInt32) :=
  match (path.map Prod.fst).head?, (path.map Prod.fst).getLast? with
  | some first, some last => some (first.toUInt32, last.toUInt32)
  | _, _ => none

/-- What one path does to the entry of a pair. -/
theorem lookup_addPath (maps : PathMaps) (path : Path) (pair : UInt32 × UInt32) :
    ((maps.addPath path).switchCountMap.lookup pair =
        if pathKey path = some pair then some (path.length - 2)
        else maps.switchCountMap.lookup pair) ∧
      (maps.addPath path).allPathMap.lookup pair =
        if pathKey path = some pair then some path else maps.allPathMap.lookup pair := by
  unfold PathMaps.addPath pathKey
  rw [List.head?_map, List.getLast?_map]
  cases hfirst : path.head? with
  | none => simp
  | some first =>
    cases hlast : path.getLast? with
    | none => simp
    | some last =>
      simp only [Option.map_some, Option.some.injEq, AssocMap.lookup_insert_eq, eq_comm]
      exact ⟨trivial, trivial⟩

/-- Paths between other pairs leave the entry of a pair. -/
theorem lookup_foldl_addPath_of_ne {paths : List Path} {pair : UInt32 × UInt32}
    (h : ∀ path ∈ paths, pathKey path ≠ some pair) (maps : PathMaps) :
    (paths.foldl PathMaps.addPath maps).switchCountMap.lookup pair =
        maps.switchCountMap.lookup pair ∧
      (paths.foldl PathMaps.addPath maps).allPathMap.lookup pair =
        maps.allPathMap.lookup pair := by
  induction paths generalizing maps with
  | nil => exact ⟨rfl, rfl⟩
  | cons path paths ih =>
    obtain ⟨hcount, hpath⟩ := ih (fun p hp => h p (List.mem_cons_of_mem path hp))
      (maps.addPath path)
    obtain ⟨hcount', hpath'⟩ := lookup_addPath maps path pair
    have hne := h path List.mem_cons_self
    rw [if_neg hne] at hcount' hpath'
    exact ⟨hcount.trans hcount', hpath.trans hpath'⟩

/-- The entry of a pair that has one path. -/
theorem lookup_foldl_addPath_of_mem {paths : List Path} {path : Path} {pair : UInt32 × UInt32}
    (hmem : path ∈ paths) (hkey : pathKey path = some pair)
    (hunique : ∀ p ∈ paths, pathKey p = some pair → p = path) (maps : PathMaps) :
    (paths.foldl PathMaps.addPath maps).switchCountMap.lookup pair = some (path.length - 2) := by
  induction paths generalizing maps with
  | nil => exact absurd hmem List.not_mem_nil
  | cons first paths ih =>
    rw [List.foldl_cons]
    by_cases hlater : path ∈ paths
    · exact ih hlater (fun p hp => hunique p (List.mem_cons_of_mem first hp)) _
    · have hfirst : path = first := (List.mem_cons.mp hmem).resolve_right hlater
      subst hfirst
      have hothers : ∀ p ∈ paths, pathKey p ≠ some pair := by
        intro p hp hpkey
        rw [hunique p (List.mem_cons_of_mem path hp) hpkey] at hp
        exact hlater hp
      rw [(lookup_foldl_addPath_of_ne hothers _).1, (lookup_addPath maps path pair).1, if_pos hkey]

/-! ## The reply -/

section Reply

variable (shortestPath : ShortestPath) (snap : TopologySnapshot) (down : List (Int × Int))
  {installed : InstalledRoutes} (hinstalled : installed.entries ≠ [])

include hinstalled

/-- The paths in the reply are the walks that arrive. -/
theorem mem_destinationPaths (hops : List NetNode) :
    hops ∈ destinationPaths shortestPath snap.net down installed ↔
      ∃ src ∈ snap.net.hosts, ∃ dst ∈ snap.net.hosts, src ≠ dst ∧
        ∃ ns, hops = .ip src :: ns ∧ Reaches snap.net installed down src dst ns := by
  have hempty : ¬installed.entries.isEmpty = true := by
    rwa [List.isEmpty_iff]
  unfold destinationPaths pairHops
  simp only [hempty, List.mem_flatMap, List.mem_filterMap]
  constructor
  · rintro ⟨src, hsrc, dst, hdst, h⟩
    split at h
    · exact nomatch h
    · next hne =>
      exact ⟨src, hsrc, dst, hdst, hne,
        (installedPath_eq_some_iff snap installed down hsrc dst hops).mp h⟩
  · rintro ⟨src, hsrc, dst, hdst, hne, h⟩
    refine ⟨src, hsrc, dst, hdst, ?_⟩
    rw [if_neg hne]
    exact (installedPath_eq_some_iff snap installed down hsrc dst hops).mpr h

end Reply

/-- The first and the last node of a walk, and its length. -/
theorem reaches_ends {snap : TopologySnapshot} {installed : InstalledRoutes}
    {down : List (Int × Int)} {src dst : String} {ns : List NetNode}
    (h : Reaches snap.net installed down src dst ns) :
    pathKey (kernelPath snap.net (.ip src :: ns)) = some (hostWord src, hostWord dst) ∧
      (kernelPath snap.net (.ip src :: ns)).length - 2 = switchesOn ns := by
  obtain ⟨dpid, -, hroute, -⟩ := h
  obtain ⟨rest, hns⟩ := hroute.exists_cons
  have hlast : ((NetNode.ip src :: ns).map nodeId).getLast? = some (nodeId (.ip dst)) := by
    rw [List.getLast?_map, hns, List.getLast?_cons_cons, ← hns, hroute.getLast?]
    rfl
  constructor
  · unfold pathKey
    rw [map_fst_kernelPath, hlast]
    simp [nodeId]
  · have hlength := length_route snap installed down hroute
    rw [length_kernelPath, List.length_cons]
    omega

/-- The nodes of a walk can be read. -/
theorem reaches_readable {snap : TopologySnapshot} {installed : InstalledRoutes}
    {down : List (Int × Int)} (hdpids : ∀ d, .dpid d ∈ snap.net.nodes.keys → 0 ≤ d)
    {src dst : String} (hsrc : src ∈ snap.net.hosts) (hdst : dst ∈ snap.net.hosts)
    {ns : List NetNode} (h : Reaches snap.net installed down src dst ns) :
    ∀ node ∈ NetNode.ip src :: ns, Readable node := by
  obtain ⟨dpid, hfirst, hroute, -⟩ := h
  obtain ⟨port, hlookup⟩ := mem_neighbors.mp hfirst
  have hnode := (snap.nodes_of_edge _ _ port hlookup).2
  have hsubset := route_subset_nodes snap installed down hnode hroute
  have hhosts := route_hosts snap installed down hroute
  intro node hmem
  rcases List.mem_cons.mp hmem with rfl | hns
  · exact snap.dotted src hsrc
  · rcases hhosts node hns with hdpid | rfl
    · cases node with
      | ip s => exact nomatch hdpid
      | dpid d => exact ⟨hdpids d (hsubset hns), snap.dpid_lt d (hsubset hns)⟩
    · exact snap.dotted dst hdst

/-- The maps after the kernel has taken the paths of the reply. -/
theorem countsMatch_setAllPaths {shortestPath : ShortestPath} {snap : TopologySnapshot}
    {down : List (Int × Int)} {installed : InstalledRoutes} (hinstalled : installed.entries ≠ [])
    (hsome : ∃ src ∈ snap.net.hosts, ∃ dst ∈ snap.net.hosts, src ≠ dst ∧
      ∃ ns, Reaches snap.net installed down src dst ns) (maps : PathMaps) :
    CountsMatch snap.net installed down (maps.setAllPaths
      ((destinationPaths shortestPath snap.net down installed).map (kernelPath snap.net))) := by
  have hmem := mem_destinationPaths shortestPath snap down hinstalled
  -- a path with the addresses of two hosts is the one between them
  have hpair : ∀ path ∈ (destinationPaths shortestPath snap.net down installed).map
      (kernelPath snap.net), ∃ src ∈ snap.net.hosts, ∃ dst ∈ snap.net.hosts, src ≠ dst ∧
        ∃ ns, path = kernelPath snap.net (.ip src :: ns) ∧
          Reaches snap.net installed down src dst ns ∧
          pathKey path = some (hostWord src, hostWord dst) := by
    intro path hpath
    obtain ⟨hops, hhops, rfl⟩ := List.mem_map.mp hpath
    obtain ⟨src, hsrc, dst, hdst, hne, ns, rfl, hreach⟩ := (hmem hops).mp hhops
    exact ⟨src, hsrc, dst, hdst, hne, ns, rfl, hreach, (reaches_ends hreach).1⟩
  have hnonempty : ¬((destinationPaths shortestPath snap.net down installed).map
      (kernelPath snap.net)).isEmpty = true := by
    obtain ⟨src, hsrc, dst, hdst, hne, ns, hreach⟩ := hsome
    have hin := (hmem _).mpr ⟨src, hsrc, dst, hdst, hne, ns, rfl, hreach⟩
    rw [List.isEmpty_iff, List.map_eq_nil_iff]
    exact List.ne_nil_of_mem hin
  have hset : maps.setAllPaths ((destinationPaths shortestPath snap.net down installed).map
      (kernelPath snap.net)) = ((destinationPaths shortestPath snap.net down installed).map
        (kernelPath snap.net)).foldl PathMaps.addPath {} := by
    rw [PathMaps.setAllPaths, if_neg hnonempty]
  rw [hset]
  have hothers : ∀ pair, (∀ src ∈ snap.net.hosts, ∀ dst ∈ snap.net.hosts, src ≠ dst →
      ∀ ns, Reaches snap.net installed down src dst ns → pair ≠ (hostWord src, hostWord dst)) →
      ∀ path ∈ (destinationPaths shortestPath snap.net down installed).map (kernelPath snap.net),
        pathKey path ≠ some pair := by
    intro pair hpair' path hpath hkey
    obtain ⟨src, hsrc, dst, hdst, hne, ns, -, hreach, hkey'⟩ := hpair path hpath
    rw [hkey'] at hkey
    exact hpair' src hsrc dst hdst hne ns hreach (Option.some.inj hkey).symm
  constructor
  · intro src hsrc dst hdst hne n
    unfold PathMaps.getSwitchCount
    by_cases hwalk : ∃ ns, Reaches snap.net installed down src dst ns
    · obtain ⟨ns, hreach⟩ := hwalk
      have hin : kernelPath snap.net (.ip src :: ns) ∈
          (destinationPaths shortestPath snap.net down installed).map (kernelPath snap.net) :=
        List.mem_map_of_mem ((hmem _).mpr ⟨src, hsrc, dst, hdst, hne, ns, rfl, hreach⟩)
      have hsame : ∀ ns', Reaches snap.net installed down src dst ns' → ns' = ns := by
        intro ns' hreach'
        have hpath := (installedPath_eq_some_iff snap installed down hsrc dst _).mpr
          ⟨ns, rfl, hreach⟩
        have hpath' := (installedPath_eq_some_iff snap installed down hsrc dst _).mpr
          ⟨ns', rfl, hreach'⟩
        rw [hpath] at hpath'
        exact (List.cons.inj (Option.some.inj hpath')).2.symm
      rw [lookup_foldl_addPath_of_mem hin (reaches_ends hreach).1, (reaches_ends hreach).2]
      · constructor
        · intro h
          exact ⟨ns, hreach, (Option.some.inj h).symm⟩
        · rintro ⟨ns', hreach', rfl⟩
          rw [hsame ns' hreach']
      · intro path hpath hkey
        obtain ⟨src', hsrc', dst', hdst', -, ns', rfl, hreach', hkey'⟩ := hpair path hpath
        rw [hkey'] at hkey
        obtain ⟨hsrceq, hdsteq⟩ := Prod.mk.inj (Option.some.inj hkey)
        cases snap.distinct src' hsrc' src hsrc hsrceq
        cases snap.distinct dst' hdst' dst hdst hdsteq
        rw [hsame ns' hreach']
    · have hnone : ∀ src' ∈ snap.net.hosts, ∀ dst' ∈ snap.net.hosts, src' ≠ dst' →
          ∀ ns, Reaches snap.net installed down src' dst' ns →
          (hostWord src, hostWord dst) ≠ (hostWord src', hostWord dst') := by
        rintro src' hsrc' dst' hdst' - ns hreach heq
        obtain ⟨hsrceq, hdsteq⟩ := Prod.mk.inj heq
        cases snap.distinct src hsrc src' hsrc' hsrceq
        cases snap.distinct dst hdst dst' hdst' hdsteq
        exact hwalk ⟨ns, hreach⟩
      rw [(lookup_foldl_addPath_of_ne (hothers _ hnone) {}).1]
      constructor
      · intro h
        exact nomatch h
      · rintro ⟨ns, hreach, -⟩
        exact absurd ⟨ns, hreach⟩ hwalk
  · intro pair hpair'
    exact lookup_foldl_addPath_of_ne (hothers pair hpair') {}

/-- With datapath ids that are not negative and ports of 32 bits, and rules that lead at least
    one host to another: after a push, and after a pull, the kernel has a switch count for a pair
    of hosts exactly when the rules lead from one to the other, and it is the number of switches
    on the way; it has nothing for any other pair, whatever it had before. -/
theorem counts_match_walks (shortestPath : ShortestPath) (snap : TopologySnapshot)
    (down : List (Int × Int)) (installed : InstalledRoutes) (hinstalled : installed.entries ≠ [])
    (hdpids : ∀ d, .dpid d ∈ snap.net.nodes.keys → 0 ≤ d)
    (hports : ∀ u v port, snap.net.edges.lookup (u, v) = some port → PortInRange port)
    (hsome : ∃ src ∈ snap.net.hosts, ∃ dst ∈ snap.net.hosts, src ≠ dst ∧
      ∃ ns, Reaches snap.net installed down src dst ns) (maps : PathMaps) :
    CountsMatch snap.net installed down (maps.informAllDestinationPaths
        (renderDestinationPaths shortestPath snap.net down installed)) ∧
      CountsMatch snap.net installed down (maps.fetchAllDestinationPaths
        (renderDestinationPaths shortestPath snap.net down installed)) := by
  have hset := @countsMatch_setAllPaths shortestPath snap down installed hinstalled hsome maps
  have hread : ∀ hops ∈ destinationPaths shortestPath snap.net down installed,
      parsePath (renderPath snap.net hops) = some (kernelPath snap.net hops) := by
    intro hops hhops
    obtain ⟨src, hsrc, dst, hdst, -, ns, rfl, hreach⟩ :=
      (mem_destinationPaths shortestPath snap down hinstalled hops).mp hhops
    exact parsePath_renderPath hports (reaches_readable hdpids hsrc hdst hreach)
  have hkept : ((destinationPaths shortestPath snap.net down installed).map
      (kernelPath snap.net)).filter (fun p => !p.isEmpty) =
      (destinationPaths shortestPath snap.net down installed).map (kernelPath snap.net) := by
    rw [List.filter_eq_self]
    intro path hpath
    obtain ⟨hops, hhops, rfl⟩ := List.mem_map.mp hpath
    obtain ⟨src, -, dst, -, -, ns, rfl, -⟩ :=
      (mem_destinationPaths shortestPath snap down hinstalled hops).mp hhops
    -- a rendered walk starts at its source host, so it has a node
    have hlength := length_kernelPath snap.net (.ip src :: ns)
    cases hp : kernelPath snap.net (.ip src :: ns) with
    | nil =>
      rw [hp] at hlength
      cases hlength
    | cons _ _ => rfl
  have hpush : ((destinationPaths shortestPath snap.net down installed).map
      (renderPath snap.net)).mapM parsePath =
      some ((destinationPaths shortestPath snap.net down installed).map (kernelPath snap.net)) :=
    List.mapM_map_eq_some hread
  have hpull : ((destinationPaths shortestPath snap.net down installed).map
      (renderPath snap.net)).filterMap parsePath =
      (destinationPaths shortestPath snap.net down installed).map (kernelPath snap.net) :=
    List.filterMap_map_eq_map hread
  constructor
  · -- the push reads all paths or none
    have hmaps : maps.informAllDestinationPaths
        (renderDestinationPaths shortestPath snap.net down installed) =
        maps.setAllPaths (((destinationPaths shortestPath snap.net down installed).map
          (kernelPath snap.net)).filter fun p => !p.isEmpty) := by
      have hfield : (renderDestinationPaths shortestPath snap.net down installed).atField
          "all_destination_paths" = .ok (.arr ((destinationPaths shortestPath snap.net down
            installed).map (renderPath snap.net))) := rfl
      unfold PathMaps.informAllDestinationPaths
      rw [hfield]
      dsimp only [Json.iterate]
      rw [hpush]
    rw [hmaps, hkept]
    exact hset
  · -- the pull skips the paths it cannot read: there is none
    show CountsMatch snap.net installed down (maps.setAllPaths
      ((((destinationPaths shortestPath snap.net down installed).map
        (renderPath snap.net)).filterMap parsePath).filter fun p => !p.isEmpty))
    rw [hpull, hkept]
    exact hset

/-! ## Two hosts on a switch -/

/-- Two hosts on a switch, behind the ports `p` and `q`. -/
def twoHostNet (d p q : Int) : NetGraph :=
  ((({} : NetGraph).addSwitch d).addHost "10.0.0.1" "02:00:00:00:00:01" d p).addHost "10.0.0.2"
    "02:00:00:00:00:02" d q

section TwoHosts

variable {d p q : Int}

/-- An ordinary datapath id, and one that the kernel refuses. -/
def OneOrMinusOne (d : Int) : Prop := d = 1 ∨ d = -1

theorem twoHostNet_edges (hd : OneOrMinusOne d) : (twoHostNet d p q).edges.toPairs =
    [((.dpid d, .ip "10.0.0.1"), p), ((.ip "10.0.0.1", .dpid d), 0),
      ((.dpid d, .ip "10.0.0.2"), q), ((.ip "10.0.0.2", .dpid d), 0)] := by
  rcases hd with rfl | rfl
  · rfl
  · rfl

theorem twoHostNet_hosts (hd : OneOrMinusOne d) :
    (twoHostNet d p q).hosts = ["10.0.0.1", "10.0.0.2"] := by
  rcases hd with rfl | rfl
  · rfl
  · rfl

theorem twoHostNet_nodes (hd : OneOrMinusOne d) :
    (twoHostNet d p q).nodes.keys = [.dpid d, .ip "10.0.0.1", .ip "10.0.0.2"] := by
  rcases hd with rfl | rfl
  · rfl
  · rfl

theorem twoHostNet_edge (hd : OneOrMinusOne d) {u v : NetNode} {port : Int} :
    (twoHostNet d p q).edges.lookup (u, v) = some port ↔
      (u = .dpid d ∧ v = .ip "10.0.0.1" ∧ port = p) ∨
      (u = .ip "10.0.0.1" ∧ v = .dpid d ∧ port = 0) ∨
      (u = .dpid d ∧ v = .ip "10.0.0.2" ∧ port = q) ∨
      (u = .ip "10.0.0.2" ∧ v = .dpid d ∧ port = 0) := by
  rw [← AssocMap.mem_toPairs, twoHostNet_edges hd]
  simp [and_assoc]

/-- The snapshot, with a port of its own for each host. -/
def twoHostSnapshot (hd : OneOrMinusOne d) (hpq : p ≠ q) : TopologySnapshot where
  net := twoHostNet d p q
  nodes_of_edge := by
    intro u v port h
    rw [twoHostNet_nodes hd]
    rcases (twoHostNet_edge hd).mp h with
      ⟨rfl, rfl, -⟩ | ⟨rfl, rfl, -⟩ | ⟨rfl, rfl, -⟩ | ⟨rfl, rfl, -⟩ <;> simp
  singleHomed := by
    intro h hh
    rw [twoHostNet_hosts hd] at hh
    refine ⟨d, ?_⟩
    unfold NetGraph.neighbors
    rw [twoHostNet_edges hd]
    simp only [List.mem_cons, List.not_mem_nil, or_false] at hh
    rcases hh with rfl | rfl
    · rfl
    · rfl
  dotted := by
    rw [twoHostNet_hosts hd]
    decide +kernel
  distinct := by
    rw [twoHostNet_hosts hd]
    decide +kernel
  dpid_lt := by
    intro d' hd'
    rw [twoHostNet_nodes hd] at hd'
    simp only [List.mem_cons, NetNode.dpid.injEq, reduceCtorEq, List.not_mem_nil, or_false] at hd'
    rcases hd with rfl | rfl <;> omega
  ports := by
    intro d' v w port hv hw
    rw [twoHostNet_edge hd] at hv hw
    rcases hv with ⟨-, rfl, h⟩ | ⟨h, -⟩ | ⟨-, rfl, h⟩ | ⟨h, -⟩
    · rcases hw with ⟨-, rfl, -⟩ | ⟨h', -⟩ | ⟨-, rfl, h'⟩ | ⟨h', -⟩
      · rfl
      · cases h'
      · exact absurd (h.symm.trans h') hpq
      · cases h'
    · cases h
    · rcases hw with ⟨-, rfl, h'⟩ | ⟨h', -⟩ | ⟨-, rfl, -⟩ | ⟨h', -⟩
      · exact absurd (h'.symm.trans h) hpq
      · cases h'
      · rfl
      · cases h'
    · cases h

/-- The rule for the second host. -/
def secondHostRoute (d q : Int) : InstalledRoutes :=
  (∅ : InstalledRoutes).set (d, "10.0.0.2") q

/-- The rule leads from the first host to the second. -/
theorem twoHost_reaches (hd : OneOrMinusOne d) {installed : InstalledRoutes}
    (h : installed.lookup (d, "10.0.0.2") = some q) :
    Reaches (twoHostNet d p q) installed [] "10.0.0.1" "10.0.0.2"
      [.dpid d, .ip "10.0.0.2"] := by
  have hhop : Hop (twoHostNet d p q) installed [] "10.0.0.2" (.dpid d) (.ip "10.0.0.2") :=
    ⟨d, q, rfl, h, List.not_mem_nil, (twoHostNet_edge hd).mpr (.inr (.inr (.inl ⟨rfl, rfl, rfl⟩)))⟩
  refine ⟨d, mem_neighbors.mpr ⟨0, ?_⟩, .step hhop .arrive, ?_⟩
  · exact (twoHostNet_edge hd).mpr (.inr (.inl ⟨rfl, rfl, rfl⟩))
  · simp

/-- The rule leads to the second host, but what was pushed leaves no count for the pair. -/
theorem not_countsMatch_of_no_count (hd : OneOrMinusOne d) {installed : InstalledRoutes}
    (h : installed.lookup (d, "10.0.0.2") = some q) {maps : PathMaps}
    (hnone : maps.getSwitchCount (hostWord "10.0.0.1", hostWord "10.0.0.2") = none) :
    ¬CountsMatch (twoHostNet d p q) installed [] maps := by
  intro hmatch
  have hcount := (hmatch.counts "10.0.0.1" (by simp [twoHostNet_hosts hd]) "10.0.0.2"
    (by simp [twoHostNet_hosts hd]) (by decide) 1).mpr ⟨_, twoHost_reaches hd h, rfl⟩
  rw [hnone] at hcount
  cases hcount

end TwoHosts

/-- The rules for both hosts. -/
def twoHostRoutes : InstalledRoutes := (secondHostRoute 1 2).set (1, "10.0.0.1") 1

/-- The counts of two hosts on a switch, in a kernel that had another count for the pair. -/
theorem twoHost_counts :
    CountsMatch (twoHostNet 1 1 2) twoHostRoutes []
        (({ switchCountMap := AList.singleton (hostWord "10.0.0.1", hostWord "10.0.0.2") 7 } :
          PathMaps).informAllDestinationPaths
            (renderDestinationPaths (fun _ _ _ => none) (twoHostNet 1 1 2) [] twoHostRoutes)) ∧
      CountsMatch (twoHostNet 1 1 2) twoHostRoutes []
        (({ switchCountMap := AList.singleton (hostWord "10.0.0.1", hostWord "10.0.0.2") 7 } :
          PathMaps).fetchAllDestinationPaths
            (renderDestinationPaths (fun _ _ _ => none) (twoHostNet 1 1 2) [] twoHostRoutes)) := by
  have hone : OneOrMinusOne 1 := .inl rfl
  apply counts_match_walks (fun _ _ _ => none) (twoHostSnapshot hone (by decide)) [] twoHostRoutes
  · exact List.cons_ne_nil _ _
  · intro d hd
    simp only [twoHostSnapshot, twoHostNet_nodes hone, List.mem_cons, NetNode.dpid.injEq,
      reduceCtorEq, List.not_mem_nil, or_false] at hd
    omega
  · intro u v port h
    rcases (twoHostNet_edge hone).mp h with ⟨-, -, rfl⟩ | ⟨-, -, rfl⟩ | ⟨-, -, rfl⟩ | ⟨-, -, rfl⟩ <;>
      (unfold PortInRange; decide)
  · exact ⟨"10.0.0.1", by simp [twoHostSnapshot, twoHostNet_hosts hone], "10.0.0.2",
      by simp [twoHostSnapshot, twoHostNet_hosts hone], by decide, _, twoHost_reaches hone rfl⟩

/-- The rule leads from the first host to the second, and the kernel refuses the path: the port of
    the first host, on which no rule needs to send, has 33 bits, or the switch has a negative id. -/
theorem outOfRange_not_counted :
    (Reaches (twoHostSnapshot (d := 1) (p := 2 ^ 32) (q := 2) (.inl rfl) (by decide)).net
        (secondHostRoute 1 2) [] "10.0.0.1" "10.0.0.2" [.dpid 1, .ip "10.0.0.2"] ∧
      ¬CountsMatch (twoHostNet 1 (2 ^ 32) 2) (secondHostRoute 1 2) []
        (({} : PathMaps).informAllDestinationPaths (renderDestinationPaths (fun _ _ _ => none)
          (twoHostNet 1 (2 ^ 32) 2) [] (secondHostRoute 1 2)))) ∧
    Reaches (twoHostSnapshot (d := -1) (p := 1) (q := 2) (.inr rfl) (by decide)).net
        (secondHostRoute (-1) 2) [] "10.0.0.1" "10.0.0.2" [.dpid (-1), .ip "10.0.0.2"] ∧
      ¬CountsMatch (twoHostNet (-1) 1 2) (secondHostRoute (-1) 2) []
        (({} : PathMaps).informAllDestinationPaths (renderDestinationPaths (fun _ _ _ => none)
          (twoHostNet (-1) 1 2) [] (secondHostRoute (-1) 2))) := by
  refine ⟨⟨twoHost_reaches (.inl rfl) rfl, not_countsMatch_of_no_count (.inl rfl) rfl ?_⟩,
    twoHost_reaches (.inr rfl) rfl, not_countsMatch_of_no_count (.inr rfl) rfl ?_⟩
  · decide +kernel
  · decide +kernel

end Ndtwin.Spec

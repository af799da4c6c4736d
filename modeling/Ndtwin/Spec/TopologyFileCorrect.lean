import Ndtwin.ForStd.EState
import Ndtwin.Kernel.TopologyFile

/-!
# The links of a topology file

The file lists links by their ports, but the graph holds one edge from a vertex to another. Of
parallel links the first one stays, and the others are dropped without a word.

## Key results

- `hasEnd_iff`: which ends are found
- `mem_edges_loadEntries` and `exists_edge_loadEntries`: the edges of a loaded graph
- `keeps_links_iff`: when every link of a file is in the graph
-/

namespace Ndtwin.Kernel

open TopologyFile

/-! ## The indexes of the nodes -/

/-- The index of the switches leads to switches, and has all of them. -/
structure TopologyFile.NodeLoop.Inv (s : NodeLoop) : Prop where
  sound : ∀ dpid v, s.dpidToVertex.lookup dpid = some v →
    ∃ vp, s.vertices[v]? = some vp ∧ vp.vertexType = .switch ∧ vp.dpid = dpid
  complete : ∀ vp ∈ s.vertices, vp.vertexType = .switch →
    (s.dpidToVertex.lookup vp.dpid).isSome = true

namespace TopologyFile

theorem NodeLoop.Inv.add {s : NodeLoop} (h : s.Inv) (node : VertexProperties × SwitchKind) :
    (s.add node).Inv := by
  obtain ⟨vp, switchKind⟩ := node
  have hold : ∀ {v : Nat} {wp : VertexProperties}, s.vertices[v]? = some wp →
      (s.vertices ++ [vp])[v]? = some wp := by
    intro v wp hv
    obtain ⟨hlt, -⟩ := List.getElem?_eq_some_iff.mp hv
    rw [List.getElem?_append_left hlt, hv]
  have hnew : (s.vertices ++ [vp])[s.vertices.length]? = some vp := by simp
  rw [NodeLoop.add]
  dsimp only
  split
  · next hswitch =>
    -- A switch is indexed under the vertex that it gets, the last one; the vertices before it keep
    -- their places.
    constructor
    · intro dpid v hlookup
      dsimp only at hlookup ⊢
      rw [AssocMap.lookup_insert_eq] at hlookup
      split at hlookup
      · next heq =>
        obtain rfl := Option.some.inj hlookup
        exact ⟨vp, hnew, hswitch, heq.symm⟩
      · obtain ⟨wp, hv, hwp⟩ := h.sound dpid v hlookup
        exact ⟨wp, hold hv, hwp⟩
    · intro wp hwp hwswitch
      dsimp only at hwp ⊢
      rw [AssocMap.lookup_insert_eq]
      split
      · rfl
      · next hne =>
        cases List.mem_append.mp hwp with
        | inl hmem => exact h.complete wp hmem hwswitch
        | inr hmem => exact absurd (congrArg _ (List.mem_singleton.mp hmem)) hne
  · next hhost =>
    -- A host takes a vertex and no index.
    constructor
    · intro dpid v hlookup
      obtain ⟨wp, hv, hwp⟩ := h.sound dpid v hlookup
      exact ⟨wp, hold hv, hwp⟩
    · intro wp hwp hwswitch
      cases List.mem_append.mp hwp with
      | inl hmem => exact h.complete wp hmem hwswitch
      | inr hmem => exact absurd (List.mem_singleton.mp hmem ▸ hwswitch) hhost

theorem NodeLoop.Inv.foldl (nodes : List (VertexProperties × SwitchKind)) {s : NodeLoop}
    (h : s.Inv) : (nodes.foldl NodeLoop.add s).Inv := by
  induction nodes generalizing s with
  | nil => exact h
  | cons node nodes ih => exact ih (h.add node)

/-! ## Ends -/

/-- A vertex for an end of a link: the switch with the dpid, or a host with the first address. -/
def HasEnd (vertices : List VertexProperties) (dpid : UInt64) (ips : List UInt32) : Prop :=
  if dpid = 0 then ∃ ip ∈ ips.head?, ∃ vp ∈ vertices, ip ∈ vp.ip
  else ∃ vp ∈ vertices, vp.vertexType = .switch ∧ vp.dpid = dpid

section Ends

variable {s : NodeLoop} {g : Graph} (hs : s.Inv) (hg : g.vertices = s.vertices)
include hs hg

theorem hasEnd_iff (dpid : UInt64) (ips : List UInt32) :
    HasEnd s.vertices dpid ips ↔ ∃ v, endVertex s.dpidToVertex g dpid ips = some v := by
  unfold HasEnd endVertex
  by_cases hdpid : dpid = 0
  · rw [if_pos hdpid, if_neg (not_not.mpr hdpid)]
    cases ips with
    | nil => simp
    | cons ip ips =>
      rw [← Option.isSome_iff_exists]
      show _ ↔ (g.findVertexByIp ip).isSome = true
      rw [Graph.findVertexByIp, Graph.findVertex, hg, List.findIdx?_isSome, List.any_eq_true]
      simp
  · rw [if_neg hdpid, if_pos hdpid, ← Option.isSome_iff_exists]
    constructor
    · rintro ⟨vp, hvp, hswitch, rfl⟩
      exact hs.complete vp hvp hswitch
    · intro hsome
      obtain ⟨v, hv⟩ := Option.isSome_iff_exists.mp hsome
      obtain ⟨vp, hvp, hswitch⟩ := hs.sound dpid v hv
      exact ⟨vp, List.mem_of_getElem? hvp, hswitch⟩

theorem endVertex_lt {dpid : UInt64} {ips : List UInt32} {v : Nat}
    (h : endVertex s.dpidToVertex g dpid ips = some v) : v < g.vertices.length := by
  unfold endVertex at h
  split at h
  · obtain ⟨vp, hvp, -⟩ := hs.sound dpid v h
    rw [hg]
    exact (List.getElem?_eq_some_iff.mp hvp).1
  · cases ips with
    | nil => cases h
    | cons ip ips =>
      exact (List.findIdx?_eq_some_iff_findIdx_eq.mp h).1

theorem exists_ends_iff (e : EdgeEntry) : (∃ d, ends s.dpidToVertex g e = some d) ↔
    HasEnd s.vertices e.props.srcDpid e.props.srcIp ∧
      HasEnd s.vertices e.props.dstDpid e.props.dstIp := by
  rw [hasEnd_iff hs hg, hasEnd_iff hs hg, ends]
  cases endVertex s.dpidToVertex g e.props.srcDpid e.props.srcIp with
  | none => simp
  | some source =>
    cases endVertex s.dpidToVertex g e.props.dstDpid e.props.dstIp with
    | none => simp
    | some target => simp

theorem ends_lt {e : EdgeEntry} {d : EdgeDesc} (h : ends s.dpidToVertex g e = some d) :
    d.source < g.vertices.length ∧ d.target < g.vertices.length := by
  unfold ends at h
  split at h
  · next source target hsource htarget =>
    obtain rfl := Option.some.inj h
    exact ⟨endVertex_lt hs hg hsource, endVertex_lt hs hg htarget⟩
  · cases h

end Ends

/-! ## The loop over the edges -/

theorem vertices_addEdge (g : Graph) (d : EdgeDesc) (props : EdgeProperties) :
    (g.addEdge d props).vertices = g.vertices := by
  unfold Graph.addEdge
  split <;> rfl

theorem edges_addEdge {g : Graph} {d : EdgeDesc}
    (h : d.source < g.vertices.length ∧ d.target < g.vertices.length) (props : EdgeProperties) :
    (g.addEdge d props).edges =
      SortedInsert.insertNew EdgeDesc.before Edge.desc ⟨d, props⟩ g.edges := by
  rw [Graph.addEdge, dif_pos h]

theorem mem_edges_addEdge {g : Graph} {d : EdgeDesc}
    (h : d.source < g.vertices.length ∧ d.target < g.vertices.length) (props : EdgeProperties)
    (x : Edge) : x ∈ (g.addEdge d props).edges ↔
      x ∈ g.edges ∨ (x = ⟨d, props⟩ ∧ ∀ a ∈ g.edges, a.desc ≠ d) := by
  rw [edges_addEdge h]
  exact SortedInsert.mem_insertNew_iff g.sorted

/-- The ends of an entry do not depend on the edges. -/
theorem ends_congr {g g' : Graph} (h : g.vertices = g'.vertices)
    (index : AssocMap UInt64 Nat) (e : EdgeEntry) : ends index g e = ends index g' e := by
  unfold ends endVertex Graph.findVertexByIp Graph.findVertex
  rw [h]

section Entries

variable {index : AssocMap UInt64 Nat} {t : Topology}

theorem vertices_addEntry (t : Topology) (e : EdgeEntry) :
    (addEntry index t e).graph.vertices = t.graph.vertices := by
  unfold addEntry
  split
  · exact vertices_addEdge _ _ _
  · rfl

variable (hlt : ∀ {e : EdgeEntry} {d : EdgeDesc}, ends index t.graph e = some d →
  d.source < t.graph.vertices.length ∧ d.target < t.graph.vertices.length)
include hlt

theorem mem_edges_addEntry {e : EdgeEntry} {d : EdgeDesc} (h : ends index t.graph e = some d)
    (x : Edge) : x ∈ (addEntry index t e).graph.edges ↔
      x ∈ t.graph.edges ∨ (x = ⟨d, e.props⟩ ∧ ∀ a ∈ t.graph.edges, a.desc ≠ d) := by
  rw [addEntry, h]
  exact mem_edges_addEdge (hlt h) e.props x

theorem mem_edges_addEntry_cases {e : EdgeEntry} {x : Edge}
    (hx : x ∈ (addEntry index t e).graph.edges) :
    x ∈ t.graph.edges ∨ (ends index t.graph e = some x.desc ∧ e.props = x.props) := by
  cases h : ends index t.graph e with
  | none =>
    rw [addEntry, h] at hx
    exact .inl hx
  | some d =>
    refine ((mem_edges_addEntry hlt h x).mp hx).imp_right fun hnew => ?_
    rw [hnew.1]
    exact ⟨rfl, rfl⟩

theorem subset_addEntry (e : EdgeEntry) : t.graph.edges ⊆ (addEntry index t e).graph.edges := by
  intro x hx
  cases h : ends index t.graph e with
  | none =>
    rw [addEntry, h]
    exact hx
  | some d => exact (mem_edges_addEntry hlt h x).mpr (.inl hx)

/-- After an entry with both ends there is an edge between them. -/
theorem exists_edge_addEntry {e : EdgeEntry} {d : EdgeDesc} (h : ends index t.graph e = some d) :
    ∃ x ∈ (addEntry index t e).graph.edges, x.desc = d := by
  by_cases hedge : ∃ a ∈ t.graph.edges, a.desc = d
  · obtain ⟨a, ha, hdesc⟩ := hedge
    exact ⟨a, subset_addEntry hlt e ha, hdesc⟩
  · exact ⟨⟨d, e.props⟩, (mem_edges_addEntry hlt h _).mpr
      (.inr ⟨rfl, fun a ha hdesc => hedge ⟨a, ha, hdesc⟩⟩), rfl⟩

omit hlt in
/-- The bound on the ends holds after an entry. -/
theorem ends_addEntry_lt (e₀ : EdgeEntry)
    (hlt : ∀ {e : EdgeEntry} {d : EdgeDesc}, ends index t.graph e = some d →
      d.source < t.graph.vertices.length ∧ d.target < t.graph.vertices.length)
    {e : EdgeEntry} {d : EdgeDesc} (h : ends index (addEntry index t e₀).graph e = some d) :
    d.source < (addEntry index t e₀).graph.vertices.length ∧
      d.target < (addEntry index t e₀).graph.vertices.length := by
  rw [ends_congr (vertices_addEntry t e₀)] at h
  rw [vertices_addEntry]
  exact hlt h

theorem subset_foldl (entries : List EdgeEntry) :
    t.graph.edges ⊆ (entries.foldl (addEntry index) t).graph.edges := by
  induction entries generalizing t with
  | nil => exact List.Subset.refl _
  | cons e entries ih =>
    exact List.Subset.trans (subset_addEntry hlt e) (ih (ends_addEntry_lt e hlt))

/-- Every edge comes from an entry. -/
theorem mem_edges_foldl {entries : List EdgeEntry} {x : Edge}
    (hx : x ∈ (entries.foldl (addEntry index) t).graph.edges) :
    x ∈ t.graph.edges ∨
      ∃ e ∈ entries, ends index t.graph e = some x.desc ∧ e.props = x.props := by
  induction entries generalizing t with
  | nil => exact .inl hx
  | cons e₀ entries ih =>
    cases ih (ends_addEntry_lt e₀ hlt) hx with
    | inl hstep =>
      refine (mem_edges_addEntry_cases hlt hstep).imp_right fun h => ?_
      exact ⟨e₀, List.mem_cons_self, h⟩
    | inr hlater =>
      obtain ⟨e, he, hends, hprops⟩ := hlater
      rw [ends_congr (vertices_addEntry t e₀)] at hends
      exact .inr ⟨e, List.mem_cons_of_mem e₀ he, hends, hprops⟩

/-- Between the ends of every entry there is an edge. -/
theorem exists_edge_foldl {entries : List EdgeEntry} {e : EdgeEntry} {d : EdgeDesc}
    (he : e ∈ entries) (h : ends index t.graph e = some d) :
    ∃ x ∈ (entries.foldl (addEntry index) t).graph.edges, x.desc = d := by
  induction entries generalizing t with
  | nil => cases he
  | cons e₀ entries ih =>
    have hlt' := @ends_addEntry_lt index t e₀ hlt
    cases List.mem_cons.mp he with
    | inl heq =>
      subst heq
      obtain ⟨x, hx, hdesc⟩ := exists_edge_addEntry hlt h
      exact ⟨x, subset_foldl hlt' entries hx, hdesc⟩
    | inr hmem =>
      rw [← ends_congr (vertices_addEntry t e₀)] at h
      exact ih hlt' hmem h

end Entries

/-! ## The loaded graph -/

/-- The link of an entry is in the graph, and the lookup by port finds a link of that port. -/
structure Keeps (g : Graph) (p : EdgeProperties) : Prop where
  inGraph : ∃ d, g.propsOf d = some p
  found : ∃ d q, g.findEdgeByDpidAndPort p.srcDpid p.srcInterface = some d ∧
    g.propsOf d = some q ∧ q.srcDpid = p.srcDpid ∧ q.srcInterface = p.srcInterface

theorem keeps_of_mem {g : Graph} {x : Edge} (hx : x ∈ g.edges) : Keeps g x.props := by
  refine ⟨⟨x.desc, Graph.propsOf_desc hx⟩, ?_⟩
  cases hfind : g.findEdgeByDpidAndPort x.props.srcDpid x.props.srcInterface with
  | none =>
    rw [Graph.findEdgeByDpidAndPort, Graph.findEdge, Option.map_eq_none_iff] at hfind
    exact absurd (decide_eq_true ⟨rfl, rfl⟩) (List.find?_eq_none.mp hfind x hx)
  | some d =>
    obtain ⟨y, hy, rfl, htest⟩ := Graph.exists_of_findEdge hfind
    obtain ⟨hdpid, hport⟩ := of_decide_eq_true htest
    exact ⟨y.desc, y.props, rfl, Graph.propsOf_desc hy, hdpid, hport⟩

/-- The vertices and the indexes that the nodes of a file give. -/
def nodeLoop (nodes : List (VertexProperties × SwitchKind)) : NodeLoop :=
  nodes.foldl NodeLoop.add { dpidToSwitchKind := ∅ }

theorem nodeLoop_inv (nodes : List (VertexProperties × SwitchKind)) : (nodeLoop nodes).Inv := by
  refine NodeLoop.Inv.foldl nodes ⟨fun dpid v h => ?_, fun vp h => ?_⟩
  · cases h
  · cases h

/-- A topology before its edges are added. -/
def NodeLoop.topology (s : NodeLoop) : Topology where
  dpidToSwitchKind := s.dpidToSwitchKind
  graph := .edgeless s.vertices
  links _ := {}

end TopologyFile

/-- What a file that is accepted holds, and what is loaded from it. -/
theorem Topology.exists_of_loadStaticTopologyFromFile {mode : DeploymentMode} {j : Json}
    {t : Topology} (h : Topology.empty.loadStaticTopologyFromFile mode j = .ok t) :
    ∃ nodes entries, readEntries (readNode mode) j "nodes" = .ok nodes ∧
      readEntries readEdge j "edges" = .ok entries ∧
      t = entries.foldl (addEntry (nodeLoop nodes).dpidToVertex) (nodeLoop nodes).topology := by
  have hempty : Topology.empty.graph.vertices = [] := rfl
  rw [loadStaticTopologyFromFile, if_neg (not_not.mpr hempty)] at h
  obtain ⟨nodes, hnodes, h⟩ := EState.bind_eq_ok h
  obtain ⟨entries, hentries, h⟩ := EState.bind_eq_ok h
  exact ⟨nodes, entries, hnodes, hentries, (Except.ok.inj h).symm⟩

namespace TopologyFile

/-- The end vertices of an entry of the file. -/
def fileEnds (nodes : List (VertexProperties × SwitchKind)) (e : EdgeEntry) : Option EdgeDesc :=
  ends (nodeLoop nodes).dpidToVertex (nodeLoop nodes).topology.graph e

theorem fileEnds_lt {nodes : List (VertexProperties × SwitchKind)} {e : EdgeEntry} {d : EdgeDesc}
    (h : fileEnds nodes e = some d) :
    d.source < (nodeLoop nodes).vertices.length ∧ d.target < (nodeLoop nodes).vertices.length :=
  ends_lt (nodeLoop_inv nodes) rfl h

/-- Entries with the same addresses have the same ends. -/
theorem fileEnds_congr (nodes : List (VertexProperties × SwitchKind)) {e e' : EdgeEntry}
    (h : e.props = e'.props) : fileEnds nodes e = fileEnds nodes e' := by
  unfold fileEnds ends
  rw [h]

/-- The bandwidths of a loaded edge are those of an entry. -/
theorem links_foldl {index : AssocMap UInt64 Nat} (P : LinkInfo → Prop) (entries : List EdgeEntry)
    {t : Topology} (hstart : ∀ d, P (t.links d)) (hentry : ∀ e ∈ entries, P e.link) (d : EdgeDesc) :
    P ((entries.foldl (addEntry index) t).links d) := by
  induction entries generalizing t with
  | nil => exact hstart d
  | cons e entries ih =>
    refine ih (fun d => ?_) fun e' he' => hentry e' (List.mem_cons_of_mem e he')
    rw [addEntry]
    split
    · rw [addEdge]
      dsimp only
      split
      · exact hstart d
      · rw [Function.update_apply]
        split
        · exact hentry e List.mem_cons_self
        · exact hstart d
    · exact hstart d

/-- The file has both end vertices of the entry. -/
def EdgeEntry.HasEnds (nodes : List (VertexProperties × SwitchKind)) (e : EdgeEntry) : Prop :=
  HasEnd (nodeLoop nodes).vertices e.props.srcDpid e.props.srcIp ∧
    HasEnd (nodeLoop nodes).vertices e.props.dstDpid e.props.dstIp

theorem EdgeEntry.hasEnds_iff (nodes : List (VertexProperties × SwitchKind)) (e : EdgeEntry) :
    e.HasEnds nodes ↔ ∃ d, fileEnds nodes e = some d :=
  (exists_ends_iff (nodeLoop_inv nodes) rfl e).symm

/-- Two entries are links from one vertex to another, the same ones. -/
def Parallel (nodes : List (VertexProperties × SwitchKind)) (e e' : EdgeEntry) : Prop :=
  ∃ d, fileEnds nodes e = some d ∧ fileEnds nodes e' = some d

/-- A file that is accepted loses no link exactly if no two of its links are parallel. -/
theorem keeps_links_iff {mode : DeploymentMode} {j : Json} {t : Topology}
    (h : Topology.empty.loadStaticTopologyFromFile mode j = .ok t) :
    ∃ nodes entries, readEntries (readNode mode) j "nodes" = .ok nodes ∧
      readEntries readEdge j "edges" = .ok entries ∧
      ((∀ e ∈ entries, e.HasEnds nodes → Keeps t.graph e.props) ↔
        ∀ e ∈ entries, ∀ e' ∈ entries, Parallel nodes e e' → e.props = e'.props) := by
  obtain ⟨nodes, entries, hnodes, hentries, rfl⟩ := Topology.exists_of_loadStaticTopologyFromFile h
  refine ⟨nodes, entries, hnodes, hentries, ?_⟩
  have hedge : ∀ {e : EdgeEntry} {d : EdgeDesc}, e ∈ entries → fileEnds nodes e = some d →
      ∃ x ∈ (entries.foldl (addEntry (nodeLoop nodes).dpidToVertex)
        (nodeLoop nodes).topology).graph.edges, x.desc = d :=
    exists_edge_foldl fileEnds_lt
  have hentry : ∀ {x : Edge}, x ∈ (entries.foldl (addEntry (nodeLoop nodes).dpidToVertex)
      (nodeLoop nodes).topology).graph.edges →
        ∃ e ∈ entries, fileEnds nodes e = some x.desc ∧ e.props = x.props := by
    intro x hx
    exact (mem_edges_foldl fileEnds_lt hx).resolve_left List.not_mem_nil
  generalize (entries.foldl (addEntry (nodeLoop nodes).dpidToVertex)
    (nodeLoop nodes).topology).graph = g at hedge hentry ⊢
  constructor
  · intro hkeeps e he e' he' hparallel
    obtain ⟨d, hd, hd'⟩ := hparallel
    -- both links stand between the same vertices, where there is one edge
    have hat : ∀ {e : EdgeEntry}, e ∈ entries → fileEnds nodes e = some d →
        g.propsOf d = some e.props := by
      intro e he hd
      obtain ⟨d', hd'⟩ := (hkeeps e he ((e.hasEnds_iff nodes).mpr ⟨d, hd⟩)).inGraph
      obtain ⟨e'', -, hd'', hprops⟩ := hentry (Graph.propsOf_eq_some_iff.mp hd')
      rw [fileEnds_congr nodes hprops, hd] at hd''
      rw [Option.some.inj hd'', hd']
    exact Option.some.inj ((hat he hd).symm.trans (hat he' hd'))
  · intro hsame e he hboth
    obtain ⟨d, hd⟩ := (e.hasEnds_iff nodes).mp hboth
    obtain ⟨x, hx, rfl⟩ := hedge he hd
    obtain ⟨e', he', hd', hprops⟩ := hentry hx
    rw [hsame e he e' he' ⟨x.desc, hd, hd'⟩, hprops]
    exact keeps_of_mem hx

/-! ## Two switches with two links -/

/-- A switch of a file. -/
def switchJson (dpid : Nat) (ip : String) : Json := .obj [
  ("brand_name", .str "OVS"), ("device_layer", .uint 1), ("device_name", .str "s"),
  ("dpid", .uint dpid), ("ip", .arr [.str ip]), ("mac", .uint 0), ("nickname", .str "s"),
  ("vertex_type", .uint 0)]

/-- A link of a file, by the dpids and the addresses of its ends; `port` is its port at both. -/
def linkJson (src dst : Nat × String) (port : Nat) : Json := .obj [
  ("dst_dpid", .uint dst.1), ("dst_interface", .uint port), ("dst_ip", .arr [.str dst.2]),
  ("link_bandwidth_bps", .uint 1000000000),
  ("src_dpid", .uint src.1), ("src_interface", .uint port), ("src_ip", .arr [.str src.2])]

def switch1 : Nat × String := (1, "10.0.0.1")
def switch2 : Nat × String := (2, "10.0.0.2")

/-- Two switches, with these links. -/
def twoSwitches (links : List Json) : Json := .obj [
  ("edges", .arr links),
  ("nodes", .arr [switchJson switch1.1 switch1.2, switchJson switch2.1 switch2.2])]

/-- One link, each way. -/
def twoWayLink : Json := twoSwitches [linkJson switch1 switch2 1, linkJson switch2 switch1 1]

theorem exists_load_twoWayLink :
    ∃ t, Topology.empty.loadStaticTopologyFromFile .testbed twoWayLink = .ok t := ⟨_, rfl⟩

/-- With one link each way nothing is lost. -/
theorem twoWayLink_keeps : ∃ t,
    Topology.empty.loadStaticTopologyFromFile .testbed twoWayLink = .ok t ∧
    ∃ nodes entries, readEntries (readNode .testbed) twoWayLink "nodes" = .ok nodes ∧
      readEntries readEdge twoWayLink "edges" = .ok entries ∧
      ((∀ e ∈ entries, e.HasEnds nodes → Keeps t.graph e.props) ↔
        ∀ e ∈ entries, ∀ e' ∈ entries, Parallel nodes e e' → e.props = e'.props) :=
  exists_load_twoWayLink.imp fun _ h => ⟨h, keeps_links_iff h⟩

/-- The second of two parallel links has its ends in the file, and nothing is found at its port. -/
theorem secondLink_dropped : ∃ t e,
    Topology.empty.loadStaticTopologyFromFile .testbed
      (twoSwitches [linkJson switch1 switch2 1, linkJson switch1 switch2 2]) = .ok t ∧
    readEdge (linkJson switch1 switch2 2) = .ok e ∧
    HasEnd t.graph.vertices e.props.srcDpid e.props.srcIp ∧
    HasEnd t.graph.vertices e.props.dstDpid e.props.dstIp ∧
    t.graph.findEdgeByDpidAndPort e.props.srcDpid e.props.srcInterface = none :=
  ⟨_, _, rfl, rfl, ⟨_, List.mem_cons_self, rfl, rfl⟩,
    ⟨_, List.mem_cons_of_mem _ List.mem_cons_self, rfl, rfl⟩, rfl⟩

end TopologyFile

end Ndtwin.Kernel

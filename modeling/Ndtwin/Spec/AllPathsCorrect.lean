import Ndtwin.ForStd.SimplePath
import Ndtwin.Kernel.AllPaths

/-!
# All paths between two switches

The search keeps one path vector and one visited set for all branches and repairs them around
each recursive call. `dfs_eq` shows that it leaves both as they were and adds the paths that
`SimplePath.paths` lists; the simple paths between two switches pass through switches only when
every host is attached to one switch.

## Key results

- `dfs_eq`: what one call of the search does
- `getAllPathsBetweenTwoHosts_exact`: the paths returned are the simple switch paths, each once
-/

namespace Ndtwin.Kernel

open AllPaths SimplePath

/-! ## Graphs -/

/-- The properties of an edge name the ends of the edge. -/
def Graph.EdgeAgrees (g : Graph) (e : Edge) : Prop :=
  ∃ v ∈ g.vertices[e.desc.source]?, ∃ w ∈ g.vertices[e.desc.target]?,
    e.props.srcDpid = v.dpid ∧ e.props.srcIp = v.ip ∧
    e.props.dstDpid = w.dpid ∧ e.props.dstIp = w.ip

def Graph.IsSwitch (g : Graph) (v : Nat) : Prop :=
  ∃ p ∈ g.vertices[v]?, p.vertexType = .switch

def Graph.IsHost (g : Graph) (v : Nat) : Prop :=
  ∃ p ∈ g.vertices[v]?, p.vertexType = .host

/-- All edges of the vertex, in either direction, join it with one and the same vertex. -/
def Graph.AttachedOnce (g : Graph) (h : Nat) : Prop :=
  ∃ s, ∀ e ∈ g.edges, (e.desc.source = h → e.desc.target = s) ∧
    (e.desc.target = h → e.desc.source = s)

/-- The edges along which the search leaves a vertex. -/
def Graph.usableEdges (g : Graph) (u : Nat) : List Edge :=
  (g.outEdges u).filter fun e => e.props.isUsable

/-- The vertex that an edge leads to. -/
def Edge.to (e : Edge) : Nat := e.desc.target

theorem Graph.mem_outEdges {g : Graph} {u : Nat} {e : Edge} :
    e ∈ g.outEdges u ↔ e ∈ g.edges ∧ e.desc.source = u := by
  rw [outEdges, List.mem_filter, decide_eq_true_iff]

theorem Graph.mem_usableEdges {g : Graph} {u : Nat} {e : Edge} :
    e ∈ g.usableEdges u ↔ (e ∈ g.edges ∧ e.desc.source = u) ∧ e.props.isUsable = true := by
  rw [usableEdges, List.mem_filter, mem_outEdges]

theorem Graph.nodup_edges (g : Graph) : g.edges.Nodup := by
  refine g.sorted.imp fun {a b} hab heq => ?_
  unfold EdgeDesc.before at hab
  rw [heq] at hab
  omega

theorem Graph.nodup_usableEdges (g : Graph) (u : Nat) : (g.usableEdges u).Nodup :=
  (g.nodup_edges.filter _).filter _

/-! ## One call of the search -/

/-- What is pushed for an edge. -/
def hopOf (e : Edge) : UInt64 × UInt32 := (e.props.srcDpid, e.props.srcInterface)

namespace AllPaths

variable {g : Graph} {dstV : Nat} {dstSwDpid : UInt64} {dstIP : UInt32}

/-- The path that is stored for a walk, behind the path so far. -/
def stored (dstSwDpid : UInt64) (dstIP : UInt32) (pre : Path) (es : List Edge) : Path :=
  pre ++ es.map hopOf ++ [(dstSwDpid, 0), (dstIP.toUInt64, 0)]

/-- The state after some walks were found. -/
def DfsState.found (s : DfsState) (dstSwDpid : UInt64) (dstIP : UInt32) (walks : List (List Edge)) :
    DfsState :=
  { s with paths := s.paths ++ walks.map (stored dstSwDpid dstIP s.currentPath) }

@[simp] theorem DfsState.found_nil (s : DfsState) : s.found dstSwDpid dstIP [] = s := by
  simp [found]

theorem DfsState.found_append (s : DfsState) (walks walks' : List (List Edge)) :
    s.found dstSwDpid dstIP (walks ++ walks') =
      (s.found dstSwDpid dstIP walks).found dstSwDpid dstIP walks' := by
  simp [found]

/-- Walks found behind an edge, after the edge is taken off the path again. -/
theorem DfsState.pop_found_push (s : DfsState) (e : Edge) (walks : List (List Edge)) :
    ((s.push (hopOf e)).found dstSwDpid dstIP walks).pop =
      s.found dstSwDpid dstIP (walks.map (e :: ·)) := by
  simp [found, push, pop, stored, Function.comp_def]

/-- The vertices that the search can still enter. -/
def unvisited (g : Graph) (visited : Finset Nat) : Finset Nat :=
  Finset.range g.vertices.length \ visited

theorem card_unvisited_insert {visited : Finset Nat} {u : Nat} (hu : u ∉ visited)
    (hrange : u < g.vertices.length) :
    (unvisited g (insert u visited)).card + 1 = (unvisited g visited).card := by
  have hmem : u ∈ unvisited g visited :=
    Finset.mem_sdiff.mpr ⟨Finset.mem_range.mpr hrange, hu⟩
  rw [unvisited, Finset.sdiff_insert, ← unvisited, Finset.card_erase_add_one hmem]

/-- The loop over some edges, when the recursive call finds the walks `walks v` from every fresh
    vertex `v`. -/
theorem foldlM_visitEdge {visited : Finset Nat} {rec : Nat → DfsState → Option DfsState}
    {walks : Nat → List (List Edge)}
    (hrec : ∀ v s, s.visited = visited → v ∉ visited → v < g.vertices.length →
      rec v s = some (s.found dstSwDpid dstIP (walks v)))
    {es : List Edge} (hes : ∀ e ∈ es, e ∈ g.edges) {s : DfsState} (hs : s.visited = visited) :
    es.foldlM (visitEdge rec) s =
      some (s.found dstSwDpid dstIP ((es.filter fun e => e.props.isUsable).flatMap fun e =>
        if e.to ∈ visited then [] else (walks e.to).map (e :: ·))) := by
  induction es generalizing s with
  | nil => simp
  | cons e es ih =>
    obtain ⟨he, hes'⟩ := List.forall_mem_cons.mp hes
    have hkeep : e.props.isUsable = true → (e :: es).filter (fun e => e.props.isUsable) =
        e :: es.filter fun e => e.props.isUsable := fun h => List.filter_cons_of_pos h
    have hdrop : e.props.isUsable = false → (e :: es).filter (fun e => e.props.isUsable) =
        es.filter fun e => e.props.isUsable := fun h => List.filter_cons_of_neg (by simp [h])
    have hmem : e.desc.target ∈ s.visited ↔ e.to ∈ visited := by rw [hs, Edge.to]
    rw [List.foldlM_cons, visitEdge]
    -- A visited target is skipped before its edge is tested, any other target only when the edge is
    -- not usable.
    by_cases hseen : e.to ∈ visited
    · rw [if_pos (hmem.mpr hseen), Option.bind_eq_bind, Option.bind_some, ih hes' hs]
      cases husable : e.props.isUsable with
      | true =>
        rw [hkeep husable, List.flatMap_cons, if_pos hseen, List.nil_append]
      | false => rw [hdrop husable]
    · rw [if_neg fun h => hseen (hmem.mp h)]
      cases husable : e.props.isUsable with
      | false =>
        rw [if_neg Bool.false_ne_true, Option.bind_eq_bind, Option.bind_some, ih hes' hs,
          hdrop husable]
      | true =>
        have hcall : rec e.desc.target (s.push (hopOf e)) =
            some ((s.push (hopOf e)).found dstSwDpid dstIP (walks e.to)) :=
          hrec _ _ hs hseen (g.inRange e he).2
        rw [if_pos rfl, ← hopOf, hcall, Option.map_some, Option.bind_eq_bind, Option.bind_some,
          DfsState.pop_found_push, hkeep husable, List.flatMap_cons, if_neg hseen,
          DfsState.found_append]
        exact ih hes' hs

/-- A call leaves the path and the visited set as they were, and stores the simple paths that
    avoid the visited vertices. -/
theorem dfs_eq (fuel u : Nat) (s : DfsState) (hu : u ∉ s.visited) (hrange : u < g.vertices.length)
    (hfuel : (unvisited g s.visited).card < fuel) :
    dfs g dstV dstSwDpid dstIP fuel u s =
      some (s.found dstSwDpid dstIP (paths g.usableEdges Edge.to dstV fuel s.visited u)) := by
  induction fuel generalizing u s with
  | zero => exact absurd hfuel (Nat.not_lt_zero _)
  | succ fuel ih =>
    unfold dfs paths
    by_cases hdst : u = dstV
    · rw [if_pos hdst, if_pos hdst]
      simp [DfsState.found, DfsState.push, DfsState.pop, DfsState.store, stored]
    · rw [if_neg hdst, if_neg hdst]
      have hrec : ∀ v s', DfsState.visited s' = insert u s.visited → v ∉ insert u s.visited →
          v < g.vertices.length → dfs g dstV dstSwDpid dstIP fuel v s' =
            some (s'.found dstSwDpid dstIP
              (paths g.usableEdges Edge.to dstV fuel (insert u s.visited) v)) := by
        intro v s' hs' hv hvrange
        have hcard := card_unvisited_insert hu hrange
        rw [← hs'] at hv hcard ⊢
        exact ih v s' hv hvrange (by omega)
      have hedges : ∀ e ∈ g.outEdges u, e ∈ g.edges := fun e he => (Graph.mem_outEdges.mp he).1
      rw [foldlM_visitEdge hrec hedges rfl, Option.map_some]
      -- the vertex is taken out of the visited set again
      congr 1
      simp [DfsState.found, hu, Graph.usableEdges]

end AllPaths

/-! ## Switch paths -/

/-- The edges of a simple path over usable edges that visits switches only. -/
structure Graph.SimpleSwitchPath (g : Graph) (srcV dstV : Nat) (es : List Edge) : Prop where
  walk : IsWalk g.usableEdges Edge.to dstV srcV es
  simple : (nodes Edge.to srcV es).Nodup
  switches : ∀ v ∈ nodes Edge.to srcV es, g.IsSwitch v

/-- A path as it is returned: the source host, every switch that is left with the port it is left
    by, the destination switch and the destination host. -/
def Graph.written (g : Graph) (flowKey : SFlow.FlowKey) (dstSwDpid : UInt64) (es : List Edge) :
    Path :=
  [(flowKey.srcIP.toUInt64, 0)] ++
    es.map (fun e => (g.dpidOf e.desc.source, e.props.srcInterface)) ++
    [(dstSwDpid, 0), (flowKey.dstIP.toUInt64, 0)]

namespace Graph

variable {g : Graph}

theorem isSwitch_of_find {dpid : UInt64} {v : Nat} (h : g.findSwitchByDpid dpid = some v) :
    g.IsSwitch v ∧ v < g.vertices.length := by
  obtain ⟨hlt, htest, _⟩ := List.findIdx?_eq_some_iff_getElem.mp h
  have htype : g.vertices[v].vertexType = .switch ∧ g.vertices[v].dpid = dpid := by
    simpa using htest
  exact ⟨⟨g.vertices[v], List.getElem?_eq_getElem hlt, htype.1⟩, hlt⟩

/-- A vertex that is no switch is a host. -/
theorem isHost_of_not_switch {v : Nat} (hv : v < g.vertices.length) (h : ¬g.IsSwitch v) :
    g.IsHost v := by
  refine ⟨g.vertices[v], List.getElem?_eq_getElem hv, ?_⟩
  cases htype : g.vertices[v].vertexType with
  | host => rfl
  | switch => exact absurd ⟨g.vertices[v], List.getElem?_eq_getElem hv, htype⟩ h

/-- A simple path between switches passes no host: it could leave it only to the switch that it
    came from. -/
theorem switches_of_walk (hhost : ∀ h, g.IsHost h → g.AttachedOnce h) {u dstV : Nat}
    {es : List Edge} (hdst : g.IsSwitch dstV) (hwalk : IsWalk g.usableEdges Edge.to dstV u es)
    (hsimple : (nodes Edge.to u es).Nodup) (hu : g.IsSwitch u) :
    ∀ v ∈ nodes Edge.to u es, g.IsSwitch v := by
  induction hwalk with
  | arrive => exact fun v hv => List.mem_singleton.mp hv ▸ hu
  | @step u e es he hes ih =>
    obtain ⟨hfresh, hrest⟩ : u ∉ nodes Edge.to e.to es ∧ (nodes Edge.to e.to es).Nodup :=
      List.nodup_cons.mp hsimple
    obtain ⟨⟨hedge, hsource⟩, _⟩ := mem_usableEdges.mp he
    have hto : g.IsSwitch e.to := by
      by_contra hnot
      obtain ⟨s, hs⟩ := hhost e.to (isHost_of_not_switch (g.inRange e hedge).2 hnot)
      have hus : u = s := hsource.symm.trans ((hs e hedge).2 rfl)
      cases hes with
      | arrive => exact hnot hdst
      | @step _ e' es' he' _ =>
        obtain ⟨⟨hedge', hsource'⟩, _⟩ := mem_usableEdges.mp he'
        have hback : e'.to = u := ((hs e' hedge').1 hsource').trans hus.symm
        exact hfresh (by rw [← hback]; simp [nodes])
    intro v hv
    rcases List.mem_cons.mp hv with rfl | hv
    · exact hu
    · exact ih hrest hto v hv

theorem hopOf_eq {e : Edge} (h : g.EdgeAgrees e) :
    hopOf e = (g.dpidOf e.desc.source, e.props.srcInterface) := by
  obtain ⟨v, hv, _, _, hdpid, _⟩ := h
  have hof : g.dpidOf e.desc.source = v.dpid := by
    rw [dpidOf, Option.mem_def.mp hv]
    rfl
  rw [hof, hopOf, hdpid]

theorem mem_edges_of_walk {u t : Nat} {es : List Edge} (h : IsWalk g.usableEdges Edge.to t u es) :
    ∀ e ∈ es, e ∈ g.edges := by
  induction h with
  | arrive => exact fun e he => absurd he List.not_mem_nil
  | step he _ ih => exact List.forall_mem_cons.mpr ⟨(mem_usableEdges.mp he).1.1, ih⟩

/-- The nodes of a walk are vertices. -/
theorem nodes_lt {u t : Nat} {es : List Edge} (h : IsWalk g.usableEdges Edge.to t u es)
    (hu : u < g.vertices.length) : ∀ v ∈ nodes Edge.to u es, v < g.vertices.length := by
  intro v hv
  rcases List.mem_cons.mp hv with rfl | hv
  · exact hu
  · obtain ⟨e, he, rfl⟩ := List.mem_map.mp hv
    exact (g.inRange e (mem_edges_of_walk h e he)).2

/-- The simple paths from a vertex, as the search lists them. -/
def simplePaths (g : Graph) (srcV dstV : Nat) : List (List Edge) :=
  paths g.usableEdges Edge.to dstV (g.vertices.length + 1) ∅ srcV

theorem mem_simplePaths_iff (hhost : ∀ h, g.IsHost h → g.AttachedOnce h) {srcV dstV : Nat}
    (hsrc : g.IsSwitch srcV) (hrange : srcV < g.vertices.length) (hdst : g.IsSwitch dstV)
    {es : List Edge} : es ∈ g.simplePaths srcV dstV ↔ g.SimpleSwitchPath srcV dstV es := by
  rw [simplePaths, mem_paths_iff (Finset.notMem_empty srcV)]
  constructor
  · intro ⟨hwalk, hsimple, _, _⟩
    exact ⟨hwalk, hsimple, switches_of_walk hhost hdst hwalk hsimple hsrc⟩
  · intro h
    have hlen : es.length < (Finset.range g.vertices.length).card :=
      length_lt_of_nodup h.simple fun v hv => Finset.mem_range.mpr (nodes_lt h.walk hrange v hv)
    rw [Finset.card_range] at hlen
    exact ⟨h.walk, h.simple, fun v _ => Finset.notMem_empty v, Nat.lt_succ_of_lt hlen⟩

/-- `getAllPathsBetweenTwoHosts` returns what it stores for the simple paths. -/
theorem getAllPathsBetweenTwoHosts_eq (flowKey : SFlow.FlowKey) {srcSwDpid dstSwDpid : UInt64}
    {srcV dstV : Nat} (hsrc : g.findSwitchByDpid srcSwDpid = some srcV)
    (hdst : g.findSwitchByDpid dstSwDpid = some dstV) :
    g.getAllPathsBetweenTwoHosts flowKey srcSwDpid dstSwDpid =
      some ((g.simplePaths srcV dstV).map
        (stored dstSwDpid flowKey.dstIP [(flowKey.srcIP.toUInt64, 0)])) := by
  have hfuel : (unvisited g ∅).card < g.vertices.length + 1 := by
    rw [unvisited, Finset.sdiff_empty, Finset.card_range]
    exact Nat.lt_succ_self _
  have hrun := @dfs_eq g dstV dstSwDpid flowKey.dstIP (g.vertices.length + 1) srcV
    { currentPath := [(flowKey.srcIP.toUInt64, 0)] } (Finset.notMem_empty srcV)
    (isSwitch_of_find hsrc).2 hfuel
  rw [getAllPathsBetweenTwoHosts, hsrc, hdst]
  simp only [hrun, Option.map_some, DfsState.found, List.nil_append, simplePaths]

/-- `getAllPathsBetweenTwoHosts` returns, and returns the simple switch paths over usable edges,
    each once and with the hops it makes. -/
theorem getAllPathsBetweenTwoHosts_exact (g : Graph) (flowKey : SFlow.FlowKey)
    (srcSwDpid dstSwDpid : UInt64) (hagree : ∀ e ∈ g.edges, g.EdgeAgrees e)
    (hhost : ∀ h, g.IsHost h → g.AttachedOnce h) {srcV dstV : Nat}
    (hsrc : g.findSwitchByDpid srcSwDpid = some srcV)
    (hdst : g.findSwitchByDpid dstSwDpid = some dstV) :
    ∃ walks : List (List Edge), walks.Nodup ∧
      (∀ es, es ∈ walks ↔ g.SimpleSwitchPath srcV dstV es) ∧
      g.getAllPathsBetweenTwoHosts flowKey srcSwDpid dstSwDpid =
        some (walks.map (g.written flowKey dstSwDpid)) := by
  obtain ⟨hsrcSwitch, hsrcRange⟩ := isSwitch_of_find hsrc
  obtain ⟨hdstSwitch, _⟩ := isSwitch_of_find hdst
  have hmem := fun es =>
    @mem_simplePaths_iff g hhost srcV dstV hsrcSwitch hsrcRange hdstSwitch es
  refine ⟨g.simplePaths srcV dstV, nodup_paths g.nodup_usableEdges _ _ _, hmem, ?_⟩
  · rw [getAllPathsBetweenTwoHosts_eq flowKey hsrc hdst, Option.some.injEq]
    apply List.map_congr_left
    intro es hes
    have hwalk := ((hmem es).mp hes).walk
    rw [stored, written]
    congr 2
    exact List.map_congr_left fun e he => hopOf_eq (hagree e (mem_edges_of_walk hwalk e he))

/-- Switches 1 and 2 with a link between them, and a host at switch 1. -/
def linkedSwitches : Graph where
  vertices := [{ vertexType := .switch, ip := [1], dpid := 1 },
    { vertexType := .switch, ip := [2], dpid := 2 }, { vertexType := .host, ip := [9], dpid := 0 }]
  edges := [
    ⟨⟨0, 1⟩, { srcIp := [1], srcDpid := 1, srcInterface := 3,
               dstIp := [2], dstDpid := 2, dstInterface := 4 }⟩,
    ⟨⟨0, 2⟩, { srcIp := [1], srcDpid := 1, srcInterface := 5,
               dstIp := [9], dstDpid := 0, dstInterface := 0 }⟩,
    ⟨⟨1, 0⟩, { srcIp := [2], srcDpid := 2, srcInterface := 4,
               dstIp := [1], dstDpid := 1, dstInterface := 3 }⟩,
    ⟨⟨2, 0⟩, { srcIp := [9], srcDpid := 0, srcInterface := 0,
               dstIp := [1], dstDpid := 1, dstInterface := 5 }⟩]
  inRange := by decide
  sorted := by decide

theorem linkedSwitches_attachedOnce (h : Nat) (hhost : linkedSwitches.IsHost h) :
    linkedSwitches.AttachedOnce h := by
  obtain ⟨p, hp, htype⟩ := hhost
  match h with
  | 0 =>
    obtain rfl := Option.some.inj hp
    exact nomatch htype
  | 1 =>
    obtain rfl := Option.some.inj hp
    exact nomatch htype
  | 2 => exact ⟨0, by decide⟩
  | h + 3 => exact nomatch hp

theorem getAllPathsBetweenTwoHosts_exact_linked :
    ∃ walks : List (List Edge), walks.Nodup ∧
      (∀ es, es ∈ walks ↔ linkedSwitches.SimpleSwitchPath 0 1 es) ∧
      linkedSwitches.getAllPathsBetweenTwoHosts ⟨9, 8, 0, 0, 6, 0, 0⟩ 1 2 =
        some (walks.map (linkedSwitches.written ⟨9, 8, 0, 0, 6, 0, 0⟩ 2)) :=
  getAllPathsBetweenTwoHosts_exact linkedSwitches ⟨9, 8, 0, 0, 6, 0, 0⟩ 1 2
    (by simp [linkedSwitches, EdgeAgrees]) linkedSwitches_attachedOnce rfl rfl

example : linkedSwitches.getAllPathsBetweenTwoHosts ⟨9, 8, 0, 0, 6, 0, 0⟩ 1 2 =
    some [[(9, 0), (1, 3), (2, 0), (8, 0)]] := by decide

end Graph

end Ndtwin.Kernel

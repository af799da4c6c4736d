import Ndtwin.Spec.BfsPathsCorrect

/-!
# The two searches for paths

`getAllPathsBetweenTwoHosts` goes along usable edges; `bfsAllPathsToDst` also asks whether the
vertex that an edge leads to is usable. Both get from one switch to another exactly when the
usable edges that join the two do so through usable switches as well.

## Key results

- `somePath_iff`, `bfsVisits_iff`: what each of the two searches finds
- `searches_agree_iff`: when they find the same
-/

namespace Ndtwin.Kernel

open BfsPaths SimplePath

/-- `getAllPathsBetweenTwoHosts` returns at least one path. -/
def Graph.SomePath (g : Graph) (flowKey : SFlow.FlowKey) (srcSwDpid dstSwDpid : UInt64) : Prop :=
  ∃ path paths, g.getAllPathsBetweenTwoHosts flowKey srcSwDpid dstSwDpid = some (path :: paths)

/-- The search of `bfsAllPathsToDst` visits the vertex. -/
def Graph.BfsVisits (g : Graph) (order : NeighborSort) (dstSwitch : Nat) (dstIp : UInt32)
    (tables : OpenflowTables) (v : Nat) : Prop :=
  ∃ s, search order g dstIp (g.vertices.length + 2) (initial dstSwitch tables) = some s ∧
    v ∈ s.visited

/-- The path goes through usable vertices only. -/
def Graph.ThroughUsable (g : Graph) (srcV : Nat) (es : List Edge) : Prop :=
  ∀ v ∈ nodes Edge.to srcV es, vertexUsable g v = true

namespace Graph

variable {g : Graph} {order : NeighborSort} {srcV dstV : Nat} {dstIp : UInt32}
  {tables : OpenflowTables} {s : SearchState} {b : Bfs.State Nat}

theorem somePath_iff (hhost : ∀ h, g.IsHost h → g.AttachedOnce h) (flowKey : SFlow.FlowKey)
    {srcSwDpid dstSwDpid : UInt64} (hsrc : g.findSwitchByDpid srcSwDpid = some srcV)
    (hdst : g.findSwitchByDpid dstSwDpid = some dstV) :
    g.SomePath flowKey srcSwDpid dstSwDpid ↔ ∃ es, g.SimpleSwitchPath srcV dstV es := by
  obtain ⟨hsrcSwitch, hrange⟩ := isSwitch_of_find hsrc
  have hmem := fun es =>
    @mem_simplePaths_iff g hhost srcV dstV hsrcSwitch hrange (isSwitch_of_find hdst).1 es
  rw [SomePath, getAllPathsBetweenTwoHosts_eq flowKey hsrc hdst]
  constructor
  · rintro ⟨path, paths, heq⟩
    obtain ⟨es, _, hpaths, _, _⟩ := List.map_eq_cons_iff.mp (Option.some.inj heq)
    exact ⟨es, (hmem es).mp (by rw [hpaths]; exact List.mem_cons_self)⟩
  · rintro ⟨es, hes⟩
    obtain ⟨path, paths, heq⟩ := List.exists_cons_of_ne_nil
      (List.ne_nil_of_mem (List.mem_map_of_mem ((hmem es).mpr hes)))
    exact ⟨path, paths, congrArg some heq⟩

/-- A walk through usable vertices, taken backwards, is one that the search can take. -/
theorem reaches_of_walk (hboth : g.UsableBothWays) {u : Nat} {es : List Edge}
    (hwalk : IsWalk g.usableEdges Edge.to dstV u es) (hup : g.ThroughUsable u es) :
    ∃ n, Bfs.Reaches g.usableNeighbors dstV n u := by
  induction hwalk with
  | arrive => exact ⟨0, .root⟩
  | @step u e es he _ ih =>
    obtain ⟨n, hreach⟩ := ih fun v hv => hup v (List.mem_cons_of_mem _ hv)
    obtain ⟨⟨hmem, hsource⟩, husable⟩ := mem_usableEdges.mp he
    obtain ⟨p, hp, hback⟩ := (hboth e hmem).mp husable
    rw [hsource] at hp
    have hnext : u ∈ g.usableNeighbors e.to :=
      mem_usableNeighbors.mpr ⟨hup u List.mem_cons_self, p, hp, hback⟩
    exact ⟨n + 1, .step hreach hnext⟩

/-- The parents spell a walk to the destination through usable vertices. -/
theorem walk_of_route (hboth : g.UsableBothWays) (hdst : vertexUsable g dstV = true)
    (h : Searching g order dstV dstIp tables s b) {v : Nat} {ns : List Nat}
    (hroute : Walk.Route (Parent b) dstV v ns) :
    ∃ es, IsWalk g.usableEdges Edge.to dstV v es ∧ nodes Edge.to v es = ns ∧
      g.ThroughUsable v es := by
  induction hroute with
  | arrive => exact ⟨[], .arrive, rfl, fun v hv => List.mem_singleton.mp hv ▸ hdst⟩
  | @step v w ns hhop _ ih =>
    obtain ⟨es, hwalk, hnodes, hup⟩ := ih
    obtain ⟨_, _, hvertex, q, hq, husable⟩ := h.edge_of_parent hhop
    -- the edge to the parent is the reverse of the one along which `v` was discovered
    obtain ⟨p, hp, hback⟩ := (hboth _ (propsOf_eq_some_iff.mp hq)).mp husable
    have he : (⟨⟨v, w⟩, p⟩ : Edge) ∈ g.usableEdges v :=
      mem_usableEdges.mpr ⟨⟨propsOf_eq_some_iff.mp hp, rfl⟩, hback⟩
    refine ⟨⟨⟨v, w⟩, p⟩ :: es, .step he hwalk, congrArg (v :: ·) hnodes, fun x hx => ?_⟩
    rcases List.mem_cons.mp hx with rfl | hx
    · exact hvertex
    · exact hup x hx

theorem bfsVisits_iff (hboth : g.UsableBothWays) (hhost : ∀ h, g.IsHost h → g.AttachedOnce h)
    (hsrc : g.IsSwitch srcV) (hdst : g.IsSwitch dstV) (hup : vertexUsable g dstV = true)
    (order : NeighborSort) (dstIp : UInt32) (tables : OpenflowTables) :
    g.BfsVisits order dstV dstIp tables srcV ↔
      ∃ es, g.SimpleSwitchPath srcV dstV es ∧ g.ThroughUsable srcV es := by
  obtain ⟨s, b, hsearch, h, hqueue⟩ := search_spec g order dstV dstIp tables
  constructor
  · rintro ⟨s', hsearch', hvisited⟩
    obtain rfl : s = s' := Option.some.inj (hsearch.symm.trans hsearch')
    have hseen : srcV ∈ b.seen := (h.visited srcV).mp hvisited
    obtain ⟨ns, hroute, _, hnodup, _⟩ := h.inv.exists_route hseen
    obtain ⟨es, hwalk, rfl, husable⟩ := walk_of_route hboth hup h hroute
    exact ⟨es, ⟨hwalk, hnodup, switches_of_walk hhost hdst hwalk hnodup hsrc⟩, husable⟩
  · rintro ⟨es, hpath, husable⟩
    exact ⟨s, hsearch, (h.mem_visited hqueue).mpr (reaches_of_walk hboth hpath.walk husable)⟩

/-- The two searches agree on whether one switch can be got to from the other exactly when
    switches that usable links join are joined through usable switches too. -/
theorem searches_agree_iff (g : Graph) (order : NeighborSort) (flowKey : SFlow.FlowKey)
    (srcSwDpid dstSwDpid : UInt64) (dstIp : UInt32) (tables : OpenflowTables)
    (hboth : g.UsableBothWays) (hhost : ∀ h, g.IsHost h → g.AttachedOnce h) {srcV dstV : Nat}
    (hsrc : g.findSwitchByDpid srcSwDpid = some srcV)
    (hdst : g.findSwitchByDpid dstSwDpid = some dstV)
    (hup : vertexUsable g dstV = true) :
    (g.SomePath flowKey srcSwDpid dstSwDpid ↔ g.BfsVisits order dstV dstIp tables srcV) ↔
      ((∃ es, g.SimpleSwitchPath srcV dstV es) →
        ∃ es, g.SimpleSwitchPath srcV dstV es ∧ g.ThroughUsable srcV es) := by
  rw [somePath_iff hhost flowKey hsrc hdst,
    bfsVisits_iff hboth hhost (isSwitch_of_find hsrc).1 (isSwitch_of_find hdst).1 hup]
  constructor
  · exact fun hagree => hagree.mp
  · intro hcond
    refine ⟨hcond, ?_⟩
    rintro ⟨es, hpath, _⟩
    exact ⟨es, hpath⟩

theorem searches_agree_twoHosts :
    (twoHosts.SomePath ⟨9, 8, 0, 0, 6, 0, 0⟩ 1 2 ↔
        twoHosts.BfsVisits exampleOrder 1 0x0200000A ∅ 0) ↔
      ((∃ es, twoHosts.SimpleSwitchPath 0 1 es) →
        ∃ es, twoHosts.SimpleSwitchPath 0 1 es ∧ twoHosts.ThroughUsable 0 es) :=
  searches_agree_iff twoHosts exampleOrder ⟨9, 8, 0, 0, 6, 0, 0⟩ 1 2 0x0200000A ∅
    twoHosts_usableBothWays twoHosts_cabled.attached rfl rfl (by decide)

/-! ## A switch that is down between two that are up -/

/-- Switches 1, 2 and 3 in a row; switch 2 is down, and its links look usable. -/
def middleDown : Graph where
  vertices := [{ vertexType := .switch, ip := [1], dpid := 1 },
    { vertexType := .switch, ip := [2], dpid := 2, isUp := false },
    { vertexType := .switch, ip := [3], dpid := 3 }]
  edges := [
    ⟨⟨0, 1⟩, { srcIp := [1], srcDpid := 1, srcInterface := 1,
               dstIp := [2], dstDpid := 2, dstInterface := 1 }⟩,
    ⟨⟨1, 0⟩, { srcIp := [2], srcDpid := 2, srcInterface := 1,
               dstIp := [1], dstDpid := 1, dstInterface := 1 }⟩,
    ⟨⟨1, 2⟩, { srcIp := [2], srcDpid := 2, srcInterface := 2,
               dstIp := [3], dstDpid := 3, dstInterface := 1 }⟩,
    ⟨⟨2, 1⟩, { srcIp := [3], srcDpid := 3, srcInterface := 1,
               dstIp := [2], dstDpid := 2, dstInterface := 2 }⟩]
  inRange := by decide
  sorted := by decide

theorem middleDown_not_isHost (h : Nat) : ¬middleDown.IsHost h := by
  rintro ⟨p, hp, htype⟩
  have hswitches : ∀ p ∈ middleDown.vertices, p.vertexType = .switch := by decide
  cases (hswitches p (List.mem_of_getElem? hp)).symm.trans htype

/-- The search from switch 3 does not leave it. -/
theorem eq_of_reaches_middleDown {n v : Nat}
    (h : Bfs.Reaches middleDown.usableNeighbors 2 n v) : v = 2 := by
  induction h with
  | root => rfl
  | step _ hnext ih =>
    rw [ih] at hnext
    have hnone : middleDown.usableNeighbors 2 = [] := by decide
    rw [hnone] at hnext
    cases hnext

/-- One search passes through the switch that is down, the other does not. -/
theorem searches_disagree_middleDown :
    middleDown.UsableBothWays ∧ (∀ h, middleDown.IsHost h → middleDown.AttachedOnce h) ∧
      middleDown.findSwitchByDpid 1 = some 0 ∧ middleDown.findSwitchByDpid 3 = some 2 ∧
      vertexUsable middleDown 0 = true ∧ vertexUsable middleDown 2 = true ∧
      ¬(middleDown.SomePath ⟨9, 8, 0, 0, 6, 0, 0⟩ 1 3 ↔
        middleDown.BfsVisits exampleOrder 2 8 ∅ 0) := by
  refine ⟨by simp [UsableBothWays, middleDown, propsOf, EdgeProperties.isUsable],
    fun h hhost => absurd hhost (middleDown_not_isHost h), rfl, rfl, by decide, by decide, ?_⟩
  intro hagree
  have hpath : middleDown.SomePath ⟨9, 8, 0, 0, 6, 0, 0⟩ 1 3 :=
    ⟨[(9, 0), (1, 1), (2, 2), (3, 0), (8, 0)], [], by decide⟩
  obtain ⟨s, hsearch, hvisited⟩ := hagree.mp hpath
  obtain ⟨s', b, hsearch', h, hqueue⟩ := search_spec middleDown exampleOrder 2 8 ∅
  obtain rfl : s' = s := Option.some.inj (hsearch'.symm.trans hsearch)
  obtain ⟨n, hreach⟩ := (h.mem_visited hqueue).mp hvisited
  cases eq_of_reaches_middleDown hreach

end Graph

end Ndtwin.Kernel

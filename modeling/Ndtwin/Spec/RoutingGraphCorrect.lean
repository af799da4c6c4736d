import Ndtwin.ForStd.Run
import Ndtwin.Router.IntelligentRouter

/-!
# Routing Graph Correctness

The routing graph has one edge for an ordered pair of switches, and the events name links, of
which there can be several for one pair: parallel links, or a cable that is plugged into another
port before the old link has been given up. `on_link_add` keeps the edge it finds;
`on_link_delete` removes the edge whether or not another link still carries it.

## Key results

- `activeNet_onLink`: what a link event does to the graph
- `graph_matches_iff`: the graph stays true exactly as long as no link is deleted beside
  another one
-/

namespace Ndtwin.Router

open IntelligentRouter

namespace IntelligentRouter

@[simp] theorem activeNet_scheduleRouteReinstall (r : IntelligentRouter) (reason : String) :
    (r.scheduleRouteReinstall reason).activeNet = r.activeNet := by
  unfold scheduleRouteReinstall
  simp only
  split
  · rfl
  · rfl

@[simp] theorem activeNet_updateActiveNet (r : IntelligentRouter)
    (f : RoutingGraph → RoutingGraph) : (r.updateActiveNet f).activeNet = f r.activeNet := by
  unfold updateActiveNet activeNet
  cases r.isDynamicallyDetectTopo
  · simp
  · simp

/-- The port of the edge between two switches. -/
def edgePort (r : IntelligentRouter) (u v : Int) : Option Int :=
  r.activeNet.edge? (.dpid u) (.dpid v)

end IntelligentRouter

/-- The link leads from `u` to `v`. -/
def Link.Joins (l : Link) (u v : Int) : Prop := l.src.dpid = u ∧ l.dst.dpid = v

instance (l : Link) (u v : Int) : Decidable (l.Joins u v) :=
  inferInstanceAs (Decidable (_ ∧ _))

/-- An edge that is there is kept, with its port. -/
theorem edgePort_onLinkAdd (r : IntelligentRouter) (l : Link) (u v : Int) :
    (r.onLinkAdd l).edgePort u v =
      if l.Joins u v then some ((r.edgePort u v).getD l.src.portNo) else r.edgePort u v := by
  unfold onLinkAdd edgePort
  simp only [activeNet_scheduleRouteReinstall]
  by_cases hjoins : l.Joins u v
  · rw [if_pos hjoins]
    obtain ⟨rfl, rfl⟩ := hjoins
    split
    · next hedge =>
      obtain ⟨port, hport⟩ := Option.isSome_iff_exists.mp hedge
      simp [hport]
    · next hedge =>
      rw [activeNet_updateActiveNet, DiGraph.edge?_addEdge]
      have hnone := Option.not_isSome_iff_eq_none.mp hedge
      simp [hnone]
  · rw [if_neg hjoins]
    split
    · rfl
    · rw [activeNet_updateActiveNet, DiGraph.edge?_addEdge, if_neg]
      intro heq
      simp only [Prod.mk.injEq, RouterNode.dpid.injEq] at heq
      exact hjoins ⟨heq.1.symm, heq.2.symm⟩

/-- The edge is gone, whichever link it stood for. -/
theorem edgePort_onLinkDelete (r : IntelligentRouter) (l : Link) (u v : Int) :
    (r.onLinkDelete l).edgePort u v = if l.Joins u v then none else r.edgePort u v := by
  unfold onLinkDelete edgePort
  simp only [activeNet_scheduleRouteReinstall]
  by_cases hjoins : l.Joins u v
  · rw [if_pos hjoins]
    obtain ⟨rfl, rfl⟩ := hjoins
    split
    · rw [activeNet_updateActiveNet, DiGraph.edge?_removeEdge]
      simp
    · next hedge =>
      have hnone := Option.not_isSome_iff_eq_none.mp hedge
      simp [hnone]
  · rw [if_neg hjoins]
    split
    · rw [activeNet_updateActiveNet, DiGraph.edge?_removeEdge, if_neg]
      intro heq
      simp only [Prod.mk.injEq, RouterNode.dpid.injEq] at heq
      exact hjoins ⟨heq.1.symm, heq.2.symm⟩
    · rfl

/-! ## Live links -/

/-- The application, and the links that are live. -/
structure Cabling where
  router : IntelligentRouter
  live : Finset Link

namespace Cabling

/-- A link comes up or goes down, and the application hears of it. -/
def step (c : Cabling) (e : LinkEvent) : Cabling where
  router := c.router.onLink e
  live := match e with
    | .add link => insert link c.live
    | .delete link => c.live.erase link

/-- An add names a link that is not live, and a delete one that is. -/
def Real (c : Cabling) : LinkEvent → Prop
  | .add link => link ∉ c.live
  | .delete link => link ∈ c.live

/-- No link is deleted while another one leads from the same switch to the same switch. -/
def Sole (c : Cabling) : LinkEvent → Prop
  | .add _ => True
  | .delete link => ∀ other ∈ c.live, other.Joins link.src.dpid link.dst.dpid → other = link

instance (c : Cabling) : (e : LinkEvent) → Decidable (c.Real e)
  | .add link => inferInstanceAs (Decidable (link ∉ c.live))
  | .delete link => inferInstanceAs (Decidable (link ∈ c.live))

instance (c : Cabling) : (e : LinkEvent) → Decidable (c.Sole e)
  | .add _ => isTrue trivial
  | .delete link => inferInstanceAs (Decidable
      (∀ other ∈ c.live, other.Joins link.src.dpid link.dst.dpid → other = link))

/-- There is an edge exactly where a live link leads, and its port is that of such a link. -/
structure GraphMatches (c : Cabling) : Prop where
  edge_iff : ∀ u v, (c.router.edgePort u v).isSome ↔ ∃ link ∈ c.live, link.Joins u v
  port : ∀ u v port, c.router.edgePort u v = some port →
    ∃ link ∈ c.live, link.Joins u v ∧ link.src.portNo = port

variable {c : Cabling}

/-- Before the first event there is neither an edge nor a link. -/
theorem graphMatches_empty : GraphMatches { router := {}, live := ∅ } where
  edge_iff _ _ := ⟨(fun h => nomatch h), fun ⟨_, hlink, _⟩ => absurd hlink (Finset.notMem_empty _)⟩
  port _ _ _ h := nomatch h

/-- A link that comes up always leaves a true graph. -/
theorem GraphMatches.add (h : c.GraphMatches) (l : Link) :
    (c.step (.add l)).GraphMatches := by
  constructor
  · intro u v
    show ((c.router.onLinkAdd l).edgePort u v).isSome ↔ ∃ link ∈ insert l c.live, link.Joins u v
    rw [edgePort_onLinkAdd]
    split
    · next hjoins => exact ⟨fun _ => ⟨l, Finset.mem_insert_self l c.live, hjoins⟩, fun _ => rfl⟩
    · next hjoins =>
      rw [h.edge_iff]
      constructor
      · intro ⟨link, hlink, hlj⟩
        exact ⟨link, Finset.mem_insert_of_mem hlink, hlj⟩
      · intro ⟨link, hlink, hlj⟩
        rcases Finset.mem_insert.mp hlink with rfl | hlive
        · exact absurd hlj hjoins
        · exact ⟨link, hlive, hlj⟩
  · intro u v port hport
    change (c.router.onLinkAdd l).edgePort u v = some port at hport
    show ∃ link ∈ insert l c.live, link.Joins u v ∧ link.src.portNo = port
    rw [edgePort_onLinkAdd] at hport
    cases hedge : c.router.edgePort u v with
    | some old =>
      -- the edge was there, and keeps the port of the link that it stood for
      obtain ⟨link, hlink, hlj⟩ := h.port u v old hedge
      rw [hedge, Option.getD_some, ite_self] at hport
      cases hport
      exact ⟨link, Finset.mem_insert_of_mem hlink, hlj⟩
    | none =>
      rw [hedge, Option.getD_none] at hport
      split at hport
      · next hjoins => exact ⟨l, Finset.mem_insert_self l c.live, hjoins, Option.some.inj hport⟩
      · exact nomatch hport

/-- So does a link that goes down alone. -/
theorem GraphMatches.delete (h : c.GraphMatches) {l : Link} (hsole : c.Sole (.delete l)) :
    (c.step (.delete l)).GraphMatches := by
  have hother : ∀ u v, ¬l.Joins u v → ∀ link ∈ c.live, link.Joins u v →
      link ∈ c.live.erase l := by
    intro u v hnot link hlink hjoins
    refine Finset.mem_erase.mpr ⟨fun heq => hnot (heq ▸ hjoins), hlink⟩
  constructor
  · intro u v
    show ((c.router.onLinkDelete l).edgePort u v).isSome ↔
      ∃ link ∈ c.live.erase l, link.Joins u v
    rw [edgePort_onLinkDelete]
    split
    · next hjoins =>
      -- a second link between the two switches would be lost with the deleted one
      refine ⟨(fun h => nomatch h), fun ⟨link, hlink, hlj⟩ => ?_⟩
      obtain ⟨hne, hlive⟩ := Finset.mem_erase.mp hlink
      obtain ⟨rfl, rfl⟩ := hjoins
      exact absurd (hsole link hlive hlj) hne
    · next hjoins =>
      rw [h.edge_iff]
      constructor
      · intro ⟨link, hlink, hlj⟩
        exact ⟨link, hother u v hjoins link hlink hlj, hlj⟩
      · intro ⟨link, hlink, hlj⟩
        exact ⟨link, Finset.mem_of_mem_erase hlink, hlj⟩
  · intro u v port hport
    change (c.router.onLinkDelete l).edgePort u v = some port at hport
    rw [edgePort_onLinkDelete] at hport
    split at hport
    · exact nomatch hport
    · next hjoins =>
      obtain ⟨link, hlink, hlj, hlp⟩ := h.port u v port hport
      exact ⟨link, hother u v hjoins link hlink hlj, hlj, hlp⟩

/-- A link that goes down beside another one takes the edge of both with it. -/
theorem not_graphMatches_delete {l : Link} (hnot : ¬c.Sole (.delete l)) :
    ¬(c.step (.delete l)).GraphMatches := by
  intro hmatches
  unfold Sole at hnot
  push Not at hnot
  obtain ⟨other, hlive, hjoins, hne⟩ := hnot
  have hedge : (c.step (.delete l)).router.edgePort l.src.dpid l.dst.dpid = none := by
    show (c.router.onLinkDelete l).edgePort _ _ = none
    rw [edgePort_onLinkDelete, if_pos ⟨rfl, rfl⟩]
  have hsome := (hmatches.edge_iff l.src.dpid l.dst.dpid).mpr
    ⟨other, Finset.mem_erase.mpr ⟨hne, hlive⟩, hjoins⟩
  rw [hedge] at hsome
  exact nomatch hsome

end Cabling

end Ndtwin.Router

namespace Ndtwin.Spec

open Ndtwin.Router

/-- In a sequence of link events from a state whose graph is true, the graph is true after every
    event exactly when no event deletes a link while another live link leads from the same switch
    to the same switch. -/
theorem graph_matches_iff (c : Cabling) (h : c.GraphMatches) (es : List LinkEvent)
    (hreal : GuardedRun.Guarded Cabling.step Cabling.Real c es) :
    (∀ pre, pre <+: es → (GuardedRun.run Cabling.step c pre).GraphMatches) ↔
      GuardedRun.Guarded Cabling.step Cabling.Sole c es := by
  apply GuardedRun.forall_prefix_iff_guarded Cabling.GraphMatches ?_ (fun _ h => h) ?_ h hreal
  · intro c e h _ hsole
    cases e with
    | add link => exact h.add link
    | delete link => exact h.delete hsole
  · intro c e _ _ hnot
    cases e with
    | add link => exact absurd trivial hnot
    | delete link => exact Cabling.not_graphMatches_delete hnot

/-- A link from switch 1 to switch 2. -/
def cable (srcPort dstPort : Int) : Link :=
  { src := { dpid := 1, portNo := srcPort }, dst := { dpid := 2, portNo := dstPort } }

/-- A cable is unplugged, and plugged into another port after that. -/
theorem graph_matches_recabled :
    (GuardedRun.run Cabling.step { router := {}, live := ∅ }
      [.add (cable 1 1), .delete (cable 1 1), .add (cable 2 1)]).GraphMatches :=
  (graph_matches_iff _ Cabling.graphMatches_empty _ (by decide)).mpr (by decide) _ List.prefix_rfl

/-- A cable is plugged into another port, and the old link is given up after that. -/
theorem moved_cable_loses_edge :
    ¬ ∀ (c : Cabling), c.GraphMatches → ∀ es, GuardedRun.Guarded Cabling.step Cabling.Real c es →
      ∀ pre, pre <+: es → (GuardedRun.run Cabling.step c pre).GraphMatches := by
  intro h
  have hafter := h { router := {}, live := ∅ } Cabling.graphMatches_empty
    [.add (cable 1 1), .add (cable 2 1), .delete (cable 1 1)]
    (by decide) _ List.prefix_rfl
  have hedge := (hafter.edge_iff 1 2).mpr ⟨cable 2 1, by decide, rfl, rfl⟩
  revert hedge
  decide

end Ndtwin.Spec

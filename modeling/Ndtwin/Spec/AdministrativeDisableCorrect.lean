import Ndtwin.ForStd.Run
import Ndtwin.Kernel.TopologyMonitor

/-!
# Administrative disable of a switch

An operator's disable marks the edges of the switch, and discovery never writes that mark.
The mark of an edge is shared by the switches at its two ends: enabling one of them clears
it for the other as well, so a disabled switch keeps its edges out of service exactly as
long as no neighbour of it is enabled.

## Key results

- `poll_keeps_marks`: a poll writes no administrative mark
- `disabled_edges_unusable`: the edges of a disabled switch stay unusable in every run in
  which no switch is enabled next to a disabled one
- `enable_next_to_disabled`: disable two neighbours, enable one
-/

namespace Ndtwin.Spec

open Kernel Kernel.TopologyMonitor GuardedRun EState

/-! ## What the polls leave alone -/

/-- The identity of the vertices, and the ends and administrative marks of the edges. -/
def marks (g : Graph) : List (VertexType × UInt64) × List (EdgeDesc × Bool) :=
  (g.vertices.map fun v => (v.vertexType, v.dpid),
    g.edges.map fun e => (e.desc, e.props.adminDisabled))

/-- A write to vertices that keeps type and dpid shows no mark. -/
theorem marks_updateVertices (g : Graph) (test : Nat → Bool)
    (f : VertexProperties → VertexProperties)
    (hf : ∀ v, (f v).vertexType = v.vertexType ∧ (f v).dpid = v.dpid) :
    marks (g.updateVertices test f) = marks g := by
  refine Prod.ext (List.ext_getElem? fun i => ?_) rfl
  show ((g.vertices.mapIdx _).map _)[i]? = (g.vertices.map _)[i]?
  rw [List.getElem?_map, List.getElem?_map, List.getElem?_mapIdx]
  cases g.vertices[i]? with
  | none => rfl
  | some v =>
    simp only [Option.map_some]
    split
    · rw [(hf v).1, (hf v).2]
    · rfl

/-- A write to edges that keeps the mark shows no mark. -/
theorem marks_updateEdges (g : Graph) (test : EdgeDesc → Bool)
    (f : EdgeProperties → EdgeProperties) (hf : ∀ e, (f e).adminDisabled = e.adminDisabled) :
    marks (g.updateEdges test f) = marks g := by
  refine Prod.ext rfl ?_
  show (g.edges.map _).map _ = _
  rw [List.map_map]
  refine List.map_congr_left fun e _ => ?_
  simp only [Function.comp]
  split
  · rw [hf]
  · rfl

theorem keeps_markVertex (v : Option Nat) : Keeps marks (markVertex v) := by
  cases v with
  | none => exact keeps_pure _
  | some v => exact keeps_modify fun g => marks_updateVertices g _ _ fun _ => ⟨rfl, rfl⟩

theorem keeps_markEdge (e : Option EdgeDesc) : Keeps marks (markEdge e) := by
  cases e with
  | none => exact keeps_pure _
  | some e => exact keeps_modify fun g => marks_updateEdges g _ _ fun _ => rfl

theorem keeps_updateSwitch (entry : Json) : Keeps marks (updateSwitch entry) := by
  refine keeps_bind (keeps_ofExcept _) fun _ => ?_
  split
  · exact keeps_pure _
  · exact keeps_bind keeps_get fun _ => keeps_markVertex _

theorem keeps_updateHostAttachment (host : Json) (ip : UInt32) :
    Keeps marks (updateHostAttachment host ip) := by
  unfold updateHostAttachment
  split
  · exact keeps_pure _
  · split
    · exact keeps_pure _
    · refine keeps_bind (keeps_ofExcept _) fun _ => ?_
      split
      · exact keeps_pure _
      · refine keeps_bind keeps_get fun g => ?_
        split
        · exact keeps_pure _
        · exact keeps_markEdge _

theorem keeps_updateHost (host : Json) : Keeps marks (updateHost host) := by
  unfold updateHost
  split
  · exact keeps_pure _
  · split
    · exact keeps_pure _
    · refine keeps_bind (keeps_ofExcept _) fun _ => ?_
      split
      · exact keeps_pure _
      · refine keeps_bind keeps_get fun g => ?_
        refine keeps_bind (keeps_markVertex _) fun _ => ?_
        refine keeps_bind (keeps_ofExcept _) fun ipJson => ?_
        split
        · split
          · exact keeps_pure _
          · refine keeps_bind keeps_get fun g => ?_
            exact keeps_bind (keeps_markEdge _) fun _ => keeps_updateHostAttachment _ _
        · exact keeps_pure _

theorem keeps_updateLink (link : Json) : Keeps marks (updateLink link) := by
  unfold updateLink
  split
  · refine keeps_bind (keeps_ofExcept _) fun _ => ?_
    refine keeps_bind (keeps_ofExcept _) fun _ => ?_
    refine keeps_bind (keeps_ofExcept _) fun _ => ?_
    refine keeps_bind (keeps_ofExcept _) fun _ => ?_
    split
    · exact keeps_pure _
    · split
      · refine keeps_bind keeps_get fun g => ?_
        split
        · exact keeps_markEdge _
        · exact keeps_pure _
      · exact keeps_pure _
  · exact keeps_pure _

/-- A poll writes no administrative mark, however much of the reply it gets through. -/
theorem poll_keeps_marks {entry : Json → Poll Unit} (hentry : ∀ j, Keeps marks (entry j))
    (reply : PollReply) (g : Graph) : marks (poll entry reply g) = marks g := by
  cases reply with
  | empty => rfl
  | unparsable => rfl
  | parsed body => exact keeps_forM hentry body.iterate g

/-! ## Runs -/

/-- The two actions of an operator and the three polls. -/
inductive TopologyOp where
  | disable (dpid : UInt64)
  | enable (dpid : UInt64)
  | switches (reply : PollReply)
  | hosts (reply : PollReply)
  | links (reply : PollReply)

/-- The graph, and for each dpid whether the latest administrative action on it was a
    disable. -/
structure AdminWorld where
  g : Graph
  disabled : UInt64 → Bool := fun _ => false

def adminStep (w : AdminWorld) : TopologyOp → AdminWorld
  | .disable dpid =>
    { g := (disableSwitchAndEdges dpid w.g).2
      disabled := fun d => if d = dpid then true else w.disabled d }
  | .enable dpid =>
    { g := (enableSwitchAndEdges dpid w.g).2
      disabled := fun d => if d = dpid then false else w.disabled d }
  | .switches reply => { w with g := updateSwitches reply w.g }
  | .hosts reply => { w with g := updateHosts reply w.g }
  | .links reply => { w with g := updateLinks reply w.g }

/-- `v` is the vertex of a switch that an operator has disabled. -/
def AdminWorld.DisabledVertex (w : AdminWorld) (v : Nat) : Prop :=
  ∃ dpid, w.disabled dpid = true ∧ w.g.findSwitchByDpid dpid = some v

/-- No edge at a disabled switch is usable. -/
def DisabledEdgesUnusable (w : AdminWorld) : Prop :=
  ∀ v, w.DisabledVertex v → ∀ e ∈ w.g.edges, incident v e.desc → e.props.isUsable = false

/-- A switch is enabled only while no edge of it leads to another switch that is
    disabled. -/
def NotNextToDisabled (w : AdminWorld) : TopologyOp → Prop
  | .enable dpid => ∀ v, w.g.findSwitchByDpid dpid = some v →
      ∀ e ∈ w.g.edges, incident v e.desc →
        ∀ dpid' v', dpid' ≠ dpid → w.disabled dpid' = true →
          w.g.findSwitchByDpid dpid' = some v' → incident v' e.desc = false
  | _ => True

/-- Every edge at a disabled switch carries the mark. -/
def MarkedInv (w : AdminWorld) : Prop :=
  ∀ v, w.DisabledVertex v → ∀ e ∈ w.g.edges, incident v e.desc → e.props.adminDisabled = true

theorem unusable_of_marked {w : AdminWorld} (h : MarkedInv w) : DisabledEdgesUnusable w := by
  intro v hv e he hinc
  simp [EdgeProperties.isUsable, h v hv e he hinc]

/-- Which vertex a dpid names depends on the identities alone. -/
theorem findSwitchByDpid_eq (g : Graph) (dpid : UInt64) :
    g.findSwitchByDpid dpid =
      (marks g).1.findIdx? fun p => decide (p.1 = .switch ∧ p.2 = dpid) := by
  rw [marks, List.findIdx?_map]
  rfl

/-- The invariant, read off the marks. -/
theorem markedInv_congr {w : AdminWorld} {g : Graph} (h : MarkedInv w) (hg : marks g = marks w.g) :
    MarkedInv { w with g := g } := by
  rintro v ⟨dpid, hd, hv⟩ e he hinc
  have hv' : w.g.findSwitchByDpid dpid = some v := by
    rw [findSwitchByDpid_eq, ← hg, ← findSwitchByDpid_eq]
    exact hv
  have hmem : (e.desc, e.props.adminDisabled) ∈ (marks w.g).2 := by
    rw [← hg]
    exact List.mem_map_of_mem he
  obtain ⟨e₀, he₀, hpair⟩ := List.mem_map.mp hmem
  obtain ⟨hdesc, hmark⟩ := Prod.mk.inj hpair
  rw [← hmark]
  exact h v ⟨dpid, hd, hv'⟩ e₀ he₀ (hdesc ▸ hinc)

/-- What an administrative action does: nothing without a switch, and otherwise it sets
    the mark of the edges at that switch. -/
theorem setAdministrative_cases (flag : Bool) (dpid : UInt64) (g : Graph) :
    (g.findSwitchByDpid dpid = none ∧ setAdministrative flag dpid g = (false, g)) ∨
    ∃ v, g.findSwitchByDpid dpid = some v ∧
      (∀ d, (setAdministrative flag dpid g).2.findSwitchByDpid d = g.findSwitchByDpid d) ∧
      ∀ e ∈ (setAdministrative flag dpid g).2.edges, ∃ e₀ ∈ g.edges, e.desc = e₀.desc ∧
        e.props.adminDisabled =
          if incident v e₀.desc then flag else e₀.props.adminDisabled := by
  unfold setAdministrative
  cases hfind : g.findSwitchByDpid dpid with
  | none => exact .inl ⟨rfl, rfl⟩
  | some v =>
    refine .inr ⟨v, rfl, fun d => ?_, fun e he => ?_⟩
    · rw [findSwitchByDpid_eq, findSwitchByDpid_eq]
      have hsame := congrArg Prod.fst (marks_updateVertices g (· = v)
        (fun p => { p with isEnabled := !flag, adminDisabled := flag }) fun _ => ⟨rfl, rfl⟩)
      exact congrArg _ hsame
    · obtain ⟨e₀, he₀, rfl⟩ := List.mem_map.mp he
      refine ⟨e₀, he₀, ?_⟩
      split
      · exact ⟨rfl, rfl⟩
      · exact ⟨rfl, rfl⟩

theorem markedInv_disable {w : AdminWorld} (h : MarkedInv w) (dpid : UInt64) :
    MarkedInv (adminStep w (.disable dpid)) := by
  simp only [adminStep, disableSwitchAndEdges]
  rcases setAdministrative_cases true dpid w.g with ⟨hnone, heq⟩ | ⟨v, hv, hfind, hedges⟩
  · -- no such switch: nothing is recorded that could name a vertex
    rw [heq]
    rintro v' ⟨d, hd, hv'⟩ e he hinc
    dsimp only at hd hv' he
    have hne : d ≠ dpid := by
      rintro rfl
      rw [hnone] at hv'
      exact nomatch hv'
    rw [if_neg hne] at hd
    exact h v' ⟨d, hd, hv'⟩ e he hinc
  · rintro v' ⟨d, hd, hv'⟩ e he hinc
    dsimp only at hd hv' he
    obtain ⟨e₀, he₀, hdesc, hmark⟩ := hedges e he
    rw [hmark]
    split
    · rfl
    · next hnot =>
      -- not at the switch just disabled, so the action was on another one
      rw [hfind] at hv'
      have hne : d ≠ dpid := by
        rintro rfl
        obtain rfl : v = v' := Option.some.inj (hv.symm.trans hv')
        exact hnot (hdesc ▸ hinc)
      rw [if_neg hne] at hd
      exact h v' ⟨d, hd, hv'⟩ e₀ he₀ (hdesc ▸ hinc)

theorem markedInv_enable {w : AdminWorld} (h : MarkedInv w) (dpid : UInt64)
    (hok : NotNextToDisabled w (.enable dpid)) : MarkedInv (adminStep w (.enable dpid)) := by
  simp only [adminStep, enableSwitchAndEdges]
  rintro v' ⟨d, hd, hv'⟩ e he hinc
  dsimp only at hd hv' he
  have hne : d ≠ dpid := by
    rintro rfl
    rw [if_pos rfl] at hd
    exact nomatch hd
  rw [if_neg hne] at hd
  rcases setAdministrative_cases false dpid w.g with ⟨_, heq⟩ | ⟨v, hv, hfind, hedges⟩
  · rw [heq] at hv' he
    exact h v' ⟨d, hd, hv'⟩ e he hinc
  · obtain ⟨e₀, he₀, hdesc, hmark⟩ := hedges e he
    rw [hfind] at hv'
    rw [hdesc] at hinc
    rw [hmark]
    split
    · next hat =>
      -- the edge would join the enabled switch and a disabled one
      rw [hok v hv e₀ he₀ hat d v' hne hd hv'] at hinc
      exact nomatch hinc
    · exact h v' ⟨d, hd, hv'⟩ e₀ he₀ hinc

/-- Every step that meets the condition keeps the marks. -/
theorem markedInv_step (w : AdminWorld) (op : TopologyOp) (h : MarkedInv w)
    (hok : NotNextToDisabled w op) : MarkedInv (adminStep w op) := by
  cases op with
  | disable dpid => exact markedInv_disable h dpid
  | enable dpid => exact markedInv_enable h dpid hok
  | switches reply => exact markedInv_congr h (poll_keeps_marks keeps_updateSwitch reply w.g)
  | hosts reply => exact markedInv_congr h (poll_keeps_marks keeps_updateHost reply w.g)
  | links reply => exact markedInv_congr h (poll_keeps_marks keeps_updateLink reply w.g)

/-- From any graph, after any run in which no switch is enabled next to a disabled one, no
    edge at a disabled switch is usable. -/
theorem disabled_edges_unusable (g : Graph) (ops : List TopologyOp)
    (hg : Guarded adminStep NotNextToDisabled { g := g } ops) :
    DisabledEdgesUnusable (run adminStep { g := g } ops) := by
  have hinit : MarkedInv { g := g } := by
    rintro v ⟨d, hd, _⟩
    exact nomatch hd
  exact unusable_of_marked (run_invariant markedInv_step hinit hg)

/-! ## Two switches and the link between them -/

/-- The link from switch `a` to switch `b`, at the given vertices. -/
def linkBetween (source target : Nat) (a b : UInt64) : Edge where
  desc := ⟨source, target⟩
  props :=
    { srcIp := [a.toUInt32]
      srcDpid := a
      srcInterface := 1
      dstIp := [b.toUInt32]
      dstDpid := b
      dstInterface := 1 }

/-- Switches 1 and 2, joined by a link in both directions. -/
def twoSwitches : Graph where
  vertices := [{ vertexType := .switch, ip := [1], dpid := 1 },
    { vertexType := .switch, ip := [2], dpid := 2 }]
  edges := [linkBetween 0 1 1 2, linkBetween 1 0 2 1]
  inRange := by decide
  sorted := by decide

/-- A links reply that reports the link from switch 1. -/
def linkReply : PollReply :=
  .parsed (.arr [.obj [
    ("dst", .obj [("dpid", .str "0000000000000002"), ("port_no", .str "00000001")]),
    ("src", .obj [("dpid", .str "0000000000000001"), ("port_no", .str "00000001")])]])

/-- The hypothesis is met when a switch is disabled, polled, and enabled again before its
    neighbour is disabled. -/
theorem polled_disable_unusable :
    DisabledEdgesUnusable
      (run adminStep { g := twoSwitches } [.disable 1, .links linkReply, .enable 1, .disable 2]) := by
  refine disabled_edges_unusable twoSwitches _ ⟨trivial, trivial, ?_, trivial, trivial⟩
  intro v _ e _ _ dpid' v' hne hd _
  simp only [adminStep] at hd
  rw [if_neg hne] at hd
  exact nomatch hd

/-- Disable both switches and enable one: the link between them is usable, though the
    latest action on switch 2 was a disable. -/
theorem enable_next_to_disabled :
    ¬ ∀ (g : Graph) (ops : List TopologyOp),
      DisabledEdgesUnusable (run adminStep { g := g } ops) := by
  intro h
  have hedge := h twoSwitches [.disable 1, .disable 2, .enable 1] 1 ⟨2, by decide, by decide⟩
    (linkBetween 0 1 1 2) (by decide) (by decide)
  exact absurd hedge (by decide)

end Ndtwin.Spec

import Ndtwin.ForStd.Run
import Ndtwin.Kernel.EdgeFlows

/-!
# The flow sets are windows of two seconds

Whatever the order of samples and flush passes, no flow that touched an edge within the last two
seconds is missing from its flow set, and right after a pass no other flow is in it.

## Key results

- `Windowed.touch`, `Windowed.flushEdge`: one step each
- `flow_sets_windowed`: every run
-/

namespace Ndtwin.Spec

open Kernel Kernel.EdgeFlows SFlow GuardedRun

variable {clock : Nat → Int} {g : Graph} {s : EdgeFlows}

/-- The flow sets hold times of last touches, every recent one among them, and only of edges of
    the graph. -/
structure Windowed (clock : Nat → Int) (g : Graph) (s : EdgeFlows) : Prop where
  last : ∀ e key ts, (s.flowSet e).lookup key = some ts → s.lastTouch e key = some ts
  recent : ∀ e key ts, s.lastTouch e key = some ts → clock s.readings - ts ≤ flowTtl →
    (s.flowSet e).lookup key = some ts
  inGraph : ∀ e key ts, (s.flowSet e).lookup key = some ts → e ∈ g.edges.map Edge.desc

theorem flowSet_insert (sets : AssocMap EdgeDesc (LastSeen SFlow.FlowKey)) (e e' : EdgeDesc)
    (flows : LastSeen SFlow.FlowKey) (n : Nat) (touched : List (EdgeDesc × SFlow.FlowKey × Int)) :
    ({ flowSets := sets.insert e flows, readings := n, touched := touched } : EdgeFlows).flowSet e' =
      if e' = e then flows else (sets.lookup e').getD ∅ := by
  rw [flowSet, AssocMap.lookup_insert_eq]
  split
  · rfl
  · rfl

theorem flowSet_touch (e e' : EdgeDesc) (key key' : SFlow.FlowKey) :
    ((s.touchEdgeFlow clock e key).flowSet e').lookup key' =
      if e' = e ∧ key' = key then some (clock s.readings) else (s.flowSet e').lookup key' := by
  rw [touchEdgeFlow, flowSet_insert]
  by_cases he : e' = e
  · subst he
    rw [if_pos rfl, AssocMap.lookup_insert_eq]
    simp
  · rw [if_neg he, if_neg (fun h => he h.1)]
    rfl

theorem lastTouch_touch (e e' : EdgeDesc) (key key' : SFlow.FlowKey) :
    (s.touchEdgeFlow clock e key).lastTouch e' key' =
      if e' = e ∧ key' = key then some (clock s.readings) else s.lastTouch e' key' := by
  by_cases h : e = e' ∧ key = key'
  · obtain ⟨rfl, rfl⟩ := h
    simp [lastTouch, touchEdgeFlow, List.filter_append]
  · have h' : ¬(e' = e ∧ key' = key) := fun ⟨he, hk⟩ => h ⟨he.symm, hk.symm⟩
    simp [lastTouch, touchEdgeFlow, List.filter_append, h, h']

/-- The descriptors that the searches return are of edges of the graph. -/
theorem mem_edges_of_edgeOf {c : TopologyCall} {e : EdgeDesc} {key : SFlow.FlowKey}
    (h : edgeOf g c = some (e, key)) : e ∈ g.edges.map Edge.desc := by
  have hfind : ∀ {test : Edge → Bool} {d : EdgeDesc},
      (g.edges.find? test).map Edge.desc = some d → d ∈ g.edges.map Edge.desc := by
    intro test d hd
    obtain ⟨edge, hedge, rfl⟩ := Option.map_eq_some_iff.mp hd
    exact List.mem_map_of_mem (List.mem_of_find?_eq_some hedge)
  cases c with
  | updateLinkInfo => exact nomatch h
  | touchReverseEdge agent flow =>
    obtain ⟨d, hd, heq⟩ := Option.map_eq_some_iff.mp h
    obtain ⟨rfl, rfl⟩ := Prod.mk.inj heq
    unfold Graph.findReverseEdgeByAgentIpAndPort at hd
    split at hd
    · exact hfind hd
    · exact nomatch hd
  | touchEdgeToHost agent flow =>
    obtain ⟨d, hd, heq⟩ := Option.map_eq_some_iff.mp h
    obtain ⟨rfl, rfl⟩ := Prod.mk.inj heq
    unfold Graph.findEdgeToHostByAgentIpAndPort at hd
    split at hd
    · next edge hedge =>
      split at hd
      · obtain rfl := Option.some.inj hd
        exact List.mem_map_of_mem (List.mem_of_find?_eq_some hedge)
      · exact nomatch hd
    · exact nomatch hd
  | touchEdge agent flow =>
    obtain ⟨d, hd, heq⟩ := Option.map_eq_some_iff.mp h
    obtain ⟨rfl, rfl⟩ := Prod.mk.inj heq
    exact hfind hd

/-! ## One step -/

section Steps

variable (hclock : NeverBack clock)

include hclock in
/-- A touch is the last one of its flow, and time goes on for the others. -/
theorem Windowed.touch (h : Windowed clock g s) {e : EdgeDesc} (he : e ∈ g.edges.map Edge.desc)
    (key : SFlow.FlowKey) : Windowed clock g (s.touchEdgeFlow clock e key) where
  last := by
    intro e' key' ts
    rw [flowSet_touch, lastTouch_touch]
    split
    · exact id
    · exact h.last e' key' ts
  recent := by
    intro e' key' ts
    rw [flowSet_touch, lastTouch_touch]
    split
    · exact fun hts _ => hts
    · intro hts hage
      apply h.recent e' key' ts hts
      have hle : clock s.readings ≤ clock (s.readings + 1) := hclock (Nat.le_succ _)
      have hage' : clock (s.readings + 1) - ts ≤ flowTtl := hage
      omega
  inGraph := by
    intro e' key' ts
    rw [flowSet_touch]
    split
    · next heq => exact fun _ => heq.1 ▸ he
    · exact h.inGraph e' key' ts

theorem flowSet_flushEdge (e e' : EdgeDesc) :
    (s.flushEdge clock e).flowSet e' =
      if e' = e then LastSeen.prune clock flowTtl s.readings (s.flowSet e) else s.flowSet e' :=
  flowSet_insert _ _ _ _ _ _

theorem flowSet_flushEdge_of_some {e e' : EdgeDesc} {key : SFlow.FlowKey} {ts : Int}
    (h : ((s.flushEdge clock e).flowSet e').lookup key = some ts) :
    (s.flowSet e').lookup key = some ts := by
  rw [flowSet_flushEdge] at h
  split at h
  · next heq =>
    subst heq
    exact (LastSeen.lookup_prune_of_some h).1
  · exact h

include hclock in
/-- The flush of one edge erases only what is old by its end. -/
theorem Windowed.flushEdge (h : Windowed clock g s) (e : EdgeDesc) :
    Windowed clock g (s.flushEdge clock e) where
  last := fun e' key ts hts => h.last e' key ts (flowSet_flushEdge_of_some hts)
  recent := by
    intro e' key ts hts hage
    have hend : (s.flushEdge clock e).readings =
        s.readings + (s.flowSet e).toPairs.length := rfl
    rw [hend] at hage
    have hle : clock s.readings ≤ clock (s.readings + (s.flowSet e).toPairs.length) :=
      hclock (Nat.le_add_right _ _)
    have hbefore : (s.flowSet e').lookup key = some ts := h.recent e' key ts hts (by omega)
    rw [flowSet_flushEdge]
    split
    · next heq =>
      subst heq
      cases hprune : (LastSeen.prune clock flowTtl s.readings (s.flowSet e')).lookup key with
      | some ts' => rw [← hbefore, (LastSeen.lookup_prune_of_some hprune).1]
      | none =>
        -- what is erased was too old at a reading of the pass, and is so at its end
        obtain ⟨i, _, hlt, hold⟩ := LastSeen.expired_of_lookup_prune hbefore hprune
        have hi : clock i ≤ clock (s.readings + (s.flowSet e').toPairs.length) :=
          hclock (Nat.le_of_lt hlt)
        omega
    · exact hbefore
  inGraph := fun e' key ts hts => h.inGraph e' key ts (flowSet_flushEdge_of_some hts)

/-- No flow of the edge was old when the pass began, at reading `n`. -/
def Fresh (clock : Nat → Int) (n : Nat) (s : EdgeFlows) (e : EdgeDesc) : Prop :=
  ∀ key ts, (s.flowSet e).lookup key = some ts → clock n - ts ≤ flowTtl

include hclock in
theorem fresh_flushEdge {n : Nat} (hn : n ≤ s.readings) (e : EdgeDesc) :
    Fresh clock n (s.flushEdge clock e) e := by
  intro key ts hts
  rw [flowSet_flushEdge, if_pos rfl] at hts
  obtain ⟨-, i, hle, -, hage⟩ := LastSeen.lookup_prune_of_some hts
  have hni : clock n ≤ clock i := hclock (hn.trans hle)
  omega

include hclock in
/-- A pass keeps the windows, and leaves every edge that it visits fresh. -/
theorem flush_spec {n : Nat} (edges : List EdgeDesc) (hn : n ≤ s.readings)
    (h : Windowed clock g s) :
    Windowed clock g (edges.foldl (EdgeFlows.flushEdge clock) s) ∧
      (∀ e, e ∈ edges ∨ Fresh clock n s e →
        Fresh clock n (edges.foldl (EdgeFlows.flushEdge clock) s) e) := by
  induction edges generalizing s with
  | nil => exact ⟨h, fun e he => he.elim (nomatch ·) id⟩
  | cons e' edges ih =>
    have hn' : n ≤ (s.flushEdge clock e').readings := hn.trans (Nat.le_add_right _ _)
    obtain ⟨hwin, hfresh⟩ := ih hn' (h.flushEdge hclock e')
    refine ⟨hwin, fun e he => hfresh e ?_⟩
    rcases he with hmem | hold
    · rcases List.mem_cons.mp hmem with rfl | hmem
      · exact .inr (fresh_flushEdge hclock hn e)
      · exact .inl hmem
    · exact .inr fun key ts hts => hold key ts (flowSet_flushEdge_of_some hts)

include hclock in
theorem Windowed.step (h : Windowed clock g s) (e : EdgeFlows.Event) :
    Windowed clock g (EdgeFlows.step clock g s e) := by
  cases e with
  | call c =>
    show Windowed clock g (s.call clock g c)
    unfold EdgeFlows.call
    split
    · next e key hedge => exact h.touch hclock (mem_edges_of_edgeOf hedge) key
    · exact h
  | flush => exact (flush_spec hclock (g.edges.map Edge.desc) (le_refl _) h).1

end Steps

theorem windowed_empty (clock : Nat → Int) (g : Graph) : Windowed clock g {} :=
  ⟨fun _ _ _ h => (nomatch h), fun _ _ _ h => (nomatch h), fun _ _ _ h => (nomatch h)⟩

/-! ## Whole runs -/

/-- In every run, under a clock that does not go back: a flow set holds the times of last
    touches, none of the last two seconds is missing, and right after a pass each was at most two
    seconds old when the pass began. -/
theorem flow_sets_windowed (clock : Nat → Int) (hclock : NeverBack clock) (g : Graph)
    (es : List EdgeFlows.Event) :
    let s := run (EdgeFlows.step clock g) {} es
    (∀ e key ts, (s.flowSet e).lookup key = some ts → s.lastTouch e key = some ts) ∧
    (∀ e key ts, s.lastTouch e key = some ts → clock s.readings - ts ≤ flowTtl →
      (s.flowSet e).lookup key = some ts) ∧
    ∀ e key ts, ((s.flush clock g).flowSet e).lookup key = some ts →
      (s.flush clock g).lastTouch e key = some ts ∧ clock s.readings - ts ≤ flowTtl := by
  intro s
  have hwin : Windowed clock g s :=
    run_of_step (Windowed clock g) (fun s e h => h.step hclock e) (windowed_empty clock g) es
  obtain ⟨hflush, hfresh⟩ := flush_spec hclock (g.edges.map Edge.desc) (le_refl s.readings) hwin
  refine ⟨hwin.last, hwin.recent, fun e key ts hts => ⟨hflush.last e key ts hts, ?_⟩⟩
  exact hfresh e (.inl (hflush.inGraph e key ts hts)) key ts hts

/-- A switch and a host, with an edge each way. -/
def hostLink : Graph where
  vertices := [{ vertexType := .switch, ip := [10], dpid := 1 },
    { vertexType := .host, ip := [20], dpid := 0 }]
  edges := [
    { desc := ⟨0, 1⟩
      props := { srcIp := [10], srcDpid := 1, srcInterface := 3
                 dstIp := [20], dstDpid := 0, dstInterface := 0 } },
    { desc := ⟨1, 0⟩
      props := { srcIp := [20], srcDpid := 0, srcInterface := 0
                 dstIp := [10], dstDpid := 1, dstInterface := 3 } }]
  inRange := by decide
  sorted := by decide

/-- A clock that is read every one and a half seconds. -/
def slowClock (n : Nat) : Int := 1500000000 * n

/-- A flow that came in at the port of the host. -/
private def aFlow : SFlow.FlowKey where
  srcIP := 20
  dstIP := 30
  srcPort := 1
  dstPort := 2
  protocol := 6

/-- A flow stays for the first pass, and is gone after the second one. -/
theorem slow_flow_flushed :
    let es := [Event.call (.touchReverseEdge ⟨10, 3⟩ aFlow), .flush]
    let s := run (EdgeFlows.step slowClock hostLink) {} es
    (∀ e key ts, (s.flowSet e).lookup key = some ts → s.lastTouch e key = some ts) ∧
    (s.flowSet ⟨1, 0⟩).lookup aFlow = some 0 ∧
    ((s.flush slowClock hostLink).flowSet ⟨1, 0⟩).lookup aFlow = none := by
  have hclock : NeverBack slowClock := by
    intro m n hmn
    unfold slowClock
    omega
  exact ⟨(flow_sets_windowed slowClock hclock hostLink _).1, by decide +kernel, by decide +kernel⟩

end Ndtwin.Spec

import Ndtwin.Proxy.WatchdogPass
import Ndtwin.Spec.LinkWatchdogCorrect

/-!
# Watchdog Pass Correctness

A pass that finds a link down should move the routes off it. `run_watchdog_pass` asks the
result of `check_link_beacons` whether there is anything to do, and that lists the reports which
the kernel accepted, not the beliefs that changed.

## Key results

- `reportLinks_beliefs`: the beliefs of a pass are those its start found
- `rerouted_iff`: when routes are installed in a pass
- `flip_reroutes_iff`: a flip reroutes exactly when the kernel takes a report of the pass
-/

namespace Ndtwin.Proxy

open LinkWatchdog Spec

/-! ## Beliefs during a pass -/

/-- What the watchdog believes of a link it knows. -/
def LinkWatchdog.believes (w : LinkWatchdog) (link : Link) : Option Bool :=
  (w.linkBeacons.lookup link).map LinkEntry.down

/-- The links that were known are believed to be as they were. -/
def SameBeliefs (w w' : LinkWatchdog) : Prop :=
  ∀ link down, w.believes link = some down → w'.believes link = some down

theorem SameBeliefs.refl (w : LinkWatchdog) : SameBeliefs w w := fun _ _ h => h

theorem SameBeliefs.trans {w₁ w₂ w₃ : LinkWatchdog} (h : SameBeliefs w₁ w₂)
    (h' : SameBeliefs w₂ w₃) : SameBeliefs w₁ w₃ :=
  fun link down hb => h' link down (h link down hb)

theorem believes_eq_beliefOf (w : LinkWatchdog) (link : Link) :
    w.believes link = (beliefOf w.linkBeacons link).map Prod.fst := by
  unfold LinkWatchdog.believes beliefOf
  rw [Option.map_map]
  rfl

theorem sameBeliefs_of_beliefsKept {w w' : LinkWatchdog}
    (h : BeliefsKept w.linkBeacons w'.linkBeacons) : SameBeliefs w w' := by
  intro link down hb
  rw [believes_eq_beliefOf] at hb ⊢
  rcases h link with hsame | ⟨hnone, -⟩
  · rw [hsame]
    exact hb
  · rw [hnone] at hb
    exact nomatch hb

/-- An acknowledgement is not a change of belief. -/
theorem sameBeliefs_acknowledge (w : LinkWatchdog) (link : Link) (down : Bool) :
    SameBeliefs w (w.acknowledge link down) := by
  intro l d hb
  unfold acknowledge
  split
  · exact hb
  · next entry hentry =>
    split
    · unfold LinkWatchdog.believes at hb ⊢
      simp only [AssocMap.lookup_set]
      split
      · next heq =>
        rw [heq, hentry] at hb
        exact hb
      · exact hb
    · exact hb

/-! ## Installing routes leaves the watchdog and the graph alone -/

/-- What installing routes reads and does not write. -/
def linkView (m : TopologyManager) : LinkWatchdog × NetGraph := (m.watchdog, m.net)

theorem keeps_linkView_py {α : Type} (x : Except Python.Error α) :
    EState.Keeps linkView (py x) := by
  intro m
  cases x with
  | ok a => rfl
  | error e => rfl

theorem keeps_linkView_onSwitch {α : Type} (dpid : Int) (call : ClientM α) :
    EState.Keeps linkView (onSwitch dpid call) := by
  intro m
  unfold EState.finalState onSwitch
  cases m.switches.lookup dpid with
  | none => rfl
  | some switch =>
    dsimp only
    cases call switch with
    | ok a switch' => rfl
    | error e switch' => rfl

theorem keeps_linkView_recordRoute (dpid : Int) (ipv4Dst outPort : Json) :
    EState.Keeps linkView (recordRoute dpid ipv4Dst outPort) := by
  unfold recordRoute
  split
  · exact EState.keeps_modify fun _ => rfl
  · exact EState.keeps_pure _

theorem keeps_linkView_installRoutes (answers : Nat → Answers) (tasks : List RouteTask) :
    ∀ installed attempted,
      EState.Keeps linkView (installRoutes answers installed attempted tasks) := by
  induction tasks with
  | nil => exact fun _ _ => EState.keeps_pure _
  | cons task tasks ih =>
    intro installed attempted
    unfold installRoutes
    apply EState.keeps_bind EState.keeps_get
    intro m
    apply EState.keeps_bind (keeps_linkView_py _)
    intro route
    apply EState.keeps_bind (keeps_linkView_onSwitch _ _)
    intro accepted
    split
    · exact EState.keeps_bind (keeps_linkView_recordRoute _ _ _) fun _ => ih _ _
    · exact ih _ _

theorem linkView_installInitialRoutes (shortestPath : ShortestPath) (onlyDpid : Option Int)
    (answers : Nat → Answers) (m : TopologyManager) :
    linkView (EState.finalState (installInitialRoutes shortestPath onlyDpid answers) m) =
      linkView m :=
  keeps_linkView_installRoutes answers _ 0 0 _

/-- A packet-in changes no belief. -/
theorem sameBeliefs_handlePacketIn (shortestPath : ShortestPath) (m : TopologyManager)
    (p : PacketIn) : SameBeliefs m.watchdog (m.handlePacketIn shortestPath p).watchdog := by
  have hkept := sameBeliefs_of_beliefsKept
    (handlePacketIn_beliefs m.watchdog p.now p.deviceId p.ingressPort p.lldpInfo).1
  unfold TopologyManager.handlePacketIn
  dsimp only
  split
  · exact hkept
  · split
    · exact hkept
    · split
      · exact hkept
      · rw [(Prod.mk.inj (linkView_installInitialRoutes _ _ _ _)).1]
        exact hkept

theorem sameBeliefs_packets (shortestPath : ShortestPath) (packets : List PacketIn)
    (m : TopologyManager) :
    SameBeliefs m.watchdog
      (packets.foldl (TopologyManager.handlePacketIn shortestPath) m).watchdog := by
  induction packets generalizing m with
  | nil => exact SameBeliefs.refl _
  | cons p packets ih => exact (sameBeliefs_handlePacketIn shortestPath m p).trans (ih _)

/-! ## The loop over the reports -/

/-- The result lists a report that the kernel accepted. -/
def PassResult.hasReported (r : PassResult) : Prop := r.down ≠ [] ∨ r.up ≠ []

theorem hasReported_reported (r : PassResult) (link : Link) (down : Bool) :
    (LinkWatchdog.PassResult.reported r link down).hasReported := by
  unfold LinkWatchdog.PassResult.reported
  cases down with
  | true => exact Or.inl (List.append_ne_nil_of_right_ne_nil _ (List.cons_ne_nil _ _))
  | false => exact Or.inr (List.append_ne_nil_of_right_ne_nil _ (List.cons_ne_nil _ _))

/-- The reports leave every belief as it was. -/
theorem reportLinks_beliefs (shortestPath : ShortestPath) (env : WatchdogEnv)
    (todo : List (Link × Bool)) : ∀ i result m,
    SameBeliefs m.watchdog (reportLinks shortestPath env i todo result m).2.watchdog := by
  induction todo with
  | nil => exact fun _ _ m => SameBeliefs.refl _
  | cons report todo ih =>
    obtain ⟨link, down⟩ := report
    intro i result m
    have hpackets := sameBeliefs_packets shortestPath (env.packets i) m
    unfold reportLinks
    dsimp only
    split
    · have hrest := ih (i + 1) (LinkWatchdog.PassResult.reported result link down)
        { (env.packets i).foldl (TopologyManager.handlePacketIn shortestPath) m with
          watchdog := LinkWatchdog.acknowledge
            ((env.packets i).foldl (TopologyManager.handlePacketIn shortestPath) m).watchdog
            link down }
      exact (hpackets.trans (sameBeliefs_acknowledge _ link down)).trans hrest
    · exact hpackets.trans (ih (i + 1) _ _)

/-- The result of the loop lists a report exactly when it did before, or one is accepted. -/
theorem reportLinks_hasReported (shortestPath : ShortestPath) (env : WatchdogEnv)
    (todo : List (Link × Bool)) : ∀ i result m,
    (reportLinks shortestPath env i todo result m).1.hasReported ↔
      result.hasReported ∨ ∃ k < todo.length, env.notifyLink (i + k) = true := by
  induction todo with
  | nil =>
    intro i result m
    exact ⟨Or.inl, fun h => h.resolve_right fun ⟨k, hk, _⟩ => absurd hk (Nat.not_lt_zero k)⟩
  | cons report todo ih =>
    obtain ⟨link, down⟩ := report
    intro i result m
    unfold reportLinks
    dsimp only
    split
    · next haccepted =>
      refine ⟨fun _ => Or.inr ⟨0, Nat.zero_lt_succ _, haccepted⟩, fun _ => ?_⟩
      exact (ih (i + 1) _ _).mpr (Or.inl (hasReported_reported result link down))
    · next hrefused =>
      rw [ih]
      have hsame : (LinkWatchdog.PassResult.refused result link).hasReported ↔
          result.hasReported := Iff.rfl
      rw [hsame]
      apply or_congr_right
      constructor
      · intro ⟨k, hk, hanswer⟩
        refine ⟨k + 1, Nat.succ_lt_succ hk, ?_⟩
        rw [Nat.add_comm k 1, ← Nat.add_assoc]
        exact hanswer
      · -- the answer at the head is the refusal, so an acceptance comes later
        intro ⟨k, hk, hanswer⟩
        cases k with
        | zero => exact absurd hanswer hrefused
        | succ k =>
          refine ⟨k, Nat.lt_of_succ_lt_succ hk, ?_⟩
          rw [Nat.add_assoc, Nat.add_comm 1 k]
          exact hanswer

/-! ## Passes -/

/-- The beliefs of a pass at `now`, and those before it. -/
def Flips (m : TopologyManager) (now : Int) : Prop :=
  ∃ link, (refreshBeliefs m.watchdog now).believes link ≠ m.watchdog.believes link

/-- The routes are installed in the pass, over the beliefs of the pass. -/
def Reroutes (shortestPath : ShortestPath) (env : WatchdogEnv) (m : TopologyManager) : Prop :=
  ∃ m', (runWatchdogPass shortestPath env m).reroutedFrom = some m' ∧
    SameBeliefs (refreshBeliefs m.watchdog env.now) m'.watchdog

/-- The kernel accepts a report of the pass. -/
def AcceptsReport (env : WatchdogEnv) (m : TopologyManager) : Prop :=
  ∃ i < (unackedOf (refreshBeliefs m.watchdog env.now).linkBeacons).length,
    env.notifyLink i = true

/-- `run_watchdog_pass` installs routes when the result lists a report. -/
theorem reroutedFrom_eq_some (shortestPath : ShortestPath) (env : WatchdogEnv)
    (m m' : TopologyManager) :
    (runWatchdogPass shortestPath env m).reroutedFrom = some m' ↔
      (checkLinkBeacons shortestPath env m).1.hasReported ∧
        (checkLinkBeacons shortestPath env m).2 = m' := by
  unfold runWatchdogPass PassResult.hasReported
  obtain ⟨result, after⟩ := checkLinkBeacons shortestPath env m
  dsimp only
  split
  · next hreported => exact ⟨fun h => ⟨hreported, Option.some.inj h⟩, fun h => by rw [h.2]⟩
  · next hnone => exact ⟨(fun h => nomatch h), fun h => absurd h.1 hnone⟩

theorem rerouted_iff (shortestPath : ShortestPath) (env : WatchdogEnv) (m : TopologyManager) :
    Reroutes shortestPath env m ↔ AcceptsReport env m := by
  have hbeliefs := reportLinks_beliefs shortestPath env
    (unackedOf (refreshBeliefs m.watchdog env.now).linkBeacons) 0 {}
    { m with watchdog := refreshBeliefs m.watchdog env.now }
  have hreported : (checkLinkBeacons shortestPath env m).1.hasReported ↔ AcceptsReport env m := by
    unfold checkLinkBeacons AcceptsReport
    simp only [reportLinks_hasReported, Nat.zero_add]
    -- the loop starts with an empty result
    have hempty : ¬PassResult.hasReported {} := fun h => h.elim (absurd rfl) (absurd rfl)
    exact or_iff_right hempty
  unfold Reroutes
  simp only [reroutedFrom_eq_some]
  constructor
  · intro ⟨_, ⟨h, _⟩, _⟩
    exact hreported.mp h
  · intro h
    exact ⟨_, ⟨hreported.mpr h, rfl⟩, hbeliefs⟩

end Ndtwin.Proxy

namespace Ndtwin.Spec

open Ndtwin.Proxy

/-- In a pass that changes the belief about some link, whatever the kernel answers and whatever
    packets come in, the routes are installed again over the new beliefs exactly when the kernel
    accepts at least one report of the pass. -/
theorem flip_reroutes_iff (shortestPath : ShortestPath) (env : WatchdogEnv)
    (m : TopologyManager) :
    (Flips m env.now → Reroutes shortestPath env m) ↔
      (Flips m env.now → AcceptsReport env m) := by
  rw [rerouted_iff]

/-- A link between two switches, heard of at time 0. -/
def heardLink : TopologyManager where
  watchdog := {
    linkBeacons := (∅ : AssocMap Link LinkEntry).set ⟨1, 1, 2, 1⟩
      { «at» := 0, down := false, acked := true, seen := true }
    beaconInterval := 5 }

/-- The link falls silent while the kernel refuses the report. -/
theorem refused_report_not_rerouted :
    ¬ ∀ (shortestPath : ShortestPath) (env : WatchdogEnv) (m : TopologyManager),
      Flips m env.now → Reroutes shortestPath env m := by
  intro h
  have hflips : Flips heardLink 16 := ⟨⟨1, 1, 2, 1⟩, by decide⟩
  have hreroutes := h (fun _ _ _ => none) { now := 16, kernel := some fun _ => false } heardLink
    hflips
  obtain ⟨m', hfrom, -⟩ := hreroutes
  exact nomatch hfrom

end Ndtwin.Spec

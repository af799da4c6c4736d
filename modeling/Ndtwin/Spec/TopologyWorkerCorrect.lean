import Ndtwin.ForStd.Run
import Ndtwin.Router.IntelligentRouter

/-!
# Topology Worker Correctness

What coalescing owes the switches is at least one complete rebuild after the last of them has
entered. The worker clears the dirty flag before a rebuild, so an event during the rebuild earns
another one. A rebuild that gives up, or raises, earns none: the flag is clear, and the switches
it was for stay in the pending set until another one enters.

## Key results

- `WorkerInv`: what holds at each point where the worker waits
- `step_workerInv`: the events that keep it
- `settled_iff`: the worker rests on a complete rebuild exactly when every rebuild that fails
  has been marked dirty again
-/

namespace Ndtwin.Router

open IntelligentRouter

/-! ## What is observed -/

/-- The part of the application that the topology worker works on. -/
structure TopologyView where
  pending : Finset Int
  dirty : Bool
  started : Bool
  worker : Option TopologyPhase

def IntelligentRouter.topologyView (r : IntelligentRouter) : TopologyView where
  pending := r.pendingSwitchDpids
  dirty := r.topologyDirty
  started := r.topologyWorkerStarted
  worker := r.topologyWorker

/-- What has happened, with its times. -/
structure TopologyHistory where
  lastEnter : Option Nat := none
  /-- When the last rebuild started. -/
  rebuildStart : Option Nat := none
  /-- When the last complete rebuild started. -/
  completeStart : Option Nat := none
  entered : List Int := []
  notified : List Int := []

/-- The application under observation. -/
structure Observed where
  router : IntelligentRouter := {}
  clock : Nat := 0
  history : TopologyHistory := {}

/-- The times of the history. -/
def TopologyHistory.times (h : TopologyHistory) : Option Nat × Option Nat × Option Nat :=
  (h.lastEnter, h.rebuildStart, h.completeStart)

/-- What is noted of an event that happens at `clock`. -/
def TopologyHistory.note (h : TopologyHistory) (v : TopologyView) (clock : Nat) :
    RouterEvent → TopologyHistory
  | .switchEnter dpid => { h with lastEnter := some clock, entered := dpid :: h.entered }
  | .topology input =>
    match v.worker, input with
    | some .waiting, .dirty => if v.dirty then { h with rebuildStart := some clock } else h
    | some (.notifying dpids), .notified => { h with notified := dpids.take 1 ++ h.notified }
    | some .installing, .installed => { h with completeStart := h.rebuildStart }
    | _, _ => h
  | _ => h

/-- One event. -/
def Observed.step (o : Observed) (e : RouterEvent) : Observed where
  router := o.router.step e
  clock := o.clock + 1
  history := o.history.note o.router.topologyView o.clock e

/-- A complete rebuild has started after the last switch entered, no switch is pending, and every
    switch that entered has been put through a notification. -/
structure Settled (v : TopologyView) (h : TopologyHistory) : Prop where
  complete : ∃ start, h.completeStart = some start ∧
    ∀ enter, h.lastEnter = some enter → enter < start
  drained : v.pending = ∅
  notified : ∀ dpid ∈ h.entered, dpid ∈ h.notified

/-- The worker waits, and nothing has marked the topology dirty. -/
def TopologyView.AtRest (v : TopologyView) : Prop := v.worker = some .waiting ∧ v.dirty = false

/-- The event ends a rebuild that is not complete: no switches or no links could be read, or
    something raised. -/
def TopologyView.FailsRebuild (v : TopologyView) : RouterEvent → Prop
  | .topology input =>
    match v.worker, input with
    | some .readingSwitches, .switchList switchList => switchList = []
    | some .readingLinks, .linksList linksList => linksList = none
    | some .readingSwitches, .raised => True
    | some .readingLinks, .raised => True
    | some .installing, .raised => True
    | _, _ => False
  | _ => False

/-- A rebuild fails only when a switch has entered since it started. -/
def Observed.RebuildsAgain (o : Observed) (e : RouterEvent) : Prop :=
  o.router.topologyView.FailsRebuild e → o.router.topologyDirty = true

/-! ## The invariant -/

/-- A switch has entered since the last complete rebuild started. -/
def TopologyHistory.Owed (h : TopologyHistory) : Prop :=
  ∃ enter, h.lastEnter = some enter ∧ ∀ start, h.completeStart = some start → start < enter

/-- Every switch that entered has been notified, or is to be. -/
def Covered (v : TopologyView) (h : TopologyHistory) (todo : List Int) : Prop :=
  ∀ dpid ∈ h.entered, dpid ∈ h.notified ∨ dpid ∈ v.pending ∨ dpid ∈ todo

/-- What holds during a rebuild that has `todo` to notify. -/
structure Rebuilding (v : TopologyView) (h : TopologyHistory) (todo : List Int) : Prop where
  owed : h.Owed
  covered : Covered v h todo
  /-- The rebuild started after the last switch entered, unless the flag is set again. -/
  after : ∃ start, h.rebuildStart = some start ∧
    (v.dirty = false → ∀ enter, h.lastEnter = some enter → enter < start) ∧
    (v.dirty = true → ∃ enter, h.lastEnter = some enter ∧ start < enter)

/-- What enters once the pending set is drained sets the flag. -/
def TopologyView.Drained (v : TopologyView) : Prop := v.dirty = false → v.pending = ∅

/-- What holds while the worker waits at a point. -/
def PhaseInv (v : TopologyView) (h : TopologyHistory) : Option TopologyPhase → Prop
  | none => h.entered = []
  | some .waiting => Covered v h [] ∧ (v.dirty = true → h.Owed) ∧ (v.dirty = false → Settled v h)
  | some .readingSwitches => Rebuilding v h []
  | some .readingLinks => Rebuilding v h []
  | some (.notifying dpids) => Rebuilding v h dpids ∧ v.Drained
  | some .installing => Rebuilding v h [] ∧ v.Drained

/-- What holds after every event. -/
structure WorkerInv (v : TopologyView) (clock : Nat) (h : TopologyHistory) : Prop where
  enter_lt : ∀ enter, h.lastEnter = some enter → enter < clock
  rebuild_lt : ∀ start, h.rebuildStart = some start → start < clock
  complete_lt : ∀ start, h.completeStart = some start → start < clock
  started : v.started = v.worker.isSome
  phase : PhaseInv v h v.worker

/-- The invariant, of the application under observation. -/
def Observed.Inv (o : Observed) : Prop := WorkerInv o.router.topologyView o.clock o.history

theorem observedInv_init : ({} : Observed).Inv where
  enter_lt _ h := nomatch h
  rebuild_lt _ h := nomatch h
  complete_lt _ h := nomatch h
  started := rfl
  phase := rfl

section Steps

variable {v : TopologyView} {clock : Nat} {h : TopologyHistory}

/-- Time passes. -/
theorem WorkerInv.tick (hinv : WorkerInv v clock h) : WorkerInv v (clock + 1) h where
  enter_lt t ht := Nat.lt_succ_of_lt (hinv.enter_lt t ht)
  rebuild_lt t ht := Nat.lt_succ_of_lt (hinv.rebuild_lt t ht)
  complete_lt t ht := Nat.lt_succ_of_lt (hinv.complete_lt t ht)
  started := hinv.started
  phase := hinv.phase

/-- The worker moves to another point, and no time is noted. -/
theorem WorkerInv.move (hinv : WorkerInv v clock h) {v' : TopologyView} {h' : TopologyHistory}
    (htimes : h'.times = h.times) (hstarted : v'.started = v'.worker.isSome)
    (hphase : PhaseInv v' h' v'.worker) : WorkerInv v' (clock + 1) h' := by
  obtain ⟨henter, hrebuild, hcomplete⟩ :
      h'.lastEnter = h.lastEnter ∧ h'.rebuildStart = h.rebuildStart ∧
        h'.completeStart = h.completeStart := by
    simpa [TopologyHistory.times] using htimes
  refine ⟨fun t ht => ?_, fun t ht => ?_, fun t ht => ?_, hstarted, hphase⟩
  · exact Nat.lt_succ_of_lt (hinv.enter_lt t (henter ▸ ht))
  · exact Nat.lt_succ_of_lt (hinv.rebuild_lt t (hrebuild ▸ ht))
  · exact Nat.lt_succ_of_lt (hinv.complete_lt t (hcomplete ▸ ht))

/-- The view after a switch has entered. -/
def TopologyView.enter (v : TopologyView) (dpid : Int) : TopologyView where
  pending := insert dpid v.pending
  dirty := true
  started := true
  worker := if v.started then v.worker else some .waiting

theorem topologyView_getTopologyData (r : IntelligentRouter) (dpid : Int) :
    (r.getTopologyData dpid).topologyView = r.topologyView.enter dpid := by
  unfold getTopologyData TopologyView.enter topologyView
  cases hdirty : r.topologyDirty
  all_goals cases r.topologyWorkerStarted <;> simp

/-- The history after a switch has entered. -/
def TopologyHistory.enter (h : TopologyHistory) (clock : Nat) (dpid : Int) : TopologyHistory :=
  { h with lastEnter := some clock, entered := dpid :: h.entered }

theorem Covered.enter {todo : List Int} (hcovered : Covered v h todo) (dpid : Int) :
    Covered (v.enter dpid) (h.enter clock dpid) todo := by
  intro d hd
  rcases List.mem_cons.mp hd with rfl | hd
  · exact Or.inr (Or.inl (Finset.mem_insert_self d v.pending))
  · rcases hcovered d hd with hnotified | hpending | htodo
    · exact Or.inl hnotified
    · exact Or.inr (Or.inl (Finset.mem_insert_of_mem hpending))
    · exact Or.inr (Or.inr htodo)

/-- A switch that enters owes the worker a rebuild. -/
theorem WorkerInv.owed_enter (hinv : WorkerInv v clock h) (dpid : Int) :
    (h.enter clock dpid).Owed :=
  ⟨clock, rfl, hinv.complete_lt⟩

theorem WorkerInv.rebuilding_enter (hinv : WorkerInv v clock h) {todo : List Int}
    (hrebuilding : Rebuilding v h todo) (dpid : Int) :
    Rebuilding (v.enter dpid) (h.enter clock dpid) todo := by
  obtain ⟨start, hstart, -, -⟩ := hrebuilding.after
  refine ⟨hinv.owed_enter dpid, hrebuilding.covered.enter dpid, start, hstart, ?_, ?_⟩
  · exact fun hclean => nomatch hclean
  · exact fun _ => ⟨clock, rfl, hinv.rebuild_lt start hstart⟩

/-- A switch enters, wherever the worker waits. -/
theorem WorkerInv.enter (hinv : WorkerInv v clock h) (dpid : Int) :
    WorkerInv (v.enter dpid) (clock + 1) (h.enter clock dpid) := by
  have hworker : v.started = v.worker.isSome := hinv.started
  have hphase := hinv.phase
  refine ⟨?_, fun t ht => Nat.lt_succ_of_lt (hinv.rebuild_lt t ht),
    fun t ht => Nat.lt_succ_of_lt (hinv.complete_lt t ht), ?_, ?_⟩
  · intro t ht
    cases ht
    exact Nat.lt_succ_self clock
  · unfold TopologyView.enter
    cases hw : v.worker <;> simp [hworker, hw]
  · obtain ⟨pending, dirty, started, worker⟩ := v
    simp only at hworker hphase
    subst hworker
    cases worker with
    | none =>
      -- the first switch, for which the worker is spawned
      have hnone : Covered ⟨pending, dirty, false, none⟩ h [] := by
        intro d hd
        rw [hphase] at hd
        exact nomatch hd
      exact ⟨hnone.enter dpid, fun _ => hinv.owed_enter dpid, fun hclean => nomatch hclean⟩
    | some phase =>
      cases phase with
      | waiting =>
        exact ⟨hphase.1.enter dpid, fun _ => hinv.owed_enter dpid, fun hclean => nomatch hclean⟩
      | readingSwitches => exact hinv.rebuilding_enter hphase dpid
      | readingLinks => exact hinv.rebuilding_enter hphase dpid
      | notifying dpids =>
        exact ⟨hinv.rebuilding_enter hphase.1 dpid, fun hclean => nomatch hclean⟩
      | installing => exact ⟨hinv.rebuilding_enter hphase.1 dpid, fun hclean => nomatch hclean⟩

/-! ## Steps of the worker -/

/-- The view at the head of the notification loop. -/
def TopologyView.notifyNext (v : TopologyView) (dpids : List Int) : TopologyView :=
  { v with worker := some (if dpids.isEmpty then .installing else .notifying dpids) }

/-- The step of the worker, as far as the view shows it. -/
def TopologyView.step (v : TopologyView) (input : TopologyInput) : TopologyView :=
  match v.worker, input with
  | some .waiting, .dirty =>
    if v.dirty then { v with dirty := false, worker := some .readingSwitches } else v
  | some .readingSwitches, .switchList switchList =>
    { v with worker := some (if switchList.isEmpty then .waiting else .readingLinks) }
  | some .readingLinks, .linksList none => { v with worker := some .waiting }
  | some .readingLinks, .linksList (some _) =>
    TopologyView.notifyNext { v with pending := ∅ } (sortedDpids v.pending)
  | some (.notifying dpids), .notified => v.notifyNext dpids.tail
  | some .installing, .installed => { v with worker := some .waiting }
  | some .readingSwitches, .raised => { v with worker := some .waiting }
  | some .readingLinks, .raised => { v with worker := some .waiting }
  | some .installing, .raised => { v with worker := some .waiting }
  | _, _ => v

theorem topologyView_topologyStep (r : IntelligentRouter) (input : TopologyInput) :
    (r.topologyStep input).topologyView = r.topologyView.step input := by
  have hworker : r.topologyView.worker = r.topologyWorker := rfl
  unfold topologyStep TopologyView.step
  rw [hworker]
  -- only the inputs that the phase waits for do anything
  cases hw : r.topologyWorker with
  | none => rfl
  | some phase =>
    cases phase with
    | waiting =>
      cases input with
      | dirty =>
        have hdirty : r.topologyView.dirty = r.topologyDirty := rfl
        simp only [hdirty]
        split
        · rfl
        · rfl
      | _ => rfl
    | readingSwitches =>
      cases input with
      | switchList switchList =>
        simp only [switchesRead]
        split
        · rfl
        · rfl
      | _ => rfl
    | readingLinks =>
      cases input with
      | linksList linksList => cases linksList <;> rfl
      | _ => rfl
    | notifying dpids => cases input <;> rfl
    | installing => cases input <;> rfl

/-- A rebuild starts: the last switch entered before it. -/
theorem WorkerInv.startRebuild {pending : Finset Int} {started : Bool}
    (hinv : WorkerInv ⟨pending, true, started, some .waiting⟩ clock h) :
    WorkerInv ⟨pending, false, started, some .readingSwitches⟩ (clock + 1)
      { h with rebuildStart := some clock } := by
  obtain ⟨hcovered, howed, -⟩ := hinv.phase
  refine ⟨fun t ht => Nat.lt_succ_of_lt (hinv.enter_lt t ht), ?_,
    fun t ht => Nat.lt_succ_of_lt (hinv.complete_lt t ht), hinv.started, ?_⟩
  · intro t ht
    cases ht
    exact Nat.lt_succ_self clock
  · exact ⟨howed rfl, hcovered, clock, rfl, fun _ => hinv.enter_lt, fun hagain => nomatch hagain⟩

/-- A rebuild fails after a switch has entered, and the worker goes round again. -/
theorem WorkerInv.failRebuild {pending : Finset Int} {started : Bool} {phase : TopologyPhase}
    (hinv : WorkerInv ⟨pending, true, started, some phase⟩ clock h)
    (hrebuilding : Rebuilding ⟨pending, true, started, some phase⟩ h []) :
    WorkerInv ⟨pending, true, started, some .waiting⟩ (clock + 1) h := by
  have hphase : PhaseInv ⟨pending, true, started, some .waiting⟩ h (some .waiting) :=
    ⟨hrebuilding.covered, fun _ => hrebuilding.owed, fun hclean => nomatch hclean⟩
  exact hinv.move rfl hinv.started hphase

/-- At the head of the notification loop. -/
theorem phaseInv_notifyNext {dpids : List Int} (hrebuilding : Rebuilding v h dpids)
    (hdrained : v.Drained) :
    PhaseInv (v.notifyNext dpids) h (v.notifyNext dpids).worker := by
  cases dpids with
  | nil => exact ⟨⟨hrebuilding.owed, hrebuilding.covered, hrebuilding.after⟩, hdrained⟩
  | cons dpid dpids =>
    exact ⟨⟨hrebuilding.owed, hrebuilding.covered, hrebuilding.after⟩, hdrained⟩

/-- The pending set becomes what there is to notify. -/
theorem Rebuilding.drain {pending : Finset Int} {dirty started : Bool}
    {worker : Option TopologyPhase}
    (hrebuilding : Rebuilding ⟨pending, dirty, started, worker⟩ h []) :
    Rebuilding ⟨∅, dirty, started, worker⟩ h (sortedDpids pending) := by
  refine ⟨hrebuilding.owed, fun dpid hd => ?_, hrebuilding.after⟩
  rcases hrebuilding.covered dpid hd with hnotified | hpending | htodo
  · exact Or.inl hnotified
  · exact Or.inr (Or.inr ((Finset.mem_sort _).mpr hpending))
  · exact nomatch htodo

/-- A switch has been notified. -/
theorem Rebuilding.notified {dpids : List Int} (hrebuilding : Rebuilding v h dpids) :
    Rebuilding v { h with notified := dpids.take 1 ++ h.notified } dpids.tail := by
  refine ⟨hrebuilding.owed, fun dpid hd => ?_, hrebuilding.after⟩
  rcases hrebuilding.covered dpid hd with hnotified | hpending | htodo
  · exact Or.inl (List.mem_append_right _ hnotified)
  · exact Or.inr (Or.inl hpending)
  · cases dpids with
    | nil => exact nomatch htodo
    | cons first rest =>
      rcases List.mem_cons.mp htodo with rfl | hrest
      · exact Or.inl List.mem_cons_self
      · exact Or.inr (Or.inr hrest)

/-- A complete rebuild settles the switches, unless one has entered since it started. -/
theorem WorkerInv.completeRebuild {pending : Finset Int} {dirty started : Bool}
    (hinv : WorkerInv ⟨pending, dirty, started, some .installing⟩ clock h) :
    WorkerInv ⟨pending, dirty, started, some .waiting⟩ (clock + 1)
      { h with completeStart := h.rebuildStart } := by
  obtain ⟨hrebuilding, hdrained⟩ := hinv.phase
  obtain ⟨start, hstart, hclean, hagain⟩ := hrebuilding.after
  refine ⟨fun t ht => Nat.lt_succ_of_lt (hinv.enter_lt t ht),
    fun t ht => Nat.lt_succ_of_lt (hinv.rebuild_lt t ht),
    fun t ht => Nat.lt_succ_of_lt (hinv.rebuild_lt t ht), hinv.started,
    hrebuilding.covered, ?_, ?_⟩
  · intro hdirty
    obtain ⟨enter, henter, hlt⟩ := hagain hdirty
    refine ⟨enter, henter, fun start' hstart' => ?_⟩
    cases hstart.symm.trans hstart'
    exact hlt
  · intro hdirty
    have hempty : pending = ∅ := hdrained hdirty
    refine ⟨⟨start, hstart, hclean hdirty⟩, hempty, fun dpid hd => ?_⟩
    rcases hrebuilding.covered dpid hd with hnotified | hpending | htodo
    · exact hnotified
    · exact absurd (hempty ▸ hpending) (Finset.notMem_empty dpid)
    · exact nomatch htodo

/-- A step of the worker keeps the invariant, unless it ends a rebuild that failed with the flag
    clear. -/
theorem WorkerInv.step (hinv : WorkerInv v clock h) (input : TopologyInput)
    (hagain : v.FailsRebuild (.topology input) → v.dirty = true) :
    WorkerInv (v.step input) (clock + 1) (h.note v clock (.topology input)) := by
  obtain ⟨pending, dirty, started, worker⟩ := v
  cases worker with
  | none => exact hinv.tick
  | some phase =>
    cases phase with
    | waiting =>
      cases input with
      | dirty =>
        cases dirty with
        | false => exact hinv.tick
        | true => exact hinv.startRebuild
      | _ => exact hinv.tick
    -- an empty switch list fails the rebuild, which must have been asked for again
    | readingSwitches =>
      have hrebuilding : Rebuilding _ h [] := hinv.phase
      cases input with
      | switchList switchList =>
        cases switchList with
        | nil =>
          obtain rfl : dirty = true := hagain rfl
          exact hinv.failRebuild hrebuilding
        | cons dpid dpids =>
          have hnext : PhaseInv ⟨pending, dirty, started, some .readingLinks⟩ h
              (some .readingLinks) :=
            ⟨hrebuilding.owed, hrebuilding.covered, hrebuilding.after⟩
          exact hinv.move rfl hinv.started hnext
      | raised =>
        obtain rfl : dirty = true := hagain trivial
        exact hinv.failRebuild hrebuilding
      | _ => exact hinv.tick
    | readingLinks =>
      have hrebuilding : Rebuilding _ h [] := hinv.phase
      cases input with
      | linksList linksList =>
        cases linksList with
        | none =>
          obtain rfl : dirty = true := hagain rfl
          exact hinv.failRebuild hrebuilding
        | some links =>
          exact hinv.move rfl hinv.started (phaseInv_notifyNext hrebuilding.drain fun _ => rfl)
      | raised =>
        obtain rfl : dirty = true := hagain trivial
        exact hinv.failRebuild hrebuilding
      | _ => exact hinv.tick
    | notifying dpids =>
      obtain ⟨hrebuilding, hdrained⟩ := hinv.phase
      cases input with
      | notified =>
        exact hinv.move rfl hinv.started (phaseInv_notifyNext hrebuilding.notified hdrained)
      | _ => exact hinv.tick
    -- the rebuild ends here: with its installs done, or by an exception
    | installing =>
      cases input with
      | installed => exact hinv.completeRebuild
      | raised =>
        obtain rfl : dirty = true := hagain trivial
        exact hinv.failRebuild hinv.phase.1
      | _ => exact hinv.tick

/-- A rebuild that fails with the flag clear leaves the worker at rest, with the switches that
    have entered since the last complete rebuild still owed one. -/
theorem WorkerInv.fails (hinv : WorkerInv v clock h) {input : TopologyInput}
    (hfails : v.FailsRebuild (.topology input)) :
    (v.step input).worker = some .waiting ∧ (v.step input).dirty = v.dirty ∧
      h.note v clock (.topology input) = h ∧ h.Owed := by
  obtain ⟨pending, dirty, started, worker⟩ := v
  have hphase := hinv.phase
  unfold TopologyView.FailsRebuild at hfails
  simp only at hfails
  split at hfails
  · subst hfails
    exact ⟨rfl, rfl, rfl, hphase.owed⟩
  · subst hfails
    exact ⟨rfl, rfl, rfl, hphase.owed⟩
  · exact ⟨rfl, rfl, rfl, hphase.owed⟩
  · exact ⟨rfl, rfl, rfl, hphase.owed⟩
  · exact ⟨rfl, rfl, rfl, hphase.1.owed⟩
  · exact hfails.elim

/-- What is owed is not settled. -/
theorem Settled.not_owed (hsettled : Settled v h) : ¬h.Owed := by
  intro ⟨enter, henter, hlt⟩
  obtain ⟨start, hstart, hafter⟩ := hsettled.complete
  have hbefore := hafter enter henter
  have hnot := hlt start hstart
  omega

end Steps

/-! ## Runs -/

/-- What the link handlers and the reinstall workers do does not show in the view. -/
theorem topologyView_onLink (r : IntelligentRouter) (e : LinkEvent) :
    (r.onLink e).topologyView = r.topologyView := by
  -- A reinstall that is scheduled, and a change of the graph, leave the worker alone.
  have hschedule : ∀ (r : IntelligentRouter) reason,
      (r.scheduleRouteReinstall reason).topologyView = r.topologyView := by
    intro r reason
    unfold scheduleRouteReinstall
    simp only
    split
    · rfl
    · rfl
  have hupdate : ∀ (r : IntelligentRouter) f,
      (r.updateActiveNet f).topologyView = r.topologyView := by
    intro r f
    unfold updateActiveNet
    split
    · rfl
    · rfl
  cases e with
  | add link =>
    show (r.onLinkAdd link).topologyView = _
    unfold onLinkAdd
    simp only [hschedule]
    split
    · rfl
    · exact hupdate r _
  | delete link =>
    show (r.onLinkDelete link).topologyView = _
    unfold onLinkDelete
    simp only [hschedule]
    split
    · exact hupdate r _
    · rfl

theorem topologyView_resumeReinstall (r : IntelligentRouter) (i : Nat) :
    (r.resumeReinstall i).topologyView = r.topologyView := by
  have hstep : ∀ phase, (r.reinstallStep phase).1.topologyView = r.topologyView := by
    intro phase
    cases phase with
    | spawned => rfl
    | quiet seen =>
      simp only [reinstallStep, awaitInitialInstall]
      repeat' split
      all_goals rfl
    | awaitingInitialInstall seen waited =>
      simp only [reinstallStep, awaitInitialInstall]
      repeat' split
      all_goals rfl
    | walking seen =>
      simp only [reinstallStep]
      split
      all_goals rfl
  unfold resumeReinstall
  split
  · rfl
  · next phase _ =>
    have hphase := hstep phase
    generalize r.reinstallStep phase = out at hphase
    obtain ⟨r', next⟩ := out
    cases next <;> exact hphase

/-- Every event keeps the invariant, unless a rebuild fails with the flag clear. -/
theorem step_workerInv {o : Observed} (hinv : o.Inv) {e : RouterEvent}
    (hagain : o.RebuildsAgain e) : (o.step e).Inv := by
  unfold Observed.Inv at hinv ⊢
  cases e with
  | link e =>
    show WorkerInv (o.router.onLink e).topologyView _ _
    rw [topologyView_onLink]
    exact hinv.tick
  | switchEnter dpid =>
    show WorkerInv (o.router.getTopologyData dpid).topologyView _ _
    rw [topologyView_getTopologyData]
    exact hinv.enter dpid
  | reinstall i =>
    show WorkerInv (o.router.resumeReinstall i).topologyView _ _
    rw [topologyView_resumeReinstall]
    exact hinv.tick
  | initialInstallDone => exact hinv.tick
  | fallBackToDynamic => exact hinv.tick
  | topology input =>
    show WorkerInv (o.router.topologyStep input).topologyView _ _
    rw [topologyView_topologyStep]
    exact hinv.step input hagain

end Ndtwin.Router

namespace Ndtwin.Spec

open Ndtwin.Router

/-- If the worker waits with the dirty flag clear, a complete rebuild has started after the last
    switch entered, nothing is pending, and every switch that entered has been notified. -/
def RestsSettled (o : Observed) : Prop :=
  o.router.topologyView.AtRest → Settled o.router.topologyView o.history

/-- The worker rests on a complete rebuild after every event of a run exactly when every rebuild
    of the run that aborts or raises does so with the dirty flag set again. -/
theorem settled_iff (es : List RouterEvent) :
    (∀ pre, pre <+: es → RestsSettled (GuardedRun.run Observed.step {} pre)) ↔
      GuardedRun.Guarded Observed.step Observed.RebuildsAgain {} es := by
  apply GuardedRun.forall_prefix_iff_guarded Observed.Inv ?_ ?_ ?_ observedInv_init
    (GuardedRun.guarded_true _ _ es)
  · intro o e hinv _ hagain
    exact step_workerInv hinv hagain
  · intro o hinv ⟨hwaiting, hclean⟩
    have hphase := hinv.phase
    rw [hwaiting] at hphase
    exact hphase.2.2 hclean
  · intro o e hinv _ hnot hrests
    unfold Observed.RebuildsAgain at hnot
    push Not at hnot
    obtain ⟨hfails, hdirty⟩ := hnot
    -- Only a failing rebuild is ruled out, so the event is a topology event.
    cases e with
    | topology input =>
      obtain ⟨hwaiting, hsame, hhistory, howed⟩ := WorkerInv.fails hinv hfails
      have hview : (o.step (.topology input)).router.topologyView =
          o.router.topologyView.step input := topologyView_topologyStep o.router input
      have hnoted : (o.step (.topology input)).history = o.history := hhistory
      have hclean : (o.router.topologyView.step input).dirty = false :=
        hsame.trans (Bool.eq_false_iff.mpr hdirty)
      unfold RestsSettled at hrests
      rw [hview, hnoted] at hrests
      exact (hrests ⟨hwaiting, hclean⟩).not_owed howed
    | _ => exact hfails.elim

/-- The only rebuild aborts. -/
theorem aborted_rebuild_not_settled :
    ¬ ∀ es, ∀ pre, pre <+: es → RestsSettled (GuardedRun.run Observed.step {} pre) := by
  intro h
  have hrests := h [.switchEnter 1, .topology .dirty, .topology (.switchList [])] _
    List.prefix_rfl
  have hdrained := (hrests ⟨rfl, rfl⟩).drained
  exact absurd hdrained (by decide)

end Ndtwin.Spec

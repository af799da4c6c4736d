import Ndtwin.ForStd.Run
import Ndtwin.Router.IntelligentRouter

/-!
# Route Reinstallation Correctness

`_schedule_route_reinstall` drops a request while a worker is running, so the worker itself has
to see every change that came after it last looked. It compares sequence numbers: the one it
read before the last quiet period with the one after the walk.

A walk is told from the log: `recomputing` when it starts, `reinstallDone` when it ends.

## Key results

- `ReinstallInv`: at most one worker, and none while a change is uncovered
- `step_reinstallInv`: every event keeps it
- `no_change_lost`: the last walk of the worker started after the last change
-/

namespace Ndtwin.Router

open IntelligentRouter

/-! ## What is observed -/

/-- The line that a scheduled change writes. -/
def LogLine.isChange : LogLine → Bool
  | .topologyChanged _ => true
  | _ => false

/-- The events that schedule a reinstallation. -/
def RouterEvent.isChange : RouterEvent → Bool
  | .link _ => true
  | _ => false

/-- The log ends with a walk, from its start to its end. -/
def EndsWithWalk (log : List LogLine) : Prop :=
  ∃ before, log = before ++ [.recomputing, .reinstallDone]

namespace IntelligentRouter

/-- The part of the state that route reinstallation works on. -/
def reinstallView (r : IntelligentRouter) : Nat × Bool × List ReinstallPhase × List LogLine :=
  (r.topologyChangeSeq, r.reinstallWorkerRunning, r.reinstallWorkers, r.log)

@[simp] theorem reinstallView_updateActiveNet (r : IntelligentRouter)
    (f : RoutingGraph → RoutingGraph) : (r.updateActiveNet f).reinstallView = r.reinstallView := by
  unfold updateActiveNet
  split
  · rfl
  · rfl

/-- A switch that enters leaves reinstallation alone. -/
@[simp] theorem reinstallView_getTopologyData (r : IntelligentRouter) (dpid : Int) :
    (r.getTopologyData dpid).reinstallView = r.reinstallView := by
  unfold getTopologyData
  cases r.topologyDirty
  · cases r.topologyWorkerStarted <;> rfl
  · cases r.topologyWorkerStarted <;> rfl

/-- So does the topology worker. -/
@[simp] theorem reinstallView_topologyStep (r : IntelligentRouter) (input : TopologyInput) :
    (r.topologyStep input).reinstallView = r.reinstallView := by
  unfold topologyStep
  split
  · split
    · rfl
    · rfl
  · unfold switchesRead
    split
    · rfl
    · rfl
  · unfold linksRead
    split
    · rfl
    · rfl
  all_goals rfl

/-- The handler of a link event schedules a reinstallation, whatever it does to the graph. -/
theorem onLink_eq (r : IntelligentRouter) (e : LinkEvent) :
    ∃ (r₁ : IntelligentRouter) (reason : String), r₁.reinstallView = r.reinstallView ∧
      r.onLink e = r₁.scheduleRouteReinstall reason := by
  cases e with
  | add link =>
    refine ⟨_, _, ?_, rfl⟩
    split
    · rfl
    · exact reinstallView_updateActiveNet r _
  | delete link =>
    refine ⟨_, _, ?_, rfl⟩
    split
    · exact reinstallView_updateActiveNet r _
    · rfl

/-! ## The invariant -/

/-- What holds while the worker waits at a point. A worker that walks has seen every change up
    to `seen`, and none came before its walk that is not among them. -/
def PhaseInv (r : IntelligentRouter) : ReinstallPhase → Prop
  | .spawned => True
  | .quiet seen => seen ≤ r.topologyChangeSeq
  | .awaitingInitialInstall seen _ => seen ≤ r.topologyChangeSeq
  | .walking seen => seen ≤ r.topologyChangeSeq ∧
      (r.topologyChangeSeq = seen → ∃ before, r.log = before ++ [.recomputing])

/-- Nothing runs and all changes are covered, or exactly one worker runs. -/
def ReinstallInv (r : IntelligentRouter) : Prop :=
  (r.reinstallWorkerRunning = false ∧ r.reinstallWorkers = [] ∧
    (r.log.countP LogLine.isChange ≠ 0 → EndsWithWalk r.log)) ∨
  (r.reinstallWorkerRunning = true ∧ ∃ phase, r.reinstallWorkers = [phase] ∧ r.PhaseInv phase)

theorem ReinstallInv.congr {r r' : IntelligentRouter} (h : r'.reinstallView = r.reinstallView)
    (hinv : r.ReinstallInv) : r'.ReinstallInv := by
  have hseq : r'.topologyChangeSeq = r.topologyChangeSeq := congrArg Prod.fst h
  have hrunning : r'.reinstallWorkerRunning = r.reinstallWorkerRunning :=
    congrArg (fun v => v.2.1) h
  have hworkers : r'.reinstallWorkers = r.reinstallWorkers := congrArg (fun v => v.2.2.1) h
  have hlog : r'.log = r.log := congrArg (fun v => v.2.2.2) h
  have hphase : ∀ phase, r.PhaseInv phase → r'.PhaseInv phase := by
    intro phase hp
    cases phase with
    | spawned => trivial
    | quiet seen => rw [PhaseInv, hseq]; exact hp
    | awaitingInitialInstall seen waited => rw [PhaseInv, hseq]; exact hp
    | walking seen => rw [PhaseInv, hseq, hlog]; exact hp
  unfold ReinstallInv
  rw [hrunning, hworkers, hlog]
  refine hinv.imp_right fun ⟨hrun, phase, hone, hp⟩ => ⟨hrun, phase, hone, hphase phase hp⟩

/-- A change that is scheduled is one the worker has not seen. -/
theorem scheduleRouteReinstall_inv {r : IntelligentRouter} (h : r.ReinstallInv)
    (reason : String) : (r.scheduleRouteReinstall reason).ReinstallInv := by
  unfold scheduleRouteReinstall
  rcases h with ⟨hrun, hnone, -⟩ | ⟨hrun, phase, hone, hphase⟩
  · -- a new worker
    simp only [logged, hrun, hnone, Bool.false_eq_true, if_false]
    exact Or.inr ⟨rfl, .spawned, rfl, trivial⟩
  · -- the request is dropped
    simp only [logged, hrun, if_true]
    refine Or.inr ⟨rfl, phase, hone, ?_⟩
    cases phase with
    | spawned => trivial
    | quiet seen => exact Nat.le_succ_of_le hphase
    | awaitingInitialInstall seen waited => exact Nat.le_succ_of_le hphase
    | walking seen =>
      have hle : seen ≤ r.topologyChangeSeq := hphase.1
      refine ⟨Nat.le_succ_of_le hle, fun heq => ?_⟩
      have hnext : r.topologyChangeSeq + 1 = seen := heq
      omega

/-- The outcome of a step of the only worker. -/
def OutcomeInv (out : IntelligentRouter × Option ReinstallPhase) : Prop :=
  match out.2 with
  | some phase => out.1.reinstallWorkerRunning = true ∧ out.1.PhaseInv phase
  | none => out.1.reinstallWorkerRunning = false ∧ EndsWithWalk out.1.log

section Worker

variable {r : IntelligentRouter} (hrun : r.reinstallWorkerRunning = true)
include hrun

theorem quietPeriod_inv : OutcomeInv r.quietPeriod :=
  ⟨hrun, Nat.le_refl _⟩

/-- A walk that starts now starts after every change. -/
theorem startWalk_inv {seen : Nat} (hseen : seen ≤ r.topologyChangeSeq) :
    OutcomeInv (r.startWalk seen) :=
  ⟨hrun, hseen, fun _ => ⟨r.log, rfl⟩⟩

theorem awaitInitialInstall_inv {seen : Nat} (hseen : seen ≤ r.topologyChangeSeq)
    (waited : Nat) : OutcomeInv (r.awaitInitialInstall seen waited) := by
  unfold awaitInitialInstall
  split
  · exact startWalk_inv hrun hseen
  · split
    · exact ⟨hrun, hseen⟩
    · have hlogged : (r.logged (.initialInstallNotDone waited)).reinstallWorkerRunning = true :=
        hrun
      exact startWalk_inv hlogged hseen

theorem reinstallStep_inv {phase : ReinstallPhase} (hphase : r.PhaseInv phase) :
    OutcomeInv (r.reinstallStep phase) := by
  cases phase with
  | spawned => exact quietPeriod_inv hrun
  | quiet seen =>
    have hseen : seen ≤ r.topologyChangeSeq := hphase
    simp only [reinstallStep]
    split
    · split
      · exact startWalk_inv hrun hseen
      · have hlogged : (r.logged .waitingForInitialInstall).reinstallWorkerRunning = true := hrun
        exact awaitInitialInstall_inv hlogged hseen 0
    · exact quietPeriod_inv hrun
  | awaitingInitialInstall seen waited =>
    have hseen : seen ≤ r.topologyChangeSeq := hphase
    exact awaitInitialInstall_inv hrun hseen (waited + 1)
  | walking seen =>
    obtain ⟨-, hwalk⟩ := hphase
    simp only [reinstallStep]
    split
    · -- no change came during the walk
      next heq =>
      obtain ⟨before, hlog⟩ := hwalk heq
      refine ⟨rfl, before, ?_⟩
      show r.log ++ [LogLine.reinstallDone] = _
      rw [hlog, List.append_assoc]
      rfl
    · exact quietPeriod_inv (r := (r.logged .reinstallDone).logged _) hrun

end Worker

/-- A step of a worker leaves the list of workers, and logs no change. -/
theorem reinstallStep_frame (r : IntelligentRouter) (phase : ReinstallPhase) :
    (r.reinstallStep phase).1.reinstallWorkers = r.reinstallWorkers ∧
      (r.reinstallStep phase).1.log.countP LogLine.isChange =
        r.log.countP LogLine.isChange := by
  cases phase with
  | spawned => exact ⟨rfl, rfl⟩
  | quiet seen =>
    simp only [reinstallStep, awaitInitialInstall]
    repeat' split
    all_goals simp [logged, startWalk, quietPeriod, LogLine.isChange]
  | awaitingInitialInstall seen waited =>
    simp only [reinstallStep, awaitInitialInstall]
    repeat' split
    all_goals simp [logged, startWalk, LogLine.isChange]
  | walking seen =>
    simp only [reinstallStep]
    split
    all_goals simp [logged, quietPeriod, LogLine.isChange]

theorem resumeReinstall_inv {r : IntelligentRouter} (h : r.ReinstallInv) (i : Nat) :
    (r.resumeReinstall i).ReinstallInv := by
  unfold resumeReinstall
  cases hi : r.reinstallWorkers[i]? with
  | none => exact h
  | some phase =>
    rcases h with ⟨-, hnone, -⟩ | ⟨hrun, only, hone, hphase⟩
    · rw [hnone] at hi
      exact nomatch hi
    · -- the worker that continues is the only one
      rw [hone] at hi
      obtain ⟨rfl, rfl⟩ : i = 0 ∧ only = phase := by
        cases i with
        | zero => exact ⟨rfl, Option.some.inj hi⟩
        | succ i => exact nomatch hi
      have hout := reinstallStep_inv hrun hphase
      have hworkers := (reinstallStep_frame r only).1
      simp only
      generalize r.reinstallStep only = out at hout hworkers
      obtain ⟨r', next⟩ := out
      have hlist : r'.reinstallWorkers = [only] := hworkers.trans hone
      cases next with
      | some next =>
        refine Or.inr ⟨hout.1, next, ?_, ?_⟩
        · show r'.reinstallWorkers.set 0 next = [next]
          rw [hlist]
          rfl
        · cases next <;> exact hout.2
      | none =>
        refine Or.inl ⟨hout.1, ?_, fun _ => hout.2⟩
        show r'.reinstallWorkers.eraseIdx 0 = []
        rw [hlist]
        rfl

/-- Every event keeps the invariant. -/
theorem step_reinstallInv {r : IntelligentRouter} (h : r.ReinstallInv) (e : RouterEvent) :
    (r.step e).ReinstallInv := by
  cases e with
  | link e =>
    obtain ⟨r₁, reason, hview, heq⟩ := onLink_eq r e
    show (r.onLink e).ReinstallInv
    rw [heq]
    exact scheduleRouteReinstall_inv (h.congr hview) reason
  | switchEnter dpid => exact h.congr (reinstallView_getTopologyData r dpid)
  | reinstall i => exact resumeReinstall_inv h i
  | initialInstallDone => exact h.congr rfl
  | fallBackToDynamic => exact h.congr rfl
  | topology input => exact h.congr (reinstallView_topologyStep r input)

/-! ## Changes and log lines -/

theorem countChanges_scheduleRouteReinstall (r : IntelligentRouter) (reason : String) :
    (r.scheduleRouteReinstall reason).log.countP LogLine.isChange =
      r.log.countP LogLine.isChange + 1 := by
  have hlog : (r.scheduleRouteReinstall reason).log = r.log ++ [.topologyChanged reason] := by
    unfold scheduleRouteReinstall
    simp only
    split
    · rfl
    · rfl
  rw [hlog, List.countP_append]
  rfl

theorem countChanges_resumeReinstall (r : IntelligentRouter) (i : Nat) :
    (r.resumeReinstall i).log.countP LogLine.isChange = r.log.countP LogLine.isChange := by
  unfold resumeReinstall
  split
  · rfl
  · next phase _ =>
    have hphase := (reinstallStep_frame r phase).2
    generalize r.reinstallStep phase = out at hphase
    obtain ⟨r', next⟩ := out
    cases next <;> exact hphase

/-- Every change is logged, and nothing else is logged as one. -/
theorem countChanges_step (r : IntelligentRouter) (e : RouterEvent) :
    (r.step e).log.countP LogLine.isChange =
      r.log.countP LogLine.isChange + if e.isChange then 1 else 0 := by
  cases e with
  | link e =>
    obtain ⟨r₁, reason, hview, heq⟩ := onLink_eq r e
    have hlog : r₁.log = r.log := congrArg (fun v => v.2.2.2) hview
    show (r.onLink e).log.countP LogLine.isChange = _
    rw [heq, countChanges_scheduleRouteReinstall, hlog]
    rfl
  | switchEnter dpid =>
    have hview := reinstallView_getTopologyData r dpid
    exact congrArg (fun v => v.2.2.2.countP LogLine.isChange) hview
  | reinstall i => exact countChanges_resumeReinstall r i
  | initialInstallDone => rfl
  | fallBackToDynamic => rfl
  | topology input =>
    have hview := reinstallView_topologyStep r input
    exact congrArg (fun v => v.2.2.2.countP LogLine.isChange) hview

theorem countChanges_run (r : IntelligentRouter) (es : List RouterEvent) :
    (GuardedRun.run step r es).log.countP LogLine.isChange =
      r.log.countP LogLine.isChange + es.countP RouterEvent.isChange := by
  induction es generalizing r with
  | nil => rfl
  | cons e es ih =>
    rw [GuardedRun.run_cons, ih, countChanges_step, List.countP_cons]
    omega

end IntelligentRouter

end Ndtwin.Router

namespace Ndtwin.Spec

open Ndtwin.Router

/-- In every interleaving of the handlers and the workers at most one reinstall worker runs, and
    when none runs after a change, the log ends with a walk of the worker that started after
    every change of the run had been logged. -/
theorem no_change_lost (es : List RouterEvent) :
    (GuardedRun.run IntelligentRouter.step {} es).reinstallWorkers.length ≤ 1 ∧
    ((GuardedRun.run IntelligentRouter.step {} es).reinstallWorkers = [] →
      (∃ e ∈ es, e.isChange) →
      ∃ before, (GuardedRun.run IntelligentRouter.step {} es).log =
          before ++ [.recomputing, .reinstallDone] ∧
        before.countP LogLine.isChange = es.countP RouterEvent.isChange) := by
  have hstart : ({} : IntelligentRouter).log.countP LogLine.isChange = 0 := rfl
  have hinit : ({} : IntelligentRouter).ReinstallInv :=
    Or.inl ⟨rfl, rfl, fun h => absurd hstart h⟩
  have hinv : (GuardedRun.run IntelligentRouter.step {} es).ReinstallInv :=
    GuardedRun.run_of_step IntelligentRouter.ReinstallInv
      (fun _ e h => IntelligentRouter.step_reinstallInv h e) hinit es
  have hcount := IntelligentRouter.countChanges_run {} es
  rw [hstart, Nat.zero_add] at hcount
  rcases hinv with ⟨-, hnone, hwalk⟩ | ⟨-, phase, hone, -⟩
  · refine ⟨by rw [hnone]; exact Nat.zero_le 1, fun _ hchange => ?_⟩
    have hpos : 0 < es.countP RouterEvent.isChange := List.countP_pos_iff.mpr hchange
    obtain ⟨before, hlog⟩ := hwalk (by omega)
    refine ⟨before, hlog, ?_⟩
    rw [← hcount, hlog, List.countP_append]
    rfl
  · refine ⟨by rw [hone]; exact Nat.le_refl 1, fun hnone => ?_⟩
    rw [hone] at hnone
    exact nomatch hnone

/-- A link comes up, and goes down again while the routes are computed. -/
def linkFlapsDuringWalk : List RouterEvent :=
  let link : Link := { src := { dpid := 1, portNo := 1 }, dst := { dpid := 2, portNo := 1 } }
  [.initialInstallDone, .link (.add link), .reinstall 0, .reinstall 0, .link (.delete link),
    .reinstall 0, .reinstall 0, .reinstall 0]

theorem no_change_lost_linkFlapsDuringWalk :
    ∃ before, (GuardedRun.run IntelligentRouter.step {} linkFlapsDuringWalk).log =
        before ++ [.recomputing, .reinstallDone] ∧
      before.countP LogLine.isChange = 2 :=
  (no_change_lost linkFlapsDuringWalk).2 rfl ⟨_, List.mem_cons_of_mem _ List.mem_cons_self, rfl⟩

end Ndtwin.Spec

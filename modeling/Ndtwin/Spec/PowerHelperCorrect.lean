import Ndtwin.ForStd.Run
import Ndtwin.Tools.P4PowerHelper

/-!
# Several power helpers and one manifest

An invocation writes back the whole manifest that it read at its start, with the pid of its own
switch changed. The manifest keeps the pids that others recorded exactly as long as no copy that is
written back is out of date.

## Key results

- `World.Inv.step`: what a step keeps when the copy it writes back is up to date
- `manifest_kept_iff`: in a run, the pids stay right exactly when every copy is
-/

namespace Ndtwin.Tools

/-! ## What should hold -/

/-- The manifest has the pids that were recorded, of a switch on which no invocation is running the
    process that the last one left running, and no switch was reported stopped while a process that
    the helper launched for it was running. -/
structure World.Good (w : World) : Prop where
  recorded : ∀ name, pidOf w.manifest name = w.recorded name
  left : ∀ name, w.invocations.lookup name = none → pidOf w.manifest name = w.left name
  honest : ∀ r ∈ w.reports, r.outcome = .alreadyStopped → r.running = false

/-- The copy that the next step writes back. -/
def Phase.copy? : Phase → Option Copy
  | .off (.save c _) => some c
  | .on (.save c _ _) => some c
  | .on (.clear c _) => some c
  | _ => none

/-- When an invocation writes the manifest back, its copy has the pids of the other switches as
    they are in the file. -/
def SavesCurrent (w : World) : Action → Prop
  | .advance name _ => ∀ ph c, w.invocations.lookup name = some ph → ph.copy? = some c →
      ∀ other, other ≠ name → pidOf c.manifest other = pidOf w.manifest other
  | _ => True

/-! ## One switch -/

/-- The processes that were launched for a switch. -/
def launched (procs : AssocMap Int Proc) (name : String) (pid : Int) (proc : Proc) : Prop :=
  procs.lookup pid = some proc ∧ proc.startedFor = some name

/-- The only one there can be is recorded, and looks like a switch. -/
def Recorded (pid : Json) (run : Int → Proc → Prop) : Prop :=
  ∀ p proc, run p proc → pid = .int p ∧ 2 ≤ p ∧ proc.comm = expectedComm

def Nobody (run : Int → Proc → Prop) : Prop := ∀ p proc, ¬run p proc

theorem Nobody.recorded {pid : Json} {run : Int → Proc → Prop} (h : Nobody run) :
    Recorded pid run := fun p proc hrun => absurd hrun (h p proc)

/-- What holds of a switch while its invocation is in a phase: of the pid in the manifest, the pid
    that the last invocation left, and the processes that were launched. -/
def SwitchInv (pid left : Json) (run : Int → Proc → Prop) : Option Phase → Prop
  | none => pid = left ∧ Recorded pid run
  | some (.off .load) => pid = left ∧ Recorded pid run
  | some (.off (.probe _ p)) => pid = left ∧ Recorded pid run ∧ Python.asInt? pid = some p
  | some (.off (.comm _ p)) => pid = left ∧ Recorded pid run ∧ Python.asInt? pid = some p
  | some (.off (.cmdline _ p)) => pid = left ∧ Recorded pid run ∧ Python.asInt? pid = some p
  | some (.off (.signal _ p)) => pid = left ∧ Recorded pid run ∧ Python.asInt? pid = some p
  | some (.off (.poll _ p)) => pid = left ∧ Recorded pid run ∧ Python.asInt? pid = some p
  | some (.off (.save _ report)) => pid = left ∧ Nobody run ∧ report.leaves = some .null
  | some (.on .load) => pid = left ∧ Recorded pid run
  | some (.on (.guard c)) => pid = left ∧ Recorded pid run ∧ c.entry.get "pid" = pid
  | some (.on (.port _ _)) => pid = left ∧ Nobody run
  | some (.on (.launch _ _)) => pid = left ∧ Nobody run
  | some (.on (.save _ _ p)) => pid = left ∧ Recorded (.int p) run
  | some (.on (.poll _ _ p)) => pid = .int p ∧ Recorded pid run
  | some (.on (.clear _ _)) => Nobody run

/-- With fewer processes it still holds. -/
theorem SwitchInv.mono {pid left : Json} {run run' : Int → Proc → Prop} {ph : Option Phase}
    (hrun : ∀ p proc, run' p proc → run p proc) (h : SwitchInv pid left run ph) :
    SwitchInv pid left run' ph := by
  have hrecorded : ∀ pid, Recorded pid run → Recorded pid run' :=
    fun pid h p proc hp => h p proc (hrun p proc hp)
  have hnobody : Nobody run → Nobody run' := fun h p proc hp => h p proc (hrun p proc hp)
  -- the phases by what they know: a recorded process, nobody, or the copy they work on
  match ph with
  | none | some (.off .load) | some (.on .load) | some (.on (.save ..)) | some (.on (.poll ..)) =>
    exact ⟨h.1, hrecorded _ h.2⟩
  | some (.off (.probe ..)) | some (.off (.comm ..)) | some (.off (.cmdline ..))
  | some (.off (.signal ..)) | some (.off (.poll ..)) | some (.on (.guard ..)) =>
    exact ⟨h.1, hrecorded _ h.2.1, h.2.2⟩
  | some (.off (.save ..)) => exact ⟨h.1, hnobody h.2.1, h.2.2⟩
  | some (.on (.port ..)) | some (.on (.launch ..)) => exact ⟨h.1, hnobody h.2⟩
  | some (.on (.clear ..)) => exact hnobody h

/-! ## The world -/

structure World.Inv (w : World) : Prop where
  recorded : ∀ name, pidOf w.manifest name = w.recorded name
  honest : ∀ r ∈ w.reports, r.outcome = .alreadyStopped → r.running = false
  switch : ∀ name, SwitchInv (pidOf w.manifest name) (w.left name) (launched w.procs name)
    (w.invocations.lookup name)

theorem World.Inv.good {w : World} (h : w.Inv) : w.Good where
  recorded := h.recorded
  left name hname := by
    have hswitch := h.switch name
    rw [hname] at hswitch
    exact hswitch.1
  honest := h.honest

theorem Copy.pidOf_setPid (c : Copy) (name other : String) (pid : Json) :
    pidOf (c.setPid name pid).manifest other =
      if other = name then pid else pidOf c.manifest other := by
  rw [pidOf, getEntry, Copy.setPid, AssocMap.lookup_set]
  by_cases hother : other = name
  · rw [if_pos hother, if_pos hother]
    show (Entry.get (c.entry.set "pid" pid) "pid") = pid
    rw [Entry.get, AssocMap.lookup_set, if_pos rfl, Option.getD_some]
  · rw [if_neg hother, if_neg hother, pidOf, getEntry]

theorem launchedFor_eq_false {procs : AssocMap Int Proc} {name : String}
    (h : Nobody (launched procs name)) : launchedFor procs name = false := by
  rw [launchedFor, List.any_eq_false]
  intro p hp
  have hlookup := AssocMap.mem_toPairs.mp hp
  exact fun hstarted => h p.1 p.2 ⟨hlookup, of_decide_eq_true hstarted⟩

variable {w : World} {name : String}

/-- An invocation goes on. -/
theorem World.Inv.goto (h : w.Inv) {ph : Phase}
    (hph : SwitchInv (pidOf w.manifest name) (w.left name) (launched w.procs name) (some ph)) :
    (w.apply name { next := .inl ph }).Inv where
  recorded := h.recorded
  honest := h.honest
  switch other := by
    show SwitchInv _ _ _ ((w.invocations.insert name ph).lookup other)
    rw [AssocMap.lookup_insert_eq]
    split
    · next heq =>
      subst heq
      exact hph
    · exact h.switch other

/-- An invocation ends. -/
theorem World.Inv.finish (h : w.Inv) {o : Outcome}
    (hleft : pidOf w.manifest name = o.leaves.getD (w.left name))
    (hrecorded : Recorded (pidOf w.manifest name) (launched w.procs name))
    (hhonest : o = .alreadyStopped → Nobody (launched w.procs name)) :
    (w.apply name (.finish o)).Inv where
  recorded := h.recorded
  honest r hr hstopped := by
    rcases List.mem_append.mp hr with hr | hr
    · exact h.honest r hr hstopped
    · -- the report of this invocation
      rw [List.mem_singleton.mp hr] at hstopped ⊢
      exact launchedFor_eq_false (hhonest hstopped)
  switch other := by
    show SwitchInv _ (if other = name then o.leaves.getD (w.left name) else w.left other) _
      ((w.invocations.erase name).lookup other)
    rw [AssocMap.lookup_erase_eq]
    split
    · next heq =>
      subst heq
      exact ⟨hleft, hrecorded⟩
    · exact h.switch other

/-- The entry of the switch was cleared and written back, and the invocation ends. -/
theorem World.Inv.clear (h : w.Inv) {c : Copy} {o : Outcome}
    (hcurrent : ∀ other, other ≠ name → pidOf c.manifest other = pidOf w.manifest other)
    (hnobody : Nobody (launched w.procs name)) (hleaves : o.leaves = some .null) :
    (w.apply name (clearAndFinish c name o)).Inv where
  recorded other := by
    show pidOf (c.setPid name .null).manifest other =
      if other = name then pidOf (c.setPid name .null).manifest name else w.recorded other
    split
    · next heq => rw [heq]
    · -- the copy has the other entries as the file has them
      next hne => rw [c.pidOf_setPid, if_neg hne, hcurrent other hne, h.recorded]
  honest r hr hstopped := by
    rcases List.mem_append.mp hr with hr | hr
    · exact h.honest r hr hstopped
    · rw [List.mem_singleton.mp hr]
      exact launchedFor_eq_false hnobody
  switch other := by
    show SwitchInv (pidOf (c.setPid name .null).manifest other)
      (if other = name then o.leaves.getD (w.left name) else w.left other)
      (launched w.procs other) ((w.invocations.erase name).lookup other)
    rw [AssocMap.lookup_erase_eq, c.pidOf_setPid, hleaves, Option.getD_some]
    split
    · next heq =>
      subst heq
      exact ⟨rfl, hnobody.recorded⟩
    · next hne =>
      rw [hcurrent other hne]
      exact h.switch other

/-- A pid was recorded and written back. -/
theorem World.Inv.save (h : w.Inv) {c : Copy} {port pid : Int}
    (hcurrent : ∀ other, other ≠ name → pidOf c.manifest other = pidOf w.manifest other)
    (hrecorded : Recorded (.int pid) (launched w.procs name)) :
    (w.apply name { next := .inl (.on (.poll (c.setPid name (.int pid)) port pid))
                    save := some (c.setPid name (.int pid)).manifest }).Inv where
  recorded other := by
    show pidOf (c.setPid name (.int pid)).manifest other =
      if other = name then pidOf (c.setPid name (.int pid)).manifest name else w.recorded other
    split
    · next heq => rw [heq]
    · next hne => rw [c.pidOf_setPid, if_neg hne, hcurrent other hne, h.recorded]
  honest := h.honest
  switch other := by
    show SwitchInv (pidOf (c.setPid name (.int pid)).manifest other) (w.left other)
      (launched w.procs other) ((w.invocations.insert name _).lookup other)
    rw [AssocMap.lookup_insert_eq, c.pidOf_setPid]
    split
    · next heq =>
      subst heq
      exact ⟨rfl, hrecorded⟩
    · next hne =>
      rw [hcurrent other hne]
      exact h.switch other

/-- A process was launched. -/
theorem World.Inv.launch (h : w.Inv) {c : Copy} {port pid : Int} {args : List String}
    (hleft : pidOf w.manifest name = w.left name) (hpid : 2 ≤ pid)
    (hfree : w.procs.lookup pid = none) (hnobody : Nobody (launched w.procs name)) :
    (w.apply name { next := .inl (.on (.save c port pid))
                    launch := some (pid, ⟨expectedComm, args, some name⟩) }).Inv where
  recorded := h.recorded
  honest := h.honest
  switch other := by
    show SwitchInv (pidOf w.manifest other) (w.left other)
      (launched (w.procs.insert pid ⟨expectedComm, args, some name⟩) other)
      ((w.invocations.insert name _).lookup other)
    rw [AssocMap.lookup_insert_eq]
    -- only the new process is launched for the switch, and the others keep theirs
    have hrun : ∀ p proc,
        launched (w.procs.insert pid ⟨expectedComm, args, some name⟩) other p proc →
          launched w.procs other p proc ∨
            (p = pid ∧ other = name ∧ proc.comm = expectedComm) := by
      intro p proc ⟨hlookup, hstarted⟩
      rw [AssocMap.lookup_insert_eq] at hlookup
      split at hlookup
      · next heq =>
        obtain rfl := Option.some.inj hlookup
        exact .inr ⟨heq, (Option.some.inj hstarted).symm, rfl⟩
      · exact .inl ⟨hlookup, hstarted⟩
    split
    · next heq =>
      subst heq
      refine ⟨hleft, fun p proc hp => ?_⟩
      rcases hrun p proc hp with hp | ⟨rfl, _, hcomm⟩
      · exact absurd hp (hnobody p proc)
      · exact ⟨rfl, hpid, hcomm⟩
    · next hne =>
      refine (h.switch other).mono fun p proc hp => ?_
      exact (hrun p proc hp).resolve_right fun hnew => hne hnew.2.1

/-! ## Steps -/

/-- The process that is recorded. -/
theorem Recorded.asInt? {pid : Json} {run : Int → Proc → Prop} (h : Recorded pid run) {p : Int}
    {proc : Proc} (hrun : run p proc) : Python.asInt? pid = some p := by
  rw [(h p proc hrun).1, Python.asInt?]

theorem nobody_of_lookup {procs : AssocMap Int Proc} {pid : Json} {p : Int}
    (h : Recorded pid (launched procs name)) (hp : Python.asInt? pid = some p)
    (hlookup : procs.lookup p = none) : Nobody (launched procs name) := by
  intro q proc hrun
  obtain rfl : q = p := Option.some.inj ((h.asInt? hrun).symm.trans hp)
  exact nomatch hlookup.symm.trans hrun.1

theorem nobody_of_null {procs : AssocMap Int Proc}
    (h : Recorded .null (launched procs name)) : Nobody (launched procs name) :=
  fun q proc hrun => nomatch (h q proc hrun).1

/-- An invocation that touched no process gives up. -/
theorem World.Inv.fail (h : w.Inv) {why : Failure}
    (hleft : pidOf w.manifest name = w.left name)
    (hrecorded : Recorded (pidOf w.manifest name) (launched w.procs name))
    (hwhy : (Outcome.failed why).leaves = none) : (w.apply name (.fail why)).Inv :=
  h.finish (by rw [hwhy]; exact hleft) hrecorded fun hstopped => nomatch hstopped

theorem World.Inv.offLoaded (h : w.Inv) (hleft : pidOf w.manifest name = w.left name)
    (hrecorded : Recorded (pidOf w.manifest name) (launched w.procs name)) :
    (w.apply name (offLoaded w.manifest name)).Inv := by
  rw [Tools.offLoaded]
  cases hentry : getEntry w.manifest name with
  | none => exact h.fail hleft hrecorded rfl
  | some entry =>
    have hpid : pidOf w.manifest name = entry.get "pid" := by rw [pidOf, hentry]
    dsimp only
    split
    · -- a null pid: stopped already, and no process can be recorded under it
      next hnull =>
      rw [hnull] at hpid
      refine h.finish (o := .alreadyStopped) hpid hrecorded fun _ => nobody_of_null ?_
      rwa [← hpid]
    · split
      · exact h.fail hleft hrecorded rfl
      · next pid hint =>
        split
        · exact h.fail hleft hrecorded rfl
        · exact h.goto ⟨hleft, hrecorded, by rw [hpid, hint]⟩

theorem pidAlive_eq_ok_iff {procs : AssocMap Int Proc} {pid : Int} {alive : Bool} :
    pidAlive procs pid = .ok alive ↔ pid < 2 ^ 31 ∧ (procs.lookup pid).isSome = alive := by
  rw [pidAlive]
  split
  · next hlt =>
    rw [Except.ok.injEq, and_iff_right hlt]
  · next hge => exact ⟨fun h => (nomatch h), fun h => absurd h.1 hge⟩

/-- A step of `cmd_off`. -/
theorem World.Inv.cmdOff (h : w.Inv) (repr : Json → String) (choice : Choice) {ph : OffPhase}
    (hph : w.invocations.lookup name = some (.off ph))
    (hcurrent : ∀ c, (Phase.off ph).copy? = some c →
      ∀ other, other ≠ name → pidOf c.manifest other = pidOf w.manifest other) :
    (w.apply name (cmdOff repr name w.toMachine choice ph)).Inv := by
  have hswitch := h.switch name
  rw [hph] at hswitch
  cases ph with
  | load =>
    obtain ⟨hleft, hrecorded⟩ := hswitch
    unfold Tools.cmdOff
    dsimp only
    split
    · exact h.fail hleft hrecorded rfl
    · exact h.offLoaded hleft hrecorded
  | probe c pid =>
    obtain ⟨hleft, hrecorded, hint⟩ := hswitch
    unfold Tools.cmdOff
    dsimp only
    split
    · exact h.fail hleft hrecorded rfl
    · next hdead =>
      -- the recorded process has ended, so none of the switch is left
      have hlookup : w.procs.lookup pid = none := by simpa using (pidAlive_eq_ok_iff.mp hdead).2
      exact h.goto ⟨hleft, nobody_of_lookup hrecorded hint hlookup, rfl⟩
    · exact h.goto ⟨hleft, hrecorded, hint⟩
  | comm c pid =>
    obtain ⟨hleft, hrecorded, hint⟩ := hswitch
    unfold Tools.cmdOff
    dsimp only
    split
    · exact h.goto ⟨hleft, hrecorded, hint⟩
    · exact h.fail hleft hrecorded rfl
  | cmdline c pid =>
    obtain ⟨hleft, hrecorded, hint⟩ := hswitch
    unfold Tools.cmdOff
    dsimp only
    split
    · exact h.goto ⟨hleft, hrecorded, hint⟩
    · exact h.fail hleft hrecorded rfl
  | signal c pid =>
    obtain ⟨hleft, hrecorded, hint⟩ := hswitch
    unfold Tools.cmdOff
    dsimp only
    split
    · exact h.fail hleft hrecorded rfl
    · exact h.fail hleft hrecorded rfl
    · exact h.goto ⟨hleft, hrecorded, hint⟩
  | poll c pid =>
    obtain ⟨hleft, hrecorded, hint⟩ := hswitch
    unfold Tools.cmdOff
    dsimp only
    split
    · exact h.fail hleft hrecorded rfl
    · exact h.goto ⟨hleft, hrecorded, hint⟩
    · next hlookup => exact h.goto ⟨hleft, nobody_of_lookup hrecorded hint hlookup, rfl⟩
  -- the pid is cleared in the copy, which is written back
  | save c report =>
    obtain ⟨_, hnobody, hleaves⟩ := hswitch
    unfold Tools.cmdOff
    dsimp only
    exact h.clear (hcurrent c rfl) hnobody hleaves

theorem World.Inv.onLoaded (h : w.Inv) (hleft : pidOf w.manifest name = w.left name)
    (hrecorded : Recorded (pidOf w.manifest name) (launched w.procs name)) :
    (w.apply name (onLoaded w.manifest name)).Inv := by
  rw [Tools.onLoaded]
  cases hentry : getEntry w.manifest name with
  | none => exact h.fail hleft hrecorded rfl
  | some entry =>
    dsimp only
    split
    · exact h.fail hleft hrecorded rfl
    · exact h.goto ⟨hleft, hrecorded, by rw [pidOf, hentry]⟩

/-- The guard of `cmd_on` lets nothing pass as long as the recorded process is running. -/
theorem nobody_of_alreadyRunning {procs : AssocMap Int Proc} {entry : Entry}
    (h : Recorded (entry.get "pid") (launched procs name))
    (hpass : alreadyRunning procs entry = .ok none) : Nobody (launched procs name) := by
  intro pid proc hrun
  obtain ⟨_, hpid, hcomm⟩ := h pid proc hrun
  have hsome : (procs.lookup pid).isSome = true := by rw [hrun.1]; rfl
  -- the recorded process is alive and has the expected name, so the guard would have stopped
  have hcommOf : procComm procs pid = some expectedComm := by
    rw [procComm, hrun.1, Option.map_some, hcomm]
  rw [alreadyRunning, h.asInt? hrun] at hpass
  simp only [if_neg (not_lt.mpr hpid), pidAlive, hsome, hcommOf] at hpass
  split at hpass
  · simp [Except.map] at hpass
  · exact nomatch hpass

theorem leaves_of_launchArgs {entry : Entry} {why : Failure} (h : launchArgs entry = .error why) :
    (Outcome.failed why).leaves = none := by
  unfold launchArgs at h
  split at h
  · split at h
    · obtain rfl := Except.error.inj h
      rfl
    · dsimp only at h
      split at h
      · exact nomatch h
      · obtain rfl := Except.error.inj h
        rfl
  · obtain rfl := Except.error.inj h
    rfl

/-- A step of `cmd_on`. -/
theorem World.Inv.cmdOn (h : w.Inv) (choice : Choice) {ph : OnPhase}
    (hph : w.invocations.lookup name = some (.on ph))
    (hcurrent : ∀ c, (Phase.on ph).copy? = some c →
      ∀ other, other ≠ name → pidOf c.manifest other = pidOf w.manifest other) :
    (w.apply name (cmdOn name w.toMachine choice ph)).Inv := by
  have hswitch := h.switch name
  rw [hph] at hswitch
  cases ph with
  | load =>
    obtain ⟨hleft, hrecorded⟩ := hswitch
    unfold Tools.cmdOn
    dsimp only
    split
    · exact h.fail hleft hrecorded rfl
    · exact h.onLoaded hleft hrecorded
  -- nothing that the helper launched for the switch is running behind the guard
  | guard c =>
    obtain ⟨hleft, hrecorded, hentry⟩ := hswitch
    unfold Tools.cmdOn
    dsimp only
    split
    · exact h.fail hleft hrecorded rfl
    · exact h.fail hleft hrecorded rfl
    · next hpass =>
      split
      · exact h.fail hleft hrecorded rfl
      · exact h.goto ⟨hleft, nobody_of_alreadyRunning (by rwa [hentry]) hpass⟩
  | port c port =>
    obtain ⟨hleft, hnobody⟩ := hswitch
    unfold Tools.cmdOn
    dsimp only
    split
    · exact h.fail hleft hnobody.recorded rfl
    · exact h.goto ⟨hleft, hnobody⟩
  | launch c port =>
    obtain ⟨hleft, hnobody⟩ := hswitch
    unfold Tools.cmdOn
    dsimp only
    split
    · next hargs => exact h.fail hleft hnobody.recorded (leaves_of_launchArgs hargs)
    · -- a pid that is taken, or not a pid, is no launch
      next args pid hargs hmade =>
      split
      · next hfree =>
        obtain ⟨hpid, _, hlookup⟩ := hfree
        exact h.launch hleft hpid (Option.isNone_iff_eq_none.mp hlookup) hnobody
      · exact h.goto ⟨hleft, hnobody⟩
    · exact h.fail hleft hnobody.recorded rfl
  | save c port pid =>
    obtain ⟨_, hrecorded⟩ := hswitch
    unfold Tools.cmdOn
    dsimp only
    exact h.save (hcurrent c rfl) hrecorded
  | poll c port pid =>
    obtain ⟨hpid, hrecorded⟩ := hswitch
    unfold Tools.cmdOn
    dsimp only
    split
    · exact h.finish hpid hrecorded fun hstopped => nomatch hstopped
    · split
      · next hgone =>
        -- another process of the switch would be recorded under this pid
        have hnobody : Nobody (launched w.procs name) := by
          intro q proc hrun
          obtain rfl : q = pid := Json.int.inj ((hrecorded q proc hrun).1.symm.trans hpid)
          exact hgone (by rw [hrun.1, Option.bind_some, hrun.2])
        exact h.goto hnobody
      · split
        · exact h.finish hpid hrecorded fun hstopped => nomatch hstopped
        · exact h.goto ⟨hpid, hrecorded⟩
  -- the process ended before its port was up, and its pid is taken back
  | clear c pid =>
    unfold Tools.cmdOn
    dsimp only
    exact h.clear (hcurrent c rfl) hswitch rfl

/-! ## Runs -/

/-- A step keeps what holds if the copy that it writes back is up to date. -/
theorem World.Inv.step (h : w.Inv) (repr : Json → String) {a : Action} (hsave : SavesCurrent w a) :
    (w.step repr a).Inv := by
  cases a with
  | start name cmd =>
    rw [World.step]
    split
    · exact h
    · -- a new invocation knows what an idle switch has
      next hidle =>
      have hnone : w.invocations.lookup name = none := by simpa using hidle
      have hswitch := h.switch name
      rw [hnone] at hswitch
      have hfirst : SwitchInv (pidOf w.manifest name) (w.left name) (launched w.procs name)
          (some cmd.first) := by
        cases cmd with
        | off => exact hswitch
        | on => exact hswitch
      exact h.goto hfirst
  | advance name choice =>
    rw [World.step]
    split
    · exact h
    · next ph hph =>
      cases ph with
      | off ph => exact h.cmdOff repr choice hph fun c hc => hsave _ c hph hc
      | on ph => exact h.cmdOn choice hph fun c hc => hsave _ c hph hc
  -- a process that ends takes nothing from what is known of the others
  | exit pid =>
    refine ⟨h.recorded, h.honest, fun other => (h.switch other).mono fun p proc hrun => ?_⟩
    have hlookup : (w.procs.erase pid).lookup p = some proc := hrun.1
    rw [AssocMap.lookup_erase_eq] at hlookup
    split at hlookup
    · exact nomatch hlookup
    · exact ⟨hlookup, hrun.2⟩
  | spawn pid comm cmdline =>
    rw [World.step]
    split
    · exact h
    · refine ⟨h.recorded, h.honest, fun other => (h.switch other).mono fun p proc hrun => ?_⟩
      have hlookup : (w.procs.insert pid ⟨comm, cmdline, none⟩).lookup p = some proc := hrun.1
      rw [AssocMap.lookup_insert_eq] at hlookup
      split at hlookup
      · -- a process that the helper did not launch
        obtain rfl := Option.some.inj hlookup
        exact nomatch hrun.2
      · exact ⟨hlookup, hrun.2⟩
  | listen port => exact ⟨h.recorded, h.honest, h.switch⟩
  | unlisten port => exact ⟨h.recorded, h.honest, h.switch⟩

/-- What is written back is the copy, with the pid of its own switch changed. -/
theorem save_of_copy (repr : Json → String) (m : Machine) (choice : Choice) {ph : Phase} {c : Copy}
    (hc : ph.copy? = some c) :
    ∃ pid, (advance repr name m choice ph).save = some (c.setPid name pid).manifest := by
  match ph with
  | .off (.save _ _) | .on (.clear _ _) =>
    obtain rfl := Option.some.inj hc
    exact ⟨.null, rfl⟩
  | .on (.save _ _ pid) =>
    obtain rfl := Option.some.inj hc
    exact ⟨.int pid, rfl⟩

/-- A copy that is out of date undoes what was recorded for another switch. -/
theorem not_good_of_stale (h : w.Inv) (repr : Json → String) {a : Action}
    (hstale : ¬SavesCurrent w a) : ¬(w.step repr a).Good := by
  match a with
  | .advance name choice =>
    simp only [SavesCurrent, not_forall] at hstale
    obtain ⟨ph, c, hph, hc, other, hne, hdiffers⟩ := hstale
    obtain ⟨pid, hsave⟩ := @save_of_copy name repr w.toMachine choice ph c hc
    intro hgood
    have hrecorded := hgood.recorded other
    rw [World.step, hph] at hrecorded
    simp only [World.apply, hsave, Option.getD_some, if_neg hne, c.pidOf_setPid] at hrecorded
    -- the other entry is now that of the stale copy, and no longer what was recorded
    exact hdiffers (hrecorded.trans (h.recorded other).symm)
  | .start .. | .exit .. | .spawn .. | .listen .. | .unlisten .. => exact absurd trivial hstale

/-- The machine with no invocation running, and what the manifest says taken as it is. -/
def World.idle (m : Machine) : World where
  toMachine := m
  invocations := ∅
  recorded := pidOf m.manifest
  left := pidOf m.manifest
  reports := []

/-- In every run of invocations on different switches: the manifest names what the last invocation on
    each switch left running, keeps what others recorded, and no switch is reported stopped while a
    process that the helper launched for it is running, exactly when every copy that is written
    back is up to date. -/
theorem manifest_kept_iff (repr : Json → String) (m : Machine)
    (hrecorded : ∀ name, Recorded (pidOf m.manifest name) (launched m.procs name))
    (actions : List Action) :
    (∀ pre, pre <+: actions →
        (GuardedRun.run (World.step repr) (World.idle m) pre).Good) ↔
      GuardedRun.Guarded (World.step repr) SavesCurrent (World.idle m) actions := by
  have hidle : (World.idle m).Inv :=
    ⟨fun _ => rfl, fun r hr => absurd hr List.not_mem_nil, fun name => ⟨rfl, hrecorded name⟩⟩
  exact GuardedRun.forall_prefix_iff_guarded World.Inv
    (fun _ _ h _ hsave => h.step repr hsave) (fun _ h => h.good)
    (fun _ _ h _ hstale => not_good_of_stale h repr hstale) hidle
    (GuardedRun.guarded_true _ _ _)

/-! ## An off during an on -/

def exampleEntry (port : Int) (pid : Json) : Entry :=
  (((∅ : Entry).insert "argv" (.str "simple_switch_grpc -i 1@s1-eth1")).insert "log_file"
    (.str "/tmp/switch.log")).insert "grpc_port" (.int port) |>.insert "pid" pid

/-- Switch s1 is running with pid 100, switch s2 is stopped. -/
def twoSwitches : Machine where
  manifest := ((∅ : Manifest).insert "s1" (.entry (exampleEntry 9559 (.int 100)))).insert "s2"
    (.entry (exampleEntry 9560 .null))
  procs := (∅ : AssocMap Int Proc).insert 100
    ⟨expectedComm, ["simple_switch_grpc", "--grpc-server-addr", "0.0.0.0:9559"], none⟩
  listening := {9559}

/-- `off s1` reads the manifest, `on s2` runs from beginning to end, and `off s1` goes on. -/
def onDuringOff : List Action :=
  [.start "s1" .off, .advance "s1" .proceed, .start "s2" .on, .advance "s2" .proceed,
    .advance "s2" .proceed, .advance "s2" .proceed, .advance "s2" (.made 200),
    .advance "s2" .proceed, .listen 9560, .advance "s2" .proceed] ++
  [.advance "s1" .proceed, .advance "s1" .proceed, .advance "s1" .proceed,
    .advance "s1" .proceed, .exit 100, .advance "s1" .proceed, .advance "s1" .proceed]

/-- The world after some actions on the two switches. -/
def after (actions : List Action) : World :=
  GuardedRun.run (World.step fun _ => "") (World.idle twoSwitches) actions

/-- Both have ended, the manifest has no pid for s2, on which 200 was left running, and the next
    `off s2` reports it stopped. -/
theorem onDuringOff_undoes_pid :
    (after onDuringOff).invocations.entries = [] ∧
      pidOf (after onDuringOff).manifest "s2" ≠ (after onDuringOff).left "s2" ∧
      ∃ r ∈ (after (onDuringOff ++ [.start "s2" .off, .advance "s2" .proceed])).reports,
        r.name = "s2" ∧ r.outcome = .alreadyStopped ∧ r.running = true := by
  have hended : (after onDuringOff).invocations.entries.length = 0 := by decide +kernel
  have hpid : Python.asInt? (pidOf (after onDuringOff).manifest "s2") = none := by decide +kernel
  have hleft : Python.asInt? ((after onDuringOff).left "s2") = some 200 := by decide +kernel
  refine ⟨List.length_eq_zero_iff.mp hended, fun heq => ?_, ?_⟩
  · rw [heq, hleft] at hpid
    exact nomatch hpid
  · have hreport : (after (onDuringOff ++ [.start "s2" .off, .advance "s2" .proceed])).reports.any
        (fun r => r.name = "s2" ∧ r.outcome = .alreadyStopped ∧ r.running = true) = true := by
      decide +kernel
    obtain ⟨r, hr, hwhat⟩ := List.any_eq_true.mp hreport
    exact ⟨r, hr, of_decide_eq_true hwhat⟩

theorem twoSwitches_recorded (name : String) :
    Recorded (pidOf twoSwitches.manifest name) (launched twoSwitches.procs name) := by
  intro p proc ⟨hlookup, hstarted⟩
  rw [twoSwitches, AssocMap.lookup_insert_eq] at hlookup
  split at hlookup
  · obtain rfl := Option.some.inj hlookup
    exact nomatch hstarted
  · exact nomatch hlookup

theorem manifest_kept_iff_twoSwitches :
    (∀ pre, pre <+: onDuringOff →
        (GuardedRun.run (World.step fun _ => "") (World.idle twoSwitches) pre).Good) ↔
      GuardedRun.Guarded (World.step fun _ => "") SavesCurrent (World.idle twoSwitches)
        onDuringOff :=
  manifest_kept_iff (fun _ => "") twoSwitches twoSwitches_recorded onDuringOff

end Ndtwin.Tools

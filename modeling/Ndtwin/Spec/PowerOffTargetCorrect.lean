import Mathlib.Logic.Relation
import Ndtwin.Tools.P4PowerHelper

/-!
# Whom the power helper signals

`cmd_off` believes a recorded pid when the process is a `simple_switch_grpc` among whose
arguments the digits of the recorded gRPC port appear somewhere. Which port a process really
serves is up to the argument parser of bmv2, which is a parameter here.

Key results:
- `OffInv.step`: what is known of the recorded process in each phase
- `reaches_signal_iff`: the processes that get the signal
- `off_signals_own_iff`: when none but the named switch does
-/

namespace Ndtwin.Tools

/-- `cmd_off` goes on from one system call to the next. -/
def OffStep (repr : Json → String) (name : String) (m : Machine) (ph ph' : OffPhase) : Prop :=
  ∃ choice, (cmdOff repr name m choice ph).next = .inl (.off ph')

/-- `cmd_off` gets to a system call. -/
def OffReaches (repr : Json → String) (name : String) (m : Machine) : OffPhase → Prop :=
  Relation.ReflTransGen (OffStep repr name m) .load

/-- The pid that the manifest records for a switch is one that `cmd_off` takes. -/
structure RecordedPid (m : Machine) (name : String) (c : Copy) (pid : Int) : Prop where
  manifest : c.manifest = m.manifest
  entry : getEntry m.manifest name = some c.entry
  recorded : Python.asInt? (c.entry.get "pid") = some pid
  usable : 2 ≤ pid

variable {repr : Json → String} {name : String} {m : Machine} {c : Copy} {pid : Int}

/-- What is known of the recorded process when a phase is reached. -/
def OffInv (repr : Json → String) (name : String) (m : Machine) : OffPhase → Prop
  | .load => True
  | .probe c pid => RecordedPid m name c pid
  | .comm c pid => RecordedPid m name c pid ∧ pidAlive m.procs pid = .ok true
  | .cmdline c pid =>
    RecordedPid m name c pid ∧ pidAlive m.procs pid = .ok true ∧
      procComm m.procs pid = some expectedComm
  | .signal c pid =>
    RecordedPid m name c pid ∧ pidAlive m.procs pid = .ok true ∧
      procComm m.procs pid = some expectedComm ∧
      cmdlineIsOurs repr c.entry (((m.procs.lookup pid).map Proc.cmdline).getD []) = true
  | .poll _ _ => True
  | .save _ _ => True

/-- `cmd_off` looks at the process first, if it goes on at all. -/
theorem offLoaded_next {ph : OffPhase} (h : (offLoaded m.manifest name).next = .inl (.off ph)) :
    ∃ c pid, ph = .probe c pid ∧ RecordedPid m name c pid := by
  unfold offLoaded at h
  cases hentry : getEntry m.manifest name with
  | none => rw [hentry] at h; exact nomatch h
  | some entry =>
    rw [hentry] at h
    dsimp only at h
    split at h
    · -- the early returns before the first probe go nowhere
      exact nomatch h
    · split at h
      · exact nomatch h
      · rename_i p hp
        split at h
        · exact nomatch h
        · cases h
          exact ⟨⟨m.manifest, entry⟩, p, rfl, rfl, hentry, hp, by omega⟩

/-- A phase that goes on has done its check. -/
theorem OffInv.step {ph ph' : OffPhase} (h : OffInv repr name m ph)
    (hstep : OffStep repr name m ph ph') : OffInv repr name m ph' := by
  obtain ⟨choice, hnext⟩ := hstep
  cases ph with
  -- the manifest is read once, and the entry is taken from that copy
  | load =>
    unfold cmdOff at hnext
    dsimp only at hnext
    split at hnext
    · exact nomatch hnext
    · obtain ⟨c, pid, rfl, hrecorded⟩ := offLoaded_next hnext
      exact hrecorded
  -- a process that is gone is recorded as stopped, without a signal
  | probe c pid =>
    unfold cmdOff at hnext
    dsimp only at hnext
    split at hnext
    · exact nomatch hnext
    · cases hnext
      trivial
    · rename_i halive
      cases hnext
      exact ⟨h, halive⟩
  | comm c pid =>
    unfold cmdOff at hnext
    dsimp only at hnext
    split at hnext
    · rename_i hcomm
      cases hnext
      exact ⟨h.1, h.2, hcomm⟩
    · exact nomatch hnext
  | cmdline c pid =>
    unfold cmdOff at hnext
    dsimp only at hnext
    split at hnext
    · rename_i hours
      cases hnext
      exact ⟨h.1, h.2.1, h.2.2, hours⟩
    · exact nomatch hnext
  -- nothing is promised of the process once the signal is sent
  | signal c pid =>
    unfold cmdOff at hnext
    dsimp only at hnext
    split at hnext
    · exact nomatch hnext
    · exact nomatch hnext
    · cases hnext
      trivial
  | poll c pid =>
    unfold cmdOff at hnext
    dsimp only at hnext
    split at hnext
    · exact nomatch hnext
    · cases hnext
      trivial
    · cases hnext
      trivial
  | save c report => exact nomatch hnext

theorem OffReaches.inv {ph : OffPhase} (h : OffReaches repr name m ph) :
    OffInv repr name m ph := by
  induction h with
  | refl => trivial
  | tail _ hstep ih => exact ih.step hstep

/-- The signal is sent exactly when every check passes. -/
theorem reaches_signal_iff :
    OffReaches repr name m (.signal c pid) ↔ OffInv repr name m (.signal c pid) := by
  constructor
  · exact OffReaches.inv
  · rintro ⟨hrecorded, halive, hcomm, hours⟩
    -- the four calls before the signal, each with its check passed
    have hload : OffStep repr name m .load (.probe c pid) := by
      refine ⟨.proceed, ?_⟩
      obtain ⟨manifest, entry⟩ := c
      obtain ⟨rfl, hentry, hpid, husable⟩ := hrecorded
      simp only [cmdOff, offLoaded, hentry]
      split
      · rename_i hnull
        rw [hnull] at hpid
        exact nomatch hpid
      · rw [hpid]
        dsimp only
        rw [if_neg (by omega)]
        rfl
    have hprobe : OffStep repr name m (.probe c pid) (.comm c pid) :=
      ⟨.proceed, by simp only [cmdOff, halive]; rfl⟩
    have hcommStep : OffStep repr name m (.comm c pid) (.cmdline c pid) :=
      ⟨.proceed, by rw [cmdOff, if_pos hcomm]; rfl⟩
    have hcmdline : OffStep repr name m (.cmdline c pid) (.signal c pid) :=
      ⟨.proceed, by rw [cmdOff, if_pos hours]; rfl⟩
    exact .tail (.tail (.tail (.single hload) hprobe) hcommStep) hcmdline

/-! ## The named switch and the others -/

variable (serverPort : List String → Option Int)

/-- A `simple_switch_grpc` whose gRPC server has the port of the entry. -/
structure ServesEntry (entry : Entry) (proc : Proc) : Prop where
  comm : proc.comm = expectedComm
  base : Python.basename (proc.cmdline.headD "") = expectedName
  port : ∃ p, Python.toInt (entry.get "grpc_port") = .ok p ∧ serverPort proc.cmdline = some p

/-- Whatever gets the signal is the switch of the named entry. -/
def SignalsOwn (repr : Json → String) (name : String) (m : Machine) : Prop :=
  ∀ c pid, OffReaches repr name m (.signal c pid) → ∃ entry proc,
    getEntry m.manifest name = some entry ∧ m.procs.lookup pid = some proc ∧
      ServesEntry serverPort entry proc

/-- The recorded pid is that of a running `simple_switch_grpc` with another port or none, among
    whose arguments the digits of the port of the entry appear. -/
structure Mistakable (repr : Json → String) (name : String) (m : Machine) (entry : Entry)
    (pid : Int) (proc : Proc) : Prop where
  found : getEntry m.manifest name = some entry
  recorded : Python.asInt? (entry.get "pid") = some pid
  usable : 2 ≤ pid ∧ pid < 2 ^ 31
  running : m.procs.lookup pid = some proc
  comm : proc.comm = expectedComm
  base : Python.basename (proc.cmdline.headD "") = expectedName
  digits : ∃ arg ∈ proc.cmdline, (str repr (entry.get "grpc_port")).toList <:+: arg.toList
  other : ∀ p, Python.toInt (entry.get "grpc_port") = .ok p → serverPort proc.cmdline ≠ some p

theorem cmdlineIsOurs_iff {entry : Entry} {cmdline : List String} :
    cmdlineIsOurs repr entry cmdline = true ↔
      Python.basename (cmdline.headD "") = expectedName ∧
        ∃ arg ∈ cmdline, (str repr (entry.get "grpc_port")).toList <:+: arg.toList := by
  simp [cmdlineIsOurs]

/-- Such a process gets the signal. -/
theorem Mistakable.not_signalsOwn {entry : Entry} {proc : Proc}
    (h : Mistakable serverPort repr name m entry pid proc) :
    ¬ SignalsOwn serverPort repr name m := by
  intro hown
  have hreaches : OffReaches repr name m (.signal ⟨m.manifest, entry⟩ pid) := by
    refine reaches_signal_iff.mpr ⟨⟨rfl, h.found, h.recorded, h.usable.1⟩, ?_, ?_, ?_⟩
    · rw [pidAlive, if_pos h.usable.2, h.running]
      rfl
    · rw [procComm, h.running, Option.map_some, h.comm]
    · rw [h.running]
      exact cmdlineIsOurs_iff.mpr ⟨h.base, h.digits⟩
  -- the signalled process would serve the port of the entry
  obtain ⟨entry', proc', hentry, hproc, hserves⟩ := hown _ _ hreaches
  obtain rfl := Option.some.inj (hentry.symm.trans h.found)
  obtain rfl := Option.some.inj (hproc.symm.trans h.running)
  obtain ⟨p, hp, hport⟩ := hserves.port
  exact h.other p hp hport

/-- Only the named switch gets the signal, exactly when the recorded pid is not that of another
    one which mentions its port. -/
theorem off_signals_own_iff :
    SignalsOwn serverPort repr name m ↔
      ∀ entry pid proc, ¬ Mistakable serverPort repr name m entry pid proc := by
  constructor
  · exact fun hown entry pid proc hother => hother.not_signalsOwn serverPort hown
  · intro hnone c pid hreaches
    obtain ⟨hrecorded, halive, hcomm, hours⟩ := reaches_signal_iff.mp hreaches
    obtain ⟨proc, hproc, hname⟩ := Option.map_eq_some_iff.mp hcomm
    rw [hproc] at hours
    obtain ⟨hbase, hdigits⟩ := cmdlineIsOurs_iff.mp hours
    have hlt : pid < 2 ^ 31 := by
      unfold pidAlive at halive
      split at halive
      · assumption
      · exact nomatch halive
    refine ⟨c.entry, proc, hrecorded.entry, hproc, hname, hbase, ?_⟩
    -- every check has passed, so a process with another port is a mistakable one
    by_contra hport
    exact hnone c.entry pid proc ⟨hrecorded.entry, hrecorded.recorded, ⟨hrecorded.usable, hlt⟩,
      hproc, hname, hbase, hdigits, fun p hp hserves => hport ⟨p, hp, hserves⟩⟩

/-- The port of the last argument `host:port` behind `--grpc-server-addr`. -/
def addrPort : List String → Option Int
  | "--grpc-server-addr" :: addr :: _ =>
    Python.parseInt 10 (String.ofList (addr.toList.reverse.takeWhile (· ≠ ':')).reverse)
  | _ :: args => addrPort args
  | [] => none

/-- The entry of s1 has the port 5005 and the pid of a switch that serves port 50051. -/
def reusedPid : Machine where
  manifest := (∅ : Manifest).insert "s1"
    (.entry (((∅ : Entry).insert "grpc_port" (.int 5005)).insert "pid" (.int 100)))
  procs := (∅ : AssocMap Int Proc).insert 100
    ⟨expectedComm, ["/usr/bin/simple_switch_grpc", "--", "--grpc-server-addr", "0.0.0.0:50051"],
      none⟩
  listening := {50051}

theorem reusedPid_signalled : ¬ SignalsOwn addrPort (fun _ => "") "s1" reusedPid := by
  have hmistakable : Mistakable addrPort (fun _ => "") "s1" reusedPid
      (((∅ : Entry).insert "grpc_port" (.int 5005)).insert "pid" (.int 100)) 100
      ⟨expectedComm, ["/usr/bin/simple_switch_grpc", "--", "--grpc-server-addr", "0.0.0.0:50051"],
        none⟩ :=
    { found := rfl
      recorded := rfl
      usable := by decide
      running := rfl
      comm := rfl
      base := by decide
      digits := ⟨"0.0.0.0:50051", by simp, by decide⟩
      other := fun p hp => by
        cases hp
        decide }
  exact hmistakable.not_signalsOwn addrPort

end Ndtwin.Tools

import Mathlib.Data.Finset.Basic
import Mathlib.Data.List.Infix
import Ndtwin.ForStd.AssocMap
import Ndtwin.ForStd.Python

/-!
# The power helper

`tools/p4_power_helper.py`: one invocation stops or starts one switch. `cmd_off` and `cmd_on` are
cut at their system calls; between two of them other invocations run and processes come and go.
`save_manifest` replaces the file atomically. The texts of the failures are left out, and so are
the library path of the launch and the arguments of `main`.
-/

namespace Ndtwin.Tools

/-- `EXPECTED_NAME` -/
def expectedName : String := "simple_switch_grpc"

/-- `EXPECTED_COMM`: as much of the name as `/proc/<pid>/comm` holds. -/
def expectedComm : String := "simple_switch_g"

/-- What the manifest says of a switch. -/
abbrev Entry := AssocMap String Json

/-- A value of the manifest. -/
inductive Value where
  | entry (fields : Entry)
  | other (v : Json)

/-- The contents of the manifest. -/
abbrev Manifest := AssocMap String Value

/-- `entry.get(key)` -/
def Entry.get (entry : Entry) (key : String) : Json := (entry.lookup key).getD .null

/-- `get_entry`, without its failure. -/
def getEntry (manifest : Manifest) (name : String) : Option Entry :=
  match manifest.lookup name with
  | some (.entry fields) => some fields
  | _ => none

/-- `manifest` and `entry` of an invocation; `entry` is a part of `manifest`. -/
structure Copy where
  manifest : Manifest
  entry : Entry

/-- `entry["pid"] = pid` -/
def Copy.setPid (c : Copy) (name : String) (pid : Json) : Copy :=
  let entry := c.entry.set "pid" pid
  { manifest := c.manifest.set name (.entry entry), entry := entry }

/-- What `/proc/<pid>` says of a process, and the switch for which the helper launched it. -/
structure Proc where
  comm : String
  cmdline : List String
  startedFor : Option String
  deriving DecidableEq

/-- `proc_comm` -/
def procComm (procs : AssocMap Int Proc) (pid : Int) : Option String :=
  (procs.lookup pid).map Proc.comm

/-- `pid_alive`: `os.kill` takes a C `int`. -/
def pidAlive (procs : AssocMap Int Proc) (pid : Int) : Except Python.Error Bool :=
  if pid < 2 ^ 31 then .ok (procs.lookup pid).isSome else .error .overflowError

/-- Where an invocation calls `fail`, or ends with an exception. -/
inductive Failure where
  | cannotReadManifest
  | notInManifest
  | unusablePid
  | notOurSwitch
  | couldNotSignal
  | stillRunning (pid : Int)
  | noField (field : String)
  | alreadyRunning (pid : Int)
  | alreadyListening (port : Int)
  | argvStartsOtherwise
  | couldNotLaunch
  | exited
  | portNotOpened (pid : Int)
  | uncaught (e : Python.Error)
  deriving DecidableEq

/-- What an invocation reports at its end. -/
inductive Outcome where
  | alreadyStopped
  | stopped (pid : Int)
  | started (pid : Int)
  | failed (why : Failure)
  deriving DecidableEq

/-- Where `cmd_off` is, named after the system call that comes next. -/
inductive OffPhase where
  | load
  | probe (c : Copy) (pid : Int)
  | comm (c : Copy) (pid : Int)
  | cmdline (c : Copy) (pid : Int)
  | signal (c : Copy) (pid : Int)
  | poll (c : Copy) (pid : Int)
  | save (c : Copy) (report : Outcome)

/-- Where `cmd_on` is. -/
inductive OnPhase where
  | load
  | guard (c : Copy)
  | port (c : Copy) (port : Int)
  | launch (c : Copy) (port : Int)
  | save (c : Copy) (port pid : Int)
  | poll (c : Copy) (port pid : Int)
  | clear (c : Copy) (pid : Int)

inductive Phase where
  | off (ph : OffPhase)
  | on (ph : OnPhase)

/-- What the system does with a call where that is open: the deadline of a loop has passed,
    `Popen` made a process, and so on. -/
inductive Choice where
  | proceed
  | refuse
  | timeout
  | made (pid : Int)

/-- What an invocation does in one step: where it goes on, what it writes to the manifest, and the
    process it launches. -/
structure Effect where
  next : Phase ⊕ Outcome
  save : Option Manifest := none
  launch : Option (Int × Proc) := none

def Effect.off (ph : OffPhase) : Effect := { next := .inl (.off ph) }

def Effect.on (ph : OnPhase) : Effect := { next := .inl (.on ph) }

def Effect.finish (o : Outcome) : Effect := { next := .inr o }

def Effect.fail (why : Failure) : Effect := .finish (.failed why)

/-- The machine as an invocation sees it. -/
structure Machine where
  manifest : Manifest
  procs : AssocMap Int Proc
  listening : Finset Int

/-- `entry["pid"] = None`, `save_manifest` and the report. -/
def clearAndFinish (c : Copy) (name : String) (o : Outcome) : Effect :=
  { next := .inr o, save := some (c.setPid name .null).manifest }

/-! ## `cmd_off` -/

/-- From `load_manifest` to the first call of `pid_alive`. -/
def offLoaded (manifest : Manifest) (name : String) : Effect :=
  match getEntry manifest name with
  | none => .fail .notInManifest
  | some entry =>
    match entry.get "pid" with
    | .null => .finish .alreadyStopped
    | v =>
      match Python.asInt? v with
      | none => .fail .unusablePid
      | some pid => if pid < 2 then .fail .unusablePid else .off (.probe ⟨manifest, entry⟩ pid)

/-- `str(v)`, of which a float, a list or a dict is left to `repr`. -/
def str (repr : Json → String) : Json → String
  | .null => "None"
  | .bool b => if b then "True" else "False"
  | .int i => toString i
  | .uint n => toString n
  | .str s => s
  | v => repr v

/-- The second half of `verify_is_our_switch`. -/
def cmdlineIsOurs (repr : Json → String) (entry : Entry) (cmdline : List String) : Bool :=
  let base := Python.basename (cmdline.headD "")
  let portToken := str repr (entry.get "grpc_port")
  base = expectedName && cmdline.any fun arg => portToken.toList <:+: arg.toList

/-- `cmd_off` -/
def cmdOff (repr : Json → String) (name : String) (m : Machine) (choice : Choice) :
    OffPhase → Effect
  | .load =>
    match choice with
    | .refuse => .fail .cannotReadManifest
    | _ => offLoaded m.manifest name
  | .probe c pid =>
    match pidAlive m.procs pid with
    | .error e => .fail (.uncaught e)
    | .ok false => .off (.save c .alreadyStopped)
    | .ok true => .off (.comm c pid)
  | .comm c pid =>
    if procComm m.procs pid = some expectedComm then .off (.cmdline c pid) else .fail .notOurSwitch
  | .cmdline c pid =>
    if cmdlineIsOurs repr c.entry (((m.procs.lookup pid).map Proc.cmdline).getD []) then
      .off (.signal c pid)
    else .fail .notOurSwitch
  | .signal c pid =>
    -- a process ends some time after `SIGTERM`, or does not
    match choice, m.procs.lookup pid with
    | .refuse, _ => .fail .couldNotSignal
    | _, none => .fail .couldNotSignal
    | _, some _ => .off (.poll c pid)
  | .poll c pid =>
    match choice, m.procs.lookup pid with
    | .timeout, _ => .fail (.stillRunning pid)
    | _, some _ => .off (.poll c pid)
    | _, none => .off (.save c (.stopped pid))
  | .save c report => clearAndFinish c name report

/-! ## `cmd_on` -/

/-- From `load_manifest` to the look at the recorded process. -/
def onLoaded (manifest : Manifest) (name : String) : Effect :=
  match getEntry manifest name with
  | none => .fail .notInManifest
  | some entry =>
    match ["argv", "log_file", "grpc_port"].find? fun field => !Python.truthy (entry.get field) with
    | some field => .fail (.noField field)
    | none => .on (.guard ⟨manifest, entry⟩)

/-- The pid of a process that appears to run already. -/
def alreadyRunning (procs : AssocMap Int Proc) (entry : Entry) : Except Python.Error (Option Int) :=
  match Python.asInt? (entry.get "pid") with
  | none => .ok none
  | some pid =>
    if pid < 2 then .ok none
    else (pidAlive procs pid).map fun alive =>
      if alive && procComm procs pid = some expectedComm then some pid else none

/-- The arguments of the launch, without assignments in front of the command. -/
def launchArgs (entry : Entry) : Except Failure (List String) :=
  match entry.get "argv" with
  | .str argv =>
    match Python.shlexSplit argv with
    | .error e => .error (.uncaught e)
    | .ok args =>
      let args := args.dropWhile fun arg => '=' ∈ arg.toList ∧ arg.toList.head? ≠ some '/'
      if Python.basename (args.headD "") = expectedName then .ok args
      else .error .argvStartsOtherwise
  | _ => .error (.uncaught .attributeError)

/-- `cmd_on`. Two exceptions are not modelled: the `OverflowError` of `port_listening` for a gRPC
    port above 65535, and the `OSError` of `save_manifest`, which can raise at every save. -/
def cmdOn (name : String) (m : Machine) (choice : Choice) : OnPhase → Effect
  | .load =>
    match choice with
    | .refuse => .fail .cannotReadManifest
    | _ => onLoaded m.manifest name
  | .guard c =>
    match alreadyRunning m.procs c.entry with
    | .error e => .fail (.uncaught e)
    | .ok (some pid) => .fail (.alreadyRunning pid)
    | .ok none =>
      match Python.toInt (c.entry.get "grpc_port") with
      | .error e => .fail (.uncaught e)
      | .ok port => .on (.port c port)
  | .port c port =>
    if port ∈ m.listening then .fail (.alreadyListening port) else .on (.launch c port)
  | .launch c port =>
    match launchArgs c.entry, choice with
    | .error why, _ => .fail why
    | .ok args, .made pid =>
      -- the system gives out no pid that is in use
      if 2 ≤ pid ∧ pid < 2 ^ 31 ∧ (m.procs.lookup pid).isNone then
        { next := .inl (.on (.save c port pid))
          launch := some (pid, ⟨expectedComm, args, some name⟩) }
      else .on (.launch c port)
    | .ok _, _ => .fail .couldNotLaunch
  | .save c port pid =>
    let c := c.setPid name (.int pid)
    { next := .inl (.on (.poll c port pid)), save := some c.manifest }
  | .poll c port pid =>
    match choice with
    | .timeout => .fail (.portNotOpened pid)
    | _ =>
      -- `poll` is about the process that was launched, whoever has its pid by now
      if (m.procs.lookup pid).bind Proc.startedFor ≠ some name then .on (.clear c pid)
      else if port ∈ m.listening then .finish (.started pid)
      else .on (.poll c port pid)
  | .clear c _ => clearAndFinish c name (.failed .exited)

/-- The next step of an invocation. -/
def advance (repr : Json → String) (name : String) (m : Machine) (choice : Choice) :
    Phase → Effect
  | .off ph => cmdOff repr name m choice ph
  | .on ph => cmdOn name m choice ph

/-! ## Several invocations -/

/-- `entry.get("pid")` of a switch in the manifest. -/
def pidOf (manifest : Manifest) (name : String) : Json :=
  match getEntry manifest name with
  | some entry => entry.get "pid"
  | none => .null

/-- What the end of an invocation says of the process of its switch: the pid of the one that it left
    running, null where it left none, and nothing where it touched none. -/
def Outcome.leaves : Outcome → Option Json
  | .started pid => some (.int pid)
  | .failed (.portNotOpened pid) => some (.int pid)
  | .stopped _ => some .null
  | .alreadyStopped => some .null
  | .failed .exited => some .null
  | .failed _ => none

/-- The end of an invocation, with whether a process that the helper launched for the switch was
    running then. -/
structure Report where
  name : String
  outcome : Outcome
  running : Bool

/-- The machine and the invocations on it, at most one for a switch. The last three fields only
    record what happened: the pid that an invocation on a switch last wrote for it, what the last
    one that ended left running, and the reports. -/
structure World extends Machine where
  invocations : AssocMap String Phase
  recorded : String → Json
  left : String → Json
  reports : List Report

inductive Command where
  | off
  | on

/-- Where an invocation begins. -/
def Command.first : Command → Phase
  | .off => .off .load
  | .on => .on .load

inductive Action where
  | start (name : String) (cmd : Command)
  | advance (name : String) (choice : Choice)
  | exit (pid : Int)
  | spawn (pid : Int) (comm : String) (cmdline : List String)
  | listen (port : Int)
  | unlisten (port : Int)

/-- A process that the helper launched for a switch is running. -/
def launchedFor (procs : AssocMap Int Proc) (name : String) : Bool :=
  procs.toPairs.any fun p => p.2.startedFor = some name

/-- The world after a step of the invocation on a switch. -/
def World.apply (w : World) (name : String) (e : Effect) : World where
  manifest := e.save.getD w.manifest
  procs :=
    match e.launch with
    | some (pid, proc) => w.procs.insert pid proc
    | none => w.procs
  listening := w.listening
  invocations :=
    match e.next with
    | .inl ph => w.invocations.insert name ph
    | .inr _ => w.invocations.erase name
  recorded := fun other =>
    match e.save with
    | some manifest => if other = name then pidOf manifest name else w.recorded other
    | none => w.recorded other
  left := fun other =>
    match e.next with
    | .inr o => if other = name then o.leaves.getD (w.left name) else w.left other
    | .inl _ => w.left other
  reports :=
    match e.next with
    | .inr o => w.reports ++ [⟨name, o, launchedFor w.procs name⟩]
    | .inl _ => w.reports

/-- One step of the machine. -/
def World.step (repr : Json → String) (w : World) : Action → World
  | .start name cmd =>
    if (w.invocations.lookup name).isSome then w
    else { w with invocations := w.invocations.insert name cmd.first }
  | .advance name choice =>
    match w.invocations.lookup name with
    | none => w
    | some ph => w.apply name (advance repr name w.toMachine choice ph)
  | .exit pid => { w with procs := w.procs.erase pid }
  | .spawn pid comm cmdline =>
    if (w.procs.lookup pid).isSome then w
    else { w with procs := w.procs.insert pid ⟨comm, cmdline, none⟩ }
  | .listen port => { w with listening := insert port w.listening }
  | .unlisten port => { w with listening := w.listening.erase port }

end Ndtwin.Tools

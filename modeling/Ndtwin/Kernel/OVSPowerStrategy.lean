import Mathlib.Data.List.Basic
import Ndtwin.Kernel.HttpRoutingStrategy

/-!
# Power of an Open vSwitch bridge

`src/ndt_core/power_management/OVSPowerStrategy.cpp` for one switch, next to the passes of
`pingWorker` that mark it up or down. Power off records the ports of the bridge in the graph and
deletes the bridge; power on creates a bridge and attaches the recorded ports.

The commands run outside of the program, on the one bridge of the switch. A command can fail for
a reason of its own, and then changes nothing: a call comes with a function that says which of
its commands, counted from 0, get as far as Open vSwitch. Open vSwitch refuses a command on a
bridge that is not there, a second `add-br`, and a port that is attached already. Whether a
device is up (`ifconfig`), the datapath id and the controller are settings that no modelled
function reads back.
-/

namespace Ndtwin.Kernel

/-! ## The output of a command -/

/-- The characters that are cut off at the end of a line. -/
def isTrimmed (c : Char) : Bool := c = ' ' ∨ c = '\n' ∨ c = '\r' ∨ c = '\t'

/-- `fgets`: a line with its newline, or as much of it as there is room for; what follows. -/
def fgets : Nat → List Char → List Char × List Char
  | 0, text => ([], text)
  -- the end of the output, which needs no newline
  | _ + 1, [] => ([], [])
  | room + 1, c :: text =>
    if c = '\n' then ([c], text)
    else
      let (line, rest) := fgets room text
      (c :: line, rest)

/-- `line.erase(line.find_last_not_of(" \n\r\t") + 1)` -/
def trimEnd (line : List Char) : List Char := (line.reverse.dropWhile isTrimmed).reverse

/-- The loop that reads a pipe through `char buf[128]`; every turn but the last takes a character
    at least, so the length of the text bounds the turns. -/
def readLines : Nat → List Char → List (List Char)
  | 0, _ => []
  | _, [] => []
  | turns + 1, text =>
    let (line, rest) := fgets 127 text
    let name := trimEnd line
    -- an empty line names nothing
    if name = [] then readLines turns rest else name :: readLines turns rest

/-- A command that ran in a pipe: what it printed, and what `pclose` returned. -/
structure PipeOutput where
  text : List Char
  status : Int
  deriving DecidableEq, Repr

/-- The lines of a command that succeeded; `none` also when `popen` fails. -/
def linesOf : Option PipeOutput → Option (List (List Char))
  | none => none
  | some output =>
    if output.status ≠ 0 then none else some (readLines output.text.length output.text)

/-! ## Open vSwitch -/

/-- The name of a network interface. Linux allows 15 bytes; it is enough here that a line of the
    output fits into the buffer. -/
structure PortName where
  chars : List Char
  nonempty : chars ≠ []
  noSpace : ∀ c ∈ chars, isTrimmed c = false
  short : chars.length ≤ 126
  deriving DecidableEq, Repr

/-- The bridge of the switch with its ports, when it exists. -/
abbrev Bridge := Option (List PortName)

/-- The commands of the strategy; the bridge is the one of the switch. -/
inductive OvsCommand where
  /-- `ovs-vsctl add-br` -/
  | addBr
  /-- `ovs-vsctl set bridge … other-config:datapath-id=…` -/
  | setDatapathId
  /-- `ovs-vsctl add-port` -/
  | addPort (port : List Char)
  /-- `ovs-vsctl set-controller … tcp:127.0.0.1:6633` -/
  | setController
  /-- `ovs-vsctl del-br` -/
  | delBr
  /-- `ifconfig … up` -/
  | ifconfigUp (port : List Char)
  /-- `ifconfig … down` -/
  | ifconfigDown (port : List Char)
  deriving DecidableEq, Repr

/-- The ports that are attached. -/
def Bridge.ports (bridge : Bridge) : List PortName := bridge.getD []

/-- What a command does that reaches Open vSwitch; `none` when it is refused. -/
def OvsCommand.exec : OvsCommand → Bridge → Option Bridge
  | .addBr, none => some (some [])
  -- `add-br` without `--may-exist`
  | .addBr, some _ => none
  | .setDatapathId, some ports => some (some ports)
  | .setDatapathId, none => none
  | .addPort port, some ports =>
    if h : port ≠ [] ∧ port.all (fun c => !isTrimmed c) ∧ port.length ≤ 126 then
      if port ∈ ports.map PortName.chars then none
      else some (some (ports ++ [⟨port, h.1, by simpa using h.2.1, h.2.2⟩]))
    else none
  | .addPort _, none => none
  | .setController, some ports => some (some ports)
  | .setController, none => none
  | .delBr, some _ => some none
  | .delBr, none => none
  | .ifconfigUp _, bridge => some bridge
  | .ifconfigDown _, bridge => some bridge

/-- The bridge while a call runs its commands, and how many it has started. -/
structure Host where
  bridge : Bridge
  started : Nat
  deriving DecidableEq, Repr

/-- `executeSystemCommand` of `a && b && …`: the first command that fails ends the line. -/
def executeSystemCommand (reaches : Nat → Bool) : List OvsCommand → Host → Bool × Host
  | [], host => (true, host)
  | c :: cs, host =>
    match (if reaches host.started then c.exec host.bridge else none) with
    | some bridge => executeSystemCommand reaches cs ⟨bridge, host.started + 1⟩
    | none => (false, ⟨host.bridge, host.started + 1⟩)

/-- The command lines of a call in order, with `allOk`; a failure does not stop the next one. -/
def runCommands (reaches : Nat → Bool) : List (List OvsCommand) → Host → Bool × Host
  | [], host => (true, host)
  | line :: lines, host =>
    let (ok, host) := executeSystemCommand reaches line host
    let (allOk, host) := runCommands reaches lines host
    (ok && allOk, host)

/-- `ovs-vsctl list-ports`: a line for each port; without the bridge it prints nothing and
    exits 1. -/
def listPortsOutput (reaches : Bool) : Bridge → PipeOutput
  | some ports =>
    if reaches then ⟨ports.flatMap fun p => p.chars ++ ['\n'], 0⟩ else ⟨[], 256⟩
  | none => ⟨[], 256⟩

/-- `executeListPorts` -/
def executeListPorts (reaches : Bool) (bridge : Bridge) : Option (List (List Char)) :=
  linesOf (some (listPortsOutput reaches bridge))

/-! ## The strategy -/

/-- A switch: its vertex in the graph, and its bridge on the machine. -/
structure OvsSwitch where
  isUp : Bool
  /-- `bridgeConnectedPortsForMininet` -/
  savedPorts : List (List Char)
  bridge : Bridge
  deriving DecidableEq, Repr

namespace OvsSwitch

/-- The command lines of `powerOn`. -/
def powerOnCommands (ports : List (List Char)) : List (List OvsCommand) :=
  [.addBr, .setDatapathId] ::
    (ports.flatMap fun port => [[.addPort port], [.ifconfigUp port]]) ++ [[.setController]]

/-- The command lines of `powerOff`, once the ports are known. -/
def powerOffCommands (ports : List (List Char)) : List (List OvsCommand) :=
  (ports.map fun port => [.ifconfigDown port]) ++ [[.delBr]]

/-- `powerOn` -/
def powerOn (swName : String) (reaches : Nat → Bool) (s : OvsSwitch) : OpResult × OvsSwitch :=
  if s.isUp then (.success, s)
  else
    let (allOk, host) := runCommands reaches (powerOnCommands s.savedPorts) ⟨s.bridge, 0⟩
    if !allOk then
      -- the bridge stays half made, and the switch is still marked down
      (.failure 500 ("one or more ovs-vsctl/ifconfig commands failed while bringing up " ++ swName ++
        "; see the log for which"), { s with bridge := host.bridge })
    else (.success, { s with bridge := host.bridge, isUp := true })

/-- `powerOff`. The listing of the ports is command 0. -/
def powerOff (swName : String) (reaches : Nat → Bool) (s : OvsSwitch) : OpResult × OvsSwitch :=
  if !s.isUp then (.success, s)
  else
    match executeListPorts (reaches 0) s.bridge with
    -- nothing is deleted before the ports are known
    | none =>
      (.failure 500 ("could not read the ports of " ++ swName ++
        ", so it was left running: deleting the bridge would lose the only record of what to " ++
        "reattach on power-on"), s)
    | some ports =>
      let (allOk, host) := runCommands reaches (powerOffCommands ports) ⟨s.bridge, 1⟩
      if !allOk then
        (.failure 500 ("one or more ifconfig/ovs-vsctl commands failed while shutting down " ++
          swName ++ "; see the log for which"),
          { s with savedPorts := ports, bridge := host.bridge })
      else (.success, { isUp := false, savedPorts := ports, bridge := host.bridge })

end OvsSwitch

/-! ## Liveness -/

inductive OvsLiveness where
  | up
  | down
  | unknown
  deriving DecidableEq, Repr

/-- `ovsLivenessFor` -/
def ovsLivenessFor (bridgeName : List Char) (bridges : Option (List (List Char))) : OvsLiveness :=
  match bridges with
  | none => .unknown
  | some list => if bridgeName ∈ list then .up else .down

namespace OvsSwitch

/-- The OVS branch of a pass of `pingWorker`, with the output of `ovs-vsctl list-br`. -/
def livenessPass (swName : String) (listBr : Option PipeOutput) (s : OvsSwitch) : OvsSwitch :=
  match ovsLivenessFor swName.toList (linesOf listBr) with
  | .up => { s with isUp := true }
  | .down => { s with isUp := false }
  -- a list that could not be read says nothing
  | .unknown => s

/-- What happens to the switch. A pass may have listed the bridges some time before it marks the
    switch, so its list is any list. -/
inductive Event where
  | powerOn (reaches : Nat → Bool)
  | powerOff (reaches : Nat → Bool)
  | livenessPass (listBr : Option PipeOutput)

def step (swName : String) (s : OvsSwitch) : Event → OvsSwitch
  | .powerOn reaches => (s.powerOn swName reaches).2
  | .powerOff reaches => (s.powerOff swName reaches).2
  | .livenessPass listBr => s.livenessPass swName listBr

end OvsSwitch

end Ndtwin.Kernel

import Ndtwin.ForStd.Json
import Ndtwin.Kernel.FlowBatch
import Ndtwin.Kernel.OVSPowerStrategy
import Ndtwin.Kernel.PingWorker

/-!
# The liveness of bmv2 switches

`src/ndt_core/power_management/DeviceConfigurationAndPowerManager.cpp`: in MININET mode a pass of
`pingWorker` reads the state of the P4 switches from the proxy once, and judges every switch by
it, or by the list of bridges where the switch is none of bmv2. What it cannot tell leaves the
switch as it was. `json::parse` is a parameter.
-/

namespace Ndtwin.Kernel

namespace DeviceConfigurationAndPowerManager

open TopologyMonitor

/-- `kLldpFreshSeconds` -/
def kLldpFreshSeconds : Nat := 12

/-- `kProbeStaleSeconds` -/
def kProbeStaleSeconds : Nat := 15

/-- The decimal `mantissa * 10 ^ exponent` is more than a whole number. -/
def decimalExceeds (mantissa exponent : Int) (bound : Nat) : Bool :=
  if 0 ≤ exponent then bound < mantissa * 10 ^ exponent.toNat
  else bound * 10 ^ (-exponent).toNat < mantissa

/-- A field that is a number, nothing, or something else. The value is kept as a test: is it
    more than this? -/
inductive Field where
  | value (exceeds : Nat → Bool)
  | absent
  | malformed

/-- `read` of `p4LivenessFor` -/
def readField (entry : Json) (key : String) : Field :=
  match entry.field? key with
  | none | some .null => .absent
  | some (.int i) => .value fun bound => decide ((bound : Int) < i)
  | some (.uint n) => .value fun bound => decide (bound < n)
  | some (.float mantissa exponent) => .value (decimalExceeds mantissa exponent)
  | some _ => .malformed

/-- The verdict on a probe that failed: only a current failure counts, and not against a fresh
    beacon. -/
def failedProbeVerdict (entry : Json) : OvsLiveness :=
  let beaconVerdict : OvsLiveness :=
    match readField entry "last_lldp_age_s" with
    | .malformed => .unknown
    | .value exceeds => if exceeds kLldpFreshSeconds then .down else .unknown
    | .absent => .down
  match readField entry "probe_age_s" with
  | .malformed => .unknown
  | .value exceeds => if exceeds kProbeStaleSeconds then .unknown else beaconVerdict
  | .absent => beaconVerdict

/-- `p4LivenessFor` -/
def p4LivenessFor (dpid : UInt64) (payload : Option Json) : OvsLiveness :=
  match payload.bind fun p => p.field? "switches" with
  | some (.obj switches) =>
    match Json.field? (.obj switches) (toString dpid.toNat) with
    | some (.obj fields) =>
      match Json.field? (.obj fields) "probe_ok" with
      | some (.bool true) => .up
      | some (.bool false) => failedProbeVerdict (.obj fields)
      -- no probe has completed yet
      | _ => .unknown
    -- the proxy does not know the switch
    | _ => .unknown
  | _ => .unknown

/-- `fetchP4SwitchState`: the body of a 200 that parses. There is no output when the command could
    not be run. -/
def fetchP4SwitchState (parse : List Char → Option Json) (response : Option (List Char)) :
    Option Json :=
  match response with
  | none => none
  | some text =>
    -- the status is what follows the last line break
    let statusText := (text.reverse.takeWhile (· ≠ '\n')).reverse
    if '\n' ∉ text then none
    else if statusText ≠ "200".toList then none
    else parse (text.take (text.length - statusText.length - 1))

/-- What a verdict writes to the vertex of the switch. -/
def applyLiveness (live : Graph) (v : Nat) : OvsLiveness → Graph
  | .up => setVertexUp live v
  | .down => setVertexDown live v
  | .unknown => live

/-- What the pass reads of a switch besides its vertex. -/
structure MininetSwitch where
  switchKind : SwitchKind
  bridgeNameForMininet : List Char

/-- One vertex of a pass in MININET mode; hosts are left alone. -/
def judgeVertex (switch : Nat → MininetSwitch) (bridges : Option (List (List Char)))
    (p4SwitchState : Option Json) (live : Graph) (vertex : VertexProperties × Nat) : Graph :=
  if vertex.1.vertexType = .switch then
    match (switch vertex.2).switchKind with
    | .bmv2 => applyLiveness live vertex.2 (p4LivenessFor vertex.1.dpid p4SwitchState)
    | _ => applyLiveness live vertex.2
        (ovsLivenessFor (switch vertex.2).bridgeNameForMininet bridges)
  else live

end DeviceConfigurationAndPowerManager

end Ndtwin.Kernel

import Ndtwin.Kernel.FlowBatch
import Ndtwin.Kernel.HttpRoutingStrategy

/-!
# The routing manager

`src/ndt_core/routing_management/FlowRoutingManager.cpp`: every operation on a switch goes to the
strategy of the data plane of the switch, and to none when the switch is not known. How a request
is sent is a parameter. `Controller.cpp` hands the jobs of a burst to it one by one, and
`P4RoutingStrategy.cpp` refuses what the P4 pipeline has no tables for.
-/

namespace Ndtwin.Kernel

/-- The two strategies: Ryu's API, and the API of the P4 proxy. -/
inductive RoutingStrategy where
  | openFlow
  | p4
  deriving DecidableEq, Repr

namespace FlowRoutingManager

/-- `getStrategyForDpid`; `none` for a switch that is not in the loaded topology. -/
def getStrategyForDpid (kinds : AssocMap UInt64 SwitchKind) (dpid : UInt64) :
    Option RoutingStrategy :=
  match kinds.lookup dpid with
  | none => none
  | some .bmv2 => some .p4
  -- hardware switches speak OpenFlow too
  | some .ovs | some .hardware => some .openFlow

/-- The refusal of a switch without a strategy. -/
def noStrategy (dpid : UInt64) : OpResult :=
  .failure 404 ("no routing strategy for dpid " ++ toString dpid.toNat)

section Operations

variable {M : Type → Type} [Monad M] (kinds : AssocMap UInt64 SwitchKind)
  (post : RoutingStrategy → PostRequest → M OpResult)

/-- A request for a switch, to the strategy of the switch. -/
def postFor (dpid : UInt64) (request : PostRequest) : M OpResult :=
  match getStrategyForDpid kinds dpid with
  | none => pure (noStrategy dpid)
  | some strategy => post strategy request

/-- `deleteAnEntry` -/
def deleteAnEntry (dpid : UInt64) (matchJson : Json) (priority : Int) : M OpResult :=
  postFor kinds post dpid (HttpRoutingStrategy.deleteAnEntry dpid matchJson priority)

/-- `installAnEntry` -/
def installAnEntry (dpid : UInt64) (priority : Int) (matchJson action : Json)
    (idleTimeout : Int) : M OpResult :=
  postFor kinds post dpid
    (HttpRoutingStrategy.installAnEntry dpid priority matchJson action idleTimeout)

/-- `modifyAnEntry` -/
def modifyAnEntry (dpid : UInt64) (priority : Int) (matchJson action : Json) : M OpResult :=
  postFor kinds post dpid (HttpRoutingStrategy.modifyAnEntry dpid priority matchJson action)

/-- One job of the loop of the sender in `Controller`. -/
def sendJob (job : FlowJob) : M OpResult :=
  match job.op with
  | .install =>
    installAnEntry kinds post job.dpid job.priority job.match job.actions job.idleTimeout
  | .modify => modifyAnEntry kinds post job.dpid job.priority job.match job.actions
  | .delete => deleteAnEntry kinds post job.dpid job.match job.priority

end Operations

end FlowRoutingManager

end Ndtwin.Kernel

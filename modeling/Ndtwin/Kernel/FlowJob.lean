import Ndtwin.ForStd.Json
import Mathlib.Data.List.Destutter
import Mathlib.Data.List.Sort

/-!
# Flow jobs

`include/ndt_core/routing_management/FlowJob.hpp`: one requested change of a flow table, the
check of the shape of a requested entry, and the split of a batch by whether the switch of an
entry is known.
-/

namespace Ndtwin.Kernel

inductive FlowOp where
  | install
  | modify
  | delete
  deriving DecidableEq, Repr

/-- A unit of work for the southbound side. `priority` and `idleTimeout` are `int`. -/
structure FlowJob where
  dpid : UInt64
  op : FlowOp
  priority : Int
  «match» : Json
  actions : Json
  idleTimeout : Int := 0
  deriving Repr

/-- `describeFlowEntryShapeProblem`: why an entry cannot become a rule; empty if it can. -/
def describeFlowEntryShapeProblem (entry : Json) (op : FlowOp) : String :=
  if ¬ entry.isObject then "entry is not a JSON object"
  else
    match entry.field? "dpid" with
    | none => "missing \"dpid\""
    | some dpid =>
      let nonNegativeInteger : Bool :=
        match dpid with
        | .uint _ => true
        | .int i => 0 ≤ i
        | _ => false
      if ¬ nonNegativeInteger then "\"dpid\" must be a non-negative integer"
      else if op ≠ .delete ∧ (entry.field? "actions").isNone then
        "missing \"actions\" -- send \"actions\": [] if a drop rule is what you meant"
      else ""

/-- `FlowBatchPartition` -/
structure FlowBatchPartition where
  accepted : List FlowJob := []
  unknownDpids : List UInt64 := []
  rejectedEntries : Nat := 0

/-- One job of the loop of `partitionFlowBatchByKnownDpid`. -/
def FlowBatchPartition.add (dpidIsKnown : UInt64 → Bool) (out : FlowBatchPartition)
    (job : FlowJob) : FlowBatchPartition :=
  if dpidIsKnown job.dpid then { out with accepted := out.accepted ++ [job] }
  else
    { out with
      unknownDpids := out.unknownDpids ++ [job.dpid]
      rejectedEntries := out.rejectedEntries + 1 }

/-- `partitionFlowBatchByKnownDpid` -/
def partitionFlowBatchByKnownDpid (jobs : List FlowJob) (dpidIsKnown : UInt64 → Bool) :
    FlowBatchPartition :=
  let out := jobs.foldl (FlowBatchPartition.add dpidIsKnown) {}
  { out with unknownDpids := (out.unknownDpids.insertionSort (· ≤ ·)).destutter (· ≠ ·) }

end Ndtwin.Kernel

import Ndtwin.Kernel.Classifier
import Ndtwin.Kernel.FlowTables

/-!
# The poll of the flow tables

`src/ndt_core/power_management/DeviceConfigurationAndPowerManager.cpp`,
`fetchOpenFlowTablesInternal` and `openflowTablesUpdateWorker`: every switch that is up is asked
for its flow table, the replies that can be believed are handed to the classifier, and the cache
is replaced by what the poll collected. The failure counters, which only decide what is logged,
are left out. `json::parse` is a parameter.
-/

namespace Ndtwin.Kernel

/-- `FlowStatsVerdict` -/
inductive FlowStatsVerdict where
  | usable
  | suspectTimedOut
  | reportedFailure
  deriving DecidableEq, Repr

/-- `kFlowStatsSuspectSeconds`, in nanoseconds. -/
def kFlowStatsSuspect : Nat := 500000000

/-- `classifyFlowStatsReply` -/
def classifyFlowStatsReply (flows : Json) (elapsed : Nat) : FlowStatsVerdict :=
  if flows.isObject && ((flows.field? "error").isSome || (flows.field? "detail").isSome) then
    .reportedFailure
  else
    -- any entry at all makes this a real observation
    let hasEntries :=
      match flows with
      | .obj fields => fields.any fun entry => entry.2.isArray && !entry.2.isEmpty
      | .arr elems => !elems.isEmpty
      | _ => false
    if hasEntries then .usable
    else if kFlowStatsSuspect ≤ elapsed then .suspectTimedOut
    else .usable

/-- What the request for one switch brings: the output of `curl`, or none when `popen` fails, and
    the round trip in nanoseconds. -/
structure FlowStatsReply where
  raw : Option String
  elapsed : Nat

/-- What ends a poll early. -/
inductive PollError where
  | popen
  | classifier (e : ParseError)

/-- The object that is stored for a switch. -/
def SwitchTable.toJson (t : SwitchTable) : Json :=
  .obj [("dpid", .uint t.dpid.toNat), ("flows", t.flows)]

namespace FlowStatsPoll

variable (parse : String → Option Json) (ord : SubtableOrder)

/-- One turn of the loop of `fetchOpenFlowTablesInternal`. -/
def fetchVertex (replies : Nat → FlowStatsReply) (result : List SwitchTable)
    (v : VertexProperties × Nat) : EStateM PollError Classifier (List SwitchTable) :=
  let props := v.1
  if props.vertexType ≠ .switch ∨ props.isUp = false then return result
  else
    let reply := replies v.2
    match reply.raw with
    | none => throw .popen
    | some raw =>
      -- the control plane is absent; "tables are left as they were"
      if raw.isEmpty then return result
      else
        match parse raw with
        | none => return result
        | some flows =>
          match classifyFlowStatsReply flows reply.elapsed with
          | .reportedFailure | .suspectTimedOut => return result
          | .usable => do
            let result := result ++ [{ dpid := props.dpid, flows := flows }]
            EStateM.adaptExcept .classifier
              (Classifier.updateFromQueriedTables ord (.arr (result.map SwitchTable.toJson)))
            return result

/-- `fetchOpenFlowTablesInternal`: the replies are indexed by the vertex they are for. -/
def fetchOpenFlowTablesInternal (replies : Nat → FlowStatsReply) (graph : Graph) :
    EStateM PollError Classifier (List SwitchTable) :=
  graph.vertices.zipIdx.foldlM (fetchVertex parse ord replies) []

/-- What a pass of the worker reads and writes: `m_cachedOpenFlowTables` and `m_classifier`. -/
structure Caches where
  cachedOpenFlowTables : List SwitchTable
  classifier : Classifier

/-- A pass of `openflowTablesUpdateWorker`; an exception is caught and logged. -/
def openflowTablesUpdate (replies : Nat → FlowStatsReply) (graph : Graph) (caches : Caches) :
    Caches :=
  match fetchOpenFlowTablesInternal parse ord replies graph caches.classifier with
  | .ok newTables c => { cachedOpenFlowTables := newTables, classifier := c }
  | .error _ c => { caches with classifier := c }

end FlowStatsPoll

end Ndtwin.Kernel

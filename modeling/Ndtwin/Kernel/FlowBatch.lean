import Ndtwin.ForStd.AssocMap
import Ndtwin.Kernel.FlowJob
import Ndtwin.Kernel.FlowTables
import Ndtwin.Kernel.HttpSession

/-!
# Flow requests of the northbound API

`src/ndt_core/http/HttpSession.cpp`, `processFlowBatch`: the entries to install, modify and
delete are checked, turned into jobs, split by whether the kernel knows their switch, handed to
the dispatcher and applied to the cached tables, in this order. An exception that leaves
`processFlowBatch` is answered by `buildResponse`.
-/

namespace Ndtwin.Kernel

inductive SwitchKind where
  | ovs
  | bmv2
  | hardware
  deriving DecidableEq, Repr

/-- What a flow request reads of the topology: the index of the data planes, and the graph. -/
structure FlowTopology where
  dpidToSwitchKind : AssocMap UInt64 SwitchKind
  graph : Graph

/-- `getSwitchKind(dpid).has_value()` -/
def FlowTopology.dpidIsKnown (topo : FlowTopology) (dpid : UInt64) : Bool :=
  (topo.dpidToSwitchKind.lookup dpid).isSome

/-- What a flow request changes. -/
structure FlowBatchState where
  /-- The jobs handed to the dispatcher's `enqueue`, in order. -/
  enqueued : List FlowJob
  /-- `m_cachedOpenFlowTables` -/
  tables : List SwitchTable

/-- A program of the request handler. -/
abbrev RequestM := EStateM TableError FlowBatchState

namespace HttpSession

/-! ## Jobs -/

/-- `makeInstallJob` -/
def makeInstallJob (entry : Json) : Except Json.Error FlowJob := do
  let dpid ← FlowTables.entryDpid entry
  let priority ← entry.valueInt "priority" 0
  let «match» ← entry.valueJson "match" (.obj [])
  let actions ← entry.valueJson "actions" (.arr [])
  let idleTimeout ← entry.valueInt "idle_timeout" 0
  return { dpid := dpid, op := .install, priority := priority, «match» := «match»,
           actions := actions, idleTimeout := idleTimeout }

/-- `makeModifyJob` -/
def makeModifyJob (entry : Json) : Except Json.Error FlowJob := do
  let dpid ← FlowTables.entryDpid entry
  let priority ← entry.valueInt "priority" 0
  let «match» ← entry.valueJson "match" (.obj [])
  let actions ← entry.valueJson "actions" (.arr [])
  return { dpid := dpid, op := .modify, priority := priority, «match» := «match»,
           actions := actions }

/-- `makeDeleteJob` -/
def makeDeleteJob (entry : Json) : Except Json.Error FlowJob := do
  let dpid ← FlowTables.entryDpid entry
  let priority ← entry.valueInt "priority" (-1)
  let «match» ← entry.valueJson "match" (.obj [])
  return { dpid := dpid, op := .delete, priority := priority, «match» := «match»,
           actions := .null }

/-- The job of an entry, by the field it stands in. -/
def makeJob : FlowOp → Json → Except Json.Error FlowJob
  | .install => makeInstallJob
  | .modify => makeModifyJob
  | .delete => makeDeleteJob

/-! ## The request -/

/-- The name of the field whose entries ask for `op`. -/
def batchFieldName : FlowOp → String
  | .install => "install_flow_entries"
  | .modify => "modify_flow_entries"
  | .delete => "delete_flow_entries"

/-- `collectShapeProblems` for one field. -/
def collectShapeProblems (entries : List Json) (op : FlowOp) : List Json :=
  entries.zipIdx.filterMap fun (entry, i) =>
    let why := describeFlowEntryShapeProblem entry op
    if why.isEmpty then none
    else some (.obj [("field", .str (batchFieldName op)), ("index", .uint i),
      ("problem", .str why)])

/-- The numbers of a vector of dpids. -/
def dpidList (dpids : List UInt64) : Json := .arr (dpids.map fun d => .uint d.toNat)

def malformedEntries (problems : List Json) : HttpResponse where
  status := .badRequest
  body := .obj [
    ("detail", .str ("nothing was queued; these entries cannot form a rule whatever the " ++
      "switch answers, so the whole batch is rejected rather than partly applied")),
    ("entries", .arr problems),
    ("error", .str "malformed flow entry"),
    ("status", .str "error")]

def unknownDpid (unknownDpids : List UInt64) : HttpResponse where
  status := .notFound
  body := .obj [
    ("detail", .str ("these dpids are not switches in the loaded topology; check the dpid, or " ++
      "that the topology file matches the running network")),
    ("error", .str "unknown dpid"),
    ("status", .str "error"),
    ("unknown_dpids", dpidList unknownDpids)]

/-- The answer to a request whose jobs were queued; what was dropped is named. -/
def queued (accepted rejectedEntries : Nat) (unknownDpids : List UInt64) : HttpResponse where
  status := .ok
  body :=
    if 0 < rejectedEntries then
      .obj [
        ("accepted", .uint accepted),
        ("detail", .str ("some entries were dropped because their dpid is not a switch in the " ++
          "loaded topology; the rest were accepted for programming, and per-entry outcomes " ++
          "are reported in the kernel log, not in this response")),
        ("rejected", .uint rejectedEntries),
        ("rejected_dpids", dpidList unknownDpids),
        ("status", .str "queued")]
    else
      .obj [
        ("accepted", .uint accepted),
        ("detail", .str ("entries accepted for programming; per-entry outcomes are reported " ++
          "in the kernel log, not in this response")),
        ("status", .str "queued")]

/-- The jobs of all entries, or the first exception. -/
def buildJobs (ins mods dels : List Json) : Except Json.Error (List FlowJob) := do
  let installs ← ins.mapM makeInstallJob
  let modifies ← mods.mapM makeModifyJob
  let deletes ← dels.mapM makeDeleteJob
  return installs ++ modifies ++ deletes

/-- The change of the cached tables as part of a request. -/
def updateTables (graph : Graph) (j : Json) : RequestM Unit := fun s =>
  match FlowTables.updateOpenFlowTables graph j s.tables with
  | .ok _ tables => .ok () { s with tables := tables }
  | .error e tables => .error e { s with tables := tables }

/-- `processFlowBatch` -/
def processFlowBatch (topo : FlowTopology) (j : Json) : RequestM HttpResponse := do
  let ins ← EState.ofExcept (FlowTables.liftJson (FlowTables.batchField j "install_flow_entries"))
  let mods ← EState.ofExcept (FlowTables.liftJson (FlowTables.batchField j "modify_flow_entries"))
  let dels ← EState.ofExcept (FlowTables.liftJson (FlowTables.batchField j "delete_flow_entries"))
  match ins, mods, dels with
  | .arr ins, .arr mods, .arr dels =>
    let shapeProblems := collectShapeProblems ins .install ++ collectShapeProblems mods .modify ++
      collectShapeProblems dels .delete
    if ¬ shapeProblems.isEmpty then return malformedEntries shapeProblems
    else
      -- An entry may pass the shape check and still throw where its job is made.
      match buildJobs ins mods dels with
      | .error _ => return .message .badRequest "error" "Bad entry"
      | .ok jobs =>
        let partition := partitionFlowBatchByKnownDpid jobs topo.dpidIsKnown
        if partition.accepted.isEmpty ∧ 0 < partition.rejectedEntries then
          return unknownDpid partition.unknownDpids
        else
          -- The jobs are queued first: an exception of the cache comes too late for them.
          modify fun s => { s with enqueued := s.enqueued ++ partition.accepted }
          updateTables topo.graph j
          return queued partition.accepted.length partition.rejectedEntries
            partition.unknownDpids
  | _, _, _ =>
    return .message .badRequest "error"
      "install_flow_entries/modify_flow_entries/delete_flow_entries must be arrays"

/-- The request as `buildResponse` answers it. The text of a `json::exception` is left out of
    the answer. -/
def handleInstallModifyDeleteFlowEntries (topo : FlowTopology) (j : Json)
    (s : FlowBatchState) : HttpResponse × FlowBatchState :=
  match processFlowBatch topo j s with
  | .ok response s => (response, s)
  | .error (.json _) s => (.message .badRequest "error" "JSON parsing error", s)
  | .error (.runtime what) s =>
    ({ status := .internalServerError
       body := .obj [("details", .str what), ("error", .str "Internal server error")] }, s)

end HttpSession

end Ndtwin.Kernel

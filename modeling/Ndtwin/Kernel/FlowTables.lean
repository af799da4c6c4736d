import Ndtwin.ForStd.EState
import Ndtwin.ForStd.JsonUpdate
import Ndtwin.Kernel.FlowEntry
import Ndtwin.Kernel.Graph

/-!
# The cached flow tables

`src/ndt_core/power_management/DeviceConfigurationAndPowerManager.cpp`, `updateOpenFlowTables`:
the change of a flow request is made at once in the tables that the poller last fetched. What
was changed before an exception stays changed.

Both writers of the cache, the poller and this function, store one object per switch, with the
switch's `dpid` and its `flows`; the reply of the control plane is stored as `flows` without a
look at its shape.
-/

namespace Ndtwin.Kernel

/-- One element of `m_cachedOpenFlowTables`. -/
structure SwitchTable where
  dpid : UInt64
  flows : Json

/-- What `updateOpenFlowTables` can throw: a `json::exception` or a `std::runtime_error`. -/
inductive TableError where
  | json (e : Json.Error)
  | runtime (what : String)
  deriving DecidableEq, Repr

namespace FlowTables

/-- A read that throws a `json::exception`. -/
def liftJson {α : Type} : Except Json.Error α → Except TableError α
  | .ok a => .ok a
  | .error e => .error (.json e)

/-- A `std::runtime_error` is thrown for an address that is neither a number nor a dotted
    quad. -/
def parseIpv4U32 : Json → Except TableError UInt32
  | .uint n => .ok (UInt32.ofNat n)
  | .int i => .ok (UInt32.ofInt i)
  | .str s =>
    match parseIpv4AddrHost s.toList with
    | some addr => .ok addr
    | none => .error (.runtime ("invalid ipv4 string: " ++ s))
  | _ => .error (.runtime "ipv4 must be number or string")

/-- An address field of a match; 0 when it is absent. -/
def ipv4Field (m : Json) (key : String) : Except TableError UInt32 :=
  match m.field? key with
  | some v => parseIpv4U32 v
  | none => .ok 0

/-- The ports of a match, destination first, by the names that go with its protocol. -/
def portFields (m : Json) (ipProto : UInt8) : Except Json.Error (Int × Int) :=
  if ipProto = 6 then do
    let dst ← m.valueInt "tcp_dst" 0
    let src ← m.valueInt "tcp_src" 0
    return (dst, src)
  else if ipProto = 17 then do
    let dst ← m.valueInt "udp_dst" 0
    let src ← m.valueInt "udp_src" 0
    return (dst, src)
  else .ok (0, 0)

/-- The part of `extractKey` that reads the match. -/
def matchKey (m : Json) : Except TableError FlowKey := do
  let ethType ← liftJson (m.valueInt "eth_type" 0)
  let ipProto ← liftJson (m.valueInt "ip_proto" 0)
  let ipv4Dst ← ipv4Field m "ipv4_dst"
  let ipv4Src ← ipv4Field m "ipv4_src"
  let ports ← liftJson (portFields m (UInt8.ofInt ipProto))
  return {
    ethType := UInt16.ofInt ethType
    ipProto := UInt8.ofInt ipProto
    ipv4Dst := ipv4Dst
    ipv4Src := ipv4Src
    tpDst := UInt16.ofInt ports.1
    tpSrc := UInt16.ofInt ports.2 }

/-- `extractKey`: what identifies a flow. -/
def extractKey (e : Json) : Except TableError (Int × Int × FlowKey) := do
  let tableId ← liftJson (e.valueInt "table_id" 0)
  let priority ← liftJson (e.valueInt "priority" 0)
  let fk ← matchKey ((e.field? "match").getD (.obj []))
  return (tableId, priority, fk)

/-! ## Flows of a switch -/

/-- A program on `m_cachedOpenFlowTables`. -/
abbrev TablesM := EStateM TableError (List SwitchTable)

/-- The key of a switch in its `flows`. -/
def flowsKey (dpid : UInt64) : String := toString dpid.toNat

/-- `getFlowsArrayForDpid`: the position of the switch, whose flows exist from then on, or none
    for a switch that is neither cached nor in the topology. -/
def getFlowsArrayForDpid (graph : Graph) (dpid : UInt64) : TablesM (Option Nat) := do
  let tables ← get
  match tables.findIdx? fun sw => sw.dpid = dpid with
  | some i =>
    -- `sw["flows"][...]`: a key that is missing is added with null, and flows of another type
    -- throw.
    let flows ← EState.ofExcept
      (liftJson (((tables[i]?.map SwitchTable.flows).getD .null).subscript (flowsKey dpid)))
    set (tables.modify i fun sw => { sw with flows := flows })
    return some i
  | none =>
    if (graph.findSwitchByDpid dpid).isNone then return none
    else
      set (tables ++ [{ dpid := dpid, flows := .obj [(flowsKey dpid, .arr [])] }])
      return some tables.length

/-- `*flows` -/
def readFlows (i : Nat) (dpid : UInt64) (tables : List SwitchTable) : Json :=
  (tables[i]?.bind fun sw => sw.flows.field? (flowsKey dpid)).getD .null

/-- A write through the pointer. -/
def writeFlows (i : Nat) (dpid : UInt64) (v : Json) (tables : List SwitchTable) :
    List SwitchTable :=
  tables.modify i fun sw =>
    match sw.flows with
    | .obj fields => { sw with flows := .obj (Json.insertField (flowsKey dpid) v fields) }
    | _ => sw

/-! ## The three operations -/

/-- `e.at("dpid").get<uint64_t>()` -/
def entryDpid (e : Json) : Except Json.Error UInt64 := do
  (← e.atField "dpid").getUInt64

/-- The flow that an install adds. -/
def newFlow (e : Json) : Except Json.Error Json := do
  let priority ← e.valueInt "priority" 0
  let «match» ← e.valueJson "match" (.obj [])
  let actions ← e.valueJson "actions" (.arr [])
  let tableId ← e.valueInt "table_id" 0
  return .obj [("actions", actions), ("match", «match»), ("priority", .int priority),
    ("table_id", .int tableId)]

/-- `installOne` -/
def installOne (graph : Graph) (e : Json) : TablesM Unit := do
  let dpid ← EState.ofExcept (liftJson (entryDpid e))
  match ← getFlowsArrayForDpid graph dpid with
  | none => return
  | some i =>
    let flow ← EState.ofExcept (liftJson (newFlow e))
    let tables ← get
    -- `push_back` makes an array of a null, and throws for what is neither.
    let flows ← EState.ofExcept (liftJson ((readFlows i dpid tables).pushBack flow))
    set (writeFlows i dpid flows tables)

/-- A cached flow as a modify leaves it. -/
def updatedFlow (e f : Json) : Except Json.Error Json := do
  -- Everything else of the cached flow stays, its counters among it.
  let f ← f.assign "priority" (.int (← e.valueInt "priority" 0))
  let f ← f.assign "match" (← e.valueJson "match" (.obj []))
  f.assign "actions" (← e.valueJson "actions" (.arr []))

/-- The loop of `modifyOne`: the first flow with the key is changed. -/
def modifyFirst (key : Int × Int × FlowKey) (e : Json) : List Json → Except TableError (List Json)
  | [] => .ok []
  | f :: fs => do
    let fKey ← extractKey f
    if fKey = key then return (← liftJson (updatedFlow e f)) :: fs
    else return f :: (← modifyFirst key e fs)

/-- `modifyOne` -/
def modifyOne (graph : Graph) (e : Json) : TablesM Unit := do
  let dpid ← EState.ofExcept (liftJson (entryDpid e))
  let key ← EState.ofExcept (extractKey e)
  match ← getFlowsArrayForDpid graph dpid with
  | none => return
  | some i =>
    let tables ← get
    let flows := readFlows i dpid tables
    let elems ← EState.ofExcept (modifyFirst key e flows.iterate)
    set (writeFlows i dpid (flows.withElems elems) tables)

/-- `extractKey(f) == key` -/
def hasKey (key : Int × Int × FlowKey) (f : Json) : Except TableError Bool := do
  let fKey ← extractKey f
  return decide (fKey = key)

/-- `deleteOne`. A flow that `std::remove_if` has moved leaves null in its place, and `erase`
    throws for a table that is null. -/
def deleteOne (graph : Graph) (e : Json) : TablesM Unit := do
  let dpid ← EState.ofExcept (liftJson (entryDpid e))
  let key ← EState.ofExcept (extractKey e)
  match ← getFlowsArrayForDpid graph dpid with
  | none => return
  | some i =>
    let tables ← get
    let flows := readFlows i dpid tables
    match InPlace.removeIf (hasKey key) .null [] [] flows.iterate with
    | .error (err, elems) =>
      set (writeFlows i dpid (flows.withElems elems) tables)
      throw err
    | .ok kept =>
      match flows with
      | .null => throw (.json .typeError)
      | _ => set (writeFlows i dpid (flows.withElems kept) tables)

/-- The entries of one of the three fields of a request. -/
def batchField (j : Json) (key : String) : Except Json.Error Json := j.valueJson key (.arr [])

/-- `updateOpenFlowTables` -/
def updateOpenFlowTables (graph : Graph) (j : Json) : TablesM Unit := do
  let ins ← EState.ofExcept (liftJson (batchField j "install_flow_entries"))
  let mods ← EState.ofExcept (liftJson (batchField j "modify_flow_entries"))
  let dels ← EState.ofExcept (liftJson (batchField j "delete_flow_entries"))
  ins.iterate.forM (installOne graph)
  mods.iterate.forM (modifyOne graph)
  dels.iterate.forM (deleteOne graph)

end FlowTables

end Ndtwin.Kernel

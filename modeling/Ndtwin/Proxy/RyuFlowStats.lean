import Ndtwin.ForStd.Decimal
import Ndtwin.ForStd.Hex
import Ndtwin.Proxy.P4Client

/-!
# Tables in Ryu's shape

`p4_proxy/proxy_agent/ryu_flow_stats.py`: the entries read from a switch, as the body of
`/stats/flow/<dpid>` that Ryu would answer. The entries are those of `read_table_entries` in
`p4_client.py`, with the ids of the pipeline resolved to names.
-/

namespace Ndtwin.Proxy

/-! ## What is read from a switch -/

/-- A match field of an entry, by its kind. -/
inductive MatchSpec where
  | exact (value : List UInt8)
  | lpm (value : List UInt8) (prefixLen : Nat)
  | ternary (value mask : List UInt8)
  | range (low high : List UInt8)
  deriving DecidableEq, Repr

/-- `spec.get("value", b"")` -/
def MatchSpec.value : MatchSpec → List UInt8
  | .exact value | .lpm value _ | .ternary value _ => value
  | .range _ _ => []

/-- The action of an entry. -/
structure TableAction where
  name : String
  params : List (String × List UInt8)
  deriving DecidableEq, Repr

/-- The direct counter of an entry. -/
structure CounterData where
  bytes : Nat
  packets : Nat
  deriving DecidableEq, Repr

/-- An entry of `read_table_entries`. -/
structure TableEntry where
  priority : Int := 0
  isDefault : Bool := false
  matchFields : List (String × MatchSpec) := []
  action : Option TableAction := none
  counters : Option CounterData := none
  deriving DecidableEq, Repr

/-- `ipv4_forward` as it is read back. -/
def Forward.tableAction (action : Forward) : TableAction where
  name := "MyIngress.ipv4_forward"
  params := [("dstAddr", canonical action.dstAddr), ("port", canonical action.port)]

/-- An `ipv4_lpm` entry as it is read back. -/
def LpmKey.tableEntry (key : LpmKey) (action : Forward) : TableEntry where
  matchFields := [(P4Field.dstAddr.name, .lpm (canonical key.value) key.prefixLen)]
  action := some action.tableAction

/-- A `flow_5tuple` entry as it is read back. -/
def FiveTupleKey.tableEntry (key : FiveTupleKey) (action : Forward) : TableEntry where
  priority := key.priority
  matchFields := key.keys.map fun t =>
    (t.field.name, .ternary (canonical t.value) (canonical t.mask))
  action := some action.tableAction

/-- The entries of both tables. -/
def P4Switch.tableEntries (switch : P4Switch) : List TableEntry :=
  switch.ipv4Lpm.toPairs.map (fun e => e.1.tableEntry e.2) ++
    switch.flow5tuple.toPairs.map (fun e => e.1.tableEntry e.2)

/-- What a switch may answer to `read_table_entries`: its entries in any order with any counters,
    and default entries among them or not. -/
def P4Switch.Reads (switch : P4Switch) (entries : List TableEntry) : Prop :=
  ((entries.filter fun e => !e.isDefault).map fun e => { e with counters := none }).Perm
    switch.tableEntries

instance (switch : P4Switch) (entries : List TableEntry) : Decidable (switch.Reads entries) :=
  inferInstanceAs (Decidable (List.Perm _ _))

/-! ## Rendering -/

/-- `ETH_TYPE_IPV4` -/
def ethTypeIpv4 : Nat := 0x0800

/-- `FIELD_TO_RYU` -/
def fieldToRyu : List (String × String) :=
  [("hdr.ipv4.dstAddr", "nw_dst"), ("hdr.ipv4.srcAddr", "nw_src"),
    ("hdr.ipv4.protocol", "nw_proto"), ("meta.l4_src_port", "tp_src"),
    ("meta.l4_dst_port", "tp_dst"), ("standard_metadata.ingress_port", "in_port"),
    ("hdr.ethernet.dstAddr", "dl_dst")]

/-- `FORWARDING_ACTIONS` -/
def forwardingActions : List (String × String) :=
  [("MyIngress.ipv4_forward", "port"), ("MyIngress.forward_l2", "port")]

/-- `d.get(key)` of a dictionary that is written down as its items. -/
def getItem {α : Type} (items : List (String × α)) (key : String) : Option α :=
  (items.find? fun item => item.1 = key).map Prod.snd

/-- `_ipv4` -/
def ipv4Text (value : List UInt8) : String :=
  String.ofList (Decimal.dottedQuad ((Python.rjust 4 value).take 4))

/-- `_mac` -/
def macText (value : List UInt8) : String :=
  String.ofList ([':'].intercalate
    (((Python.rjust 6 value).take 6).map fun b => Hex.padded 2 b.toNat))

/-- `_prefix_to_netmask_suffix` -/
def prefixToNetmaskSuffix (prefixLen : Nat) : String :=
  if 32 ≤ prefixLen then "" else "/" ++ toString prefixLen

/-- The value of a field under its name in Ryu. -/
def valueToRyu (ryuName : String) (spec : MatchSpec) : Json :=
  if ryuName = "nw_dst" ∨ ryuName = "nw_src" then
    match spec with
    | .lpm value prefixLen => .str (ipv4Text value ++ prefixToNetmaskSuffix prefixLen)
    | _ => .str (ipv4Text spec.value)
  else if ryuName = "dl_dst" then .str (macText spec.value)
  else .uint (Python.fromBytes spec.value)

/-- One pass of the loop of `_match_to_ryu`: a ternary field with an empty mask is left out. -/
def fieldOfSpec (field : String × MatchSpec) : Option (String × Json) :=
  match getItem fieldToRyu field.1 with
  | none => none
  | some ryuName =>
    match field.2 with
    | .ternary _ mask =>
      if Python.fromBytes mask = 0 then none else some (ryuName, valueToRyu ryuName field.2)
    | spec => some (ryuName, valueToRyu ryuName spec)

/-- The fields that make a rule one about IPv4. -/
def ipv4Fields : List String := ["nw_dst", "nw_src", "nw_proto", "tp_src", "tp_dst"]

/-- `_match_to_ryu` -/
def matchToRyu (fields : List (String × MatchSpec)) : List (String × Json) :=
  let out := fields.filterMap fieldOfSpec
  -- The kernel tells IPv4 rules by their `dl_type`.
  if out.any fun f => f.1 ∈ ipv4Fields then out ++ [("dl_type", .uint ethTypeIpv4)] else out

/-- `_actions_to_ryu` -/
def actionsToRyu : Option TableAction → List Json
  | none => []
  | some action =>
    match getItem forwardingActions action.name with
    | some paramName =>
      let port := Python.fromBytes ((getItem action.params paramName).getD [])
      [.str ("OUTPUT:" ++ toString port)]
    | none =>
      if "send_to_cpu".toList.isSuffixOf action.name.toList then [.str "OUTPUT:CONTROLLER"]
      else []

/-- `entry_to_ryu` -/
def entryToRyu (entry : TableEntry) : Option Json :=
  if entry.isDefault then none
  else
    let fields := matchToRyu entry.matchFields
    -- Without a field the kernel would read a rule that matches every packet.
    if fields.isEmpty then none
    else
      some (.obj [("table_id", .uint 0), ("priority", .uint (max 0 entry.priority).toNat),
        ("match", .obj fields), ("actions", .arr (actionsToRyu entry.action)),
        ("byte_count", .uint ((entry.counters.map CounterData.bytes).getD 0)),
        ("packet_count", .uint ((entry.counters.map CounterData.packets).getD 0)),
        ("duration_sec", .uint 0), ("duration_nsec", .uint 0), ("idle_timeout", .uint 0),
        ("hard_timeout", .uint 0), ("cookie", .uint 0), ("flags", .uint 0), ("length", .uint 0)])

/-- `render_flow_stats` -/
def renderFlowStats (dpid : Int) (entries : List TableEntry) : Json :=
  .obj [(toString dpid, .arr (entries.filterMap entryToRyu))]

end Ndtwin.Proxy

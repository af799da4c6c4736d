import Ndtwin.Proxy.P4Client

/-!
# Match fields

`p4_proxy/proxy_agent/topology_manager.py`: which OpenFlow match fields the tables of the
pipeline can honour, under which keys, and the refusals of those they cannot.
-/

namespace Ndtwin.Proxy

/-! ## Refusals -/

/-- `UnsupportedMatchError` and its subclasses, by what they are built from. -/
inductive UnsupportedMatchError where
  | unsupported (fields : List String)
  | malformedMatch (value : Json)
  | malformedValue (field : String) (value : Json) (action expected : String)

/-- `MAX_REPORTED_FIELDS` -/
def maxReportedFields : Nat := 12

/-- `MAX_REPORTED_VALUE_CHARS` -/
def maxReportedValueChars : Nat := 64

/-- `_describe_match_value` -/
def describeMatchValue : Json → String
  | .str s =>
    if s.length > maxReportedValueChars then
      "\"" ++ String.ofList (s.toList.take maxReportedValueChars) ++ "...\" (" ++
        toString s.length ++ " characters)"
    else "\"" ++ s ++ "\""
  | v => "a " ++ Python.typeName v

/-- A value as `MalformedMatchValueError` shows it: a small integer as itself. -/
def shownValue : Json → String
  | .int i => if i.natAbs < 10 ^ 12 then toString i else describeMatchValue (.int i)
  | .uint n => if n < 10 ^ 12 then toString n else describeMatchValue (.uint n)
  | v => describeMatchValue v

namespace UnsupportedMatchError

/-- `fields` -/
def fields : UnsupportedMatchError → List String
  | .unsupported fields => Python.sortedStrings fields
  | .malformedMatch _ => []
  | .malformedValue field _ _ _ => [field]

/-- The text of the exception. -/
def message : UnsupportedMatchError → String
  | .unsupported fields =>
    let sorted := Python.sortedStrings fields
    let shown := sorted.take maxReportedFields
    "no table can honour: " ++ String.intercalate ", " shown ++
      (if sorted.length > shown.length then
        " (+" ++ toString (sorted.length - shown.length) ++ " more)" else "") ++
      " -- ipv4_lpm keys on the destination address, flow_5tuple on in_port/src/dst/proto/L4 ports"
  | .malformedMatch value => "match must be a JSON object, got " ++ Python.typeName value
  | .malformedValue field value action expected =>
    "match field " ++ field ++ " carries " ++ shownValue value ++ ", which is not " ++ expected ++
      ". No rule was " ++ action

end UnsupportedMatchError

/-- What a flow operation raises. -/
inductive RouteError where
  | unsupportedMatch (e : UnsupportedMatchError)
  | python (e : Python.Error)

/-! ## Fields -/

/-- `HONOURED_MATCH_FIELDS` -/
def honouredMatchFields : List String := ["nw_dst", "ipv4_dst"]

/-- `FIVE_TUPLE_FIELD_MAP` -/
def fiveTupleFieldMap : List (String × P4Field) :=
  [("in_port", .ingressPort), ("nw_src", .srcAddr), ("ipv4_src", .srcAddr), ("nw_dst", .dstAddr),
    ("ipv4_dst", .dstAddr), ("nw_proto", .protocol), ("ip_proto", .protocol),
    ("tp_src", .l4SrcPort), ("tcp_src", .l4SrcPort), ("udp_src", .l4SrcPort),
    ("tp_dst", .l4DstPort), ("tcp_dst", .l4DstPort), ("udp_dst", .l4DstPort)]

/-- `FIVE_TUPLE_FIELD_MAP.get(field)` -/
def fiveTupleField? (field : String) : Option P4Field :=
  (fiveTupleFieldMap.find? fun f => f.1 = field).map Prod.snd

/-- `FIVE_TUPLE_ONLY_FIELDS` -/
def isFiveTupleOnlyField (field : String) : Bool :=
  (fiveTupleField? field).isSome ∧ field ∉ honouredMatchFields

/-- `IN_PORT_MATCH_FIELDS` -/
def isInPortMatchField (field : String) : Bool :=
  fiveTupleField? field = some .ingressPort

/-- `ETH_TYPE_FIELDS` -/
def ethTypeFields : List String := ["dl_type", "eth_type"]

/-- `IPV4_ETH_TYPE` -/
def ipv4EthType : Int := 0x0800

/-- `parse_eth_type` -/
def parseEthType : Json → Option Int
  | .int i => some i
  | .uint n => some n
  | .str s =>
    let text := Python.strip s.toList
    match text with
    -- `int(text, 16)` reads the prefix as well.
    | '0' :: 'x' :: _ => Python.parseInt 16 (String.ofList text)
    | '0' :: 'X' :: _ => Python.parseInt 16 (String.ofList text)
    | _ => Python.parseInt 10 (String.ofList text)
  | _ => none

/-- The test of `unsupported_match_fields` on one field. -/
def isUnsupported (field : String) (value : Json) : Bool :=
  if field ∈ honouredMatchFields then false
  else if (fiveTupleField? field).isSome then false
  -- The type of an IPv4 rule says nothing new, and no table has a key for another one.
  else if field ∈ ethTypeFields then parseEthType value ≠ some ipv4EthType
  else true

/-- `unsupported_match_fields` -/
def unsupportedMatchFields : Json → Except RouteError (List String)
  | .null => return []
  | .obj fields =>
    return Python.sortedStrings
      ((fields.filter fun f => isUnsupported f.1 f.2).map Prod.fst)
  | v => .error (.unsupportedMatch (.malformedMatch v))

/-- The first step of each flow operation: `raise UnsupportedMatchError(bad)` if any is bad. -/
def refuseUnsupported (matchDict : Json) : Except RouteError Unit := do
  let bad ← unsupportedMatchFields matchDict
  if bad.isEmpty then return () else .error (.unsupportedMatch (.unsupported bad))

/-- `_check_in_port_value` -/
def checkInPortValue (field : String) (value : Json) (action : String) :
    Except RouteError Unit :=
  match encode5tupleValue .ingressPort value with
  | .ok _ => return ()
  -- These three are not in the `except` clause.
  | .error .attributeError => .error (.python .attributeError)
  | .error .keyError => .error (.python .keyError)
  | .error .indexError => .error (.python .indexError)
  | .error _ => .error (.unsupportedMatch (.malformedValue field value action
      "a switch port number from 0 to 511 (the key is 9 bits wide)"))

/-- The loop of `check_match_values`. -/
def checkFields (action : String) : List (String × Json) → Except RouteError Unit
  | [] => return ()
  | (field, value) :: rest => do
    if isInPortMatchField field then checkInPortValue field value action
    checkFields action rest

/-- `check_match_values` -/
def checkMatchValues (matchDict : Json) (action : String) : Except RouteError Unit :=
  match matchDict with
  | .obj fields => checkFields action (Python.sortedItems fields)
  | _ => return ()

/-- `p4_priority` -/
def p4Priority (openflowPriority : Json) : Int :=
  let of :=
    match openflowPriority with
    | .null => 0
    | v =>
      match Python.toInt v with
      | .ok n => n
      | .error _ => 0
  -- A ternary table takes no priority 0, so the whole scale moves up.
  max 0 of + 1

/-- `needs_five_tuple` -/
def needsFiveTuple : Json → Bool
  | .obj fields => fields.any fun f => isFiveTupleOnlyField f.1
  | _ => false

/-- The loop of `five_tuple_keys`, over the sorted items. -/
def collectKeys (keys : AssocMap P4Field Json) :
    List (String × Json) → Except RouteError (AssocMap P4Field Json)
  | [] => return keys
  | (field, value) :: rest =>
    match fiveTupleField? field with
    | none => collectKeys keys rest
    | some p4Field =>
      match keys.lookup p4Field with
      | some value' =>
        -- Two spellings of one key must agree.
        if Python.eq value' value then collectKeys (keys.set p4Field value) rest
        else .error (.unsupportedMatch (.unsupported [field]))
      | none => collectKeys (keys.set p4Field value) rest

/-- `five_tuple_keys`, of an object. -/
def fiveTupleKeys (fields : List (String × Json)) : Except RouteError (AssocMap P4Field Json) :=
  collectKeys ∅ (Python.sortedItems fields)

end Ndtwin.Proxy

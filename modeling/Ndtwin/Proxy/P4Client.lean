import Ndtwin.ForStd.AssocMap
import Ndtwin.ForStd.Python
import Ndtwin.Proxy.SFlowEmitter

/-!
# The P4Runtime client

`p4_proxy/proxy_agent/p4_client.py`: the writes of the proxy to the tables of a bmv2 switch.
A switch is the content of its two ingress tables. It answers a `Write` by carrying it out,
or by an error status with its tables as they were; a duplicate insert and a change of an
absent entry are always refused. A `Read` fails or returns the tables.
-/

namespace Ndtwin.Proxy

/-- The error codes of gRPC. -/
inductive GrpcStatus where
  | cancelled
  | unknown
  | invalidArgument
  | deadlineExceeded
  | notFound
  | alreadyExists
  | permissionDenied
  | resourceExhausted
  | failedPrecondition
  | aborted
  | outOfRange
  | unimplemented
  | internal
  | unavailable
  | dataLoss
  | unauthenticated
  deriving DecidableEq, Repr

/-! ## The switch -/

/-- The key of an `ipv4_lpm` entry. -/
structure LpmKey where
  value : List UInt8
  prefixLen : Nat
  deriving DecidableEq, Repr

/-- The parameters of `ipv4_forward`. -/
structure Forward where
  dstAddr : List UInt8
  port : List UInt8
  deriving DecidableEq, Repr

/-- The keys of `flow_5tuple`. -/
inductive P4Field where
  | ingressPort
  | srcAddr
  | dstAddr
  | protocol
  | l4SrcPort
  | l4DstPort
  deriving DecidableEq, Repr

namespace P4Field

/-- The name of a key in the pipeline. -/
def name : P4Field → String
  | .ingressPort => "standard_metadata.ingress_port"
  | .srcAddr => "hdr.ipv4.srcAddr"
  | .dstAddr => "hdr.ipv4.dstAddr"
  | .protocol => "hdr.ipv4.protocol"
  | .l4SrcPort => "meta.l4_src_port"
  | .l4DstPort => "meta.l4_dst_port"

/-- `_FIVE_TUPLE_KEY_BITS` -/
def bits : P4Field → Nat
  | .ingressPort => 9
  | .srcAddr | .dstAddr => 32
  | .protocol => 8
  | .l4SrcPort | .l4DstPort => 16

/-- All keys, in the order of their names. -/
def sorted : List P4Field :=
  [.dstAddr, .protocol, .srcAddr, .l4DstPort, .l4SrcPort, .ingressPort]

example : (sorted.map name).insertionSort (· ≤ ·) = sorted.map name := by decide

end P4Field

/-- One ternary key of a `flow_5tuple` entry. -/
structure TernaryMatch where
  field : P4Field
  value : List UInt8
  mask : List UInt8
  deriving DecidableEq, Repr

/-- What identifies a `flow_5tuple` entry. -/
structure FiveTupleKey where
  keys : List TernaryMatch
  priority : Int
  deriving DecidableEq, Repr

/-- The tables of a switch. -/
structure P4Switch where
  ipv4Lpm : AssocMap LpmKey Forward := ∅
  flow5tuple : AssocMap FiveTupleKey Forward := ∅

/-- The type of an update. -/
inductive UpdateType where
  | insert
  | modify
  | delete
  deriving DecidableEq, Repr

/-- A `Write` to one table: `answer` is the status of a switch that refuses it. -/
def writeTable {κ : Type} [DecidableEq κ] (type : UpdateType) (key : κ) (action : Forward)
    (answer : Option GrpcStatus) (table : AssocMap κ Forward) :
    Except GrpcStatus (AssocMap κ Forward) :=
  match answer with
  | some status => .error status
  | none =>
    match type with
    | .insert => if key ∈ table then .error .unknown else .ok (table.insert key action)
    | .modify => if key ∈ table then .ok (table.insert key action) else .error .unknown
    | .delete => if key ∈ table then .ok (table.erase key) else .error .unknown

/-- `SetForwardingPipelineConfig`: the tables of a new pipeline are empty. -/
def P4Switch.pushPipeline (_ : P4Switch) : P4Switch := {}

/-- How the switch answers the requests of one client call; `none` when it does not refuse. -/
structure Answers where
  insert : Option GrpcStatus := none
  modify : Option GrpcStatus := none
  delete : Option GrpcStatus := none
  read : Option GrpcStatus := none
  deriving DecidableEq, Repr

/-! ## The client -/

/-- A client call: it may raise, and what it wrote before stays. -/
abbrev ClientM := EStateM Python.Error P4Switch

/-- `socket.inet_aton` as raised errors of the language. -/
def inetAton (address : String) : Except Python.Error (List UInt8) :=
  match inetAtonOrThrow address with
  | .ok bytes => .ok bytes
  | .error .valueError => .error .valueError
  | .error _ => .error .osError

/-- `socket.inet_aton(v)` -/
def inetAtonValue : Json → Except Python.Error (List UInt8)
  | .str s => inetAton s
  | _ => .error .typeError

/-- `v.to_bytes(2, byteorder="big")` -/
def portBytes (v : Json) : Except Python.Error (List UInt8) :=
  match Python.asInt? v with
  | some n => Python.toBytes 2 n
  | none => .error .attributeError

/-- `bytes.fromhex(next_hop_mac.replace(":", ""))` -/
def macBytes (nextHopMac : String) : Except Python.Error (List UInt8) :=
  Python.fromHex (nextHopMac.toList.filter (· ≠ ':'))

/-- The parameters of the forward action of a request. -/
def forwardAction (nextHopMac : String) (port : Json) : Except Python.Error Forward := do
  let dstAddr ← macBytes nextHopMac
  let port ← portBytes port
  return { dstAddr := dstAddr, port := port }

/-- The `ipv4_lpm` entry of a request. -/
def routeEntry (dstIp : Json) (prefixLen : Nat) (nextHopMac : String) (port : Json) :
    Except Python.Error (LpmKey × Forward) := do
  let value ← inetAtonValue dstIp
  let action ← forwardAction nextHopMac port
  return ({ value := value, prefixLen := prefixLen }, action)

/-- One `Write` to `ipv4_lpm`. -/
def writeIpv4Lpm (type : UpdateType) (key : LpmKey) (action : Forward)
    (answer : Option GrpcStatus) : ClientM (Except GrpcStatus Unit) := do
  let switch ← get
  match writeTable type key action answer switch.ipv4Lpm with
  | .ok table =>
    set { switch with ipv4Lpm := table }
    return .ok ()
  | .error status => return .error status

/-- `modify_ipv4_route` -/
def modifyIpv4Route (dstIp : Json) (prefixLen : Nat) (nextHopMac : String) (port : Json)
    (answers : Answers) : ClientM Bool := do
  let (key, action) ← EState.ofExcept (routeEntry dstIp prefixLen nextHopMac port)
  match ← writeIpv4Lpm .modify key action answers.modify with
  | .ok _ => return true
  | .error _ => return false

/-- `insert_ipv4_route`, which retries an insert that may be a duplicate as a modify. -/
def insertIpv4Route (dstIp : Json) (prefixLen : Nat) (nextHopMac : String) (port : Json)
    (answers : Answers) : ClientM Bool := do
  let (key, action) ← EState.ofExcept (routeEntry dstIp prefixLen nextHopMac port)
  match ← writeIpv4Lpm .insert key action answers.insert with
  | .ok _ => return true
  | .error status =>
    -- bmv2 answers UNKNOWN to a duplicate, and to other refusals.
    if status = .alreadyExists ∨ status = .unknown then
      modifyIpv4Route dstIp prefixLen nextHopMac port answers
    else return false

/-- A byte string as bmv2 returns it: leading zero bytes stripped, one byte at least. -/
def canonical : List UInt8 → List UInt8
  | 0 :: b :: bs => canonical (b :: bs)
  | bs => bs

/-- `_ipv4_route_present`, once the tables are read. -/
def ipv4RoutePresent (want : List UInt8) (prefixLen : Nat) (switch : P4Switch) : Bool :=
  switch.ipv4Lpm.keys.any fun key =>
    key.prefixLen = prefixLen ∧ Python.rjust 4 (canonical key.value) = want

/-- `delete_ipv4_route`: what is already gone counts as deleted. -/
def deleteIpv4Route (dstIp : Json) (prefixLen : Nat) (answers : Answers) : ClientM Bool := do
  let value ← EState.ofExcept (inetAtonValue dstIp)
  let key : LpmKey := { value := value, prefixLen := prefixLen }
  -- a delete carries no action
  match ← writeIpv4Lpm .delete key { dstAddr := [], port := [] } answers.delete with
  | .ok _ => return true
  | .error .notFound => return true
  -- UNKNOWN does not tell what is gone from what was refused, so the table is read.
  | .error .unknown =>
    match answers.read with
    | some _ => return false
    | none => return !ipv4RoutePresent value prefixLen (← get)
  | .error _ => return false

/-! ## The 5-tuple table -/

/-- `_encode_5tuple_value`: value and mask of one key. -/
def encode5tupleValue (field : P4Field) (value : Json) :
    Except Python.Error (List UInt8 × List UInt8) := do
  let width := (field.bits + 7) / 8
  let raw ← match value with
    | .str s =>
      if '.' ∈ s.toList then inetAton s
      else do
        let n ← Python.toInt value
        Python.toBytes width n
    | _ => do
      let n ← Python.toInt value
      Python.toBytes width n
  if raw.length ≠ width then .error .valueError
  -- Nine bits do not fill their two bytes.
  else if Python.fromBytes raw / 2 ^ field.bits ≠ 0 then .error .overflowError
  else return (raw, Python.bytesOf width (2 ^ field.bits - 1))

/-- The keys of an entry, in the order of their names. -/
def ternaryMatches (keys : AssocMap P4Field Json) :
    List P4Field → Except Python.Error (List TernaryMatch)
  | [] => return []
  | field :: fields =>
    match keys.lookup field with
    | none => ternaryMatches keys fields
    | some value => do
      let (raw, mask) ← encode5tupleValue field value
      let rest ← ternaryMatches keys fields
      return { field := field, value := raw, mask := mask } :: rest

/-- `_build_5tuple_entry`; the priority is a protobuf `int32`. -/
def build5tupleEntry (keys : AssocMap P4Field Json) (priority : Int) :
    Except Python.Error FiveTupleKey := do
  let ternary ← ternaryMatches keys P4Field.sorted
  -- The assignment to the protobuf field raises outside its range.
  if -2 ^ 31 ≤ priority ∧ priority < 2 ^ 31 then
    return { keys := ternary, priority := priority }
  else .error .valueError

/-- One `Write` to `flow_5tuple`. -/
def writeFlow5tuple (type : UpdateType) (key : FiveTupleKey) (action : Forward)
    (answer : Option GrpcStatus) : ClientM (Except GrpcStatus Unit) := do
  let switch ← get
  match writeTable type key action answer switch.flow5tuple with
  | .ok table =>
    set { switch with flow5tuple := table }
    return .ok ()
  | .error status => return .error status

/-- `modify_5tuple_rule` -/
def modify5tupleRule (keys : AssocMap P4Field Json) (priority : Int) (nextHopMac : String)
    (port : Json) (answers : Answers) : ClientM Bool := do
  let key ← EState.ofExcept (build5tupleEntry keys priority)
  let action ← EState.ofExcept (forwardAction nextHopMac port)
  match ← writeFlow5tuple .modify key action answers.modify with
  | .ok _ => return true
  | .error _ => return false

/-- `insert_5tuple_rule` -/
def insert5tupleRule (keys : AssocMap P4Field Json) (priority : Int) (nextHopMac : String)
    (port : Json) (answers : Answers) : ClientM Bool := do
  let key ← EState.ofExcept (build5tupleEntry keys priority)
  let action ← EState.ofExcept (forwardAction nextHopMac port)
  match ← writeFlow5tuple .insert key action answers.insert with
  | .ok _ => return true
  | .error status =>
    if status = .alreadyExists ∨ status = .unknown then
      modify5tupleRule keys priority nextHopMac port answers
    else return false

/-- `delete_5tuple_rule` -/
def delete5tupleRule (keys : AssocMap P4Field Json) (priority : Int) (answers : Answers) :
    ClientM Bool := do
  let key ← EState.ofExcept (build5tupleEntry keys priority)
  match ← writeFlow5tuple .delete key { dstAddr := [], port := [] } answers.delete with
  | .ok _ => return true
  | .error _ => return false

end Ndtwin.Proxy

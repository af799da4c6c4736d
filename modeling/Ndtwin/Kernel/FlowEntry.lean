import Ndtwin.ForStd.CText
import Ndtwin.ForStd.Json

/-!
# Polled flow entries

`src/ndt_core/collection/Classifier.cpp`, the part that turns one entry of a flow-stats
reply into a rule: packed keys and masks, the fingerprint that identifies a rule, and the
parsers of match, actions and instructions. A parser that throws returns an error.
-/

namespace Ndtwin.Kernel

/-- What a parser of this file can throw. -/
inductive ParseError where
  | unsupportedType
  | conversion (e : CText.ConvError)
  | json (e : Json.Error)
  deriving DecidableEq, Repr

/-! ## Packed keys -/

/-- `FlowKey`: the fields of a packet that rules can match, in host byte order. -/
structure FlowKey where
  inPort : UInt32 := 0
  ethType : UInt16 := 0
  ipProto : UInt8 := 0
  ipv4Src : UInt32 := 0
  ipv4Dst : UInt32 := 0
  tpSrc : UInt16 := 0
  tpDst : UInt16 := 0
  vlanTci : UInt16 := 0
  metadata : UInt64 := 0
  deriving DecidableEq, Repr

/-- `kKeyBytes` -/
def kKeyBytes : Nat := 32

/-- `KeyBytes`: a key, a mask or a masked value. -/
structure KeyBytes where
  bytes : List UInt8
  length_eq : bytes.length = kKeyBytes
  deriving DecidableEq

namespace KeyBytes

/-- `KeyBytes{}` -/
def zero : KeyBytes := ⟨List.replicate kKeyBytes 0, rfl⟩

/-- `bitAnd` -/
def bitAnd (a m : KeyBytes) : KeyBytes where
  bytes := List.zipWith (· &&& ·) a.bytes m.bytes
  length_eq := by rw [List.length_zipWith, a.length_eq, m.length_eq]; rfl

/-- `out.bytes[off + i] |= bs[i]` for every `i`. -/
def orAt (k : KeyBytes) (off : Nat) (bs : List UInt8) : KeyBytes where
  bytes := k.bytes.mapIdx fun i b => if off ≤ i then b ||| (bs[i - off]?).getD 0 else b
  length_eq := by rw [List.length_mapIdx, k.length_eq]

end KeyBytes

/-- Big-endian bytes, most significant first. -/
def u16Be (v : UInt16) : List UInt8 := [(v >>> 8).toUInt8, v.toUInt8]

def u32Be (v : UInt32) : List UInt8 :=
  [(v >>> 24).toUInt8, (v >>> 16).toUInt8, (v >>> 8).toUInt8, v.toUInt8]

def u64Be (v : UInt64) : List UInt8 :=
  [(v >>> 56).toUInt8, (v >>> 48).toUInt8, (v >>> 40).toUInt8, (v >>> 32).toUInt8,
    (v >>> 24).toUInt8, (v >>> 16).toUInt8, (v >>> 8).toUInt8, v.toUInt8]

/-- The memory of a `uint32_t` on a little-endian machine. -/
def u32Le (v : UInt32) : List UInt8 := (u32Be v).reverse

/-- `packKey`: the fields one after the other, padded as the layout says. -/
def packKey (k : FlowKey) : KeyBytes where
  bytes := u32Be k.inPort ++ u16Be k.ethType ++ [k.ipProto, 0] ++ u32Be k.ipv4Src ++
    u32Be k.ipv4Dst ++ u16Be k.tpSrc ++ u16Be k.tpDst ++ u16Be k.vlanTci ++ [0, 0] ++
    u64Be k.metadata
  length_eq := rfl

/-! ## Rules -/

/-- `RuleEffect` -/
structure RuleEffect where
  gotoTable : Option UInt8 := none
  outputPorts : List UInt32 := []
  groupId : Option UInt32 := none
  deriving DecidableEq, Repr

/-- `RuleId` -/
structure RuleId where
  tableId : UInt8
  coreHash : UInt64
  deriving DecidableEq, Repr

/-- `ParsedRule`, and the fields of `Rule` that never change. An interned mask is its
    bytes. -/
structure Rule where
  id : RuleId
  tableId : UInt8
  priority : Int
  mask : KeyBytes
  maskedValue : KeyBytes
  effect : RuleEffect
  deriving DecidableEq

/-- One step of the 64-bit FNV-1a hash. -/
def fnvStep (h x : UInt64) : UInt64 := (h ^^^ x) * 1099511628211

/-- `fnv1a64` -/
def fnv1a64 (data : List UInt8) : UInt64 :=
  data.foldl (fun h b => fnvStep h b.toUInt64) 1469598103934665603

/-- `fingerprintRuleCore` -/
def fingerprintRuleCore (maskBytes maskedValue : KeyBytes) (priority : Int)
    (effect : RuleEffect) : UInt64 :=
  let h := fnvStep 1469598103934665603 (fnv1a64 maskBytes.bytes)
  let h := fnvStep h (fnv1a64 maskedValue.bytes)
  let h := fnvStep h (fnv1a64 (u32Le (UInt32.ofInt priority)))
  let h :=
    match effect.gotoTable with
    | some t => fnvStep h t.toUInt64
    | none => h
  let h := effect.outputPorts.foldl (fun h op => fnvStep h (fnv1a64 (u32Le op))) h
  match effect.groupId with
  | some g => fnvStep h (fnv1a64 (u32Le g))
  | none => h

/-! ## Numbers -/

/-- Both ends stripped of white space. -/
def trim (cs : List Char) : List Char :=
  ((cs.dropWhile CText.isSpace).reverse.dropWhile CText.isSpace).reverse

/-- `parseU64` -/
def parseU64 : Json → Except ParseError UInt64
  | .uint n => .ok (UInt64.ofNat n)
  | .int i => .ok (UInt64.ofInt i)
  | .str s =>
    let s := trim s.toList
    let base :=
      match s with
      | '0' :: x :: _ :: _ => if x = 'x' ∨ x = 'X' then 16 else 10
      | _ => 10
    -- Digits that something follows are read all the same: nothing asks where the number ends.
    match CText.stoull base (s.takeWhile (· ≠ '\x00')) with
    | .ok (v, _) => .ok v
    | .error e => .error (.conversion e)
  | _ => .error .unsupportedType

/-- `parseI32`. An integer is cut to its low 32 bits; nlohmann's `is_number_integer` holds
    of unsigned numbers too. -/
def parseI32 : Json → Except ParseError Int
  | .int i => .ok (i.bmod (2 ^ 32))
  | .uint n => .ok ((n : Int).bmod (2 ^ 32))
  | .str s =>
    match CText.stoi (CText.cStr s) with
    | .ok v => .ok v
    | .error e => .error (.conversion e)
  | _ => .error .unsupportedType

/-- `parseUint` -/
def parseUint (cs : List Char) : Option UInt32 :=
  match CText.stoull 10 (cs.takeWhile (· ≠ '\x00')) with
  | .ok (v, []) => if v ≤ 0xFFFFFFFF then some v.toUInt32 else none
  | _ => none

/-! ## Match -/

/-- A number with its four bytes in network order, in host order. -/
def hostOrder : List UInt8 → UInt32
  | [a, b, c, d] => a.toUInt32 * 0x1000000 + b.toUInt32 * 0x10000 + c.toUInt32 * 0x100 + d.toUInt32
  | _ => 0

/-- `parseIpv4AddrHost` -/
def parseIpv4AddrHost (cs : List Char) : Option UInt32 :=
  (CText.inetPton4 (cs.takeWhile (· ≠ '\x00'))).map hostOrder

/-- A string cut at the first occurrence of a character. -/
def cutAt (c : Char) (cs : List Char) : List Char × List Char :=
  (cs.takeWhile (· ≠ c), (cs.dropWhile (· ≠ c)).drop 1)

/-- `parseIpv4WithMaskOrPrefix`: address and mask, `none` when either cannot be read. The
    conversion of an all-digit prefix throws when it does not fit an `int`. -/
def parseIpv4WithMaskOrPrefix (j : Json) : Except ParseError (Option (UInt32 × UInt32)) :=
  match j with
  | .str s =>
    let (ipStr, maskStr) := cutAt '/' s.toList
    match parseIpv4AddrHost ipStr with
    | none => .ok none
    | some addrHost =>
      if maskStr.isEmpty then .ok (some (addrHost, 0xFFFFFFFF))
      else if maskStr.all CText.isDigit then
        match CText.stoi maskStr with
        | .error e => .error (.conversion e)
        | .ok pfx =>
          if pfx < 0 ∨ 32 < pfx then .ok none
          -- A shift by the width of the word is a case of its own.
          else if pfx = 0 then .ok (some (addrHost, 0))
          else .ok (some (addrHost, (0xFFFFFFFF : UInt32) <<< UInt32.ofInt (32 - pfx)))
      else
        match maskStr with
        | '0' :: x :: _ :: _ =>
          if x = 'x' ∨ x = 'X' then
            match CText.stoull 16 (maskStr.takeWhile (· ≠ '\x00')) with
            | .ok (v, _) => .ok (some (addrHost, v.toUInt32))
            | .error _ => .ok none
          else .ok ((parseIpv4AddrHost maskStr).map fun m => (addrHost, m))
        | _ => .ok ((parseIpv4AddrHost maskStr).map fun m => (addrHost, m))
  | _ => .ok none

/-- The mask bytes and the value being built by `buildMaskAndValueFromMatch`. -/
structure MatchBuild where
  mask : KeyBytes := .zero
  value : FlowKey := {}

/-- A numeric field: where its mask bytes are, how many, and how the value is stored. -/
def numericField (off width : Nat) (store : FlowKey → UInt64 → FlowKey) (j : Json)
    (b : MatchBuild) : Except ParseError MatchBuild := do
  let v ← parseU64 j
  return { mask := b.mask.orAt off (List.replicate width 0xFF), value := store b.value v }

/-- `applyIpv4Masked`: an address that cannot be read leaves the field unmatched. -/
def applyIpv4Masked (isSrc : Bool) (j : Json) (b : MatchBuild) :
    Except ParseError MatchBuild := do
  match ← parseIpv4WithMaskOrPrefix j with
  | none => return b
  | some (addr, mask) =>
    let value := if isSrc then { b.value with ipv4Src := addr } else { b.value with ipv4Dst := addr }
    return { mask := b.mask.orAt (if isSrc then 8 else 12) (u32Be mask), value := value }

/-- The first of the named fields that is present, if any. -/
def firstField (m : Json) : List String → Option Json
  | [] => none
  | name :: names => (m.field? name).orElse fun _ => firstField m names

/-- Apply a field's parser when the field is present. -/
def withField (field : Option Json) (parse : Json → MatchBuild → Except ParseError MatchBuild)
    (b : MatchBuild) : Except ParseError MatchBuild :=
  match field with
  | none => .ok b
  | some j => parse j b

def setTpSrc : Json → MatchBuild → Except ParseError MatchBuild :=
  numericField 16 2 fun k v => { k with tpSrc := v.toUInt16 }

def setTpDst : Json → MatchBuild → Except ParseError MatchBuild :=
  numericField 18 2 fun k v => { k with tpDst := v.toUInt16 }

/-- `buildMaskAndValueFromMatch` -/
def buildMaskAndValueFromMatch (m : Json) : Except ParseError MatchBuild := do
  let b : MatchBuild := {}
  let b ← withField (m.field? "in_port")
    (numericField 0 4 fun k v => { k with inPort := v.toUInt32 }) b
  let b ← withField (firstField m ["eth_type", "dl_type"])
    (numericField 4 2 fun k v => { k with ethType := v.toUInt16 }) b
  let b ← withField (firstField m ["ip_proto", "nw_proto"])
    (numericField 6 1 fun k v => { k with ipProto := v.toUInt8 }) b
  let b ← withField (firstField m ["ipv4_src", "nw_src"]) (applyIpv4Masked true) b
  let b ← withField (firstField m ["ipv4_dst", "nw_dst"]) (applyIpv4Masked false) b
  -- not alternatives: each port field that is present overwrites the one before it
  let b ← withField (m.field? "tcp_src") setTpSrc b
  let b ← withField (m.field? "tcp_dst") setTpDst b
  let b ← withField (m.field? "udp_src") setTpSrc b
  let b ← withField (m.field? "udp_dst") setTpDst b
  let b ← withField (m.field? "tp_src") setTpSrc b
  let b ← withField (m.field? "tp_dst") setTpDst b
  let b ← withField (m.field? "vlan_vid")
    (numericField 20 2 fun k v => { k with vlanTci := v.toUInt16 }) b
  withField (m.field? "metadata") (numericField 24 8 fun k v => { k with metadata := v }) b

/-! ## Actions and instructions -/

/-- The port an OUTPUT action names; `none` for a target that is not known. -/
def outputPort (portStr : List Char) : Option UInt32 :=
  let portStr := portStr.map CText.toUpper
  if portStr = "CONTROLLER".toList then some 0xfffffffd
  else if portStr = "LOCAL".toList then some 0xfffffffe
  else if portStr = "FLOOD".toList then some 0xfffffffb
  else if portStr = "NORMAL".toList then some 0xfffffffa
  else parseUint portStr

/-- One action of `parseActionsArrayIntoEffect`. -/
def parseAction (effect : RuleEffect) : Json → RuleEffect
  | .str s =>
    let (kind, rest) := cutAt ':' s.toList
    let kind := kind.map CText.toUpper
    if kind = "OUTPUT".toList ∧ ¬ rest.isEmpty then
      -- What follows a second colon, as in `CONTROLLER:65535`, is dropped.
      match outputPort (cutAt ':' rest).1 with
      | some port => { effect with outputPorts := effect.outputPorts ++ [port] }
      | none => effect
    else if kind = "GROUP".toList ∧ ¬ rest.isEmpty then
      match parseUint rest with
      | some gid => { effect with groupId := some gid }
      | none => effect
    else effect
  | _ => effect

/-- `parseActionsArrayIntoEffect` -/
def parseActionsArrayIntoEffect (actions : Json) (effect : RuleEffect) : RuleEffect :=
  match actions with
  | .arr elems => elems.foldl parseAction effect
  | _ => effect

/-- One instruction of `parseEffectFromFlowEntry`. -/
def parseInstruction (effect : RuleEffect) (ins : Json) : Except ParseError RuleEffect := do
  let effect ←
    match ins.field? "type", ins.field? "table_id" with
    | some (.str "GOTO_TABLE"), some tableId => do
      let t ← parseU64 tableId
      pure { effect with gotoTable := some t.toUInt8 }
    | _, _ => pure effect
  match ins.field? "actions" with
  | some actions => return parseActionsArrayIntoEffect actions effect
  | none => return effect

/-- `parseEffectFromFlowEntry` -/
def parseEffectFromFlowEntry (flow : Json) : Except ParseError RuleEffect := do
  let effect : RuleEffect :=
    match flow.field? "actions" with
    | some actions => parseActionsArrayIntoEffect actions {}
    | none => {}
  match flow.field? "instructions" with
  | some (.arr instructions) => instructions.foldlM parseInstruction effect
  | _ => return effect

/-- The table of an entry; 0 when it names none. -/
def tableIdOf (flow : Json) : Except ParseError UInt8 :=
  match flow.field? "table_id" with
  | some j => (parseU64 j).map UInt64.toUInt8
  | none => .ok 0

/-- The priority of an entry; 0 when it names none. -/
def priorityOf (flow : Json) : Except ParseError Int :=
  match flow.field? "priority" with
  | some j => parseI32 j
  | none => .ok 0

/-- The match of an entry; one that is not an object matches everything. -/
def matchOf (flow : Json) : Except ParseError MatchBuild :=
  match flow.field? "match" with
  | some (.obj fields) => buildMaskAndValueFromMatch (.obj fields)
  | _ => .ok {}

/-- `parseRuleFromJson` -/
def parseRuleFromJson (flow : Json) : Except ParseError Rule := do
  let tableId ← tableIdOf flow
  let priority ← priorityOf flow
  let b ← matchOf flow
  -- Bits that the mask leaves out do not tell rules apart.
  let maskedValue := (packKey b.value).bitAnd b.mask
  let effect ← parseEffectFromFlowEntry flow
  return {
    id := { tableId := tableId
            coreHash := fingerprintRuleCore b.mask maskedValue priority effect }
    tableId := tableId
    priority := priority
    mask := b.mask
    maskedValue := maskedValue
    effect := effect }

/-- `extractFlowArray`: the entries of a switch, from either supported shape. -/
def extractFlowArray (flowsNode : Json) (dpid : UInt64) : Option Json :=
  match flowsNode with
  | .arr _ => some flowsNode
  | .obj fields =>
    match flowsNode.field? (toString dpid.toNat) with
    | some v => some v
    | none =>
      match fields with
      -- The only flows of the object, whatever their key.
      | [(_, v)] => some v
      | _ => none
  | _ => none

end Ndtwin.Kernel

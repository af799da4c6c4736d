import Ndtwin.ForStd.AssocMap
import Ndtwin.ForStd.CText
import Ndtwin.ForStd.Json
import Ndtwin.ForStd.Words

/-!
# The destination paths of the kernel

`tryParsePathNode` of `include/common_types/SFlowType.hpp`, `setAllPaths` of
`FlowLinkUsageCollector.cpp`, and the two loops that fill it: `handleInformAllDestinationPaths` of
`HttpSession.cpp`, which refuses a request with a malformed hop, and `fetchAllDestinationPaths`,
which leaves that path out.
-/

namespace Ndtwin.Kernel

/-- `sflow::Path` -/
abbrev Path := List (UInt64 × UInt32)

/-- The 32-bit value of an address that is stored in network order. -/
def networkWord (address : List UInt8) : UInt32 := (Words.toWords address).headD 0

/-- `get<int64_t>()` of an integer. -/
def asInt64 : Json → Option Int
  | .uint n => some ((n : Int).bmod (2 ^ 64))
  | .int i => some (i.bmod (2 ^ 64))
  | _ => none

/-- `std::from_chars` of a whole string into a `uint32_t`. -/
def fromCharsU32 (text : List Char) : Option UInt32 :=
  if text = [] ∨ text.any (fun c => !CText.isDigit c) then none
  else
    let n := (CText.readDigits 10 0 text).1
    if n < 2 ^ 32 then some (UInt32.ofNat n) else none

/-- The node of a hop. -/
def parseNodeField : Json → Option UInt64
  | .str s => (CText.inetPton4 (CText.cStr s)).map fun address => (networkWord address).toUInt64
  | node =>
    match asInt64 node with
    | none => none
    | some raw => if raw < 0 then none else some (UInt64.ofInt raw)

/-- The interface of a hop. -/
def parsePortField : Json → Option UInt32
  | .str s => fromCharsU32 s.toList
  | port =>
    match asInt64 port with
    | none => none
    | some raw => if raw < 0 ∨ raw > 2 ^ 32 - 1 then none else some (UInt32.ofInt raw)

/-- `tryParsePathNode` -/
def tryParsePathNode : Json → Option (UInt64 × UInt32)
  | .arr (node :: port :: _) =>
    match parseNodeField node, parsePortField port with
    | some nodeId, some port => some (nodeId, port)
    | _, _ => none
  | _ => none

/-- `m_allPathMap` and `m_switchCountMap`, by the addresses of source and destination. -/
structure PathMaps where
  allPathMap : AssocMap (UInt32 × UInt32) Path := ∅
  switchCountMap : AssocMap (UInt32 × UInt32) Nat := ∅

/-- One turn of the loop of `setAllPaths`. -/
def PathMaps.addPath (maps : PathMaps) (path : Path) : PathMaps :=
  match path.head?, path.getLast? with
  | some first, some last =>
    let pair := (first.1.toUInt32, last.1.toUInt32)
    { allPathMap := maps.allPathMap.insert pair path
      switchCountMap := maps.switchCountMap.insert pair (path.length - 2) }
  | _, _ => maps

/-- `setAllPaths` -/
def PathMaps.setAllPaths (maps : PathMaps) (allPathsVector : List Path) : PathMaps :=
  if allPathsVector.isEmpty then maps else allPathsVector.foldl PathMaps.addPath {}

/-- The hops of one path; `none` when one of them is malformed. -/
def parsePath (path : Json) : Option Path := path.iterate.mapM tryParsePathNode

/-- `handleInformAllDestinationPaths`, from the parsed body on; an `at` that throws leaves the
    maps, as a malformed hop does. -/
def PathMaps.informAllDestinationPaths (maps : PathMaps) (body : Json) : PathMaps :=
  match body.atField "all_destination_paths" with
  | .error _ => maps
  | .ok paths =>
    match paths.iterate.mapM parsePath with
    | none => maps
    | some parsed => maps.setAllPaths (parsed.filter fun p => !p.isEmpty)

/-- `fetchAllDestinationPaths`, from the parsed body on. -/
def PathMaps.fetchAllDestinationPaths (maps : PathMaps) (body : Json) : PathMaps :=
  match body.field? "status" with
  | some (.str "success") =>
    match body.atField "all_destination_paths" with
    | .error _ => maps
    | .ok paths =>
      maps.setAllPaths ((paths.iterate.filterMap parsePath).filter fun p => !p.isEmpty)
  | _ => maps

/-- `getSwitchCount` -/
def PathMaps.getSwitchCount (maps : PathMaps) (ipPair : UInt32 × UInt32) : Option Nat :=
  maps.switchCountMap.lookup ipPair

end Ndtwin.Kernel

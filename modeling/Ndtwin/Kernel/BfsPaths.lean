import Mathlib.Data.Finset.Basic
import Ndtwin.ForStd.AssocMap
import Ndtwin.Kernel.AllPaths
import Ndtwin.Kernel.Utils

/-!
# Paths and rules towards one host

`bfsAllPathsToDst` of `src/ndt_core/collection/TopologyAndFlowMonitor.cpp`: a breadth-first search
from the switch of a host that writes a rule for the host at every switch it takes out of the
queue, and then one path from every other host. The graph that is passed is the monitor's own, so
the searches by address run over it as well. The log lines are left out.
-/

namespace Ndtwin.Kernel

/-- An entry of `newOpenflowTables`: network, mask, port and priority. -/
structure OpenflowRule where
  net : UInt32
  mask : UInt32
  outPort : UInt32
  priority : UInt32
  deriving DecidableEq, Repr

/-- `newOpenflowTables`, by dpid. -/
abbrev OpenflowTables := AssocMap UInt64 (List OpenflowRule)

/-- What the search takes from outside the repository: the digest of `SHA256`, and `std::sort` by
    a key, which leaves open how equal keys are ordered. -/
structure NeighborSort where
  sha256 : String → List UInt8
  sort : List (UInt64 × Nat) → List (UInt64 × Nat)
  perm : ∀ l, (sort l).Perm l
  sorted : ∀ l, (sort l).Pairwise fun a b => a.1 ≤ b.1

/-- `hashDstIp`: the first eight bytes of the digest. -/
def hashDstIp (sha256 : String → List UInt8) (str : String) : UInt64 :=
  ((sha256 str).take 8).foldl (fun result b => (result <<< 8) ||| b.toUInt64) 0

namespace BfsPaths

/-- `kHostMask`: /32 -/
def hostMask : UInt32 := 0xFFFFFFFF

/-- `kPriority` -/
def priority : UInt32 := 100

/-- `ruleExists`, which includes the priority in the identity. -/
def ruleExists (flowTable : List OpenflowRule) (net mask pri : UInt32) : Bool :=
  flowTable.any fun entry => entry.net = net ∧ entry.mask = mask ∧ entry.priority = pri

/-- `flowTable.emplace_back`, unless the rule is there; `flowTable` is made if it is missing. -/
def addRule (tables : OpenflowTables) (dpid : UInt64) (dstIp outPort : UInt32) : OpenflowTables :=
  let flowTable := (tables.lookup dpid).getD []
  let net := dstIp &&& hostMask
  tables.insert dpid <|
    if ruleExists flowTable net hostMask priority then flowTable
    else flowTable ++ [⟨net, hostMask, outPort, priority⟩]

/-- The rule at `current` for the way back to `prev`, `none` for the null vertex. -/
def writeRule (g : Graph) (dstIp : UInt32) (current : Nat) (prev : Option Nat)
    (tables : OpenflowTables) : OpenflowTables :=
  match prev.bind fun prev => g.propsOf ⟨current, prev⟩ with
  | none => tables
  | some edgeProps =>
    if g.dpidOf current ≠ 0 then addRule tables (g.dpidOf current) dstIp edgeProps.srcInterface
    else tables

/-- `isUsable(g[v])` -/
def vertexUsable (g : Graph) (v : Nat) : Bool := (g.vertices[v]?).any VertexProperties.isUsable

/-- The neighbours that are discovered from `current`, before they are sorted. -/
def neighbors (g : Graph) (visited : Finset Nat) (current : Nat) : List Nat :=
  ((g.outEdges current).filter fun edge =>
    vertexUsable g edge.desc.target && edge.props.isUsable && !(edge.desc.target ∈ visited)).map
      fun edge => edge.desc.target

/-- `std::sort` of the neighbours by the hash of destination and dpid. -/
def sortNeighbors (order : NeighborSort) (g : Graph) (dstIp : UInt32) (neighbors : List Nat) :
    List Nat :=
  (order.sort (neighbors.map fun v =>
    (hashDstIp order.sha256 (Utils.ipToString dstIp ++ toString (g.dpidOf v).toNat), v))).map
      Prod.snd

/-- The variables of the search. -/
structure SearchState where
  parent : AssocMap Nat (Option Nat)
  visited : Finset Nat
  q : List Nat
  newOpenflowTables : OpenflowTables

/-- `parent[v]`, which is vertex 0 for a missing key. -/
def SearchState.parentOf (s : SearchState) (v : Nat) : Option Nat :=
  (s.parent.lookup v).getD (some 0)

/-- The search before its loop. -/
def initial (dstSwitch : Nat) (tables : OpenflowTables) : SearchState where
  parent := AList.singleton dstSwitch none
  visited := {dstSwitch}
  q := [dstSwitch]
  newOpenflowTables := tables

/-- One pass of the loop, with `current` taken from the queue. -/
def visitNode (order : NeighborSort) (g : Graph) (dstIp : UInt32) (s : SearchState) (current : Nat)
    (q : List Nat) : SearchState :=
  let found := sortNeighbors order g dstIp (neighbors g s.visited current)
  -- A vertex is visited from when it is discovered, before it is taken from the queue.
  { parent := found.foldl (fun parent v => parent.insert v (some current)) s.parent
    visited := found.foldl (fun visited v => insert v visited) s.visited
    q := q ++ found
    newOpenflowTables := writeRule g dstIp current (s.parentOf current) s.newOpenflowTables }

/-- `while (!q.empty())`, with a bound on the passes: `none` when the bound is too small. -/
def search (order : NeighborSort) (g : Graph) (dstIp : UInt32) :
    Nat → SearchState → Option SearchState
  | 0, _ => none
  | fuel + 1, s =>
    match s.q with
    | [] => some s
    | current :: q => search order g dstIp fuel (visitNode order g dstIp s current q)

/-- `while (v != dstSwitch)`, with a bound on the passes. There is no edge from the null vertex, and
    the loop never gets there. -/
def walkBack (g : Graph) (s : SearchState) (dstSwitch : Nat) : Nat → Nat → Path → Option Path
  | 0, _, _ => none
  | fuel + 1, v, path =>
    if v = dstSwitch then some path
    else
      match s.parentOf v with
      | none => none
      | some nextHop =>
        walkBack g s dstSwitch fuel nextHop <|
          match g.propsOf ⟨v, nextHop⟩ with
          | some props => path ++ [(g.dpidOf v, props.srcInterface)]
          | none => path

/-- One pass of the loop over `allHostIps`, on `allPaths` and the tables. -/
def addPath (g : Graph) (s : SearchState) (dstSwitch : Nat) (dstIp : UInt32)
    (acc : List Path × OpenflowTables) (srcIp : UInt32) : Option (List Path × OpenflowTables) :=
  if srcIp = dstIp then some acc
  else
    match g.findVertexByIp srcIp, g.findEdgeByHostIp srcIp with
    | none, _ => some acc
    | some _, none => some acc
    | some _, some edge =>
      let srcSwitch := edge.target
      let srcOutPort := ((g.propsOf edge).map EdgeProperties.dstInterface).getD 0
      if srcSwitch ∉ s.visited then some acc
      else
        match walkBack g s dstSwitch (g.vertices.length + 2) srcSwitch
            [(srcIp.toUInt64, srcOutPort)] with
        | none => none
        | some path =>
          match g.findVertexByIp dstIp with
          | none => some acc
          | some dstHost =>
            -- The last hop and the rule of the destination switch, when the host hangs on it.
            match g.propsOf ⟨dstSwitch, dstHost⟩ with
            | some props =>
              some (acc.1 ++
                  [path ++ [(g.dpidOf dstSwitch, props.srcInterface)] ++ [(dstIp.toUInt64, 0)]],
                addRule acc.2 (g.dpidOf dstSwitch) dstIp props.srcInterface)
            | none => some (acc.1 ++ [path ++ [(dstIp.toUInt64, 0)]], acc.2)

end BfsPaths

/-- `bfsAllPathsToDst`: the paths, and `newOpenflowTables` afterwards. -/
def Graph.bfsAllPathsToDst (g : Graph) (order : NeighborSort) (dstSwitch : Nat) (dstIp : UInt32)
    (allHostIps : List UInt32) (newOpenflowTables : OpenflowTables) :
    Option (List Path × OpenflowTables) :=
  match BfsPaths.search order g dstIp (g.vertices.length + 2)
      (BfsPaths.initial dstSwitch newOpenflowTables) with
  | none => none
  | some s => allHostIps.foldlM (BfsPaths.addPath g s dstSwitch dstIp) ([], s.newOpenflowTables)

end Ndtwin.Kernel

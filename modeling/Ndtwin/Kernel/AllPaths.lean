import Ndtwin.Kernel.DestinationPaths
import Ndtwin.Kernel.Graph
import Ndtwin.Kernel.SFlowType
import Mathlib.Data.Finset.Basic

/-!
# All paths between two switches

`getAllPathsBetweenTwoHosts` of `src/ndt_core/collection/TopologyAndFlowMonitor.cpp`: a
depth-first search that keeps the path so far and the vertices on it in two variables of its
own, pushes and pops around each recursive call, and copies the path where it gets to the
destination. The log lines are left out.
-/

namespace Ndtwin.Kernel

/-- `boost::out_edges`: the edges of a vertex, by target. -/
def Graph.outEdges (g : Graph) (u : Nat) : List Edge := g.edges.filter fun e => e.desc.source = u

namespace AllPaths

/-- What the closure `dfs` captures by reference and changes. -/
structure DfsState where
  visited : Finset Nat := ∅
  currentPath : Path
  paths : List Path := []

/-- `current_path.push_back` -/
def DfsState.push (s : DfsState) (node : UInt64 × UInt32) : DfsState :=
  { s with currentPath := s.currentPath ++ [node] }

/-- `current_path.pop_back` -/
def DfsState.pop (s : DfsState) : DfsState := { s with currentPath := s.currentPath.dropLast }

/-- `paths.push_back(current_path)` -/
def DfsState.store (s : DfsState) : DfsState := { s with paths := s.paths ++ [s.currentPath] }

/-- One pass of the loop over the out-edges, given the recursive call. -/
def visitEdge (dfs : Nat → DfsState → Option DfsState) (s : DfsState) (e : Edge) :
    Option DfsState :=
  if e.desc.target ∈ s.visited then some s
  else if e.props.isUsable then
    (dfs e.desc.target (s.push (e.props.srcDpid, e.props.srcInterface))).map DfsState.pop
  else some s

/-- `dfs`, with the depth of the recursion bounded: `none` when the bound is too small. -/
def dfs (g : Graph) (dstV : Nat) (dstSwDpid : UInt64) (dstIP : UInt32) :
    Nat → Nat → DfsState → Option DfsState
  | 0, _, _ => none
  | fuel + 1, u, s =>
    if u = dstV then some ((s.push (dstSwDpid, 0)).push (dstIP.toUInt64, 0)).store.pop.pop
    else
      ((g.outEdges u).foldlM (visitEdge (dfs g dstV dstSwDpid dstIP fuel))
        { s with visited := insert u s.visited }).map fun s =>
          { s with visited := s.visited.erase u }

end AllPaths

/-- `getAllPathsBetweenTwoHosts` -/
def Graph.getAllPathsBetweenTwoHosts (g : Graph) (flowKey : SFlow.FlowKey)
    (srcSwDpid dstSwDpid : UInt64) : Option (List Path) :=
  match g.findSwitchByDpid srcSwDpid, g.findSwitchByDpid dstSwDpid with
  | some srcV, some dstV =>
    (AllPaths.dfs g dstV dstSwDpid flowKey.dstIP (g.vertices.length + 1) srcV
      { currentPath := [(flowKey.srcIP.toUInt64, 0)] }).map AllPaths.DfsState.paths
  | _, _ => some []

end Ndtwin.Kernel

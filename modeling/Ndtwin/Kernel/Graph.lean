import Mathlib.Algebra.Order.Ring.Int
import Mathlib.Data.List.Pairwise

/-!
# The topology graph

`include/common_types/GraphTypes.hpp`: a directed graph of switches and hosts. The type is
`boost::adjacency_list<setS, vecS, directedS, …>`, so a vertex descriptor is an index, there
is at most one edge from one vertex to another, and `boost::edges` visits the edges by
source, then by target. The fields that the modelled functions neither read nor write
(names, bandwidths, flow sets) are left out.
-/

namespace Ndtwin.Kernel

inductive VertexType where
  | switch
  | host
  deriving DecidableEq, Repr

structure VertexProperties where
  vertexType : VertexType
  mac : UInt64 := 0
  ip : List UInt32
  dpid : UInt64
  isUp : Bool := true
  isEnabled : Bool := true
  /-- An operator asked for this to be out of service. -/
  adminDisabled : Bool := false
  deriving DecidableEq, Repr

structure EdgeProperties where
  isUp : Bool := true
  isEnabled : Bool := true
  adminDisabled : Bool := false
  srcIp : List UInt32
  srcDpid : UInt64
  srcInterface : UInt32
  dstIp : List UInt32
  dstDpid : UInt64
  dstInterface : UInt32
  deriving DecidableEq, Repr

/-- `isUsable` of a vertex. -/
def VertexProperties.isUsable (v : VertexProperties) : Bool :=
  v.isUp && v.isEnabled && !v.adminDisabled

/-- `isUsable` of an edge. -/
def EdgeProperties.isUsable (e : EdgeProperties) : Bool :=
  e.isUp && e.isEnabled && !e.adminDisabled

/-- An edge descriptor: `boost::source` and `boost::target`. -/
structure EdgeDesc where
  source : Nat
  target : Nat
  deriving DecidableEq, Repr

/-- The order in which `boost::edges` visits. -/
def EdgeDesc.before (a b : EdgeDesc) : Prop :=
  a.source < b.source ∨ (a.source = b.source ∧ a.target < b.target)

instance (a b : EdgeDesc) : Decidable (a.before b) :=
  inferInstanceAs (Decidable (_ ∨ _))

/-- An edge with its properties. -/
structure Edge where
  desc : EdgeDesc
  props : EdgeProperties
  deriving DecidableEq, Repr

structure Graph where
  vertices : List VertexProperties
  edges : List Edge
  /-- Both ends of an edge are vertices. -/
  inRange : ∀ e ∈ edges, e.desc.source < vertices.length ∧ e.desc.target < vertices.length
  /-- In iteration order, so no two edges share both ends. -/
  sorted : edges.Pairwise fun a b => a.desc.before b.desc

namespace Graph

/-- Rewrite the properties of the vertices that pass a test. -/
def updateVertices (g : Graph) (test : Nat → Bool) (f : VertexProperties → VertexProperties) :
    Graph where
  vertices := g.vertices.mapIdx fun i v => if test i then f v else v
  edges := g.edges
  inRange := by
    rw [List.length_mapIdx]
    exact g.inRange
  sorted := g.sorted

/-- Rewrite the properties of the edges that pass a test. -/
def updateEdges (g : Graph) (test : EdgeDesc → Bool) (f : EdgeProperties → EdgeProperties) :
    Graph where
  vertices := g.vertices
  edges := g.edges.map fun e => if test e.desc then { e with props := f e.props } else e
  inRange := by
    intro e he
    obtain ⟨e₀, he₀, rfl⟩ := List.mem_map.mp he
    have h := g.inRange e₀ he₀
    split
    · exact h
    · exact h
  sorted := by
    rw [List.pairwise_map]
    refine g.sorted.imp fun {a b} hab => ?_
    have hdesc : ∀ e : Edge, (if test e.desc = true then { e with props := f e.props } else e).desc =
        e.desc := by
      intro e
      split <;> rfl
    rw [hdesc, hdesc]
    exact hab

/-- A graph without edges. -/
def edgeless (vertices : List VertexProperties) : Graph where
  vertices := vertices
  edges := []
  inRange := fun _ he => absurd he List.not_mem_nil
  sorted := .nil

/-- No two edges share their ends. -/
theorem edge_eq_of_desc_eq {g : Graph} {e e' : Edge} (he : e ∈ g.edges) (he' : e' ∈ g.edges)
    (h : e.desc = e'.desc) : e = e' := by
  have hdistinct : g.edges.Pairwise fun a b => a.desc ≠ b.desc := by
    refine g.sorted.imp fun {a b} hab heq => ?_
    unfold EdgeDesc.before at hab
    rw [heq] at hab
    omega
  have hsymm : Std.Symm fun a b : Edge => a.desc ≠ b.desc := ⟨fun _ _ hab => hab.symm⟩
  by_contra hne
  exact hdistinct.forall he he' hne h

/-- `(*m_graph)[v]` written through. -/
def updateVertex (g : Graph) (v : Nat) (f : VertexProperties → VertexProperties) : Graph :=
  g.updateVertices (· = v) f

theorem getElem?_updateVertex (g : Graph) (v i : Nat) (f : VertexProperties → VertexProperties) :
    (g.updateVertex v f).vertices[i]? = (g.vertices[i]?).map fun p => if i = v then f p else p := by
  show (g.vertices.mapIdx _)[i]? = _
  rw [List.getElem?_mapIdx]
  simp only [decide_eq_true_eq]

/-- `(*m_graph)[e]` written through. -/
def updateEdge (g : Graph) (e : EdgeDesc) (f : EdgeProperties → EdgeProperties) : Graph :=
  g.updateEdges (· = e) f

/-! ## Reading -/

/-- `g[v].dpid` -/
def dpidOf (g : Graph) (v : Nat) : UInt64 := ((g.vertices[v]?).map VertexProperties.dpid).getD 0

/-- `g[e]`, where the edge exists. -/
def propsOf (g : Graph) (e : EdgeDesc) : Option EdgeProperties :=
  (g.edges.find? fun edge => edge.desc = e).map Edge.props

theorem propsOf_eq_some_iff {g : Graph} {d : EdgeDesc} {p : EdgeProperties} :
    g.propsOf d = some p ↔ ⟨d, p⟩ ∈ g.edges := by
  rw [propsOf, Option.map_eq_some_iff]
  constructor
  · rintro ⟨e, hfind, rfl⟩
    have hdesc : e.desc = d := by simpa using List.find?_some hfind
    subst hdesc
    exact List.mem_of_find?_eq_some hfind
  · intro hmem
    cases hfind : g.edges.find? fun edge => edge.desc = d with
    | none => exact absurd (decide_eq_true rfl) (List.find?_eq_none.mp hfind _ hmem)
    | some e =>
      have hdesc : e.desc = d := by simpa using List.find?_some hfind
      exact ⟨e, rfl, congrArg Edge.props
        (edge_eq_of_desc_eq (List.mem_of_find?_eq_some hfind) hmem hdesc)⟩

theorem propsOf_desc {g : Graph} {e : Edge} (he : e ∈ g.edges) :
    g.propsOf e.desc = some e.props :=
  propsOf_eq_some_iff.mpr he

/-! ## Linear searches -/

/-- The first vertex, in order of descriptors, whose properties pass a test. -/
def findVertex (g : Graph) (test : VertexProperties → Bool) : Option Nat :=
  g.vertices.findIdx? test

/-- The first edge, in iteration order, whose properties pass a test. -/
def findEdge (g : Graph) (test : EdgeProperties → Bool) : Option EdgeDesc :=
  (g.edges.find? fun e => test e.props).map Edge.desc

/-- `findSwitchByDpid`, with or without the lock. -/
def findSwitchByDpid (g : Graph) (dpid : UInt64) : Option Nat :=
  g.findVertex fun v => v.vertexType = .switch ∧ v.dpid = dpid

/-- `findVertexByMac` -/
def findVertexByMac (g : Graph) (mac : UInt64) : Option Nat :=
  g.findVertex fun v => v.mac = mac

/-- `findVertexByIp`, with or without the lock. -/
def findVertexByIp (g : Graph) (ip : UInt32) : Option Nat := g.findVertex fun v => v.ip.contains ip

/-- `findEdgeByHostIp` of one address. -/
def findEdgeByHostIp (g : Graph) (hostIp : UInt32) : Option EdgeDesc :=
  g.findEdge fun e => e.srcIp.contains hostIp

/-- `findEdgeBySrcAndDstIp` -/
def findEdgeBySrcAndDstIp (g : Graph) (srcIp dstIp : UInt32) : Option EdgeDesc :=
  g.findEdge fun e => e.srcIp.contains srcIp && e.dstIp.contains dstIp

/-- `findEdgeByDpidAndPort`, with or without the lock. -/
def findEdgeByDpidAndPort (g : Graph) (dpid : UInt64) (port : UInt32) : Option EdgeDesc :=
  g.findEdge fun e => e.srcDpid = dpid ∧ e.srcInterface = port

/-- `findEdgeBySrcAndDstDpid`, with or without the lock. -/
def findEdgeBySrcAndDstDpid (g : Graph) (srcDpid dstDpid : UInt64) : Option EdgeDesc :=
  g.findEdge fun e => e.srcDpid = srcDpid ∧ e.dstDpid = dstDpid

theorem exists_of_findEdge {g : Graph} {test : EdgeProperties → Bool} {d : EdgeDesc}
    (h : g.findEdge test = some d) : ∃ e ∈ g.edges, e.desc = d ∧ test e.props = true := by
  obtain ⟨e, hfind, hdesc⟩ := Option.map_eq_some_iff.mp h
  have htest := List.find?_some hfind
  exact ⟨e, List.mem_of_find?_eq_some hfind, hdesc, htest⟩

end Graph

end Ndtwin.Kernel

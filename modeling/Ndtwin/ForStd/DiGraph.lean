import Mathlib.Algebra.Order.Ring.Int
import Ndtwin.ForStd.AssocMap

/-!
# Directed graphs as networkx keeps them

`DiGraph V α` has at most one edge for each ordered pair of nodes, and an attribute of type `α`
on it. Nodes keep the order in which they were added. An edge makes its ends nodes; removing it
leaves them. Each operation on edges comes with the lemma that says how `edge?` sees it.
-/

/-- A directed graph with an attribute on every edge. -/
structure DiGraph (V α : Type*) where
  nodes : List V := []
  edges : AssocMap (V × V) α := ∅

namespace DiGraph

variable {V α : Type*} [DecidableEq V]

/-- The attribute of the edge from `u` to `v`. -/
def edge? (g : DiGraph V α) (u v : V) : Option α := g.edges.lookup (u, v)

/-- `g.has_edge(u, v)` -/
def hasEdge (g : DiGraph V α) (u v : V) : Bool := (g.edge? u v).isSome

/-- `g.add_node(v)` -/
def addNode (g : DiGraph V α) (v : V) : DiGraph V α :=
  if v ∈ g.nodes then g else { g with nodes := g.nodes ++ [v] }

/-- `g.add_edge(u, v, attr=a)`: an edge that is there gets the new attribute. -/
def addEdge (g : DiGraph V α) (u v : V) (a : α) : DiGraph V α :=
  let g := (g.addNode u).addNode v
  { g with edges := g.edges.set (u, v) a }

/-- `g.remove_edge(u, v)` -/
def removeEdge (g : DiGraph V α) (u v : V) : DiGraph V α :=
  { g with edges := g.edges.erase (u, v) }

/-- `list(g.neighbors(u))`: the successors, in the order in which their edges were added. -/
def neighbors (g : DiGraph V α) (u : V) : List V :=
  (g.edges.toPairs.filter fun e => e.1.1 = u).map fun e => e.1.2

theorem mem_neighbors {g : DiGraph V α} {u v : V} : v ∈ g.neighbors u ↔ g.hasEdge u v = true := by
  rw [neighbors, List.mem_map, hasEdge, Option.isSome_iff_exists]
  constructor
  · rintro ⟨⟨⟨u', v'⟩, a⟩, hmem, rfl⟩
    obtain ⟨hpair, hsource⟩ := List.mem_filter.mp hmem
    obtain rfl : u' = u := of_decide_eq_true hsource
    exact ⟨a, AssocMap.mem_toPairs.mp hpair⟩
  · rintro ⟨a, ha⟩
    exact ⟨((u, v), a), List.mem_filter.mpr ⟨AssocMap.mem_toPairs.mpr ha, decide_eq_true rfl⟩, rfl⟩

theorem nodup_neighbors (g : DiGraph V α) (u : V) : (g.neighbors u).Nodup := by
  have hkeys : ((g.edges.toPairs.filter fun e => e.1.1 = u).map Prod.fst).Nodup :=
    g.edges.nodup_keys_toPairs.sublist (List.filter_sublist.map Prod.fst)
  have hsnd : g.neighbors u =
      ((g.edges.toPairs.filter fun e => e.1.1 = u).map Prod.fst).map Prod.snd := by
    rw [neighbors, List.map_map]
    rfl
  rw [hsnd]
  refine hkeys.map_on fun a ha b hb heq => ?_
  obtain ⟨e, he, rfl⟩ := List.mem_map.mp ha
  obtain ⟨e', he', rfl⟩ := List.mem_map.mp hb
  have hsource : e.1.1 = u := of_decide_eq_true (List.mem_filter.mp he).2
  have hsource' : e'.1.1 = u := of_decide_eq_true (List.mem_filter.mp he').2
  exact Prod.ext (hsource.trans hsource'.symm) heq

@[simp] theorem edge?_addNode (g : DiGraph V α) (w u v : V) :
    (g.addNode w).edge? u v = g.edge? u v := by
  unfold addNode
  split
  · rfl
  · rfl

theorem edge?_addEdge (g : DiGraph V α) (u v u' v' : V) (a : α) :
    (g.addEdge u v a).edge? u' v' = if (u', v') = (u, v) then some a else g.edge? u' v' := by
  have hedges : ((g.addNode u).addNode v).edge? u' v' = g.edge? u' v' := by simp
  unfold addEdge edge?
  rw [AssocMap.lookup_set]
  split
  · rfl
  · exact hedges

theorem edge?_removeEdge (g : DiGraph V α) (u v u' v' : V) :
    (g.removeEdge u v).edge? u' v' = if (u', v') = (u, v) then none else g.edge? u' v' :=
  AssocMap.lookup_erase_eq g.edges (u, v) (u', v')

theorem nodes_addNode_of_not_mem {g : DiGraph V α} {v : V} (h : v ∉ g.nodes) :
    (g.addNode v).nodes = g.nodes ++ [v] := by rw [addNode, if_neg h]

theorem nodes_prefix_addNode (g : DiGraph V α) (v : V) : g.nodes <+: (g.addNode v).nodes := by
  unfold addNode
  split
  · exact List.prefix_rfl
  · exact List.prefix_append _ _

theorem nodes_prefix_addEdge (g : DiGraph V α) (u v : V) (a : α) :
    g.nodes <+: (g.addEdge u v a).nodes :=
  (g.nodes_prefix_addNode u).trans ((g.addNode u).nodes_prefix_addNode v)

end DiGraph

import Mathlib.Data.Finset.Card
import Mathlib.Data.Finset.Sort
import Mathlib.Data.List.Nodup

/-!
# Simple paths

A directed graph is given by the edges that leave a node (`out`) and the node an edge leads to
(`target`). `paths` lists, by backtracking, the edge lists of the simple paths from a node to a
target; nodes in `visited` are avoided, and `fuel` bounds the nodes of a path.

## Key results

- `mem_paths_iff`: the list holds exactly the simple paths that avoid `visited`
- `nodup_paths`: each of them once
- `length_lt_of_nodup`: how much fuel a finite graph needs
-/

namespace SimplePath

variable {V E : Type*}

/-- `es` are the edges of a walk from a node to `t`. -/
inductive IsWalk (out : V → List E) (target : E → V) (t : V) : V → List E → Prop
  | arrive : IsWalk out target t t []
  | step {u : V} {e : E} {es : List E} :
      e ∈ out u → IsWalk out target t (target e) es → IsWalk out target t u (e :: es)

/-- The nodes of a walk from `u`. -/
def nodes (target : E → V) (u : V) (es : List E) : List V := u :: es.map target

variable {out : V → List E} {target : E → V} {t : V}

theorem IsWalk.target_mem {u : V} {es : List E} (h : IsWalk out target t u es) :
    t ∈ nodes target u es := by
  induction h with
  | arrive => exact List.mem_cons_self
  | step _ _ ih => exact List.mem_cons_of_mem _ ih

/-- A walk without repetition ends where it first gets to its target. -/
theorem IsWalk.eq_nil_of_nodup {es : List E} (h : IsWalk out target t t es)
    (hnodup : (nodes target t es).Nodup) : es = [] := by
  cases h with
  | arrive => rfl
  | step he hes => exact absurd hes.target_mem (List.nodup_cons.mp hnodup).1

variable [DecidableEq V]

/-- The simple paths from a node to the target. -/
def paths (out : V → List E) (target : E → V) (t : V) : Nat → Finset V → V → List (List E)
  | 0, _, _ => []
  | fuel + 1, visited, u =>
    if u = t then [[]]
    else
      (out u).flatMap fun e =>
        if target e ∈ insert u visited then []
        else (paths out target t fuel (insert u visited) (target e)).map (e :: ·)

/-- The list holds the simple paths that avoid `visited` and fit the fuel. -/
theorem mem_paths_iff {fuel : Nat} {visited : Finset V} {u : V} (hu : u ∉ visited)
    {es : List E} :
    es ∈ paths out target t fuel visited u ↔
      IsWalk out target t u es ∧ (nodes target u es).Nodup ∧
        (∀ v ∈ nodes target u es, v ∉ visited) ∧ es.length < fuel := by
  induction fuel generalizing visited u es with
  | zero => simp [paths]
  | succ fuel ih =>
    unfold paths
    by_cases hut : u = t
    · subst hut
      rw [if_pos rfl, List.mem_singleton]
      constructor
      · intro hes
        subst hes
        exact ⟨.arrive, List.nodup_singleton u, by simpa [nodes] using hu, Nat.succ_pos fuel⟩
      · exact fun h => h.1.eq_nil_of_nodup h.2.1
    · rw [if_neg hut, List.mem_flatMap]
      constructor
      · intro ⟨e, he, hes⟩
        split at hes
        · exact absurd hes List.not_mem_nil
        · rename_i hfresh
          obtain ⟨es', hes', rfl⟩ := List.mem_map.mp hes
          obtain ⟨hwalk, hnodup, havoid, hlen⟩ := (ih hfresh).mp hes'
          -- the rest of the path avoids `u`, which was put among the visited nodes
          have hu' : u ∉ nodes target (target e) es' := fun hmem =>
            havoid u hmem (Finset.mem_insert_self u visited)
          refine ⟨.step he hwalk, List.nodup_cons.mpr ⟨hu', hnodup⟩, ?_, Nat.succ_lt_succ hlen⟩
          intro v hv
          rcases List.mem_cons.mp hv with rfl | hv
          · exact hu
          · exact fun hvis => havoid v hv (Finset.mem_insert_of_mem hvis)
      · intro ⟨hwalk, hnodup, havoid, hlen⟩
        cases hwalk with
        | arrive => exact absurd rfl hut
        | @step _ e es' he hes' =>
          have hsplit : u ∉ nodes target (target e) es' ∧ (nodes target (target e) es').Nodup :=
            List.nodup_cons.mp hnodup
          have havoid' : ∀ v ∈ nodes target (target e) es', v ∉ insert u visited := by
            intro v hv hmem
            rcases Finset.mem_insert.mp hmem with rfl | hmem
            · exact hsplit.1 hv
            · exact havoid v (List.mem_cons_of_mem u hv) hmem
          have hfresh : target e ∉ insert u visited := havoid' _ List.mem_cons_self
          refine ⟨e, he, ?_⟩
          rw [if_neg hfresh]
          exact List.mem_map_of_mem
            ((ih hfresh).mpr ⟨hes', hsplit.2, havoid', Nat.lt_of_succ_lt_succ hlen⟩)

/-- No path is listed twice if no node lists an edge twice. -/
theorem nodup_paths (hout : ∀ v, (out v).Nodup) (fuel : Nat) (visited : Finset V) (u : V) :
    (paths out target t fuel visited u).Nodup := by
  induction fuel generalizing visited u with
  | zero => exact List.nodup_nil
  | succ fuel ih =>
    unfold paths
    split
    · exact List.nodup_singleton []
    · rw [List.nodup_flatMap]
      constructor
      · intro e _
        split
        · exact List.nodup_nil
        · exact (ih _ _).map fun a b h => (List.cons.inj h).2
      · -- paths through different edges differ in their first edge
        refine (hout u).imp fun {e e'} hne => ?_
        intro es hes hes'
        dsimp only at hes hes'
        split at hes
        · exact List.not_mem_nil hes
        · split at hes'
          · exact List.not_mem_nil hes'
          · obtain ⟨_, _, rfl⟩ := List.mem_map.mp hes
            obtain ⟨_, _, heq⟩ := List.mem_map.mp hes'
            exact hne (List.cons.inj heq).1.symm

/-- A simple path among finitely many nodes has fewer edges than there are nodes. -/
theorem length_lt_of_nodup {s : Finset V} {u : V} {es : List E}
    (hnodup : (nodes target u es).Nodup) (hs : ∀ v ∈ nodes target u es, v ∈ s) :
    es.length < s.card := by
  have hcard : (nodes target u es).toFinset.card = es.length + 1 := by
    rw [List.toFinset_card_of_nodup hnodup]
    simp [nodes]
  have hsub : (nodes target u es).toFinset ⊆ s := fun v hv => hs v (List.mem_toFinset.mp hv)
  have hle := Finset.card_le_card hsub
  omega

end SimplePath

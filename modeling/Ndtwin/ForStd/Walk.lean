import Mathlib.Data.List.Nodup

/-!
# Following a partial function

`follow next target` goes from node to node as `next` says until it gets to `target`, and gives
up where `next` is undefined or leads back to a node it has been at. `fuel` bounds the nodes it
visits. `Route` is the same walk as a relation, without a bound.

## Key results

- `follow_eq_some_iff`: `follow` finds a route exactly when there is one without repetition, if
  the fuel is as large as the number of nodes
-/

namespace Walk

variable {V : Type*} [DecidableEq V]

/-- The nodes visited, the ones in `visited` first. -/
def follow (next : V → Option V) (target : V) : Nat → List V → V → Option (List V)
  | 0, _, _ => none
  | fuel + 1, visited, v =>
    let visited := visited ++ [v]
    if v = target then some visited
    else
      match next v with
      | none => none
      | some w => if w ∈ visited then none else follow next target fuel visited w

/-- `ns` are the nodes from `v` to the target, each one hop from the one before it. -/
inductive Route (hop : V → V → Prop) (target : V) : V → List V → Prop
  | arrive : Route hop target target [target]
  | step {v w : V} {ns : List V} : hop v w → Route hop target w ns → Route hop target v (v :: ns)

variable {next : V → Option V} {hop : V → V → Prop} {target : V}

omit [DecidableEq V] in
/-- A route starts where it starts. -/
theorem Route.exists_cons {v : V} {ns : List V} (h : Route hop target v ns) :
    ∃ rest, ns = v :: rest := by
  cases h with
  | arrive => exact ⟨[], rfl⟩
  | step _ _ => exact ⟨_, rfl⟩

omit [DecidableEq V] in
/-- A route ends at the target. -/
theorem Route.getLast? {v : V} {ns : List V} (h : Route hop target v ns) :
    ns.getLast? = some target := by
  induction h with
  | arrive => rfl
  | step _ hroute ih =>
    obtain ⟨rest, rfl⟩ := hroute.exists_cons
    rw [List.getLast?_cons_cons]
    exact ih

omit [DecidableEq V] in
theorem Route.target_mem {v : V} {ns : List V} (h : Route hop target v ns) : target ∈ ns :=
  List.mem_of_getLast? h.getLast?

omit [DecidableEq V] in
/-- A route that goes on from its target. -/
theorem Route.concat {hop' : V → V → Prop} {last : V} {v : V} {ns : List V}
    (h : Route hop target v ns) (hhop : ∀ u w, hop u w → hop' u w) (hlast : hop' target last) :
    Route hop' last v (ns ++ [last]) := by
  induction h with
  | arrive => exact .step hlast .arrive
  | step huw _ ih => exact .step (hhop _ _ huw) ih

omit [DecidableEq V] in
/-- Hops that come closer each time lead to the target, and to no node twice. -/
theorem exists_route_of_closer {dist : V → ℕ → Prop} (hzero : ∀ v, dist v 0 → v = target)
    (hunique : ∀ v n m, dist v n → dist v m → n = m)
    (hcloser : ∀ v n, dist v (n + 1) → ∃ w, hop v w ∧ dist w n) {v : V} {n : ℕ} (h : dist v n) :
    ∃ ns, Route hop target v ns ∧ ns.length = n + 1 ∧ ns.Nodup ∧
      ∀ i w, ns[i]? = some w → i ≤ n ∧ dist w (n - i) := by
  induction n generalizing v with
  | zero =>
    obtain rfl := hzero v h
    refine ⟨[v], .arrive, rfl, List.nodup_singleton v, fun i w hw => ?_⟩
    rw [List.getElem?_singleton] at hw
    obtain ⟨rfl, hw⟩ := Option.ite_none_right_eq_some.mp hw
    exact ⟨Nat.le_refl 0, Option.some.inj hw ▸ h⟩
  | succ n ih =>
    obtain ⟨w, hhop, hw⟩ := hcloser v n h
    obtain ⟨ns, hroute, hlen, hnodup, hdist⟩ := ih hw
    -- A vertex of the rest lies closer to the target than `v`.
    have hfresh : v ∉ ns := by
      intro hmem
      obtain ⟨i, hi⟩ := List.mem_iff_getElem?.mp hmem
      have hsame := hunique v _ _ h (hdist i v hi).2
      omega
    refine ⟨v :: ns, .step hhop hroute, ?_, List.nodup_cons.mpr ⟨hfresh, hnodup⟩, ?_⟩
    · rw [List.length_cons, hlen]
    · intro i u hu
      cases i with
      | zero =>
        rw [List.getElem?_cons_zero] at hu
        exact ⟨Nat.zero_le _, Option.some.inj hu ▸ h⟩
      | succ i =>
        rw [List.getElem?_cons_succ] at hu
        obtain ⟨hi, hdu⟩ := hdist i u hu
        rw [Nat.add_sub_add_right]
        exact ⟨Nat.succ_le_succ hi, hdu⟩

/-- What `follow` returns is a route without repetition. -/
theorem route_of_follow {fuel : Nat} {visited path : List V} {v : V}
    (hnext : ∀ u w, next u = some w → hop u w) (hnodup : (visited ++ [v]).Nodup)
    (h : follow next target fuel visited v = some path) :
    ∃ ns, path = visited ++ ns ∧ Route hop target v ns ∧ (visited ++ ns).Nodup := by
  induction fuel generalizing visited v with
  | zero => exact nomatch h
  | succ fuel ih =>
    simp only [follow] at h
    split at h
    · next hv =>
      subst hv
      exact ⟨[v], (Option.some.inj h).symm, .arrive, hnodup⟩
    · split at h
      · exact nomatch h
      · next w hw =>
        split at h
        · exact nomatch h
        · next hfresh =>
          -- The walk stops at a vertex it has visited, so it never repeats one.
          have hnodup' : (visited ++ [v] ++ [w]).Nodup := by
            rw [List.nodup_append]
            refine ⟨hnodup, List.nodup_singleton w, ?_⟩
            rintro a ha b hb rfl
            rw [List.mem_singleton.mp hb] at ha
            exact hfresh ha
          obtain ⟨ns, rfl, hroute, hall⟩ := ih hnodup' h
          refine ⟨v :: ns, by simp, .step (hnext v w hw) hroute, ?_⟩
          rwa [List.append_assoc, List.singleton_append] at hall

/-- `follow` finds the route, if the fuel is enough for its nodes. -/
theorem follow_of_route {fuel : Nat} {visited ns : List V} {v : V}
    (hnext : ∀ u w, hop u w → next u = some w) (hroute : Route hop target v ns)
    (hnodup : (visited ++ ns).Nodup) (hfuel : ns.length ≤ fuel) :
    follow next target fuel visited v = some (visited ++ ns) := by
  induction hroute generalizing fuel visited with
  | arrive =>
    obtain ⟨fuel, rfl⟩ : ∃ k, fuel = k + 1 := ⟨fuel - 1, by simp at hfuel; omega⟩
    simp [follow]
  | @step v w ns hhop hroute ih =>
    obtain ⟨fuel, rfl⟩ : ∃ k, fuel = k + 1 := ⟨fuel - 1, by simp at hfuel; omega⟩
    have hshift : visited ++ v :: ns = visited ++ [v] ++ ns := by simp
    rw [hshift] at hnodup ⊢
    -- the target comes later on the route, so it is not this node
    have hv : v ≠ target := by
      rintro rfl
      exact List.disjoint_of_nodup_append hnodup (by simp) hroute.target_mem
    obtain ⟨rest, hns⟩ := hroute.exists_cons
    have hfresh : w ∉ visited ++ [v] := by
      intro hmem
      exact List.disjoint_of_nodup_append hnodup hmem (by rw [hns]; exact List.mem_cons_self)
    have hrest := @ih fuel (visited ++ [v]) hnodup (by simpa using hfuel)
    simp only [follow, if_neg hv, hnext v w hhop, if_neg hfresh]
    exact hrest

/-- `follow` finds a route exactly when there is one that repeats no node. -/
theorem follow_eq_some_iff {fuel : Nat} {visited path nodes : List V} {v : V}
    (hnext : ∀ u w, next u = some w ↔ hop u w) (hnodup : (visited ++ [v]).Nodup)
    (hnodes : ∀ ns, Route hop target v ns → ns ⊆ nodes) (hfuel : nodes.length ≤ fuel) :
    follow next target fuel visited v = some path ↔
      ∃ ns, path = visited ++ ns ∧ Route hop target v ns ∧ (visited ++ ns).Nodup := by
  constructor
  · exact route_of_follow (fun u w h => (hnext u w).mp h) hnodup
  · rintro ⟨ns, rfl, hroute, hall⟩
    apply follow_of_route (fun u w h => (hnext u w).mpr h) hroute hall
    have hsub : ns.length ≤ nodes.length :=
      List.Nodup.length_le_of_subset hall.of_append_right (hnodes ns hroute)
    omega

end Walk

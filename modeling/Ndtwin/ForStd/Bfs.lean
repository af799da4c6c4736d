import Mathlib.Data.List.Nodup
import Mathlib.Data.List.Perm.Basic
import Mathlib.Data.Nat.Find
import Mathlib.Order.Nat
import Ndtwin.ForStd.Walk

/-!
# Breadth-first search

A search from `root` over the successors of a node. The node at the front of the queue is taken
out, and its successors that were not seen before are put at the end, in an order that the search
may choose. `parent` is the node that discovered a node, `depth` one more than the depth of that
node.

## Key results

- `Inv`: seen nodes lie in layers, kept by every step (`Inv.visit`)
- `Inv.isDist`: at the end the depth of a node is its distance from the root
- `Inv.exists_route`: the parents lead back to the root along as many nodes
- `onShortest_of_reaches`: which steps lie on a shortest walk
- `parent_of_lead`: any shortest walk is followed by the parents, in a suitable order
-/

namespace Bfs

variable {V : Type*}

/-- There is a walk of `n` steps from the root. -/
inductive Reaches (succ : V → List V) (root : V) : ℕ → V → Prop
  | root : Reaches succ root 0 root
  | step {n : ℕ} {u w : V} : Reaches succ root n u → w ∈ succ u → Reaches succ root (n + 1) w

/-- The shortest walks from the root have `n` steps. -/
structure IsDist (succ : V → List V) (root v : V) (n : ℕ) : Prop where
  reaches : Reaches succ root n v
  le : ∀ m, Reaches succ root m v → n ≤ m

theorem IsDist.unique {succ : V → List V} {root v : V} {n m : ℕ} (hn : IsDist succ root v n)
    (hm : IsDist succ root v m) : n = m :=
  Nat.le_antisymm (hn.le m hm.reaches) (hm.le n hn.reaches)

/-- Only which successors a node has matters. -/
theorem Reaches.congr {succ succ' : V → List V} (h : ∀ u w, w ∈ succ u → w ∈ succ' u) {root v : V}
    {n : ℕ} (hv : Reaches succ root n v) : Reaches succ' root n v := by
  induction hv with
  | root => exact .root
  | step _ hw ih => exact .step ih (h _ _ hw)

theorem IsDist.congr {succ succ' : V → List V} (h : ∀ u w, w ∈ succ u ↔ w ∈ succ' u) {root v : V}
    {n : ℕ} (hv : IsDist succ root v n) : IsDist succ' root v n :=
  ⟨hv.reaches.congr fun u w => (h u w).mp,
    fun m hm => hv.le m (hm.congr fun u w => (h u w).mpr)⟩

/-- What can be reached has a distance. -/
theorem Reaches.exists_isDist {succ : V → List V} {root v : V} {n : ℕ}
    (h : Reaches succ root n v) : ∃ m, IsDist succ root v m := by
  classical
  have hex : ∃ m, Reaches succ root m v := ⟨n, h⟩
  exact ⟨Nat.find hex, Nat.find_spec hex, fun m hm => Nat.find_min' hex hm⟩

theorem IsDist.eq_of_zero {succ : V → List V} {root v : V} (h : IsDist succ root v 0) :
    root = v := by
  cases h.reaches
  rfl

theorem Reaches.head {succ : V → List V} {u v w : V} {n : ℕ} (hv : v ∈ succ u)
    (h : Reaches succ v n w) : Reaches succ u (n + 1) w := by
  induction h with
  | root => exact .step .root hv
  | step _ hw ih => exact .step ih hw

/-- The first step of a walk. -/
theorem Reaches.exists_head {succ : V → List V} {u w : V} {n : ℕ}
    (h : Reaches succ u (n + 1) w) : ∃ v ∈ succ u, Reaches succ v n w := by
  generalize hk : n + 1 = k at h
  induction h generalizing n with
  | root => cases hk
  | @step k v w hv hw ih =>
    obtain rfl : n = k := Nat.succ.inj hk
    cases n with
    | zero =>
      cases hv
      exact ⟨w, hw, .root⟩
    | succ n =>
      obtain ⟨x, hx, hreaches⟩ := ih rfl
      exact ⟨x, hx, .step hreaches hw⟩

/-- A route takes as many steps as it has nodes behind the first. -/
theorem reaches_of_route {succ : V → List V} {u v : V} {ns : List V}
    (h : Walk.Route (fun u w => w ∈ succ u) v u ns) : ∃ n, ns.length = n + 1 ∧
      Reaches succ u n v := by
  induction h with
  | arrive => exact ⟨0, rfl, .root⟩
  | step hw _ ih =>
    obtain ⟨n, hlen, hreaches⟩ := ih
    exact ⟨n + 1, by rw [List.length_cons, hlen], .head hw hreaches⟩

/-- A shortest route goes on from a node that is one step closer. -/
theorem IsDist.of_route {succ : V → List V} {u w v : V} {ns : List V} {n : ℕ}
    (h : IsDist succ u v (n + 1)) (hw : w ∈ succ u)
    (hroute : Walk.Route (fun u w => w ∈ succ u) v w ns) (hlen : ns.length = n + 1) :
    IsDist succ w v n := by
  obtain ⟨m, hm, hreaches⟩ := reaches_of_route hroute
  obtain rfl : m = n := by omega
  exact ⟨hreaches, fun k hk => Nat.le_of_succ_le_succ (h.le (k + 1) (.head hw hk))⟩

/-- The state of a search. -/
structure State (V : Type*) where
  /-- The nodes taken out of the queue, in order. -/
  done : List V
  queue : List V
  parent : V → Option V
  depth : V → ℕ

def State.seen (s : State V) : List V := s.done ++ s.queue

def start (root : V) : State V where
  done := []
  queue := [root]
  parent _ := none
  depth _ := 0

variable [DecidableEq V]

/-- The nodes that a node discovers, as they are put into the queue. -/
def fresh (succ : V → List V) (order : List V → List V) (s : State V) (u : V) : List V :=
  order ((succ u).filter fun v => v ∉ s.seen)

/-- The node at the front of the queue is taken out. -/
def visit (succ : V → List V) (order : List V → List V) (s : State V) (u : V) (rest : List V) :
    State V where
  done := s.done ++ [u]
  queue := rest ++ fresh succ order s u
  parent v := if v ∈ fresh succ order s u then some u else s.parent v
  depth v := if v ∈ fresh succ order s u then s.depth u + 1 else s.depth v

/-- The states that a search passes through. -/
inductive Run (succ : V → List V) (order : List V → List V) (root : V) : State V → Prop
  | start : Run succ order root (start root)
  | visit {s : State V} {u : V} {rest : List V} :
      Run succ order root s → s.queue = u :: rest → Run succ order root (visit succ order s u rest)

variable {succ : V → List V} {order : List V → List V} {root : V} {s : State V} {u : V}
  {rest : List V}

section Visit

variable (horder : ∀ l, (order l).Perm l)
include horder

theorem mem_fresh {v : V} : v ∈ fresh succ order s u ↔ v ∈ succ u ∧ v ∉ s.seen := by
  rw [fresh, (horder _).mem_iff, List.mem_filter, decide_eq_true_iff]

theorem nodup_fresh (hsucc : ∀ u, (succ u).Nodup) : (fresh succ order s u).Nodup :=
  (horder _).nodup_iff.mpr ((hsucc u).filter _)

omit horder in
theorem seen_visit (hqueue : s.queue = u :: rest) :
    (visit succ order s u rest).seen = s.seen ++ fresh succ order s u := by
  simp [State.seen, visit, hqueue]

theorem visit_of_seen {v : V} (hv : v ∈ s.seen) :
    (visit succ order s u rest).parent v = s.parent v ∧
      (visit succ order s u rest).depth v = s.depth v := by
  have hnot : v ∉ fresh succ order s u := fun h => ((mem_fresh horder).mp h).2 hv
  exact ⟨if_neg hnot, if_neg hnot⟩

omit horder in
theorem visit_of_fresh {v : V} (hv : v ∈ fresh succ order s u) :
    (visit succ order s u rest).parent v = some u ∧
      (visit succ order s u rest).depth v = s.depth u + 1 :=
  ⟨if_pos hv, if_pos hv⟩

end Visit

/-! ## Layers -/

/-- The seen nodes in the order in which they were discovered lie in layers, and the layer behind
    a node that was taken out is there. -/
structure Inv (succ : V → List V) (root : V) (s : State V) : Prop where
  nodup : s.seen.Nodup
  root_seen : root ∈ s.seen
  root_depth : s.depth root = 0
  root_parent : s.parent root = none
  parent : ∀ v ∈ s.seen, v ≠ root →
    ∃ u ∈ s.done, s.parent v = some u ∧ v ∈ succ u ∧ s.depth v = s.depth u + 1
  sorted : s.seen.Pairwise fun a b => s.depth a ≤ s.depth b
  span : ∀ u rest, s.queue = u :: rest → ∀ v ∈ s.seen, s.depth v ≤ s.depth u + 1
  closed : ∀ u ∈ s.done, ∀ w ∈ succ u, w ∈ s.seen ∧ s.depth w ≤ s.depth u + 1

omit [DecidableEq V] in
theorem inv_start : Inv succ root (start root) where
  nodup := List.nodup_singleton root
  root_seen := List.mem_singleton_self root
  root_depth := rfl
  root_parent := rfl
  parent _ hv hne := absurd (List.mem_singleton.mp hv) hne
  sorted := List.pairwise_singleton _ root
  span _ _ _ _ _ := Nat.zero_le _
  closed _ hu := absurd hu List.not_mem_nil

omit [DecidableEq V] in
/-- The front of the queue lies behind every node that was taken out, and before the rest. -/
theorem Inv.front_depth (h : Inv succ root s) (hqueue : s.queue = u :: rest) :
    (∀ v ∈ s.done, s.depth v ≤ s.depth u) ∧ ∀ v ∈ rest, s.depth u ≤ s.depth v := by
  have hsorted := h.sorted
  rw [State.seen, hqueue, List.pairwise_append] at hsorted
  exact ⟨fun v hv => hsorted.2.2 v hv u List.mem_cons_self,
    (List.pairwise_cons.mp hsorted.2.1).1⟩

omit [DecidableEq V] in
theorem mem_seen_of_done {v : V} (hv : v ∈ s.done) : v ∈ s.seen := List.mem_append_left _ hv

omit [DecidableEq V] in
theorem mem_seen_of_queue {v : V} (hv : v ∈ s.queue) : v ∈ s.seen := List.mem_append_right _ hv

/-- A step keeps the layers. -/
theorem Inv.visit (h : Inv succ root s) (horder : ∀ l, (order l).Perm l)
    (hsucc : ∀ u, (succ u).Nodup) (hqueue : s.queue = u :: rest) :
    Inv succ root (visit succ order s u rest) := by
  have hfresh := fun v => @mem_fresh V _ succ order s u horder v
  have hold := fun v hv => @visit_of_seen V _ succ order s u rest horder v hv
  have hnew := fun v hv => @visit_of_fresh V _ succ order s u rest v hv
  have hseen : (Bfs.visit succ order s u rest).seen = s.seen ++ fresh succ order s u :=
    seen_visit hqueue
  have hu : u ∈ s.seen := mem_seen_of_queue (by rw [hqueue]; exact List.mem_cons_self)
  have hcases : ∀ v ∈ (Bfs.visit succ order s u rest).seen, v ∈ s.seen ∨ v ∈ fresh succ order s u :=
    fun v hv => List.mem_append.mp (hseen ▸ hv)
  have hspan := h.span u rest hqueue
  refine {
    nodup := ?_
    root_seen := hseen ▸ List.mem_append_left _ h.root_seen
    root_depth := (hold root h.root_seen).2.trans h.root_depth
    root_parent := (hold root h.root_seen).1.trans h.root_parent
    parent := ?_
    sorted := ?_
    span := ?_
    closed := ?_ }
  · rw [hseen, List.nodup_append]
    refine ⟨h.nodup, nodup_fresh horder hsucc, fun v hv w hw hvw => ?_⟩
    exact ((hfresh w).mp hw).2 (hvw ▸ hv)
  · intro v hv hne
    rcases hcases v hv with hv | hv
    · obtain ⟨p, hp, hparent, hsuccp, hdepth⟩ := h.parent v hv hne
      refine ⟨p, List.mem_append_left _ hp, (hold v hv).1.trans hparent, hsuccp, ?_⟩
      rw [(hold v hv).2, (hold p (mem_seen_of_done hp)).2, hdepth]
    · refine ⟨u, List.mem_append_right _ (List.mem_singleton_self u), (hnew v hv).1,
        ((hfresh v).mp hv).1, ?_⟩
      rw [(hnew v hv).2, (hold u hu).2]
  · rw [hseen, List.pairwise_append]
    refine ⟨h.sorted.imp_of_mem fun {a b} ha hb hab => ?_, ?_, fun a ha b hb => ?_⟩
    · rw [(hold a ha).2, (hold b hb).2]
      exact hab
    · exact List.pairwise_of_forall_mem_list fun a ha b hb =>
        ((hnew a ha).2.trans (hnew b hb).2.symm).le
    · rw [(hold a ha).2, (hnew b hb).2]
      exact hspan a ha
  · intro u' rest' hqueue' v hv
    have hu' : u' ∈ rest ++ fresh succ order s u := by
      have hmem : u' ∈ (Bfs.visit succ order s u rest).queue := hqueue' ▸ List.mem_cons_self
      exact hmem
    -- the new front is not before the old one
    have hfront : s.depth u ≤ (Bfs.visit succ order s u rest).depth u' := by
      rcases List.mem_append.mp hu' with hr | hf
      · have hr' : u' ∈ s.seen := mem_seen_of_queue (by rw [hqueue]; exact List.mem_cons_of_mem u hr)
        rw [(hold u' hr').2]
        exact (h.front_depth hqueue).2 u' hr
      · rw [(hnew u' hf).2]
        exact Nat.le_succ _
    have hv' : (Bfs.visit succ order s u rest).depth v ≤ s.depth u + 1 := by
      rcases hcases v hv with hv | hv
      · rw [(hold v hv).2]
        exact hspan v hv
      · exact (hnew v hv).2.le
    omega
  · intro v hv w hw
    rcases List.mem_append.mp hv with hv | hv
    · obtain ⟨hwseen, hdepth⟩ := h.closed v hv w hw
      rw [hseen, (hold w hwseen).2, (hold v (mem_seen_of_done hv)).2]
      exact ⟨List.mem_append_left _ hwseen, hdepth⟩
    · obtain rfl := List.mem_singleton.mp hv
      rw [hseen, (hold v hu).2]
      by_cases hwseen : w ∈ s.seen
      · rw [(hold w hwseen).2]
        exact ⟨List.mem_append_left _ hwseen, hspan w hwseen⟩
      · have hwfresh := (hfresh w).mpr ⟨hw, hwseen⟩
        rw [(hnew w hwfresh).2]
        exact ⟨List.mem_append_right _ hwfresh, Nat.le_refl _⟩

theorem inv_of_run (horder : ∀ l, (order l).Perm l) (hsucc : ∀ u, (succ u).Nodup)
    (h : Run succ order root s) : Inv succ root s := by
  induction h with
  | start => exact inv_start
  | visit _ hqueue ih => exact ih.visit horder hsucc hqueue

/-! ## Distances -/

omit [DecidableEq V] in
theorem Inv.seen_subset (h : Inv succ root s) {nodes : List V} (hroot : root ∈ nodes)
    (hsucc : ∀ u, ∀ w ∈ succ u, w ∈ nodes) : s.seen ⊆ nodes := by
  intro v hv
  by_cases hne : v = root
  · exact hne ▸ hroot
  · obtain ⟨u, _, _, hw, _⟩ := h.parent v hv hne
    exact hsucc u v hw

omit [DecidableEq V] in
theorem Inv.reaches (h : Inv succ root s) {v : V} (hv : v ∈ s.seen) :
    Reaches succ root (s.depth v) v := by
  generalize hn : s.depth v = n
  induction n generalizing v with
  | zero =>
    by_cases hne : v = root
    · exact hne ▸ .root
    · obtain ⟨u, _, _, _, hdepth⟩ := h.parent v hv hne
      omega
  | succ n ih =>
    have hne : v ≠ root := by
      rintro rfl
      exact absurd (h.root_depth.symm.trans hn) (Nat.succ_ne_zero n).symm
    obtain ⟨u, hu, _, hw, hdepth⟩ := h.parent v hv hne
    exact .step (ih (mem_seen_of_done hu) (by omega)) hw

omit [DecidableEq V] in
/-- What is not behind the front of the queue was seen, and at no greater depth. -/
theorem Inv.seen_of_reaches (h : Inv succ root s) {n : ℕ} {v : V} (hv : Reaches succ root n v)
    (hfront : ∀ u ∈ s.queue, n ≤ s.depth u) : v ∈ s.seen ∧ s.depth v ≤ n := by
  induction hv with
  | root => exact ⟨h.root_seen, h.root_depth.le⟩
  | @step n u w _ hw ih =>
    obtain ⟨hu, hdepth⟩ := ih fun u hu => Nat.le_of_succ_le (hfront u hu)
    -- a node of the queue would be at least as deep as `w`
    have hdone : u ∈ s.done := by
      rcases List.mem_append.mp hu with hu | hu
      · exact hu
      · exact absurd (hfront u hu) (by omega)
    obtain ⟨hwseen, hwdepth⟩ := h.closed u hdone w hw
    exact ⟨hwseen, by omega⟩

omit [DecidableEq V] in
/-- The depth of a node is its distance from the root. -/
theorem Inv.isDist (h : Inv succ root s) {v : V} (hv : v ∈ s.seen) :
    IsDist succ root v (s.depth v) := by
  refine ⟨h.reaches hv, fun m hm => ?_⟩
  by_contra hlt
  have hfront : ∀ u ∈ s.queue, m ≤ s.depth u := by
    intro u hu
    obtain ⟨front, rest, hqueue⟩ := List.exists_cons_of_ne_nil (List.ne_nil_of_mem hu)
    have hspan := h.span front rest hqueue v hv
    have hle : s.depth front ≤ s.depth u := by
      rw [hqueue] at hu
      rcases List.mem_cons.mp hu with rfl | hu
      · exact Nat.le_refl _
      · exact (h.front_depth hqueue).2 u hu
    omega
  exact hlt (h.seen_of_reaches hm hfront).2

omit [DecidableEq V] in
/-- With the queue empty, every node that can be reached was taken out. -/
theorem Inv.done_iff (h : Inv succ root s) (hqueue : s.queue = []) {v : V} :
    v ∈ s.done ↔ ∃ n, Reaches succ root n v := by
  constructor
  · exact fun hv => ⟨_, h.reaches (mem_seen_of_done hv)⟩
  · intro ⟨n, hn⟩
    have hseen := (h.seen_of_reaches hn (by simp [hqueue])).1
    rwa [State.seen, hqueue, List.append_nil] at hseen

omit [DecidableEq V] in
/-- The parents of a seen node lead back to the root. -/
theorem Inv.exists_route (h : Inv succ root s) {v : V} (hv : v ∈ s.seen) :
    ∃ ns, Walk.Route (fun v w => v ∈ s.seen ∧ s.parent v = some w) root v ns ∧
      ns.length = s.depth v + 1 ∧ ns.Nodup ∧ ∀ w ∈ ns, s.depth w ≤ s.depth v := by
  generalize hn : s.depth v = n
  induction n generalizing v with
  | zero =>
    have hroot : v = root := by
      by_contra hne
      obtain ⟨u, _, _, _, hdepth⟩ := h.parent v hv hne
      omega
    subst hroot
    exact ⟨[v], .arrive, rfl, List.nodup_singleton v,
      fun w hw => (congrArg s.depth (List.mem_singleton.mp hw)).trans hn |>.le⟩
  | succ n ih =>
    have hne : v ≠ root := by
      rintro rfl
      exact absurd (h.root_depth.symm.trans hn) (Nat.succ_ne_zero n).symm
    -- The parent is one step closer to the root, so the route from it does not meet `v`.
    obtain ⟨u, hu, hparent, _, hdepth⟩ := h.parent v hv hne
    obtain ⟨ns, hroute, hlen, hnodup, hle⟩ := ih (mem_seen_of_done hu) (by omega)
    have hfresh : v ∉ ns := fun hmem => by
      have := hle v hmem
      omega
    refine ⟨v :: ns, .step ⟨hv, hparent⟩ hroute, ?_, List.nodup_cons.mpr ⟨hfresh, hnodup⟩, ?_⟩
    · rw [List.length_cons, hlen]
    · intro w hw
      rcases List.mem_cons.mp hw with rfl | hw
      · exact hn.le
      · exact Nat.le_succ_of_le (hle w hw)

/-! ## Choosing the parents -/

/-- The first `n` steps of `a` are a shortest walk from the root. -/
structure Shortest (succ : V → List V) (root : V) (a : ℕ → V) (n : ℕ) : Prop where
  zero : a 0 = root
  step : ∀ i < n, a (i + 1) ∈ succ (a i)
  isDist : ∀ i ≤ n, IsDist succ root (a i) i

omit [DecidableEq V] in
/-- A shortest walk goes on to any successor that is further away. -/
theorem Shortest.extend {a : ℕ → V} {n : ℕ} (h : Shortest succ root a n) {w : V}
    (hw : w ∈ succ (a n)) (hdist : IsDist succ root w (n + 1)) :
    ∃ a', Shortest succ root a' (n + 1) ∧ a' (n + 1) = w ∧ ∀ i ≤ n, a' i = a i := by
  obtain ⟨a', hkeep, hlast⟩ : ∃ a' : ℕ → V, (∀ i ≤ n, a' i = a i) ∧ a' (n + 1) = w :=
    ⟨fun i => if i ≤ n then a i else w, fun i hi => if_pos hi, if_neg (Nat.not_succ_le_self n)⟩
  refine ⟨a', ⟨?_, fun i hi => ?_, fun i hi => ?_⟩, hlast, hkeep⟩
  · exact (hkeep 0 (Nat.zero_le n)).trans h.zero
  · rcases Nat.lt_succ_iff_lt_or_eq.mp hi with hi | rfl
    · rw [hkeep (i + 1) hi, hkeep i hi.le]
      exact h.step i hi
    · rwa [hlast, hkeep i (Nat.le_refl i)]
  · rcases Nat.le_succ_iff.mp hi with hi | rfl
    · rw [hkeep i hi]
      exact h.isDist i hi
    · rwa [hlast]

omit [DecidableEq V] in
theorem IsDist.of_step {u w : V} {n : ℕ} (hu : Reaches succ root n u) (hw : w ∈ succ u)
    (h : IsDist succ root w (n + 1)) : IsDist succ root u n :=
  ⟨hu, fun m hm => Nat.le_of_succ_le_succ (h.le (m + 1) (.step hm hw))⟩

omit [DecidableEq V] in
/-- Every node at distance `n` ends a shortest walk of `n` steps. -/
theorem IsDist.exists_shortest {v : V} {n : ℕ} (h : IsDist succ root v n) :
    ∃ a, Shortest succ root a n ∧ a n = v := by
  have hreaches := h.reaches
  induction hreaches with
  | root =>
    refine ⟨fun _ => root, ⟨rfl, fun i hi => absurd hi (Nat.not_lt_zero i), fun i hi => ?_⟩, rfl⟩
    rwa [Nat.le_zero.mp hi]
  | step hu hw ih =>
    obtain ⟨a, ha, rfl⟩ := ih (.of_step hu hw h)
    obtain ⟨a', ha', hlast, _⟩ := ha.extend hw h
    exact ⟨a', ha', hlast⟩

/-- The step from `u` to `w` lies on a shortest walk from the root to `x`. -/
def OnShortest (succ : V → List V) (root u w x : V) : Prop :=
  ∃ a n i, Shortest succ root a n ∧ a n = x ∧ i < n ∧ a i = u ∧ a (i + 1) = w

omit [DecidableEq V] in
/-- Over links in both directions a walk can be taken backwards. -/
theorem Reaches.symm (hsymm : ∀ u w, w ∈ succ u → u ∈ succ w) {u w : V} {n : ℕ}
    (h : Reaches succ u n w) : Reaches succ w n u := by
  induction h with
  | root => exact .root
  | step _ hw ih => exact .head (hsymm _ _ hw) ih

omit [DecidableEq V] in
theorem IsDist.symm (hsymm : ∀ u w, w ∈ succ u → u ∈ succ w) {u w : V} {n : ℕ}
    (h : IsDist succ u w n) : IsDist succ w u n :=
  ⟨h.reaches.symm hsymm, fun m hm => h.le m (hm.symm hsymm)⟩

omit [DecidableEq V] in
theorem onShortest_of_reaches {u w x : V} {n k : ℕ} (hu : IsDist succ root u n) (hw : w ∈ succ u)
    (hx : Reaches succ w k x) (hdist : IsDist succ root x (n + 1 + k)) :
    OnShortest succ root u w x := by
  suffices h : ∃ a, Shortest succ root a (n + 1 + k) ∧ a (n + 1 + k) = x ∧ a n = u ∧
      a (n + 1) = w by
    obtain ⟨a, ha, hlast, hn, hsucc⟩ := h
    exact ⟨a, _, n, ha, hlast, by omega, hn, hsucc⟩
  induction hx with
  | root =>
    obtain ⟨a, ha, rfl⟩ := hu.exists_shortest
    obtain ⟨a', ha', hlast, hkeep⟩ := ha.extend hw hdist
    exact ⟨a', ha', hlast, hkeep n (Nat.le_refl n), hlast⟩
  | @step k y x hy hx ih =>
    have hreach : Reaches succ root (n + 1 + k) y := by
      clear hdist ih hx
      induction hy with
      | root => exact .step hu.reaches hw
      | step _ hz ih => exact .step ih hz
    obtain ⟨a, ha, rfl, hn, hsucc⟩ := ih (.of_step hreach hx hdist)
    obtain ⟨a', ha', hlast, hkeep⟩ := ha.extend hx hdist
    exact ⟨a', ha', hlast, (hkeep n (by omega)).trans hn, (hkeep (n + 1) (by omega)).trans hsucc⟩

/-- The walk is ahead in every layer, and the parents follow it. -/
structure Led (a : ℕ → V) (n : ℕ) (s : State V) : Prop where
  first : ∀ i ≤ n, ∀ v l, s.seen.filter (fun w => s.depth w = i) = v :: l → v = a i
  parent : ∀ i < n, a (i + 1) ∈ s.seen → s.parent (a (i + 1)) = some (a i)

variable {a : ℕ → V} {n : ℕ}

omit [DecidableEq V] in
theorem led_start (ha : Shortest succ root a n) : Led a n (start root) where
  first i hi v l hl := by
    have hv : v ∈ [root].filter fun w => (start root).depth w = i := by
      exact hl ▸ List.mem_cons_self
    obtain ⟨hroot, hzero⟩ := List.mem_filter.mp hv
    have hzero : 0 = i := of_decide_eq_true hzero
    rw [List.mem_singleton.mp hroot, ← hzero, ha.zero]
  parent i hi hseen := by
    have hroot : a (i + 1) = root := List.mem_singleton.mp hseen
    have hdist : IsDist succ root root 0 := ⟨.root, fun m _ => Nat.zero_le m⟩
    exact absurd ((hroot ▸ ha.isDist (i + 1) hi).unique hdist) (Nat.succ_ne_zero i)

omit [DecidableEq V] in
/-- A node of the walk is missing only as long as the one before it was not taken out, and that
    one comes first in its layer. -/
theorem Led.front_eq (h : Led a n s) (hinv : Inv succ root s) (ha : Shortest succ root a n)
    (hqueue : s.queue = u :: rest) (hlt : s.depth u < n) (hmissing : a (s.depth u + 1) ∉ s.seen) :
    u = a (s.depth u) := by
  have hsplit : s.seen.filter (fun w => s.depth w = s.depth u) =
      s.done.filter (fun w => s.depth w = s.depth u) ++
        u :: rest.filter (fun w => s.depth w = s.depth u) := by
    rw [State.seen, hqueue, List.filter_append, List.filter_cons_of_pos (by simp)]
  have hfirst := h.first (s.depth u) hlt.le
  cases hdone : s.done.filter (fun w => s.depth w = s.depth u) with
  | nil =>
    rw [hdone, List.nil_append] at hsplit
    exact hfirst _ _ hsplit
  | cons v l =>
    rw [hdone, List.cons_append] at hsplit
    have hv : v ∈ s.done := (List.mem_filter.mp (hdone ▸ List.mem_cons_self)).1
    rw [hfirst _ _ hsplit] at hv
    exact absurd (hinv.closed _ hv _ (ha.step _ hlt)).1 hmissing

theorem Led.visit (h : Led a n s) (hinv : Inv succ root s) (ha : Shortest succ root a n)
    (horder : ∀ l, (order l).Perm l) (hsucc : ∀ u, (succ u).Nodup)
    (hlead : ∀ l, (order l).Pairwise fun x y => (∃ i, y = a i ∧ i ≤ n) → ∃ i, x = a i ∧ i ≤ n)
    (hqueue : s.queue = u :: rest) : Led a n (visit succ order s u rest) := by
  have hinv' := hinv.visit horder hsucc hqueue
  have hold := fun v hv => @visit_of_seen V _ succ order s u rest horder v hv
  have hnew := fun v hv => @visit_of_fresh V _ succ order s u rest v hv
  have hseen : (Bfs.visit succ order s u rest).seen = s.seen ++ fresh succ order s u :=
    seen_visit hqueue
  have hlayer : ∀ i, (Bfs.visit succ order s u rest).seen.filter
      (fun w => (Bfs.visit succ order s u rest).depth w = i) =
        s.seen.filter (fun w => s.depth w = i) ++ (fresh succ order s u).filter
          (fun w => (Bfs.visit succ order s u rest).depth w = i) := by
    intro i
    rw [hseen, List.filter_append]
    congr 1
    exact List.filter_congr fun w hw => by rw [(hold w hw).2]
  constructor
  · intro i hi v l hl
    rw [hlayer] at hl
    cases hpast : s.seen.filter (fun w => s.depth w = i) with
    | cons x l' =>
      rw [hpast, List.cons_append] at hl
      exact (List.cons.inj hl).1 ▸ h.first i hi x l' hpast
    | nil =>
      rw [hpast, List.nil_append] at hl
      have hall : (fresh succ order s u).filter
          (fun w => (Bfs.visit succ order s u rest).depth w = s.depth u + 1) =
            fresh succ order s u :=
        List.filter_eq_self.mpr fun w hw => decide_eq_true (hnew w hw).2
      have hv : v ∈ fresh succ order s u := (List.mem_filter.mp (hl ▸ List.mem_cons_self)).1
      obtain rfl : s.depth u + 1 = i := by
        have hdepth := (List.mem_filter.mp (hl ▸ List.mem_cons_self (a := v))).2
        exact (hnew v hv).2.symm.trans (of_decide_eq_true hdepth)
      have hmissing : a (s.depth u + 1) ∉ s.seen := by
        intro hmem
        have hdepth := (hinv.isDist hmem).unique (ha.isDist _ hi)
        have hin : a (s.depth u + 1) ∈ s.seen.filter (fun w => s.depth w = s.depth u + 1) :=
          List.mem_filter.mpr ⟨hmem, decide_eq_true hdepth⟩
        rw [hpast] at hin
        exact List.not_mem_nil hin
      have hu : u = a (s.depth u) := h.front_eq hinv ha hqueue hi hmissing
      have hnext : a (s.depth u + 1) ∈ succ u := by
        have := ha.step (s.depth u) hi
        rwa [← hu] at this
      rw [hall] at hl
      have hmem : a (s.depth u + 1) ∈ v :: l := hl ▸ (mem_fresh horder).mpr ⟨hnext, hmissing⟩
      rcases List.mem_cons.mp hmem with heq | hmem
      · exact heq.symm
      · -- `v` is before the node of the walk, so it is one itself, and at this distance
        have hsorted : (v :: l).Pairwise
            fun x y => (∃ i, y = a i ∧ i ≤ n) → ∃ i, x = a i ∧ i ≤ n := hl ▸ hlead _
        obtain ⟨j, rfl, hj⟩ := (List.pairwise_cons.mp hsorted).1 _ hmem ⟨_, rfl, hi⟩
        have hdist := hinv'.isDist (hseen ▸ List.mem_append_right _ hv)
        rw [(hnew _ hv).2] at hdist
        rw [(ha.isDist j hj).unique hdist]
  · intro i hi hmem
    rw [hseen] at hmem
    rcases List.mem_append.mp hmem with hmem | hmem
    · exact (hold _ hmem).1.trans (h.parent i hi hmem)
    · have hdist := hinv'.isDist (hseen ▸ List.mem_append_right _ hmem)
      rw [(hnew _ hmem).2] at hdist
      obtain rfl : s.depth u = i := Nat.succ_inj.mp (hdist.unique (ha.isDist (i + 1) hi))
      rw [(hnew _ hmem).1, ← h.front_eq hinv ha hqueue hi ((mem_fresh horder).mp hmem).2]

/-- Any shortest walk is followed by the parents, if the order puts its nodes first. -/
theorem parent_of_lead (horder : ∀ l, (order l).Perm l) (hsucc : ∀ u, (succ u).Nodup)
    (hrun : Run succ order root s) (hqueue : s.queue = []) (ha : Shortest succ root a n)
    (hlead : ∀ l, (order l).Pairwise fun x y => (∃ i, y = a i ∧ i ≤ n) → ∃ i, x = a i ∧ i ≤ n) :
    ∀ i < n, s.parent (a (i + 1)) = some (a i) := by
  have hinv : Inv succ root s := inv_of_run horder hsucc hrun
  have hled : Led a n s := by
    clear hqueue hinv
    induction hrun with
    | start => exact led_start ha
    | visit hrun hqueue ih =>
      exact ih.visit (inv_of_run horder hsucc hrun) ha horder hsucc hlead hqueue
  intro i hi
  have hdone := (hinv.done_iff hqueue).mpr ⟨_, (ha.isDist (i + 1) hi).reaches⟩
  exact hled.parent i hi (mem_seen_of_done hdone)

end Bfs

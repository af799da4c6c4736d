import Ndtwin.ForStd.Bfs

/-!
# Breadth-first search with repetitions in the queue

A search may put a node into the queue again and again, together with the node that it was found
from, and look only when it takes an entry out whether the node was taken out before. It takes
nodes out in the same order as the search of `Bfs`, with the same parents.

## Key results

- `LazyRun.exists_run`: the search of `Bfs` that a run stands for
-/

namespace Bfs

variable {V : Type*} [DecidableEq V]

/-- The state of a search whose queue may hold a node several times. -/
structure LazyState (V : Type*) where
  /-- The nodes taken out of the queue for the first time, in order. -/
  done : List V
  queue : List (V × Option V)
  parent : V → Option V

def lazyStart (root : V) : LazyState V where
  done := []
  queue := [(root, none)]
  parent _ := none

/-- A node is taken out for the first time. -/
def lazyVisit (succ : V → List V) (s : LazyState V) (u : V) (p : Option V)
    (rest : List (V × Option V)) : LazyState V where
  done := s.done ++ [u]
  queue := rest ++ ((succ u).filter fun w => w ∉ s.done ++ [u]).map fun w => (w, some u)
  parent v := if v = u then p else s.parent v

/-- The states that a search passes through. -/
inductive LazyRun (succ : V → List V) (root : V) : LazyState V → Prop
  | start : LazyRun succ root (lazyStart root)
  | skip {s : LazyState V} {u : V} {p : Option V} {rest : List (V × Option V)} :
      LazyRun succ root s → s.queue = (u, p) :: rest → u ∈ s.done →
      LazyRun succ root { s with queue := rest }
  | visit {s : LazyState V} {u : V} {p : Option V} {rest : List (V × Option V)} :
      LazyRun succ root s → s.queue = (u, p) :: rest → u ∉ s.done →
      LazyRun succ root (lazyVisit succ s u p rest)

/-- The nodes that are still to be taken out, each at its first place in the queue. -/
def pending (done : List V) : List (V × Option V) → List V
  | [] => []
  | (v, _) :: q => if v ∈ done then pending done q else v :: pending (v :: done) q

variable {succ : V → List V} {root : V} {s : LazyState V} {b : State V}

theorem pending_cons_of_mem {done : List V} {u : V} (hu : u ∈ done) (p : Option V)
    (q : List (V × Option V)) : pending done ((u, p) :: q) = pending done q := if_pos hu

theorem pending_cons_of_not_mem {done : List V} {u : V} (hu : u ∉ done) (p : Option V)
    (q : List (V × Option V)) : pending done ((u, p) :: q) = u :: pending (u :: done) q := if_neg hu

theorem mem_pending {done : List V} {q : List (V × Option V)} {v : V} :
    v ∈ pending done q ↔ v ∉ done ∧ ∃ p, (v, p) ∈ q := by
  induction q generalizing done with
  | nil => simp [pending]
  | cons e q ih =>
    obtain ⟨u, p⟩ := e
    -- An entry is skipped when its vertex is done, and the first of a vertex counts.
    by_cases hu : u ∈ done
    · rw [pending_cons_of_mem hu, ih]
      constructor
      · rintro ⟨hv, p', hmem⟩
        exact ⟨hv, p', List.mem_cons_of_mem _ hmem⟩
      · rintro ⟨hv, p', hmem⟩
        rcases List.mem_cons.mp hmem with heq | hmem
        · obtain ⟨rfl, rfl⟩ := Prod.mk.inj heq
          exact absurd hu hv
        · exact ⟨hv, p', hmem⟩
    · rw [pending_cons_of_not_mem hu, List.mem_cons, ih]
      constructor
      · rintro (rfl | ⟨hv, p', hmem⟩)
        · exact ⟨hu, p, List.mem_cons_self⟩
        · exact ⟨fun h => hv (List.mem_cons_of_mem _ h), p', List.mem_cons_of_mem _ hmem⟩
      · rintro ⟨hv, p', hmem⟩
        by_cases hvu : v = u
        · exact .inl hvu
        · refine .inr ⟨?_, p', ?_⟩
          · rw [List.mem_cons, not_or]
            exact ⟨hvu, hv⟩
          · rcases List.mem_cons.mp hmem with heq | hmem
            · exact absurd (Prod.mk.inj heq).1 hvu
            · exact hmem

theorem pending_congr {done done' : List V} (h : ∀ v, v ∈ done ↔ v ∈ done')
    (q : List (V × Option V)) : pending done q = pending done' q := by
  induction q generalizing done done' with
  | nil => rfl
  | cons e q ih =>
    obtain ⟨u, p⟩ := e
    by_cases hu : u ∈ done
    · rw [pending_cons_of_mem hu, pending_cons_of_mem ((h u).mp hu), ih h]
    · have hcons : ∀ v, v ∈ u :: done ↔ v ∈ u :: done' := fun v => by
        rw [List.mem_cons, List.mem_cons, h]
      rw [pending_cons_of_not_mem hu, pending_cons_of_not_mem (fun hmem => hu ((h u).mpr hmem)),
        ih hcons]

theorem pending_append (done : List V) (q q' : List (V × Option V)) :
    pending done (q ++ q') = pending done q ++ pending (done ++ pending done q) q' := by
  induction q generalizing done with
  | nil => simp [pending]
  | cons e q ih =>
    obtain ⟨u, p⟩ := e
    rw [List.cons_append]
    by_cases hu : u ∈ done
    · rw [pending_cons_of_mem hu, pending_cons_of_mem hu, ih]
    · rw [pending_cons_of_not_mem hu, pending_cons_of_not_mem hu, ih, List.cons_append]
      congr 2
      refine pending_congr (fun v => ?_) q'
      simp only [List.mem_append, List.mem_cons]
      tauto

/-- Entries for different nodes. -/
theorem pending_map (done : List V) {l : List V} (hl : l.Nodup) (p : Option V) :
    pending done (l.map fun w => (w, p)) = l.filter fun w => w ∉ done := by
  induction l generalizing done with
  | nil => rfl
  | cons w l ih =>
    obtain ⟨hw, hl⟩ := List.nodup_cons.mp hl
    rw [List.map_cons]
    by_cases hdone : w ∈ done
    · rw [pending_cons_of_mem hdone, ih _ hl, List.filter_cons_of_neg (by simpa using hdone)]
    · rw [pending_cons_of_not_mem hdone, ih _ hl, List.filter_cons_of_pos (by simpa using hdone)]
      congr 1
      refine List.filter_congr fun x hx => ?_
      have hne : x ≠ w := fun heq => hw (heq ▸ hx)
      simp [hne]

/-- The node that put the first entry for `v` into the queue. -/
def firstFor (v : V) (q : List (V × Option V)) : Option (Option V) :=
  (q.find? fun e => e.1 = v).map Prod.snd

theorem firstFor_cons_of_ne {u v : V} (hne : v ≠ u) (p : Option V) (q : List (V × Option V)) :
    firstFor v ((u, p) :: q) = firstFor v q := by
  rw [firstFor, List.find?_cons_of_neg (by simpa using hne.symm), firstFor]

theorem firstFor_cons_self (u : V) (p : Option V) (q : List (V × Option V)) :
    firstFor u ((u, p) :: q) = some p := by
  rw [firstFor, List.find?_cons_of_pos (by simp)]
  rfl

theorem mem_of_firstFor {v : V} {p : Option V} {q : List (V × Option V)}
    (h : firstFor v q = some p) : (v, p) ∈ q := by
  obtain ⟨⟨u, p'⟩, hfind, rfl⟩ := Option.map_eq_some_iff.mp h
  obtain rfl : u = v := by simpa using List.find?_some hfind
  exact List.mem_of_find?_eq_some hfind

theorem firstFor_append (v : V) (q q' : List (V × Option V)) :
    firstFor v (q ++ q') = (firstFor v q).or (firstFor v q') := by
  rw [firstFor, firstFor, firstFor, List.find?_append]
  cases q.find? fun e => decide (e.1 = v) with
  | none => rfl
  | some e => rfl

theorem exists_of_firstFor_eq_none {v : V} {q : List (V × Option V)}
    (h : firstFor v q = none) : ∀ p, (v, p) ∉ q := by
  intro p hmem
  have hnone := List.find?_eq_none.mp (Option.map_eq_none_iff.mp h) _ hmem
  simp at hnone

/-- A search of `Bfs` in the same state: the first entries of the queue are its queue. -/
structure Simulates (s : LazyState V) (b : State V) : Prop where
  done : b.done = s.done
  queue : b.queue = pending s.done s.queue
  parent : ∀ v ∈ s.done, s.parent v = b.parent v
  waiting : ∀ v p, v ∉ s.done → firstFor v s.queue = some p → b.parent v = p

theorem Simulates.skip (h : Simulates s b) {u : V} {p : Option V} {rest : List (V × Option V)}
    (hqueue : s.queue = (u, p) :: rest) (hu : u ∈ s.done) :
    Simulates { s with queue := rest } b where
  done := h.done
  queue := by
    rw [h.queue, hqueue, pending_cons_of_mem hu]
  parent := h.parent
  waiting v p' hv hfirst := by
    have hne : v ≠ u := fun heq => hv (heq ▸ hu)
    refine h.waiting v p' hv ?_
    rw [hqueue, firstFor_cons_of_ne hne]
    exact hfirst

theorem Simulates.visit (h : Simulates s b) (hsucc : ∀ u, (succ u).Nodup) {u : V} {p : Option V}
    {rest : List (V × Option V)} (hqueue : s.queue = (u, p) :: rest) (hu : u ∉ s.done) :
    b.queue = u :: pending (u :: s.done) rest ∧
      Simulates (lazyVisit succ s u p rest)
        (Bfs.visit succ id b u (pending (u :: s.done) rest)) := by
  have horder : ∀ l : List V, (id l).Perm l := List.Perm.refl
  have hb : b.queue = u :: pending (u :: s.done) rest := by
    rw [h.queue, hqueue, pending_cons_of_not_mem hu]
  have hsame : pending (u :: s.done) rest = pending (s.done ++ [u]) rest :=
    pending_congr (fun v => by simp [or_comm]) rest
  have hseen : ∀ v, v ∈ b.seen ↔ v ∈ (s.done ++ [u]) ++ pending (s.done ++ [u]) rest := by
    intro v
    rw [State.seen, hb, h.done, hsame, List.append_assoc, List.singleton_append]
  have hold : ∀ v ∈ b.seen, (Bfs.visit succ id b u (pending (u :: s.done) rest)).parent v =
      b.parent v := fun v hv => (visit_of_seen horder hv).1
  have huseen : u ∈ b.seen := (hseen u).mpr (by simp)
  refine ⟨hb, ⟨?_, ?_, ?_, ?_⟩⟩
  · rw [Bfs.visit, h.done]
    rfl
  · show pending (u :: s.done) rest ++ fresh succ id b u = pending (s.done ++ [u]) _
    rw [lazyVisit, pending_append, pending_map _ ((hsucc u).filter _), List.filter_filter, hsame]
    congr 1
    refine List.filter_congr fun w _ => ?_
    rw [Bool.eq_iff_iff]
    simp only [decide_eq_true_eq, Bool.and_eq_true, hseen, List.mem_append (s := s.done ++ [u])]
    tauto
  · intro v hv
    show (if v = u then p else s.parent v) = _
    by_cases hvu : v = u
    · subst hvu
      rw [if_pos rfl, hold v huseen]
      exact (h.waiting v p hu (by rw [hqueue, firstFor_cons_self])).symm
    · have hdone : v ∈ s.done := by
        rcases List.mem_append.mp hv with hv | hv
        · exact hv
        · exact absurd (List.mem_singleton.mp hv) hvu
      rw [if_neg hvu, hold v (mem_seen_of_done (h.done ▸ hdone))]
      exact h.parent v hdone
  · intro v p' hv hfirst
    have hvu : v ≠ u := by
      rintro rfl
      exact hv (List.mem_append_right _ (List.mem_singleton_self v))
    have hv' : v ∉ s.done := fun hmem => hv (List.mem_append_left _ hmem)
    rw [lazyVisit, firstFor_append] at hfirst
    cases hrest : firstFor v rest with
    | some p'' =>
      rw [hrest, Option.some_or] at hfirst
      obtain rfl := Option.some.inj hfirst
      have hpending : v ∈ pending (s.done ++ [u]) rest :=
        mem_pending.mpr ⟨hv, _, mem_of_firstFor hrest⟩
      rw [hold v ((hseen v).mpr (List.mem_append_right _ hpending))]
      refine h.waiting v _ hv' ?_
      rw [hqueue, firstFor_cons_of_ne hvu, hrest]
    | none =>
      -- `u` is the first to put `v` into the queue
      rw [hrest, Option.none_or] at hfirst
      obtain ⟨w, hw, heq⟩ := List.mem_map.mp (mem_of_firstFor hfirst)
      obtain ⟨rfl, rfl⟩ := Prod.mk.inj heq
      have hnotseen : w ∉ b.seen := by
        rw [hseen, List.mem_append, not_or]
        refine ⟨hv, fun hmem => ?_⟩
        obtain ⟨_, p'', hmem'⟩ := mem_pending.mp hmem
        exact exists_of_firstFor_eq_none hrest p'' hmem'
      exact (visit_of_fresh ((mem_fresh horder).mpr ⟨(List.mem_filter.mp hw).1, hnotseen⟩)).1

/-- A search of `Bfs` takes out the same nodes in the same order. -/
theorem LazyRun.exists_run (hsucc : ∀ u, (succ u).Nodup) (h : LazyRun succ root s) :
    ∃ b, Run succ id root b ∧ Simulates s b := by
  induction h with
  | start =>
    refine ⟨Bfs.start root, .start, rfl, rfl, fun v hv => absurd hv List.not_mem_nil, ?_⟩
    intro v p _ hfirst
    have hmem := List.mem_singleton.mp (mem_of_firstFor hfirst)
    exact (Prod.mk.inj hmem).2.symm
  | skip _ hqueue hu ih =>
    obtain ⟨b, hrun, hsim⟩ := ih
    exact ⟨b, hrun, hsim.skip hqueue hu⟩
  | visit _ hqueue hu ih =>
    obtain ⟨b, hrun, hsim⟩ := ih
    obtain ⟨hb, hsim'⟩ := hsim.visit hsucc hqueue hu
    exact ⟨_, .visit hrun hb, hsim'⟩

end Bfs

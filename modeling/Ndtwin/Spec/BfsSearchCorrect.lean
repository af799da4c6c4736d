import Mathlib.Data.List.Sort
import Ndtwin.ForStd.Bfs
import Ndtwin.ForStd.List
import Ndtwin.Kernel.BfsPaths
import Ndtwin.Spec.AllPathsCorrect

/-!
# The search behind the paths to one host

`bfsAllPathsToDst` runs a breadth-first search over the usable edges that leave a vertex, and its
tables are what the vertices taken out of the queue write for the way to their parents.

## Key results

- `search_spec`: the loop ends, in a state of `Bfs` with an empty queue
- `walkBack_of_route`: the path that is read off the parents
- `foldlM_addPath`: which paths are returned, and what the path loop adds to the tables
-/

namespace Ndtwin.Kernel

open BfsPaths

/-- The vertices that the search goes to from a vertex. -/
def Graph.usableNeighbors (g : Graph) (u : Nat) : List Nat :=
  ((g.usableEdges u).filter fun e => vertexUsable g e.to).map Edge.to

def Graph.HasAddress (g : Graph) (v : Nat) (ip : UInt32) : Prop := ∃ p ∈ g.vertices[v]?, ip ∈ p.ip

theorem Graph.mem_usableNeighbors {g : Graph} {u w : Nat} :
    w ∈ g.usableNeighbors u ↔
      vertexUsable g w = true ∧ ∃ p, g.propsOf ⟨u, w⟩ = some p ∧ p.isUsable = true := by
  rw [usableNeighbors, List.mem_map]
  constructor
  · rintro ⟨e, he, rfl⟩
    obtain ⟨husable, hvertex⟩ := List.mem_filter.mp he
    obtain ⟨⟨hmem, rfl⟩, hup⟩ := mem_usableEdges.mp husable
    exact ⟨hvertex, e.props, propsOf_desc hmem, hup⟩
  · rintro ⟨hvertex, p, hp, hup⟩
    refine ⟨⟨⟨u, w⟩, p⟩, List.mem_filter.mpr ⟨?_, hvertex⟩, rfl⟩
    exact mem_usableEdges.mpr ⟨⟨propsOf_eq_some_iff.mp hp, rfl⟩, hup⟩

theorem Graph.nodup_usableNeighbors (g : Graph) (u : Nat) : (g.usableNeighbors u).Nodup := by
  refine List.Nodup.map_on ?_ ((g.nodup_usableEdges u).filter _)
  intro e he e' he' hto
  obtain ⟨hmem, hsource⟩ := (mem_usableEdges.mp (List.mem_filter.mp he).1).1
  obtain ⟨hmem', hsource'⟩ := (mem_usableEdges.mp (List.mem_filter.mp he').1).1
  -- two edges with one source and one target are the same edge
  refine edge_eq_of_desc_eq hmem hmem' ?_
  rw [← hsource'] at hsource
  exact congrArg₂ EdgeDesc.mk hsource hto

/-! ## Orders of neighbours -/

/-- The order by hash that puts the vertices of `first` before others with the same hash. -/
def NeighborSort.Before (first : Nat → Prop) (a b : UInt64 × Nat) : Prop :=
  a.1 < b.1 ∨ (a.1 = b.1 ∧ (first b.2 → first a.2))

variable (first : Nat → Prop)

instance [DecidablePred first] : DecidableRel (NeighborSort.Before first) := fun _ _ =>
  inferInstanceAs (Decidable (_ ∨ _))

instance : IsTrans (UInt64 × Nat) (NeighborSort.Before first) where
  trans a b c hab hbc := by
    rcases hab with hab | ⟨hab, hfirst⟩
    · rcases hbc with hbc | ⟨hbc, _⟩
      · exact .inl (UInt64.lt_trans hab hbc)
      · exact .inl (hbc ▸ hab)
    · rcases hbc with hbc | ⟨hbc, hfirst'⟩
      · exact .inl (hab ▸ hbc)
      · exact .inr ⟨hab.trans hbc, fun h => hfirst (hfirst' h)⟩

instance : Std.Total (NeighborSort.Before first) where
  total a b := by
    by_cases hlt : a.1 < b.1
    · exact .inl (.inl hlt)
    by_cases hgt : b.1 < a.1
    · exact .inr (.inl hgt)
    have heq : a.1 = b.1 := UInt64.le_antisymm (UInt64.not_lt.mp hgt) (UInt64.not_lt.mp hlt)
    -- the hashes are equal, so the preference decides
    by_cases ha : first a.2
    · exact .inl (.inr ⟨heq, fun _ => ha⟩)
    · exact .inr (.inr ⟨heq.symm, fun h => absurd h ha⟩)

/-- A sort by hash that breaks ties in favour of some vertices. -/
def NeighborSort.preferring (sha256 : String → List UInt8) [DecidablePred first] :
    NeighborSort where
  sha256 := sha256
  sort l := l.insertionSort (Before first)
  perm l := List.perm_insertionSort _ l
  sorted l := by
    refine (List.pairwise_insertionSort (Before first) l).imp fun {a b} hab => ?_
    rcases hab with h | ⟨h, _⟩
    · exact UInt64.le_of_lt h
    · exact UInt64.le_of_eq h

/-! ## The loop -/

variable {g : Graph} {order : NeighborSort} {dstSwitch : Nat} {dstIp : UInt32}
  {tables : OpenflowTables} {s : SearchState} {b : Bfs.State Nat}

theorem sortNeighbors_perm (order : NeighborSort) (g : Graph) (dstIp : UInt32) (l : List Nat) :
    (sortNeighbors order g dstIp l).Perm l := by
  refine ((order.perm _).map Prod.snd).trans ?_
  rw [List.map_map]
  exact .of_eq (List.map_id l)

/-- The rules that some vertices write, each for the way to its parent. -/
def writeRules (g : Graph) (dstIp : UInt32) (parent : Nat → Option Nat) (done : List Nat)
    (tables : OpenflowTables) : OpenflowTables :=
  done.foldl (fun tables u => writeRule g dstIp u (parent u) tables) tables

/-- The variables of the search in a state of `Bfs`. -/
structure Searching (g : Graph) (order : NeighborSort) (dstSwitch : Nat) (dstIp : UInt32)
    (tables : OpenflowTables) (s : SearchState) (b : Bfs.State Nat) : Prop where
  run : Bfs.Run g.usableNeighbors (sortNeighbors order g dstIp) dstSwitch b
  q : s.q = b.queue
  visited : ∀ v, v ∈ s.visited ↔ v ∈ b.seen
  parent : ∀ v ∈ b.seen, s.parentOf v = b.parent v
  newOpenflowTables : s.newOpenflowTables = writeRules g dstIp b.parent b.done tables

theorem Searching.inv (h : Searching g order dstSwitch dstIp tables s b) :
    Bfs.Inv g.usableNeighbors dstSwitch b :=
  Bfs.inv_of_run (sortNeighbors_perm order g dstIp) g.nodup_usableNeighbors h.run

theorem searching_initial :
    Searching g order dstSwitch dstIp tables (initial dstSwitch tables) (Bfs.start dstSwitch) where
  run := .start
  q := rfl
  visited v := by simp [initial, Bfs.start, Bfs.State.seen]
  parent v hv := by
    obtain rfl : v = dstSwitch := List.mem_singleton.mp hv
    rw [SearchState.parentOf, initial, ← AList.insert_empty, AList.lookup_insert, Option.getD_some,
      Bfs.start]
  newOpenflowTables := rfl

/-- The neighbours that are put into the queue. -/
theorem sortNeighbors_neighbors (h : ∀ v, v ∈ s.visited ↔ v ∈ b.seen) (u : Nat) :
    sortNeighbors order g dstIp (neighbors g s.visited u) =
      Bfs.fresh g.usableNeighbors (sortNeighbors order g dstIp) b u := by
  rw [Bfs.fresh, neighbors, Graph.usableNeighbors, Graph.usableEdges, List.filter_map,
    List.filter_filter, List.filter_filter]
  congr 2
  -- both filters ask for an unseen, usable vertex over a usable edge
  refine List.filter_congr fun e _ => ?_
  show (vertexUsable g e.to && e.props.isUsable && !decide (e.to ∈ s.visited)) =
    (decide (e.to ∉ b.seen) && vertexUsable g e.to && e.props.isUsable)
  rw [Bool.and_assoc, Bool.and_comm (decide _), Bool.and_right_comm, Bool.and_assoc]
  congr 2
  rw [← decide_not]
  exact decide_eq_decide.mpr (not_congr (h e.to))

theorem mem_foldl_insert {vs : List Nat} {visited : Finset Nat} {v : Nat} :
    v ∈ vs.foldl (fun visited v => insert v visited) visited ↔ v ∈ visited ∨ v ∈ vs := by
  induction vs generalizing visited with
  | nil => simp
  | cons w vs ih =>
    rw [List.foldl_cons, ih, Finset.mem_insert, List.mem_cons]
    tauto

/-- One pass of the loop. -/
theorem Searching.visitNode (h : Searching g order dstSwitch dstIp tables s b) {u : Nat}
    {q : List Nat} (hq : b.queue = u :: q) :
    Searching g order dstSwitch dstIp tables (visitNode order g dstIp s u q)
      (Bfs.visit g.usableNeighbors (sortNeighbors order g dstIp) b u q) := by
  have hfound := @sortNeighbors_neighbors g order dstIp s b h.visited u
  have hperm := sortNeighbors_perm order g dstIp
  have hseen := @Bfs.seen_visit _ _ g.usableNeighbors (sortNeighbors order g dstIp) b u q hq
  have hold := fun v hv =>
    @Bfs.visit_of_seen _ _ g.usableNeighbors (sortNeighbors order g dstIp) b u q hperm v hv
  have hu : u ∈ b.seen := Bfs.mem_seen_of_queue (by rw [hq]; exact List.mem_cons_self)
  constructor
  · exact .visit h.run hq
  · rw [BfsPaths.visitNode, hfound]
    rfl
  · intro v
    rw [hseen, BfsPaths.visitNode, hfound]
    show v ∈ List.foldl (fun visited v => insert v visited) s.visited _ ↔ _
    rw [mem_foldl_insert, h.visited, List.mem_append]
  · intro v hv
    rw [SearchState.parentOf, BfsPaths.visitNode, hfound]
    show (AList.lookup v (List.foldl _ s.parent _)).getD (some 0) = _
    rw [AssocMap.lookup_foldl_insert]
    -- a vertex that is found now gets this parent; the others keep theirs
    by_cases hfresh : v ∈ Bfs.fresh g.usableNeighbors (sortNeighbors order g dstIp) b u
    · rw [if_pos hfresh, (Bfs.visit_of_fresh hfresh).1, Option.getD_some]
    · have hvseen : v ∈ b.seen := (List.mem_append.mp (hseen ▸ hv)).resolve_right hfresh
      rw [if_neg hfresh, (hold v hvseen).1]
      exact h.parent v hvseen
  · show writeRule g dstIp u (s.parentOf u) s.newOpenflowTables = _
    rw [h.parent u hu, h.newOpenflowTables, writeRules, writeRules, Bfs.visit, List.foldl_append]
    rw [List.foldl_ext _ _ _ fun t v hv => by
      rw [← (hold v (Bfs.mem_seen_of_done hv)).1]]
    rw [List.foldl_cons, List.foldl_nil, ← (hold u hu).1]
    rfl

theorem Searching.length_seen_le (h : Searching g order dstSwitch dstIp tables s b) :
    b.seen.length ≤ g.vertices.length + 1 := by
  have hrange : ∀ u, ∀ w ∈ g.usableNeighbors u, w ∈ dstSwitch :: List.range g.vertices.length := by
    intro u w hw
    obtain ⟨_, p, hp, _⟩ := Graph.mem_usableNeighbors.mp hw
    have hlt := (g.inRange _ (Graph.propsOf_eq_some_iff.mp hp)).2
    exact List.mem_cons_of_mem _ (List.mem_range.mpr hlt)
  have hlen := List.Nodup.length_le_of_subset h.inv.nodup
    (h.inv.seen_subset List.mem_cons_self hrange)
  rwa [List.length_cons, List.length_range] at hlen

/-- The loop takes no vertex out of the queue twice, so it ends. -/
theorem Searching.search (h : Searching g order dstSwitch dstIp tables s b) {fuel : Nat}
    (hfuel : g.vertices.length + 1 < fuel + b.done.length) :
    ∃ s' b', search order g dstIp fuel s = some s' ∧
      Searching g order dstSwitch dstIp tables s' b' ∧ b'.queue = [] := by
  induction fuel generalizing s b with
  -- every pass takes out another vertex, and there are only so many
  | zero =>
    have hlen := h.length_seen_le
    rw [Bfs.State.seen, List.length_append] at hlen
    omega
  | succ fuel ih =>
    rw [BfsPaths.search, h.q]
    cases hqueue : b.queue with
    | nil => exact ⟨s, b, rfl, h, hqueue⟩
    | cons u q =>
      apply ih (h.visitNode hqueue)
      rw [Bfs.visit, List.length_append, List.length_singleton]
      omega

theorem search_spec (g : Graph) (order : NeighborSort) (dstSwitch : Nat) (dstIp : UInt32)
    (tables : OpenflowTables) :
    ∃ s b, search order g dstIp (g.vertices.length + 2) (initial dstSwitch tables) = some s ∧
      Searching g order dstSwitch dstIp tables s b ∧ b.queue = [] :=
  searching_initial.search (Nat.lt_succ_self _)

/-! ## Rules -/

/-- The rules at a dpid. -/
def tableAt (tables : OpenflowTables) (dpid : UInt64) : List OpenflowRule :=
  (tables.lookup dpid).getD []

/-- The rule that is written for a port. -/
def ruleFor (dstIp outPort : UInt32) : OpenflowRule := ⟨dstIp, hostMask, outPort, priority⟩

theorem ruleFor_eq (dstIp outPort : UInt32) :
    ruleFor dstIp outPort = ⟨dstIp &&& hostMask, hostMask, outPort, priority⟩ := by
  have hmask : dstIp &&& hostMask = dstIp := UInt32.and_neg_one
  rw [hmask, ruleFor]

/-- The rule for the host is in the table, with some port. -/
def HasRule (dstIp : UInt32) (table : List OpenflowRule) : Prop :=
  ∃ outPort, ruleFor dstIp outPort ∈ table

theorem ruleExists_iff {table : List OpenflowRule} :
    ruleExists table (dstIp &&& hostMask) hostMask priority = true ↔ HasRule dstIp table := by
  have hmask : dstIp &&& hostMask = dstIp := UInt32.and_neg_one
  rw [ruleExists, List.any_eq_true, hmask]
  constructor
  · rintro ⟨⟨net, mask, outPort, pri⟩, hmem, hid⟩
    obtain ⟨rfl, rfl, rfl⟩ := of_decide_eq_true hid
    exact ⟨outPort, hmem⟩
  · rintro ⟨outPort, hmem⟩
    exact ⟨_, hmem, decide_eq_true ⟨rfl, rfl, rfl⟩⟩

instance (dstIp : UInt32) (table : List OpenflowRule) : Decidable (HasRule dstIp table) :=
  decidable_of_iff _ ruleExists_iff

theorem tableAt_addRule (tables : OpenflowTables) (dpid : UInt64) (dstIp outPort : UInt32)
    (d : UInt64) :
    tableAt (addRule tables dpid dstIp outPort) d =
      if d = dpid ∧ ¬HasRule dstIp (tableAt tables dpid) then
        tableAt tables dpid ++ [ruleFor dstIp outPort]
      else tableAt tables d := by
  rw [addRule, tableAt, AssocMap.lookup_insert_eq, ← tableAt, ← ruleFor_eq]
  by_cases hd : d = dpid
  · subst hd
    rw [if_pos rfl, Option.getD_some]
    -- a rule for the host that is there already keeps its port
    by_cases hrule : HasRule dstIp (tableAt tables d)
    · rw [if_pos (ruleExists_iff.mpr hrule), if_neg fun h => h.2 hrule]
    · rw [if_neg fun h => hrule (ruleExists_iff.mp h), if_pos ⟨rfl, hrule⟩]
  · rw [if_neg hd, if_neg fun h => hd h.1, tableAt]

/-- The tables keep their rules, and gain rules for the host at ports that `new` allows, where there
    was none. -/
def Grown (new : UInt64 → UInt32 → Prop) (dstIp : UInt32) (tables tables' : OpenflowTables) :
    Prop :=
  ∀ d, tableAt tables' d = tableAt tables d ∨
    ∃ outPort, new d outPort ∧ ¬HasRule dstIp (tableAt tables d) ∧
      tableAt tables' d = tableAt tables d ++ [ruleFor dstIp outPort]

variable {new : UInt64 → UInt32 → Prop} {tables' tables'' : OpenflowTables}

theorem Grown.refl : Grown new dstIp tables tables := fun _ => .inl rfl

theorem Grown.trans (h : Grown new dstIp tables tables') (h' : Grown new dstIp tables' tables'') :
    Grown new dstIp tables tables'' := by
  intro d
  rcases h d with hd | ⟨outPort, hnew, hfree, hd⟩
  · rw [← hd]
    exact h' d
  · rcases h' d with hd' | ⟨_, _, hfree', _⟩
    · exact .inr ⟨outPort, hnew, hfree, hd'.trans hd⟩
    · -- the rule that was added is found the second time
      exact absurd ⟨outPort, by rw [hd]; exact List.mem_append_right _ (List.mem_singleton_self _)⟩
        hfree'

theorem grown_addRule {dpid : UInt64} {outPort : UInt32} (h : new dpid outPort) :
    Grown new dstIp tables (addRule tables dpid dstIp outPort) := by
  intro d
  rw [tableAt_addRule]
  split
  · next hcond =>
    obtain ⟨rfl, hfree⟩ := hcond
    exact .inr ⟨outPort, h, hfree, rfl⟩
  · exact .inl rfl

/-- What a vertex writes. -/
theorem writeRule_eq (g : Graph) (dstIp : UInt32) (u : Nat) (prev : Option Nat)
    (tables : OpenflowTables) :
    writeRule g dstIp u prev tables = tables ∨
      ∃ w p, prev = some w ∧ g.propsOf ⟨u, w⟩ = some p ∧ g.dpidOf u ≠ 0 ∧
        writeRule g dstIp u prev tables = addRule tables (g.dpidOf u) dstIp p.srcInterface := by
  rw [writeRule]
  cases prev with
  -- the root has no parent, and an edge may be missing
  | none => exact .inl rfl
  | some w =>
    rw [Option.bind_some]
    cases hp : g.propsOf ⟨u, w⟩ with
    | none => exact .inl rfl
    | some p =>
      -- a vertex without a dpid is no switch, and writes nothing
      by_cases hdpid : g.dpidOf u ≠ 0
      · exact .inr ⟨w, p, rfl, hp, hdpid, if_pos hdpid⟩
      · exact .inl (if_neg hdpid)

theorem grown_writeRules {parent : Nat → Option Nat} {done : List Nat}
    (h : ∀ u ∈ done, ∀ w p, parent u = some w → g.propsOf ⟨u, w⟩ = some p → g.dpidOf u ≠ 0 →
      new (g.dpidOf u) p.srcInterface) :
    Grown new dstIp tables (writeRules g dstIp parent done tables) := by
  induction done generalizing tables with
  | nil => exact .refl
  | cons u done ih =>
    obtain ⟨hu, hdone⟩ := List.forall_mem_cons.mp h
    have hstep : Grown new dstIp tables (writeRule g dstIp u (parent u) tables) := by
      rcases writeRule_eq g dstIp u (parent u) tables with heq | ⟨w, p, hw, hp, hdpid, heq⟩
      · rw [heq]
        exact .refl
      · rw [heq]
        exact grown_addRule (hu w p hw hp hdpid)
    exact hstep.trans (ih hdone)

/-- The table of a switch holds its own rule, if no other vertex has its dpid. -/
theorem tableAt_writeRules {parent : Nat → Option Nat} {done : List Nat} {u w : Nat}
    {p : EdgeProperties} (hnodup : done.Nodup) (hu : u ∈ done) (hw : parent u = some w)
    (hp : g.propsOf ⟨u, w⟩ = some p) (hdpid : g.dpidOf u ≠ 0)
    (hunique : ∀ v, g.dpidOf v = g.dpidOf u → v = u)
    (hfree : ¬HasRule dstIp (tableAt tables (g.dpidOf u))) :
    tableAt (writeRules g dstIp parent done tables) (g.dpidOf u) =
      tableAt tables (g.dpidOf u) ++ [ruleFor dstIp p.srcInterface] := by
  -- no other vertex writes to this table
  have hframe : ∀ tables v, v ≠ u →
      tableAt (writeRule g dstIp v (parent v) tables) (g.dpidOf u) =
        tableAt tables (g.dpidOf u) := by
    intro tables v hne
    rcases writeRule_eq g dstIp v (parent v) tables with heq | ⟨_, _, _, _, _, heq⟩
    · rw [heq]
    · rw [heq, tableAt_addRule, if_neg fun h => hne (hunique v h.1.symm)]
  obtain ⟨tables', hsame, hwrite⟩ := @List.foldl_proj_of_mem _ _ _ _
    (fun tables u => writeRule g dstIp u (parent u) tables) id
    (fun tables => tableAt tables (g.dpidOf u)) u hframe done (by rwa [List.map_id]) u hu rfl tables
  have hself : writeRule g dstIp u (parent u) tables' =
      addRule tables' (g.dpidOf u) dstIp p.srcInterface := by
    rw [writeRule, hw, Option.bind_some, hp]
    exact if_pos hdpid
  rw [writeRules, hwrite, hself, tableAt_addRule, hsame, if_pos ⟨rfl, hfree⟩]

/-! ## Paths -/

/-- What is pushed for the edges between the vertices of a walk. -/
def hopsOf (g : Graph) : List Nat → Path
  | v :: w :: ns =>
    match g.propsOf ⟨v, w⟩ with
    | some props => (g.dpidOf v, props.srcInterface) :: hopsOf g (w :: ns)
    | none => hopsOf g (w :: ns)
  | _ => []

/-- The parents of the search as a relation. -/
def Parent (b : Bfs.State Nat) (v w : Nat) : Prop := v ∈ b.seen ∧ b.parent v = some w

/-- The edge along which a vertex was discovered. -/
theorem Searching.edge_of_parent (h : Searching g order dstSwitch dstIp tables s b) {v w : Nat}
    (hhop : Parent b v w) : w ∈ b.done ∧ b.depth v = b.depth w + 1 ∧ vertexUsable g v = true ∧
      ∃ p, g.propsOf ⟨w, v⟩ = some p ∧ p.isUsable = true := by
  obtain ⟨hseen, hparent⟩ := hhop
  have hne : v ≠ dstSwitch := by
    rintro rfl
    exact nomatch h.inv.root_parent.symm.trans hparent
  obtain ⟨w', hw', hparent', hnext, hdepth⟩ := h.inv.parent v hseen hne
  obtain rfl : w' = w := Option.some.inj (hparent'.symm.trans hparent)
  exact ⟨hw', hdepth, Graph.mem_usableNeighbors.mp hnext⟩

theorem Searching.length_route (h : Searching g order dstSwitch dstIp tables s b) {v : Nat}
    {ns : List Nat} (hroute : Walk.Route (Parent b) dstSwitch v ns) :
    ns.length = b.depth v + 1 := by
  induction hroute with
  | arrive => rw [h.inv.root_depth, List.length_singleton]
  | step hhop _ ih => rw [List.length_cons, ih, (h.edge_of_parent hhop).2.1]

theorem walkBack_of_route (h : Searching g order dstSwitch dstIp tables s b) {v : Nat}
    {ns : List Nat} (hroute : Walk.Route (Parent b) dstSwitch v ns) (hnodup : ns.Nodup)
    {fuel : Nat} (hfuel : ns.length ≤ fuel) (path : Path) :
    walkBack g s dstSwitch fuel v path = some (path ++ hopsOf g ns) := by
  induction hroute generalizing fuel path with
  | arrive =>
    obtain ⟨fuel, rfl⟩ := Nat.exists_eq_add_of_le' hfuel
    rw [List.length_singleton, walkBack, if_pos rfl, hopsOf, List.append_nil]
    rintro _ _ _ ⟨⟩
  -- the path gets the hop to the parent, when there is an edge
  | @step v w ns hhop hroute ih =>
    obtain ⟨hfresh, hrest⟩ := List.nodup_cons.mp hnodup
    obtain ⟨fuel, rfl⟩ : ∃ k, fuel = k + 1 := ⟨fuel - 1, by rw [List.length_cons] at hfuel; omega⟩
    have hv : v ≠ dstSwitch := by
      rintro rfl
      exact hfresh hroute.target_mem
    have hlen : ns.length ≤ fuel := Nat.le_of_succ_le_succ hfuel
    obtain ⟨rest, rfl⟩ := hroute.exists_cons
    rw [walkBack, if_neg hv, h.parent v hhop.1, hhop.2]
    dsimp only
    rw [ih hrest hlen, hopsOf]
    cases g.propsOf ⟨v, w⟩ with
    | none => rfl
    | some props => simp

theorem hopsOf_append {hop : Nat → Nat → Prop} {v : Nat} {ns : List Nat}
    (hroute : Walk.Route hop dstSwitch v ns) (w : Nat) :
    hopsOf g (ns ++ [w]) = hopsOf g ns ++ hopsOf g [dstSwitch, w] := by
  induction hroute with
  | arrive => rfl
  | @step v u ns _ hroute ih =>
    obtain ⟨rest, rfl⟩ := hroute.exists_cons
    rw [List.cons_append, List.cons_append, hopsOf, hopsOf, ← List.cons_append, ih]
    split
    · rfl
    · rfl

/-- The edge of a host from which there is a path. -/
structure Source (g : Graph) (dstSwitch : Nat) (dstIp srcIp : UInt32) (e : Edge) : Prop where
  ne : srcIp ≠ dstIp
  vertex : g.findVertexByIp srcIp ≠ none
  mem : e ∈ g.edges
  edge : g.findEdgeByHostIp srcIp = some e.desc
  reached : ∃ n, Bfs.Reaches g.usableNeighbors dstSwitch n e.to

/-- The edge found by an address leaves a vertex that has it. -/
theorem Source.hasAddress (hagree : ∀ e ∈ g.edges, g.EdgeAgrees e) {srcIp : UInt32} {e : Edge}
    (hsrc : Source g dstSwitch dstIp srcIp e) : g.HasAddress e.desc.source srcIp := by
  obtain ⟨e', he', hdesc, htest⟩ := Graph.exists_of_findEdge hsrc.edge
  obtain rfl := Graph.edge_eq_of_desc_eq he' hsrc.mem hdesc
  obtain ⟨v, hv, _, _, _, hip, _⟩ := hagree e' he'
  exact ⟨v, hv, by rw [← hip]; exact List.contains_iff_mem.mp htest⟩

/-- The path that is read off for a walk from the switch of a source to the destination. -/
def listed (g : Graph) (srcIp dstIp : UInt32) (e : Edge) (ns : List Nat) (dstHost : Nat) : Path :=
  (srcIp.toUInt64, e.props.dstInterface) :: hopsOf g (ns ++ [dstHost]) ++ [(dstIp.toUInt64, 0)]

/-- The rule that the path loop adds at the destination switch. -/
def lastRule (g : Graph) (dstSwitch dstHost : Nat) (dstIp : UInt32) (tables : OpenflowTables) :
    OpenflowTables :=
  match g.propsOf ⟨dstSwitch, dstHost⟩ with
  | some props => addRule tables (g.dpidOf dstSwitch) dstIp props.srcInterface
  | none => tables

theorem Searching.mem_visited (h : Searching g order dstSwitch dstIp tables s b)
    (hqueue : b.queue = []) {v : Nat} :
    v ∈ s.visited ↔ ∃ n, Bfs.Reaches g.usableNeighbors dstSwitch n v := by
  rw [h.visited, Bfs.State.seen, hqueue, List.append_nil]
  exact h.inv.done_iff hqueue

theorem Searching.length_route_le (h : Searching g order dstSwitch dstIp tables s b) {v : Nat}
    {ns : List Nat} (hroute : Walk.Route (Parent b) dstSwitch v ns) (hnodup : ns.Nodup) :
    ns.length ≤ g.vertices.length + 2 := by
  -- the switches of a route have been seen, so there is fuel for it
  have hsub : ns ⊆ b.seen := by
    clear hnodup
    induction hroute with
    | arrive => exact fun v hv => List.mem_singleton.mp hv ▸ h.inv.root_seen
    | step hhop _ ih => exact List.cons_subset.mpr ⟨hhop.1, ih⟩
  exact ((List.Nodup.length_le_of_subset hnodup hsub).trans h.length_seen_le).trans (Nat.le_succ _)

/-- A source gets its path. -/
theorem addPath_of_source (h : Searching g order dstSwitch dstIp tables s b)
    (hqueue : b.queue = []) {srcIp : UInt32} {e : Edge} (hsrc : Source g dstSwitch dstIp srcIp e)
    {dstHost : Nat} (hhost : g.findVertexByIp dstIp = some dstHost) {ns : List Nat}
    (hroute : Walk.Route (Parent b) dstSwitch e.to ns) (hnodup : ns.Nodup)
    (acc : List Path × OpenflowTables) :
    addPath g s dstSwitch dstIp acc srcIp =
      some (acc.1 ++ [listed g srcIp dstIp e ns dstHost],
        lastRule g dstSwitch dstHost dstIp acc.2) := by
  obtain ⟨v, hv⟩ := Option.ne_none_iff_exists'.mp hsrc.vertex
  have hvisited : e.desc.target ∈ s.visited := (h.mem_visited hqueue).mpr hsrc.reached
  have hlen := h.length_route_le hroute hnodup
  rw [addPath, if_neg hsrc.ne, hv, hsrc.edge]
  simp only [if_neg (not_not.mpr hvisited), Graph.propsOf_desc hsrc.mem, Option.map_some,
    Option.getD_some]
  rw [← Edge.to, walkBack_of_route h hroute hnodup hlen]
  simp only [hhost, listed, lastRule, hopsOf_append hroute, hopsOf]
  cases g.propsOf ⟨dstSwitch, dstHost⟩ with
  | none => simp
  | some props => simp

/-- Other addresses are passed over. -/
theorem addPath_of_not_source (h : Searching g order dstSwitch dstIp tables s b)
    (hqueue : b.queue = []) {srcIp : UInt32}
    (hnot : ∀ e, Source g dstSwitch dstIp srcIp e → g.findVertexByIp dstIp = none)
    (acc : List Path × OpenflowTables) : addPath g s dstSwitch dstIp acc srcIp = some acc := by
  rw [addPath]
  split
  · rfl
  next hne =>
  split
  · rfl
  · rfl
  next v d hv hd =>
  dsimp only
  split
  · rfl
  next hvisited =>
  obtain ⟨e, he, rfl, _⟩ := Graph.exists_of_findEdge hd
  -- the source has an edge whose switch was reached, so only its own vertex can be missing
  have hreached := (h.mem_visited hqueue).mp (not_not.mp hvisited)
  have hsrc : Source g dstSwitch dstIp srcIp e :=
    ⟨hne, by rw [hv]; exact Option.some_ne_none v, he, hd, hreached⟩
  have hdone := (h.inv.done_iff hqueue).mpr hreached
  obtain ⟨ns, hroute, _, hnodup, _⟩ := h.inv.exists_route (Bfs.mem_seen_of_done hdone)
  rw [walkBack_of_route h hroute hnodup (h.length_route_le hroute hnodup)]
  simp only [hnot e hsrc]

/-- A path that the path loop reads off for an address. -/
def IsListed (g : Graph) (b : Bfs.State Nat) (dstSwitch : Nat) (dstIp srcIp : UInt32)
    (path : Path) : Prop :=
  ∃ e dstHost ns, Source g dstSwitch dstIp srcIp e ∧ g.findVertexByIp dstIp = some dstHost ∧
    Walk.Route (Parent b) dstSwitch e.to ns ∧ ns.Nodup ∧ path = listed g srcIp dstIp e ns dstHost

/-- The ports at which the path loop writes a rule. -/
def LastPort (g : Graph) (dstSwitch : Nat) (dstIp : UInt32) (allHostIps : List UInt32)
    (dpid : UInt64) (outPort : UInt32) : Prop :=
  dpid = g.dpidOf dstSwitch ∧ ∃ srcIp ∈ allHostIps, ∃ e, Source g dstSwitch dstIp srcIp e ∧
    ∃ dstHost p, g.findVertexByIp dstIp = some dstHost ∧
      g.propsOf ⟨dstSwitch, dstHost⟩ = some p ∧ outPort = p.srcInterface

/-- One pass of the path loop. -/
theorem addPath_spec (h : Searching g order dstSwitch dstIp tables s b) (hqueue : b.queue = [])
    (srcIp : UInt32) (acc : List Path × OpenflowTables) :
    ∃ acc', addPath g s dstSwitch dstIp acc srcIp = some acc' ∧
      (∀ path, path ∈ acc'.1 ↔ path ∈ acc.1 ∨ IsListed g b dstSwitch dstIp srcIp path) ∧
      Grown (LastPort g dstSwitch dstIp [srcIp]) dstIp acc.2 acc'.2 := by
  by_cases hcond : ∃ e dstHost, Source g dstSwitch dstIp srcIp e ∧
      g.findVertexByIp dstIp = some dstHost
  · -- the path is read off the one route of the search
    obtain ⟨e, dstHost, hsrc, hhost⟩ := hcond
    have hdone := (h.inv.done_iff hqueue).mpr hsrc.reached
    obtain ⟨ns, hroute, _, hnodup, _⟩ := h.inv.exists_route (Bfs.mem_seen_of_done hdone)
    have hadd := addPath_of_source h hqueue hsrc hhost hroute hnodup acc
    refine ⟨_, hadd, fun path => ?_, ?_⟩
    · rw [List.mem_append, List.mem_singleton]
      refine or_congr_right ⟨?_, ?_⟩
      · rintro rfl
        exact ⟨e, dstHost, ns, hsrc, hhost, hroute, hnodup, rfl⟩
      · -- whatever walk the path is read off, the pass has one result
        rintro ⟨e', dstHost', ns', hsrc', hhost', hroute', hnodup', rfl⟩
        have hadd' := addPath_of_source h hqueue hsrc' hhost' hroute' hnodup' acc
        have hpaths := congrArg Prod.fst (Option.some.inj (hadd'.symm.trans hadd))
        exact List.singleton_inj.mp (List.append_cancel_left hpaths)
    · show Grown _ dstIp acc.2 (lastRule g dstSwitch dstHost dstIp acc.2)
      rw [lastRule]
      cases hp : g.propsOf ⟨dstSwitch, dstHost⟩ with
      | none => exact .refl
      | some p =>
        exact grown_addRule ⟨rfl, srcIp, List.mem_singleton_self srcIp, e, hsrc, dstHost, p, hhost,
          hp, rfl⟩
  · refine ⟨acc, addPath_of_not_source h hqueue (fun e he => ?_) acc, fun path => ?_, .refl⟩
    · cases hhost : g.findVertexByIp dstIp with
      | none => rfl
      | some dstHost => exact absurd ⟨e, dstHost, he, hhost⟩ hcond
    · refine ⟨.inl, fun hpath => hpath.resolve_right ?_⟩
      rintro ⟨e, dstHost, _, hsrc, hhost, _⟩
      exact hcond ⟨e, dstHost, hsrc, hhost⟩

theorem Grown.mono {new' : UInt64 → UInt32 → Prop} (h : Grown new dstIp tables tables')
    (hnew : ∀ d outPort, new d outPort → new' d outPort) : Grown new' dstIp tables tables' := by
  intro d
  rcases h d with hd | ⟨outPort, hport, hrest⟩
  · exact .inl hd
  · exact .inr ⟨outPort, hnew d outPort hport, hrest⟩

/-- The path loop. -/
theorem foldlM_addPath (h : Searching g order dstSwitch dstIp tables s b) (hqueue : b.queue = [])
    (allHostIps : List UInt32) (acc : List Path × OpenflowTables) :
    ∃ acc', allHostIps.foldlM (addPath g s dstSwitch dstIp) acc = some acc' ∧
      (∀ path, path ∈ acc'.1 ↔
        path ∈ acc.1 ∨ ∃ srcIp ∈ allHostIps, IsListed g b dstSwitch dstIp srcIp path) ∧
      Grown (LastPort g dstSwitch dstIp allHostIps) dstIp acc.2 acc'.2 := by
  induction allHostIps generalizing acc with
  | nil => exact ⟨acc, rfl, fun path => by simp, .refl⟩
  | cons srcIp allHostIps ih =>
    obtain ⟨acc₁, hadd, hpaths₁, hgrown₁⟩ := addPath_spec h hqueue srcIp acc
    obtain ⟨acc₂, hrest, hpaths₂, hgrown₂⟩ := ih acc₁
    refine ⟨acc₂, ?_, fun path => ?_, ?_⟩
    · rw [List.foldlM_cons, hadd]
      exact hrest
    · rw [hpaths₂, hpaths₁, or_assoc]
      simp only [List.mem_cons, exists_eq_or_imp]
    · refine (hgrown₁.mono fun d outPort => ?_).trans (hgrown₂.mono fun d outPort => ?_)
      · rintro ⟨hd, ip, hip, hrest⟩
        exact ⟨hd, ip, List.mem_singleton.mp hip ▸ List.mem_cons_self, hrest⟩
      · rintro ⟨hd, ip, hip, hrest⟩
        exact ⟨hd, ip, List.mem_cons_of_mem srcIp hip, hrest⟩

/-- What `bfsAllPathsToDst` returns. -/
theorem bfsAllPathsToDst_spec (g : Graph) (order : NeighborSort) (dstSwitch : Nat) (dstIp : UInt32)
    (allHostIps : List UInt32) (tables : OpenflowTables) :
    ∃ paths tables' s b, g.bfsAllPathsToDst order dstSwitch dstIp allHostIps tables =
        some (paths, tables') ∧
      Searching g order dstSwitch dstIp tables s b ∧ b.queue = [] ∧
      (∀ path, path ∈ paths ↔ ∃ srcIp ∈ allHostIps, IsListed g b dstSwitch dstIp srcIp path) ∧
      Grown (LastPort g dstSwitch dstIp allHostIps) dstIp
        (writeRules g dstIp b.parent b.done tables) tables' := by
  obtain ⟨s, b, hsearch, hs, hqueue⟩ := search_spec g order dstSwitch dstIp tables
  obtain ⟨⟨paths, tables'⟩, hfold, hpaths, hgrown⟩ :=
    foldlM_addPath hs hqueue allHostIps ([], s.newOpenflowTables)
  refine ⟨paths, tables', s, b, ?_, hs, hqueue, ?_, ?_⟩
  · rw [Graph.bfsAllPathsToDst, hsearch]
    exact hfold
  · simpa using hpaths
  · rwa [← hs.newOpenflowTables]

end Ndtwin.Kernel

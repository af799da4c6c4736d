import Ndtwin.ForStd.LazyBfs
import Ndtwin.Router.AllPairPaths

/-!
# The walk towards one address

The search of `install_all_pair_paths` is a breadth-first search from the switch of a host over
links that are there in both directions. Every connected switch that it visits is sent one rule,
and the paths read off the parents pass the switches by the ports of these rules.

## Key results

- `search_spec`: the search ends, with the rules and parents of a search of `Bfs`
- `walkTo_spec`: what the walk towards one address sends and reports
- `installAllPairPaths_spec`: the walk over all addresses, one part for each
-/

namespace Ndtwin.Router

namespace WalkEnv

variable {env : WalkEnv} {dstIp : String} {host dstSwitch : RouterNode}

/-- The host of the address, the switch that it hangs at, and the port of the switch to it. -/
structure HangsAt (env : WalkEnv) (ip : String) (host switch : RouterNode) (port : Int) :
    Prop where
  found : env.findHostByIp ip = some host
  attached : env.findConnectedSwitch (some host) = .ok switch
  port : env.net.edge? switch host = some port

theorem HangsAt.unique {ip : String} {host host' switch switch' : RouterNode} {port port' : Int}
    (h : env.HangsAt ip host switch port) (h' : env.HangsAt ip host' switch' port') :
    host' = host ∧ switch' = switch ∧ port' = port := by
  obtain rfl : host' = host := Option.some.inj (h'.found.symm.trans h.found)
  obtain rfl : switch' = switch := Except.ok.inj (h'.attached.symm.trans h.attached)
  exact ⟨rfl, rfl, Option.some.inj (h'.port.symm.trans h.port)⟩

/-- The switches that the search goes to from a switch, in order. -/
def linked (env : WalkEnv) (dstIp : String) (u : RouterNode) : List RouterNode :=
  if env.isSwitch u then
    (env.sortNeighbors dstIp (env.net.neighbors u)).filter fun w =>
      env.isSwitch w ∧ env.net.hasEdge w u
  else []

theorem mem_sortNeighbors {l : List RouterNode} {w : RouterNode} :
    w ∈ env.sortNeighbors dstIp l ↔ w ∈ l := List.mem_mergeSort

theorem mem_linked {u w : RouterNode} :
    w ∈ env.linked dstIp u ↔ env.isSwitch u = true ∧ env.isSwitch w = true ∧
      env.net.hasEdge u w = true ∧ env.net.hasEdge w u = true := by
  rw [linked]
  by_cases hu : env.isSwitch u = true
  · rw [if_pos hu, List.mem_filter, mem_sortNeighbors, DiGraph.mem_neighbors, decide_eq_true_iff]
    tauto
  · rw [if_neg hu]
    simp [hu]

theorem nodup_linked (u : RouterNode) : (env.linked dstIp u).Nodup := by
  rw [linked]
  split
  · exact ((List.mergeSort_perm _ _).nodup_iff.mpr (env.net.nodup_neighbors u)).filter _
  · exact List.nodup_nil

theorem isSwitch_iff_datapath {v : RouterNode} :
    env.isSwitch v = true ↔ ∃ d, env.datapath v = some d := by
  cases v with
  | dpid d => simp [isSwitch, datapath]
  | mac s => simp [isSwitch, datapath]

theorem datapath_eq_some {v : RouterNode} {d : Int} :
    env.datapath v = some d ↔ v = .dpid d ∧ d ∈ env.switches := by
  cases v with
  | dpid d' =>
    simp only [datapath, Option.ite_none_right_eq_some, Option.some.injEq, RouterNode.dpid.injEq]
    constructor
    · rintro ⟨hmem, rfl⟩
      exact ⟨rfl, hmem⟩
    · rintro ⟨rfl, hmem⟩
      exact ⟨hmem, rfl⟩
  | mac s => simp [datapath]

/-! ## The search -/

/-- The port by which a switch sends what is for the host: to its parent, or to the host. -/
def portOf (env : WalkEnv) (host v : RouterNode) (parent : Option RouterNode) : Option Int :=
  env.net.edge? v (parent.getD host)

/-- The rule that is sent to a switch. -/
def ruleOf (env : WalkEnv) (dstIp : String) (host v : RouterNode) (parent : Option RouterNode) :
    Option SentRule :=
  (env.datapath v).bind fun dpid => (env.portOf host v parent).map fun port => ⟨dpid, dstIp, port⟩

/-- The value of a switch in `parent_hash`. -/
def parentKey (dstIp : String) (parent : Option RouterNode) : PathNode :=
  (parent.map PathNode.node).getD (.ip dstIp)

/-- The variables of the search in a state of `Bfs`. -/
structure Walking (env : WalkEnv) (dstIp : String) (host dstSwitch : RouterNode)
    (before : List SentRule) (s : WalkSearch) (rules : List SentRule)
    (l : Bfs.LazyState RouterNode) : Prop where
  run : Bfs.LazyRun (env.linked dstIp) dstSwitch l
  visited : s.visited = l.done
  queue : s.queue = l.queue
  entries : ∀ v p, (v, some p) ∈ l.queue → env.net.hasEdge v p = true
  root : ∀ v, (v, none) ∈ l.queue → v = dstSwitch
  parentHash : s.parentHash.toPairs =
    (.ip dstIp, none) :: l.done.map fun v => (.node v, some (parentKey dstIp (l.parent v)))
  rules : rules = before ++ l.done.filterMap fun v => env.ruleOf dstIp host v (l.parent v)

theorem walking_initial (before : List SentRule) :
    Walking env dstIp host dstSwitch before (initial dstIp dstSwitch) before
      (Bfs.lazyStart dstSwitch) where
  run := .start
  visited := rfl
  queue := rfl
  entries v p h := by
    cases (Prod.mk.inj (List.mem_singleton.mp h)).2
  root v h := (Prod.mk.inj (List.mem_singleton.mp h)).1
  parentHash := AssocMap.toPairs_set_of_not_mem (AList.notMem_empty _) none
  rules := (List.append_nil before).symm

variable {before rules : List SentRule} {s : WalkSearch} {l : Bfs.LazyState RouterNode}
  {port : Int}

/-- Every entry of the queue has a port. -/
theorem Walking.outPort (h : Walking env dstIp host dstSwitch before s rules l)
    (hport : env.net.edge? dstSwitch host = some port) {u : RouterNode} {p : Option RouterNode}
    (hmem : (u, p) ∈ l.queue) :
    ∃ port', env.net.edge? u (p.getD host) = some port' ∧
      env.outPort (some host) u p = .ok (some port') := by
  cases p with
  -- only the switch of the host is put into the queue without a parent
  | none =>
    obtain rfl := h.root u hmem
    refine ⟨port, hport, ?_⟩
    rw [WalkEnv.outPort, getHostPort, Option.bind_some, hport]
    rfl
  -- the edge back to the parent was checked when the switch was put there
  | some w =>
    obtain ⟨port', hport'⟩ := Option.isSome_iff_exists.mp (h.entries u w hmem)
    refine ⟨port', hport', ?_⟩
    rw [WalkEnv.outPort, hport']

/-- What was noted for the switches visited before stays, and the new one is noted. -/
theorem parent_lazyVisit {u : RouterNode} (hu : u ∉ l.done) (p : Option RouterNode)
    (rest : List (RouterNode × Option RouterNode)) :
    (Bfs.lazyVisit (env.linked dstIp) l u p rest).parent u = p ∧
      ∀ v ∈ l.done, (Bfs.lazyVisit (env.linked dstIp) l u p rest).parent v = l.parent v := by
  refine ⟨if_pos rfl, fun v hv => if_neg ?_⟩
  rintro rfl
  exact hu hv

/-- A switch is put into `parent_hash` when it is visited. -/
theorem Walking.toPairs_set (h : Walking env dstIp host dstSwitch before s rules l)
    {u : RouterNode} (hu : u ∉ l.done) (p : Option RouterNode)
    (rest : List (RouterNode × Option RouterNode)) :
    (s.parentHash.set (.node u) (some (parentKey dstIp p))).toPairs =
      (.ip dstIp, none) :: (Bfs.lazyVisit (env.linked dstIp) l u p rest).done.map fun v =>
        (.node v, some (parentKey dstIp
          ((Bfs.lazyVisit (env.linked dstIp) l u p rest).parent v))) := by
  obtain ⟨hnew, hold⟩ := @parent_lazyVisit env dstIp l u hu p rest
  -- the keys are the address and the visited switches
  have hfresh : PathNode.node u ∉ s.parentHash := by
    intro hmem
    obtain ⟨value, hvalue⟩ := AssocMap.exists_of_mem hmem
    have hpair := AssocMap.mem_toPairs.mpr hvalue
    rw [h.parentHash, List.mem_cons] at hpair
    rcases hpair with heq | hpair
    · cases heq
    · obtain ⟨v, hv, heq⟩ := List.mem_map.mp hpair
      cases heq
      exact hu hv
  have hdone : (Bfs.lazyVisit (env.linked dstIp) l u p rest).done = l.done ++ [u] := rfl
  rw [AssocMap.toPairs_set_of_not_mem hfresh, h.parentHash, List.cons_append, hdone,
    List.map_append, List.map_singleton, hnew]
  congr 2
  refine List.map_congr_left fun v hv => ?_
  rw [hold v hv]

/-- The rules that were sent, and the one for the switch that is visited. -/
theorem Walking.rules_visit (h : Walking env dstIp host dstSwitch before s rules l)
    {u : RouterNode} (hu : u ∉ l.done) (p : Option RouterNode)
    (rest : List (RouterNode × Option RouterNode)) :
    rules ++ (env.ruleOf dstIp host u p).toList =
      before ++ (Bfs.lazyVisit (env.linked dstIp) l u p rest).done.filterMap fun v =>
        env.ruleOf dstIp host v ((Bfs.lazyVisit (env.linked dstIp) l u p rest).parent v) := by
  obtain ⟨hnew, hold⟩ := @parent_lazyVisit env dstIp l u hu p rest
  have hdone : (Bfs.lazyVisit (env.linked dstIp) l u p rest).done = l.done ++ [u] := rfl
  have hlast : [u].filterMap (fun v => env.ruleOf dstIp host v
      ((Bfs.lazyVisit (env.linked dstIp) l u p rest).parent v)) =
      (env.ruleOf dstIp host u p).toList := by
    rw [List.filterMap_cons, hnew]
    cases env.ruleOf dstIp host u p with
    | none => rfl
    | some rule => rfl
  rw [h.rules, hdone, List.filterMap_append, hlast, List.append_assoc]
  congr 2
  -- the rules of the others are as they were
  refine List.filterMap_congr fun v hv => ?_
  rw [hold v hv]

/-- What is put into the queue is what the search of `Bfs` puts there. -/
theorem enqueued_eq {u : RouterNode} (hu : env.isSwitch u = true) (visited : List RouterNode) :
    env.enqueued dstIp visited u =
      ((env.linked dstIp u).filter fun w => w ∉ visited).map fun w => (w, some u) := by
  rw [enqueued, linked, if_pos hu, List.filter_filter]
  congr 1
  refine List.filter_congr fun w _ => ?_
  rw [Bool.eq_iff_iff]
  simp

/-- One pass of the loop over an entry. -/
theorem Walking.visitSwitch (h : Walking env dstIp host dstSwitch before s rules l)
    (hport : env.net.edge? dstSwitch host = some port) {u : RouterNode} {p : Option RouterNode}
    {rest : List (RouterNode × Option RouterNode)} (hqueue : l.queue = (u, p) :: rest) :
    ∃ s' rules' l', env.visitSwitch dstIp (some host) s u p rest rules = .ok s' rules' ∧
      Walking env dstIp host dstSwitch before s' rules' l' ∧
      ((u ∈ l.done ∧ l' = { l with queue := rest }) ∨
        (u ∉ l.done ∧ l' = Bfs.lazyVisit (env.linked dstIp) l u p rest)) := by
  have hsub : ∀ e ∈ rest, e ∈ l.queue := fun e he => hqueue ▸ List.mem_cons_of_mem _ he
  -- a switch can be in the queue several times, and is visited once
  by_cases hu : u ∈ l.done
  · refine ⟨{ s with queue := rest }, rules, _, ?_, ?_, .inl ⟨hu, rfl⟩⟩
    · rw [WalkEnv.visitSwitch, h.visited, if_pos hu]
      rfl
    · exact {
        run := .skip h.run hqueue hu
        visited := h.visited
        queue := rfl
        entries := fun v p' hmem => h.entries v p' (hsub _ hmem)
        root := fun v hmem => h.root v (hsub _ hmem)
        parentHash := h.parentHash
        rules := h.rules }
  · obtain ⟨port', hport', hout⟩ := h.outPort hport (by rw [hqueue]; exact List.mem_cons_self)
    have hlinks : ∀ e ∈ ((env.linked dstIp u).filter fun w => w ∉ l.done ++ [u]).map
        (fun w => (w, some u)), ∃ w, e = (w, some u) ∧ env.net.hasEdge w u = true := by
      intro e he
      obtain ⟨w, hw, rfl⟩ := List.mem_map.mp he
      exact ⟨w, rfl, (mem_linked.mp (List.mem_filter.mp hw).1).2.2.2⟩
    -- the invariant after a visit, whether or not the switch gets a rule
    have hwalking : ∀ s' rules', s'.visited = l.done ++ [u] →
        s'.queue = (Bfs.lazyVisit (env.linked dstIp) l u p rest).queue →
        s'.parentHash = s.parentHash.set (.node u) (some (parentKey dstIp p)) →
        rules' = rules ++ (env.ruleOf dstIp host u p).toList →
        Walking env dstIp host dstSwitch before s' rules'
          (Bfs.lazyVisit (env.linked dstIp) l u p rest) := by
      intro s' rules' hvisited hqueue' hparent hrules
      refine {
        run := .visit h.run hqueue hu
        visited := hvisited
        queue := hqueue'
        entries := fun v p' hmem => ?_
        root := fun v hmem => ?_
        parentHash := hparent ▸ h.toPairs_set hu p rest
        rules := hrules ▸ h.rules_visit hu p rest }
      · rcases List.mem_append.mp hmem with hmem | hmem
        · exact h.entries v p' (hsub _ hmem)
        · obtain ⟨w, heq, hedge⟩ := hlinks _ hmem
          cases heq
          exact hedge
      · rcases List.mem_append.mp hmem with hmem | hmem
        · exact h.root v (hsub _ hmem)
        · obtain ⟨w, heq, _⟩ := hlinks _ hmem
          cases heq
    have hstart : u ∉ s.visited := h.visited ▸ hu
    rw [WalkEnv.visitSwitch, if_neg hstart, EState.ofExcept_bind hout]
    dsimp only
    cases hpath : env.datapath u with
    -- no switch any more: it gets no rule, and leads nowhere
    | none =>
      refine ⟨_, _, _, rfl, hwalking _ _ ?_ ?_ rfl ?_, .inr ⟨hu, rfl⟩⟩
      · rw [h.visited]
      · have hnot : ¬env.isSwitch u = true := by
          rw [isSwitch_iff_datapath, hpath]
          simp
        have hnone : env.linked dstIp u = [] := if_neg hnot
        rw [Bfs.lazyVisit, hnone]
        simp
      · rw [ruleOf, hpath]
        simp
    -- the rule sends towards the parent, and the neighbours are put into the queue
    | some d =>
      refine ⟨_, _, _, rfl, hwalking _ _ ?_ ?_ rfl ?_, .inr ⟨hu, rfl⟩⟩
      · rw [h.visited]
      · rw [enqueued_eq (isSwitch_iff_datapath.mpr ⟨d, hpath⟩), h.visited]
        rfl
      · rw [ruleOf, hpath, portOf, hport']
        rfl

/-- How many more entries can come out of the queue: those in it, and one for every edge of a
    node that was not visited. -/
def potential (env : WalkEnv) (l : Bfs.LazyState RouterNode) : Nat :=
  l.queue.length + (env.net.edges.toPairs.filter fun e => e.1.1 ∉ l.done).length

theorem length_neighbors_add {u : RouterNode} {done : List RouterNode} (hu : u ∉ done) :
    (env.net.neighbors u).length +
        (env.net.edges.toPairs.filter fun e => e.1.1 ∉ done ++ [u]).length =
      (env.net.edges.toPairs.filter fun e => e.1.1 ∉ done).length := by
  rw [DiGraph.neighbors, List.length_map]
  -- each edge counts on one side or the other
  induction env.net.edges.toPairs with
  | nil => rfl
  | cons e es ih =>
    by_cases heq : e.1.1 = u
    · -- an edge of the node that is visited now
      have hin : e.1.1 ∉ done := heq ▸ hu
      simp only [List.filter_cons, heq, hu, List.mem_append, List.mem_singleton, or_true,
        not_true_eq_false, not_false_eq_true, decide_true, decide_false, if_true,
        Bool.false_eq_true, if_false, List.length_cons] at ih ⊢
      omega
    · by_cases hdone : e.1.1 ∈ done
      · simp only [List.filter_cons, heq, hdone, List.mem_append, true_or,
          not_true_eq_false, decide_false, Bool.false_eq_true, if_false] at ih ⊢
        exact ih
      · simp only [List.filter_cons, heq, hdone, List.mem_append, List.mem_singleton, or_false,
          not_false_eq_true, decide_true, decide_false, if_true, Bool.false_eq_true, if_false,
          List.length_cons] at ih ⊢
        omega

theorem length_linked_le (u : RouterNode) :
    (env.linked dstIp u).length ≤ (env.net.neighbors u).length := by
  rw [linked]
  split
  · exact (List.length_filter_le _ _).trans (List.mergeSort_perm _ _).length_eq.le
  · exact Nat.zero_le _

theorem potential_visit {u : RouterNode} {p : Option RouterNode}
    {rest : List (RouterNode × Option RouterNode)} (hqueue : l.queue = (u, p) :: rest)
    (hu : u ∉ l.done) :
    env.potential (Bfs.lazyVisit (env.linked dstIp) l u p rest) < env.potential l := by
  have hadd := @length_neighbors_add env u l.done hu
  have hfilter := List.length_filter_le (fun w => decide (w ∉ l.done ++ [u])) (env.linked dstIp u)
  have hlinked := @length_linked_le env dstIp u
  show (rest ++ ((env.linked dstIp u).filter fun w => w ∉ l.done ++ [u]).map
      fun w => (w, some u)).length +
    (env.net.edges.toPairs.filter fun e => e.1.1 ∉ l.done ++ [u]).length < env.potential l
  rw [List.length_append, List.length_map, potential, hqueue, List.length_cons]
  omega

/-- The loop ends. -/
theorem Walking.search (h : Walking env dstIp host dstSwitch before s rules l)
    (hport : env.net.edge? dstSwitch host = some port) {fuel : Nat}
    (hfuel : env.potential l < fuel) :
    ∃ s' rules' l', env.search dstIp (some host) fuel s rules = .ok s' rules' ∧
      Walking env dstIp host dstSwitch before s' rules' l' ∧ l'.queue = [] := by
  induction fuel generalizing s rules l with
  -- the potential falls with every pass, so the fuel does not run out
  | zero => exact absurd hfuel (Nat.not_lt_zero _)
  | succ fuel ih =>
    cases hqueue : l.queue with
    | nil =>
      refine ⟨s, rules, l, ?_, h, hqueue⟩
      rw [WalkEnv.search, h.queue, hqueue]
      rfl
    | cons e rest =>
      obtain ⟨u, p⟩ := e
      obtain ⟨s', rules', l', hvisit, h', hcases⟩ := h.visitSwitch hport hqueue
      -- a skipped entry leaves the queue; a visited node gives up its edges
      have hless : env.potential l' < env.potential l := by
        rcases hcases with ⟨_, rfl⟩ | ⟨hu, rfl⟩
        · show rest.length + _ < env.potential l
          rw [potential, hqueue, List.length_cons]
          exact Nat.add_lt_add_right (Nat.lt_succ_self _) _
        · exact potential_visit hqueue hu
      obtain ⟨s'', rules'', l'', hsearch, hwalking, hempty⟩ := ih h' (by omega)
      refine ⟨s'', rules'', l'', ?_, hwalking, hempty⟩
      rw [WalkEnv.search, h.queue, hqueue]
      dsimp only
      rw [EState.bind_of_ok hvisit]
      exact hsearch

theorem search_spec (h : env.HangsAt dstIp host dstSwitch port) (before : List SentRule) :
    ∃ s rules l, env.search dstIp (some host) (env.net.edges.keys.length + 2)
        (initial dstIp dstSwitch) before = .ok s rules ∧
      Walking env dstIp host dstSwitch before s rules l ∧ l.queue = [] := by
  refine (walking_initial before).search h.port ?_
  have hle := List.length_filter_le (fun e : (RouterNode × RouterNode) × Int =>
    decide (e.1.1 ∉ (Bfs.lazyStart dstSwitch).done)) env.net.edges.toPairs
  have hlen : env.net.edges.keys.length = env.net.edges.toPairs.length := by
    rw [AssocMap.keys_eq_map_toPairs, List.length_map]
  have hone : (Bfs.lazyStart dstSwitch).queue.length = 1 := rfl
  unfold potential
  omega

/-! ## The end of the search -/

/-- A search of `Bfs` that has ended. -/
structure Ended (env : WalkEnv) (dstIp : String) (dstSwitch : RouterNode)
    (b : Bfs.State RouterNode) : Prop where
  run : Bfs.Run (env.linked dstIp) id dstSwitch b
  queue : b.queue = []

/-- The variables of the search at its end. -/
structure Walked (env : WalkEnv) (dstIp : String) (host dstSwitch : RouterNode)
    (before : List SentRule) (s : WalkSearch) (rules : List SentRule)
    (b : Bfs.State RouterNode) : Prop extends env.Ended dstIp dstSwitch b where
  parentHash : s.parentHash.toPairs =
    (.ip dstIp, none) :: b.done.map fun v => (.node v, some (parentKey dstIp (b.parent v)))
  rules : rules = before ++ b.done.filterMap fun v => env.ruleOf dstIp host v (b.parent v)

theorem exists_walked (h : env.HangsAt dstIp host dstSwitch port) (before : List SentRule) :
    ∃ s rules b, env.search dstIp (some host) (env.net.edges.keys.length + 2)
        (initial dstIp dstSwitch) before = .ok s rules ∧
      Walked env dstIp host dstSwitch before s rules b := by
  obtain ⟨s, rules, l, hsearch, hwalking, hempty⟩ := search_spec h before
  -- the search that marks on visiting goes as the one that marks on putting into the queue
  obtain ⟨b, hrun, hsim⟩ := hwalking.run.exists_run nodup_linked
  refine ⟨s, rules, b, hsearch, ⟨hrun, ?_⟩, ?_, ?_⟩
  · rw [hsim.queue, hempty]
    rfl
  · rw [hwalking.parentHash, hsim.done]
    congr 1
    refine List.map_congr_left fun v hv => ?_
    rw [hsim.parent v hv]
  · rw [hwalking.rules, hsim.done]
    congr 1
    refine List.filterMap_congr fun v hv => ?_
    rw [hsim.parent v hv]

variable {b : Bfs.State RouterNode}

theorem Ended.inv (h : env.Ended dstIp dstSwitch b) :
    Bfs.Inv (env.linked dstIp) dstSwitch b :=
  Bfs.inv_of_run List.Perm.refl nodup_linked h.run

theorem Ended.seen_eq (h : env.Ended dstIp dstSwitch b) : b.seen = b.done := by
  rw [Bfs.State.seen, h.queue, List.append_nil]

/-- The link from a switch to its parent. -/
theorem Ended.parent (h : env.Ended dstIp dstSwitch b) {v w : RouterNode} (hv : v ∈ b.done)
    (hparent : b.parent v = some w) :
    w ∈ b.done ∧ env.isSwitch v = true ∧ env.isSwitch w = true ∧
      ∃ port, env.net.edge? v w = some port := by
  have hne : v ≠ dstSwitch := by
    rintro rfl
    cases h.inv.root_parent.symm.trans hparent
  obtain ⟨w', hw', hparent', hnext, _⟩ := h.inv.parent v (h.seen_eq ▸ hv) hne
  obtain rfl : w' = w := Option.some.inj (hparent'.symm.trans hparent)
  obtain ⟨hw, hv', _, hedge⟩ := mem_linked.mp hnext
  exact ⟨hw', hv', hw, Option.isSome_iff_exists.mp hedge⟩

/-- A switch without a parent is the switch of the host. -/
theorem Ended.eq_root (h : env.Ended dstIp dstSwitch b) {v : RouterNode} (hv : v ∈ b.done)
    (hparent : b.parent v = none) : v = dstSwitch := by
  by_contra hne
  obtain ⟨w, _, hparent', _⟩ := h.inv.parent v (h.seen_eq ▸ hv) hne
  cases hparent.symm.trans hparent'

/-- Every switch that is visited has a port towards the host. -/
theorem Ended.portOf (h : env.Ended dstIp dstSwitch b)
    (hport : env.net.edge? dstSwitch host = some port) {v : RouterNode} (hv : v ∈ b.done) :
    ∃ port, env.portOf host v (b.parent v) = some port := by
  cases hparent : b.parent v with
  | none =>
    obtain rfl := h.eq_root hv hparent
    exact ⟨port, hport⟩
  | some w => exact (h.parent hv hparent).2.2.2

/-- The switches from a switch to the one of the host. -/
def routeOf (b : Bfs.State RouterNode) (dstSwitch v : RouterNode) : List RouterNode :=
  (Walk.follow b.parent dstSwitch (b.depth v + 1) [] v).getD []

theorem Ended.route (h : env.Ended dstIp dstSwitch b) {v : RouterNode} (hv : v ∈ b.done) :
    Walk.Route (fun v w => v ∈ b.done ∧ b.parent v = some w) dstSwitch v
        (routeOf b dstSwitch v) ∧
      (routeOf b dstSwitch v).length = b.depth v + 1 ∧ (routeOf b dstSwitch v).Nodup := by
  obtain ⟨ns, hroute, hlen, hnodup, _⟩ := h.inv.exists_route (h.seen_eq ▸ hv)
  have hfollow := @Walk.follow_of_route _ _ b.parent _ dstSwitch (b.depth v + 1) [] ns v
    (fun u w hop => hop.2) hroute hnodup hlen.le
  rw [routeOf, hfollow, Option.getD_some, List.nil_append]
  rw [h.seen_eq] at hroute
  exact ⟨hroute, hlen, hnodup⟩

/-! ## The paths -/

/-- The stop of a path at a switch: the port of its rule. -/
def hopOf (env : WalkEnv) (host : RouterNode) (b : Bfs.State RouterNode) (v : RouterNode) :
    PathNode × Int :=
  (.node v, (env.portOf host v (b.parent v)).getD 0)

/-- The path from a switch to the address. -/
def pathOf (env : WalkEnv) (dstIp : String) (host dstSwitch : RouterNode)
    (b : Bfs.State RouterNode) (v : RouterNode) : ReportedPath :=
  (routeOf b dstSwitch v).map (env.hopOf host b) ++ [(.ip dstIp, 0)]

theorem Walked.lookup_ip (h : Walked env dstIp host dstSwitch before s rules b) :
    s.parentHash.lookup (.ip dstIp) = some none := by
  rw [← AssocMap.mem_toPairs, h.parentHash]
  exact List.mem_cons_self

theorem Walked.lookup_node (h : Walked env dstIp host dstSwitch before s rules b)
    {v : RouterNode} (hv : v ∈ b.done) :
    s.parentHash.lookup (.node v) = some (some (parentKey dstIp (b.parent v))) := by
  rw [← AssocMap.mem_toPairs, h.parentHash]
  exact List.mem_cons_of_mem _
    (List.mem_map_of_mem (f := fun v => (PathNode.node v, some (parentKey dstIp (b.parent v)))) hv)

/-- The walk ends at the address. -/
theorem Walked.walkParents_ip (h : Walked env dstIp host dstSwitch before s rules b)
    (fuel : Nat) (path : ReportedPath) :
    env.walkParents s.parentHash (fuel + 1) (.ip dstIp) path = .ok (path ++ [(.ip dstIp, 0)]) := by
  rw [walkParents, h.lookup_ip]
  rfl

/-- The port to the parent is the one of the rule. -/
theorem Walked.hopPort (h : Walked env dstIp host dstSwitch before s rules b)
    (hhangs : env.HangsAt dstIp host dstSwitch port) {v : RouterNode} (hv : v ∈ b.done) :
    env.hopPort (.node v) (parentKey dstIp (b.parent v)) = env.portOf host v (b.parent v) := by
  unfold WalkEnv.hopPort
  cases hparent : b.parent v with
  | none =>
    dsimp only [parentKey, Option.map_none, Option.getD_none]
    rw [hhangs.found]
    rfl
  | some w =>
    have hw := (h.toEnded.parent hv hparent).2.2.1
    dsimp only [parentKey, Option.map_some, Option.getD_some]
    rw [if_pos hw]
    rfl

theorem Walked.walkParents_node (h : Walked env dstIp host dstSwitch before s rules b)
    (hhangs : env.HangsAt dstIp host dstSwitch port) {v : RouterNode} {ns : List RouterNode}
    (hroute : Walk.Route (fun v w => v ∈ b.done ∧ b.parent v = some w) dstSwitch v ns)
    (hv : v ∈ b.done) {fuel : Nat} (hfuel : ns.length < fuel) (path : ReportedPath) :
    env.walkParents s.parentHash fuel (.node v) path =
      .ok (path ++ ns.map (env.hopOf host b) ++ [(.ip dstIp, 0)]) := by
  induction hroute generalizing fuel path with
  -- the switch of the host: one more step, to the address
  | arrive =>
    rw [List.length_singleton] at hfuel
    obtain ⟨fuel, rfl⟩ : ∃ k, fuel = k + 2 := ⟨fuel - 2, by omega⟩
    obtain ⟨port', hport'⟩ := h.toEnded.portOf hhangs.port hv
    have hroot := h.toEnded.inv.root_parent
    have hkey : parentKey dstIp (b.parent dstSwitch) = .ip dstIp := by
      rw [hroot]
      rfl
    rw [walkParents, h.lookup_node hv, Option.join_some]
    dsimp only
    rw [h.hopPort hhangs hv, hport', hkey]
    dsimp only
    rw [h.walkParents_ip, List.map_singleton, hopOf, hport']
    rfl
  -- one switch further, by the port to its parent
  | @step v w ns hhop hroute ih =>
    obtain ⟨fuel, rfl⟩ : ∃ k, fuel = k + 1 := ⟨fuel - 1, by rw [List.length_cons] at hfuel; omega⟩
    obtain ⟨port', hport'⟩ := h.toEnded.portOf hhangs.port hv
    have hkey : parentKey dstIp (b.parent v) = .node w := by
      rw [hhop.2]
      rfl
    have hlen : ns.length < fuel := Nat.lt_of_succ_lt_succ hfuel
    rw [walkParents, h.lookup_node hv, Option.join_some]
    dsimp only
    rw [h.hopPort hhangs hv, hport', hkey]
    dsimp only
    rw [ih (h.toEnded.parent hv hhop.2).1 hlen, List.map_cons, hopOf, hport', List.append_assoc,
      List.append_assoc, List.append_assoc]
    rfl

/-! ## The sources -/

/-- Where the packets of an address come in: the switch, and its port to the host. -/
def sourceStop (env : WalkEnv) (srcIp : String) : Option (RouterNode × Int) :=
  match env.findConnectedSwitch (env.findHostByIp srcIp) with
  | .error _ => none
  | .ok switch =>
    match env.getHostPort (env.findHostByIp srcIp) switch with
    | .error _ => none
    | .ok port => some (switch, port)

theorem HangsAt.sourceStop {ip : String} (h : env.HangsAt ip host dstSwitch port) :
    env.sourceStop ip = some (dstSwitch, port) := by
  have hport : env.getHostPort (some host) dstSwitch = .ok port := by
    rw [getHostPort, Option.bind_some, h.port]
  rw [WalkEnv.sourceStop, h.found, h.attached]
  dsimp only
  rw [hport]

/-- Every address of a host has a switch and a port there. -/
def Attached (env : WalkEnv) : Prop :=
  ∀ ip ∈ env.net.allHostsIpList, ∃ host switch port, env.HangsAt ip host switch port

/-- The path that one pass over the sources reports for a switch. -/
def pathFrom (env : WalkEnv) (dstIp : String) (switch : PathNode) (path : ReportedPath)
    (srcIp : String) : Option ReportedPath :=
  if srcIp = dstIp then none
  else (env.sourceStop srcIp).bind fun stop =>
    if .node stop.1 = switch then some ((.ip srcIp, stop.2) :: path) else none

theorem sourcePath_eq {srcIp : String} {srcHost srcSwitch : RouterNode} {srcPort : Int}
    (h : env.HangsAt srcIp srcHost srcSwitch srcPort) (switch : PathNode) (path : ReportedPath)
    (rules : List SentRule) :
    env.sourcePath dstIp switch path srcIp rules =
      .ok (env.pathFrom dstIp switch path srcIp).toList rules := by
  rw [sourcePath, pathFrom]
  by_cases heq : srcIp = dstIp
  · rw [if_pos heq, if_pos heq]
    rfl
  · have hattached : env.findConnectedSwitch (env.findHostByIp srcIp) = .ok srcSwitch := by
      rw [h.found]
      exact h.attached
    have hport : env.getHostPort (env.findHostByIp srcIp) srcSwitch = .ok srcPort := by
      rw [h.found, getHostPort, Option.bind_some, h.port]
    rw [if_neg heq, if_neg heq, h.sourceStop, Option.bind_some]
    dsimp only
    rw [EState.ofExcept_bind hattached, EState.ofExcept_bind hport]
    split
    · rfl
    · rfl

/-! ## Loops that report -/

/-- What a loop reports and sends, when every pass of it returns. -/
theorem exists_collect {α : Type} {pass : α → WalkM (List ReportedPath)}
    {R : α → List ReportedPath × List SentRule → Prop} {l : List α}
    (h : ∀ a ∈ l, ∀ rules, ∃ part, R a part ∧ pass a rules = .ok part.1 (rules ++ part.2))
    (rules : List SentRule) :
    ∃ parts, List.Forall₂ R l parts ∧
      collect pass l rules = .ok (parts.flatMap Prod.fst) (rules ++ parts.flatMap Prod.snd) := by
  -- by induction on the passes: each starts with the rules sent before
  induction l generalizing rules with
  | nil =>
    refine ⟨[], .nil, ?_⟩
    rw [collect, List.flatMap_nil, List.flatMap_nil, List.append_nil]
    rfl
  | cons a l ih =>
    obtain ⟨part, hpart, hpass⟩ := h a List.mem_cons_self rules
    obtain ⟨parts, hparts, hcollect⟩ :=
      ih (fun a ha => h a (List.mem_cons_of_mem _ ha)) (rules ++ part.2)
    refine ⟨part :: parts, .cons hpart hparts, ?_⟩
    rw [collect, EState.bind_of_ok hpass, EState.bind_of_ok hcollect, List.flatMap_cons,
      List.flatMap_cons, List.append_assoc]
    rfl

/-- A loop that sends nothing. -/
theorem collect_eq {α : Type} {pass : α → WalkM (List ReportedPath)}
    {paths : α → List ReportedPath} {l : List α}
    (h : ∀ a ∈ l, ∀ rules, pass a rules = .ok (paths a) rules) (rules : List SentRule) :
    collect pass l rules = .ok (l.flatMap paths) rules := by
  induction l with
  | nil => rfl
  | cons a l ih =>
    have hrest := ih fun a ha => h a (List.mem_cons_of_mem _ ha)
    rw [collect, EState.bind_of_ok (h a List.mem_cons_self rules), EState.bind_of_ok hrest,
      List.flatMap_cons]
    rfl

theorem collect_map {α β : Type} (pass : β → WalkM (List ReportedPath)) (f : α → β) (l : List α) :
    collect pass (l.map f) = collect (fun a => pass (f a)) l := by
  induction l with
  | nil => rfl
  | cons a l ih => rw [List.map_cons, collect, collect, ih]

/-- A loop returns only if every pass does. -/
theorem pass_of_collect {α : Type} {pass : α → WalkM (List ReportedPath)} {l : List α}
    {paths : List ReportedPath} {rules rules' : List SentRule}
    (h : collect pass l rules = .ok paths rules') :
    ∀ a ∈ l, ∃ before part after, pass a before = .ok part after := by
  induction l generalizing rules paths rules' with
  | nil =>
    intro a ha
    exact absurd ha List.not_mem_nil
  | cons a l ih =>
    rw [collect] at h
    obtain ⟨part, after, hpass, h⟩ := EState.exists_of_bind_ok h
    obtain ⟨rest, rules'', hrest, _⟩ := EState.exists_of_bind_ok h
    rw [List.forall_mem_cons]
    exact ⟨⟨_, _, _, hpass⟩, ih hrest⟩

/-! ## The walk -/

theorem Walked.keys (h : Walked env dstIp host dstSwitch before s rules b) :
    s.parentHash.keys = .ip dstIp :: b.done.map PathNode.node := by
  rw [AssocMap.keys_eq_map_toPairs, h.parentHash, List.map_cons, List.map_map]
  rfl

/-- The switches of a route were visited. -/
theorem Ended.mem_of_route (h : env.Ended dstIp dstSwitch b) {v : RouterNode}
    {ns : List RouterNode}
    (hroute : Walk.Route (fun v w => v ∈ b.done ∧ b.parent v = some w) dstSwitch v ns) :
    ∀ u ∈ ns, u ∈ b.done := by
  induction hroute with
  | arrive =>
    intro u hu
    rw [List.mem_singleton.mp hu, ← h.seen_eq]
    exact h.inv.root_seen
  | step hhop _ ih => exact List.forall_mem_cons.mpr ⟨hhop.1, ih⟩

/-- What is reported for a key of `parent_hash`. -/
def reportsAt (env : WalkEnv) (dstIp : String) (host dstSwitch : RouterNode)
    (b : Bfs.State RouterNode) (v : RouterNode) : List ReportedPath :=
  env.net.allHostsIpList.filterMap
    (env.pathFrom dstIp (.node v) (env.pathOf dstIp host dstSwitch b v))

theorem flatMap_toList {α β : Type} (f : α → Option β) (l : List α) :
    (l.flatMap fun a => (f a).toList) = l.filterMap f := by
  rw [List.filterMap_eq_flatMap_toList]

theorem Walked.report_ip (h : Walked env dstIp host dstSwitch before s rules b)
    (hattached : env.Attached) (rules' : List SentRule) :
    env.report dstIp s.parentHash (.ip dstIp) rules' = .ok [] rules' := by
  rw [report, h.walkParents_ip]
  dsimp only
  -- no host hangs at an address
  have hnone : ∀ srcIp ∈ env.net.allHostsIpList, ∀ rules,
      env.sourcePath dstIp (.ip dstIp) ([] ++ [(.ip dstIp, 0)]) srcIp rules = .ok [] rules := by
    intro srcIp hmem rules
    obtain ⟨srcHost, srcSwitch, srcPort, hsrc⟩ := hattached srcIp hmem
    have hpath : env.pathFrom dstIp (.ip dstIp) ([] ++ [(.ip dstIp, 0)]) srcIp = none := by
      rw [pathFrom, hsrc.sourceStop]
      simp
    rw [sourcePath_eq hsrc, hpath]
    rfl
  rw [collect_eq hnone, List.flatMap_eq_nil_iff.mpr fun _ _ => rfl]

theorem Walked.report_node (h : Walked env dstIp host dstSwitch before s rules b)
    (hhangs : env.HangsAt dstIp host dstSwitch port) (hattached : env.Attached) {v : RouterNode}
    (hv : v ∈ b.done) (rules' : List SentRule) :
    env.report dstIp s.parentHash (.node v) rules' =
      .ok (env.reportsAt dstIp host dstSwitch b v) rules' := by
  obtain ⟨hroute, hlen, hnodup⟩ := h.toEnded.route hv
  -- a route has no switch twice, so the fuel of the walk is enough
  have hsub : (routeOf b dstSwitch v).length ≤ b.done.length :=
    hnodup.length_le_of_subset (h.toEnded.mem_of_route hroute)
  have hfuel : (routeOf b dstSwitch v).length < s.parentHash.keys.length + 1 := by
    rw [h.keys, List.length_cons, List.length_map]
    omega
  rw [report, h.walkParents_node hhangs hroute hv hfuel, List.nil_append]
  dsimp only
  rw [reportsAt, ← flatMap_toList]
  refine collect_eq (fun srcIp hmem rules => ?_) rules'
  obtain ⟨srcHost, srcSwitch, srcPort, hsrc⟩ := hattached srcIp hmem
  exact sourcePath_eq hsrc _ _ rules

/-- The walk towards one address. -/
theorem walkTo_spec (hhangs : env.HangsAt dstIp host dstSwitch port) (hattached : env.Attached)
    (before : List SentRule) :
    ∃ b, env.Ended dstIp dstSwitch b ∧
      env.walkTo dstIp before = .ok (b.done.flatMap (env.reportsAt dstIp host dstSwitch b))
        (before ++ b.done.filterMap fun v => env.ruleOf dstIp host v (b.parent v)) := by
  obtain ⟨s, rules, b, hsearch, h⟩ := exists_walked hhangs before
  have hconnected : env.findConnectedSwitch (env.findHostByIp dstIp) = .ok dstSwitch := by
    rw [hhangs.found]
    exact hhangs.attached
  refine ⟨b, h.toEnded, ?_⟩
  rw [walkTo, EState.ofExcept_bind hconnected, hhangs.found, EState.bind_of_ok hsearch, h.keys,
    collect, EState.bind_of_ok (h.report_ip hattached rules), ← h.rules]
  have hnodes : collect (env.report dstIp s.parentHash) (b.done.map PathNode.node) rules =
      .ok (b.done.flatMap (env.reportsAt dstIp host dstSwitch b)) rules := by
    rw [collect_map]
    exact collect_eq (fun v hv => h.report_node hhangs hattached hv) rules
  rw [EState.bind_of_ok hnodes]
  rfl

/-- The walk towards an address returns only if its host hangs at a switch. -/
theorem hangsAt_of_walkTo {before after : List SentRule} {paths : List ReportedPath}
    (h : env.walkTo dstIp before = .ok paths after) :
    ∃ host switch port, env.HangsAt dstIp host switch port := by
  rw [walkTo] at h
  obtain ⟨dstSwitch, hconnected, h⟩ := EState.exists_of_ofExcept_bind_ok h
  obtain ⟨s, rules, hsearch, _⟩ := EState.exists_of_bind_ok h
  cases hfound : env.findHostByIp dstIp with
  | none =>
    rw [hfound] at hconnected
    cases hconnected
  | some host =>
    rw [hfound] at hconnected hsearch
    rw [search] at hsearch
    obtain ⟨s', rules', hvisit, _⟩ := EState.exists_of_bind_ok hsearch
    -- the first pass of the search looks for the port to the host
    have hnew : dstSwitch ∉ (initial dstIp dstSwitch).visited := List.not_mem_nil
    rw [visitSwitch, if_neg hnew] at hvisit
    obtain ⟨out, hout, _⟩ := EState.exists_of_ofExcept_bind_ok hvisit
    cases hport : env.net.edge? dstSwitch host with
    | none =>
      rw [outPort, getHostPort, Option.bind_some, hport] at hout
      cases hout
    | some port => exact ⟨host, dstSwitch, port, hfound, hconnected, hport⟩

theorem mem_pathOf {v : RouterNode} {hop : PathNode × Int} :
    hop ∈ env.pathOf dstIp host dstSwitch b v ↔
      (∃ u ∈ routeOf b dstSwitch v, hop = env.hopOf host b u) ∨ hop = (.ip dstIp, 0) := by
  rw [pathOf, List.mem_append, List.mem_map, List.mem_singleton]
  refine or_congr_left (exists_congr fun u => and_congr_right fun _ => eq_comm)

/-- A reported path goes from the switch of its source. -/
theorem mem_reportsAt {v : RouterNode} {path : ReportedPath} (hattached : env.Attached) :
    path ∈ env.reportsAt dstIp host dstSwitch b v ↔
      ∃ srcIp ∈ env.net.allHostsIpList, srcIp ≠ dstIp ∧ ∃ srcHost srcPort,
        env.HangsAt srcIp srcHost v srcPort ∧
          path = (.ip srcIp, srcPort) :: env.pathOf dstIp host dstSwitch b v := by
  rw [reportsAt, List.mem_filterMap]
  refine exists_congr fun srcIp => and_congr_right fun hsrc => ?_
  obtain ⟨srcHost, srcSwitch, srcPort, hhangs⟩ := hattached srcIp hsrc
  rw [pathFrom, hhangs.sourceStop, Option.bind_some]
  by_cases heq : srcIp = dstIp
  · simp [heq]
  · rw [if_neg heq]
    constructor
    · intro h
      obtain ⟨hswitch, hpath⟩ := Option.ite_none_right_eq_some.mp h
      obtain rfl : srcSwitch = v := PathNode.node.inj hswitch
      exact ⟨heq, srcHost, srcPort, hhangs, (Option.some.inj hpath).symm⟩
    · rintro ⟨_, srcHost', srcPort', hhangs', rfl⟩
      obtain ⟨_, rfl, rfl⟩ := hhangs.unique hhangs'
      exact if_pos rfl

theorem getLast?_cons_pathOf (hop : PathNode × Int) (v : RouterNode) :
    (hop :: env.pathOf dstIp host dstSwitch b v).getLast? = some (.ip dstIp, 0) := by
  rw [pathOf, ← List.cons_append, List.getLast?_concat]

/-- What the walk reports and sends for one address. -/
def IsPart (env : WalkEnv) (dstIp : String) (part : List ReportedPath × List SentRule) : Prop :=
  ∃ host dstSwitch port b, env.HangsAt dstIp host dstSwitch port ∧ env.Ended dstIp dstSwitch b ∧
    part.1 = b.done.flatMap (env.reportsAt dstIp host dstSwitch b) ∧
    part.2 = b.done.filterMap fun v => env.ruleOf dstIp host v (b.parent v)

theorem installAllPairPaths_spec (hattached : env.Attached) :
    ∃ parts, List.Forall₂ env.IsPart env.net.allHostsIpList parts ∧
      env.installAllPairPaths [] = .ok (parts.flatMap Prod.fst) (parts.flatMap Prod.snd) := by
  refine exists_collect (fun ip hmem rules => ?_) []
  obtain ⟨host, dstSwitch, port, hhangs⟩ := hattached ip hmem
  obtain ⟨b, hended, hwalk⟩ := walkTo_spec hhangs hattached rules
  exact ⟨(_, _), ⟨host, dstSwitch, port, b, hhangs, hended, rfl, rfl⟩, hwalk⟩

/-- The walk returns only if every host hangs at a switch. -/
theorem attached_of_installAllPairPaths {paths : List ReportedPath}
    (h : env.installAllPairPaths [] = .ok paths rules) : env.Attached := by
  intro ip hmem
  obtain ⟨_, _, _, hwalk⟩ := pass_of_collect h ip hmem
  exact hangsAt_of_walkTo hwalk

end WalkEnv

end Ndtwin.Router

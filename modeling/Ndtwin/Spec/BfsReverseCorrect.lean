import Ndtwin.Spec.BfsPathsCorrect

/-!
# Links that are usable in one direction only

The search discovers `w` from `u` over the edge from `u` to `w`; the traffic takes the reverse
edge, whose usability is not tested, and whose absence is passed over. The rules and paths use
usable edges only where every step that the search may take has a usable reverse.

## Key results

- `usesUsable_of_reverseUsable`: enough on every graph
- `bfsAllPathsToDst_usable_iff`: and, on a well-formed one, necessary
-/

namespace Ndtwin.Kernel

open BfsPaths SimplePath

/-! ## What the result should be -/

/-- There is a usable edge from one vertex to the other. -/
def Graph.UsableEdge (g : Graph) (v w : Nat) : Prop :=
  ∃ p, g.propsOf ⟨v, w⟩ = some p ∧ p.isUsable = true

/-- The port of a rule leads over a usable edge, one step towards the destination switch or to the
    destination host. -/
def Graph.RuleUsable (g : Graph) (dstSwitch : Nat) (dstIp : UInt32) (dpid : UInt64)
    (outPort : UInt32) : Prop :=
  ∃ e ∈ g.edges, e.props.isUsable = true ∧ g.dpidOf e.desc.source = dpid ∧
    e.props.srcInterface = outPort ∧
    ((∃ n, Bfs.IsDist g.usableNeighbors dstSwitch e.to n ∧
        Bfs.IsDist g.usableNeighbors dstSwitch e.desc.source (n + 1)) ∨
      (e.desc.source = dstSwitch ∧ g.HasAddress e.to dstIp))

/-- What a path says of an edge: the dpid it leaves and the port. -/
def Graph.pathHop (g : Graph) (e : Edge) : UInt64 × UInt32 :=
  (g.dpidOf e.desc.source, e.props.srcInterface)

/-- The path lists a walk over usable edges from its source host to the destination host. -/
def Graph.PathUsable (g : Graph) (dstIp : UInt32) (path : Path) : Prop :=
  ∃ srcIp, ∃ e ∈ g.edges, ∃ es dstHost, srcIp ∈ e.props.srcIp ∧ e.props.isUsable = true ∧
    g.HasAddress dstHost dstIp ∧ IsWalk g.usableEdges Edge.to dstHost e.to es ∧
    path = (srcIp.toUInt64, e.props.dstInterface) :: es.map g.pathHop ++ [(dstIp.toUInt64, 0)]

/-- The rules that were added and the paths use usable edges in the direction of the traffic. -/
structure UsesUsable (g : Graph) (dstSwitch : Nat) (dstIp : UInt32) (tables : OpenflowTables)
    (result : List Path × OpenflowTables) : Prop where
  rules : ∀ dpid, ∃ added, tableAt result.2 dpid = tableAt tables dpid ++ added ∧
    ∀ r ∈ added, g.RuleUsable dstSwitch dstIp dpid r.outPort
  paths : ∀ path ∈ result.1, g.PathUsable dstIp path

/-! ## The condition -/

/-- The reverse of a step that the search may take is usable where a rule is written for it, and it
    is there and usable on every shortest walk to a source. -/
structure ReverseUsable (g : Graph) (dstSwitch : Nat) (dstIp : UInt32) (allHostIps : List UInt32)
    (tables : OpenflowTables) : Prop where
  rules : ∀ u w, Bfs.OnShortest g.usableNeighbors dstSwitch u w w → g.dpidOf w ≠ 0 →
    ¬HasRule dstIp (tableAt tables (g.dpidOf w)) →
    ∀ p, g.propsOf ⟨w, u⟩ = some p → p.isUsable = true
  sources : ∀ srcIp ∈ allHostIps, ∀ e dstHost, Source g dstSwitch dstIp srcIp e →
    g.findVertexByIp dstIp = some dstHost →
    e.props.isUsable = true ∧ g.UsableEdge dstSwitch dstHost ∧
      ∀ u w, Bfs.OnShortest g.usableNeighbors dstSwitch u w e.to → g.UsableEdge w u

variable {g : Graph} {order : NeighborSort} {dstSwitch : Nat} {dstIp : UInt32}
  {allHostIps : List UInt32} {tables tables' : OpenflowTables} {s : SearchState}
  {b : Bfs.State Nat}

theorem hasAddress_of_find {ip : UInt32} {v : Nat} (h : g.findVertexByIp ip = some v) :
    g.HasAddress v ip := by
  obtain ⟨hlt, htest, _⟩ := List.findIdx?_eq_some_iff_getElem.mp h
  exact ⟨g.vertices[v], List.getElem?_eq_getElem hlt, List.contains_iff_mem.mp htest⟩

/-- A parent is one step nearer to the destination switch. -/
theorem Searching.isDist_of_parent (h : Searching g order dstSwitch dstIp tables s b) {v w : Nat}
    (hhop : Parent b v w) : v ∈ g.usableNeighbors w ∧
      Bfs.IsDist g.usableNeighbors dstSwitch w (b.depth w) ∧
      Bfs.IsDist g.usableNeighbors dstSwitch v (b.depth w + 1) := by
  obtain ⟨hw, hdepth, hedge⟩ := h.edge_of_parent hhop
  have hv := h.inv.isDist hhop.1
  rw [hdepth] at hv
  exact ⟨Graph.mem_usableNeighbors.mpr hedge, h.inv.isDist (Bfs.mem_seen_of_done hw), hv⟩

/-- The last edge of a path, and the rule for it. -/
theorem ReverseUsable.ruleUsable_last
    (hrev : ReverseUsable g dstSwitch dstIp allHostIps tables) {dpid : UInt64} {outPort : UInt32}
    (hport : LastPort g dstSwitch dstIp allHostIps dpid outPort) :
    g.RuleUsable dstSwitch dstIp dpid outPort := by
  obtain ⟨rfl, srcIp, hsrcIp, e, hsrc, dstHost, p, hhost, hp, rfl⟩ := hport
  obtain ⟨_, ⟨q, hq, husable⟩, _⟩ := hrev.sources srcIp hsrcIp e dstHost hsrc hhost
  obtain rfl : p = q := Option.some.inj (hp.symm.trans hq)
  exact ⟨⟨⟨dstSwitch, dstHost⟩, p⟩, Graph.propsOf_eq_some_iff.mp hp, husable, rfl, rfl,
    .inr ⟨rfl, hasAddress_of_find hhost⟩⟩

theorem ReverseUsable.rules_usable (hrev : ReverseUsable g dstSwitch dstIp allHostIps tables)
    (h : Searching g order dstSwitch dstIp tables s b)
    (hgrown : Grown (LastPort g dstSwitch dstIp allHostIps) dstIp
      (writeRules g dstIp b.parent b.done tables) tables') (dpid : UInt64) :
    ∃ added, tableAt tables' dpid = tableAt tables dpid ++ added ∧
      ∀ r ∈ added, g.RuleUsable dstSwitch dstIp dpid r.outPort := by
  have hwritten : Grown (fun d outPort => ¬HasRule dstIp (tableAt tables d) →
      g.RuleUsable dstSwitch dstIp d outPort) dstIp tables
        (writeRules g dstIp b.parent b.done tables) := by
    refine grown_writeRules fun u hu w p hparent hp hdpid hfree => ?_
    obtain ⟨hnext, hw, hdist⟩ := h.isDist_of_parent ⟨Bfs.mem_seen_of_done hu, hparent⟩
    have hstep := Bfs.onShortest_of_reaches hw hnext .root hdist
    exact ⟨⟨⟨u, w⟩, p⟩, Graph.propsOf_eq_some_iff.mp hp, hrev.rules w u hstep hdpid hfree p hp, rfl,
      rfl, .inl ⟨b.depth w, hw, hdist⟩⟩
  have hall := hwritten.trans (hgrown.mono fun d outPort hport _ => hrev.ruleUsable_last hport)
  rcases hall dpid with heq | ⟨outPort, husable, hfree, heq⟩
  · exact ⟨[], by rw [heq, List.append_nil], fun r hr => absurd hr List.not_mem_nil⟩
  · refine ⟨_, heq, fun r hr => ?_⟩
    rw [List.mem_singleton.mp hr]
    exact husable hfree

/-- The hops of a walk along the parents, when each of them has its edge. -/
theorem exists_walk_of_route (h : Searching g order dstSwitch dstIp tables s b) {dstHost : Nat}
    (hlast : g.UsableEdge dstSwitch dstHost) {v : Nat} {ns : List Nat}
    (hroute : Walk.Route (Parent b) dstSwitch v ns) {x k : Nat}
    (hx : Bfs.Reaches g.usableNeighbors v k x)
    (hdist : Bfs.IsDist g.usableNeighbors dstSwitch x (b.depth v + k))
    (hrev : ∀ u w, Bfs.OnShortest g.usableNeighbors dstSwitch u w x → g.UsableEdge w u) :
    ∃ es, IsWalk g.usableEdges Edge.to dstHost v es ∧
      hopsOf g (ns ++ [dstHost]) = es.map g.pathHop := by
  -- `k` grows as the route shrinks: the vertices passed lie on a shortest way from `x`.
  induction hroute generalizing k with
  | arrive =>
    obtain ⟨p, hp, husable⟩ := hlast
    have hmem := Graph.mem_usableEdges.mpr ⟨⟨Graph.propsOf_eq_some_iff.mp hp, rfl⟩, husable⟩
    refine ⟨[⟨⟨dstSwitch, dstHost⟩, p⟩], .step hmem .arrive, ?_⟩
    rw [List.singleton_append, hopsOf, hp]
    rfl
  | @step v w ns hhop hroute ih =>
    obtain ⟨hnext, hw, _⟩ := h.isDist_of_parent hhop
    have hdepth := (h.edge_of_parent hhop).2.1
    rw [hdepth] at hdist
    obtain ⟨p, hp, husable⟩ := hrev w v (Bfs.onShortest_of_reaches hw hnext hx hdist)
    have hmem := Graph.mem_usableEdges.mpr ⟨⟨Graph.propsOf_eq_some_iff.mp hp, rfl⟩, husable⟩
    rw [Nat.add_right_comm] at hdist
    obtain ⟨es, hwalk, hhops⟩ := ih (hx.head hnext) hdist
    obtain ⟨rest, rfl⟩ := hroute.exists_cons
    refine ⟨⟨⟨v, w⟩, p⟩ :: es, .step hmem hwalk, ?_⟩
    rw [List.cons_append, List.cons_append, hopsOf, hp, ← List.cons_append, hhops]
    rfl

/-- On every graph the condition is enough. -/
theorem usesUsable_of_reverseUsable (g : Graph) (order : NeighborSort) (dstSwitch : Nat)
    (dstIp : UInt32) (allHostIps : List UInt32) (tables : OpenflowTables)
    (hrev : ReverseUsable g dstSwitch dstIp allHostIps tables) :
    ∃ result, g.bfsAllPathsToDst order dstSwitch dstIp allHostIps tables = some result ∧
      UsesUsable g dstSwitch dstIp tables result := by
  obtain ⟨paths, tables', s, b, hresult, h, hqueue, hpaths, hgrown⟩ :=
    bfsAllPathsToDst_spec g order dstSwitch dstIp allHostIps tables
  refine ⟨_, hresult, hrev.rules_usable h hgrown, fun path hpath => ?_⟩
  obtain ⟨srcIp, hsrcIp, e, dstHost, ns, hsrc, hhost, hroute, _, rfl⟩ := (hpaths path).mp hpath
  obtain ⟨husable, hlast, hsteps⟩ := hrev.sources srcIp hsrcIp e dstHost hsrc hhost
  have hto := Bfs.mem_seen_of_done ((h.inv.done_iff hqueue).mpr hsrc.reached)
  obtain ⟨es, hwalk, hhops⟩ :=
    exists_walk_of_route h hlast hroute .root (h.inv.isDist hto) hsteps
  have hip : srcIp ∈ e.props.srcIp := by
    obtain ⟨e', he', hdesc, htest⟩ := Graph.exists_of_findEdge hsrc.edge
    obtain rfl := Graph.edge_eq_of_desc_eq he' hsrc.mem hdesc
    exact List.contains_iff_mem.mp htest
  exact ⟨srcIp, e, hsrc.mem, es, dstHost, hip, husable, hasAddress_of_find hhost, hwalk,
    by rw [listed, hhops]⟩

/-! ## Nothing less is enough -/

/-- A graph in which dpids, ports and addresses say what they belong to. -/
structure Addressed (g : Graph) (dstSwitch : Nat) (dstIp : UInt32) (allHostIps : List UInt32) :
    Prop where
  cabled : g.Cabled
  hostDpid : ∀ h, g.IsHost h → g.dpidOf h = 0
  switch : g.IsSwitch dstSwitch
  dstHost : ∃ h, g.HostOf dstIp h
  srcHost : ∀ ip ∈ allHostIps, ∃ h, g.HostOf ip h

/-- With one hash for all, the vertices of `first` come first. -/
theorem pairwise_sortNeighbors (first : Nat → Prop) [DecidablePred first] (g : Graph)
    (dstIp : UInt32) (l : List Nat) :
    (sortNeighbors (.preferring first fun _ => []) g dstIp l).Pairwise
      fun v w => first w → first v := by
  rw [sortNeighbors, List.pairwise_map]
  have hsorted := List.pairwise_insertionSort (NeighborSort.Before first) (l.map fun v =>
    (hashDstIp (fun _ => []) (Utils.ipToString dstIp ++ toString (g.dpidOf v).toNat), v))
  refine hsorted.imp_of_mem fun {x y} hx hy hxy => ?_
  obtain ⟨v, _, rfl⟩ := List.mem_map.mp ((List.mem_insertionSort _).mp hx)
  obtain ⟨w, _, rfl⟩ := List.mem_map.mp ((List.mem_insertionSort _).mp hy)
  rcases hxy with hlt | ⟨_, hfirst⟩
  · exact absurd hlt (UInt64.lt_irrefl _)
  · exact hfirst

/-- Some order of the neighbours makes the parents follow a given shortest walk. -/
theorem exists_order {a : ℕ → Nat} {n : ℕ} (ha : Bfs.Shortest g.usableNeighbors dstSwitch a n) :
    ∃ order : NeighborSort, ∀ tables s b, Searching g order dstSwitch dstIp tables s b →
      b.queue = [] → ∀ i < n, b.parent (a (i + 1)) = some (a i) := by
  classical
  refine ⟨.preferring (fun v => ∃ i, v = a i ∧ i ≤ n) fun _ => [], fun tables s b h hqueue => ?_⟩
  exact Bfs.parent_of_lead (sortNeighbors_perm _ g dstIp) g.nodup_usableNeighbors h.run hqueue ha
    (pairwise_sortNeighbors _ g dstIp)

theorem exists_of_mem_hopsOf {ns : List Nat} {hop : UInt64 × UInt32} (h : hop ∈ hopsOf g ns) :
    ∃ v ∈ ns, hop.1 = g.dpidOf v := by
  induction ns with
  | nil => exact absurd h List.not_mem_nil
  | cons v ns ih =>
    cases ns with
    | nil => exact absurd h List.not_mem_nil
    | cons w ns =>
      rw [hopsOf] at h
      split at h
      · rcases List.mem_cons.mp h with rfl | h
        · exact ⟨v, List.mem_cons_self, rfl⟩
        · obtain ⟨x, hx, heq⟩ := ih h
          exact ⟨x, List.mem_cons_of_mem v hx, heq⟩
      · obtain ⟨x, hx, heq⟩ := ih h
        exact ⟨x, List.mem_cons_of_mem v hx, heq⟩

/-- If the hops read off the parents are those of a walk over usable edges, each vertex is joined to
    its parent by one. -/
theorem isChain_of_hops (hcabled : g.Cabled) {t v : Nat} {rest : List Nat} {es : List Edge}
    (hwalk : IsWalk g.usableEdges Edge.to t v es) (hhops : hopsOf g (v :: rest) = es.map g.pathHop)
    (hnodup : (v :: rest).Nodup) (hlast : (v :: rest).getLast? = some t)
    (hswitch : ∀ w ∈ (v :: rest).dropLast, g.IsSwitch w) :
    (v :: rest).IsChain g.UsableEdge := by
  induction rest generalizing v es with
  | nil => exact .singleton v
  | cons w rest ih =>
    rw [List.dropLast_cons_cons] at hswitch
    obtain ⟨hv, hswitch'⟩ := List.forall_mem_cons.mp hswitch
    obtain ⟨hfresh, hnodup'⟩ := List.nodup_cons.mp hnodup
    rw [List.getLast?_cons_cons] at hlast
    rw [hopsOf] at hhops
    cases hp : g.propsOf ⟨v, w⟩ with
    | some p =>
      simp only [hp] at hhops
      cases hwalk with
      | arrive => cases hhops
      | @step _ e es he hes =>
        rw [List.map_cons] at hhops
        obtain ⟨hhop, hhops'⟩ := List.cons.inj hhops
        obtain ⟨⟨hmem, hsource⟩, husable⟩ := Graph.mem_usableEdges.mp he
        have hport : p.srcInterface = e.props.srcInterface := congrArg Prod.snd hhop
        have hedge := Graph.propsOf_eq_some_iff.mp hp
        obtain rfl := hcabled.port _ hedge e hmem hv hsource hport.symm
        exact .cons_cons ⟨p, hp, husable⟩ (ih hes hhops' hnodup' hlast hswitch')
    | none =>
      simp only [hp] at hhops
      cases hwalk with
      | arrive => exact absurd (List.mem_of_getLast? hlast) hfresh
      | @step _ e es he hes =>
        -- the walk leaves `v`, which is not among the vertices of the hops
        have hhop : g.pathHop e ∈ hopsOf g (w :: rest) := by
          rw [hhops]
          exact List.mem_map_of_mem List.mem_cons_self
        obtain ⟨x, hx, hdpid⟩ := exists_of_mem_hopsOf hhop
        have hsource := (Graph.mem_usableEdges.mp he).1.2
        rw [Graph.pathHop, hsource] at hdpid
        exact absurd (hcabled.dpid v x hv hdpid.symm ▸ hx) hfresh

/-- The vertices of a walk along the parents are switches. -/
theorem isSwitch_of_route (hcabled : g.Cabled) (hdst : g.IsSwitch dstSwitch)
    (h : Searching g order dstSwitch dstIp tables s b) {v : Nat} {ns : List Nat}
    (hroute : Walk.Route (Parent b) dstSwitch v ns) (hv : g.IsSwitch v) :
    ∀ w ∈ ns, g.IsSwitch w := by
  induction hroute with
  | arrive => exact fun w hw => List.mem_singleton.mp hw ▸ hdst
  | step hhop _ ih =>
    exact List.forall_mem_cons.mpr ⟨hv, ih (Graph.isSwitch_of_parent hcabled hdst h hhop)⟩

/-- A source, with what the result says of its path. -/
theorem isChain_of_usesUsable (hwell : Addressed g dstSwitch dstIp allHostIps)
    (h : Searching g order dstSwitch dstIp tables s b) (hqueue : b.queue = []) {srcIp : UInt32}
    (hsrcIp : srcIp ∈ allHostIps) {e : Edge} {dstHost : Nat}
    (hsrc : Source g dstSwitch dstIp srcIp e) (hhost : g.findVertexByIp dstIp = some dstHost)
    {ns : List Nat} (hroute : Walk.Route (Parent b) dstSwitch e.to ns) (hnodup : ns.Nodup)
    (hpath : g.PathUsable dstIp (listed g srcIp dstIp e ns dstHost)) :
    e.props.isUsable = true ∧ (ns ++ [dstHost]).IsChain g.UsableEdge := by
  obtain ⟨hcabled, _, hdst, ⟨d, hd⟩, hsrcHost⟩ := hwell
  obtain ⟨srcIp', e', he', es, dstHost', hip, husable, haddress, hwalk, heq⟩ := hpath
  rw [listed, List.cons_append, List.cons_append] at heq
  obtain ⟨hhead, htail⟩ := List.cons.inj heq
  have hhops : hopsOf g (ns ++ [dstHost]) = es.map g.pathHop := List.append_cancel_right htail
  obtain rfl : srcIp = srcIp' := UInt32.toUInt64_inj.mp (congrArg Prod.fst hhead)
  -- both edges leave the host of the address, which is attached to one vertex
  obtain ⟨x, hx⟩ := hsrcHost srcIp hsrcIp
  have hsource : e.desc.source = x := hx.unique _ (hsrc.hasAddress hcabled.agree)
  have hsource' : e'.desc.source = x := by
    obtain ⟨v, hv, _, _, _, hips, _⟩ := hcabled.agree e' he'
    exact hx.unique _ ⟨v, hv, hips ▸ hip⟩
  obtain ⟨y, hy⟩ := hcabled.attached x hx.host
  obtain rfl : e = e' := by
    refine Graph.edge_eq_of_desc_eq hsrc.mem he' (congrArg₂ EdgeDesc.mk ?_ ?_)
    · rw [hsource, hsource']
    · rw [(hy e hsrc.mem).1 hsource, (hy e' he').1 hsource']
  obtain rfl : dstHost' = dstHost :=
    (hd.unique _ haddress).trans (hd.unique _ (hasAddress_of_find hhost)).symm
  have hto := Bfs.mem_seen_of_done ((h.inv.done_iff hqueue).mpr hsrc.reached)
  have hswitch := Graph.isSwitch_of_source hcabled hdst h hsrc.mem (hsource ▸ hx.host) hto
  have hall := isSwitch_of_route hcabled hdst h hroute hswitch
  have hfresh : dstHost' ∉ ns := fun hmem =>
    Graph.not_isHost_of_isSwitch (hall _ hmem) ((hd.unique _ haddress).symm ▸ hd.host)
  have hnodup' : (ns ++ [dstHost']).Nodup := by
    rw [List.nodup_append]
    refine ⟨hnodup, List.nodup_singleton _, fun v hv w hw hvw => hfresh ?_⟩
    rwa [← List.mem_singleton.mp hw, ← hvw]
  have hlast : (ns ++ [dstHost']).getLast? = some dstHost' := List.getLast?_concat
  have hinner : ∀ w ∈ (ns ++ [dstHost']).dropLast, g.IsSwitch w := by
    rw [List.dropLast_concat]
    exact hall
  obtain ⟨rest, rfl⟩ := hroute.exists_cons
  rw [List.cons_append] at hhops hnodup' hlast hinner ⊢
  exact ⟨husable, isChain_of_hops hcabled hwalk hhops hnodup' hlast hinner⟩

/-- The edges behind the parents, from the switch of a source to the destination host. -/
theorem usableEdge_of_isChain {w : Nat} {v : Nat} {ns : List Nat}
    (hroute : Walk.Route (Parent b) dstSwitch v ns)
    (hchain : (ns ++ [w]).IsChain g.UsableEdge) : g.UsableEdge dstSwitch w := by
  induction hroute with
  | arrive => exact (List.isChain_cons_cons.mp hchain).1
  | step _ hroute ih =>
    obtain ⟨rest, rfl⟩ := hroute.exists_cons
    exact ih (List.isChain_cons_cons.mp hchain).2

theorem usableEdge_of_parent (h : Searching g order dstSwitch dstIp tables s b) {a : ℕ → Nat}
    {n : ℕ} (hparent : ∀ i < n, b.parent (a (i + 1)) = some (a i)) {w : Nat} {ns : List Nat}
    (hroute : Walk.Route (Parent b) dstSwitch (a n) ns)
    (hchain : (ns ++ [w]).IsChain g.UsableEdge) : ∀ i < n, g.UsableEdge (a (i + 1)) (a i) := by
  induction n generalizing ns with
  | zero => exact fun i hi => absurd hi (Nat.not_lt_zero i)
  | succ n ih =>
    generalize hv : a (n + 1) = v at hroute
    cases hroute with
    | arrive =>
      have hroot := hparent n (Nat.lt_succ_self n)
      rw [hv, h.inv.root_parent] at hroot
      exact nomatch hroot
    | @step _ x ns hhop hroute =>
      obtain rfl : x = a n :=
        Option.some.inj (hhop.2.symm.trans (hv ▸ hparent n (Nat.lt_succ_self n)))
      obtain ⟨rest, rfl⟩ := hroute.exists_cons
      obtain ⟨hedge, hrest⟩ := List.isChain_cons_cons.mp hchain
      intro i hi
      rcases Nat.lt_succ_iff_lt_or_eq.mp hi with hi | rfl
      · exact ih (fun i hi => hparent i (Nat.lt_succ_of_lt hi)) hroute hrest i hi
      · exact hv ▸ hedge

/-- The rule that is written for a step leads over the reverse edge. -/
theorem rule_of_usesUsable (hwell : Addressed g dstSwitch dstIp allHostIps)
    (h : Searching g order dstSwitch dstIp tables s b) (hqueue : b.queue = [])
    (hgrown : Grown (LastPort g dstSwitch dstIp allHostIps) dstIp
      (writeRules g dstIp b.parent b.done tables) tables')
    (hrules : ∀ dpid, ∃ added, tableAt tables' dpid = tableAt tables dpid ++ added ∧
      ∀ r ∈ added, g.RuleUsable dstSwitch dstIp dpid r.outPort)
    {u w : Nat} (hhop : Parent b w u) (hdpid : g.dpidOf w ≠ 0)
    (hfree : ¬HasRule dstIp (tableAt tables (g.dpidOf w))) {p : EdgeProperties}
    (hp : g.propsOf ⟨w, u⟩ = some p) : p.isUsable = true := by
  obtain ⟨hcabled, hhostDpid, hdst, _, _⟩ := hwell
  have hedge := Graph.propsOf_eq_some_iff.mp hp
  have hw : g.IsSwitch w := by
    by_contra hnot
    exact hdpid (hhostDpid w (Graph.isHost_of_not_switch (g.inRange _ hedge).1 hnot))
  have hdone : w ∈ b.done := by
    have hseen := hhop.1
    rwa [Bfs.State.seen, hqueue, List.append_nil] at hseen
  have hwritten := tableAt_writeRules h.inv.nodup.of_append_left hdone hhop.2 hp hdpid
    (fun v hv => hcabled.dpid w v hw hv) hfree
  -- Only the rule of the destination switch is written later than those of the tree.
  have hsame : tableAt tables' (g.dpidOf w) =
      tableAt (writeRules g dstIp b.parent b.done tables) (g.dpidOf w) := by
    rcases hgrown (g.dpidOf w) with heq | ⟨_, ⟨hd, _⟩, _⟩
    · exact heq
    · obtain rfl := hcabled.dpid dstSwitch w hdst hd
      cases h.inv.root_parent.symm.trans hhop.2
  obtain ⟨added, hadded, husable⟩ := hrules (g.dpidOf w)
  rw [hsame, hwritten] at hadded
  have hmem : ruleFor dstIp p.srcInterface ∈ added := by
    rw [← List.append_cancel_left hadded]
    exact List.mem_singleton_self _
  obtain ⟨e, he, hup, hsource, hport, _⟩ := husable _ hmem
  -- Two cables of one switch on one port are the same cable.
  have hsource : e.desc.source = w := hcabled.dpid w _ hw hsource
  obtain rfl := hcabled.port _ hedge e he hw hsource hport
  exact hup

/-- The rules and the paths use usable edges in the direction of the traffic, whatever order the
    hashes put the neighbours in, if every step that the search may take has a usable reverse; on
    a graph in which dpids, ports and addresses are unambiguous, only if. -/
theorem bfsAllPathsToDst_usable_iff (g : Graph) (dstSwitch : Nat) (dstIp : UInt32)
    (allHostIps : List UInt32) (tables : OpenflowTables) :
    (ReverseUsable g dstSwitch dstIp allHostIps tables → ∀ order : NeighborSort,
      ∃ result, g.bfsAllPathsToDst order dstSwitch dstIp allHostIps tables = some result ∧
        UsesUsable g dstSwitch dstIp tables result) ∧
    (Addressed g dstSwitch dstIp allHostIps → (∀ order : NeighborSort,
      ∃ result, g.bfsAllPathsToDst order dstSwitch dstIp allHostIps tables = some result ∧
        UsesUsable g dstSwitch dstIp tables result) →
      ReverseUsable g dstSwitch dstIp allHostIps tables) := by
  refine ⟨fun hrev order => usesUsable_of_reverseUsable g order dstSwitch dstIp allHostIps tables
    hrev, fun hwell hall => ?_⟩
  -- the result for one order, with the search that led to it
  have hspec : ∀ order, ∃ tables' s b, Searching g order dstSwitch dstIp tables s b ∧
      b.queue = [] ∧ Grown (LastPort g dstSwitch dstIp allHostIps) dstIp
        (writeRules g dstIp b.parent b.done tables) tables' ∧
      (∀ dpid, ∃ added, tableAt tables' dpid = tableAt tables dpid ++ added ∧
        ∀ r ∈ added, g.RuleUsable dstSwitch dstIp dpid r.outPort) ∧
      ∀ srcIp ∈ allHostIps, ∀ path, IsListed g b dstSwitch dstIp srcIp path →
        g.PathUsable dstIp path := by
    intro order
    obtain ⟨paths, tables', s, b, hresult, h, hqueue, hpaths, hgrown⟩ :=
      bfsAllPathsToDst_spec g order dstSwitch dstIp allHostIps tables
    obtain ⟨result, hresult', huses⟩ := hall order
    obtain rfl := Option.some.inj (hresult.symm.trans hresult')
    exact ⟨tables', s, b, h, hqueue, hgrown, huses.rules, fun srcIp hsrcIp path hpath =>
      huses.paths path ((hpaths path).mpr ⟨srcIp, hsrcIp, hpath⟩)⟩
  constructor
  · rintro u w ⟨a, n, i, ha, hn, hi, rfl, rfl⟩ hdpid hfree p hp
    obtain ⟨order, horder⟩ := @exists_order g dstSwitch dstIp a n ha
    obtain ⟨tables', s, b, h, hqueue, hgrown, hrules, _⟩ := hspec order
    have hdone := (h.inv.done_iff hqueue).mpr ⟨_, (ha.isDist (i + 1) hi).reaches⟩
    have hhop : Parent b (a (i + 1)) (a i) :=
      ⟨Bfs.mem_seen_of_done hdone, horder tables s b h hqueue i hi⟩
    exact rule_of_usesUsable hwell h hqueue hgrown hrules hhop hdpid hfree hp
  · intro srcIp hsrcIp e dstHost hsrc hhost
    have hchain : ∀ order : NeighborSort, ∃ s b ns, Searching g order dstSwitch dstIp tables s b ∧
        b.queue = [] ∧ Walk.Route (Parent b) dstSwitch e.to ns ∧ e.props.isUsable = true ∧
        (ns ++ [dstHost]).IsChain g.UsableEdge := by
      intro order
      obtain ⟨tables', s, b, h, hqueue, _, _, hpaths⟩ := hspec order
      have hto := Bfs.mem_seen_of_done ((h.inv.done_iff hqueue).mpr hsrc.reached)
      obtain ⟨ns, hroute, _, hnodup, _⟩ := h.inv.exists_route hto
      have hpath := hpaths srcIp hsrcIp _ ⟨e, dstHost, ns, hsrc, hhost, hroute, hnodup, rfl⟩
      exact ⟨s, b, ns, h, hqueue, hroute,
        isChain_of_usesUsable hwell h hqueue hsrcIp hsrc hhost hroute hnodup hpath⟩
    obtain ⟨_, b, ns, _, _, hroute, husable, husableAll⟩ :=
      hchain (.preferring (fun _ => True) fun _ => [])
    refine ⟨husable, usableEdge_of_isChain hroute husableAll, ?_⟩
    rintro u w ⟨a, n, i, ha, hn, hi, rfl, rfl⟩
    obtain ⟨order, horder⟩ := @exists_order g dstSwitch dstIp a n ha
    obtain ⟨s, b, ns, h, hqueue, hroute, _, husableAll⟩ := hchain order
    exact usableEdge_of_parent h (horder tables s b h hqueue) (hn ▸ hroute) husableAll i hi

theorem twoHosts_addressed :
    Addressed Graph.twoHosts 0 0x0100000A [0x0100000A, 0x0200000A] where
  cabled := Graph.twoHosts_cabled
  hostDpid h hhost := by
    rcases Graph.twoHosts_isHost hhost with rfl | rfl
    · rfl
    · rfl
  switch := Graph.twoHosts_hostAt.switch
  dstHost := ⟨2, Graph.twoHosts_hostAt.toHostOf⟩
  srcHost ip hip := by
    rcases List.mem_cons.mp hip with rfl | hip
    · exact ⟨2, Graph.twoHosts_hostAt.toHostOf⟩
    · obtain rfl := List.mem_singleton.mp hip
      refine ⟨3, ⟨_, rfl, rfl⟩, ⟨_, rfl, by decide⟩, fun v ⟨p, hp, hv⟩ => ?_⟩
      match v with
      | 3 => rfl
      | 0 | 1 | 2 =>
        obtain rfl := Option.some.inj hp
        exact absurd hv (by decide)
      | v + 4 => exact nomatch hp

/-- Nothing is down and every cable goes both ways: the condition holds wherever the search starts
    at the switch of the host. -/
theorem reverseUsable_of_symmetric (hup : ∀ e ∈ g.edges, e.props.isUsable = true)
    (hreverse : ∀ e ∈ g.edges, g.UsableEdge e.desc.target e.desc.source)
    (hdst : ∀ dstHost, g.findVertexByIp dstIp = some dstHost → g.UsableEdge dstSwitch dstHost) :
    ReverseUsable g dstSwitch dstIp allHostIps tables where
  rules u w _ _ _ p hp := hup _ (Graph.propsOf_eq_some_iff.mp hp)
  sources srcIp _ e dstHost hsrc hhost := by
    refine ⟨hup e hsrc.mem, hdst dstHost hhost, ?_⟩
    rintro u w ⟨a, n, i, ha, -, hi, rfl, rfl⟩
    obtain ⟨-, p, hp, -⟩ := Graph.mem_usableNeighbors.mp (ha.step i hi)
    exact hreverse _ (Graph.propsOf_eq_some_iff.mp hp)

theorem twoHosts_reverseUsable :
    ReverseUsable Graph.twoHosts 0 0x0100000A [0x0100000A, 0x0200000A] ∅ := by
  apply reverseUsable_of_symmetric
  · decide
  · intro e he
    simp only [Graph.twoHosts, List.mem_cons, List.not_mem_nil, or_false] at he
    rcases he with rfl | rfl | rfl | rfl | rfl | rfl <;> exact ⟨_, rfl, by decide⟩
  · intro dstHost hhost
    have hfound : Graph.twoHosts.findVertexByIp 0x0100000A = some 2 := by decide
    obtain rfl := Option.some.inj (hfound.symm.trans hhost)
    exact ⟨_, rfl, by decide⟩

/-- The condition holds of two hosts behind a link that goes both ways, and only usable edges are
    used. -/
theorem bfsAllPathsToDst_usable_twoHosts :
    ReverseUsable Graph.twoHosts 0 0x0100000A [0x0100000A, 0x0200000A] ∅ ∧
      (∀ order : NeighborSort, ∃ result, Graph.twoHosts.bfsAllPathsToDst order 0 0x0100000A
          [0x0100000A, 0x0200000A] ∅ = some result ∧
        UsesUsable Graph.twoHosts 0 0x0100000A ∅ result) := by
  have h := bfsAllPathsToDst_usable_iff Graph.twoHosts 0 0x0100000A [0x0100000A, 0x0200000A] ∅
  have hall := h.1 twoHosts_reverseUsable
  exact ⟨h.2 twoHosts_addressed hall, hall⟩

/-- Two switches with a host each, and the link down from the second to the first. -/
def oneWay : Graph := Graph.twoHosts.updateEdge ⟨1, 0⟩ fun p => { p with isUp := false }

theorem oneWay_paths :
    (oneWay.bfsAllPathsToDst Graph.exampleOrder 0 0x0100000A [0x0200000A] ∅).map Prod.fst =
      some [[(0x0200000A, 6), (2, 4), (1, 5), (0x0100000A, 0)]] := by decide +kernel

/-- The path leaves the second switch over the direction that is down. -/
theorem bfsAllPathsToDst_oneWay : ∃ result,
    oneWay.bfsAllPathsToDst Graph.exampleOrder 0 0x0100000A [0x0200000A] ∅ = some result ∧
      ¬UsesUsable oneWay 0 0x0100000A ∅ result := by
  obtain ⟨result, hresult, hpaths⟩ := Option.map_eq_some_iff.mp oneWay_paths
  refine ⟨result, hresult, fun h => ?_⟩
  obtain ⟨_, _, _, es, _, _, _, _, hwalk, heq⟩ :=
    h.paths _ (by rw [hpaths]; exact List.mem_singleton_self _)
  have hnone : ∀ e ∈ oneWay.edges, e.props.isUsable = true → oneWay.pathHop e ≠ (2, 4) := by decide
  cases hwalk with
  | arrive => simp at heq
  | @step _ e es he _ =>
    obtain ⟨⟨hmem, _⟩, husable⟩ := Graph.mem_usableEdges.mp he
    have htail := (List.cons.inj heq).2
    exact hnone e hmem husable (List.cons.inj htail).1.symm

end Ndtwin.Kernel

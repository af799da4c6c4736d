import Ndtwin.Spec.BfsSearchCorrect

/-!
# Shortest paths and the rules that follow them

Where a link is usable in both directions or in neither, the edge from a vertex to its parent in
the search exists and is usable, so the rules written during the search and the paths read off
the parents afterwards agree.

## Key results

- `rulesFor_eq`: the rule of a switch leads to its parent
- `bfsAllPathsToDst_shortest`: rules and paths are the shortest walks to the destination switch
-/

namespace Ndtwin.Kernel

open BfsPaths

/-! ## Cabling -/

/-- Hosts hang at one vertex each, the dpid of a switch is not 0 and names no other vertex, and no
    two edges leave a switch by one port. -/
structure Graph.Cabled (g : Graph) : Prop where
  agree : ∀ e ∈ g.edges, g.EdgeAgrees e
  attached : ∀ h, g.IsHost h → g.AttachedOnce h
  dpid_ne : ∀ v, g.IsSwitch v → g.dpidOf v ≠ 0
  dpid : ∀ v w, g.IsSwitch v → g.dpidOf w = g.dpidOf v → w = v
  port : ∀ e ∈ g.edges, ∀ e' ∈ g.edges, g.IsSwitch e.desc.source →
    e'.desc.source = e.desc.source → e'.props.srcInterface = e.props.srcInterface → e' = e

/-- An edge is usable exactly when its reverse is there and usable. -/
def Graph.UsableBothWays (g : Graph) : Prop :=
  ∀ e ∈ g.edges, e.props.isUsable = true ↔
    ∃ p, g.propsOf ⟨e.desc.target, e.desc.source⟩ = some p ∧ p.isUsable = true

/-- The address is that of one host. -/
structure Graph.HostOf (g : Graph) (ip : UInt32) (h : Nat) : Prop where
  host : g.IsHost h
  hasAddress : g.HasAddress h ip
  unique : ∀ v, g.HasAddress v ip → v = h

/-- The host of the address is attached to the switch. -/
structure Graph.HostAt (g : Graph) (ip : UInt32) (h s : Nat) : Prop extends g.HostOf ip h where
  switch : g.IsSwitch s
  port : ∃ p, g.propsOf ⟨s, h⟩ = some p

/-! ## What the rules do -/

/-- The rules for an address at a vertex. -/
def Graph.rulesFor (g : Graph) (tables : OpenflowTables) (ip : UInt32) (v : Nat) :
    List OpenflowRule :=
  (tableAt tables (g.dpidOf v)).filter fun r => r.net = ip

/-- The port by which a vertex sends what is for an address. -/
def Graph.portFor (g : Graph) (tables : OpenflowTables) (ip : UInt32) (v : Nat) : Option UInt32 :=
  (g.rulesFor tables ip v).head?.map OpenflowRule.outPort

/-- The vertex behind that port. -/
def Graph.forward (g : Graph) (tables : OpenflowTables) (ip : UInt32) (v : Nat) : Option Nat :=
  (g.portFor tables ip v).bind fun port =>
    (g.edges.find? fun e => e.desc.source = v ∧ e.props.srcInterface = port).map Edge.to

/-- What a path says of a vertex: its dpid and the port of its rule. -/
def Graph.hopFor (g : Graph) (tables : OpenflowTables) (ip : UInt32) (v : Nat) : UInt64 × UInt32 :=
  (g.dpidOf v, (g.portFor tables ip v).getD 0)

namespace Graph

variable {g : Graph} {order : NeighborSort} {dstSwitch : Nat} {dstIp : UInt32}
  {tables tables' : OpenflowTables} {s : SearchState} {b : Bfs.State Nat}

theorem not_isHost_of_isSwitch {v : Nat} (hswitch : g.IsSwitch v) : ¬g.IsHost v := by
  obtain ⟨p, hp, hp'⟩ := hswitch
  rintro ⟨q, hq, hq'⟩
  obtain rfl : p = q := Option.some.inj (hp.symm.trans hq)
  exact nomatch hp'.symm.trans hq'

/-- The search leaves a vertex only if it is a switch: from a host it could only go back. -/
theorem isSwitch_of_parent (hcabled : g.Cabled) (hdst : g.IsSwitch dstSwitch)
    (h : Searching g order dstSwitch dstIp tables s b) {v w : Nat} (hhop : Parent b v w) :
    g.IsSwitch w := by
  obtain ⟨hw, hdepth, _, p, hp, _⟩ := h.edge_of_parent hhop
  have hedge := propsOf_eq_some_iff.mp hp
  by_contra hnot
  have hne : w ≠ dstSwitch := fun heq => hnot (heq ▸ hdst)
  have hseen : w ∈ b.seen := Bfs.mem_seen_of_done hw
  obtain ⟨x, _, hx, _, _⟩ := h.inv.parent w hseen hne
  obtain ⟨_, hdepth', _, q, hq, _⟩ := h.edge_of_parent ⟨hseen, hx⟩
  have hedge' := propsOf_eq_some_iff.mp hq
  obtain ⟨y, hy⟩ := hcabled.attached w (isHost_of_not_switch (g.inRange _ hedge).1 hnot)
  obtain rfl : v = y := (hy _ hedge).1 rfl
  obtain rfl : x = v := (hy _ hedge').2 rfl
  omega

/-- The vertex that a host is attached to is a switch, if the search gets there. -/
theorem isSwitch_of_source (hcabled : g.Cabled) (hdst : g.IsSwitch dstSwitch)
    (h : Searching g order dstSwitch dstIp tables s b) {e : Edge} (he : e ∈ g.edges)
    (hhost : g.IsHost e.desc.source) (hseen : e.to ∈ b.seen) : g.IsSwitch e.to := by
  by_contra hnot
  have hne : e.to ≠ dstSwitch := fun heq => hnot (heq ▸ hdst)
  obtain ⟨x, _, hx, _, _⟩ := h.inv.parent e.to hseen hne
  have hhop : Parent b e.to x := ⟨hseen, hx⟩
  obtain ⟨_, _, _, q, hq, _⟩ := h.edge_of_parent hhop
  obtain ⟨y, hy⟩ := hcabled.attached e.to (isHost_of_not_switch (g.inRange e he).2 hnot)
  have hxy : x = y := (hy _ (propsOf_eq_some_iff.mp hq)).2 rfl
  have hsource : e.desc.source = x := ((hy e he).2 rfl).trans hxy.symm
  exact not_isHost_of_isSwitch (isSwitch_of_parent hcabled hdst h hhop) (hsource ▸ hhost)

variable {allHostIps : List UInt32} {v w : Nat}

/-- The port of a switch to its parent, and the rule for it. -/
theorem rulesFor_eq (hcabled : g.Cabled) (hboth : g.UsableBothWays) (hdst : g.IsSwitch dstSwitch)
    (hfree : ∀ dpid, ∀ r ∈ tableAt tables dpid, r.net ≠ dstIp)
    (h : Searching g order dstSwitch dstIp tables s b) (hqueue : b.queue = [])
    (hgrown : Grown (LastPort g dstSwitch dstIp allHostIps) dstIp
      (writeRules g dstIp b.parent b.done tables) tables')
    (hswitch : g.IsSwitch v) (hhop : Parent b v w) :
    ∃ p, g.propsOf ⟨v, w⟩ = some p ∧
      g.rulesFor tables' dstIp v = [ruleFor dstIp p.srcInterface] := by
  obtain ⟨_, hdepth, _, q, hq, hup⟩ := h.edge_of_parent hhop
  obtain ⟨p, hp, _⟩ := (hboth _ (propsOf_eq_some_iff.mp hq)).mp hup
  refine ⟨p, hp, ?_⟩
  have hnone : ¬HasRule dstIp (tableAt tables (g.dpidOf v)) := by
    rintro ⟨port, hmem⟩
    exact hfree _ _ hmem rfl
  have hdone : v ∈ b.done := by
    have hseen := hhop.1
    rwa [Bfs.State.seen, hqueue, List.append_nil] at hseen
  have hnodup : b.done.Nodup := h.inv.nodup.of_append_left
  have hwritten := tableAt_writeRules hnodup hdone hhop.2 hp (hcabled.dpid_ne v hswitch)
    (fun x hx => hcabled.dpid v x hswitch hx) hnone
  -- the path loop writes at the destination switch only
  have hsame : tableAt tables' (g.dpidOf v) =
      tableAt (writeRules g dstIp b.parent b.done tables) (g.dpidOf v) := by
    rcases hgrown (g.dpidOf v) with heq | ⟨_, ⟨hd, _⟩, _⟩
    · exact heq
    · obtain rfl := hcabled.dpid dstSwitch v hdst hd
      cases h.inv.root_parent.symm.trans hhop.2
  have hold : (tableAt tables (g.dpidOf v)).filter (fun r => r.net = dstIp) = [] :=
    List.filter_eq_nil_iff.mpr fun r hr => by simpa using hfree _ r hr
  rw [rulesFor, hsame, hwritten, List.filter_append, hold, List.nil_append,
    List.filter_eq_self]
  intro r hr
  rw [List.mem_singleton.mp hr, ruleFor, decide_eq_true_iff]

theorem forward_eq (hcabled : g.Cabled) {p : EdgeProperties} (hswitch : g.IsSwitch v)
    (hp : g.propsOf ⟨v, w⟩ = some p)
    (hrule : g.rulesFor tables' dstIp v = [ruleFor dstIp p.srcInterface]) :
    g.forward tables' dstIp v = some w := by
  have hedge := propsOf_eq_some_iff.mp hp
  have hfind : (g.edges.find? fun e => e.desc.source = v ∧ e.props.srcInterface = p.srcInterface) =
      some ⟨⟨v, w⟩, p⟩ := by
    cases hfind : g.edges.find? fun e => e.desc.source = v ∧ e.props.srcInterface =
        p.srcInterface with
    | none => simpa using List.find?_eq_none.mp hfind _ hedge
    | some e =>
      have htest : e.desc.source = v ∧ e.props.srcInterface = p.srcInterface := by
        simpa using List.find?_some hfind
      exact congrArg some (hcabled.port _ hedge e (List.mem_of_find?_eq_some hfind) hswitch
        htest.1 htest.2)
  rw [forward, portFor, hrule, List.head?_cons, Option.map_some, Option.bind_some]
  show (g.edges.find? fun e => e.desc.source = v ∧ e.props.srcInterface = p.srcInterface).map _ = _
  rw [hfind]
  rfl

/-- The walk along the parents is the one along the rules, and the path lists the rules. -/
theorem forward_of_route (hcabled : g.Cabled) (hdst : g.IsSwitch dstSwitch)
    (h : Searching g order dstSwitch dstIp tables s b)
    (hrules : ∀ v w, g.IsSwitch v → Parent b v w → ∃ p, g.propsOf ⟨v, w⟩ = some p ∧
      g.rulesFor tables' dstIp v = [ruleFor dstIp p.srcInterface])
    {ns : List Nat} (hroute : Walk.Route (Parent b) dstSwitch v ns) (hswitch : g.IsSwitch v) :
    Walk.Route (fun v w => g.forward tables' dstIp v = some w) dstSwitch v ns ∧
      hopsOf g ns = ns.dropLast.map (g.hopFor tables' dstIp) := by
  induction hroute with
  | arrive => exact ⟨.arrive, rfl⟩
  | @step v w ns hhop hroute ih =>
    obtain ⟨p, hp, hrule⟩ := hrules v w hswitch hhop
    obtain ⟨hforward, hhops⟩ := ih (isSwitch_of_parent hcabled hdst h hhop)
    refine ⟨.step (forward_eq hcabled hswitch hp hrule) hforward, ?_⟩
    obtain ⟨rest, rfl⟩ := hroute.exists_cons
    have hhop' : g.hopFor tables' dstIp v = (g.dpidOf v, p.srcInterface) := by
      rw [hopFor, portFor, hrule]
      rfl
    rw [hopsOf, hp, List.dropLast_cons_cons, List.map_cons, ← hhops, hhop']

/-- The address of a host leads to that host. -/
theorem HostOf.findVertexByIp {ip : UInt32} {host : Nat} (h : g.HostOf ip host) :
    g.findVertexByIp ip = some host := by
  cases hfind : g.findVertexByIp ip with
  | none =>
    obtain ⟨p, hp, hip⟩ := h.hasAddress
    have hnot := List.findIdx?_eq_none_iff.mp hfind p (List.mem_of_getElem? hp)
    exact absurd hip (by simpa using hnot)
  | some v =>
    obtain ⟨hlt, htest, _⟩ := List.findIdx?_eq_some_iff_getElem.mp hfind
    have hip : ip ∈ g.vertices[v].ip := List.contains_iff_mem.mp htest
    rw [h.unique v ⟨g.vertices[v], List.getElem?_eq_getElem hlt, hip⟩]

/-- The search ends; every switch it visits gets one rule, the rules lead to the destination
    switch along a shortest walk, and the paths list these walks. -/
theorem bfsAllPathsToDst_shortest (g : Graph) (order : NeighborSort) (dstSwitch dstHost : Nat)
    (dstIp : UInt32) (allHostIps : List UInt32) (tables : OpenflowTables)
    (hcabled : g.Cabled) (hboth : g.UsableBothWays) (hdst : g.HostAt dstIp dstHost dstSwitch)
    (hsources : ∀ ip ∈ allHostIps, ∀ v, g.HasAddress v ip → g.IsHost v)
    (hfree : ∀ dpid, ∀ r ∈ tableAt tables dpid, r.net ≠ dstIp) :
    ∃ paths tables', g.bfsAllPathsToDst order dstSwitch dstIp allHostIps tables =
        some (paths, tables') ∧
      (∀ v n, g.IsSwitch v → Bfs.IsDist g.usableNeighbors dstSwitch v n →
        (v ≠ dstSwitch → ∃ outPort, g.rulesFor tables' dstIp v = [ruleFor dstIp outPort]) ∧
        ∃ nodes, Walk.follow (g.forward tables' dstIp) dstSwitch (n + 1) [] v = some nodes ∧
          nodes.length = n + 1 ∧ nodes.Nodup) ∧
      ∀ path ∈ paths, ∃ srcIp ∈ allHostIps, ∃ e ∈ g.edges, ∃ n nodes p,
        g.HasAddress e.desc.source srcIp ∧ g.IsHost e.desc.source ∧ g.IsSwitch e.to ∧
        Bfs.IsDist g.usableNeighbors dstSwitch e.to n ∧
        Walk.follow (g.forward tables' dstIp) dstSwitch (n + 1) [] e.to = some nodes ∧
        g.propsOf ⟨dstSwitch, dstHost⟩ = some p ∧
        path = (srcIp.toUInt64, e.props.dstInterface) ::
          nodes.dropLast.map (g.hopFor tables' dstIp) ++
          [(g.dpidOf dstSwitch, p.srcInterface), (dstIp.toUInt64, 0)] := by
  obtain ⟨paths, tables', s, b, hresult, h, hqueue, hpaths, hgrown⟩ :=
    bfsAllPathsToDst_spec g order dstSwitch dstIp allHostIps tables
  have hrules : ∀ v w, g.IsSwitch v → Parent b v w → ∃ p, g.propsOf ⟨v, w⟩ = some p ∧
      g.rulesFor tables' dstIp v = [ruleFor dstIp p.srcInterface] := fun v w hv hhop =>
    rulesFor_eq hcabled hboth hdst.switch hfree h hqueue hgrown hv hhop
  have hseen : ∀ {v}, (∃ n, Bfs.Reaches g.usableNeighbors dstSwitch n v) → v ∈ b.seen :=
    fun hreach => Bfs.mem_seen_of_done ((h.inv.done_iff hqueue).mpr hreach)
  have hfollow : ∀ {v ns}, g.IsSwitch v → Walk.Route (Parent b) dstSwitch v ns → ns.Nodup →
      Walk.follow (g.forward tables' dstIp) dstSwitch (b.depth v + 1) [] v = some ns := by
    intro v ns hv hroute hnodup
    have hforward := (forward_of_route hcabled hdst.switch h hrules hroute hv).1
    exact Walk.follow_of_route (fun _ _ hhop => hhop) hforward hnodup (h.length_route hroute).le
  -- The tree of parents carries all three parts: its depth is the distance, its edges are the
  -- rules, and its routes are the walks that `forward` follows.
  refine ⟨paths, tables', hresult, fun v n hv hdist => ⟨fun hne => ?_, ?_⟩, fun path hpath => ?_⟩
  · have hv' := hseen ⟨n, hdist.reaches⟩
    obtain ⟨w, _, hw, _⟩ := h.inv.parent v hv' hne
    obtain ⟨p, _, hrule⟩ := hrules v w hv ⟨hv', hw⟩
    exact ⟨p.srcInterface, hrule⟩
  · have hv' := hseen ⟨n, hdist.reaches⟩
    obtain rfl := (h.inv.isDist hv').unique hdist
    obtain ⟨ns, hroute, hlen, hnodup, _⟩ := h.inv.exists_route hv'
    exact ⟨ns, hfollow hv hroute hnodup, hlen, hnodup⟩
  · obtain ⟨srcIp, hsrcIp, e, dstHost', ns, hsrc, hhost, hroute, hnodup, rfl⟩ :=
      (hpaths path).mp hpath
    obtain rfl : dstHost' = dstHost := Option.some.inj (hhost.symm.trans hdst.toHostOf.findVertexByIp)
    have hto : e.to ∈ b.seen := hseen hsrc.reached
    have haddress := hsrc.hasAddress hcabled.agree
    have hhostSrc := hsources srcIp hsrcIp _ haddress
    have hswitch := isSwitch_of_source hcabled hdst.switch h hsrc.mem hhostSrc hto
    have hhops := (forward_of_route hcabled hdst.switch h hrules hroute hswitch).2
    obtain ⟨p, hp⟩ := hdst.port
    refine ⟨srcIp, hsrcIp, e, hsrc.mem, b.depth e.to, ns, p, haddress, hhostSrc, hswitch,
      h.inv.isDist hto, hfollow hswitch hroute hnodup, hp, ?_⟩
    rw [listed, hopsOf_append hroute, hhops, hopsOf, hp]
    simp [hopsOf]

/-! ## An example -/

/-- Switches 1 and 2 with a link between them, the host 10.0.0.1 at switch 1 and the host 10.0.0.2
    at switch 2. -/
def twoHosts : Graph where
  vertices := [{ vertexType := .switch, ip := [1], dpid := 1 },
    { vertexType := .switch, ip := [2], dpid := 2 },
    { vertexType := .host, ip := [0x0100000A], dpid := 0 },
    { vertexType := .host, ip := [0x0200000A], dpid := 0 }]
  edges := [
    ⟨⟨0, 1⟩, { srcIp := [1], srcDpid := 1, srcInterface := 3,
               dstIp := [2], dstDpid := 2, dstInterface := 4 }⟩,
    ⟨⟨0, 2⟩, { srcIp := [1], srcDpid := 1, srcInterface := 5,
               dstIp := [0x0100000A], dstDpid := 0, dstInterface := 0 }⟩,
    ⟨⟨1, 0⟩, { srcIp := [2], srcDpid := 2, srcInterface := 4,
               dstIp := [1], dstDpid := 1, dstInterface := 3 }⟩,
    ⟨⟨1, 3⟩, { srcIp := [2], srcDpid := 2, srcInterface := 6,
               dstIp := [0x0200000A], dstDpid := 0, dstInterface := 0 }⟩,
    ⟨⟨2, 0⟩, { srcIp := [0x0100000A], srcDpid := 0, srcInterface := 0,
               dstIp := [1], dstDpid := 1, dstInterface := 5 }⟩,
    ⟨⟨3, 1⟩, { srcIp := [0x0200000A], srcDpid := 0, srcInterface := 0,
               dstIp := [2], dstDpid := 2, dstInterface := 6 }⟩]
  inRange := by decide
  sorted := by decide

theorem twoHosts_isHost {v : Nat} (h : twoHosts.IsHost v) : v = 2 ∨ v = 3 := by
  obtain ⟨p, hp, htype⟩ := h
  match v with
  | 0 =>
    obtain rfl := Option.some.inj hp
    exact nomatch htype
  | 1 =>
    obtain rfl := Option.some.inj hp
    exact nomatch htype
  | 2 => exact .inl rfl
  | 3 => exact .inr rfl
  | v + 4 => exact nomatch hp

theorem twoHosts_isSwitch {v : Nat} (h : twoHosts.IsSwitch v) : v = 0 ∨ v = 1 := by
  have hlt : v < 4 := by
    obtain ⟨p, hp, _⟩ := h
    exact (List.getElem?_eq_some_iff.mp hp).1
  have hnot := not_isHost_of_isSwitch h
  match v with
  | 0 => exact .inl rfl
  | 1 => exact .inr rfl
  | 2 => exact absurd ⟨_, rfl, rfl⟩ hnot
  | 3 => exact absurd ⟨_, rfl, rfl⟩ hnot

theorem twoHosts_cabled : twoHosts.Cabled where
  agree := by simp [twoHosts, EdgeAgrees]
  attached h hhost := by
    rcases twoHosts_isHost hhost with rfl | rfl
    · exact ⟨0, by decide⟩
    · exact ⟨1, by decide⟩
  dpid_ne v hv := by
    rcases twoHosts_isSwitch hv with rfl | rfl <;> decide
  dpid v w hv hw := by
    rcases twoHosts_isSwitch hv with rfl | rfl
    · obtain _ | _ | _ | _ | w := w
      · rfl
      · exact absurd hw (by decide)
      · exact absurd hw (by decide)
      · exact absurd hw (by decide)
      · exact absurd hw (by decide : ¬(0 : UInt64) = 1)
    · obtain _ | _ | _ | _ | w := w
      · exact absurd hw (by decide)
      · rfl
      · exact absurd hw (by decide)
      · exact absurd hw (by decide)
      · exact absurd hw (by decide : ¬(0 : UInt64) = 2)
  port e he e' he' _ := by
    have hports : ∀ e ∈ twoHosts.edges, ∀ e' ∈ twoHosts.edges, e'.desc.source = e.desc.source →
        e'.props.srcInterface = e.props.srcInterface → e' = e := by decide
    exact hports e he e' he'

theorem twoHosts_usableBothWays : twoHosts.UsableBothWays := by
  simp [UsableBothWays, twoHosts, propsOf, EdgeProperties.isUsable]

theorem twoHosts_hostAt : twoHosts.HostAt 0x0100000A 2 0 where
  host := ⟨_, rfl, rfl⟩
  hasAddress := ⟨_, rfl, by decide⟩
  unique v h := by
    obtain ⟨p, hp, hip⟩ := h
    match v with
    | 2 => rfl
    | 0 | 1 | 3 =>
      obtain rfl := Option.some.inj hp
      exact absurd hip (by decide)
    | v + 4 => exact nomatch hp
  switch := ⟨_, rfl, rfl⟩
  port := ⟨_, rfl⟩

/-- The digests of `SHA256` for the strings that the search in the example hashes. -/
def exampleDigest (str : String) : List UInt8 :=
  if str = "10.0.0.10" then
    [235, 184, 86, 202, 207, 59, 245, 185, 236, 59, 164, 140, 180, 66, 211, 80,
      206, 136, 118, 253, 26, 49, 208, 68, 47, 39, 219, 174, 79, 207, 30, 55]
  else if str = "10.0.0.12" then
    [195, 2, 61, 114, 213, 52, 89, 25, 106, 56, 112, 225, 130, 218, 67, 80,
      11, 195, 179, 196, 89, 82, 58, 32, 135, 178, 70, 243, 17, 212, 63, 96]
  else []

def exampleOrder : NeighborSort := .preferring (fun _ => True) exampleDigest

theorem twoHosts_sources (ip : UInt32) (hip : ip ∈ [(0x0100000A : UInt32), 0x0200000A]) (v : Nat)
    (hv : twoHosts.HasAddress v ip) : twoHosts.IsHost v := by
  obtain ⟨p, hp, hmem⟩ := hv
  match v with
  | 0 | 1 =>
    obtain rfl := Option.some.inj hp
    obtain rfl := List.mem_singleton.mp hmem
    exact absurd hip (by decide)
  | 2 | 3 => exact ⟨_, rfl, rfl⟩
  | v + 4 => exact nomatch hp

theorem bfsAllPathsToDst_shortest_twoHosts :
    ∃ paths tables', twoHosts.bfsAllPathsToDst exampleOrder 0 0x0100000A
        [0x0100000A, 0x0200000A] ∅ = some (paths, tables') ∧
      (∀ v n, twoHosts.IsSwitch v → Bfs.IsDist twoHosts.usableNeighbors 0 v n →
        (v ≠ 0 → ∃ outPort, twoHosts.rulesFor tables' 0x0100000A v =
          [ruleFor 0x0100000A outPort]) ∧
        ∃ nodes, Walk.follow (twoHosts.forward tables' 0x0100000A) 0 (n + 1) [] v = some nodes ∧
          nodes.length = n + 1 ∧ nodes.Nodup) ∧
      ∀ path ∈ paths, ∃ srcIp ∈ [(0x0100000A : UInt32), 0x0200000A], ∃ e ∈ twoHosts.edges,
        ∃ n nodes p, twoHosts.HasAddress e.desc.source srcIp ∧ twoHosts.IsHost e.desc.source ∧
        twoHosts.IsSwitch e.to ∧ Bfs.IsDist twoHosts.usableNeighbors 0 e.to n ∧
        Walk.follow (twoHosts.forward tables' 0x0100000A) 0 (n + 1) [] e.to = some nodes ∧
        twoHosts.propsOf ⟨0, 2⟩ = some p ∧
        path = (srcIp.toUInt64, e.props.dstInterface) ::
          nodes.dropLast.map (twoHosts.hopFor tables' 0x0100000A) ++
          [(twoHosts.dpidOf 0, p.srcInterface), ((0x0100000A : UInt32).toUInt64, 0)] :=
  bfsAllPathsToDst_shortest twoHosts exampleOrder 0 2 0x0100000A [0x0100000A, 0x0200000A] ∅
    twoHosts_cabled twoHosts_usableBothWays twoHosts_hostAt twoHosts_sources
    fun _ _ hr => absurd hr List.not_mem_nil

example : (twoHosts.bfsAllPathsToDst exampleOrder 0 0x0100000A [0x0200000A] ∅).map Prod.fst =
    some [[(0x0200000A, 6), (2, 4), (1, 5), (0x0100000A, 0)]] := by decide +kernel

end Graph

end Ndtwin.Kernel

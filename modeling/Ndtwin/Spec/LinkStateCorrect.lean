import Ndtwin.Spec.LinkWatchdogCorrect
import Ndtwin.Spec.WatchdogPassCorrect
import Ndtwin.Twin.LinkState

/-!
# Link state of proxy and kernel

The proxy keeps one belief for each direction of a link; the kernel marks both directions on
every report, and a poll can only raise an edge. So the two agree only as long as the writes of
one direction are undone for the other: a failure report by a later poll, a recovery report by a
failure report that is still to come.

## Key results

- `handleReport_spec`, `updateLinks_spec`: what a report and a reply do to the edges
- `agree_invariant`: what every orderly step keeps
- `edges_match_beliefs`: after every orderly run, in every settled state, the edges are up
  exactly where the proxy believes no failure
-/

namespace Ndtwin.Spec

open Proxy Kernel Twin Twin.LinkState

/-! ## Declared links -/

/-- The links of the topology file: both directions of each, no two from one port, and numbers
    that fit the kernel's types. -/
structure DeclaredLinks where
  links : List Link
  reverse_mem : ∀ l ∈ links, l.reverse ∈ links
  endpoint_inj : ∀ l ∈ links, ∀ l' ∈ links, l.srcDpid = l'.srcDpid → l.srcPort = l'.srcPort →
    l = l'
  dpid_range : ∀ l ∈ links, 0 ≤ l.srcDpid ∧ l.srcDpid < 2 ^ 64
  port_range : ∀ l ∈ links, 0 ≤ l.srcPort ∧ l.srcPort < 2 ^ 32

@[simp] theorem reverse_reverse (l : Link) : l.reverse.reverse = l := rfl

/-! ## Edges of the kernel -/

/-- The edge that the kernel finds by the source of a link. -/
def declaredEdge (g : Graph) (l : Link) : Option EdgeDesc :=
  g.findEdgeByDpidAndPort (UInt64.ofInt l.srcDpid) (UInt32.ofInt l.srcPort)

/-- The graph was loaded from the file that declares the links: both searches of the kernel find
    the same edge for a link, and its switch. -/
def Loaded (links : List Link) (g : Graph) : Prop :=
  ∀ l ∈ links, (declaredEdge g l).isSome ∧
    g.findEdgeBySrcAndDstDpid (UInt64.ofInt l.srcDpid) (UInt64.ofInt l.dstDpid) =
      declaredEdge g l ∧
    (g.findSwitchByDpid (UInt64.ofInt l.srcDpid)).isSome

instance (links : List Link) (g : Graph) : Decidable (Loaded links g) :=
  inferInstanceAs (Decidable (∀ l ∈ links, _ ∧ _ ∧ _))

/-- A write to an edge that keeps what the searches look at and sets `isUp`. -/
def SetsUp (b : Bool) (f : EdgeProperties → EdgeProperties) : Prop :=
  ∀ p, (f p).srcDpid = p.srcDpid ∧ (f p).srcInterface = p.srcInterface ∧
    (f p).dstDpid = p.dstDpid ∧ (f p).isUp = b

theorem setsUp_isUp (b : Bool) : SetsUp b fun p => { p with isUp := b } :=
  fun _ => ⟨rfl, rfl, rfl, rfl⟩

theorem setsUp_seenEdge : SetsUp true TopologyMonitor.seenEdge := fun _ => ⟨rfl, rfl, rfl, rfl⟩

section Write

variable {g : Graph} {d : EdgeDesc} {b : Bool} {f : EdgeProperties → EdgeProperties}

/-- A search that does not look at what is written finds the same edge. -/
theorem find_updateEdge (test : EdgeProperties → Bool) (htest : ∀ p, test (f p) = test p) :
    ((g.updateEdge d f).edges.find? fun e => test e.props) =
      (g.edges.find? fun e => test e.props).map fun e =>
        if e.desc = d then { e with props := f e.props } else e := by
  have hmap : (g.updateEdge d f).edges =
      g.edges.map fun e => if e.desc = d then { e with props := f e.props } else e := by
    show g.edges.map _ = g.edges.map _
    simp only [decide_eq_true_eq]
  have hsame : ((fun e : Edge => test e.props) ∘ fun e : Edge =>
      if e.desc = d then { e with props := f e.props } else e) = fun e => test e.props := by
    funext e
    simp only [Function.comp]
    split
    · exact htest e.props
    · rfl
  rw [hmap, List.find?_map, hsame]

theorem findEdge_updateEdge (test : EdgeProperties → Bool) (htest : ∀ p, test (f p) = test p) :
    (g.updateEdge d f).findEdge test = g.findEdge test := by
  unfold Graph.findEdge
  rw [find_updateEdge test htest, Option.map_map]
  congr 1
  funext e
  simp only [Function.comp]
  split <;> rfl

theorem declaredEdge_updateEdge (hf : SetsUp b f) (l : Link) :
    declaredEdge (g.updateEdge d f) l = declaredEdge g l := by
  unfold declaredEdge Graph.findEdgeByDpidAndPort
  apply findEdge_updateEdge
  intro p
  rw [(hf p).1, (hf p).2.1]

theorem loaded_updateEdge {links : List Link} (h : Loaded links g) (hf : SetsUp b f) :
    Loaded links (g.updateEdge d f) := by
  intro l hl
  obtain ⟨hsome, hpair, hswitch⟩ := h l hl
  refine ⟨?_, ?_, hswitch⟩
  · rw [declaredEdge_updateEdge hf]
    exact hsome
  · rw [declaredEdge_updateEdge hf, ← hpair]
    unfold Graph.findEdgeBySrcAndDstDpid
    apply findEdge_updateEdge
    intro p
    rw [(hf p).1, (hf p).2.2.1]

/-- The flag of a link after a write to one edge. -/
theorem edgeUp_updateEdge (hf : SetsUp b f) (l : Link) :
    edgeUp (g.updateEdge d f) l = if declaredEdge g l = some d then b else edgeUp g l := by
  have hfind := find_updateEdge (g := g) (d := d) (f := f)
    (fun p => p.srcDpid = UInt64.ofInt l.srcDpid ∧ p.srcInterface = UInt32.ofInt l.srcPort)
    (fun p => by rw [(hf p).1, (hf p).2.1])
  unfold edgeUp
  rw [hfind]
  unfold declaredEdge Graph.findEdgeByDpidAndPort Graph.findEdge
  cases g.edges.find? fun e => e.props.srcDpid = UInt64.ofInt l.srcDpid ∧
      e.props.srcInterface = UInt32.ofInt l.srcPort with
  | none => rfl
  | some e =>
    simp only [Option.map_some, Option.some.injEq]
    by_cases hdesc : e.desc = d
    · rw [if_pos hdesc, if_pos hdesc]
      exact (hf e.props).2.2.2
    · rw [if_neg hdesc, if_neg hdesc]

end Write

theorem ofInt64_inj {a b : Int} (ha : 0 ≤ a ∧ a < 2 ^ 64) (hb : 0 ≤ b ∧ b < 2 ^ 64)
    (h : UInt64.ofInt a = UInt64.ofInt b) : a = b := by
  have hnat := congrArg UInt64.toNat h
  simp only [UInt64.ofInt, UInt64.toNat_ofNat'] at hnat
  omega

theorem ofInt32_inj {a b : Int} (ha : 0 ≤ a ∧ a < 2 ^ 32) (hb : 0 ≤ b ∧ b < 2 ^ 32)
    (h : UInt32.ofInt a = UInt32.ofInt b) : a = b := by
  have hnat := congrArg UInt32.toNat h
  simp only [UInt32.ofInt, UInt32.toNat_ofNat'] at hnat
  omega

/-- Declared links have different edges. -/
theorem declaredEdge_inj (dl : DeclaredLinks) {g : Graph} {l l' : Link} (hl : l ∈ dl.links)
    (hl' : l' ∈ dl.links) {d : EdgeDesc} (h : declaredEdge g l = some d)
    (h' : declaredEdge g l' = some d) : l = l' := by
  obtain ⟨e, he, hdesc⟩ := Option.map_eq_some_iff.mp h
  obtain ⟨e', he', hdesc'⟩ := Option.map_eq_some_iff.mp h'
  have hkey := List.find?_some he
  have hkey' := List.find?_some he'
  simp only [decide_eq_true_eq] at hkey hkey'
  obtain rfl : e = e' := Graph.edge_eq_of_desc_eq (List.mem_of_find?_eq_some he)
    (List.mem_of_find?_eq_some he') (hdesc.trans hdesc'.symm)
  apply dl.endpoint_inj l hl l' hl'
  · exact ofInt64_inj (dl.dpid_range l hl) (dl.dpid_range l' hl') (hkey.1.symm.trans hkey'.1)
  · exact ofInt32_inj (dl.port_range l hl) (dl.port_range l' hl') (hkey.2.symm.trans hkey'.2)

/-- A write to the edge of a declared link is seen at that link only. -/
theorem edgeUp_write (dl : DeclaredLinks) {g : Graph} {l m : Link} (hl : l ∈ dl.links)
    (hm : m ∈ dl.links) {d : EdgeDesc} (hd : declaredEdge g l = some d) {b : Bool}
    {f : EdgeProperties → EdgeProperties} (hf : SetsUp b f) :
    edgeUp (g.updateEdge d f) m = if m = l then b else edgeUp g m := by
  rw [edgeUp_updateEdge hf]
  by_cases hml : m = l
  · rw [if_pos hml, if_pos (hml ▸ hd)]
  · rw [if_neg hml, if_neg fun hmd => hml (declaredEdge_inj dl hm hl hmd hd)]

/-! ## Reports -/

theorem handleReport_eq (l : Link) (down : Bool) (g : Graph) :
    handleReport l down g = HttpSession.handleLinkEvent
      (fun e g => g.updateEdge e fun p => { p with isUp := !down })
      (if down then "link failure processed" else "link recovery processed")
      (if down then
        "reverse edge missing from the topology; the reported direction was marked down, " ++
          "its reverse was not"
      else
        "reverse edge missing from the topology; the reported direction was marked up, " ++
          "its reverse was not") (payloadOf l) g := by
  cases down with
  | false => rfl
  | true => rfl

/-- A report about a declared link is accepted, and writes both directions. -/
theorem handleReport_spec (dl : DeclaredLinks) {g : Graph} (hg : Loaded dl.links g) {l : Link}
    (hl : l ∈ dl.links) (down : Bool) :
    (handleReport l down g).1.status = .ok ∧ Loaded dl.links (handleReport l down g).2 ∧
      ∀ m ∈ dl.links, edgeUp (handleReport l down g).2 m =
        if m = l ∨ m = l.reverse then !down else edgeUp g m := by
  have hl' := dl.reverse_mem l hl
  have hf := setsUp_isUp (!down)
  obtain ⟨hsome, hpair, -⟩ := hg l hl
  obtain ⟨d, hd⟩ := Option.isSome_iff_exists.mp hsome
  -- the second direction is written to the graph that the first write left
  have hg₁ : Loaded dl.links (g.updateEdge d fun p => { p with isUp := !down }) :=
    loaded_updateEdge hg hf
  obtain ⟨hsome', hpair', -⟩ := hg₁ l.reverse hl'
  obtain ⟨d', hd'⟩ := Option.isSome_iff_exists.mp hsome'
  rw [hd] at hpair
  rw [hd'] at hpair'
  have heq : handleReport l down g = (.message .ok "status"
      (if down then "link failure processed" else "link recovery processed"),
      (g.updateEdge d fun p => { p with isUp := !down }).updateEdge d' fun p =>
        { p with isUp := !down }) := by
    rw [handleReport_eq]
    unfold HttpSession.handleLinkEvent payloadOf
    simp only [hpair]
    have hpair'' : (g.updateEdge d fun p => { p with isUp := !down }).findEdgeBySrcAndDstDpid
        (UInt64.ofInt l.dstDpid) (UInt64.ofInt l.srcDpid) = some d' := hpair'
    simp only [hpair'']
  rw [heq]
  refine ⟨rfl, loaded_updateEdge hg₁ hf, fun m hm => ?_⟩
  rw [edgeUp_write dl hl' hm hd' hf, edgeUp_write dl hl hm hd hf]
  by_cases hr : m = l.reverse
  · rw [if_pos hr, if_pos (Or.inr hr)]
  · rw [if_neg hr]
    by_cases hml : m = l
    · rw [if_pos hml, if_pos (Or.inl hml)]
    · rw [if_neg hml, if_neg (not_or.mpr ⟨hml, hr⟩)]

/-! ## Replies -/

theorem hexText_of_nonneg {width : Nat} {n : Int} (hn : 0 ≤ n) :
    (hexText width n).toList = Hex.padded width n.natAbs := by
  unfold hexText
  rw [if_neg (not_lt.mpr hn), String.toList_ofList]

/-- The kernel reads a datapath id as the proxy printed it. -/
theorem tryParseHexUint64_hexText {n : Int} (hn : 0 ≤ n ∧ n < 2 ^ 64) :
    Utils.tryParseHexUint64 (hexText 16 n) = some (UInt64.ofInt n) := by
  have htext := @hexText_of_nonneg 16 n hn.1
  have hvalue : UInt64.ofNat n.natAbs = UInt64.ofInt n := by
    have hmod : n % 2 ^ 64 = n := Int.emod_eq_of_lt hn.1 hn.2
    unfold UInt64.ofInt
    rw [hmod]
    congr 1
    omega
  unfold Utils.tryParseHexUint64
  rw [htext, Hex.stoull_padded (by decide) (by omega), hvalue, if_neg]
  intro hbad
  rcases hbad with hempty | hdigit
  · have hnil : (hexText 16 n).toList = [] := by
      rw [String.isEmpty_iff.mp hempty]
      rfl
    rw [htext] at hnil
    exact Hex.padded_ne_nil (by decide) _ hnil
  · exact hdigit (List.all_eq_true.mpr fun c hc => Hex.isXDigit_of_mem_padded hc)

/-- The kernel reads a port as the proxy printed it. -/
theorem portStringToUint_hexText {n : Int} (hn : 0 ≤ n ∧ n < 2 ^ 32) :
    Utils.portStringToUint (hexText 8 n) = UInt32.ofInt n := by
  unfold Utils.portStringToUint CText.cStr
  rw [hexText_of_nonneg hn.1, Hex.takeWhile_padded, Hex.stoull_padded (by decide) (by omega)]
  apply UInt32.toNat_inj.mp
  simp only [UInt64.toNat_toUInt32, UInt64.toNat_ofNat', UInt32.ofInt, UInt32.toNat_ofNat']
  omega

theorem hexText_ne_empty {n : Int} (hn : 0 ≤ n) : (hexText 16 n).isEmpty = false := by
  rw [Bool.eq_false_iff]
  intro hempty
  have hnil : (hexText 16 n).toList = [] := by
    rw [String.isEmpty_iff.mp hempty]
    rfl
  rw [hexText_of_nonneg hn] at hnil
  exact Hex.padded_ne_nil (by decide) _ hnil

theorem valueString_dpid (dpid port : Int) :
    (portEndpoint dpid port).valueString "dpid" = .ok (hexText 16 dpid) := by
  simp [portEndpoint, Json.valueString, Json.field?]

theorem valueString_portNo (dpid port : Int) :
    (portEndpoint dpid port).valueString "port_no" = .ok (hexText 8 port) := by
  simp [portEndpoint, Json.valueString, Json.field?]

/-- A listed link is a declared one, up to the port of its far end, which the kernel does not
    use. -/
def Lists (l m : Link) : Prop :=
  m.srcDpid = l.srcDpid ∧ m.srcPort = l.srcPort ∧ m.dstDpid = l.dstDpid

/-- An entry of a reply raises the edge of the link it lists. -/
theorem updateLink_spec (dl : DeclaredLinks) {g : Graph} (hg : Loaded dl.links g) {l m : Link}
    (hl : l ∈ dl.links) (hlists : Lists l m) {d : EdgeDesc} (hd : declaredEdge g l = some d) :
    TopologyMonitor.updateLink (renderLink m) g =
      .ok () (g.updateEdge d TopologyMonitor.seenEdge) := by
  obtain ⟨hsrc, hport, hdst⟩ := hlists
  have hl' := dl.reverse_mem l hl
  have hrange := dl.dpid_range l hl
  have hrange' := dl.dpid_range l.reverse hl'
  obtain ⟨v, hv⟩ := Option.isSome_iff_exists.mp (hg l hl).2.2
  obtain ⟨v', hv'⟩ := Option.isSome_iff_exists.mp (hg l.reverse hl').2.2
  have hv'' : g.findSwitchByDpid (UInt64.ofInt l.dstDpid) = some v' := hv'
  have hparse := tryParseHexUint64_hexText hrange
  have hparse' : Utils.tryParseHexUint64 (hexText 16 l.dstDpid) = some (UInt64.ofInt l.dstDpid) :=
    tryParseHexUint64_hexText hrange'
  have hempty := hexText_ne_empty hrange.1
  have hempty' : (hexText 16 l.dstDpid).isEmpty = false := hexText_ne_empty hrange'.1
  have hedge : g.findEdgeByDpidAndPort (UInt64.ofInt l.srcDpid)
      (Utils.portStringToUint (hexText 8 l.srcPort)) = some d := by
    rw [portStringToUint_hexText (dl.port_range l hl)]
    exact hd
  have hsource : (renderLink m).field? "src" = some (portEndpoint l.srcDpid l.srcPort) := by
    simp [renderLink, Json.field?, hsrc, hport]
  have htarget : (renderLink m).field? "dst" = some (portEndpoint l.dstDpid m.dstPort) := by
    simp [renderLink, Json.field?, hdst]
  -- From here on the handler runs on a report whose parts are known.
  rw [TopologyMonitor.updateLink, hsource, htarget]
  dsimp only
  rw [EState.ofExcept_bind (valueString_dpid _ _), EState.ofExcept_bind (valueString_portNo _ _),
    EState.ofExcept_bind (valueString_dpid _ _), EState.ofExcept_bind (valueString_portNo _ _),
    if_neg (by simp [hempty, hempty']), hparse, hparse']
  dsimp only
  rw [EState.get_bind, hv, hv'']
  dsimp only
  rw [hedge]
  rfl

/-- A reply lists the link. -/
def ListedIn (reply : List Link) (l : Link) : Prop := ∃ x ∈ reply, Lists l x

instance (l m : Link) : Decidable (Lists l m) := inferInstanceAs (Decidable (_ ∧ _))

instance (reply : List Link) (l : Link) : Decidable (ListedIn reply l) :=
  inferInstanceAs (Decidable (∃ x ∈ reply, Lists l x))

/-- A reply raises the edges of the links it lists and nothing else. -/
theorem updateLinks_spec (dl : DeclaredLinks) {g : Graph} (hg : Loaded dl.links g)
    {reply : List Link} (hreply : ∀ x ∈ reply, ∃ l ∈ dl.links, Lists l x) :
    Loaded dl.links (TopologyMonitor.updateLinks (.parsed (renderLinks reply)) g) ∧
      ∀ m ∈ dl.links,
        (edgeUp (TopologyMonitor.updateLinks (.parsed (renderLinks reply)) g) m = true ↔
          edgeUp g m = true ∨ ListedIn reply m) := by
  have hpoll : ∀ (reply : List Link) (g : Graph),
      TopologyMonitor.updateLinks (.parsed (renderLinks reply)) g =
        EState.finalState ((reply.map renderLink).forM TopologyMonitor.updateLink) g :=
    fun _ _ => rfl
  induction reply generalizing g with
  | nil => exact ⟨hg, fun m _ => by simp [hpoll, EState.finalState, ListedIn]; rfl⟩
  | cons x reply ih =>
    obtain ⟨l, hl, hlists⟩ := hreply x List.mem_cons_self
    obtain ⟨d, hd⟩ := Option.isSome_iff_exists.mp (hg l hl).1
    have hstep := updateLink_spec dl hg hl hlists hd
    have hrest : TopologyMonitor.updateLinks (.parsed (renderLinks (x :: reply))) g =
        TopologyMonitor.updateLinks (.parsed (renderLinks reply))
          (g.updateEdge d TopologyMonitor.seenEdge) := by
      rw [hpoll, hpoll, List.map_cons, EState.finalState, EState.forM_cons_apply, hstep]
      rfl
    obtain ⟨hloaded, hup⟩ := ih (loaded_updateEdge hg setsUp_seenEdge)
      fun y hy => hreply y (List.mem_cons_of_mem x hy)
    rw [hrest]
    refine ⟨hloaded, fun m hm => ?_⟩
    rw [hup m hm, edgeUp_write dl hl hm hd setsUp_seenEdge]
    -- endpoints are unique, so an answered link names one declared link
    have hhead : Lists m x ↔ m = l := by
      constructor
      · intro h
        exact dl.endpoint_inj m hm l hl (h.1.symm.trans hlists.1) (h.2.1.symm.trans hlists.2.1)
      · intro h
        exact h ▸ hlists
    have hlisted : ListedIn (x :: reply) m ↔ m = l ∨ ListedIn reply m := by
      unfold ListedIn
      simp only [List.exists_mem_cons_iff, hhead]
    rw [hlisted]
    by_cases hml : m = l
    · simp [hml]
    · simp [hml]

/-! ## Beliefs -/

/-- The belief about a link, if it is watched. -/
def downOf (m : AssocMap Link LinkEntry) (l : Link) : Option Bool :=
  (m.lookup l).map LinkEntry.down

/-- The proxy reports the source of the link as down. -/
def SourceDown (s : LinkState) (l : Link) : Prop := (l.srcDpid, l.srcPort) ∈ s.down

instance (s : LinkState) (l : Link) : Decidable (SourceDown s l) :=
  inferInstanceAs (Decidable (_ ∈ _))

theorem mem_downEndpointsOf {m : AssocMap Link LinkEntry} {l : Link} {e : LinkEntry}
    {p : Int × Int} :
    p ∈ downEndpointsOf m l e ↔ e.down = true ∧ (p = (l.srcDpid, l.srcPort) ∨
      (p = (l.dstDpid, l.dstPort) ∧ downOf m l.reverse ≠ some false)) := by
  unfold downEndpointsOf downOf
  cases e.down with
  | false => simp
  | true =>
    cases m.lookup l.reverse with
    | none => simp
    | some r => cases hr : r.down <;> simp [hr]

/-- The source of a declared link is down when its own belief says so, or when the link is not
    watched and its reverse is down. -/
theorem sourceDown_iff (dl : DeclaredLinks) {s : LinkState}
    (hentries : ∀ l e, s.watchdog.w.linkBeacons.lookup l = some e → l ∈ dl.links) {l : Link}
    (hl : l ∈ dl.links) :
    SourceDown s l ↔ downOf s.watchdog.w.linkBeacons l = some true ∨
      (downOf s.watchdog.w.linkBeacons l.reverse = some true ∧
        downOf s.watchdog.w.linkBeacons l = none) := by
  unfold SourceDown LinkState.down downLinkEndpoints
  simp only [List.mem_flatMap, Prod.exists, AssocMap.mem_toPairs, mem_downEndpointsOf]
  constructor
  · rintro ⟨m, e, hm, hdown, hsrc | ⟨hdst, hother⟩⟩
    · obtain ⟨hd, hp⟩ := Prod.mk.inj hsrc
      obtain rfl := dl.endpoint_inj l hl m (hentries m e hm) hd hp
      exact Or.inl (by rw [downOf, hm, Option.map_some, hdown])
    · obtain ⟨hd, hp⟩ := Prod.mk.inj hdst
      obtain rfl : l = m.reverse :=
        dl.endpoint_inj l hl m.reverse (dl.reverse_mem m (hentries m e hm)) hd hp
      have hrev : downOf s.watchdog.w.linkBeacons m = some true := by
        rw [downOf, hm, Option.map_some, hdown]
      -- the far endpoint counts only when the other direction has no belief of its own
      cases hbelief : downOf s.watchdog.w.linkBeacons m.reverse with
      | none => exact Or.inr ⟨hrev, rfl⟩
      | some b =>
        cases b with
        | true => exact Or.inl rfl
        | false => exact absurd hbelief hother
  · intro h
    rcases h with hown | ⟨hrev, hnone⟩
    · obtain ⟨e, he, hdown⟩ := Option.map_eq_some_iff.mp hown
      exact ⟨l, e, he, hdown, Or.inl rfl⟩
    · obtain ⟨e, he, hdown⟩ := Option.map_eq_some_iff.mp hrev
      refine ⟨l.reverse, e, he, hdown, Or.inr ⟨rfl, ?_⟩⟩
      rw [reverse_reverse, hnone]
      exact nofun

/-- The link is in the graph of the proxy, between two switches. -/
def InGraph (net : NetGraph) (l : Link) : Prop :=
  net.edges.lookup (.dpid l.srcDpid, .dpid l.dstDpid) = some l.srcPort ∧
    net.isSwitch (.dpid l.srcDpid) = true ∧ net.isSwitch (.dpid l.dstDpid) = true

instance (net : NetGraph) (l : Link) : Decidable (InGraph net l) :=
  inferInstanceAs (Decidable (_ ∧ _))

/-- A listed link is an edge between two switches whose source port is not down. -/
theorem mem_listedLinks {net : NetGraph} {down : List (Int × Int)} {x : Link}
    (hx : x ∈ net.listedLinks down) :
    InGraph net x ∧ (x.srcDpid, x.srcPort) ∉ down := by
  obtain ⟨⟨⟨u, v⟩, p⟩, hmem, hlisted⟩ := List.mem_filterMap.mp hx
  have hlookup := AssocMap.mem_toPairs.mp hmem
  unfold NetGraph.listedLink at hlisted
  split at hlisted
  · next src dst srcPort heq =>
    obtain ⟨⟨rfl, rfl⟩, rfl⟩ := by simpa using heq
    split at hlisted
    · next hcond =>
      obtain rfl := Option.some.inj hlisted
      exact ⟨⟨hlookup, hcond.1, hcond.2.1⟩, hcond.2.2⟩
    · exact nomatch hlisted
  · exact nomatch hlisted

/-- What the proxy lists: the links of its graph whose source is not down. -/
theorem listedIn_answer (s : LinkState) (l : Link) :
    ListedIn s.answer l ↔ InGraph s.net l ∧ ¬ SourceDown s l := by
  constructor
  · rintro ⟨x, hx, hsrc, hport, hdst⟩
    obtain ⟨hgraph, hup⟩ := mem_listedLinks hx
    unfold InGraph at hgraph ⊢
    rw [hsrc, hport, hdst] at hgraph
    rw [hsrc, hport] at hup
    exact ⟨hgraph, hup⟩
  · rintro ⟨⟨hlookup, hsrc, hdst⟩, hup⟩
    refine ⟨{ l with dstPort := (s.net.edges.lookup (.dpid l.dstDpid, .dpid l.srcDpid)).getD 0 },
      List.mem_filterMap.mpr ⟨_, AssocMap.mem_toPairs.mpr hlookup, ?_⟩, rfl, rfl, rfl⟩
    exact if_pos ⟨hsrc, hdst, hup⟩

/-- Every edge of the proxy's graph between switches is a declared link. -/
def NetDeclared (dl : DeclaredLinks) (net : NetGraph) : Prop :=
  ∀ a b p, net.edges.lookup (.dpid a, .dpid b) = some p →
    ∃ l ∈ dl.links, l.srcDpid = a ∧ l.srcPort = p ∧ l.dstDpid = b

/-- What the proxy lists are declared links. -/
theorem declared_of_mem_answer {dl : DeclaredLinks} {s : LinkState}
    (hnet : NetDeclared dl s.net) {x : Link} (hx : x ∈ s.answer) : ∃ l ∈ dl.links, Lists l x := by
  obtain ⟨hgraph, -⟩ := mem_listedLinks hx
  obtain ⟨l, hl, hsrc, hport, hdst⟩ := hnet _ _ _ hgraph.1
  exact ⟨l, hl, hsrc.symm, hport.symm, hdst.symm⟩

/-! ## The invariant -/

/-- A report of this kind about one of the two directions is still to be made in this pass. -/
def ToReport (s : LinkState) (l : Link) (down : Bool) : Prop :=
  (l, down) ∈ pendingOf s.watchdog.w.phase ∨ (l.reverse, down) ∈ pendingOf s.watchdog.w.phase

instance (s : LinkState) (l : Link) (down : Bool) : Decidable (ToReport s l down) :=
  inferInstanceAs (Decidable (_ ∨ _))

structure LinkInv (dl : DeclaredLinks) (s : LinkState) : Prop where
  watchdog : WatchdogInv s.watchdog
  entries : ∀ l e, s.watchdog.w.linkBeacons.lookup l = some e → l ∈ dl.links
  net : NetDeclared dl s.net
  replies : ∀ reply ∈ s.replies, ∀ x ∈ reply, ∃ l ∈ dl.links, Lists l x
  loaded : Loaded dl.links s.graph
  /-- An edge that is up where the proxy believes a failure waits for a failure report. -/
  lowered : ∀ l ∈ dl.links, edgeUp s.graph l = true → SourceDown s l → ToReport s l true
  /-- Once a reply was applied, an edge that is down where the proxy lists the link waits for a
      recovery report. -/
  raised : s.polled = true → ∀ l ∈ dl.links, ListedIn s.answer l →
    edgeUp s.graph l = true ∨ ToReport s l false

/-- In a settled state no report is outstanding. -/
theorem not_toReport_of_settled {dl : DeclaredLinks} {s : LinkState} (h : LinkInv dl s)
    (hsettled : s.Settled) (l : Link) (down : Bool) : ¬ ToReport s l down := by
  -- what is still to be reported is not acknowledged
  have hpending : Pending s.watchdog (pendingOf s.watchdog.w.phase) := by
    have hp := h.watchdog.phase
    unfold PhaseOk at hp
    split at hp
    · next hphase => rw [hphase]; exact nofun
    · next hphase => rw [hphase]; exact hp.2.1
    · next hphase => rw [hphase]; exact hp.2.2.2.1
  have hnone : ∀ m, (m, down) ∉ pendingOf s.watchdog.w.phase := by
    intro m hm
    obtain ⟨e, he, hpair⟩ := Option.map_eq_some_iff.mp (hpending _ hm)
    have hacked := hsettled.1 m e he
    rw [(Prod.mk.inj hpair).2] at hacked
    exact nomatch hacked
  intro hreport
  exact hreport.elim (hnone l) (hnone l.reverse)

/-- With the invariant, a settled state agrees on every link that the proxy knows of. -/
theorem agree_of_settled {dl : DeclaredLinks} {s : LinkState} (h : LinkInv dl s)
    (hsettled : s.Settled) {l : Link} (hl : l ∈ dl.links)
    (hknown : InGraph s.net l ∨ SourceDown s l) :
    edgeUp s.graph l = true ↔ ¬ SourceDown s l := by
  constructor
  · intro hup hdown
    exact not_toReport_of_settled h hsettled l true (h.lowered l hl hup hdown)
  · intro hnot
    have hlisted : ListedIn s.answer l :=
      (listedIn_answer s l).mpr ⟨hknown.resolve_right hnot, hnot⟩
    exact (h.raised hsettled.2 l hl hlisted).resolve_right
      (not_toReport_of_settled h hsettled l false)

/-! ## Steps of the proxy -/

/-- No link becomes down; one that was not watched may become watched. -/
def DownKept (m m' : AssocMap Link LinkEntry) : Prop :=
  ∀ l, downOf m' l = downOf m l ∨ (downOf m l = none ∧ downOf m' l = some false)

theorem downKept_of_beliefsKept {m m' : AssocMap Link LinkEntry} (h : BeliefsKept m m') :
    DownKept m m' := by
  have hdown : ∀ (m : AssocMap Link LinkEntry) l, downOf m l = (beliefOf m l).map Prod.fst := by
    intro m l
    unfold downOf beliefOf
    rw [Option.map_map]
    rfl
  intro l
  rw [hdown, hdown]
  rcases h l with heq | ⟨hnone, hnew⟩
  · exact Or.inl (by rw [heq])
  · exact Or.inr ⟨by rw [hnone]; rfl, by rw [hnew]; rfl⟩

theorem downOf_acknowledge (w : LinkWatchdog) (link : Link) (down : Bool) (l : Link) :
    downOf (w.acknowledge link down).linkBeacons l = downOf w.linkBeacons l := by
  unfold LinkWatchdog.acknowledge
  split
  · rfl
  · next e he =>
    split
    · unfold downOf
      rw [AssocMap.lookup_set]
      split
      · next heq => rw [heq, he]; rfl
      · rfl
    · rfl

theorem sourceDown_of_downKept {dl : DeclaredLinks} {s s' : LinkState}
    (hkept : DownKept s.watchdog.w.linkBeacons s'.watchdog.w.linkBeacons)
    (hentries : ∀ l e, s.watchdog.w.linkBeacons.lookup l = some e → l ∈ dl.links)
    (hentries' : ∀ l e, s'.watchdog.w.linkBeacons.lookup l = some e → l ∈ dl.links) {l : Link}
    (hl : l ∈ dl.links) (h : SourceDown s' l) : SourceDown s l := by
  rw [sourceDown_iff dl hentries' hl] at h
  rw [sourceDown_iff dl hentries hl]
  have hdown : ∀ m, downOf s'.watchdog.w.linkBeacons m = some true →
      downOf s.watchdog.w.linkBeacons m = some true := by
    intro m hm
    rcases hkept m with heq | ⟨-, hnew⟩
    · exact heq ▸ hm
    · rw [hnew] at hm
      exact nomatch hm
  rcases h with hown | ⟨hrev, hnone⟩
  · exact Or.inl (hdown l hown)
  · refine Or.inr ⟨hdown _ hrev, ?_⟩
    rcases hkept l with heq | ⟨hbefore, -⟩
    · exact heq ▸ hnone
    · exact hbefore

/-- A step of the proxy keeps the invariant when it keeps the reports to come, and leaves an edge
    up at a source that is down only with a failure report to come. -/
theorem proxyStep_inv {dl : DeclaredLinks} {s s' : LinkState} (h : LinkInv dl s)
    (hwatchdog : WatchdogInv s'.watchdog)
    (hentries : ∀ l e, s'.watchdog.w.linkBeacons.lookup l = some e → l ∈ dl.links)
    (hnet : NetDeclared dl s'.net) (hreplies : s'.replies = s.replies)
    (hgraph : s'.graph = s.graph)
    (hlow : ∀ l ∈ dl.links, edgeUp s.graph l = true → SourceDown s' l → ToReport s' l true)
    (hrec : ∀ l, ToReport s l false → ToReport s' l false) : LinkInv dl (s.proxyStep s') where
  watchdog := hwatchdog
  entries := hentries
  net := hnet
  replies := by
    show ∀ reply ∈ s'.replies, _
    rw [hreplies]
    exact h.replies
  loaded := by
    show Loaded dl.links s'.graph
    rw [hgraph]
    exact h.loaded
  lowered := by
    intro l hl hup hdown
    have hup' : edgeUp s.graph l = true := hgraph ▸ hup
    exact hlow l hl hup' hdown
  raised := by
    intro hpolled l hl hlisted
    -- nothing that would be listed has changed
    obtain ⟨hpolled, hanswer⟩ : s.polled = true ∧ s'.answer = s.answer := by
      simpa [proxyStep] using hpolled
    have hlisted' : ListedIn s'.answer l := hlisted
    rw [hanswer] at hlisted'
    have hbefore := h.raised hpolled l hl hlisted'
    show edgeUp s'.graph l = true ∨ ToReport s' l false
    rw [hgraph]
    exact hbefore.imp_right (hrec l)

/-- The special case in which no link becomes down and the phase only moves between two points
    of a pass. -/
theorem proxyStep_inv_of_downKept {dl : DeclaredLinks} {s s' : LinkState} (h : LinkInv dl s)
    (hwatchdog : WatchdogInv s'.watchdog)
    (hentries : ∀ l e, s'.watchdog.w.linkBeacons.lookup l = some e → l ∈ dl.links)
    (hnet : NetDeclared dl s'.net) (hreplies : s'.replies = s.replies)
    (hgraph : s'.graph = s.graph)
    (hkept : DownKept s.watchdog.w.linkBeacons s'.watchdog.w.linkBeacons)
    (hpending : pendingOf s'.watchdog.w.phase = pendingOf s.watchdog.w.phase) :
    LinkInv dl (s.proxyStep s') := by
  have hreport : ∀ l b, ToReport s l b → ToReport s' l b := by
    intro l b hb
    unfold ToReport
    rw [hpending]
    exact hb
  refine proxyStep_inv h hwatchdog hentries hnet hreplies hgraph ?_ fun l => hreport l false
  intro l hl hup hdown
  exact hreport l true (h.lowered l hl hup (sourceDown_of_downKept hkept h.entries hentries hl hdown))

/-- Beacons come in over declared links, and the links that are seeded are declared. -/
def Wired (dl : DeclaredLinks) : Event → Prop
  | .packetIn _ deviceId ingressPort (some (srcDpid, srcPort)) =>
    srcDpid ≠ deviceId → ⟨srcDpid, srcPort, deviceId, ingressPort⟩ ∈ dl.links
  | .seed _ links => ∀ l ∈ links, l ∈ dl.links
  | _ => True

instance (dl : DeclaredLinks) : ∀ e, Decidable (Wired dl e)
  | .packetIn _ _ _ (some (_, _)) => inferInstanceAs (Decidable (_ → _))
  | .packetIn _ _ _ none => isTrue trivial
  | .seed _ links => inferInstanceAs (Decidable (∀ l ∈ links, l ∈ dl.links))
  | .addSwitch _ | .beginPass _ | .report | .acknowledge | .endPass | .makeReply | .applyReply =>
    isTrue trivial

/-- A beacon enters at most its own link. -/
theorem lookup_handlePacketIn {w : LinkWatchdog} {now deviceId ingressPort : Int}
    {lldpInfo : Option (Int × Int)} {l : Link} {e : LinkEntry}
    (h : (w.handlePacketIn now deviceId ingressPort lldpInfo).linkBeacons.lookup l = some e) :
    (∃ e₀, w.linkBeacons.lookup l = some e₀) ∨
      ∃ src port, lldpInfo = some (src, port) ∧ src ≠ deviceId ∧
        l = ⟨src, port, deviceId, ingressPort⟩ := by
  unfold LinkWatchdog.handlePacketIn at h
  dsimp only at h
  split at h
  · exact Or.inl ⟨e, h⟩
  · next src port =>
    split at h
    · exact Or.inl ⟨e, h⟩
    · next hne =>
      rw [AssocMap.lookup_set] at h
      split at h
      · next heq => exact Or.inr ⟨src, port, rfl, hne, heq⟩
      · exact Or.inl ⟨e, h⟩

theorem lookup_seedExpectedLinks {now : Int} {links : List Link} {w : LinkWatchdog} {l : Link}
    {e : LinkEntry} (h : (w.seedExpectedLinks now links).linkBeacons.lookup l = some e) :
    (∃ e₀, w.linkBeacons.lookup l = some e₀) ∨ l ∈ links := by
  induction links generalizing w with
  | nil => exact Or.inl ⟨e, h⟩
  | cons link links ih =>
    unfold LinkWatchdog.seedExpectedLinks at h
    rw [List.foldl_cons] at h
    split at h
    · exact (ih h).imp_right (List.mem_cons_of_mem link)
    · rcases ih h with ⟨e₀, he₀⟩ | hmem
      · rw [AssocMap.lookup_set] at he₀
        split at he₀
        · next heq => exact Or.inr (heq ▸ List.mem_cons_self)
        · exact Or.inl ⟨e₀, he₀⟩
      · exact Or.inr (List.mem_cons_of_mem link hmem)

/-- Adding an end of an edge to the nodes leaves the edges. -/
@[simp] theorem edges_touchNode (net : NetGraph) (n : NetNode) :
    (net.touchNode n).edges = net.edges := by
  unfold NetGraph.touchNode
  split <;> rfl

theorem lookup_addEdge (net : NetGraph) (u v : NetNode) (port : Int) (k : NetNode × NetNode) :
    (net.addEdge u v port).edges.lookup k = if k = (u, v) then some port else net.edges.lookup k := by
  unfold NetGraph.addEdge
  simp only [AssocMap.lookup_set, edges_touchNode]

theorem netDeclared_discoverLink {dl : DeclaredLinks} {net : NetGraph} (h : NetDeclared dl net)
    {now deviceId ingressPort : Int} {lldpInfo : Option (Int × Int)}
    (hwired : Wired dl (.packetIn now deviceId ingressPort lldpInfo)) :
    NetDeclared dl (discoverLink net deviceId ingressPort lldpInfo) := by
  unfold discoverLink
  split
  · exact h
  · next src port =>
    split
    · exact h
    · next hne =>
      have hmem : ⟨src, port, deviceId, ingressPort⟩ ∈ dl.links := hwired hne
      split
      · exact h
      · intro a b p hlookup
        unfold NetGraph.addLink at hlookup
        rw [lookup_addEdge, lookup_addEdge] at hlookup
        split at hlookup
        · next hkey =>
          -- the far end of the new link
          obtain ⟨rfl, rfl⟩ : a = deviceId ∧ b = src := by simpa using hkey
          exact ⟨_, dl.reverse_mem _ hmem, rfl, Option.some.inj hlookup, rfl⟩
        · split at hlookup
          · next hkey =>
            obtain ⟨rfl, rfl⟩ : a = src ∧ b = deviceId := by simpa using hkey
            exact ⟨_, hmem, rfl, Option.some.inj hlookup, rfl⟩
          · exact h a b p hlookup

/-- The topology manager does to its graph and its watchdog what is modelled here. -/
theorem linkView_handlePacketIn (shortestPath : ShortestPath) (m : TopologyManager)
    (p : PacketIn) :
    linkView (m.handlePacketIn shortestPath p) =
      (m.watchdog.handlePacketIn p.now p.deviceId p.ingressPort p.lldpInfo,
        discoverLink m.net p.deviceId p.ingressPort p.lldpInfo) := by
  unfold TopologyManager.handlePacketIn discoverLink
  cases p.lldpInfo with
  | none => rfl
  | some info =>
    dsimp only
    split
    · rfl
    · split
      · rfl
      · rw [linkView_installInitialRoutes]
        rfl

theorem packetIn_inv {dl : DeclaredLinks} {s : LinkState} (h : LinkInv dl s)
    {now deviceId ingressPort : Int} {lldpInfo : Option (Int × Int)}
    (hwired : Wired dl (.packetIn now deviceId ingressPort lldpInfo)) :
    LinkInv dl (s.step (.packetIn now deviceId ingressPort lldpInfo)) := by
  obtain ⟨hkept, hphase⟩ :=
    handlePacketIn_beliefs s.watchdog.w now deviceId ingressPort lldpInfo
  have hwatchdog := inv_watchdog_step s.watchdog (.packetIn now deviceId ingressPort lldpInfo) _
    rfl h.watchdog
  refine proxyStep_inv_of_downKept h hwatchdog ?_
    (netDeclared_discoverLink h.net hwired) rfl rfl (downKept_of_beliefsKept hkept) (by rw [hphase])
  intro l e hl
  rcases lookup_handlePacketIn hl with ⟨e₀, he₀⟩ | ⟨src, port, rfl, hne, rfl⟩
  · exact h.entries l e₀ he₀
  · exact hwired hne

theorem seed_inv {dl : DeclaredLinks} {s : LinkState} (h : LinkInv dl s) {now : Int}
    {links : List Link} (hwired : Wired dl (.seed now links)) :
    LinkInv dl (s.step (.seed now links)) := by
  obtain ⟨hkept, hphase⟩ := seedExpectedLinks_beliefs now links s.watchdog.w
  have hwatchdog := inv_watchdog_step s.watchdog (.seed now links) _ rfl h.watchdog
  refine proxyStep_inv_of_downKept h hwatchdog ?_ h.net rfl rfl (downKept_of_beliefsKept hkept)
    (by rw [hphase])
  intro l e hl
  rcases lookup_seedExpectedLinks hl with ⟨e₀, he₀⟩ | hmem
  · exact h.entries l e₀ he₀
  · exact hwired l hmem

theorem addSwitch_inv {dl : DeclaredLinks} {s : LinkState} (h : LinkInv dl s) (dpid : Int) :
    LinkInv dl (s.step (.addSwitch dpid)) :=
  proxyStep_inv_of_downKept h h.watchdog h.entries h.net rfl rfl (fun _ => Or.inl rfl) rfl

/-- A link that a pass finds down was down before, or its failure is reported in this pass. -/
theorem downOf_beginPass {w : LinkWatchdog} {now : Int} {l : Link}
    (h : downOf (w.beginPass now).linkBeacons l = some true) :
    downOf w.linkBeacons l = some true ∨ (l, true) ∈ pendingOf (w.beginPass now).phase := by
  have hlookup : (w.beginPass now).linkBeacons.lookup l =
      (w.linkBeacons.lookup l).map (w.refresh now) := AssocMap.lookup_mapVals _ _ _
  obtain ⟨e', he', hdown⟩ := Option.map_eq_some_iff.mp h
  rw [hlookup] at he'
  obtain ⟨e, he, rfl⟩ := Option.map_eq_some_iff.mp he'
  rcases refresh_cases w now e with hsame | hnew
  · rw [hsame] at hdown
    exact Or.inl (by rw [downOf, he, Option.map_some, hdown])
  · refine Or.inr (mem_unackedOf.mpr ?_)
    have hlookup' : (w.beginPass now).linkBeacons.lookup l = some (w.refresh now e) := by
      rw [hlookup, he, Option.map_some]
    unfold beliefOf
    rw [show (w.linkBeacons.mapVals fun _ entry => w.refresh now entry) =
      (w.beginPass now).linkBeacons from rfl, hlookup', Option.map_some, hdown, hnew]

theorem beginPass_inv {dl : DeclaredLinks} {s : LinkState} (h : LinkInv dl s) (now : Int) :
    LinkInv dl (s.step (.beginPass now)) := by
  show LinkInv dl (s.onWatchdog (.beginPass now))
  unfold LinkState.onWatchdog
  split
  · next watchdog hstep =>
    have hwatchdog := inv_watchdog_step _ _ _ hstep h.watchdog
    simp only [WatchdogSystem.step] at hstep
    split at hstep
    · next hidle =>
      obtain rfl := Option.some.inj hstep
      have hnone : ∀ l b, ¬ ToReport s l b := by
        intro l b hb
        unfold ToReport at hb
        rw [hidle] at hb
        exact hb.elim (fun hmem => by cases hmem) (fun hmem => by cases hmem)
      have hlookup : ∀ l, (s.watchdog.w.beginPass now).linkBeacons.lookup l =
          (s.watchdog.w.linkBeacons.lookup l).map (s.watchdog.w.refresh now) :=
        fun l => AssocMap.lookup_mapVals _ _ _
      have hentries : ∀ l e, (s.watchdog.w.beginPass now).linkBeacons.lookup l = some e →
          l ∈ dl.links := by
        intro l e hl
        rw [hlookup] at hl
        obtain ⟨e₀, he₀, -⟩ := Option.map_eq_some_iff.mp hl
        exact h.entries l e₀ he₀
      refine proxyStep_inv h hwatchdog hentries h.net rfl rfl ?_
        fun l hl => absurd hl (hnone l false)
      -- between passes no edge is up at a source that is down, so the belief is new
      intro l hl hup hdown
      have hbefore : ¬ SourceDown s l := fun hd => hnone l true (h.lowered l hl hup hd)
      rw [sourceDown_iff dl h.entries hl] at hbefore
      rw [sourceDown_iff dl hentries hl] at hdown
      rcases hdown with hown | ⟨hrev, hunwatched⟩
      · exact Or.inl ((downOf_beginPass hown).resolve_left fun hd => hbefore (Or.inl hd))
      · have hunwatched' : downOf s.watchdog.w.linkBeacons l = none := by
          unfold downOf at hunwatched ⊢
          rw [hlookup, Option.map_map, Option.map_eq_none_iff] at hunwatched
          rw [hunwatched]
          rfl
        exact Or.inr ((downOf_beginPass hrev).resolve_left fun hd =>
          hbefore (Or.inr ⟨hd, hunwatched'⟩))
    · cases hstep
  · exact h

theorem acknowledge_inv {dl : DeclaredLinks} {s : LinkState} (h : LinkInv dl s) :
    LinkInv dl (s.step .acknowledge) := by
  show LinkInv dl (s.onWatchdog .acknowledge)
  unfold LinkState.onWatchdog
  split
  · next watchdog hstep =>
    have hwatchdog := inv_watchdog_step _ _ _ hstep h.watchdog
    simp only [WatchdogSystem.step] at hstep
    split at hstep
    · next link down todo result hphase =>
      obtain rfl := Option.some.inj hstep
      have hdown := downOf_acknowledge s.watchdog.w link down
      refine proxyStep_inv_of_downKept h hwatchdog ?_ h.net rfl rfl (fun l => Or.inl (hdown l))
        (by rw [hphase]; rfl)
      -- acknowledging adds no entry
      intro l e hl
      have hsome : downOf (s.watchdog.w.acknowledge link down).linkBeacons l = some e.down := by
        rw [downOf]
        exact congrArg (Option.map LinkEntry.down) hl
      rw [hdown] at hsome
      obtain ⟨e₀, he₀, -⟩ := Option.map_eq_some_iff.mp hsome
      exact h.entries l e₀ he₀
    · cases hstep
  · exact h

theorem endPass_inv {dl : DeclaredLinks} {s : LinkState} (h : LinkInv dl s) :
    LinkInv dl (s.step .endPass) := by
  show LinkInv dl (s.onWatchdog .endPass)
  unfold LinkState.onWatchdog
  split
  · next watchdog hstep =>
    have hwatchdog := inv_watchdog_step _ _ _ hstep h.watchdog
    simp only [WatchdogSystem.step] at hstep
    split at hstep
    · next result hphase =>
      obtain rfl := Option.some.inj hstep
      exact proxyStep_inv_of_downKept h hwatchdog h.entries h.net rfl rfl (fun _ => Or.inl rfl)
        (by rw [hphase]; rfl)
    · cases hstep
  · exact h

/-! ## Steps of the kernel -/

/-- A report writes both directions and must not undo what stays: a failure report lowers the
    reverse direction too, so a reply must still come for it when the proxy goes on listing it;
    a recovery report raises the reverse direction too, so that one must not be down, or its
    failure must still be reported. -/
def ReportOrderly (s : LinkState) : WatchdogPhase → Prop
  | .reporting ((link, true) :: _) _ => s.polled = true → ¬ ListedIn s.answer link.reverse
  | .reporting ((link, false) :: todo) _ =>
    SourceDown s link.reverse → (link.reverse, true) ∈ todo
  | _ => True

instance (s : LinkState) : ∀ phase, Decidable (ReportOrderly s phase)
  | .reporting ((_, true) :: _) _ => inferInstanceAs (Decidable (_ → _))
  | .reporting ((_, false) :: _) _ => inferInstanceAs (Decidable (_ → _))
  | .reporting [] _ | .idle | .acking _ _ _ _ => isTrue trivial

/-- The reply to be applied lists no source that is down by now, unless its failure is still to
    be reported, and leaves no link down that the proxy would list, unless its recovery is still
    to be reported. -/
def ReplyOrderly (dl : DeclaredLinks) (s : LinkState) : List (List Link) → Prop
  | [] => True
  | reply :: _ =>
    (∀ l ∈ dl.links, ListedIn reply l → SourceDown s l → ToReport s l true) ∧
      ∀ l ∈ dl.links, ListedIn s.answer l →
        edgeUp s.graph l = true ∨ ListedIn reply l ∨ ToReport s l false

instance (dl : DeclaredLinks) (s : LinkState) : ∀ replies, Decidable (ReplyOrderly dl s replies)
  | [] => isTrue trivial
  | _ :: _ => inferInstanceAs (Decidable (_ ∧ _))

/-- The step of the kernel, if it is one, undoes nothing that stays. -/
def Orderly (dl : DeclaredLinks) (s : LinkState) : Event → Prop
  | .report => ReportOrderly s s.watchdog.w.phase
  | .applyReply => ReplyOrderly dl s s.replies
  | _ => True

instance (dl : DeclaredLinks) (s : LinkState) : ∀ e, Decidable (Orderly dl s e)
  | .report => inferInstanceAs (Decidable (ReportOrderly _ _))
  | .applyReply => inferInstanceAs (Decidable (ReplyOrderly _ _ _))
  | .addSwitch _ | .packetIn _ _ _ _ | .seed _ _ | .beginPass _ | .acknowledge | .endPass
  | .makeReply => isTrue trivial

/-- The state after a report about a declared link. -/
theorem step_report_eq {dl : DeclaredLinks} {s : LinkState} (h : LinkInv dl s) {link : Link}
    {down : Bool} {todo : List (Link × Bool)} {result : PassResult}
    (hphase : s.watchdog.w.phase = .reporting ((link, down) :: todo) result)
    (hlink : link ∈ dl.links) :
    ∃ watchdog, s.watchdog.step (.answer true) = some watchdog ∧
      s.step .report =
        { s with graph := (handleReport link down s.graph).2, watchdog := watchdog } ∧
      watchdog.w.linkBeacons = s.watchdog.w.linkBeacons ∧
      pendingOf watchdog.w.phase = todo := by
  obtain ⟨hok, -, -⟩ := handleReport_spec dl h.loaded hlink down
  have hstep : ∃ watchdog, s.watchdog.step (.answer true) = some watchdog ∧
      watchdog.w.linkBeacons = s.watchdog.w.linkBeacons ∧ pendingOf watchdog.w.phase = todo := by
    unfold WatchdogSystem.step
    simp only [hphase]
    exact ⟨_, rfl, rfl, rfl⟩
  obtain ⟨watchdog, hanswer, hbeacons, hpending⟩ := hstep
  refine ⟨watchdog, hanswer, ?_, hbeacons, hpending⟩
  unfold LinkState.step
  simp only [hphase, hok, decide_true]
  unfold LinkState.onWatchdog
  simp only [hanswer, LinkState.proxyStep]
  have hsame : LinkState.answer { s with
      graph := (handleReport link down s.graph).2, watchdog := watchdog } =
      LinkState.answer { s with graph := (handleReport link down s.graph).2 } := by
    unfold LinkState.answer LinkState.down
    simp only [hbeacons]
  -- Of the watchdog the answer reads the beacons only, and a report leaves these as they are.
  rw [hsame]
  simp

theorem report_inv {dl : DeclaredLinks} {s : LinkState} (h : LinkInv dl s)
    (horderly : Orderly dl s .report) : LinkInv dl (s.step .report) := by
  cases hphase : s.watchdog.w.phase with
  | idle =>
    have hstep : s.step .report = s := by simp only [LinkState.step, hphase]
    rw [hstep]
    exact h
  | acking link down todo result =>
    have hstep : s.step .report = s := by simp only [LinkState.step, hphase]
    rw [hstep]
    exact h
  | reporting todo result =>
    cases todo with
    | nil =>
      have hstep : s.step .report = s := by simp only [LinkState.step, hphase]
      rw [hstep]
      exact h
    | cons head todo =>
      obtain ⟨link, down⟩ := head
      -- the belief that is reported stands, and the link is declared
      have hbelief : beliefOf s.watchdog.w.linkBeacons link = some (down, false) := by
        have hp := h.watchdog.phase
        unfold PhaseOk at hp
        rw [hphase] at hp
        exact hp.2.1 (link, down) List.mem_cons_self
      obtain ⟨e, he, hpair⟩ := Option.map_eq_some_iff.mp hbelief
      have hlink : link ∈ dl.links := h.entries link e he
      have hdownOf : downOf s.watchdog.w.linkBeacons link = some down := by
        rw [downOf, he, Option.map_some, (Prod.mk.inj hpair).1]
      obtain ⟨watchdog, hanswer, hstep, hbeacons, hpending⟩ := step_report_eq h hphase hlink
      obtain ⟨-, hloaded, hedge⟩ := handleReport_spec dl h.loaded hlink down
      have hsource : ∀ l, SourceDown (s.step .report) l ↔ SourceDown s l := by
        intro l
        unfold SourceDown LinkState.down
        rw [hstep]
        simp only [hbeacons]
      have hlisted : (s.step .report).answer = s.answer := by
        unfold LinkState.answer LinkState.down
        rw [hstep]
        simp only [hbeacons]
      -- a report that is still to come is the one just made, or one of the others
      have hreport : ∀ l b, ToReport s l b → (b = down ∧ (l = link ∨ l = link.reverse)) ∨
          ToReport (s.step .report) l b := by
        intro l b hb
        unfold ToReport at hb ⊢
        rw [hstep]
        simp only [hpending]
        rw [hphase] at hb
        simp only [pendingOf, List.mem_cons, Prod.mk.injEq] at hb
        rcases hb with (⟨hl, hb⟩ | hmem) | (⟨hl, hb⟩ | hmem)
        · exact Or.inl ⟨hb, Or.inl hl⟩
        · exact Or.inr (Or.inl hmem)
        · exact Or.inl ⟨hb, Or.inr (by rw [← hl, reverse_reverse])⟩
        · exact Or.inr (Or.inr hmem)
      have hgraph : (s.step .report).graph = (handleReport link down s.graph).2 := by rw [hstep]
      have hpolled : (s.step .report).polled = s.polled := by rw [hstep]
      refine
        { watchdog := ?_, entries := ?_, net := ?_, replies := ?_, loaded := ?_, lowered := ?_,
          raised := ?_ }
      · rw [hstep]
        exact inv_watchdog_step _ _ _ hanswer h.watchdog
      · rw [hstep]
        simp only [hbeacons]
        exact h.entries
      · rw [hstep]
        exact h.net
      · rw [hstep]
        exact h.replies
      · rw [hgraph]
        exact hloaded
      · intro l hl hup hdown
        rw [hsource] at hdown
        rw [hgraph, hedge l hl] at hup
        split at hup
        · next hpairlink =>
          -- only a recovery raises an edge, and the reverse of it must be in order
          obtain rfl : down = false := by simpa using hup
          rcases hpairlink with rfl | rfl
          · rw [sourceDown_iff dl h.entries hl, hdownOf] at hdown
            rcases hdown with hown | ⟨-, hnone⟩
            · cases hown
            · cases hnone
          · have hmem : (link.reverse, true) ∈ todo := by
              have horder : SourceDown s link.reverse → (link.reverse, true) ∈ todo := by
                simpa only [Orderly, hphase, ReportOrderly] using horderly
              exact horder hdown
            left
            rw [hstep]
            simp only [hpending]
            exact hmem
        · next hother =>
          exact (hreport l true (h.lowered l hl hup hdown)).resolve_left fun hmade =>
            hother hmade.2
      · intro hpoll l hl hlist
        rw [hpolled] at hpoll
        rw [hlisted] at hlist
        rw [hgraph, hedge l hl]
        by_cases hpairlink : l = link ∨ l = link.reverse
        · rw [if_pos hpairlink]
          cases down with
          | false => exact Or.inl rfl
          | true =>
            -- a failure lowers both, and neither of them may be listed after a poll
            exfalso
            rcases hpairlink with rfl | rfl
            · have hnot := ((listedIn_answer s l).mp hlist).2
              exact hnot ((sourceDown_iff dl h.entries hl).mpr (Or.inl hdownOf))
            · have horder : s.polled = true → ¬ ListedIn s.answer link.reverse := by
                simpa only [Orderly, hphase, ReportOrderly] using horderly
              exact horder hpoll hlist
        · rw [if_neg hpairlink]
          exact (h.raised hpoll l hl hlist).imp_right fun hb =>
            (hreport l false hb).resolve_left fun hmade => hpairlink hmade.2

theorem applyReply_inv {dl : DeclaredLinks} {s : LinkState} (h : LinkInv dl s)
    (horderly : Orderly dl s .applyReply) : LinkInv dl (s.step .applyReply) := by
  cases hreplies : s.replies with
  | nil =>
    have hstep : s.step .applyReply = s := by simp only [LinkState.step, hreplies]
    rw [hstep]
    exact h
  | cons reply replies =>
    have hstep : s.step .applyReply = { s with
        replies := replies
        graph := TopologyMonitor.updateLinks (.parsed (renderLinks reply)) s.graph
        polled := true } := by
      simp only [LinkState.step, hreplies]
    have hdeclared := h.replies
    rw [hreplies] at hdeclared
    obtain ⟨hloaded, hedge⟩ :=
      updateLinks_spec dl h.loaded (hdeclared reply List.mem_cons_self)
    obtain ⟨hfresh, hcomplete⟩ : (∀ l ∈ dl.links, ListedIn reply l → SourceDown s l →
        ToReport s l true) ∧ ∀ l ∈ dl.links, ListedIn s.answer l →
          edgeUp s.graph l = true ∨ ListedIn reply l ∨ ToReport s l false := by
      simpa only [Orderly, hreplies, ReplyOrderly] using horderly
    rw [hstep]
    refine
      { watchdog := h.watchdog, entries := h.entries, net := h.net
        replies := fun r hr => hdeclared r (List.mem_cons_of_mem reply hr), loaded := hloaded
        lowered := ?_, raised := ?_ }
    · -- an edge raised by this reply was listed when the link was already down
      intro l hl hup hdown
      rcases (hedge l hl).mp hup with hbefore | hlist
      · exact h.lowered l hl hbefore hdown
      · exact hfresh l hl hlist hdown
    · intro _ l hl hlist
      rcases hcomplete l hl hlist with hbefore | hraised | hreport
      · exact Or.inl ((hedge l hl).mpr (Or.inl hbefore))
      · exact Or.inl ((hedge l hl).mpr (Or.inr hraised))
      · exact Or.inr hreport

theorem makeReply_inv {dl : DeclaredLinks} {s : LinkState} (h : LinkInv dl s) :
    LinkInv dl (s.step .makeReply) := by
  refine
    { watchdog := h.watchdog, entries := h.entries, net := h.net, replies := ?_
      loaded := h.loaded, lowered := h.lowered, raised := h.raised }
  intro reply hreply
  rcases List.mem_append.mp hreply with hold | hnew
  · exact h.replies reply hold
  · obtain rfl := List.mem_singleton.mp hnew
    exact fun x hx => declared_of_mem_answer h.net hx

/-- Every orderly step keeps the invariant. -/
theorem linkInv_step (dl : DeclaredLinks) (s : LinkState) (e : Event) (h : LinkInv dl s)
    (hok : Wired dl e ∧ Orderly dl s e) : LinkInv dl (s.step e) := by
  cases e with
  | addSwitch dpid => exact addSwitch_inv h dpid
  | packetIn now deviceId ingressPort lldpInfo => exact packetIn_inv h hok.1
  | seed now links => exact seed_inv h hok.1
  | beginPass now => exact beginPass_inv h now
  | report => exact report_inv h hok.2
  | acknowledge => exact acknowledge_inv h
  | endPass => exact endPass_inv h
  | makeReply => exact makeReply_inv h
  | applyReply => exact applyReply_inv h hok.2

/-- What holds when both processes start: the proxy knows no link between switches, and the
    kernel has loaded the declared links, all down. -/
structure AtStart (dl : DeclaredLinks) (net : NetGraph) (g : Graph) : Prop where
  net : ∀ a b, net.edges.lookup (.dpid a, .dpid b) = none
  loaded : Loaded dl.links g
  down : ∀ l ∈ dl.links, edgeUp g l = false

theorem linkInv_start {dl : DeclaredLinks} {net : NetGraph} {g : Graph} (h : AtStart dl net g)
    (beaconInterval : Int) : LinkInv dl (LinkState.start beaconInterval net g) where
  watchdog := inv_watchdog_init beaconInterval
  entries := fun _ _ hl => nomatch hl
  net := by
    intro a b p hp
    exact nomatch (h.net a b).symm.trans hp
  replies := fun _ hreply => nomatch hreply
  loaded := h.loaded
  lowered := by
    intro l hl hup
    exact nomatch (h.down l hl).symm.trans hup
  raised := fun hpolled => nomatch hpolled

/-- In every run whose beacons come over declared links and whose reports and replies are
    orderly, in every settled state, the kernel's edge for a link that the proxy knows of is up
    exactly when its source is not among the endpoints that the proxy believes are down. -/
theorem edges_match_beliefs (dl : DeclaredLinks) (net : NetGraph) (g : Graph)
    (hstart : AtStart dl net g) (beaconInterval : Int) (events : List Event)
    (hrun : GuardedRun.Guarded LinkState.step (fun s e => Wired dl e ∧ Orderly dl s e)
      (LinkState.start beaconInterval net g) events)
    (hsettled : (GuardedRun.run LinkState.step (LinkState.start beaconInterval net g)
      events).Settled) :
    let s := GuardedRun.run LinkState.step (LinkState.start beaconInterval net g) events
    ∀ l ∈ dl.links, InGraph s.net l ∨ (l.srcDpid, l.srcPort) ∈ s.down →
      (edgeUp s.graph l = true ↔ (l.srcDpid, l.srcPort) ∉ s.down) := by
  have hinv := GuardedRun.run_invariant (linkInv_step dl)
    (linkInv_start hstart beaconInterval) hrun
  intro s l hl hknown
  exact agree_of_settled hinv hsettled hl hknown

/-! ### Two switches -/

instance (s : LinkState) : Decidable s.Settled :=
  decidable_of_iff ((∀ p ∈ s.watchdog.w.linkBeacons.toPairs, p.2.acked = true) ∧ s.polled = true)
    (and_congr_left fun _ => by simp [AssocMap.mem_toPairs])

/-- One link between port 1 of switch 1 and port 2 of switch 2. -/
def oneLink : DeclaredLinks where
  links := [⟨1, 1, 2, 2⟩, ⟨2, 2, 1, 1⟩]
  reverse_mem := by decide
  endpoint_inj := by decide
  dpid_range := by decide
  port_range := by decide

/-- A switch and an edge as the loader makes them. -/
def loadedSwitch (dpid : UInt64) : VertexProperties where
  vertexType := .switch
  ip := []
  dpid := dpid
  isUp := false
  isEnabled := false

def loadedEdge (srcDpid : UInt64) (srcInterface : UInt32) (dstDpid : UInt64)
    (dstInterface : UInt32) : EdgeProperties where
  isUp := false
  isEnabled := false
  srcIp := []
  srcDpid := srcDpid
  srcInterface := srcInterface
  dstIp := []
  dstDpid := dstDpid
  dstInterface := dstInterface

def oneLinkGraph : Graph where
  vertices := [loadedSwitch 1, loadedSwitch 2]
  edges := [⟨⟨0, 1⟩, loadedEdge 1 1 2 2⟩, ⟨⟨1, 0⟩, loadedEdge 2 2 1 1⟩]
  inRange := by decide
  sorted := by decide

theorem oneLink_atStart : AtStart oneLink {} oneLinkGraph where
  net _ _ := rfl
  loaded := by decide +kernel
  down := by decide +kernel

/-- Both switches register, both directions are heard, and the kernel polls. -/
def bothHeard : List Event :=
  [.addSwitch 1, .addSwitch 2, .packetIn 0 2 2 (some (1, 1)), .packetIn 0 1 1 (some (2, 2)),
    .makeReply, .applyReply]

/-- Then the direction from 1 to 2 goes quiet and is reported, and the kernel polls again. -/
def oneWayFailure : List Event :=
  bothHeard ++ [.packetIn 10 1 1 (some (2, 2)), .beginPass 16, .report, .acknowledge, .endPass,
    .makeReply, .applyReply]

theorem oneWayFailure_agrees :
    let s := GuardedRun.run LinkState.step (LinkState.start 5 {} oneLinkGraph) oneWayFailure
    s.Settled ∧ edgeUp s.graph ⟨1, 1, 2, 2⟩ = false ∧ edgeUp s.graph ⟨2, 2, 1, 1⟩ = true ∧
      ∀ l ∈ oneLink.links, InGraph s.net l ∨ (l.srcDpid, l.srcPort) ∈ s.down →
        (edgeUp s.graph l = true ↔ (l.srcDpid, l.srcPort) ∉ s.down) := by
  have hsettled : (GuardedRun.run LinkState.step (LinkState.start 5 {} oneLinkGraph)
      oneWayFailure).Settled := by decide +kernel
  exact ⟨hsettled, by decide +kernel, by decide +kernel,
    edges_match_beliefs oneLink {} oneLinkGraph oneLink_atStart 5 oneWayFailure
      (by decide +kernel) hsettled⟩

/-- Both directions go quiet and are reported; then only the one from 1 to 2 is heard again. -/
def oneWayRecovery : List Event :=
  bothHeard ++ [.beginPass 16, .report, .acknowledge, .report, .acknowledge, .endPass,
    .packetIn 17 2 2 (some (1, 1)), .beginPass 18, .report, .acknowledge, .endPass,
    .makeReply, .applyReply]

/-- The recovery raises both edges, and no reply takes the one from 2 to 1 down again. -/
theorem oneWayRecovery_disagrees :
    ¬ ∀ (dl : DeclaredLinks) (net : NetGraph) (g : Graph), AtStart dl net g →
      ∀ (beaconInterval : Int) (events : List Event), (∀ e ∈ events, Wired dl e) →
        let s := GuardedRun.run LinkState.step (LinkState.start beaconInterval net g) events
        s.Settled → ∀ l ∈ dl.links, InGraph s.net l →
          (edgeUp s.graph l = true ↔ (l.srcDpid, l.srcPort) ∉ s.down) := by
  intro h
  have hagree := h oneLink {} oneLinkGraph oneLink_atStart 5 oneWayRecovery (by decide +kernel)
    (by decide +kernel) ⟨2, 2, 1, 1⟩ (by decide) (by decide +kernel)
  have hup : edgeUp (GuardedRun.run LinkState.step (LinkState.start 5 {} oneLinkGraph)
      oneWayRecovery).graph ⟨2, 2, 1, 1⟩ = true := by decide +kernel
  have hdown : ((2, 2) : Int × Int) ∈ (GuardedRun.run LinkState.step
      (LinkState.start 5 {} oneLinkGraph) oneWayRecovery).down := by decide +kernel
  exact hagree.mp hup hdown

end Ndtwin.Spec

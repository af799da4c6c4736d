import Ndtwin.ForStd.List
import Ndtwin.Kernel.TopologyMonitor

/-!
# The entries of a topology reply

A poll takes the entries of a reply one after the other and marks what each of them names. An
entry that cannot be used costs that entry, unless a field has an unexpected type: then the read
throws, and the handler of the whole function drops the rest of the reply.

What an entry marks is found by searches that do not look at what a poll writes, so it is fixed
by the entry and the graph before the poll (`EntryPlan`). The main result,
`update_one_by_one_iff`, says for which replies and graphs the poll does what its entries do one
by one.
-/

namespace Ndtwin.Spec

open Kernel Kernel.TopologyMonitor EState

variable {α : Type}

/-! ## Marks -/

/-- What a poll can mark as up and enabled. -/
inductive Mark where
  | vertex (v : Nat)
  | edge (e : EdgeDesc)
  deriving DecidableEq

namespace Mark

def write (g : Graph) : Mark → Graph
  | .vertex v => g.updateVertex v seenVertex
  | .edge e => g.updateEdge e seenEdge

/-- It is up and enabled. -/
def Seen (g : Graph) : Mark → Prop
  | .vertex v => ∀ p ∈ g.vertices[v]?, p.isUp = true ∧ p.isEnabled = true
  | .edge d => ∀ e ∈ g.edges, e.desc = d → e.props.isUp = true ∧ e.props.isEnabled = true

end Mark

theorem seenVertex_eq_iff (p : VertexProperties) :
    seenVertex p = p ↔ p.isUp = true ∧ p.isEnabled = true := by
  cases p
  simp [seenVertex, eq_comm]

theorem seenEdge_eq_iff (p : EdgeProperties) :
    seenEdge p = p ↔ p.isUp = true ∧ p.isEnabled = true := by
  cases p
  simp [seenEdge, eq_comm]

theorem graph_eq {g g' : Graph} (hv : g.vertices = g'.vertices) (he : g.edges = g'.edges) :
    g = g' := by
  cases g
  cases g'
  cases hv
  cases he
  rfl

theorem edges_updateEdge (g : Graph) (d : EdgeDesc) (f : EdgeProperties → EdgeProperties) :
    (g.updateEdge d f).edges =
      g.edges.map fun e => if e.desc = d then { e with props := f e.props } else e := by
  show g.edges.map _ = g.edges.map _
  simp only [decide_eq_true_eq]

/-- A mark is written once: from then on it changes nothing. -/
theorem Mark.write_eq_iff (g : Graph) (m : Mark) : m.write g = g ↔ m.Seen g := by
  cases m with
  -- the edges stay, so the vertices decide
  | vertex v =>
    have hedges : (Mark.write g (.vertex v)).edges = g.edges := rfl
    have hgraph : Mark.write g (.vertex v) = g ↔ (Mark.write g (.vertex v)).vertices = g.vertices :=
      ⟨fun h => by rw [h], fun h => graph_eq h hedges⟩
    rw [hgraph, List.ext_getElem?_iff]
    constructor
    · intro h p hp
      have hv := h v
      rw [Mark.write, Graph.getElem?_updateVertex, hp, Option.map_some, if_pos rfl] at hv
      exact (seenVertex_eq_iff p).mp (Option.some.inj hv)
    · intro h i
      rw [Mark.write, Graph.getElem?_updateVertex]
      cases hp : g.vertices[i]? with
      | none => rfl
      | some p =>
        rw [Option.map_some]
        split
        · rename_i hi
          subst hi
          rw [(seenVertex_eq_iff p).mpr (h p hp)]
        · rfl
  -- and the other way round
  | edge d =>
    have hvertices : (Mark.write g (.edge d)).vertices = g.vertices := rfl
    have hgraph : Mark.write g (.edge d) = g ↔ (Mark.write g (.edge d)).edges = g.edges :=
      ⟨fun h => by rw [h], fun h => graph_eq hvertices h⟩
    rw [hgraph, Mark.write, edges_updateEdge]
    constructor
    · intro h e he hd
      have hfix := List.map_eq_self_iff.mp h e he
      rw [if_pos hd] at hfix
      exact (seenEdge_eq_iff e.props).mp (congrArg Edge.props hfix)
    · intro h
      rw [List.map_eq_self_iff]
      intro e he
      split
      · rename_i hd
        rw [(seenEdge_eq_iff e.props).mpr (h e he hd)]
      · rfl

theorem Mark.seen_write (g : Graph) (m m' : Mark) :
    m'.Seen (m.write g) ↔ m'.Seen g ∨ m = m' := by
  cases m with
  | vertex v =>
    cases m' with
    | vertex w =>
      simp only [Mark.Seen, Mark.write]
      rw [Graph.getElem?_updateVertex, Mark.vertex.injEq]
      cases hp : g.vertices[w]? with
      | none => simp
      | some p =>
        -- a mark is for one vertex
        by_cases hwv : w = v
        · subst hwv
          simp [seenVertex]
        · simp [hwv, Ne.symm hwv]
    | edge d =>
      have hsame : Mark.Seen (Mark.write g (.vertex v)) (.edge d) ↔ Mark.Seen g (.edge d) := Iff.rfl
      rw [hsame, or_iff_left nofun]
  | edge d =>
    cases m' with
    | vertex w =>
      have hsame : Mark.Seen (Mark.write g (.edge d)) (.vertex w) ↔ Mark.Seen g (.vertex w) :=
        Iff.rfl
      rw [hsame, or_iff_left nofun]
    | edge d' =>
      simp only [Mark.Seen, Mark.write]
      rw [edges_updateEdge, List.forall_mem_map, Mark.edge.injEq]
      -- marking an edge leaves its endpoints, by which it is found
      have hdesc : ∀ e : Edge,
          (if e.desc = d then { e with props := seenEdge e.props } else e).desc = e.desc := by
        intro e
        split <;> rfl
      simp only [hdesc]
      by_cases hd : d = d'
      · subst hd
        refine iff_of_true (fun e _ he => ?_) (.inr rfl)
        rw [if_pos he]
        exact ⟨rfl, rfl⟩
      · rw [or_iff_left hd]
        refine forall₂_congr fun e _ => forall_congr' fun he => ?_
        rw [if_neg (he ▸ Ne.symm hd)]

/-- All marks of a list, one after the other. -/
def writeAll (marks : List Mark) (g : Graph) : Graph := marks.foldl Mark.write g

theorem seen_writeAll (marks : List Mark) (g : Graph) (m : Mark) :
    m.Seen (writeAll marks g) ↔ m.Seen g ∨ m ∈ marks := by
  unfold writeAll
  induction marks generalizing g with
  | nil => simp
  | cons m' marks ih =>
    rw [List.foldl_cons, ih, Mark.seen_write, List.mem_cons, or_assoc, eq_comm]

/-- Marks change nothing exactly if everything they mark is up and enabled. -/
theorem writeAll_eq_self_iff (marks : List Mark) (g : Graph) :
    writeAll marks g = g ↔ ∀ m ∈ marks, m.Seen g := by
  constructor
  · -- what was marked is up and enabled in the result, which is the graph itself
    intro h m hm
    have hseen := (seen_writeAll marks g m).mpr (.inr hm)
    rwa [h] at hseen
  · unfold writeAll
    induction marks with
    | nil => exact fun _ => rfl
    | cons m marks ih =>
      intro h
      obtain ⟨hm, hrest⟩ := List.forall_mem_cons.mp h
      rw [List.foldl_cons, (Mark.write_eq_iff g m).mpr hm]
      exact ih hrest

/-! ## What the searches look at -/

/-- The graph as if everything were up and enabled. -/
def statics (g : Graph) : List VertexProperties × List Edge :=
  (g.vertices.map seenVertex, g.edges.map fun e => { e with props := seenEdge e.props })

theorem statics_write (g : Graph) (m : Mark) : statics (m.write g) = statics g := by
  cases m with
  | vertex v =>
    refine Prod.ext (List.ext_getElem? fun i => ?_) rfl
    show ((Mark.write g (.vertex v)).vertices.map _)[i]? = (g.vertices.map _)[i]?
    rw [List.getElem?_map, List.getElem?_map, Mark.write, Graph.getElem?_updateVertex, Option.map_map]
    congr 1
    funext p
    simp only [Function.comp]
    split <;> rfl
  | edge d =>
    refine Prod.ext rfl ?_
    show (Mark.write g (.edge d)).edges.map _ = g.edges.map _
    rw [Mark.write, edges_updateEdge, List.map_map]
    refine List.map_congr_left fun e _ => ?_
    simp only [Function.comp]
    split <;> rfl

/-- A search that does not look at what a poll writes. -/
def Static (search : Graph → α) : Prop :=
  ∀ g g', statics g = statics g' → search g = search g'

theorem Static.map {β : Type} {search : Graph → Option α} (h : Static search) (f : α → β) :
    Static fun g => (search g).map f :=
  fun g g' hg => congrArg (Option.map f) (h g g' hg)

theorem Static.bind {β : Type} {search : Graph → Option α} {next : α → Graph → Option β}
    (h : Static search) (hnext : ∀ a, Static (next a)) :
    Static fun g => (search g).bind fun a => next a g := by
  intro g g' hg
  have hfirst : search g = search g' := h g g' hg
  show (search g).bind _ = (search g').bind _
  rw [hfirst]
  exact Option.bind_congr fun a _ => hnext a g g' hg

theorem static_findVertex {test : VertexProperties → Bool}
    (htest : ∀ p, test (seenVertex p) = test p) : Static fun g => g.findVertex test := by
  -- the test holds of a vertex as of the vertex marked up and enabled
  have hfind : ∀ g : Graph, g.findVertex test = (statics g).1.findIdx? test := by
    intro g
    rw [statics, List.findIdx?_map]
    unfold Graph.findVertex
    congr 1
    funext p
    exact (htest p).symm
  intro g g' h
  show g.findVertex test = g'.findVertex test
  rw [hfind, hfind, h]

theorem static_findEdge {test : EdgeProperties → Bool} (htest : ∀ p, test (seenEdge p) = test p) :
    Static fun g => g.findEdge test := by
  have hfind : ∀ g : Graph, g.findEdge test =
      ((statics g).2.find? fun e => test e.props).map Edge.desc := by
    intro g
    have hsame : ((fun e : Edge => test e.props) ∘
        fun e : Edge => { e with props := seenEdge e.props }) = fun e => test e.props := by
      funext e
      exact htest e.props
    rw [statics, List.find?_map, hsame, Option.map_map]
    rfl
  intro g g' h
  show g.findEdge test = g'.findEdge test
  rw [hfind, hfind, h]

/-- The first address of a vertex; 0 if it has none. -/
def firstAddress (g : Graph) (v : Nat) : UInt32 :=
  ((g.vertices[v]?).bind fun p => p.ip.head?).getD 0

theorem static_firstAddress (v : Nat) : Static fun g => firstAddress g v := by
  have hread : ∀ g : Graph, firstAddress g v =
      (((statics g).1[v]?).bind fun p => p.ip.head?).getD 0 := by
    intro g
    rw [statics, List.getElem?_map, firstAddress]
    cases g.vertices[v]? <;> rfl
  intro g g' h
  show firstAddress g v = firstAddress g' v
  rw [hread, hread, h]

theorem static_findSwitchByDpid (dpid : UInt64) : Static fun g => g.findSwitchByDpid dpid :=
  static_findVertex fun _ => rfl

theorem static_findVertexByMac (mac : UInt64) : Static fun g => g.findVertexByMac mac :=
  static_findVertex fun _ => rfl

theorem static_findEdgeByHostIp (ip : UInt32) : Static fun g => g.findEdgeByHostIp ip :=
  static_findEdge fun _ => rfl

theorem static_findEdgeBySrcAndDstIp (srcIp dstIp : UInt32) :
    Static fun g => g.findEdgeBySrcAndDstIp srcIp dstIp :=
  static_findEdge fun _ => rfl

theorem static_findEdgeByDpidAndPort (dpid : UInt64) (port : UInt32) :
    Static fun g => g.findEdgeByDpidAndPort dpid port :=
  static_findEdge fun _ => rfl

/-! ## Plans -/

/-- What an entry does: the searches for what it marks, in order, and whether it throws after
    them. -/
structure EntryPlan where
  searches : List (Graph → Option Mark) := []
  throws : Bool := false

/-- What an entry marks. -/
def EntryPlan.marks (p : EntryPlan) (g : Graph) : List Mark :=
  p.searches.filterMap fun search => search g

/-- An entry of the switches reply. -/
def switchPlan (switchInfoJson : Json) : EntryPlan :=
  match switchInfoJson.valueString "dpid" with
  | .error _ => { throws := true }
  | .ok switchDpidStr =>
    match Utils.tryParseHexUint64 switchDpidStr with
    -- an entry that is skipped
    | none => {}
    | some switchDpid => { searches := [fun g => (g.findSwitchByDpid switchDpid).map .vertex] }

/-- The switch side of a host entry. -/
def attachmentPlan (host : Json) (ip : UInt32) : EntryPlan :=
  match host.field? "port" with
  | none => {}
  | some port =>
    match port.field? "dpid" with
    | none => {}
    | some _ =>
      match port.valueString "dpid" with
      | .error _ => { throws := true }
      | .ok attachDpidStr =>
        match Utils.tryParseHexUint64 attachDpidStr with
        | none => {}
        | some attachDpid =>
          { searches := [fun g => (g.findSwitchByDpid attachDpid).bind fun v =>
              (g.findEdgeBySrcAndDstIp (firstAddress g v) ip).map .edge] }

/-- What a host entry does once its MAC address is known. -/
def addressPlan (host vecIpStr : Json) : EntryPlan :=
  match vecIpStr.first with
  | .error _ => { throws := true }
  | .ok (.str ipStr) =>
    match Utils.tryIpStringToUint32 ipStr with
    | none => {}
    | some ip =>
      let rest := attachmentPlan host ip
      { rest with searches := (fun g => (g.findEdgeByHostIp ip).map .edge) :: rest.searches }
  | .ok _ => {}

/-- An entry of the hosts reply. -/
def hostPlan (host : Json) : EntryPlan :=
  match host.field? "ipv4" with
  | none => {}
  | some vecIpStr =>
    if vecIpStr.isEmpty then {}
    else
      match host.valueString "mac" with
      | .error _ => { throws := true }
      | .ok macStr =>
        match Utils.tryMacToUint64 macStr with
        | none => {}
        | some hostMac =>
          let rest := addressPlan host vecIpStr
          { rest with
            searches := (fun g => (g.findVertexByMac hostMac).map .vertex) :: rest.searches }

/-- The dpids and the port that a link entry names, if it can be used. -/
def linkFields (link : Json) : Except Json.Error (Option (UInt64 × UInt32 × UInt64)) :=
  match link.field? "src", link.field? "dst" with
  | some src, some dst => do
    let srcDpidStr ← src.valueString "dpid"
    let srcPortStr ← src.valueString "port_no"
    let dstDpidStr ← dst.valueString "dpid"
    -- read but not used, so that it throws when it is no string
    let _dstPortStr ← dst.valueString "port_no"
    if srcDpidStr.isEmpty ∨ dstDpidStr.isEmpty then return none
    else
      match Utils.tryParseHexUint64 srcDpidStr, Utils.tryParseHexUint64 dstDpidStr with
      | some srcDpid, some dstDpid =>
        return some (srcDpid, Utils.portStringToUint srcPortStr, dstDpid)
      | _, _ => return none
  | _, _ => .ok none

/-- An entry of the links reply. -/
def linkPlan (link : Json) : EntryPlan :=
  match linkFields link with
  | .error _ => { throws := true }
  | .ok none => {}
  | .ok (some (srcDpid, srcPort, dstDpid)) =>
    { searches := [fun g =>
        if (g.findSwitchByDpid srcDpid).isSome ∧ (g.findSwitchByDpid dstDpid).isSome then
          (g.findEdgeByDpidAndPort srcDpid srcPort).map .edge
        else none] }

/-- A program does what a plan says: it ends with the marks of the plan written, throws as the
    plan says, and the plan searches among what no mark changes. -/
structure Realises (m : Poll Unit) (p : EntryPlan) : Prop where
  marks : ∀ g, finalState m g = writeAll (p.marks g) g
  throws : ∀ g, isOk (m g) = !p.throws
  searches : ∀ search ∈ p.searches, Static search

theorem realises_skip : Realises (pure ()) {} where
  marks _ := rfl
  throws _ := rfl
  searches _ h := absurd h List.not_mem_nil

theorem realises_throw (e : Json.Error) (f : α → Poll Unit) :
    Realises (EState.ofExcept (.error e) >>= f) { throws := true } where
  marks _ := rfl
  throws _ := rfl
  searches _ h := absurd h List.not_mem_nil

theorem markVertex_apply (v : Option Nat) (g : Graph) :
    markVertex v g = .ok () (writeAll (v.map Mark.vertex).toList g) := by
  cases v <;> rfl

theorem markEdge_apply (e : Option EdgeDesc) (g : Graph) :
    markEdge e g = .ok () (writeAll (e.map Mark.edge).toList g) := by
  cases e <;> rfl

theorem statics_writeAll (marks : List Mark) (g : Graph) :
    statics (writeAll marks g) = statics g := by
  unfold writeAll
  induction marks generalizing g with
  | nil => rfl
  | cons m marks ih => rw [List.foldl_cons, ih, statics_write]

/-- The marks of a plan are the same in every graph that a poll can reach. -/
theorem EntryPlan.marks_congr {p : EntryPlan} (hp : ∀ search ∈ p.searches, Static search)
    {g g' : Graph} (h : statics g = statics g') : p.marks g = p.marks g' :=
  List.filterMap_congr fun search hsearch => hp search hsearch g g' h

/-- A program that marks what a search finds, and goes on. -/
theorem realises_mark {search : Graph → Option Mark} (hsearch : Static search)
    {step m : Poll Unit} {p : EntryPlan}
    (hstep : ∀ g, step g = .ok () (writeAll (search g).toList g)) (hm : Realises m p) :
    Realises (step >>= fun _ => m) { p with searches := search :: p.searches } where
  marks g := by
    have hmarks : EntryPlan.marks { p with searches := search :: p.searches } g =
        (search g).toList ++ p.marks g := by
      unfold EntryPlan.marks
      rw [List.filterMap_cons]
      cases search g <;> rfl
    -- the rest of the plan finds the same in the marked graph
    rw [finalState, bind_of_ok (hstep g), ← finalState, hm.marks, hmarks,
      EntryPlan.marks_congr hm.searches (statics_writeAll _ g)]
    unfold writeAll
    rw [List.foldl_append]
  throws g := by
    rw [bind_of_ok (hstep g)]
    exact hm.throws _
  searches s hs := by
    rcases List.mem_cons.mp hs with rfl | hs
    · exact hsearch
    · exact hm.searches s hs

/-- A program that ends with a mark. -/
theorem realises_last_mark {search : Graph → Option Mark} (hsearch : Static search)
    {step : Poll Unit} (hstep : ∀ g, step g = .ok () (writeAll (search g).toList g)) :
    Realises step { searches := [search] } := by
  have hlast : (step >>= fun _ => pure ()) = step := bind_pure step
  rw [← hlast]
  exact realises_mark hsearch hstep realises_skip

/-- A program that searches the graph for a vertex and marks it. -/
theorem realises_getVertex {search : Graph → Option Nat} (hsearch : Static search) :
    Realises (get >>= fun g => markVertex (search g))
      { searches := [fun g => (search g).map .vertex] } := by
  apply realises_last_mark
  · exact hsearch.map Mark.vertex
  · exact fun g => markVertex_apply (search g) g

theorem realises_updateSwitch (entry : Json) :
    Realises (updateSwitch entry) (switchPlan entry) := by
  unfold updateSwitch switchPlan
  cases entry.valueString "dpid" with
  | error e => exact realises_throw e _
  | ok switchDpidStr =>
    dsimp only [EState.ofExcept]
    rw [pure_bind]
    cases Utils.tryParseHexUint64 switchDpidStr with
    | none => exact realises_skip
    | some switchDpid => exact realises_getVertex (static_findSwitchByDpid switchDpid)

theorem realises_updateHostAttachment (host : Json) (ip : UInt32) :
    Realises (updateHostAttachment host ip) (attachmentPlan host ip) := by
  unfold updateHostAttachment attachmentPlan
  cases host.field? "port" with
  | none => exact realises_skip
  | some port =>
    dsimp only
    cases port.field? "dpid" with
    | none => exact realises_skip
    | some dpid =>
      dsimp only
      cases port.valueString "dpid" with
      | error e => exact realises_throw e _
      | ok attachDpidStr =>
        dsimp only [EState.ofExcept]
        rw [pure_bind]
        cases Utils.tryParseHexUint64 attachDpidStr with
        | none => exact realises_skip
        | some attachDpid =>
          dsimp only
          apply realises_last_mark
          · apply (static_findSwitchByDpid attachDpid).bind
            intro v g g' h
            have hip : firstAddress g v = firstAddress g' v := static_firstAddress v g g' h
            dsimp only
            rw [hip]
            exact (static_findEdgeBySrcAndDstIp _ ip).map Mark.edge g g' h
          · intro g
            rw [get_bind]
            cases g.findSwitchByDpid attachDpid with
            | none => rfl
            | some v => exact markEdge_apply _ g

theorem realises_address (host vecIpStr : Json) :
    Realises (do
      let ipJson ← EState.ofExcept vecIpStr.first
      match ipJson with
      | .str ipStr =>
        match Utils.tryIpStringToUint32 ipStr with
        | none => pure ()
        | some ip => do
          let g ← get
          markEdge (g.findEdgeByHostIp ip)
          updateHostAttachment host ip
      | _ => pure ()) (addressPlan host vecIpStr) := by
  unfold addressPlan
  cases vecIpStr.first with
  | error e => exact realises_throw e _
  | ok ipJson =>
    dsimp only [EState.ofExcept]
    rw [pure_bind]
    cases ipJson with
    | str ipStr =>
      dsimp only
      cases Utils.tryIpStringToUint32 ipStr with
      | none => exact realises_skip
      | some ip =>
        dsimp only
        -- the host edge is marked before the attachment is looked at
        rw [← bind_assoc]
        apply realises_mark _ _ (realises_updateHostAttachment host ip)
        · exact (static_findEdgeByHostIp ip).map Mark.edge
        · exact fun g => markEdge_apply _ g
    | _ => exact realises_skip

theorem realises_updateHost (host : Json) : Realises (updateHost host) (hostPlan host) := by
  unfold updateHost hostPlan
  cases host.field? "ipv4" with
  | none => exact realises_skip
  | some vecIpStr =>
    dsimp only
    split
    · exact realises_skip
    · cases host.valueString "mac" with
      | error e => exact realises_throw e _
      | ok macStr =>
        dsimp only [EState.ofExcept]
        rw [pure_bind]
        cases Utils.tryMacToUint64 macStr with
        | none => exact realises_skip
        | some hostMac =>
          dsimp only
          -- the host vertex comes first
          rw [← bind_assoc]
          apply realises_mark _ _ (realises_address host vecIpStr)
          · exact (static_findVertexByMac hostMac).map Mark.vertex
          · exact fun g => markVertex_apply _ g

/-- What a link entry does once its fields are read. -/
theorem updateLink_eq (link : Json) :
    updateLink link = (do
      match ← EState.ofExcept (linkFields link) with
      | none => pure ()
      | some (srcDpid, srcPort, dstDpid) =>
        let g ← get
        match g.findSwitchByDpid srcDpid, g.findSwitchByDpid dstDpid with
        | some _, some _ => markEdge (g.findEdgeByDpidAndPort srcDpid srcPort)
        | _, _ => pure ()) := by
  unfold updateLink linkFields
  cases link.field? "src" with
  | none => rfl
  | some src =>
    cases link.field? "dst" with
    | none => rfl
    | some dst =>
      dsimp only
      cases src.valueString "dpid" with
      | error e => rfl
      | ok srcDpidStr =>
        cases src.valueString "port_no" with
        | error e => rfl
        | ok srcPortStr =>
          cases dst.valueString "dpid" with
          | error e => rfl
          | ok dstDpidStr =>
            cases dst.valueString "port_no" with
            | error e => rfl
            | ok dstPortStr =>
              -- All four texts are there: an empty one ends the entry, and so does a number that
              -- does not parse.
              dsimp only [EState.ofExcept]
              simp only [pure_bind, ok_bind]
              split
              · rfl
              · cases Utils.tryParseHexUint64 srcDpidStr with
                | none => rfl
                | some srcDpid =>
                  cases Utils.tryParseHexUint64 dstDpidStr with
                  | none => rfl
                  | some dstDpid => rfl

theorem realises_updateLink (link : Json) : Realises (updateLink link) (linkPlan link) := by
  rw [updateLink_eq, linkPlan]
  cases linkFields link with
  | error e => exact realises_throw e _
  | ok fields =>
    dsimp only [EState.ofExcept]
    rw [pure_bind]
    cases fields with
    | none => exact realises_skip
    | some fields =>
      obtain ⟨srcDpid, srcPort, dstDpid⟩ := fields
      dsimp only
      apply realises_last_mark
      · intro g g' h
        have hsrc : g.findSwitchByDpid srcDpid = g'.findSwitchByDpid srcDpid :=
          static_findSwitchByDpid srcDpid g g' h
        have hdst : g.findSwitchByDpid dstDpid = g'.findSwitchByDpid dstDpid :=
          static_findSwitchByDpid dstDpid g g' h
        have hedge : g.findEdgeByDpidAndPort srcDpid srcPort =
            g'.findEdgeByDpidAndPort srcDpid srcPort :=
          static_findEdgeByDpidAndPort srcDpid srcPort g g' h
        dsimp only
        rw [hsrc, hdst, hedge]
      · intro g
        rw [get_bind]
        cases g.findSwitchByDpid srcDpid with
        | none => rfl
        | some v =>
          cases g.findSwitchByDpid dstDpid with
          | none => rfl
          | some w => exact markEdge_apply _ g

/-! ## Replies -/

/-- The three topology endpoints. -/
inductive Endpoint where
  | switches
  | hosts
  | links
  deriving DecidableEq

namespace Endpoint

def update : Endpoint → PollReply → Graph → Graph
  | .switches => updateSwitches
  | .hosts => updateHosts
  | .links => updateLinks

def entry : Endpoint → Json → Poll Unit
  | .switches => updateSwitch
  | .hosts => updateHost
  | .links => updateLink

def plan : Endpoint → Json → EntryPlan
  | .switches => switchPlan
  | .hosts => hostPlan
  | .links => linkPlan

end Endpoint

theorem realises_entry (kind : Endpoint) (e : Json) : Realises (kind.entry e) (kind.plan e) := by
  cases kind with
  | switches => exact realises_updateSwitch e
  | hosts => exact realises_updateHost e
  | links => exact realises_updateLink e

theorem update_arr (kind : Endpoint) (es : List Json) (g : Graph) :
    kind.update (.parsed (.arr es)) g = finalState (es.forM kind.entry) g := by
  cases kind <;> rfl

/-- What the entries mark when each of them is given alone. -/
theorem foldl_entries (kind : Endpoint) (es : List Json) (g : Graph) :
    es.foldl (fun g e => finalState (kind.entry e) g) g =
      writeAll (es.flatMap fun e => (kind.plan e).marks g) g := by
  induction es generalizing g with
  | nil => rfl
  | cons e es ih =>
    have he := realises_entry kind e
    -- the later entries find the same, whatever the first one has marked
    have hrest : ∀ e',
        (kind.plan e').marks (finalState (kind.entry e) g) = (kind.plan e').marks g := by
      intro e'
      apply EntryPlan.marks_congr (realises_entry kind e').searches
      rw [he.marks, statics_writeAll]
    rw [List.foldl_cons, ih]
    simp only [hrest]
    rw [he.marks, List.flatMap_cons]
    unfold writeAll
    rw [List.foldl_append]

theorem update_single (kind : Endpoint) (e : Json) (g : Graph) :
    kind.update (.parsed (.arr [e])) g = finalState (kind.entry e) g := by
  rw [update_arr, finalState, forM_cons_apply]
  unfold finalState
  cases kind.entry e g <;> rfl

/-- The first entry that throws, if there is one. -/
theorem first_throw_cases (kind : Endpoint) (es : List Json) :
    (∀ e ∈ es, (kind.plan e).throws = false) ∨
    ∃ pre bad post, es = pre ++ bad :: post ∧ (∀ e ∈ pre, (kind.plan e).throws = false) ∧
      (kind.plan bad).throws = true := by
  induction es with
  | nil => exact .inl fun e he => absurd he List.not_mem_nil
  | cons e es ih =>
    cases he : (kind.plan e).throws with
    | true => exact .inr ⟨[], e, es, rfl, fun e he => absurd he List.not_mem_nil, he⟩
    | false =>
      rcases ih with hall | ⟨pre, bad, post, rfl, hpre, hbad⟩
      · exact .inl (List.forall_mem_cons.mpr ⟨he, hall⟩)
      · exact .inr ⟨e :: pre, bad, post, rfl, List.forall_mem_cons.mpr ⟨he, hpre⟩, hbad⟩

/-- Behind the first entry that throws, every entry marks only what is already up and enabled, or
    what the entries up to that one mark as well. -/
def NothingLost (kind : Endpoint) (es : List Json) (g : Graph) : Prop :=
  ∀ pre bad post, es = pre ++ bad :: post → (∀ e ∈ pre, (kind.plan e).throws = false) →
    (kind.plan bad).throws = true → ∀ e ∈ post, ∀ m ∈ (kind.plan e).marks g,
      m.Seen g ∨ ∃ e' ∈ pre ++ [bad], m ∈ (kind.plan e').marks g

/-- A split at the first entry that throws is the only one. -/
theorem nothingLost_split {kind : Endpoint} {pre post : List Json} {bad : Json} {g : Graph}
    (hpre : ∀ e ∈ pre, (kind.plan e).throws = false) (hbad : (kind.plan bad).throws = true) :
    NothingLost kind (pre ++ bad :: post) g ↔
      ∀ e ∈ post, ∀ m ∈ (kind.plan e).marks g,
        m.Seen g ∨ ∃ e' ∈ pre ++ [bad], m ∈ (kind.plan e').marks g := by
  refine ⟨fun h => h pre bad post rfl hpre hbad, fun h pre' bad' post' hsplit hpre' hbad' => ?_⟩
  -- the entries before the first that throws are those up to it
  have htake : ∀ (l r : List Json) (x : Json), (∀ e ∈ l, (kind.plan e).throws = false) →
      (kind.plan x).throws = true →
      (l ++ x :: r).takeWhile (fun e => !(kind.plan e).throws) = l := by
    intro l r x hl hx
    rw [List.takeWhile_append_of_pos fun e he => by rw [hl e he]; rfl,
      List.takeWhile_cons_of_neg (by simp [hx]), List.append_nil]
  have heq : pre' = pre := by
    rw [← htake pre' post' bad' hpre' hbad', ← hsplit, htake pre post bad hpre hbad]
  subst heq
  obtain ⟨rfl, rfl⟩ := List.cons.inj (List.append_cancel_left hsplit)
  exact h

/-- A poll of any endpoint does what its entries do one by one exactly if no entry is lost. -/
theorem update_one_by_one_iff (kind : Endpoint) (es : List Json) (g : Graph) :
    kind.update (.parsed (.arr es)) g =
        es.foldl (fun g e => kind.update (.parsed (.arr [e])) g) g ↔
      NothingLost kind es g := by
  have hok : ∀ e, (kind.plan e).throws = false → ∀ s, isOk (kind.entry e s) = true := by
    intro e he s
    rw [(realises_entry kind e).throws, he]
    rfl
  simp only [update_single]
  rw [update_arr]
  rcases first_throw_cases kind es with hall | ⟨pre, bad, post, rfl, hpre, hbad⟩
  · -- no entry throws, and the loop goes through all of them
    rw [finalState_forM_of_ok fun e he => hok e (hall e he)]
    refine iff_of_true rfl fun pre bad post hsplit _ hbad => ?_
    have hmem : bad ∈ es := by rw [hsplit]; simp
    rw [hall bad hmem] at hbad
    exact nomatch hbad
  · -- the loop stops at the first that throws; one by one, the others are marked too
    have hthrow : ∀ s, ¬isOk (kind.entry bad s) = true := by
      intro s
      rw [(realises_entry kind bad).throws, hbad]
      exact nofun
    have hreached : (pre ++ [bad]).foldl (fun g e => finalState (kind.entry e) g) g =
        writeAll ((pre ++ [bad]).flatMap fun e => (kind.plan e).marks g) g := foldl_entries kind _ g
    have hsplit : pre ++ bad :: post = (pre ++ [bad]) ++ post := by simp
    rw [finalState_forM_of_throw (fun e he => hok e (hpre e he)) hthrow,
      nothingLost_split hpre hbad, hsplit, hreached, List.foldl_append, hreached, foldl_entries,
      eq_comm, writeAll_eq_self_iff]
    simp only [List.mem_flatMap, seen_writeAll]
    have hsame : ∀ e,
        (kind.plan e).marks (writeAll ((pre ++ [bad]).flatMap fun e => (kind.plan e).marks g) g) =
          (kind.plan e).marks g :=
      fun e => EntryPlan.marks_congr (realises_entry kind e).searches (statics_writeAll _ g)
    simp only [hsame]
    exact ⟨fun h e he m hm => h m ⟨e, he, hm⟩, fun h m ⟨e, he, hm⟩ => h e he m hm⟩

/-! ## A dpid that is a number -/

/-- Switch 1, not seen yet. -/
def unseenSwitch : Graph :=
  .edgeless [{ vertexType := .switch, ip := [], dpid := 1, isUp := false }]

/-- An entry with a number as dpid costs the entry of switch 1 behind it. -/
theorem number_dpid_costs_rest :
    Endpoint.switches.update
        (.parsed (.arr [.obj [("dpid", .uint 2)], .obj [("dpid", .str "1")]])) unseenSwitch ≠
      [Json.obj [("dpid", .uint 2)], .obj [("dpid", .str "1")]].foldl
        (fun g e => Endpoint.switches.update (.parsed (.arr [e])) g) unseenSwitch := by
  intro h
  have hup := congrArg (fun g : Graph => g.vertices.map VertexProperties.isUp) h
  exact absurd hup (by decide)

end Ndtwin.Spec

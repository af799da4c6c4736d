import Ndtwin.Kernel.FlowPath
import Ndtwin.Spec.ClassifierCorrect

/-!
# Paths of Flows

The path committed for a flow is a walk over the graph that leaves every switch by the port the
classifier returned for it. Each exit of the walk clears the path, except the one at a host: there
the destination is appended when the host has its address, and otherwise the path is committed
as it is. So a flow that the rules deliver to another host has a path that does not end at its
destination.

## Key results

- `walkHops_eq_true_iff`: the loop ends well exactly when the walk arrives at a host in time
- `lookup_calFlowPathByQueried`: what a pass commits
- `flow_path_sound_iff`: the committed path is right exactly when the rules do not deliver the
  flow to a host without its destination address
-/

namespace Ndtwin.Spec

open Ndtwin.Kernel

/-! ## What a path should be -/

section Walk

variable (g : Graph) (c : Classifier) (key : SFlow.FlowKey)

/-- The port by which the flow leaves a switch: the first one that the classifier returned. -/
def LeavesBy (dpid : UInt64) (port : UInt32) : Prop :=
  ∃ effect rest, c.lookup dpid (classifierKey key) 0 = some effect ∧
    effect.outputPorts = port :: rest

/-- The rules lead from the vertex `v` over these switches to the host vertex `w`. -/
inductive Arrives : Nat → List (UInt64 × UInt32) → Nat → Prop
  | host {v : Nat} {p : VertexProperties} : g.vertices[v]? = some p → p.dpid = 0 →
    Arrives v [] v
  | hop {v w : Nat} {p : VertexProperties} {port : UInt32} {edge : EdgeDesc}
    {hops : List (UInt64 × UInt32)} : g.vertices[v]? = some p → p.dpid ≠ 0 →
    LeavesBy c key p.dpid port → g.findEdgeByDpidAndPort p.dpid port = some edge →
    Arrives edge.target hops w → Arrives v ((p.dpid, port) :: hops) w

/-- The walk of the flow, from the edge of its source on. -/
def FlowArrives (hops : List (UInt64 × UInt32)) (w : VertexProperties) : Prop :=
  ∃ edge v, g.findEdgeByHostIp key.srcIP = some edge ∧ Arrives g c key edge.target hops v ∧
    g.vertices[v]? = some w

/-- The rest of a path stands at the vertex `v`: the destination when nothing follows, else a
    switch. -/
def StandsAt (v : Nat) : List (UInt64 × UInt32) → Prop
  | [] => False
  | [last] => last = (key.dstIP.toUInt64, 0) ∧
    ∃ p, g.vertices[v]? = some p ∧ p.dpid = 0 ∧ key.dstIP ∈ p.ip
  | (dpid, _) :: _ :: _ => ∃ p, g.vertices[v]? = some p ∧ p.dpid = dpid ∧ dpid ≠ 0

/-- From each switch of the rest of a path an edge goes out of the port that the classifier
    returned, to where the next hop stands. -/
def Linked : List (UInt64 × UInt32) → Prop
  | (dpid, port) :: next :: rest =>
    LeavesBy c key dpid port ∧
      (∃ e ∈ g.edges, e.props.srcDpid = dpid ∧ e.props.srcInterface = port ∧
        StandsAt g key e.desc.target (next :: rest)) ∧ Linked (next :: rest)
  | _ => True

/-- A path that is committed for the flow: it is a path from the source to the destination over
    the ports of the classifier, and there is none unless the rules lead to the destination. -/
structure FlowPathSound (path : List (UInt64 × UInt32)) : Prop where
  shape : path ≠ [] → ∃ ingress tail, path = (key.srcIP.toUInt64, ingress) :: tail ∧
    tail.getLast? = some (key.dstIP.toUInt64, 0) ∧ tail.length - 1 ≤ hopLimit ∧
    (∃ e ∈ g.edges, key.srcIP ∈ e.props.srcIp ∧ e.props.dstInterface = ingress ∧
      StandsAt g key e.desc.target tail) ∧ Linked g c key tail
  undelivered : (¬∃ hops w, FlowArrives g c key hops w ∧ key.dstIP ∈ w.ip) → path = []

/-- The rules deliver the flow, within the limit, to a host without its destination address. -/
def Misdelivers : Prop :=
  ¬((classifierKey key).ipv4Src = 0 ∨ (classifierKey key).ipv4Dst = 0) ∧
    ∃ hops w, FlowArrives g c key hops w ∧ hops.length < hopLimit ∧ key.dstIP ∉ w.ip

end Walk

variable {g : Graph} {c : Classifier} {key : SFlow.FlowKey}

/-! ## The walk -/

theorem LeavesBy.unique {dpid : UInt64} {port port' : UInt32} (h : LeavesBy c key dpid port)
    (h' : LeavesBy c key dpid port') : port = port' := by
  obtain ⟨effect, rest, hlookup, hports⟩ := h
  obtain ⟨effect', rest', hlookup', hports'⟩ := h'
  rw [hlookup] at hlookup'
  cases Option.some.inj hlookup'
  rw [hports] at hports'
  exact (List.cons.inj hports').1

/-- The rules lead to at most one host, in one way. -/
theorem Arrives.unique {v w w' : Nat} {hops hops' : List (UInt64 × UInt32)}
    (h : Arrives g c key v hops w) (h' : Arrives g c key v hops' w') : hops = hops' ∧ w = w' := by
  induction h generalizing hops' with
  | host hv hhost =>
    cases h' with
    | host _ _ => exact ⟨rfl, rfl⟩
    | hop hv' hswitch _ _ _ =>
      rw [hv] at hv'
      cases Option.some.inj hv'
      exact absurd hhost hswitch
  | hop hv hswitch hleaves hedge _ ih =>
    cases h' with
    | host hv' hhost =>
      rw [hv] at hv'
      cases Option.some.inj hv'
      exact absurd hhost hswitch
    | hop hv' _ hleaves' hedge' hrest' =>
      rw [hv] at hv'
      cases Option.some.inj hv'
      cases hleaves.unique hleaves'
      rw [hedge] at hedge'
      cases Option.some.inj hedge'
      obtain ⟨hhops, hw⟩ := ih hrest'
      exact ⟨by rw [hhops], hw⟩

theorem FlowArrives.unique {hops hops' : List (UInt64 × UInt32)} {w w' : VertexProperties}
    (h : FlowArrives g c key hops w) (h' : FlowArrives g c key hops' w') : w = w' := by
  obtain ⟨edge, v, hedge, harrives, hw⟩ := h
  obtain ⟨edge', v', hedge', harrives', hw'⟩ := h'
  rw [hedge] at hedge'
  cases Option.some.inj hedge'
  obtain ⟨-, rfl⟩ := harrives.unique harrives'
  rw [hw] at hw'
  exact Option.some.inj hw'

/-- The end of a path at a host. -/
def arrival (key : SFlow.FlowKey) (w : VertexProperties) : List (UInt64 × UInt32) :=
  if key.dstIP ∈ w.ip then [(key.dstIP.toUInt64, 0)] else []

/-- The loop ends well exactly when the walk arrives at a host before the limit. -/
theorem walkHops_eq_true_iff {n : Nat} {edge : EdgeDesc} {path result : List (UInt64 × UInt32)} :
    walkHops g c key n edge path = (true, result) ↔
      ∃ hops v w, Arrives g c key edge.target hops v ∧ g.vertices[v]? = some w ∧
        hops.length < n ∧ result = path ++ (hops ++ arrival key w) := by
  induction n generalizing edge path with
  | zero =>
    constructor
    · intro h
      exact nomatch h
    · rintro ⟨_, _, _, _, _, hlength, _⟩
      exact absurd hlength (Nat.not_lt_zero _)
  | succ n ih =>
    unfold walkHops
    cases hv : g.vertices[edge.target]? with
    | none =>
      constructor
      · intro h
        exact nomatch h
      · rintro ⟨_, _, _, harrives, _⟩
        cases harrives with
        | host hv' _ | hop hv' _ _ _ _ =>
          rw [hv] at hv'
          exact nomatch hv'
    | some p =>
      dsimp only
      by_cases hhost : p.dpid = 0
      · rw [if_pos hhost]
        have hpath : (if key.dstIP ∈ p.ip then path ++ [(key.dstIP.toUInt64, 0)] else path) =
            path ++ ([] ++ arrival key p) := by
          unfold arrival
          split
          · rfl
          · simp
        rw [hpath]
        constructor
        · intro h
          exact ⟨[], edge.target, p, .host hv hhost, hv, Nat.succ_pos n,
            (Prod.mk.inj h).2.symm⟩
        · rintro ⟨hops, v, w, harrives, hw, -, rfl⟩
          obtain ⟨rfl, rfl⟩ := (Arrives.host hv hhost).unique harrives
          rw [hv] at hw
          rw [Option.some.inj hw]
      · rw [if_neg hhost]
        -- the exits below are those that clear the path
        have hexit : (¬∃ port next, LeavesBy c key p.dpid port ∧
            g.findEdgeByDpidAndPort p.dpid port = some next) →
            ¬∃ hops v w, Arrives g c key edge.target hops v ∧ g.vertices[v]? = some w ∧
              hops.length < n + 1 ∧ result = path ++ (hops ++ arrival key w) := by
          rintro hnone ⟨_, _, _, harrives, _⟩
          cases harrives with
          | host hv' hhost' =>
            rw [hv] at hv'
            cases Option.some.inj hv'
            exact hhost hhost'
          | hop hv' _ hleaves hedge _ =>
            rw [hv] at hv'
            cases Option.some.inj hv'
            exact hnone ⟨_, _, hleaves, hedge⟩
        cases heffect : c.lookup p.dpid (classifierKey key) 0 with
        | none =>
          refine iff_of_false (fun h => nomatch h) (hexit ?_)
          rintro ⟨port, next, ⟨effect, rest, hlookup, -⟩, -⟩
          rw [heffect] at hlookup
          exact nomatch hlookup
        | some effect =>
          dsimp only
          cases hports : effect.outputPorts with
          | nil =>
            refine iff_of_false (fun h => nomatch h) (hexit ?_)
            rintro ⟨port, next, ⟨effect', rest, hlookup, hports'⟩, -⟩
            rw [heffect] at hlookup
            cases Option.some.inj hlookup
            rw [hports] at hports'
            exact nomatch hports'
          | cons port rest =>
            have hleaves : LeavesBy c key p.dpid port := ⟨effect, rest, heffect, hports⟩
            dsimp only
            cases hnext : g.findEdgeByDpidAndPort p.dpid port with
            | none =>
              refine iff_of_false (fun h => nomatch h) (hexit ?_)
              rintro ⟨port', next, hleaves', hnext'⟩
              cases hleaves.unique hleaves'
              rw [hnext] at hnext'
              exact nomatch hnext'
            | some next =>
              dsimp only
              rw [ih]
              constructor
              · rintro ⟨hops, v, w, harrives, hw, hlength, rfl⟩
                refine ⟨(p.dpid, port) :: hops, v, w, .hop hv hhost hleaves hnext harrives, hw,
                  by simpa using hlength, by simp⟩
              · rintro ⟨hops, v, w, harrives, hw, hlength, rfl⟩
                cases harrives with
                | host hv' hhost' =>
                  rw [hv] at hv'
                  cases Option.some.inj hv'
                  exact absurd hhost' hhost
                | hop hv' _ hleaves' hnext' hrest =>
                  rw [hv] at hv'
                  cases Option.some.inj hv'
                  cases hleaves.unique hleaves'
                  rw [hnext] at hnext'
                  cases Option.some.inj hnext'
                  exact ⟨_, v, w, hrest, hw, by simpa using hlength, by simp⟩

/-! ## The path of a walk that arrives -/

/-- From the edge of a switch and a port, the rest of a path goes on. -/
theorem exists_edge_of_findEdgeByDpidAndPort {dpid : UInt64} {port : UInt32} {edge : EdgeDesc}
    (h : g.findEdgeByDpidAndPort dpid port = some edge) :
    ∃ e ∈ g.edges, e.desc = edge ∧ e.props.srcDpid = dpid ∧ e.props.srcInterface = port := by
  obtain ⟨e, he, hdesc, htest⟩ := Graph.exists_of_findEdge h
  exact ⟨e, he, hdesc, of_decide_eq_true htest⟩

/-- A walk that arrives at a vertex with the destination address is a linked path. -/
theorem Arrives.linked {v v' : Nat} {hops : List (UInt64 × UInt32)} {w : VertexProperties}
    (h : Arrives g c key v hops v') (hw : g.vertices[v']? = some w) (hdst : key.dstIP ∈ w.ip) :
    StandsAt g key v (hops ++ [(key.dstIP.toUInt64, 0)]) ∧
      Linked g c key (hops ++ [(key.dstIP.toUInt64, 0)]) := by
  induction h with
  | @host v p hv hhost =>
    rw [hv] at hw
    cases Option.some.inj hw
    exact ⟨⟨rfl, _, hv, hhost, hdst⟩, trivial⟩
  | @hop v v' p port edge hops hv hswitch hleaves hedge _ ih =>
    obtain ⟨hstands, hlinked⟩ := ih hw
    obtain ⟨e, he, rfl, hdpid, hport⟩ := exists_edge_of_findEdgeByDpidAndPort hedge
    -- what follows the switch is never empty: it ends with the destination
    cases htail : hops ++ [(key.dstIP.toUInt64, 0)] with
    | nil => simp at htail
    | cons next rest =>
      rw [htail] at hstands hlinked
      rw [List.cons_append, htail]
      exact ⟨⟨p, hv, rfl, hswitch⟩, hleaves, ⟨e, he, hdpid, hport, hstands⟩, hlinked⟩

/-- The walk of a flow ends well exactly when it has both addresses and arrives in time. -/
theorem walkFlow_eq_true_iff {path : List (UInt64 × UInt32)} :
    walkFlow g c key = (true, path) ↔
      ¬((classifierKey key).ipv4Src = 0 ∨ (classifierKey key).ipv4Dst = 0) ∧
        ∃ e ∈ g.edges, g.findEdgeByHostIp key.srcIP = some e.desc ∧
          ∃ hops v w, Arrives g c key e.desc.target hops v ∧ g.vertices[v]? = some w ∧
            hops.length < hopLimit ∧
            path = [(key.srcIP.toUInt64, e.props.dstInterface)] ++ (hops ++ arrival key w) := by
  unfold walkFlow
  by_cases hzero : (classifierKey key).ipv4Src = 0 ∨ (classifierKey key).ipv4Dst = 0
  · rw [if_pos hzero]
    exact iff_of_false (fun h => nomatch h) fun h => h.1 hzero
  · rw [if_neg hzero]
    cases hfind : g.findEdgeByHostIp key.srcIP with
    | none =>
      apply iff_of_false (fun h => nomatch h)
      rintro ⟨-, e, -, hsome, -⟩
      exact nomatch hsome
    | some d =>
      obtain ⟨e, he, rfl, -⟩ := Graph.exists_of_findEdge hfind
      simp only [Graph.propsOf_desc he, walkHops_eq_true_iff]
      constructor
      · intro harrives
        exact ⟨hzero, e, he, rfl, harrives⟩
      · rintro ⟨-, e', he', hdesc, harrives⟩
        rwa [Graph.edge_eq_of_desc_eq he he' (Option.some.inj hdesc)]

/-! ## What a pass commits -/

/-- The commit of one flow, seen from another. -/
theorem lookup_commitPath (collector : Collector) (k : SFlow.FlowKey) :
    (collector.commitPath g c k).flowInfoTable.lookup key =
      if key = k then (collector.flowInfoTable.lookup key).map fun info =>
        { info with flowPath := committedPath g c key }
      else collector.flowInfoTable.lookup key := by
  unfold Collector.commitPath
  by_cases hk : key = k
  · subst hk
    cases hlookup : collector.flowInfoTable.lookup key with
    | none => simp [hlookup]
    | some info => simp [AList.lookup_insert]
  · rw [if_neg hk]
    split
    · rfl
    · rw [AssocMap.lookup_insert_eq, if_neg hk]

theorem lookup_foldl_commitPath (keys : List SFlow.FlowKey) (collector : Collector) :
    (keys.foldl (Collector.commitPath g c) collector).flowInfoTable.lookup key =
      if key ∈ keys then (collector.flowInfoTable.lookup key).map fun info =>
        { info with flowPath := committedPath g c key }
      else collector.flowInfoTable.lookup key := by
  induction keys generalizing collector with
  | nil => rfl
  | cons k keys ih =>
    rw [List.foldl_cons, ih, lookup_commitPath]
    by_cases hk : key = k
    · subst hk
      by_cases hmem : key ∈ keys
      · simp [hmem, Function.comp_def]
      · simp [hmem]
    · simp [hk]

/-- A pass commits a path for every flow of the table, and for no other. -/
theorem lookup_calFlowPathByQueried (collector : Collector) :
    (collector.calFlowPathByQueried g c).flowInfoTable.lookup key =
      (collector.flowInfoTable.lookup key).map fun info =>
        { info with flowPath := committedPath g c key } := by
  unfold Collector.calFlowPathByQueried
  rw [lookup_foldl_commitPath]
  split
  · rfl
  · next hmem =>
    have hnone : collector.flowInfoTable.lookup key = none := AList.lookup_eq_none.mpr hmem
    rw [hnone]
    rfl

/-! ## The theorem -/

theorem committedPath_of_ne_nil (h : committedPath g c key ≠ []) :
    walkFlow g c key = (true, committedPath g c key) := by
  unfold committedPath at h ⊢
  generalize walkFlow g c key = result at h ⊢
  obtain ⟨ok, path⟩ := result
  cases ok with
  | false => exact absurd rfl h
  | true => rfl

/-- A flow that is delivered to the wrong host has a path, and it should have none. -/
theorem not_sound_of_misdelivers (h : Misdelivers g c key) :
    ¬FlowPathSound g c key (committedPath g c key) := by
  obtain ⟨hzero, hops, w, harrives, hlength, hdst⟩ := h
  intro hsound
  have hundelivered : ¬∃ hops w, FlowArrives g c key hops w ∧ key.dstIP ∈ w.ip := by
    rintro ⟨hops', w', harrives', hdst'⟩
    exact hdst (harrives.unique harrives' ▸ hdst')
  obtain ⟨d, v, hfind, hwalk, hw⟩ := harrives
  obtain ⟨e, he, rfl, -⟩ := Graph.exists_of_findEdge hfind
  have htrue : walkFlow g c key = (true, [(key.srcIP.toUInt64, e.props.dstInterface)] ++
      (hops ++ arrival key w)) := by
    rw [walkFlow_eq_true_iff]
    exact ⟨hzero, e, he, hfind, hops, v, w, hwalk, hw, hlength, rfl⟩
  have hempty := hsound.undelivered hundelivered
  rw [committedPath, htrue] at hempty
  exact nomatch hempty

theorem sound_of_not_misdelivers (h : ¬Misdelivers g c key) :
    FlowPathSound g c key (committedPath g c key) := by
  have hdelivered : committedPath g c key ≠ [] →
      ∃ e ∈ g.edges, g.findEdgeByHostIp key.srcIP = some e.desc ∧
        ∃ hops v w, Arrives g c key e.desc.target hops v ∧ g.vertices[v]? = some w ∧
          hops.length < hopLimit ∧ key.dstIP ∈ w.ip ∧
          committedPath g c key = (key.srcIP.toUInt64, e.props.dstInterface) ::
            (hops ++ [(key.dstIP.toUInt64, 0)]) := by
    intro hne
    obtain ⟨hzero, e, he, hfind, hops, v, w, hwalk, hw, hlength, hpath⟩ :=
      walkFlow_eq_true_iff.mp (committedPath_of_ne_nil hne)
    have hdst : key.dstIP ∈ w.ip := by
      -- a walk committed at a vertex that is not the destination is a misdelivery
      by_contra hdst
      exact h ⟨hzero, hops, w, ⟨e.desc, v, hfind, hwalk, hw⟩, hlength, hdst⟩
    rw [arrival, if_pos hdst] at hpath
    exact ⟨e, he, hfind, hops, v, w, hwalk, hw, hlength, hdst, hpath⟩
  constructor
  · intro hne
    obtain ⟨e, he, hfind, hops, v, w, hwalk, hw, hlength, hdst, hpath⟩ := hdelivered hne
    obtain ⟨hstands, hlinked⟩ := hwalk.linked hw hdst
    obtain ⟨e', he', hdesc, hsrc⟩ := Graph.exists_of_findEdge hfind
    obtain rfl := Graph.edge_eq_of_desc_eq he' he hdesc
    refine ⟨e'.props.dstInterface, _, hpath, by simp, ?_, ?_, hlinked⟩
    · rw [List.length_append, List.length_singleton, Nat.add_sub_cancel]
      exact Nat.le_of_lt hlength
    · exact ⟨e', he', List.contains_iff_mem.mp hsrc, rfl, hstands⟩
  · intro hundelivered
    by_contra hne
    obtain ⟨e, -, hfind, hops, v, w, hwalk, hw, -, hdst, -⟩ := hdelivered hne
    exact hundelivered ⟨hops, w, ⟨e.desc, v, hfind, hwalk, hw⟩, hdst⟩

/-- The path that a pass commits for a flow is right exactly when the rules do not deliver the
    flow to a host without its destination address. -/
theorem flow_path_sound_iff (g : Graph) (c : Classifier) (collector : Collector)
    (key : SFlow.FlowKey) (info : SFlow.FlowInfo)
    (h : (collector.calFlowPathByQueried g c).flowInfoTable.lookup key = some info) :
    FlowPathSound g c key info.flowPath ↔ ¬Misdelivers g c key := by
  rw [lookup_calFlowPathByQueried] at h
  obtain ⟨before, -, rfl⟩ := Option.map_eq_some_iff.mp h
  constructor
  · intro hsound hmisdelivers
    exact not_sound_of_misdelivers hmisdelivers hsound
  · exact sound_of_not_misdelivers

/-- The address of the host `n` of the star below, 10.0.0.`n`, in network byte order. -/
def starAddress (n : UInt32) : UInt32 := 0x0000000a + n * 0x01000000

def starSwitch : VertexProperties := { vertexType := .switch, ip := [], dpid := 1 }

def starHost (n : UInt32) : VertexProperties :=
  { vertexType := .host, ip := [starAddress n], dpid := 0 }

/-- From port `n` of the switch to the host `n`. -/
def toStarHost (n : UInt32) : Edge where
  desc := ⟨0, n.toNat⟩
  props := { srcIp := [], srcDpid := 1, srcInterface := n, dstIp := [starAddress n], dstDpid := 0,
             dstInterface := 0 }

/-- And back. -/
def fromStarHost (n : UInt32) : Edge where
  desc := ⟨n.toNat, 0⟩
  props := { srcIp := [starAddress n], srcDpid := 0, srcInterface := 0, dstIp := [], dstDpid := 1,
             dstInterface := n }

/-- Three hosts around one switch. -/
def star : Graph where
  vertices := [starSwitch, starHost 1, starHost 2, starHost 3]
  edges := [1, 2, 3].map toStarHost ++ [1, 2, 3].map fromStarHost
  inRange := by decide
  sorted := by decide

/-- Switch 1 sends what is for host 2 to a port. -/
def starClassifier (action : String) : Classifier :=
  EState.finalState (Classifier.runCalls stableOrder
    [pollSwitchOne [flowEntry [("nw_dst", .str "10.0.0.2")] (.uint 10) action]]) {}

/-- A flow from host 1 to host 2. -/
def starFlow : SFlow.FlowKey where
  srcIP := starAddress 1
  dstIP := starAddress 2
  srcPort := 1000
  dstPort := 2000
  protocol := 17

def starCollector : Collector := { flowInfoTable := AList.singleton starFlow {} }

/-- The host that the flow reaches is the one at the port of the rule. -/
theorem starFlow_arrives {action : String} {port : UInt32} (hport : port = 2 ∨ port = 3)
    (h : (starClassifier action).lookup 1 (classifierKey starFlow) 0 =
      some { outputPorts := [port] }) :
    FlowArrives star (starClassifier action) starFlow [(1, port)] (starHost port) := by
  have hsource : star.findEdgeByHostIp starFlow.srcIP = some ⟨1, 0⟩ := by decide
  have hswitch : star.vertices[0]? = some starSwitch := rfl
  have hleaves : LeavesBy (starClassifier action) starFlow starSwitch.dpid port := ⟨_, _, h, rfl⟩
  have hedge : star.findEdgeByDpidAndPort starSwitch.dpid port = some (toStarHost port).desc := by
    rcases hport with rfl | rfl <;> decide
  have hhost : star.vertices[port.toNat]? = some (starHost port) := by
    rcases hport with rfl | rfl <;> rfl
  exact ⟨⟨1, 0⟩, port.toNat, hsource,
    .hop hswitch (by decide) hleaves hedge (.host hhost rfl), hhost⟩

theorem starFlow_path_sound :
    ∃ info, (starCollector.calFlowPathByQueried star
        (starClassifier "OUTPUT:2")).flowInfoTable.lookup starFlow = some info ∧
      info.flowPath = [((starAddress 1).toUInt64, 1), (1, 2), ((starAddress 2).toUInt64, 0)] ∧
      FlowPathSound star (starClassifier "OUTPUT:2") starFlow info.flowPath := by
  have hlookup : (starCollector.calFlowPathByQueried star
      (starClassifier "OUTPUT:2")).flowInfoTable.lookup starFlow =
      some { flowPath := committedPath star (starClassifier "OUTPUT:2") starFlow } := by
    rw [lookup_calFlowPathByQueried]
    rfl
  have hdelivers : ¬Misdelivers star (starClassifier "OUTPUT:2") starFlow := by
    rintro ⟨-, hops, w, harrives, -, hdst⟩
    have hport : (starClassifier "OUTPUT:2").lookup 1 (classifierKey starFlow) 0 =
        some { outputPorts := [2] } := by decide +kernel
    rw [harrives.unique (starFlow_arrives (.inl rfl) hport)] at hdst
    exact hdst (by decide)
  exact ⟨_, hlookup, by decide +kernel,
    (flow_path_sound_iff star _ starCollector starFlow _ hlookup).mpr hdelivers⟩

/-- The rule sends the flow to the third host, and the path is committed. -/
theorem misdelivered_path_committed :
    ∃ info, (starCollector.calFlowPathByQueried star
        (starClassifier "OUTPUT:3")).flowInfoTable.lookup starFlow = some info ∧
      info.flowPath = [((starAddress 1).toUInt64, 1), (1, 3)] ∧
      ¬FlowPathSound star (starClassifier "OUTPUT:3") starFlow info.flowPath := by
  have hpath : committedPath star (starClassifier "OUTPUT:3") starFlow =
      [((starAddress 1).toUInt64, 1), (1, 3)] := by decide +kernel
  have hlookup : (starCollector.calFlowPathByQueried star
      (starClassifier "OUTPUT:3")).flowInfoTable.lookup starFlow =
      some { flowPath := committedPath star (starClassifier "OUTPUT:3") starFlow } := by
    rw [lookup_calFlowPathByQueried]
    rfl
  rw [hpath] at hlookup
  refine ⟨_, hlookup, rfl, ?_⟩
  -- the last hop is a port of the switch, not the destination
  intro hsound
  obtain ⟨_, tail, htail, hlast, -⟩ := hsound.shape (fun h => nomatch h)
  obtain rfl : [(1, 3)] = tail := (List.cons.inj htail).2
  exact absurd hlast (by decide)

end Ndtwin.Spec

import Ndtwin.Proxy.Fabric
import Ndtwin.Spec.FlowPathCorrect
import Ndtwin.Spec.RenderedTableCorrect

/-!
# The path of the twin is the path of the packets

The kernel walks a flow over its graph by what the classifier has read from the rendered tables;
the packets of the flow go over the wires by what the pipelines of the switches decide. The two
ways agree from the source to the host, as long as no entry looks at the ingress port, which the
kernel does not tell the classifier.

## Key results

- `Decides.arriving`: a pipeline without such entries decides alike for every port
- `lookup_of_polled`: the classifier against the pipeline of each switch of a poll
- `reported_path_travelled`: the path of the twin against the journey of a packet
-/

namespace Ndtwin.Spec

open Ndtwin.Kernel Ndtwin.Proxy

/-! ## Journeys -/

/-- A packet of the flow, as far as the tables look; the ingress port is that of the switch. -/
structure OfFlow (key : SFlow.FlowKey) (p : PacketKeys) : Prop where
  protocol : p.value .protocol = key.protocol.toNat
  srcAddr : p.value .srcAddr = (Words.ntohl key.srcIP).toNat
  dstAddr : p.value .dstAddr = (Words.ntohl key.dstIP).toNat
  l4SrcPort : p.value .l4SrcPort = key.srcPort.toNat
  l4DstPort : p.value .l4DstPort = key.dstPort.toNat

/-- A port of the data plane: neither the controller's nor the one that means a drop. -/
def IsDataPort (port : UInt32) : Prop :=
  port.toNat < 2 ^ 9 ∧ port.toNat ≠ cpuPort.toNat ∧ port.toNat ≠ dropPort.toNat

instance (port : UInt32) : Decidable (IsDataPort port) := inferInstanceAs (Decidable (_ ∧ _))

/-- From the vertex `v` the switches may send the packet over these hops to the host `w`. The
    edges of the graph are the wires. -/
inductive Travels (g : Graph) (switches : UInt64 → Option P4Switch) :
    PacketKeys → Nat → List (UInt64 × UInt32) → Nat → Prop
  | host {p : PacketKeys} {v : Nat} {w : VertexProperties} : g.vertices[v]? = some w →
    w.dpid = 0 → Travels g switches p v [] v
  | hop {p : PacketKeys} {v w : Nat} {u : VertexProperties} {switch : P4Switch} {port : UInt32}
    {e : Edge} {hops : List (UInt64 × UInt32)} : g.vertices[v]? = some u → u.dpid ≠ 0 →
    switches u.dpid = some switch → switch.Decides p (.forward port.toNat) → IsDataPort port →
    e ∈ g.edges → g.findEdgeByDpidAndPort u.dpid port = some e.desc →
    Travels g switches (p.arriving (BitVec.ofNat 9 e.props.dstInterface.toNat)) e.desc.target
      hops w →
    Travels g switches p v ((u.dpid, port) :: hops) w

/-- The way of the packet from the host of its source address to a host, in fewer hops than the
    limit, as a path: the port where it enters, the switches with the ports where it leaves them,
    and the destination, if that is where it ends. -/
def Journey (g : Graph) (switches : UInt64 → Option P4Switch) (key : SFlow.FlowKey)
    (p : PacketKeys) (path : List (UInt64 × UInt32)) : Prop :=
  ∃ e ∈ g.edges, g.findEdgeByHostIp key.srcIP = some e.desc ∧
    ∃ hops v w, Travels g switches (p.arriving (BitVec.ofNat 9 e.props.dstInterface.toNat))
        e.desc.target hops v ∧ g.vertices[v]? = some w ∧ hops.length < hopLimit ∧
      path = [(key.srcIP.toUInt64, e.props.dstInterface)] ++ (hops ++ arrival key w)

/-! ## The ingress port -/

/-- No entry looks at the port through which the packet came. -/
def IgnoresIngress (switch : P4Switch) : Prop :=
  ∀ key ∈ switch.flow5tuple.keys, ∀ t ∈ key.keys, t.field ≠ .ingressPort

instance (switch : P4Switch) : Decidable (IgnoresIngress switch) :=
  inferInstanceAs (Decidable (∀ key ∈ switch.flow5tuple.keys, ∀ t ∈ key.keys, _))

/-- Two packets that differ in the ingress port at most. -/
def SameButIngress (p p' : PacketKeys) : Prop :=
  ∀ field, field ≠ .ingressPort → p.value field = p'.value field

theorem sameButIngress_arriving (p : PacketKeys) (q : BitVec 9) :
    SameButIngress p (p.arriving q) := by
  intro field hfield
  show p.value field = if field = .ingressPort then q.toNat else p.value field
  rw [if_neg hfield]

theorem SameButIngress.symm {p p' : PacketKeys} (h : SameButIngress p p') :
    SameButIngress p' p :=
  fun field hfield => (h field hfield).symm

theorem SameButIngress.trans {p p' p'' : PacketKeys} (h : SameButIngress p p')
    (h' : SameButIngress p' p'') : SameButIngress p p'' :=
  fun field hfield => (h field hfield).trans (h' field hfield)

theorem OfFlow.congr {key : SFlow.FlowKey} {p p' : PacketKeys} (h : OfFlow key p)
    (hsame : SameButIngress p p') : OfFlow key p' where
  protocol := by rw [← hsame .protocol (by decide), h.protocol]
  srcAddr := by rw [← hsame .srcAddr (by decide), h.srcAddr]
  dstAddr := by rw [← hsame .dstAddr (by decide), h.dstAddr]
  l4SrcPort := by rw [← hsame .l4SrcPort (by decide), h.l4SrcPort]
  l4DstPort := by rw [← hsame .l4DstPort (by decide), h.l4DstPort]

theorem hits_congr {switch : P4Switch} (hignores : IgnoresIngress switch) {p p' : PacketKeys}
    (hsame : SameButIngress p p') {key : FiveTupleKey} (hkey : key ∈ switch.flow5tuple) :
    key.hits p = key.hits p' := by
  unfold FiveTupleKey.hits
  rw [Bool.eq_iff_iff, List.all_eq_true, List.all_eq_true]
  apply forall₂_congr
  intro t ht
  unfold TernaryMatch.hits
  rw [hsame t.field (hignores key hkey t ht)]

theorem hits_lpm_congr {p p' : PacketKeys} (hsame : SameButIngress p p') (key : LpmKey) :
    key.hits p = key.hits p' := by
  unfold LpmKey.hits
  rw [hsame .dstAddr (by decide)]

/-- A pipeline whose entries do not look at the ingress port decides alike for every port. -/
theorem Decides.arriving {switch : P4Switch} (hignores : IgnoresIngress switch)
    {p p' : PacketKeys} (hsame : SameButIngress p p') {verdict : Verdict}
    (h : switch.Decides p verdict) : switch.Decides p' verdict := by
  have hmiss' : (∀ key ∈ switch.flow5tuple, key.hits p = false) →
      ∀ key ∈ switch.flow5tuple, key.hits p' = false := by
    intro hmiss key hkey
    rw [← hits_congr hignores hsame hkey]
    exact hmiss key hkey
  cases h with
  | flow5tuple hentry hhits hbest =>
    apply P4Switch.Decides.flow5tuple hentry
    · rw [← hits_congr hignores hsame (AssocMap.mem_of_lookup hentry)]
      exact hhits
    · intro key' hkey' hhits'
      rw [← hits_congr hignores hsame hkey'] at hhits'
      exact hbest key' hkey' hhits'
  | ipv4Lpm hmiss hentry hhits hlongest =>
    apply P4Switch.Decides.ipv4Lpm (hmiss' hmiss) hentry
    · rw [← hits_lpm_congr hsame]
      exact hhits
    · intro key' hkey' hhits'
      rw [← hits_lpm_congr hsame] at hhits'
      exact hlongest key' hkey' hhits'
  | default hmiss hmissLpm =>
    apply P4Switch.Decides.default (hmiss' hmiss)
    intro key hkey
    rw [← hits_lpm_congr hsame]
    exact hmissLpm key hkey

/-- The classifier is asked about a packet of the flow that came through port 0. -/
theorem flowKeyOf_arriving_zero {key : SFlow.FlowKey} {p : PacketKeys} (h : OfFlow key p) :
    flowKeyOf (p.arriving 0) = classifierKey key := by
  have h0 := h.congr (sameButIngress_arriving p 0)
  unfold flowKeyOf classifierKey
  rw [h0.protocol, h0.srcAddr, h0.dstAddr, h0.l4SrcPort, h0.l4DstPort]
  simp [PacketKeys.arriving]

/-! ## Ties -/

/-- No two entries of one priority are hit by the same packet. -/
def Untied (switch : P4Switch) : Prop :=
  ∀ key ∈ switch.flow5tuple, ∀ key' ∈ switch.flow5tuple, ∀ p : PacketKeys,
    key.hits p = true → key'.hits p = true → key.priority = key'.priority → key = key'

/-- Without ties the pipeline has no choice. -/
theorem Decides.unique {switch : P4Switch} (hexact : switch.Exact) (huntied : Untied switch)
    {p : PacketKeys} {a b : Verdict} (ha : switch.Decides p a) (hb : switch.Decides p b) :
    a = b := by
  have hconflict : ∀ {key : FiveTupleKey} {action : Forward},
      switch.flow5tuple.lookup key = some action → key.hits p = true →
      (∀ key ∈ switch.flow5tuple, key.hits p = false) → False := by
    intro key action hentry hhits hmiss
    rw [hmiss key (AssocMap.mem_of_lookup hentry)] at hhits
    cases hhits
  have hconflictLpm : ∀ {key : LpmKey} {action : Forward},
      switch.ipv4Lpm.lookup key = some action → key.hits p = true →
      (∀ key ∈ switch.ipv4Lpm, key.hits p = false) → False := by
    intro key action hentry hhits hmiss
    rw [hmiss key (AssocMap.mem_of_lookup hentry)] at hhits
    cases hhits
  cases ha with
  | @flow5tuple key action hentry hhits hbest =>
    cases hb with
    | @flow5tuple key' action' hentry' hhits' hbest' =>
      have hmem := AssocMap.mem_of_lookup hentry
      have hmem' := AssocMap.mem_of_lookup hentry'
      have hle := hbest key' hmem' hhits'
      have hle' := hbest' key hmem hhits
      obtain rfl := huntied key hmem key' hmem' p hhits hhits' (by omega)
      rw [hentry] at hentry'
      rw [Option.some.inj hentry']
    | ipv4Lpm hmiss _ _ _ => exact (hconflict hentry hhits hmiss).elim
    | default hmiss _ => exact (hconflict hentry hhits hmiss).elim
  | @ipv4Lpm hmiss key action hentry hhits _ =>
    cases hb with
    | flow5tuple hentry' hhits' _ => exact (hconflict hentry' hhits' hmiss).elim
    | @ipv4Lpm _ key' action' hentry' hhits' _ =>
      -- two host routes that the packet hits are one
      have hkey := (hexact.ipv4Lpm key action hentry).1
      have hkey' := (hexact.ipv4Lpm key' action' hentry').1
      obtain ⟨value, len⟩ := key
      obtain ⟨value', len'⟩ := key'
      obtain rfl : len = 32 := hkey.prefixLen
      obtain rfl : len' = 32 := hkey'.prefixLen
      rw [hits_lpm_iff] at hhits hhits'
      have hlen : value.length = value'.length := hkey.value.1.trans hkey'.value.1.symm
      obtain rfl := Python.eq_of_fromBytes_eq hlen (hhits.symm.trans hhits')
      rw [hentry] at hentry'
      rw [Option.some.inj hentry']
    | default _ hmissLpm => exact (hconflictLpm hentry hhits hmissLpm).elim
  | default hmiss hmissLpm =>
    cases hb with
    | flow5tuple hentry' hhits' _ => exact (hconflict hentry' hhits' hmiss).elim
    | ipv4Lpm _ hentry' hhits' _ => exact (hconflictLpm hentry' hhits' hmissLpm).elim
    | default _ _ => rfl

/-! ## The poll of all switches -/

/-- A completed poll of these switches: each has sent its table, and the fingerprint tells the
    rules of each table, and those held for the switch before, apart. -/
structure PolledAll (switches : UInt64 → Option P4Switch) (ord : SubtableOrder)
    (c₀ c : Classifier) (tables : List (UInt64 × List TableEntry)) : Prop where
  distinct : (tables.map Prod.fst).Nodup
  reads : ∀ t ∈ tables, ∃ switch, switches t.1 = some switch ∧ switch.Reads t.2
  poll : Classifier.updateFromQueriedTables ord
    (.arr (tables.map fun t => renderedTable t.1 t.2)) c₀ = .ok ⟨⟩ c
  hash : ∀ t ∈ tables, NoCollision (c₀.rules t.1 ++ renderedRules t.2)

theorem snapshots_renderedTables (tables : List (UInt64 × List TableEntry)) :
    snapshots (.arr (tables.map fun t => renderedTable t.1 t.2)) =
      tables.map fun t => (t.1, renderedRules t.2) := by
  have hentry : ∀ t : UInt64 × List TableEntry,
      snapshotsOfEntry (renderedTable t.1 t.2) = [(t.1, renderedRules t.2)] := by
    intro t
    unfold snapshotsOfEntry
    rw [readEntry_renderedTable]
    rfl
  show (tables.map _).flatMap snapshotsOfEntry = _
  rw [List.flatMap_map]
  simp only [hentry]
  exact List.flatMap_pure_eq_map _ _

/-- After the poll the classifier answers for each of the switches as its pipeline decides. -/
theorem lookup_of_polled {switches : UInt64 → Option P4Switch} {ord : SubtableOrder}
    {calls : List Json} {c₀ c : Classifier} {tables : List (UInt64 × List TableEntry)}
    (hcalls : Classifier.runCalls ord calls {} = .ok ⟨⟩ c₀)
    (h : PolledAll switches ord c₀ c tables)
    (hexact : ∀ dpid switch, switches dpid = some switch → switch.Exact) {dpid : UInt64}
    (hdpid : dpid ∈ tables.map Prod.fst) :
    ∃ switch, switches dpid = some switch ∧ switch.Exact ∧ ∀ p : PacketKeys,
      (c.lookup dpid (flowKeyOf p) 0 = none ↔ switch.Decides p .sendToCpu) ∧
      ∀ effect, c.lookup dpid (flowKeyOf p) 0 = some effect →
        ∃ port : UInt32, effect.outputPorts = [port] ∧
          switch.Decides p (.forward port.toNat) := by
  obtain ⟨t, ht, rfl⟩ := List.mem_map.mp hdpid
  obtain ⟨switch, hswitch, hread⟩ := h.reads t ht
  have hswitchExact := hexact t.1 switch hswitch
  refine ⟨switch, hswitch, hswitchExact, fun p => decides_of_isBestMatch hswitchExact hread ?_⟩
  -- the other tables of the poll are those of other switches
  obtain ⟨before, after, hsplit⟩ := List.append_of_mem ht
  have hdistinct := h.distinct
  rw [hsplit, List.map_append, List.map_cons, List.nodup_middle, List.nodup_cons,
    List.mem_append, not_or] at hdistinct
  obtain ⟨⟨hbefore, hafter⟩, -⟩ := hdistinct
  have hother : ∀ l : List (UInt64 × List TableEntry), t.1 ∉ l.map Prod.fst →
      ∀ s ∈ l.map fun t => (t.1, renderedRules t.2), s.1 ≠ t.1 := by
    intro l hl s hs heq
    obtain ⟨t', ht', rfl⟩ := List.mem_map.mp hs
    exact hl (List.mem_map.mpr ⟨t', ht', heq⟩)
  have hsnapshots := snapshots_renderedTables tables
  have hparts : (before ++ t :: after).map (fun t => (t.1, renderedRules t.2)) =
      (before.map fun t => (t.1, renderedRules t.2)) ++ (t.1, renderedRules t.2) ::
        after.map fun t => (t.1, renderedRules t.2) := by
    rw [List.map_append, List.map_cons]
  rw [hsplit, hparts] at hsnapshots
  have hprio : ∀ r ∈ renderedRules t.2, 0 ≤ r.priority := by
    intro r hr
    obtain ⟨key, action, hlookup, hrule⟩ := (renderedRules_spec hswitchExact hread).1 r hr
    rw [hrule.priority]
    exact (entryPriority_range (entryExact_of_switch hswitchExact hlookup).1).1
  have hpoll := h.poll
  rw [hsplit] at hpoll
  exact Classifier.lookup_isBestMatch_of_poll hcalls hpoll hsnapshots (hother before hbefore)
    (hother after hafter) (h.hash t ht) hprio 0 (flowKeyOf p)

/-! ## The two ways -/

/-- The twin and the network: the vertices with a datapath id are switches that were polled and
    whose entries do not look at the ingress port, and no wire is at a port of the controller. -/
structure Mirrored (g : Graph) (switches : UInt64 → Option P4Switch) (c : Classifier) : Prop where
  answers : ∀ u ∈ g.vertices, u.dpid ≠ 0 → ∃ switch, switches u.dpid = some switch ∧
    switch.Exact ∧ IgnoresIngress switch ∧ ∀ p : PacketKeys,
      (c.lookup u.dpid (flowKeyOf p) 0 = none ↔ switch.Decides p .sendToCpu) ∧
      ∀ effect, c.lookup u.dpid (flowKeyOf p) 0 = some effect →
        ∃ port : UInt32, effect.outputPorts = [port] ∧ switch.Decides p (.forward port.toNat)
  dataPorts : ∀ e ∈ g.edges, e.props.srcDpid ≠ 0 → IsDataPort e.props.srcInterface

variable {g : Graph} {switches : UInt64 → Option P4Switch} {c : Classifier} {key : SFlow.FlowKey}

/-- The port of the walk is one that the pipeline may choose, and the only one without ties. -/
theorem Mirrored.leavesBy {u : VertexProperties} (h : Mirrored g switches c)
    (hu : u ∈ g.vertices) (hswitch : u.dpid ≠ 0) {p : PacketKeys} (hp : OfFlow key p) :
    ∃ switch, switches u.dpid = some switch ∧
      (∀ port, LeavesBy c key u.dpid port → switch.Decides p (.forward port.toNat)) ∧
      (Untied switch → ∀ port : UInt32, switch.Decides p (.forward port.toNat) →
        LeavesBy c key u.dpid port) := by
  obtain ⟨switch, hlookup, hexact, hignores, hdecides⟩ := h.answers u hu hswitch
  obtain ⟨hmiss, hhit⟩ := hdecides (p.arriving 0)
  rw [flowKeyOf_arriving_zero hp] at hmiss hhit
  have hsame := sameButIngress_arriving p 0
  refine ⟨switch, hlookup, ?_, ?_⟩
  · rintro port ⟨effect, rest, heffect, hports⟩
    obtain ⟨port', hport', hforward⟩ := hhit effect heffect
    rw [hports] at hport'
    obtain rfl : port = port' := (List.cons.inj hport').1
    exact Decides.arriving hignores hsame.symm hforward
  · intro huntied port hforward
    have hzero := Decides.arriving hignores hsame hforward
    cases hfound : c.lookup u.dpid (classifierKey key) 0 with
    | none =>
      have hcontroller := Decides.unique hexact huntied hzero (hmiss.mp hfound)
      exact absurd hcontroller (by simp)
    | some effect =>
      obtain ⟨port', hport', hforward'⟩ := hhit effect hfound
      have hsamePort := Decides.unique hexact huntied hzero hforward'
      obtain rfl : port = port' := UInt32.toNat_inj.mp (Verdict.forward.inj hsamePort)
      exact ⟨effect, [], hfound, hport'⟩

/-- Where the rules lead, the switches may send the packet. -/
theorem Mirrored.travels (h : Mirrored g switches c) {v w : Nat} {hops : List (UInt64 × UInt32)}
    (harrives : Arrives g c key v hops w) {p : PacketKeys} (hp : OfFlow key p) :
    Travels g switches p v hops w := by
  -- hop by hop: the packet that arrives is of the flow as well
  induction harrives generalizing p with
  | host hv hhost => exact .host hv hhost
  | hop hv hswitch hleaves hedge _ ih =>
    obtain ⟨switch, hlookup, hforward, -⟩ := h.leavesBy (List.mem_of_getElem? hv) hswitch hp
    obtain ⟨e, he, hdesc, htest⟩ := Graph.exists_of_findEdge hedge
    obtain ⟨hdpid, hport⟩ := of_decide_eq_true htest
    subst hdesc
    have hdata := h.dataPorts e he (hdpid ▸ hswitch)
    rw [hport] at hdata
    exact .hop hv hswitch hlookup (hforward _ hleaves) hdata he hedge
      (ih (hp.congr (sameButIngress_arriving p _)))

/-- And where they may send it, the rules lead, when there are no ties. -/
theorem Mirrored.arrives (h : Mirrored g switches c)
    (huntied : ∀ dpid switch, switches dpid = some switch → Untied switch) {p : PacketKeys}
    {v w : Nat} {hops : List (UInt64 × UInt32)} (htravels : Travels g switches p v hops w)
    (hp : OfFlow key p) : Arrives g c key v hops w := by
  induction htravels with
  | host hv hhost => exact .host hv hhost
  | @hop p v w u switch port e hops hv hswitch hlookup hforward _ _ hedge _ ih =>
    obtain ⟨switch', hlookup', -, hleaves⟩ :=
      h.leavesBy (List.mem_of_getElem? hv) hswitch hp
    rw [hlookup] at hlookup'
    obtain rfl := Option.some.inj hlookup'
    exact .hop hv hswitch (hleaves (huntied u.dpid switch hlookup) port hforward) hedge
      (ih (hp.congr (sameButIngress_arriving p _)))

/-- The switches of the proxy, under their datapath ids. -/
def switchesOf (m : TopologyManager) (dpid : UInt64) : Option P4Switch :=
  m.switches.lookup (dpid.toNat : Int)

/-- From a proxy whose switches are empty, after any operations and a completed poll of all
    switches of the topology, none of whose entries looks at the ingress port: a path that a pass
    records for a flow is one that every packet of the flow may take, switch by switch and port
    by port, and where no entries tie it is the only one, and none that a packet takes to a host
    is missed. -/
theorem reported_path_travelled (shortestPath : ShortestPath) (m : TopologyManager)
    (hempty : ∀ d s, m.switches.lookup d = some s → s = {}) (ops : List RouteOp)
    (ord : SubtableOrder) (calls : List Json) (c₀ c : Classifier)
    (hcalls : Classifier.runCalls ord calls {} = .ok ⟨⟩ c₀)
    (tables : List (UInt64 × List TableEntry))
    (hpolled : PolledAll (switchesOf (GuardedRun.run (RouteOp.step shortestPath) m ops)) ord c₀ c
      tables)
    (g : Graph) (hcovers : ∀ u ∈ g.vertices, u.dpid ≠ 0 → u.dpid ∈ tables.map Prod.fst)
    (hports : ∀ e ∈ g.edges, e.props.srcDpid ≠ 0 → IsDataPort e.props.srcInterface)
    (hignores : ∀ dpid switch,
      switchesOf (GuardedRun.run (RouteOp.step shortestPath) m ops) dpid = some switch →
        IgnoresIngress switch)
    (collector : Collector) (key : SFlow.FlowKey) (info : SFlow.FlowInfo)
    (hinfo : (collector.calFlowPathByQueried g c).flowInfoTable.lookup key = some info)
    (p : PacketKeys) (hp : OfFlow key p) :
    let switches := switchesOf (GuardedRun.run (RouteOp.step shortestPath) m ops)
    (info.flowPath ≠ [] → Journey g switches key p info.flowPath) ∧
    ((∀ dpid switch, switches dpid = some switch → Untied switch) →
      (classifierKey key).ipv4Src ≠ 0 → (classifierKey key).ipv4Dst ≠ 0 →
      ∀ path, Journey g switches key p path → info.flowPath = path) := by
  intro switches
  have hexact : ∀ dpid switch, switches dpid = some switch → switch.Exact :=
    fun dpid switch hswitch => exactTables_run shortestPath hempty ops _ switch hswitch
  have hmirror : Mirrored g switches c :=
    { answers := fun u hu hdpid => by
        obtain ⟨switch, hswitch, hsw, hdecides⟩ :=
          lookup_of_polled hcalls hpolled hexact (hcovers u hu hdpid)
        exact ⟨switch, hswitch, hsw, hignores u.dpid switch hswitch, hdecides⟩
      dataPorts := hports }
  rw [lookup_calFlowPathByQueried] at hinfo
  obtain ⟨before, -, rfl⟩ := Option.map_eq_some_iff.mp hinfo
  constructor
  · intro hne
    obtain ⟨-, e, he, hsource, hops, v, w, harrives, hw, hlimit, hpath⟩ :=
      walkFlow_eq_true_iff.mp (committedPath_of_ne_nil hne)
    have hpe := hp.congr (sameButIngress_arriving p (BitVec.ofNat 9 e.props.dstInterface.toNat))
    exact ⟨e, he, hsource, hops, v, w, hmirror.travels harrives hpe, hw, hlimit, hpath⟩
  · rintro huntied hsrc hdst path ⟨e, he, hsource, hops, v, w, htravels, hw, hlimit, rfl⟩
    have hpe := hp.congr (sameButIngress_arriving p (BitVec.ofNat 9 e.props.dstInterface.toNat))
    have harrives := hmirror.arrives huntied htravels hpe
    have hwalk := walkFlow_eq_true_iff.mpr
      ⟨not_or.mpr ⟨hsrc, hdst⟩, e, he, hsource, hops, v, w, harrives, hw, hlimit, rfl⟩
    show committedPath g c key = _
    unfold committedPath
    rw [hwalk]
    rfl

/-! ### One switch -/

/-- A route to host 2 of the star. -/
def starOps : List RouteOp := [routeOnOne [("nw_dst", .str "10.0.0.2")] 2]

/-- A packet of the flow from host 1 to host 2. -/
def starPacket : PacketKeys where
  value
    | .ingressPort => 1
    | .protocol => 17
    | .srcAddr => 0x0a000001
    | .dstAddr => 0x0a000002
    | .l4SrcPort => 1000
    | .l4DstPort => 2000
  value_lt field := by cases field <;> decide

/-- The proxy after the route. -/
abbrev starProxy : TopologyManager :=
  GuardedRun.run (RouteOp.step fun _ _ _ => none) oneSwitch starOps

theorem switchesOf_starProxy {dpid : UInt64} {switch : P4Switch}
    (h : switchesOf starProxy dpid = some switch) :
    (dpid.toNat, switch) ∈ starProxy.switches.toPairs.map fun t => (t.1.toNat, t.2) := by
  have hmem := AssocMap.mem_toPairs.mpr h
  exact List.mem_map.mpr ⟨_, hmem, rfl⟩

theorem starFlow_travelled :
    ∃ info, (starCollector.calFlowPathByQueried star
        (polledOne starOps)).flowInfoTable.lookup starFlow = some info ∧
      info.flowPath = [((starAddress 1).toUInt64, 1), (1, 2), ((starAddress 2).toUInt64, 0)] ∧
      Journey star (switchesOf starProxy) starFlow starPacket info.flowPath := by
  have hlookup : (starCollector.calFlowPathByQueried star
      (polledOne starOps)).flowInfoTable.lookup starFlow =
      some { flowPath := committedPath star (polledOne starOps) starFlow } := by
    rw [lookup_calFlowPathByQueried]
    rfl
  have hpath : committedPath star (polledOne starOps) starFlow =
      [((starAddress 1).toUInt64, 1), (1, 2), ((starAddress 2).toUInt64, 0)] := by decide +kernel
  rw [hpath] at hlookup
  have hpoll := EState.eq_ok_of_isOk (m := Classifier.updateFromQueriedTables stableOrder
    (.arr [renderedTable 1 (switchOne starOps).tableEntries])) (s := {}) (by decide +kernel)
  have hpolled : PolledAll (switchesOf starProxy) stableOrder {} (polledOne starOps)
      [(1, (switchOne starOps).tableEntries)] :=
    { distinct := by simp
      reads := fun t ht => by
        obtain rfl := List.mem_singleton.mp ht
        exact ⟨switchOne starOps, lookup_switchOne (by decide +kernel), reads_tableEntries _⟩
      poll := hpoll
      hash := fun t ht => by
        obtain rfl := List.mem_singleton.mp ht
        decide +kernel }
  have htables : ∀ t ∈ starProxy.switches.toPairs.map fun t => (t.1.toNat, t.2),
      IgnoresIngress t.2 := by
    decide +kernel
  have hcovers : ∀ u ∈ star.vertices, u.dpid ≠ 0 →
      u.dpid ∈ [((1 : UInt64), (switchOne starOps).tableEntries)].map Prod.fst := by
    simp [star, starSwitch, starHost]
  have hflow : OfFlow starFlow starPacket :=
    ⟨by decide, by decide, by decide, by decide, by decide⟩
  obtain ⟨hjourney, -⟩ := reported_path_travelled (fun _ _ _ => none) oneSwitch oneSwitch_empty
    starOps stableOrder [] {} (polledOne starOps) rfl _ hpolled star hcovers (by decide)
    (fun dpid switch h => htables _ (switchesOf_starProxy h)) starCollector starFlow _ hlookup
    starPacket hflow
  exact ⟨_, hlookup, rfl, hjourney (by simp)⟩

end Ndtwin.Spec

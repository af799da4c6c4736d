import Ndtwin.Kernel.FlowStatsPoll
import Ndtwin.Spec.ClassifierCorrect
import Ndtwin.Spec.RenderedRuleCorrect

/-!
# Rendered Table Correctness

The classifier that has polled the rendered table of a P4 switch answers as the pipeline of the
switch does: `flow_5tuple` has priorities from 1 on and `ipv4_lpm` is rendered with priority 0,
so that one merged table orders the entries as the two tables do. A rule whose fingerprint is
that of another one is not stored, and is then missing from the answers.

## Key results

- `renderedRules_spec`: the rules read from a rendered table are the entries of the switch
- `rendered_lookup_decides`: the lookup and the pipeline agree
- `colliding_routes_disagree`: two routes of one fingerprint
-/

namespace Ndtwin.Spec

open Ndtwin.Kernel Ndtwin.Proxy

/-! ## Entries of either table -/

/-- What an entry asks of the packet. -/
def entryValues : TableKey → FieldValues
  | .fiveTuple key => key.keys.map fun t => (t.field, t.value)
  | .lpm key => [(.dstAddr, key.value)]

/-- The priority under which an entry is rendered. -/
def entryPriority : TableKey → Int
  | .fiveTuple key => key.priority
  | .lpm _ => 0

/-- An entry as it is read back. -/
def entryRead (action : Forward) : TableKey → TableEntry
  | .fiveTuple key => key.tableEntry action
  | .lpm key => key.tableEntry action

/-- The action of an entry of a switch. -/
def entryAction (switch : P4Switch) : TableKey → Option Forward
  | .fiveTuple key => switch.flow5tuple.lookup key
  | .lpm key => switch.ipv4Lpm.lookup key

/-- The entry is one that the proxy writes. -/
def EntryExact : TableKey → Prop
  | .fiveTuple key => key.Exact
  | .lpm key => key.Exact

theorem entryExact_of_switch {switch : P4Switch} (h : switch.Exact) {key : TableKey}
    {action : Forward} (hentry : entryAction switch key = some action) :
    EntryExact key ∧ action.port.length = 2 := by
  cases key with
  | fiveTuple key => exact h.flow5tuple key action hentry
  | lpm key => exact h.ipv4Lpm key action hentry

/-- The entries that are read are those of the tables. -/
theorem mem_tableEntries {switch : P4Switch} {entry : TableEntry} :
    entry ∈ switch.tableEntries ↔
      ∃ key action, entryAction switch key = some action ∧ entry = entryRead action key := by
  unfold P4Switch.tableEntries
  simp only [List.mem_append, List.mem_map, Prod.exists, AssocMap.mem_toPairs]
  constructor
  · rintro (⟨key, action, hlookup, rfl⟩ | ⟨key, action, hlookup, rfl⟩)
    · exact ⟨.lpm key, action, hlookup, rfl⟩
    · exact ⟨.fiveTuple key, action, hlookup, rfl⟩
  · rintro ⟨key, action, hlookup, rfl⟩
    cases key with
    | fiveTuple key => exact Or.inr ⟨key, action, hlookup, rfl⟩
    | lpm key => exact Or.inl ⟨key, action, hlookup, rfl⟩

/-! ## Rendering of an entry -/

theorem ipv4Text_canonical {bytes : List UInt8} (h : bytes.length = 4) :
    ipv4Text (canonical bytes) = String.ofList (Decimal.dottedQuad bytes) := by
  rw [ipv4Text, rjust_canonical h, ← h, List.take_length]

theorem fieldOfSpec_lpm {key : LpmKey} (h : key.Exact) :
    fieldOfSpec (P4Field.dstAddr.name, .lpm (canonical key.value) key.prefixLen) =
      some (ryuField (.dstAddr, key.value)) := by
  have htext : valueToRyu "nw_dst" (.lpm (canonical key.value) key.prefixLen) =
      ryuValue .dstAddr key.value := by
    show Json.str (ipv4Text (canonical key.value) ++ prefixToNetmaskSuffix key.prefixLen) = _
    rw [ipv4Text_canonical h.value.1, h.prefixLen]
    show Json.str (_ ++ "") = Json.str _
    rw [String.append_empty]
  show some ("nw_dst", valueToRyu "nw_dst" _) = _
  rw [htext]
  rfl

/-- A full mask is not an empty one. -/
theorem fromBytes_mask_ne_zero {t : TernaryMatch} (h : t.Exact) :
    Python.fromBytes (canonical t.mask) ≠ 0 := by
  rw [fromBytes_canonical, h.mask]
  cases t.field <;> decide

theorem fieldOfSpec_ternary {t : TernaryMatch} (h : t.Exact) :
    fieldOfSpec (t.field.name, .ternary (canonical t.value) (canonical t.mask)) =
      some (ryuField (t.field, t.value)) := by
  have hmask := fromBytes_mask_ne_zero h
  have hencodes := h.value
  obtain ⟨field, value, mask⟩ := t
  have hname : getItem fieldToRyu field.name = some (ryuName field) := by
    cases field <;> decide
  have hvalue : valueToRyu (ryuName field) (.ternary (canonical value) (canonical mask)) =
      ryuValue field value := by
    cases field with
    | srcAddr => exact congrArg Json.str (ipv4Text_canonical (length_of_address rfl hencodes))
    | dstAddr => exact congrArg Json.str (ipv4Text_canonical (length_of_address rfl hencodes))
    | _ => exact congrArg Json.uint (fromBytes_canonical value)
  unfold fieldOfSpec
  simp only [hname, hmask, if_false, hvalue]
  rfl

theorem renders_entryRead {key : TableKey} (h : EntryExact key) (action : Forward)
    (counters : Option CounterData) :
    Renders { entryRead action key with counters := counters } (entryValues key)
      (entryPriority key) action := by
  cases key with
  | fiveTuple key =>
    refine ⟨rfl, rfl, rfl, ?_⟩
    show (key.keys.map _).filterMap fieldOfSpec = (key.keys.map _).map ryuField
    rw [List.map_map]
    exact List.filterMap_map_eq_map fun t ht => fieldOfSpec_ternary (h.keys t ht)
  | lpm key =>
    refine ⟨rfl, rfl, rfl, ?_⟩
    show [_].filterMap fieldOfSpec = _
    rw [List.filterMap_cons_some (fieldOfSpec_lpm h)]
    rfl

/-- A key with a full mask is hit by its value. -/
theorem exact_hits_iff {t : TernaryMatch} (h : t.Exact) (p : PacketKeys) :
    t.hits p = true ↔ p.value t.field = Python.fromBytes t.value := by
  have hmask : Python.fromBytes t.mask = 2 ^ t.field.bits - 1 := by
    rw [h.mask]
    apply Python.fromBytes_bytesOf
    cases t.field <;> decide
  unfold TernaryMatch.hits
  rw [decide_eq_true_eq, hmask, Nat.and_two_pow_sub_one_eq_mod, Nat.and_two_pow_sub_one_eq_mod,
    Nat.mod_eq_of_lt (p.value_lt t.field), Nat.mod_eq_of_lt h.value.2]

/-- The packets that hit an entry have the values it asks for. -/
theorem entry_hits_iff {key : TableKey} (h : EntryExact key) (p : PacketKeys) :
    key.hits p = true ↔ ∀ v ∈ entryValues key, p.value v.1 = Python.fromBytes v.2 := by
  cases key with
  | fiveTuple key =>
    show (key.keys.all fun t => t.hits p) = true ↔ _
    simp only [List.all_eq_true, entryValues, List.forall_mem_map]
    exact forall₂_congr fun t ht => exact_hits_iff (h.keys t ht) p
  | lpm key =>
    obtain ⟨value, prefixLen⟩ := key
    obtain rfl : prefixLen = 32 := h.prefixLen
    simp only [entryValues, List.forall_mem_singleton]
    exact hits_lpm_iff value p

/-! ## The rules of a rendered table -/

/-- The rule is that of an entry. -/
structure RuleFor (r : Rule) (key : TableKey) (action : Forward) : Prop where
  tableId : r.tableId = 0
  priority : r.priority = entryPriority key
  effect : r.effect = { outputPorts := [UInt32.ofNat (Python.fromBytes action.port)] }
  matches_iff : ∀ p, r.Matches (packKey (flowKeyOf p)) ↔ key.hits p = true

theorem entryPriority_range {key : TableKey} (h : EntryExact key) :
    0 ≤ entryPriority key ∧ entryPriority key < 2 ^ 31 := by
  cases key with
  | fiveTuple key => exact ⟨le_trans Int.one_nonneg h.priority_pos, h.priority_lt⟩
  | lpm key =>
    have hpos : (0 : Int) < 2 ^ 31 := by decide
    exact ⟨le_refl 0, hpos⟩

/-- The rule that is read from a rendered entry. -/
theorem parseRule_of_entry {key : TableKey} (h : EntryExact key) {action : Forward}
    (hport : action.port.length = 2) (counters : Option CounterData) :
    ∃ json r, entryToRyu { entryRead action key with counters := counters } = some json ∧
      parseRuleFromJson json = .ok r ∧ RuleFor r key action := by
  have hrange := entryPriority_range h
  -- An entry has at least one value, each is one a match encodes, and no field is there twice.
  have hshape : entryValues key ≠ [] ∧ (∀ v ∈ entryValues key, v.1.Encodes v.2) ∧
      ((entryValues key).map Prod.fst).Nodup := by
    cases key with
    | fiveTuple key =>
      refine ⟨fun hnil => h.nonempty (List.map_eq_nil_iff.mp hnil), ?_, ?_⟩
      · intro v hv
        obtain ⟨t, ht, rfl⟩ := List.mem_map.mp hv
        exact (h.keys t ht).value
      · have hnodup := h.nodup
        simp only [entryValues, List.map_map]
        exact hnodup
    | lpm key =>
      refine ⟨List.cons_ne_nil _ _, ?_, List.nodup_singleton _⟩
      intro v hv
      obtain rfl := List.mem_singleton.mp hv
      exact h.value
  obtain ⟨hne, hvalues, hnodup⟩ := hshape
  obtain ⟨json, r, hjson, hparse, htable, hprio, heffect, hmatch⟩ :=
    parseRule_of_renders (renders_entryRead h action counters) hne hvalues hnodup hrange.1 hrange.2
      hport
  exact ⟨json, r, hjson, hparse, htable, hprio, heffect, fun p =>
    (hmatch p).trans (entry_hits_iff h p).symm⟩

/-- The rules that are read from a rendered table. -/
def renderedRules (entries : List TableEntry) : List Rule :=
  (EState.prefixOk parseRuleFromJson (entries.filterMap entryToRyu)).1

/-- Every rendered entry parses, and the rules are those of the entries of the switch. -/
theorem renderedRules_spec {switch : P4Switch} (h : switch.Exact) {entries : List TableEntry}
    (hread : switch.Reads entries) :
    (∀ r ∈ renderedRules entries, ∃ key action, entryAction switch key = some action ∧
      RuleFor r key action) ∧
    ∀ key action, entryAction switch key = some action →
      ∃ r ∈ renderedRules entries, RuleFor r key action := by
  -- a rendered entry, with the entry of the switch that it is
  have hentry : ∀ entry ∈ entries, ∀ json, entryToRyu entry = some json →
      ∃ key action r, entryAction switch key = some action ∧ parseRuleFromJson json = .ok r ∧
        RuleFor r key action := by
    intro entry hmem json hjson
    have hnot : entry.isDefault = false := by
      by_contra hdefault
      rw [entryToRyu, if_pos (Bool.of_not_eq_false hdefault)] at hjson
      exact nomatch hjson
    have hlisted : { entry with counters := none } ∈ switch.tableEntries := by
      apply hread.mem_iff.mp
      exact List.mem_map.mpr ⟨entry, List.mem_filter.mpr ⟨hmem, by rw [hnot]; rfl⟩, rfl⟩
    obtain ⟨key, action, hlookup, heq⟩ := mem_tableEntries.mp hlisted
    obtain ⟨hexact, hport⟩ := entryExact_of_switch h hlookup
    have hcounters : entry = { entryRead action key with counters := entry.counters } := by
      rw [← heq]
    obtain ⟨json', r, hjson', hparse, hrule⟩ := parseRule_of_entry hexact hport entry.counters
    rw [← hcounters, hjson] at hjson'
    cases hjson'
    exact ⟨key, action, r, hlookup, hparse, hrule⟩
  constructor
  · intro r hr
    obtain ⟨json, hjson, hparse⟩ := EState.exists_of_mem_prefixOk hr
    obtain ⟨entry, hmem, hrender⟩ := List.mem_filterMap.mp hjson
    obtain ⟨key, action, r', hlookup, hparse', hrule⟩ := hentry entry hmem json hrender
    rw [hparse] at hparse'
    cases hparse'
    exact ⟨key, action, hlookup, hrule⟩
  · intro key action hlookup
    have hlisted := hread.mem_iff.mpr (mem_tableEntries.mpr ⟨key, action, hlookup, rfl⟩)
    obtain ⟨entry, hmem, heq⟩ := List.mem_map.mp hlisted
    obtain ⟨hexact, hport⟩ := entryExact_of_switch h hlookup
    obtain ⟨json, r, hjson, hparse, hrule⟩ := parseRule_of_entry hexact hport entry.counters
    have hcounters : entry = { entryRead action key with counters := entry.counters } := by
      rw [← heq]
    rw [← hcounters] at hjson
    have hparses : ∀ json ∈ entries.filterMap entryToRyu, ∃ r, parseRuleFromJson json = .ok r := by
      intro json' hjson'
      obtain ⟨entry', hmem', hrender⟩ := List.mem_filterMap.mp hjson'
      obtain ⟨_, _, r', -, hparse', -⟩ := hentry entry' hmem' json' hrender
      exact ⟨r', hparse'⟩
    exact ⟨r, (EState.prefixOk_of_forall hparses).2 json
      (List.mem_filterMap.mpr ⟨entry, (List.mem_filter.mp hmem).1, hjson⟩) r hparse, hrule⟩

/-! ## The lookup and the pipeline -/

theorem toNat_port {action : Forward} (h : action.port.length = 2) :
    (UInt32.ofNat (Python.fromBytes action.port)).toNat = Python.fromBytes action.port := by
  have hlt := Python.fromBytes_lt action.port
  rw [h] at hlt
  rw [UInt32.toNat_ofNat', Nat.mod_eq_of_lt (by omega)]

/-- No entry of either table is hit exactly when the default action of `ipv4_lpm` is taken. -/
theorem decides_sendToCpu_iff {switch : P4Switch} {p : PacketKeys} :
    switch.Decides p .sendToCpu ↔
      ∀ key action, entryAction switch key = some action → key.hits p = false := by
  constructor
  · intro h key action hlookup
    cases h with
    | default hmiss hmissLpm =>
      cases key with
      | fiveTuple key => exact hmiss key (AssocMap.mem_of_lookup hlookup)
      | lpm key => exact hmissLpm key (AssocMap.mem_of_lookup hlookup)
  · intro h
    refine .default (fun key hkey => ?_) (fun key hkey => ?_)
    · obtain ⟨action, hlookup⟩ := AssocMap.exists_of_mem hkey
      exact h (.fiveTuple key) action hlookup
    · obtain ⟨action, hlookup⟩ := AssocMap.exists_of_mem hkey
      exact h (.lpm key) action hlookup

/-- An entry that is hit, and that no entry hit by the packet has a higher rendered priority
    than, is one whose action the pipeline may take. -/
theorem decides_forward {switch : P4Switch} (h : switch.Exact) {p : PacketKeys} {key : TableKey}
    {action : Forward} (hentry : entryAction switch key = some action)
    (hhits : key.hits p = true)
    (hbest : ∀ key' action', entryAction switch key' = some action' → key'.hits p = true →
      entryPriority key' ≤ entryPriority key) :
    switch.Decides p (.forward (Python.fromBytes action.port)) := by
  cases key with
  | fiveTuple key =>
    refine .flow5tuple hentry hhits fun key' hkey' hhits' => ?_
    obtain ⟨action', hlookup⟩ := AssocMap.exists_of_mem hkey'
    exact hbest (.fiveTuple key') action' hlookup hhits'
  | lpm key =>
    refine .ipv4Lpm (fun key' hkey' => ?_) hentry hhits fun key' hkey' _ => ?_
    · -- a hit in the 5-tuple table would have a higher priority than 0
      obtain ⟨action', hlookup⟩ := AssocMap.exists_of_mem hkey'
      rw [Bool.eq_false_iff]
      intro hhits'
      have hle : key'.priority ≤ 0 := hbest (.fiveTuple key') action' hlookup hhits'
      have hpos := (h.flow5tuple key' action' hlookup).1.priority_pos
      omega
    · obtain ⟨action', hlookup⟩ := AssocMap.exists_of_mem hkey'
      rw [(h.ipv4Lpm key' action' hlookup).1.prefixLen, (h.ipv4Lpm key action hentry).1.prefixLen]

/-- A scan of the rules of a rendered table decides as the pipeline does. -/
theorem decides_of_isBestMatch {switch : P4Switch} (h : switch.Exact) {entries : List TableEntry}
    (hread : switch.Reads entries) {p : PacketKeys} {result : Option RuleEffect}
    (hbest : IsBestMatch (fun r => r ∈ renderedRules entries ∧ r.tableId = 0)
      (packKey (flowKeyOf p)) result) :
    (result = none ↔ switch.Decides p .sendToCpu) ∧
    ∀ effect, result = some effect → ∃ port : UInt32, effect.outputPorts = [port] ∧
      switch.Decides p (.forward port.toNat) := by
  obtain ⟨hrules, hentries⟩ := renderedRules_spec h hread
  constructor
  · rw [hbest.eq_none_iff, decides_sendToCpu_iff]
    constructor
    · intro hnone key action hlookup
      obtain ⟨r, hr, hrule⟩ := hentries key action hlookup
      rw [Bool.eq_false_iff, ne_eq, ← hrule.matches_iff p]
      exact hnone r ⟨hr, hrule.tableId⟩
    · intro hmiss r hr hmatch
      obtain ⟨key, action, hlookup, hrule⟩ := hrules r hr.1
      rw [hrule.matches_iff p, hmiss key action hlookup] at hmatch
      exact nomatch hmatch
  · intro effect heffect
    rw [heffect] at hbest
    obtain ⟨r, hr, hmatch, heq, hmax⟩ := hbest
    obtain ⟨key, action, hlookup, hrule⟩ := hrules r hr.1
    refine ⟨UInt32.ofNat (Python.fromBytes action.port), ?_, ?_⟩
    · rw [← heq, hrule.effect]
    · rw [toNat_port (entryExact_of_switch h hlookup).2]
      -- a better entry of the switch would be a better rule of the table
      refine decides_forward h hlookup ((hrule.matches_iff p).mp hmatch) ?_
      intro key' action' hlookup' hhits'
      obtain ⟨r', hr', hrule'⟩ := hentries key' action' hlookup'
      have hle := hmax r' ⟨hr', hrule'.tableId⟩ ((hrule'.matches_iff p).mpr hhits')
      rwa [hrule.priority, hrule'.priority] at hle

/-! ## Polls -/

/-- The element of a poll that carries a rendered table. -/
def renderedTable (dpid : UInt64) (entries : List TableEntry) : Json :=
  SwitchTable.toJson { dpid := dpid, flows := renderFlowStats dpid.toNat entries }

theorem readEntry_renderedTable (dpid : UInt64) (entries : List TableEntry) :
    Classifier.readEntry (renderedTable dpid entries) =
      .ok (dpid, some (entries.filterMap entryToRyu)) := by
  have hflows : extractFlowArray (renderFlowStats dpid.toNat entries) dpid =
      some (.arr (entries.filterMap entryToRyu)) := by
    unfold extractFlowArray renderFlowStats
    dsimp only
    split
    · next v hv =>
      rw [field?_obj, List.find?_singleton] at hv
      split at hv
      · exact hv.symm
      · cases hv
    · rfl
  have hdpid : UInt64.ofNat dpid.toNat = dpid := UInt64.ofNat_toNat
  have hread : ((renderedTable dpid entries).atField "dpid").mapError .json >>= parseU64 =
      .ok (UInt64.ofNat dpid.toNat) := rfl
  have hnode : ((renderedTable dpid entries).atField "flows").mapError ParseError.json =
      .ok (renderFlowStats dpid.toNat entries) := rfl
  rw [Classifier.readEntry, hread, hnode, EState.ok_bind, EState.ok_bind, hdpid, hflows]
  rfl

/-- The element is not about the switch. -/
def NotAbout (dpid : UInt64) (entry : Json) : Prop :=
  ∀ flows, Classifier.readEntry entry ≠ .ok (dpid, some flows)

theorem ne_of_notAbout {dpid : UInt64} {entries : List Json}
    (h : ∀ entry ∈ entries, NotAbout dpid entry) :
    ∀ s ∈ entries.flatMap snapshotsOfEntry, s.1 ≠ dpid := by
  rintro s hs rfl
  obtain ⟨entry, hentry, hsnapshot⟩ := List.mem_flatMap.mp hs
  unfold snapshotsOfEntry at hsnapshot
  split at hsnapshot
  · next dpid' flows hread =>
    obtain rfl := List.mem_singleton.mp hsnapshot
    exact h entry hentry flows hread
  · exact absurd hsnapshot List.not_mem_nil

/-- From a proxy whose switches are empty, after any operations, for any switch and any packet:
    after a completed poll with the rendered table of the switch, in which no two different rules
    of that table and of those held for the switch have one fingerprint, the lookup finds nothing
    exactly when the pipeline takes the default action of `ipv4_lpm`, and otherwise one output
    port, to which the pipeline may forward. -/
theorem rendered_lookup_decides (shortestPath : ShortestPath) (m : TopologyManager)
    (hempty : ∀ d s, m.switches.lookup d = some s → s = {}) (ops : List RouteOp) (dpid : UInt64)
    (switch : P4Switch)
    (hswitch : (GuardedRun.run (RouteOp.step shortestPath) m ops).switches.lookup (dpid.toNat : Int) =
      some switch)
    (entries : List TableEntry) (hread : switch.Reads entries) (ord : SubtableOrder)
    (calls : List Json) (c₀ : Classifier) (hcalls : Classifier.runCalls ord calls {} = .ok ⟨⟩ c₀)
    (before after : List Json) (hothers : ∀ entry ∈ before ++ after, NotAbout dpid entry)
    (c : Classifier)
    (hpoll : Classifier.updateFromQueriedTables ord
      (.arr (before ++ renderedTable dpid entries :: after)) c₀ = .ok ⟨⟩ c)
    (hhash : NoCollision (c₀.rules dpid ++ renderedRules entries)) (p : PacketKeys) :
    (c.lookup dpid (flowKeyOf p) 0 = none ↔ switch.Decides p .sendToCpu) ∧
    ∀ effect, c.lookup dpid (flowKeyOf p) 0 = some effect →
      ∃ port : UInt32, effect.outputPorts = [port] ∧ switch.Decides p (.forward port.toNat) := by
  have hexact : switch.Exact := exactTables_run shortestPath hempty ops _ switch hswitch
  have hsnapshots : snapshots (.arr (before ++ renderedTable dpid entries :: after)) =
      before.flatMap snapshotsOfEntry ++ (dpid, renderedRules entries) ::
        after.flatMap snapshotsOfEntry := by
    have hentry : snapshotsOfEntry (renderedTable dpid entries) =
        [(dpid, renderedRules entries)] := by
      unfold snapshotsOfEntry
      rw [readEntry_renderedTable]
      rfl
    show List.flatMap snapshotsOfEntry (before ++ renderedTable dpid entries :: after) = _
    rw [List.flatMap_append, List.flatMap_cons, hentry]
    rfl
  have hprio : ∀ r ∈ renderedRules entries, 0 ≤ r.priority := by
    intro r hr
    obtain ⟨key, action, hlookup, hrule⟩ := (renderedRules_spec hexact hread).1 r hr
    rw [hrule.priority]
    exact (entryPriority_range (entryExact_of_switch hexact hlookup).1).1
  -- the entries of the other switches install nothing under this one
  have hbest := Classifier.lookup_isBestMatch_of_poll hcalls hpoll hsnapshots
    (ne_of_notAbout fun entry he => hothers entry (List.mem_append_left _ he))
    (ne_of_notAbout fun entry he => hothers entry (List.mem_append_right _ he))
    hhash hprio 0 (flowKeyOf p)
  exact decides_of_isBestMatch hexact hread hbest

/-! ### Two routes -/

/-- A switch that sends no counters and no default entries. -/
theorem reads_tableEntries (switch : P4Switch) : switch.Reads switch.tableEntries := by
  have hplain : ∀ entry ∈ switch.tableEntries, entry.isDefault = false ∧ entry.counters = none := by
    intro entry hentry
    obtain ⟨key, action, -, rfl⟩ := mem_tableEntries.mp hentry
    cases key <;> exact ⟨rfl, rfl⟩
  have hfilter : switch.tableEntries.filter (fun e => !e.isDefault) = switch.tableEntries := by
    rw [List.filter_eq_self]
    intro entry hentry
    rw [(hplain entry hentry).1]
    rfl
  have hmap : switch.tableEntries.map (fun e => { e with counters := none }) =
      switch.tableEntries := by
    calc switch.tableEntries.map (fun e => { e with counters := none })
        = switch.tableEntries.map id := by
          apply List.map_congr_left
          intro entry hentry
          have hcounters := (hplain entry hentry).2
          cases entry
          cases hcounters
          rfl
      _ = switch.tableEntries := List.map_id _
  unfold P4Switch.Reads
  rw [hfilter, hmap]

/-- A request to forward what has some fields to a port of switch 1. -/
def routeOnOne (fields : List (String × Json)) (port : Int) : RouteOp :=
  .routeFlow (.int 1) (.obj fields)
    (.arr [.obj [("type", .str "OUTPUT"), ("port", .int port)]]) (.int 10) {}

/-- Switch 1 after some operations. -/
def switchOne (ops : List RouteOp) : P4Switch :=
  ((GuardedRun.run (RouteOp.step fun _ _ _ => none) oneSwitch ops).switches.lookup 1).getD {}

theorem lookup_switchOne {ops : List RouteOp}
    (h : ((GuardedRun.run (RouteOp.step fun _ _ _ => none) oneSwitch ops).switches.lookup
      1).isSome = true) :
    (GuardedRun.run (RouteOp.step fun _ _ _ => none) oneSwitch ops).switches.lookup 1 =
      some (switchOne ops) := by
  unfold switchOne
  obtain ⟨switch, hswitch⟩ := Option.isSome_iff_exists.mp h
  rw [hswitch, Option.getD_some]

theorem oneSwitch_empty : ∀ d s, oneSwitch.switches.lookup d = some s → s = {} := by
  intro d s h
  have hset : ((∅ : AssocMap Int P4Switch).set 1 {}).lookup d = some s := h
  rw [AssocMap.lookup_set] at hset
  split at hset
  · exact (Option.some.inj hset).symm
  · exact nomatch hset

/-- The classifier that has polled the table of switch 1. -/
def polledOne (ops : List RouteOp) : Classifier :=
  EState.finalState (Classifier.updateFromQueriedTables stableOrder
    (.arr [renderedTable 1 (switchOne ops).tableEntries])) {}

/-- A route for an address, and a rule for the HTTP requests to it. -/
def httpOps : List RouteOp :=
  [routeOnOne [("nw_dst", .str "10.0.0.1")] 1,
    routeOnOne [("nw_dst", .str "10.0.0.1"), ("ip_proto", .int 6), ("tp_dst", .int 80)] 2]

theorem rendered_lookup_decides_http :
    (polledOne httpOps).lookup 1 (flowKeyOf (destinationPacket 0x0a000001 (by decide))) 0 =
        some { outputPorts := [1] } ∧
      (switchOne httpOps).Decides (destinationPacket 0x0a000001 (by decide)) (.forward 1) := by
  have hpoll := EState.eq_ok_of_isOk (m := Classifier.updateFromQueriedTables stableOrder
    (.arr [renderedTable 1 (switchOne httpOps).tableEntries])) (s := {}) (by decide +kernel)
  have hfound : (polledOne httpOps).lookup 1
      (flowKeyOf (destinationPacket 0x0a000001 (by decide))) 0 = some { outputPorts := [1] } := by
    decide +kernel
  obtain ⟨port, hport, hdecides⟩ := (rendered_lookup_decides (fun _ _ _ => none) oneSwitch
    oneSwitch_empty httpOps 1 (switchOne httpOps) (lookup_switchOne (by decide +kernel))
    (switchOne httpOps).tableEntries (reads_tableEntries _) stableOrder [] {} rfl [] [] nofun
    (polledOne httpOps) hpoll (by decide +kernel)
    (destinationPacket 0x0a000001 (by decide))).2 _ hfound
  obtain rfl : (1 : UInt32) = port := (List.cons.inj hport).1
  exact ⟨hfound, hdecides⟩

/-- Two routes whose rules have the same fingerprint. -/
def collidingOps : List RouteOp :=
  [routeOnOne [("nw_dst", .str "10.194.48.12")] 59, routeOnOne [("nw_dst", .str "10.27.92.63")] 65]

/-- The fingerprint identifies a rule: the second one of two rules that share it is not stored. -/
theorem colliding_routes_disagree :
    ¬ ∀ (shortestPath : ShortestPath) (m : TopologyManager),
      (∀ d s, m.switches.lookup d = some s → s = {}) → ∀ (ops : List RouteOp) (dpid : UInt64)
      (switch : P4Switch),
      (GuardedRun.run (RouteOp.step shortestPath) m ops).switches.lookup (dpid.toNat : Int) =
        some switch → ∀ (entries : List TableEntry), switch.Reads entries →
      ∀ (ord : SubtableOrder) (c : Classifier),
      Classifier.updateFromQueriedTables ord (.arr [renderedTable dpid entries]) {} = .ok ⟨⟩ c →
      ∀ p : PacketKeys, c.lookup dpid (flowKeyOf p) 0 = none ↔ switch.Decides p .sendToCpu := by
  intro h
  have hpoll := EState.eq_ok_of_isOk (m := Classifier.updateFromQueriedTables stableOrder
    (.arr [renderedTable 1 (switchOne collidingOps).tableEntries])) (s := {}) (by decide +kernel)
  have hiff := h (fun _ _ _ => none) oneSwitch oneSwitch_empty collidingOps 1
    (switchOne collidingOps) (lookup_switchOne (by decide +kernel))
    (switchOne collidingOps).tableEntries (reads_tableEntries _) stableOrder _ hpoll
    (destinationPacket 0x0ac2300c (by decide))
  have hnone : (polledOne collidingOps).lookup 1
      (flowKeyOf (destinationPacket 0x0ac2300c (by decide))) 0 = none := by decide +kernel
  have hmiss := decides_sendToCpu_iff.mp (hiff.mp hnone) (.lpm ⟨[10, 194, 48, 12], 32⟩)
    ⟨[0, 0, 0, 0, 0, 0], [0, 59]⟩ (by decide +kernel)
  exact absurd hmiss (by decide +kernel)

end Ndtwin.Spec

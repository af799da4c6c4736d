import Mathlib.Data.List.Dedup
import Mathlib.Data.List.Induction
import Ndtwin.ForStd.Run
import Ndtwin.Spec.ClassifierInvariant

/-!
# Classifier Correctness

Two statements about `Classifier.lookup`. After any sequence of polls that all complete, it
agrees with a linear scan of the last snapshot of the switch, as far as the rule fingerprint
tells rules apart. After polls of which some throw, it agrees with a linear scan of
`rulesById` as long as no throwing poll stored a rule that the subtable order does not
cover: such a poll leaves the order as it was before the rule.

## Key results

- `lookup_scans_last_snapshot`: completed polls, scan of the last snapshot
- `lookup_scans_rulesById`: any polls, scan of what is held
- `knowsSwitch_iff`, `getRuleCount_eq`: what completed polls leave known of a switch
-/

namespace Ndtwin.Kernel

/-! ## What a poll contains -/

/-- The snapshots of one entry of a poll, as far as it parses: one if its flow array can be
    read, else none. -/
def snapshotsOfEntry (entry : Json) : List (UInt64 × List Rule) :=
  match Classifier.readEntry entry with
  | .ok (dpid, some flows) => [(dpid, (EState.prefixOk parseRuleFromJson flows).1)]
  | _ => []

/-- The snapshots of a poll, in the order in which they are applied. -/
def snapshots (newTables : Json) : List (UInt64 × List Rule) :=
  match newTables with
  | .arr entries => entries.flatMap snapshotsOfEntry
  | _ => []

/-- The rules of the last snapshot of a switch; none when it has had no snapshot. -/
def lastSnapshot (applied : List (UInt64 × List Rule)) (dpid : UInt64) : List Rule :=
  match applied.reverse.find? fun s => s.1 = dpid with
  | some s => s.2
  | none => []

theorem lastSnapshot_append (applied : List (UInt64 × List Rule)) (s : UInt64 × List Rule)
    (dpid : UInt64) :
    lastSnapshot (applied ++ [s]) dpid = if s.1 = dpid then s.2 else lastSnapshot applied dpid := by
  unfold lastSnapshot
  rw [List.reverse_append, List.reverse_singleton, List.singleton_append, List.find?_cons]
  by_cases h : s.1 = dpid
  · simp [h]
  · simp [h]

/-- All rules of the snapshots of a switch. -/
def rulesFor (applied : List (UInt64 × List Rule)) (dpid : UInt64) : List Rule :=
  (applied.filter fun s => s.1 = dpid).flatMap Prod.snd

theorem mem_rulesFor {applied : List (UInt64 × List Rule)} {dpid : UInt64} {r : Rule} :
    r ∈ rulesFor applied dpid ↔ ∃ s ∈ applied, s.1 = dpid ∧ r ∈ s.2 := by
  simp only [rulesFor, List.mem_flatMap, List.mem_filter, decide_eq_true_eq, and_assoc]

theorem mem_rulesFor_append {applied applied' : List (UInt64 × List Rule)} {dpid : UInt64}
    {r : Rule} (h : r ∈ rulesFor applied dpid) : r ∈ rulesFor (applied ++ applied') dpid := by
  obtain ⟨s, hs, hr⟩ := mem_rulesFor.mp h
  exact mem_rulesFor.mpr ⟨s, List.mem_append_left _ hs, hr⟩

theorem mem_flatMap_of_mem_rulesFor {applied : List (UInt64 × List Rule)} {dpid : UInt64}
    {r : Rule} (h : r ∈ rulesFor applied dpid) : r ∈ applied.flatMap Prod.snd := by
  obtain ⟨s, hs, -, hr⟩ := mem_rulesFor.mp h
  exact List.mem_flatMap.mpr ⟨s, hs, hr⟩

theorem mem_rulesFor_of_mem_lastSnapshot {applied : List (UInt64 × List Rule)} {dpid : UInt64}
    {r : Rule} (h : r ∈ lastSnapshot applied dpid) : r ∈ rulesFor applied dpid := by
  unfold lastSnapshot at h
  split at h
  · next s hs =>
    have hdpid : s.1 = dpid := by simpa using List.find?_some hs
    exact mem_rulesFor.mpr ⟨s, List.mem_reverse.mp (List.mem_of_find?_eq_some hs), hdpid, h⟩
  · exact absurd h List.not_mem_nil

/-- All rules of a sequence of polls. -/
def polledRules (calls : List Json) : List Rule :=
  (calls.flatMap snapshots).flatMap Prod.snd

/-- The fingerprint tells all rules of a list apart. -/
def NoCollision (seen : List Rule) : Prop :=
  ∀ r ∈ seen, ∀ r' ∈ seen,
    fingerprintRuleCore r.mask r.maskedValue r.priority r.effect =
      fingerprintRuleCore r'.mask r'.maskedValue r'.priority r'.effect →
    r.mask = r'.mask ∧ r.maskedValue = r'.maskedValue ∧ r.priority = r'.priority ∧
      r.effect = r'.effect

instance (seen : List Rule) : Decidable (NoCollision seen) :=
  inferInstanceAs (Decidable (∀ r ∈ seen, ∀ r' ∈ seen, _ → _))

/-- A parsed rule is identified by its table and its fingerprint. -/
theorem id_of_parseRuleFromJson {flow : Json} {r : Rule} (h : parseRuleFromJson flow = .ok r) :
    r.id = ⟨r.tableId, fingerprintRuleCore r.mask r.maskedValue r.priority r.effect⟩ := by
  unfold parseRuleFromJson at h
  obtain ⟨tableId, -, h⟩ := EState.bind_eq_ok h
  obtain ⟨priority, -, h⟩ := EState.bind_eq_ok h
  obtain ⟨b, -, h⟩ := EState.bind_eq_ok h
  obtain ⟨effect, -, h⟩ := EState.bind_eq_ok h
  cases h
  rfl

/-- Every polled rule was parsed from an entry. -/
theorem parsed_of_mem_polledRules {calls : List Json} {r : Rule} (h : r ∈ polledRules calls) :
    ∃ flow, parseRuleFromJson flow = .ok r := by
  obtain ⟨s, hs, hr⟩ := List.mem_flatMap.mp h
  obtain ⟨call, -, hcall⟩ := List.mem_flatMap.mp hs
  unfold snapshots at hcall
  split at hcall
  · obtain ⟨entry, -, hentry⟩ := List.mem_flatMap.mp hcall
    unfold snapshotsOfEntry at hentry
    split at hentry
    · obtain rfl := List.mem_singleton.mp hentry
      obtain ⟨flow, -, hflow⟩ := EState.exists_of_mem_prefixOk hr
      exact ⟨flow, hflow⟩
    · exact absurd hentry List.not_mem_nil
  · exact absurd hcall List.not_mem_nil

/-- Without collisions among them, polled rules with the same id are the same. -/
theorem eq_of_id_eq {calls : List Json} {seen : List Rule} (hseen : seen ⊆ polledRules calls)
    (hhash : NoCollision seen) {r r' : Rule} (hr : r ∈ seen) (hr' : r' ∈ seen)
    (hid : r.id = r'.id) : r = r' := by
  obtain ⟨flow, hflow⟩ := parsed_of_mem_polledRules (hseen hr)
  obtain ⟨flow', hflow'⟩ := parsed_of_mem_polledRules (hseen hr')
  have hid₁ := id_of_parseRuleFromJson hflow
  have hid₂ := id_of_parseRuleFromJson hflow'
  have hparts : r.tableId = r'.tableId ∧ fingerprintRuleCore r.mask r.maskedValue r.priority
      r.effect = fingerprintRuleCore r'.mask r'.maskedValue r'.priority r'.effect := by
    rw [hid₁, hid₂] at hid
    exact RuleId.mk.inj hid
  obtain ⟨hmask, hvalue, hprio, heffect⟩ := hhash r hr r' hr' hparts.2
  cases r
  cases r'
  simp_all

/-! ## What an update does -/

namespace SwitchClassifier

/-- The switch with the rules of a snapshot marked in a new epoch. -/
def marked (sw : SwitchClassifier) (rules : List Rule) : SwitchClassifier :=
  rules.foldl upsertRule sw.nextEpoch

theorem updateOneSwitch_apply (ord : SubtableOrder) (dpid : UInt64) (flows : List Json)
    (sw : SwitchClassifier) :
    updateOneSwitch ord dpid flows sw =
      match EState.prefixOk parseRuleFromJson flows with
      | (rules, none) => .ok ⟨⟩ ((sw.marked rules).sweepAndRebuild ord dpid)
      | (rules, some e) => .error e (sw.marked rules) := by
  have hloop := EState.forM_storeParsed parseRuleFromJson upsertRule flows sw.nextEpoch
  unfold updateOneSwitch
  show ((flows.forM (EState.storeParsed parseRuleFromJson upsertRule)) >>= fun _ =>
    modify (sweepAndRebuild ord dpid)) sw.nextEpoch = _
  simp only [bind, EStateM.bind, hloop]
  rcases EState.prefixOk parseRuleFromJson flows with ⟨rules, _ | e⟩
  · rfl
  · rfl

@[simp] theorem epoch_foldl_upsertRule (sw : SwitchClassifier) (rules : List Rule) :
    (rules.foldl upsertRule sw).epoch = sw.epoch := by
  induction rules generalizing sw with
  | nil => rfl
  | cons r rules ih => rw [List.foldl_cons, ih, epoch_upsertRule]

theorem nextEpoch_inv {sw : SwitchClassifier} (h : sw.Inv) : sw.nextEpoch.Inv :=
  ⟨h.id_eq, h.tables, h.clean⟩

theorem foldl_upsertRule_inv {sw : SwitchClassifier} (h : sw.Inv) (rules : List Rule) :
    (rules.foldl upsertRule sw).Inv := by
  induction rules generalizing sw with
  | nil => exact h
  | cons r rules ih => exact ih (upsertRule_inv h r)

theorem marked_inv {sw : SwitchClassifier} (h : sw.Inv) (rules : List Rule) :
    (sw.marked rules).Inv :=
  foldl_upsertRule_inv (nextEpoch_inv h) rules

/-- What is held after marking was held before or was just parsed. -/
theorem holds_foldl_upsertRule {sw : SwitchClassifier} {rules : List Rule} {r : Rule}
    (h : (rules.foldl upsertRule sw).Holds r) : sw.Holds r ∨ r ∈ rules := by
  induction rules generalizing sw with
  | nil => exact Or.inl h
  | cons r₀ rules ih =>
    rcases ih h with hheld | hmem
    · cases hlookup : sw.rulesById.lookup r₀.id with
      | some stored => exact Or.inl ((holds_upsertRule_of_some hlookup r).mp hheld)
      | none =>
        rcases (holds_upsertRule_of_none hlookup r).mp hheld with rfl | hold
        · exact Or.inr List.mem_cons_self
        · exact Or.inl hold
    · exact Or.inr (List.mem_cons_of_mem r₀ hmem)

theorem holds_marked {sw : SwitchClassifier} {rules : List Rule} {r : Rule}
    (h : (sw.marked rules).Holds r) : sw.Holds r ∨ r ∈ rules := by
  unfold marked at h
  have hbefore : sw.nextEpoch.Holds r ∨ r ∈ rules := holds_foldl_upsertRule h
  exact hbefore

/-- An id that no marked rule has keeps its entry. -/
theorem lookup_foldl_upsertRule_of_not_mem (sw : SwitchClassifier) {rules : List Rule}
    {id : RuleId} (h : id ∉ rules.map Rule.id) :
    (rules.foldl upsertRule sw).rulesById.lookup id = sw.rulesById.lookup id := by
  induction rules generalizing sw with
  | nil => rfl
  | cons r rules ih =>
    simp only [List.map_cons, List.mem_cons, not_or] at h
    rw [List.foldl_cons, ih _ h.2, lookup_upsertRule, if_neg h.1]

/-- An id that a marked rule has is seen in the present epoch. -/
theorem lookup_foldl_upsertRule_of_mem (sw : SwitchClassifier) {rules : List Rule}
    {id : RuleId} (h : id ∈ rules.map Rule.id) :
    ∃ r, (rules.foldl upsertRule sw).rulesById.lookup id = some ⟨r, sw.epoch⟩ := by
  induction rules generalizing sw with
  | nil => exact absurd h List.not_mem_nil
  | cons r rules ih =>
    rw [List.foldl_cons]
    by_cases hmem : id ∈ rules.map Rule.id
    · have hseen := ih (sw.upsertRule r) hmem
      rwa [epoch_upsertRule] at hseen
    · have hid : id = r.id := by
        rw [List.map_cons, List.mem_cons] at h
        exact h.resolve_right hmem
      rw [lookup_foldl_upsertRule_of_not_mem _ hmem, lookup_upsertRule, if_pos hid]
      exact ⟨_, rfl⟩

/-- What the sweep leaves was held before it. -/
theorem holds_of_holds_sweepAndRebuild {ord : SubtableOrder} {dpid : UInt64}
    {sw : SwitchClassifier} {r : Rule} (h : (sw.sweepAndRebuild ord dpid).Holds r) :
    sw.Holds r := by
  obtain ⟨stored, hstored, hr⟩ := h
  rw [lookup_sweepAndRebuild, Option.filter_eq_some_iff] at hstored
  exact ⟨stored, hstored.1, hr⟩

/-! ## After completed updates -/

/-- Between completed updates everything that is held was seen in the last one. -/
structure Fresh (sw : SwitchClassifier) : Prop where
  inv : sw.Inv
  ordered : sw.Ordered
  seen : ∀ id stored, sw.rulesById.lookup id = some stored → stored.lastSeenEpoch = sw.epoch

theorem fresh_empty : Fresh {} where
  inv := inv_empty
  ordered := ordered_empty
  seen _ _ h := nomatch h

theorem epoch_sweepAndRebuild (ord : SubtableOrder) (dpid : UInt64) (sw : SwitchClassifier) :
    (sw.sweepAndRebuild ord dpid).epoch = sw.epoch := by
  show (sw.toDelete.foldl deleteRule sw).epoch = sw.epoch
  generalize sw.toDelete = rids
  induction rids generalizing sw with
  | nil => rfl
  | cons rid rids ih => rw [List.foldl_cons, ih, epoch_deleteRule]

theorem fresh_sweepAndRebuild (ord : SubtableOrder) (dpid : UInt64) {sw : SwitchClassifier}
    (h : sw.Inv) : (sw.sweepAndRebuild ord dpid).Fresh where
  inv := sweepAndRebuild_inv ord dpid h
  ordered := sweepAndRebuild_ordered ord dpid h
  seen id stored hstored := by
    rw [lookup_sweepAndRebuild, Option.filter_eq_some_iff] at hstored
    rw [epoch_sweepAndRebuild]
    simpa using hstored.2

/-- A completed update leaves exactly the rules of its snapshot. -/
theorem holds_update_iff (ord : SubtableOrder) (dpid : UInt64) {sw : SwitchClassifier}
    (h : sw.Fresh) {seen : Rule → Prop}
    (hinj : ∀ r r', seen r → seen r' → r.id = r'.id → r = r') {rules : List Rule}
    (hold : ∀ r, sw.Holds r → seen r) (hnew : ∀ r ∈ rules, seen r) (r : Rule) :
    ((sw.marked rules).sweepAndRebuild ord dpid).Holds r ↔ r ∈ rules := by
  have hepoch : (sw.marked rules).epoch = sw.epoch + 1 := epoch_foldl_upsertRule _ _
  have hinv := marked_inv h.inv rules
  have hseen : ∀ r', (sw.marked rules).Holds r' → seen r' :=
    fun r' hr' => (holds_marked hr').elim (hold r') (hnew r')
  constructor
  · intro hr
    have hheld := holds_of_holds_sweepAndRebuild hr
    -- an id that was not marked still carries the previous epoch, and is swept
    have hid : r.id ∈ rules.map Rule.id := by
      by_contra hnot
      obtain ⟨stored, hstored, -⟩ := hr
      rw [lookup_sweepAndRebuild, Option.filter_eq_some_iff, hepoch] at hstored
      obtain ⟨hlookup, hlast⟩ := hstored
      unfold marked at hlookup
      rw [lookup_foldl_upsertRule_of_not_mem _ hnot] at hlookup
      have hprev := h.seen _ stored hlookup
      rw [hprev] at hlast
      simp at hlast
    obtain ⟨r₀, hr₀, hid₀⟩ := List.mem_map.mp hid
    exact hinj r₀ r (hnew r₀ hr₀) (hseen r hheld) hid₀ ▸ hr₀
  · intro hr
    obtain ⟨r', hr'⟩ := lookup_foldl_upsertRule_of_mem sw.nextEpoch
      (List.mem_map_of_mem (f := Rule.id) hr)
    have hid' : r'.id = r.id := hinv.id_eq _ _ hr'
    have hheld' : (sw.marked rules).Holds r' := ⟨⟨r', sw.nextEpoch.epoch⟩, hid' ▸ hr', rfl⟩
    obtain rfl : r' = r := hinj r' r (hseen r' hheld') (hnew r hr) hid'
    refine ⟨⟨r', sw.nextEpoch.epoch⟩, ?_, rfl⟩
    rw [lookup_sweepAndRebuild, Option.filter_eq_some_iff, hepoch]
    exact ⟨hr', by simp [nextEpoch]⟩

end SwitchClassifier

namespace Classifier

/-- `onSwitch` with the update of one snapshot that parsed. -/
def applySnapshot (ord : SubtableOrder) (c : Classifier) (s : UInt64 × List Rule) : Classifier :=
  { c with
    switches := c.switches.insert s.1
      (((c.switch s.1).marked s.2).sweepAndRebuild ord s.1) }

theorem switch_insert (c : Classifier) (dpid dpid' : UInt64) (sw : SwitchClassifier) :
    switch { c with switches := c.switches.insert dpid sw } dpid' =
      if dpid' = dpid then sw else c.switch dpid' := by
  unfold switch
  simp only [AssocMap.lookup_insert_eq]
  split
  · rfl
  · rfl

theorem lookup_eq (c : Classifier) (dpid : UInt64) (key : FlowKey) (t : UInt8) :
    c.lookup dpid key t = ((c.switch dpid).lookupInTableNoLock t key).map Rule.effect := by
  unfold lookup switch
  cases c.switches.lookup dpid with
  | none => rfl
  | some sw => rfl

/-- The lookups have the same answer, or best matches tie and each answer is one of them. -/
def AnswersAlike (c c' : Classifier) (dpid : UInt64) (key : FlowKey) (t : UInt8) : Prop :=
  c.lookup dpid key t = c'.lookup dpid key t ∨
    ¬ (c'.switch dpid).Untied t key ∧
      IsBestMatch (fun r => (c'.switch dpid).HoldsIn t r ∧ 0 ≤ r.priority) (packKey key)
        (c.lookup dpid key t) ∧
      IsBestMatch (fun r => (c'.switch dpid).HoldsIn t r ∧ 0 ≤ r.priority) (packKey key)
        (c'.lookup dpid key t)

theorem answersAlike_of_switch {c c' : Classifier} {dpid : UInt64} {key : FlowKey} {t : UInt8}
    (h : (c.switch dpid).AnswersAlike (c'.switch dpid) t key) : c.AnswersAlike c' dpid key t := by
  unfold AnswersAlike
  rw [lookup_eq, lookup_eq]
  exact h

theorem AnswersAlike.eq_of_untied {c c' : Classifier} {dpid : UInt64} {key : FlowKey} {t : UInt8}
    (h : c.AnswersAlike c' dpid key t) (huntied : (c'.switch dpid).Untied t key) :
    c.lookup dpid key t = c'.lookup dpid key t :=
  h.resolve_right fun htie => htie.1 huntied

/-- One entry, by what it parses to. -/
theorem updateEntry_apply (ord : SubtableOrder) (entry : Json) (c : Classifier) :
    updateEntry ord entry c =
      match readEntry entry with
      | .error e => .error e c
      | .ok (_, none) => .ok ⟨⟩ c
      | .ok (dpid, some flows) =>
        match EState.prefixOk parseRuleFromJson flows with
        | (rules, none) => .ok ⟨⟩ (applySnapshot ord c (dpid, rules))
        | (rules, some e) =>
          .error e { c with switches := c.switches.insert dpid ((c.switch dpid).marked rules) } := by
  unfold updateEntry
  simp only [bind, EStateM.bind]
  cases readEntry entry with
  | error e => rfl
  | ok p =>
    obtain ⟨dpid, _ | flows⟩ := p
    · rfl
    · show onSwitch dpid (SwitchClassifier.updateOneSwitch ord dpid flows) c = _
      simp only [onSwitch, SwitchClassifier.updateOneSwitch_apply]
      rcases EState.prefixOk parseRuleFromJson flows with ⟨rules, _ | e⟩
      · rfl
      · rfl

theorem updateEntry_ok {ord : SubtableOrder} {entry : Json} {c c' : Classifier}
    (h : updateEntry ord entry c = .ok ⟨⟩ c') :
    c' = (snapshotsOfEntry entry).foldl (applySnapshot ord) c := by
  rw [updateEntry_apply] at h
  unfold snapshotsOfEntry
  cases hread : readEntry entry with
  | error e =>
    rw [hread] at h
    exact nomatch h
  | ok p =>
    obtain ⟨dpid, _ | flows⟩ := p
    · rw [hread] at h
      cases h
      rfl
    · rw [hread] at h
      simp only at h ⊢
      rcases hparse : EState.prefixOk parseRuleFromJson flows with ⟨rules, _ | e⟩
      · rw [hparse] at h
        cases h
        rfl
      · rw [hparse] at h
        exact nomatch h

/-- A call that completes has applied its snapshots one after the other. -/
theorem updateFromQueriedTables_ok {ord : SubtableOrder} {newTables : Json} {c c' : Classifier}
    (h : updateFromQueriedTables ord newTables c = .ok ⟨⟩ c') :
    c' = (snapshots newTables).foldl (applySnapshot ord) c := by
  cases newTables with
  | arr entries => exact EState.forM_ok_eq_foldl (fun _ _ _ hentry => updateEntry_ok hentry) h
  | _ =>
    cases h
    rfl

/-- The switch of a snapshot is updated, and the other ones are left alone. -/
theorem switch_applySnapshot (ord : SubtableOrder) (c : Classifier) (s : UInt64 × List Rule)
    (dpid : UInt64) :
    (applySnapshot ord c s).switch dpid =
      if dpid = s.1 then ((c.switch s.1).marked s.2).sweepAndRebuild ord s.1 else c.switch dpid := by
  rw [applySnapshot, switch_insert]

theorem switch_foldl_applySnapshot_of_ne (ord : SubtableOrder) {applied : List (UInt64 × List Rule)}
    {dpid : UInt64} (h : ∀ s ∈ applied, s.1 ≠ dpid) (c : Classifier) :
    (applied.foldl (applySnapshot ord) c).switch dpid = c.switch dpid := by
  induction applied generalizing c with
  | nil => rfl
  | cons s applied ih =>
    rw [List.foldl_cons, ih fun s' hs' => h s' (List.mem_cons_of_mem s hs'), switch_applySnapshot,
      if_neg (h s List.mem_cons_self).symm]

/-- After completed updates every switch is fresh, and holds only rules of its snapshots. -/
theorem fresh_foldl_applySnapshot (ord : SubtableOrder) (applied : List (UInt64 × List Rule))
    (dpid : UInt64) :
    ((applied.foldl (applySnapshot ord) {}).switch dpid).Fresh ∧
      ∀ r, ((applied.foldl (applySnapshot ord) {}).switch dpid).Holds r →
        r ∈ rulesFor applied dpid := by
  induction applied using List.reverseRecOn with
  | nil => exact ⟨SwitchClassifier.fresh_empty, fun r hr =>
      absurd hr (SwitchClassifier.not_holds_empty r)⟩
  | append_singleton applied s ih =>
    obtain ⟨hfresh, hheld⟩ := ih
    rw [List.foldl_append, List.foldl_cons, List.foldl_nil, switch_applySnapshot]
    generalize applied.foldl (applySnapshot ord) {} = c at hfresh hheld
    split
    · next hdpid =>
      subst hdpid
      refine ⟨SwitchClassifier.fresh_sweepAndRebuild ord s.1
        (SwitchClassifier.marked_inv hfresh.inv s.2), fun r hr => ?_⟩
      rcases SwitchClassifier.holds_marked
        (SwitchClassifier.holds_of_holds_sweepAndRebuild hr) with hold | hnew
      · exact mem_rulesFor_append (hheld r hold)
      · exact mem_rulesFor.mpr ⟨s, List.mem_append_right _ List.mem_cons_self, rfl, hnew⟩
    · exact ⟨hfresh, fun r hr => mem_rulesFor_append (hheld r hr)⟩

/-- After completed updates without collisions a switch holds its last snapshot. -/
theorem holds_foldl_applySnapshot (ord : SubtableOrder) (applied : List (UInt64 × List Rule))
    (dpid : UInt64)
    (hinj : ∀ r r', r ∈ rulesFor applied dpid → r' ∈ rulesFor applied dpid → r.id = r'.id → r = r')
    (r : Rule) :
    ((applied.foldl (applySnapshot ord) {}).switch dpid).Holds r ↔
      r ∈ lastSnapshot applied dpid := by
  induction applied using List.reverseRecOn with
  | nil =>
    constructor
    · intro h
      exact absurd h (SwitchClassifier.not_holds_empty r)
    · intro h
      exact absurd h List.not_mem_nil
  | append_singleton applied s ih =>
    obtain ⟨hfresh, hheld⟩ := fresh_foldl_applySnapshot ord applied dpid
    have hlast := ih fun r r' hr hr' =>
      hinj r r' (mem_rulesFor_append hr) (mem_rulesFor_append hr')
    rw [List.foldl_append, List.foldl_cons, List.foldl_nil, lastSnapshot_append, switch_applySnapshot]
    by_cases hdpid : s.1 = dpid
    · subst hdpid
      rw [if_pos rfl, if_pos rfl]
      exact SwitchClassifier.holds_update_iff ord s.1 hfresh hinj
        (fun r hr => mem_rulesFor_append (hheld r hr))
        (fun r hr => mem_rulesFor.mpr ⟨s, List.mem_append_right _ List.mem_cons_self, rfl, hr⟩) r
    · rw [if_neg fun h => hdpid h.symm, if_neg hdpid]
      exact hlast

/-- After completed calls a lookup is a linear scan of the last snapshot of the switch. -/
theorem lookup_isBestMatch {ord : SubtableOrder} {calls : List Json} {c : Classifier}
    (hrun : calls.forM (updateFromQueriedTables ord) {} = .ok ⟨⟩ c) {dpid : UInt64}
    (hinj : ∀ r r', r ∈ rulesFor (calls.flatMap snapshots) dpid →
      r' ∈ rulesFor (calls.flatMap snapshots) dpid → r.id = r'.id → r = r')
    (hprio : ∀ r ∈ lastSnapshot (calls.flatMap snapshots) dpid, 0 ≤ r.priority)
    (tableId : UInt8) (key : FlowKey) :
    IsBestMatch (fun r => r ∈ lastSnapshot (calls.flatMap snapshots) dpid ∧ r.tableId = tableId)
      (packKey key) (c.lookup dpid key tableId) := by
  have hc := EState.forM_ok_eq_foldl (fun _ _ _ hcall => updateFromQueriedTables_ok hcall) hrun
  have hfresh := (fresh_foldl_applySnapshot ord (calls.flatMap snapshots) dpid).1
  have hholds := holds_foldl_applySnapshot ord _ dpid hinj
  rw [← hc] at hfresh hholds
  have hnonneg : ∀ r, (c.switch dpid).Holds r → 0 ≤ r.priority :=
    fun r hr => hprio r ((hholds r).mp hr)
  have hbest := SwitchClassifier.lookup_isBestMatch hfresh.inv hfresh.ordered hnonneg tableId key
  have hheld : (c.switch dpid).HoldsIn tableId = fun r =>
      r ∈ lastSnapshot (calls.flatMap snapshots) dpid ∧ r.tableId = tableId := by
    funext r
    exact propext (and_congr_left fun _ => hholds r)
  rw [← lookup_eq, hheld] at hbest
  exact hbest

/-- The rules in `rulesById`. -/
def rules (c : Classifier) (dpid : UInt64) : List Rule :=
  (c.switch dpid).rulesById.toPairs.map fun p => p.2.rule

theorem mem_rules {c : Classifier} {dpid : UInt64} (h : (c.switch dpid).Inv) {r : Rule} :
    r ∈ c.rules dpid ↔ (c.switch dpid).Holds r := by
  unfold rules
  simp only [List.mem_map, Prod.exists, AssocMap.mem_toPairs]
  constructor
  · rintro ⟨id, stored, hstored, rfl⟩
    exact ⟨stored, h.id_eq id stored hstored ▸ hstored, rfl⟩
  · rintro ⟨stored, hstored, hr⟩
    exact ⟨r.id, stored, hstored, hr⟩

/-! ### What a miss tells -/

theorem knowsSwitch_insert (c : Classifier) (dpid dpid' : UInt64) (sw : SwitchClassifier) :
    knowsSwitch { c with switches := c.switches.insert dpid sw } dpid' =
      (dpid' = dpid || c.knowsSwitch dpid') := by
  unfold knowsSwitch
  dsimp only
  rw [AssocMap.lookup_insert_eq]
  split
  · next h => simp [h]
  · next h => simp [h]

theorem knowsSwitch_foldl_applySnapshot (ord : SubtableOrder) (applied : List (UInt64 × List Rule))
    (dpid : UInt64) : (applied.foldl (applySnapshot ord) {}).knowsSwitch dpid = true ↔
      ∃ s ∈ applied, s.1 = dpid := by
  induction applied using List.reverseRecOn with
  | nil => simp [knowsSwitch]
  | append_singleton applied s ih =>
    rw [List.foldl_append, List.foldl_cons, List.foldl_nil, applySnapshot, knowsSwitch_insert,
      Bool.or_eq_true, decide_eq_true_eq]
    simp only [ih, List.mem_append, List.mem_singleton]
    constructor
    · rintro (rfl | ⟨s', hs', rfl⟩)
      · exact ⟨s, .inr rfl, rfl⟩
      · exact ⟨s', .inl hs', rfl⟩
    · rintro ⟨s', hs' | rfl, rfl⟩
      · exact .inr ⟨s', hs', rfl⟩
      · exact .inl rfl

/-- After completed calls a switch is known if some call had a flow array for it, be it empty:
    a miss at a switch that is not known means that it was never reported. -/
theorem knowsSwitch_iff {ord : SubtableOrder} {calls : List Json} {c : Classifier}
    (hrun : calls.forM (updateFromQueriedTables ord) {} = .ok ⟨⟩ c) {dpid : UInt64} :
    c.knowsSwitch dpid = true ↔ ∃ s ∈ calls.flatMap snapshots, s.1 = dpid := by
  have hc := EState.forM_ok_eq_foldl (fun _ _ _ hcall => updateFromQueriedTables_ok hcall) hrun
  rw [hc]
  exact knowsSwitch_foldl_applySnapshot ord _ dpid

theorem getRuleCount_eq_length (c : Classifier) (dpid : UInt64) :
    c.getRuleCount dpid = (c.rules dpid).length := by
  unfold getRuleCount rules switch
  cases c.switches.lookup dpid with
  | none => rfl
  | some sw =>
    rw [List.length_map, AssocMap.toPairs, List.length_map]
    exact List.length_map ..

/-- No rule is stored twice. -/
theorem nodup_rules {c : Classifier} {dpid : UInt64} (h : (c.switch dpid).Inv) :
    (c.rules dpid).Nodup := by
  have hkeys := AssocMap.nodup_keys_toPairs (c.switch dpid).rulesById
  refine List.Nodup.map_on ?_ (List.Nodup.of_map Prod.fst hkeys)
  -- the rule of a pair tells its id, and the id its pair
  rintro ⟨id, stored⟩ hp ⟨id', stored'⟩ hp' hrule
  rw [AssocMap.mem_toPairs] at hp hp'
  have hid : id = id' := by
    rw [← h.id_eq id stored hp, ← h.id_eq id' stored' hp', show stored.rule = stored'.rule from hrule]
  subst hid
  rw [hp, Option.some.injEq] at hp'
  rw [hp']

/-- After completed calls without collisions the rules that are counted are the different ones
    of the last snapshot. -/
theorem getRuleCount_eq {ord : SubtableOrder} {calls : List Json} {c : Classifier}
    (hrun : calls.forM (updateFromQueriedTables ord) {} = .ok ⟨⟩ c) {dpid : UInt64}
    (hinj : ∀ r r', r ∈ rulesFor (calls.flatMap snapshots) dpid →
      r' ∈ rulesFor (calls.flatMap snapshots) dpid → r.id = r'.id → r = r') :
    c.getRuleCount dpid = (lastSnapshot (calls.flatMap snapshots) dpid).dedup.length := by
  have hc := EState.forM_ok_eq_foldl (fun _ _ _ hcall => updateFromQueriedTables_ok hcall) hrun
  have hfresh := (fresh_foldl_applySnapshot ord (calls.flatMap snapshots) dpid).1
  have hholds := holds_foldl_applySnapshot ord _ dpid hinj
  rw [← hc] at hfresh hholds
  rw [getRuleCount_eq_length]
  apply List.Perm.length_eq
  refine (List.perm_ext_iff_of_nodup (nodup_rules hfresh.inv) (List.nodup_dedup _)).mpr ?_
  intro r
  rw [mem_rules hfresh.inv, hholds, List.mem_dedup]

/-! ## After updates that may throw -/

/-- The state after a call, whether or not it throws. -/
def callStep (ord : SubtableOrder) (c : Classifier) (newTables : Json) : Classifier :=
  EState.finalState (updateFromQueriedTables ord newTables) c

/-- What is read from an entry stores no negative priority and, when it throws part-way,
    each rule it stores before that is one the switch holds already or one that its subtable
    order covers. -/
def CleanRead (c : Classifier) : Except ParseError (UInt64 × Option (List Json)) → Prop
  | .ok (dpid, some flows) =>
    (∀ r ∈ (EState.prefixOk parseRuleFromJson flows).1, 0 ≤ r.priority) ∧
      ((EState.prefixOk parseRuleFromJson flows).2.isSome →
        GuardedRun.Guarded SwitchClassifier.upsertRule SwitchClassifier.Settles
          (c.switch dpid).nextEpoch (EState.prefixOk parseRuleFromJson flows).1)
  | _ => True

instance (c : Classifier) : ∀ x, Decidable (CleanRead c x)
  | .ok (_, some _) => inferInstanceAs (Decidable (_ ∧ _))
  | .ok (_, none) => isTrue trivial
  | .error _ => isTrue trivial

def CleanEntry (c : Classifier) (entry : Json) : Prop := CleanRead c (readEntry entry)

/-- Every entry that a call gets to is clean in the state in which the call gets to it. -/
def CleanEntries (ord : SubtableOrder) (c : Classifier) : List Json → Prop
  | [] => True
  | entry :: entries =>
    CleanEntry c entry ∧
      EState.OnOk (fun c' => CleanEntries ord c' entries) (updateEntry ord entry c)

instance decidableCleanEntries (ord : SubtableOrder) :
    ∀ c entries, Decidable (CleanEntries ord c entries)
  | _, [] => isTrue trivial
  | c, entry :: entries =>
    have := fun c' => decidableCleanEntries ord c' entries
    inferInstanceAs (Decidable (CleanRead c (readEntry entry) ∧
      EState.OnOk (fun c' => CleanEntries ord c' entries) (updateEntry ord entry c)))

/-- Every entry that the call gets to is clean. -/
def CleanCall (ord : SubtableOrder) (c : Classifier) : Json → Prop
  | .arr entries => CleanEntries ord c entries
  | _ => True

instance (ord : SubtableOrder) (c : Classifier) : ∀ call, Decidable (CleanCall ord c call)
  | .arr entries => inferInstanceAs (Decidable (CleanEntries ord c entries))
  | .null | .bool _ | .int _ | .uint _ | .float _ _ | .str _ | .obj _ => isTrue trivial

/-- The structures of every switch agree, its orders are right and it holds no negative
    priority. -/
def Sound (c : Classifier) : Prop :=
  ∀ dpid, (c.switch dpid).Inv ∧ (c.switch dpid).Ordered ∧
    ∀ r, (c.switch dpid).Holds r → 0 ≤ r.priority

theorem sound_empty : Sound {} := fun _ =>
  ⟨SwitchClassifier.inv_empty, SwitchClassifier.ordered_empty,
    fun r hr => absurd hr (SwitchClassifier.not_holds_empty r)⟩

/-- Only the switch that is written has to be checked. -/
theorem sound_insert {c : Classifier} (h : c.Sound) {dpid : UInt64} {sw : SwitchClassifier}
    (hinv : sw.Inv) (hord : sw.Ordered) (hnonneg : ∀ r, sw.Holds r → 0 ≤ r.priority) :
    Sound { c with switches := c.switches.insert dpid sw } := by
  intro dpid'
  rw [switch_insert]
  split
  · exact ⟨hinv, hord, hnonneg⟩
  · exact h dpid'

/-- A clean entry keeps the classifier sound, however it ends. -/
theorem updateEntry_sound (ord : SubtableOrder) {c : Classifier} (h : c.Sound) {entry : Json}
    (hclean : CleanEntry c entry) : Sound (EState.finalState (updateEntry ord entry) c) := by
  unfold EState.finalState
  rw [updateEntry_apply]
  unfold CleanEntry CleanRead at hclean
  cases hread : readEntry entry with
  | error e => exact h
  | ok p =>
    obtain ⟨dpid, _ | flows⟩ := p
    · exact h
    · obtain ⟨hinv, hord, hnonneg⟩ := h dpid
      simp only [hread] at hclean
      simp only
      rcases hparse : EState.prefixOk parseRuleFromJson flows with ⟨rules, err⟩
      rw [hparse] at hclean
      obtain ⟨hprio, hsettles⟩ := hclean
      have hmarked := SwitchClassifier.marked_inv hinv rules
      have hmarkedNonneg : ∀ r, ((c.switch dpid).marked rules).Holds r → 0 ≤ r.priority :=
        fun r hr => (SwitchClassifier.holds_marked hr).elim (hnonneg r) (hprio r)
      cases err with
      | none =>
        exact sound_insert h (SwitchClassifier.sweepAndRebuild_inv ord dpid hmarked)
          (SwitchClassifier.sweepAndRebuild_ordered ord dpid hmarked)
          fun r hr => hmarkedNonneg r (SwitchClassifier.holds_of_holds_sweepAndRebuild hr)
      | some e =>
        -- no rebuild: each stored rule has to leave the order right by itself
        have hrun := GuardedRun.run_invariant
          (fun (sw : SwitchClassifier) r (hsw : sw.Inv ∧ sw.Ordered) hr =>
            ⟨SwitchClassifier.upsertRule_inv hsw.1 r,
              SwitchClassifier.upsertRule_ordered hsw.1 hsw.2 hr⟩)
          ⟨SwitchClassifier.nextEpoch_inv hinv, hord⟩ (hsettles rfl)
        exact sound_insert h hmarked hrun.2 hmarkedNonneg

theorem callStep_sound (ord : SubtableOrder) {c : Classifier} (h : c.Sound) {newTables : Json}
    (hclean : CleanCall ord c newTables) : Sound (callStep ord c newTables) := by
  cases newTables with
  | arr entries =>
    unfold callStep updateFromQueriedTables EState.finalState
    unfold CleanCall at hclean
    simp only
    induction entries generalizing c with
    | nil => exact h
    | cons entry entries ih =>
      obtain ⟨hentry, hrest⟩ := hclean
      have hsound := updateEntry_sound ord h hentry
      unfold EState.finalState at hsound
      rw [EState.forM_cons_apply]
      cases hstep : updateEntry ord entry c with
      | ok _ c' =>
        rw [hstep] at hsound hrest
        exact ih hsound hrest
      | error e c' =>
        rw [hstep] at hsound
        exact hsound
  | _ => exact h

/-! ### Reachable classifiers -/

/-- What any calls leave, those that throw included, each with an order of its own. -/
inductive Reachable : Classifier → Prop where
  | empty : Reachable {}
  | call {c : Classifier} (h : Reachable c) (ord : SubtableOrder) (newTables : Json) :
    Reachable (callStep ord c newTables)

/-- The four structures of every switch agree. -/
def Agrees (c : Classifier) : Prop := ∀ dpid, (c.switch dpid).Inv

theorem updateEntry_agrees (ord : SubtableOrder) {c : Classifier} (h : c.Agrees) (entry : Json) :
    Agrees (EState.finalState (updateEntry ord entry) c) := by
  have hinsert : ∀ d {sw : SwitchClassifier}, sw.Inv →
      Agrees { c with switches := c.switches.insert d sw } := by
    intro d sw hsw dpid
    rw [switch_insert]
    split
    · exact hsw
    · exact h dpid
  unfold EState.finalState
  rw [updateEntry_apply]
  cases readEntry entry with
  | error e => exact h
  | ok p =>
    obtain ⟨dpid, _ | flows⟩ := p
    · exact h
    · simp only
      rcases EState.prefixOk parseRuleFromJson flows with ⟨rules, _ | e⟩
      · exact hinsert dpid
          (SwitchClassifier.sweepAndRebuild_inv ord dpid (SwitchClassifier.marked_inv (h dpid) rules))
      · exact hinsert dpid (SwitchClassifier.marked_inv (h dpid) rules)

theorem Reachable.agrees {c : Classifier} (h : c.Reachable) : c.Agrees := by
  induction h with
  | empty => exact fun _ => SwitchClassifier.inv_empty
  | @call c _ ord newTables ih =>
    cases newTables with
    | arr entries =>
      have hall : EState.EndsIn Agrees (entries.forM (updateEntry ord)) c :=
        EState.endsIn_forM (fun entry _ _ hc => updateEntry_agrees ord hc entry) ih
      exact hall
    | _ => exact ih

/-- The calls of a run, which ends at the first one that throws. -/
def runCalls (ord : SubtableOrder) (calls : List Json) : EStateM ParseError Classifier PUnit :=
  calls.forM (updateFromQueriedTables ord)

/-- After completed calls the next one, which has one table for a switch: a lookup is a linear
    scan of that table, when the fingerprint tells its rules and those that were held apart. -/
theorem lookup_isBestMatch_of_poll {ord : SubtableOrder} {calls : List Json} {c₀ c : Classifier}
    (hrun : calls.forM (updateFromQueriedTables ord) {} = .ok ⟨⟩ c₀) {poll : Json}
    (hpoll : updateFromQueriedTables ord poll c₀ = .ok ⟨⟩ c) {dpid : UInt64} {rules : List Rule}
    {before after : List (UInt64 × List Rule)}
    (hsnapshots : snapshots poll = before ++ (dpid, rules) :: after)
    (hbefore : ∀ s ∈ before, s.1 ≠ dpid) (hafter : ∀ s ∈ after, s.1 ≠ dpid)
    (hhash : NoCollision (c₀.rules dpid ++ rules)) (hprio : ∀ r ∈ rules, 0 ≤ r.priority)
    (tableId : UInt8) (key : FlowKey) :
    IsBestMatch (fun r => r ∈ rules ∧ r.tableId = tableId) (packKey key)
      (c.lookup dpid key tableId) := by
  have hc₀ := EState.forM_ok_eq_foldl (fun _ _ _ hcall => updateFromQueriedTables_ok hcall) hrun
  obtain ⟨hfresh, hheld⟩ := fresh_foldl_applySnapshot ord (calls.flatMap snapshots) dpid
  rw [← hc₀] at hfresh hheld
  -- only the table of the switch changes what is held for it
  have hswitch : c.switch dpid = ((c₀.switch dpid).marked rules).sweepAndRebuild ord dpid := by
    rw [updateFromQueriedTables_ok hpoll, hsnapshots, List.foldl_append, List.foldl_cons,
      switch_foldl_applySnapshot_of_ne ord hafter, switch_applySnapshot, if_pos rfl,
      switch_foldl_applySnapshot_of_ne ord hbefore]
  have hseen : c₀.rules dpid ++ rules ⊆ polledRules (calls ++ [poll]) := by
    intro r hr
    unfold polledRules
    rw [List.flatMap_append, List.flatMap_append]
    rcases List.mem_append.mp hr with hold | hnew
    · exact List.mem_append_left _
        (mem_flatMap_of_mem_rulesFor (hheld r ((mem_rules hfresh.inv).mp hold)))
    · refine List.mem_append_right _ (List.mem_flatMap.mpr ⟨(dpid, rules), ?_, hnew⟩)
      rw [List.flatMap_singleton, hsnapshots]
      exact List.mem_append_right _ List.mem_cons_self
  have hholds : ∀ r, (c.switch dpid).Holds r ↔ r ∈ rules := by
    intro r
    rw [hswitch]
    apply SwitchClassifier.holds_update_iff ord dpid hfresh
      (fun r r' hr hr' => eq_of_id_eq hseen hhash hr hr')
    · intro r hr
      exact List.mem_append_left _ ((mem_rules hfresh.inv).mpr hr)
    · intro r hr
      exact List.mem_append_right _ hr
  have hinv := SwitchClassifier.marked_inv hfresh.inv rules
  have hbest := SwitchClassifier.lookup_isBestMatch
    (hswitch ▸ SwitchClassifier.sweepAndRebuild_inv ord dpid hinv)
    (hswitch ▸ SwitchClassifier.sweepAndRebuild_ordered ord dpid hinv)
    (fun r hr => hprio r ((hholds r).mp hr)) tableId key
  have hrules : (c.switch dpid).HoldsIn tableId = fun r => r ∈ rules ∧ r.tableId = tableId := by
    funext r
    exact propext (and_congr_left fun _ => hholds r)
  rw [← lookup_eq, hrules] at hbest
  exact hbest

end Classifier

end Ndtwin.Kernel

namespace Ndtwin.Spec

open Ndtwin.Kernel

/-- After any sequence of polls that all complete, with no negative priority and no two
    different rules of the same fingerprint among the polled ones, a lookup finds nothing
    exactly when no rule of that table in the last snapshot of the switch matches, and
    otherwise the effect of a matching rule of maximal priority. -/
theorem lookup_scans_last_snapshot (ord : SubtableOrder) (calls : List Json) (c : Classifier)
    (hrun : Classifier.runCalls ord calls {} = .ok ⟨⟩ c)
    (hprio : ∀ r ∈ polledRules calls, 0 ≤ r.priority) (hhash : NoCollision (polledRules calls))
    (dpid : UInt64) (tableId : UInt8) (key : FlowKey) :
    (c.lookup dpid key tableId = none ↔
      ∀ r ∈ lastSnapshot (calls.flatMap snapshots) dpid, r.tableId = tableId →
        ¬ r.Matches (packKey key)) ∧
    ∀ effect, c.lookup dpid key tableId = some effect →
      ∃ r ∈ lastSnapshot (calls.flatMap snapshots) dpid, r.tableId = tableId ∧
        r.Matches (packKey key) ∧ r.effect = effect ∧
        ∀ r' ∈ lastSnapshot (calls.flatMap snapshots) dpid, r'.tableId = tableId →
          r'.Matches (packKey key) → r'.priority ≤ r.priority := by
  -- among the polled rules an id stands for one rule
  have hinj : ∀ r r', r ∈ rulesFor (calls.flatMap snapshots) dpid →
      r' ∈ rulesFor (calls.flatMap snapshots) dpid → r.id = r'.id → r = r' :=
    fun r r' hr hr' =>
      eq_of_id_eq (List.Subset.refl _) hhash (mem_flatMap_of_mem_rulesFor hr)
        (mem_flatMap_of_mem_rulesFor hr')
  have hnonneg : ∀ r ∈ lastSnapshot (calls.flatMap snapshots) dpid, 0 ≤ r.priority :=
    fun r hr => hprio r (mem_flatMap_of_mem_rulesFor (mem_rulesFor_of_mem_lastSnapshot hr))
  have hbest := Classifier.lookup_isBestMatch hrun hinj hnonneg tableId key
  constructor
  · rw [hbest.eq_none_iff]
    exact ⟨fun h r hr ht => h r ⟨hr, ht⟩, fun h r hr => h r hr.1 hr.2⟩
  · intro effect heffect
    rw [heffect] at hbest
    obtain ⟨r, ⟨hr, ht⟩, hmatch, heq, hmax⟩ := hbest
    exact ⟨r, hr, ht, hmatch, heq, fun r' hr' ht' => hmax r' ⟨hr', ht'⟩⟩

/-! ### Two polls of one switch -/

/-- Ties in the order of storage. -/
def stableOrder : SubtableOrder where
  sort _ _ _ byMask := byMask.keys.insertionSort fun a b =>
    TableClassifier.maxPriorityOf byMask b ≤ TableClassifier.maxPriorityOf byMask a
  perm _ _ _ byMask := List.perm_insertionSort _ byMask.keys
  sorted _ _ _ byMask := by
    have htotal : Std.Total fun a b : KeyBytes => TableClassifier.maxPriorityOf byMask b ≤
        TableClassifier.maxPriorityOf byMask a := ⟨fun a b => le_total _ _⟩
    have htrans : IsTrans KeyBytes fun a b => TableClassifier.maxPriorityOf byMask b ≤
        TableClassifier.maxPriorityOf byMask a := ⟨fun _ _ _ hab hbc => le_trans hbc hab⟩
    exact List.pairwise_insertionSort _ byMask.keys

/-- An entry of a flow-stats reply. -/
def flowEntry (fields : List (String × Json)) (priority : Json) (action : String) : Json :=
  .obj [("match", .obj fields), ("priority", priority), ("actions", .arr [.str action])]

/-- A poll of switch 1. -/
def pollSwitchOne (flows : List Json) : Json :=
  .arr [.obj [("dpid", .uint 1), ("flows", .arr flows)]]

/-- Between the polls the rule of highest priority is removed and another one added. -/
def changedTable : List Json :=
  [pollSwitchOne [flowEntry [("nw_dst", .str "10.0.0.0/8")] (.uint 10) "OUTPUT:1",
      flowEntry [] (.uint 5) "OUTPUT:2"],
    pollSwitchOne [flowEntry [] (.uint 5) "OUTPUT:2",
      flowEntry [("nw_dst", .str "10.0.0.1")] (.uint 7) "OUTPUT:3"]]

theorem changedTable_lookup :
    ∃ c, Classifier.runCalls stableOrder changedTable {} = .ok ⟨⟩ c ∧
      c.lookup 1 { ipv4Dst := 0x0a000001 } 0 = some { outputPorts := [3] } ∧
      ∃ r ∈ lastSnapshot (changedTable.flatMap snapshots) 1, r.tableId = 0 ∧
        r.Matches (packKey { ipv4Dst := 0x0a000001 }) ∧ r.effect = { outputPorts := [3] } ∧
        ∀ r' ∈ lastSnapshot (changedTable.flatMap snapshots) 1, r'.tableId = 0 →
          r'.Matches (packKey { ipv4Dst := 0x0a000001 }) → r'.priority ≤ r.priority := by
  have hrun := EState.eq_ok_of_isOk (m := Classifier.runCalls stableOrder changedTable) (s := {})
    (by decide +kernel)
  have hfound : (EState.finalState (Classifier.runCalls stableOrder changedTable) {}).lookup 1
      { ipv4Dst := 0x0a000001 } 0 = some { outputPorts := [3] } := by decide +kernel
  exact ⟨_, hrun, hfound, (lookup_scans_last_snapshot stableOrder changedTable _ hrun
    (by decide +kernel) (by decide +kernel) 1 0 { ipv4Dst := 0x0a000001 }).2 _ hfound⟩

/-- In every run whose calls are clean, thrown ones included, a lookup agrees with a linear
    scan of the rules the classifier holds for that table in `rulesById`. -/
theorem lookup_scans_rulesById (ord : SubtableOrder) (calls : List Json)
    (hclean : GuardedRun.Guarded (Classifier.callStep ord) (Classifier.CleanCall ord) {} calls)
    (dpid : UInt64) (tableId : UInt8) (key : FlowKey) :
    IsBestMatch
      (fun r => r ∈ (GuardedRun.run (Classifier.callStep ord) {} calls).rules dpid ∧
        r.tableId = tableId)
      (packKey key)
      ((GuardedRun.run (Classifier.callStep ord) {} calls).lookup dpid key tableId) := by
  have hsound := GuardedRun.run_invariant
    (fun (c : Classifier) call (h : c.Sound) hcall => Classifier.callStep_sound ord h hcall)
    Classifier.sound_empty hclean
  generalize GuardedRun.run (Classifier.callStep ord) {} calls = c at hsound
  obtain ⟨hinv, hord, hnonneg⟩ := hsound dpid
  have hbest := SwitchClassifier.lookup_isBestMatch hinv hord hnonneg tableId key
  rw [← Classifier.lookup_eq] at hbest
  simp only [Classifier.mem_rules hinv]
  exact hbest

/-- The second poll throws at its last entry. What it stores before that is below the
    maximum of the only subtable. -/
def coveredThrow : List Json :=
  [pollSwitchOne [flowEntry [] (.uint 10) "OUTPUT:1"],
    pollSwitchOne [flowEntry [] (.uint 7) "OUTPUT:2", flowEntry [] (.str "high") "OUTPUT:3"]]

theorem coveredThrow_lookup :
    GuardedRun.Guarded (Classifier.callStep stableOrder) (Classifier.CleanCall stableOrder) {}
      coveredThrow ∧
    ∀ dpid tableId key, IsBestMatch
      (fun r => r ∈ (GuardedRun.run (Classifier.callStep stableOrder) {} coveredThrow).rules
        dpid ∧ r.tableId = tableId)
      (packKey key)
      ((GuardedRun.run (Classifier.callStep stableOrder) {} coveredThrow).lookup dpid key
        tableId) := by
  have hclean : GuardedRun.Guarded (Classifier.callStep stableOrder)
      (Classifier.CleanCall stableOrder) {} coveredThrow := by decide +kernel
  exact ⟨hclean, lookup_scans_rulesById stableOrder coveredThrow hclean⟩

/-- A first poll that throws at its second entry: the rule of the first entry is held, and no
    lookup sees it. -/
def uncoveredThrow : List Json :=
  [pollSwitchOne [flowEntry [] (.uint 10) "OUTPUT:1", flowEntry [] (.str "high") "OUTPUT:1"]]

theorem uncoveredThrow_lookup :
    ¬ ∀ (ord : SubtableOrder) (calls : List Json) (dpid : UInt64) (tableId : UInt8)
        (key : FlowKey),
      IsBestMatch
        (fun r => r ∈ (GuardedRun.run (Classifier.callStep ord) {} calls).rules dpid ∧
          r.tableId = tableId)
        (packKey key)
        ((GuardedRun.run (Classifier.callStep ord) {} calls).lookup dpid key tableId) := by
  intro h
  have hthrow := h stableOrder uncoveredThrow 1 0 {}
  have hnone : (GuardedRun.run (Classifier.callStep stableOrder) {} uncoveredThrow).lookup
      1 {} 0 = none := by decide +kernel
  have hheld : ∃ r ∈ (GuardedRun.run (Classifier.callStep stableOrder) {} uncoveredThrow).rules 1,
      r.tableId = 0 ∧ (packKey {}).bitAnd r.mask = r.maskedValue := by decide +kernel
  rw [hnone] at hthrow
  obtain ⟨r, hr, ht, hmatch⟩ := hheld
  exact hthrow r ⟨hr, ht⟩ hmatch

end Ndtwin.Spec

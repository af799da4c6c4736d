import Ndtwin.Spec.RuleIdentityCorrect

/-!
# Growing Polls

The poll loop hands the classifier a growing array, so that the snapshot of an early switch is
applied many times in one cycle. A switch that has taken in a complete snapshot is settled: it
holds the identities of the snapshot and its orders are built. Taking the same snapshot in again
marks everything anew and changes no table.

The first application settles a switch as long as the epoch does not come round: a rule that is
gone must not have the age of a full turn of the counter. The poll loop and the one poll it is
compared with need not sort the subtables of a table alike where maxima tie, so each has an order
of its own, and a lookup that best rules tie may find another of them.

## Key results

- `settled_receive`: one complete snapshot settles a switch
- `sameRules_receive`: a settled switch takes its snapshot in without a change
- `growing_polls_eq_one_poll`: the poll loop against one poll
-/

namespace Ndtwin.Kernel

/-! ## How old a stored rule can be -/

/-- The interrupted snapshots since the last complete one. -/
def brokenOff (snapshots : List Snapshot) : Nat :=
  snapshots.foldl (fun n s => if s.complete then 0 else n + 1) 0

theorem brokenOff_append (snapshots : List Snapshot) (s : Snapshot) :
    brokenOff (snapshots ++ [s]) = if s.complete then 0 else brokenOff snapshots + 1 := by
  unfold brokenOff
  rw [List.foldl_append]
  rfl

namespace SwitchClassifier

/-- Everything stored was seen at most `n` epochs ago. -/
def SeenWithin (n : Nat) (sw : SwitchClassifier) : Prop :=
  ∀ id stored, sw.rulesById.lookup id = some stored →
    ∃ age ≤ n, stored.lastSeenEpoch + UInt64.ofNat age = sw.epoch

/-- Rules that the sweep leaves were seen in the present epoch. -/
theorem seenWithin_sweepAndRebuild (ord : SubtableOrder) (dpid : UInt64) (sw : SwitchClassifier) :
    (sw.sweepAndRebuild ord dpid).SeenWithin 0 := by
  intro id stored hstored
  rw [lookup_sweepAndRebuild, Option.filter_eq_some_iff] at hstored
  refine ⟨0, le_rfl, ?_⟩
  rw [epoch_sweepAndRebuild, of_decide_eq_true hstored.2]
  exact UInt64.add_zero _

/-- After marking, what is stored is either marked or older than before. -/
theorem lookup_marked_of_seenWithin {n : Nat} {sw : SwitchClassifier} (h : sw.SeenWithin n)
    {rules : List Rule} {id : RuleId} {stored : StoredRule}
    (hstored : (sw.marked rules).rulesById.lookup id = some stored) :
    (id ∈ rules.map Rule.id ∧ stored.lastSeenEpoch = (sw.marked rules).epoch) ∨
      ∃ age ≤ n, stored.lastSeenEpoch + UInt64.ofNat (age + 1) = (sw.marked rules).epoch := by
  -- the known identities play no part here, so all of them are taken
  have haged : sw.Aged n (sw.rulesById.toPairs.map fun p => { p.2.rule with id := p.1 }) := by
    intro id stored hlookup
    refine ⟨?_, h id stored hlookup⟩
    rw [List.map_map]
    exact List.mem_map.mpr ⟨(id, stored), AssocMap.mem_toPairs.mpr hlookup, rfl⟩
  exact (lookup_marked haged hstored).imp_right fun hold => hold.2

theorem seenWithin_marked {n : Nat} {sw : SwitchClassifier} (h : sw.SeenWithin n)
    (rules : List Rule) : (sw.marked rules).SeenWithin (n + 1) := by
  intro id stored hstored
  rcases lookup_marked_of_seenWithin h hstored with ⟨-, hseen⟩ | ⟨age, hage, hsum⟩
  · exact ⟨0, Nat.zero_le _, by rw [hseen]; exact UInt64.add_zero _⟩
  · exact ⟨age + 1, Nat.succ_le_succ hage, hsum⟩

/-- In a run a rule is no older than the interrupted snapshots since the last complete one. -/
theorem foldl_receive_seenWithin (ord : SubtableOrder) (dpid : UInt64)
    (snapshots : List Snapshot) :
    (snapshots.foldl (receive ord dpid) {}).SeenWithin (brokenOff snapshots) := by
  induction snapshots using List.reverseRecOn with
  | nil => exact fun _ _ h => nomatch h
  | append_singleton snapshots s ih =>
    rw [List.foldl_append, List.foldl_cons, List.foldl_nil, brokenOff_append]
    unfold receive
    split
    · exact seenWithin_sweepAndRebuild ord dpid _
    · exact seenWithin_marked ih s.rules

/-! ## Settled switches -/

/-- The same tables, and the same rules under the same identities. -/
structure SameRules (sw sw' : SwitchClassifier) : Prop where
  tables : ∀ t, sw.tables.lookup t = sw'.tables.lookup t
  rules : ∀ id, (sw.rulesById.lookup id).map StoredRule.rule =
    (sw'.rulesById.lookup id).map StoredRule.rule

theorem SameRules.refl (sw : SwitchClassifier) : sw.SameRules sw := ⟨fun _ => rfl, fun _ => rfl⟩

theorem SameRules.trans {sw₁ sw₂ sw₃ : SwitchClassifier} (h : sw₁.SameRules sw₂)
    (h' : sw₂.SameRules sw₃) : sw₁.SameRules sw₃ :=
  ⟨fun t => (h.tables t).trans (h'.tables t), fun id => (h.rules id).trans (h'.rules id)⟩

theorem SameRules.symm {sw sw' : SwitchClassifier} (h : sw.SameRules sw') : sw'.SameRules sw :=
  ⟨fun t => (h.tables t).symm, fun id => (h.rules id).symm⟩

theorem SameRules.lookupInTable_eq {sw sw' : SwitchClassifier} (h : sw.SameRules sw') (t : UInt8)
    (key : FlowKey) : sw.lookupInTableNoLock t key = sw'.lookupInTableNoLock t key := by
  unfold lookupInTableNoLock
  rw [h.tables t]

theorem SameRules.holds_iff {sw sw' : SwitchClassifier} (h : sw.SameRules sw') (r : Rule) :
    sw.Holds r ↔ sw'.Holds r := by
  have hiff : ∀ sw : SwitchClassifier,
      sw.Holds r ↔ (sw.rulesById.lookup r.id).map StoredRule.rule = some r := by
    intro sw
    rw [Option.map_eq_some_iff]
    rfl
  rw [hiff, hiff, h.rules]

theorem SameRules.answersAlike {sw₁ sw₂ sw₁' sw₂' : SwitchClassifier} (h₁ : sw₁.SameRules sw₁')
    (h₂ : sw₂.SameRules sw₂') {t : UInt8} {key : FlowKey} (h : sw₁'.AnswersAlike sw₂' t key) :
    sw₁.AnswersAlike sw₂ t key := by
  unfold AnswersAlike Untied HoldsIn at h ⊢
  simp only [h₁.lookupInTable_eq, h₂.lookupInTable_eq, h₂.holds_iff]
  exact h

/-- The identities stored are those of the rules, and every order is built. -/
structure Settled (rules : List Rule) (sw : SwitchClassifier) : Prop where
  ids : ∀ id, (sw.rulesById.lookup id).isSome = true ↔ id ∈ rules.map Rule.id
  clean : ∀ t tc, sw.tables.lookup t = some tc → tc.priorityOrderDirty = false

/-- No order is left dirty by a rebuild. -/
theorem clean_rebuildPriorityOrders (ord : SubtableOrder) (dpid : UInt64) (sw : SwitchClassifier)
    {t : UInt8} {tc : TableClassifier}
    (h : (sw.rebuildPriorityOrders ord dpid).tables.lookup t = some tc) :
    tc.priorityOrderDirty = false := by
  unfold rebuildPriorityOrders at h
  rw [AssocMap.lookup_mapVals] at h
  obtain ⟨tc₀, -, rfl⟩ := Option.map_eq_some_iff.mp h
  unfold TableClassifier.rebuildPriorityOrderIfNeeded
  split
  · rfl
  · next hclean => exact Bool.eq_false_iff.mpr hclean

/-- A complete snapshot settles a switch, as long as no stored rule has the age of a full turn
    of the epoch. -/
theorem settled_sweepAndRebuild (ord : SubtableOrder) (dpid : UInt64) {n : Nat}
    (hn : n + 1 < 2 ^ 64) {sw : SwitchClassifier} (h : sw.SeenWithin n) (rules : List Rule) :
    ((sw.marked rules).sweepAndRebuild ord dpid).Settled rules where
  ids id := by
    rw [lookup_sweepAndRebuild]
    constructor
    · intro hsome
      obtain ⟨stored, hstored⟩ := Option.isSome_iff_exists.mp hsome
      rw [Option.filter_eq_some_iff] at hstored
      have hlast := of_decide_eq_true hstored.2
      rcases lookup_marked_of_seenWithin h hstored.1 with ⟨hmem, -⟩ | ⟨age, hage, hsum⟩
      · exact hmem
      · -- the age would have to be a multiple of 2^64
        rw [← hlast] at hsum
        exact absurd hsum (epoch_add_ne (by omega) stored.lastSeenEpoch)
    · intro hmem
      obtain ⟨r, hr⟩ := lookup_foldl_upsertRule_of_mem sw.nextEpoch hmem
      have hepoch : (sw.marked rules).epoch = sw.nextEpoch.epoch := epoch_foldl_upsertRule _ _
      have hmarked : (sw.marked rules).rulesById.lookup id = some ⟨r, sw.nextEpoch.epoch⟩ := hr
      rw [hmarked]
      simp [hepoch]
  clean _ _ htc := clean_rebuildPriorityOrders ord dpid _ htc

/-! ## Taking a snapshot in again -/

/-- Marking rules whose identities are known changes epochs only. -/
theorem sameRules_foldl_upsertRule {rules : List Rule} {sw : SwitchClassifier}
    (h : ∀ r ∈ rules, (sw.rulesById.lookup r.id).isSome = true) :
    (rules.foldl upsertRule sw).SameRules sw := by
  induction rules generalizing sw with
  | nil => exact .refl sw
  | cons r rules ih =>
    obtain ⟨hr, hrules⟩ := List.forall_mem_cons.mp h
    obtain ⟨stored, hstored⟩ := Option.isSome_iff_exists.mp hr
    have hstep : (sw.upsertRule r).SameRules sw := by
      refine ⟨fun t => ?_, fun id => ?_⟩
      · rw [upsertRule, hstored]
      · rw [lookup_upsertRule, hstored]
        split
        · next hid => rw [hid, hstored]; rfl
        · rfl
    refine (ih fun r' hr' => ?_).trans hstep
    have hsome := congrArg Option.isSome (hstep.rules r'.id)
    rw [Option.isSome_map, Option.isSome_map] at hsome
    rw [hsome]
    exact hrules r' hr'

/-- A sweep that finds nothing old leaves tables and rules alone. -/
theorem sameRules_sweepAndRebuild (ord : SubtableOrder) (dpid : UInt64) {sw : SwitchClassifier}
    (hseen : ∀ id stored, sw.rulesById.lookup id = some stored → stored.lastSeenEpoch = sw.epoch)
    (hclean : ∀ t tc, sw.tables.lookup t = some tc → tc.priorityOrderDirty = false) :
    (sw.sweepAndRebuild ord dpid).SameRules sw := by
  refine ⟨fun t => ?_, fun id => ?_⟩
  · have hnone : sw.toDelete = [] := by
      unfold toDelete
      rw [List.map_eq_nil_iff, List.filter_eq_nil_iff]
      intro p hp
      simpa using hseen p.1 p.2 (AssocMap.mem_toPairs.mp hp)
    unfold sweepAndRebuild
    rw [hnone, List.foldl_nil]
    unfold rebuildPriorityOrders
    rw [AssocMap.lookup_mapVals]
    cases htc : sw.tables.lookup t with
    | none => rfl
    | some tc =>
      rw [Option.map_some, TableClassifier.rebuildPriorityOrderIfNeeded, hclean t tc htc]
      rfl
  · rw [lookup_sweepAndRebuild]
    cases hstored : sw.rulesById.lookup id with
    | none => rfl
    | some stored => simp [hseen id stored hstored]

/-- A settled switch takes the snapshot in again without a change, and stays settled. -/
theorem sameRules_receive (ord : SubtableOrder) (dpid : UInt64) {sw : SwitchClassifier}
    {s : Snapshot} (hs : s.complete = true) (h : sw.Settled s.rules) :
    (sw.receive ord dpid s).SameRules sw ∧ (sw.receive ord dpid s).Settled s.rules := by
  have hmark : (sw.marked s.rules).SameRules sw := by
    have hknown : (s.rules.foldl upsertRule sw.nextEpoch).SameRules sw.nextEpoch :=
      sameRules_foldl_upsertRule fun r hr => (h.ids r.id).mpr (List.mem_map_of_mem hr)
    exact hknown.trans ⟨fun _ => rfl, fun _ => rfl⟩
  have hsome : ∀ id, ((sw.marked s.rules).rulesById.lookup id).isSome =
      (sw.rulesById.lookup id).isSome := by
    intro id
    have hid := congrArg Option.isSome (hmark.rules id)
    rwa [Option.isSome_map, Option.isSome_map] at hid
  have hseen : ∀ id stored, (sw.marked s.rules).rulesById.lookup id = some stored →
      stored.lastSeenEpoch = (sw.marked s.rules).epoch := by
    intro id stored hstored
    have hmem : id ∈ s.rules.map Rule.id := by
      rw [← h.ids, ← hsome, hstored]
      rfl
    obtain ⟨r, hr⟩ := lookup_foldl_upsertRule_of_mem sw.nextEpoch hmem
    have heq : some stored = some ⟨r, sw.nextEpoch.epoch⟩ := hstored.symm.trans hr
    rw [Option.some.inj heq]
    exact (epoch_foldl_upsertRule _ _).symm
  -- Every stored rule is in the snapshot, so the sweep deletes none.
  have hsweep := sameRules_sweepAndRebuild ord dpid hseen fun t tc htc =>
    h.clean t tc ((hmark.tables t).symm.trans htc)
  have hreceive : sw.receive ord dpid s = (sw.marked s.rules).sweepAndRebuild ord dpid := if_pos hs
  rw [hreceive]
  refine ⟨hsweep.trans hmark, ⟨fun id => ?_, ?_⟩⟩
  · have hid := congrArg Option.isSome (hsweep.rules id)
    rw [Option.isSome_map, Option.isSome_map] at hid
    rw [hid, hsome, h.ids]
  · exact fun t tc htc => clean_rebuildPriorityOrders ord dpid _ htc

/-- Any number of times. -/
theorem sameRules_foldl_receive (ord : SubtableOrder) (dpid : UInt64) {sw : SwitchClassifier}
    {s : Snapshot} (hs : s.complete = true) (h : sw.Settled s.rules) {snapshots : List Snapshot}
    (hall : ∀ s' ∈ snapshots, s' = s) :
    (snapshots.foldl (receive ord dpid) sw).SameRules sw ∧
      (snapshots.foldl (receive ord dpid) sw).Settled s.rules := by
  induction snapshots generalizing sw with
  | nil => exact ⟨.refl sw, h⟩
  | cons s' snapshots ih =>
    obtain ⟨rfl, hall⟩ := List.forall_mem_cons.mp hall
    obtain ⟨hsame, hsettled⟩ := sameRules_receive ord dpid hs h
    obtain ⟨hsame', hsettled'⟩ := ih hsettled hall
    exact ⟨hsame'.trans hsame, hsettled'⟩

/-- One complete snapshot settles a switch. -/
theorem settled_receive (ord : SubtableOrder) (dpid : UInt64) {n : Nat} (hn : n + 1 < 2 ^ 64)
    {sw : SwitchClassifier} (h : sw.SeenWithin n) {s : Snapshot} (hs : s.complete = true) :
    (sw.receive ord dpid s).Settled s.rules := by
  have hreceive : sw.receive ord dpid s = (sw.marked s.rules).sweepAndRebuild ord dpid := if_pos hs
  rw [hreceive]
  exact settled_sweepAndRebuild ord dpid hn h s.rules

end SwitchClassifier

/-! ## Polls -/

/-- An entry of a poll that is a readable snapshot of a switch. -/
def WellFormedSnapshot (dpid : UInt64) (entry : Json) : Prop :=
  ∃ flows, Classifier.readEntry entry = .ok (dpid, some flows) ∧
    ∀ flow ∈ flows, ∃ r, parseRuleFromJson flow = .ok r

/-- The snapshot that such an entry gives. -/
def snapshotOf (e : UInt64 × Json) : Snapshot where
  dpid := e.1
  rules :=
    match Classifier.readEntry e.2 with
    | .ok (_, some flows) => (EState.prefixOk parseRuleFromJson flows).1
    | _ => []
  complete := true

/-- The arrays of one cycle of the poll loop: the switches read so far. -/
def growingPolls (entries : List Json) : List Json :=
  (List.range entries.length).map fun i => .arr (entries.take (i + 1))

theorem readSnapshots_map {entries : List (UInt64 × Json)}
    (h : ∀ e ∈ entries, WellFormedSnapshot e.1 e.2) :
    readSnapshots (entries.map Prod.snd) = entries.map snapshotOf := by
  induction entries with
  | nil => rfl
  | cons e entries ih =>
    obtain ⟨⟨flows, hread, hflows⟩, hentries⟩ := List.forall_mem_cons.mp h
    have hnone := (EState.prefixOk_of_forall hflows).1
    rw [List.map_cons, List.map_cons, readSnapshots, hread]
    rcases hrules : EState.prefixOk parseRuleFromJson flows with ⟨rules, _ | err⟩
    · rw [← ih hentries]
      simp [snapshotOf, hread, hrules]
    · rw [hrules] at hnone
      exact nomatch hnone

/-- Two classifiers hold the same rules for a switch and give every lookup in it the same
    answer. -/
def Classifier.Agree (c c' : Classifier) (dpid : UInt64) : Prop :=
  (∀ r, (c.switch dpid).Holds r ↔ (c'.switch dpid).Holds r) ∧
    ∀ key t, c.lookup dpid key t = c'.lookup dpid key t

/-- They hold the same rules, and the answers differ at most where best matches tie. -/
def Classifier.AgreeButForTies (c c' : Classifier) (dpid : UInt64) : Prop :=
  (∀ r, (c.switch dpid).Holds r ↔ (c'.switch dpid).Holds r) ∧
    ∀ key t, c.AnswersAlike c' dpid key t

theorem Classifier.agree_of_sameRules {c c' : Classifier} {dpid : UInt64}
    (h : (c.switch dpid).SameRules (c'.switch dpid)) : c.Agree c' dpid := by
  refine ⟨h.holds_iff, fun key t => ?_⟩
  rw [lookup_eq, lookup_eq, h.lookupInTable_eq]

namespace Classifier

section

variable {entries : List (UInt64 × Json)}

/-- Snapshots of the listed switches leave every other switch as it was. -/
theorem switch_of_notMem (ord : SubtableOrder) {c : Classifier} {dpid : UInt64}
    (hdpid : dpid ∉ entries.map Prod.fst) {snapshots : List Snapshot}
    (hfrom : ∀ s ∈ snapshots, ∃ e ∈ entries, s = snapshotOf e) :
    (snapshots.foldl (receive ord) c).switch dpid = c.switch dpid := by
  have hnone : (snapshots.filter fun s => s.dpid = dpid) = [] := by
    rw [List.filter_eq_nil_iff]
    intro s hs
    obtain ⟨e, he, rfl⟩ := hfrom s hs
    exact fun heq => hdpid (of_decide_eq_true heq ▸ List.mem_map_of_mem he)
  rw [switch_foldl_receive, hnone, List.foldl_nil]

/-- The switches of a poll are distinct, so all snapshots of one of them are the same. -/
theorem eq_snapshotOf_of_mem_filter (hdistinct : (entries.map Prod.fst).Nodup)
    {e : UInt64 × Json} (he : e ∈ entries) {snapshots : List Snapshot}
    (hfrom : ∀ s ∈ snapshots, ∃ e ∈ entries, s = snapshotOf e) :
    ∀ s ∈ snapshots.filter fun s => s.dpid = e.1, s = snapshotOf e := by
  intro s hs
  obtain ⟨e', he', rfl⟩ := hfrom s (List.mem_of_mem_filter hs)
  have hdpid : e'.1 = e.1 := of_decide_eq_true (List.mem_filter.mp hs).2
  rw [List.inj_on_of_nodup_map hdistinct he' he hdpid]

/-- Snapshots of the listed switches, among them one of this switch, leave what that one
    leaves. -/
theorem sameRules_of_mem (ord : SubtableOrder) (hdistinct : (entries.map Prod.fst).Nodup)
    {c : Classifier} {e : UInt64 × Json} (he : e ∈ entries) {n : Nat} (hn : n + 1 < 2 ^ 64)
    (hseen : (c.switch e.1).SeenWithin n) {snapshots : List Snapshot}
    (hfrom : ∀ s ∈ snapshots, ∃ e ∈ entries, s = snapshotOf e)
    (hmem : snapshotOf e ∈ snapshots) :
    ((snapshots.foldl (receive ord) c).switch e.1).SameRules
        ((c.switch e.1).receive ord e.1 (snapshotOf e)) ∧
      ((snapshots.foldl (receive ord) c).switch e.1).Settled (snapshotOf e).rules := by
  rw [switch_foldl_receive]
  have hall := eq_snapshotOf_of_mem_filter hdistinct he hfrom
  have hmem' : snapshotOf e ∈ snapshots.filter fun s => s.dpid = e.1 :=
    List.mem_filter.mpr ⟨hmem, by simp [snapshotOf]⟩
  generalize (snapshots.filter fun s => s.dpid = e.1) = own at hall hmem'
  cases own with
  | nil => exact absurd hmem' List.not_mem_nil
  | cons s own =>
    obtain ⟨rfl, hown⟩ := List.forall_mem_cons.mp hall
    have hsettled := SwitchClassifier.settled_receive ord e.1 hn hseen (s := snapshotOf e) rfl
    exact SwitchClassifier.sameRules_foldl_receive ord e.1 rfl hsettled hown

theorem switch_seenWithin (ord : SubtableOrder) (calls : List Json) (dpid : UInt64) :
    ((GuardedRun.run (callStep ord) {} calls).switch dpid).SeenWithin
      (brokenOff (switchSnapshots calls dpid)) := by
  rw [run_eq_foldl, switch_foldl_receive]
  exact SwitchClassifier.foldl_receive_seenWithin ord dpid _

theorem reachable_run (ord : SubtableOrder) (calls : List Json) :
    (GuardedRun.run (callStep ord) {} calls).Reachable := by
  induction calls using List.reverseRecOn with
  | nil => exact .empty
  | append_singleton calls call ih =>
    rw [GuardedRun.run, List.foldl_append]
    exact .call ih ord call

section Listed

variable {c : Classifier} (hagrees : c.Agrees) (hdistinct : (entries.map Prod.fst).Nodup)
  {broken : UInt64 → Nat} (hseen : ∀ dpid, (c.switch dpid).SeenWithin (broken dpid))
  (hturn : ∀ e ∈ entries, broken e.1 + 1 < 2 ^ 64)
include hdistinct hseen hturn

include hagrees in
/-- Two sequences of snapshots of the listed switches, with each of them at least once, leave
    the same rules, and under any two orders the same lookups but for ties. -/
theorem agreeButForTies_of_all_listed (ord ord' : SubtableOrder)
    {snapshots snapshots' : List Snapshot}
    (hfrom : ∀ s ∈ snapshots, ∃ e ∈ entries, s = snapshotOf e)
    (hall : ∀ e ∈ entries, snapshotOf e ∈ snapshots)
    (hfrom' : ∀ s ∈ snapshots', ∃ e ∈ entries, s = snapshotOf e)
    (hall' : ∀ e ∈ entries, snapshotOf e ∈ snapshots') (dpid : UInt64) :
    (snapshots.foldl (receive ord) c).AgreeButForTies (snapshots'.foldl (receive ord') c) dpid := by
  by_cases hdpid : dpid ∈ entries.map Prod.fst
  · obtain ⟨e, he, rfl⟩ := List.mem_map.mp hdpid
    obtain ⟨hsame, -⟩ :=
      sameRules_of_mem ord hdistinct he (hturn e he) (hseen e.1) hfrom (hall e he)
    obtain ⟨hsame', -⟩ :=
      sameRules_of_mem ord' hdistinct he (hturn e he) (hseen e.1) hfrom' (hall' e he)
    have hmarked := SwitchClassifier.marked_inv (hagrees e.1) (snapshotOf e).rules
    constructor
    · intro r
      rw [hsame.holds_iff, hsame'.holds_iff]
      exact SwitchClassifier.holds_sweepAndRebuild_congr ord ord' e.1 _ r
    · intro key t
      exact answersAlike_of_switch (hsame.answersAlike hsame'
        (SwitchClassifier.answersAlike_sweepAndRebuild ord ord' e.1 hmarked t key))
  · have hsame := switch_of_notMem ord (c := c) hdpid hfrom
    have hsame' := switch_of_notMem ord' (c := c) hdpid hfrom'
    refine ⟨fun r => by rw [hsame, hsame'], fun key t => .inl ?_⟩
    rw [lookup_eq, lookup_eq, hsame, hsame']

/-- Once each of the listed switches has been taken in, any of their snapshots changes nothing. -/
theorem agree_of_again (ord ord' : SubtableOrder) {snapshots again : List Snapshot}
    (hfrom : ∀ s ∈ snapshots, ∃ e ∈ entries, s = snapshotOf e)
    (hall : ∀ e ∈ entries, snapshotOf e ∈ snapshots)
    (hagain : ∀ s ∈ again, ∃ e ∈ entries, s = snapshotOf e) (dpid : UInt64) :
    (again.foldl (receive ord') (snapshots.foldl (receive ord) c)).Agree
      (snapshots.foldl (receive ord) c) dpid := by
  apply agree_of_sameRules
  by_cases hdpid : dpid ∈ entries.map Prod.fst
  · obtain ⟨e, he, rfl⟩ := List.mem_map.mp hdpid
    obtain ⟨-, hsettled⟩ :=
      sameRules_of_mem ord hdistinct he (hturn e he) (hseen e.1) hfrom (hall e he)
    rw [switch_foldl_receive ord']
    exact (SwitchClassifier.sameRules_foldl_receive ord' e.1 rfl hsettled
      (eq_snapshotOf_of_mem_filter hdistinct he hagain)).1
  · rw [switch_of_notMem ord' hdpid hagain]
    exact .refl _

end Listed

/-- The snapshots of a cycle. -/
theorem snapshots_growingPolls (hwf : ∀ e ∈ entries, WellFormedSnapshot e.1 e.2) :
    (growingPolls (entries.map Prod.snd)).flatMap pollSnapshots =
      (List.range entries.length).flatMap fun i => (entries.take (i + 1)).map snapshotOf := by
  unfold growingPolls
  rw [List.flatMap_map, List.length_map]
  apply List.flatMap_congr
  intro i _
  show readSnapshots ((entries.map Prod.snd).take (i + 1)) = _
  rw [← List.map_take]
  exact readSnapshots_map fun e he => hwf e (List.mem_of_mem_take he)

end

end Classifier

end Ndtwin.Kernel

namespace Ndtwin.Spec

open Ndtwin.Kernel

/-- One cycle of the poll loop leaves what one poll of all its snapshots leaves: the same rules
    and, but for ties, the same lookups on every switch. Taking any of the snapshots in again
    changes nothing, and the switches that are not listed keep their answers. -/
theorem growing_polls_eq_one_poll (ord₀ ord ord' ord'' : SubtableOrder) (calls : List Json)
    (entries : List (UInt64 × Json)) (hwf : ∀ e ∈ entries, WellFormedSnapshot e.1 e.2)
    (hdistinct : (entries.map Prod.fst).Nodup)
    (hturn : ∀ e ∈ entries, brokenOff (switchSnapshots calls e.1) + 1 < 2 ^ 64) :
    let c := GuardedRun.run (Classifier.callStep ord₀) {} calls
    let polled := Classifier.callStep ord c (.arr (entries.map Prod.snd))
    let cycle := GuardedRun.run (Classifier.callStep ord') c (growingPolls (entries.map Prod.snd))
    (∀ dpid, cycle.AgreeButForTies polled dpid) ∧
    (∀ again, again ⊆ entries → ∀ dpid,
      (Classifier.callStep ord'' polled (.arr (again.map Prod.snd))).Agree polled dpid) ∧
    ∀ dpid, dpid ∉ entries.map Prod.fst → ∀ key t,
      cycle.lookup dpid key t = c.lookup dpid key t ∧
        polled.lookup dpid key t = c.lookup dpid key t := by
  intro c polled cycle
  have hagrees : c.Agrees := (Classifier.reachable_run ord₀ calls).agrees
  have hseen : ∀ dpid, (c.switch dpid).SeenWithin (brokenOff (switchSnapshots calls dpid)) :=
    Classifier.switch_seenWithin ord₀ calls
  have hpolled : polled = (entries.map snapshotOf).foldl (Classifier.receive ord) c := by
    show Classifier.callStep ord c _ = _
    rw [Classifier.callStep_eq_foldl, pollSnapshots, readSnapshots_map hwf]
  have hcycle : cycle = ((List.range entries.length).flatMap fun i =>
      (entries.take (i + 1)).map snapshotOf).foldl (Classifier.receive ord') c := by
    show GuardedRun.run _ _ _ = _
    rw [Classifier.run_eq_foldl, Classifier.snapshots_growingPolls hwf]
  have hfrom : ∀ s ∈ entries.map snapshotOf, ∃ e ∈ entries, s = snapshotOf e := by
    intro s hs
    obtain ⟨e, he, rfl⟩ := List.mem_map.mp hs
    exact ⟨e, he, rfl⟩
  have hall : ∀ e ∈ entries, snapshotOf e ∈ entries.map snapshotOf :=
    fun e he => List.mem_map_of_mem he
  have hfrom' : ∀ s ∈ (List.range entries.length).flatMap fun i =>
      (entries.take (i + 1)).map snapshotOf, ∃ e ∈ entries, s = snapshotOf e := by
    intro s hs
    obtain ⟨i, -, hi⟩ := List.mem_flatMap.mp hs
    obtain ⟨e, he, rfl⟩ := List.mem_map.mp hi
    exact ⟨e, List.mem_of_mem_take he, rfl⟩
  have hall' : ∀ e ∈ entries, snapshotOf e ∈ (List.range entries.length).flatMap fun i =>
      (entries.take (i + 1)).map snapshotOf := by
    -- the last array of the cycle has all of them
    intro e he
    have hpos := List.length_pos_of_mem he
    refine List.mem_flatMap.mpr ⟨entries.length - 1, List.mem_range.mpr (by omega), ?_⟩
    rw [Nat.sub_add_cancel hpos, List.take_length]
    exact List.mem_map_of_mem he
  refine ⟨fun dpid => ?_, fun again hagain dpid => ?_, fun dpid hdpid key t => ?_⟩
  · rw [hcycle, hpolled]
    exact Classifier.agreeButForTies_of_all_listed hagrees hdistinct hseen hturn ord' ord hfrom'
      hall' hfrom hall dpid
  · rw [Classifier.callStep_eq_foldl, pollSnapshots,
      readSnapshots_map fun e he => hwf e (hagain he), hpolled]
    apply Classifier.agree_of_again hdistinct hseen hturn ord ord'' hfrom hall
    intro s hs
    obtain ⟨e, he, rfl⟩ := List.mem_map.mp hs
    exact ⟨e, hagain he, rfl⟩
  · rw [Classifier.lookup_eq, Classifier.lookup_eq, Classifier.lookup_eq, hcycle, hpolled,
      Classifier.switch_of_notMem ord' hdpid hfrom', Classifier.switch_of_notMem ord hdpid hfrom]
    exact ⟨rfl, rfl⟩

/-- An entry of a poll. -/
def switchEntry (dpid : Nat) (flows : List Json) : Json :=
  .obj [("dpid", .uint dpid), ("flows", .arr flows)]

/-- Two switches, of which the first had another rule before. -/
theorem growing_polls_eq_one_poll_two :
    (GuardedRun.run (Classifier.callStep stableOrder)
      (GuardedRun.run (Classifier.callStep stableOrder) {}
        [pollSwitchOne [flowEntry [] (.uint 5) "OUTPUT:2"]])
      (growingPolls [switchEntry 1 [flowEntry [] (.uint 10) "OUTPUT:1"],
        switchEntry 2 []])).AgreeButForTies
    (Classifier.callStep stableOrder
      (GuardedRun.run (Classifier.callStep stableOrder) {}
        [pollSwitchOne [flowEntry [] (.uint 5) "OUTPUT:2"]])
      (.arr [switchEntry 1 [flowEntry [] (.uint 10) "OUTPUT:1"], switchEntry 2 []])) 1 := by
  have hwf : ∀ e ∈ [((1 : UInt64), switchEntry 1 [flowEntry [] (.uint 10) "OUTPUT:1"]),
      (2, switchEntry 2 [])], WellFormedSnapshot e.1 e.2 := by
    intro e he
    rcases List.mem_cons.mp he with rfl | he
    · refine ⟨_, rfl, fun flow hflow => ?_⟩
      rw [List.mem_singleton.mp hflow]
      exact ⟨_, rfl⟩
    · rw [List.mem_singleton.mp he]
      exact ⟨_, rfl, fun flow hflow => absurd hflow List.not_mem_nil⟩
  have hturn : ∀ e ∈ [((1 : UInt64), switchEntry 1 [flowEntry [] (.uint 10) "OUTPUT:1"]),
      (2, switchEntry 2 [])], brokenOff (switchSnapshots
        [pollSwitchOne [flowEntry [] (.uint 5) "OUTPUT:2"]] e.1) + 1 < 2 ^ 64 := by
    intro e he
    rcases List.mem_cons.mp he with rfl | he
    · decide
    · rw [List.mem_singleton.mp he]
      decide
  exact (growing_polls_eq_one_poll stableOrder stableOrder stableOrder stableOrder
    [pollSwitchOne [flowEntry [] (.uint 5) "OUTPUT:2"]]
    [(1, switchEntry 1 [flowEntry [] (.uint 10) "OUTPUT:1"]), (2, switchEntry 2 [])] hwf
    (by decide) hturn).1 1

/-! ### A full turn of the epoch -/

/-- A poll that is interrupted at its first rule. -/
def interruptedPoll : Json := pollSwitchOne [flowEntry [] (.str "high") "OUTPUT:1"]

/-- Interrupted snapshots without a rule only raise the epoch. -/
theorem foldl_receive_replicate (ord : SubtableOrder) (dpid : UInt64) (n : Nat)
    (sw : SwitchClassifier) :
    (List.replicate n ⟨dpid, [], false⟩).foldl (SwitchClassifier.receive ord dpid) sw =
      { sw with epoch := sw.epoch + UInt64.ofNat n } := by
  induction n generalizing sw with
  | zero => simp
  | succ n ih =>
    rw [List.replicate_succ, List.foldl_cons, ih]
    show { sw with epoch := sw.epoch + 1 + UInt64.ofNat n } = _
    rw [UInt64.ofNat_add, UInt64.add_assoc, UInt64.add_comm 1]
    rfl

/-- The snapshots of a rule, of interrupted polls and of polls of an empty table. -/
theorem switchSnapshots_interrupted (n m : Nat) :
    switchSnapshots ([pollSwitchOne [flowEntry [] (.uint 10) "OUTPUT:1"]] ++
        (List.replicate n interruptedPoll ++ List.replicate m (pollSwitchOne []))) 1 =
      [⟨1, [anyRule { outputPorts := [1] }], true⟩] ++
        (List.replicate n ⟨1, [], false⟩ ++ List.replicate m ⟨1, [], true⟩) := by
  have hrule : pollSnapshots (pollSwitchOne [flowEntry [] (.uint 10) "OUTPUT:1"]) =
      [⟨1, [anyRule { outputPorts := [1] }], true⟩] := by decide +kernel
  have hcut : pollSnapshots interruptedPoll = [⟨1, [], false⟩] := by decide +kernel
  have hnone : pollSnapshots (pollSwitchOne []) = [⟨1, [], true⟩] := by decide +kernel
  have hrep : ∀ (call : Json) (s : Snapshot) (n : Nat), pollSnapshots call = [s] →
      (List.replicate n call).flatMap pollSnapshots = List.replicate n s := by
    intro call s n h
    induction n with
    | zero => rfl
    | succ n ih => rw [List.replicate_succ, List.flatMap_cons, h, ih]; rfl
  unfold switchSnapshots
  rw [List.flatMap_append, List.flatMap_append, List.flatMap_singleton, hrule, hrep _ _ n hcut,
    hrep _ _ m hnone, List.filter_append, List.filter_append,
    List.filter_replicate_of_pos (by decide), List.filter_replicate_of_pos (by decide)]
  rfl

/-- After a full turn of the epoch by interrupted polls, a poll of an empty table leaves the
    rule that is gone, and the same poll again removes it. -/
theorem full_turn_keeps_rule :
    WellFormedSnapshot 1 (switchEntry 1 []) ∧
    ¬(GuardedRun.run (Classifier.callStep stableOrder) {}
        ([pollSwitchOne [flowEntry [] (.uint 10) "OUTPUT:1"]] ++
          (List.replicate (2 ^ 64 - 1) interruptedPoll ++
            List.replicate 2 (pollSwitchOne [])))).Agree
      (GuardedRun.run (Classifier.callStep stableOrder) {}
        ([pollSwitchOne [flowEntry [] (.uint 10) "OUTPUT:1"]] ++
          (List.replicate (2 ^ 64 - 1) interruptedPoll ++
            List.replicate 1 (pollSwitchOne [])))) 1 := by
  refine ⟨⟨_, rfl, fun flow hflow => absurd hflow List.not_mem_nil⟩, fun hagree => ?_⟩
  have hlookup := hagree.2 {} 0
  generalize hn : 2 ^ 64 - 1 = n at hlookup
  have hturn : UInt64.ofNat n = -1 := by
    rw [← hn]
    rfl
  rw [Classifier.lookup_run, Classifier.lookup_run, switchSnapshots_interrupted,
    switchSnapshots_interrupted] at hlookup
  simp only [List.foldl_append, foldl_receive_replicate, hturn] at hlookup
  revert hlookup
  decide +kernel

/-! ### A tie -/

/-- Ties against the order of storage. -/
def reversedOrder : SubtableOrder where
  sort _ _ _ byMask := byMask.keys.reverse.insertionSort fun a b =>
    TableClassifier.maxPriorityOf byMask b ≤ TableClassifier.maxPriorityOf byMask a
  perm _ _ _ byMask := (List.perm_insertionSort _ byMask.keys.reverse).trans
    (List.reverse_perm byMask.keys)
  sorted _ _ _ byMask := by
    have htotal : Std.Total fun a b : KeyBytes => TableClassifier.maxPriorityOf byMask b ≤
        TableClassifier.maxPriorityOf byMask a := ⟨fun a b => le_total _ _⟩
    have htrans : IsTrans KeyBytes fun a b => TableClassifier.maxPriorityOf byMask b ≤
        TableClassifier.maxPriorityOf byMask a := ⟨fun _ _ _ hab hbc => le_trans hbc hab⟩
    exact List.pairwise_insertionSort _ byMask.keys.reverse

/-- Two flows of one priority that match the same packets. -/
def tiedFlows : List Json :=
  [flowEntry [("nw_dst", .str "10.0.0.0/8")] (.uint 10) "OUTPUT:1",
    flowEntry [] (.uint 10) "OUTPUT:2"]

/-- The loop may find the one flow where the single poll finds the other. -/
theorem tie_found_either_way :
    WellFormedSnapshot 1 (switchEntry 1 tiedFlows) ∧
    ¬(GuardedRun.run (Classifier.callStep reversedOrder) {}
        (growingPolls [switchEntry 1 tiedFlows])).Agree
      (Classifier.callStep stableOrder {} (.arr [switchEntry 1 tiedFlows])) 1 := by
  refine ⟨⟨_, rfl, fun flow hflow => ?_⟩, fun hagree => ?_⟩
  · rcases List.mem_cons.mp hflow with rfl | hflow
    · exact ⟨_, rfl⟩
    · rw [List.mem_singleton.mp hflow]
      exact ⟨_, rfl⟩
  · have hlookup := hagree.2 { ipv4Dst := 0x0a000001 } 0
    revert hlookup
    decide +kernel

/-- The two ways in which a second look can differ: a full turn of the epoch and a tie. -/
theorem growing_polls_differ :
    (WellFormedSnapshot 1 (switchEntry 1 []) ∧
      ¬(GuardedRun.run (Classifier.callStep stableOrder) {}
          ([pollSwitchOne [flowEntry [] (.uint 10) "OUTPUT:1"]] ++
            (List.replicate (2 ^ 64 - 1) interruptedPoll ++
              List.replicate 2 (pollSwitchOne [])))).Agree
        (GuardedRun.run (Classifier.callStep stableOrder) {}
          ([pollSwitchOne [flowEntry [] (.uint 10) "OUTPUT:1"]] ++
            (List.replicate (2 ^ 64 - 1) interruptedPoll ++
              List.replicate 1 (pollSwitchOne [])))) 1) ∧
    WellFormedSnapshot 1 (switchEntry 1 tiedFlows) ∧
      ¬(GuardedRun.run (Classifier.callStep reversedOrder) {}
          (growingPolls [switchEntry 1 tiedFlows])).Agree
        (Classifier.callStep stableOrder {} (.arr [switchEntry 1 tiedFlows])) 1 :=
  ⟨full_turn_keeps_rule, tie_found_either_way⟩

end Ndtwin.Spec

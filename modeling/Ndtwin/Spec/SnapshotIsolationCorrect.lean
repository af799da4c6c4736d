import Ndtwin.Spec.ClassifierCorrect

/-!
# Snapshot Isolation

One call of `updateFromQueriedTables` carries the snapshots of many switches. An entry whose flow
array cannot be read is skipped, but an entry that does not parse leaves the loop, and the
entries behind it are never looked at. So the lookups of a switch are what its own snapshot makes
them exactly when every entry before its own parses; what stands behind it has no effect.

Two calls need not sort the subtables of a table alike where maxima tie. The calls compared here
have an order each, and a lookup that best rules tie may find another of them.

## Key results

- `switch_isolated_of_parses`: nothing but its own snapshot changes a switch
- `answersAlike_of_parses`: nor do they change its lookups
- `snapshot_isolated_iff`: when the lookups of a switch are those of its own snapshot
-/

namespace Ndtwin.Kernel.Classifier

/-- The entry reads as a snapshot of this switch. -/
def IsAbout (dpid : UInt64) (entry : Json) : Prop :=
  ∃ flows, readEntry entry = .ok (dpid, flows)

theorem not_isAbout {dpid d : UInt64} {entry : Json} {flows : Option (List Json)}
    (h : readEntry entry = .ok (d, flows)) (hne : d ≠ dpid) : ¬ IsAbout dpid entry := by
  rintro ⟨flows', h'⟩
  rw [h] at h'
  cases h'
  exact hne rfl

/-- The parsers accept the entry: its switch, and every flow entry if there is a flow array. -/
def EntryParses (entry : Json) : Prop :=
  match readEntry entry with
  | .ok (_, some flows) => (EState.prefixOk parseRuleFromJson flows).2 = none
  | .ok (_, none) => True
  | .error _ => False

instance : DecidablePred EntryParses := fun entry =>
  match h : readEntry entry with
  | .ok (_, some flows) =>
    decidable_of_iff ((EState.prefixOk parseRuleFromJson flows).2 = none) (by simp [EntryParses, h])
  | .ok (_, none) => isTrue (by simp [EntryParses, h])
  | .error _ => isFalse (by simp [EntryParses, h])

/-- A snapshot of this switch with a flow array that parses. -/
def WellFormedFor (dpid : UInt64) (entry : Json) : Prop :=
  (∃ flows, readEntry entry = .ok (dpid, some flows)) ∧ EntryParses entry

/-! ## One entry -/

/-- An entry of another switch leaves this one as it is, however it ends. -/
theorem keeps_switch_updateEntry (ord : SubtableOrder) {dpid : UInt64} {entry : Json}
    (h : ¬ IsAbout dpid entry) :
    EState.Keeps (fun c => c.switch dpid) (updateEntry ord entry) := by
  intro c
  unfold EState.finalState
  rw [updateEntry_apply]
  cases hread : readEntry entry with
  | error e => rfl
  | ok p =>
    obtain ⟨d, flows⟩ := p
    have hne : ¬ dpid = d := fun heq => h ⟨flows, heq ▸ hread⟩
    cases flows with
    | none => rfl
    | some flows =>
      dsimp only
      rcases EState.prefixOk parseRuleFromJson flows with ⟨rules, _ | e⟩
      · show switch (applySnapshot ord c (d, rules)) dpid = c.switch dpid
        rw [applySnapshot, switch_insert, if_neg hne]
      · show switch { c with switches := _ } dpid = c.switch dpid
        rw [switch_insert, if_neg hne]

/-- The call gets past an entry exactly when the entry parses. -/
theorem isOk_updateEntry_iff (ord : SubtableOrder) (entry : Json) (c : Classifier) :
    EState.isOk (updateEntry ord entry c) = true ↔ EntryParses entry := by
  rw [updateEntry_apply]
  unfold EntryParses
  cases readEntry entry with
  | error e => simp [EState.isOk]
  | ok p =>
    obtain ⟨d, _ | flows⟩ := p
    · simp [EState.isOk]
    · dsimp only
      rcases EState.prefixOk parseRuleFromJson flows with ⟨rules, _ | e⟩
      · simp [EState.isOk]
      · simp [EState.isOk]

/-- What a snapshot makes of its switch depends on that switch only. -/
theorem switch_updateEntry_congr (ord : SubtableOrder) {dpid : UInt64} {own : Json}
    (h : WellFormedFor dpid own) {c c' : Classifier} (hc : c'.switch dpid = c.switch dpid) :
    (EState.finalState (updateEntry ord own) c').switch dpid =
      (EState.finalState (updateEntry ord own) c).switch dpid := by
  obtain ⟨⟨flows, hread⟩, hparses⟩ := h
  unfold EntryParses at hparses
  unfold EState.finalState
  simp only [updateEntry_apply, hread] at hparses ⊢
  rcases hrules : EState.prefixOk parseRuleFromJson flows with ⟨rules, err⟩
  rw [hrules] at hparses
  obtain rfl : err = none := hparses
  dsimp only
  simp only [applySnapshot, switch_insert, hc, if_true]

/-! ## The array -/

section Array

variable (ord : SubtableOrder) {dpid : UInt64} {before after : List Json} {own : Json}

/-- The entries before a snapshot: the loop gets past them exactly when they parse. -/
theorem isOk_entries_iff (entries : List Json) (c : Classifier) :
    EState.isOk (entries.forM (updateEntry ord) c) = true ↔ ∀ e ∈ entries, EntryParses e := by
  apply EState.isOk_forM_iff
  · intro e _ c
    exact isOk_updateEntry_iff ord e c
  · intro _ _ _ _ _ _ _
    exact Iff.rfl

theorem keeps_switch_entries {entries : List Json} (h : ∀ e ∈ entries, ¬ IsAbout dpid e) :
    EState.Keeps (fun c => c.switch dpid) (entries.forM (updateEntry ord)) :=
  EState.keeps_forM_of_mem fun e he => keeps_switch_updateEntry ord (h e he)

theorem callStep_arr (entries : List Json) (c : Classifier) :
    callStep ord c (.arr entries) = EState.finalState (entries.forM (updateEntry ord)) c := rfl

theorem callStep_own (c : Classifier) :
    callStep ord c (.arr [own]) = EState.finalState (updateEntry ord own) c := by
  rw [callStep_arr]
  exact EState.finalState_bind_of_keeps (fun _ _ => rfl) c

/-- When the entries before it parse, a switch ends as after its own snapshot alone. -/
theorem switch_isolated_of_parses (hown : WellFormedFor dpid own)
    (hbefore : ∀ e ∈ before, ¬ IsAbout dpid e) (hafter : ∀ e ∈ after, ¬ IsAbout dpid e)
    (hparses : ∀ e ∈ before, EntryParses e) (c : Classifier) :
    (callStep ord c (.arr (before ++ own :: after))).switch dpid =
      (callStep ord c (.arr [own])).switch dpid := by
  rw [callStep_arr, callStep_own, EState.forM_append,
    EState.finalState_seq_of_ok ((isOk_entries_iff ord before c).mpr hparses)]
  have hc : (EState.finalState (before.forM (updateEntry ord)) c).switch dpid = c.switch dpid :=
    keeps_switch_entries ord hbefore c
  generalize EState.finalState (before.forM (updateEntry ord)) c = c' at hc
  show (EState.finalState (updateEntry ord own >>= fun _ => after.forM (updateEntry ord)) c').switch
    dpid = _
  rw [EState.finalState_seq_of_ok ((isOk_updateEntry_iff ord own c').mpr hown.2)]
  calc switch (EState.finalState (after.forM (updateEntry ord))
        (EState.finalState (updateEntry ord own) c')) dpid
      = (EState.finalState (updateEntry ord own) c').switch dpid :=
        keeps_switch_entries ord hafter _
    _ = (EState.finalState (updateEntry ord own) c).switch dpid :=
        switch_updateEntry_congr ord hown hc

/-- A well-formed snapshot is marked, swept and sorted in. -/
theorem exists_switch_callStep_own (hown : WellFormedFor dpid own) (c : Classifier) :
    ∃ rules, ∀ ord : SubtableOrder, (callStep ord c (.arr [own])).switch dpid =
      ((c.switch dpid).marked rules).sweepAndRebuild ord dpid := by
  obtain ⟨⟨flows, hread⟩, hparses⟩ := hown
  unfold EntryParses at hparses
  simp only [hread] at hparses
  refine ⟨(EState.prefixOk parseRuleFromJson flows).1, fun ord => ?_⟩
  rw [callStep_own, EState.finalState, updateEntry_apply, hread]
  rcases hrules : EState.prefixOk parseRuleFromJson flows with ⟨rules, err⟩
  rw [hrules] at hparses
  obtain rfl : err = none := hparses
  simp only [hrules, switch_applySnapshot, if_true]

/-- When the entries before it parse, the lookups of a switch are those of its own snapshot
    alone. -/
theorem answersAlike_of_parses (ord' : SubtableOrder) {c : Classifier} (hc : c.Reachable)
    (hown : WellFormedFor dpid own) (hbefore : ∀ e ∈ before, ¬ IsAbout dpid e)
    (hafter : ∀ e ∈ after, ¬ IsAbout dpid e) (hparses : ∀ e ∈ before, EntryParses e)
    (key : FlowKey) (tableId : UInt8) :
    (callStep ord c (.arr (before ++ own :: after))).AnswersAlike
      (callStep ord' c (.arr [own])) dpid key tableId := by
  obtain ⟨rules, hswitch⟩ := exists_switch_callStep_own hown c
  apply answersAlike_of_switch
  rw [switch_isolated_of_parses ord hown hbefore hafter hparses c, hswitch, hswitch]
  exact SwitchClassifier.answersAlike_sweepAndRebuild ord ord' dpid
    (SwitchClassifier.marked_inv (hc.agrees dpid) rules) tableId key

/-- When one of the entries before it does not parse, a switch is left as it was. -/
theorem switch_of_not_parses (own : Json) (after : List Json)
    (hbefore : ∀ e ∈ before, ¬ IsAbout dpid e)
    (hbad : ¬ ∀ e ∈ before, EntryParses e) (c : Classifier) :
    (callStep ord c (.arr (before ++ own :: after))).switch dpid = c.switch dpid := by
  have hstop : ¬ EState.isOk (before.forM (updateEntry ord) c) = true := by
    rwa [isOk_entries_iff ord before c]
  rw [callStep_arr, EState.forM_append, EState.finalState_seq_of_not_ok hstop]
  exact keeps_switch_entries ord hbefore c

end Array

/-! ## A snapshot that shows -/

/-- A flow entry that matches every packet. -/
def catchAllFlow : Json := .obj [("actions", .arr [.str "OUTPUT:1"])]

/-- A snapshot of a switch with that entry. -/
def catchAll (dpid : UInt64) : Json :=
  .obj [("dpid", .uint dpid.toNat), ("flows", .arr [catchAllFlow])]

theorem readEntry_catchAll (dpid : UInt64) :
    readEntry (catchAll dpid) = .ok (dpid, some [catchAllFlow]) := by
  have hdpid : UInt64.ofNat dpid.toNat = dpid := UInt64.ofNat_toNat
  simp [readEntry, catchAll, Json.atField, Json.field?, parseU64, extractFlowArray, hdpid,
    Except.mapError, bind, Except.bind, pure, Except.pure]

theorem exists_catchAllRule : ∃ r, parseRuleFromJson catchAllFlow = .ok r ∧ r.tableId = 0 ∧
    r.priority = 0 ∧ r.Matches (packKey {}) := by
  have hrule : (match parseRuleFromJson catchAllFlow with
      | .ok r => decide (r.tableId = 0 ∧ r.priority = 0 ∧ r.Matches (packKey {}))
      | .error _ => false) = true := by decide +kernel
  split at hrule
  · next r hr => exact ⟨r, hr, of_decide_eq_true hrule⟩
  · exact nomatch hrule

theorem wellFormedFor_catchAll (dpid : UInt64) : WellFormedFor dpid (catchAll dpid) := by
  obtain ⟨r, hr, -⟩ := exists_catchAllRule
  refine ⟨⟨_, readEntry_catchAll dpid⟩, ?_⟩
  unfold EntryParses
  rw [readEntry_catchAll]
  simp only [EState.prefixOk, hr]

/-- After the snapshot an empty classifier holds that entry, and only that one. -/
theorem exists_holds_catchAll (ord : SubtableOrder) (dpid : UInt64) :
    ∃ r, (r.tableId = 0 ∧ r.priority = 0 ∧ r.Matches (packKey {})) ∧
      ∀ r', ((callStep ord {} (.arr [catchAll dpid])).switch dpid).Holds r' ↔ r' = r := by
  obtain ⟨r, hr, hrule⟩ := exists_catchAllRule
  have hcall : callStep ord {} (.arr [catchAll dpid]) = applySnapshot ord {} (dpid, [r]) := by
    rw [callStep_own, EState.finalState, updateEntry_apply, readEntry_catchAll]
    simp only [EState.prefixOk, hr]
  have hinj : ∀ r₁ r₂, r₁ ∈ rulesFor [(dpid, [r])] dpid → r₂ ∈ rulesFor [(dpid, [r])] dpid →
      r₁.id = r₂.id → r₁ = r₂ := by
    intro r₁ r₂ h₁ h₂ _
    simp only [mem_rulesFor, List.mem_singleton, exists_eq_left, true_and] at h₁ h₂
    rw [h₁, h₂]
  have hholds := holds_foldl_applySnapshot ord [(dpid, [r])] dpid hinj
  have hlast : lastSnapshot [(dpid, [r])] dpid = [r] := by simp [lastSnapshot]
  rw [hlast, List.foldl_cons, List.foldl_nil, ← hcall] at hholds
  exact ⟨r, hrule, fun r' => (hholds r').trans List.mem_singleton⟩

theorem untied_catchAll (ord : SubtableOrder) (dpid : UInt64) :
    ((callStep ord {} (.arr [catchAll dpid])).switch dpid).Untied 0 {} := by
  obtain ⟨r, -, hholds⟩ := exists_holds_catchAll ord dpid
  rintro _ _ ⟨r₁, ⟨⟨h₁, -⟩, -⟩, -, rfl, -⟩ ⟨r₂, ⟨⟨h₂, -⟩, -⟩, -, rfl, -⟩
  rw [(hholds r₁).mp h₁, (hholds r₂).mp h₂]

/-- The entry is found. -/
theorem lookup_catchAll (ord : SubtableOrder) (dpid : UInt64) :
    (callStep ord {} (.arr [catchAll dpid])).lookup dpid {} 0 ≠ none := by
  obtain ⟨r, ⟨htable, hprio, hmatch⟩, hholds⟩ := exists_holds_catchAll ord dpid
  obtain ⟨rules, hswitch⟩ := exists_switch_callStep_own (wellFormedFor_catchAll dpid) {}
  have hmarked := SwitchClassifier.marked_inv
    (Classifier.Reachable.empty.agrees dpid) rules
  have hbest := SwitchClassifier.lookup_isBestMatch_nonneg
    (SwitchClassifier.sweepAndRebuild_inv ord dpid hmarked)
    (SwitchClassifier.sweepAndRebuild_ordered ord dpid hmarked) 0 {}
  rw [← hswitch, ← lookup_eq] at hbest
  intro hnone
  exact hbest.eq_none_iff.mp hnone r ⟨⟨(hholds r).mpr rfl, htable⟩, le_of_eq hprio.symm⟩ hmatch

end Ndtwin.Kernel.Classifier

namespace Ndtwin.Spec

open Ndtwin.Kernel

/-- The place of a switch in the array: whatever its well-formed snapshot, the calls before and
    the order of the subtables in either call, its lookups afterwards are those of a call with
    that snapshot alone, exactly when every entry before it parses. -/
theorem snapshot_isolated_iff (ord : SubtableOrder) (dpid : UInt64) (before after : List Json)
    (hbefore : ∀ e ∈ before, ¬ Classifier.IsAbout dpid e)
    (hafter : ∀ e ∈ after, ¬ Classifier.IsAbout dpid e) :
    (∀ (ord' : SubtableOrder) (c : Classifier) (own : Json), c.Reachable →
      Classifier.WellFormedFor dpid own → ∀ (key : FlowKey) (tableId : UInt8),
        (Classifier.callStep ord c (.arr (before ++ own :: after))).AnswersAlike
          (Classifier.callStep ord' c (.arr [own])) dpid key tableId) ↔
    ∀ e ∈ before, Classifier.EntryParses e := by
  constructor
  · intro hall
    by_contra hbad
    have hstuck := Classifier.switch_of_not_parses ord (Classifier.catchAll dpid) after
      hbefore hbad {}
    have hsame := (hall ord {} _ .empty (Classifier.wellFormedFor_catchAll dpid) {} 0).eq_of_untied
      (Classifier.untied_catchAll ord dpid)
    have hempty : (Classifier.callStep ord {} (.arr (before ++ Classifier.catchAll dpid ::
        after))).lookup dpid {} 0 = none := by
      rw [Classifier.lookup_eq, hstuck]
      rfl
    rw [hempty] at hsame
    exact Classifier.lookup_catchAll ord dpid hsame.symm
  · intro hparses ord' c own hc hown
    exact Classifier.answersAlike_of_parses ord ord' hc hown hbefore hafter hparses

/-- A snapshot of switch 2 in which the priority of an entry is not a number. -/
def badPriority : Json :=
  .obj [("dpid", .uint 2), ("flows", .arr [.obj [("priority", .str "high")]])]

/-- A snapshot of switch 3 that parses. -/
def goodNeighbour : Json := .obj [("dpid", .uint 3), ("flows", .arr [])]

theorem not_isAbout_badPriority : ¬ Classifier.IsAbout 1 badPriority :=
  Classifier.not_isAbout (d := 2) (by rfl) (by decide)

theorem not_isAbout_goodNeighbour : ¬ Classifier.IsAbout 1 goodNeighbour :=
  Classifier.not_isAbout (d := 3) (by rfl) (by decide)

theorem snapshot_isolated_goodNeighbour :
    (Classifier.callStep stableOrder {}
        (.arr ([goodNeighbour] ++ Classifier.catchAll 1 :: [badPriority]))).lookup 1 {} 0 =
      (Classifier.callStep stableOrder {} (.arr [Classifier.catchAll 1])).lookup 1 {} 0 := by
  have hparses : ∀ e ∈ [goodNeighbour], Classifier.EntryParses e := by
    intro e he
    obtain rfl := List.mem_singleton.mp he
    rfl
  have halike := (snapshot_isolated_iff stableOrder 1 [goodNeighbour] [badPriority]
    (by simpa using not_isAbout_goodNeighbour) (by simpa using not_isAbout_badPriority)).mpr
    hparses stableOrder {} (Classifier.catchAll 1) .empty (Classifier.wellFormedFor_catchAll 1)
    {} 0
  exact halike.eq_of_untied (Classifier.untied_catchAll stableOrder 1)

/-- The entry of switch 2 cannot be parsed, and switch 1 behind it is not updated. -/
theorem badPriority_blocks_next :
    ¬ ∀ (ord ord' : SubtableOrder) (c : Classifier) (dpid : UInt64) (before after : List Json)
        (own : Json), c.Reachable →
      (∀ e ∈ before, ¬ Classifier.IsAbout dpid e) → (∀ e ∈ after, ¬ Classifier.IsAbout dpid e) →
      Classifier.WellFormedFor dpid own → ∀ (key : FlowKey) (tableId : UInt8),
        (Classifier.callStep ord c (.arr (before ++ own :: after))).AnswersAlike
          (Classifier.callStep ord' c (.arr [own])) dpid key tableId := by
  intro h
  have hsame := (h stableOrder stableOrder {} 1 [badPriority] [] (Classifier.catchAll 1) .empty
    (by simpa using not_isAbout_badPriority) (by simp) (Classifier.wellFormedFor_catchAll 1) {}
    0).eq_of_untied (Classifier.untied_catchAll stableOrder 1)
  have hdiffer : (Classifier.callStep stableOrder {} (.arr ([badPriority] ++ [Classifier.catchAll
      1]))).lookup 1 {} 0 ≠
        (Classifier.callStep stableOrder {} (.arr [Classifier.catchAll 1])).lookup 1 {} 0 := by
    decide +kernel
  exact hdiffer hsame

end Ndtwin.Spec

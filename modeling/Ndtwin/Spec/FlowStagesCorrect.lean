import Ndtwin.Spec.SameRuleCorrect

/-!
# The stages of a flow request

`updateOpenFlowTables` installs, modifies and deletes in the cache, entry after entry, and an
exception ends the request where it is. The switches are sent all of it. A stage acts on the
entries that the switches act on when each of its passes changes the cached flows of its rule and
no others, and when no entry that an exception leaves out has a cached flow of its rule.

Whether it does is a matter of the request and of the flows that are cached before it. The
condition follows the request with the flows as the switches have them (`switchPass`), and asks
at each entry which of the fields can be read and which of them tell the flows of the rule.

## Key results

- `flowsOf_stagePass_ok`, `flowsOf_stagePass_error`: a pass that finds its rule leaves what the
  switch leaves
- `stagesActOnRules_iff`: when all passes of a request act on their rules
- `flowsOf_updateOpenFlowTables`: then the cache holds what the switches hold
-/

namespace Ndtwin.Spec.FlowTablesCorrect

open Ndtwin.Kernel Ndtwin.Kernel.FlowTables EState

/-! ## The passes of a request -/

/-- The entries of one of the fields of a request. -/
def stageEntries (j : Json) (op : FlowOp) : List Json :=
  match batchField j (HttpSession.batchFieldName op) with
  | .ok entries => entries.iterate
  | .error _ => []

/-- The passes of a request, in their order. -/
def requestPasses (j : Json) : List (FlowOp × Json) :=
  (stageEntries j .install).map (Prod.mk .install) ++
    (stageEntries j .modify).map (Prod.mk .modify) ++
    (stageEntries j .delete).map (Prod.mk .delete)

theorem forM_map_stagePass (graph : Graph) (op : FlowOp) (entries : List Json) :
    (entries.map (Prod.mk op)).forM (fun p => stagePass graph p.1 p.2) =
      entries.forM (stagePass graph op) := by
  induction entries with
  | nil => rfl
  | cons e entries ih =>
    show (stagePass graph op e >>= fun _ => _) = (stagePass graph op e >>= fun _ => _)
    rw [ih]

/-- The update runs the passes of the request. -/
theorem updateOpenFlowTables_obj (graph : Graph) (fields : List (String × Json))
    (tables : List SwitchTable) :
    updateOpenFlowTables graph (.obj fields) tables =
      ((requestPasses (.obj fields)).forM fun p => stagePass graph p.1 p.2) tables := by
  have hfield : ∀ op, batchField (.obj fields) (HttpSession.batchFieldName op) =
      .ok (((Json.obj fields).field? (HttpSession.batchFieldName op)).getD (.arr [])) :=
    fun op => Json.valueJson_obj fields _ _
  have hins := hfield .install
  have hmods := hfield .modify
  have hdels := hfield .delete
  simp only [HttpSession.batchFieldName] at hins hmods hdels
  unfold requestPasses stageEntries
  simp only [HttpSession.batchFieldName, List.append_assoc, forM_append, forM_map_stagePass]
  rw [updateOpenFlowTables, hins, hmods, hdels]
  rfl

/-! ## What the switches make of a request -/

/-- What is cached for each switch. -/
abbrev CachedFlows := UInt64 → Except Json.Error (Option Json)

/-- The flows of a switch after an entry: an install adds its flow, and a modify and a delete act
    on those of their rule. -/
noncomputable def ruledFlows (op : FlowOp) (e v : Json) : Json :=
  match op with
  | .install => addFlows [flowOfEntry e] v
  | op => v.withElems (ruleEffect op e v.iterate)

open scoped Classical in
/-- What is cached after an entry if it is acted on as at the switch. -/
noncomputable def switchPass (op : FlowOp) (e : Json) (cached : CachedFlows) : CachedFlows :=
  fun d =>
    if (entryDpid e).isOk = true ∧ d = dpidOf e then (cached d).map (Option.map (ruledFlows op e))
    else cached d

/-- The flows that a modify reads: those up to the first that looks like its entry. -/
def ReadsUntil (e : Json) : List Json → Prop
  | [] => True
  | f :: fs => KeyReadable f ∧ (LooksLike e f ∨ ReadsUntil e fs)

/-- A pass can read what it reads, of its entry and of the flows cached for its switch. -/
def PassReads (op : FlowOp) (e : Json) (cached : CachedFlows) : Prop :=
  (entryDpid e).isOk = true ∧
    match op with
    | .install => OnFlows (fun v => FlowFieldsReadable e ∧ Appendable v) (cached (dpidOf e))
    | .modify => KeyReadable e ∧ OnFlows (fun v => ReadsUntil e v.iterate) (cached (dpidOf e))
    | .delete => KeyReadable e ∧ OnFlows AllReadable (cached (dpidOf e))

/-- A pass finds the flows of its rule. -/
def PassTells (op : FlowOp) (e : Json) (cached : CachedFlows) : Prop :=
  (entryDpid e).isOk = true → ∀ v, cached (dpidOf e) = .ok (some v) → FindsRule op e v.iterate

/-- No cached flow is of the rule of an entry, but for those that already stand as a modify
    writes them. -/
def NoneOfRule (op : FlowOp) (e : Json) (cached : CachedFlows) : Prop :=
  (entryDpid e).isOk = true → ∀ v, cached (dpidOf e) = .ok (some v) → ∀ f ∈ v.iterate,
    match op with
    | .install => True
    | .modify => SameRule .modify e f → withRule e f = f
    | .delete => ¬SameRule .delete e f

/-- The condition on a request and on what is cached before it. -/
def StagesTell : List (FlowOp × Json) → CachedFlows → Prop
  | [], _ => True
  | p :: ps, cached =>
    PassTells p.1 p.2 cached ∧
      (PassReads p.1 p.2 cached → StagesTell ps (switchPass p.1 p.2 cached)) ∧
      (¬PassReads p.1 p.2 cached → ∀ q ∈ ps, NoneOfRule q.1 q.2 cached)

/-! ## What the stages do -/

/-- A pass for a switch that has cached flows changes those of the rule as the switch does, and
    nothing else: no other flow, and no flow of another switch. -/
def ActsOnRule (graph : Graph) (op : FlowOp) (e : Json) (tables : List SwitchTable) : Prop :=
  op ≠ .install → (entryDpid e).isOk = true →
    ∀ v, flowsOf graph tables (dpidOf e) = .ok (some v) →
    (∃ w, flowsOf graph (finalState (stagePass graph op e) tables) (dpidOf e) = .ok (some w) ∧
      w.iterate = ruleEffect op e v.iterate) ∧
    ∀ d ≠ dpidOf e, flowsOf graph (finalState (stagePass graph op e) tables) d =
      flowsOf graph tables d

/-- An entry that an exception leaves out changes nothing at the switch that is cached. -/
def Spared (graph : Graph) (op : FlowOp) (e : Json) (tables : List SwitchTable) : Prop :=
  op ≠ .install → (entryDpid e).isOk = true →
    ∀ v, flowsOf graph tables (dpidOf e) = .ok (some v) → ruleEffect op e v.iterate = v.iterate

/-- Every pass acts on its rule, and the entries behind an exception have none. -/
def StagesAct (graph : Graph) : List (FlowOp × Json) → List SwitchTable → Prop
  | [], _ => True
  | p :: ps, tables =>
    ActsOnRule graph p.1 p.2 tables ∧
      match stagePass graph p.1 p.2 tables with
      | .ok _ tables' => StagesAct graph ps tables'
      | .error _ tables' => ∀ q ∈ ps, Spared graph q.1 q.2 tables'

/-! ## One pass -/

theorem flowsOf_stagePass (graph : Graph) {op : FlowOp} (hop : op ≠ .install) {e : Json}
    (hdpid : (entryDpid e).isOk = true) {tables : List SwitchTable} {v : Json}
    (hv : flowsOf graph tables (dpidOf e) = .ok (some v)) (d : UInt64) :
    flowsOf graph (finalState (stagePass graph op e) tables) d =
      if d = dpidOf e then .ok (some (v.withElems (flowsLeft op e v.iterate)))
      else flowsOf graph tables d := by
  cases op with
  | install => exact absurd rfl hop
  | modify => exact flowsOf_modifyOne_left graph hdpid hv d
  | delete => exact flowsOf_deleteOne_left graph hdpid hv d

theorem actsOnRule_iff (graph : Graph) (op : FlowOp) (e : Json) (tables : List SwitchTable) :
    ActsOnRule graph op e tables ↔ PassTells op e (flowsOf graph tables) := by
  by_cases hop : op = .install
  · subst hop
    exact iff_of_true (fun h => absurd rfl h) fun _ _ _ => trivial
  unfold ActsOnRule PassTells
  rw [imp_iff_right hop]
  refine imp_congr_right fun hdpid => forall₂_congr fun v hv => ?_
  have hpass := flowsOf_stagePass graph hop hdpid hv
  have hothers : ∀ d ≠ dpidOf e, flowsOf graph (finalState (stagePass graph op e) tables) d =
      flowsOf graph tables d := fun d hd => (hpass d).trans (if_neg hd)
  rw [and_iff_left hothers, hpass, if_pos rfl, ← flowsLeft_eq_iff op hdpid]
  constructor
  · intro ⟨w, hw, heq⟩
    obtain rfl := Option.some.inj (Except.ok.inj hw)
    rwa [iterate_left] at heq
  · intro h
    exact ⟨_, rfl, (iterate_left op e v).trans h⟩

theorem ruleEffect_eq_self_iff {op : FlowOp} (e : Json) (fs : List Json) :
    ruleEffect op e fs = fs ↔ ∀ f ∈ fs,
      match op with
      | .install => True
      | .modify => SameRule .modify e f → withRule e f = f
      | .delete => ¬SameRule .delete e f := by
  classical
  cases op with
  | install => exact iff_of_true rfl fun _ _ => trivial
  | modify =>
    rw [ruleEffect, List.map_eq_self_iff]
    apply forall₂_congr
    intro f _
    by_cases hsame : SameRule .modify e f
    · simp [hsame]
    · simp [hsame]
  | delete =>
    rw [ruleEffect, List.filter_eq_self]
    simp only [decide_eq_true_eq]

theorem spared_iff (graph : Graph) (op : FlowOp) (e : Json) (tables : List SwitchTable) :
    Spared graph op e tables ↔ NoneOfRule op e (flowsOf graph tables) := by
  unfold Spared NoneOfRule
  simp only [ruleEffect_eq_self_iff]
  cases op with
  | install => exact iff_of_true (fun h => absurd rfl h) fun _ _ _ _ _ => trivial
  | modify => exact imp_iff_right (by simp)
  | delete => exact imp_iff_right (by simp)

theorem readsUntil_iff {e : Json} (he : KeyReadable e) (fs : List Json) :
    ReadableUntil e fs ↔ ReadsUntil e fs := by
  induction fs with
  | nil => exact Iff.rfl
  | cons f fs ih =>
    unfold ReadableUntil ReadsUntil
    rw [ih]
    refine and_congr_right fun hf => or_congr_left ?_
    rw [extractKey_eq_iff_keyOf hf, keyOf_eq_iff he hf]

/-- An entry without a switch throws at once. -/
theorem stagePass_of_no_dpid (graph : Graph) (op : FlowOp) {e : Json}
    (hdpid : ¬(entryDpid e).isOk = true) (tables : List SwitchTable) :
    ∃ err, stagePass graph op e tables = .error err tables := by
  cases hread : entryDpid e with
  | ok d =>
    rw [hread] at hdpid
    exact absurd rfl hdpid
  | error err =>
    refine ⟨.json err, ?_⟩
    cases op with
    | install => rw [stagePass, installOne, hread]; rfl
    | modify => rw [stagePass, modifyOne, hread]; rfl
    | delete => rw [stagePass, deleteOne, hread]; rfl

/-- When a pass returns. -/
theorem isOk_stagePass_iff (graph : Graph) (op : FlowOp) (e : Json) (tables : List SwitchTable) :
    isOk (stagePass graph op e tables) = true ↔ PassReads op e (flowsOf graph tables) := by
  unfold PassReads
  by_cases hdpid : (entryDpid e).isOk = true
  · rw [and_iff_right hdpid]
    cases op with
    | install => exact isOk_installOne_iff graph hdpid tables
    | modify =>
      rw [stagePass, isOk_modifyOne_iff graph hdpid, ModifyReadable]
      refine and_congr_right fun he => ?_
      exact onFlows_congr (fun v => readsUntil_iff he v.iterate) _
    | delete => exact isOk_deleteOne_iff graph hdpid tables
  · refine iff_of_false ?_ fun h => hdpid h.1
    obtain ⟨err, hthrows⟩ := stagePass_of_no_dpid graph op hdpid tables
    rw [hthrows]
    exact Bool.false_ne_true

/-- A pass changes nothing for a switch that is not in the topology, or whose cached reply is of
    another type. -/
theorem finalState_stagePass_of_none (graph : Graph) (op : FlowOp) {e : Json}
    {tables : List SwitchTable} (hv : ∀ v, flowsOf graph tables (dpidOf e) ≠ .ok (some v)) :
    finalState (stagePass graph op e) tables = tables := by
  by_cases hdpid : (entryDpid e).isOk = true
  · have hentry : liftJson (entryDpid e) = .ok (dpidOf e) := by rw [entryDpid_eq hdpid]; rfl
    have hlookup : ∀ body : Option Nat → TablesM Unit, body none = pure ⟨⟩ →
        finalState (getFlowsArrayForDpid graph (dpidOf e) >>= body) tables = tables := by
      intro body hbody
      have hget := getFlowsArrayForDpid_cases graph tables (dpidOf e)
      rcases hfound : flowsOf graph tables (dpidOf e) with err | _ | v
      · rw [hfound] at hget
        obtain ⟨err, hget⟩ := hget
        exact finalState_of_error (bind_of_error hget _)
      · rw [hfound] at hget
        rw [finalState, bind_of_ok hget, hbody]
        rfl
      · exact absurd hfound (hv v)
    cases op with
    | install =>
      rw [stagePass, finalState, installOne, ofExcept_bind hentry, ← finalState]
      exact hlookup _ rfl
    | modify =>
      rw [stagePass, finalState, modifyOne, ofExcept_bind hentry]
      cases hkey : extractKey e with
      | error err => rfl
      | ok key =>
        rw [ofExcept_bind rfl, ← finalState]
        exact hlookup _ rfl
    | delete =>
      rw [stagePass, finalState, deleteOne, ofExcept_bind hentry]
      cases hkey : extractKey e with
      | error err => rfl
      | ok key =>
        rw [ofExcept_bind rfl, ← finalState]
        exact hlookup _ rfl
  · obtain ⟨err, hthrows⟩ := stagePass_of_no_dpid graph op hdpid tables
    exact finalState_of_error hthrows

/-- A pass that finds its rule and returns leaves what the switch leaves. -/
theorem flowsOf_stagePass_ok (graph : Graph) {op : FlowOp} {e : Json}
    {tables tables' : List SwitchTable} (h : stagePass graph op e tables = .ok () tables')
    (htells : PassTells op e (flowsOf graph tables)) :
    flowsOf graph tables' = switchPass op e (flowsOf graph tables) := by
  have hread := (isOk_stagePass_iff graph op e tables).mp (by rw [h]; rfl)
  have hdpid := hread.1
  funext d
  simp only [switchPass, hdpid, true_and]
  by_cases hop : op = .install
  · subst hop
    rw [flowsOf_installOne graph hdpid h]
    by_cases hd : d = dpidOf e
    · have hflows : installedFlows [e] (dpidOf e) = [flowOfEntry e] := by simp [installedFlows]
      rw [if_pos hd, hd, hflows]
      rfl
    · have hflows : installedFlows [e] d = [] := by simp [installedFlows, Ne.symm hd]
      rw [if_neg hd, hflows, map_addFlows_nil]
  · by_cases hv : ∃ v, flowsOf graph tables (dpidOf e) = .ok (some v)
    · obtain ⟨v, hv⟩ := hv
      have hpass := flowsOf_stagePass graph hop hdpid hv d
      rw [finalState_of_ok h] at hpass
      have hleft := (flowsLeft_eq_iff op hdpid v.iterate).mpr (htells hdpid v hv)
      rw [hpass, hleft]
      split
      · rename_i hd
        rw [hd, hv]
        cases op with
        | install => exact absurd rfl hop
        | modify => rfl
        | delete => rfl
      · rfl
    · -- neither the cache nor the switch has flows to change
      have hsame := finalState_stagePass_of_none graph op (not_exists.mp hv)
      rw [finalState_of_ok h] at hsame
      rw [hsame]
      split
      · rename_i hd
        rw [hd]
        cases hfound : flowsOf graph tables (dpidOf e) with
        | error err => rfl
        | ok flows =>
          cases flows with
          | none => rfl
          | some v => exact absurd ⟨v, hfound⟩ hv
      · rfl

/-- The search of a modify for a flow that ends with an exception changes none. -/
theorem modifyLeft_eq_self {e : Json} {fs : List Json}
    (h : ¬(KeyReadable e ∧ ReadsUntil e fs)) : modifyLeft e fs = fs := by
  cases hkey : keyOf e with
  | none => rw [modifyLeft, hkey]
  | some key =>
    have he : KeyReadable e := by rw [keyReadable_iff, hkey]; rfl
    rcases modifyFirst_spec (keyOf_eq_some.mp hkey) fs with ⟨huntil, _⟩ | ⟨_, herr⟩
    · exact absurd ⟨he, (readsUntil_iff he fs).mp huntil⟩ h
    · cases hfirst : modifyFirst key e fs with
      | error err =>
        rw [modifyLeft, hkey]
        simp only [hfirst]
        rfl
      | ok fs' =>
        rw [hfirst] at herr
        cases herr

/-- A pass of which the entry or the flows cannot be read, but which finds its rule, leaves the
    flows that it looked at. -/
theorem flowsLeft_eq_self {op : FlowOp} {e : Json} (hdpid : (entryDpid e).isOk = true)
    {cached : CachedFlows} {v : Json} (hv : cached (dpidOf e) = .ok (some v))
    (htells : PassTells op e cached) (hread : ¬PassReads op e cached) :
    flowsLeft op e v.iterate = v.iterate := by
  have hfinds := htells hdpid v hv
  unfold PassReads at hread
  rw [hv, and_iff_right hdpid] at hread
  cases op with
  | install => rfl
  | modify => exact modifyLeft_eq_self hread
  | delete =>
    by_cases hall : KeyReadable e ∧ ∀ f ∈ v.iterate, KeyReadable f
    · -- only `erase` throws, for a table that is null and has no flows
      have hnull : v = .null := by
        by_contra hne
        exact hread ⟨hall.1, hne, hall.2⟩
      subst hnull
      exact left_of_scalar .delete e rfl rfl
    · rw [(flowsLeft_eq_iff .delete hdpid v.iterate).mpr hfinds]
      exact (ruleEffect_eq_self_iff e v.iterate).mpr (DeleteFindsRule.none hfinds hall)

/-- What an install leaves of the flows of every switch. -/
theorem flowsOf_installOne_left (graph : Graph) {e : Json} (hdpid : (entryDpid e).isOk = true)
    {tables : List SwitchTable} {v : Json} (hv : flowsOf graph tables (dpidOf e) = .ok (some v))
    (d : UInt64) :
    flowsOf graph (finalState (installOne graph e) tables) d =
      if d = dpidOf e then .ok (some ((installEffect e v).toOption.getD v))
      else flowsOf graph tables d := by
  have hentry : liftJson (entryDpid e) = .ok (dpidOf e) := by rw [entryDpid_eq hdpid]; rfl
  rw [finalState, installOne, ofExcept_bind hentry, ← finalState]
  refine flowsOf_left_of_body graph (fun v => (installEffect e v).toOption.getD v) ?_ hv d
  intro i tables
  simp only [installEffect]
  cases newFlow e with
  | error err => exact .inr ⟨rfl, rfl⟩
  | ok flow =>
    have hlift : liftJson (.ok flow) = .ok flow := rfl
    rw [hlift, finalState, ofExcept_bind rfl, get_bind, ok_bind, ← finalState]
    cases (readFlows i (dpidOf e) tables).pushBack flow with
    | error err => exact .inr ⟨rfl, rfl⟩
    | ok w => exact .inl rfl

/-- A pass that finds its rule and throws leaves all flows as they are. -/
theorem flowsOf_stagePass_error (graph : Graph) {op : FlowOp} {e : Json}
    {tables tables' : List SwitchTable} {err : TableError}
    (h : stagePass graph op e tables = .error err tables')
    (htells : PassTells op e (flowsOf graph tables)) :
    flowsOf graph tables' = flowsOf graph tables := by
  have hread : ¬PassReads op e (flowsOf graph tables) := by
    rw [← isOk_stagePass_iff, h]
    exact Bool.false_ne_true
  rw [← finalState_of_error h]
  by_cases hv : ∃ v, flowsOf graph tables (dpidOf e) = .ok (some v)
  · obtain ⟨v, hv⟩ := hv
    by_cases hdpid : (entryDpid e).isOk = true
    · -- the pass writes what it found
      have hback : ∀ d, (if d = dpidOf e then .ok (some v) else flowsOf graph tables d) =
          flowsOf graph tables d := by
        intro d
        split
        · rename_i hd
          rw [hd, hv]
        · rfl
      funext d
      by_cases hop : op = .install
      · subst hop
        have hfails : ¬(installEffect e v).isOk = true := by
          rw [isOk_installEffect_iff (isObject_of_entryDpid hdpid)]
          intro hok
          refine hread ⟨hdpid, ?_⟩
          rw [hv]
          exact hok
        have hkept : (installEffect e v).toOption.getD v = v := by
          cases heffect : installEffect e v with
          | error err => rfl
          | ok w =>
            rw [heffect] at hfails
            exact absurd rfl hfails
        rw [stagePass, flowsOf_installOne_left graph hdpid hv, hkept]
        exact hback d
      · rw [flowsOf_stagePass graph hop hdpid hv, flowsLeft_eq_self hdpid hv htells hread,
          Json.withElems_iterate]
        exact hback d
    · obtain ⟨err', hthrows⟩ := stagePass_of_no_dpid graph op hdpid tables
      rw [finalState_of_error hthrows]
  · rw [finalState_stagePass_of_none graph op (not_exists.mp hv)]

/-! ## The whole request -/

/-- The passes act on their rules exactly when the request tells them. -/
theorem stagesAct_iff (graph : Graph) (ps : List (FlowOp × Json)) (tables : List SwitchTable) :
    StagesAct graph ps tables ↔ StagesTell ps (flowsOf graph tables) := by
  induction ps generalizing tables with
  | nil => exact Iff.rfl
  | cons p ps ih =>
    unfold StagesAct StagesTell
    rw [actsOnRule_iff]
    refine and_congr_right fun htells => ?_
    have hreads := isOk_stagePass_iff graph p.1 p.2 tables
    cases h : stagePass graph p.1 p.2 tables with
    | ok _ tables' =>
      rw [h] at hreads
      have hread := hreads.mp rfl
      dsimp only
      rw [ih, flowsOf_stagePass_ok graph h htells, imp_iff_right hread]
      exact (and_iff_left fun hnot => absurd hread hnot).symm
    | error err tables' =>
      rw [h] at hreads
      have hread := fun hread => Bool.false_ne_true (hreads.mpr hread)
      simp only [spared_iff, flowsOf_stagePass_error graph h htells]
      rw [imp_iff_right hread]
      exact (and_iff_right fun h => absurd h hread).symm

/-- The stages of a request act on the entries that the switches act on exactly when the fields
    of the request tell the cached flows of its rules. -/
theorem stagesActOnRules_iff (graph : Graph) (j : Json) (tables : List SwitchTable) :
    StagesAct graph (requestPasses j) tables ↔
      StagesTell (requestPasses j) (flowsOf graph tables) :=
  stagesAct_iff graph (requestPasses j) tables

/-- The flows after a request whose stages act on their rules and that does not throw. -/
theorem flowsOf_updateOpenFlowTables (graph : Graph) (j : Json)
    {tables tables' : List SwitchTable} (hacts : StagesAct graph (requestPasses j) tables)
    (h : updateOpenFlowTables graph j tables = .ok () tables') :
    flowsOf graph tables' = (requestPasses j).foldl (fun cached p => switchPass p.1 p.2 cached)
      (flowsOf graph tables) := by
  cases j with
  | obj fields =>
    rw [updateOpenFlowTables_obj] at h
    generalize requestPasses (.obj fields) = ps at hacts h ⊢
    induction ps generalizing tables with
    | nil =>
      obtain ⟨-, rfl⟩ := EStateM.Result.ok.inj h
      rfl
    | cons p ps ih =>
      rw [forM_cons_apply] at h
      rw [List.foldl_cons]
      obtain ⟨hpasses, hrest⟩ := hacts
      cases hpass : stagePass graph p.1 p.2 tables with
      | error err tables₁ =>
        rw [hpass] at h
        exact nomatch h
      | ok _ tables₁ =>
        rw [hpass] at h hrest
        have htells := (actsOnRule_iff graph p.1 p.2 tables).mp hpasses
        rw [← flowsOf_stagePass_ok graph hpass htells]
        exact ih hrest h
  | _ => exact nomatch h

/-! ## Two rules with one key -/

/-- Switch 1 alone. -/
def switchOneAlone : Graph := .edgeless [{ vertexType := .switch, ip := [], dpid := 1 }]

/-- A cached flow for the packets that arrive at a port. -/
def flowAtPort (inPort : Nat) : Json :=
  .obj [("match", .obj [("eth_type", .uint 2048), ("in_port", .uint inPort)]),
    ("priority", .uint 10), ("table_id", .uint 0)]

/-- A request to delete the flow of port 1 of switch 1. -/
def deletePortOne : Json :=
  .obj [("dpid", .uint 1), ("match", .obj [("eth_type", .uint 2048), ("in_port", .uint 1)]),
    ("priority", .uint 10)]

/-- The delete removes the flow of port 2 as well. -/
theorem delete_removes_other_port :
    ¬StagesAct switchOneAlone
      (requestPasses (.obj [("delete_flow_entries", .arr [deletePortOne])]))
      [{ dpid := 1, flows := .obj [("1", .arr [flowAtPort 1, flowAtPort 2])] }] := by
  intro h
  have htells := ((stagesAct_iff _ _ _).mp h).1
  have hfinds : DeleteFindsRule deletePortOne [flowAtPort 1, flowAtPort 2] :=
    htells rfl (.arr [flowAtPort 1, flowAtPort 2]) rfl
  have hread : ∀ f ∈ [flowAtPort 1, flowAtPort 2], KeyReadable f := by
    simp only [List.forall_mem_cons, List.not_mem_nil, false_imp_iff, imp_true_iff, and_true,
      ← isOk_extractKey_iff]
    decide
  have hentry : KeyReadable deletePortOne := (isOk_extractKey_iff _).mp rfl
  have htold := hfinds.told hentry hread (flowAtPort 2) (by simp) rfl
  -- the cache takes the flow of port 2 for the rule, since its key has no port
  have hmatch := (htold.match rfl).mpr ⟨rfl, rfl, rfl, rfl, rfl, rfl⟩
  have hport := hmatch.asked "in_port" (by decide)
  simp [askedValue, spellings, firstField, matchOf, deletePortOne, flowAtPort, Json.field?,
    plainValue] at hport

end Ndtwin.Spec.FlowTablesCorrect

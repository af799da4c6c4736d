import Ndtwin.Kernel.FlowStatsPoll
import Ndtwin.Spec.SnapshotIsolationCorrect

/-!
# The Poll of the Flow Tables

A reply that is empty, does not parse, reports an error or is suspected to be a timeout is skipped,
and its switch is meant to keep the table it had. But what a poll collects holds the usable
replies only, and it replaces the cache as a whole: a switch that is skipped has no entry after the
poll, whatever it had before. A poll that an exception ends leaves the cache as it was, so there
the usable replies are lost.

## Key results

- `fetch_spec`: what a poll collects, and when it ends early
- `skipped_tables_kept_iff`: when every switch that was asked has the table it should have
-/

namespace Ndtwin.Spec

open Ndtwin.Kernel FlowStatsPoll

/-! ## Replies -/

section Replies

variable (parse : String → Option Json)

/-- The table of a reply that is usable; none for one that is skipped, and for one that never
    came. -/
def usableTable (reply : FlowStatsReply) : Option Json :=
  match reply.raw with
  | none => none
  | some raw =>
    if raw.isEmpty then none
    else (parse raw).filter fun flows => classifyFlowStatsReply flows reply.elapsed = .usable

/-- A switch that was asked, with its reply. -/
abbrev Query := UInt64 × FlowStatsReply

/-- The entry that a query adds to the result. -/
def collected (q : Query) : Option SwitchTable :=
  (usableTable parse q.2).map fun flows => { dpid := q.1, flows := flows }

/-- The query ends the poll: `popen` fails, or the classifier's parser refuses the table. -/
def Aborts (q : Query) : Prop :=
  q.2.raw = none ∨ ∃ t ∈ collected parse q, ¬Classifier.EntryParses t.toJson

instance : DecidablePred (Aborts parse) := fun _ => inferInstanceAs (Decidable (_ ∨ _))

/-- The queries of a poll that gets through. -/
def queries (replies : Nat → FlowStatsReply) (vs : List (VertexProperties × Nat)) : List Query :=
  (vs.filter fun v => v.1.vertexType = .switch ∧ v.1.isUp).map fun v => (v.1.dpid, replies v.2)

/-- The queries that are made: up to the first that ends the poll. -/
def asked : List Query → List Query
  | [] => []
  | q :: qs => if Aborts parse q then [q] else q :: asked qs

/-- The table that was replied for a switch: its first usable one. -/
def repliedTable (qs : List Query) (dpid : UInt64) : Option Json :=
  qs.findSome? fun q => if q.1 = dpid then usableTable parse q.2 else none

end Replies

/-- The entry of a switch in the cache. -/
def tableOf (tables : List SwitchTable) (dpid : UInt64) : Option Json :=
  (tables.find? fun t => t.dpid = dpid).map SwitchTable.flows

/-- The cache after a poll that made these queries. -/
structure TablesKept (parse : String → Option Json) (qs : List Query)
    (before after : List SwitchTable) : Prop where
  /-- A switch whose replies were skipped keeps the table it had. -/
  skipped : ∀ q ∈ qs, repliedTable parse qs q.1 = none → tableOf after q.1 = tableOf before q.1
  /-- A switch with a usable reply has the replied table. -/
  usable : ∀ q ∈ qs, ∀ flows, repliedTable parse qs q.1 = some flows → tableOf after q.1 = some flows

variable {parse : String → Option Json}

/-! ## A poll -/

theorem isOk_update_iff (ord : SubtableOrder) (tables : List SwitchTable) (c : Classifier) :
    EState.isOk (Classifier.updateFromQueriedTables ord (.arr (tables.map SwitchTable.toJson)) c) =
      true ↔ ∀ t ∈ tables, Classifier.EntryParses t.toJson := by
  rw [Classifier.updateFromQueriedTables, Classifier.isOk_entries_iff]
  simp

/-- A vertex that is not asked leaves the result as it is. -/
theorem fetchVertex_unpolled (ord : SubtableOrder) (replies : Nat → FlowStatsReply)
    (result : List SwitchTable) {v : VertexProperties × Nat}
    (hv : ¬(v.1.vertexType = .switch ∧ v.1.isUp = true)) (c : Classifier) :
    fetchVertex parse ord replies result v c = .ok result c := by
  unfold fetchVertex
  rw [if_pos]
  · rfl
  · simpa [imp_iff_not_or] using hv

/-- A switch that is asked: a reply that is skipped leaves the result as it is, a usable one is
    appended and the whole result handed to the classifier. -/
theorem fetchVertex_polled (ord : SubtableOrder) (replies : Nat → FlowStatsReply)
    (result : List SwitchTable) {v : VertexProperties × Nat}
    (hv : v.1.vertexType = .switch ∧ v.1.isUp = true) :
    fetchVertex parse ord replies result v =
      if (replies v.2).raw = none then throw .popen
      else
        match collected parse (v.1.dpid, replies v.2) with
        | none => pure result
        | some t =>
          EStateM.adaptExcept .classifier (Classifier.updateFromQueriedTables ord
            (.arr ((result ++ [t]).map SwitchTable.toJson))) >>= fun _ => pure (result ++ [t]) := by
  have hup : ¬(v.1.vertexType ≠ .switch ∨ v.1.isUp = false) := by simp [hv]
  unfold fetchVertex collected usableTable
  rw [if_neg hup]
  dsimp only
  cases (replies v.2).raw with
  | none => rfl
  | some raw =>
    simp only [reduceCtorEq, if_false]
    by_cases hempty : raw.isEmpty = true
    · -- No reply, a reply that does not parse, and one that is not usable all leave the result.
      simp [hempty]
    · simp only [hempty]
      cases parse raw with
      | none => rfl
      | some flows =>
        cases hverdict : classifyFlowStatsReply flows (replies v.2).elapsed with
        | usable => simp [Option.filter, hverdict]
        | suspectTimedOut | reportedFailure => simp [Option.filter, hverdict]

theorem adaptExcept_of_isOk {ε ε' σ : Type} {m : EStateM ε σ PUnit} (f : ε → ε') {s : σ}
    (h : EState.isOk (m s) = true) :
    EStateM.adaptExcept f m s = .ok ⟨⟩ (EState.finalState m s) := by
  unfold EStateM.adaptExcept
  rw [EState.eq_ok_of_isOk h]

theorem adaptExcept_of_not_isOk {ε ε' σ : Type} {m : EStateM ε σ PUnit} (f : ε → ε') {s : σ}
    (h : ¬EState.isOk (m s) = true) : ∃ e s', EStateM.adaptExcept f m s = .error e s' := by
  unfold EStateM.adaptExcept
  cases hm : m s with
  | ok a s' =>
    rw [hm] at h
    exact absurd rfl h
  | error e s' => exact ⟨f e, s', rfl⟩

section Vertex

variable (ord : SubtableOrder) (replies : Nat → FlowStatsReply) {result : List SwitchTable}
  {v : VertexProperties × Nat}

theorem fetchVertex_of_aborts (hv : v.1.vertexType = .switch ∧ v.1.isUp = true)
    (h : Aborts parse (v.1.dpid, replies v.2)) (c : Classifier) :
    ∃ e c', fetchVertex parse ord replies result v c = .error e c' := by
  rw [fetchVertex_polled ord replies result hv]
  by_cases hraw : (replies v.2).raw = none
  · rw [if_pos hraw]
    exact ⟨.popen, c, rfl⟩
  · rw [if_neg hraw]
    obtain ⟨t, ht, hrefused⟩ := h.resolve_left hraw
    rw [Option.mem_def.mp ht]
    dsimp only
    -- the refused entry is the last of those handed over
    have hthrows : ¬EState.isOk (Classifier.updateFromQueriedTables ord
        (.arr ((result ++ [t]).map SwitchTable.toJson)) c) = true := by
      rw [isOk_update_iff]
      intro hall
      exact hrefused (hall t (by simp))
    obtain ⟨e, c', hthrow⟩ := adaptExcept_of_not_isOk PollError.classifier hthrows
    exact ⟨e, c', EState.bind_of_error hthrow _⟩

theorem fetchVertex_of_not_aborts (hresult : ∀ t ∈ result, Classifier.EntryParses t.toJson)
    (hv : v.1.vertexType = .switch ∧ v.1.isUp = true)
    (h : ¬Aborts parse (v.1.dpid, replies v.2)) (c : Classifier) :
    ∃ c', fetchVertex parse ord replies result v c =
      .ok (result ++ (collected parse (v.1.dpid, replies v.2)).toList) c' := by
  rw [fetchVertex_polled ord replies result hv, if_neg fun hraw => h (.inl hraw)]
  cases hcollected : collected parse (v.1.dpid, replies v.2) with
  | none => exact ⟨c, by simp [pure, EStateM.pure]⟩
  | some t =>
    have hparses : Classifier.EntryParses t.toJson := by
      by_contra hrefused
      exact h (.inr ⟨t, hcollected, hrefused⟩)
    have haccepts : EState.isOk (Classifier.updateFromQueriedTables ord
        (.arr ((result ++ [t]).map SwitchTable.toJson)) c) = true := by
      rw [isOk_update_iff]
      intro t' ht'
      rcases List.mem_append.mp ht' with hmem | hmem
      · exact hresult t' hmem
      · rwa [List.mem_singleton.mp hmem]
    exact ⟨_, EState.bind_of_ok (adaptExcept_of_isOk PollError.classifier haccepts) _⟩

/-- What a query adds parses, unless it ends the poll. -/
theorem parses_of_collected {q : Query} (h : ¬Aborts parse q) {t : SwitchTable}
    (ht : t ∈ (collected parse q).toList) : Classifier.EntryParses t.toJson := by
  by_contra hrefused
  exact h (.inr ⟨t, Option.mem_toList.mp ht, hrefused⟩)

/-- The poll of a list of vertices, from a result that the classifier accepted. -/
theorem fetch_spec (vs : List (VertexProperties × Nat))
    (hresult : ∀ t ∈ result, Classifier.EntryParses t.toJson) (c : Classifier) :
    ((∃ q ∈ queries replies vs, Aborts parse q) →
      ∃ e c', vs.foldlM (fetchVertex parse ord replies) result c = .error e c') ∧
    ((∀ q ∈ queries replies vs, ¬Aborts parse q) →
      ∃ c', vs.foldlM (fetchVertex parse ord replies) result c =
        .ok (result ++ (queries replies vs).filterMap (collected parse)) c') := by
  induction vs generalizing result c with
  | nil => simp [queries, pure, EStateM.pure]
  | cons v vs ih =>
    rw [List.foldlM_cons]
    by_cases hv : v.1.vertexType = .switch ∧ v.1.isUp = true
    · have hqueries : queries replies (v :: vs) = (v.1.dpid, replies v.2) :: queries replies vs := by
        simp [queries, hv]
      rw [hqueries]
      by_cases haborts : Aborts parse (v.1.dpid, replies v.2)
      · constructor
        · intro _
          obtain ⟨e, c', herror⟩ := fetchVertex_of_aborts ord replies hv haborts c
          exact ⟨e, c', EState.bind_of_error herror _⟩
        · intro hnone
          exact absurd haborts (hnone _ List.mem_cons_self)
      · obtain ⟨c', hok⟩ := fetchVertex_of_not_aborts ord replies hresult hv haborts c
        rw [EState.bind_of_ok hok]
        have hparses : ∀ t ∈ result ++ (collected parse (v.1.dpid, replies v.2)).toList,
            Classifier.EntryParses t.toJson := by
          intro t ht
          rcases List.mem_append.mp ht with hmem | hmem
          · exact hresult t hmem
          · exact parses_of_collected haborts hmem
        -- what this switch adds moves from the accumulator to the collected list
        have hcons : result ++ (collected parse (v.1.dpid, replies v.2)).toList ++
            (queries replies vs).filterMap (collected parse) =
            result ++ ((v.1.dpid, replies v.2) :: queries replies vs).filterMap (collected parse) := by
          rw [List.filterMap_cons, List.append_assoc]
          cases collected parse (v.1.dpid, replies v.2) <;> rfl
        have hrest := ih hparses c'
        rw [hcons] at hrest
        simpa [haborts] using hrest
    · have hqueries : queries replies (v :: vs) = queries replies vs := by
        simp [queries, hv]
      -- a vertex that is no switch, or is down, is not asked
      rw [hqueries, EState.bind_of_ok (fetchVertex_unpolled ord replies result hv c)]
      exact ih hresult c

end Vertex

/-! ## The cache -/

/-- What a poll collects has the replied table of every switch. -/
theorem tableOf_collected (qs : List Query) (dpid : UInt64) :
    tableOf (qs.filterMap (collected parse)) dpid = repliedTable parse qs dpid := by
  induction qs with
  | nil => rfl
  | cons q qs ih =>
    unfold repliedTable tableOf at ih ⊢
    rw [List.filterMap_cons, List.findSome?_cons, ← ih]
    unfold collected
    cases usableTable parse q.2 with
    | none => simp
    | some flows =>
      by_cases hq : q.1 = dpid
      · simp [hq]
      · simp [hq]

theorem asked_of_not_aborts {qs : List Query} (h : ∀ q ∈ qs, ¬Aborts parse q) :
    asked parse qs = qs := by
  induction qs with
  | nil => rfl
  | cons q qs ih =>
    rw [asked, if_neg (h q List.mem_cons_self), ih fun q' hq' => h q' (List.mem_cons_of_mem q hq')]

/-- The cache after a poll that gets through. -/
theorem cached_of_completes (ord : SubtableOrder) (replies : Nat → FlowStatsReply) (graph : Graph)
    (caches : Caches) (h : ∀ q ∈ queries replies graph.vertices.zipIdx, ¬Aborts parse q) :
    (openflowTablesUpdate parse ord replies graph caches).cachedOpenFlowTables =
      (queries replies graph.vertices.zipIdx).filterMap (collected parse) := by
  have hnil : ∀ t ∈ ([] : List SwitchTable), Classifier.EntryParses t.toJson := by simp
  obtain ⟨c', hok⟩ := (fetch_spec ord replies graph.vertices.zipIdx hnil caches.classifier).2 h
  unfold openflowTablesUpdate fetchOpenFlowTablesInternal
  rw [hok]
  rfl

/-- The cache after a poll that an exception ends. -/
theorem cached_of_aborts (ord : SubtableOrder) (replies : Nat → FlowStatsReply) (graph : Graph)
    (caches : Caches) (h : ∃ q ∈ queries replies graph.vertices.zipIdx, Aborts parse q) :
    (openflowTablesUpdate parse ord replies graph caches).cachedOpenFlowTables =
      caches.cachedOpenFlowTables := by
  have hnil : ∀ t ∈ ([] : List SwitchTable), Classifier.EntryParses t.toJson := by simp
  obtain ⟨e, c', herror⟩ := (fetch_spec ord replies graph.vertices.zipIdx hnil caches.classifier).1 h
  unfold openflowTablesUpdate fetchOpenFlowTablesInternal
  rw [herror]

/-- The poll leaves every switch that it asked with the table it should have. -/
def PollKeeps (parse : String → Option Json) (ord : SubtableOrder)
    (replies : Nat → FlowStatsReply) (graph : Graph) (caches : Caches) : Prop :=
  TablesKept parse (asked parse (queries replies graph.vertices.zipIdx))
    caches.cachedOpenFlowTables
    (openflowTablesUpdate parse ord replies graph caches).cachedOpenFlowTables

/-- Every switch that was asked has the table it should have exactly when no switch that the poll
    skips has a table in the cache, or, in a poll that an exception ends, when the replied
    tables are in the cache already. -/
theorem skipped_tables_kept_iff (parse : String → Option Json) (ord : SubtableOrder)
    (replies : Nat → FlowStatsReply) (graph : Graph) (caches : Caches) :
    PollKeeps parse ord replies graph caches ↔
      ((∀ q ∈ queries replies graph.vertices.zipIdx, ¬Aborts parse q) ∧
        ∀ q ∈ queries replies graph.vertices.zipIdx,
          repliedTable parse (queries replies graph.vertices.zipIdx) q.1 = none →
            tableOf caches.cachedOpenFlowTables q.1 = none) ∨
      ((∃ q ∈ queries replies graph.vertices.zipIdx, Aborts parse q) ∧
        ∀ q ∈ asked parse (queries replies graph.vertices.zipIdx), ∀ flows,
          repliedTable parse (asked parse (queries replies graph.vertices.zipIdx)) q.1 =
              some flows → tableOf caches.cachedOpenFlowTables q.1 = some flows) := by
  unfold PollKeeps
  by_cases haborts : ∃ q ∈ queries replies graph.vertices.zipIdx, Aborts parse q
  · have hnot : ¬∀ q ∈ queries replies graph.vertices.zipIdx, ¬Aborts parse q := by
      simpa using haborts
    -- the exception leaves the cache of the round before, skipped switches included
    rw [cached_of_aborts ord replies graph caches haborts]
    constructor
    · intro hkept
      exact .inr ⟨haborts, hkept.usable⟩
    · rintro (⟨hall, -⟩ | ⟨-, husable⟩)
      · exact absurd hall hnot
      · exact ⟨fun _ _ _ => rfl, husable⟩
  · have hall : ∀ q ∈ queries replies graph.vertices.zipIdx, ¬Aborts parse q := by
      simpa using haborts
    -- the cache is replaced as a whole, so a skipped switch loses the table it had
    rw [cached_of_completes ord replies graph caches hall, asked_of_not_aborts hall]
    constructor
    · intro hkept
      refine .inl ⟨hall, fun q hq hnone => ?_⟩
      rw [← hkept.skipped q hq hnone, tableOf_collected, hnone]
    · rintro (⟨-, hskipped⟩ | ⟨hex, -⟩)
      · constructor
        · intro q hq hnone
          rw [tableOf_collected, hnone, hskipped q hq hnone]
        · intro q _ flows hsome
          rw [tableOf_collected, hsome]
      · exact absurd hex haborts

/-- One switch, which is up. -/
def loneSwitch : Graph := .edgeless [{ vertexType := .switch, ip := [], dpid := 1 }]

/-- The switch has a table in the cache. -/
def loneSwitchCaches : Caches where
  cachedOpenFlowTables := [{ dpid := 1, flows := .arr [Classifier.catchAllFlow] }]
  classifier := {}

/-- The control plane does not answer, and the table is gone. -/
theorem unanswered_table_dropped :
    ¬PollKeeps (fun _ => none) stableOrder (fun _ => { raw := some "", elapsed := 0 }) loneSwitch
      loneSwitchCaches := by
  intro hkept
  have hquery : ((1 : UInt64), ({ raw := some "", elapsed := 0 } : FlowStatsReply)) ∈
      asked (fun _ => none) (queries (fun _ => { raw := some "", elapsed := 0 })
        loneSwitch.vertices.zipIdx) := List.mem_cons_self
  have hbefore := hkept.skipped _ hquery rfl
  exact nomatch hbefore

end Ndtwin.Spec

import Ndtwin.Kernel.FlowBatch
import Ndtwin.Spec.FlowTablesCorrect

/-!
# Answers to flow requests

A flow request that is answered with an error should have had no effect, and one that is
answered with 200 should have queued every entry of a known switch. `processFlowBatch` checks
a batch before it queues it, but the update of the cached tables comes after the queue and can
still throw. `answersTruthfully_iff` says when a request is answered by what was done: whenever
a batch that gets as far as the queue can be read by the update as well.
-/

namespace Ndtwin.Spec.FlowBatchCorrect

open Ndtwin.Kernel Ndtwin.Kernel.HttpSession Ndtwin.Kernel.FlowTables EState
open Ndtwin.Spec.FlowTablesCorrect

/-! ## What a request asks for -/

/-- The entries that a request has in the field of `op`. -/
def entriesOf (j : Json) (op : FlowOp) : List Json :=
  match j.field? (batchFieldName op) with
  | some (.arr entries) => entries
  | _ => []

/-- Entries with their operations: installs, then modifies, then deletes. -/
def batch (ins mods dels : List Json) : List (FlowOp × Json) :=
  ins.map (FlowOp.install, ·) ++ mods.map (FlowOp.modify, ·) ++ dels.map (FlowOp.delete, ·)

/-- The entries of a request in the order of its operations. -/
def requested (j : Json) : List (FlowOp × Json) :=
  batch (entriesOf j .install) (entriesOf j .modify) (entriesOf j .delete)

/-- The answer says what was done: an error that nothing was queued and nothing cached, and 200
    that every entry of a known switch was queued once, in the order of the request. -/
structure AnswersTruthfully (topo : FlowTopology) (j : Json) (s : FlowBatchState) : Prop where
  error : (handleInstallModifyDeleteFlowEntries topo j s).1.status ≠ .ok →
    (handleInstallModifyDeleteFlowEntries topo j s).2.enqueued = s.enqueued ∧
    (handleInstallModifyDeleteFlowEntries topo j s).2.tables = s.tables
  ok : (handleInstallModifyDeleteFlowEntries topo j s).1.status = .ok →
    ∃ jobs, (handleInstallModifyDeleteFlowEntries topo j s).2.enqueued = s.enqueued ++ jobs ∧
      List.Forall₂ (fun q job => makeJob q.1 q.2 = .ok job)
        ((requested j).filter fun q => topo.dpidIsKnown (dpidOf q.2)) jobs

/-- A batch that passes the checks before the queue. -/
structure Queued (topo : FlowTopology) (j : Json) (ins mods dels : List Json) : Prop where
  install : batchField j "install_flow_entries" = .ok (.arr ins)
  modify : batchField j "modify_flow_entries" = .ok (.arr mods)
  delete : batchField j "delete_flow_entries" = .ok (.arr dels)
  shape : ∀ q ∈ batch ins mods dels, describeFlowEntryShapeProblem q.2 q.1 = ""
  job : ∀ q ∈ batch ins mods dels, (makeJob q.1 q.2).isOk = true
  known : batch ins mods dels = [] ∨
    ∃ q ∈ batch ins mods dels, topo.dpidIsKnown (dpidOf q.2) = true

theorem entriesOf_eq {j : Json} (op : FlowOp) {entries : List Json}
    (h : batchField j (batchFieldName op) = .ok (.arr entries)) : entriesOf j op = entries := by
  obtain ⟨fields, rfl⟩ := exists_obj (Json.isObject_of_valueOr_ok h)
  rw [batchField, Json.valueJson_obj] at h
  have hget := Except.ok.inj h
  rw [entriesOf]
  cases hfield : (Json.obj fields).field? (batchFieldName op) with
  | none =>
    rw [hfield] at hget
    exact Json.arr.inj hget
  | some v =>
    rw [hfield, Option.getD_some] at hget
    rw [hget]

theorem Queued.requested_eq {topo : FlowTopology} {j : Json} {ins mods dels : List Json}
    (h : Queued topo j ins mods dels) : requested j = batch ins mods dels := by
  rw [requested, entriesOf_eq .install h.install, entriesOf_eq .modify h.modify,
    entriesOf_eq .delete h.delete]

/-! ## Jobs -/

/-- A job names the switch of its entry. -/
theorem makeJob_dpid {op : FlowOp} {e : Json} {job : FlowJob} (h : makeJob op e = .ok job) :
    entryDpid e = .ok job.dpid := by
  cases op with
  | install =>
    obtain ⟨dpid, hdpid, h⟩ := bind_eq_ok h
    obtain ⟨priority, _, h⟩ := bind_eq_ok h
    obtain ⟨matchJson, _, h⟩ := bind_eq_ok h
    obtain ⟨actions, _, h⟩ := bind_eq_ok h
    obtain ⟨idleTimeout, _, h⟩ := bind_eq_ok h
    rw [hdpid, ← Except.ok.inj h]
  | modify =>
    obtain ⟨dpid, hdpid, h⟩ := bind_eq_ok h
    obtain ⟨priority, _, h⟩ := bind_eq_ok h
    obtain ⟨matchJson, _, h⟩ := bind_eq_ok h
    obtain ⟨actions, _, h⟩ := bind_eq_ok h
    rw [hdpid, ← Except.ok.inj h]
  | delete =>
    obtain ⟨dpid, hdpid, h⟩ := bind_eq_ok h
    obtain ⟨priority, _, h⟩ := bind_eq_ok h
    obtain ⟨matchJson, _, h⟩ := bind_eq_ok h
    rw [hdpid, ← Except.ok.inj h]

theorem dpidOf_of_makeJob {op : FlowOp} {e : Json} {job : FlowJob} (h : makeJob op e = .ok job) :
    dpidOf e = job.dpid := by
  rw [dpidOf, makeJob_dpid h]
  rfl

/-- The jobs of a batch, one for each entry. -/
abbrev JobsOf (entries : List (FlowOp × Json)) (jobs : List FlowJob) : Prop :=
  List.Forall₂ (fun q job => makeJob q.1 q.2 = .ok job) entries jobs

/-- The three loops are one over the whole batch. -/
theorem buildJobs_eq_mapM (ins mods dels : List Json) :
    buildJobs ins mods dels = (batch ins mods dels).mapM fun q => makeJob q.1 q.2 := by
  rw [batch, List.mapM_append, List.mapM_append, List.mapM_map, List.mapM_map, List.mapM_map]
  simp only [buildJobs, bind_assoc, pure_bind]
  rfl

/-- The split keeps the jobs of known switches and counts the others. -/
theorem partition_spec (jobs : List FlowJob) (known : UInt64 → Bool) :
    (partitionFlowBatchByKnownDpid jobs known).accepted = jobs.filter (fun job => known job.dpid) ∧
    (partitionFlowBatchByKnownDpid jobs known).rejectedEntries =
      jobs.countP (fun job => !known job.dpid) := by
  have hfold : ∀ out : FlowBatchPartition,
      (jobs.foldl (FlowBatchPartition.add known) out).accepted =
        out.accepted ++ jobs.filter (fun job => known job.dpid) ∧
      (jobs.foldl (FlowBatchPartition.add known) out).rejectedEntries =
        out.rejectedEntries + jobs.countP (fun job => !known job.dpid) := by
    induction jobs with
    | nil => simp
    | cons job jobs ih =>
      intro out
      rw [List.foldl_cons, (ih _).1, (ih _).2]
      by_cases hknown : known job.dpid = true
      · simp [FlowBatchPartition.add, hknown]
      · simp [FlowBatchPartition.add, hknown]
        omega
  have hall := hfold {}
  rw [List.nil_append, Nat.zero_add] at hall
  exact hall

/-- Jobs and entries of the known switches. -/
theorem jobsOf_filter (topo : FlowTopology) {entries : List (FlowOp × Json)} {jobs : List FlowJob}
    (h : JobsOf entries jobs) :
    JobsOf (entries.filter fun q => topo.dpidIsKnown (dpidOf q.2))
      (jobs.filter fun job => topo.dpidIsKnown job.dpid) := by
  refine List.rel_filter (fun q job hjob => ?_) h
  dsimp only
  rw [dpidOf_of_makeJob hjob]

/-! ## The stages of a request -/

theorem collectShapeProblems_eq_nil_iff (entries : List Json) (op : FlowOp) :
    collectShapeProblems entries op = [] ↔
      ∀ e ∈ entries, describeFlowEntryShapeProblem e op = "" := by
  rw [collectShapeProblems, List.filterMap_eq_nil_iff]
  constructor
  · intro h e he
    obtain ⟨i, hi⟩ := List.getElem?_of_mem he
    have hnone := h (e, i) (List.mem_zipIdx_iff_getElem?.mpr hi)
    by_contra hproblem
    simp [hproblem] at hnone
  · intro h q hq
    have hmem : q.1 ∈ entries := List.mem_of_getElem? (List.mem_zipIdx_iff_getElem?.mp hq)
    simp [h q.1 hmem]

/-- The shape check of the three fields together. -/
theorem shapeProblems_eq_nil_iff (ins mods dels : List Json) :
    collectShapeProblems ins .install ++ collectShapeProblems mods .modify ++
        collectShapeProblems dels .delete = [] ↔
      ∀ q ∈ batch ins mods dels, describeFlowEntryShapeProblem q.2 q.1 = "" := by
  simp only [List.append_eq_nil_iff, collectShapeProblems_eq_nil_iff, batch, List.forall_mem_append,
    List.forall_mem_map]

/-- No job of a known switch, and some of unknown ones: the batch is refused. -/
def NothingKnown (topo : FlowTopology) (jobs : List FlowJob) : Prop :=
  (partitionFlowBatchByKnownDpid jobs topo.dpidIsKnown).accepted.isEmpty ∧
    0 < (partitionFlowBatchByKnownDpid jobs topo.dpidIsKnown).rejectedEntries

theorem nothingKnown_iff {topo : FlowTopology} {entries : List (FlowOp × Json)}
    {jobs : List FlowJob} (h : JobsOf entries jobs) :
    ¬NothingKnown topo jobs ↔
      (entries = [] ∨ ∃ q ∈ entries, topo.dpidIsKnown (dpidOf q.2) = true) := by
  obtain ⟨haccepted, hrejected⟩ := partition_spec jobs topo.dpidIsKnown
  have hfilter : List.Forall₂ _ _ _ := jobsOf_filter topo h
  rw [NothingKnown, haccepted, hrejected, List.isEmpty_iff, List.countP_pos_iff]
  constructor
  · intro hnot
    by_cases hnil : entries = []
    · exact .inl hnil
    · right
      by_contra hnone
      have hentries : entries.filter (fun q => topo.dpidIsKnown (dpidOf q.2)) = [] :=
        List.filter_eq_nil_iff.mpr fun q hq hknown => hnone ⟨q, hq, hknown⟩
      -- No entry names a known switch: then every job is rejected, and there is one.
      rw [hentries, List.forall₂_nil_left_iff] at hfilter
      cases h with
      | nil => exact hnil rfl
      | cons hjob hjobs =>
        rename_i job _ _
        refine hnot ⟨hfilter, job, List.mem_cons_self, ?_⟩
        simpa using List.filter_eq_nil_iff.mp hfilter job List.mem_cons_self
  · rintro (hnil | ⟨q, hq, hknown⟩) ⟨hempty, job, hjob, hunknown⟩
    · subst hnil
      cases h
      exact nomatch hjob
    · rw [hempty, List.forall₂_nil_right_iff, List.filter_eq_nil_iff] at hfilter
      exact hfilter q hq hknown

/-- A queued batch: what is handed to the dispatcher, and the outcome of the update. -/
theorem processFlowBatch_of_queued {topo : FlowTopology} {j : Json} {ins mods dels : List Json}
    (h : Queued topo j ins mods dels) (s : FlowBatchState) :
    ∃ jobs, JobsOf (batch ins mods dels) jobs ∧
      ∃ response : HttpResponse, response.status = .ok ∧
      processFlowBatch topo j s =
        match updateOpenFlowTables topo.graph j s.tables with
        | .ok _ tables => .ok response
            ⟨s.enqueued ++ jobs.filter (fun job => topo.dpidIsKnown job.dpid), tables⟩
        | .error e tables => .error e
            ⟨s.enqueued ++ jobs.filter (fun job => topo.dpidIsKnown job.dpid), tables⟩ := by
  obtain ⟨jobs, hbuild⟩ := exists_of_isOk (isOk_mapM_iff.mpr h.job)
  have hjobs : JobsOf (batch ins mods dels) jobs := mapM_eq_ok_iff.mp hbuild
  rw [← buildJobs_eq_mapM] at hbuild
  have hshape := (shapeProblems_eq_nil_iff ins mods dels).mpr h.shape
  have hknown : ¬NothingKnown topo jobs := (nothingKnown_iff hjobs).mpr h.known
  obtain ⟨haccepted, _⟩ := partition_spec jobs topo.dpidIsKnown
  refine ⟨jobs, hjobs, queued (jobs.filter fun job => topo.dpidIsKnown job.dpid).length
    (partitionFlowBatchByKnownDpid jobs topo.dpidIsKnown).rejectedEntries
    (partitionFlowBatchByKnownDpid jobs topo.dpidIsKnown).unknownDpids, rfl, ?_⟩
  -- the dispatcher has its jobs before the tables are touched, so an error there keeps them
  rw [processFlowBatch, h.install, h.modify, h.delete, liftJson, liftJson, liftJson,
    ofExcept_bind rfl, ofExcept_bind rfl, ofExcept_bind rfl]
  dsimp only
  rw [hshape, if_neg (by simp), hbuild]
  dsimp only
  rw [NothingKnown] at hknown
  rw [if_neg hknown, haccepted]
  rw [EState.modify_bind]
  simp only [bind, EStateM.bind, updateTables]
  cases updateOpenFlowTables topo.graph j s.tables with
  | ok _ tables => rfl
  | error e tables => rfl

/-- An exception or an answer other than 200, with nothing changed. -/
def Refuses (s : FlowBatchState) : EStateM.Result TableError FlowBatchState HttpResponse → Prop
  | .ok response s' => response.status ≠ .ok ∧ s' = s
  | .error _ s' => s' = s

theorem refuses_ofExcept_bind {α : Type} {s : FlowBatchState} {x : Except TableError α}
    {f : α → RequestM HttpResponse} (h : ∀ a, x = .ok a → Refuses s (f a s)) :
    Refuses s ((ofExcept x >>= f) s) := by
  cases x with
  | error e => exact rfl
  | ok a => exact h a rfl

/-- A batch that is not queued is refused and changes nothing. -/
theorem refuses_of_not_queued {topo : FlowTopology} {j : Json}
    (h : ∀ ins mods dels, ¬Queued topo j ins mods dels) (s : FlowBatchState) :
    Refuses s (processFlowBatch topo j s) := by
  rw [processFlowBatch]
  refine refuses_ofExcept_bind fun insField hins => ?_
  refine refuses_ofExcept_bind fun modsField hmods => ?_
  refine refuses_ofExcept_bind fun delsField hdels => ?_
  rw [liftJson_eq_ok] at hins hmods hdels
  dsimp only
  split
  · rename_i ins mods dels
    split
    · exact ⟨nofun, rfl⟩
    · rename_i hshape
      have hshape' := (shapeProblems_eq_nil_iff ins mods dels).mp (by simpa using hshape)
      cases hbuild : buildJobs ins mods dels with
      | error e => exact ⟨nofun, rfl⟩
      | ok jobs =>
        rw [buildJobs_eq_mapM] at hbuild
        have hjobs : JobsOf (batch ins mods dels) jobs := mapM_eq_ok_iff.mp hbuild
        dsimp only
        split
        · exact ⟨nofun, rfl⟩
        · rename_i hknown
          -- all checks passed, so the batch would be queued
          exact absurd ⟨hins, hmods, hdels, hshape', isOk_mapM_iff.mp (isOk_of_exists ⟨_, hbuild⟩),
            (nothingKnown_iff hjobs).mp hknown⟩ (h ins mods dels)
  · exact ⟨nofun, rfl⟩

theorem refused_of_not_queued {topo : FlowTopology} {j : Json}
    (h : ∀ ins mods dels, ¬Queued topo j ins mods dels) (s : FlowBatchState) :
    (handleInstallModifyDeleteFlowEntries topo j s).1.status ≠ .ok ∧
      (handleInstallModifyDeleteFlowEntries topo j s).2 = s := by
  have hrefuses := refuses_of_not_queued h s
  rw [handleInstallModifyDeleteFlowEntries]
  rcases hprocess : processFlowBatch topo j s with ⟨response, s'⟩ | ⟨_ | _, s'⟩
  · rw [hprocess] at hrefuses
    exact hrefuses
  · rw [hprocess] at hrefuses
    exact ⟨nofun, hrefuses⟩
  · rw [hprocess] at hrefuses
    exact ⟨nofun, hrefuses⟩

/-- The entries of a queued batch have dpids. -/
theorem Queued.entryDpid_isOk {topo : FlowTopology} {j : Json} {ins mods dels : List Json}
    (h : Queued topo j ins mods dels) : ∀ e ∈ ins ++ mods ++ dels, (entryDpid e).isOk = true := by
  have hbatch : ∀ q ∈ batch ins mods dels, (entryDpid q.2).isOk = true := by
    intro q hq
    obtain ⟨job, hjob⟩ := exists_of_isOk (h.job q hq)
    exact isOk_of_exists ⟨_, makeJob_dpid hjob⟩
  simpa only [batch, List.forall_mem_append, List.forall_mem_map] using hbatch

/-- The update of a queued batch returns when it can read what it has to. -/
theorem Queued.isOk_update_iff {topo : FlowTopology} {j : Json} {ins mods dels : List Json}
    (h : Queued topo j ins mods dels) (tables : List SwitchTable) :
    isOk (updateOpenFlowTables topo.graph j tables) = true ↔
      UpdateReadable topo.graph tables ins mods dels :=
  isOk_updateOpenFlowTables_iff topo.graph h.install h.modify h.delete h.entryDpid_isOk tables

/-- A queued batch with an update that returns is answered with 200. -/
theorem answersTruthfully_of_isOk {topo : FlowTopology} {j : Json} {ins mods dels : List Json}
    (h : Queued topo j ins mods dels) {s : FlowBatchState}
    (hupdate : isOk (updateOpenFlowTables topo.graph j s.tables) = true) :
    AnswersTruthfully topo j s := by
  obtain ⟨jobs, hjobs, response, hstatus, hprocess⟩ := processFlowBatch_of_queued h s
  rw [eq_ok_of_isOk hupdate] at hprocess
  have hhandle : handleInstallModifyDeleteFlowEntries topo j s = (response,
      ⟨s.enqueued ++ jobs.filter (fun job => topo.dpidIsKnown job.dpid),
        finalState (updateOpenFlowTables topo.graph j) s.tables⟩) := by
    rw [handleInstallModifyDeleteFlowEntries, hprocess]
  refine ⟨fun herror => ?_, fun _ => ?_⟩
  · rw [hhandle] at herror
    exact absurd hstatus herror
  · rw [hhandle, h.requested_eq]
    exact ⟨_, rfl, jobsOf_filter topo hjobs⟩

/-- A queued batch with an update that throws is answered with an error, and its jobs stay. -/
theorem not_answersTruthfully_of_not_isOk {topo : FlowTopology} {j : Json}
    {ins mods dels : List Json} (h : Queued topo j ins mods dels) {s : FlowBatchState}
    (hupdate : ¬isOk (updateOpenFlowTables topo.graph j s.tables) = true) :
    ¬AnswersTruthfully topo j s := by
  intro hanswers
  obtain ⟨jobs, hjobs, response, _, hprocess⟩ := processFlowBatch_of_queued h s
  -- a batch without entries leaves nothing to read
  obtain ⟨q, hq, hknown⟩ : ∃ q ∈ batch ins mods dels, topo.dpidIsKnown (dpidOf q.2) = true := by
    refine h.known.resolve_left fun hnil => hupdate ((h.isOk_update_iff s.tables).mpr ?_)
    simp only [batch, List.append_eq_nil_iff, List.map_eq_nil_iff] at hnil
    obtain ⟨⟨rfl, rfl⟩, rfl⟩ := hnil
    exact ⟨(fun _ he => nomatch he), (fun _ he => nomatch he), (fun _ he => nomatch he)⟩
  have haccepted : jobs.filter (fun job => topo.dpidIsKnown job.dpid) ≠ [] := by
    intro hnil
    have hfilter : List.Forall₂ _ _ _ := jobsOf_filter topo hjobs
    rw [hnil, List.forall₂_nil_right_iff, List.filter_eq_nil_iff] at hfilter
    exact hfilter q hq hknown
  have herror : ∃ e tables, processFlowBatch topo j s = .error e
      ⟨s.enqueued ++ jobs.filter (fun job => topo.dpidIsKnown job.dpid), tables⟩ := by
    cases hcase : updateOpenFlowTables topo.graph j s.tables with
    | ok u tables =>
      rw [hcase] at hupdate
      exact absurd rfl hupdate
    | error e tables =>
      rw [hcase] at hprocess
      exact ⟨e, tables, hprocess⟩
  obtain ⟨e, tables, herror⟩ := herror
  have hhandle : (handleInstallModifyDeleteFlowEntries topo j s).1.status ≠ .ok ∧
      (handleInstallModifyDeleteFlowEntries topo j s).2.enqueued =
        s.enqueued ++ jobs.filter (fun job => topo.dpidIsKnown job.dpid) := by
    rw [handleInstallModifyDeleteFlowEntries, herror]
    cases e with
    | json e => exact ⟨nofun, rfl⟩
    | runtime what => exact ⟨nofun, rfl⟩
  have hsame := (hanswers.error hhandle.1).1
  rw [hhandle.2] at hsame
  exact haccepted (List.append_right_eq_self.mp hsame)

/-! ## The result -/

/-- A request is answered by what was done exactly when a batch that is queued can be read by
    the update of the cached tables. -/
theorem answersTruthfully_iff (topo : FlowTopology) (j : Json) (s : FlowBatchState) :
    AnswersTruthfully topo j s ↔
      ∀ ins mods dels, Queued topo j ins mods dels →
        UpdateReadable topo.graph s.tables ins mods dels := by
  by_cases hqueued : ∃ ins mods dels, Queued topo j ins mods dels
  · obtain ⟨ins, mods, dels, h⟩ := hqueued
    constructor
    · intro hanswers ins' mods' dels' h'
      rw [← h'.isOk_update_iff]
      by_contra hupdate
      exact not_answersTruthfully_of_not_isOk h' hupdate hanswers
    · intro hreadable
      exact answersTruthfully_of_isOk h ((h.isOk_update_iff s.tables).mpr (hreadable _ _ _ h))
  · have hnot : ∀ ins mods dels, ¬Queued topo j ins mods dels := by
      intro ins mods dels h
      exact hqueued ⟨ins, mods, dels, h⟩
    obtain ⟨hstatus, hstate⟩ := refused_of_not_queued hnot s
    refine iff_of_true ⟨fun _ => ?_, fun hok => absurd hok hstatus⟩ fun ins mods dels h =>
      absurd h (hnot ins mods dels)
    rw [hstate]
    exact ⟨rfl, rfl⟩

/-- A kernel with one switch. -/
def oneSwitch : FlowTopology where
  dpidToSwitchKind := (∅ : AssocMap UInt64 SwitchKind).insert 1 .bmv2
  graph := .edgeless [{ vertexType := .switch, dpid := 1, ip := [] }]

/-- A drop rule whose table is given as text. -/
def textTableId : Json :=
  .obj [("install_flow_entries", .arr [
    .obj [("actions", .arr []), ("dpid", .uint 1), ("table_id", .str "0")]])]

/-- The rule is queued, and the request is answered with 400. -/
theorem textTableId_misreported : ¬AnswersTruthfully oneSwitch textTableId ⟨[], []⟩ := by
  intro h
  have hstatus : (handleInstallModifyDeleteFlowEntries oneSwitch textTableId ⟨[], []⟩).1.status =
      .badRequest := by decide +kernel
  have hqueued : (handleInstallModifyDeleteFlowEntries oneSwitch textTableId
      ⟨[], []⟩).2.enqueued.length = 1 := by decide +kernel
  have hempty := (h.error (by rw [hstatus]; exact nofun)).1
  rw [hempty] at hqueued
  exact nomatch hqueued

end Ndtwin.Spec.FlowBatchCorrect

import Ndtwin.Kernel.IntentTranslator
import Ndtwin.Spec.LLMResponseTypesCorrect

/-!
# Intent Order Correctness

The tasks of an answer are performed as they are listed, up to the first that throws; their
numbers are read and written but never compared. So they are performed by number exactly when
they are listed by number.

## Key results

- `performTasks_performed`: what the loop over the tasks performs
- `inputTextIntent_performed`: what an intent performs
- `performsInOrder_iff`: when the order of the numbers is kept
-/

namespace Ndtwin.Kernel.IntentTranslator

open LlmResponse

variable {σ : Type}

/-! ## What is performed -/

theorem performed_call {α : Type} (m : EStateM ResponseError σ α) (run : Run σ) :
    (EState.finalState (Run.call m) run).performed = run.performed := by
  unfold EState.finalState Run.call
  cases m run.system <;> rfl

theorem performed_perform (perform : Task → EStateM ResponseError σ String) (task : Task)
    (run : Run σ) :
    (EState.finalState (Run.perform perform task) run).performed = run.performed ++ [task] :=
  performed_call (perform task) { run with performed := run.performed ++ [task] }

theorem isOk_perform (perform : Task → EStateM ResponseError σ String) (task : Task)
    (run : Run σ) :
    EState.isOk (Run.perform perform task run) = EState.isOk (perform task run.system) := by
  show EState.isOk (Run.call (perform task) { run with performed := run.performed ++ [task] }) = _
  unfold Run.call
  cases perform task run.system <;> rfl

/-- The loop performs the tasks as they are listed, and all of them when it returns. -/
theorem performTasks_performed (perform : Task → EStateM ResponseError σ String)
    (tasks : List Task) (run : Run σ) :
    ∃ done, (EState.finalState (performTasks perform tasks) run).performed =
        run.performed ++ done ∧ done <+: tasks ∧
      (EState.isOk (performTasks perform tasks run) = true → done = tasks) := by
  -- by induction on the tasks: the run starts with whatever was performed before
  induction tasks generalizing run with
  | nil => exact ⟨[], (List.append_nil _).symm, List.prefix_rfl, fun _ => rfl⟩
  | cons task tasks ih =>
    have hperform := performed_perform perform task run
    -- what the loop does once the first task has returned
    let rest (result : String) : EStateM ResponseError (Run σ) (List Task) :=
      performTasks perform tasks >>= fun tasks => pure ({ task with result := result } :: tasks)
    show ∃ done, (EState.finalState (Run.perform perform task >>= rest) run).performed = _ ∧ _ ∧
      (EState.isOk ((Run.perform perform task >>= rest) run) = true → _)
    cases h : Run.perform perform task run with
    | error e run' =>
      -- the task that throws has been started, and is the last one
      rw [EState.finalState_of_error h] at hperform
      rw [EState.bind_of_error h, EState.finalState_of_error (EState.bind_of_error h rest)]
      exact ⟨[task], hperform, List.prefix_append [task] tasks, fun hok => nomatch hok⟩
    | ok result run' =>
      rw [EState.finalState_of_ok h] at hperform
      obtain ⟨done, hdone, hlisted, hall⟩ := ih run'
      -- putting the result in front of the others performs nothing
      have hlast : EState.finalState (rest result) run' =
          EState.finalState (performTasks perform tasks) run' :=
        EState.finalState_bind_of_keeps (fun _ _ => rfl) run'
      refine ⟨task :: done, ?_, List.cons_prefix_cons.mpr ⟨rfl, hlisted⟩, ?_⟩
      · rw [EState.finalState, EState.bind_of_ok h, ← EState.finalState, hlast, hdone, hperform,
          List.append_assoc, List.singleton_append]
      · intro hok
        rw [EState.bind_of_ok h, EState.isOk_bind_of_pure] at hok
        rw [hall hok]

/-! ## Intents -/

/-- An intent that the agent answers performs the tasks of the answer. -/
theorem inputTextIntent_of_answer {services : Services σ} {s s' : σ} {ans : Answer}
    (hagent : askAnswerAgent services 5 s = .ok (some (.answer ans)) s')
    (hstate : ans.state ≠ .discussion) (performed : List Task) :
    inputTextIntent services { system := s, performed := performed } =
      (performTasks (performTask services) ans.tasks >>= fun tasks =>
        pure (LLMResponse.answer { ans with tasks := tasks }))
          { system := s', performed := performed } := by
  -- the call of the agent performs no task
  have hcall : Run.call (askAnswerAgent services 5) { system := s, performed := performed } =
      .ok (some (.answer ans)) { system := s', performed := performed } := by
    unfold Run.call
    rw [hagent]
  unfold inputTextIntent
  rw [EState.bind_of_ok hcall]
  show (if ans.state = State.discussion then pure (LLMResponse.answer ans) else
    performTasks (performTask services) ans.tasks >>= fun tasks =>
      pure (LLMResponse.answer { ans with tasks := tasks }) : EStateM _ (Run σ) _) _ = _
  rw [if_neg hstate]

/-- Such an intent performs the tasks as they are listed, and all of them when it returns. -/
theorem inputTextIntent_performed {services : Services σ} {s s' : σ} {ans : Answer}
    (hagent : askAnswerAgent services 5 s = .ok (some (.answer ans)) s')
    (hstate : ans.state ≠ .discussion) :
    (EState.finalState (inputTextIntent services) ⟨s, []⟩).performed <+: ans.tasks ∧
      (EState.isOk (inputTextIntent services ⟨s, []⟩) = true →
        (EState.finalState (inputTextIntent services) ⟨s, []⟩).performed = ans.tasks) := by
  have hintent := inputTextIntent_of_answer hagent hstate []
  obtain ⟨done, hdone, hlisted, hall⟩ :=
    performTasks_performed (performTask services) ans.tasks { system := s', performed := [] }
  have hfinal : (EState.finalState (inputTextIntent services) ⟨s, []⟩).performed = done := by
    rw [EState.finalState, hintent, ← EState.finalState,
      EState.finalState_bind_of_keeps (fun _ _ => rfl), hdone, List.nil_append]
  rw [hfinal, hintent, EState.isOk_bind_of_pure]
  exact ⟨hlisted, hall⟩

/-- The tasks of an answer by their numbers, those of one number as they are listed. -/
def inOrder (tasks : List Task) : List Task := tasks.mergeSort fun t u => t.order ≤ u.order

/-- Whatever the services do, an intent that gets this answer performs its tasks by their numbers:
    all of them, unless an exception ends it before. -/
def PerformsInOrder (ans : Answer) : Prop :=
  ∀ {σ : Type} (services : Services σ) (s s' : σ),
    askAnswerAgent services 5 s = .ok (some (.answer ans)) s' →
      (EState.finalState (inputTextIntent services) ⟨s, []⟩).performed <+: inOrder ans.tasks ∧
        (EState.isOk (inputTextIntent services ⟨s, []⟩) = true →
          (EState.finalState (inputTextIntent services) ⟨s, []⟩).performed = inOrder ans.tasks)

/-- The tasks are listed by their numbers. -/
def ListedInOrder (tasks : List Task) : Prop := (tasks.map Task.order).Pairwise (· ≤ ·)

theorem listedInOrder_inOrder (tasks : List Task) : ListedInOrder (inOrder tasks) := by
  have hsorted : (inOrder tasks).Pairwise fun t u => decide (t.order ≤ u.order) = true := by
    apply List.pairwise_mergeSort
    · intro t u v htu huv
      simp only [decide_eq_true_eq] at htu huv ⊢
      exact UInt16.le_trans htu huv
    · intro t u
      simp only [Bool.or_eq_true, decide_eq_true_eq]
      exact UInt16.le_total t.order u.order
  exact List.pairwise_map.mpr (by simpa using hsorted)

theorem inOrder_of_listedInOrder {tasks : List Task} (h : ListedInOrder tasks) :
    inOrder tasks = tasks :=
  List.mergeSort_of_pairwise (by simpa using List.pairwise_map.mp h)

/-! ## A run without exceptions -/

/-- Services that answer with `j` and never throw; no switch is known. -/
def steady (j : Json) : Services Unit where
  reply := return some j
  vertices _ := []
  ipStrToDpidMap _ := ∅
  installAnEntry _ _ _ _ := return { ok := true, httpStatus := 200, message := "" }
  modifyAnEntry _ _ _ _ := return { ok := true, httpStatus := 200, message := "" }
  dump _ := ""
  performOther _ := return ""

theorem askAnswerAgent_steady {j : Json} {response : LLMResponse}
    (h : LLMResponse.fromJson j = .ok response) :
    askAnswerAgent (steady j) 5 () = .ok (some response) () := by
  have hreply : (steady j).reply () = .ok (some j) () := rfl
  have hcall : callOpenAIApi (steady j) () = .ok (some response) () := by
    unfold callOpenAIApi
    rw [EState.bind_of_ok hreply]
    dsimp only
    rw [h]
    rfl
  unfold askAnswerAgent
  rw [EState.bind_of_ok hcall]
  rfl

theorem performTask_steady (j : Json) (task : Task) :
    performTask (steady j) task () = .ok "" () := by
  obtain ⟨type, order, result, params⟩ := task
  cases type <;> rfl

theorem isOk_performTasks {perform : Task → EStateM ResponseError σ String}
    (hperform : ∀ task s, EState.isOk (perform task s) = true) (tasks : List Task) (run : Run σ) :
    EState.isOk (performTasks perform tasks run) = true := by
  induction tasks generalizing run with
  | nil => rfl
  | cons task tasks ih =>
    cases h : Run.perform perform task run with
    | ok result run' =>
      unfold performTasks
      rw [EState.bind_of_ok h, EState.isOk_bind_of_pure]
      exact ih run'
    -- no task throws
    | error e run' =>
      have hok := isOk_perform perform task run
      rw [h, hperform] at hok
      exact nomatch hok

/-- An answer whose tasks are performed by their numbers lists them so. -/
theorem listedInOrder_of_performsInOrder {j : Json} {ans : Answer}
    (h : LLMResponse.fromJson j = .ok (.answer ans)) (hperforms : PerformsInOrder ans) :
    ListedInOrder ans.tasks := by
  have hagent := askAnswerAgent_steady h
  have hstate : ans.state ≠ .discussion := by
    rw [LLMResponse.state_of_fromJson h]
    exact fun hne => nomatch hne
  have hok : EState.isOk (inputTextIntent (steady j) ⟨(), []⟩) = true := by
    rw [inputTextIntent_of_answer hagent hstate, EState.isOk_bind_of_pure]
    apply isOk_performTasks
    intro task s
    rw [performTask_steady]
    rfl
  -- the same run performs the tasks as they are listed and as they are sorted
  have hlisted := (inputTextIntent_performed hagent hstate).2 hok
  have hsorted := (hperforms (steady j) () () hagent).2 hok
  rw [← hlisted, hsorted]
  exact listedInOrder_inOrder ans.tasks

theorem performsInOrder_of_listedInOrder {j : Json} {ans : Answer}
    (h : LLMResponse.fromJson j = .ok (.answer ans)) (hlisted : ListedInOrder ans.tasks) :
    PerformsInOrder ans := by
  intro σ services s s' hagent
  rw [inOrder_of_listedInOrder hlisted]
  apply inputTextIntent_performed hagent
  rw [LLMResponse.state_of_fromJson h]
  exact fun hne => nomatch hne

/-! ## The order of the numbers -/

/-- The tasks of an accepted answer are performed by their numbers exactly when they are listed
    by their numbers. -/
theorem performsInOrder_iff {j : Json} {ans : Answer}
    (h : LLMResponse.fromJson j = .ok (.answer ans)) :
    PerformsInOrder ans ↔ ListedInOrder ans.tasks :=
  ⟨listedInOrder_of_performsInOrder h, performsInOrder_of_listedInOrder h⟩

theorem performsInOrder_forwardThenPowerOff :
    ∃ ans, LLMResponse.fromJson forwardThenPowerOff = .ok (.answer ans) ∧
      ans.tasks.map Task.order = [1, 2] ∧ PerformsInOrder ans := by
  refine ⟨_, rfl, rfl, (performsInOrder_iff (j := forwardThenPowerOff) rfl).mpr ?_⟩
  show [(1 : UInt16), 2].Pairwise (· ≤ ·)
  decide

/-- A switch is powered off as the second task, which is listed first. -/
def powerOffListedFirst : Json := .obj [
  ("explanation", .str "reroute around s2, then power it off"),
  ("state", .str "answer"),
  ("tasks", .arr [
    .obj [
      ("order", .uint 2),
      ("parameters", .obj [("device_name", .str "s2")]),
      ("type", .str "PowerOffSwitch")],
    .obj [
      ("order", .uint 1),
      ("parameters", .obj [
        ("match", .obj [("ipv4_dst", .str "10.0.0.4")]),
        ("new_path", .arr [.str "s1", .str "s3", .str "s4"])]),
      ("type", .str "RerouteFlow")]]),
  ("valid", .uint 1)]

theorem powerOffListedFirst_out_of_order :
    ∃ ans, LLMResponse.fromJson powerOffListedFirst = .ok (.answer ans) ∧ ans.valid = true ∧
      ¬ PerformsInOrder ans := by
  refine ⟨_, rfl, rfl, ?_⟩
  intro hperforms
  have hlisted : [(2 : UInt16), 1].Pairwise (· ≤ ·) :=
    listedInOrder_of_performsInOrder (j := powerOffListedFirst) rfl hperforms
  exact absurd hlisted (by decide)

end Ndtwin.Kernel.IntentTranslator

import Ndtwin.Kernel.IntentTranslator
import Ndtwin.Spec.LLMResponseTypesCorrect

/-!
# Intent Flow Entries Correctness

A task that installs or modifies a flow entry is read, serialised again and its match rewritten
in place before it reaches the routing manager. The first action and the priority survive this,
and so does every field of the match that is not renamed; a field is renamed as it should be when
it is there and its new name is not.

## Key results

- `field?_renameFields`: every field of the match that is handed over
- `carries_iff`: which matches are handed over with the conditions they have
- `performTask_flowEntry`: what is handed over for a known switch
- `performTask_asRequested`: how that compares with the JSON of the task
-/

namespace Ndtwin.Kernel.IntentTranslator

open LlmResponse

variable {σ : Type}

/-! ## The match -/

/-- A renamed field is null when it was not there, and other fields stay. -/
theorem field?_renameField (old new : String) (fields : List (String × Json)) :
    ∃ fields', renameField old new (.obj fields) = .ok (.obj fields') ∧
      ∀ key, (Json.obj fields').field? key =
        if key = old then none
        else if key = new then some (((Json.obj fields).field? old).getD .null)
        else (Json.obj fields).field? key := by
  -- `match[old]` makes the field null when it is not there
  obtain ⟨fields₁, hsubscript, hfields₁⟩ := Json.exists_subscript_obj fields old
  have hvalue : ((Json.obj fields₁).field? old).getD .null =
      ((Json.obj fields).field? old).getD .null := by
    rw [hfields₁, if_pos rfl, Option.getD_some]
  refine ⟨(Json.insertField new (((Json.obj fields).field? old).getD .null) fields₁).filter
    fun f => f.1 ≠ old, ?_, ?_⟩
  · unfold renameField
    rw [hsubscript, EState.ok_bind, hvalue]
    rfl
  · intro key
    rw [Json.field?_filter_ne, Json.field?_insertField, hfields₁]
    by_cases hold : old = key
    · simp [hold]
    · simp [hold, Ne.symm hold, eq_comm (a := key)]

/-- What is handed over of a match that is an object. -/
theorem field?_renameFields (fields : List (String × Json)) :
    ∃ fields', renameFields (.obj fields) = .ok (.obj fields') ∧
      ∀ key, (Json.obj fields').field? key =
        if key = "eth_type" ∨ key = "ipv4_dst" then none
        else if key = "dl_type" then some (((Json.obj fields).field? "eth_type").getD .null)
        else if key = "nw_dst" then some (((Json.obj fields).field? "ipv4_dst").getD .null)
        else (Json.obj fields).field? key := by
  obtain ⟨fields₁, hfirst, hfields₁⟩ :=
    field?_renameField "eth_type" "dl_type" fields
  obtain ⟨fields₂, hsecond, hfields₂⟩ :=
    field?_renameField "ipv4_dst" "nw_dst" fields₁
  refine ⟨fields₂, ?_, ?_⟩
  · unfold renameFields
    rw [hfirst, EState.ok_bind, hsecond]
  · intro key
    rw [hfields₂, hfields₁, hfields₁]
    -- the second renaming reads and writes two fields that the first one leaves alone
    by_cases hdst : key = "ipv4_dst"
    · simp [hdst]
    · by_cases hnew : key = "nw_dst"
      · simp [hnew]
      · simp [hdst, hnew]

/-- The name under which the routing manager gets a field. -/
def managerKey (key : String) : String :=
  if key = "eth_type" then "dl_type" else if key = "ipv4_dst" then "nw_dst" else key

/-- A match holds the conditions of another one under the names of the manager, and no more. -/
structure Carries (handed requested : Json) : Prop where
  all : ∀ {key v}, requested.field? key = some v → handed.field? (managerKey key) = some v
  only : ∀ {key v}, handed.field? key = some v →
    ∃ key', managerKey key' = key ∧ requested.field? key' = some v

/-- A field can be renamed: it is there and the new name is not, or the new name already has the
    value that it gets. -/
def Renamable (requested : Json) (old new : String) : Prop :=
  (requested.field? old ≠ none ∧ requested.field? new = none) ∨
    requested.field? new = some ((requested.field? old).getD .null)

theorem renamable_of_carries {handed requested : Json} {old new : String}
    (h : Carries handed requested) (hkey : managerKey new = new)
    (hfrom : ∀ key, managerKey key = new → key = old ∨ key = new)
    (hnew : handed.field? new = some ((requested.field? old).getD .null)) :
    Renamable requested old new := by
  obtain ⟨key, hto, hvalue⟩ := h.only hnew
  cases hfrom key hto with
  | inl hold =>
    subst hold
    cases hfield : requested.field? new with
    | none =>
      refine .inl ⟨?_, hfield⟩
      intro hnone
      rw [hnone] at hvalue
      exact nomatch hvalue
    | some w =>
      -- both names are there, and the new one keeps its value only if it is the same
      have hkept := h.all hfield
      rw [hkey, hnew] at hkept
      exact .inr (hfield.trans hkept.symm)
  | inr hsame =>
    subst hsame
    exact .inr hvalue

/-- The value under the new name is that of one of the two fields. -/
theorem Renamable.exists_field {requested : Json} {old new : String}
    (h : Renamable requested old new) :
    ∃ key, (key = old ∨ key = new) ∧
      requested.field? key = some ((requested.field? old).getD .null) := by
  cases h with
  | inl hold =>
    obtain ⟨v, hv⟩ := Option.ne_none_iff_exists'.mp hold.1
    exact ⟨old, .inl rfl, by rw [hv, Option.getD_some]⟩
  | inr hnew => exact ⟨new, .inr rfl, hnew⟩

theorem managerKey_eq_dl_type {key : String} :
    managerKey key = "dl_type" ↔ key = "eth_type" ∨ key = "dl_type" := by
  unfold managerKey
  grind

theorem managerKey_eq_nw_dst {key : String} :
    managerKey key = "nw_dst" ↔ key = "ipv4_dst" ∨ key = "nw_dst" := by
  unfold managerKey
  grind

/-- A match is handed over with exactly the conditions it has when both fields can be renamed. -/
theorem carries_iff {fields : List (String × Json)} {handed : Json}
    (h : renameFields (.obj fields) = .ok handed) :
    Carries handed (.obj fields) ↔
      Renamable (.obj fields) "eth_type" "dl_type" ∧
        Renamable (.obj fields) "ipv4_dst" "nw_dst" := by
  obtain ⟨fields', hfields', hfield⟩ := field?_renameFields fields
  obtain rfl := Except.ok.inj (hfields'.symm.trans h)
  constructor
  · -- the two new names have the values that `renameFields` gives them
    intro hcarries
    exact ⟨renamable_of_carries hcarries (by decide) (fun _ => managerKey_eq_dl_type.mp)
        (hfield "dl_type"),
      renamable_of_carries hcarries (by decide) (fun _ => managerKey_eq_nw_dst.mp)
        (hfield "nw_dst")⟩
  · intro ⟨htype, hdst⟩
    constructor
    · -- nothing is lost: a field keeps its value or its value moves to the new name
      intro key v hv
      rw [hfield]
      unfold managerKey Renamable at *
      grind
    · intro key v hv
      by_cases htypeKey : key = "dl_type"
      · obtain ⟨key', hkey', hvalue⟩ := htype.exists_field
        rw [htypeKey, hfield, if_neg (by decide), if_pos rfl] at hv
        exact ⟨key', (managerKey_eq_dl_type.mpr hkey').trans htypeKey.symm, hvalue.trans hv⟩
      · by_cases hdstKey : key = "nw_dst"
        · obtain ⟨key', hkey', hvalue⟩ := hdst.exists_field
          rw [hdstKey, hfield, if_neg (by decide), if_neg (by decide), if_pos rfl] at hv
          exact ⟨key', (managerKey_eq_nw_dst.mpr hkey').trans hdstKey.symm, hvalue.trans hv⟩
        · -- any other field that is handed over is neither of the two that are renamed
          rw [hfield] at hv
          refine ⟨key, ?_, ?_⟩
          · unfold managerKey
            grind
          · grind

/-! ## What is handed over -/

theorem writeParams_of_flowEntry {type : TaskType} {params : type.Params} {entry : FlowEntryTask}
    (h : type.flowEntryOf params = some entry) : type.writeParams params = entry.write := by
  cases type with
  | installFlowEntry | modifyFlowEntry =>
    obtain rfl := Option.some.inj h
    rfl
  | _ => exact nomatch h

theorem flowArguments_toJson {task : Task} {entry : FlowEntryTask} {handed : Json}
    (hentry : task.flowEntryOf = some entry) (hmatch : renameFields entry.matchJson = .ok handed) :
    flowArguments task.toJson = .ok (entry.priority.toNat, handed, entry.actions) := by
  have hparameters : task.toJson.subscriptValue "parameters" = .ok entry.write := by
    apply Json.subscriptValue_of_field
    rw [← writeParams_of_flowEntry hentry]
    simp only [Task.toJson, taskToJson, Json.field?_insertField]
    rfl
  have hvalue : ∀ key v, entry.write.field? key = some v →
      entry.write.subscriptValue key = .ok v :=
    fun _ _ => Json.subscriptValue_of_field
  -- a priority of 16 bits fits the `int` it is read as
  have hpriority : (Json.uint entry.priority.toNat).getInt = .ok entry.priority.toNat := by
    have hlt := entry.priority.toNat_lt
    exact Json.getInt_of_isInt (.inr ⟨_, rfl, rfl⟩) (by omega) (by omega)
  unfold flowArguments
  rw [hparameters, EState.ok_bind,
    hvalue "match" entry.matchJson (by simp [FlowEntryTask.write, Json.ofPairs]),
    EState.ok_bind, hmatch, EState.ok_bind,
    hvalue "priority" (.uint entry.priority.toNat) (by simp [FlowEntryTask.write, Json.ofPairs]),
    EState.ok_bind, hpriority, EState.ok_bind,
    hvalue "actions" entry.actions (by simp [FlowEntryTask.write, Json.ofPairs])]
  rfl

/-- The operation of the routing manager for a kind of task, and the reply about it. -/
def handOver (services : Services σ) (type : TaskType) (deviceName : String) (dpid : UInt64)
    (priority : Int) (matchJson actions : Json) : EStateM ResponseError σ String :=
  match type with
  | .modifyFlowEntry => do
    let result ← services.modifyAnEntry dpid priority matchJson actions
    return services.dump (flowReply result "modify" deviceName)
  | _ => do
    let result ← services.installAnEntry dpid priority matchJson actions
    return services.dump (flowReply result "install" deviceName)

/-- The name of a switch with an address and a datapath id. -/
def KnownSwitch (services : Services σ) (s : σ) (deviceName : String) (dpid : UInt64) : Prop :=
  ∃ deviceIp, getSwitchIpByName (services.vertices s) deviceName = some deviceIp ∧
    dpidForSwitchIp (services.ipStrToDpidMap s) deviceIp = some dpid

/-- A flow entry for a known switch: one operation, with the match that `renameFields` gives. -/
theorem performTask_flowEntry {services : Services σ} {s : σ} {task : Task}
    {entry : FlowEntryTask} {dpid : UInt64} {handed : Json}
    (hentry : task.flowEntryOf = some entry)
    (hswitch : KnownSwitch services s entry.deviceName dpid)
    (hmatch : renameFields entry.matchJson = .ok handed) :
    performTask services task s =
      handOver services task.type entry.deviceName dpid entry.priority.toNat handed entry.actions
        s := by
  have harguments := flowArguments_toJson hentry hmatch
  obtain ⟨deviceIp, hip, hdpid⟩ := hswitch
  -- install and modify differ in the operation and its name only
  have hperform : ∀ operate operation,
      performFlowEntry services operate operation entry.deviceName task.toJson s =
        (operate dpid entry.priority.toNat handed entry.actions >>= fun result =>
          pure (services.dump (flowReply result operation entry.deviceName))) s := by
    intro operate operation
    unfold performFlowEntry
    rw [EState.get_bind, hip]
    dsimp only
    rw [hdpid, harguments]
    rfl
  obtain ⟨type, order, result, params⟩ := task
  cases type with
  | installFlowEntry =>
    obtain rfl := Option.some.inj hentry
    exact hperform services.installAnEntry "install"
  | modifyFlowEntry =>
    obtain rfl := Option.some.inj hentry
    exact hperform services.modifyAnEntry "modify"
  | _ => exact nomatch hentry

/-! ## What the task asks for -/

/-- What is read of the JSON of a task that writes a flow entry. -/
theorem read_of_flowEntry {taskJson : Json} {task : Task} {entry : FlowEntryTask}
    (h : Task.fromJson taskJson = .ok task) (hentry : task.flowEntryOf = some entry) :
    FlowEntryTask.read taskJson = .ok entry := by
  have hread := (Task.fromJson_spec h).2
  obtain ⟨type, order, result, params⟩ := task
  cases type with
  | installFlowEntry | modifyFlowEntry =>
    rw [← Option.some.inj hentry]
    exact hread
  | _ => exact nomatch hentry

/-- A match with its fields under the names of the routing manager. What it has under such a
    name already is not said. -/
structure RenamedMatch (requested handed : Json) : Prop where
  ethType : handed.field? "eth_type" = none
  ipv4Dst : handed.field? "ipv4_dst" = none
  dlType : ∀ {v}, requested.field? "eth_type" = some v → requested.field? "dl_type" = none →
    handed.field? "dl_type" = some v
  nwDst : ∀ {v}, requested.field? "ipv4_dst" = some v → requested.field? "nw_dst" = none →
    handed.field? "nw_dst" = some v
  other : ∀ {key}, key ≠ "eth_type" → key ≠ "ipv4_dst" → key ≠ "dl_type" → key ≠ "nw_dst" →
    handed.field? key = requested.field? key

/-- What is handed over is what the JSON of the task asks for, with one action. -/
structure AsRequested (taskJson : Json) (priority : Int) (handed actions : Json) : Prop where
  priority_eq : ∀ {v n}, parameter taskJson "priority" = .ok v → v.IsInt n → 0 ≤ n → n < 2 ^ 16 →
    priority = n
  actions_nil : ∀ {requested}, parameter taskJson "actions" = .ok requested →
    requested.isEmpty = true → actions = .arr []
  actions_first : ∀ {requested first type port n}, parameter taskJson "actions" = .ok requested →
    requested.first = .ok first → first.atField "type" = .ok (.str type) →
    first.atField "port" = .ok port → port.IsInt n → - 2 ^ 31 ≤ n → n < 2 ^ 31 →
    actions = .arr (if type ≠ "" then [.ofPairs [("type", .str type), ("port", .int n)]] else [])
  renamedMatch : ∀ {requested}, parameter taskJson "match" = .ok requested →
    RenamedMatch requested handed

theorem renamedMatch_of_renameFields {fields : List (String × Json)} {handed : Json}
    (h : renameFields (.obj fields) = .ok handed) : RenamedMatch (.obj fields) handed := by
  obtain ⟨fields', hfields', hfield⟩ := field?_renameFields fields
  obtain rfl := Except.ok.inj (hfields'.symm.trans h)
  constructor
  case ethType => exact hfield "eth_type"
  case ipv4Dst => exact hfield "ipv4_dst"
  case dlType =>
    intro v hv _
    rw [hfield, if_neg (by decide), if_pos rfl, hv, Option.getD_some]
  case nwDst =>
    intro v hv _
    rw [hfield, if_neg (by decide), if_neg (by decide), if_pos rfl, hv, Option.getD_some]
  case other =>
    intro key htype hdst hdl hnw
    rw [hfield, if_neg (not_or.mpr ⟨htype, hdst⟩), if_neg hdl, if_neg hnw]

/-- One action, which an empty type stands for the absence of. -/
theorem actions_of_first {actionsJson first portJson : Json} {entry : FlowEntryTask}
    {type : String} {n : Int}
    (hread : FlowEntryTask.readAction actionsJson = .ok (entry.actionType, entry.actionOutPort))
    (hfirst : actionsJson.first = .ok first) (htype : first.atField "type" = .ok (.str type))
    (hport : first.atField "port" = .ok portJson) (hn : portJson.IsInt n) (hlo : - 2 ^ 31 ≤ n)
    (hhi : n < 2 ^ 31) :
    entry.actions =
      .arr (if type ≠ "" then [.ofPairs [("type", .str type), ("port", .int n)]] else []) := by
  -- what has a first element is not empty
  have hsome : actionsJson.isEmpty = false := by
    unfold Json.first at hfirst
    split at hfirst
    · rfl
    · exact nomatch hfirst
  unfold FlowEntryTask.readAction at hread
  rw [hsome, if_neg (by decide), hfirst, EState.ok_bind, htype, EState.ok_bind, Json.getString,
    EState.ok_bind, hport, EState.ok_bind, Json.getInt32_of_isInt hn hlo hhi] at hread
  obtain ⟨hactionType, hactionOutPort⟩ := Prod.mk.inj (Except.ok.inj hread)
  unfold FlowEntryTask.actions
  rw [← hactionType, ← hactionOutPort, Int32.toInt_ofInt_of_le hlo hhi]

theorem asRequested_of_read {taskJson handed : Json} {entry : FlowEntryTask}
    {fields : List (String × Json)} (h : FlowEntryTask.read taskJson = .ok entry)
    (hmatch : entry.matchJson = .obj fields) (hhanded : renameFields (.obj fields) = .ok handed) :
    AsRequested taskJson entry.priority.toNat handed entry.actions := by
  obtain ⟨_, _, h⟩ := EState.bind_eq_ok h
  obtain ⟨priorityJson, hpriorityJson, h⟩ := EState.bind_eq_ok h
  obtain ⟨priority, hpriority, h⟩ := EState.bind_eq_ok h
  obtain ⟨matchJson, hmatchJson, h⟩ := EState.bind_eq_ok h
  obtain ⟨actionsJson, hactionsJson, h⟩ := EState.bind_eq_ok h
  obtain ⟨⟨type, port⟩, hactions, h⟩ := EState.bind_eq_ok h
  -- the entry is made of these values, and written from them again
  obtain rfl := Except.ok.inj h
  constructor
  case priority_eq =>
    intro v n hv hn hlo hhi
    obtain rfl := Except.ok.inj (hpriorityJson.symm.trans hv)
    exact Json.getUInt16_of_isInt hn hlo hhi hpriority
  case actions_nil =>
    intro requested hrequested hempty
    -- an empty type is read, and nothing is written for it
    obtain rfl := Except.ok.inj (hactionsJson.symm.trans hrequested)
    unfold FlowEntryTask.readAction at hactions
    rw [if_pos hempty] at hactions
    obtain ⟨rfl, rfl⟩ := Prod.mk.inj (Except.ok.inj hactions)
    rfl
  case actions_first =>
    intro requested first type port n hrequested hfirst htype hport
    obtain rfl := Except.ok.inj (hactionsJson.symm.trans hrequested)
    exact actions_of_first hactions hfirst htype hport
  case renamedMatch =>
    intro requested hrequested
    obtain rfl := Except.ok.inj (hmatchJson.symm.trans hrequested)
    rw [show matchJson = .obj fields from hmatch]
    exact renamedMatch_of_renameFields hhanded

/-- A task of an accepted answer that writes a flow entry of a known switch, with a match that is
    an object: the routing manager gets one operation, for that switch and of the kind of the
    task, with the priority, the first action and the renamed match of the JSON of the task. -/
theorem performTask_asRequested {services : Services σ} {s : σ} {j : Json} {ans : Answer}
    {i : Nat} {task : Task} {entry : FlowEntryTask} {dpid : UInt64} {fields : List (String × Json)}
    (h : Answer.fromJson j = .ok ans) (htask : ans.tasks[i]? = some task)
    (hentry : task.flowEntryOf = some entry)
    (hswitch : KnownSwitch services s entry.deviceName dpid)
    (hmatch : entry.matchJson = .obj fields) :
    ∃ elems taskJson priority handed actions, j.atField "tasks" = .ok (.arr elems) ∧
      elems[i]? = some taskJson ∧ AsRequested taskJson priority handed actions ∧
      performTask services task s =
        handOver services task.type entry.deviceName dpid priority handed actions s := by
  obtain ⟨elems, taskJson, hfield, hjson, hread⟩ := Answer.taskJson_of_fromJson h htask
  obtain ⟨fields', hhanded, _⟩ := field?_renameFields fields
  exact ⟨elems, taskJson, entry.priority.toNat, .obj fields', entry.actions, hfield, hjson,
    asRequested_of_read (read_of_flowEntry hread hentry) hmatch hhanded,
    performTask_flowEntry hentry hswitch (hmatch ▸ hhanded)⟩

/-! ## A routing manager that takes notes -/

/-- An operation of the routing manager. -/
structure Noted where
  operation : String
  dpid : UInt64
  priority : Int
  matchJson : Json
  actions : Json

/-- One switch, s1 at 10.0.0.1, and every operation noted. -/
def noting : Services (List Noted) where
  reply := return none
  vertices _ := [{
    bridgeNameForMininet := "s1"
    props := { vertexType := .switch, ip := [0x0100000A], dpid := 1 } }]
  ipStrToDpidMap _ := AList.insert (Utils.ipToString 0x0100000A) 1 ∅
  installAnEntry dpid priority matchJson actions := do
    modify (· ++ [{ operation := "install", dpid, priority, matchJson, actions }])
    return { ok := true, httpStatus := 200, message := "" }
  modifyAnEntry dpid priority matchJson actions := do
    modify (· ++ [{ operation := "modify", dpid, priority, matchJson, actions }])
    return { ok := true, httpStatus := 200, message := "" }
  dump _ := ""
  performOther _ := return ""

theorem knownSwitch_noting (s : List Noted) : KnownSwitch noting s "s1" 1 :=
  ⟨Utils.ipToString 0x0100000A, rfl, AList.lookup_insert _⟩

theorem performTask_asRequested_forward :
    ∃ ans task, Answer.fromJson forwardThenPowerOff = .ok ans ∧ ans.tasks[0]? = some task ∧
      ∃ elems taskJson priority handed actions,
        forwardThenPowerOff.atField "tasks" = .ok (.arr elems) ∧ elems[0]? = some taskJson ∧
        AsRequested taskJson priority handed actions ∧
        performTask noting task [] =
          handOver noting .installFlowEntry "s1" 1 priority handed actions [] :=
  ⟨_, _, rfl, rfl, performTask_asRequested (i := 0) (j := forwardThenPowerOff) rfl rfl rfl
    (knownSwitch_noting []) rfl⟩

/-- A flow entry that forwards to two ports. -/
def twoPortsTask : Json := .obj [
  ("order", .uint 1),
  ("parameters", .obj [
    ("actions", .arr [.obj [("port", .uint 2), ("type", .str "OUTPUT")],
      .obj [("port", .uint 5), ("type", .str "OUTPUT")]]),
    ("device_name", .str "s1"),
    ("match", .obj [("eth_type", .uint 2048), ("ipv4_dst", .str "10.0.0.4")]),
    ("priority", .uint 100)]),
  ("type", .str "InstallFlowEntry")]

def twoPorts : Json := .obj [
  ("explanation", .str "mirror to port 5"),
  ("state", .str "answer"),
  ("tasks", .arr [twoPortsTask]),
  ("valid", .uint 1)]

theorem twoPorts_one_installed :
    ∃ ans task, Answer.fromJson twoPorts = .ok ans ∧ ans.tasks = [task] ∧
      (EState.finalState (performTask noting task) []).map (fun n => n.actions.iterate.length) =
        [1] ∧
      ∃ actions, parameter twoPortsTask "actions" = .ok actions ∧ actions.iterate.length = 2 := by
  exact ⟨_, _, rfl, rfl, rfl, _, rfl, rfl⟩

end Ndtwin.Kernel.IntentTranslator

import Ndtwin.ForStd.EState
import Ndtwin.Kernel.LLMResponseTypes

/-!
# Answer Language Correctness

Every class of task reads its parameters under the names it writes them to, every kind has one
name, and the two switches pick the same class for it; so an answer that is written and read
again is the answer that was read, but for one thing. A flow entry keeps one action, and an empty
type stands for none: an action of an empty type is not written, and its port comes back as -1.

## Key results

- `TaskType.readParams_writeParams`: the parameters of each of the kinds
- `Task.fromJson_toJson`, `Answer.fromJson_toJson`: what is read again
- `Answer.written_eq_iff`: when it is what was written
- `answer_round_trip`: every answer that is accepted
-/

namespace Ndtwin.Kernel.LlmResponse

/-! ## Names -/

theorem stateFromString_stateToString (s : State) : stateFromString (stateToString s) = .ok s := by
  cases s <;> rfl

/-- Every kind has a name of its own, and it is read as that kind. -/
theorem taskTypeFromString_taskTypeToString (type : TaskType) :
    taskTypeFromString (taskTypeToString type) = .ok type := by
  cases type <;> simp [taskTypeToString, taskTypeFromString]

theorem json_ok {α : Type} (a : α) : json (.ok a) = .ok a := rfl

theorem ok_of_json {α : Type} {x : Except Json.Error α} {a : α} (h : json x = .ok a) :
    x = .ok a := by
  cases x with
  | error e => exact nomatch h
  | ok a' => exact congrArg Except.ok (Except.ok.inj h)

/-! ## What is read again -/

/-- A flow entry without its action when the type of that is empty. -/
def FlowEntryTask.written (task : FlowEntryTask) : FlowEntryTask :=
  { task with actionOutPort := if task.actionType ≠ "" then task.actionOutPort else -1 }

def TaskType.writtenParams : (type : TaskType) → type.Params → type.Params
  | .installFlowEntry, task => FlowEntryTask.written task
  | .modifyFlowEntry, task => FlowEntryTask.written task
  | _, params => params

/-- The result is not read. -/
def Task.written (task : Task) : Task :=
  { task with result := "", params := task.type.writtenParams task.params }

def Answer.written (ans : Answer) : Answer := { ans with tasks := ans.tasks.map Task.written }

/-! ## Parameters -/

section RoundTrips

variable {j v : Json} {key : String}

theorem parameter_of_atField (h : j.atField "parameters" = .ok v) :
    parameter j key = v.atField key := by
  unfold parameter
  rw [h]
  rfl

theorem readString_of_atField {s : String} (h : j.atField "parameters" = .ok v)
    (hs : v.atField key = .ok (.str s)) : readString key j = .ok s := by
  unfold readString
  rw [parameter_of_atField h, hs]
  rfl

theorem readInt_of_atField {x : Int32} (h : j.atField "parameters" = .ok v)
    (hx : v.atField key = .ok (.int x.toInt)) : readInt key j = .ok x := by
  unfold readInt
  rw [parameter_of_atField h, hx]
  exact Json.getInt32_int x

theorem readIntOr_of_atField {fallback x : Int32} (h : j.atField "parameters" = .ok v)
    (hx : v.field? key = some (.int x.toInt)) : readIntOr key fallback j = .ok x := by
  unfold readIntOr
  rw [h, EState.ok_bind, Json.valueOr_of_field hx, Json.getInt32_int]

/-! The parameters of a class, read from a task that holds what the class writes. -/

theorem readString_writeString {value : String}
    (h : j.atField "parameters" = .ok (writeString key value)) : readString key j = .ok value :=
  readString_of_atField h (by simp [writeString, Json.ofPairs])

theorem readInt_writeInt {value : Int32}
    (h : j.atField "parameters" = .ok (writeInt key value)) : readInt key j = .ok value :=
  readInt_of_atField h (by simp [writeInt, Json.ofPairs])

theorem EndpointsTask.read_write {srcKey dstKey : String} {task : EndpointsTask}
    (hkeys : dstKey ≠ srcKey) (h : j.atField "parameters" = .ok (write srcKey dstKey task)) :
    read srcKey dstKey j = .ok task := by
  have hsrc : readString srcKey j = .ok task.src :=
    readString_of_atField h (by simp [write, Json.ofPairs, hkeys])
  have hdst : readString dstKey j = .ok task.dst :=
    readString_of_atField h (by simp [write, Json.ofPairs])
  unfold read
  rw [hsrc, hdst]
  rfl

theorem DeviceSettingTask.read_write {deviceKey settingKey : String} {task : DeviceSettingTask}
    (hkeys : settingKey ≠ deviceKey)
    (h : j.atField "parameters" = .ok (write deviceKey settingKey task)) :
    read deviceKey settingKey j = .ok task := by
  have hname : readString deviceKey j = .ok task.deviceName :=
    readString_of_atField h (by simp [write, Json.ofPairs, hkeys])
  have hsetting : readString settingKey j = .ok task.setting :=
    readString_of_atField h (by simp [write, Json.ofPairs])
  unfold read
  rw [hname, hsetting]
  rfl

/-- The action that was written, or none. -/
theorem FlowEntryTask.readAction_actions (task : FlowEntryTask) :
    readAction task.actions = .ok (task.actionType, task.written.actionOutPort) := by
  unfold readAction actions written
  by_cases htype : task.actionType = ""
  -- nothing is written, and no action is read as a port of -1
  · simp [htype, Json.isEmpty]
  · simp [htype, Json.isEmpty, Json.first, Json.ofPairs, Json.getString, EState.ok_bind]

theorem FlowEntryTask.read_write {task : FlowEntryTask}
    (h : j.atField "parameters" = .ok task.write) : read j = .ok task.written := by
  have hname : readString "device_name" j = .ok task.deviceName :=
    readString_of_atField h (by simp [write, Json.ofPairs])
  have hpriority : parameter j "priority" = .ok (.uint task.priority.toNat) := by
    simp [parameter_of_atField h, write, Json.ofPairs]
  have hmatch : parameter j "match" = .ok task.matchJson := by
    simp [parameter_of_atField h, write, Json.ofPairs]
  have hactions : parameter j "actions" = .ok task.actions := by
    simp [parameter_of_atField h, write, Json.ofPairs]
  unfold read
  rw [hname, hpriority, hmatch, hactions]
  simp only [EState.ok_bind, Json.getUInt16_uint, readAction_actions]
  rfl

theorem DeleteFlowEntryTask.read_write {task : DeleteFlowEntryTask}
    (h : j.atField "parameters" = .ok task.write) : read j = .ok task := by
  have hname : readString "device_name" j = .ok task.deviceName :=
    readString_of_atField h (by simp [write, Json.ofPairs])
  have hmatch : parameter j "match" = .ok task.matchJson := by
    simp [parameter_of_atField h, write, Json.ofPairs]
  unfold read
  rw [hname, hmatch]
  rfl

theorem RerouteFlowTask.read_write {task : RerouteFlowTask}
    (h : j.atField "parameters" = .ok task.write) : read j = .ok task := by
  have hmatch : parameter j "match" = .ok task.matchJson := by
    simp [parameter_of_atField h, write, Json.ofPairs]
  have hpath : parameter j "new_path" = .ok (.arr (task.newPath.map .str)) := by
    simp [parameter_of_atField h, write, Json.ofPairs]
  unfold read
  rw [hmatch, hpath, EState.ok_bind, EState.ok_bind, Json.getStrings_map]
  rfl

theorem InstallGroupEntryTask.read_write {task : InstallGroupEntryTask}
    (h : j.atField "parameters" = .ok task.write) : read j = .ok task := by
  have hname : readString "device_name" j = .ok task.deviceName :=
    readString_of_atField h (by simp [write, Json.ofPairs])
  have htype : readString "group_type" j = .ok task.groupType :=
    readString_of_atField h (by simp [write, Json.ofPairs])
  have hid : readInt "group_id" j = .ok task.groupId :=
    readInt_of_atField h (by simp [write, Json.ofPairs])
  have hbuckets : parameter j "buckets" = .ok task.buckets := by
    simp [parameter_of_atField h, write, Json.ofPairs]
  unfold read
  rw [hname, htype, hid, hbuckets]
  rfl

theorem InstallMeterEntryTask.read_write {task : InstallMeterEntryTask}
    (h : j.atField "parameters" = .ok task.write) : read j = .ok task := by
  have hname : readString "device_name" j = .ok task.deviceName :=
    readString_of_atField h (by simp [write, Json.ofPairs])
  have hid : readInt "meter_id" j = .ok task.meterId :=
    readInt_of_atField h (by simp [write, Json.ofPairs])
  have hflags : parameter j "flags" = .ok (.arr (task.flags.map .str)) := by
    simp [parameter_of_atField h, write, Json.ofPairs]
  have hbands : parameter j "bands" = .ok task.bands := by
    simp [parameter_of_atField h, write, Json.ofPairs]
  unfold read
  rw [hname, hid, hflags, hbands]
  simp only [EState.ok_bind, Json.getStrings_map]
  rfl

theorem PingHostTask.read_write {task : PingHostTask}
    (h : j.atField "parameters" = .ok task.write) : read j = .ok task := by
  have hhost : readString "host" j = .ok task.host :=
    readString_of_atField h (by simp [write, Json.ofPairs])
  have hcount : readIntOr "count" 4 j = .ok task.count :=
    readIntOr_of_atField h (by simp [write, Json.ofPairs])
  unfold read
  rw [hhost, hcount]
  rfl

theorem SetPortStatusTask.read_write {task : SetPortStatusTask}
    (h : j.atField "parameters" = .ok task.write) : read j = .ok task := by
  have hname : readString "device_name" j = .ok task.deviceName :=
    readString_of_atField h (by simp [write, Json.ofPairs])
  have hport : readInt "port_id" j = .ok task.portId :=
    readInt_of_atField h (by simp [write, Json.ofPairs])
  have hstatus : readString "status" j = .ok task.status :=
    readString_of_atField h (by simp [write, Json.ofPairs])
  unfold read
  rw [hname, hport, hstatus]
  rfl

theorem GetPortStatisticsTask.read_write {task : GetPortStatisticsTask}
    (h : j.atField "parameters" = .ok task.write) : read j = .ok task := by
  have hname : readString "device_name" j = .ok task.deviceName :=
    readString_of_atField h (by simp [write, Json.ofPairs])
  have hport : readInt "port_id" j = .ok task.portId :=
    readInt_of_atField h (by simp [write, Json.ofPairs])
  unfold read
  rw [hname, hport]
  rfl

theorem GetDeviceLogsTask.read_write {task : GetDeviceLogsTask}
    (h : j.atField "parameters" = .ok task.write) : read j = .ok task := by
  have hname : readString "device_name" j = .ok task.deviceName :=
    readString_of_atField h (by simp [write, Json.ofPairs])
  have hcount : readIntOr "line_count" 100 j = .ok task.lineCount :=
    readIntOr_of_atField h (by simp [write, Json.ofPairs])
  unfold read
  rw [hname, hcount]
  rfl

theorem MonitorRealTimeTrafficTask.read_write {task : MonitorRealTimeTrafficTask}
    (h : j.atField "parameters" = .ok task.write) : read j = .ok task := by
  have hname : readString "device_name" j = .ok task.deviceName :=
    readString_of_atField h (by simp [write, Json.ofPairs])
  have hport : readInt "port_id" j = .ok task.portId :=
    readInt_of_atField h (by simp [write, Json.ofPairs])
  have hduration : readIntOr "duration_seconds" 10 j = .ok task.durationSeconds :=
    readIntOr_of_atField h (by simp [write, Json.ofPairs])
  unfold read
  rw [hname, hport, hduration]
  rfl

theorem RequestUIFormTask.read_write {task : RequestUIFormTask}
    (h : j.atField "parameters" = .ok task.write) : read j = .ok task := by
  have hform : readString "form_type" j = .ok task.formType :=
    readString_of_atField h (by simp [write, Json.ofPairs])
  have hname : task.write.valueString "device_name" = .ok task.deviceName := by
    simp [write, Json.ofPairs, Json.valueString]
  unfold read
  rw [h, hform, EState.ok_bind, hname]
  rfl

/-- Every kind reads with the class that writes it. -/
theorem TaskType.readParams_writeParams (type : TaskType) {params : type.Params}
    (h : j.atField "parameters" = .ok (type.writeParams params)) :
    type.readParams j = .ok (type.writtenParams params) := by
  -- one lemma for each class, whatever names its kinds give to what it holds
  cases type with
  | disableSwitch | enableSwitch | poweroffSwitch | poweronSwitch | getASwitchCpuUtilization
  | getASwitchPowerConsumption | getFlowEntryCount | getFlowEntries | blockHost
  | getSwitchPorts | toggleHistoricalLogging | getDeviceUptime | restartDevice
  | tracerouteHost | getArpTable | getMacTable | clearDeviceLogs | getDeviceHealth =>
    exact readString_writeString h
  | installFlowEntry | modifyFlowEntry => exact FlowEntryTask.read_write h
  | deleteFlowEntry => exact DeleteFlowEntryTask.read_write h
  | getTopKFlows | getTopKCongestedLinks | getTopKBandwidthUsers => exact readInt_writeInt h
  | getSwitchCpuUtilization | getTotalPowerConsumption | getActiveFlowCount
  | getNetworkTopology | getAllHosts | getSwitchMemoryUtilization | getSwitchTemperature
  | getSwitchCapabilities => exact rfl
  | getALinkBandwidthUtilization | getPath | getLinkLatency | getPacketLossRate
  | getPathSwitchCount => exact EndpointsTask.read_write (by decide) h
  | rerouteFlow => exact RerouteFlowTask.read_write h
  | setSwitchPowerState | setDeviceNickname | backupConfiguration | restoreConfiguration
  | updateDeviceFirmware => exact DeviceSettingTask.read_write (by decide) h
  | installGroupEntry => exact InstallGroupEntryTask.read_write h
  | installMeterEntry => exact InstallMeterEntryTask.read_write h
  | pingHost => exact PingHostTask.read_write h
  | setPortStatus => exact SetPortStatusTask.read_write h
  | getPortStatistics => exact GetPortStatisticsTask.read_write h
  | getDeviceLogs => exact GetDeviceLogsTask.read_write h
  | monitorRealTimeTraffic => exact MonitorRealTimeTrafficTask.read_write h
  | requestUiForm => exact RequestUIFormTask.read_write h

end RoundTrips

/-! ## Tasks and answers -/

theorem Task.fromJson_toJson (task : Task) : Task.fromJson task.toJson = .ok task.written := by
  have htype : task.toJson.atField "type" = .ok (.str (taskTypeToString task.type)) := by
    simp [toJson, taskToJson]
  have horder : task.toJson.atField "order" = .ok (.uint task.order.toNat) := by
    simp [toJson, taskToJson]
  have hparams : task.toJson.atField "parameters" = .ok (task.type.writeParams task.params) := by
    simp only [toJson, taskToJson, Json.atField_insertField]
    rfl
  -- the type is read twice, by the switch and by `task_from_json`
  unfold fromJson taskFromJson
  rw [htype, horder]
  simp only [json_ok, EState.ok_bind, Json.getString, taskTypeFromString_taskTypeToString,
    Json.getUInt16_uint, task.type.readParams_writeParams hparams]
  rfl

theorem mapM_fromJson_toJson (tasks : List Task) :
    (tasks.map Task.toJson).mapM Task.fromJson = .ok (tasks.map Task.written) := by
  rw [EState.mapM_eq_ok_iff, List.forall₂_map_left_iff, List.forall₂_map_right_iff,
    List.forall₂_same]
  exact fun task _ => task.fromJson_toJson

/-- The tasks of an invalid answer are not written. -/
theorem Answer.fromJson_toJson (ans : Answer) (h : ans.valid = false → ans.tasks = []) :
    Answer.fromJson ans.toJson = .ok ans.written := by
  have hexplanation : ans.toJson.atField "explanation" = .ok (.str ans.explanation) := by
    unfold toJson llmResponseToJson
    split <;> simp
  have hvalid : ans.toJson.atField "valid" = .ok (.bool ans.valid) := by
    unfold toJson llmResponseToJson
    split <;> simp
  have hstate : llmResponseFromJson ans.toJson = .ok ans.state := by
    have hfield : ans.toJson.atField "state" = .ok (.str (stateToString ans.state)) := by
      simp [toJson, llmResponseToJson]
    unfold llmResponseFromJson
    rw [hfield]
    exact stateFromString_stateToString ans.state
  have htasks : tasksFromJson ans.valid ans.toJson = .ok (ans.tasks.map Task.written) := by
    unfold tasksFromJson
    cases hv : ans.valid with
    -- the tasks of an invalid answer are lost, so it must have none
    | false => simp [h hv]
    | true =>
      have harr : ans.toJson.atField "tasks" = .ok (.arr (ans.tasks.map Task.toJson)) := by
        simp [toJson, llmResponseToJson, hv]
      rw [if_pos rfl, harr]
      exact mapM_fromJson_toJson ans.tasks
  unfold fromJson
  rw [hexplanation, hvalid, hstate]
  simp only [json_ok, EState.ok_bind, Json.getString, Json.getInt]
  -- a boolean is read as the number 0 or 1
  have hflag : decide ((if ans.valid = true then (1 : Int) else 0) ≠ 0) = ans.valid := by
    cases ans.valid <;> rfl
  rw [hflag, htasks]
  rfl

/-! ## Accepted answers -/

/-- What is known of a task that was read. -/
theorem Task.fromJson_spec {j : Json} {task : Task} (h : Task.fromJson j = .ok task) :
    task.result = "" ∧ task.type.readParams j = .ok task.params := by
  obtain ⟨_, _, h⟩ := EState.bind_eq_ok h
  obtain ⟨_, _, h⟩ := EState.bind_eq_ok h
  -- the order, the type and its name are read before the parameters
  obtain ⟨type, _, h⟩ := EState.bind_eq_ok h
  obtain ⟨params, hparams, h⟩ := EState.bind_eq_ok h
  obtain ⟨_, _, h⟩ := EState.bind_eq_ok h
  rw [← Except.ok.inj h]
  exact ⟨rfl, ok_of_json hparams⟩

/-- What is known of an answer that was read. -/
theorem Answer.fromJson_spec {j : Json} {ans : Answer} (h : Answer.fromJson j = .ok ans) :
    tasksFromJson ans.valid j = .ok ans.tasks ∧ llmResponseFromJson j = .ok ans.state := by
  obtain ⟨_, _, h⟩ := EState.bind_eq_ok h
  obtain ⟨_, _, h⟩ := EState.bind_eq_ok h
  obtain ⟨_, _, h⟩ := EState.bind_eq_ok h
  obtain ⟨_, _, h⟩ := EState.bind_eq_ok h
  obtain ⟨tasks, htasks, h⟩ := EState.bind_eq_ok h
  obtain ⟨state, hstate, h⟩ := EState.bind_eq_ok h
  rw [← Except.ok.inj h]
  exact ⟨htasks, hstate⟩

/-- Every task of an accepted answer stands where its JSON stands. -/
theorem Answer.taskJson_of_fromJson {j : Json} {ans : Answer} {i : Nat} {task : Task}
    (h : Answer.fromJson j = .ok ans) (htask : ans.tasks[i]? = some task) :
    ∃ elems taskJson, j.atField "tasks" = .ok (.arr elems) ∧ elems[i]? = some taskJson ∧
      Task.fromJson taskJson = .ok task := by
  have htasks := (Answer.fromJson_spec h).1
  cases hvalid : ans.valid with
  -- an invalid answer has no task to look at
  | false =>
    rw [hvalid] at htasks
    rw [← Except.ok.inj htasks] at htask
    exact nomatch htask
  | true =>
    rw [hvalid] at htasks
    obtain ⟨tasksJson, hfield, htasks⟩ := EState.bind_eq_ok htasks
    cases tasksJson with
    | arr elems =>
      obtain ⟨taskJson, hjson, hread⟩ := EState.getElem?_of_mapM htasks htask
      exact ⟨elems, taskJson, ok_of_json hfield, hjson, hread⟩
    | _ => exact nomatch htasks

/-- An accepted answer has no tasks when it is invalid, and no result of a task yet. -/
theorem Answer.tasks_of_fromJson {j : Json} {ans : Answer} (h : Answer.fromJson j = .ok ans) :
    (ans.valid = false → ans.tasks = []) ∧ ∀ task ∈ ans.tasks, task.result = "" := by
  constructor
  · intro hvalid
    have htasks := (Answer.fromJson_spec h).1
    rw [hvalid] at htasks
    exact (Except.ok.inj htasks).symm
  · intro task hmem
    obtain ⟨i, hi⟩ := List.mem_iff_getElem?.mp hmem
    obtain ⟨_, _, _, _, hread⟩ := Answer.taskJson_of_fromJson h hi
    exact (Task.fromJson_spec hread).1

/-- An answer that is read as a reply is in the state of an answer. -/
theorem LLMResponse.state_of_fromJson {j : Json} {ans : Answer}
    (h : LLMResponse.fromJson j = .ok (.answer ans)) : ans.state = .answer := by
  obtain ⟨stateJson, hfield, h⟩ := EState.bind_eq_ok h
  obtain ⟨name, hname, h⟩ := EState.bind_eq_ok h
  obtain ⟨state, hstate, h⟩ := EState.bind_eq_ok h
  have hread : llmResponseFromJson j = .ok state := by
    unfold llmResponseFromJson
    rw [hfield, EState.ok_bind, hname, EState.ok_bind, hstate]
  cases state with
  | answer =>
    obtain ⟨ans', hans, h⟩ := EState.bind_eq_ok h
    obtain rfl := LLMResponse.answer.inj (Except.ok.inj h)
    -- the state is read a second time, as part of the answer
    exact (Except.ok.inj (hread.symm.trans (Answer.fromJson_spec hans).2)).symm
  -- the other states are read as other replies
  | discussion =>
    obtain ⟨_, _, h⟩ := EState.bind_eq_ok h
    exact nomatch h
  | validation =>
    obtain ⟨_, _, h⟩ := EState.bind_eq_ok h
    exact nomatch h

theorem FlowEntryTask.written_eq_iff (task : FlowEntryTask) :
    task.written = task ↔ (task.actionType = "" → task.actionOutPort = -1) := by
  obtain ⟨_, _, _, actionType, actionOutPort⟩ := task
  by_cases htype : actionType = ""
  · simp [written, htype, eq_comm]
  · simp [written, htype]

theorem TaskType.writtenParams_eq_iff (type : TaskType) (params : type.Params) :
    type.writtenParams params = params ↔
      ∀ entry ∈ type.flowEntryOf params, entry.actionType = "" → entry.actionOutPort = -1 := by
  cases type with
  | installFlowEntry | modifyFlowEntry =>
    show FlowEntryTask.written params = params ↔ _
    rw [FlowEntryTask.written_eq_iff]
    simp [flowEntryOf]
  | _ => simp [writtenParams, flowEntryOf]

theorem Task.written_eq_iff {task : Task} (h : task.result = "") :
    task.written = task ↔
      ∀ entry ∈ task.flowEntryOf, entry.actionType = "" → entry.actionOutPort = -1 := by
  rw [flowEntryOf, ← TaskType.writtenParams_eq_iff]
  obtain ⟨type, order, result, params⟩ := task
  simp [written, show result = "" from h]

/-- An answer without results is read again as it is unless an action without a type has a
    port. -/
theorem Answer.written_eq_iff {ans : Answer} (h : ∀ task ∈ ans.tasks, task.result = "") :
    ans.written = ans ↔ ∀ task ∈ ans.tasks, ∀ entry ∈ task.flowEntryOf,
      entry.actionType = "" → entry.actionOutPort = -1 := by
  obtain ⟨state, explanation, valid, tasks⟩ := ans
  -- nothing but the tasks is changed, and those one by one
  have hmap : tasks.map Task.written = tasks ↔ ∀ task ∈ tasks, task.written = task := by
    simpa using List.map_inj_left (l := tasks) (f := Task.written) (g := id)
  have htasks : (∀ task ∈ tasks, task.written = task) ↔ ∀ task ∈ tasks,
      ∀ entry ∈ task.flowEntryOf, entry.actionType = "" → entry.actionOutPort = -1 :=
    forall₂_congr fun task htask => Task.written_eq_iff (h task htask)
  simpa [written] using hmap.trans htasks

/-- What is written of an accepted answer is accepted again: as the same answer exactly when no
    flow entry in it gives a port to an action of an empty type, and otherwise with the port of
    such an action set to -1. -/
theorem answer_round_trip {j : Json} {ans : Answer} (h : Answer.fromJson j = .ok ans) :
    Answer.fromJson ans.toJson = .ok ans.written ∧
      (ans.written = ans ↔ ∀ task ∈ ans.tasks, ∀ entry ∈ task.flowEntryOf,
        entry.actionType = "" → entry.actionOutPort = -1) :=
  have ⟨hvalid, hresults⟩ := Answer.tasks_of_fromJson h
  ⟨ans.fromJson_toJson hvalid, Answer.written_eq_iff hresults⟩

/-- A flow entry that forwards, then a switch that is powered off. -/
def forwardThenPowerOff : Json := .obj [
  ("explanation", .str "forward on s1, then power off s2"),
  ("state", .str "answer"),
  ("tasks", .arr [
    .obj [
      ("order", .uint 1),
      ("parameters", .obj [
        ("actions", .arr [.obj [("port", .uint 3), ("type", .str "OUTPUT")]]),
        ("device_name", .str "s1"),
        ("match", .obj [("eth_type", .uint 2048)]),
        ("priority", .uint 100)]),
      ("type", .str "InstallFlowEntry")],
    .obj [
      ("order", .uint 2),
      ("parameters", .obj [("device_name", .str "s2")]),
      ("type", .str "PowerOffSwitch")]]),
  ("valid", .uint 1)]

theorem forwardThenPowerOff_round_trip :
    ∃ ans, Answer.fromJson forwardThenPowerOff = .ok ans ∧
      Answer.fromJson ans.toJson = .ok ans.written ∧ ans.written = ans := by
  refine ⟨_, rfl, (answer_round_trip (j := forwardThenPowerOff) rfl).1,
    (answer_round_trip (j := forwardThenPowerOff) rfl).2.mpr ?_⟩
  simp [Task.flowEntryOf, TaskType.flowEntryOf]

/-- A flow entry whose action has a port but an empty type. -/
def portWithoutType : Json := .obj [
  ("explanation", .str "forward on s1"),
  ("state", .str "answer"),
  ("tasks", .arr [
    .obj [
      ("order", .uint 1),
      ("parameters", .obj [
        ("actions", .arr [.obj [("port", .uint 3), ("type", .str "")]]),
        ("device_name", .str "s1"),
        ("match", .obj []),
        ("priority", .uint 100)]),
      ("type", .str "InstallFlowEntry")]]),
  ("valid", .uint 1)]

theorem portWithoutType_changes :
    ∃ ans, Answer.fromJson portWithoutType = .ok ans ∧
      Answer.fromJson ans.toJson ≠ .ok ans := by
  have hchanged : ∀ ans, Answer.fromJson portWithoutType = .ok ans → ans.written ≠ ans →
      Answer.fromJson ans.toJson ≠ .ok ans := by
    intro ans hread hwritten heq
    rw [ans.fromJson_toJson (Answer.tasks_of_fromJson hread).1] at heq
    exact hwritten (Except.ok.inj heq)
  refine ⟨_, rfl, hchanged _ rfl ?_⟩
  rw [ne_eq, Answer.written_eq_iff (Answer.tasks_of_fromJson (j := portWithoutType) rfl).2]
  simp [Task.flowEntryOf, TaskType.flowEntryOf]

end Ndtwin.Kernel.LlmResponse

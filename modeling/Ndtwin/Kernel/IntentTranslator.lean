import Ndtwin.ForStd.AssocMap
import Ndtwin.ForStd.EState
import Ndtwin.Kernel.Graph
import Ndtwin.Kernel.LLMResponseTypes
import Ndtwin.Kernel.Utils

/-!
# The intent translator

`src/ndt_core/intent_translator/IntentTranslator.cpp`: an intent is put to the answer agent, and
the tasks of its answer are performed one after the other. Of `performTask` the two tasks that
write a flow entry are modelled; the others, and what the translator calls, are services.
-/

namespace Ndtwin.Kernel.IntentTranslator

open LlmResponse

/-- `OpResult` of a flow operation; the status is 0 when no response arrived. -/
structure OpResult where
  ok : Bool
  httpStatus : Int
  message : String

/-- A vertex with the name that the tasks use. -/
structure NamedVertex where
  bridgeNameForMininet : String
  props : VertexProperties

/-- What the translator calls. -/
structure Services (σ : Type) where
  /-- The JSON of the agent's next reply, if a reply came and its envelope can be read. -/
  reply : EStateM ResponseError σ (Option Json)
  vertices : σ → List NamedVertex
  ipStrToDpidMap : σ → AssocMap String UInt64
  installAnEntry : UInt64 → Int → Json → Json → EStateM ResponseError σ OpResult
  modifyAnEntry : UInt64 → Int → Json → Json → EStateM ResponseError σ OpResult
  /-- `json::dump` -/
  dump : Json → String
  /-- The other arms of `performTask`. -/
  performOther : Task → EStateM ResponseError σ String

variable {σ : Type}

/-! ## Switches -/

/-- `getSwitchIpByName`. The first address of a switch without any is undefined in C++. -/
def getSwitchIpByName (vertices : List NamedVertex) (switchName : String) : Option String :=
  match vertices.find? fun v => v.bridgeNameForMininet = switchName with
  | none => none
  | some vertex =>
    if vertex.props.vertexType ≠ .switch then none
    else vertex.props.ip.head?.map Utils.ipToString

/-- `dpidForSwitchIp` -/
def dpidForSwitchIp (ipStrToDpidMap : AssocMap String UInt64) (switchIp : String) :
    Option UInt64 :=
  ipStrToDpidMap.lookup switchIp

/-! ## Replies -/

def switchNotFoundReply (deviceName : String) : Json :=
  .ofPairs [("error", .str "Switch not found"), ("device", .str deviceName)]

def noDpidReply (deviceName : String) : String :=
  "\x7b\"error\": \"Switch has no dpid\", \"device\": \"" ++ deviceName ++ "\"\x7d"

def flowReply (result : OpResult) (operation deviceName : String) : Json :=
  if result.ok then
    .ofPairs [("status", .str (operation ++ "ed")), ("device", .str deviceName)]
  else
    .ofPairs [("error", .str ("Flow entry " ++ operation ++ " failed")),
      ("device", .str deviceName), ("http_status", .int result.httpStatus),
      ("detail", .str result.message)]

/-! ## Tasks -/

/-- `match[new] = match[old]; match.erase(old)`. The right-hand side comes first, so a field that
    is not there is null when it is assigned. -/
def renameField (old new : String) (matchJson : Json) : Except Json.Error Json := do
  let matchJson ← matchJson.subscript old
  -- the field exists now, and is null if it was not in the match
  let value := (matchJson.field? old).getD .null
  let matchJson ← matchJson.assign new value
  matchJson.eraseField old

/-- The names that the routing manager uses. -/
def renameFields (matchJson : Json) : Except Json.Error Json := do
  renameField "ipv4_dst" "nw_dst" (← renameField "eth_type" "dl_type" matchJson)

/-- The arguments that `performTask` takes out of a task that it has serialised again. -/
def flowArguments (taskJson : Json) : Except Json.Error (Int × Json × Json) := do
  let parameters ← taskJson.subscriptValue "parameters"
  let matchJson ← renameFields (← parameters.subscriptValue "match")
  let priority ← (← parameters.subscriptValue "priority").getInt
  let actions ← parameters.subscriptValue "actions"
  return (priority, matchJson, actions)

/-- The arms `INSTALL_FLOW_ENTRY` and `MODIFY_FLOW_ENTRY`. -/
def performFlowEntry (services : Services σ)
    (operate : UInt64 → Int → Json → Json → EStateM ResponseError σ OpResult)
    (operation deviceName : String) (taskJson : Json) : EStateM ResponseError σ String := do
  let s ← get
  match getSwitchIpByName (services.vertices s) deviceName with
  | none => return services.dump (switchNotFoundReply deviceName)
  | some deviceIp =>
    match dpidForSwitchIp (services.ipStrToDpidMap s) deviceIp with
    | none => return noDpidReply deviceName
    | some dpid =>
      -- a match that is neither an object nor null throws before the routing manager is called
      let (priority, matchJson, actions) ← EState.ofExcept (json (flowArguments taskJson))
      let result ← operate dpid priority matchJson actions
      return services.dump (flowReply result operation deviceName)

def performTask (services : Services σ) (task : Task) : EStateM ResponseError σ String :=
  match task.type, task.params with
  | .installFlowEntry, (installTask : FlowEntryTask) =>
    performFlowEntry services services.installAnEntry "install" installTask.deviceName task.toJson
  | .modifyFlowEntry, (modifyTask : FlowEntryTask) =>
    performFlowEntry services services.modifyAnEntry "modify" modifyTask.deviceName task.toJson
  | _, _ => services.performOther task

/-! ## Intents -/

/-- `callOpenAIApi`: none for a reply that cannot be read. -/
def callOpenAIApi (services : Services σ) : EStateM ResponseError σ (Option LLMResponse) := do
  match ← services.reply with
  | none => return none
  | some resultJson =>
    match LLMResponse.fromJson resultJson with
    | .ok response => return some response
    | .error _ => return none

/-- The retry loop of `inputTextIntent`. -/
def askAnswerAgent (services : Services σ) :
    Nat → EStateM ResponseError σ (Option LLMResponse)
  | 0 => return none
  | maxRetryCount + 1 => do
    match ← callOpenAIApi services with
    | none => askAnswerAgent services maxRetryCount
    | some result => return some result

/-- The state beside the tasks that `performTask` was called with so far. -/
structure Run (σ : Type) where
  system : σ
  performed : List Task

/-- A call that performs no task. -/
def Run.call {α : Type} (m : EStateM ResponseError σ α) : EStateM ResponseError (Run σ) α :=
  fun run =>
    match m run.system with
    | .ok a system => .ok a { run with system := system }
    | .error e system => .error e { run with system := system }

/-- A call of `performTask`. -/
def Run.perform (perform : Task → EStateM ResponseError σ String) (task : Task) :
    EStateM ResponseError (Run σ) String := do
  modify fun run => { run with performed := run.performed ++ [task] }
  Run.call (perform task)

/-- The loop over the tasks of an answer: an exception ends it. -/
def performTasks (perform : Task → EStateM ResponseError σ String) :
    List Task → EStateM ResponseError (Run σ) (List Task)
  | [] => return []
  | task :: tasks => do
    -- an exception is thrown on, and the tasks behind this one are not performed
    let result ← Run.perform perform task
    let tasks ← performTasks perform tasks
    return { task with result := result } :: tasks

def inputTextIntent (services : Services σ) : EStateM ResponseError (Run σ) LLMResponse := do
  match ← Run.call (askAnswerAgent services 5) with
  -- none of the replies could be read
  | none => throw .runtimeError
  | some result =>
    -- a question back to the user, which has no tasks
    if result.state = .discussion then return result
    else
      match result with
      | .answer ans =>
        let tasks ← performTasks (performTask services) ans.tasks
        return .answer { ans with tasks := tasks }
      | _ => throw .runtimeError

end Ndtwin.Kernel.IntentTranslator

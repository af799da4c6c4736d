import Ndtwin.ForStd.JsonUpdate
import Ndtwin.Kernel.LockManager

/-!
# The lock endpoints

The three handlers of `HttpSession` over the lock manager. Each reads a type and a TTL off the
request body, in its own order and with its own treatment of exceptions, and then calls the
manager. The manager reads the clock inside its call, so a handler is given that reading.
-/

namespace Ndtwin.Kernel

/-- The body of a request, as far as `json::parse` can tell. An empty body is no JSON either. -/
inductive RequestBody where
  | empty
  | notJson
  | json (value : Json)

/-- `json::parse` of the body, which throws for what is not JSON. -/
def RequestBody.parse : RequestBody → Option Json
  | .json value => some value
  | _ => none

/-- The status and the JSON body of an answer. -/
structure JsonReply where
  status : Nat
  body : Json

namespace LockHandlers

/-- The two local variables of a handler, with the defaults of the class. -/
structure LockArgs where
  lockType : String := LockManager.defaultLockTypeStr
  ttl : Int := LockManager.defaultTtlSeconds
  deriving DecidableEq, Repr

/-- `jsonBody.value("type", DEFAULT_LOCK_TYPE_STR)` -/
def valueType (jsonBody : Json) : Except Json.Error String :=
  Json.valueOr Json.getString jsonBody "type" LockManager.defaultLockTypeStr

/-- `jsonBody.value("ttl", DEFAULT_TTL_SECONDS)` -/
def valueTtl (jsonBody : Json) : Except Json.Error Int :=
  jsonBody.valueInt "ttl" LockManager.defaultTtlSeconds

/-- The inner `try` of `handleAcquireLock`. An exception is swallowed, and what was assigned
    before it stays assigned. -/
def acquireArgs (body : RequestBody) : LockArgs :=
  match body.parse with
  | none => {}
  | some jsonBody =>
    match valueType jsonBody with
    -- the type is read first: the TTL that the body gives is dropped too
    | .error _ => {}
    | .ok lockType =>
      match valueTtl jsonBody with
      -- the type is assigned already
      | .error _ => { lockType }
      | .ok ttl => { lockType, ttl }

/-- The inner `try` of `handleRenewLock`, which reads the TTL first. -/
def renewArgs (body : RequestBody) : LockArgs :=
  match body.parse with
  | none => {}
  | some jsonBody =>
    match (if (jsonBody.field? "ttl").isSome then valueTtl jsonBody
      else .ok LockManager.defaultTtlSeconds) with
    -- nothing is assigned yet, not even a type that the body does give
    | .error _ => {}
    | .ok ttl =>
      match (if (jsonBody.field? "type").isSome then valueType jsonBody
        else .ok LockManager.defaultLockTypeStr) with
      | .error _ => { ttl }
      | .ok lockType => { lockType, ttl }

def errorBody (error detail : String) : Json :=
  .obj [("detail", .str detail), ("error", .str error)]

/-- `handleReleaseLock` up to the call of the manager: the type to release, or the answer of
    an early return. -/
def releaseType : RequestBody → Except JsonReply String
  | .empty => .ok LockManager.defaultLockTypeStr
  | .notJson => .error ⟨400, errorBody "Invalid Request" "Request body is not valid JSON"⟩
  | .json jsonBody =>
    match jsonBody.field? "type" with
    | none => .ok LockManager.defaultLockTypeStr
    | some (.str lockType) => .ok lockType
    | some _ => .error ⟨400, errorBody "Invalid Request" "'type' must be a string"⟩

/-- `handleAcquireLock` -/
def handleAcquireLock (m : LockManager) (now : Int) (body : RequestBody) :
    JsonReply × LockManager :=
  let args := acquireArgs body
  let (success, m) := m.acquireLock now args.lockType args.ttl
  if success then
    (⟨200, .obj [("status", .str "locked"), ("ttl", .int args.ttl), ("type", .str args.lockType)]⟩,
      m)
  else
    (⟨423, errorBody "Lock acquisition failed"
      ("System busy or invalid lock type: " ++ args.lockType)⟩, m)

/-- `handleRenewLock` -/
def handleRenewLock (m : LockManager) (now : Int) (body : RequestBody) :
    JsonReply × LockManager :=
  let args := renewArgs body
  let (success, m) := m.renew now args.lockType args.ttl
  if success then
    (⟨200, .obj [("status", .str "renewed"), ("ttl", .int args.ttl),
      ("type", .str args.lockType)]⟩, m)
  else
    (⟨412, errorBody "Renew failed"
      ("Lock '" ++ args.lockType ++ "' is expired, not held, or invalid type")⟩, m)

/-- `handleReleaseLock` -/
def handleReleaseLock (m : LockManager) (body : RequestBody) : JsonReply × LockManager :=
  match releaseType body with
  | .error reply => (reply, m)
  | .ok lockType =>
    let (success, m) := m.unlock lockType
    if success then
      (⟨200, .obj [("status", .str "released"), ("type", .str lockType)]⟩, m)
    else
      (⟨412, errorBody "Release failed"
        ("Lock '" ++ lockType ++ "' is not held or is an invalid type")⟩, m)

end LockHandlers

end Ndtwin.Kernel

import Ndtwin.ForStd.Json

/-!
# Flow entries of the routing strategies

`src/ndt_core/routing_management/HttpRoutingStrategyBase.cpp`: the requests that a flow operation
of the kernel sends to the controller or to the P4 proxy, and what it makes of the reply.
-/

namespace Ndtwin.Kernel

/-- `OpResult`: a failure with status 0 is no response at all. -/
inductive OpResult where
  | success
  | failure (status : Nat) (message : String)
  deriving DecidableEq, Repr

/-- A POST with a JSON body. -/
structure PostRequest where
  path : String
  body : Json

namespace HttpRoutingStrategy

/-- `deleteAnEntry`. A priority of -1 means "delete anything matching", which is the non-strict
    route. -/
def deleteAnEntry (dpid : UInt64) (matchJson : Json) (priority : Int) : PostRequest :=
  if priority = -1 then
    { path := "/stats/flowentry/delete"
      body := .obj [("dpid", .uint dpid.toNat), ("match", matchJson)] }
  else
    { path := "/stats/flowentry/delete_strict"
      body := .obj [("dpid", .uint dpid.toNat), ("match", matchJson), ("priority", .int priority)] }

/-- `installAnEntry`: -1 and 0 both mean that there is no timeout. -/
def installAnEntry (dpid : UInt64) (priority : Int) (matchJson action : Json)
    (idleTimeout : Int) : PostRequest where
  path := "/stats/flowentry/add"
  body := .obj ([("dpid", .uint dpid.toNat), ("priority", .int priority), ("match", matchJson),
    ("actions", action)] ++
    if idleTimeout ≠ -1 ∧ idleTimeout ≠ 0 then [("idle_timeout", .int idleTimeout)] else [])

/-- `modifyAnEntry` -/
def modifyAnEntry (dpid : UInt64) (priority : Int) (matchJson action : Json) : PostRequest where
  path := "/stats/flowentry/modify"
  body := .obj [("dpid", .uint dpid.toNat), ("priority", .int priority), ("match", matchJson),
    ("actions", action)]

/-- Whether `post` takes a reply for a success: a 2xx status, and a body that does not report an
    error. -/
def succeeded (status : Nat) (body : Json) : Bool :=
  if status < 200 ∨ 300 ≤ status then false
  else
    match body.field? "status" with
    | some (.str text) => text ≠ "error"
    | _ => true

end HttpRoutingStrategy

end Ndtwin.Kernel

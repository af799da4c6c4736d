import Ndtwin.Proxy.TopologyManager

/-!
# The flow-entry routes of the proxy

`p4_proxy/proxy_agent/api_routes.py`: the handlers of `/stats/flowentry/..`. A body that is not
JSON at all is not modelled. Both delete routes have one handler.
-/

namespace Ndtwin.Proxy

/-- The answer of a route. -/
structure HttpReply where
  status : Nat := 200
  body : Json

/-- `HTTPException(status_code=.., detail=..)` -/
def httpException (status : Nat) (detail : Json) : HttpReply :=
  { status := status, body := .obj [("detail", detail)] }

/-- `_flowentry_body` -/
def flowentryBody : Json → Except HttpReply (List (String × Json))
  | .obj fields => .ok fields
  | v => .error (httpException 400 (.obj [("error", .str "malformed body"),
      ("message", .str ("request body must be a JSON object, got " ++ Python.typeName v))]))

/-- `d.get(key, default)` -/
def getFieldOr (fields : List (String × Json)) (key : String) (fallback : Json) : Json :=
  ((fields.find? fun f => f.1 = key).map Prod.snd).getD fallback

/-- The answer to an `UnsupportedMatchError`. -/
def unsupportedMatchReply (e : UnsupportedMatchError) : HttpReply :=
  httpException 400 (.obj [("error", .str "unsupported match"),
    ("fields", .arr (e.fields.map .str)), ("message", .str e.message)])

/-- `{"status": "success"}` -/
def successReply : HttpReply := { body := .obj [("status", .str "success")] }

/-- `{"status": "error", "message": ..}` -/
def errorReply (message : String) : HttpReply :=
  { body := .obj [("status", .str "error"), ("message", .str message)] }

/-- What the handlers share: run the operation, and answer for how it ended. An exception that
    the handler does not catch is answered by the framework. -/
def answerWith (operation : RouteM Bool) (refused : HttpReply) (m : TopologyManager) :
    HttpReply × TopologyManager :=
  match operation m with
  | .ok true m' => (successReply, m')
  | .ok false m' => (refused, m')
  | .error (.unsupportedMatch e) m' => (unsupportedMatchReply e, m')
  | .error (.python _) m' => ({ status := 500, body := .str "Internal Server Error" }, m')

/-- A handler: the body, then the operation on its fields. -/
def handleFlowEntry (operation : List (String × Json) → RouteM Bool) (refused : HttpReply)
    (body : Json) (m : TopologyManager) : HttpReply × TopologyManager :=
  match flowentryBody body with
  | .error reply => (reply, m)
  | .ok data => answerWith (operation data) refused m

/-- `add_flow_entry` -/
def addFlowEntry (answers : Answers) : Json → TopologyManager → HttpReply × TopologyManager :=
  handleFlowEntry
    (fun data => routeFlow (getField data "dpid") (getFieldOr data "match" (.obj []))
      (getFieldOr data "actions" (.arr [])) (getField data "priority") answers)
    (errorReply "Failed to add route")

/-- `delete_flow_entry` -/
def deleteFlowEntry (answers : Answers) : Json → TopologyManager → HttpReply × TopologyManager :=
  handleFlowEntry
    (fun data => unrouteFlow (getField data "dpid") (getFieldOr data "match" (.obj []))
      (getField data "priority") answers)
    (errorReply "Failed to delete route")

/-- `modify_flow_entry` -/
def modifyFlowEntry (answers : Answers) : Json → TopologyManager → HttpReply × TopologyManager :=
  handleFlowEntry
    (fun data => modifyFlow (getField data "dpid") (getFieldOr data "match" (.obj []))
      (getFieldOr data "actions" (.arr [])) (getField data "priority") answers)
    (httpException 400 (.str "Failed to modify flow entry in P4 switch"))

/-- The flow-entry routes. -/
def postFlowEntry (path : String) (answers : Answers) :
    Json → TopologyManager → HttpReply × TopologyManager :=
  match path with
  | "/stats/flowentry/add" => addFlowEntry answers
  | "/stats/flowentry/delete" => deleteFlowEntry answers
  | "/stats/flowentry/delete_strict" => deleteFlowEntry answers
  | "/stats/flowentry/modify" => modifyFlowEntry answers
  | _ => fun _ m => (httpException 404 (.str "Not Found"), m)

end Ndtwin.Proxy

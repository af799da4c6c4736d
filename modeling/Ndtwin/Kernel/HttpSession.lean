import Ndtwin.Kernel.TopologyMonitor

/-!
# Link events of the northbound API

`src/ndt_core/http/HttpSession.cpp`: the handlers of `/ndt/link_failure_detected` and
`/ndt/link_recovery_detected`. Both look the edge up by the datapath ids of its ends, so the
port numbers of a report are only logged, and both write the reverse edge as well. The events
emitted on a failure have no effect on the graph and are left out.
-/

namespace Ndtwin.Kernel

/-- The answers that the modelled handlers give. -/
inductive HttpStatus where
  | ok
  | badRequest
  | notFound
  | internalServerError
  deriving DecidableEq, Repr

structure HttpResponse where
  status : HttpStatus := .ok
  body : Json

/-- A body with one field. -/
def HttpResponse.message (status : HttpStatus) (key text : String) : HttpResponse :=
  { status := status, body := .obj [(key, .str text)] }

/-- The fields of a link event. -/
structure LinkEventPayload where
  srcDpid : UInt64
  srcInterface : UInt32
  dstDpid : UInt64
  dstInterface : UInt32

namespace HttpSession

/-- What the two handlers share: the edge of the report, then its reverse, with what is written
    on an edge and the texts of the answers. -/
def handleLinkEvent (write : EdgeDesc → Graph → Graph) (done missingReverse : String)
    (data : LinkEventPayload) (g : Graph) : HttpResponse × Graph :=
  match g.findEdgeBySrcAndDstDpid data.srcDpid data.dstDpid with
  | none => (.message .notFound "error" "edge not found in topology", g)
  | some fwd =>
    let g := write fwd g
    match g.findEdgeBySrcAndDstDpid data.dstDpid data.srcDpid with
    | none => (.message .internalServerError "error" missingReverse, g)
    | some rev => (.message .ok "status" done, write rev g)

/-- `handleLinkFailure`, for a payload that can be read. -/
def handleLinkFailure : LinkEventPayload → Graph → HttpResponse × Graph :=
  handleLinkEvent TopologyMonitor.setEdgeDown "link failure processed"
    ("reverse edge missing from the topology; the reported direction was marked down, " ++
      "its reverse was not")

/-- `handleLinkRecovery`, for a payload that can be read. -/
def handleLinkRecovery : LinkEventPayload → Graph → HttpResponse × Graph :=
  handleLinkEvent TopologyMonitor.setEdgeUp "link recovery processed"
    ("reverse edge missing from the topology; the reported direction was marked up, " ++
      "its reverse was not")

end HttpSession

end Ndtwin.Kernel

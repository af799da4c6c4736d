import Mathlib.Logic.Function.Basic
import Ndtwin.Kernel.FlowDispatcher
import Ndtwin.Kernel.FlowRoutingManager
import Ndtwin.Proxy.ApiRoutes

/-!
# From the dispatcher to the switches

The kernel's side of a flow change ends in a POST for each job of a burst, made by the worker
thread of the switch: `src/ndt_core/routing_management/Controller.cpp` and
`HttpRoutingStrategyBase.cpp`. The P4 proxy or Ryu handles it. Workers of different switches post
side by side, and a worker goes on to its next job when its request was answered or its time was
up. In the second case the request may still be handled, at any time after.

A request leaves in a shell command line. What of it arrives, if anything, is a parameter: an
apostrophe in the body ends the quoting. A controller handles a request in one step: what the
threads of the proxy's server could do between each other is not told apart.
-/

namespace Ndtwin.Twin

open Proxy Kernel

/-- The two controllers, and the requests that reached one and were given up by their sender. -/
structure Controllers where
  proxy : TopologyManager
  /-- What Ryu handled, in order. -/
  ryu : List PostRequest := []
  late : List (RoutingStrategy × PostRequest) := []

/-- How a request fares. -/
inductive Delivery where
  /-- It is handled and the reply is in time: the P4 switch answers the writes with `answers`,
      and Ryu replies `ryuReply`. -/
  | answered (answers : Answers) (ryuReply : HttpReply)
  | unreachable
  | late

/-- A controller handles a request. -/
def Controllers.handle (answers : Answers) (ryuReply : HttpReply) (c : Controllers)
    (request : PostRequest) : RoutingStrategy → HttpReply × Controllers
  | .p4 =>
    let (reply, proxy) := postFlowEntry request.path answers request.body c.proxy
    (reply, { c with proxy := proxy })
  | .openFlow => (ryuReply, { c with ryu := c.ryu ++ [request] })

/-- `describe` -/
def describe : RoutingStrategy → String
  | .openFlow => "Ryu controller"
  | .p4 => "P4 proxy agent"

/-- What `post` makes of a reply. The excerpt of the reply at the end of a message is left out. -/
def opResultOf (strategy : RoutingStrategy) (reply : HttpReply) : OpResult :=
  if HttpRoutingStrategy.succeeded reply.status reply.body then .success
  else if reply.status < 200 ∨ 300 ≤ reply.status then
    .failure reply.status (describe strategy ++ " returned HTTP " ++ toString reply.status)
  else
    .failure reply.status
      (describe strategy ++ " reported an error in a " ++ toString reply.status ++ " response")

/-- `HttpRoutingStrategyBase::post`; `carried` is what arrives of a request. The message that there
    was no response goes on with the address of the controller and the time, `" at "` and
    `" within 5s"`; these are left out. -/
def post (carried : PostRequest → Option PostRequest) (delivery : Delivery)
    (strategy : RoutingStrategy) (request : PostRequest) : StateM Controllers OpResult := fun c =>
  match delivery, carried request with
  | .answered answers ryuReply, some arrived =>
    let (reply, c) := c.handle answers ryuReply arrived strategy
    (opResultOf strategy reply, c)
  | .late, some arrived =>
    (.failure 0 ("no response from " ++ describe strategy),
      { c with late := c.late ++ [(strategy, arrived)] })
  | _, _ => (.failure 0 ("no response from " ++ describe strategy), c)

/-- The dispatcher with its sender, and the controllers. -/
structure Southbound where
  dispatcher : DispatcherSystem
  /-- The jobs of its burst that a thread inside the sender has not posted yet. -/
  remaining : Nat → List FlowJob := fun _ => []
  controllers : Controllers
  /-- A history that no step reads: the jobs posted, how each fared, and its result. -/
  posted : List (FlowJob × Delivery × OpResult) := []

namespace Southbound

inductive Event where
  | dispatcher (e : DispatcherSystem.Event)
  /-- A thread inside the sender posts its next job. -/
  | post (thread : Nat) (delivery : Delivery)
  /-- A controller gets to a request whose sender gave up. -/
  | handleLate (k : Nat) (answers : Answers) (ryuReply : HttpReply)

/-- The burst that a thread has taken. -/
def heldBy (d : DispatcherSystem) (i : Nat) : List FlowJob :=
  match d.threads[i]? with
  | some { phase := .holding burst, .. } => burst
  | _ => []

/-- The jobs a thread has left to post once the dispatcher took a step. -/
def remainingAfter (s : Southbound) : DispatcherSystem.Event → Nat → List FlowJob
  | .send i => Function.update s.remaining i (heldBy s.dispatcher i)
  | _ => s.remaining

/-- The sender returns when it has posted the whole burst. -/
def mayReturn (s : Southbound) : DispatcherSystem.Event → Bool
  | .sent i => (s.remaining i).isEmpty
  | _ => true

variable (kinds : AssocMap UInt64 SwitchKind) (carried : PostRequest → Option PostRequest)

/-- One step; `none` when the event is not enabled. -/
def step (s : Southbound) : Event → Option Southbound
  | .dispatcher e =>
    if s.mayReturn e then
      (s.dispatcher.step e).map fun d => { s with dispatcher := d, remaining := s.remainingAfter e }
    else none
  | .post i delivery =>
    match s.remaining i with
    | [] => none
    | job :: rest =>
      let (result, controllers) :=
        FlowRoutingManager.sendJob kinds (Twin.post carried delivery) job s.controllers
      some { s with
        remaining := Function.update s.remaining i rest
        controllers := controllers
        posted := s.posted ++ [(job, delivery, result)] }
  | .handleLate k answers ryuReply =>
    match s.controllers.late[k]? with
    | none => none
    | some (strategy, request) =>
      some { s with
        controllers :=
          { (s.controllers.handle answers ryuReply request strategy).2 with
            late := s.controllers.late.eraseIdx k } }

/-- Nothing accepted yet, and nothing posted. -/
def init (burstSize : Nat) (m : TopologyManager) : Southbound where
  dispatcher := .init burstSize
  controllers := { proxy := m }

/-- The events that carry accepted jobs on. -/
def isProgress : Event → Bool
  | .dispatcher e => match e with
    | .start | .enqueue _ | .enqueueBulk _ | .spuriousWake _ | .stopCall => false
    | _ => true
  | .post _ _ => true
  | .handleLate _ _ _ => false

/-- No worker and no call in progress can take a step. -/
def Settled (s : Southbound) : Prop :=
  ∀ e, isProgress e = true → s.step kinds carried e = none

end Southbound

end Ndtwin.Twin

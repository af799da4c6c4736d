import Ndtwin.ForStd.AssocMap
import Ndtwin.Kernel.FlowJob

/-!
# The flow dispatcher

`src/ndt_core/routing_management/FlowDispatcher.cpp`: producers queue jobs per switch,
one lazily spawned worker thread per switch hands them to the sender in bursts, and
`stop` lets the workers drain and joins them.

Everything between taking and releasing `mtx_` is one step. What happens outside the lock
is a step of its own: a producer's or `stop`'s `notify_all`, a worker entering and leaving
the sender, the join. A waiting worker may also wake for no reason.
-/

namespace Ndtwin.Kernel

/-- Where a worker thread is in `workerLoop_`. -/
inductive WorkerPhase where
  /-- About to take the lock and test the wait predicate. -/
  | checking
  /-- Asleep in `cv_.wait`. -/
  | waiting
  /-- Has taken a burst and released the lock, and has not called the sender yet. -/
  | holding (burst : List FlowJob)
  /-- Inside `sender_`. -/
  | sending
  | exited

/-- A thread running `workerLoop_(dpid)`. -/
structure Worker where
  dpid : UInt64
  phase : WorkerPhase

/-- Where the one call of `stop` is. -/
inductive StopPhase where
  | notCalled
  | notifying
  | joining
  | returned
  deriving DecidableEq, Repr

/-- The members of the class. Threads are named by their index in the system's list. -/
structure FlowDispatcher where
  burstSize : Nat
  running : Bool := false
  queues : AssocMap UInt64 (List FlowJob) := ∅
  workers : AssocMap UInt64 Nat := ∅
  droppedAfterStop : UInt64 := 0

/-- `queues_[dpid]`; a missing entry is an empty queue. -/
def FlowDispatcher.queue (d : FlowDispatcher) (dpid : UInt64) : List FlowJob :=
  (d.queues.lookup dpid).getD []

/-- The dispatcher with its threads and the calls in progress. The last four fields are a
    history that no step reads. -/
structure DispatcherSystem where
  d : FlowDispatcher
  threads : List Worker := []
  /-- `enqueue` calls that accepted something and are yet to `notify_all`. -/
  pendingNotify : Nat := 0
  startCalled : Bool := false
  stopPhase : StopPhase := .notCalled
  /-- The threads that `stop` has moved out of `workers_`. -/
  toJoin : List Nat := []
  /-- Accepted jobs, in the order they were accepted. -/
  accepted : List FlowJob := []
  /-- `accepted` as it was when `stop` held the lock. -/
  acceptedBeforeStop : List FlowJob := []
  refused : List FlowJob := []
  /-- The calls of the sender: the worker's switch and the batch. -/
  batches : List (UInt64 × List FlowJob) := []

namespace DispatcherSystem

def init (burstSize : Nat) : DispatcherSystem := { d := { burstSize := burstSize } }

inductive Event where
  | start
  | enqueue (job : FlowJob)
  | enqueueBulk (jobs : List FlowJob)
  /-- A producer reaches its `notify_all`. -/
  | notify
  /-- A waiting worker wakes without a notification. -/
  | spuriousWake (thread : Nat)
  /-- A worker takes the lock and tests the predicate. -/
  | check (thread : Nat)
  /-- A worker calls the sender. -/
  | send (thread : Nat)
  /-- The sender returns. -/
  | sent (thread : Nat)
  /-- `stop` up to the end of its critical section. -/
  | stopCall
  | stopNotify
  /-- `stop` has joined every thread it moved out. -/
  | stopReturn

def setPhase (s : DispatcherSystem) (i : Nat) (phase : WorkerPhase) : DispatcherSystem :=
  { s with threads := s.threads.modify i fun w => { w with phase := phase } }

/-- `notify_all`: a waiting worker goes back to testing the predicate. -/
def Worker.wake (w : Worker) : Worker :=
  match w.phase with
  | .waiting => { w with phase := .checking }
  | _ => w

def wakeAll (s : DispatcherSystem) : DispatcherSystem :=
  { s with threads := s.threads.map Worker.wake }

/-- The body of `enqueue` for one job: push it, and spawn the worker of its switch if
    there is none. -/
def acceptJob (s : DispatcherSystem) (job : FlowJob) : DispatcherSystem :=
  let queues := s.d.queues.insert job.dpid (s.d.queue job.dpid ++ [job])
  match s.d.workers.lookup job.dpid with
  | some _ => { s with d := { s.d with queues := queues }, accepted := s.accepted ++ [job] }
  | none =>
    { s with
      d := { s.d with
        queues := queues
        workers := s.d.workers.insert job.dpid s.threads.length }
      threads := s.threads ++ [{ dpid := job.dpid, phase := .checking }]
      accepted := s.accepted ++ [job] }

/-- `noteDropped_` -/
def noteDropped (s : DispatcherSystem) (jobs : List FlowJob) : DispatcherSystem :=
  { s with
    d := { s.d with droppedAfterStop := s.d.droppedAfterStop + UInt64.ofNat jobs.length }
    refused := s.refused ++ jobs }

/-- Both overloads of `enqueue`: a single job is a list of one. -/
def enqueueJobs (s : DispatcherSystem) (jobs : List FlowJob) : DispatcherSystem :=
  if s.d.running then
    jobs.foldl acceptJob { s with pendingNotify := s.pendingNotify + 1 }
  else s.noteDropped jobs

/-- A worker holding the lock: wait, exit, or take a burst. -/
def checkWorker (s : DispatcherSystem) (i : Nat) (dpid : UInt64) : DispatcherSystem :=
  let q := s.d.queue dpid
  if s.d.running ∧ q.isEmpty then s.setPhase i .waiting
  else if ¬ s.d.running ∧ q.isEmpty then s.setPhase i .exited
  else
    let burst := q.take s.d.burstSize
    let s' := { s with
      d := { s.d with queues := s.d.queues.insert dpid (q.drop s.d.burstSize) } }
    -- an empty burst, possible for a burst size of zero only, is not sent
    if burst.isEmpty then s'.setPhase i .checking else s'.setPhase i (.holding burst)

/-- One step; `none` when the event is not enabled. -/
def step (s : DispatcherSystem) : Event → Option DispatcherSystem
  | .start =>
    if s.startCalled then none
    else some { s with d := { s.d with running := true }, startCalled := true }
  | .enqueue job => some (s.enqueueJobs [job])
  | .enqueueBulk jobs => some (s.enqueueJobs jobs)
  | .notify =>
    if s.pendingNotify = 0 then none
    else some { s.wakeAll with pendingNotify := s.pendingNotify - 1 }
  | .spuriousWake i =>
    match s.threads[i]? with
    | some { phase := .waiting, .. } => some (s.setPhase i .checking)
    | _ => none
  | .check i =>
    match s.threads[i]? with
    | some { dpid := dpid, phase := .checking } => some (s.checkWorker i dpid)
    | _ => none
  | .send i =>
    match s.threads[i]? with
    | some { dpid := dpid, phase := .holding burst } =>
      some { s.setPhase i .sending with batches := s.batches ++ [(dpid, burst)] }
    | _ => none
  | .sent i =>
    match s.threads[i]? with
    | some { phase := .sending, .. } => some (s.setPhase i .checking)
    | _ => none
  | .stopCall =>
    if s.stopPhase = .notCalled then
      some { s with
        d := { s.d with running := false, workers := ∅ }
        toJoin := s.d.workers.toPairs.map Prod.snd
        acceptedBeforeStop := s.accepted
        stopPhase := .notifying }
    else none
  | .stopNotify =>
    if s.stopPhase = .notifying then some { s.wakeAll with stopPhase := .joining } else none
  | .stopReturn =>
    if s.stopPhase = .joining ∧ s.toJoin.all fun i =>
        match s.threads[i]? with
        | some { phase := .exited, .. } => true
        | _ => false
    then some { s with stopPhase := .returned }
    else none

end DispatcherSystem

end Ndtwin.Kernel

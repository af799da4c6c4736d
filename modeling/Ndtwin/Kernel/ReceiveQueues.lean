import Mathlib.Data.List.Basic

/-!
# The receive queues of the collector

`src/ndt_core/collection/FlowLinkUsageCollector.cpp`: the receive thread `run` reads datagrams in
batches and deals them round robin to bounded queues (`SPSCQueue`), the worker of each queue
(`workerLoop`) handles them, and `stop` and the end of `run` both call `stopAndJoinWorkers`.

The flag `m_running` is read and cleared without a lock, and `notify_all` takes none. So a worker
that has found its queue empty and the flag set is not asleep yet: it still holds the lock, and
falls asleep in a step of its own. Everything else between taking and releasing a lock is one step.
A sleeping worker may also wake for no reason.

Nothing guards `m_workers`, over which both callers of `stopAndJoinWorkers` loop. When they meet
there, the program has no defined meaning, and the model stops.
-/

namespace Ndtwin.Kernel

/-- The bytes of a datagram. -/
abbrev Datagram := List UInt8

/-- `BUFFER_SIZE` -/
def bufferSize : Nat := 65535

/-- `BATCH_SIZE` -/
def batchSize : Nat := 32

/-- Where a worker is in `workerLoop`. `draining` tells its second loop from its first. -/
inductive LanePhase where
  /-- At the head of `while (m_running.load())`. -/
  | testing
  /-- In `pop`, about to take the lock and test the wait predicate. -/
  | popping (draining : Bool)
  /-- The predicate was false; still holds the lock. -/
  | dozing (draining : Bool)
  | asleep (draining : Bool)
  /-- In `handlePacket`. -/
  | handling (draining : Bool) (pkt : Datagram)
  | exited
  deriving DecidableEq

/-- A queue with its worker. The last two fields are a history that no step reads. -/
structure Lane where
  queue : List Datagram := []
  phase : LanePhase := .testing
  handled : List Datagram := []
  /-- How many `notify_all` calls found the worker awake but past its test. -/
  missed : Nat := 0
  deriving DecidableEq

namespace Lane

/-- The worker holds the lock of its queue between two steps. -/
def locked (lane : Lane) : Bool :=
  match lane.phase with
  | .dozing _ => true
  | _ => false

/-- The worker's next step; `none` when it is asleep or has exited. -/
def step (lane : Lane) (running : Bool) : Option Lane :=
  match lane.phase with
  | .testing => some { lane with phase := .popping (!running) }
  | .popping draining =>
    match lane.queue with
    | pkt :: rest => some { lane with queue := rest, phase := .handling draining pkt }
    | [] =>
      if running then some { lane with phase := .dozing draining }
      else if draining then some { lane with phase := .exited }
      -- `pop` says false: out of the first loop, into the second
      else some { lane with phase := .popping true }
  | .dozing draining => some { lane with phase := .asleep draining }
  | .asleep _ => none
  | .handling draining pkt =>
    some { lane with
      phase := if draining then .popping true else .testing
      handled := lane.handled ++ [pkt] }
  | .exited => none

/-- A notification reaches the worker if it is asleep. -/
def wake (lane : Lane) : Lane :=
  match lane.phase with
  | .asleep draining => { lane with phase := .popping draining }
  | _ => lane

/-- `notify_all` -/
def notifyAll (lane : Lane) : Lane :=
  if lane.locked then { lane with missed := lane.missed + 1 } else lane.wake

end Lane

/-- Where a caller of `stopAndJoinWorkers` is. -/
inductive Closing where
  /-- About to clear `m_running`. -/
  | clearing
  | notifying (next : Nat)
  /-- In the loop over `m_workers`, about to ask whether a worker is `joinable()`. -/
  | joining (next : Nat)
  /-- In `join()` of a worker. -/
  | waiting (next : Nat)
  | done
  deriving DecidableEq

/-- The caller is in its loop over `m_workers`. -/
def Closing.inLoop : Closing → Bool
  | .joining _ | .waiting _ => true
  | _ => false

/-- One message of `recvmmsg`: its bytes, and the kernel's drop counter if it came along. -/
structure Message where
  bytes : Datagram
  rxqOvfl : Option UInt32 := none
  deriving DecidableEq

/-- What `poll` and `recvmmsg` come back with. -/
inductive Received where
  /-- A timeout, or an error after which the loop goes on. -/
  | nothing
  /-- An error that ends the loop. -/
  | failed
  | batch (msgs : List Message)
  deriving DecidableEq

/-- Where the receive thread is in `run`. -/
inductive RunPhase where
  /-- At the head of `while (m_running.load())`. -/
  | testing
  | polling
  /-- In the loop over a batch, with the messages left. -/
  | batch (rest : List Message)
  /-- Calls `tryPush`. -/
  | pushing (qid : Nat) (pkt : Datagram) (rest : List Message)
  /-- `tryPush` has seen `m_running` and is about to take the lock. -/
  | storing (qid : Nat) (pkt : Datagram) (rest : List Message)
  /-- `tryPush` is about to notify. -/
  | notifying (qid : Nat) (rest : List Message)
  /-- `tryPush` said false. `found` is the length of the queue that was full, or `none` when
      `m_running` was clear. -/
  | refused (found : Option Nat) (qid : Nat) (pkt : Datagram) (rest : List Message)
  | closing (c : Closing)
  deriving DecidableEq

/-- Where the call of `stop` is. -/
inductive StopCall where
  | notCalled
  /-- Its own clearing of `m_running` is behind it. -/
  | closing (c : Closing)
  /-- Joins the receive thread. -/
  | joining
  | returned
  deriving DecidableEq

/-- What became of a datagram. -/
inductive Fate where
  | stored
  /-- Dropped and counted; `found` is the length of its queue at that time. -/
  | dropped (found : Nat)
  /-- Given up by a `run` that was told to stop. -/
  | abandoned
  deriving DecidableEq

/-- A datagram that was dealt to a queue. -/
structure Dealt where
  qid : Nat
  pkt : Datagram
  fate : Fate
  deriving DecidableEq

/-- The members of the collector that its receive path uses, with the threads on them. `dealt` is
    a history that no step reads. -/
structure ReceiveQueues where
  capacity : Nat
  running : Bool := true
  /-- `m_rr` -/
  rr : UInt32 := 0
  receivedPacketNumFromSocket : UInt64 := 0
  droppedPackets : UInt64 := 0
  sockOvflDrops : UInt64 := 0
  lanes : List Lane
  /-- `joinable()` of each of `m_workers`. -/
  joinable : List Bool
  receiver : RunPhase := .testing
  stopper : StopCall := .notCalled
  /-- The two callers of `stopAndJoinWorkers` have met in `m_workers`: one joins the worker that
      the other is joining, or clears the vector that the other loops over. -/
  undefined : Bool := false
  dealt : List Dealt := []
  deriving DecidableEq

namespace ReceiveQueues

/-- `run(numWorkers, queueCapacity)` once it has spawned the workers. -/
def init (numWorkers queueCapacity : Nat) : ReceiveQueues where
  capacity := if queueCapacity = 0 then 1024 else queueCapacity
  lanes := List.replicate (if numWorkers = 0 then 1 else numWorkers) {}
  joinable := List.replicate (if numWorkers = 0 then 1 else numWorkers) true

inductive Event where
  /-- A worker takes its next step. -/
  | worker (qid : Nat)
  /-- A sleeping worker wakes without a notification. -/
  | spuriousWake (qid : Nat)
  /-- `poll` and `recvmmsg` come back to the receive thread. -/
  | receive (received : Received)
  /-- The receive thread takes its next step. -/
  | receiver
  | stopCall
  /-- `stop` takes its next step. -/
  | stopper
  deriving DecidableEq

/-- A change of one lane. -/
def onLane (s : ReceiveQueues) (qid : Nat) (f : Lane → Lane) : ReceiveQueues :=
  { s with lanes := s.lanes.modify qid f }

/-- `m_workers[qid]` has ended. -/
def hasExited (s : ReceiveQueues) (qid : Nat) : Bool :=
  match s.lanes[qid]? with
  | some lane => lane.phase = .exited
  | none => true

/-- Where the receive thread is in `stopAndJoinWorkers`, if it is there. -/
def receiverClosing (s : ReceiveQueues) : Option Closing :=
  match s.receiver with
  | .closing c => some c
  | _ => none

/-- Where the call of `stop` is in `stopAndJoinWorkers`, if it is there. -/
def stopperClosing (s : ReceiveQueues) : Option Closing :=
  match s.stopper with
  | .closing c => some c
  | _ => none

/-- The next step of a caller of `stopAndJoinWorkers`, `other` being where the other caller is. -/
def closingStep (s : ReceiveQueues) (other : Option Closing) :
    Closing → Option (ReceiveQueues × Closing)
  | .clearing => some ({ s with running := false }, .notifying 0)
  | .notifying next =>
    if next < s.lanes.length then some (s.onLane next Lane.notifyAll, .notifying (next + 1))
    else some (s, .joining 0)
  | .joining next =>
    match s.joinable[next]? with
    | some true =>
      -- a `std::thread` is joinable until its `join()` returns
      if other = some (.waiting next) then some ({ s with undefined := true }, .joining next)
      else some (s, .waiting next)
    | some false => some (s, .joining (next + 1))
    | none =>
      -- `m_workers.clear()`
      if other.any Closing.inLoop then some ({ s with undefined := true }, .joining next)
      else some ({ s with joinable := [] }, .done)
  | .waiting next =>
    if s.hasExited next then
      some ({ s with joinable := s.joinable.set next false }, .joining (next + 1))
    else none
  | .done => none

/-- The receive thread is done with a datagram. -/
def deal (s : ReceiveQueues) (qid : Nat) (pkt : Datagram) (fate : Fate) : ReceiveQueues :=
  { s with dealt := s.dealt ++ [⟨qid, pkt, fate⟩] }

/-- A message that is not empty, up to the call of `tryPush`. -/
def takeUp (s : ReceiveQueues) (msg : Message) (rest : List Message) : ReceiveQueues :=
  let ovfl := match msg.rxqOvfl with
    -- the counter so far is read into 32 bits
    | some v => if s.sockOvflDrops.toUInt32 < v then v.toUInt64 else s.sockOvflDrops
    | none => s.sockOvflDrops
  { s with
    sockOvflDrops := ovfl
    receivedPacketNumFromSocket := s.receivedPacketNumFromSocket + 1
    rr := s.rr + 1
    receiver := .pushing (s.rr.toNat % s.lanes.length) (msg.bytes.take bufferSize) rest }

/-- `tryPush` from the lock on. -/
def store (s : ReceiveQueues) (qid : Nat) (pkt : Datagram) (rest : List Message) :
    Option ReceiveQueues :=
  match s.lanes[qid]? with
  | none => none
  | some lane =>
    if lane.locked then none
    else if lane.queue.length ≥ s.capacity then
      some { s with receiver := .refused (some lane.queue.length) qid pkt rest }
    else
      some { (s.onLane qid fun lane => { lane with queue := lane.queue ++ [pkt] }).deal
        qid pkt .stored with receiver := .notifying qid rest }

/-- The next step of the receive thread. -/
def receiverStep (s : ReceiveQueues) : Option ReceiveQueues :=
  match s.receiver with
  | .testing =>
    some { s with receiver := if s.running then .polling else .closing .clearing }
  | .polling => none
  | .batch [] => some { s with receiver := .testing }
  | .batch (msg :: rest) =>
    if msg.bytes = [] then some { s with receiver := .batch rest } else some (s.takeUp msg rest)
  | .pushing qid pkt rest =>
    some { s with
      receiver := if s.running then .storing qid pkt rest else .refused none qid pkt rest }
  | .storing qid pkt rest => s.store qid pkt rest
  | .notifying qid rest => some { s.onLane qid Lane.wake with receiver := .batch rest }
  | .refused found qid pkt rest =>
    if s.running then
      some { s.deal qid pkt (.dropped (found.getD 0)) with
        droppedPackets := s.droppedPackets + 1
        receiver := .batch rest }
    else some { s.deal qid pkt .abandoned with receiver := .testing }
  | .closing c =>
    (s.closingStep s.stopperClosing c).map fun (s', c') => { s' with receiver := .closing c' }

/-- The next step of the call of `stop`. -/
def stopperStep (s : ReceiveQueues) : Option ReceiveQueues :=
  match s.stopper with
  | .notCalled => none
  | .closing .done => some { s with stopper := .joining }
  | .closing c =>
    (s.closingStep s.receiverClosing c).map fun (s', c') => { s' with stopper := .closing c' }
  | .joining => if s.receiver = .closing .done then some { s with stopper := .returned } else none
  | .returned => none

/-- One step of a program that still has a meaning; `none` when the event is not enabled. -/
def definedStep (s : ReceiveQueues) : Event → Option ReceiveQueues
  | .worker qid =>
    match s.lanes[qid]? with
    | none => none
    | some lane => (lane.step s.running).map fun lane' => s.onLane qid fun _ => lane'
  | .spuriousWake qid =>
    match s.lanes[qid]? with
    | some { phase := .asleep _, .. } => some (s.onLane qid Lane.wake)
    | _ => none
  | .receive received =>
    if s.receiver = .polling then
      match received with
      | .nothing => some { s with receiver := .testing }
      | .failed => some { s with receiver := .closing .clearing }
      | .batch msgs =>
        if msgs.length ≤ batchSize then some { s with receiver := .batch msgs } else none
    else none
  | .receiver => s.receiverStep
  | .stopCall =>
    if s.stopper = .notCalled then
      some { s with running := false, stopper := .closing .clearing }
    else none
  | .stopper => s.stopperStep

/-- One step. -/
def step (s : ReceiveQueues) (e : Event) : Option ReceiveQueues :=
  if s.undefined then none else s.definedStep e

end ReceiveQueues

end Ndtwin.Kernel

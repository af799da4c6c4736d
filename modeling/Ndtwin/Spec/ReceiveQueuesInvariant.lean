import Mathlib.Algebra.Order.Ring.Int
import Ndtwin.ForStd.List
import Ndtwin.ForStd.Run
import Ndtwin.Kernel.ReceiveQueues

/-!
# The invariant of the receive queues

What was stored for a worker is what it has handled, followed by the datagram in its hand, followed
by its queue. Every datagram that was counted as received was stored, was dropped and counted as
such in front of a full queue, or was given up by a receive thread that was told to stop.

## Key results

- `step_moves`: everything a step can do
- `LaneOk.step`, `LaneOk.push`, `LaneOk.notifyAll`: what one queue and its worker keep
- `closedOk_step`, `lanesOk_step`, `dealtOk_step`, `strandedOk_step`: every step keeps the four parts
  of the invariant
-/

namespace Ndtwin.Spec

open Kernel Kernel.ReceiveQueues GuardedRun

/-! ## One queue and its worker -/

/-- The datagram a worker has popped and is not done with. -/
def workerHand : LanePhase → List Datagram
  | .handling _ pkt => [pkt]
  | _ => []

/-- The worker is in its second loop, or through with it. -/
def pastFirstLoop : LanePhase → Bool
  | .popping draining | .dozing draining | .asleep draining | .handling draining _ => draining
  | .exited => true
  | .testing => false

/-- The worker has found nothing to do and has not been woken since. -/
def resting : LanePhase → Bool
  | .dozing _ | .asleep _ => true
  | _ => false

/-- What holds of a queue and its worker, `stored` being what was pushed, `announced` the number of
    callers that have notified it, and `noticed` that a `tryPush` is about to. -/
structure LaneOk (stored : List Datagram) (capacity : Nat) (running : Bool) (announced : Nat)
    (noticed : Prop) (lane : Lane) : Prop where
  conserve : stored = lane.handled ++ workerHand lane.phase ++ lane.queue
  bounded : lane.queue.length ≤ capacity
  locked : lane.locked = true → lane.queue = []
  asleep : ∀ draining, lane.phase = .asleep draining → lane.queue ≠ [] → noticed
  stopped : pastFirstLoop lane.phase = true → running = false
  missed_le : lane.missed ≤ announced
  missed_of_resting : resting lane.phase = true → lane.missed = announced

section Lane

variable {stored : List Datagram} {capacity announced : Nat} {running : Bool} {noticed : Prop}
  {lane lane' : Lane}

theorem laneOk_init : LaneOk [] capacity running announced noticed {} where
  conserve := rfl
  bounded := Nat.zero_le _
  locked := fun _ => rfl
  asleep := fun _ _ h => absurd rfl h
  stopped := fun h => nomatch h
  missed_le := Nat.zero_le _
  missed_of_resting := fun h => nomatch h

/-- What a worker does next. -/
theorem lane_step_cases (h : lane.step running = some lane') :
    (lane.phase = .testing ∧ lane' = { lane with phase := .popping (!running) }) ∨
    (∃ draining pkt rest, lane.phase = .popping draining ∧ lane.queue = pkt :: rest ∧
      lane' = { lane with queue := rest, phase := .handling draining pkt }) ∨
    (∃ draining, lane.phase = .popping draining ∧ lane.queue = [] ∧ running = true ∧
      lane' = { lane with phase := .dozing draining }) ∨
    (lane.phase = .popping true ∧ lane.queue = [] ∧ running = false ∧
      lane' = { lane with phase := .exited }) ∨
    (lane.phase = .popping false ∧ lane.queue = [] ∧ running = false ∧
      lane' = { lane with phase := .popping true }) ∨
    (∃ draining, lane.phase = .dozing draining ∧
      lane' = { lane with phase := .asleep draining }) ∨
    (∃ draining pkt, lane.phase = .handling draining pkt ∧
      lane' = { lane with
        phase := if draining then .popping true else .testing
        handled := lane.handled ++ [pkt] }) := by
  unfold Lane.step at h
  cases hp : lane.phase with
  | testing =>
    simp only [hp] at h
    exact .inl ⟨rfl, (Option.some.inj h).symm⟩
  | popping draining =>
    cases hq : lane.queue with
    | cons pkt rest =>
      simp only [hp, hq] at h
      exact .inr (.inl ⟨_, _, _, rfl, rfl, (Option.some.inj h).symm⟩)
    | nil =>
      simp only [hp, hq] at h
      cases running with
      | true => exact .inr (.inr (.inl ⟨_, rfl, rfl, rfl, (Option.some.inj h).symm⟩))
      | false =>
        cases draining with
        | true => exact .inr (.inr (.inr (.inl ⟨rfl, rfl, rfl, (Option.some.inj h).symm⟩)))
        | false => exact .inr (.inr (.inr (.inr (.inl ⟨rfl, rfl, rfl, (Option.some.inj h).symm⟩))))
  | dozing draining =>
    simp only [hp] at h
    exact .inr (.inr (.inr (.inr (.inr (.inl ⟨_, rfl, (Option.some.inj h).symm⟩)))))
  | asleep draining => simp [hp] at h
  | handling draining pkt =>
    simp only [hp] at h
    exact .inr (.inr (.inr (.inr (.inr (.inr ⟨_, _, rfl, (Option.some.inj h).symm⟩)))))
  | exited => simp [hp] at h

/-- A worker's own step. It rests only while the flag is set, when nobody has announced a stop. -/
theorem LaneOk.step (h : LaneOk stored capacity running announced noticed lane)
    (hann : running = true → announced = 0) (hstep : lane.step running = some lane') :
    LaneOk stored capacity running announced noticed lane' := by
  obtain ⟨hp, rfl⟩ | ⟨draining, pkt, rest, hp, hq, rfl⟩ | ⟨draining, hp, hq, hrun, rfl⟩ |
    ⟨hp, hq, hrun, rfl⟩ | ⟨hp, hq, hrun, rfl⟩ | ⟨draining, hp, rfl⟩ | ⟨draining, pkt, hp, rfl⟩ :=
    lane_step_cases hstep
  all_goals
    obtain ⟨hcons, hle, hlock, hasleep, hstop, hmiss, hrest⟩ := h
    simp only [hp, workerHand, pastFirstLoop, Lane.locked] at hcons hlock hasleep hstop
    simp only [hp, resting] at hrest
  · exact ⟨hcons, hle, by simp [Lane.locked], by simp, by simp [pastFirstLoop], hmiss,
      by simp [resting]⟩
  · rw [hq] at hcons hle
    rw [List.length_cons] at hle
    refine ⟨?_, by show rest.length ≤ _; omega, by simp [Lane.locked], by simp, hstop, hmiss,
      by simp [resting]⟩
    rw [hcons]
    simp [workerHand]
  · refine ⟨hcons, hle, fun _ => hq, by simp, hstop, hmiss, fun _ => ?_⟩
    have hzero := hann hrun
    show lane.missed = announced
    omega
  · exact ⟨hcons, hle, by simp [Lane.locked], by simp, fun _ => hrun, hmiss, by simp [resting]⟩
  · exact ⟨hcons, hle, by simp [Lane.locked], by simp, fun _ => hrun, hmiss, by simp [resting]⟩
  · exact ⟨hcons, hle, by simp [Lane.locked], fun _ _ hne => absurd (hlock trivial) hne, hstop,
      hmiss, fun _ => hrest trivial⟩
  · refine ⟨?_, hle, ?_, ?_, ?_, hmiss, ?_⟩
    · rw [hcons]
      cases draining <;> simp [workerHand]
    all_goals cases draining <;> simp_all [Lane.locked, pastFirstLoop, resting]

/-- A notification, or waking for no reason. -/
theorem LaneOk.wake {noticed' : Prop} (h : LaneOk stored capacity running announced noticed lane) :
    LaneOk stored capacity running announced noticed' lane.wake := by
  obtain ⟨hcons, hle, hlock, hasleep, hstop, hmiss, hrest⟩ := h
  unfold Lane.wake
  split
  · next draining hp =>
    simp only [hp, workerHand, pastFirstLoop] at hcons hstop
    exact ⟨hcons, hle, by simp [Lane.locked], by simp, hstop, hmiss, by simp [resting]⟩
  · next hp =>
    exact ⟨hcons, hle, hlock, fun draining h => absurd h (hp draining), hstop, hmiss, hrest⟩

/-- A caller of `stopAndJoinWorkers` notifies the worker: it wakes it, or is missed. -/
theorem LaneOk.notifyAll (h : LaneOk stored capacity running announced noticed lane) :
    LaneOk stored capacity running (announced + 1) noticed lane.notifyAll := by
  unfold Lane.notifyAll
  split
  · next hlock =>
    have hq := h.locked hlock
    have hmiss := h.missed_le
    refine ⟨h.conserve, h.bounded, h.locked, h.asleep, h.stopped, ?_, fun hrest => ?_⟩
    · show lane.missed + 1 ≤ announced + 1
      omega
    · rw [← h.missed_of_resting hrest]
  · next hlock =>
    have hw : LaneOk stored capacity running announced noticed lane.wake := h.wake
    have hawake : resting lane.wake.phase = false := by
      unfold Lane.wake
      cases hp : lane.phase <;> simp_all [Lane.locked, resting]
    have hmiss := hw.missed_le
    exact ⟨hw.conserve, hw.bounded, hw.locked, hw.asleep, hw.stopped, by omega,
      fun hrest => by simp [hawake] at hrest⟩

/-- `tryPush` stores a datagram, which takes the lock. -/
theorem LaneOk.push (h : LaneOk stored capacity running announced noticed lane)
    (hlock : lane.locked = false) (hroom : lane.queue.length < capacity) (pkt : Datagram) :
    LaneOk (stored ++ [pkt]) capacity running announced True
      { lane with queue := lane.queue ++ [pkt] } where
  conserve := by
    rw [h.conserve]
    simp
  bounded := by
    show (lane.queue ++ [pkt]).length ≤ capacity
    rw [List.length_append, List.length_singleton]
    omega
  locked := fun hlock' => by
    have : lane.locked = true := hlock'
    simp [hlock] at this
  asleep := fun _ _ _ => trivial
  stopped := h.stopped
  missed_le := h.missed_le
  missed_of_resting := h.missed_of_resting

/-- The flag is cleared and never set again. -/
theorem LaneOk.of_running {running' : Bool} (hrun : running = false → running' = false)
    (h : LaneOk stored capacity running announced noticed lane) :
    LaneOk stored capacity running' announced noticed lane :=
  { h with stopped := fun hp => hrun (h.stopped hp) }

end Lane

/-! ## What a step can do -/

/-- The changes of phase of the receive thread that touch nothing else. -/
inductive Goto (running : Bool) : RunPhase → RunPhase → Prop where
  | loop : running = true → Goto running .testing .polling
  | leave : running = false → Goto running .testing (.closing .clearing)
  | nothing : Goto running .polling .testing
  | failed : Goto running .polling (.closing .clearing)
  | batch (msgs : List Message) : msgs.length ≤ batchSize → Goto running .polling (.batch msgs)
  | batchEnd : Goto running (.batch []) .testing
  | skip (msg : Message) (rest : List Message) : Goto running (.batch (msg :: rest)) (.batch rest)
  | seen (qid : Nat) (pkt : Datagram) (rest : List Message) : running = true →
      Goto running (.pushing qid pkt rest) (.storing qid pkt rest)
  | unseen (qid : Nat) (pkt : Datagram) (rest : List Message) : running = false →
      Goto running (.pushing qid pkt rest) (.refused none qid pkt rest)

/-- The steps of `stopAndJoinWorkers`, `other` being where the other caller is. -/
inductive ClosingMoves (s : ReceiveQueues) (other : Option Closing) :
    Closing → ReceiveQueues → Closing → Prop where
  | clear : ClosingMoves s other .clearing { s with running := false } (.notifying 0)
  | notify (next : Nat) : next < s.lanes.length →
      ClosingMoves s other (.notifying next) (s.onLane next Lane.notifyAll) (.notifying (next + 1))
  | notified (next : Nat) : s.lanes.length ≤ next →
      ClosingMoves s other (.notifying next) s (.joining 0)
  | wait (next : Nat) : s.joinable[next]? = some true → other ≠ some (.waiting next) →
      ClosingMoves s other (.joining next) s (.waiting next)
  | pass (next : Nat) : s.joinable[next]? = some false →
      ClosingMoves s other (.joining next) s (.joining (next + 1))
  | join (next : Nat) : s.hasExited next = true →
      ClosingMoves s other (.waiting next) { s with joinable := s.joinable.set next false }
        (.joining (next + 1))
  | joined (next : Nat) : s.joinable[next]? = none → other.any Closing.inLoop = false →
      ClosingMoves s other (.joining next) { s with joinable := [] } .done
  | meet (next : Nat) : other.any Closing.inLoop = true →
      ClosingMoves s other (.joining next) { s with undefined := true } (.joining next)

/-- Everything a step can do. -/
inductive Moves (s : ReceiveQueues) : ReceiveQueues → Prop where
  | goto (r : RunPhase) : Goto s.running s.receiver r → Moves s { s with receiver := r }
  | worker (qid : Nat) (lane lane' : Lane) : s.lanes[qid]? = some lane →
      lane.step s.running = some lane' → Moves s (s.onLane qid fun _ => lane')
  | spurious (qid : Nat) (lane : Lane) (draining : Bool) : s.lanes[qid]? = some lane →
      lane.phase = .asleep draining → Moves s (s.onLane qid Lane.wake)
  | takeUp (msg : Message) (rest : List Message) : s.receiver = .batch (msg :: rest) →
      Moves s (s.takeUp msg rest)
  | full (qid : Nat) (pkt : Datagram) (rest : List Message) (lane : Lane) :
      s.receiver = .storing qid pkt rest → s.lanes[qid]? = some lane →
      s.capacity ≤ lane.queue.length →
      Moves s { s with receiver := .refused (some lane.queue.length) qid pkt rest }
  | stored (qid : Nat) (pkt : Datagram) (rest : List Message) (lane : Lane) :
      s.receiver = .storing qid pkt rest → s.lanes[qid]? = some lane → lane.locked = false →
      lane.queue.length < s.capacity →
      Moves s { (s.onLane qid fun lane => { lane with queue := lane.queue ++ [pkt] }).deal
        qid pkt .stored with receiver := .notifying qid rest }
  | notified (qid : Nat) (rest : List Message) : s.receiver = .notifying qid rest →
      Moves s { s.onLane qid Lane.wake with receiver := .batch rest }
  | dropped (found : Option Nat) (qid : Nat) (pkt : Datagram) (rest : List Message) :
      s.receiver = .refused found qid pkt rest → s.running = true →
      Moves s { s.deal qid pkt (.dropped (found.getD 0)) with
        droppedPackets := s.droppedPackets + 1, receiver := .batch rest }
  | abandoned (found : Option Nat) (qid : Nat) (pkt : Datagram) (rest : List Message) :
      s.receiver = .refused found qid pkt rest → s.running = false →
      Moves s { s.deal qid pkt .abandoned with receiver := .testing }
  | closing (c c' : Closing) (s₁ : ReceiveQueues) : s.receiver = .closing c →
      ClosingMoves s s.stopperClosing c s₁ c' → Moves s { s₁ with receiver := .closing c' }
  | stopCall : s.stopper = .notCalled →
      Moves s { s with running := false, stopper := .closing .clearing }
  | stopClosing (c c' : Closing) (s₁ : ReceiveQueues) : s.stopper = .closing c →
      ClosingMoves s s.receiverClosing c s₁ c' → Moves s { s₁ with stopper := .closing c' }
  | stopJoin : s.stopper = .closing .done → Moves s { s with stopper := .joining }
  | stopReturn : s.stopper = .joining → s.receiver = .closing .done →
      Moves s { s with stopper := .returned }

theorem closingStep_moves {s s₁ : ReceiveQueues} {other : Option Closing} {c c' : Closing}
    (h : s.closingStep other c = some (s₁, c')) : ClosingMoves s other c s₁ c' := by
  cases c with
  | clearing =>
    obtain ⟨rfl, rfl⟩ := Prod.mk.inj (Option.some.inj h)
    exact .clear
  | notifying next =>
    simp only [closingStep] at h
    split at h
    · next hlt =>
      obtain ⟨rfl, rfl⟩ := Prod.mk.inj (Option.some.inj h)
      exact .notify next hlt
    · next hge =>
      obtain ⟨rfl, rfl⟩ := Prod.mk.inj (Option.some.inj h)
      exact .notified next (Nat.le_of_not_lt hge)
  | joining next =>
    simp only [closingStep] at h
    split at h
    · next hjoin =>
      split at h
      · next hother =>
        obtain ⟨rfl, rfl⟩ := Prod.mk.inj (Option.some.inj h)
        exact .meet next (by rw [hother]; rfl)
      · next hother =>
        obtain ⟨rfl, rfl⟩ := Prod.mk.inj (Option.some.inj h)
        exact .wait next hjoin hother
    · next hjoin =>
      obtain ⟨rfl, rfl⟩ := Prod.mk.inj (Option.some.inj h)
      exact .pass next hjoin
    · next hend =>
      split at h
      · next hother =>
        obtain ⟨rfl, rfl⟩ := Prod.mk.inj (Option.some.inj h)
        exact .meet next hother
      · next hother =>
        obtain ⟨rfl, rfl⟩ := Prod.mk.inj (Option.some.inj h)
        exact .joined next hend (Bool.eq_false_iff.mpr hother)
  | waiting next =>
    simp only [closingStep] at h
    split at h
    · next hex =>
      obtain ⟨rfl, rfl⟩ := Prod.mk.inj (Option.some.inj h)
      exact .join next hex
    · cases h
  | done => cases h

theorem store_moves {s s' : ReceiveQueues} {qid : Nat} {pkt : Datagram} {rest : List Message}
    (hr : s.receiver = .storing qid pkt rest) (h : s.store qid pkt rest = some s') :
    Moves s s' := by
  unfold store at h
  split at h
  · cases h
  · next lane hlane =>
    split at h
    · cases h
    · next hlock =>
      have hlock : lane.locked = false := by simpa using hlock
      split at h
      · next hfull =>
        obtain rfl := Option.some.inj h
        exact .full qid pkt rest lane hr hlane hfull
      · next hroom =>
        obtain rfl := Option.some.inj h
        exact .stored qid pkt rest lane hr hlane hlock (Nat.lt_of_not_le hroom)

theorem receiverStep_moves {s s' : ReceiveQueues} (h : s.receiverStep = some s') : Moves s s' := by
  unfold receiverStep at h
  split at h
  · next hr =>
    obtain rfl := Option.some.inj h
    refine .goto _ ?_
    rw [hr]
    split
    · next hrun => exact .loop hrun
    · next hrun => exact .leave (Bool.eq_false_iff.mpr hrun)
  · cases h
  · next hr =>
    obtain rfl := Option.some.inj h
    exact .goto _ (by rw [hr]; exact .batchEnd)
  · next msg rest hr =>
    split at h
    · obtain rfl := Option.some.inj h
      exact .goto _ (by rw [hr]; exact .skip msg rest)
    · obtain rfl := Option.some.inj h
      exact .takeUp msg rest hr
  · next qid pkt rest hr =>
    obtain rfl := Option.some.inj h
    refine .goto _ ?_
    rw [hr]
    split
    · next hrun => exact .seen qid pkt rest hrun
    · next hrun => exact .unseen qid pkt rest (Bool.eq_false_iff.mpr hrun)
  · next qid pkt rest hr => exact store_moves hr h
  · next qid rest hr =>
    obtain rfl := Option.some.inj h
    exact .notified qid rest hr
  · next found qid pkt rest hr =>
    split at h
    · next hrun =>
      obtain rfl := Option.some.inj h
      exact .dropped found qid pkt rest hr hrun
    · next hrun =>
      obtain rfl := Option.some.inj h
      exact .abandoned found qid pkt rest hr (by simpa using hrun)
  · next c hr =>
    obtain ⟨⟨s₁, c'⟩, hc, rfl⟩ := Option.map_eq_some_iff.mp h
    exact .closing c c' s₁ hr (closingStep_moves hc)

theorem stopperStep_moves {s s' : ReceiveQueues} (h : s.stopperStep = some s') : Moves s s' := by
  unfold stopperStep at h
  split at h
  · cases h
  · next hp =>
    obtain rfl := Option.some.inj h
    exact .stopJoin hp
  · next c _ hp =>
    obtain ⟨⟨s₁, c'⟩, hc, rfl⟩ := Option.map_eq_some_iff.mp h
    exact .stopClosing c c' s₁ hp (closingStep_moves hc)
  · next hp =>
    split at h
    · next hr =>
      obtain rfl := Option.some.inj h
      exact .stopReturn hp hr
    · cases h
  · cases h

/-- A program that takes a step still has a meaning. -/
theorem undefined_of_step {s s' : ReceiveQueues} {e : Event} (h : s.step e = some s') :
    s.undefined = false := by
  unfold step at h
  split at h
  · cases h
  · next hdef => exact Bool.eq_false_iff.mpr hdef

theorem step_moves {s s' : ReceiveQueues} {e : Event} (h : s.step e = some s') : Moves s s' := by
  rw [step, undefined_of_step h, if_neg Bool.false_ne_true] at h
  cases e with
  | worker qid =>
    simp only [definedStep] at h
    split at h
    · cases h
    · next lane hlane =>
      obtain ⟨lane', hstep, rfl⟩ := Option.map_eq_some_iff.mp h
      exact .worker qid lane lane' hlane hstep
  | spuriousWake qid =>
    simp only [definedStep] at h
    split at h
    · next hlane =>
      obtain rfl := Option.some.inj h
      exact .spurious qid _ _ hlane rfl
    · cases h
  | receive received =>
    simp only [definedStep] at h
    split at h
    · next hr =>
      split at h
      · obtain rfl := Option.some.inj h
        exact .goto _ (by rw [hr]; exact .nothing)
      · obtain rfl := Option.some.inj h
        exact .goto _ (by rw [hr]; exact .failed)
      · next msgs =>
        split at h
        · next hlen =>
          obtain rfl := Option.some.inj h
          exact .goto _ (by rw [hr]; exact .batch msgs hlen)
        · cases h
    · cases h
  | receiver => exact receiverStep_moves h
  | stopCall =>
    simp only [definedStep] at h
    split at h
    · next hp =>
      obtain rfl := Option.some.inj h
      exact .stopCall hp
    · cases h
  | stopper => exact stopperStep_moves h

/-! ## Reading the lanes after a change -/

theorem getElem?_onLane (s : ReceiveQueues) (qid j : Nat) (f : Lane → Lane) :
    (s.onLane qid f).lanes[j]? = if qid = j then s.lanes[j]?.map f else s.lanes[j]? := by
  show (s.lanes.modify qid f)[j]? = _
  rw [List.getElem?_modify]
  split <;> simp

@[simp] theorem length_onLane (s : ReceiveQueues) (qid : Nat) (f : Lane → Lane) :
    (s.onLane qid f).lanes.length = s.lanes.length :=
  List.length_modify ..

theorem hasExited_iff {s : ReceiveQueues} {qid : Nat} :
    s.hasExited qid = true ↔ ∀ lane, s.lanes[qid]? = some lane → lane.phase = .exited := by
  unfold hasExited
  cases s.lanes[qid]? with
  | none => simp
  | some lane => simp

/-- A worker that has exited stays so. -/
theorem hasExited_onLane {s : ReceiveQueues} {qid j : Nat} {f : Lane → Lane}
    (hf : ∀ lane, s.lanes[qid]? = some lane → lane.phase = .exited → (f lane).phase = .exited)
    (h : s.hasExited j = true) : (s.onLane qid f).hasExited j = true := by
  rw [hasExited_iff] at h ⊢
  intro lane hlane
  rw [getElem?_onLane] at hlane
  split at hlane
  · next heq =>
    subst heq
    obtain ⟨old, hold, rfl⟩ := Option.map_eq_some_iff.mp hlane
    exact hf old hold (h old hold)
  · exact h lane hlane

theorem wake_of_exited {lane : Lane} (h : lane.phase = .exited) : lane.wake = lane := by
  simp [Lane.wake, h]

theorem notifyAll_of_exited {lane : Lane} (h : lane.phase = .exited) : lane.notifyAll = lane := by
  simp [Lane.notifyAll, Lane.locked, Lane.wake, h]

/-! ## The two callers of `stopAndJoinWorkers` -/

/-- How many of `n` workers a caller has behind it. -/
def closingJoined (n : Nat) : Closing → Nat
  | .clearing | .notifying _ => 0
  | .joining next | .waiting next => next
  | .done => n

def runJoined (n : Nat) : RunPhase → Nat
  | .closing c => closingJoined n c
  | _ => 0

def stopJoined (n : Nat) : StopCall → Nat
  | .notCalled => 0
  | .closing c => closingJoined n c
  | .joining | .returned => n

/-- Both callers are in their loops over `m_workers`. -/
def BothJoining (s : ReceiveQueues) : Prop :=
  s.receiverClosing.any Closing.inLoop = true ∧ s.stopperClosing.any Closing.inLoop = true

/-- What `m_workers` says: a worker that was joined has exited, and the vector was cleared behind
    the last of them. -/
structure WorkersOk (s : ReceiveQueues) : Prop where
  length : s.joinable = [] ∨ s.joinable.length = s.lanes.length
  joined : ∀ qid, s.joinable[qid]? = some false → s.hasExited qid = true
  cleared : s.joinable = [] → ∀ qid, s.hasExited qid = true

/-- What a caller has behind it. -/
structure ClosedOk (s : ReceiveQueues) : Prop where
  workers : WorkersOk s
  receiver_cleared : ∀ c, s.receiver = .closing c → c ≠ .clearing → s.running = false
  stopper_cleared : s.stopper ≠ .notCalled → s.running = false
  receiver_joined : ∀ qid < runJoined s.lanes.length s.receiver, s.hasExited qid = true
  stopper_joined : ∀ qid < stopJoined s.lanes.length s.stopper, s.hasExited qid = true
  receiver_waits : ∀ next, s.receiver = .closing (.waiting next) → next < s.lanes.length
  stopper_waits : ∀ next, s.stopper = .closing (.waiting next) → next < s.lanes.length
  apart : ∀ next, s.receiver = .closing (.waiting next) → s.stopper ≠ .closing (.waiting next)
  returned : s.stopper = .returned → s.receiver = .closing .done
  met : s.undefined = true → BothJoining s

theorem closedOk_init (numWorkers queueCapacity : Nat) :
    ClosedOk (init numWorkers queueCapacity) where
  workers := by
    have hpos : 0 < if numWorkers = 0 then 1 else numWorkers := by split <;> omega
    refine ⟨.inr ?_, fun qid hq => ?_, fun hnil => ?_⟩
    · simp only [init, List.length_replicate]
    · exact nomatch List.eq_of_mem_replicate (List.mem_of_getElem? hq)
    · have hlen := congrArg List.length hnil
      simp only [init, List.length_replicate, List.length_nil] at hlen
      omega
  receiver_cleared := fun c h => by cases h
  stopper_cleared := fun h => absurd rfl h
  receiver_joined := fun qid h => absurd h (Nat.not_lt_zero qid)
  stopper_joined := fun qid h => absurd h (Nat.not_lt_zero qid)
  receiver_waits := fun next h => by cases h
  stopper_waits := fun next h => by cases h
  apart := fun next h => by cases h
  returned := fun h => by cases h
  met := fun h => by cases h

theorem WorkersOk.frame {s s' : ReceiveQueues} (h : WorkersOk s)
    (hlen : s'.lanes.length = s.lanes.length) (hjoin : s'.joinable = s.joinable)
    (hex : ∀ qid, s.hasExited qid = true → s'.hasExited qid = true) : WorkersOk s' where
  length := by rw [hjoin, hlen]; exact h.length
  joined qid hq := hex qid (h.joined qid (hjoin ▸ hq))
  cleared hnil qid := hex qid (h.cleared (hjoin ▸ hnil) qid)

/-- A step that is not one of `stopAndJoinWorkers`. -/
theorem ClosedOk.frame {s s' : ReceiveQueues} (h : ClosedOk s)
    (hlen : s'.lanes.length = s.lanes.length) (hjoin : s'.joinable = s.joinable)
    (hex : ∀ qid, s.hasExited qid = true → s'.hasExited qid = true)
    (hrun : s'.running = s.running) (hstop : s'.stopper = s.stopper) (hdef : s'.undefined = false)
    (hr : s'.receiver = s.receiver ∨
      s.receiver ≠ .closing .done ∧ ∀ c, s'.receiver = .closing c → c = .clearing) :
    ClosedOk s' where
  workers := h.workers.frame hlen hjoin hex
  receiver_cleared c hc hne := by
    rw [hrun]
    rcases hr with hr | ⟨_, hr⟩
    · exact h.receiver_cleared c (hr ▸ hc) hne
    · exact absurd (hr c hc) hne
  stopper_cleared := by
    rw [hrun, hstop]
    exact h.stopper_cleared
  receiver_joined qid hq := by
    rcases hr with hr | ⟨_, hr⟩
    · rw [hr, hlen] at hq
      exact hex qid (h.receiver_joined qid hq)
    · -- it is not in `stopAndJoinWorkers`, or has only come there
      cases hphase : s'.receiver with
      | closing c =>
        rw [hphase, hr c hphase] at hq
        exact absurd hq (Nat.not_lt_zero qid)
      | _ =>
        rw [hphase] at hq
        exact absurd hq (Nat.not_lt_zero qid)
  stopper_joined qid hq := by
    rw [hstop, hlen] at hq
    exact hex qid (h.stopper_joined qid hq)
  receiver_waits next hw := by
    rcases hr with hr | ⟨_, hr⟩
    · rw [hlen]
      exact h.receiver_waits next (hr ▸ hw)
    · cases hr _ hw
  stopper_waits next hw := by
    rw [hlen]
    exact h.stopper_waits next (hstop ▸ hw)
  apart next hw := by
    rw [hstop]
    rcases hr with hr | ⟨_, hr⟩
    · exact h.apart next (hr ▸ hw)
    · cases hr _ hw
  returned hret := by
    have hold := h.returned (hstop ▸ hret)
    rcases hr with hr | ⟨hr, _⟩
    · exact hr.trans hold
    · exact absurd hold hr
  met hmet := by
    rw [hdef] at hmet
    cases hmet

/-- What a step of `stopAndJoinWorkers` leaves alone. -/
theorem closingMoves_frame {s s₁ : ReceiveQueues} {other : Option Closing} {c c' : Closing}
    (h : ClosingMoves s other c s₁ c') :
    s₁.lanes.length = s.lanes.length ∧ s₁.receiver = s.receiver ∧ s₁.stopper = s.stopper ∧
    (s.running = false → s₁.running = false) ∧
    ∀ qid, s.hasExited qid = true → s₁.hasExited qid = true := by
  cases h with
  | clear => exact ⟨rfl, rfl, rfl, fun _ => rfl, fun _ hex => hex⟩
  | notify next =>
    refine ⟨length_onLane .., rfl, rfl, id, fun qid => hasExited_onLane fun lane _ hex => ?_⟩
    rw [notifyAll_of_exited hex, hex]
  | _ => exact ⟨rfl, rfl, rfl, id, fun _ hex => hex⟩

theorem closingMoves_cleared {s s₁ : ReceiveQueues} {other : Option Closing} {c c' : Closing}
    (h : ClosingMoves s other c s₁ c') (hrun : c ≠ .clearing → s.running = false) :
    s₁.running = false := by
  cases h with
  | clear => rfl
  | _ => exact hrun (by simp)

/-- A caller goes past a worker when that has exited. -/
theorem closingMoves_joined {s s₁ : ReceiveQueues} {other : Option Closing} {c c' : Closing}
    (h : ClosingMoves s other c s₁ c') (hworkers : WorkersOk s)
    (hj : ∀ qid < closingJoined s.lanes.length c, s.hasExited qid = true) :
    ∀ qid < closingJoined s₁.lanes.length c', s₁.hasExited qid = true := by
  have hnext : ∀ next, s.hasExited next = true → (∀ qid < next, s.hasExited qid = true) →
      ∀ qid < next + 1, s.hasExited qid = true := by
    intro next hex hbefore qid hq
    rcases Nat.lt_succ_iff_lt_or_eq.mp hq with hlt | rfl
    · exact hbefore qid hlt
    · exact hex
  cases h with
  | clear => exact fun qid hq => absurd hq (Nat.not_lt_zero qid)
  | notify => exact fun qid hq => absurd hq (Nat.not_lt_zero qid)
  | notified => exact fun qid hq => absurd hq (Nat.not_lt_zero qid)
  | wait => exact hj
  | pass next hjoin => exact hnext next (hworkers.joined next hjoin) hj
  | join next hex => exact hnext next hex hj
  | joined next hend =>
    intro qid hq
    rcases hworkers.length with hnil | hlen
    · exact hworkers.cleared hnil qid
    · have hge := List.getElem?_eq_none_iff.mp hend
      exact hj qid (Nat.lt_of_lt_of_le hq (hlen ▸ hge))
  | meet => exact hj

theorem closingMoves_workers {s s₁ : ReceiveQueues} {other : Option Closing} {c c' : Closing}
    (h : ClosingMoves s other c s₁ c') (hworkers : WorkersOk s)
    (hj : ∀ qid < closingJoined s.lanes.length c, s.hasExited qid = true) : WorkersOk s₁ := by
  have hafter := closingMoves_joined h hworkers hj
  cases h with
  | notify next =>
    exact hworkers.frame (length_onLane ..) rfl fun qid => hasExited_onLane fun lane _ hex => by
      rw [notifyAll_of_exited hex, hex]
  | join next hex =>
    refine ⟨?_, fun qid hq => ?_, fun hnil => ?_⟩
    · rcases hworkers.length with hnil | hlen
      · exact .inl (by simp [hnil])
      · exact .inr (by simp [hlen])
    · rw [List.getElem?_set] at hq
      split at hq
      · next heq => exact heq ▸ hex
      · exact hworkers.joined qid hq
    · exact hworkers.cleared (by simpa using hnil)
  | joined next hend =>
    -- all workers are behind the caller, and there are no others
    refine ⟨.inl rfl, fun qid hq => by simp at hq, fun _ qid => ?_⟩
    rcases Nat.lt_or_ge qid s.lanes.length with hlt | hge
    · exact hafter qid hlt
    · simp [hasExited, List.getElem?_eq_none_iff.mpr hge]
  | _ => exact ⟨hworkers.length, hworkers.joined, hworkers.cleared⟩

/-- A caller waits for a worker that there is. -/
theorem closingMoves_waits {s s₁ : ReceiveQueues} {other : Option Closing} {c : Closing}
    {next : Nat} (h : ClosingMoves s other c s₁ (.waiting next)) (hworkers : WorkersOk s) :
    next < s₁.lanes.length := by
  cases h with
  | wait _ hjoin _ =>
    have hlt := (List.getElem?_eq_some_iff.mp hjoin).1
    rcases hworkers.length with hnil | hlen
    · rw [hnil] at hlt
      exact absurd hlt (Nat.not_lt_zero next)
    · exact hlen ▸ hlt

/-- No two callers wait for one worker. -/
theorem closingMoves_apart {s s₁ : ReceiveQueues} {other : Option Closing} {c : Closing}
    {next : Nat} (h : ClosingMoves s other c s₁ (.waiting next)) :
    other ≠ some (.waiting next) := by
  cases h with
  | wait _ _ hother => exact hother

/-- The program loses its meaning where the two callers are in their loops. -/
theorem closingMoves_met {s s₁ : ReceiveQueues} {other : Option Closing} {c c' : Closing}
    (h : ClosingMoves s other c s₁ c') (hdef : s.undefined = false) (hmet : s₁.undefined = true) :
    c'.inLoop = true ∧ other.any Closing.inLoop = true := by
  cases h with
  | meet next hother => exact ⟨rfl, hother⟩
  | _ => exact absurd (hdef.symm.trans hmet) Bool.false_ne_true

theorem goto_not_done {running : Bool} {r r' : RunPhase} (h : Goto running r r') :
    r ≠ .closing .done ∧ ∀ c, r' = .closing c → c = .clearing := by
  cases h <;> simp

/-- The caller of `stop` has left `stopAndJoinWorkers`, with all workers behind it. -/
theorem ClosedOk.stopper_behind {s : ReceiveQueues} {phase : StopCall} (h : ClosedOk s)
    (hdef : s.undefined = false)
    (hp : s.stopper ≠ .notCalled ∧ stopJoined s.lanes.length s.stopper = s.lanes.length)
    (hphase : phase = .joining ∨ phase = .returned ∧ s.receiver = .closing .done) :
    ClosedOk { s with stopper := phase } := by
  have hleft : ∀ c, phase ≠ .closing c := by rcases hphase with rfl | ⟨rfl, _⟩ <;> simp
  have hall : stopJoined s.lanes.length phase = stopJoined s.lanes.length s.stopper := by
    rcases hphase with rfl | ⟨rfl, _⟩ <;> exact hp.2.symm
  exact { h with
    workers := h.workers.frame rfl rfl fun _ => id
    stopper_cleared := fun _ => h.stopper_cleared hp.1
    stopper_joined := fun qid hq => h.stopper_joined qid (hall ▸ hq)
    stopper_waits := fun next hw => absurd hw (hleft _)
    apart := fun next _ => hleft _
    returned := fun hret => by
      rcases hphase with rfl | ⟨_, hr⟩
      · cases hret
      · exact hr
    met := fun hmet => absurd (hdef.symm.trans hmet) Bool.false_ne_true }

theorem closedOk_step {s s' : ReceiveQueues} (hm : Moves s s') (hdef : s.undefined = false)
    (h : ClosedOk s) : ClosedOk s' := by
  cases hm with
  | goto r hr => exact h.frame rfl rfl (fun _ => id) rfl rfl hdef (.inr (goto_not_done hr))
  | worker qid lane lane' hlane hstep =>
    refine h.frame (length_onLane ..) rfl (fun j => hasExited_onLane fun old hold hex => ?_) rfl
      rfl hdef (.inl rfl)
    obtain rfl := Option.some.inj (hlane.symm.trans hold)
    simp [Lane.step, hex] at hstep
  | spurious qid =>
    refine h.frame (length_onLane ..) rfl (fun j => hasExited_onLane fun old _ hex => ?_) rfl rfl
      hdef (.inl rfl)
    rw [wake_of_exited hex, hex]
  | takeUp msg rest hr =>
    exact h.frame rfl rfl (fun _ => id) rfl rfl hdef (.inr ⟨by simp [hr], fun c hc => by cases hc⟩)
  | full qid pkt rest lane hr =>
    exact h.frame rfl rfl (fun _ => id) rfl rfl hdef (.inr ⟨by simp [hr], fun c hc => by cases hc⟩)
  | stored qid pkt rest lane hr =>
    exact h.frame (length_onLane ..) rfl (fun j => hasExited_onLane fun old _ hex => hex) rfl rfl
      hdef (.inr ⟨by simp [hr], fun c hc => by cases hc⟩)
  | notified qid rest hr =>
    refine h.frame (length_onLane ..) rfl (fun j => hasExited_onLane fun old _ hex => ?_) rfl rfl
      hdef (.inr ⟨by simp [hr], fun c hc => by cases hc⟩)
    rw [wake_of_exited hex, hex]
  | dropped found qid pkt rest hr =>
    exact h.frame rfl rfl (fun _ => id) rfl rfl hdef (.inr ⟨by simp [hr], fun c hc => by cases hc⟩)
  | abandoned found qid pkt rest hr =>
    exact h.frame rfl rfl (fun _ => id) rfl rfl hdef (.inr ⟨by simp [hr], fun c hc => by cases hc⟩)
  | closing c c' s₁ hr hc =>
    obtain ⟨hlen, _, hstop, hrun, hex⟩ := closingMoves_frame hc
    have hjoined := h.receiver_joined
    rw [hr] at hjoined
    have hnow := closingMoves_joined hc h.workers hjoined
    have hworkers := closingMoves_workers hc h.workers hjoined
    have hcleared := closingMoves_cleared hc (h.receiver_cleared c hr)
    exact {
      workers := hworkers.frame rfl rfl fun _ => id
      receiver_cleared := fun _ _ _ => hcleared
      stopper_cleared := fun hne => hrun (h.stopper_cleared (hstop ▸ hne))
      receiver_joined := hnow
      stopper_joined := fun qid hq => by
        rw [show stopJoined _ _ = stopJoined s.lanes.length s.stopper by rw [← hlen, ← hstop]] at hq
        exact hex qid (h.stopper_joined qid hq)
      receiver_waits := fun next hw => by
        obtain rfl := RunPhase.closing.inj hw
        have hlt := closingMoves_waits hc h.workers
        exact hlt
      stopper_waits := fun next hw => hlen ▸ h.stopper_waits next (hstop ▸ hw)
      apart := fun next hw hother => by
        obtain rfl := RunPhase.closing.inj hw
        exact closingMoves_apart hc (by rw [stopperClosing, ← hstop, hother])
      returned := fun hret => by
        -- a caller that is done takes no step
        have hdone := h.returned (hstop ▸ hret)
        obtain rfl := RunPhase.closing.inj (hr.symm.trans hdone)
        cases hc
      met := fun hmet => by
        obtain ⟨hmine, hother⟩ := closingMoves_met hc hdef hmet
        refine ⟨hmine, ?_⟩
        rwa [stopperClosing, ← hstop] at hother }
  | stopCall hp =>
    exact {
      workers := h.workers.frame rfl rfl fun _ => id
      receiver_cleared := fun _ _ _ => rfl
      stopper_cleared := fun _ => rfl
      receiver_joined := h.receiver_joined
      stopper_joined := fun qid hq => absurd hq (Nat.not_lt_zero qid)
      receiver_waits := h.receiver_waits
      stopper_waits := fun next hw => by cases hw
      apart := fun next _ hother => by cases hother
      returned := fun hret => by cases hret
      met := fun hmet => absurd (hdef.symm.trans hmet) Bool.false_ne_true }
  | stopClosing c c' s₁ hp hc =>
    obtain ⟨hlen, hreceiver, _, hrun, hex⟩ := closingMoves_frame hc
    have hjoined := h.stopper_joined
    rw [hp] at hjoined
    have hnow := closingMoves_joined hc h.workers hjoined
    have hworkers := closingMoves_workers hc h.workers hjoined
    have hcleared := hrun (h.stopper_cleared (by simp [hp]))
    exact {
      workers := hworkers.frame rfl rfl fun _ => id
      receiver_cleared := fun _ _ _ => hcleared
      stopper_cleared := fun _ => hcleared
      receiver_joined := fun qid hq => by
        rw [show runJoined _ _ = runJoined s.lanes.length s.receiver by
          rw [← hlen, ← hreceiver]] at hq
        exact hex qid (h.receiver_joined qid hq)
      stopper_joined := hnow
      receiver_waits := fun next hw => hlen ▸ h.receiver_waits next (hreceiver ▸ hw)
      stopper_waits := fun next hw => by
        obtain rfl := StopCall.closing.inj hw
        have hlt := closingMoves_waits hc h.workers
        exact hlt
      apart := fun next hw hmine => by
        obtain rfl := StopCall.closing.inj hmine
        exact closingMoves_apart hc (by rw [receiverClosing, ← hreceiver, hw])
      returned := fun hret => by cases hret
      met := fun hmet => by
        obtain ⟨hmine, hother⟩ := closingMoves_met hc hdef hmet
        refine ⟨?_, hmine⟩
        rwa [receiverClosing, ← hreceiver] at hother }
  | stopJoin hp => exact h.stopper_behind hdef (by simp [hp, stopJoined, closingJoined]) (.inl rfl)
  | stopReturn hp hr => exact h.stopper_behind hdef (by simp [hp, stopJoined]) (.inr ⟨rfl, hr⟩)

/-! ## All queues -/

/-- What was pushed into a queue, in order. -/
def storedIn (s : ReceiveQueues) (qid : Nat) : List Datagram :=
  (s.dealt.filter fun d => d.qid = qid ∧ d.fate = .stored).map (·.pkt)

theorem storedIn_deal (s : ReceiveQueues) (qid j : Nat) (pkt : Datagram) (fate : Fate) :
    storedIn (s.deal qid pkt fate) j =
      storedIn s j ++ if qid = j ∧ fate = .stored then [pkt] else [] := by
  simp only [storedIn, deal, List.filter_append, List.map_append]
  by_cases h : qid = j ∧ fate = .stored
  · simp [h]
  · simp [h]

/-- Whether a caller has notified a worker. -/
def closingAnnounced (qid : Nat) : Closing → Nat
  | .clearing => 0
  | .notifying next => if qid < next then 1 else 0
  | .joining _ | .waiting _ | .done => 1

def runAnnounced (qid : Nat) : RunPhase → Nat
  | .closing c => closingAnnounced qid c
  | _ => 0

def stopAnnounced (qid : Nat) : StopCall → Nat
  | .notCalled => 0
  | .closing c => closingAnnounced qid c
  | .joining | .returned => 1

/-- How many of the two callers have notified a worker. -/
def announced (s : ReceiveQueues) (qid : Nat) : Nat :=
  runAnnounced qid s.receiver + stopAnnounced qid s.stopper

/-- A `tryPush` is about to notify the worker. -/
def Noticed (s : ReceiveQueues) (qid : Nat) : Prop :=
  ∃ rest, s.receiver = .notifying qid rest

def LaneOkAt (s : ReceiveQueues) (qid : Nat) : Lane → Prop :=
  LaneOk (storedIn s qid) s.capacity s.running (announced s qid) (Noticed s qid)

def LanesOk (s : ReceiveQueues) : Prop :=
  ∀ qid lane, s.lanes[qid]? = some lane → LaneOkAt s qid lane

theorem lanesOk_init (numWorkers queueCapacity : Nat) :
    LanesOk (init numWorkers queueCapacity) := by
  intro qid lane hlane
  obtain rfl : lane = {} := List.eq_of_mem_replicate (List.mem_of_getElem? hlane)
  exact laneOk_init

/-- While the flag is set nobody has announced a stop. -/
theorem ClosedOk.announced_eq_zero {s : ReceiveQueues} (h : ClosedOk s) (hrun : s.running = true)
    (qid : Nat) : announced s qid = 0 := by
  have hstop : s.stopper = .notCalled := by
    by_contra hne
    simp [h.stopper_cleared hne] at hrun
  have hr : runAnnounced qid s.receiver = 0 := by
    cases hphase : s.receiver with
    | closing c =>
      cases c with
      | clearing => rfl
      | _ => simp [h.receiver_cleared _ hphase (by simp)] at hrun
    | _ => rfl
  rw [announced, hr, hstop]
  rfl

/-- A lane whose surroundings did not change for it. -/
theorem LaneOkAt.congr {s s' : ReceiveQueues} {qid : Nat} {lane : Lane} (h : LaneOkAt s qid lane)
    (hstored : storedIn s' qid = storedIn s qid) (hcap : s'.capacity = s.capacity)
    (hrun : s.running = false → s'.running = false) (hann : announced s' qid = announced s qid)
    (hnote : Noticed s qid → Noticed s' qid) : LaneOkAt s' qid lane := by
  unfold LaneOkAt at h ⊢
  rw [hstored, hcap, hann]
  exact { h.of_running hrun with
    asleep := fun draining hp hq => hnote (h.asleep draining hp hq) }

/-- A step that changes no lane. -/
theorem LanesOk.frame {s s' : ReceiveQueues} (h : LanesOk s) (hlanes : s'.lanes = s.lanes)
    (hstored : ∀ qid, storedIn s' qid = storedIn s qid) (hcap : s'.capacity = s.capacity)
    (hrun : s.running = false → s'.running = false)
    (hann : ∀ qid < s.lanes.length, announced s' qid = announced s qid)
    (hnote : ∀ qid, Noticed s qid → Noticed s' qid) : LanesOk s' := by
  intro qid lane hlane
  rw [hlanes] at hlane
  have hlt := (List.getElem?_eq_some_iff.mp hlane).1
  exact (h qid lane hlane).congr (hstored qid) hcap hrun (hann qid hlt) (hnote qid)

/-- A step that changes one lane. -/
theorem LanesOk.onLane {s s' : ReceiveQueues} {qid : Nat} {f : Lane → Lane} (h : LanesOk s)
    (hlanes : s'.lanes = (s.onLane qid f).lanes) (hcap : s'.capacity = s.capacity)
    (hrun : s.running = false → s'.running = false)
    (hself : ∀ lane, s.lanes[qid]? = some lane → LaneOkAt s' qid (f lane))
    (hother : ∀ j, j ≠ qid → storedIn s' j = storedIn s j ∧ announced s' j = announced s j ∧
      (Noticed s j → Noticed s' j)) : LanesOk s' := by
  intro j lane hlane
  rw [hlanes, getElem?_onLane] at hlane
  split at hlane
  · next heq =>
    subst heq
    obtain ⟨old, hold, rfl⟩ := Option.map_eq_some_iff.mp hlane
    exact hself old hold
  · next hne =>
    obtain ⟨hstored, hann, hnote⟩ := hother j (Ne.symm hne)
    exact (h j lane hlane).congr hstored hcap hrun hann hnote

/-- A step of `stopAndJoinWorkers`, whoever the caller is. -/
theorem LanesOk.closing {s s₁ s' : ReceiveQueues} {other : Option Closing} {c c' : Closing}
    (h : LanesOk s) (hc : ClosingMoves s other c s₁ c') (hlanes : s'.lanes = s₁.lanes)
    (hrun : s'.running = s₁.running)
    (hdealt : s'.dealt = s.dealt) (hcap : s'.capacity = s.capacity)
    (hann : ∀ qid, announced s' qid + closingAnnounced qid c =
      announced s qid + closingAnnounced qid c')
    (hnote : ∀ qid, Noticed s qid → Noticed s' qid) : LanesOk s' := by
  have hstored : ∀ qid, storedIn s' qid = storedIn s qid := by
    intro qid
    rw [storedIn, storedIn, hdealt]
  cases hc with
  | clear =>
    refine h.frame hlanes hstored hcap (fun _ => hrun) (fun qid _ => ?_) hnote
    have := hann qid
    simpa [closingAnnounced] using this
  | notify next hlt =>
    refine h.onLane hlanes hcap (fun hf => hrun.trans hf) (fun lane hlane => ?_) fun j hj => ?_
    · have hsucc : announced s' next = announced s next + 1 := by
        have := hann next
        simpa [closingAnnounced] using this
      have hnow := (h next lane hlane).notifyAll
      unfold LaneOkAt
      rw [hstored, hcap, hrun, hsucc]
      exact { hnow with asleep := fun draining hp hq => hnote next (hnow.asleep draining hp hq) }
    · refine ⟨hstored j, ?_, hnote j⟩
      have := hann j
      simp only [closingAnnounced] at this
      have hiff : j < next ↔ j < next + 1 := by omega
      simp only [hiff] at this
      omega
  | notified next hge =>
    refine h.frame hlanes hstored hcap (fun hf => hrun.trans hf) (fun qid hq => ?_) hnote
    have := hann qid
    simp only [closingAnnounced, if_pos (Nat.lt_of_lt_of_le hq hge)] at this
    omega
  | _ =>
    refine h.frame hlanes hstored hcap (fun hf => hrun.trans hf) (fun qid hq => ?_) hnote
    have := hann qid
    simpa [closingAnnounced] using this

theorem not_noticed {s : ReceiveQueues} {qid : Nat} (h : ∀ rest, s.receiver ≠ .notifying qid rest) :
    ¬ Noticed s qid :=
  fun ⟨rest, hr⟩ => h rest hr

theorem goto_frame {running : Bool} {r r' : RunPhase} (h : Goto running r r') (qid : Nat) :
    runAnnounced qid r' = runAnnounced qid r ∧ ∀ rest, r ≠ .notifying qid rest := by
  cases h <;> simp [runAnnounced, closingAnnounced]

theorem lanesOk_step {s s' : ReceiveQueues} (hm : Moves s s') (hclosed : ClosedOk s)
    (h : LanesOk s) : LanesOk s' := by
  cases hm with
  | goto r hr =>
    refine h.frame rfl (fun _ => rfl) rfl id (fun qid _ => ?_) fun qid hn => ?_
    · rw [announced, announced, (goto_frame hr qid).1]
    · exact absurd hn (not_noticed (goto_frame hr qid).2)
  | worker qid lane lane' hlane hstep =>
    refine h.onLane rfl rfl id (fun old hold => ?_) fun j _ => ⟨rfl, rfl, id⟩
    exact (h qid lane hlane).step (fun hrun => hclosed.announced_eq_zero hrun qid) hstep
  | spurious qid =>
    refine h.onLane rfl rfl id (fun old hold => ?_) fun j _ => ⟨rfl, rfl, id⟩
    exact (h qid old hold).wake
  | takeUp msg rest hr =>
    refine h.frame rfl (fun _ => rfl) rfl id (fun qid _ => ?_) fun qid hn => ?_
    · simp [announced, takeUp, runAnnounced, hr]
    · exact absurd hn (not_noticed (by simp [hr]))
  | full qid pkt rest lane hr =>
    refine h.frame rfl (fun _ => rfl) rfl id (fun qid _ => ?_) fun qid hn => ?_
    · simp [announced, runAnnounced, hr]
    · exact absurd hn (not_noticed (by simp [hr]))
  | stored qid pkt rest lane hr hlane hlock hroom =>
    have hann : ∀ j, announced { (s.onLane qid fun lane =>
        { lane with queue := lane.queue ++ [pkt] }).deal qid pkt .stored with
          receiver := .notifying qid rest } j = announced s j := by
      intro j
      simp [announced, runAnnounced, hr, deal, ReceiveQueues.onLane]
    refine h.onLane rfl rfl id (fun old hold => ?_) fun j hj => ⟨?_, hann j, fun hn => ?_⟩
    · obtain rfl := Option.some.inj (hlane.symm.trans hold)
      have hpush := (h qid lane hlane).push hlock hroom pkt
      unfold LaneOkAt
      rw [hann]
      have hstored : storedIn { (s.onLane qid fun lane =>
          { lane with queue := lane.queue ++ [pkt] }).deal qid pkt .stored with
            receiver := .notifying qid rest } qid = storedIn s qid ++ [pkt] := by
        refine (storedIn_deal (s.onLane qid _) qid qid pkt .stored).trans ?_
        rw [if_pos ⟨rfl, rfl⟩]
        rfl
      rw [hstored]
      exact { hpush with asleep := fun _ _ _ => ⟨rest, rfl⟩ }
    · refine (storedIn_deal (s.onLane qid _) qid j pkt .stored).trans ?_
      rw [if_neg (by simp [Ne.symm hj]), List.append_nil]
      rfl
    · exact absurd hn (not_noticed (by simp [hr]))
  | notified qid rest hr =>
    have hann : ∀ j, announced { s.onLane qid Lane.wake with receiver := .batch rest } j =
        announced s j := by
      intro j
      simp [announced, runAnnounced, hr, ReceiveQueues.onLane]
    refine h.onLane rfl rfl id (fun old hold => ?_) fun j hj => ⟨rfl, hann j, fun hn => ?_⟩
    · unfold LaneOkAt
      rw [hann]
      exact (h qid old hold).wake
    · exact absurd hn (not_noticed (by simp [hr, Ne.symm hj]))
  | dropped found qid pkt rest hr =>
    refine h.frame rfl (fun j => ?_) rfl id (fun j _ => ?_) fun j hn => ?_
    · refine (storedIn_deal s qid j pkt _).trans ?_
      rw [if_neg (by simp), List.append_nil]
    · simp [announced, runAnnounced, hr, deal]
    · exact absurd hn (not_noticed (by simp [hr]))
  | abandoned found qid pkt rest hr =>
    refine h.frame rfl (fun j => ?_) rfl id (fun j _ => ?_) fun j hn => ?_
    · refine (storedIn_deal s qid j pkt _).trans ?_
      rw [if_neg (by simp), List.append_nil]
    · simp [announced, runAnnounced, hr, deal]
    · exact absurd hn (not_noticed (by simp [hr]))
  | closing c c' s₁ hr hc =>
    obtain ⟨_, _, hstop, _, _⟩ := closingMoves_frame hc
    obtain ⟨hdealt, hcap⟩ : s₁.dealt = s.dealt ∧ s₁.capacity = s.capacity := by
      cases hc <;> exact ⟨rfl, rfl⟩
    refine h.closing hc rfl rfl hdealt hcap (fun qid => ?_) fun qid hn => ?_
    · simp only [announced, runAnnounced, hr, hstop]
      omega
    · exact absurd hn (not_noticed (by simp [hr]))
  | stopCall hp =>
    refine h.frame rfl (fun _ => rfl) rfl (fun _ => rfl) (fun qid _ => ?_) fun qid hn => hn
    simp [announced, hp, stopAnnounced, closingAnnounced]
  | stopClosing c c' s₁ hp hc =>
    obtain ⟨_, hreceiver, _, _, _⟩ := closingMoves_frame hc
    obtain ⟨hdealt, hcap⟩ : s₁.dealt = s.dealt ∧ s₁.capacity = s.capacity := by
      cases hc <;> exact ⟨rfl, rfl⟩
    refine h.closing hc rfl rfl hdealt hcap (fun qid => ?_) fun qid ⟨rest, hn⟩ => ⟨rest, ?_⟩
    · simp only [announced, stopAnnounced, hp, hreceiver]
      omega
    · exact hreceiver.trans hn
  | stopJoin hp =>
    refine h.frame rfl (fun _ => rfl) rfl id (fun qid _ => ?_) fun qid hn => hn
    simp [announced, hp, stopAnnounced, closingAnnounced]
  | stopReturn hp hr =>
    refine h.frame rfl (fun _ => rfl) rfl id (fun qid _ => ?_) fun qid hn => hn
    simp [announced, hp, stopAnnounced]

/-! ## The datagrams that were dealt -/

/-- The datagram in the hand of the receive thread, with the queue it is meant for. -/
def runHand : RunPhase → List (Nat × Datagram)
  | .pushing qid pkt _ | .storing qid pkt _ | .refused _ qid pkt _ => [(qid, pkt)]
  | _ => []

def wasDropped : Fate → Bool
  | .dropped _ => true
  | _ => false

def wasAbandoned : Fate → Bool
  | .abandoned => true
  | _ => false

/-- The receive thread is between two batches, or on its way out. -/
def betweenBatches : RunPhase → Bool
  | .testing | .closing _ => true
  | _ => false

structure DealtOk (s : ReceiveQueues) : Prop where
  pos : 0 < s.lanes.length
  rr : s.rr = UInt32.ofNat (s.dealt.length + (runHand s.receiver).length)
  received : s.receivedPacketNumFromSocket =
    UInt64.ofNat (s.dealt.length + (runHand s.receiver).length)
  robin : ∀ k d, s.dealt[k]? = some d → d.qid = k % 2 ^ 32 % s.lanes.length
  hand : ∀ p ∈ runHand s.receiver, p.1 = s.dealt.length % 2 ^ 32 % s.lanes.length
  drops : s.droppedPackets = UInt64.ofNat (s.dealt.countP fun d => wasDropped d.fate)
  found : ∀ d ∈ s.dealt, ∀ len, d.fate = .dropped len → len = s.capacity
  /-- A push is refused by a full queue or by a cleared flag. -/
  refused : ∀ found qid pkt rest, s.receiver = .refused found qid pkt rest →
    found = some s.capacity ∨ s.running = false
  abandoned : s.dealt.countP (fun d => wasAbandoned d.fate) ≤ 1
  /-- After giving up a datagram the receive thread takes no other. -/
  leaving : 0 < s.dealt.countP (fun d => wasAbandoned d.fate) →
    s.running = false ∧ betweenBatches s.receiver = true

theorem dealtOk_init (numWorkers queueCapacity : Nat) :
    DealtOk (init numWorkers queueCapacity) where
  pos := by
    show 0 < (List.replicate _ _).length
    rw [List.length_replicate]
    split <;> omega
  rr := rfl
  received := rfl
  robin := fun k d h => by simp [init] at h
  hand := fun p h => by simp [init, runHand] at h
  drops := rfl
  found := fun d h => by simp [init] at h
  refused := fun _ _ _ _ h => by cases h
  abandoned := Nat.zero_le _
  leaving := fun h => absurd h (Nat.lt_irrefl 0)

/-- A step after which the receive thread has the same datagram in its hand, or still none. -/
theorem DealtOk.frame {s s' : ReceiveQueues} (h : DealtOk s)
    (hlen : s'.lanes.length = s.lanes.length) (hdealt : s'.dealt = s.dealt) (hrr : s'.rr = s.rr)
    (hreceived : s'.receivedPacketNumFromSocket = s.receivedPacketNumFromSocket)
    (hdropped : s'.droppedPackets = s.droppedPackets) (hcap : s'.capacity = s.capacity)
    (hrun : s.running = false → s'.running = false)
    (hhand : runHand s'.receiver = runHand s.receiver)
    (hrefused : ∀ found qid pkt rest, s'.receiver = .refused found qid pkt rest →
      found = some s.capacity ∨ s'.running = false)
    (hleave : s.running = false → betweenBatches s.receiver = true →
      betweenBatches s'.receiver = true) : DealtOk s' where
  pos := by rw [hlen]; exact h.pos
  rr := by rw [hrr, hdealt, hhand]; exact h.rr
  received := by rw [hreceived, hdealt, hhand]; exact h.received
  robin := by rw [hdealt, hlen]; exact h.robin
  hand := by rw [hhand, hdealt, hlen]; exact h.hand
  drops := by rw [hdropped, hdealt]; exact h.drops
  found := by rw [hdealt, hcap]; exact h.found
  refused := by rw [hcap]; exact hrefused
  abandoned := by rw [hdealt]; exact h.abandoned
  leaving := by
    rw [hdealt]
    intro hpos
    obtain ⟨hstop, hbetween⟩ := h.leaving hpos
    exact ⟨hrun hstop, hleave hstop hbetween⟩

/-- A worker's step, a notification, or a step of a caller of `stop`. -/
theorem DealtOk.of_receiver {s s' : ReceiveQueues} (h : DealtOk s)
    (hlen : s'.lanes.length = s.lanes.length) (hdealt : s'.dealt = s.dealt) (hrr : s'.rr = s.rr)
    (hreceived : s'.receivedPacketNumFromSocket = s.receivedPacketNumFromSocket)
    (hdropped : s'.droppedPackets = s.droppedPackets) (hcap : s'.capacity = s.capacity)
    (hrun : s.running = false → s'.running = false) (hr : s'.receiver = s.receiver) :
    DealtOk s' := by
  refine h.frame hlen hdealt hrr hreceived hdropped hcap hrun (by rw [hr]) ?_
    (by rw [hr]; exact fun _ => id)
  intro found qid pkt rest href
  exact (h.refused found qid pkt rest (hr ▸ href)).imp_right hrun

/-- The receive thread is done with the datagram in its hand. -/
theorem DealtOk.deal {s s' : ReceiveQueues} {qid : Nat} {pkt : Datagram} {fate : Fate}
    (h : DealtOk s) (hhand : runHand s.receiver = [(qid, pkt)])
    (hlen : s'.lanes.length = s.lanes.length) (hdealt : s'.dealt = s.dealt ++ [⟨qid, pkt, fate⟩])
    (hrr : s'.rr = s.rr)
    (hreceived : s'.receivedPacketNumFromSocket = s.receivedPacketNumFromSocket)
    (hdropped : s'.droppedPackets = s.droppedPackets + if wasDropped fate then 1 else 0)
    (hcap : s'.capacity = s.capacity) (hempty : runHand s'.receiver = [])
    (hfound : ∀ len, fate = .dropped len → len = s.capacity)
    (hleave : wasAbandoned fate = true → s'.running = false ∧ betweenBatches s'.receiver = true) :
    DealtOk s' := by
  have hqid : qid = s.dealt.length % 2 ^ 32 % s.lanes.length :=
    h.hand (qid, pkt) (by rw [hhand]; exact List.mem_singleton_self _)
  have hnone : s.dealt.countP (fun d => wasAbandoned d.fate) = 0 := by
    by_contra hne
    obtain ⟨_, hbetween⟩ := h.leaving (Nat.pos_of_ne_zero hne)
    cases hr : s.receiver <;> simp [hr, betweenBatches, runHand] at hbetween hhand
  have hcount : s'.dealt.countP (fun d => wasAbandoned d.fate) =
      if wasAbandoned fate then 1 else 0 := by
    rw [hdealt, List.countP_append, hnone, List.countP_singleton, Nat.zero_add]
  have hone : s'.dealt.length + (runHand s'.receiver).length =
      s.dealt.length + (runHand s.receiver).length := by
    rw [hdealt, hempty, hhand, List.length_append]
    rfl
  refine
    { pos := by rw [hlen]; exact h.pos
      rr := by rw [hone, hrr]; exact h.rr
      received := by rw [hone, hreceived]; exact h.received
      robin := fun k d hk => ?_
      hand := fun p hp => by simp [hempty] at hp
      drops := ?_
      found := fun d hd len hf => ?_
      refused := fun found q p rest href => by simp [href, runHand] at hempty
      abandoned := by rw [hcount]; split <;> omega
      leaving := fun hpos => ?_ }
  · rw [hlen]
    rw [hdealt] at hk
    rcases Nat.lt_or_ge k s.dealt.length with hlt | hge
    · rw [List.getElem?_append_left hlt] at hk
      exact h.robin k d hk
    · have hlast : k = s.dealt.length := by
        have := (List.getElem?_eq_some_iff.mp hk).1
        rw [List.length_append, List.length_singleton] at this
        omega
      subst hlast
      simp only [List.getElem?_append_right (Nat.le_refl _), Nat.sub_self,
        List.getElem?_cons_zero, Option.some.injEq] at hk
      rw [← hk]
      exact hqid
  · rw [hdropped, hdealt, h.drops, List.countP_append, List.countP_singleton, UInt64.ofNat_add]
    split <;> rfl
  · rw [hcap]
    rw [hdealt, List.mem_append, List.mem_singleton] at hd
    rcases hd with hd | rfl
    · exact h.found d hd len hf
    · exact hfound len hf
  · rw [hcount] at hpos
    split at hpos
    · next hab => exact hleave hab
    · exact absurd hpos (Nat.lt_irrefl 0)

/-- A message is taken up. -/
theorem DealtOk.takeUp {s : ReceiveQueues} {msg : Message} {rest : List Message} (h : DealtOk s)
    (hr : s.receiver = .batch (msg :: rest)) : DealtOk (s.takeUp msg rest) := by
  have hempty : (runHand s.receiver).length = 0 := by rw [hr]; rfl
  have hrr := h.rr
  have hreceived := h.received
  rw [hempty, Nat.add_zero] at hrr hreceived
  refine
    { pos := h.pos
      rr := ?_
      received := ?_
      robin := h.robin
      hand := fun p hp => ?_
      drops := h.drops
      found := h.found
      refused := fun _ _ _ _ href => by cases href
      abandoned := h.abandoned
      leaving := fun hpos => by
        have := (h.leaving hpos).2
        simp [hr, betweenBatches] at this }
  · show s.rr + 1 = UInt32.ofNat (s.dealt.length + 1)
    rw [hrr, UInt32.ofNat_add]
    rfl
  · show s.receivedPacketNumFromSocket + 1 = UInt64.ofNat (s.dealt.length + 1)
    rw [hreceived, UInt64.ofNat_add]
    rfl
  · obtain rfl := List.mem_singleton.mp hp
    show s.rr.toNat % s.lanes.length = _
    rw [hrr, UInt32.toNat_ofNat']
    rfl

theorem goto_hand {running : Bool} {r r' : RunPhase} (h : Goto running r r') :
    runHand r' = runHand r ∧
    (∀ found qid pkt rest, r' = .refused found qid pkt rest → running = false) ∧
    (running = false → betweenBatches r = true → betweenBatches r' = true) := by
  cases h <;> simp_all [runHand, betweenBatches]

theorem dealtOk_step {s s' : ReceiveQueues} (hm : Moves s s') (hlanes : LanesOk s)
    (h : DealtOk s) : DealtOk s' := by
  cases hm with
  | goto r hr =>
    obtain ⟨hhand, hrefused, hleave⟩ := goto_hand hr
    exact h.frame rfl rfl rfl rfl rfl rfl id hhand
      (fun found qid pkt rest href => .inr (hrefused found qid pkt rest href)) hleave
  | worker qid lane lane' => exact h.of_receiver (length_onLane ..) rfl rfl rfl rfl rfl id rfl
  | spurious qid => exact h.of_receiver (length_onLane ..) rfl rfl rfl rfl rfl id rfl
  | takeUp msg rest hr => exact h.takeUp hr
  | full qid pkt rest lane hr hlane hfull =>
    have hlen : lane.queue.length = s.capacity :=
      Nat.le_antisymm (hlanes qid lane hlane).bounded hfull
    refine h.frame rfl rfl rfl rfl rfl rfl id (by rw [hr]; rfl) (fun found q p r href => ?_)
      fun _ hbetween => by simp [hr, betweenBatches] at hbetween
    obtain ⟨rfl, _⟩ := RunPhase.refused.inj href
    exact .inl (congrArg some hlen)
  | stored qid pkt rest lane hr =>
    exact h.deal (by rw [hr]; rfl) (length_onLane ..) rfl rfl rfl
      (UInt64.add_zero _).symm rfl rfl (fun _ hf => by cases hf) fun hf => by cases hf
  | notified qid rest hr =>
    exact h.frame (length_onLane ..) rfl rfl rfl rfl rfl id (by rw [hr]; rfl)
      (fun _ _ _ _ href => by cases href) fun _ hbetween => by simp [hr, betweenBatches] at hbetween
  | dropped found qid pkt rest hr hrun =>
    refine h.deal (by rw [hr]; rfl) rfl rfl rfl rfl rfl rfl rfl (fun len hf => ?_)
      fun hf => by cases hf
    rcases h.refused found qid pkt rest hr with rfl | hstop
    · exact (Fate.dropped.inj hf).symm
    · simp [hrun] at hstop
  | abandoned found qid pkt rest hr hrun =>
    exact h.deal (by rw [hr]; rfl) rfl rfl rfl rfl (UInt64.add_zero _).symm rfl rfl
      (fun _ hf => by cases hf) fun _ => ⟨hrun, rfl⟩
  | closing c c' s₁ hr hc =>
    obtain ⟨hlen, _, _, hrun, _⟩ := closingMoves_frame hc
    obtain ⟨hdealt, hrr, hreceived, hdropped, hcap⟩ : s₁.dealt = s.dealt ∧ s₁.rr = s.rr ∧
        s₁.receivedPacketNumFromSocket = s.receivedPacketNumFromSocket ∧
        s₁.droppedPackets = s.droppedPackets ∧ s₁.capacity = s.capacity := by
      cases hc <;> exact ⟨rfl, rfl, rfl, rfl, rfl⟩
    exact h.frame hlen hdealt hrr hreceived hdropped hcap hrun (by rw [hr]; rfl)
      (fun _ _ _ _ href => by cases href) fun _ _ => rfl
  | stopCall hp => exact h.of_receiver rfl rfl rfl rfl rfl rfl (fun _ => rfl) rfl
  | stopClosing c c' s₁ hp hc =>
    obtain ⟨hlen, hreceiver, _, hrun, _⟩ := closingMoves_frame hc
    obtain ⟨hdealt, hrr, hreceived, hdropped, hcap⟩ : s₁.dealt = s.dealt ∧ s₁.rr = s.rr ∧
        s₁.receivedPacketNumFromSocket = s.receivedPacketNumFromSocket ∧
        s₁.droppedPackets = s.droppedPackets ∧ s₁.capacity = s.capacity := by
      cases hc <;> exact ⟨rfl, rfl, rfl, rfl, rfl⟩
    exact h.of_receiver hlen hdealt hrr hreceived hdropped hcap hrun hreceiver
  | stopJoin hp => exact h.of_receiver rfl rfl rfl rfl rfl rfl id rfl
  | stopReturn hp hr => exact h.of_receiver rfl rfl rfl rfl rfl rfl id rfl

/-! ## Datagrams left behind -/

/-- What an exited worker has left in its queue. -/
def laneStranded (lane : Lane) : Nat :=
  if lane.phase = .exited then lane.queue.length else 0

def stranded (s : ReceiveQueues) : Nat :=
  (s.lanes.map laneStranded).sum

def isStoring : RunPhase → Bool
  | .storing _ _ _ => true
  | _ => false

/-- Only the one `tryPush` that had seen the flag before it was cleared can come too late. -/
structure StrandedOk (s : ReceiveQueues) : Prop where
  le_one : stranded s ≤ 1
  storing : isStoring s.receiver = true → stranded s = 0

theorem strandedOk_init (numWorkers queueCapacity : Nat) :
    StrandedOk (init numWorkers queueCapacity) := by
  have hnone : stranded (init numWorkers queueCapacity) = 0 := by
    simp [stranded, init, laneStranded]
  exact ⟨by omega, fun _ => hnone⟩

@[simp] theorem laneStranded_wake (lane : Lane) : laneStranded lane.wake = laneStranded lane := by
  unfold Lane.wake laneStranded
  cases hp : lane.phase <;> simp [hp]

@[simp] theorem laneStranded_notifyAll (lane : Lane) :
    laneStranded lane.notifyAll = laneStranded lane := by
  unfold Lane.notifyAll
  split
  · rfl
  · exact laneStranded_wake lane

/-- A worker exits in front of an empty queue. -/
theorem laneStranded_step {lane lane' : Lane} {running : Bool}
    (h : lane.step running = some lane') : laneStranded lane' = laneStranded lane := by
  obtain ⟨hp, rfl⟩ | ⟨draining, pkt, rest, hp, hq, rfl⟩ | ⟨draining, hp, hq, hrun, rfl⟩ |
    ⟨hp, hq, hrun, rfl⟩ | ⟨hp, hq, hrun, rfl⟩ | ⟨draining, hp, rfl⟩ | ⟨draining, pkt, hp, rfl⟩ :=
    lane_step_cases h
  · simp [laneStranded, hp]
  · simp [laneStranded, hp]
  · simp [laneStranded, hp]
  · simp [laneStranded, hp, hq]
  · simp [laneStranded, hp]
  · simp [laneStranded, hp]
  · cases draining <;> simp [laneStranded, hp]

theorem stranded_onLane {s : ReceiveQueues} {qid : Nat} {f : Lane → Lane}
    (hf : ∀ lane, s.lanes[qid]? = some lane → laneStranded (f lane) = laneStranded lane) :
    stranded (s.onLane qid f) = stranded s := by
  show ((s.lanes.modify qid f).map laneStranded).sum = _
  cases hlane : s.lanes[qid]? with
  | none => rw [List.modify_eq_self (List.getElem?_eq_none_iff.mp hlane)]; rfl
  | some lane =>
    have hsum := List.sum_map_modify laneStranded f hlane
    rw [hf lane hlane] at hsum
    exact Nat.add_right_cancel hsum

/-- While the flag is set no worker has exited. -/
theorem LanesOk.stranded_eq_zero {s : ReceiveQueues} (h : LanesOk s) (hrun : s.running = true) :
    stranded s = 0 := by
  refine List.sum_eq_zero_iff_forall_eq_nat.mpr fun n hn => ?_
  obtain ⟨lane, hmem, rfl⟩ := List.mem_map.mp hn
  obtain ⟨qid, hlane⟩ := List.mem_iff_getElem?.mp hmem
  refine if_neg fun hex => ?_
  have := (h qid lane hlane).stopped (by rw [hex]; rfl)
  simp [hrun] at this

theorem goto_storing {running : Bool} {r r' : RunPhase} (h : Goto running r r')
    (hst : isStoring r' = true) : running = true := by
  cases h with
  | seen qid pkt rest hrun => exact hrun
  | _ => cases hst

theorem strandedOk_step {s s' : ReceiveQueues} (hm : Moves s s') (hlanes : LanesOk s)
    (h : StrandedOk s) : StrandedOk s' := by
  cases hm with
  | goto r hr =>
    exact ⟨h.le_one, fun hst => hlanes.stranded_eq_zero (goto_storing hr hst)⟩
  | worker qid lane lane' hlane hstep =>
    have hsame : stranded (s.onLane qid fun _ => lane') = stranded s := by
      refine stranded_onLane fun old hold => ?_
      obtain rfl := Option.some.inj (hlane.symm.trans hold)
      exact laneStranded_step hstep
    exact ⟨hsame ▸ h.le_one, fun hst => hsame.trans (h.storing hst)⟩
  | spurious qid =>
    have hsame : stranded (s.onLane qid Lane.wake) = stranded s :=
      stranded_onLane fun lane _ => laneStranded_wake lane
    exact ⟨hsame ▸ h.le_one, fun hst => hsame.trans (h.storing hst)⟩
  | takeUp msg rest hr => exact ⟨h.le_one, fun hst => by cases hst⟩
  | full qid pkt rest lane hr => exact ⟨h.le_one, fun hst => by cases hst⟩
  | stored qid pkt rest lane hr hlane hlock hroom =>
    refine ⟨?_, fun hst => by cases hst⟩
    have hnone := h.storing (by rw [hr]; rfl)
    show ((s.lanes.modify qid _).map laneStranded).sum ≤ 1
    have hsum := List.sum_map_modify laneStranded
      (fun lane => { lane with queue := lane.queue ++ [pkt] }) hlane
    have hgrow : laneStranded { lane with queue := lane.queue ++ [pkt] } ≤
        laneStranded lane + 1 := by
      unfold laneStranded
      split <;> simp
    rw [show (s.lanes.map laneStranded).sum = 0 from hnone] at hsum
    omega
  | notified qid rest hr =>
    have hsame : stranded (s.onLane qid Lane.wake) = stranded s :=
      stranded_onLane fun lane _ => laneStranded_wake lane
    exact ⟨hsame ▸ h.le_one, fun hst => by cases hst⟩
  | dropped found qid pkt rest hr hrun => exact ⟨h.le_one, fun hst => by cases hst⟩
  | abandoned found qid pkt rest hr hrun => exact ⟨h.le_one, fun hst => by cases hst⟩
  | closing c c' s₁ hr hc =>
    have hsame : stranded s₁ = stranded s := by
      cases hc with
      | notify next => exact stranded_onLane fun lane _ => laneStranded_notifyAll lane
      | _ => rfl
    exact ⟨hsame ▸ h.le_one, fun hst => by cases hst⟩
  | stopCall hp => exact ⟨h.le_one, h.storing⟩
  | stopClosing c c' s₁ hp hc =>
    obtain ⟨_, hreceiver, _, _, _⟩ := closingMoves_frame hc
    have hsame : stranded s₁ = stranded s := by
      cases hc with
      | notify next => exact stranded_onLane fun lane _ => laneStranded_notifyAll lane
      | _ => rfl
    exact ⟨hsame ▸ h.le_one, fun hst => hsame.trans (h.storing (hreceiver ▸ hst))⟩
  | stopJoin hp => exact ⟨h.le_one, h.storing⟩
  | stopReturn hp hr => exact ⟨h.le_one, h.storing⟩

end Ndtwin.Spec

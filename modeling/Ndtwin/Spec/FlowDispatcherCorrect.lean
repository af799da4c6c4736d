import Mathlib.Algebra.Order.Ring.Int
import Mathlib.Data.List.Perm.Basic
import Ndtwin.ForStd.List
import Ndtwin.ForStd.Run
import Ndtwin.Kernel.FlowDispatcher

/-!
# Delivery by the flow dispatcher

For every switch, what was accepted is what was handed to the sender, followed by the
burst its worker is holding, followed by its queue. There is one worker per switch, an
exited worker has left nothing behind, and a sleeping worker with something to do has a
notification coming.

## Key results

- `inv_step`: every step keeps the invariant
- `work_lt`: every step of a worker, and every step of a call in progress, is progress
- `dispatcher_delivers`: order, batch sizes, drain on `stop`, and the count of drops
-/

namespace Ndtwin.Spec

open Kernel Kernel.DispatcherSystem GuardedRun

/-! ## The invariant -/

/-- The accepted jobs of a switch, in order. -/
def acceptedOf (s : DispatcherSystem) (dpid : UInt64) : List FlowJob :=
  s.accepted.filter (·.dpid = dpid)

/-- The batches handed to the sender for a switch, concatenated. -/
def sentOf (s : DispatcherSystem) (dpid : UInt64) : List FlowJob :=
  (s.batches.filter (·.1 = dpid)).flatMap Prod.snd

/-- The switches of the threads. -/
def threadDpids (s : DispatcherSystem) : List UInt64 := s.threads.map (·.dpid)

/-- The jobs a worker has taken and not handed on. -/
def burstOf : WorkerPhase → List FlowJob
  | .holding burst => burst
  | _ => []

/-- What holds of one worker thread. -/
structure WorkerOk (s : DispatcherSystem) (w : Worker) : Prop where
  conserve : acceptedOf s w.dpid = sentOf s w.dpid ++ burstOf w.phase ++ s.d.queue w.dpid
  holding : ∀ burst, w.phase = .holding burst →
    1 ≤ burst.length ∧ burst.length ≤ s.d.burstSize
  exited : w.phase = .exited →
    s.d.running = false ∧ s.startCalled = true ∧ s.d.queue w.dpid = []
  waiting : w.phase = .waiting → s.d.running = false ∨ s.d.queue w.dpid ≠ [] →
    0 < s.pendingNotify ∨ s.stopPhase = .notifying

/-- The thread at an index has exited. -/
def HasExited (s : DispatcherSystem) (i : Nat) : Prop :=
  ∃ w, s.threads[i]? = some w ∧ w.phase = .exited

/-- `workers_` and the threads: one thread per switch, and while the dispatcher runs every
    thread is registered under its switch. -/
structure Registered (running : Bool) (workers : AssocMap UInt64 Nat) (dpids : List UInt64) :
    Prop where
  nodup : dpids.Nodup
  lookup_of_running : running = true → ∀ i dpid, dpids[i]? = some dpid →
    workers.lookup dpid = some i
  thread_of_lookup : ∀ dpid i, workers.lookup dpid = some i → dpids[i]? = some dpid

structure DispatcherInv (s : DispatcherSystem) : Prop where
  workerOk : ∀ w ∈ s.threads, WorkerOk s w
  /-- A switch without a thread has nothing. -/
  idle : ∀ dpid, dpid ∉ threadDpids s →
    acceptedOf s dpid = [] ∧ sentOf s dpid = [] ∧ s.d.queue dpid = []
  registered : Registered s.d.running s.d.workers (threadDpids s)
  batchSize : ∀ b ∈ s.batches, 1 ≤ b.2.length ∧ b.2.length ≤ s.d.burstSize
  dropped : s.d.droppedAfterStop = UInt64.ofNat s.refused.length
  notStarted : s.startCalled = false →
    s.d.running = false ∧ s.threads = [] ∧ s.accepted = []
  runsUntilStop : s.stopPhase = .notCalled → s.startCalled = true → s.d.running = true
  /-- `stop` came after `start` and took every thread with it, or before it and took none. -/
  stopped : s.stopPhase ≠ .notCalled →
    (s.startCalled = true ∧ s.d.running = false ∧ s.accepted = s.acceptedBeforeStop ∧
      ∀ i, i < s.threads.length → i ∈ s.toJoin) ∨
    (s.acceptedBeforeStop = [] ∧ s.toJoin = [])
  toJoin_lt : ∀ i ∈ s.toJoin, i < s.threads.length
  joined : s.stopPhase = .returned → ∀ i ∈ s.toJoin, HasExited s i

theorem dispatcherInv_init (burstSize : Nat) : DispatcherInv (init burstSize) := by
  constructor <;> simp [init, acceptedOf, sentOf, threadDpids, FlowDispatcher.queue]
  constructor <;> simp

/-! ## Reading the state after a change -/

@[simp] theorem queue_insert (d : FlowDispatcher) (k k' : UInt64) (q : List FlowJob) :
    FlowDispatcher.queue { d with queues := d.queues.insert k q } k' =
      if k' = k then q else d.queue k' := by
  unfold FlowDispatcher.queue
  rw [AssocMap.lookup_insert_eq]
  split <;> rfl

/-- What one worker's invariant depends on. -/
theorem WorkerOk.congr {s s' : DispatcherSystem} {w : Worker} (h : WorkerOk s w)
    (hacc : acceptedOf s' w.dpid = acceptedOf s w.dpid)
    (hsent : sentOf s' w.dpid = sentOf s w.dpid)
    (hq : s'.d.queue w.dpid = s.d.queue w.dpid) (hb : s'.d.burstSize = s.d.burstSize)
    (hrun : s'.d.running = s.d.running) (hstart : s'.startCalled = s.startCalled)
    (hnote : 0 < s.pendingNotify ∨ s.stopPhase = .notifying →
      0 < s'.pendingNotify ∨ s'.stopPhase = .notifying) : WorkerOk s' w where
  conserve := by rw [hacc, hsent, hq]; exact h.conserve
  holding := by rw [hb]; exact h.holding
  exited := by rw [hrun, hstart, hq]; exact h.exited
  waiting := by
    rw [hrun, hq]
    intro hw hor
    exact hnote (h.waiting hw hor)

/-! ## One worker moves -/

/-- The system after a step of worker `i`: its phase, its queue and the batches. -/
def moved (s : DispatcherSystem) (i : Nat) (phase : WorkerPhase)
    (queues : AssocMap UInt64 (List FlowJob)) (batches : List (UInt64 × List FlowJob)) :
    DispatcherSystem :=
  { s.setPhase i phase with d := { s.d with queues := queues }, batches := batches }

/-- A worker's step only has to be checked for that worker. -/
theorem DispatcherInv.move {s : DispatcherSystem} (h : DispatcherInv s) {i : Nat} {w : Worker}
    (hw : s.threads[i]? = some w) (hlive : w.phase ≠ .exited) {phase : WorkerPhase}
    {queues : AssocMap UInt64 (List FlowJob)} {batches : List (UInt64 × List FlowJob)}
    (hq : ∀ d, d ≠ w.dpid → (moved s i phase queues batches).d.queue d = s.d.queue d)
    (hsent : ∀ d, d ≠ w.dpid → sentOf (moved s i phase queues batches) d = sentOf s d)
    (hbatch : ∀ b ∈ batches, 1 ≤ b.2.length ∧ b.2.length ≤ s.d.burstSize)
    (hok : WorkerOk (moved s i phase queues batches) { w with phase := phase }) :
    DispatcherInv (moved s i phase queues batches) := by
  obtain ⟨l₁, l₂, hl, hmod⟩ := List.exists_split_of_getElem? hw
  have hthreads : (moved s i phase queues batches).threads =
      l₁ ++ { w with phase := phase } :: l₂ := hmod _
  have hdpids : threadDpids (moved s i phase queues batches) = threadDpids s := by
    rw [threadDpids, threadDpids, hthreads, hl]
    simp
  have hlen : (moved s i phase queues batches).threads.length = s.threads.length := by
    rw [hthreads, hl]
    simp
  have hmem : w.dpid ∈ threadDpids s := by
    rw [threadDpids, hl]
    simp
  have hnodup := h.registered.nodup
  rw [threadDpids, hl, List.map_append, List.map_cons, List.nodup_middle, List.nodup_cons] at hnodup
  refine
    { workerOk := ?_
      idle := ?_
      registered := hdpids ▸ h.registered
      batchSize := hbatch
      dropped := h.dropped
      notStarted := ?_
      runsUntilStop := h.runsUntilStop
      stopped := fun hstop => by rw [hlen]; exact h.stopped hstop
      toJoin_lt := fun j hj => by rw [hlen]; exact h.toJoin_lt j hj
      joined := ?_ }
  · intro w' hw'
    rw [hthreads, List.mem_append, List.mem_cons] at hw'
    -- every other worker is of another switch
    have hother : w' ∈ l₁ ++ l₂ → WorkerOk (moved s i phase queues batches) w' := by
      intro hin
      have hne : w'.dpid ≠ w.dpid := by
        intro heq
        exact hnodup.1 (heq ▸ List.map_append ▸ List.mem_map_of_mem hin)
      have hold : WorkerOk s w' := h.workerOk w' (by
        rw [hl]
        simp only [List.mem_append, List.mem_cons] at hin ⊢
        exact hin.elim .inl fun h => .inr (.inr h))
      exact hold.congr rfl (hsent _ hne) (hq _ hne) rfl rfl rfl id
    rcases hw' with hin | rfl | hin
    · exact hother (List.mem_append_left _ hin)
    · exact hok
    · exact hother (List.mem_append_right _ hin)
  · intro d hd
    rw [hdpids] at hd
    have hne : d ≠ w.dpid := fun heq => hd (heq ▸ hmem)
    rw [hq d hne, hsent d hne]
    exact h.idle d hd
  · intro hstart
    have hempty := (h.notStarted hstart).2.1
    rw [hempty] at hw
    cases hw
  · intro hret j hj
    obtain ⟨w', hw', hex⟩ := h.joined hret j hj
    have hji : j ≠ i := by
      rintro rfl
      rw [hw] at hw'
      exact hlive (Option.some.inj hw' ▸ hex)
    refine ⟨w', ?_, hex⟩
    show (s.threads.modify i _)[j]? = some w'
    rw [List.getElem?_modify, hw']
    simp [Ne.symm hji]

/-- A worker that neither takes nor hands on a burst. -/
theorem DispatcherInv.move_phase {s : DispatcherSystem} (h : DispatcherInv s) {i : Nat}
    {w : Worker} (hw : s.threads[i]? = some w) (hlive : w.phase ≠ .exited) {phase : WorkerPhase}
    (hold : burstOf w.phase = []) (hnew : ∀ burst, phase ≠ .holding burst)
    (hexit : phase = .exited →
      s.d.running = false ∧ s.startCalled = true ∧ s.d.queue w.dpid = [])
    (hwait : phase = .waiting → ¬ (s.d.running = false ∨ s.d.queue w.dpid ≠ [])) :
    DispatcherInv (s.setPhase i phase) := by
  have hwok := h.workerOk w (List.mem_of_getElem? hw)
  have hburst : burstOf phase = [] := by
    cases phase with
    | holding burst => exact absurd rfl (hnew burst)
    | checking => rfl
    | waiting => rfl
    | sending => rfl
    | exited => rfl
  have hok : WorkerOk (moved s i phase s.d.queues s.batches) { w with phase := phase } :=
    { conserve := by
        have hc := hwok.conserve
        rw [hold] at hc
        show acceptedOf s w.dpid = sentOf s w.dpid ++ burstOf phase ++ s.d.queue w.dpid
        rw [hburst]
        exact hc
      holding := fun burst hb => absurd hb (hnew burst)
      exited := hexit
      waiting := fun hp hor => absurd hor (hwait hp) }
  exact h.move hw hlive (fun _ _ => rfl) (fun _ _ => rfl) h.batchSize hok

/-- A worker with a positive burst size that takes a burst from a non-empty queue. -/
theorem DispatcherInv.move_take {s : DispatcherSystem} (h : DispatcherInv s)
    (hb : 0 < s.d.burstSize) {i : Nat} {w : Worker} (hw : s.threads[i]? = some w)
    (hphase : w.phase = .checking) (hq : s.d.queue w.dpid ≠ []) :
    DispatcherInv (moved s i (.holding ((s.d.queue w.dpid).take s.d.burstSize))
      (s.d.queues.insert w.dpid ((s.d.queue w.dpid).drop s.d.burstSize)) s.batches) := by
  have hwok := h.workerOk w (List.mem_of_getElem? hw)
  refine h.move hw (by simp [hphase]) (fun d hd => ?_) (fun _ _ => rfl) h.batchSize ?_
  · show FlowDispatcher.queue _ d = _
    rw [moved, queue_insert, if_neg hd]
  · refine ⟨?_, ?_, (nomatch ·), (nomatch ·)⟩
    · have hc := hwok.conserve
      rw [hphase] at hc
      show acceptedOf s w.dpid = sentOf s w.dpid ++ (s.d.queue w.dpid).take s.d.burstSize ++
        FlowDispatcher.queue _ w.dpid
      rw [moved, queue_insert, if_pos rfl, List.append_assoc, List.take_append_drop, hc]
      simp [burstOf]
    · intro burst hburst
      obtain rfl := WorkerPhase.holding.inj hburst
      have hpos := List.length_pos_iff.mpr hq
      rw [List.length_take]
      show 1 ≤ _ ∧ _ ≤ s.d.burstSize
      omega

/-- A worker that hands its burst to the sender. -/
theorem DispatcherInv.move_send {s : DispatcherSystem} (h : DispatcherInv s) {i : Nat} {w : Worker}
    (hw : s.threads[i]? = some w) {burst : List FlowJob} (hphase : w.phase = .holding burst) :
    DispatcherInv (moved s i .sending s.d.queues (s.batches ++ [(w.dpid, burst)])) := by
  have hwok := h.workerOk w (List.mem_of_getElem? hw)
  refine h.move hw (by simp [hphase]) (fun _ _ => rfl) (fun d hd => ?_) ?_ ?_
  · simp [moved, sentOf, List.filter_append, Ne.symm hd]
  · intro b hb
    rcases List.mem_append.mp hb with hb | hb
    · exact h.batchSize b hb
    · obtain rfl := List.mem_singleton.mp hb
      exact hwok.holding burst hphase
  · refine ⟨?_, fun b hb => (nomatch hb), (nomatch ·), (nomatch ·)⟩
    have hc := hwok.conserve
    rw [hphase] at hc
    show acceptedOf s w.dpid = sentOf _ w.dpid ++ [] ++ s.d.queue w.dpid
    rw [hc]
    simp [moved, sentOf, List.filter_append, burstOf]

/-! ## A notification -/

@[simp] theorem wake_dpid (w : Worker) : (Worker.wake w).dpid = w.dpid := by
  unfold Worker.wake
  split <;> rfl

theorem wake_phase (w : Worker) :
    (w.phase = .waiting ∧ (Worker.wake w).phase = .checking) ∨
    (w.phase ≠ .waiting ∧ Worker.wake w = w) := by
  unfold Worker.wake
  split
  · next h => exact .inl ⟨h, rfl⟩
  · next h => exact .inr ⟨h, rfl⟩

/-- A woken worker needs no further notification. -/
theorem WorkerOk.wake {s s' : DispatcherSystem} {w : Worker} (h : WorkerOk s w)
    (hacc : s'.accepted = s.accepted) (hsent : s'.batches = s.batches) (hd : s'.d = s.d)
    (hstart : s'.startCalled = s.startCalled) : WorkerOk s' (Worker.wake w) := by
  rcases wake_phase w with ⟨hw, hwoken⟩ | ⟨hw, hsame⟩
  · refine ⟨?_, ?_, ?_, ?_⟩
    · have hc := h.conserve
      rw [hw] at hc
      rw [wake_dpid, hwoken, acceptedOf, sentOf, hacc, hsent, hd]
      exact hc
    · intro b hb
      rw [hwoken] at hb
      exact nomatch hb
    · intro hb
      rw [hwoken] at hb
      exact nomatch hb
    · intro hb
      rw [hwoken] at hb
      exact nomatch hb
  · rw [hsame]
    refine ⟨?_, ?_, ?_, fun hwait => absurd hwait hw⟩
    · rw [acceptedOf, sentOf, hacc, hsent, hd]
      exact h.conserve
    · rw [hd]
      exact h.holding
    · rw [hd, hstart]
      exact h.exited

/-- `notify_all`, of a producer or of `stop`. -/
theorem DispatcherInv.wakeAll {s : DispatcherSystem} (h : DispatcherInv s) (n : Nat)
    (phase : StopPhase) (hnot : phase = .notCalled → s.stopPhase = .notCalled)
    (hcalled : phase ≠ .notCalled → s.stopPhase ≠ .notCalled)
    (hret : phase = .returned → s.stopPhase = .returned) :
    DispatcherInv { s.wakeAll with pendingNotify := n, stopPhase := phase } := by
  have hdpids : threadDpids { s.wakeAll with pendingNotify := n, stopPhase := phase } =
      threadDpids s := by
    simp only [threadDpids, DispatcherSystem.wakeAll, List.map_map]
    exact List.map_congr_left fun w _ => wake_dpid w
  have hlen : s.wakeAll.threads.length = s.threads.length := List.length_map _
  refine
    { workerOk := ?_
      idle := fun d hd => h.idle d (hdpids ▸ hd)
      registered := hdpids ▸ h.registered
      batchSize := h.batchSize
      dropped := h.dropped
      notStarted := ?_
      runsUntilStop := fun hp => h.runsUntilStop (hnot hp)
      stopped := fun hstop => by
        show _ ∨ _
        rw [hlen]
        exact h.stopped (hcalled hstop)
      toJoin_lt := fun j hj => by
        show j < s.wakeAll.threads.length
        rw [hlen]
        exact h.toJoin_lt j hj
      joined := ?_ }
  · intro w' hw'
    obtain ⟨w, hw, rfl⟩ := List.mem_map.mp hw'
    exact (h.workerOk w hw).wake rfl rfl rfl rfl
  · intro hstart
    obtain ⟨hrun, hempty, hacc⟩ := h.notStarted hstart
    exact ⟨hrun, by simp [DispatcherSystem.wakeAll, hempty], hacc⟩
  · intro hp j hj
    obtain ⟨w, hw, hex⟩ := h.joined (hret hp) j hj
    refine ⟨w, ?_, hex⟩
    show (s.threads.map Worker.wake)[j]? = some w
    -- a worker that has exited is not waiting, so the notification passes it by
    rcases wake_phase w with ⟨hwait, _⟩ | ⟨_, hsame⟩
    · rw [hex] at hwait
      exact nomatch hwait
    · rw [List.getElem?_map, hw, Option.map_some, hsame]

/-! ## Accepting and refusing jobs -/

theorem acceptedOf_append (s : DispatcherSystem) (job : FlowJob) (d : UInt64) :
    acceptedOf { s with accepted := s.accepted ++ [job] } d =
      acceptedOf s d ++ if d = job.dpid then [job] else [] := by
  simp only [acceptedOf, List.filter_append]
  by_cases hd : job.dpid = d
  · simp [hd]
  · simp [hd, Ne.symm hd]

/-- A worker of a running dispatcher while a job is pushed and its producer is yet to
    notify. -/
theorem WorkerOk.accept {s s' : DispatcherSystem} {w : Worker} {job : FlowJob}
    (h : WorkerOk s w) (hrun : s.d.running = true) (hnote : 0 < s'.pendingNotify)
    (hacc : s'.accepted = s.accepted ++ [job]) (hsent : s'.batches = s.batches)
    (hq : ∀ d, s'.d.queue d = if d = job.dpid then s.d.queue d ++ [job] else s.d.queue d)
    (hb : s'.d.burstSize = s.d.burstSize) : WorkerOk s' w where
  conserve := by
    have hacc' : acceptedOf s' w.dpid =
        acceptedOf s w.dpid ++ if w.dpid = job.dpid then [job] else [] := by
      rw [← acceptedOf_append, acceptedOf, acceptedOf, hacc]
    have hsent' : sentOf s' w.dpid = sentOf s w.dpid := by rw [sentOf, sentOf, hsent]
    rw [hacc', hsent', hq, h.conserve]
    split <;> simp
  holding := by rw [hb]; exact h.holding
  exited := by
    intro hex
    exact absurd (h.exited hex).1 (by simp [hrun])
  waiting := fun _ _ => .inl hnote

/-- A running dispatcher has not been stopped, or was stopped before it was started. -/
theorem DispatcherInv.toJoin_of_running {s : DispatcherSystem} (h : DispatcherInv s)
    (hrun : s.d.running = true) (hstop : s.stopPhase ≠ .notCalled) :
    s.acceptedBeforeStop = [] ∧ s.toJoin = [] := by
  rcases h.stopped hstop with ⟨_, hrun', _⟩ | hnone
  · rw [hrun] at hrun'
    exact nomatch hrun'
  · exact hnone

/-- A new thread is registered under its index. -/
theorem Registered.spawn {workers : AssocMap UInt64 Nat} {dpids : List UInt64}
    (h : Registered true workers dpids) {dpid : UInt64} (hnew : dpid ∉ dpids) :
    Registered true (workers.insert dpid dpids.length) (dpids ++ [dpid]) := by
  have hlast : (dpids ++ [dpid])[dpids.length]? = some dpid := by simp
  refine ⟨?_, fun _ i d hd => ?_, fun d i hd => ?_⟩
  · rw [List.nodup_append]
    refine ⟨h.nodup, List.nodup_singleton _, ?_⟩
    intro a ha b hb heq
    rw [List.mem_singleton.mp hb] at heq
    exact hnew (heq ▸ ha)
  · rw [AssocMap.lookup_insert_eq]
    -- The threads before, the new one, and none behind it.
    rcases Nat.lt_trichotomy i dpids.length with hi | hi | hi
    · rw [List.getElem?_append_left hi] at hd
      have hne : d ≠ dpid := fun heq => hnew (heq ▸ List.mem_of_getElem? hd)
      rw [if_neg hne]
      exact h.lookup_of_running rfl i d hd
    · subst hi
      rw [hlast] at hd
      rw [if_pos (Option.some.inj hd).symm]
    · rw [List.getElem?_eq_none (by simp; omega)] at hd
      cases hd
  · rw [AssocMap.lookup_insert_eq] at hd
    split at hd
    · next heq =>
      rw [← Option.some.inj hd, heq]
      exact hlast
    · have hold := h.thread_of_lookup d i hd
      rw [List.getElem?_append_left (List.getElem?_eq_some_iff.mp hold).1]
      exact hold

/-- A job is pushed, with or without a new thread for its switch. -/
theorem DispatcherInv.push {s : DispatcherSystem} (h : DispatcherInv s)
    (hrun : s.d.running = true) (hnote : 0 < s.pendingNotify) (job : FlowJob)
    (workers : AssocMap UInt64 Nat) (new : List Worker)
    (hreg : Registered s.d.running workers (threadDpids s ++ new.map (·.dpid)))
    (hmem : job.dpid ∈ threadDpids s ++ new.map (·.dpid))
    (hnew : ∀ w ∈ new, w = { dpid := job.dpid, phase := .checking } ∧
      job.dpid ∉ threadDpids s) :
    DispatcherInv { s with
      d := { s.d with
        queues := s.d.queues.insert job.dpid (s.d.queue job.dpid ++ [job])
        workers := workers }
      threads := s.threads ++ new
      accepted := s.accepted ++ [job] } := by
  generalize hs' : ({ s with
      d := { s.d with
        queues := s.d.queues.insert job.dpid (s.d.queue job.dpid ++ [job])
        workers := workers }
      threads := s.threads ++ new
      accepted := s.accepted ++ [job] } : DispatcherSystem) = s'
  have hq : ∀ d, s'.d.queue d = if d = job.dpid then s.d.queue d ++ [job] else s.d.queue d := by
    intro d
    subst hs'
    refine (queue_insert s.d job.dpid d _).trans ?_
    split
    · next heq => rw [heq]
    · rfl
  have hacc : ∀ d, acceptedOf s' d = acceptedOf s d ++ if d = job.dpid then [job] else [] := by
    intro d
    subst hs'
    exact acceptedOf_append s job d
  have hsent : ∀ d, sentOf s' d = sentOf s d := by
    intro d
    subst hs'
    rfl
  have hdpids : threadDpids s' = threadDpids s ++ new.map (·.dpid) := by
    subst hs'
    exact List.map_append
  subst hs'
  refine
    { workerOk := fun w hw => ?_
      idle := fun d hd => ?_
      registered := hdpids ▸ hreg
      batchSize := h.batchSize
      dropped := h.dropped
      notStarted := fun hfalse => ?_
      runsUntilStop := h.runsUntilStop
      stopped := fun hstop => .inr (h.toJoin_of_running hrun hstop)
      toJoin_lt := fun i hi => ?_
      joined := fun hret i hi => ?_ }
  · rcases List.mem_append.mp hw with hw | hw
    · exact (h.workerOk w hw).accept hrun hnote rfl rfl hq rfl
    · -- the new worker: its switch had nothing before this job
      obtain ⟨rfl, hnot⟩ := hnew w hw
      obtain ⟨hacc0, hsent0, hqueue0⟩ := h.idle _ hnot
      refine ⟨?_, fun b hb => (nomatch hb), (nomatch ·), (nomatch ·)⟩
      rw [hacc, hsent, hq, if_pos rfl, if_pos rfl, hacc0, hsent0, hqueue0]
      rfl
  · rw [hdpids] at hd
    -- a switch that still has no worker got no job
    have hne : d ≠ job.dpid := fun heq => hd (heq ▸ hmem)
    obtain ⟨hacc0, hsent0, hqueue0⟩ := h.idle d fun hin => hd (List.mem_append_left _ hin)
    rw [hacc, hsent, hq, if_neg hne, if_neg hne, hacc0, hsent0, hqueue0]
    exact ⟨rfl, rfl, rfl⟩
  · have hstill := (h.notStarted hfalse).1
    rw [hrun] at hstill
    exact nomatch hstill
  · have hlt := h.toJoin_lt i hi
    show i < (s.threads ++ new).length
    rw [List.length_append]
    omega
  · obtain ⟨w, hw, hex⟩ := h.joined hret i hi
    refine ⟨w, ?_, hex⟩
    show (s.threads ++ new)[i]? = some w
    rw [List.getElem?_append_left (List.getElem?_eq_some_iff.mp hw).1]
    exact hw

/-- One iteration of the `enqueue` loop. -/
theorem DispatcherInv.acceptJob {s : DispatcherSystem} (h : DispatcherInv s)
    (hrun : s.d.running = true) (hnote : 0 < s.pendingNotify) (job : FlowJob) :
    DispatcherInv (s.acceptJob job) := by
  unfold DispatcherSystem.acceptJob
  cases hlook : s.d.workers.lookup job.dpid with
  | some i =>
    have hmem := List.mem_of_getElem? (h.registered.thread_of_lookup _ i hlook)
    have hpush := h.push hrun hnote job s.d.workers []
      (by rw [List.map_nil, List.append_nil]; exact h.registered)
      (List.mem_append_left _ hmem) (fun w hw => nomatch hw)
    rw [List.append_nil] at hpush
    exact hpush
  | none =>
    have hnot : job.dpid ∉ threadDpids s := by
      intro hmem
      obtain ⟨i, hi⟩ := List.mem_iff_getElem?.mp hmem
      rw [h.registered.lookup_of_running hrun i _ hi] at hlook
      exact nomatch hlook
    have hreg := h.registered
    rw [hrun] at hreg
    have hlen : (threadDpids s).length = s.threads.length := List.length_map _
    refine h.push hrun hnote job _ [{ dpid := job.dpid, phase := .checking }] ?_ (by simp) ?_
    · rw [hrun, ← hlen]
      exact hreg.spawn hnot
    · intro w hw
      exact ⟨List.mem_singleton.mp hw, hnot⟩

/-- What a push leaves alone. -/
theorem acceptJob_frame (s : DispatcherSystem) (job : FlowJob) :
    (s.acceptJob job).d.running = s.d.running ∧
    (s.acceptJob job).pendingNotify = s.pendingNotify ∧
    (s.acceptJob job).d.burstSize = s.d.burstSize ∧
    (s.acceptJob job).refused = s.refused ∧
    (s.acceptJob job).accepted = s.accepted ++ [job] := by
  unfold DispatcherSystem.acceptJob
  dsimp only
  split <;> exact ⟨rfl, rfl, rfl, rfl, rfl⟩

theorem DispatcherInv.acceptJobs {s : DispatcherSystem} (h : DispatcherInv s)
    (hrun : s.d.running = true) (hnote : 0 < s.pendingNotify) (jobs : List FlowJob) :
    DispatcherInv (jobs.foldl DispatcherSystem.acceptJob s) := by
  induction jobs generalizing s with
  | nil => exact h
  | cons job jobs ih =>
    obtain ⟨hrun', hnote', _⟩ := acceptJob_frame s job
    exact ih (h.acceptJob hrun hnote job) (hrun'.trans hrun) (by omega)

/-- A producer that has yet to notify is one more notification to come. -/
theorem DispatcherInv.pending {s : DispatcherSystem} (h : DispatcherInv s) :
    DispatcherInv { s with pendingNotify := s.pendingNotify + 1 } :=
  { h with
    workerOk := fun w hw =>
      (h.workerOk w hw).congr rfl rfl rfl rfl rfl rfl fun _ => .inl (Nat.succ_pos _) }

/-- Both overloads of `enqueue`. -/
theorem DispatcherInv.enqueueJobs {s : DispatcherSystem} (h : DispatcherInv s)
    (jobs : List FlowJob) : DispatcherInv (s.enqueueJobs jobs) := by
  unfold DispatcherSystem.enqueueJobs
  split
  · next hrun => exact h.pending.acceptJobs hrun (Nat.succ_pos _) jobs
  · refine { h with
      workerOk := fun w hw => (h.workerOk w hw).congr rfl rfl rfl rfl rfl rfl id
      dropped := ?_ }
    show s.d.droppedAfterStop + UInt64.ofNat jobs.length = UInt64.ofNat (s.refused ++ jobs).length
    rw [h.dropped, List.length_append, UInt64.ofNat_add]

/-! ## Starting and stopping -/

theorem DispatcherInv.start {s : DispatcherSystem} (h : DispatcherInv s)
    (hnot : s.startCalled = false) :
    DispatcherInv { s with d := { s.d with running := true }, startCalled := true } := by
  -- before `start` there is no thread and nothing has been accepted
  obtain ⟨_, hempty, _⟩ := h.notStarted hnot
  refine
    { h with
      workerOk := fun w hw => ?_
      registered := ⟨h.registered.nodup, fun _ i d hd => ?_, h.registered.thread_of_lookup⟩
      notStarted := (nomatch ·)
      runsUntilStop := fun _ _ => rfl
      stopped := fun hstop => ?_ }
  · rw [show ({ s with d := { s.d with running := true }, startCalled := true } :
      DispatcherSystem).threads = [] from hempty] at hw
    exact nomatch hw
  · rw [threadDpids, show ({ s with d := { s.d with running := true }, startCalled := true } :
      DispatcherSystem).threads = [] from hempty] at hd
    exact nomatch hd
  · rcases h.stopped hstop with ⟨hstart, _⟩ | hnone
    · rw [hnot] at hstart
      exact nomatch hstart
    · exact .inr hnone

theorem DispatcherInv.stopCall {s : DispatcherSystem} (h : DispatcherInv s)
    (hphase : s.stopPhase = .notCalled) :
    DispatcherInv { s with
      d := { s.d with running := false, workers := ∅ }
      toJoin := s.d.workers.toPairs.map Prod.snd
      acceptedBeforeStop := s.accepted
      stopPhase := .notifying } := by
  have hmem : ∀ i, i ∈ s.d.workers.toPairs.map Prod.snd ↔
      ∃ d, s.d.workers.lookup d = some i := by
    intro i
    rw [List.mem_map]
    constructor
    · rintro ⟨⟨d, i'⟩, hmem, rfl⟩
      exact ⟨d, AssocMap.mem_toPairs.mp hmem⟩
    · rintro ⟨d, hd⟩
      exact ⟨(d, i), AssocMap.mem_toPairs.mpr hd, rfl⟩
  refine
    { idle := h.idle
      workerOk := fun w hw => ?_
      registered := ⟨h.registered.nodup, (nomatch ·), fun d i hd => (nomatch hd)⟩
      batchSize := h.batchSize
      dropped := h.dropped
      notStarted := fun hs => ⟨rfl, (h.notStarted hs).2⟩
      runsUntilStop := (nomatch ·)
      stopped := fun _ => ?_
      toJoin_lt := fun i hi => ?_
      joined := (nomatch ·) }
  · have hok := h.workerOk w hw
    exact ⟨hok.conserve, hok.holding, fun hex => ⟨rfl, (hok.exited hex).2⟩, fun _ _ => .inr rfl⟩
  · cases hstart : s.startCalled with
    -- nothing was ever started, so there is nothing to join
    | false =>
      obtain ⟨_, hempty, hacc⟩ := h.notStarted hstart
      refine .inr ⟨hacc, List.eq_nil_iff_forall_not_mem.mpr fun i hi => ?_⟩
      obtain ⟨d, hd⟩ := (hmem i).mp hi
      have hthread := h.registered.thread_of_lookup d i hd
      rw [threadDpids, hempty] at hthread
      exact nomatch hthread
    | true =>
      -- while the dispatcher runs, every thread is in the map that stop takes over
      have hrun := h.runsUntilStop hphase hstart
      refine .inl ⟨rfl, rfl, rfl, fun i hi => (hmem i).mpr ?_⟩
      have hi' : (threadDpids s)[i]? = some (s.threads.get ⟨i, hi⟩).dpid := by
        rw [threadDpids, List.getElem?_map, List.getElem?_eq_getElem hi]
        rfl
      exact ⟨_, h.registered.lookup_of_running hrun i _ hi'⟩
  · obtain ⟨d, hd⟩ := (hmem i).mp hi
    have hthread := (List.getElem?_eq_some_iff.mp (h.registered.thread_of_lookup d i hd)).1
    rw [threadDpids, List.length_map] at hthread
    exact hthread

/-! ## Every step -/

/-- What a worker that holds the lock does: wait, exit, or take a burst. -/
theorem checkWorker_cases (s : DispatcherSystem) (hb : 0 < s.d.burstSize) (i : Nat)
    (dpid : UInt64) :
    (s.d.running = true ∧ s.d.queue dpid = [] ∧
      s.checkWorker i dpid = s.setPhase i .waiting) ∨
    (s.d.running = false ∧ s.d.queue dpid = [] ∧
      s.checkWorker i dpid = s.setPhase i .exited) ∨
    (s.d.queue dpid ≠ [] ∧ s.checkWorker i dpid =
      moved s i (.holding ((s.d.queue dpid).take s.d.burstSize))
        (s.d.queues.insert dpid ((s.d.queue dpid).drop s.d.burstSize)) s.batches) := by
  unfold DispatcherSystem.checkWorker
  cases hq : s.d.queue dpid with
  | nil =>
    cases hrun : s.d.running with
    | true => exact .inl ⟨rfl, rfl, by simp⟩
    | false => exact .inr (.inl ⟨rfl, rfl, by simp⟩)
  | cons job jobs =>
    have htake : ((job :: jobs).take s.d.burstSize).isEmpty = false := by
      cases hsize : s.d.burstSize with
      | zero => omega
      | succ n => rfl
    refine .inr (.inr ⟨List.cons_ne_nil _ _, ?_⟩)
    simp [htake, moved, setPhase]

/-- The thread an event is about is in the phase the event needs. -/
theorem step_worker_cases {s s' : DispatcherSystem} {i : Nat} :
    (s.step (.spuriousWake i) = some s' → ∃ w, s.threads[i]? = some w ∧ w.phase = .waiting ∧
      s' = s.setPhase i .checking) ∧
    (s.step (.check i) = some s' → ∃ w, s.threads[i]? = some w ∧ w.phase = .checking ∧
      s' = s.checkWorker i w.dpid) ∧
    (s.step (.send i) = some s' → ∃ w burst, s.threads[i]? = some w ∧
      w.phase = .holding burst ∧
      s' = moved s i .sending s.d.queues (s.batches ++ [(w.dpid, burst)])) ∧
    (s.step (.sent i) = some s' → ∃ w, s.threads[i]? = some w ∧ w.phase = .sending ∧
      s' = s.setPhase i .checking) := by
  refine ⟨fun h => ?_, fun h => ?_, fun h => ?_, fun h => ?_⟩
  all_goals
    simp only [step] at h
    split at h
  · next hw => exact ⟨_, hw, rfl, (Option.some.inj h).symm⟩
  · exact nomatch h
  · next hw => exact ⟨_, hw, rfl, (Option.some.inj h).symm⟩
  · exact nomatch h
  · next hw => exact ⟨_, _, hw, rfl, (Option.some.inj h).symm⟩
  · exact nomatch h
  · next hw => exact ⟨_, hw, rfl, (Option.some.inj h).symm⟩
  · exact nomatch h

/-- The steps of calls in progress. -/
theorem step_call_cases {s s' : DispatcherSystem} :
    (s.step .notify = some s' → s.pendingNotify ≠ 0 ∧
      s' = { s.wakeAll with pendingNotify := s.pendingNotify - 1 }) ∧
    (s.step .stopNotify = some s' → s.stopPhase = .notifying ∧
      s' = { s.wakeAll with stopPhase := .joining }) ∧
    (s.step .stopReturn = some s' → s.stopPhase = .joining ∧ (∀ i ∈ s.toJoin, HasExited s i) ∧
      s' = { s with stopPhase := .returned }) := by
  refine ⟨fun h => ?_, fun h => ?_, fun h => ?_⟩
  all_goals
    simp only [step] at h
    split at h
  · exact nomatch h
  · next hn => exact ⟨hn, (Option.some.inj h).symm⟩
  · next hp => exact ⟨hp, (Option.some.inj h).symm⟩
  · exact nomatch h
  · next hp =>
    refine ⟨hp.1, fun i hi => ?_, (Option.some.inj h).symm⟩
    have hall := List.all_eq_true.mp hp.2 i hi
    split at hall
    · next hw => exact ⟨_, hw, rfl⟩
    · exact nomatch hall
  · exact nomatch h

/-- The jobs an event submits. -/
def submittedBy : Event → List FlowJob
  | .enqueue job => [job]
  | .enqueueBulk jobs => jobs
  | _ => []

/-- Only `enqueue` accepts or refuses anything. -/
theorem step_frame {s s' : DispatcherSystem} {e : Event} (h : s.step e = some s') :
    s' = s.enqueueJobs (submittedBy e) ∨
    (submittedBy e = [] ∧ s'.d.burstSize = s.d.burstSize ∧ s'.accepted = s.accepted ∧
      s'.refused = s.refused) := by
  cases e with
  | enqueue job => exact .inl (Option.some.inj h).symm
  | enqueueBulk jobs => exact .inl (Option.some.inj h).symm
  | check i =>
    obtain ⟨w, _, _, rfl⟩ := step_worker_cases.2.1 h
    unfold checkWorker
    dsimp only
    split
    · exact .inr ⟨rfl, rfl, rfl, rfl⟩
    · split
      · exact .inr ⟨rfl, rfl, rfl, rfl⟩
      · split <;> exact .inr ⟨rfl, rfl, rfl, rfl⟩
  | _ =>
    simp only [step] at h
    split at h
    all_goals first
      | exact Option.some.inj h ▸ .inr ⟨rfl, rfl, rfl, rfl⟩
      | exact nomatch h

/-- A loop over the jobs accepts them in order. -/
theorem acceptJobs_frame (jobs : List FlowJob) (s : DispatcherSystem) :
    (jobs.foldl DispatcherSystem.acceptJob s).d.burstSize = s.d.burstSize ∧
    (jobs.foldl DispatcherSystem.acceptJob s).accepted = s.accepted ++ jobs ∧
    (jobs.foldl DispatcherSystem.acceptJob s).refused = s.refused := by
  induction jobs generalizing s with
  | nil => exact ⟨rfl, (List.append_nil _).symm, rfl⟩
  | cons job jobs ih =>
    obtain ⟨_, _, hsize, href, hacc⟩ := acceptJob_frame s job
    obtain ⟨ih₁, ih₂, ih₃⟩ := ih (s.acceptJob job)
    rw [List.foldl_cons]
    refine ⟨ih₁.trans hsize, ?_, ih₃.trans href⟩
    rw [ih₂, hacc, List.append_assoc, List.singleton_append]

/-- The burst size is a constant of the dispatcher. -/
theorem step_burstSize {s s' : DispatcherSystem} {e : Event} (h : s.step e = some s') :
    s'.d.burstSize = s.d.burstSize := by
  rcases step_frame h with rfl | ⟨_, hsize, _⟩
  · unfold enqueueJobs
    split
    · exact (acceptJobs_frame _ _).1
    · rfl
  · exact hsize

/-- A submitted job is accepted or refused, once. -/
theorem step_accounts {s s' : DispatcherSystem} {e : Event} (h : s.step e = some s') :
    (s'.accepted ++ s'.refused).Perm (s.accepted ++ s.refused ++ submittedBy e) := by
  rcases step_frame h with rfl | ⟨hnone, _, hacc, href⟩
  · unfold enqueueJobs
    split
    · obtain ⟨_, hacc, href⟩ := acceptJobs_frame (submittedBy e)
        { s with pendingNotify := s.pendingNotify + 1 }
      rw [hacc, href, List.append_assoc, List.append_assoc]
      exact List.perm_append_comm.append_left _
    · rw [noteDropped, List.append_assoc]
  · rw [hnone, hacc, href, List.append_nil]

/-- Every step keeps the invariant. -/
theorem inv_step {s s' : DispatcherSystem} {e : Event} (hb : 0 < s.d.burstSize)
    (h : s.step e = some s') (hinv : DispatcherInv s) : DispatcherInv s' := by
  cases e with
  | start =>
    simp only [step] at h
    split at h
    · exact nomatch h
    · next hnot =>
      obtain rfl := Option.some.inj h
      exact hinv.start (Bool.eq_false_iff.mpr hnot)
  | enqueue job => exact Option.some.inj h ▸ hinv.enqueueJobs [job]
  | enqueueBulk jobs => exact Option.some.inj h ▸ hinv.enqueueJobs jobs
  | notify =>
    obtain ⟨_, rfl⟩ := step_call_cases.1 h
    exact hinv.wakeAll (s.pendingNotify - 1) s.stopPhase id id id
  | spuriousWake i =>
    obtain ⟨w, hw, hphase, rfl⟩ := step_worker_cases.1 h
    exact hinv.move_phase hw (by simp [hphase]) (by rw [hphase]; rfl) (fun _ => nofun) nofun nofun
  | check i =>
    obtain ⟨w, hw, hphase, rfl⟩ := step_worker_cases.2.1 h
    have hburst : burstOf w.phase = [] := by rw [hphase]; rfl
    have hlive : w.phase ≠ .exited := by simp [hphase]
    rcases checkWorker_cases s hb i w.dpid with ⟨hrun, hq, heq⟩ | ⟨hrun, hq, heq⟩ | ⟨hq, heq⟩
    · -- running and nothing queued: the worker waits
      rw [heq]
      exact hinv.move_phase hw hlive hburst (fun _ => nofun) nofun (by simp [hrun, hq])
    · rw [heq]
      -- only a stopped dispatcher lets a worker go, and there was a thread to stop
      have hstart : s.startCalled = true := by
        cases hst : s.startCalled with
        | true => rfl
        | false =>
          rw [(hinv.notStarted hst).2.1] at hw
          exact nomatch hw
      exact hinv.move_phase hw hlive hburst (fun _ => nofun) (fun _ => ⟨hrun, hstart, hq⟩) nofun
    · rw [heq]
      exact hinv.move_take hb hw hphase hq
  | send i =>
    obtain ⟨w, burst, hw, hphase, rfl⟩ := step_worker_cases.2.2.1 h
    exact hinv.move_send hw hphase
  | sent i =>
    obtain ⟨w, hw, hphase, rfl⟩ := step_worker_cases.2.2.2 h
    exact hinv.move_phase hw (by simp [hphase]) (by rw [hphase]; rfl) (fun _ => nofun) nofun nofun
  | stopCall =>
    simp only [step] at h
    split at h
    · next hp =>
      obtain rfl := Option.some.inj h
      exact hinv.stopCall hp
    · exact nomatch h
  | stopNotify =>
    obtain ⟨hp, rfl⟩ := step_call_cases.2.1 h
    exact hinv.wakeAll s.pendingNotify .joining nofun (fun _ => by simp [hp]) nofun
  | stopReturn =>
    obtain ⟨hp, hall, rfl⟩ := step_call_cases.2.2 h
    refine
      { hinv with
        workerOk := fun w hw => (hinv.workerOk w hw).congr rfl rfl rfl rfl rfl rfl ?_
        runsUntilStop := nofun
        stopped := fun _ => hinv.stopped (by simp [hp])
        joined := fun _ i hi => hall i hi }
    rintro (hn | hn)
    · exact .inl hn
    · rw [hp] at hn
      exact nomatch hn

/-! ## Progress -/

/-- The steps of workers and of calls in progress: all but a new call and a wake-up for
    no reason. -/
def isProgress : Event → Bool
  | .notify | .check _ | .send _ | .sent _ | .stopNotify | .stopReturn => true
  | .start | .enqueue _ | .enqueueBulk _ | .spuriousWake _ | .stopCall => false

def phaseWeight : WorkerPhase → Nat
  | .exited => 0
  | .waiting => 1
  | .checking => 2
  | .sending => 3
  | .holding _ => 4

/-- What is left to do for a worker; a job is worth more than the step that takes it. -/
def workerWork (d : FlowDispatcher) (w : Worker) : Nat :=
  phaseWeight w.phase + 3 * (d.queue w.dpid).length

/-- A notification can wake every thread. -/
def stopWork (threads : Nat) : StopPhase → Nat
  | .notifying => threads + 2
  | .joining => 1
  | .notCalled | .returned => 0

def work (s : DispatcherSystem) : Nat :=
  (s.threads.map (workerWork s.d)).sum + s.pendingNotify * (s.threads.length + 1) +
    stopWork s.threads.length s.stopPhase

/-- A worker's step lowers the work when it lowers that worker's. -/
theorem work_move_lt {s : DispatcherSystem} (h : DispatcherInv s) {i : Nat} {w : Worker}
    (hw : s.threads[i]? = some w) {phase : WorkerPhase}
    {queues : AssocMap UInt64 (List FlowJob)} {batches : List (UInt64 × List FlowJob)}
    (hq : ∀ d, d ≠ w.dpid → (moved s i phase queues batches).d.queue d = s.d.queue d)
    (hlt : workerWork (moved s i phase queues batches).d { w with phase := phase } <
      workerWork s.d w) :
    work (moved s i phase queues batches) < work s := by
  obtain ⟨l₁, l₂, hl, hmod⟩ := List.exists_split_of_getElem? hw
  have hthreads : (moved s i phase queues batches).threads =
      l₁ ++ { w with phase := phase } :: l₂ := hmod _
  have hnodup := h.registered.nodup
  rw [threadDpids, hl, List.map_append, List.map_cons, List.nodup_middle, List.nodup_cons,
    List.mem_append, not_or] at hnodup
  -- the other workers serve other switches, whose queues are as they were
  have hsame : ∀ l : List Worker, w.dpid ∉ l.map (·.dpid) →
      l.map (workerWork (moved s i phase queues batches).d) = l.map (workerWork s.d) := by
    intro l hnot
    refine List.map_congr_left fun w' hw' => ?_
    have hne : w'.dpid ≠ w.dpid := fun heq => hnot (heq ▸ List.mem_map_of_mem hw')
    rw [workerWork, workerWork, hq _ hne]
  have hsum : ((moved s i phase queues batches).threads.map
      (workerWork (moved s i phase queues batches).d)).sum < (s.threads.map (workerWork s.d)).sum := by
    rw [hthreads, hl]
    simp only [List.map_append, List.map_cons, List.sum_append, List.sum_cons,
      hsame l₁ hnodup.1.1, hsame l₂ hnodup.1.2]
    omega
  have hlen : (moved s i phase queues batches).threads.length = s.threads.length := by
    rw [hthreads, hl]
    simp
  unfold work
  rw [hlen]
  show _ + s.pendingNotify * _ + stopWork _ s.stopPhase < _
  omega

/-- A notification adds at most one unit for every thread. -/
theorem sum_wake_le (d : FlowDispatcher) (threads : List Worker) :
    ((threads.map Worker.wake).map (workerWork d)).sum ≤
      (threads.map (workerWork d)).sum + threads.length := by
  induction threads with
  | nil => exact Nat.le_refl _
  | cons w ws ih =>
    have hw : workerWork d (Worker.wake w) ≤ workerWork d w + 1 := by
      rw [workerWork, workerWork, wake_dpid]
      rcases wake_phase w with ⟨hwait, hwoken⟩ | ⟨_, hsame⟩
      · rw [hwait, hwoken]
        simp only [phaseWeight]
        omega
      · rw [hsame]
        omega
    simp only [List.map_cons, List.sum_cons, List.length_cons]
    omega

/-- Every step of a worker and of a call in progress lowers the work that is left. -/
theorem work_lt {s s' : DispatcherSystem} {e : Event} (hb : 0 < s.d.burstSize)
    (hprog : isProgress e = true) (h : s.step e = some s') (hinv : DispatcherInv s) :
    work s' < work s := by
  cases e with
  | notify =>
    obtain ⟨hn, rfl⟩ := step_call_cases.1 h
    have hsum := sum_wake_le s.d s.threads
    obtain ⟨n, hn'⟩ := Nat.exists_eq_succ_of_ne_zero hn
    simp only [work, DispatcherSystem.wakeAll, List.length_map, hn', Nat.succ_sub_one,
      Nat.succ_eq_add_one, Nat.add_mul, Nat.one_mul]
    omega
  | check i =>
    obtain ⟨w, hw, hphase, rfl⟩ := step_worker_cases.2.1 h
    rcases checkWorker_cases s hb i w.dpid with ⟨_, _, heq⟩ | ⟨_, _, heq⟩ | ⟨hq, heq⟩
    · rw [heq]
      refine work_move_lt hinv hw (fun _ _ => rfl) ?_
      simp [workerWork, hphase, phaseWeight, moved]
    · rw [heq]
      refine work_move_lt hinv hw (fun _ _ => rfl) ?_
      simp [workerWork, hphase, phaseWeight, moved]
    · rw [heq]
      refine work_move_lt hinv hw (fun d hd => ?_) ?_
      · rw [moved, queue_insert, if_neg hd]
      · -- the burst taken is at least one job, which outweighs the phases still to pass
        have hpos := List.length_pos_iff.mpr hq
        simp only [workerWork, moved, queue_insert, if_true, hphase, phaseWeight,
          List.length_drop]
        omega
  | send i =>
    obtain ⟨w, burst, hw, hphase, rfl⟩ := step_worker_cases.2.2.1 h
    refine work_move_lt hinv hw (fun _ _ => rfl) ?_
    simp [workerWork, hphase, phaseWeight, moved]
  | sent i =>
    obtain ⟨w, hw, hphase, rfl⟩ := step_worker_cases.2.2.2 h
    refine work_move_lt hinv hw (fun _ _ => rfl) ?_
    simp [workerWork, hphase, phaseWeight, moved]
  | stopNotify =>
    obtain ⟨hp, rfl⟩ := step_call_cases.2.1 h
    have hsum := sum_wake_le s.d s.threads
    simp only [work, DispatcherSystem.wakeAll, List.length_map, hp, stopWork]
    omega
  | stopReturn =>
    obtain ⟨hp, _, rfl⟩ := step_call_cases.2.2 h
    simp only [work, hp, stopWork]
    omega
  | start => exact nomatch hprog
  | enqueue job => exact nomatch hprog
  | enqueueBulk jobs => exact nomatch hprog
  | spuriousWake i => exact nomatch hprog
  | stopCall => exact nomatch hprog

/-- No worker and no call in progress can take a step. -/
def Quiet (s : DispatcherSystem) : Prop :=
  ∀ e, isProgress e = true → s.step e = none

/-- In a quiet system every worker is asleep or gone, with nothing to do. -/
theorem quiet_worker {s : DispatcherSystem} (hinv : DispatcherInv s) (hquiet : Quiet s)
    {w : Worker} (hw : w ∈ s.threads) :
    burstOf w.phase = [] ∧ s.d.queue w.dpid = [] ∧ (s.d.running = false → w.phase = .exited) := by
  obtain ⟨i, hi⟩ := List.mem_iff_getElem?.mp hw
  have hok := hinv.workerOk w hw
  cases hphase : w.phase with
  | checking =>
    have hstep := hquiet (.check i) rfl
    simp only [step, hi] at hstep
    rw [show w = { dpid := w.dpid, phase := .checking } by rw [← hphase]] at hstep
    exact nomatch hstep
  | waiting =>
    -- nothing is to come that would wake it, so there is nothing to wake it for
    have hnote : s.pendingNotify = 0 := by
      have hstep := hquiet .notify rfl
      simp only [step] at hstep
      split at hstep
      · assumption
      · exact nomatch hstep
    have hstop : s.stopPhase ≠ .notifying := by
      intro hp
      have hstep := hquiet .stopNotify rfl
      simp only [step, hp, if_true] at hstep
      exact nomatch hstep
    have hnone : ¬ (s.d.running = false ∨ s.d.queue w.dpid ≠ []) := by
      intro hor
      rcases hok.waiting hphase hor with hn | hn
      · omega
      · exact hstop hn
    rw [not_or, not_not] at hnone
    exact ⟨rfl, hnone.2, fun hrun => absurd hrun hnone.1⟩
  | holding burst =>
    have hstep := hquiet (.send i) rfl
    simp only [step, hi] at hstep
    rw [show w = { dpid := w.dpid, phase := .holding burst } by rw [← hphase]] at hstep
    exact nomatch hstep
  | sending =>
    have hstep := hquiet (.sent i) rfl
    simp only [step, hi] at hstep
    rw [show w = { dpid := w.dpid, phase := .sending } by rw [← hphase]] at hstep
    exact nomatch hstep
  | exited => exact ⟨rfl, (hok.exited hphase).2.2, fun _ => rfl⟩

/-- A quiet system has sent everything it accepted. -/
theorem quiet_sent {s : DispatcherSystem} (hinv : DispatcherInv s) (hquiet : Quiet s)
    (d : UInt64) : sentOf s d = acceptedOf s d := by
  by_cases hd : d ∈ threadDpids s
  · obtain ⟨w, hw, rfl⟩ := List.mem_map.mp hd
    obtain ⟨hburst, hq, _⟩ := quiet_worker hinv hquiet hw
    rw [(hinv.workerOk w hw).conserve, hburst, hq, List.append_nil, List.append_nil]
  · obtain ⟨hacc, hsent, _⟩ := hinv.idle d hd
    rw [hacc, hsent]

/-- In a quiet system a call of `stop` has returned. -/
theorem quiet_stop {s : DispatcherSystem} (hinv : DispatcherInv s) (hquiet : Quiet s) :
    s.stopPhase = .notCalled ∨ s.stopPhase = .returned := by
  cases hp : s.stopPhase with
  | notCalled => exact .inl rfl
  | returned => exact .inr rfl
  | notifying =>
    have hstep := hquiet .stopNotify rfl
    simp only [step, hp, if_true] at hstep
    exact nomatch hstep
  | joining =>
    -- every thread to be joined has exited, so `stop` can return
    have hall : ∀ i ∈ s.toJoin, HasExited s i := by
      rcases hinv.stopped (by simp [hp]) with ⟨_, hrun, _, _⟩ | ⟨_, hnone⟩
      · intro i hi
        have hlt := hinv.toJoin_lt i hi
        have hw : s.threads[i]? = some s.threads[i] := List.getElem?_eq_getElem hlt
        exact ⟨_, hw, (quiet_worker hinv hquiet (List.mem_of_getElem? hw)).2.2 hrun⟩
      · rw [hnone]
        exact nofun
    have hstep := hquiet .stopReturn rfl
    simp only [step] at hstep
    rw [if_pos] at hstep
    · exact nomatch hstep
    · refine ⟨hp, List.all_eq_true.mpr fun i hi => ?_⟩
      obtain ⟨⟨d, phase⟩, hw, rfl⟩ := hall i hi
      rw [hw]

/-! ## Whole runs -/

/-- Over a run: every submitted job is accepted or refused, once. -/
theorem exec_accounts (es : List Event) {s₀ s : DispatcherSystem} (h : exec step s₀ es = some s) :
    (s.accepted ++ s.refused).Perm (s₀.accepted ++ s₀.refused ++ es.flatMap submittedBy) := by
  induction es generalizing s₀ with
  | nil => rw [← Option.some.inj h, List.flatMap_nil, List.append_nil]
  | cons e es ih =>
    obtain ⟨s₁, he, hrest⟩ := exec_cons_eq_some h
    rw [List.flatMap_cons, ← List.append_assoc]
    exact (ih hrest).trans ((step_accounts he).append_right _)

/-- What a run of the dispatcher delivers. -/
structure Delivers (burstSize : Nat) (es : List Event) (s : DispatcherSystem) : Prop where
  /-- For every switch the batches are the accepted jobs so far, in order. -/
  inOrder : ∀ d, sentOf s d <+: acceptedOf s d
  /-- Nothing is left unsent when nothing can move any more, … -/
  complete : Quiet s → ∀ d, sentOf s d = acceptedOf s d
  /-- … a call of `stop` has returned then, … -/
  stopReturns : Quiet s → s.stopPhase = .notCalled ∨ s.stopPhase = .returned
  /-- … and workers and calls in progress do get there. -/
  settles : ∀ es' s', (∀ e ∈ es', isProgress e = true) → exec step s es' = some s' →
    es'.length ≤ work s
  batchSize : ∀ b ∈ s.batches, 1 ≤ b.2.length ∧ b.2.length ≤ burstSize
  oneWorker : (threadDpids s).Nodup
  /-- Every job accepted before `stop` is sent before `stop` returns. -/
  drained : s.stopPhase = .returned →
    ∀ d, s.acceptedBeforeStop.filter (·.dpid = d) <+: sentOf s d
  /-- Every submitted job is accepted or refused, and the refused ones are counted. -/
  accounted : (s.accepted ++ s.refused).Perm (es.flatMap submittedBy)
  dropped : s.d.droppedAfterStop = UInt64.ofNat s.refused.length

/-- When `stop` has returned, what was accepted before it has been sent. -/
theorem DispatcherInv.drained {s : DispatcherSystem} (hinv : DispatcherInv s)
    (hret : s.stopPhase = .returned) (d : UInt64) :
    s.acceptedBeforeStop.filter (·.dpid = d) <+: sentOf s d := by
  rcases hinv.stopped (by simp [hret]) with ⟨_, _, hacc, hall⟩ | ⟨hnone, _⟩
  · have heq : acceptedOf s d = sentOf s d := by
      by_cases hd : d ∈ threadDpids s
      · obtain ⟨w, hw, rfl⟩ := List.mem_map.mp hd
        obtain ⟨i, hi⟩ := List.mem_iff_getElem?.mp hw
        obtain ⟨w', hw', hex⟩ := hinv.joined hret i (hall i (List.getElem?_eq_some_iff.mp hi).1)
        obtain rfl : w = w' := Option.some.inj (hi.symm.trans hw')
        have hok := hinv.workerOk w hw
        rw [hok.conserve, hex, (hok.exited hex).2.2]
        simp [burstOf]
      · obtain ⟨h₁, h₂, _⟩ := hinv.idle d hd
        rw [h₁, h₂]
    rw [← hacc, ← heq]
    exact List.prefix_rfl
  · rw [hnone]
    exact List.nil_prefix

/-- In every run from a new dispatcher with a positive burst size: per switch the sender
    gets the accepted jobs in order and once each, in batches of at most the burst size;
    `stop` drains what was accepted before it; refused jobs are counted. -/
theorem dispatcher_delivers (burstSize : Nat) (hb : 0 < burstSize) (es : List Event)
    (s : DispatcherSystem) (h : exec step (init burstSize) es = some s) :
    Delivers burstSize es s := by
  -- the invariant carries the burst size, which the worker's step lemma needs
  have hstep : ∀ s e s', step s e = some s' →
      DispatcherInv s ∧ s.d.burstSize = burstSize →
      DispatcherInv s' ∧ s'.d.burstSize = burstSize := by
    intro s e s' he hs
    exact ⟨inv_step (by omega) he hs.1, (step_burstSize he).trans hs.2⟩
  obtain ⟨hinv, hsize⟩ := exec_invariant hstep h ⟨dispatcherInv_init burstSize, rfl⟩
  refine
    { inOrder := fun d => ?_
      complete := fun hquiet d => quiet_sent hinv hquiet d
      stopReturns := fun hquiet => quiet_stop hinv hquiet
      settles := fun es' s' hprog hrun => ?_
      batchSize := fun b hmem => hsize ▸ hinv.batchSize b hmem
      oneWorker := hinv.registered.nodup
      drained := hinv.drained
      accounted := exec_accounts es h
      dropped := hinv.dropped }
  · by_cases hd : d ∈ threadDpids s
    · obtain ⟨w, hw, rfl⟩ := List.mem_map.mp hd
      rw [(hinv.workerOk w hw).conserve, List.append_assoc]
      exact List.prefix_append _ _
    · rw [(hinv.idle d hd).2.1]
      exact List.nil_prefix
  · exact exec_length_le hstep
      (fun s e s' he hs hinv' => work_lt (by have := hinv'.2; omega) he hs hinv'.1)
      hprog hrun ⟨hinv, hsize⟩

/-- A job for a switch. -/
private def jobFor (dpid : UInt64) : FlowJob :=
  { dpid := dpid, op := .install, priority := 0, «match» := .null, actions := .null }

/-- One job refused before `start`, three accepted for two switches, drained by `stop` in
    bursts of two. -/
def drainRun : List Event :=
  [.enqueue (jobFor 1), .start, .enqueueBulk [jobFor 1, jobFor 2, jobFor 1], .check 0, .notify,
    .stopCall, .send 0, .stopNotify, .check 1, .sent 0, .check 0, .send 1, .sent 1, .check 1,
    .stopReturn]

/-- The hypotheses are met by `drainRun`, which ends with `stop` having returned and both
    switches served. -/
theorem drainRun_delivers : ∃ s, exec step (init 2) drainRun = some s ∧
    Delivers 2 drainRun s ∧ s.stopPhase = .returned ∧ s.batches.map (·.1) = [1, 2] ∧
    s.d.droppedAfterStop = 1 := by
  refine ⟨_, rfl, dispatcher_delivers 2 (by decide) drainRun _ rfl, rfl, rfl, rfl⟩

end Ndtwin.Spec

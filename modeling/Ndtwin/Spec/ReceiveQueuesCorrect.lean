import Ndtwin.Spec.ReceiveQueuesInvariant

/-!
# Delivery by the receive queues

Once the flag is cleared every step brings the threads nearer to their end, and they reach it
unless both callers of `stopAndJoinWorkers` come to their loops over `m_workers` before one of them
is through with it. A worker that is still asleep then was past its last test and not yet asleep
when each of the two notified it.

## Key results

- `receiveWork_lt`: with the flag clear, every step is progress
- `receive_stuck`: where the system can stop
- `bothJoining_step`: two callers that have met are not parted
- `receive_queues`: order, bounds, counters and the end of the threads
-/

namespace Ndtwin.Spec

open Kernel Kernel.ReceiveQueues GuardedRun

/-! ## The way to the end -/

/-- The steps left to a worker, its queue apart, when the flag is clear. -/
def lanePhaseWork : LanePhase → Nat
  | .exited => 0
  | .popping true => 2
  | .popping false | .testing => 3
  | .asleep _ | .handling _ _ => 4
  | .dozing _ => 5

def laneWork (lane : Lane) : Nat :=
  lanePhaseWork lane.phase + 4 * lane.queue.length

/-- The steps left to a caller of `stopAndJoinWorkers` with `n` workers. -/
def closingWork (n : Nat) : Closing → Nat
  | .clearing => 3 * n + 3
  | .notifying next => (n - next) + 2 * n + 2
  | .joining next => 2 * (n - next) + 1
  | .waiting next => 2 * (n - next)
  | .done => 0

/-- A message is worth more than the steps that store it and the steps that handle it. -/
def runWork (n : Nat) : RunPhase → Nat
  | .closing c => closingWork n c
  | .testing => 3 * n + 4
  | .polling => 3 * n + 6 + 8 * batchSize
  | .batch rest => 3 * n + 5 + 8 * rest.length
  | .pushing _ _ rest => 3 * n + 12 + 8 * rest.length
  | .storing _ _ rest => 3 * n + 11 + 8 * rest.length
  | .notifying _ rest | .refused _ _ _ rest => 3 * n + 6 + 8 * rest.length

def stopCallWork (n : Nat) : StopCall → Nat
  | .notCalled => 3 * n + 6
  | .closing c => closingWork n c + 2
  | .joining => 1
  | .returned => 0

/-- The steps left to the threads. -/
def threadsWork (s : ReceiveQueues) : Nat :=
  (s.lanes.map laneWork).sum + runWork s.lanes.length s.receiver +
    stopCallWork s.lanes.length s.stopper

/-- The steps left, the one that ends the meaning of the program among them. -/
def receiveWork (s : ReceiveQueues) : Nat := threadsWork s + (!s.undefined).toNat

theorem laneWork_step_lt {lane lane' : Lane} (h : lane.step false = some lane') :
    laneWork lane' < laneWork lane := by
  obtain ⟨hp, rfl⟩ | ⟨draining, pkt, rest, hp, hq, rfl⟩ | ⟨draining, hp, hq, hrun, rfl⟩ |
    ⟨hp, hq, hrun, rfl⟩ | ⟨hp, hq, hrun, rfl⟩ | ⟨draining, hp, rfl⟩ | ⟨draining, pkt, hp, rfl⟩ :=
    lane_step_cases h
  · simp [laneWork, hp, lanePhaseWork]
  · cases draining <;> simp [laneWork, hp, hq, lanePhaseWork] <;> omega
  · cases hrun
  · simp [laneWork, hp, lanePhaseWork]
  · simp [laneWork, hp, lanePhaseWork]
  · simp [laneWork, hp, lanePhaseWork]
  · cases draining <;> simp [laneWork, hp, lanePhaseWork]

theorem laneWork_wake_lt {lane : Lane} {draining : Bool} (h : lane.phase = .asleep draining) :
    laneWork lane.wake < laneWork lane := by
  cases draining <;> simp [laneWork, Lane.wake, h, lanePhaseWork]

theorem laneWork_wake_le (lane : Lane) : laneWork lane.wake ≤ laneWork lane := by
  cases hp : lane.phase with
  | asleep draining => exact Nat.le_of_lt (laneWork_wake_lt hp)
  | _ => simp [Lane.wake, hp]

theorem laneWork_notifyAll_le (lane : Lane) : laneWork lane.notifyAll ≤ laneWork lane := by
  unfold Lane.notifyAll
  split
  · exact Nat.le_refl _
  · exact laneWork_wake_le lane

/-- A change of one lane that makes no work for it. -/
theorem lanesWork_onLane_le (s : ReceiveQueues) (qid : Nat) {f : Lane → Lane}
    (hf : ∀ lane, laneWork (f lane) ≤ laneWork lane) :
    ((s.onLane qid f).lanes.map laneWork).sum ≤ (s.lanes.map laneWork).sum := by
  show ((s.lanes.modify qid f).map laneWork).sum ≤ _
  cases hlane : s.lanes[qid]? with
  | none => rw [List.modify_eq_self (List.getElem?_eq_none_iff.mp hlane)]
  | some lane =>
    have hsum := List.sum_map_modify laneWork f hlane
    have hle := hf lane
    omega

theorem closingMoves_work {s s₁ : ReceiveQueues} {other : Option Closing} {c c' : Closing}
    (h : ClosingMoves s other c s₁ c') (hworkers : WorkersOk s)
    (hwaits : ∀ next, c = .waiting next → next < s.lanes.length) :
    (s₁.lanes.map laneWork).sum + closingWork s₁.lanes.length c' <
        (s.lanes.map laneWork).sum + closingWork s.lanes.length c ∧ s₁.undefined = s.undefined ∨
      s₁.lanes = s.lanes ∧ c' = c ∧ s₁.undefined = true := by
  cases h with
  | clear =>
    refine .inl ⟨?_, rfl⟩
    simp only [closingWork]
    omega
  | notify next hlt =>
    refine .inl ⟨?_, rfl⟩
    have hle := lanesWork_onLane_le s next laneWork_notifyAll_le
    rw [length_onLane]
    simp only [closingWork]
    omega
  | notified next hge =>
    refine .inl ⟨?_, rfl⟩
    simp only [closingWork]
    omega
  | wait next hjoin =>
    refine .inl ⟨?_, rfl⟩
    simp only [closingWork]
    omega
  | pass next hjoin =>
    refine .inl ⟨?_, rfl⟩
    -- the worker is one of those that there are
    have hlt := (List.getElem?_eq_some_iff.mp hjoin).1
    rcases hworkers.length with hnil | hlen
    · simp [hnil] at hlt
    · simp only [closingWork]
      omega
  | join next hex =>
    refine .inl ⟨?_, rfl⟩
    have hlt := hwaits next rfl
    simp only [closingWork]
    omega
  | joined next hend =>
    refine .inl ⟨?_, rfl⟩
    simp only [closingWork]
    omega
  | meet next hother => exact .inr ⟨rfl, rfl, rfl⟩

theorem goto_work {n : Nat} {r r' : RunPhase} (h : Goto false r r') :
    runWork n r' < runWork n r := by
  cases h with
  | loop hrun => cases hrun
  | seen qid pkt rest hrun => cases hrun
  | leave =>
    simp only [runWork, closingWork]
    omega
  | nothing =>
    simp only [runWork]
    omega
  | failed =>
    simp only [runWork, closingWork]
    omega
  | batch msgs hlen =>
    simp only [runWork]
    omega
  | batchEnd =>
    simp only [runWork]
    omega
  | skip msg rest =>
    simp only [runWork, List.length_cons]
    omega
  | unseen qid pkt rest =>
    simp only [runWork]
    omega

/-- The flag is never set again. -/
theorem running_clear {s s' : ReceiveQueues} (hm : Moves s s') (hrun : s.running = false) :
    s'.running = false := by
  cases hm with
  | closing c c' s₁ hr hc => exact (closingMoves_frame hc).2.2.2.1 hrun
  | stopClosing c c' s₁ hp hc => exact (closingMoves_frame hc).2.2.2.1 hrun
  | stopCall => rfl
  | _ => exact hrun

/-- A step of the receive thread alone. -/
theorem threadsWork_lt_of_receiver {s s' : ReceiveQueues} (hlanes : s'.lanes = s.lanes)
    (hstop : s'.stopper = s.stopper)
    (h : runWork s.lanes.length s'.receiver < runWork s.lanes.length s.receiver) :
    threadsWork s' < threadsWork s := by
  unfold threadsWork
  rw [hlanes, hstop]
  omega

/-- A step of the caller of `stop` alone. -/
theorem threadsWork_lt_of_stopper {s s' : ReceiveQueues} (hlanes : s'.lanes = s.lanes)
    (hreceiver : s'.receiver = s.receiver)
    (h : stopCallWork s.lanes.length s'.stopper < stopCallWork s.lanes.length s.stopper) :
    threadsWork s' < threadsWork s := by
  unfold threadsWork
  rw [hlanes, hreceiver]
  omega

/-- A step of one worker alone. -/
theorem threadsWork_onLane_lt {s : ReceiveQueues} {qid : Nat} {lane : Lane} {f : Lane → Lane}
    (hlane : s.lanes[qid]? = some lane) (h : laneWork (f lane) < laneWork lane) :
    threadsWork (s.onLane qid f) < threadsWork s := by
  have hsum := List.sum_map_modify laneWork f hlane
  unfold threadsWork
  rw [length_onLane]
  show ((s.lanes.modify qid f).map laneWork).sum + runWork s.lanes.length s.receiver +
    stopCallWork s.lanes.length s.stopper < _
  omega

/-- With the flag clear every step is progress, or the last one. -/
theorem threadsWork_step {s s' : ReceiveQueues} (hm : Moves s s') (hclosed : ClosedOk s)
    (hrun : s.running = false) :
    threadsWork s' < threadsWork s ∧ s'.undefined = s.undefined ∨
      threadsWork s' = threadsWork s ∧ s'.undefined = true := by
  cases hm with
  | goto r hr =>
    rw [hrun] at hr
    exact .inl ⟨threadsWork_lt_of_receiver rfl rfl (goto_work hr), rfl⟩
  | worker qid lane lane' hlane hstep =>
    rw [hrun] at hstep
    exact .inl ⟨threadsWork_onLane_lt hlane (laneWork_step_lt hstep), rfl⟩
  | spurious qid lane draining hlane hp =>
    exact .inl ⟨threadsWork_onLane_lt hlane (laneWork_wake_lt hp), rfl⟩
  | takeUp msg rest hr =>
    refine .inl ⟨threadsWork_lt_of_receiver rfl rfl ?_, rfl⟩
    show 3 * s.lanes.length + 12 + 8 * rest.length < _
    rw [hr]
    simp only [runWork, List.length_cons]
    omega
  | full qid pkt rest lane hr =>
    refine .inl ⟨threadsWork_lt_of_receiver rfl rfl ?_, rfl⟩
    rw [hr]
    simp only [runWork]
    omega
  | stored qid pkt rest lane hr hlane =>
    refine .inl ⟨?_, rfl⟩
    have hsum := List.sum_map_modify laneWork
      (fun lane => { lane with queue := lane.queue ++ [pkt] }) hlane
    have hgrow : laneWork { lane with queue := lane.queue ++ [pkt] } = laneWork lane + 4 := by
      simp only [laneWork, List.length_append, List.length_singleton]
      omega
    unfold threadsWork
    rw [hr]
    show ((s.lanes.modify qid _).map laneWork).sum +
      (3 * (s.lanes.modify qid _).length + 6 + 8 * rest.length) +
        stopCallWork (s.lanes.modify qid _).length s.stopper < _
    rw [List.length_modify]
    simp only [runWork]
    omega
  | notified qid rest hr =>
    refine .inl ⟨?_, rfl⟩
    have hle := lanesWork_onLane_le s qid laneWork_wake_le
    unfold threadsWork
    rw [hr]
    show ((s.onLane qid Lane.wake).lanes.map laneWork).sum +
      runWork (s.onLane qid Lane.wake).lanes.length (.batch rest) +
        stopCallWork (s.onLane qid Lane.wake).lanes.length s.stopper < _
    rw [length_onLane]
    simp only [runWork]
    omega
  | dropped found qid pkt rest hr hset => simp [hrun] at hset
  | abandoned found qid pkt rest hr =>
    refine .inl ⟨threadsWork_lt_of_receiver rfl rfl ?_, rfl⟩
    rw [hr]
    simp only [runWork]
    omega
  | closing c c' s₁ hr hc =>
    unfold threadsWork
    obtain ⟨hlen, _, hstop, _, _⟩ := closingMoves_frame hc
    have hwork := closingMoves_work hc hclosed.workers
      fun next hw => hclosed.receiver_waits next (hw ▸ hr)
    show (s₁.lanes.map laneWork).sum + closingWork s₁.lanes.length c' +
        stopCallWork s₁.lanes.length s₁.stopper < _ ∧ s₁.undefined = _ ∨
      (s₁.lanes.map laneWork).sum + closingWork s₁.lanes.length c' +
        stopCallWork s₁.lanes.length s₁.stopper = _ ∧ s₁.undefined = true
    rw [hr, hstop]
    simp only [runWork]
    rcases hwork with ⟨hlt, hdef⟩ | ⟨hlanes, rfl, hdef⟩
    · refine .inl ⟨?_, hdef⟩
      rw [hlen] at hlt ⊢
      omega
    · exact .inr ⟨by rw [hlanes], hdef⟩
  | stopCall hp =>
    refine .inl ⟨threadsWork_lt_of_stopper rfl rfl ?_, rfl⟩
    rw [hp]
    simp only [stopCallWork, closingWork]
    omega
  | stopClosing c c' s₁ hp hc =>
    unfold threadsWork
    obtain ⟨hlen, hreceiver, _, _, _⟩ := closingMoves_frame hc
    have hwork := closingMoves_work hc hclosed.workers
      fun next hw => hclosed.stopper_waits next (hw ▸ hp)
    show (s₁.lanes.map laneWork).sum + runWork s₁.lanes.length s₁.receiver +
        (closingWork s₁.lanes.length c' + 2) < _ ∧ s₁.undefined = _ ∨
      (s₁.lanes.map laneWork).sum + runWork s₁.lanes.length s₁.receiver +
        (closingWork s₁.lanes.length c' + 2) = _ ∧ s₁.undefined = true
    rw [hp, hreceiver]
    simp only [stopCallWork]
    rcases hwork with ⟨hlt, hdef⟩ | ⟨hlanes, rfl, hdef⟩
    · refine .inl ⟨?_, hdef⟩
      rw [hlen] at hlt ⊢
      omega
    · exact .inr ⟨by rw [hlanes], hdef⟩
  | stopJoin hp =>
    refine .inl ⟨threadsWork_lt_of_stopper rfl rfl ?_, rfl⟩
    rw [hp]
    simp only [stopCallWork, closingWork]
    omega
  | stopReturn hp =>
    refine .inl ⟨threadsWork_lt_of_stopper rfl rfl ?_, rfl⟩
    rw [hp]
    simp only [stopCallWork]
    omega

theorem receiveWork_lt {s s' : ReceiveQueues} (hm : Moves s s') (hdef : s.undefined = false)
    (hclosed : ClosedOk s) (hrun : s.running = false) : receiveWork s' < receiveWork s := by
  unfold receiveWork
  rcases threadsWork_step hm hclosed hrun with ⟨hlt, hkept⟩ | ⟨heq, hlost⟩
  · rw [hkept]
    omega
  · rw [heq, hlost, hdef]
    simp

/-! ## The end -/

structure ReceiveInv (s : ReceiveQueues) : Prop where
  closed : ClosedOk s
  lanes : LanesOk s
  dealt : DealtOk s
  stranded : StrandedOk s

theorem receiveInv_init (numWorkers queueCapacity : Nat) :
    ReceiveInv (init numWorkers queueCapacity) :=
  ⟨closedOk_init _ _, lanesOk_init _ _, dealtOk_init _ _, strandedOk_init _ _⟩

theorem receiveInv_step (s : ReceiveQueues) (e : Event) (s' : ReceiveQueues)
    (h : s.step e = some s') (hinv : ReceiveInv s) : ReceiveInv s' := by
  have hm := step_moves h
  exact ⟨closedOk_step hm (undefined_of_step h) hinv.closed, lanesOk_step hm hinv.closed hinv.lanes,
    dealtOk_step hm hinv.lanes hinv.dealt, strandedOk_step hm hinv.lanes hinv.stranded⟩

/-- A worker that cannot go on is asleep or has exited. -/
theorem lane_stuck {lane : Lane} {running : Bool} (h : lane.step running = none) :
    (∃ draining, lane.phase = .asleep draining) ∨ lane.phase = .exited := by
  unfold Lane.step at h
  cases hp : lane.phase with
  | asleep draining => exact .inl ⟨draining, rfl⟩
  | exited => exact .inr rfl
  | popping draining =>
    cases hq : lane.queue with
    | cons pkt rest => simp [hp, hq] at h
    | nil => cases running <;> cases draining <;> simp [hp, hq] at h
  | _ => simp [hp] at h

/-- Where a caller of `stopAndJoinWorkers` can be held up. -/
theorem closing_stuck {s : ReceiveQueues} {other : Option Closing} {c : Closing}
    (h : s.closingStep other c = none) :
    c = .done ∨ ∃ next, c = .waiting next ∧ s.hasExited next = false := by
  cases c with
  | clearing => cases h
  | notifying next =>
    simp only [closingStep] at h
    split at h <;> cases h
  | joining next =>
    simp only [closingStep] at h
    split at h
    · split at h <;> cases h
    · cases h
    · split at h <;> cases h
  | waiting next =>
    simp only [closingStep] at h
    split at h
    · cases h
    · next hex => exact .inr ⟨next, rfl, Bool.eq_false_iff.mpr hex⟩
  | done => exact .inl rfl

/-- Where the receive thread can be held up, when no worker holds a lock. -/
theorem receiver_stuck {s : ReceiveQueues} (hinv : ReceiveInv s)
    (hlock : ∀ (qid : Nat) (lane : Lane), s.lanes[qid]? = some lane → lane.locked = false)
    (hr : s.definedStep .receiver = none) (hreceive : s.definedStep (.receive .nothing) = none) :
    ∃ c, s.receiver = .closing c ∧ s.closingStep s.stopperClosing c = none := by
  have hr : s.receiverStep = none := hr
  unfold receiverStep at hr
  cases hphase : s.receiver with
  | polling => simp [definedStep, hphase] at hreceive
  | batch rest =>
    cases rest with
    | nil => simp [hphase] at hr
    | cons msg rest =>
      simp only [hphase] at hr
      split at hr <;> cases hr
  | storing qid pkt rest =>
    -- the queue is there, and its lock is free
    simp only [hphase, store] at hr
    have hqid := hinv.dealt.hand (qid, pkt) (by rw [hphase]; exact List.mem_singleton_self _)
    have hlt : qid < s.lanes.length := by
      rw [show qid = _ from hqid]
      exact Nat.mod_lt _ hinv.dealt.pos
    have hlane := List.getElem?_eq_getElem hlt
    simp only [hlane, hlock qid _ hlane, Bool.false_eq_true, if_false] at hr
    split at hr <;> cases hr
  | refused found qid pkt rest =>
    simp only [hphase] at hr
    split at hr <;> cases hr
  | closing c =>
    simp only [hphase] at hr
    exact ⟨c, rfl, Option.map_eq_none_iff.mp hr⟩
  | _ => simp [hphase] at hr

/-- Where the call of `stop` can be held up. -/
theorem stopper_stuck {s : ReceiveQueues} (hcalled : s.stopper ≠ .notCalled)
    (h : s.stopperStep = none) :
    (∃ next, s.stopper = .closing (.waiting next) ∧ s.hasExited next = false) ∨
      s.stopper = .joining ∧ s.receiver ≠ .closing .done ∨ s.stopper = .returned := by
  unfold stopperStep at h
  cases hp : s.stopper with
  | notCalled => exact absurd hp hcalled
  | joining =>
    simp only [hp] at h
    split at h
    · cases h
    · next hne => exact .inr (.inl ⟨rfl, hne⟩)
  | returned => exact .inr (.inr rfl)
  | closing c =>
    cases c with
    | done => simp [hp] at h
    | _ =>
      simp only [hp, Option.map_eq_none_iff] at h
      rcases closing_stuck h with hd | ⟨next, hw, hnot⟩
      · cases hd
      · exact .inl ⟨next, by rw [hw], hnot⟩

/-- Once `stop` was called and nothing can go on, `stop` has returned, or the program has lost its
    meaning. -/
theorem receive_stuck {s : ReceiveQueues} (hinv : ReceiveInv s) (hcalled : s.stopper ≠ .notCalled)
    (hstuck : ∀ e, (∀ qid, e ≠ .spuriousWake qid) → s.step e = none) :
    s.stopper = .returned ∨ s.undefined = true := by
  by_cases hdef : s.undefined = true
  · exact .inr hdef
  have hnone : ∀ e, (∀ qid, e ≠ .spuriousWake qid) → s.definedStep e = none := by
    intro e he
    have hstep := hstuck e he
    rwa [step, if_neg hdef] at hstep
  have hlane : ∀ (qid : Nat) (lane : Lane), s.lanes[qid]? = some lane →
      (∃ draining, lane.phase = .asleep draining) ∨ lane.phase = .exited := by
    intro qid lane hlane
    have hworker := hnone (.worker qid) (by simp)
    simp only [definedStep, hlane] at hworker
    exact lane_stuck (Option.map_eq_none_iff.mp hworker)
  have hlock : ∀ (qid : Nat) (lane : Lane), s.lanes[qid]? = some lane → lane.locked = false := by
    intro qid lane hl
    rcases hlane qid lane hl with ⟨draining, hp⟩ | hp <;> simp [Lane.locked, hp]
  obtain ⟨c, hr, hc⟩ := receiver_stuck hinv hlock (hnone .receiver (by simp))
    (hnone (.receive .nothing) (by simp))
  have hexited : ∀ {next : Nat} {bound : Nat}, s.hasExited next = false →
      (∀ qid < bound, s.hasExited qid = true) → bound ≤ next := by
    intro next bound hnot hall
    by_contra hlt
    rw [hall next (Nat.lt_of_not_le hlt)] at hnot
    cases hnot
  have hreceiver := hinv.closed.receiver_joined
  have hstopper := hinv.closed.stopper_joined
  rw [hr] at hreceiver
  rcases stopper_stuck hcalled (hnone .stopper (by simp)) with
    ⟨next, hs, hnot⟩ | ⟨hs, hne⟩ | hs
  · -- `stop` waits for a worker that the receive thread cannot be past
    exfalso
    have hnext := hinv.closed.stopper_waits next hs
    rw [hs] at hstopper
    rcases closing_stuck hc with rfl | ⟨other, rfl, hnotOther⟩
    · exact absurd hnext (Nat.not_lt.mpr (hexited hnot hreceiver))
    · obtain rfl := Nat.le_antisymm (hexited hnotOther hstopper) (hexited hnot hreceiver)
      exact hinv.closed.apart _ hr hs
  · -- `stop` is past all workers, so the receive thread waits for none
    exfalso
    rw [hs] at hstopper
    rcases closing_stuck hc with rfl | ⟨other, rfl, hnotOther⟩
    · exact hne hr
    · have hlt := hinv.closed.receiver_waits other hr
      exact absurd hlt (Nat.not_lt.mpr (hexited hnotOther hstopper))
  · exact .inl hs

/-- Two callers in their loops over `m_workers` stay there: neither can clear the vector. -/
theorem bothJoining_step {s s' : ReceiveQueues} (hm : Moves s s') (h : BothJoining s) :
    BothJoining s' := by
  obtain ⟨hr, hs⟩ := h
  have hmine : ∀ {other : Option Closing} {c c' : Closing} {s₁ : ReceiveQueues},
      ClosingMoves s other c s₁ c' → c.inLoop = true → other.any Closing.inLoop = true →
      c'.inLoop = true := by
    intro other c c' s₁ hc hin hother
    cases hc with
    | joined next hend hnot =>
      rw [hother] at hnot
      cases hnot
    | clear => cases hin
    | notify => cases hin
    | notified => cases hin
    | _ => rfl
  have hclosing : ∃ c, s.receiver = .closing c := by
    unfold receiverClosing at hr
    split at hr
    · next c hc => exact ⟨c, hc⟩
    · cases hr
  obtain ⟨c₀, hc₀⟩ := hclosing
  cases hm with
  | worker => exact ⟨hr, hs⟩
  | spurious => exact ⟨hr, hs⟩
  | goto r hgoto =>
    rw [hc₀] at hgoto
    cases hgoto
  | closing c c' s₁ hc hmoves =>
    obtain ⟨_, _, hstop, _, _⟩ := closingMoves_frame hmoves
    rw [receiverClosing, hc] at hr
    refine ⟨hmine hmoves hr hs, ?_⟩
    rw [stopperClosing] at hs ⊢
    rwa [← hstop] at hs
  | stopCall hp => simp [stopperClosing, hp] at hs
  | stopClosing c c' s₁ hp hmoves =>
    obtain ⟨_, hreceiver, _, _, _⟩ := closingMoves_frame hmoves
    rw [stopperClosing, hp] at hs
    refine ⟨?_, hmine hmoves hs hr⟩
    rw [receiverClosing] at hr ⊢
    rwa [← hreceiver] at hr
  | stopJoin hp => simp [stopperClosing, hp, Closing.inLoop] at hs
  | stopReturn hp => simp [stopperClosing, hp] at hs
  | takeUp msg rest hphase => simp [hc₀] at hphase
  | full qid pkt rest lane hphase => simp [hc₀] at hphase
  | stored qid pkt rest lane hphase => simp [hc₀] at hphase
  | notified qid rest hphase => simp [hc₀] at hphase
  | dropped found qid pkt rest hphase => simp [hc₀] at hphase
  | abandoned found qid pkt rest hphase => simp [hc₀] at hphase

/-- A worker that is asleep while both callers are in their loops has slept through both
    notifications. -/
theorem missed_of_bothJoining {s : ReceiveQueues} (hinv : ReceiveInv s) (h : BothJoining s)
    {qid : Nat} {lane : Lane} {draining : Bool} (hlane : s.lanes[qid]? = some lane)
    (hp : lane.phase = .asleep draining) : lane.missed = 2 := by
  have hloop : ∀ {c : Closing}, c.inLoop = true → closingAnnounced qid c = 1 := by
    intro c hc
    cases c with
    | joining next => rfl
    | waiting next => rfl
    | _ => cases hc
  obtain ⟨hr, hs⟩ := h
  rw [(hinv.lanes qid lane hlane).missed_of_resting (by rw [hp]; rfl), announced]
  unfold receiverClosing at hr
  unfold stopperClosing at hs
  split at hr
  · next c hc =>
    split at hs
    · next c' hc' => rw [hc, hc', runAnnounced, stopAnnounced, hloop hr, hloop hs]
    · cases hs
  · cases hr

/-- What a `stop` that has returned leaves behind. -/
theorem receive_returned {s : ReceiveQueues} (hinv : ReceiveInv s) (h : s.stopper = .returned) :
    (∀ lane ∈ s.lanes, lane.phase = .exited) ∧
    (s.lanes.map fun lane => lane.queue.length).sum ≤ 1 := by
  have hexited : ∀ lane ∈ s.lanes, lane.phase = .exited := by
    intro lane hmem
    obtain ⟨qid, hlane⟩ := List.mem_iff_getElem?.mp hmem
    have hlt := (List.getElem?_eq_some_iff.mp hlane).1
    have hjoined := hinv.closed.stopper_joined qid (by rw [h]; exact hlt)
    exact hasExited_iff.mp hjoined lane hlane
  refine ⟨hexited, ?_⟩
  have hsame : s.lanes.map (fun lane => lane.queue.length) = s.lanes.map laneStranded :=
    List.map_congr_left fun lane hmem => (if_pos (hexited lane hmem)).symm
  rw [hsame]
  exact hinv.stranded.le_one

/-- The queues and their capacity are made once. -/
theorem receive_constants {s s' : ReceiveQueues} (hm : Moves s s') :
    s'.capacity = s.capacity ∧ s'.lanes.length = s.lanes.length := by
  cases hm with
  | worker => exact ⟨rfl, length_onLane ..⟩
  | spurious => exact ⟨rfl, length_onLane ..⟩
  | stored => exact ⟨rfl, length_onLane ..⟩
  | notified => exact ⟨rfl, length_onLane ..⟩
  | closing c c' s₁ hr hc => cases hc <;> exact ⟨rfl, by simp⟩
  | stopClosing c c' s₁ hp hc => cases hc <;> exact ⟨rfl, by simp⟩
  | _ => exact ⟨rfl, rfl⟩

/-- Whatever the order of steps: each queue is first in first out and loses nothing, is never
    longer than its capacity and wakes its worker; the datagrams are dealt in turn, and each that
    was counted as received was stored, dropped and counted in front of a full queue, or, at most
    one, given up for a stop. With the flag clear every run ends; where it ends `stop` has returned,
    every worker has exited and at most one datagram is left, unless both callers of
    `stopAndJoinWorkers` have come to their loops over `m_workers`: then no run leads to the end of
    `stop`, and a worker that is asleep has slept through both notifications. -/
theorem receive_queues (numWorkers queueCapacity : Nat) (es : List Event) (s : ReceiveQueues)
    (h : exec step (init numWorkers queueCapacity) es = some s) :
    s.lanes.length = (if numWorkers = 0 then 1 else numWorkers) ∧
    s.capacity = (if queueCapacity = 0 then 1024 else queueCapacity) ∧
    (∀ (qid : Nat) (lane : Lane), s.lanes[qid]? = some lane →
      storedIn s qid = lane.handled ++ workerHand lane.phase ++ lane.queue ∧
      lane.queue.length ≤ s.capacity ∧
      ∀ draining, lane.phase = .asleep draining → lane.queue ≠ [] → Noticed s qid) ∧
    (∀ (k : Nat) (d : Dealt), s.dealt[k]? = some d → d.qid = k % 2 ^ 32 % s.lanes.length ∧
      ∀ len, d.fate = .dropped len → len = s.capacity) ∧
    s.receivedPacketNumFromSocket =
      UInt64.ofNat (s.dealt.length + (runHand s.receiver).length) ∧
    s.droppedPackets = UInt64.ofNat (s.dealt.countP fun d => wasDropped d.fate) ∧
    s.dealt.countP (fun d => wasAbandoned d.fate) ≤ 1 ∧
    (s.running = false → ∀ es' s', exec step s es' = some s' → es'.length ≤ receiveWork s) ∧
    (s.stopper ≠ .notCalled → (∀ e, (∀ qid, e ≠ .spuriousWake qid) → s.step e = none) →
      s.stopper = .returned ∨ BothJoining s) ∧
    (BothJoining s → (∀ es' s', exec step s es' = some s' → s'.stopper ≠ .returned) ∧
      ∀ (qid : Nat) (lane : Lane) (draining : Bool), s.lanes[qid]? = some lane →
        lane.phase = .asleep draining → lane.missed = 2) ∧
    (s.stopper = .returned → s.receiver = .closing .done ∧
      (∀ lane ∈ s.lanes, lane.phase = .exited) ∧
      (s.lanes.map fun lane => lane.queue.length).sum ≤ 1) := by
  have hinv := exec_invariant receiveInv_step h (receiveInv_init numWorkers queueCapacity)
  obtain ⟨hcap, hlen⟩ : s.capacity = (init numWorkers queueCapacity).capacity ∧
      s.lanes.length = (init numWorkers queueCapacity).lanes.length := by
    have hkeep : ∀ t e t', step t e = some t' →
        t.capacity = (init numWorkers queueCapacity).capacity ∧
          t.lanes.length = (init numWorkers queueCapacity).lanes.length →
        t'.capacity = (init numWorkers queueCapacity).capacity ∧
          t'.lanes.length = (init numWorkers queueCapacity).lanes.length := by
      intro t e t' hstep hold
      obtain ⟨hcap, hlen⟩ := receive_constants (step_moves hstep)
      exact ⟨hcap.trans hold.1, hlen.trans hold.2⟩
    exact exec_invariant hkeep h ⟨rfl, rfl⟩
  refine ⟨hlen.trans (List.length_replicate ..), hcap, fun qid lane hlane => ?_, fun k d hk => ?_,
    hinv.dealt.received, hinv.dealt.drops, hinv.dealt.abandoned, fun hrun es' s' hrest => ?_,
    fun hcalled hstuck => (receive_stuck hinv hcalled hstuck).imp_right hinv.closed.met,
    fun hboth => ⟨fun es' s' hrest => ?_, fun qid lane draining => missed_of_bothJoining hinv hboth⟩,
    fun hret => ⟨hinv.closed.returned hret, receive_returned hinv hret⟩⟩
  · have hok := hinv.lanes qid lane hlane
    exact ⟨hok.conserve, hok.bounded, hok.asleep⟩
  · exact ⟨hinv.dealt.robin k d hk, hinv.dealt.found d (List.mem_of_getElem? hk)⟩
  · have hmeasure : ∀ t e t', True → step t e = some t' → ReceiveInv t ∧ t.running = false →
        receiveWork t' < receiveWork t :=
      fun t e t' _ hstep hclear => receiveWork_lt (step_moves hstep) (undefined_of_step hstep)
        hclear.1.closed hclear.2
    have hclear : ∀ t e t', step t e = some t' → ReceiveInv t ∧ t.running = false →
        ReceiveInv t' ∧ t'.running = false :=
      fun t e t' hstep hclear =>
        ⟨receiveInv_step t e t' hstep hclear.1, running_clear (step_moves hstep) hclear.2⟩
    exact exec_length_le hclear hmeasure (fun _ _ => trivial) hrest ⟨hinv, hrun⟩
  · have hstays : ∀ t e t', step t e = some t' → BothJoining t → BothJoining t' :=
      fun t e t' hstep => bothJoining_step (step_moves hstep)
    have hend := (exec_invariant hstays hrest hboth).2
    intro hret
    simp [stopperClosing, hret] at hend

/-- One worker with a queue of one: two datagrams come, and a stop whose two notifications fall
    between the worker's last test and its sleep. Both callers then join the worker. -/
def lostWakeRun : List Event :=
  [.receiver, .receive (.batch [⟨[1], none⟩, ⟨[2], none⟩]),
    .receiver, .receiver, .receiver, .receiver,
    -- the queue is full for the second
    .receiver, .receiver, .receiver, .receiver, .receiver,
    .worker 0, .worker 0, .worker 0, .worker 0, .worker 0,
    .stopCall, .stopper, .stopper, .receiver, .receiver, .receiver,
    .worker 0, .stopper, .receiver, .stopper, .receiver]

def lostWakeState : ReceiveQueues where
  capacity := 1
  running := false
  rr := 2
  receivedPacketNumFromSocket := 2
  droppedPackets := 1
  lanes := [{ phase := .asleep false, handled := [[1]], missed := 2 }]
  joinable := [true]
  receiver := .closing (.joining 0)
  stopper := .closing (.waiting 0)
  undefined := true
  dealt := [⟨0, [1], .stored⟩, ⟨0, [2], .dropped 1⟩]

theorem lostWakeRun_asleep : storedIn lostWakeState 0 = [[1]] ∧ lostWakeState.droppedPackets = 1 ∧
    BothJoining lostWakeState ∧
    (∀ es s, exec step lostWakeState es = some s → s.stopper ≠ .returned) := by
  have hrun : exec step (init 1 1) lostWakeRun = some lostWakeState := by decide +kernel
  obtain ⟨_, _, hlane, _, _, hdrops, _, _, hstuck, hboth, _⟩ :=
    receive_queues 1 1 lostWakeRun lostWakeState hrun
  have hmet : BothJoining lostWakeState :=
    (hstuck (by decide) fun e _ => rfl).resolve_left (by decide)
  exact ⟨(hlane 0 _ rfl).1, hdrops, hmet, (hboth hmet).1⟩

/-- `stop` is through with the workers before the receive thread comes to them. -/
def quietStopRun : List Event :=
  [.stopCall, .stopper, .stopper, .stopper, .worker 0, .worker 0, .stopper, .stopper, .stopper,
    .stopper, .receiver, .receiver, .receiver, .receiver, .receiver, .stopper]

example : (exec step (init 1 1) quietStopRun).map (·.stopper) = some .returned := by
  decide +kernel

end Ndtwin.Spec

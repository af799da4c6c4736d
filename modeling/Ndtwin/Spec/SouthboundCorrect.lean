import Ndtwin.Spec.FlowDispatcherCorrect
import Ndtwin.Spec.RouteLocalityCorrect
import Ndtwin.Twin.Southbound

/-!
# Concurrent flow changes are serial for every switch

Workers of different switches post side by side, and the proxy serves them side by side. For one
switch this cannot be told from a run in which its accepted jobs are posted one after the other
and nothing else happens.

## Key results

- `SouthboundInv`: what is posted is what the sender was given, less what a worker has left
- `sendJob_alike`: a job does the same to its switch whatever the other switches hold
- `southbound_serial`: every run, for every switch
-/

namespace Ndtwin.Spec

open Kernel Kernel.DispatcherSystem GuardedRun Twin

/-! ## The threads of the dispatcher -/

theorem acceptJob_threads (s : DispatcherSystem) (job : FlowJob) :
    s.threads <+: (s.acceptJob job).threads ∧ (s.acceptJob job).batches = s.batches := by
  unfold DispatcherSystem.acceptJob
  dsimp only
  split
  · exact ⟨List.prefix_rfl, rfl⟩
  · exact ⟨List.prefix_append _ _, rfl⟩

theorem acceptJobs_threads (jobs : List FlowJob) (s : DispatcherSystem) :
    s.threads <+: (jobs.foldl DispatcherSystem.acceptJob s).threads ∧
      (jobs.foldl DispatcherSystem.acceptJob s).batches = s.batches := by
  induction jobs generalizing s with
  | nil => exact ⟨List.prefix_rfl, rfl⟩
  | cons job jobs ih =>
    obtain ⟨hthreads, hbatches⟩ := acceptJob_threads s job
    obtain ⟨hthreads', hbatches'⟩ := ih (s.acceptJob job)
    exact ⟨hthreads.trans hthreads', hbatches'.trans hbatches⟩

theorem enqueueJobs_threads (jobs : List FlowJob) (s : DispatcherSystem) :
    s.threads <+: (s.enqueueJobs jobs).threads ∧ (s.enqueueJobs jobs).batches = s.batches := by
  unfold enqueueJobs
  split
  · exact acceptJobs_threads jobs { s with pendingNotify := s.pendingNotify + 1 }
  · exact ⟨List.prefix_rfl, rfl⟩

/-- What a step leaves of a thread: its switch, and that it is inside the sender, unless this is
    where the sender returns. -/
def KeepsThreads (s s' : DispatcherSystem) (e : Event) : Prop :=
  ∀ i w, s.threads[i]? = some w → ∃ w', s'.threads[i]? = some w' ∧ w'.dpid = w.dpid ∧
    (w.phase = .sending → e ≠ .sent i → w'.phase = .sending)

theorem keepsThreads_of_extends {s s' : DispatcherSystem} {e : Event}
    (h : s.threads <+: s'.threads) : KeepsThreads s s' e := by
  intro i w hw
  obtain ⟨rest, hrest⟩ := h
  refine ⟨w, ?_, rfl, fun hphase _ => hphase⟩
  rw [← hrest, List.getElem?_append_left (List.getElem?_eq_some_iff.mp hw).1]
  exact hw

theorem keepsThreads_of_wake {s s' : DispatcherSystem} {e : Event}
    (h : s'.threads = s.threads.map Worker.wake) : KeepsThreads s s' e := by
  intro i w hw
  refine ⟨Worker.wake w, ?_, wake_dpid w, fun hphase _ => ?_⟩
  · rw [h, List.getElem?_map, hw]
    rfl
  · rcases wake_phase w with ⟨hwaiting, _⟩ | ⟨_, hsame⟩
    · rw [hphase] at hwaiting
      exact nomatch hwaiting
    · rw [hsame]
      exact hphase

theorem keepsThreads_of_phase {s s' : DispatcherSystem} {e : Event} {j : Nat} {wj : Worker}
    {phase : WorkerPhase} (hwj : s.threads[j]? = some wj)
    (hsending : wj.phase = .sending → e = .sent j)
    (h : s'.threads = (s.setPhase j phase).threads) : KeepsThreads s s' e := by
  intro i w hw
  have hget : s'.threads[i]? = if j = i then some { w with phase := phase } else some w := by
    rw [h]
    show (s.threads.modify j _)[i]? = _
    rw [List.getElem?_modify, hw]
    split <;> rfl
  by_cases hji : j = i
  · subst hji
    obtain rfl : wj = w := Option.some.inj (hwj.symm.trans hw)
    rw [if_pos rfl] at hget
    exact ⟨_, hget, rfl, fun hphase hne => absurd (hsending hphase) hne⟩
  · rw [if_neg hji] at hget
    exact ⟨w, hget, rfl, fun hphase _ => hphase⟩

theorem checkWorker_threads (s : DispatcherSystem) (i : Nat) (dpid : UInt64) :
    (s.checkWorker i dpid).batches = s.batches ∧
      ∃ phase, (s.checkWorker i dpid).threads = (s.setPhase i phase).threads := by
  unfold checkWorker
  dsimp only
  split
  · exact ⟨rfl, _, rfl⟩
  · split
    · exact ⟨rfl, _, rfl⟩
    · split
      · exact ⟨rfl, _, rfl⟩
      · exact ⟨rfl, _, rfl⟩

/-- A step keeps the threads, and hands something to the sender only by `send`. -/
theorem step_threads {s s' : DispatcherSystem} {e : Event} (h : s.step e = some s') :
    KeepsThreads s s' e ∧
      ((s'.batches = s.batches ∧ ∀ i, e ≠ .send i) ∨
        ∃ i w burst, e = .send i ∧ s.threads[i]? = some w ∧ w.phase = .holding burst ∧
          s' = moved s i .sending s.d.queues (s.batches ++ [(w.dpid, burst)])) := by
  cases e with
  | start =>
    simp only [step] at h
    split at h
    · cases h
    · cases h
      exact ⟨keepsThreads_of_extends List.prefix_rfl, .inl ⟨rfl, by simp⟩⟩
  | enqueue job =>
    cases h
    obtain ⟨hthreads, hbatches⟩ := enqueueJobs_threads [job] s
    exact ⟨keepsThreads_of_extends hthreads, .inl ⟨hbatches, by simp⟩⟩
  | enqueueBulk jobs =>
    cases h
    obtain ⟨hthreads, hbatches⟩ := enqueueJobs_threads jobs s
    exact ⟨keepsThreads_of_extends hthreads, .inl ⟨hbatches, by simp⟩⟩
  | notify =>
    obtain ⟨_, rfl⟩ := step_call_cases.1 h
    exact ⟨keepsThreads_of_wake rfl, .inl ⟨rfl, by simp⟩⟩
  | spuriousWake i =>
    obtain ⟨w, hw, hphase, rfl⟩ := step_worker_cases.1 h
    exact ⟨keepsThreads_of_phase hw (by simp [hphase]) rfl, .inl ⟨rfl, by simp⟩⟩
  | check i =>
    obtain ⟨w, hw, hphase, rfl⟩ := step_worker_cases.2.1 h
    obtain ⟨hbatches, phase, hthreads⟩ := checkWorker_threads s i w.dpid
    exact ⟨keepsThreads_of_phase hw (by simp [hphase]) hthreads, .inl ⟨hbatches, by simp⟩⟩
  | send i =>
    obtain ⟨w, burst, hw, hphase, rfl⟩ := step_worker_cases.2.2.1 h
    exact ⟨keepsThreads_of_phase hw (by simp [hphase]) rfl,
      .inr ⟨i, w, burst, rfl, hw, hphase, rfl⟩⟩
  | sent i =>
    obtain ⟨w, hw, hphase, rfl⟩ := step_worker_cases.2.2.2 h
    exact ⟨keepsThreads_of_phase hw (fun _ => rfl) rfl, .inl ⟨rfl, by simp⟩⟩
  | stopCall =>
    simp only [step] at h
    split at h
    · cases h
      exact ⟨keepsThreads_of_extends List.prefix_rfl, .inl ⟨rfl, by simp⟩⟩
    · cases h
  | stopNotify =>
    obtain ⟨_, rfl⟩ := step_call_cases.2.1 h
    exact ⟨keepsThreads_of_wake rfl, .inl ⟨rfl, by simp⟩⟩
  | stopReturn =>
    obtain ⟨_, _, rfl⟩ := step_call_cases.2.2 h
    exact ⟨keepsThreads_of_extends List.prefix_rfl, .inl ⟨rfl, by simp⟩⟩

/-! ## What is posted -/

/-- What was posted for a switch. -/
def postedOf (s : Southbound) (dpid : UInt64) : List (FlowJob × Delivery × OpResult) :=
  s.posted.filter (·.1.dpid = dpid)

/-- The jobs among it. -/
def postedJobs (s : Southbound) (dpid : UInt64) : List FlowJob := (postedOf s dpid).map (·.1)

/-- What is posted for a switch is what its thread gave the sender, less what is left. -/
structure SouthboundInv (s : Southbound) : Prop where
  dispatcher : DispatcherInv s.dispatcher
  idle : ∀ dpid, dpid ∉ threadDpids s.dispatcher → postedJobs s dpid = []
  conserve : ∀ i w, s.dispatcher.threads[i]? = some w →
    postedJobs s w.dpid ++ s.remaining i = sentOf s.dispatcher w.dpid
  /-- Only a thread inside the sender has jobs left. -/
  busy : ∀ i, s.remaining i ≠ [] →
    ∃ w, s.dispatcher.threads[i]? = some w ∧ w.phase = .sending

theorem southboundInv_init (burstSize : Nat) (m : Proxy.TopologyManager) :
    SouthboundInv (Southbound.init burstSize m) where
  dispatcher := dispatcherInv_init burstSize
  idle := fun _ _ => rfl
  conserve := nofun
  busy := fun _ h => absurd rfl h

/-- The jobs a thread has left are for its switch. -/
theorem SouthboundInv.dpid_of_remaining {s : Southbound} (hinv : SouthboundInv s) {i : Nat}
    {w : Worker} (hw : s.dispatcher.threads[i]? = some w) {job : FlowJob}
    (hjob : job ∈ s.remaining i) : job.dpid = w.dpid := by
  have hsent : job ∈ sentOf s.dispatcher w.dpid := by
    rw [← hinv.conserve i w hw]
    exact List.mem_append_right _ hjob
  have hacc : job ∈ acceptedOf s.dispatcher w.dpid := by
    rw [(hinv.dispatcher.workerOk w (List.mem_of_getElem? hw)).conserve, List.append_assoc]
    exact List.mem_append_left _ hsent
  exact of_decide_eq_true (List.mem_filter.mp hacc).2

theorem sentOf_append (s : DispatcherSystem) (i : Nat) (phase : WorkerPhase)
    (queues : AssocMap UInt64 (List FlowJob)) (b : UInt64 × List FlowJob) (dpid : UInt64) :
    sentOf (moved s i phase queues (s.batches ++ [b])) dpid =
      sentOf s dpid ++ if b.1 = dpid then b.2 else [] := by
  by_cases hb : b.1 = dpid
  · simp [sentOf, moved, List.filter_append, hb]
  · simp [sentOf, moved, List.filter_append, hb]

/-- Two threads of one switch are the same. -/
theorem thread_unique {s : DispatcherSystem} (hinv : DispatcherInv s) {i j : Nat} {w v : Worker}
    (hw : s.threads[i]? = some w) (hv : s.threads[j]? = some v) (h : w.dpid = v.dpid) : i = j := by
  have hi : (threadDpids s)[i]? = some w.dpid := by simp [threadDpids, hw]
  have hj : (threadDpids s)[j]? = some w.dpid := by simp [threadDpids, hv, h]
  obtain ⟨hlt, -⟩ := List.getElem?_eq_some_iff.mp hi
  exact (List.getElem?_inj hlt hinv.registered.nodup).mp (hi.trans hj.symm)

/-- A thread that was not there before is of a switch that had none. -/
theorem dpid_of_new_thread {s s' : DispatcherSystem} {e : Event} (hinv : DispatcherInv s')
    (hkeeps : KeepsThreads s s' e) {i : Nat} {w : Worker} (hw : s'.threads[i]? = some w)
    (hnew : s.threads[i]? = none) : w.dpid ∉ threadDpids s := by
  intro hmem
  obtain ⟨v, hv, hdpid⟩ := List.mem_map.mp hmem
  obtain ⟨j, hj⟩ := List.mem_iff_getElem?.mp hv
  obtain ⟨v', hv', hdpid', -⟩ := hkeeps j v hj
  have heq : i = j := thread_unique hinv hw hv' (hdpid'.trans hdpid).symm
  rw [heq, hj] at hnew
  exact nomatch hnew

/-- A step of the dispatcher that hands nothing over. -/
theorem SouthboundInv.keep {s : Southbound} (hinv : SouthboundInv s) {d : DispatcherSystem}
    {e : Event} (hd : DispatcherInv d) (hkeeps : KeepsThreads s.dispatcher d e)
    (hbatches : d.batches = s.dispatcher.batches)
    (hreturn : ∀ i, e = .sent i → s.remaining i = []) :
    SouthboundInv { s with dispatcher := d } where
  dispatcher := hd
  idle := by
    intro dpid hdpid
    apply hinv.idle
    intro hmem
    apply hdpid
    obtain ⟨w, hw, rfl⟩ := List.mem_map.mp hmem
    obtain ⟨i, hi⟩ := List.mem_iff_getElem?.mp hw
    obtain ⟨w', hw', hdpid', -⟩ := hkeeps i w hi
    exact List.mem_map.mpr ⟨w', List.mem_of_getElem? hw', hdpid'⟩
  conserve := by
    intro i w hw
    show postedJobs s w.dpid ++ s.remaining i = sentOf d w.dpid
    have hsent : sentOf d w.dpid = sentOf s.dispatcher w.dpid := by simp only [sentOf, hbatches]
    rw [hsent]
    cases hi : s.dispatcher.threads[i]? with
    | some v =>
      obtain ⟨w', hw', hdpid, -⟩ := hkeeps i v hi
      obtain rfl : w = w' := Option.some.inj (hw.symm.trans hw')
      rw [hdpid]
      exact hinv.conserve i v hi
    | none =>
      have hnew := dpid_of_new_thread hd hkeeps hw hi
      have hrem : s.remaining i = [] := by
        by_contra hne
        obtain ⟨v, hv, -⟩ := hinv.busy i hne
        rw [hi] at hv
        cases hv
      rw [hinv.idle _ hnew, hrem, (hinv.dispatcher.idle _ hnew).2.1]
      rfl
  busy := by
    intro i hne
    obtain ⟨w, hw, hphase⟩ := hinv.busy i hne
    obtain ⟨w', hw', -, hsending⟩ := hkeeps i w hw
    exact ⟨w', hw', hsending hphase fun he => hne (hreturn i he)⟩

/-- A thread hands its burst to the sender: all of it is left to post. -/
theorem SouthboundInv.send {s : Southbound} (hinv : SouthboundInv s) {i : Nat} {w : Worker}
    {burst : List FlowJob} (hw : s.dispatcher.threads[i]? = some w)
    (hphase : w.phase = .holding burst) :
    SouthboundInv { s with
      dispatcher := moved s.dispatcher i .sending s.dispatcher.d.queues
        (s.dispatcher.batches ++ [(w.dpid, burst)])
      remaining := Function.update s.remaining i burst } := by
  have hrem : s.remaining i = [] := by
    by_contra hne
    obtain ⟨v, hv, hsending⟩ := hinv.busy i hne
    obtain rfl : w = v := Option.some.inj (hw.symm.trans hv)
    rw [hphase] at hsending
    exact nomatch hsending
  have hget : ∀ j, (moved s.dispatcher i .sending s.dispatcher.d.queues
      (s.dispatcher.batches ++ [(w.dpid, burst)])).threads[j]? =
        (s.dispatcher.threads[j]?).map
          (fun v => if i = j then { v with phase := .sending } else v) := by
    intro j
    show (s.dispatcher.threads.modify i _)[j]? = _
    rw [List.getElem?_modify]
    by_cases hij : i = j
    · simp [hij]
    · simp [hij]
  have hdpids : threadDpids (moved s.dispatcher i .sending s.dispatcher.d.queues
      (s.dispatcher.batches ++ [(w.dpid, burst)])) = threadDpids s.dispatcher := by
    apply List.ext_getElem?
    intro j
    rw [threadDpids, threadDpids, List.getElem?_map, hget, List.getElem?_map, Option.map_map]
    apply congrArg (fun f => Option.map f _)
    funext v
    show Worker.dpid (ite _ _ _) = v.dpid
    split <;> rfl
  refine
    { dispatcher := hinv.dispatcher.move_send hw hphase
      idle := fun dpid hdpid => hinv.idle dpid (hdpids ▸ hdpid)
      conserve := fun j v hv => ?_
      busy := fun j hne => ?_ }
  · obtain ⟨v₀, hv₀, rfl⟩ := Option.map_eq_some_iff.mp ((hget j).symm.trans hv)
    show postedJobs s _ ++ Function.update s.remaining i burst j = _
    rw [sentOf_append]
    by_cases hij : i = j
    · subst hij
      obtain rfl : w = v₀ := Option.some.inj (hw.symm.trans hv₀)
      have hc := hinv.conserve i w hw
      rw [hrem, List.append_nil] at hc
      simp [hc]
    · -- the burst is of another switch
      have hne : w.dpid ≠ v₀.dpid := fun heq => hij (thread_unique hinv.dispatcher hw hv₀ heq)
      rw [if_neg hij, if_neg hne, Function.update_of_ne (Ne.symm hij), List.append_nil]
      exact hinv.conserve j v₀ hv₀
  · by_cases hij : i = j
    · subst hij
      exact ⟨{ w with phase := .sending }, by rw [hget, hw]; simp, rfl⟩
    · have hne' : s.remaining j ≠ [] := by
        intro h
        apply hne
        show Function.update s.remaining i burst j = []
        rw [Function.update_of_ne (Ne.symm hij), h]
      obtain ⟨v, hv, hsending⟩ := hinv.busy j hne'
      exact ⟨v, by rw [hget, hv]; simp [hij], hsending⟩

/-- A thread posts its next job. -/
theorem SouthboundInv.post {s : Southbound} (hinv : SouthboundInv s) {i : Nat} {job : FlowJob}
    {rest : List FlowJob} (hrem : s.remaining i = job :: rest) (delivery : Delivery)
    (result : OpResult) (controllers : Controllers) :
    SouthboundInv { s with
      remaining := Function.update s.remaining i rest
      controllers := controllers
      posted := s.posted ++ [(job, delivery, result)] } := by
  obtain ⟨w, hw, hsending⟩ := hinv.busy i (by rw [hrem]; exact List.cons_ne_nil _ _)
  have hdpid : job.dpid = w.dpid :=
    hinv.dpid_of_remaining hw (by rw [hrem]; exact List.mem_cons_self)
  have hposted : ∀ d, postedJobs { s with posted := s.posted ++ [(job, delivery, result)] } d =
      postedJobs s d ++ if job.dpid = d then [job] else [] := by
    intro d
    by_cases hd : job.dpid = d
    · simp [postedJobs, postedOf, List.filter_append, hd]
    · simp [postedJobs, postedOf, List.filter_append, hd]
  refine
    { dispatcher := hinv.dispatcher
      idle := fun d hd => ?_
      conserve := fun j v hv => ?_
      busy := fun j hne => ?_ }
  · have hne : job.dpid ≠ d := by
      rintro rfl
      apply hd
      rw [hdpid]
      exact List.mem_map_of_mem (List.mem_of_getElem? hw)
    exact (hposted d).trans (by rw [if_neg hne, hinv.idle d hd]; rfl)
  · show postedJobs { s with posted := s.posted ++ [(job, delivery, result)] } v.dpid ++
      Function.update s.remaining i rest j = sentOf s.dispatcher v.dpid
    rw [hposted]
    by_cases hij : i = j
    · subst hij
      obtain rfl : w = v := Option.some.inj (hw.symm.trans hv)
      rw [if_pos hdpid, Function.update_self, List.append_assoc, ← hinv.conserve i w hw, hrem]
      rfl
    · have hne : job.dpid ≠ v.dpid := fun heq =>
        hij (thread_unique hinv.dispatcher hw hv (hdpid.symm.trans heq))
      rw [if_neg hne, Function.update_of_ne (Ne.symm hij), List.append_nil]
      exact hinv.conserve j v hv
  · by_cases hij : i = j
    · subst hij
      exact ⟨w, hw, hsending⟩
    · apply hinv.busy
      intro h
      apply hne
      show Function.update s.remaining i rest j = []
      rw [Function.update_of_ne (Ne.symm hij), h]

variable {kinds : AssocMap UInt64 SwitchKind} {carried : PostRequest → Option PostRequest}

/-- Every step keeps the accounts. -/
theorem SouthboundInv.step {s s' : Southbound} {e : Southbound.Event} (hinv : SouthboundInv s)
    (hb : 0 < s.dispatcher.d.burstSize) (h : s.step kinds carried e = some s') :
    SouthboundInv s' := by
  cases e with
  | dispatcher e =>
    simp only [Southbound.step] at h
    split at h
    · next hmay =>
      obtain ⟨d, hd, rfl⟩ := Option.map_eq_some_iff.mp h
      obtain ⟨hkeeps, hbatches⟩ := step_threads hd
      rcases hbatches with ⟨hsame, hne⟩ | ⟨i, w, burst, rfl, hw, hphase, rfl⟩
      · have hrem : s.remainingAfter e = s.remaining := by
          unfold Southbound.remainingAfter
          split
          · next i => exact absurd rfl (hne i)
          · rfl
        rw [hrem]
        refine hinv.keep (inv_step hb hd hinv.dispatcher) hkeeps hsame fun i he => ?_
        subst he
        exact List.isEmpty_iff.mp hmay
      · have hheld : Southbound.heldBy s.dispatcher i = burst := by
          obtain ⟨dpid, phase⟩ := w
          obtain rfl : phase = .holding burst := hphase
          simp only [Southbound.heldBy, hw]
        show SouthboundInv { s with
          dispatcher := _
          remaining := Function.update s.remaining i (Southbound.heldBy s.dispatcher i) }
        rw [hheld]
        exact hinv.send hw hphase
    · exact nomatch h
  | post i delivery =>
    simp only [Southbound.step] at h
    split at h
    · exact nomatch h
    · next job rest hrem =>
      obtain rfl := Option.some.inj h
      exact hinv.post hrem delivery _ _
  | handleLate k answers ryuReply =>
    simp only [Southbound.step] at h
    split at h
    · exact nomatch h
    · obtain rfl := Option.some.inj h
      exact ⟨hinv.dispatcher, hinv.idle, hinv.conserve, hinv.busy⟩

theorem southbound_step_burstSize {s s' : Southbound} {e : Southbound.Event}
    (h : s.step kinds carried e = some s') :
    s'.dispatcher.d.burstSize = s.dispatcher.d.burstSize := by
  cases e with
  | dispatcher e =>
    simp only [Southbound.step] at h
    split at h
    · obtain ⟨d, hd, rfl⟩ := Option.map_eq_some_iff.mp h
      exact step_burstSize hd
    · exact nomatch h
  | post i delivery =>
    simp only [Southbound.step] at h
    split at h
    · exact nomatch h
    · exact Option.some.inj h ▸ rfl
  | handleLate k answers ryuReply =>
    simp only [Southbound.step] at h
    split at h
    · exact nomatch h
    · exact Option.some.inj h ▸ rfl

/-! ## Order -/

/-- What is posted for a switch is a first part of what was sent for it. -/
theorem SouthboundInv.posted_prefix {s : Southbound} (hinv : SouthboundInv s) (d : UInt64) :
    postedJobs s d <+: sentOf s.dispatcher d := by
  by_cases hd : d ∈ threadDpids s.dispatcher
  · obtain ⟨w, hw, rfl⟩ := List.mem_map.mp hd
    obtain ⟨i, hi⟩ := List.mem_iff_getElem?.mp hw
    rw [← hinv.conserve i w hi]
    exact List.prefix_append _ _
  · rw [hinv.idle d hd]
    exact List.nil_prefix

/-- What was sent for a switch is a first part of what was accepted for it. -/
theorem sent_of_accepted {s : DispatcherSystem} (hinv : DispatcherInv s) (d : UInt64) :
    sentOf s d <+: acceptedOf s d := by
  by_cases hd : d ∈ threadDpids s
  · obtain ⟨w, hw, rfl⟩ := List.mem_map.mp hd
    rw [(hinv.workerOk w hw).conserve, List.append_assoc]
    exact List.prefix_append _ _
  · rw [(hinv.idle d hd).2.1]
    exact List.nil_prefix

/-- A switch whose thread has nothing left has everything posted. -/
theorem SouthboundInv.posted_eq {s : Southbound} (hinv : SouthboundInv s) {d : UInt64}
    (hrem : ∀ i w, s.dispatcher.threads[i]? = some w → w.dpid = d → s.remaining i = []) :
    postedJobs s d = sentOf s.dispatcher d := by
  by_cases hd : d ∈ threadDpids s.dispatcher
  · obtain ⟨w, hw, rfl⟩ := List.mem_map.mp hd
    obtain ⟨i, hi⟩ := List.mem_iff_getElem?.mp hw
    rw [← hinv.conserve i w hi, hrem i w hi rfl, List.append_nil]
  · rw [hinv.idle d hd, (hinv.dispatcher.idle d hd).2.1]

/-- Nothing is left where nothing can move. -/
theorem Settled.remaining {s : Southbound} (h : s.Settled kinds carried) (i : Nat) :
    s.remaining i = [] := by
  have hpost := h (.post i .unreachable) rfl
  simp only [Southbound.step] at hpost
  split at hpost
  · assumption
  · exact nomatch hpost

theorem Settled.quiet {s : Southbound} (h : s.Settled kinds carried) : Quiet s.dispatcher := by
  intro e he
  have hstep := h (.dispatcher e) (by cases e <;> first | rfl | exact nomatch he)
  have hmay : s.mayReturn e = true := by
    unfold Southbound.mayReturn
    split
    · rw [Settled.remaining h]
      rfl
    · rfl
  simp only [Southbound.step, hmay, if_true, Option.map_eq_none_iff] at hstep
  exact hstep

/-- A thread that has exited has nothing left. -/
theorem SouthboundInv.drained {s : Southbound} (hinv : SouthboundInv s)
    (hret : s.dispatcher.stopPhase = .returned) (d : UInt64) :
    s.dispatcher.acceptedBeforeStop.filter (·.dpid = d) <+: postedJobs s d := by
  rcases hinv.dispatcher.stopped (by simp [hret]) with ⟨_, _, _, hall⟩ | ⟨hnone, _⟩
  · have heq : postedJobs s d = sentOf s.dispatcher d := by
      refine hinv.posted_eq fun i w hi _ => ?_
      by_contra hne
      obtain ⟨v, hv, hsending⟩ := hinv.busy i hne
      obtain ⟨v', hv', hexited⟩ := hinv.dispatcher.joined hret i
        (hall i (List.getElem?_eq_some_iff.mp hi).1)
      obtain rfl : v = v' := Option.some.inj (hv.symm.trans hv')
      rw [hsending] at hexited
      exact nomatch hexited
    rw [heq]
    exact hinv.dispatcher.drained hret d
  · rw [hnone]
    exact List.nil_prefix

/-! ## What a job does -/

/-- The request of a job. -/
def jobRequest (job : FlowJob) : PostRequest :=
  match job.op with
  | .install => HttpRoutingStrategy.installAnEntry job.dpid job.priority job.match job.actions
      job.idleTimeout
  | .modify => HttpRoutingStrategy.modifyAnEntry job.dpid job.priority job.match job.actions
  | .delete => HttpRoutingStrategy.deleteAnEntry job.dpid job.match job.priority

/-- A request about a switch. -/
def aboutSwitch (d : UInt64) (request : PostRequest) : Bool :=
  match request.body.field? "dpid" with
  | some (.uint n) => n = d.toNat
  | _ => false

theorem sendJob_eq {M : Type → Type} [Monad M]
    (post : RoutingStrategy → PostRequest → M OpResult) (job : FlowJob) :
    FlowRoutingManager.sendJob kinds post job =
      FlowRoutingManager.postFor kinds post job.dpid (jobRequest job) := by
  obtain ⟨dpid, op, priority, «match», actions, idleTimeout⟩ := job
  cases op with
  | install => rfl
  | modify => rfl
  | delete => rfl

/-- The body of a request names the switch of the job. -/
theorem jobRequest_body (job : FlowJob) :
    ∃ fields, (jobRequest job).body = .obj (("dpid", .uint job.dpid.toNat) :: fields) := by
  obtain ⟨dpid, op, priority, «match», actions, idleTimeout⟩ := job
  cases op with
  | install => exact ⟨_, rfl⟩
  | modify => exact ⟨_, rfl⟩
  | delete =>
    simp only [jobRequest, HttpRoutingStrategy.deleteAnEntry]
    split
    · exact ⟨_, rfl⟩
    · exact ⟨_, rfl⟩

theorem aboutSwitch_jobRequest (d : UInt64) (job : FlowJob) :
    aboutSwitch d (jobRequest job) = decide (job.dpid = d) := by
  obtain ⟨fields, hbody⟩ := jobRequest_body job
  simp [aboutSwitch, hbody, Json.field?, UInt64.toNat_inj]

/-- Two pairs of controllers agree on a switch: on what the proxy holds of it, and on what Ryu
    handled about it. -/
structure SameFor (d : UInt64) (c c' : Controllers) : Prop where
  proxy : Proxy.SameAt d.toNat c.proxy c'.proxy
  ryu : c.ryu.filter (aboutSwitch d) = c'.ryu.filter (aboutSwitch d)

theorem SameFor.refl (d : UInt64) (c : Controllers) : SameFor d c c :=
  ⟨Proxy.SameAt.refl _ _, rfl⟩

theorem SameFor.trans {d : UInt64} {c c' c'' : Controllers} (h : SameFor d c c')
    (h' : SameFor d c' c'') : SameFor d c c'' :=
  ⟨h.proxy.trans h'.proxy, h.ryu.trans h'.ryu⟩

theorem SameFor.symm {d : UInt64} {c c' : Controllers} (h : SameFor d c c') : SameFor d c' c :=
  ⟨h.proxy.symm, h.ryu.symm⟩

/-- The request arrives as it was made, and its sender does not give up on one that is still to
    be handled. -/
def InTime (carried : PostRequest → Option PostRequest) (job : FlowJob) (delivery : Delivery) :
    Prop :=
  carried (jobRequest job) = some (jobRequest job) ∧ delivery ≠ .late

/-- The switches of a known data plane of another kind. -/
def NotOn (strategy : RoutingStrategy) (kinds : AssocMap UInt64 SwitchKind) (d : UInt64) : Prop :=
  FlowRoutingManager.getStrategyForDpid kinds d ≠ some strategy

/-- What a job does: the same to its switch whatever the others hold, nothing to the others, and
    nothing at the controller that its switch does not belong to. -/
structure Alike (job : FlowJob) (c c' : Controllers) (r r' : OpResult × Controllers) : Prop where
  result : r.1 = r'.1
  same : SameFor job.dpid r.2 r'.2
  frame : ∀ d, d ≠ job.dpid → SameFor d c r.2
  late : r.2.late = c.late

theorem handle_alike {job : FlowJob} {c c' : Controllers} (h : SameFor job.dpid c c')
    (answers : Proxy.Answers) (ryuReply : Proxy.HttpReply) (strategy : RoutingStrategy) :
    (c.handle answers ryuReply (jobRequest job) strategy).1 =
        (c'.handle answers ryuReply (jobRequest job) strategy).1 ∧
      SameFor job.dpid (c.handle answers ryuReply (jobRequest job) strategy).2
        (c'.handle answers ryuReply (jobRequest job) strategy).2 ∧
      (∀ d, d ≠ job.dpid →
        SameFor d c (c.handle answers ryuReply (jobRequest job) strategy).2) ∧
      (c.handle answers ryuReply (jobRequest job) strategy).2.late = c.late := by
  cases strategy with
  | p4 =>
    obtain ⟨fields, hbody⟩ := jobRequest_body job
    have hdpid : Proxy.getField (("dpid", .uint job.dpid.toNat) :: fields) "dpid" =
        .uint job.dpid.toNat := by
      simp [Proxy.getField]
    have hpost := Proxy.postFlowEntry_confined h.proxy hdpid (jobRequest job).path answers
    rw [← hbody] at hpost
    refine ⟨hpost.1, ⟨hpost.2.sameAt, h.ryu⟩, fun d hne => ⟨?_, rfl⟩, rfl⟩
    apply hpost.2.left.sameAt
    intro heq
    exact hne (UInt64.toNat_inj.mp (Int.ofNat_inj.mp heq))
  | openFlow =>
    have hfilter : ∀ d, [jobRequest job].filter (aboutSwitch d) =
        if job.dpid = d then [jobRequest job] else [] := by
      intro d
      rw [List.filter_singleton, aboutSwitch_jobRequest]
      simp
    refine ⟨rfl, ⟨h.proxy, ?_⟩, fun d hne => ⟨Proxy.SameAt.refl _ _, ?_⟩, rfl⟩
    · simp only [Controllers.handle, List.filter_append, h.ryu]
    · simp only [Controllers.handle, List.filter_append, hfilter, if_neg (Ne.symm hne),
        List.append_nil]

/-- A job does the same to its switch whatever the other switches hold. -/
theorem sendJob_alike (kinds : AssocMap UInt64 SwitchKind) {job : FlowJob}
    {delivery : Delivery} {c c' : Controllers}
    (hintime : InTime carried job delivery) (h : SameFor job.dpid c c') :
    Alike job c c' (FlowRoutingManager.sendJob kinds (Twin.post carried delivery) job c)
      (FlowRoutingManager.sendJob kinds (Twin.post carried delivery) job c') := by
  obtain ⟨hcarried, hlate⟩ := hintime
  rw [sendJob_eq]
  unfold FlowRoutingManager.postFor
  cases FlowRoutingManager.getStrategyForDpid kinds job.dpid with
  -- a refused job reaches no controller
  | none => exact ⟨rfl, h, fun d _ => SameFor.refl d c, rfl⟩
  | some strategy =>
    simp only [Twin.post, hcarried]
    cases delivery with
    | answered answers ryuReply =>
      obtain ⟨hreply, hsame, hframe, hkept⟩ := handle_alike h answers ryuReply strategy
      exact ⟨congrArg (opResultOf strategy) hreply, hsame, hframe, hkept⟩
    | unreachable => exact ⟨rfl, h, fun d _ => SameFor.refl d c, rfl⟩
    | late => exact absurd rfl hlate

/-- A job goes to the controller of its data plane only. -/
theorem sendJob_notOn {job : FlowJob} {delivery : Delivery} (c : Controllers) :
    (NotOn .p4 kinds job.dpid → (FlowRoutingManager.sendJob kinds
      (Twin.post carried delivery) job c).2.proxy = c.proxy) ∧
    (NotOn .openFlow kinds job.dpid → (FlowRoutingManager.sendJob kinds
      (Twin.post carried delivery) job c).2.ryu = c.ryu) := by
  rw [sendJob_eq]
  unfold FlowRoutingManager.postFor NotOn
  cases FlowRoutingManager.getStrategyForDpid kinds job.dpid with
  | none => exact ⟨fun _ => rfl, fun _ => rfl⟩
  | some strategy =>
    cases delivery with
    | answered answers ryuReply =>
      cases hcarried : carried (jobRequest job) with
      | none =>
        simp [Twin.post, hcarried]
      | some arrived =>
        simp only [Twin.post, hcarried]
        cases strategy with
        | p4 => exact ⟨fun hne => absurd rfl hne, fun _ => rfl⟩
        | openFlow => exact ⟨fun _ => rfl, fun hne => absurd rfl hne⟩
    | unreachable => exact ⟨fun _ => rfl, fun _ => rfl⟩
    | late =>
      cases hcarried : carried (jobRequest job) with
      | none =>
        simp [Twin.post, hcarried]
      | some arrived =>
        simp [Twin.post, hcarried]

/-! ## The serial run -/

/-- The jobs of one switch and how each fares, one after the other, with nothing else going on:
    the results and the controllers. -/
def serialRun (kinds : AssocMap UInt64 SwitchKind) (carried : PostRequest → Option PostRequest)
    (jobs : List (FlowJob × Delivery)) (c : Controllers) : List OpResult × Controllers :=
  jobs.foldl (fun acc p =>
    let (result, c) := FlowRoutingManager.sendJob kinds (Twin.post carried p.2) p.1 acc.2
    (acc.1 ++ [result], c)) ([], c)

theorem serialRun_append (jobs : List (FlowJob × Delivery)) (job : FlowJob) (delivery : Delivery)
    (c : Controllers) :
    serialRun kinds carried (jobs ++ [(job, delivery)]) c =
      let r := serialRun kinds carried jobs c
      let (result, c) := FlowRoutingManager.sendJob kinds (Twin.post carried delivery) job r.2
      (r.1 ++ [result], c) := by
  unfold serialRun
  rw [List.foldl_append]
  rfl

/-- A serial run leaves the controller that its switch does not belong to. -/
theorem serialRun_notOn {d : UInt64} (jobs : List (FlowJob × Delivery))
    (hjobs : ∀ p ∈ jobs, p.1.dpid = d) (c : Controllers) :
    (NotOn .p4 kinds d → (serialRun kinds carried jobs c).2.proxy = c.proxy) ∧
      (NotOn .openFlow kinds d → (serialRun kinds carried jobs c).2.ryu = c.ryu) := by
  induction jobs using List.reverseRecOn with
  | nil => exact ⟨fun _ => rfl, fun _ => rfl⟩
  | append_singleton jobs p ih =>
    obtain ⟨job, delivery⟩ := p
    obtain ⟨hproxy, hryu⟩ := ih fun p hp => hjobs p (List.mem_append_left _ hp)
    have hd : job.dpid = d := hjobs _ (List.mem_append_right _ List.mem_cons_self)
    subst hd
    obtain ⟨hproxy', hryu'⟩ := @sendJob_notOn kinds carried job delivery
      (serialRun kinds carried jobs c).2
    rw [serialRun_append]
    exact ⟨fun hnot => (hproxy' hnot).trans (hproxy hnot),
      fun hnot => (hryu' hnot).trans (hryu hnot)⟩

/-- The jobs posted for a switch, and how each fared. -/
def attemptsOf (s : Southbound) (d : UInt64) : List (FlowJob × Delivery) :=
  (postedOf s d).map fun p => (p.1, p.2.1)

/-- Their results, as the kernel saw them. -/
def resultsOf (s : Southbound) (d : UInt64) : List OpResult := (postedOf s d).map (·.2.2)

/-- The controllers hold of every switch what the serial run of its jobs leaves, and the kernel
    saw the same results. -/
structure Serial (kinds : AssocMap UInt64 SwitchKind) (carried : PostRequest → Option PostRequest)
    (m : Proxy.TopologyManager) (s : Southbound) : Prop where
  late : s.controllers.late = []
  same : ∀ d, SameFor d s.controllers (serialRun kinds carried (attemptsOf s d) { proxy := m }).2
  results : ∀ d, resultsOf s d = (serialRun kinds carried (attemptsOf s d) { proxy := m }).1

/-- A posted job keeps this. -/
theorem Serial.post {m : Proxy.TopologyManager} {s : Southbound} (h : Serial kinds carried m s)
    {job : FlowJob} {delivery : Delivery} (hintime : InTime carried job delivery)
    (remaining : Nat → List FlowJob) :
    let r := FlowRoutingManager.sendJob kinds (Twin.post carried delivery) job s.controllers
    Serial kinds carried m { s with
      remaining := remaining
      controllers := r.2
      posted := s.posted ++ [(job, delivery, r.1)] } := by
  intro r
  have hposted : ∀ d, postedOf { s with posted := s.posted ++ [(job, delivery, r.1)] } d =
      postedOf s d ++ if job.dpid = d then [(job, delivery, r.1)] else [] := by
    intro d
    by_cases hd : job.dpid = d
    · simp [postedOf, List.filter_append, hd]
    · simp [postedOf, List.filter_append, hd]
  have hattempts : ∀ d, attemptsOf { s with posted := s.posted ++ [(job, delivery, r.1)] } d =
      attemptsOf s d ++ if job.dpid = d then [(job, delivery)] else [] := by
    intro d
    rw [attemptsOf, hposted, List.map_append]
    split <;> rfl
  have hresults : ∀ d, resultsOf { s with posted := s.posted ++ [(job, delivery, r.1)] } d =
      resultsOf s d ++ if job.dpid = d then [r.1] else [] := by
    intro d
    rw [resultsOf, hposted, List.map_append]
    split <;> rfl
  -- the job of the concurrent run against the job at the end of the serial run
  have halike := sendJob_alike kinds hintime (h.same job.dpid)
  refine ⟨halike.late.trans h.late, fun d => ?_, fun d => ?_⟩
  · show SameFor d r.2 (serialRun kinds carried
      (attemptsOf { s with posted := s.posted ++ [(job, delivery, r.1)] } d) { proxy := m }).2
    rw [hattempts]
    by_cases hd : job.dpid = d
    · subst hd
      rw [if_pos rfl, serialRun_append]
      exact halike.same
    · rw [if_neg hd, List.append_nil]
      exact (halike.frame d (Ne.symm hd)).symm.trans (h.same d)
  · show resultsOf { s with posted := s.posted ++ [(job, delivery, r.1)] } d = (serialRun kinds
      carried (attemptsOf { s with posted := s.posted ++ [(job, delivery, r.1)] } d)
        { proxy := m }).1
    rw [hattempts, hresults]
    by_cases hd : job.dpid = d
    · subst hd
      rw [if_pos rfl, if_pos rfl, serialRun_append, h.results]
      exact congrArg (fun x => _ ++ [x]) halike.result
    · rw [if_neg hd, if_neg hd, List.append_nil, List.append_nil]
      exact h.results d

/-- Every posted job was in time. -/
def AllInTime (carried : PostRequest → Option PostRequest) (s : Southbound) : Prop :=
  ∀ p ∈ s.posted, InTime carried p.1 p.2.1

theorem serial_step {m : Proxy.TopologyManager} {s s' : Southbound} {e : Southbound.Event}
    (h : s.step kinds carried e = some s')
    (hserial : AllInTime carried s → Serial kinds carried m s) (hintime : AllInTime carried s') :
    Serial kinds carried m s' := by
  cases e with
  | dispatcher e =>
    simp only [Southbound.step] at h
    split at h
    · obtain ⟨d, _, rfl⟩ := Option.map_eq_some_iff.mp h
      obtain ⟨hlate, hsame, hresults⟩ := hserial hintime
      exact ⟨hlate, hsame, hresults⟩
    · exact nomatch h
  | post i delivery =>
    simp only [Southbound.step] at h
    split at h
    · exact nomatch h
    · next job rest hrem =>
      obtain rfl := Option.some.inj h
      have hbefore : AllInTime carried s := fun p hp => hintime p (List.mem_append_left _ hp)
      have hjob := hintime _ (List.mem_append_right _ List.mem_cons_self)
      exact (hserial hbefore).post hjob _
  | handleLate k answers ryuReply =>
    simp only [Southbound.step] at h
    split at h
    · exact nomatch h
    · next strategy request hlate =>
      -- nothing is late where everything was in time
      have hbefore : AllInTime carried s := by
        obtain rfl := Option.some.inj h
        exact hintime
      rw [(hserial hbefore).late] at hlate
      exact nomatch hlate

/-! ## Progress -/

/-- No more is posted than was accepted. -/
theorem SouthboundInv.posted_le {s : Southbound} (hinv : SouthboundInv s) :
    s.posted.length ≤ s.dispatcher.accepted.length := by
  have hcount : ∀ d, (s.posted.map (·.1.dpid)).count d ≤
      (s.dispatcher.accepted.map (·.dpid)).count d := by
    intro d
    have hle := ((hinv.posted_prefix d).trans (sent_of_accepted hinv.dispatcher d)).length_le
    rw [List.count_eq_countP, List.countP_map, List.count_eq_countP, List.countP_map,
      List.countP_eq_length_filter, List.countP_eq_length_filter]
    simp only [postedJobs, postedOf, acceptedOf, List.length_map] at hle
    simpa [Function.comp_def, beq_eq_decide] using hle
  have hsub := List.subperm_ext_iff.mpr fun d _ => hcount d
  simpa using hsub.length_le

/-- What is left to do: for the dispatcher, and to post. -/
def southboundWork (s : Southbound) : Nat :=
  work s.dispatcher + (s.dispatcher.accepted.length - s.posted.length)

/-- A progress event submits nothing. -/
theorem step_accepted {s s' : DispatcherSystem} {e : Event} (hprog : isProgress e = true)
    (h : s.step e = some s') : s'.accepted = s.accepted := by
  have hnone : submittedBy e = [] := by cases e <;> first | rfl | exact nomatch hprog
  rcases step_frame h with rfl | ⟨_, _, hacc, _⟩
  · rw [hnone, enqueueJobs]
    split
    · rfl
    · rfl
  · exact hacc

theorem southboundWork_lt {s s' : Southbound} {e : Southbound.Event}
    (hprog : Southbound.isProgress e = true) (h : s.step kinds carried e = some s')
    (hinv : SouthboundInv s) (hb : 0 < s.dispatcher.d.burstSize) :
    southboundWork s' < southboundWork s := by
  have hinv' := hinv.step hb h
  cases e with
  | dispatcher e =>
    simp only [Southbound.step] at h
    split at h
    · obtain ⟨d, hd, rfl⟩ := Option.map_eq_some_iff.mp h
      have he : isProgress e = true := by cases e <;> first | rfl | exact nomatch hprog
      have hlt := work_lt hb he hd hinv.dispatcher
      have hacc := step_accepted he hd
      simp only [southboundWork, hacc]
      omega
    · exact nomatch h
  | post i delivery =>
    have hle := hinv'.posted_le
    simp only [Southbound.step] at h
    split at h
    · exact nomatch h
    · obtain rfl := Option.some.inj h
      simp only [List.length_append, List.length_cons, List.length_nil] at hle
      simp only [southboundWork, List.length_append, List.length_cons, List.length_nil]
      omega
  | handleLate k answers ryuReply => exact nomatch hprog

/-! ## Whole runs -/

/-- What a run of the dispatcher and the controllers comes to, for every switch. -/
structure RunsSerially (kinds : AssocMap UInt64 SwitchKind)
    (carried : PostRequest → Option PostRequest) (m : Proxy.TopologyManager) (s : Southbound) :
    Prop where
  /-- The jobs posted for a switch are the first of those accepted for it, in order, … -/
  order : ∀ d, postedJobs s d <+: acceptedOf s.dispatcher d
  /-- … all of them when nothing can move any more, … -/
  complete : s.Settled kinds carried → ∀ d, postedJobs s d = acceptedOf s.dispatcher d
  /-- … which workers and posts get to, … -/
  settles : ∀ es' s', (∀ e ∈ es', Southbound.isProgress e = true) →
    exec (Southbound.step kinds carried) s es' = some s' → es'.length ≤ southboundWork s
  /-- … and all that were accepted before `stop` when it has returned. -/
  drained : s.dispatcher.stopPhase = .returned →
    ∀ d, s.dispatcher.acceptedBeforeStop.filter (·.dpid = d) <+: postedJobs s d
  /-- The controllers hold what these jobs leave when they are alone, and so are the results. -/
  serial : Serial kinds carried m s
  /-- The proxy has no part in a switch of another data plane, … -/
  proxyAlone : ∀ d, NotOn .p4 kinds d → Proxy.SameAt d.toNat s.controllers.proxy m
  /-- … and Ryu hears nothing of one. -/
  ryuAlone : ∀ d, NotOn .openFlow kinds d → s.controllers.ryu.filter (aboutSwitch d) = []

/-- In every run, whatever the order of the steps of producers, workers and controllers: when
    every posted request arrives as it was made and is answered or lost, and not handled after
    its sender gave up, each switch goes through its accepted jobs as if they were all there is. -/
theorem southbound_serial (kinds : AssocMap UInt64 SwitchKind)
    (carried : PostRequest → Option PostRequest) (burstSize : Nat) (hb : 0 < burstSize)
    (m : Proxy.TopologyManager) (es : List Southbound.Event) (s : Southbound)
    (h : exec (Southbound.step kinds carried) (Southbound.init burstSize m) es = some s)
    (hintime : AllInTime carried s) : RunsSerially kinds carried m s := by
  have hstep : ∀ s e s', Southbound.step kinds carried s e = some s' →
      SouthboundInv s ∧ s.dispatcher.d.burstSize = burstSize →
      SouthboundInv s' ∧ s'.dispatcher.d.burstSize = burstSize := by
    intro s e s' he hs
    exact ⟨hs.1.step (by omega) he, (southbound_step_burstSize he).trans hs.2⟩
  obtain ⟨hinv, hsize⟩ := exec_invariant hstep h ⟨southboundInv_init burstSize m, rfl⟩
  have hserial : Serial kinds carried m s := by
    have hstart : AllInTime carried (Southbound.init burstSize m) →
        Serial kinds carried m (Southbound.init burstSize m) :=
      fun _ => ⟨rfl, fun d => SameFor.refl d _, fun d => rfl⟩
    have hkept : ∀ s e s', Southbound.step kinds carried s e = some s' →
        (AllInTime carried s → Serial kinds carried m s) → AllInTime carried s' →
        Serial kinds carried m s' :=
      fun s e s' he hs hintime => serial_step he hs hintime
    exact exec_invariant hkept h hstart hintime
  have hattempts : ∀ d, ∀ p ∈ attemptsOf s d, p.1.dpid = d := by
    intro d p hp
    obtain ⟨q, hq, rfl⟩ := List.mem_map.mp hp
    exact of_decide_eq_true (List.mem_filter.mp hq).2
  refine
    { order := fun d => (hinv.posted_prefix d).trans (sent_of_accepted hinv.dispatcher d)
      complete := fun hsettled d => ?_
      settles := fun es' s' hprog hrun => ?_
      drained := hinv.drained
      serial := hserial
      proxyAlone := fun d hnot => ?_
      ryuAlone := fun d hnot => ?_ }
  · rw [hinv.posted_eq fun i _ _ _ => Settled.remaining hsettled i]
    exact quiet_sent hinv.dispatcher (Settled.quiet hsettled) d
  · exact exec_length_le hstep
      (fun s e s' hprog he hs => southboundWork_lt hprog he hs.1 (by omega)) hprog hrun
      ⟨hinv, hsize⟩
  · have hsame := (hserial.same d).proxy
    rw [(serialRun_notOn _ (hattempts d) _).1 hnot] at hsame
    exact hsame
  · rw [(hserial.same d).ryu, (serialRun_notOn _ (hattempts d) _).2 hnot]
    rfl

/-- A job that routes a host to a port. -/
private def routeJob (dpid : UInt64) (port : Nat) : FlowJob where
  dpid := dpid
  op := .install
  priority := 10
  «match» := .obj [("nw_dst", .str "10.0.0.1")]
  actions := .arr [.obj [("type", .str "OUTPUT"), ("port", .uint port)]]

/-- A P4 switch and an Open vSwitch bridge. -/
def mixedKinds : AssocMap UInt64 SwitchKind :=
  (AList.insert 1 .bmv2 (AList.insert 2 .ovs ∅))

def oneP4Switch : Proxy.TopologyManager where
  switches := (∅ : AssocMap Int Proxy.P4Switch).set 1 {}
  watchdog := { beaconInterval := 5 }

/-- Both workers post at the same time: the P4 switch is routed twice, and the bridge once. -/
def interleavedRun : List Southbound.Event :=
  [.dispatcher .start, .dispatcher (.enqueueBulk [routeJob 1 3, routeJob 2 5, routeJob 1 4]),
    .dispatcher (.check 0), .dispatcher (.check 1), .dispatcher (.send 0), .dispatcher (.send 1),
    .post 0 (.answered {} Proxy.successReply), .post 1 (.answered {} Proxy.successReply),
    .post 0 (.answered {} Proxy.successReply), .dispatcher (.sent 1), .dispatcher (.sent 0)]

theorem interleavedRun_serial :
    ∃ s, exec (Southbound.step mixedKinds some) (Southbound.init 2000 oneP4Switch)
        interleavedRun = some s ∧ RunsSerially mixedKinds some oneP4Switch s ∧
      s.controllers.proxy.installedRoutes.lookup (1, "10.0.0.1") = some 4 ∧
      s.controllers.ryu.length = 1 := by
  have hrun : (exec (Southbound.step mixedKinds some) (Southbound.init 2000 oneP4Switch)
      interleavedRun).map (fun s => (s.controllers.proxy.installedRoutes.lookup (1, "10.0.0.1"),
        s.controllers.ryu.length)) = some (some 4, 1) := by
    decide +kernel
  obtain ⟨s, hs, hview⟩ := Option.map_eq_some_iff.mp hrun
  obtain ⟨hroute, hryu⟩ := Prod.mk.inj hview
  refine ⟨s, hs, southbound_serial mixedKinds some 2000 (by decide) oneP4Switch interleavedRun s hs
    ?_, hroute, hryu⟩
  have hposted : s.posted.map (fun p => p.2.1) =
      List.replicate 3 (.answered {} Proxy.successReply) := by
    obtain rfl := Option.some.inj hs
    rfl
  intro p hp
  have hmem : p.2.1 ∈ s.posted.map (fun p => p.2.1) := List.mem_map_of_mem hp
  rw [hposted] at hmem
  rw [InTime, List.eq_of_mem_replicate hmem]
  exact ⟨rfl, nofun⟩

end Ndtwin.Spec

import Mathlib.Algebra.Order.Group.Defs
import Mathlib.Algebra.Order.Ring.Int
import Ndtwin.ForStd.Run
import Ndtwin.Spec.EmitterRunCorrect

/-!
# The age of buffered samples

An `emit` sends a full batch of its own switch, and then every batch of another switch whose
first sample is older than the delay. Nothing looks at the age of the emitting switch's own
batch, so a switch that alone goes on emitting slowly keeps its samples until the batch is
full.

A run is a list of emits at nondecreasing times; within one emit the clock stands still. The
times at which the buffered samples were accepted are kept beside the emitter.

Key results:
- `emit_buffered`, `emit_pendingSince`: what one emit leaves buffered, switch by switch
- `AgeInv.step`: the times kept beside the emitter are those of the buffered samples
- `no_old_sample_iff`: when no sample outstays the delay
-/

namespace Ndtwin.Proxy

namespace SFlowEmitter

variable {τ : Type}

/-! ## One emit -/

theorem sendSamples_pendingSince (env : EmitterEnv τ) (dpid : Int) (agent : SwitchAgent)
    (ps : List SampledPacket) (uptimeMs : Int) (e : SFlowEmitter τ) :
    (e.sendSamples env dpid agent ps uptimeMs).2.pendingSince = e.pendingSince := by
  unfold sendSamples
  split
  · rfl
  · dsimp only
    split <;> rfl

theorem flushOne_pendingSince (env : EmitterEnv τ) (dpid uptimeMs : Int) (e : SFlowEmitter τ) :
    (e.flushOne env dpid uptimeMs).2.pendingSince = e.pendingSince.erase dpid := by
  unfold flushOne
  dsimp only
  split
  · rfl
  · split
    · rfl
    · exact sendSamples_pendingSince _ _ _ _ _ _

/-- A sweep empties the buffers of its switches. -/
theorem foldl_flushAged_buffered (env : EmitterEnv τ) (uptimeMs : Int) (ds : List Int)
    (e : SFlowEmitter τ) (d : Int) :
    (ds.foldl (flushAged env uptimeMs) e).buffered d = if d ∈ ds then [] else e.buffered d := by
  induction ds generalizing e with
  | nil => rfl
  | cons dpid ds ih =>
    rw [List.foldl_cons, ih, flushAged, flushOne_buffered]
    by_cases hd : d = dpid <;> simp [hd, buffered]

theorem foldl_flushAged_pendingSince (env : EmitterEnv τ) (uptimeMs : Int) (ds : List Int)
    (e : SFlowEmitter τ) (d : Int) :
    (ds.foldl (flushAged env uptimeMs) e).pendingSince.lookup d =
      if d ∈ ds then none else e.pendingSince.lookup d := by
  induction ds generalizing e with
  | nil => rfl
  | cons dpid ds ih =>
    rw [List.foldl_cons, ih, flushAged, flushOne_pendingSince, AssocMap.lookup_erase_eq]
    by_cases hd : d = dpid <;> simp [hd]

theorem foldl_flushAged_settings (env : EmitterEnv τ) (uptimeMs : Int) (ds : List Int)
    (e : SFlowEmitter τ) :
    (ds.foldl (flushAged env uptimeMs) e).batchSize = e.batchSize ∧
      ∀ d ∈ e.agents, d ∈ (ds.foldl (flushAged env uptimeMs) e).agents := by
  -- a flush that fails keeps the registrations too
  induction ds generalizing e with
  | nil => exact ⟨rfl, fun _ => id⟩
  | cons dpid ds ih =>
    obtain ⟨hsize, hagents⟩ := ih (flushAged env uptimeMs e dpid)
    refine ⟨hsize.trans (flushOne_settings env dpid uptimeMs _).2, fun d hd => hagents d ?_⟩
    exact flushOne_registered env dpid uptimeMs hd

/-- The emitted sample fills the batch of its switch. -/
def FillsBatch (e : SFlowEmitter τ) (dpid : Int) : Prop :=
  e.batchSize ≤ ((e.buffered dpid).length : Int) + 1

/-- What a step of `emit` leaves of an emitter: the buffers, the ages of their first samples,
    the batch size and the registrations. -/
structure Leaves (e e' : SFlowEmitter τ) (buffers : Int → List SampledPacket)
    (firsts : Int → Option τ) : Prop where
  buffered : ∀ d, e'.buffered d = buffers d
  since : ∀ d, e'.pendingSince.lookup d = firsts d
  batchSize : e'.batchSize = e.batchSize
  agents : ∀ d ∈ e.agents, d ∈ e'.agents

open Classical in
/-- The part of `emit` before its sweep. -/
theorem emit_batch_leaves {env : EmitterEnv τ} {e : SFlowEmitter τ} {dpid : Int}
    (sample : SampledPacket) (uptimeMs : Int) (since : τ) :
    Leaves e
      (if e.batchSize ≤ ((e.buffered dpid ++ [sample]).length : Int) then
        flushOne env dpid uptimeMs { e with
          pending := e.pending.set dpid (e.buffered dpid ++ [sample])
          pendingSince := e.pendingSince.set dpid since
          readings := e.readings + 1
          batchesFlushedFull := e.batchesFlushedFull + 1 }
      else (true, { e with
        pending := e.pending.set dpid (e.buffered dpid ++ [sample])
        pendingSince := e.pendingSince.set dpid since
        readings := e.readings + 1 })).2
      (fun d => if d = dpid then (if FillsBatch e dpid then [] else e.buffered dpid ++ [sample])
        else e.buffered d)
      (fun d => if d = dpid then (if FillsBatch e dpid then none else some since)
        else e.pendingSince.lookup d) := by
  have hfull : e.batchSize ≤ ((e.buffered dpid ++ [sample]).length : Int) ↔ FillsBatch e dpid := by
    rw [FillsBatch, List.length_append, List.length_singleton]
    omega
  have hset : ∀ d, ((e.pending.set dpid (e.buffered dpid ++ [sample])).lookup d).getD [] =
      if d = dpid then e.buffered dpid ++ [sample] else e.buffered d := by
    intro d
    rw [AssocMap.lookup_set]
    split <;> rfl
  simp only [hfull]
  -- A full batch is sent at once, and its switch starts again without samples and without a time.
  by_cases h : FillsBatch e dpid
  · rw [if_pos h]
    refine ⟨fun d => ?_, fun d => ?_, (flushOne_settings ..).2, fun d hd => ?_⟩
    · rw [flushOne_buffered, if_pos h]
      by_cases hd : d = dpid
      · rw [if_pos hd, if_pos hd]
      · rw [if_neg hd, if_neg hd]
        exact (hset d).trans (if_neg hd)
    · rw [flushOne_pendingSince, AssocMap.lookup_erase_eq, if_pos h]
      by_cases hd : d = dpid
      · rw [if_pos hd, if_pos hd]
      · rw [if_neg hd, if_neg hd]
        exact (AssocMap.lookup_set ..).trans (if_neg hd)
    · exact flushOne_registered env dpid uptimeMs hd
  · rw [if_neg h]
    refine ⟨fun d => ?_, fun d => ?_, rfl, fun d hd => hd⟩
    · rw [if_neg h]
      exact hset d
    · rw [if_neg h]
      exact AssocMap.lookup_set ..

end SFlowEmitter

open SFlowEmitter

variable {τ : Type} [AddCommGroup τ] [LinearOrder τ]

/-- What an emitter finds outside besides the clock. -/
structure Surroundings (τ : Type) where
  millis : τ → Int
  accepts : Nat → Bool
  /-- `batch_max_delay_s` -/
  delay : τ

/-- What it finds outside during one call at time `t`. -/
def Surroundings.during (out : Surroundings τ) (t : τ) : EmitterEnv τ where
  monotonic _ := t
  isAged now since := decide (out.delay ≤ now - since)
  millis := out.millis
  accepts := out.accepts

@[simp] theorem isAged_during (out : Surroundings τ) (t since : τ) (n : Nat) :
    (out.during t).isAged ((out.during t).monotonic n) since = true ↔ out.delay ≤ t - since := by
  simp [Surroundings.during]

section Emit

variable (out : Surroundings τ) (t : τ)

/-- The batches that the sweep of one emit finds: those of other switches that are too old. -/
theorem mem_agedOthers {dpid d : Int} {pairs : List (Int × τ)} (readings : Nat) :
    d ∈ (agedOthers (out.during t) dpid pairs readings).1 ↔
      d ≠ dpid ∧ ∃ since, (d, since) ∈ pairs ∧ out.delay ≤ t - since := by
  induction pairs generalizing readings with
  | nil => simp [agedOthers]
  | cons pair pairs ih =>
    obtain ⟨other, first⟩ := pair
    rw [agedOthers]
    split
    · -- the switch that emits is passed over, whatever the age of its batch
      rename_i hown
      rw [ih]
      refine and_congr_right fun hne => ?_
      simp [hown, hne]
    · rename_i hother
      dsimp only
      -- the clock stands still, so every pair is compared with the same time
      by_cases haged : out.delay ≤ t - first
      · rw [if_pos ((isAged_during ..).mpr haged), List.mem_cons, ih]
        constructor
        · rintro (rfl | ⟨hne, since, hmem, hold⟩)
          · exact ⟨hother, first, List.mem_cons_self, haged⟩
          · exact ⟨hne, since, List.mem_cons_of_mem _ hmem, hold⟩
        · rintro ⟨hne, since, hmem, hold⟩
          rcases List.mem_cons.mp hmem with heq | hmem
          · exact .inl (Prod.mk.inj heq).1
          · exact .inr ⟨hne, since, hmem, hold⟩
      · rw [if_neg (mt (isAged_during ..).mp haged), ih]
        refine and_congr_right fun _ => ⟨?_, ?_⟩
        · rintro ⟨since, hmem, hold⟩
          exact ⟨since, List.mem_cons_of_mem _ hmem, hold⟩
        · rintro ⟨since, hmem, hold⟩
          rcases List.mem_cons.mp hmem with heq | hmem
          · obtain ⟨rfl, rfl⟩ := Prod.mk.inj heq
            exact absurd hold haged
          · exact ⟨since, hmem, hold⟩

/-- The first sample of a batch is too old at time `t`. -/
def TooOld (delay t : τ) (e : SFlowEmitter τ) (d : Int) : Prop :=
  ∃ since, e.pendingSince.lookup d = some since ∧ delay ≤ t - since

open Classical in
/-- What an emit leaves in the buffers. -/
theorem emit_leaves {e : SFlowEmitter τ} {dpid : Int} (hagent : dpid ∈ e.agents)
    (hbatch : 1 < e.batchSize) (sample : SampledPacket) (uptimeMs : Int) :
    Leaves e (e.emit (out.during t) dpid sample uptimeMs).2
      (fun d => if d = dpid then (if FillsBatch e dpid then [] else e.buffered dpid ++ [sample])
        else if TooOld out.delay t e d then [] else e.buffered d)
      (fun d => if d = dpid then
          (if FillsBatch e dpid then none else some ((e.pendingSince.lookup dpid).getD t))
        else if TooOld out.delay t e d then none else e.pendingSince.lookup d) := by
  obtain ⟨agent, hlookup⟩ := AssocMap.exists_of_mem hagent
  have hfirst := @emit_batch_leaves τ (out.during t) e dpid sample uptimeMs
    ((e.pendingSince.lookup dpid).getD ((out.during t).monotonic e.readings))
  unfold SFlowEmitter.emit
  rw [hlookup]
  dsimp only
  rw [if_pos hbatch]
  -- what the first part did is known by `hfirst` only
  revert hfirst
  generalize (if e.batchSize ≤ _ then _ else _ : Bool × SFlowEmitter τ) = first
  intro hfirst
  dsimp only
  -- the sweep finds what was too old before: the batch of this switch is none of its business
  have hswept : ∀ d, d ∈ (agedOthers (out.during t) dpid
      first.2.pendingSince.toPairs first.2.readings).1 ↔ d ≠ dpid ∧ TooOld out.delay t e d := by
    intro d
    rw [mem_agedOthers]
    refine and_congr_right fun hne => exists_congr fun since => and_congr_left fun _ => ?_
    rw [AssocMap.mem_toPairs, hfirst.since, if_neg hne]
  refine ⟨fun d => ?_, fun d => ?_, ?_, fun d hd => ?_⟩
  · rw [foldl_flushAged_buffered]
    simp only [hswept]
    show (if d ≠ dpid ∧ TooOld out.delay t e d then [] else first.2.buffered d) = _
    rw [hfirst.buffered]
    by_cases hd : d = dpid <;> simp [hd]
  · rw [foldl_flushAged_pendingSince]
    simp only [hswept]
    rw [hfirst.since]
    by_cases hd : d = dpid
    · simp [hd, Surroundings.during]
    · simp [hd]
  · exact (foldl_flushAged_settings ..).1.trans hfirst.batchSize
  · exact (foldl_flushAged_settings ..).2 d (hfirst.agents d hd)

end Emit

/-! ## Runs -/

/-- One call of `emit`. -/
structure EmitAt (τ : Type) where
  time : τ
  dpid : Int
  sample : SampledPacket
  uptimeMs : Int

/-- The emitter, the time of the last emit, and the buffered samples of each switch with the
    times at which they were accepted. -/
structure TimedEmitter (τ : Type) where
  emitter : SFlowEmitter τ
  now : τ
  held : Int → List (SampledPacket × τ)

/-- One emit. A buffer is sent as a whole or not at all. -/
def TimedEmitter.step (out : Surroundings τ) (s : TimedEmitter τ) (ev : EmitAt τ) :
    TimedEmitter τ :=
  let emitter := (s.emitter.emit (out.during ev.time) ev.dpid ev.sample ev.uptimeMs).2
  { emitter := emitter
    now := ev.time
    held := fun d =>
      if (emitter.buffered d).isEmpty then []
      else if d = ev.dpid then s.held d ++ [(ev.sample, ev.time)]
      else s.held d }

/-- An emitter with nothing buffered. -/
def TimedEmitter.start (agents : AssocMap Int SwitchAgent) (batchSize : Int)
    (maxHeaderBytes : Nat) (t : τ) : TimedEmitter τ where
  emitter := { (SFlowEmitter.init batchSize maxHeaderBytes : SFlowEmitter τ) with agents := agents }
  now := t
  held _ := []

/-- No sample is buffered that was accepted at or before the time of the last emit less the
    delay. -/
def NoneOld (delay : τ) (s : TimedEmitter τ) : Prop :=
  ∀ d, ∀ x ∈ s.held d, ¬ x.2 ≤ s.now - delay

/-- The sample fills the batch of its switch, or it and all that the switch has buffered are
    younger than the delay. -/
def OwnBatchYoung (delay : τ) (s : TimedEmitter τ) (ev : EmitAt τ) : Prop :=
  s.emitter.FillsBatch ev.dpid ∨
    ∀ x ∈ s.held ev.dpid ++ [(ev.sample, ev.time)], ev.time - delay < x.2

/-- What every emit keeps. -/
structure AgeInv (s : TimedEmitter τ) : Prop where
  samples : ∀ d, (s.held d).map Prod.fst = s.emitter.buffered d
  since : ∀ d, s.emitter.pendingSince.lookup d = (s.held d).head?.map Prod.snd
  ordered : ∀ d, (s.held d).Pairwise fun x y => x.2 ≤ y.2
  past : ∀ d, ∀ x ∈ s.held d, x.2 ≤ s.now
  batching : 1 < s.emitter.batchSize

/-- An emit of a registered switch, not before the last one. -/
def InTurn (s : TimedEmitter τ) (ev : EmitAt τ) : Prop :=
  ev.dpid ∈ s.emitter.agents ∧ s.now ≤ ev.time

section Step

variable {out : Surroundings τ} {s : TimedEmitter τ} {ev : EmitAt τ}

open Classical in
/-- Where the samples go. -/
theorem AgeInv.held_step (h : AgeInv s) (hev : InTurn s ev) (d : Int) :
    (s.step out ev).held d =
      if d = ev.dpid then
        (if s.emitter.FillsBatch ev.dpid then [] else s.held ev.dpid ++ [(ev.sample, ev.time)])
      else if TooOld out.delay ev.time s.emitter d then [] else s.held d := by
  have hbuffered := (emit_leaves out ev.time hev.1 h.batching ev.sample ev.uptimeMs).buffered d
  show (if ((SFlowEmitter.emit _ _ _ _ _).2.buffered d).isEmpty then [] else _) = _
  rw [hbuffered]
  by_cases hd : d = ev.dpid
  · subst hd
    by_cases hfull : s.emitter.FillsBatch ev.dpid <;> simp [hfull]
  · by_cases hold : TooOld out.delay ev.time s.emitter d
    · simp [hd, hold]
    · -- a buffer that is empty already held no samples
      have hempty : s.emitter.buffered d = [] → s.held d = [] := by
        rw [← h.samples]
        exact List.map_eq_nil_iff.mp
      by_cases hnil : s.emitter.buffered d = []
      · simp [hd, hold, hnil, hempty hnil]
      · simp [hd, hold, hnil]

/-- The times kept beside the emitter are those of the buffered samples, in order. -/
theorem AgeInv.step (h : AgeInv s) (hev : InTurn s ev) : AgeInv (s.step out ev) := by
  have hleaves := emit_leaves out ev.time hev.1 h.batching ev.sample ev.uptimeMs
  have hpast : ∀ d, ∀ x ∈ s.held d, x.2 ≤ ev.time := fun d x hx => (h.past d x hx).trans hev.2
  refine ⟨fun d => ?_, fun d => ?_, fun d => ?_, fun d => ?_, ?_⟩
  · rw [h.held_step hev]
    refine Eq.trans ?_ (hleaves.buffered d).symm
    by_cases hd : d = ev.dpid
    · by_cases hfull : s.emitter.FillsBatch ev.dpid <;> simp [hd, hfull, h.samples]
    · by_cases hold : TooOld out.delay ev.time s.emitter d <;> simp [hd, hold, h.samples]
  · rw [h.held_step hev]
    refine (hleaves.since d).trans ?_
    by_cases hd : d = ev.dpid
    · by_cases hfull : s.emitter.FillsBatch ev.dpid
      · simp [hd, hfull]
      · -- the first sample of a batch that was empty is the one just emitted
        rw [if_pos hd, if_pos hd, if_neg hfull, if_neg hfull, h.since]
        cases s.held ev.dpid <;> simp
    · by_cases hold : TooOld out.delay ev.time s.emitter d <;> simp [hd, hold, h.since]
  · rw [h.held_step hev]
    split
    · split
      · exact .nil
      · -- the new sample is the youngest
        refine List.pairwise_append.mpr ⟨h.ordered _, List.pairwise_singleton _ _, ?_⟩
        intro x hx y hy
        rw [List.mem_singleton.mp hy]
        exact hpast _ x hx
    · split
      · exact .nil
      · exact h.ordered d
  · rw [h.held_step hev]
    intro x hx
    show x.2 ≤ ev.time
    split at hx
    · split at hx
      · exact absurd hx List.not_mem_nil
      · rcases List.mem_append.mp hx with hx | hx
        · exact hpast _ x hx
        · rw [List.mem_singleton.mp hx]
    · split at hx
      · exact absurd hx List.not_mem_nil
      · exact hpast d x hx
  · show 1 < (SFlowEmitter.emit _ _ _ _ _).2.batchSize
    rw [hleaves.batchSize]
    exact h.batching

/-- The sweep covers every other switch, so a sample that is too old is one of the emitting
    switch. -/
theorem AgeInv.noneOld_step_iff [IsOrderedAddMonoid τ] (h : AgeInv s) (hev : InTurn s ev) :
    NoneOld out.delay (s.step out ev) ↔ OwnBatchYoung out.delay s ev := by
  constructor
  · intro hnone
    by_cases hfull : s.emitter.FillsBatch ev.dpid
    · exact .inl hfull
    · -- the batch stays, and what is in it is not too old
      refine .inr fun x hx => not_le.mp (hnone ev.dpid x ?_)
      rwa [h.held_step hev, if_pos rfl, if_neg hfull]
  · intro hyoung d x hx
    rw [h.held_step hev] at hx
    show ¬ x.2 ≤ ev.time - out.delay
    split at hx
    · split at hx
      · exact absurd hx List.not_mem_nil
      · rename_i hfull
        exact not_le.mpr (hyoung.resolve_left hfull x hx)
    · split at hx
      · exact absurd hx List.not_mem_nil
      · rename_i hold
        -- the first sample of the batch is young, and the others are younger
        have hsince := h.since d
        have hordered := h.ordered d
        cases hheld : s.held d with
        | nil => rw [hheld] at hx; exact absurd hx List.not_mem_nil
        | cons first rest =>
          rw [hheld] at hsince hordered hx
          have hfirst : ¬ out.delay ≤ ev.time - first.2 := fun haged => hold ⟨_, hsince, haged⟩
          have hle : first.2 ≤ x.2 := by
            rcases List.mem_cons.mp hx with rfl | hx
            · exact le_rfl
            · exact (List.pairwise_cons.mp hordered).1 x hx
          intro hbad
          exact hfirst (le_sub_comm.mp (hle.trans hbad))

end Step

/-- Emits of registered switches in the order of their times are all taken in turn. -/
theorem guarded_inTurn (out : Surroundings τ) {s : TimedEmitter τ} (h : AgeInv s)
    {events : List (EmitAt τ)} (hregistered : ∀ ev ∈ events, ev.dpid ∈ s.emitter.agents)
    (hordered : (s.now :: events.map EmitAt.time).Pairwise (· ≤ ·)) :
    GuardedRun.Guarded (TimedEmitter.step out) InTurn s events := by
  induction events generalizing s with
  | nil => trivial
  | cons ev events ih =>
    have hev : InTurn s ev :=
      ⟨hregistered ev List.mem_cons_self, (List.pairwise_cons.mp hordered).1 _ List.mem_cons_self⟩
    refine ⟨hev, ih (h.step hev) (fun ev' hev' => ?_) (List.pairwise_cons.mp hordered).2⟩
    -- an emit drops no registration
    exact (emit_leaves out ev.time hev.1 h.batching ev.sample ev.uptimeMs).agents _
      (hregistered ev' (List.mem_cons_of_mem ev hev'))

omit [AddCommGroup τ] in
theorem ageInv_start (agents : AssocMap Int SwitchAgent) {batchSize : Int}
    (hbatch : 1 < batchSize) (maxHeaderBytes : Nat) (t : τ) :
    AgeInv (TimedEmitter.start agents batchSize maxHeaderBytes t) where
  samples _ := rfl
  since _ := rfl
  ordered _ := .nil
  past _ x hx := absurd hx List.not_mem_nil
  batching := by
    show 1 < max 1 batchSize
    omega

/-- In a run, the times kept beside the emitter belong to the samples that it has buffered. -/
theorem run_held (out : Surroundings τ) (agents : AssocMap Int SwitchAgent) {batchSize : Int}
    (hbatch : 1 < batchSize) (maxHeaderBytes : Nat) (t : τ) {events : List (EmitAt τ)}
    (hregistered : ∀ ev ∈ events, ev.dpid ∈ agents)
    (hordered : (t :: events.map EmitAt.time).Pairwise (· ≤ ·)) (d : Int) :
    let s := GuardedRun.run (TimedEmitter.step out)
      (TimedEmitter.start agents batchSize maxHeaderBytes t) events
    (s.held d).map Prod.fst = s.emitter.buffered d := by
  have hstart := ageInv_start agents hbatch maxHeaderBytes t
  have hrun := GuardedRun.run_invariant
    (fun (s : TimedEmitter τ) ev (h : AgeInv s) (hev : InTurn s ev) => h.step hev) hstart
    (guarded_inTurn out hstart hregistered hordered)
  exact hrun.samples d

/-- Right after each emit no sample older than the delay is buffered, exactly when no emit leaves
    such a sample in the batch of its own switch. -/
theorem no_old_sample_iff [IsOrderedAddMonoid τ] (out : Surroundings τ)
    (agents : AssocMap Int SwitchAgent) {batchSize : Int} (hbatch : 1 < batchSize)
    (maxHeaderBytes : Nat) (t : τ) {events : List (EmitAt τ)}
    (hregistered : ∀ ev ∈ events, ev.dpid ∈ agents)
    (hordered : (t :: events.map EmitAt.time).Pairwise (· ≤ ·)) :
    (∀ pre, pre <+: events → NoneOld out.delay (GuardedRun.run (TimedEmitter.step out)
        (TimedEmitter.start agents batchSize maxHeaderBytes t) pre)) ↔
      GuardedRun.Guarded (TimedEmitter.step out) (OwnBatchYoung out.delay)
        (TimedEmitter.start agents batchSize maxHeaderBytes t) events := by
  have hstart := ageInv_start agents hbatch maxHeaderBytes t
  refine GuardedRun.forall_prefix_iff_guarded
    (fun s => AgeInv s ∧ NoneOld out.delay s) (fun s ev h hev hok => ?_) (fun s h => h.2)
    (fun s ev h hev hnot => mt (h.1.noneOld_step_iff hev).mp hnot)
    ⟨hstart, fun d x hx => absurd hx List.not_mem_nil⟩
    (guarded_inTurn out hstart hregistered hordered)
  exact ⟨h.1.step hev, (h.1.noneOld_step_iff hev).mpr hok⟩

/-! ## A slow sender -/

/-- Times in milliseconds, and the delay of 0.2 s. -/
def twoHundred : Surroundings Int where
  millis t := t
  accepts _ := true
  delay := 200

def oneAgent : AssocMap Int SwitchAgent :=
  (∅ : AssocMap Int SwitchAgent).insert 1 { agentIp := "192.168.123.11" }

def emptySample : SampledPacket := ⟨1, 2, 64, 256, []⟩

/-- The only switch emits at 0 and again at 300. -/
def slowEmits : List (EmitAt Int) := [⟨0, 1, emptySample, 0⟩, ⟨300, 1, emptySample, 300⟩]

theorem slowEmits_old : ¬ NoneOld 200 (GuardedRun.run (TimedEmitter.step twoHundred)
    (TimedEmitter.start oneAgent 4 128 0) slowEmits) := by
  intro h
  exact h 1 (emptySample, 0) (.head [(emptySample, 300)]) (by decide)

theorem no_old_sample_iff_slowEmits :
    (∀ pre, pre <+: slowEmits → NoneOld 200 (GuardedRun.run (TimedEmitter.step twoHundred)
        (TimedEmitter.start oneAgent 4 128 0) pre)) ↔
      GuardedRun.Guarded (TimedEmitter.step twoHundred) (OwnBatchYoung 200)
        (TimedEmitter.start oneAgent 4 128 0) slowEmits :=
  no_old_sample_iff twoHundred oneAgent (by decide) 128 0 (by decide) (by decide)

end Ndtwin.Proxy

import Ndtwin.ForStd.Run
import Ndtwin.Kernel.FlowPurge

/-!
# Purge Correctness

A pass of `purgeIdleFlows` decides which flows are idle in one lock section and erases them in
later ones. The table keeps the time of the latest sample of every flow, and what the pass has
listed stays idle as long as no sample of a listed flow comes in before its turn: then every flow
that is erased has had no sample for the timeout. A sample in between is erased with its flow.

## Key results

- `endTime_applySample`: what a sample does to the end times
- `purgeInv_step`: what every section keeps
- `purge_removes_only_idle`: runs in which no listed flow is sampled
-/

namespace Ndtwin.Kernel

open SFlow

namespace Collector

/-- The end time of a flow in the table. -/
def endTimeOf (c : Collector) (key : SFlow.FlowKey) : Option Int :=
  (c.flowInfoTable.lookup key).map FlowInfo.endTime

section Sample

variable (env : CollectorEnv) (now : Int) (henv : ∀ n, env.systemClock n = now)

include henv

theorem endTime_updateFlowTable (key key' : SFlow.FlowKey) (agentKey : AgentKey) (isIngress : Bool)
    (s : FlowSample) (c : Collector) :
    (updateFlowTable env key agentKey isIngress s c).endTimeOf key' =
      if key = key' then some now else c.endTimeOf key' := by
  have hend : ∃ info, info.endTime = now ∧
      (updateFlowTable env key agentKey isIngress s c).flowInfoTable =
        c.flowInfoTable.insert key info := by
    unfold updateFlowTable
    split
    · exact ⟨_, henv _, rfl⟩
    · exact ⟨_, henv _, rfl⟩
  obtain ⟨info, hinfo, htable⟩ := hend
  rw [endTimeOf, htable, AssocMap.lookup_insert_eq, endTimeOf]
  by_cases hkey : key = key'
  · rw [if_pos hkey, if_pos hkey.symm, Option.map_some, hinfo]
  · rw [if_neg hkey, if_neg (Ne.symm hkey)]

/-- A tracked sample sets the end time of its flow, and no other one. -/
theorem endTime_applyTracked (agentIp : UInt32) (s : FlowSample) (c : Collector)
    (key : SFlow.FlowKey) :
    (applyTracked env agentIp s c).endTimeOf key =
      if flowKeyOf s = key then some now else c.endTimeOf key := by
  unfold applyTracked
  extract_lets inputPort outputPort isIngress relevantPort bytes c₁ flow c₂
  have hbanked : c₁.endTimeOf key = c.endTimeOf key := by
    show endTimeOf (if env.mode = .mininet then _ else c) key = _
    split
    · rfl
    · rfl
  have hupdated : c₂.endTimeOf key = if flowKeyOf s = key then some now else c.endTimeOf key := by
    rw [← hbanked]
    exact endTime_updateFlowTable env now henv flow key _ isIngress s c₁
  split
  · exact hupdated
  · exact hupdated

theorem endTime_applySample (agentIp : UInt32) (event : SampleEvent) (c : Collector)
    (key : SFlow.FlowKey) :
    (applySample env agentIp event c).endTimeOf key =
      if event.flow? = some key then some now else c.endTimeOf key := by
  cases event with
  | skipped => rfl
  | counter interfaceIndex interfaceSpeed inputOctets outputOctets =>
    show (applyCounter _ _ _ _ _ _ c).endTimeOf key = c.endTimeOf key
    unfold applyCounter
    split
    · rfl
    · dsimp only
      split
      · rfl
      · rfl
  | flow s =>
    show (applyFlow env agentIp s c).endTimeOf key = _
    unfold applyFlow SampleEvent.flow?
    by_cases htracked : s.isTracked = true
    · simp only [htracked, if_true, Option.some.injEq]
      exact endTime_applyTracked env now henv agentIp s c key
    · simp only [htracked]
      rfl

end Sample

/-- The flows that a pass lists are idle. -/
theorem idle_of_mem_idleFlows {c : Collector} {now : Int} {key : SFlow.FlowKey}
    (h : key ∈ c.idleFlows now) : ∃ last, c.endTimeOf key = some last ∧
      flowIdleTimeout ≤ now - last := by
  unfold idleFlows at h
  obtain ⟨⟨key', info⟩, hmem, rfl⟩ := List.mem_map.mp h
  obtain ⟨hpair, hidle⟩ := List.mem_filter.mp hmem
  refine ⟨info.endTime, ?_, ?_⟩
  · rw [endTimeOf, AssocMap.mem_toPairs.mp hpair, Option.map_some]
  · unfold FlowInfo.isIdle at hidle
    split at hidle
    · exact nomatch hidle
    · exact of_decide_eq_true hidle

theorem endTimeOf_erase (c : Collector) (key key' : SFlow.FlowKey) :
    endTimeOf { c with flowInfoTable := c.flowInfoTable.erase key } key' =
      if key' = key then none else c.endTimeOf key' := by
  unfold endTimeOf
  dsimp only
  rw [AssocMap.lookup_erase_eq]
  split
  · rfl
  · rfl

end Collector

/-! ## Runs -/

namespace PurgeSystem

/-- The table knows when each of its flows was sampled last, and the listed flows that are still
    in it have been idle for the timeout. -/
structure PurgeInv (s : PurgeSystem) : Prop where
  latest : ∀ key last, s.collector.endTimeOf key = some last → s.latestSample key = some last
  listed : ∀ key ∈ s.pending, ∀ last, s.collector.endTimeOf key = some last →
    flowIdleTimeout ≤ s.now - last

/-- No flow that the pass has listed is sampled before it is erased. -/
def LeavesListed (s : PurgeSystem) : PurgeEvent → Prop
  | .sample _ event => ∀ key, event.flow? = some key → key ∉ s.pending
  | .tick _ | .list | .erase => True

instance (s : PurgeSystem) : ∀ event, Decidable (s.LeavesListed event)
  | .sample _ event => decidable_of_iff ((event.flow?).all fun key => key ∉ s.pending) (by
      simp only [LeavesListed]
      cases event.flow? with
      | none => simp
      | some key => simp)
  | .tick _ | .list | .erase => isTrue trivial

theorem purgeInv_start (now : Int) : PurgeInv { now := now } where
  latest _ _ h := nomatch h
  listed _ h := nomatch h

theorem purgeInv_step (env : CollectorEnv) {s : PurgeSystem} {event : PurgeEvent}
    (h : s.PurgeInv) (hok : s.LeavesListed event) : (s.step env event).PurgeInv := by
  cases event with
  | tick millis =>
    refine ⟨h.latest, ?_⟩
    intro key hkey last hlast
    have hidle := h.listed key hkey last hlast
    show flowIdleTimeout ≤ s.now + millis - last
    omega
  | sample agentIp event =>
    have hend : ∀ key, (s.step env (.sample agentIp event)).collector.endTimeOf key =
        if event.flow? = some key then some s.now else s.collector.endTimeOf key :=
      fun key => Collector.endTime_applySample _ s.now (fun _ => rfl) agentIp event s.collector key
    constructor
    · intro key last hlast
      rw [hend] at hlast
      show (if event.flow? = some key then some s.now else s.latestSample key) = some last
      split at hlast
      · next hflow => rw [if_pos hflow, hlast]
      · next hflow => rw [if_neg hflow, h.latest key last hlast]
    · intro key hkey last hlast
      -- a listed flow is not the one that is sampled, so its end time is as it was
      have hother : event.flow? ≠ some key := fun hflow => hok key hflow hkey
      rw [hend, if_neg hother] at hlast
      exact h.listed key hkey last hlast
  | list =>
    unfold step
    cases hphase : s.phase with
    | sleeping =>
      refine ⟨h.latest, ?_⟩
      intro key hkey last hlast
      obtain ⟨last', hlast', hidle⟩ := Collector.idle_of_mem_idleFlows hkey
      have hsame : some last' = some last := hlast'.symm.trans hlast
      rw [← Option.some.inj hsame]
      exact hidle
    | erasing toRemove => exact h
  | erase =>
    unfold step
    cases hphase : s.phase with
    | sleeping => exact h
    | erasing toRemove =>
      have hpending : s.pending = toRemove := by rw [pending, hphase]
      cases toRemove with
      | nil => exact ⟨h.latest, fun key hkey => nomatch hkey⟩
      | cons key rest =>
        constructor
        · intro key' last hlast
          rw [Collector.endTimeOf_erase] at hlast
          split at hlast
          · exact nomatch hlast
          · exact h.latest key' last hlast
        · intro key' hkey' last hlast
          rw [Collector.endTimeOf_erase] at hlast
          split at hlast
          · exact nomatch hlast
          · refine h.listed key' ?_ last hlast
            rw [hpending]
            exact List.mem_cons_of_mem key hkey'

/-- Only the purge takes a flow out of the table, and only the next one it has listed. -/
theorem pending_of_removes {env : CollectorEnv} {s : PurgeSystem} {event : PurgeEvent}
    {key : SFlow.FlowKey} (h : s.Removes env event key) : key ∈ s.pending := by
  obtain ⟨hmem, hgone⟩ := h
  have hend : ∀ c : Collector, key ∈ c.flowInfoTable ↔ c.endTimeOf key ≠ none := by
    intro c
    rw [Collector.endTimeOf, Ne, Option.map_eq_none_iff, AList.lookup_eq_none, not_not]
  rw [hend] at hmem hgone
  cases event with
  | tick millis => exact absurd hmem hgone
  | sample agentIp event =>
    -- a sample writes end times, it drops no flow
    refine absurd ?_ hgone
    show (Collector.applySample _ agentIp event s.collector).endTimeOf key ≠ none
    rw [Collector.endTime_applySample _ s.now (fun _ => rfl)]
    split
    · exact Option.some_ne_none _
    · exact hmem
  | list =>
    unfold step at hgone
    cases hphase : s.phase with
    | sleeping =>
      rw [hphase] at hgone
      exact absurd hmem hgone
    | erasing toRemove =>
      rw [hphase] at hgone
      exact absurd hmem hgone
  | erase =>
    unfold step at hgone
    unfold pending
    cases hphase : s.phase with
    | sleeping =>
      rw [hphase] at hgone
      exact absurd hmem hgone
    | erasing toRemove =>
      rw [hphase] at hgone
      cases toRemove with
      | nil => exact absurd hmem hgone
      | cons next rest =>
        -- the step erases the head of the list and nothing else
        by_cases hnext : key = next
        · rw [hnext]
          exact List.mem_cons_self
        · refine absurd ?_ hgone
          dsimp only
          rw [Collector.endTimeOf_erase, if_neg hnext]
          exact hmem

end PurgeSystem

end Ndtwin.Kernel

namespace Ndtwin.Spec

open Ndtwin.Kernel

/-- In every run from the start in which no flow is sampled between the moment a pass lists it
    and the moment the pass erases it, each flow that is removed had its latest sample
    `FLOW_IDLE_TIMEOUT` ago or earlier. -/
theorem purge_removes_only_idle (env : CollectorEnv) (start : Int) (events : List PurgeEvent)
    (hleaves : GuardedRun.Guarded (PurgeSystem.step env) PurgeSystem.LeavesListed
      { now := start } events)
    (before : List PurgeEvent) (event : PurgeEvent) (hwithin : before ++ [event] <+: events)
    (key : SFlow.FlowKey)
    (hremoves : (GuardedRun.run (PurgeSystem.step env) { now := start } before).Removes env event
      key) :
    ∃ last, (GuardedRun.run (PurgeSystem.step env) { now := start } before).latestSample key =
        some last ∧
      flowIdleTimeout ≤
        (GuardedRun.run (PurgeSystem.step env) { now := start } before).now - last := by
  obtain ⟨rest, hevents⟩ := hwithin
  rw [← hevents, GuardedRun.guarded_append, GuardedRun.guarded_append] at hleaves
  have hinv := GuardedRun.run_invariant
    (fun (s : PurgeSystem) e hs he => PurgeSystem.purgeInv_step env hs he)
    (PurgeSystem.purgeInv_start start) hleaves.1.1
  generalize GuardedRun.run (PurgeSystem.step env) { now := start } before = s at hinv hremoves
  have hlisted := PurgeSystem.pending_of_removes hremoves
  obtain ⟨info, hinfo⟩ := AssocMap.exists_of_mem hremoves.1
  have hlast : s.collector.endTimeOf key = some info.endTime := by
    rw [Collector.endTimeOf, hinfo, Option.map_some]
  exact ⟨info.endTime, hinv.latest key _ hlast, hinv.listed key hlisted _ hlast⟩

/-- A collector in which every interface index is a port. -/
def plainEnv : CollectorEnv where
  mode := .testbed
  lookupOfport := id
  pathKnown _ _ := false
  steadyClock _ := 0
  systemClock _ := 0

/-- A sample of a TCP flow that entered at port 1. -/
def tcpSample : FlowSample where
  samplingRate := 1
  inputPort := 1
  outputPort := 2
  frameLength := 100
  frag := 0
  protocol := 6
  srcIp := 1
  dstIp := 2

/-- The flow is sampled once and purged after the timeout. -/
def quietFlow : List PurgeEvent := [.sample 7 (.flow tcpSample), .tick 15000, .list, .erase]

theorem purge_quietFlow :
    (GuardedRun.run (PurgeSystem.step plainEnv) { now := 0 } (quietFlow.take 3)).Removes plainEnv
      .erase (Collector.flowKeyOf tcpSample) ∧
    ∃ last, (GuardedRun.run (PurgeSystem.step plainEnv) { now := 0 }
        (quietFlow.take 3)).latestSample (Collector.flowKeyOf tcpSample) = some last ∧
      flowIdleTimeout ≤ (GuardedRun.run (PurgeSystem.step plainEnv) { now := 0 }
        (quietFlow.take 3)).now - last := by
  have hremoves : (GuardedRun.run (PurgeSystem.step plainEnv) { now := 0 }
      (quietFlow.take 3)).Removes plainEnv .erase (Collector.flowKeyOf tcpSample) :=
    ⟨by decide +kernel, by decide +kernel⟩
  exact ⟨hremoves, purge_removes_only_idle plainEnv 0 quietFlow (by decide +kernel) _ .erase
    (by decide +kernel) _ hremoves⟩

/-- The flow is sampled again after the pass has listed it: it is erased with the new sample. -/
theorem purge_loses_fresh_sample :
    ¬ ∀ (env : CollectorEnv) (start : Int) (before : List PurgeEvent) (event : PurgeEvent)
        (key : SFlow.FlowKey),
      (GuardedRun.run (PurgeSystem.step env) { now := start } before).Removes env event key →
      ∃ last, (GuardedRun.run (PurgeSystem.step env) { now := start } before).latestSample key =
          some last ∧
        flowIdleTimeout ≤
          (GuardedRun.run (PurgeSystem.step env) { now := start } before).now - last := by
  intro h
  obtain ⟨last, hlast, hidle⟩ := h plainEnv 0
    [.sample 7 (.flow tcpSample), .tick 15000, .list, .sample 7 (.flow tcpSample)] .erase
    (Collector.flowKeyOf tcpSample) ⟨by decide +kernel, by decide +kernel⟩
  have hfresh : last = 15000 := by
    have hsample : (GuardedRun.run (PurgeSystem.step plainEnv) { now := 0 }
        [.sample 7 (.flow tcpSample), .tick 15000, .list,
          .sample 7 (.flow tcpSample)]).latestSample (Collector.flowKeyOf tcpSample) =
        some 15000 := by decide +kernel
    rw [hsample] at hlast
    exact (Option.some.inj hlast).symm
  rw [hfresh] at hidle
  exact absurd hidle (by decide +kernel)

end Ndtwin.Spec

import Ndtwin.ForStd.List
import Ndtwin.ForStd.Run
import Ndtwin.Proxy.LinkWatchdog

/-!
# Acknowledged beliefs of the link watchdog

A beacon refreshes the time of an entry and never its belief, so the belief that a pass
reports is still the belief when the kernel's answer is recorded: an acknowledged entry
agrees with the last report the kernel accepted, and a pass reports every entry that is
not acknowledged.

## Key results

- `inv_watchdog_step`: every step keeps the agreement
- `remaining_step`: a pass works off exactly the list it took at its beginning
- `watchdog_agrees`: both, over every run
-/

namespace Ndtwin.Spec

open Proxy Proxy.WatchdogSystem Proxy.LinkWatchdog GuardedRun

/-! ## Beliefs -/

/-- What the watchdog believes of a link, and whether that is acknowledged. -/
def beliefOf (m : AssocMap Link LinkEntry) (link : Link) : Option (Bool × Bool) :=
  (m.lookup link).map fun e => (e.down, e.acked)

/-- The beliefs are kept; a link that is new is up, and needs no report. -/
def BeliefsKept (m m' : AssocMap Link LinkEntry) : Prop :=
  ∀ link, beliefOf m' link = beliefOf m link ∨
    (beliefOf m link = none ∧ beliefOf m' link = some (false, true))

theorem beliefOf_set (m : AssocMap Link LinkEntry) (link l : Link) (e : LinkEntry) :
    beliefOf (m.set link e) l = if l = link then some (e.down, e.acked) else beliefOf m l := by
  unfold beliefOf
  rw [AssocMap.lookup_set]
  split <;> rfl

theorem BeliefsKept.refl (m : AssocMap Link LinkEntry) : BeliefsKept m m :=
  fun _ => .inl rfl

theorem BeliefsKept.trans {m₁ m₂ m₃ : AssocMap Link LinkEntry} (h : BeliefsKept m₁ m₂)
    (h' : BeliefsKept m₂ m₃) : BeliefsKept m₁ m₃ := by
  intro link
  rcases h' link with h₂ | ⟨hnone, hnew⟩
  · rw [h₂]
    exact h link
  · rcases h link with h₁ | ⟨_, hnew'⟩
    · exact .inr ⟨h₁ ▸ hnone, hnew⟩
    · rw [hnone] at hnew'
      exact nomatch hnew'

/-- An entry is added as up and acknowledged. -/
theorem BeliefsKept.add {m : AssocMap Link LinkEntry} {link : Link} {e : LinkEntry}
    (hnone : m.lookup link = none) (hdown : e.down = false) (hacked : e.acked = true) :
    BeliefsKept m (m.set link e) := by
  intro l
  rw [beliefOf_set]
  split
  · next h =>
    subst h
    exact .inr ⟨by rw [beliefOf, hnone, Option.map_none], by rw [hdown, hacked]⟩
  · exact .inl rfl

/-- A beacon changes the time of an entry and nothing that is reported. -/
theorem handlePacketIn_beliefs (w : LinkWatchdog) (now : Int) (deviceId ingressPort : Int)
    (lldpInfo : Option (Int × Int)) :
    BeliefsKept w.linkBeacons
      (w.handlePacketIn now deviceId ingressPort lldpInfo).linkBeacons ∧
    (w.handlePacketIn now deviceId ingressPort lldpInfo).phase = w.phase := by
  unfold handlePacketIn
  dsimp only
  split
  · exact ⟨.refl _, rfl⟩
  · split
    · exact ⟨.refl _, rfl⟩
    · dsimp only
      refine ⟨?_, rfl⟩
      split
      · next hnone => exact .add hnone rfl rfl
      · next e hsome =>
        intro l
        rw [beliefOf_set]
        split
        · next h => exact .inl (by rw [beliefOf, h, hsome]; rfl)
        · exact .inl rfl

theorem seedExpectedLinks_beliefs (now : Int) (links : List Link) (w : LinkWatchdog) :
    BeliefsKept w.linkBeacons (w.seedExpectedLinks now links).linkBeacons ∧
    (w.seedExpectedLinks now links).phase = w.phase := by
  induction links generalizing w with
  | nil => exact ⟨.refl _, rfl⟩
  | cons link links ih =>
    unfold seedExpectedLinks
    rw [List.foldl_cons]
    split
    · exact ih w
    · next hnone =>
      exact ⟨(BeliefsKept.add hnone rfl rfl).trans (ih _).1, (ih _).2⟩

/-- A refreshed entry is as before, or it is not acknowledged. -/
theorem refresh_cases (w : LinkWatchdog) (now : Int) (e : LinkEntry) :
    w.refresh now e = e ∨ (w.refresh now e).acked = false := by
  unfold refresh
  dsimp only
  split
  · exact .inr rfl
  · exact .inl rfl

/-! ## The invariant -/

/-- What the watchdog has still to report in this pass. -/
def pendingOf : WatchdogPhase → List (Link × Bool)
  | .idle => []
  | .reporting todo _ => todo
  | .acking _ _ todo _ => todo

/-- The reports of a pass, those made followed by those to come. -/
def remaining (s : WatchdogSystem) : List (Link × Bool) :=
  s.passLog.map (fun r => (r.link, r.down)) ++ pendingOf s.w.phase

/-- A report made: its belief still stands, acknowledged if it was accepted. -/
def Logged (s : WatchdogSystem) (log : List LinkReport) : Prop :=
  ∀ r ∈ log, beliefOf s.w.linkBeacons r.link = some (r.down, r.accepted)

/-- A report to come: its belief stands, and is not acknowledged. -/
def Pending (s : WatchdogSystem) (todo : List (Link × Bool)) : Prop :=
  ∀ p ∈ todo, beliefOf s.w.linkBeacons p.1 = some (p.2, false)

/-- What holds in each phase of a pass. -/
def PhaseOk (s : WatchdogSystem) : Prop :=
  match s.w.phase with
  | .idle => Logged s s.passLog
  | .reporting todo _ =>
    Logged s s.passLog ∧ Pending s todo ∧ ((remaining s).map Prod.fst).Nodup
  | .acking link down todo _ =>
    (∃ log, s.passLog = log ++ [{ link := link, down := down, accepted := true }] ∧
      Logged s log) ∧
    beliefOf s.w.linkBeacons link = some (down, false) ∧ s.kernelView link = down ∧
    Pending s todo ∧ ((remaining s).map Prod.fst).Nodup

structure WatchdogInv (s : WatchdogSystem) : Prop where
  acked : ∀ link down, beliefOf s.w.linkBeacons link = some (down, true) →
    s.kernelView link = down
  unknown : ∀ link, beliefOf s.w.linkBeacons link = none → s.kernelView link = false
  phase : PhaseOk s

theorem inv_watchdog_init (beaconInterval : Int) : WatchdogInv (init beaconInterval) where
  acked := by
    intro link down h
    exact nomatch h
  unknown := fun _ _ => rfl
  phase := by
    intro r hr
    exact nomatch hr

/-- Beacons and seeds, in any phase of a pass. -/
theorem WatchdogInv.of_beliefsKept {s : WatchdogSystem} (h : WatchdogInv s) {w : LinkWatchdog}
    (hkept : BeliefsKept s.w.linkBeacons w.linkBeacons) (hphase : w.phase = s.w.phase) :
    WatchdogInv { s with w := w } := by
  -- a belief that was there is still there
  have hsome : ∀ link b, beliefOf s.w.linkBeacons link = some b →
      beliefOf w.linkBeacons link = some b := by
    intro link b hb
    rcases hkept link with h' | ⟨hnone, _⟩
    · rw [h', hb]
    · rw [hnone] at hb
      exact nomatch hb
  have hlogged : ∀ log, Logged s log → Logged { s with w := w } log :=
    fun log hl r hr => hsome _ _ (hl r hr)
  have hpending : ∀ todo, Pending s todo → Pending { s with w := w } todo :=
    fun todo hp p hmem => hsome _ _ (hp p hmem)
  refine ⟨fun link down hb => ?_, fun link hb => ?_, ?_⟩
  · rcases hkept link with h' | ⟨hnone, hnew⟩
    · exact h.acked link down (h' ▸ hb)
    · rw [hnew] at hb
      obtain ⟨rfl, _⟩ := Prod.mk.inj (Option.some.inj hb)
      exact h.unknown link hnone
  · rcases hkept link with h' | ⟨_, hnew⟩
    · exact h.unknown link (h' ▸ hb)
    · rw [hnew] at hb
      exact nomatch hb
  · have hp := h.phase
    simp only [PhaseOk, remaining, hphase] at hp ⊢
    cases hph : s.w.phase with
    | idle =>
      simp only [hph] at hp ⊢
      exact hlogged _ hp
    | reporting todo result =>
      simp only [hph] at hp ⊢
      exact ⟨hlogged _ hp.1, hpending _ hp.2.1, hp.2.2⟩
    | acking link down todo result =>
      simp only [hph] at hp ⊢
      obtain ⟨⟨log, hlog, hl⟩, hb, hk, hpend, hnodup⟩ := hp
      exact ⟨⟨log, hlog, hlogged _ hl⟩, hsome _ _ hb, hk, hpending _ hpend, hnodup⟩

/-! ## The steps of a pass -/

theorem mem_unackedOf {m : AssocMap Link LinkEntry} {link : Link} {down : Bool} :
    (link, down) ∈ unackedOf m ↔ beliefOf m link = some (down, false) := by
  simp only [unackedOf, List.mem_filterMap, beliefOf, Option.map_eq_some_iff, Prod.exists,
    AssocMap.mem_toPairs]
  constructor
  · rintro ⟨l, e, hl, he⟩
    split at he
    · exact nomatch he
    · next hacked =>
      obtain ⟨rfl, rfl⟩ := Prod.mk.inj (Option.some.inj he)
      exact ⟨e, hl, by rw [Bool.eq_false_iff.mpr hacked]⟩
  · rintro ⟨e, hl, he⟩
    obtain ⟨rfl, hacked⟩ := Prod.mk.inj he
    exact ⟨link, e, hl, by rw [hacked]; rfl⟩

theorem nodup_unackedOf (m : AssocMap Link LinkEntry) : ((unackedOf m).map Prod.fst).Nodup := by
  refine (AssocMap.nodup_keys_toPairs m).sublist (List.map_key_filterMap_sublist ?_ _)
  rintro ⟨link, e⟩ y hxy
  dsimp only at hxy
  split at hxy
  · exact nomatch hxy
  · rw [← Option.some.inj hxy]

/-- The first critical section of a pass. -/
theorem WatchdogInv.beginPass {s : WatchdogSystem} (h : WatchdogInv s) (now : Int) :
    WatchdogInv { s with w := s.w.beginPass now, passLog := [] } := by
  have hlook : ∀ link, (s.w.beginPass now).linkBeacons.lookup link =
      (s.w.linkBeacons.lookup link).map (s.w.refresh now) :=
    fun link => AssocMap.lookup_mapVals _ _ _
  refine ⟨fun link down hb => ?_, fun link hb => ?_, ?_⟩
  · -- an acknowledged belief has not changed
    simp only [beliefOf, hlook, Option.map_map, Option.map_eq_some_iff] at hb
    obtain ⟨e, he, hpair⟩ := hb
    obtain ⟨hdown, hacked⟩ := Prod.mk.inj hpair
    rcases refresh_cases s.w now e with heq | hnot
    · refine h.acked link down ?_
      rw [beliefOf, he, Option.map_some, ← heq, ← hdown, ← hacked]
    · rw [hacked] at hnot
      exact nomatch hnot
  · refine h.unknown link ?_
    simp only [beliefOf, hlook, Option.map_map, Option.map_eq_none_iff] at hb ⊢
    exact hb
  · refine ⟨nofun, fun p hp => mem_unackedOf.mp hp, ?_⟩
    simp only [remaining, List.map_nil, List.nil_append]
    exact nodup_unackedOf _

/-- The kernel answers a report. -/
theorem WatchdogInv.answer {s s' : WatchdogSystem} (h : WatchdogInv s) {accepted : Bool}
    (hstep : s.step (.answer accepted) = some s') : WatchdogInv s' := by
  have hp := h.phase
  simp only [step] at hstep
  split at hstep
  · next link down todo result hphase =>
    simp only [PhaseOk, hphase] at hp
    obtain ⟨hlogged, hpending, hnodup⟩ := hp
    have hhead := hpending (link, down) List.mem_cons_self
    have htail : Pending s todo := fun p hmem => hpending p (List.mem_cons_of_mem _ hmem)
    simp only [remaining, hphase, pendingOf] at hnodup
    split at hstep
    · next hacc =>
      -- accepted: the kernel's view changes for a link that is not acknowledged
      obtain rfl := Option.some.inj hstep
      refine ⟨fun l d hb => ?_, fun l hb => ?_, ⟨s.passLog, by rw [hacc], hlogged⟩, hhead, ?_,
        htail, ?_⟩
      · dsimp only at hb ⊢
        split
        · next heq =>
          rw [heq, hhead] at hb
          exact nomatch hb
        · exact h.acked l d hb
      · dsimp only at hb ⊢
        split
        · next heq =>
          rw [heq, hhead] at hb
          exact nomatch hb
        · exact h.unknown l hb
      · exact if_pos rfl
      · simpa [remaining, pendingOf] using hnodup
    · next hacc =>
      obtain rfl := Option.some.inj hstep
      refine ⟨h.acked, h.unknown, ?_, htail, ?_⟩
      · intro r hr
        rcases List.mem_append.mp hr with hr | hr
        · exact hlogged r hr
        · obtain rfl := List.mem_singleton.mp hr
          rw [Bool.eq_false_iff.mpr hacc]
          exact hhead
      · simpa [remaining, pendingOf] using hnodup
  · exact nomatch hstep

/-- The watchdog records an accepted report: the belief is the one it reported. -/
theorem WatchdogInv.acknowledge {s s' : WatchdogSystem} (h : WatchdogInv s)
    (hstep : s.step .acknowledge = some s') : WatchdogInv s' := by
  have hp := h.phase
  simp only [step] at hstep
  split at hstep
  · next link down todo result hphase =>
    simp only [PhaseOk, hphase] at hp
    obtain ⟨⟨log, hlog, hlogged⟩, hbelief, hview, hpending, hnodup⟩ := hp
    simp only [remaining, hphase, pendingOf, hlog, List.map_append, List.map_map] at hnodup
    -- the acknowledged entry is the only one that changes
    have hbelief' : ∀ l, beliefOf (s.w.acknowledge link down).linkBeacons l =
        if l = link then some (down, true) else beliefOf s.w.linkBeacons l := by
      obtain ⟨e, he, hpair⟩ := Option.map_eq_some_iff.mp hbelief
      obtain ⟨rfl, _⟩ := Prod.mk.inj hpair
      intro l
      simp only [LinkWatchdog.acknowledge, he, if_true]
      exact beliefOf_set _ _ _ _
    have hother : ∀ l, l ∈ log.map (·.link) ∨ l ∈ todo.map Prod.fst → l ≠ link := by
      rintro l hl rfl
      rw [List.append_assoc, List.nodup_append] at hnodup
      rcases hl with hl | hl
      · refine hnodup.2.2 l ?_ l (by simp) rfl
        simpa using hl
      · have hrest := hnodup.2.1
        simp only [List.map_cons, List.map_nil, List.singleton_append, List.nodup_cons] at hrest
        exact hrest.1 hl
    obtain rfl := Option.some.inj hstep
    refine ⟨fun l d hb => ?_, fun l hb => ?_, ?_, ?_, ?_⟩
    · dsimp only at hb
      rw [hbelief'] at hb
      split at hb
      · next heq =>
        obtain ⟨rfl, _⟩ := Prod.mk.inj (Option.some.inj hb)
        rw [heq]
        exact hview
      · exact h.acked l d hb
    · dsimp only at hb
      rw [hbelief'] at hb
      split at hb
      · exact nomatch hb
      · exact h.unknown l hb
    · intro r hr
      dsimp only at hr ⊢
      rw [hbelief']
      rw [hlog] at hr
      rcases List.mem_append.mp hr with hr | hr
      · rw [if_neg (hother _ (.inl (List.mem_map_of_mem hr)))]
        exact hlogged r hr
      · obtain rfl := List.mem_singleton.mp hr
        rw [if_pos rfl]
    · intro p hmem
      dsimp only
      rw [hbelief', if_neg (hother _ (.inr (List.mem_map_of_mem hmem)))]
      exact hpending p hmem
    · simpa [remaining, pendingOf, hlog] using hnodup
  · exact nomatch hstep

/-- Every step keeps the invariant. -/
theorem inv_watchdog_step (s : WatchdogSystem) (e : Event) (s' : WatchdogSystem)
    (hstep : s.step e = some s') (h : WatchdogInv s) : WatchdogInv s' := by
  cases e with
  -- A beacon and a seed touch what is known of the links, not what was reported.
  | packetIn now deviceId ingressPort lldpInfo =>
    obtain rfl := Option.some.inj hstep
    obtain ⟨hkept, hphase⟩ := handlePacketIn_beliefs s.w now deviceId ingressPort lldpInfo
    exact h.of_beliefsKept hkept hphase
  | seed now links =>
    obtain rfl := Option.some.inj hstep
    obtain ⟨hkept, hphase⟩ := seedExpectedLinks_beliefs now links s.w
    exact h.of_beliefsKept hkept hphase
  | beginPass now =>
    simp only [step] at hstep
    split at hstep
    · obtain rfl := Option.some.inj hstep
      exact h.beginPass now
    · exact nomatch hstep
  | answer accepted => exact h.answer hstep
  | acknowledge => exact h.acknowledge hstep
  | endPass =>
    have hp := h.phase
    simp only [step] at hstep
    split at hstep
    · next result hphase =>
      simp only [PhaseOk, hphase] at hp
      obtain rfl := Option.some.inj hstep
      exact ⟨h.acked, h.unknown, hp.1⟩
    · exact nomatch hstep

/-! ## Whole passes -/

/-- The events that are not the beginning of a pass. -/
def isWithinPass : Event → Bool
  | .beginPass _ => false
  | _ => true

/-- A pass works off the list it took at its beginning, whatever arrives meanwhile. -/
theorem remaining_step {s s' : WatchdogSystem} {e : Event} (he : isWithinPass e = true)
    (hstep : s.step e = some s') : remaining s' = remaining s := by
  cases e with
  | packetIn now deviceId ingressPort lldpInfo =>
    obtain rfl := Option.some.inj hstep
    have hphase := (handlePacketIn_beliefs s.w now deviceId ingressPort lldpInfo).2
    simp only [remaining, hphase]
  | seed now links =>
    obtain rfl := Option.some.inj hstep
    have hphase := (seedExpectedLinks_beliefs now links s.w).2
    simp only [remaining, hphase]
  -- the only event that starts new work is no step of the pass
  | beginPass now => exact nomatch he
  | answer accepted =>
    simp only [step] at hstep
    split at hstep
    · next hphase =>
      split at hstep <;> obtain rfl := Option.some.inj hstep <;>
        simp [remaining, hphase, pendingOf]
    · exact nomatch hstep
  | acknowledge =>
    simp only [step] at hstep
    split at hstep
    · next hphase =>
      obtain rfl := Option.some.inj hstep
      simp [remaining, hphase, pendingOf]
    · exact nomatch hstep
  | endPass =>
    simp only [step] at hstep
    split at hstep
    · next hphase =>
      obtain rfl := Option.some.inj hstep
      simp [remaining, hphase, pendingOf]
    · exact nomatch hstep

theorem remaining_exec {s s' : WatchdogSystem} {es : List Event}
    (hes : ∀ e ∈ es, isWithinPass e = true) (h : exec step s es = some s') :
    remaining s' = remaining s := by
  induction es generalizing s with
  | nil => rw [Option.some.inj h]
  | cons e es ih =>
    obtain ⟨s₁, he, hrest⟩ := exec_cons_eq_some h
    rw [ih (fun e' he' => hes e' (List.mem_cons_of_mem e he')) hrest]
    exact remaining_step (hes e List.mem_cons_self) he

/-- The belief of an entry that is not acknowledged stays so when a pass begins. -/
theorem beginPass_unacked (w : LinkWatchdog) (now : Int) {link : Link} {e : LinkEntry}
    (he : w.linkBeacons.lookup link = some e) (hacked : e.acked = false) :
    ∃ e₁, (w.beginPass now).linkBeacons.lookup link = some e₁ ∧ e₁.acked = false := by
  refine ⟨w.refresh now e, ?_, ?_⟩
  · exact (AssocMap.lookup_mapVals _ _ _).trans (by rw [he, Option.map_some])
  · rcases refresh_cases w now e with heq | hnot
    · rw [heq]
      exact hacked
    · exact hnot

/-- In every run, from any state of it:

    - an acknowledged entry agrees with the last report about its link that the kernel
      accepted, or with up when there is none;
    - a pass that begins and, whatever arrives meanwhile, ends has reported every link whose
      entry was not acknowledged when it began, with the belief that the entry still holds
      when the pass ends, and the entry is acknowledged exactly if that report was accepted. -/
theorem watchdog_agrees (beaconInterval : Int) (es : List Event) (s : WatchdogSystem)
    (h : exec step (init beaconInterval) es = some s) :
    (∀ link e, s.w.linkBeacons.lookup link = some e → e.acked = true →
      s.kernelView link = e.down) ∧
    (∀ now s₁ es' s₂, s.step (.beginPass now) = some s₁ →
      (∀ e ∈ es', isWithinPass e = true) → exec step s₁ es' = some s₂ → s₂.w.phase = .idle →
      (∀ link e, s.w.linkBeacons.lookup link = some e → e.acked = false →
        ∃ e₁, s₁.w.linkBeacons.lookup link = some e₁ ∧ e₁.acked = false) ∧
      ∀ link e₁, s₁.w.linkBeacons.lookup link = some e₁ → e₁.acked = false →
        ∃ r e₂, r ∈ s₂.passLog ∧ r.link = link ∧ r.down = e₁.down ∧
          s₂.w.linkBeacons.lookup link = some e₂ ∧ e₂.down = r.down ∧ e₂.acked = r.accepted) := by
  have hinv := exec_invariant inv_watchdog_step h (inv_watchdog_init beaconInterval)
  refine ⟨fun link e he hacked => ?_, fun now s₁ es' s₂ hbegin hes hexec hidle => ⟨?_, ?_⟩⟩
  · refine hinv.acked link e.down ?_
    rw [beliefOf, he, Option.map_some, hacked]
  · intro link e he hacked
    simp only [step] at hbegin
    split at hbegin
    · obtain rfl := Option.some.inj hbegin
      exact beginPass_unacked s.w now he hacked
    · exact nomatch hbegin
  · intro link e₁ he₁ hacked
    have hinv₁ := inv_watchdog_step s _ s₁ hbegin hinv
    have hinv₂ := exec_invariant inv_watchdog_step hexec hinv₁
    -- the whole list of the pass has been reported
    have hall : s₂.passLog.map (fun r => (r.link, r.down)) = unackedOf s₁.w.linkBeacons := by
      have hrem := remaining_exec hes hexec
      simp only [step] at hbegin
      split at hbegin
      · obtain rfl := Option.some.inj hbegin
        simpa [remaining, hidle, pendingOf, LinkWatchdog.beginPass] using hrem
      · exact nomatch hbegin
    have hmem : (link, e₁.down) ∈ s₂.passLog.map (fun r => (r.link, r.down)) := by
      rw [hall, mem_unackedOf, beliefOf, he₁, Option.map_some, hacked]
    obtain ⟨r, hr, hpair⟩ := List.mem_map.mp hmem
    obtain ⟨rfl, hdown⟩ := Prod.mk.inj hpair
    have hp := hinv₂.phase
    simp only [PhaseOk, hidle] at hp
    obtain ⟨e₂, he₂, hpair₂⟩ := Option.map_eq_some_iff.mp (hp r hr)
    obtain ⟨hdown₂, hacked₂⟩ := Prod.mk.inj hpair₂
    exact ⟨r, e₂, hr, rfl, hdown, he₂, hdown₂, hacked₂⟩

/-- A link falls silent, the kernel refuses the report, a beacon of another link arrives
    while the second report is in flight, and the kernel accepts it. -/
def silentLink : List Event :=
  [.packetIn 0 2 1 (some (1, 1)), .packetIn 10 1 2 (some (2, 2)), .beginPass 20, .answer false,
    .endPass]

/-- The hypotheses are met by `silentLink`: the link is believed down and not
    acknowledged, and is reported again in the next pass. -/
theorem silentLink_reported_again :
    ∃ s s₁ s₂, exec step (init 5) silentLink = some s ∧
      s.step (.beginPass 22) = some s₁ ∧
      exec step s₁ [.packetIn 23 1 2 (some (2, 2)), .answer true, .acknowledge, .endPass] =
        some s₂ ∧
      (∃ r ∈ s₂.passLog, r.link = ⟨1, 1, 2, 1⟩ ∧ r.down = true) ∧
      s₂.kernelView ⟨1, 1, 2, 1⟩ = true := by
  refine ⟨_, _, _, rfl, rfl, rfl, ?_, ?_⟩
  swap
  · decide
  obtain ⟨r, _, hr, hlink, hdown, _⟩ := ((watchdog_agrees 5 silentLink _ rfl).2 22 _
    [.packetIn 23 1 2 (some (2, 2)), .answer true, .acknowledge, .endPass] _ rfl (by decide) rfl
    rfl).2 ⟨1, 1, 2, 1⟩ _ rfl rfl
  exact ⟨r, hr, hlink, hdown⟩

end Ndtwin.Spec

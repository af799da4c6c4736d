import Mathlib.Algebra.Order.Ring.Int
import Mathlib.Data.List.Chain
import Mathlib.Tactic.Linarith
import Ndtwin.ForStd.Episode
import Ndtwin.ForStd.List
import Ndtwin.Kernel.KeyedFailureLog

/-!
# Episodes reported by the keyed failure log

For one key the log is a small machine, `keyPass`: `endPass` looks at the entries of
each key alone. Over a whole sequence of passes the entry of a key tracks the episode of
its last recording, so the two reports are the two ends of an episode.

## Key results

- `endPass_key`: `endPass` is `keyPass` on every key
- `tracks_pass`: what an entry says about the passes so far
- `reports_are_episode_edges`: which pass reports which episode, and that per key the
  two kinds of report alternate
-/

namespace Ndtwin.Spec

open Kernel Kernel.KeyedFailureLog

/-! ## One key -/

/-- What one pass does for one key. -/
structure KeyOutcome where
  entry : Option Entry
  newFailure : Bool
  recovered : Bool

/-- `endPass` as one key sees it, for a positive `forgetAfter`. -/
def keyPass (reportAfter forgetAfter now : Int) (recorded : Bool) (st : Option Entry) :
    KeyOutcome :=
  let gone := fun e : Entry => decide (now - e.lastSeen ≥ forgetAfter)
  let live := st.filter fun e => !gone e
  let recovered := st.any fun e => gone e && e.reported
  if recorded then
    let e := seen now live
    let new := !e.reported && decide (now - e.firstSeen ≥ reportAfter)
    { entry := some { e with reported := e.reported || new }
      newFailure := new
      recovered := recovered }
  else { entry := live, newFailure := false, recovered := recovered }

theorem mem_inKeyOrder {ν : Type} {m : AssocMap String ν} {k : String} {v : ν} :
    (k, v) ∈ inKeyOrder m ↔ m.lookup k = some v := by
  rw [inKeyOrder, List.mem_insertionSort, AssocMap.mem_toPairs]

theorem nodup_keys_inKeyOrder {ν : Type} (m : AssocMap String ν) :
    ((inKeyOrder m).map Prod.fst).Nodup := by
  have hperm := (List.perm_insertionSort (fun a b : String × ν => a.1 ≤ b.1) m.toPairs).map
    Prod.fst
  exact hperm.nodup_iff.mpr (AssocMap.nodup_keys_toPairs m)

/-- A recovery is reported once, for an erased entry that had been reported. -/
theorem count_recoveries (gone : String → Entry → Bool) (m : AssocMap String Entry)
    (key : String) :
    ((recoveries gone m).map Prod.fst).count key =
      ((m.lookup key).any fun e => gone key e && e.reported).toNat := by
  have hkey : ∀ (x : String × Entry) y, (if gone x.1 x.2 ∧ x.2.reported then
      some (x.1, x.2.passes) else none) = some y → y.1 = x.1 := by
    intro x y h
    split at h
    · rw [← Option.some.inj h]
    · exact nomatch h
  have hnodup : ((recoveries gone m).map Prod.fst).Nodup :=
    (nodup_keys_inKeyOrder m).sublist (List.map_key_filterMap_sublist hkey _)
  have hmem : key ∈ (recoveries gone m).map Prod.fst ↔
      ((m.lookup key).any fun e => gone key e && e.reported) = true := by
    simp only [recoveries, List.mem_map, List.mem_filterMap, Option.any_eq_true, Prod.exists,
      Option.ite_none_right_eq_some, Option.some.injEq, Prod.mk.injEq, Bool.and_eq_true]
    constructor
    · rintro ⟨_, _, ⟨k, e, hke, hgone, rfl, rfl⟩, rfl⟩
      exact ⟨e, mem_inKeyOrder.mp hke, hgone⟩
    · rintro ⟨e, he, hgone⟩
      exact ⟨key, e.passes, ⟨key, e, mem_inKeyOrder.mpr he, hgone, rfl, rfl⟩, rfl⟩
  rw [hnodup.count]
  by_cases h : key ∈ (recoveries gone m).map Prod.fst
  · rw [if_pos h, hmem.mp h, Bool.toNat_true]
  · rw [if_neg h, Bool.eq_false_iff.mpr (fun hany => h (hmem.mpr hany)), Bool.toNat_false]

/-- What the recording loop has for `key`: its entry, and how often it is in the report. -/
private def keyView (key : String) (acc : AssocMap String Entry × List (String × String)) :
    Option Entry × Nat :=
  (acc.1.lookup key, (acc.2.map Prod.fst).count key)

private theorem keyView_recordOne_ne (log : KeyedFailureLog) (now : Int) (key : String)
    (acc : AssocMap String Entry × List (String × String)) (kv : String × String)
    (hne : kv.1 ≠ key) : keyView key (log.recordOne now acc kv) = keyView key acc := by
  unfold recordOne keyView
  dsimp only
  split
  · rw [AList.lookup_insert_ne (Ne.symm hne), List.map_append, List.count_append]
    simp [hne]
  · rw [AList.lookup_insert_ne (Ne.symm hne)]

private theorem keyView_recordOne (log : KeyedFailureLog) (now : Int)
    (acc : AssocMap String Entry × List (String × String)) (kv : String × String) :
    keyView kv.1 (log.recordOne now acc kv) =
      let e := seen now (acc.1.lookup kv.1)
      let new := log.due now e
      (some { e with reported := e.reported || new },
        (acc.2.map Prod.fst).count kv.1 + new.toNat) := by
  unfold recordOne keyView
  dsimp only
  split
  · next h => simp [h, List.count_append]
  · next h => simp [h]

/-- The recording loop, for one key: recorded or not. -/
private theorem keyView_record_loop (log : KeyedFailureLog) (now : Int) (key : String)
    (open₁ : AssocMap String Entry) :
    keyView key ((inKeyOrder log.thisPass).foldl (log.recordOne now) (open₁, [])) =
      if (log.thisPass.lookup key).isSome then
        let e := seen now (open₁.lookup key)
        let new := log.due now e
        (some { e with reported := e.reported || new }, new.toNat)
      else (open₁.lookup key, 0) := by
  have hframe := fun acc kv => keyView_recordOne_ne log now key acc kv
  split
  · next hsome =>
    -- The key comes once, and the messages before and behind it leave its view.
    obtain ⟨msg, hmsg⟩ := Option.isSome_iff_exists.mp hsome
    obtain ⟨acc, hacc, hfold⟩ := List.foldl_proj_of_mem hframe _
      (nodup_keys_inKeyOrder log.thisPass) (mem_inKeyOrder.mpr hmsg) rfl (open₁, [])
    have hlook : acc.1.lookup key = open₁.lookup key := congrArg Prod.fst hacc
    have hcount : (acc.2.map Prod.fst).count key = 0 := congrArg Prod.snd hacc
    rw [hfold, keyView_recordOne log now acc (key, msg), hlook, hcount]
    simp
  · next hnone =>
    have hnot : key ∉ (inKeyOrder log.thisPass).map Prod.fst := by
      intro hmem
      obtain ⟨⟨k, msg⟩, hkm, rfl⟩ := List.mem_map.mp hmem
      rw [mem_inKeyOrder] at hkm
      rw [hkm] at hnone
      exact hnone rfl
    rw [List.foldl_proj_of_not_mem hframe _ hnot]
    rfl

/-- `endPass` is `keyPass` on every key. With a positive `forgetAfter` the third loop
    finds nothing: the first one has already taken what it tests for. -/
theorem endPass_key (log : KeyedFailureLog) (now : Int) (hF : 0 < log.forgetAfter)
    (key : String) :
    let o := keyPass log.reportAfter log.forgetAfter now (log.thisPass.lookup key).isSome
      (log.openEntries.lookup key)
    (log.endPass now).2.openEntries.lookup key = o.entry ∧
    ((log.endPass now).1.newFailures.map Prod.fst).count key = o.newFailure.toNat ∧
    ((log.endPass now).1.recovered.map Prod.fst).count key = o.recovered.toNat := by
  intro o
  generalize hopen₁ : (log.openEntries.filterPairs fun _ e => !log.expired now e) = open₁
  have hexp : ∀ e, log.expired now e = decide (now - e.lastSeen ≥ log.forgetAfter) := by
    intro e
    simp [expired, hF]
  have hlive : open₁.lookup key = (log.openEntries.lookup key).filter
      fun e => !decide (now - e.lastSeen ≥ log.forgetAfter) := by
    rw [← hopen₁, AssocMap.lookup_filterPairs]
    simp only [hexp]
  have hloop := keyView_record_loop log now key open₁
  generalize hacc : (inKeyOrder log.thisPass).foldl (log.recordOne now) (open₁, []) = acc
    at hloop
  have hpair : keyView key acc = (o.entry, o.newFailure.toNat) := by
    rw [hloop, hlive]
    simp only [o, keyPass]
    split
    · simp only [due, Bool.decide_and, Bool.decide_eq_true]
    · rfl
  have hlook : acc.1.lookup key = o.entry := congrArg Prod.fst hpair
  have hcount : (acc.2.map Prod.fst).count key = o.newFailure.toNat := congrArg Prod.snd hpair
  -- nothing is left for the third loop
  have hpruned : ∀ e, o.entry = some e → log.pruned now key e = false := by
    intro e he
    simp only [o, keyPass] at he
    cases hrec : log.thisPass.lookup key with
    | some msg => simp [pruned, hrec]
    | none =>
      rw [hrec] at he
      have hfar : now - e.lastSeen < log.forgetAfter := by
        simpa using (Option.filter_eq_some_iff.mp he).2
      simp [pruned, hfar]
  have hend : log.endPass now =
      ({ newFailures := acc.2,
         recovered := recoveries (fun _ e => log.expired now e) log.openEntries ++
           recoveries (log.pruned now) acc.1 },
        { log with
          thisPass := ∅
          openEntries := acc.1.filterPairs fun key e => !log.pruned now key e }) := by
    simp only [endPass, hopen₁, hacc]
  rw [hend]
  refine ⟨?_, hcount, ?_⟩
  · rw [AssocMap.lookup_filterPairs, hlook]
    cases he : o.entry with
    | none => rfl
    | some e => rw [Option.filter_some, hpruned e he, Bool.not_false, if_pos rfl]
  · rw [List.map_append, List.count_append, count_recoveries, count_recoveries, hlook]
    have hnone : (o.entry.any fun e => log.pruned now key e && e.reported) = false := by
      rw [Option.any_eq_false]
      intro e he
      simp [hpruned e he]
    have hrecovered : ((log.openEntries.lookup key).any fun e => log.expired now e && e.reported) =
        o.recovered := by
      simp only [hexp, o, keyPass]
      split <;> rfl
    rw [hnone, hrecovered, Bool.toNat_false, Nat.add_zero]

/-! ## Sequences of passes -/

/-- One pass of a caller: what it records, and when it closes the pass. -/
structure FailurePass where
  records : List (String × String)
  now : Int

section

variable (reportAfter forgetAfter : Int) (passes : ℕ → FailurePass)

/-- The log before pass `n`. A finite sequence of passes is a prefix of `passes`. -/
def logBefore : ℕ → KeyedFailureLog
  | 0 => .create reportAfter (some forgetAfter)
  | n + 1 => ((logBefore n).pass (passes n).now (passes n).records).2

/-- What pass `n` reports. -/
def reportOf (n : ℕ) : Report :=
  ((logBefore reportAfter forgetAfter passes n).pass (passes n).now (passes n).records).1

/-- Pass `n` records the key. -/
def Recorded (key : String) (n : ℕ) : Prop := key ∈ (passes n).records.map Prod.fst

/-- When pass `n` is closed. -/
def passTime (n : ℕ) : ℤ := (passes n).now

/-- `i` is the first pass of the episode of `a` that records the key at least
    `reportAfter` after the episode's first recording. -/
def NewFailureAt (key : String) (a i : ℕ) : Prop :=
  Episode.In forgetAfter (passTime passes) (Recorded passes key) a i ∧
  reportAfter ≤ passTime passes i - passTime passes a ∧
  ∀ i' < i, Episode.In forgetAfter (passTime passes) (Recorded passes key) a i' →
    passTime passes i' - passTime passes a < reportAfter

/-- `j` is the first pass at least `forgetAfter` after the last recording of the episode
    of `a`, and that episode yielded a new failure. -/
def RecoveredAt (key : String) (a j : ℕ) : Prop :=
  ∃ l, Episode.Ends forgetAfter (passTime passes) (Recorded passes key) a l j ∧
    ∃ i ≤ l, NewFailureAt reportAfter forgetAfter passes key a i

/-- A report about a key. -/
inductive FailureEdge where
  | newFailure
  | recovered
  deriving DecidableEq, Repr

/-- The reports about a key in the passes before `n`, in order. Within one pass the
    recoveries come first: `endPass` expires before it records. -/
def edges (key : String) : ℕ → List FailureEdge
  | 0 => []
  | n + 1 =>
    let r := reportOf reportAfter forgetAfter passes n
    edges key n ++ List.replicate ((r.recovered.map Prod.fst).count key) .recovered ++
      List.replicate ((r.newFailures.map Prod.fst).count key) .newFailure

end

/-! ## One pass of a sequence, for one key -/

/-- The records of a pass: a key has a message in it exactly when it was recorded. -/
theorem lookup_thisPass_record (records : List (String × String)) (log : KeyedFailureLog)
    (key : String) :
    ((records.foldl (fun l r => l.record r.1 r.2) log).thisPass.lookup key).isSome = true ↔
      key ∈ records.map Prod.fst ∨ (log.thisPass.lookup key).isSome = true := by
  induction records generalizing log with
  | nil => simp
  | cons r rs ih =>
    rw [List.foldl_cons, ih, record, AssocMap.lookup_insert_eq, List.map_cons, List.mem_cons]
    by_cases hk : key = r.1
    · simp [hk]
    · simp only [hk, false_or, if_false]

/-- Recording changes nothing but the messages of the pass. -/
theorem record_foldl_frame (records : List (String × String)) (log : KeyedFailureLog) :
    let log' := records.foldl (fun l r => l.record r.1 r.2) log
    log'.openEntries = log.openEntries ∧ log'.reportAfter = log.reportAfter ∧
      log'.forgetAfter = log.forgetAfter := by
  induction records generalizing log with
  | nil => exact ⟨rfl, rfl, rfl⟩
  | cons r rs ih => exact ih (log.record r.1 r.2)

section

variable (reportAfter forgetAfter : Int) (passes : ℕ → FailurePass) (key : String) (n : ℕ)

/-- A pass keeps the two durations, and leaves no message behind. -/
theorem logBefore_params :
    (logBefore reportAfter forgetAfter passes n).reportAfter = reportAfter ∧
    (logBefore reportAfter forgetAfter passes n).forgetAfter = forgetAfter ∧
    (logBefore reportAfter forgetAfter passes n).thisPass = ∅ := by
  induction n with
  | zero => exact ⟨rfl, rfl, rfl⟩
  | succ n ih =>
    obtain ⟨_, hR, hF⟩ := record_foldl_frame (passes n).records
      (logBefore reportAfter forgetAfter passes n)
    exact ⟨hR.trans ih.1, hF.trans ih.2.1, rfl⟩

instance : Decidable (Recorded passes key n) :=
  inferInstanceAs (Decidable (key ∈ (passes n).records.map Prod.fst))

/-- What pass `n` does for `key`. -/
def outcomeOf : KeyOutcome :=
  keyPass reportAfter forgetAfter (passTime passes n) (decide (Recorded passes key n))
    ((logBefore reportAfter forgetAfter passes n).openEntries.lookup key)

/-- `endPass_key` at pass `n` of the sequence. -/
theorem pass_outcome (hF : 0 < forgetAfter) :
    (logBefore reportAfter forgetAfter passes (n + 1)).openEntries.lookup key =
      (outcomeOf reportAfter forgetAfter passes key n).entry ∧
    ((reportOf reportAfter forgetAfter passes n).newFailures.map Prod.fst).count key =
      (outcomeOf reportAfter forgetAfter passes key n).newFailure.toNat ∧
    ((reportOf reportAfter forgetAfter passes n).recovered.map Prod.fst).count key =
      (outcomeOf reportAfter forgetAfter passes key n).recovered.toNat := by
  obtain ⟨hR, hF', hempty⟩ := logBefore_params reportAfter forgetAfter passes n
  generalize hlog : logBefore reportAfter forgetAfter passes n = log at hR hF' hempty
  generalize hlog' : (passes n).records.foldl (fun l r => l.record r.1 r.2) log = log'
  obtain ⟨hopen, hR', hF''⟩ := record_foldl_frame (passes n).records log
  rw [hlog'] at hopen hR' hF''
  have hrec : (log'.thisPass.lookup key).isSome = decide (Recorded passes key n) := by
    rw [Bool.eq_iff_iff, decide_eq_true_iff, ← hlog', lookup_thisPass_record, hempty]
    simp [Recorded]
  have hkey := endPass_key log' (passTime passes n) (by omega) key
  rw [hR', hR, hF'', hF', hopen, hrec] at hkey
  have hpass : log.pass (passes n).now (passes n).records = log'.endPass (passTime passes n) := by
    rw [KeyedFailureLog.pass, hlog', passTime]
  simp only [logBefore, reportOf, outcomeOf, hlog, hpass]
  exact hkey

/-! ## What an entry tracks -/

/-- What the entry of a key says when the recordings before `n` and the times of the
    ticks before `horizon` have been taken into account: without an entry every episode
    so far has ended, and an entry stands for the episode of the last recording. -/
def Tracks (horizon : ℕ) : Option Entry → Prop
  | none => ∀ l < n, Recorded passes key l →
      ∃ j, l < j ∧ j < horizon ∧ forgetAfter ≤ passTime passes j - passTime passes l
  | some e => ∃ a l, Episode.In forgetAfter (passTime passes) (Recorded passes key) a l ∧
      Episode.LastBefore (Recorded passes key) n l ∧
      (∀ j, l < j → j < horizon → passTime passes j - passTime passes l < forgetAfter) ∧
      e.firstSeen = passTime passes a ∧ e.lastSeen = passTime passes l ∧
      (e.reported = true ↔ reportAfter ≤ passTime passes l - passTime passes a)

end

section

variable {reportAfter forgetAfter : Int} {passes : ℕ → FailurePass} {key : String} {n : ℕ}

/-- An episode that `i` belongs to has yielded a new failure by `i` exactly when `i` is
    at least `reportAfter` after its first recording. -/
theorem exists_newFailureAt_le_iff (hmono : Monotone (passTime passes)) {a i : ℕ}
    (hin : Episode.In forgetAfter (passTime passes) (Recorded passes key) a i) :
    (∃ i' ≤ i, NewFailureAt reportAfter forgetAfter passes key a i') ↔
      reportAfter ≤ passTime passes i - passTime passes a := by
  constructor
  · rintro ⟨i', hle, _, hdue, _⟩
    have := hmono hle
    omega
  · intro hdue
    -- the first recording of the episode that is late enough
    classical
    have hex : ∃ i', Episode.In forgetAfter (passTime passes) (Recorded passes key) a i' ∧
        reportAfter ≤ passTime passes i' - passTime passes a := ⟨i, hin, hdue⟩
    obtain ⟨hin', hdue'⟩ := Nat.find_spec hex
    refine ⟨Nat.find hex, Nat.find_min' hex ⟨hin, hdue⟩, hin', hdue', fun k hk hkin => ?_⟩
    by_contra hlate
    exact Nat.find_min hex hk ⟨hkin, by omega⟩

/-- The first loop reports a recovery exactly when an episode that yielded a new failure
    ends in this pass. -/
theorem recovered_iff (hmono : Monotone (passTime passes)) (recorded : Bool) {st : Option Entry}
    (h : Tracks reportAfter forgetAfter passes key n n st) :
    (keyPass reportAfter forgetAfter (passTime passes n) recorded st).recovered = true ↔
      ∃ a, RecoveredAt reportAfter forgetAfter passes key a n := by
  have hrec : (keyPass reportAfter forgetAfter (passTime passes n) recorded st).recovered =
      st.any fun e => decide (passTime passes n - e.lastSeen ≥ forgetAfter) && e.reported := by
    unfold keyPass
    split <;> rfl
  rw [hrec]
  cases st with
  | none =>
    simp only [Option.any_none, Bool.false_eq_true, false_iff]
    rintro ⟨a, l, hend, _⟩
    obtain ⟨j, hlj, hjn, hfar⟩ := h l hend.2.1 hend.1.1.2.2.1
    have := hend.2.2.2 j hlj hjn
    omega
  | some e =>
    obtain ⟨a, l, hin, hl, hfirst, hfs, hls, hrep⟩ := h
    have hends := Episode.ends_iff_of_lastBefore hmono hin hl hfirst
    simp only [Option.any_some, Bool.and_eq_true, decide_eq_true_eq, hls, hrep, RecoveredAt, hends]
    constructor
    · rintro ⟨hfar, hdue⟩
      exact ⟨a, l, ⟨rfl, rfl, hfar⟩, (exists_newFailureAt_le_iff hmono hin).mpr hdue⟩
    · rintro ⟨_, _, ⟨rfl, rfl, hfar⟩, hnew⟩
      exact ⟨hfar, (exists_newFailureAt_le_iff hmono hin).mp hnew⟩

/-- The first loop brings the entry up to the time of this pass. -/
theorem tracks_expire (hmono : Monotone (passTime passes)) {st : Option Entry}
    (h : Tracks reportAfter forgetAfter passes key n n st) :
    Tracks reportAfter forgetAfter passes key n (n + 1)
      (st.filter fun e => !decide (passTime passes n - e.lastSeen ≥ forgetAfter)) := by
  cases st with
  | none =>
    intro l hl hrec
    obtain ⟨j, hlj, hjn, hfar⟩ := h l hl hrec
    exact ⟨j, hlj, by omega, hfar⟩
  | some e =>
    obtain ⟨a, l, hin, hl, hfirst, hfs, hls, hrep⟩ := h
    rw [Option.filter_some]
    split
    · next hnear =>
      have hn : passTime passes n - passTime passes l < forgetAfter := by simpa [hls] using hnear
      refine ⟨a, l, hin, hl, fun j hlj hj => ?_, hfs, hls, hrep⟩
      by_cases hjn : j = n
      · exact hjn ▸ hn
      · exact hfirst j hlj (by omega)
    · next hfar =>
      have hn : forgetAfter ≤ passTime passes n - passTime passes l := by simpa [hls] using hfar
      -- every recording so far is at or before `l`, so this pass is far from it too
      intro i hi hrec
      have := hmono (hl.le hrec hi)
      exact ⟨n, hi, by omega, by omega⟩

/-- A pass that does not record the key leaves what the entry tracks. -/
theorem tracks_skip (hn : ¬ Recorded passes key n) {horizon : ℕ} {st : Option Entry}
    (h : Tracks reportAfter forgetAfter passes key n horizon st) :
    Tracks reportAfter forgetAfter passes key (n + 1) horizon st := by
  cases st with
  | none =>
    intro l hl hrec
    have hne : l ≠ n := fun heq => hn (heq ▸ hrec)
    exact h l (by omega) hrec
  | some e =>
    obtain ⟨a, l, hin, hl, hrest⟩ := h
    exact ⟨a, l, hin, hl.succ hn, hrest⟩

/-- A pass that records the key: the entry tracks the episode of this recording, and the
    report is due when it is the first one late enough. -/
theorem tracks_record (hmono : Monotone (passTime passes)) (hn : Recorded passes key n)
    {st : Option Entry} (h : Tracks reportAfter forgetAfter passes key n (n + 1) st) :
    let e := seen (passTime passes n) st
    let new := !e.reported && decide (passTime passes n - e.firstSeen ≥ reportAfter)
    Tracks reportAfter forgetAfter passes key (n + 1) (n + 1)
      (some { e with reported := e.reported || new }) ∧
    (new = true ↔ ∃ a, NewFailureAt reportAfter forgetAfter passes key a n) := by
  intro e new
  have hself := Episode.LastBefore.self hn
  cases st with
  | none =>
    -- with no entry held, every earlier failure is too far back: an episode starts here
    have hstart : Episode.Start forgetAfter (passTime passes) (Recorded passes key) n := by
      refine Episode.start_of_all_far hmono hn fun l hl hrec => ?_
      obtain ⟨j, hlj, hj, hfar⟩ := h l hl hrec
      exact ⟨j, hlj, by omega, hfar⟩
    have hnew : new = decide (0 ≥ reportAfter) := by simp [new, e, seen]
    refine ⟨⟨n, n, hstart.self_in, hself, fun j _ _ => by omega, rfl, rfl, ?_⟩, ?_⟩
    · simp [hnew, e, seen]
    · rw [hnew, decide_eq_true_iff]
      constructor
      · intro hR
        refine ⟨n, hstart.self_in, by omega, fun i' hi' hin' => ?_⟩
        have := hin'.2.1
        omega
      · rintro ⟨a, hin, hdue, _⟩
        have : a = n := hin.start_unique hstart.self_in
        subst this
        omega
  | some e₀ =>
    obtain ⟨a, l, hin, hl, hnear, hfs, hls, hrep⟩ := h
    -- the entry's last failure is near enough for this one to continue its episode
    have hin' := hin.extend hl hn (hnear n hl.1 (by omega))
    have hln : passTime passes l ≤ passTime passes n := hmono (by have := hl.1; omega)
    have hnew : new = true ↔ ¬ reportAfter ≤ passTime passes l - passTime passes a ∧
        reportAfter ≤ passTime passes n - passTime passes a := by
      simp [new, e, seen, hfs, ← hrep]
    refine ⟨⟨a, n, hin', hself, fun j _ _ => by omega, hfs, rfl, ?_⟩, ?_⟩
    · rw [Bool.or_eq_true, hnew]
      simp only [e, seen, hrep]
      omega
    · rw [hnew]
      constructor
      · rintro ⟨hbefore, hdue⟩
        refine ⟨a, hin', hdue, fun i' hi' hin'' => ?_⟩
        have := hmono (hl.le hin''.2.2.1 hi')
        omega
      · rintro ⟨b, hb, hdue, hbefore⟩
        have : b = a := hb.start_unique hin'
        subst this
        have := hbefore l hl.1 hin
        exact ⟨by omega, hdue⟩

/-- One pass, for one key: what the entry tracks is kept, and the reports are the two
    edges of an episode. -/
theorem tracks_pass (hmono : Monotone (passTime passes)) {st : Option Entry}
    (h : Tracks reportAfter forgetAfter passes key n n st) :
    let o := keyPass reportAfter forgetAfter (passTime passes n)
      (decide (Recorded passes key n)) st
    Tracks reportAfter forgetAfter passes key (n + 1) (n + 1) o.entry ∧
    (o.newFailure = true ↔ ∃ a, NewFailureAt reportAfter forgetAfter passes key a n) ∧
    (o.recovered = true ↔ ∃ a, RecoveredAt reportAfter forgetAfter passes key a n) := by
  intro o
  have hlive := tracks_expire hmono h
  have hrecovered := recovered_iff hmono (decide (Recorded passes key n)) h
  by_cases hn : Recorded passes key n
  · obtain ⟨htracks, hnew⟩ := tracks_record hmono hn hlive
    simp only [o, keyPass, hn, decide_true, if_true] at hrecovered ⊢
    exact ⟨htracks, hnew, hrecovered⟩
  · simp only [o, keyPass, hn, decide_false, Bool.false_eq_true, if_false] at hrecovered ⊢
    refine ⟨tracks_skip hn hlive, ?_, hrecovered⟩
    rw [false_iff]
    rintro ⟨a, hin, _⟩
    exact hn hin.2.2.1

/-! ## Whole sequences -/

theorem logBefore_tracks (hF : 0 < forgetAfter) (hmono : Monotone (passTime passes)) :
    Tracks reportAfter forgetAfter passes key n n
      ((logBefore reportAfter forgetAfter passes n).openEntries.lookup key) := by
  induction n with
  | zero =>
    intro l hl
    omega
  | succ n ih =>
    rw [(pass_outcome reportAfter forgetAfter passes key n hF).1]
    exact (tracks_pass hmono ih).1

/-- Which reports a pass makes about a key. -/
theorem outcomeOf_iff (hF : 0 < forgetAfter) (hmono : Monotone (passTime passes)) (key : String)
    (n : ℕ) :
    ((outcomeOf reportAfter forgetAfter passes key n).newFailure = true ↔
      ∃ a, NewFailureAt reportAfter forgetAfter passes key a n) ∧
    ((outcomeOf reportAfter forgetAfter passes key n).recovered = true ↔
      ∃ a, RecoveredAt reportAfter forgetAfter passes key a n) :=
  (tracks_pass hmono (logBefore_tracks hF hmono)).2

/-- An episode yields at most one new failure, … -/
theorem NewFailureAt.unique {a i i' : ℕ}
    (h : NewFailureAt reportAfter forgetAfter passes key a i)
    (h' : NewFailureAt reportAfter forgetAfter passes key a i') : i = i' := by
  rcases Nat.lt_trichotomy i i' with hlt | heq | hgt
  · have := h'.2.2 i hlt h.1
    have := h.2.1
    omega
  · exact heq
  · have := h.2.2 i' hgt h'.1
    have := h'.2.1
    omega

/-- … and after one exactly one recovery, if some pass is late enough. -/
theorem NewFailureAt.existsUnique_recoveredAt {a i l j : ℕ}
    (h : NewFailureAt reportAfter forgetAfter passes key a i)
    (hlast : Episode.Last forgetAfter (passTime passes) (Recorded passes key) a l) (hlj : l < j)
    (hfar : forgetAfter ≤ passTime passes j - passTime passes l) :
    ∃! k, RecoveredAt reportAfter forgetAfter passes key a k := by
  obtain ⟨k, hk⟩ := hlast.exists_ends hlj hfar
  refine ⟨k, ⟨l, hk, i, hlast.le h.1, h⟩, ?_⟩
  rintro k' ⟨l', hk', _⟩
  exact hk'.unique hk

end

/-! ## Alternation -/

/-- Reports that alternate from a first new failure on; `isOpen` when the last one is a
    new failure. -/
structure Alternates (es : List FailureEdge) (isOpen : Bool) : Prop where
  chain : es.IsChain (· ≠ ·)
  head : es.head? ≠ some .recovered
  last : es.getLast? = some .newFailure ↔ isOpen = true

theorem Alternates.recovered {es : List FailureEdge} (h : Alternates es true) :
    Alternates (es ++ [.recovered]) false := by
  have hlast := h.last.mpr rfl
  have hne : es ≠ [] := by
    rintro rfl
    exact nomatch hlast
  refine ⟨?_, ?_, by simp⟩
  · refine h.chain.append (List.isChain_singleton _) ?_
    intro x hx y hy
    rw [hlast] at hx
    cases hx
    cases hy
    decide
  · rw [List.head?_append_of_ne_nil _ hne]
    exact h.head

theorem Alternates.newFailure {es : List FailureEdge} (h : Alternates es false) :
    Alternates (es ++ [.newFailure]) true := by
  refine ⟨?_, ?_, by simp⟩
  · refine h.chain.append (List.isChain_singleton _) ?_
    intro x hx y hy
    cases hy
    rintro rfl
    exact absurd (h.last.mp hx) (by decide)
  · cases es with
    | nil => decide
    | cons e es => exact h.head

/-- The reports of one pass: a recovery needs an open failure, a new failure none. -/
theorem Alternates.pass {es : List FailureEdge} {isOpen recovered newFailure : Bool}
    (h : Alternates es isOpen) (hrec : recovered = true → isOpen = true)
    (hnew : newFailure = true → (isOpen && !recovered) = false) :
    Alternates (es ++ List.replicate recovered.toNat .recovered ++
      List.replicate newFailure.toNat .newFailure) (isOpen && !recovered || newFailure) := by
  have hmid : Alternates (es ++ List.replicate recovered.toNat .recovered)
      (isOpen && !recovered) := by
    cases recovered with
    | false => simpa using h
    | true =>
      rw [hrec rfl] at h ⊢
      exact h.recovered
  cases newFailure with
  | false => simpa using hmid
  | true =>
    rw [hnew rfl] at hmid ⊢
    exact hmid.newFailure

section

variable (reportAfter forgetAfter : Int) (passes : ℕ → FailurePass) (key : String)

/-- A recovery is of a reported entry, a new failure is of one not (or no longer)
    reported, and the entry afterwards is reported accordingly. -/
theorem keyPass_reported (now : Int) (recorded : Bool) (st : Option Entry) :
    let o := keyPass reportAfter forgetAfter now recorded st
    (o.recovered = true → st.any (·.reported) = true) ∧
    (o.newFailure = true → (st.any (·.reported) && !o.recovered) = false) ∧
    o.entry.any (·.reported) = (st.any (·.reported) && !o.recovered || o.newFailure) := by
  intro o
  cases st with
  | none => cases recorded <;> simp [o, keyPass, seen]
  | some e =>
    by_cases hgone : now - e.lastSeen ≥ forgetAfter
    · cases recorded <;> cases hrep : e.reported <;>
        simp [o, keyPass, seen, hgone, hrep, Option.filter_some]
    · cases recorded <;> cases hrep : e.reported <;>
        simp [o, keyPass, seen, hgone, hrep, Option.filter_some]

/-- Per key the reports alternate, and a reported entry is a failure not yet recovered. -/
theorem edges_alternate (hF : 0 < forgetAfter) (n : ℕ) :
    Alternates (edges reportAfter forgetAfter passes key n)
      (((logBefore reportAfter forgetAfter passes n).openEntries.lookup key).any (·.reported)) := by
  induction n with
  | zero => exact ⟨List.isChain_nil, by simp [edges], by simp [edges, logBefore, create]⟩
  | succ n ih =>
    obtain ⟨hentry, hnew, hrec⟩ := pass_outcome reportAfter forgetAfter passes key n hF
    obtain ⟨hrecOpen, hnewOpen, hopen⟩ := keyPass_reported reportAfter forgetAfter
      (passTime passes n) (decide (Recorded passes key n))
      ((logBefore reportAfter forgetAfter passes n).openEntries.lookup key)
    rw [hentry, edges, hnew, hrec]
    simp only [outcomeOf, hopen]
    exact ih.pass hrecOpen hnewOpen

/-- The reports of a sequence of passes about a key are the edges of its episodes. -/
structure ReportsEpisodes : Prop where
  /-- A pass reports a new failure of the key once or not at all, namely when it is the
      first pass of some episode to record the key late enough. -/
  newFailure : ∀ n,
    let c := ((reportOf reportAfter forgetAfter passes n).newFailures.map Prod.fst).count key
    c ≤ 1 ∧ (c = 1 ↔ ∃ a, NewFailureAt reportAfter forgetAfter passes key a n)
  /-- A pass reports a recovery of the key once or not at all, namely when an episode
      that yielded a new failure ends in it. -/
  recovered : ∀ n,
    let c := ((reportOf reportAfter forgetAfter passes n).recovered.map Prod.fst).count key
    c ≤ 1 ∧ (c = 1 ↔ ∃ a, RecoveredAt reportAfter forgetAfter passes key a n)
  /-- No two episodes share a new failure, and no episode has two. -/
  newFailure_unique : ∀ a a' i i', NewFailureAt reportAfter forgetAfter passes key a i →
    NewFailureAt reportAfter forgetAfter passes key a' i' → (a = a' ↔ i = i')
  /-- An episode with a new failure and a pass late enough after its last recording has
      exactly one recovery. -/
  recovered_unique : ∀ a i l, NewFailureAt reportAfter forgetAfter passes key a i →
    Episode.Last forgetAfter (passTime passes) (Recorded passes key) a l →
    (∃ j, l < j ∧ forgetAfter ≤ passTime passes j - passTime passes l) →
    ∃! k, RecoveredAt reportAfter forgetAfter passes key a k
  /-- The reports alternate, beginning with a new failure. -/
  alternate : ∀ n, (edges reportAfter forgetAfter passes key n).IsChain (· ≠ ·) ∧
    (edges reportAfter forgetAfter passes key n).head? ≠ some .recovered

/-- For nondecreasing times and a positive `forgetAfter`, every key's reports are exactly
    the edges of its episodes, and they alternate. -/
theorem reports_are_episode_edges (hF : 0 < forgetAfter) (hmono : Monotone (passTime passes)) :
    ReportsEpisodes reportAfter forgetAfter passes key where
  newFailure := by
    intro n c
    have hc : c = _ := (pass_outcome reportAfter forgetAfter passes key n hF).2.1
    rw [hc, ← (outcomeOf_iff hF hmono key n).1]
    exact ⟨Bool.toNat_le _, Bool.toNat_eq_one⟩
  recovered := by
    intro n c
    have hc : c = _ := (pass_outcome reportAfter forgetAfter passes key n hF).2.2
    rw [hc, ← (outcomeOf_iff hF hmono key n).2]
    exact ⟨Bool.toNat_le _, Bool.toNat_eq_one⟩
  newFailure_unique := by
    intro a a' i i' h h'
    constructor
    · rintro rfl
      exact h.unique h'
    · rintro rfl
      exact h.1.start_unique h'.1
  recovered_unique := by
    rintro a i l h hlast ⟨j, hlj, hfar⟩
    exact h.existsUnique_recoveredAt hlast hlj hfar
  alternate := by
    intro n
    have h := edges_alternate reportAfter forgetAfter passes key hF n
    exact ⟨h.chain, h.head⟩

end

/-- A link that fails in two passes out of every five. -/
def flappingLink (n : ℕ) : FailurePass where
  records := if n % 5 < 2 then [("link", "timeout")] else []
  now := n

/-- The hypotheses are met by the flapping link: it is reported in the second pass of an
    outage, recovers two passes after the last recording, and fails again. -/
theorem flappingLink_reports :
    ReportsEpisodes 1 2 flappingLink "link" ∧
    edges 1 2 flappingLink "link" 7 = [.newFailure, .recovered, .newFailure] := by
  refine ⟨reports_are_episode_edges 1 2 flappingLink "link" (by decide) ?_, by decide⟩
  intro i j hij
  exact Int.ofNat_le.mpr hij

end Ndtwin.Spec

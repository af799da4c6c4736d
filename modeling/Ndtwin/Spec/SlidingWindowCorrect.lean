import Mathlib.Data.List.Induction
import Mathlib.Data.List.Pairwise
import Ndtwin.Kernel.SFlowType

/-!
# The sliding window

Under a clock that does not go back the queue stays ordered by time, so the samples that have
left it are too old for every later reading, and `refresh` leaves exactly those that are not. The
sum is 64 bits wide: it is that of the lengths in the queue modulo `2 ^ 64`.

Key results:
- `dropStale_eq_fresh`: the loop of `refresh` on a queue in order
- `Window.run`: what holds after any calls
- `window_run`: the sum, and what `getSum` returns
-/

namespace Ndtwin.Kernel.SFlow.AutoRefreshQueue

variable {interval : Int}

/-! ## One refresh -/

/-- The age of the sample at `now` is at most the interval. -/
def Fresh (interval now : Int) (sample : ExtractedSFlowData) : Prop :=
  now - sample.timestampInMilliseconds ≤ interval

instance (interval now : Int) : DecidablePred (Fresh interval now) := fun sample =>
  inferInstanceAs (Decidable (now - sample.timestampInMilliseconds ≤ interval))

/-- The samples that are fresh at `now`. -/
def freshAt (interval now : Int) (samples : List ExtractedSFlowData) : List ExtractedSFlowData :=
  samples.filter fun sample => Fresh interval now sample

/-- The sum of the lengths of some samples. -/
def totalBytes (samples : List ExtractedSFlowData) : Nat :=
  (samples.map fun sample => sample.packetFrameLengthInByte.toNat).sum

/-- In the order of the times. -/
def InOrder (samples : List ExtractedSFlowData) : Prop :=
  samples.Pairwise fun a b => a.timestampInMilliseconds ≤ b.timestampInMilliseconds

theorem totalBytes_cons (sample : ExtractedSFlowData) (samples : List ExtractedSFlowData) :
    totalBytes (sample :: samples) =
      sample.packetFrameLengthInByte.toNat + totalBytes samples := by
  rw [totalBytes, List.map_cons, List.sum_cons, totalBytes]

theorem totalBytes_append (samples samples' : List ExtractedSFlowData) :
    totalBytes (samples ++ samples') = totalBytes samples + totalBytes samples' := by
  rw [totalBytes, List.map_append, List.sum_append, totalBytes, totalBytes]

theorem ofNat_length (sample : ExtractedSFlowData) :
    UInt64.ofNat sample.packetFrameLengthInByte.toNat =
      sample.packetFrameLengthInByte.toUInt64 := by
  apply UInt64.toNat_inj.mp
  rw [UInt64.toNat_ofNat', UInt32.toNat_toUInt64]
  have := sample.packetFrameLengthInByte.toNat_lt
  omega

/-- What a pass of the loop leaves of the sum. -/
theorem ofNat_totalBytes_sub (front : ExtractedSFlowData) (rest : List ExtractedSFlowData) :
    UInt64.ofNat (totalBytes (front :: rest)) - front.packetFrameLengthInByte.toUInt64 =
      UInt64.ofNat (totalBytes rest) := by
  rw [totalBytes_cons, UInt64.ofNat_add, ofNat_length, UInt64.add_comm]
  exact UInt64.add_sub_cancel _ _

/-- What a push makes of the sum. -/
theorem ofNat_totalBytes_push (queue : List ExtractedSFlowData) (sample : ExtractedSFlowData) :
    UInt64.ofNat (totalBytes (queue ++ [sample])) =
      UInt64.ofNat (totalBytes queue) + sample.packetFrameLengthInByte.toUInt64 := by
  rw [totalBytes_append, UInt64.ofNat_add, ← ofNat_length]
  rfl

/-- In a queue in order the loop stops at the first sample that is fresh, and so are all behind
    it. -/
theorem dropStale_eq_fresh (now : Int) {queue : List ExtractedSFlowData} (h : InOrder queue) :
    (dropStale now queue (UInt64.ofNat (totalBytes queue)) : AutoRefreshQueue interval) =
      { queue := freshAt interval now queue
        sum := UInt64.ofNat (totalBytes (freshAt interval now queue)) } := by
  unfold freshAt
  induction queue with
  | nil => rfl
  | cons front rest ih =>
    obtain ⟨hfront, hrest⟩ := List.pairwise_cons.mp h
    rw [dropStale]
    split
    · next hstale =>
      -- the front is popped and its length taken off the sum
      have hout : ¬Fresh interval now front := Int.not_le.mpr hstale
      rw [ofNat_totalBytes_sub, ih hrest, List.filter_cons_of_neg (by simpa using hout)]
    · next hfresh =>
      -- what comes later is not older
      have hall : ∀ sample ∈ front :: rest, Fresh interval now sample := by
        intro sample hsample
        unfold Fresh
        cases List.mem_cons.mp hsample with
        | inl heq =>
          subst heq
          omega
        | inr hmem =>
          have hle := hfront sample hmem
          omega
      rw [List.filter_eq_self.mpr fun sample hsample => decide_eq_true (hall sample hsample)]

/-- No subtraction of the loop of `refresh` goes below zero. -/
def NoUnderflow (interval now : Int) : List ExtractedSFlowData → UInt64 → Prop
  | [], _ => True
  | front :: rest, sum =>
    now - front.timestampInMilliseconds > interval →
      front.packetFrameLengthInByte.toUInt64 ≤ sum ∧
        NoUnderflow interval now rest (sum - front.packetFrameLengthInByte.toUInt64)

/-- The sum of the queue is never less than the length that is taken off it. -/
theorem noUnderflow_of_lt (now : Int) {queue : List ExtractedSFlowData}
    (h : totalBytes queue < 2 ^ 64) :
    NoUnderflow interval now queue (UInt64.ofNat (totalBytes queue)) := by
  induction queue with
  | nil => trivial
  | cons front rest ih =>
    rw [totalBytes_cons] at h
    intro _
    -- a sum that fits in 64 bits is exact, so it holds the length of the front
    have hlen := UInt32.toNat_toUInt64 front.packetFrameLengthInByte
    constructor
    · rw [totalBytes_cons, UInt64.le_iff_toNat_le, hlen, UInt64.toNat_ofNat', Nat.mod_eq_of_lt h]
      omega
    · rw [ofNat_totalBytes_sub]
      exact ih (by omega)

/-! ## Runs -/

/-- A call. A sample is stamped before it is pushed, and `refresh` reads the clock again. -/
inductive Call where
  | push (packetFrameLengthInByte : UInt32) (stamp now : Int)
  | getSum (now : Int)
  | clear

/-- The readings of the clock, in order. -/
def Call.readings : Call → List Int
  | .push _ stamp now => [stamp, now]
  | .getSum now => [now]
  | .clear => []

def Call.run (q : AutoRefreshQueue interval) : Call → AutoRefreshQueue interval
  | .push length stamp now => q.push ⟨length, stamp⟩ now
  | .getSum now => (q.getSum now).2
  | .clear => q.clear

/-- A queue after some calls. -/
def run (interval : Int) (calls : List Call) : AutoRefreshQueue interval :=
  calls.foldl Call.run {}

/-- The clock does not go back. -/
def Steady (calls : List Call) : Prop := (calls.flatMap Call.readings).Pairwise (· ≤ ·)

/-- What a call leaves of the samples pushed since the last `clear`. -/
def Call.pushed (samples : List ExtractedSFlowData) : Call → List ExtractedSFlowData
  | .push length stamp _ => samples ++ [⟨length, stamp⟩]
  | .getSum _ => samples
  | .clear => []

/-- The samples pushed since the last `clear`. -/
def sinceClear (calls : List Call) : List ExtractedSFlowData := calls.foldl Call.pushed []

/-- The samples in the queue when a call refreshes it. -/
def Call.queued (q : AutoRefreshQueue interval) : Call → List ExtractedSFlowData
  | .push length stamp _ => q.queue ++ [⟨length, stamp⟩]
  | .getSum _ => q.queue
  | .clear => []

/-- No subtraction of a call goes below zero. -/
def Call.Exact (q : AutoRefreshQueue interval) : Call → Prop
  | .push length stamp now =>
    NoUnderflow interval now (q.queue ++ [⟨length, stamp⟩]) (q.sum + length.toUInt64)
  | .getSum now => NoUnderflow interval now q.queue q.sum
  | .clear => True

/-- A queue of which every sample was taken by the time `latest`, and from which every sample is
    missing that is no longer fresh. -/
structure Window (q : AutoRefreshQueue interval) (samples : List ExtractedSFlowData)
    (latest : Int) : Prop where
  sum : q.sum = UInt64.ofNat (totalBytes q.queue)
  inOrder : InOrder q.queue
  taken : ∀ sample ∈ q.queue, sample.timestampInMilliseconds ≤ latest
  fresh : ∀ now, latest ≤ now →
    freshAt interval now samples = freshAt interval now q.queue

theorem window_empty (latest : Int) : Window ({} : AutoRefreshQueue interval) [] latest :=
  ⟨rfl, .nil, fun _ h => absurd h List.not_mem_nil, fun _ _ => rfl⟩

theorem Window.mono {q : AutoRefreshQueue interval} {samples : List ExtractedSFlowData}
    {latest later : Int} (h : Window q samples latest) (hle : latest ≤ later) :
    Window q samples later where
  sum := h.sum
  inOrder := h.inOrder
  taken sample hsample := (h.taken sample hsample).trans hle
  fresh now hnow := h.fresh now (hle.trans hnow)

/-- What is fresh later is fresh now. -/
theorem freshAt_freshAt {now later : Int} (h : now ≤ later) (samples : List ExtractedSFlowData) :
    freshAt interval later (freshAt interval now samples) = freshAt interval later samples := by
  unfold freshAt
  rw [List.filter_filter]
  refine List.filter_congr fun sample _ => ?_
  have himp : Fresh interval later sample → Fresh interval now sample := by
    unfold Fresh
    omega
  rw [← Bool.decide_and]
  exact decide_eq_decide.mpr (and_iff_left_of_imp himp)

theorem Window.refresh_eq {q : AutoRefreshQueue interval} {samples : List ExtractedSFlowData}
    {latest : Int} (h : Window q samples latest) (now : Int) :
    q.refresh now =
      { queue := freshAt interval now q.queue
        sum := UInt64.ofNat (totalBytes (freshAt interval now q.queue)) } := by
  rw [AutoRefreshQueue.refresh, h.sum]
  exact dropStale_eq_fresh now h.inOrder

theorem Window.refresh {q : AutoRefreshQueue interval} {samples : List ExtractedSFlowData}
    {latest now : Int} (h : Window q samples latest) (hle : latest ≤ now) :
    Window (q.refresh now) samples now := by
  rw [h.refresh_eq now]
  -- what was dropped is too old for every later reading too
  refine ⟨rfl, h.inOrder.sublist List.filter_sublist, fun sample hsample => ?_,
    fun later hlater => ?_⟩
  · exact (h.taken sample (List.mem_of_mem_filter hsample)).trans hle
  · rw [h.fresh later (hle.trans hlater), freshAt_freshAt hlater]

/-- A sample that is not older than those in the queue is put behind them. -/
theorem Window.append {q : AutoRefreshQueue interval} {samples : List ExtractedSFlowData}
    {stamp : Int} (h : Window q samples stamp) (length : UInt32) :
    Window ({ queue := q.queue ++ [⟨length, stamp⟩], sum := q.sum + length.toUInt64 } :
      AutoRefreshQueue interval) (samples ++ [⟨length, stamp⟩]) stamp := by
  refine ⟨?_, ?_, ?_, ?_⟩
  · dsimp only
    rw [ofNat_totalBytes_push, h.sum]
  · refine List.pairwise_append.mpr ⟨h.inOrder, List.pairwise_singleton _ _, ?_⟩
    intro sample hsample new hnew
    obtain rfl := List.mem_singleton.mp hnew
    exact h.taken sample hsample
  · intro sample hsample
    cases List.mem_append.mp hsample with
    | inl hold => exact h.taken sample hold
    | inr hnew => rw [List.mem_singleton.mp hnew]
  · intro now hnow
    have happend : ∀ l l', freshAt interval now (l ++ l') =
        freshAt interval now l ++ freshAt interval now l' := fun _ _ => List.filter_append _ _
    rw [happend, happend, h.fresh now hnow]

/-- After calls under a clock that does not go back. -/
theorem Window.run {calls : List Call} (h : Steady calls) {latest : Int}
    (hlatest : ∀ t ∈ calls.flatMap Call.readings, t ≤ latest) :
    Window (run interval calls) (sinceClear calls) latest := by
  -- by induction on the last call, whose readings are not before those of the others
  induction calls using List.reverseRecOn generalizing latest with
  | nil => exact window_empty latest
  | append_singleton calls call ih =>
    rw [Steady, List.flatMap_append, List.flatMap_singleton] at h
    rw [List.flatMap_append, List.flatMap_singleton] at hlatest
    obtain ⟨hcalls, hcall, hcross⟩ := List.pairwise_append.mp h
    rw [AutoRefreshQueue.run, sinceClear, List.foldl_append, List.foldl_append]
    cases call with
    | push length stamp now =>
      -- the sample is stamped first, and the queue refreshed by a later reading
      have hle : stamp ≤ now := (List.pairwise_cons.mp hcall).1 now List.mem_cons_self
      have hbefore := ih hcalls fun t ht => hcross t ht stamp List.mem_cons_self
      exact ((hbefore.append length).refresh hle).mono (hlatest now (by simp [Call.readings]))
    | getSum now =>
      have hbefore := ih hcalls fun t ht => hcross t ht now List.mem_cons_self
      exact (hbefore.refresh le_rfl).mono (hlatest now (by simp [Call.readings]))
    | clear => exact window_empty latest

/-- Some time is not before any reading. -/
theorem exists_latest (calls : List Call) :
    ∃ latest, ∀ t ∈ calls.flatMap Call.readings, t ≤ latest := by
  induction calls.flatMap Call.readings with
  | nil => exact ⟨0, fun _ h => absurd h List.not_mem_nil⟩
  | cons t readings ih =>
    obtain ⟨latest, hlatest⟩ := ih
    refine ⟨max t latest, fun t' ht' => ?_⟩
    cases List.mem_cons.mp ht' with
    | inl heq => exact heq ▸ le_max_left _ _
    | inr hmem => exact (hlatest t' hmem).trans (le_max_right _ _)

/-- After any calls under a clock that does not go back, the sum is that of the lengths in the
    queue, and `getSum` returns that of the samples pushed since the last `clear` that are still
    fresh, both modulo `2 ^ 64`. A call on a queue whose lengths fit in 64 bits subtracts nothing
    that is not there. -/
theorem window_run (interval : Int) (calls : List Call) (h : Steady calls) :
    (run interval calls).sum.toNat = totalBytes (run interval calls).queue % 2 ^ 64 ∧
      (∀ now, (∀ t ∈ calls.flatMap Call.readings, t ≤ now) →
        ((run interval calls).getSum now).1.toNat =
          totalBytes (freshAt interval now (sinceClear calls)) % 2 ^ 64) ∧
      ∀ call : Call, totalBytes (call.queued (run interval calls)) < 2 ^ 64 →
        call.Exact (run interval calls) := by
  have hwindow : ∀ now, (∀ t ∈ calls.flatMap Call.readings, t ≤ now) →
      Window (run interval calls) (sinceClear calls) now := fun _ hnow => Window.run h hnow
  obtain ⟨latest, hlatest⟩ := exists_latest calls
  have hsum := (hwindow latest hlatest).sum
  refine ⟨?_, fun now hnow => ?_, fun call hfits => ?_⟩
  · rw [hsum, UInt64.toNat_ofNat']
  · have hnow := hwindow now hnow
    rw [getSum, hnow.refresh_eq now, UInt64.toNat_ofNat', hnow.fresh now le_rfl]
  · cases call with
    | push length stamp now =>
      rw [Call.Exact, hsum, ← ofNat_totalBytes_push _ ⟨length, stamp⟩]
      exact noUnderflow_of_lt now hfits
    | getSum now =>
      rw [Call.Exact, hsum]
      exact noUnderflow_of_lt now hfits
    | clear => trivial

/-- The first of three samples is too old for the last push, and the second for `getSum`. -/
theorem threePushes_window :
    let calls := [Call.push 100 0 0, .push 50 600 600, .getSum 900, .push 7 1500 1500]
    Steady calls ∧ (run timeUnitInterval calls).sum.toNat = 57 ∧
      ((run timeUnitInterval calls).getSum 1700).1.toNat = 7 := by
  intro calls
  have hsteady : Steady calls := by
    unfold Steady
    decide
  obtain ⟨hsum, hgetSum, -⟩ := window_run timeUnitInterval calls hsteady
  exact ⟨hsteady, hsum.trans (by decide), (hgetSum 1700 (by decide)).trans (by decide)⟩

/-! ## A full window -/

/-- Samples of one length, all pushed at one time, stay in the queue. -/
theorem run_replicate (hinterval : 0 ≤ interval) (length : UInt32) (n : Nat) :
    run interval (List.replicate n (.push length 0 0)) =
      { queue := List.replicate n ⟨length, 0⟩
        sum := UInt64.ofNat (totalBytes (List.replicate n ⟨length, 0⟩)) } := by
  have hkept : ∀ (samples : List ExtractedSFlowData) sum,
      (dropStale 0 (⟨length, 0⟩ :: samples) sum : AutoRefreshQueue interval) =
        { queue := ⟨length, 0⟩ :: samples, sum := sum } := by
    intro samples sum
    rw [dropStale, if_neg (by dsimp only; omega)]
  unfold run
  induction n with
  | zero => rfl
  | succ n ih =>
    rw [List.replicate_succ', List.foldl_append, ih]
    show push _ ⟨length, 0⟩ 0 = _
    rw [push, ← ofNat_totalBytes_push, ← List.replicate_succ', List.replicate_succ, hkept]

theorem totalBytes_replicate (n : Nat) (sample : ExtractedSFlowData) :
    totalBytes (List.replicate n sample) = n * sample.packetFrameLengthInByte.toNat := by
  rw [totalBytes, List.map_replicate, List.sum_replicate_nat]

theorem reading_replicate {length : UInt32} {n : Nat} {t : Int}
    (h : t ∈ (List.replicate n (Call.push length 0 0)).flatMap Call.readings) : t = 0 := by
  obtain ⟨call, hcall, ht⟩ := List.mem_flatMap.mp h
  rw [List.eq_of_mem_replicate hcall] at ht
  simpa [Call.readings] using ht

theorem steady_replicate (length : UInt32) (n : Nat) :
    Steady (List.replicate n (.push length 0 0)) := by
  refine List.pairwise_of_forall_mem_list fun t ht t' ht' => ?_
  rw [reading_replicate ht, reading_replicate ht']

theorem sinceClear_replicate (length : UInt32) (n : Nat) :
    sinceClear (List.replicate n (.push length 0 0)) = List.replicate n ⟨length, 0⟩ := by
  unfold sinceClear
  induction n with
  | zero => rfl
  | succ n ih =>
    rw [List.replicate_succ', List.foldl_append, ih, List.replicate_succ']
    rfl

/-- Samples that are fresh now stay. -/
theorem freshAt_replicate (hinterval : 0 ≤ interval) (length : UInt32) (n : Nat) :
    freshAt interval 0 (List.replicate n ⟨length, 0⟩) = List.replicate n ⟨length, 0⟩ := by
  refine List.filter_eq_self.mpr fun sample hsample => decide_eq_true ?_
  rw [List.eq_of_mem_replicate hsample, Fresh]
  dsimp only
  omega

/-- More than `2 ^ 32` samples of the greatest length in one window: their sum needs 65 bits. -/
theorem fullWindow_wraps :
    let calls := List.replicate (2 ^ 32 + 2) (Call.push 0xFFFFFFFF 0 0)
    Steady calls ∧
      (run timeUnitInterval calls).sum.toNat ≠ totalBytes (run timeUnitInterval calls).queue ∧
      ((run timeUnitInterval calls).getSum 0).1.toNat ≠
        totalBytes (freshAt timeUnitInterval 0 (sinceClear calls)) := by
  intro calls
  have hinterval : 0 ≤ timeUnitInterval := by decide
  have hsteady := steady_replicate 0xFFFFFFFF (2 ^ 32 + 2)
  have hrun := run_replicate hinterval 0xFFFFFFFF (2 ^ 32 + 2)
  have hwraps : (UInt64.ofNat ((2 ^ 32 + 2) * 4294967295)).toNat ≠ (2 ^ 32 + 2) * 4294967295 := by
    rw [UInt64.toNat_ofNat']
    decide
  refine ⟨hsteady, ?_, ?_⟩
  · rw [hrun]
    dsimp only
    rw [totalBytes_replicate]
    exact hwraps
  · have hwindow : Window (run timeUnitInterval calls) (sinceClear calls) 0 :=
      Window.run hsteady fun t ht => (reading_replicate ht).le
    rw [getSum, hwindow.refresh_eq 0, ← hwindow.fresh 0 le_rfl, sinceClear_replicate,
      freshAt_replicate hinterval, totalBytes_replicate]
    exact hwraps

end Ndtwin.Kernel.SFlow.AutoRefreshQueue

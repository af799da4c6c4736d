import Ndtwin.Kernel.PacketLoop
import Ndtwin.Spec.FlowSampleCorrect
import Ndtwin.Spec.HandlePacketCorrect

/-!
# Packet Loop Correctness

`handlePacket` statement by statement does what decoding each sample first and applying it
afterwards does: within a sample every write comes after the last read that can throw. So a
datagram that ends inside a sample leaves what the samples before it left.

## Key results

- `sample_follows`: one sample, against `decodeSample`
- `sampleLoop_error`: where a loop that throws has been
- `handlePacket_atomic`: reads in bounds, starts that rise, samples that are applied whole
-/

namespace Ndtwin.Kernel

open SFlow

namespace PacketLoop

/-! ## Following the decoder -/

/-- Only words of the datagram were read. -/
def InBounds (words : List UInt32) (s : PacketState) : Prop :=
  ∀ i ∈ s.wordsRead, i < words.length

/-- Inside a sample: no start has been added since `s₀`, the reads stay in bounds, and position
    and collector are as given. -/
structure At (words : List UInt32) (s₀ : PacketState) (index : UInt32) (c : Collector)
    (s : PacketState) : Prop where
  starts : s.starts = s₀.starts
  previousIndex : s.previousIndex = s₀.previousIndex
  inBounds : InBounds words s₀ → InBounds words s
  index : s.index = index
  collector : s.collector = c

section

variable {words : List UInt32} {s₀ : PacketState} {α β γ : Type}

/-- From `index`, a part of a sample fails when the decoder does, with the collector as it was;
    where the decoder returns, it ends as `post` says. -/
def Follows (words : List UInt32) (s₀ : PacketState) (m : PacketM α) (index : UInt32)
    (d : Except TruncatedDatagram β) (post : β → α × UInt32 × Collector) : Prop :=
  ∀ s, At words s₀ index s₀.collector s →
    match d with
    | .error _ => ∃ e s' i, m s = .error e s' ∧ At words s₀ i s₀.collector s'
    | .ok b => ∃ s', m s = .ok (post b).1 s' ∧ At words s₀ (post b).2.1 (post b).2.2 s'

theorem Follows.pure {index : UInt32} {a : α} {b : β} {post : β → α × UInt32 × Collector}
    (h : post b = (a, index, s₀.collector)) :
    Follows words s₀ (Pure.pure a) index (.ok b) post := by
  intro s hs
  refine ⟨s, ?_, ?_⟩
  · rw [h]
    rfl
  · rw [h]
    exact hs

/-- Reads first: what comes before the last part of a sample leaves the collector. -/
theorem Follows.bind {m : PacketM α} {f : α → PacketM γ} {index : UInt32} {δ : Type}
    {d : Except TruncatedDatagram β} {g : β → Except TruncatedDatagram δ} {out : β → α}
    {next : β → UInt32} {post : δ → γ × UInt32 × Collector}
    (hm : Follows words s₀ m index d fun b => (out b, next b, s₀.collector))
    (hf : ∀ b, d = .ok b → Follows words s₀ (f (out b)) (next b) (g b) post) :
    Follows words s₀ (m >>= f) index (d >>= g) post := by
  intro s hs
  have hstep := hm s hs
  cases hd : d with
  | error e =>
    rw [hd] at hstep
    obtain ⟨e', s', i, hrun, hat⟩ := hstep
    exact ⟨e', s', i, EState.bind_of_error hrun f, hat⟩
  | ok b =>
    rw [hd] at hstep
    obtain ⟨s', hrun, hat⟩ := hstep
    rw [EState.bind_of_ok hrun]
    exact hf b hd s' hat

/-- One word. -/
theorem follows_word (index k : UInt32) :
    Follows words s₀ (word words k) index (Collector.sampleReader words index k)
      fun w => (w, index, s₀.collector) := by
  intro s hs
  have hidx := hs.index
  unfold Collector.sampleReader word rawWord
  rw [← hidx]
  cases hread : boundedWord words (s.index + k).toNat with
  -- a word behind the end: the read throws, and nothing is noted
  | error e =>
    refine ⟨e, s, index, ?_, hs⟩
    simp only [Functor.map, EStateM.map, hread]
  | ok w =>
    refine ⟨{ s with wordsRead := s.wordsRead ++ [(s.index + k).toNat] }, ?_, ?_⟩
    · simp only [Functor.map, EStateM.map, hread]
    · refine ⟨hs.starts, hs.previousIndex, fun hbounds i hi => ?_, rfl, hs.collector⟩
      -- the word that was read is in the datagram, and so are those read before
      rcases List.mem_append.mp hi with hi | hi
      · exact hs.inBounds hbounds i hi
      · rw [List.mem_singleton.mp hi]
        unfold boundedWord at hread
        split at hread
        · next hsome => exact (List.getElem?_eq_some_iff.mp hsome).1
        · exact nomatch hread

/-- A word that the decoder reads at another distance. -/
theorem follows_word_bind {f : UInt32 → PacketM γ} {index k : UInt32}
    {r : Except TruncatedDatagram UInt32} {g : UInt32 → Except TruncatedDatagram β}
    {post : β → γ × UInt32 × Collector} (hr : Collector.sampleReader words index k = r)
    (hf : ∀ w, r = .ok w → Follows words s₀ (f w) index (g w) post) :
    Follows words s₀ (word words k >>= f) index (r >>= g) post := by
  subst hr
  exact (follows_word index k).bind hf

/-- A word that has been read before. -/
theorem follows_reread {f : UInt32 → PacketM γ} {index k w : UInt32}
    {d : Except TruncatedDatagram β} {post : β → γ × UInt32 × Collector}
    (hr : Collector.sampleReader words index k = .ok w)
    (hf : Follows words s₀ (f w) index d post) :
    Follows words s₀ (word words k >>= f) index d post := by
  have hbind := @Follows.bind words s₀ _ _ _ _ f index _ _ (fun _ => d) _ _ post
    (follows_word index k) fun b hb => by
      rw [hr] at hb
      cases hb
      exact hf
  rwa [hr] at hbind

theorem follows_skip_bind {f : PUnit → PacketM γ} {index n : UInt32}
    {d : Except TruncatedDatagram β} {post : β → γ × UInt32 × Collector}
    (hf : Follows words s₀ (f ⟨⟩) (index + n) d post) :
    Follows words s₀ (skip n >>= f) index d post := by
  intro s hs
  exact hf _ ⟨hs.starts, hs.previousIndex, hs.inBounds, congrArg (· + n) hs.index,
    hs.collector⟩

theorem sampleReader_add (words : List UInt32) (index shift k : UInt32) :
    Collector.sampleReader words (index + shift) k =
      Collector.sampleReader words index (shift + k) := by
  unfold Collector.sampleReader
  rw [UInt32.add_assoc]

end

/-! ## The parts of a sample -/

section

variable {words : List UInt32} {s₀ : PacketState}

theorem word64_follows (index k : UInt32) :
    Follows words s₀ (word64 words k) index (readU64 (Collector.sampleReader words index) k)
      fun w => (w, index, s₀.collector) :=
  follows_word_bind rfl fun _ _ => follows_word_bind rfl fun _ _ => .pure rfl

theorem readTransport_follows (index base : UInt32) (s : FlowSample) :
    Follows words s₀ (readTransport words base s) index
      (decodeTransport (Collector.sampleReader words index) base s)
      fun s' => (s', index, s₀.collector) := by
  unfold readTransport decodeTransport
  split
  · -- TCP and UDP have ports, and TCP has flags
    refine follows_word_bind rfl fun srcPort _ => follows_word_bind rfl fun dstPort _ => ?_
    dsimp only
    split
    · exact follows_word_bind rfl fun _ _ => .pure rfl
    · exact .pure rfl
  · -- ICMP: type and code are taken from one word, which is read twice
    exact follows_word_bind rfl fun icmp hicmp => follows_reread hicmp (.pure rfl)

theorem readFrame_follows (index base samplingRate inputPort outputPort frameLength : UInt32) :
    Follows words s₀ (readFrame words base samplingRate inputPort outputPort frameLength) index
      (decodeFrame (Collector.sampleReader words index) base samplingRate inputPort outputPort
        frameLength)
      fun frame => (frame, index, s₀.collector) := by
  unfold readFrame decodeFrame
  refine follows_word_bind rfl fun etherType _ => ?_
  split
  · -- no IPv4 frame
    exact .pure rfl
  · refine follows_word_bind rfl fun frag hfrag => follows_reread hfrag ?_
    -- the addresses are not aligned: the middle word has the end of one and the start of the other
    refine follows_word_bind rfl fun srcFront _ => ?_
    refine follows_word_bind rfl fun srcBack hback => follows_reread hback ?_
    refine follows_word_bind rfl fun dstBack _ => ?_
    exact (readTransport_follows index base _).bind fun _ _ => .pure rfl

/-- The frame behind what Mininet skips. -/
theorem decodeFrame_add (index shift base samplingRate inputPort outputPort frameLength : UInt32) :
    decodeFrame (Collector.sampleReader words (index + shift)) base samplingRate inputPort
        outputPort frameLength =
      decodeFrame (Collector.sampleReader words index) (shift + base) samplingRate inputPort
        outputPort frameLength := by
  unfold decodeFrame decodeTransport
  simp only [sampleReader_add, UInt32.add_assoc]

section

variable (env : CollectorEnv) (agentIp : UInt32)

/-- What a sample that starts at the position of `s₀` leaves: whether the loop goes on, where
    the next sample is looked for, and the collector. -/
def sampleEnd (s₀ : PacketState) (r : SampleEvent × Option UInt32) :
    Bool × UInt32 × Collector :=
  (r.2.isSome, s₀.index + r.2.getD 0, Collector.applySample env agentIp r.1 s₀.collector)

theorem counterSample_follows (base : UInt32) :
    Follows words s₀ (counterSample env agentIp words base) s₀.index
      (Collector.sampleReader words s₀.index 1 >>= fun sampleLen =>
        decodeCounters (Collector.sampleReader words s₀.index) base >>= fun event =>
          Except.ok (event, some (sampleLen / 4 + 2)))
      (sampleEnd env agentIp s₀) := by
  unfold counterSample decodeCounters
  simp only [bind_assoc]
  refine follows_word_bind rfl fun sampleLen _ => follows_word_bind rfl fun interfaceIndex _ => ?_
  refine (word64_follows s₀.index _).bind fun speed _ => ?_
  refine (word64_follows s₀.index _).bind fun input _ => ?_
  refine (word64_follows s₀.index _).bind fun output _ => ?_
  -- nothing is read from here on
  intro s hs
  refine ⟨_, rfl, hs.starts, hs.previousIndex, hs.inBounds, ?_, ?_⟩
  · exact congrArg (· + (sampleLen / 4 + 2)) hs.index
  · exact congrArg (Collector.applyCounter env agentIp interfaceIndex speed input output)
      hs.collector

theorem finishFlow_follows (sampleLen flowDataLength shift : UInt32) (frame : Option FlowSample) :
    Follows words s₀ (finishFlow env agentIp sampleLen flowDataLength frame) (s₀.index + shift)
      (Except.ok (flowOutcome env.mode sampleLen flowDataLength shift frame))
      (sampleEnd env agentIp s₀) := by
  intro s hs
  cases frame with
  -- nothing was decoded, and the position is moved
  | none =>
    refine ⟨_, rfl, hs.starts, hs.previousIndex, hs.inBounds, ?_, hs.collector⟩
    show s.index + _ = s₀.index + (shift + _)
    rw [hs.index, UInt32.add_assoc]
  | some sample =>
    show ∃ s', (if sample.isTracked = true ∧ sample.fragOff ≠ 0 then _ else _ : PacketM Bool) s = _ ∧ _
    by_cases hdrop : sample.isTracked = true ∧ sample.fragOff ≠ 0
    · -- a later fragment ends the loop, with the position where it was
      rw [if_pos hdrop, flowOutcome, if_pos hdrop]
      exact ⟨s, rfl, hs⟩
    · rw [if_neg hdrop, flowOutcome, if_neg hdrop]
      refine ⟨_, rfl, hs.starts, hs.previousIndex, hs.inBounds, ?_, ?_⟩
      · show s.index + _ = s₀.index + (shift + _)
        rw [hs.index, UInt32.add_assoc]
      · exact congrArg (Collector.applyFlow env agentIp sample) hs.collector

theorem skipFlowData_follows (index : UInt32) :
    Follows words s₀ (skipFlowData env words) index
      (readFlowDataLength env.mode (Collector.sampleReader words index))
      fun n => (n, index + frameShift env.mode n, s₀.collector) := by
  unfold skipFlowData readFlowDataLength frameShift
  cases env.mode with
  | mininet =>
    rw [← bind_pure (Collector.sampleReader words index 11)]
    exact follows_word_bind rfl fun n _ => follows_skip_bind (.pure rfl)
  | testbed => exact .pure (by simp)

theorem brocadeSample_follows :
    Follows words s₀ (brocadeSample env agentIp words) s₀.index
      (Collector.sampleReader words s₀.index 1 >>= fun sampleLen =>
        Collector.sampleReader words s₀.index 4 >>= fun samplingRate =>
          decodeBrocade env.mode (Collector.sampleReader words s₀.index) sampleLen samplingRate)
      (sampleEnd env agentIp s₀) := by
  unfold brocadeSample decodeBrocade
  refine follows_word_bind rfl fun sampleLen _ => ?_
  refine follows_word_bind rfl fun samplingRate hrate => follows_reread hrate ?_
  refine follows_word_bind rfl fun inputPort _ => follows_word_bind rfl fun outputPort _ => ?_
  refine (skipFlowData_follows env s₀.index).bind fun flowDataLength _ => ?_
  refine follows_word_bind (sampleReader_add words _ _ _) fun frameLength _ => ?_
  rw [← decodeFrame_add]
  refine (readFrame_follows _ _ _ _ _ _).bind fun frame _ => ?_
  exact finishFlow_follows env agentIp sampleLen flowDataLength _ frame

theorem hpeSample_follows :
    Follows words s₀ (hpeSample env agentIp words) s₀.index
      (Collector.sampleReader words s₀.index 1 >>= fun sampleLen =>
        Collector.sampleReader words s₀.index 4 >>= fun _ =>
          decodeHpe env.mode (Collector.sampleReader words s₀.index) sampleLen)
      (sampleEnd env agentIp s₀) := by
  unfold hpeSample decodeHpe
  refine follows_word_bind rfl fun sampleLen _ => follows_word_bind rfl fun _ _ => ?_
  refine follows_word_bind rfl fun samplingRate _ => follows_word_bind rfl fun inputPort _ => ?_
  refine follows_word_bind rfl fun outputPort _ => follows_word_bind rfl fun frameLength _ => ?_
  refine (readFrame_follows _ _ _ _ _ _).bind fun frame _ => ?_
  -- nothing is skipped in front of the frame
  have hfinish := @finishFlow_follows words s₀ env agentIp sampleLen 0 0 frame
  rwa [UInt32.add_zero] at hfinish

theorem unknownSample_follows :
    Follows words s₀ (unknownSample words) s₀.index
      (Collector.sampleReader words s₀.index 1 >>= fun sampleLen =>
        if sampleLen > 0 then Except.ok (.skipped, some (sampleLen / 4 + 2))
        else Except.ok (.skipped, none))
      (sampleEnd env agentIp s₀) := by
  unfold unknownSample
  refine follows_word_bind rfl fun sampleLen _ => ?_
  split
  · exact follows_skip_bind (.pure rfl)
  · -- a length of 0 would not move on, so the loop ends
    exact .pure (by simp [sampleEnd, Collector.applySample])

/-- A sample does what it decodes to, or fails with the collector as it was. -/
theorem sample_follows :
    Follows words s₀ (sample env agentIp words) s₀.index
      (decodeSample env.mode (Collector.sampleReader words s₀.index))
      (sampleEnd env agentIp s₀) := by
  unfold sample decodeSample
  refine follows_word_bind rfl fun sampleType _ => ?_
  -- in the order of the tests of the source
  by_cases h₂ : sampleType = 2
  · simp only [if_pos h₂]
    exact counterSample_follows env agentIp 19
  by_cases h₄ : sampleType = 4
  · simp only [if_neg h₂, if_pos h₄]
    exact counterSample_follows env agentIp 5
  by_cases h₁ : sampleType = 1
  · simp only [if_neg h₂, if_neg h₄, if_pos h₁]
    exact brocadeSample_follows env agentIp
  by_cases h₃ : sampleType = 3
  · simp only [if_neg h₂, if_neg h₄, if_neg h₁, if_pos h₃]
    exact hpeSample_follows env agentIp
  · simp only [if_neg h₂, if_neg h₄, if_neg h₁, if_neg h₃]
    exact unknownSample_follows env agentIp

theorem at_self (s : PacketState) : At words s s.index s.collector s :=
  ⟨rfl, rfl, id, rfl, rfl⟩

/-- How a sample ends. -/
theorem sample_cases (s : PacketState) :
    (∃ e e' s' i, sample env agentIp words s = .error e s' ∧ At words s i s.collector s' ∧
      decodeSample env.mode (Collector.sampleReader words s.index) = .error e') ∨
    ∃ event advance s', sample env agentIp words s = .ok advance.isSome s' ∧
      At words s (s.index + advance.getD 0)
        (Collector.applySample env agentIp event s.collector) s' ∧
      decodeSample env.mode (Collector.sampleReader words s.index) = .ok (event, advance) := by
  have hsample := @sample_follows words s env agentIp s (at_self s)
  cases hdecode : decodeSample env.mode (Collector.sampleReader words s.index) with
  | error e' =>
    rw [hdecode] at hsample
    obtain ⟨e, s', i, hrun, hat⟩ := hsample
    exact Or.inl ⟨e, e', s', i, hrun, hat, rfl⟩
  | ok r =>
    rw [hdecode] at hsample
    obtain ⟨s', hrun, hat⟩ := hsample
    exact Or.inr ⟨r.1, r.2, s', hrun, hat, rfl⟩

/-- A sample leaves the count of malformed datagrams. -/
theorem malformedDatagrams_applySample (event : SampleEvent) (c : Collector) :
    (Collector.applySample env agentIp event c).malformedDatagrams = c.malformedDatagrams := by
  cases event with
  | skipped => rfl
  | counter interfaceIndex interfaceSpeed inputOctets outputOctets =>
    show (Collector.applyCounter env agentIp _ _ _ _ c).malformedDatagrams = _
    unfold Collector.applyCounter
    cases env.mode with
    | mininet => rfl
    | testbed =>
      dsimp only
      split
      · rfl
      · rfl
  | flow sample =>
    show (if sample.isTracked = true then Collector.applyTracked env agentIp sample c
      else c).malformedDatagrams = _
    split
    · -- the banks and the flow table are written, then the edges asked for
      unfold Collector.applyTracked
      dsimp only
      split
      all_goals
        refine (Collector.updateFlowTable_frame _ _ _ _ _ _).2.2.trans ?_
        split
        · rfl
        · rfl
    · rfl

/-! ## The loop -/

/-- Samples were started at rising positions, the last of which is `previousIndex`. -/
def Rising (s : PacketState) : Prop :=
  s.starts.Pairwise (· < ·) ∧ ∀ i ∈ s.starts, i ≤ s.previousIndex

theorem rising_mark {s : PacketState} (h : Rising s) (hlt : s.previousIndex < s.index) :
    Rising s.mark := by
  obtain ⟨hpair, hle⟩ := h
  constructor
  · refine List.pairwise_append.mpr ⟨hpair, List.pairwise_singleton _ _, fun i hi j hj => ?_⟩
    rw [List.mem_singleton.mp hj]
    exact UInt32.lt_of_le_of_lt (hle i hi) hlt
  · intro i hi
    rcases List.mem_append.mp hi with hi | hi
    · exact UInt32.le_of_lt (UInt32.lt_of_le_of_lt (hle i hi) hlt)
    · rw [List.mem_singleton.mp hi]
      exact UInt32.le_refl _

theorem At.rising {s₀ s : PacketState} {i : UInt32} {c : Collector} (h : At words s₀ i c s)
    (hrising : Rising s₀) : Rising s := by
  unfold Rising at hrising ⊢
  rw [h.starts, h.previousIndex]
  exact hrising

/-- What a run of the loop keeps, however it ends. -/
structure LoopRun (words : List UInt32) (n : Nat) (s s' : PacketState) : Prop where
  inBounds : InBounds words s → InBounds words s'
  rising : Rising s → Rising s'
  malformed : s'.collector.malformedDatagrams = s.collector.malformedDatagrams
  length : s'.starts.length ≤ s.starts.length + n

theorem LoopRun.refl (n : Nat) (s : PacketState) : LoopRun words n s s :=
  ⟨id, id, rfl, Nat.le_add_right _ _⟩

/-- A sample that was started at the position of `s`, and the rest of the loop. -/
theorem LoopRun.cons {n : Nat} {s s₁ s' : PacketState} {i : UInt32} {c : Collector}
    (hlt : s.previousIndex < s.index) (hat : At words s.mark i c s₁)
    (hc : c.malformedDatagrams = s.collector.malformedDatagrams)
    (hrun : LoopRun words n s₁ s') : LoopRun words (n + 1) s s' where
  inBounds h := hrun.inBounds (hat.inBounds h)
  rising h := hrun.rising (hat.rising (rising_mark h hlt))
  malformed := by rw [hrun.malformed, hat.collector, hc]
  length := by
    have hstarts := congrArg List.length hat.starts
    have hmark : s.mark.starts.length = s.starts.length + 1 := List.length_append
    have hlen := hrun.length
    omega

/-- The loop does what decoding and applying sample by sample does. -/
theorem sampleLoop_eq (n : Nat) (s : PacketState) :
    (EState.finalState (sampleLoop env agentIp words n) s).collector =
      (Collector.sampleLoop env agentIp words n s.index s.previousIndex s.collector).collector ∧
    (EState.isOk (sampleLoop env agentIp words n s) =
      (Collector.sampleLoop env agentIp words n s.index s.previousIndex
        s.collector).truncated.isNone) ∧
    LoopRun words n s (EState.finalState (sampleLoop env agentIp words n) s) := by
  -- by induction on the samples that are left
  induction n generalizing s with
  | zero => exact ⟨rfl, rfl, .refl 0 s⟩
  | succ n ih =>
    unfold sampleLoop Collector.sampleLoop
    rw [EState.finalState, EState.get_bind]
    -- the two exits before a sample: no advance, and the end of the words
    by_cases hback : s.index ≤ s.previousIndex
    · rw [if_pos hback, if_pos hback]
      exact ⟨rfl, rfl, .refl _ s⟩
    by_cases hend : s.index.toNat + 1 ≥ words.length
    · rw [if_neg hback, if_neg hback, if_pos hend, if_pos hend]
      exact ⟨rfl, rfl, .refl _ s⟩
    rw [if_neg hback, if_neg hback, if_neg hend, if_neg hend]
    have hlt : s.previousIndex < s.index := UInt32.not_le.mp hback
    rcases @sample_cases words env agentIp s.mark with
      ⟨e, e', s₁, i, hrun, hat, hdecode⟩ | ⟨event, advance, s₁, hrun, hat, hdecode⟩
    · -- the sample fails, and the loop with it
      have hloop : (modify PacketState.mark >>= fun _ => sample env agentIp words >>= fun again =>
          if again = true then sampleLoop env agentIp words n else Pure.pure ⟨⟩) s =
          .error e s₁ := by
        rw [EState.modify_bind]
        exact EState.bind_of_error hrun _
      rw [hloop]
      rw [show s.mark.index = s.index from rfl] at hdecode
      rw [hdecode]
      exact ⟨hat.collector, rfl, .cons hlt hat rfl (.refl n s₁)⟩
    · have hsame := malformedDatagrams_applySample env agentIp event s.collector
      have hloop : (modify PacketState.mark >>= fun _ => sample env agentIp words >>= fun again =>
          if again = true then sampleLoop env agentIp words n else Pure.pure ⟨⟩) s =
          (if advance.isSome = true then sampleLoop env agentIp words n else Pure.pure ⟨⟩) s₁ := by
        rw [EState.modify_bind]
        exact EState.bind_of_ok hrun _
      rw [hloop]
      rw [show s.mark.index = s.index from rfl] at hdecode
      rw [hdecode]
      cases advance with
      | none => exact ⟨hat.collector, rfl, .cons hlt hat hsame (.refl n s₁)⟩
      -- the next pass starts where the decoder says
      | some advance =>
        obtain ⟨hcollector, hok, hkept⟩ := ih s₁
        have hprevious : s₁.previousIndex = s.index := hat.previousIndex
        have hindex : s₁.index = s.index + advance := hat.index
        have hcredited : s₁.collector = Collector.applySample env agentIp event s.collector :=
          hat.collector
        rw [hprevious, hindex, hcredited] at hcollector hok
        exact ⟨hcollector, hok, .cons hlt hat hsame hkept⟩

/-- Where a loop that throws has been: it decoded whole samples, and failed in the next. -/
theorem sampleLoop_error {n : Nat} {s s' : PacketState} {e : TruncatedDatagram}
    (h : sampleLoop env agentIp words n s = .error e s') :
    ∃ k < n, ∃ s₀, sampleLoop env agentIp words k s = .ok ⟨⟩ s₀ ∧
      s₀.starts.length = s.starts.length + k ∧
      EState.isOk (sample env agentIp words s₀.mark) = false ∧
      s'.starts = s₀.starts ++ [s₀.index] ∧ s'.collector = s₀.collector := by
  induction n generalizing s with
  | zero => exact nomatch h
  | succ n ih =>
    unfold sampleLoop at h
    rw [EState.get_bind] at h
    by_cases hback : s.index ≤ s.previousIndex
    · rw [if_pos hback] at h
      exact nomatch h
    by_cases hend : s.index.toNat + 1 ≥ words.length
    · rw [if_neg hback, if_pos hend] at h
      exact nomatch h
    rw [if_neg hback, if_neg hend] at h
    have hbody : (sample env agentIp words >>= fun again =>
        if again = true then sampleLoop env agentIp words n else Pure.pure ⟨⟩) s.mark =
        .error e s' := h
    rcases @sample_cases words env agentIp s.mark with
      ⟨e₁, e', s₁, i, hrun, hat, -⟩ | ⟨event, advance, s₁, hrun, hat, -⟩
    · rw [EState.bind_of_error hrun] at hbody
      -- it failed in the first sample
      cases hbody
      exact ⟨0, Nat.succ_pos n, s, rfl, rfl, by rw [hrun]; rfl, hat.starts, hat.collector⟩
    · rw [EState.bind_of_ok hrun] at hbody
      cases advance with
      | none => exact nomatch hbody
      | some advance =>
        obtain ⟨k, hk, s₀, hloop, hlen, hfail, hstarts, hcollector⟩ := ih hbody
        refine ⟨k + 1, Nat.succ_lt_succ hk, s₀, ?_, ?_, hfail, hstarts, hcollector⟩
        · -- the first pass of the loop, and then the others
          unfold sampleLoop
          rw [EState.get_bind, if_neg hback, if_neg hend, EState.modify_bind,
            EState.bind_of_ok hrun]
          exact hloop
        · have hone : s₁.starts.length = s.starts.length + 1 := by
            rw [hat.starts]
            exact List.length_append
          omega

end

end

/-! ## Datagrams -/

theorem maxPossibleSamples_eq (words : List UInt32) :
    maxPossibleSamples words = (words.length - 7) / 2 := by
  unfold maxPossibleSamples
  split
  · rfl
  · omega

/-- A word that is there is read. -/
theorem rawWord_of_getElem? {words : List UInt32} {k w : UInt32} {i : Nat} {s : PacketState}
    (hi : (s.index + k).toNat = i) (hw : words[i]? = some w) :
    rawWord words k s = .ok w { s with wordsRead := s.wordsRead ++ [i] } := by
  unfold rawWord boundedWord
  rw [hi, hw]

theorem word_of_getElem? {words : List UInt32} {k w : UInt32} {i : Nat} {s : PacketState}
    (hi : (s.index + k).toNat = i) (hw : words[i]? = some w) :
    word words k s = .ok (Words.ntohl w) { s with wordsRead := s.wordsRead ++ [i] } := by
  unfold word
  simp only [Functor.map, EStateM.map, rawWord_of_getElem? hi hw]

/-- The sample loop of a datagram starts here. -/
def loopStart (c : Collector) : PacketState where
  collector := c
  index := 7
  wordsRead := [0, 2, 6]

theorem handlePacket_of_ok {env : CollectorEnv} {buffer : List UInt8} {c : Collector}
    (hbuffer : ¬(buffer.length < 7 * 4 ∨ buffer.length % 4 ≠ 0)) {u : PUnit} {s : PacketState}
    (hrun : datagram env (Words.toWords buffer) { collector := c } = .ok u s) :
    handlePacket env buffer c = s := by
  rw [handlePacket, if_neg hbuffer, hrun]

theorem handlePacket_of_error {env : CollectorEnv} {buffer : List UInt8} {c : Collector}
    (hbuffer : ¬(buffer.length < 7 * 4 ∨ buffer.length % 4 ≠ 0)) {e : TruncatedDatagram}
    {s : PacketState}
    (hrun : datagram env (Words.toWords buffer) { collector := c } = .error e s) :
    handlePacket env buffer c =
      { s with collector := { s.collector with
        malformedDatagrams := s.collector.malformedDatagrams + 1 } } := by
  rw [handlePacket, if_neg hbuffer, hrun]

/-- The header of a datagram: it is passed over, or its samples are looped through. -/
theorem datagram_cases (env : CollectorEnv) {buffer : List UInt8} (c : Collector)
    (hbuffer : ¬(buffer.length < 7 * 4 ∨ buffer.length % 4 ≠ 0)) :
    (∃ s, datagram env (Words.toWords buffer) { collector := c } = .ok ⟨⟩ s ∧ s.collector = c ∧
      s.starts = [] ∧ InBounds (Words.toWords buffer) s ∧
      Collector.decodeDatagram env buffer c = none) ∨
    ∃ agentIp n, n ≤ ((Words.toWords buffer).length - 7) / 2 ∧
      datagram env (Words.toWords buffer) { collector := c } =
        sampleLoop env agentIp (Words.toWords buffer) n (loopStart c) ∧
      InBounds (Words.toWords buffer) (loopStart c) ∧
      Collector.decodeDatagram env buffer c =
        some (Collector.sampleLoop env agentIp (Words.toWords buffer) n 7 0 c) := by
  have hlen := @Words.length_toWords buffer (by omega)
  unfold Collector.decodeDatagram
  rw [if_neg hbuffer]
  generalize hwords : Words.toWords buffer = words at hlen
  -- a datagram of 28 bytes has the seven words of the header
  match words with
  | w₀ :: w₁ :: agentIp :: w₃ :: w₄ :: w₅ :: w₆ :: rest =>
    have hversion : word (w₀ :: w₁ :: agentIp :: w₃ :: w₄ :: w₅ :: w₆ :: rest) 0
        { collector := c } = .ok (Words.ntohl w₀) { collector := c, wordsRead := [0] } :=
      word_of_getElem? rfl rfl
    have hagent : rawWord (w₀ :: w₁ :: agentIp :: w₃ :: w₄ :: w₅ :: w₆ :: rest) 2
        { collector := c, wordsRead := [0] } =
        .ok agentIp { collector := c, wordsRead := [0, 2] } := rawWord_of_getElem? rfl rfl
    have hcount : word (w₀ :: w₁ :: agentIp :: w₃ :: w₄ :: w₅ :: w₆ :: rest) 6
        { collector := c, wordsRead := [0, 2] } =
        .ok (Words.ntohl w₆) { collector := c, wordsRead := [0, 2, 6] } :=
      word_of_getElem? rfl rfl
    have hbounds : ∀ reads ⊆ [0, 2, 6], InBounds
        (w₀ :: w₁ :: agentIp :: w₃ :: w₄ :: w₅ :: w₆ :: rest)
        { collector := c, wordsRead := reads } := by
      intro reads hreads i hi
      have hi := hreads hi
      simp only [List.mem_cons, List.not_mem_nil, or_false, List.length_cons] at hi ⊢
      omega
    dsimp only
    unfold datagram
    rw [EState.bind_of_ok hversion]
    by_cases hfive : Words.ntohl w₀ ≠ 5
    · rw [if_pos hfive, if_pos hfive]
      exact Or.inl ⟨_, rfl, rfl, rfl, hbounds [0] (by simp), rfl⟩
    rw [if_neg hfive, if_neg hfive, EState.bind_of_ok hagent, EState.bind_of_ok hcount,
      maxPossibleSamples_eq]
    -- more samples are announced than the words could hold
    by_cases hmany : (Words.ntohl w₆).toNat >
        ((w₀ :: w₁ :: agentIp :: w₃ :: w₄ :: w₅ :: w₆ :: rest).length - 7) / 2
    · rw [if_pos hmany, if_pos hmany]
      exact Or.inl ⟨_, rfl, rfl, rfl, hbounds [0, 2, 6] (by simp), rfl⟩
    · rw [if_neg hmany, if_neg hmany]
      refine Or.inr ⟨agentIp, (Words.ntohl w₆).toNat, Nat.not_lt.mp hmany, ?_, ?_, ?_⟩
      · rw [EState.modify_bind]
        rfl
      · exact fun i hi => hbounds [0, 2, 6] (by simp) i hi
      · rfl
  | [] | [_] | [_, _] | [_, _, _] | [_, _, _, _] | [_, _, _, _, _] | [_, _, _, _, _, _] =>
    simp at hlen
    omega

/-- Some word that was to be read is not in the datagram. -/
def Truncated (env : CollectorEnv) (buffer : List UInt8) (c : Collector) : Prop :=
  ¬(buffer.length < 7 * 4 ∨ buffer.length % 4 ≠ 0) ∧
    EState.isOk (datagram env (Words.toWords buffer) { collector := c }) = false

end PacketLoop

end Ndtwin.Kernel

namespace Ndtwin.Spec

open Ndtwin.Kernel

/-- `handlePacket` on any bytes: it leaves what decoding and applying sample by sample leaves,
    reads only words of the buffer, starts no more samples than the buffer can hold, and starts
    each behind the one before. A datagram that ends inside a sample leaves what the samples
    before it left, and is counted once. -/
theorem handlePacket_atomic (env : CollectorEnv) (buffer : List UInt8) (c : Collector) :
    let words := Words.toWords buffer
    let s := PacketLoop.handlePacket env buffer c
    s.collector = Collector.handlePacket env buffer c ∧
    (∀ i ∈ s.wordsRead, 4 * i + 4 ≤ buffer.length) ∧
    8 * s.starts.length ≤ buffer.length ∧
    s.starts.Pairwise (· < ·) ∧
    (¬PacketLoop.Truncated env buffer c →
      s.collector.malformedDatagrams = c.malformedDatagrams) ∧
    (PacketLoop.Truncated env buffer c →
      ∃ agentIp n k s₀, k < n ∧
        PacketLoop.sampleLoop env agentIp words k (PacketLoop.loopStart c) = .ok ⟨⟩ s₀ ∧
        s₀.starts.length = k ∧
        EState.isOk (PacketLoop.sample env agentIp words s₀.mark) = false ∧
        s.starts = s₀.starts ++ [s₀.index] ∧
        s.collector = { s₀.collector with malformedDatagrams := c.malformedDatagrams + 1 }) := by
  intro words s
  by_cases hbuffer : buffer.length < 7 * 4 ∨ buffer.length % 4 ≠ 0
  · have hs : s = { collector := c } := if_pos hbuffer
    have hdecode : Collector.handlePacket env buffer c = c := by
      unfold Collector.handlePacket Collector.decodeDatagram
      rw [if_pos hbuffer]
    rw [hs, hdecode]
    exact ⟨rfl, fun i hi => absurd hi List.not_mem_nil, Nat.zero_le _, List.Pairwise.nil,
      fun _ => rfl, fun h => absurd hbuffer h.1⟩
  · have hlen : 4 * words.length = buffer.length := Words.length_toWords (by omega)
    have hbytes : ∀ s' : PacketState, PacketLoop.InBounds words s' →
        ∀ i ∈ s'.wordsRead, 4 * i + 4 ≤ buffer.length := by
      intro s' hs' i hi
      have hlt := hs' i hi
      omega
    rcases PacketLoop.datagram_cases env c hbuffer with
      ⟨s', hrun, hcollector, hstarts, hbounds, hdecode⟩ |
      ⟨agentIp, n, hn, hrun, hbounds, hdecode⟩
    · -- the header is read and nothing else
      have htrunc : ¬PacketLoop.Truncated env buffer c := by
        rintro ⟨-, hfail⟩
        rw [hrun] at hfail
        cases hfail
      have hs : s = s' := PacketLoop.handlePacket_of_ok hbuffer hrun
      rw [hs, hcollector, hstarts, Collector.handlePacket, hdecode]
      exact ⟨rfl, hbytes s' hbounds, Nat.zero_le _, List.Pairwise.nil, fun _ => rfl,
        fun h => absurd h htrunc⟩
    · obtain ⟨hcollector, hok, hkept⟩ :=
        @PacketLoop.sampleLoop_eq words env agentIp n (PacketLoop.loopStart c)
      have hdecoded : Collector.handlePacket env buffer c =
          let loopEnd := Collector.sampleLoop env agentIp words n 7 0 c
          if loopEnd.truncated.isNone then loopEnd.collector
          else { loopEnd.collector with
            malformedDatagrams := loopEnd.collector.malformedDatagrams + 1 } := by
        rw [Collector.handlePacket, hdecode]
        rcases Collector.sampleLoop env agentIp words n 7 0 c with ⟨collector, starts, _ | e⟩
        · rfl
        · rfl
      change _ = (Collector.sampleLoop env agentIp words n 7 0 c).collector at hcollector
      change _ = (Collector.sampleLoop env agentIp words n 7 0 c).truncated.isNone at hok
      have hlength : 8 * (EState.finalState (PacketLoop.sampleLoop env agentIp words n)
          (PacketLoop.loopStart c)).starts.length ≤ buffer.length := by
        have hle := hkept.length
        have hzero : (PacketLoop.loopStart c).starts.length = 0 := rfl
        have hn' : n ≤ (words.length - 7) / 2 := hn
        omega
      have hrising := (hkept.rising ⟨List.Pairwise.nil, fun i hi => absurd hi List.not_mem_nil⟩).1
      have hreads := hbytes _ (hkept.inBounds hbounds)
      have hmalformed : _ = c.malformedDatagrams := hkept.malformed
      unfold PacketLoop.Truncated
      rw [hrun, hdecoded]
      generalize Collector.sampleLoop env agentIp words n 7 0 c = loopEnd at hcollector hok
      obtain ⟨collector, starts, truncated⟩ := loopEnd
      cases hloop : PacketLoop.sampleLoop env agentIp words n (PacketLoop.loopStart c) with
      | ok u s' =>
        rw [EState.finalState_of_ok hloop] at hcollector hlength hrising hreads hmalformed
        rw [hloop] at hok
        have hs : s = s' := PacketLoop.handlePacket_of_ok hbuffer (hrun.trans hloop)
        cases truncated with
        | some e => cases hok
        | none =>
          rw [hs]
          exact ⟨hcollector, hreads, hlength, hrising, fun _ => hmalformed, fun h => by cases h.2⟩
      | error e s' =>
        rw [EState.finalState_of_error hloop] at hcollector hlength hrising hreads hmalformed
        rw [hloop] at hok
        have hs : s = { s' with collector := { s'.collector with
            malformedDatagrams := s'.collector.malformedDatagrams + 1 } } :=
          PacketLoop.handlePacket_of_error hbuffer (hrun.trans hloop)
        cases truncated with
        | none => cases hok
        | some e' =>
          obtain ⟨k, hk, s₀, hbefore, hcount, hfail, hstarts, hleft⟩ :=
            PacketLoop.sampleLoop_error env agentIp hloop
          rw [hs]
          refine ⟨?_, hreads, hlength, hrising, fun h => absurd ⟨hbuffer, rfl⟩ h, fun _ =>
            ⟨agentIp, n, k, s₀, hk, hbefore, ?_, hfail, hstarts, ?_⟩⟩
          · show { s'.collector with
                malformedDatagrams := s'.collector.malformedDatagrams + 1 } = _
            rw [hcollector]
            rfl
          · exact hcount.trans (Nat.zero_add k)
          · show { s'.collector with
                malformedDatagrams := s'.collector.malformedDatagrams + 1 } = _
            rw [hmalformed, hleft]

end Ndtwin.Spec

import Ndtwin.Spec.ClassifierCorrect

/-!
# Rule identity

A polled rule is identified by its table and a hash of its mask, masked value, priority and
effect, so that a rule whose effect is edited on the switch is stored as a new rule. The hash
runs over a sequence of words, and an effect is fed to it without tags or lengths: an optional
table, the output ports, an optional group. Two effects that feed the same words give one
identity, however good the hash is.

## Key results

- `hashInputs_eq_iff`: which effects feed the same words
- `id_eq_iff`: without accidental collisions, rules of one table, match and priority share
  their identity exactly when their effects feed the same words
- `changed_effect_seen`: when the words of a changed rule differ, the lookup after the second
  snapshot returns the new effect
-/

namespace Ndtwin.Kernel

/-! ## What the fingerprint hashes -/

/-- What is mixed into a fingerprint at one position: a byte as it is, or a hashed byte
    string. -/
inductive HashInput where
  | byte (b : UInt8)
  | bytes (bs : List UInt8)
  deriving DecidableEq

/-- The 64-bit word that is mixed in. -/
def HashInput.word : HashInput → UInt64
  | .byte b => b.toUInt64
  | .bytes bs => fnv1a64 bs

/-- The inputs an effect gives, in order. -/
def RuleEffect.hashInputs (effect : RuleEffect) : List HashInput :=
  effect.gotoTable.toList.map .byte ++
    (effect.outputPorts ++ effect.groupId.toList).map fun p => .bytes (u32Le p)

/-- The inputs of a rule's fingerprint, in order. -/
def Rule.hashInputs (r : Rule) : List HashInput :=
  .bytes r.mask.bytes :: .bytes r.maskedValue.bytes ::
    .bytes (u32Le (UInt32.ofInt r.priority)) :: r.effect.hashInputs

/-- The mixing of a sequence of words. -/
def mixWords (inputs : List HashInput) : UInt64 :=
  (inputs.map HashInput.word).foldl fnvStep 1469598103934665603

theorem fingerprintRuleCore_eq (r : Rule) :
    fingerprintRuleCore r.mask r.maskedValue r.priority r.effect = mixWords r.hashInputs := by
  obtain ⟨id, tableId, priority, mask, maskedValue, gotoTable, outputPorts, groupId⟩ := r
  unfold fingerprintRuleCore mixWords Rule.hashInputs RuleEffect.hashInputs
  cases gotoTable <;> cases groupId <;>
    simp [HashInput.word, List.foldl_map, List.foldl_append, Function.comp_def]

/-! ## No accidental collision -/

/-- Neither the hash of the inputs nor the mixing of the words collides by accident on the
    rules of a list: different inputs at one position give different words, and different
    sequences of words are mixed to different fingerprints. -/
structure HashesApart (seen : List Rule) : Prop where
  words : ∀ r ∈ seen, ∀ r' ∈ seen, ∀ p ∈ r.hashInputs.zip r'.hashInputs,
    p.1.word = p.2.word → p.1 = p.2
  mixing : ∀ r ∈ seen, ∀ r' ∈ seen, mixWords r.hashInputs = mixWords r'.hashInputs →
    r.hashInputs.map HashInput.word = r'.hashInputs.map HashInput.word

instance (seen : List Rule) : Decidable (HashesApart seen) :=
  decidable_of_iff (_ ∧ _) ⟨fun h => ⟨h.1, h.2⟩, fun h => ⟨h.words, h.mixing⟩⟩

/-- Words that agree position by position come from the same inputs. -/
theorem eq_of_words_eq {l l' : List HashInput}
    (hwords : ∀ p ∈ l.zip l', p.1.word = p.2.word → p.1 = p.2)
    (h : l.map HashInput.word = l'.map HashInput.word) : l = l' := by
  induction l generalizing l' with
  | nil => exact (List.map_eq_nil_iff.mp h.symm).symm
  | cons a l ih =>
    cases l' with
    | nil => exact nomatch h
    | cons b l' =>
      rw [List.map_cons, List.map_cons, List.cons.injEq] at h
      have hhead : a = b := hwords (a, b) List.mem_cons_self h.1
      have htail : l = l' := ih (fun p hp => hwords p (List.mem_cons_of_mem _ hp)) h.2
      rw [hhead, htail]

/-! ## Words and the fields they come from -/

theorem u32Le_injective : Function.Injective u32Le := by
  intro a b h
  unfold u32Le u32Be at h
  simp only [List.reverse_cons, List.reverse_nil, List.nil_append, List.cons_append,
    List.cons.injEq, and_true] at h
  obtain ⟨h₀, h₁, h₂, h₃⟩ := h
  apply UInt32.toNat_inj.mp
  have e₀ := congrArg UInt8.toNat h₀
  have e₁ := congrArg UInt8.toNat h₁
  have e₂ := congrArg UInt8.toNat h₂
  have e₃ := congrArg UInt8.toNat h₃
  simp [Nat.shiftRight_eq_div_pow] at e₀ e₁ e₂ e₃
  have := a.toNat_lt
  have := b.toNat_lt
  omega

/-- A priority that was read fits an `int`. -/
theorem stoi_range {cs : List Char} {v : Int} (h : CText.stoi cs = .ok v) :
    -2 ^ 31 ≤ v ∧ v < 2 ^ 31 := by
  unfold CText.stoi at h
  split at h
  · exact nomatch h
  · next r hr =>
    generalize (if r.negative then - (r.magnitude : Int) else r.magnitude) = v' at h
    simp only at h
    by_cases hout : v' < -2 ^ 31 ∨ 2 ^ 31 ≤ v'
    · rw [if_pos hout] at h
      exact nomatch h
    · rw [if_neg hout] at h
      obtain rfl := Except.ok.inj h
      omega

theorem bmod_range (i : Int) : -2 ^ 31 ≤ i.bmod (2 ^ 32) ∧ i.bmod (2 ^ 32) < 2 ^ 31 := by
  have hlow := Int.le_bmod (x := i) (m := 2 ^ 32) (by decide)
  have hhigh := Int.bmod_lt (x := i) (m := 2 ^ 32) (by decide)
  omega

theorem parseI32_range {j : Json} {p : Int} (h : parseI32 j = .ok p) :
    -2 ^ 31 ≤ p ∧ p < 2 ^ 31 := by
  unfold parseI32 at h
  split at h
  · exact Except.ok.inj h ▸ bmod_range _
  · exact Except.ok.inj h ▸ bmod_range _
  · split at h
    · next v hv => exact Except.ok.inj h ▸ stoi_range hv
    · exact nomatch h
  · exact nomatch h

theorem ofInt_inj {p q : Int} (hp : -2 ^ 31 ≤ p ∧ p < 2 ^ 31) (hq : -2 ^ 31 ≤ q ∧ q < 2 ^ 31)
    (h : UInt32.ofInt p = UInt32.ofInt q) : p = q := by
  have := congrArg UInt32.toNat h
  simp [UInt32.ofInt] at this
  omega

/-- The two effects feed the same words: the same table, and the same numbers one after the
    other, whether they are ports or a group. -/
def RuleEffect.SameHashed (e e' : RuleEffect) : Prop :=
  e.gotoTable = e'.gotoTable ∧
    e.outputPorts ++ e.groupId.toList = e'.outputPorts ++ e'.groupId.toList

instance (e e' : RuleEffect) : Decidable (e.SameHashed e') := inferInstanceAs (Decidable (_ ∧ _))

theorem portInputs_injective :
    Function.Injective fun ports : List UInt32 => ports.map fun p => HashInput.bytes (u32Le p) :=
  List.map_injective_iff.mpr fun _ _ h => u32Le_injective (HashInput.bytes.inj h)

theorem hashInputs_eq_iff (e e' : RuleEffect) :
    e.hashInputs = e'.hashInputs ↔ e.SameHashed e' := by
  unfold RuleEffect.hashInputs RuleEffect.SameHashed
  constructor
  · intro h
    -- a table is the only input that is not hashed, so it shows whether there is one
    cases hg : e.gotoTable <;> cases hg' : e'.gotoTable <;> rw [hg, hg'] at h
    · exact ⟨rfl, portInputs_injective h⟩
    · cases hports : e.outputPorts ++ e.groupId.toList <;> rw [hports] at h <;> exact nomatch h
    · cases hports : e'.outputPorts ++ e'.groupId.toList <;> rw [hports] at h <;> exact nomatch h
    · injection h with hbyte hports
      exact ⟨congrArg some (HashInput.byte.inj hbyte), portInputs_injective hports⟩
  · intro h
    rw [h.1, h.2]

/-! ## Identity -/

/-- The same table, match and priority. -/
def Rule.SameCore (r r' : Rule) : Prop :=
  r.tableId = r'.tableId ∧ r.mask = r'.mask ∧ r.maskedValue = r'.maskedValue ∧
    r.priority = r'.priority

instance (r r' : Rule) : Decidable (r.SameCore r') := inferInstanceAs (Decidable (_ ∧ _))

/-- The rule was read from an entry. -/
def Rule.Parsed (r : Rule) : Prop := ∃ flow, parseRuleFromJson flow = .ok r

theorem Rule.Parsed.id_eq {r : Rule} (h : r.Parsed) : r.id = ⟨r.tableId, mixWords r.hashInputs⟩ := by
  obtain ⟨flow, hflow⟩ := h
  rw [id_of_parseRuleFromJson hflow, fingerprintRuleCore_eq]

theorem Rule.Parsed.priority_range {r : Rule} (h : r.Parsed) :
    -2 ^ 31 ≤ r.priority ∧ r.priority < 2 ^ 31 := by
  obtain ⟨flow, hflow⟩ := h
  unfold parseRuleFromJson at hflow
  obtain ⟨tableId, -, hflow⟩ := EState.bind_eq_ok hflow
  obtain ⟨priority, hprio, hflow⟩ := EState.bind_eq_ok hflow
  obtain ⟨b, -, hflow⟩ := EState.bind_eq_ok hflow
  obtain ⟨effect, -, hflow⟩ := EState.bind_eq_ok hflow
  cases hflow
  unfold priorityOf at hprio
  split at hprio
  · exact parseI32_range hprio
  · cases hprio
    show -2 ^ 31 ≤ (0 : Int) ∧ (0 : Int) < 2 ^ 31
    decide

/-- Without accidental collisions, rules share their identity exactly when they share table,
    match and priority and their effects feed the same words. -/
theorem id_eq_iff {seen : List Rule} (hhash : HashesApart seen) {r r' : Rule} (hr : r ∈ seen)
    (hr' : r' ∈ seen) (hparsed : r.Parsed) (hparsed' : r'.Parsed) :
    r.id = r'.id ↔ r.SameCore r' ∧ r.effect.SameHashed r'.effect := by
  rw [hparsed.id_eq, hparsed'.id_eq, RuleId.mk.injEq]
  constructor
  · intro h
    have hinputs : r.hashInputs = r'.hashInputs :=
      eq_of_words_eq (hhash.words r hr r' hr') (hhash.mixing r hr r' hr' h.2)
    unfold Rule.hashInputs at hinputs
    injection hinputs with hmask hinputs
    injection hinputs with hvalue hinputs
    injection hinputs with hprio heffect
    have hprio' : UInt32.ofInt r.priority = UInt32.ofInt r'.priority :=
      u32Le_injective (HashInput.bytes.inj hprio)
    refine ⟨⟨h.1, ?_, ?_, ofInt_inj hparsed.priority_range hparsed'.priority_range hprio'⟩,
      (hashInputs_eq_iff _ _).mp heffect⟩
    · exact KeyBytes.eq_of_bytes_eq (HashInput.bytes.inj hmask)
    · exact KeyBytes.eq_of_bytes_eq (HashInput.bytes.inj hvalue)
  · intro h
    obtain ⟨⟨htable, hmask, hvalue, hprio⟩, heffect⟩ := h
    refine ⟨htable, ?_⟩
    unfold Rule.hashInputs
    rw [hmask, hvalue, hprio, (hashInputs_eq_iff _ _).mpr heffect]

/-! ## What a run of polls has stored -/

/-- What one entry of a poll gave for a switch: the rules that were read, and whether all of
    its flow array was. -/
structure Snapshot where
  dpid : UInt64
  rules : List Rule
  complete : Bool
  deriving DecidableEq

/-- The snapshots of the entries of a poll, up to the entry that throws. -/
def readSnapshots : List Json → List Snapshot
  | [] => []
  | entry :: entries =>
    match Classifier.readEntry entry with
    | .error _ => []
    | .ok (_, none) => readSnapshots entries
    | .ok (dpid, some flows) =>
      match EState.prefixOk parseRuleFromJson flows with
      | (rules, none) => ⟨dpid, rules, true⟩ :: readSnapshots entries
      | (rules, some _) => [⟨dpid, rules, false⟩]

/-- The snapshots of a poll. -/
def pollSnapshots : Json → List Snapshot
  | .arr entries => readSnapshots entries
  | _ => []

/-- The snapshots of a switch in a sequence of polls, oldest first. -/
def switchSnapshots (calls : List Json) (dpid : UInt64) : List Snapshot :=
  (calls.flatMap pollSnapshots).filter fun s => s.dpid = dpid

/-- Every rule of a snapshot was read from an entry. -/
theorem parsed_of_mem_readSnapshots {entries : List Json} {s : Snapshot}
    (hs : s ∈ readSnapshots entries) {r : Rule} (hr : r ∈ s.rules) : r.Parsed := by
  induction entries with
  | nil => exact absurd hs List.not_mem_nil
  | cons entry entries ih =>
    unfold readSnapshots at hs
    split at hs
    · exact absurd hs List.not_mem_nil
    · exact ih hs
    · next dpid flows hread =>
      have hprefix : r ∈ (EState.prefixOk parseRuleFromJson flows).1 → r.Parsed := by
        intro hmem
        obtain ⟨flow, -, hflow⟩ := EState.exists_of_mem_prefixOk hmem
        exact ⟨flow, hflow⟩
      split at hs
      · next rules hrules =>
        rw [hrules] at hprefix
        rcases List.mem_cons.mp hs with rfl | hmem
        · exact hprefix hr
        · exact ih hmem
      · next rules e hrules =>
        rw [hrules] at hprefix
        obtain rfl := List.mem_singleton.mp hs
        exact hprefix hr

theorem parsed_of_mem_switchSnapshots {calls : List Json} {dpid : UInt64} {r : Rule}
    (h : r ∈ (switchSnapshots calls dpid).flatMap Snapshot.rules) : r.Parsed := by
  obtain ⟨s, hs, hr⟩ := List.mem_flatMap.mp h
  obtain ⟨call, -, hcall⟩ := List.mem_flatMap.mp (List.mem_of_mem_filter hs)
  unfold pollSnapshots at hcall
  split at hcall
  · exact parsed_of_mem_readSnapshots hcall hr
  · exact absurd hcall List.not_mem_nil

/-- A switch takes in a snapshot: one that broke off is neither swept nor ordered. -/
def SwitchClassifier.receive (ord : SubtableOrder) (dpid : UInt64) (sw : SwitchClassifier)
    (s : Snapshot) : SwitchClassifier :=
  if s.complete then (sw.marked s.rules).sweepAndRebuild ord dpid else sw.marked s.rules

namespace Classifier

def receive (ord : SubtableOrder) (c : Classifier) (s : Snapshot) : Classifier :=
  { c with switches := c.switches.insert s.dpid ((c.switch s.dpid).receive ord s.dpid s) }

/-- A poll does what its snapshots say, whether or not it throws. -/
theorem callStep_eq_foldl (ord : SubtableOrder) (c : Classifier) (call : Json) :
    callStep ord c call = (pollSnapshots call).foldl (receive ord) c := by
  cases call with
  | arr entries =>
    unfold callStep updateFromQueriedTables EState.finalState pollSnapshots
    simp only
    induction entries generalizing c with
    | nil => rfl
    | cons entry entries ih =>
      rw [EState.forM_cons_apply, updateEntry_apply]
      unfold readSnapshots
      cases hread : readEntry entry with
      | error e => rfl
      | ok p =>
        obtain ⟨dpid, _ | flows⟩ := p
        · exact ih c
        · simp only
          rcases EState.prefixOk parseRuleFromJson flows with ⟨rules, _ | e⟩
          · exact ih _
          · rfl
  | _ => rfl

theorem run_eq_foldl (ord : SubtableOrder) (c : Classifier) (calls : List Json) :
    GuardedRun.run (callStep ord) c calls =
      (calls.flatMap pollSnapshots).foldl (receive ord) c := by
  induction calls generalizing c with
  | nil => rfl
  | cons call calls ih =>
    rw [List.flatMap_cons, List.foldl_append, ← callStep_eq_foldl]
    exact ih _

/-- A switch sees only its own snapshots. -/
theorem switch_foldl_receive (ord : SubtableOrder) (dpid : UInt64) (c : Classifier)
    (snapshots : List Snapshot) :
    (snapshots.foldl (receive ord) c).switch dpid =
      (snapshots.filter fun s => s.dpid = dpid).foldl (SwitchClassifier.receive ord dpid)
        (c.switch dpid) := by
  induction snapshots generalizing c with
  | nil => rfl
  | cons s snapshots ih =>
    rw [List.foldl_cons, ih, receive, switch_insert, List.filter_cons]
    by_cases hdpid : s.dpid = dpid
    · subst hdpid
      simp
    · rw [if_neg fun h => hdpid h.symm, if_neg (by simpa using hdpid)]

/-- A lookup after a run of polls is one in the switch that took in its snapshots. -/
theorem lookup_run (ord : SubtableOrder) (calls : List Json) (dpid : UInt64) (key : FlowKey)
    (t : UInt8) :
    (GuardedRun.run (callStep ord) {} calls).lookup dpid key t =
      (((switchSnapshots calls dpid).foldl (SwitchClassifier.receive ord dpid)
        {}).lookupInTableNoLock t key).map Rule.effect := by
  rw [lookup_eq, run_eq_foldl, switch_foldl_receive]
  rfl

end Classifier

/-! ## Epochs -/

/-- The rules of the last complete snapshot and of those that broke off after it. -/
def recentRules (snapshots : List Snapshot) : List Rule :=
  snapshots.foldl (fun known s => if s.complete then s.rules else known ++ s.rules) []

theorem mem_of_mem_recentRules {snapshots : List Snapshot} {r : Rule}
    (h : r ∈ recentRules snapshots) : r ∈ snapshots.flatMap Snapshot.rules := by
  induction snapshots using List.reverseRecOn with
  | nil => exact h
  | append_singleton snapshots s ih =>
    rw [recentRules, List.foldl_append, List.foldl_cons, List.foldl_nil, ← recentRules] at h
    rw [List.flatMap_append, List.flatMap_singleton, List.mem_append]
    split at h
    · exact Or.inr h
    · exact (List.mem_append.mp h).imp_left ih

namespace SwitchClassifier

/-- Everything stored has the id of a known rule and was seen at most `n` epochs ago. -/
def Aged (n : Nat) (known : List Rule) (sw : SwitchClassifier) : Prop :=
  ∀ id stored, sw.rulesById.lookup id = some stored →
    id ∈ known.map Rule.id ∧ ∃ age ≤ n, stored.lastSeenEpoch + UInt64.ofNat age = sw.epoch

theorem aged_empty : Aged 0 [] {} := fun _ _ h => nomatch h

/-- Marking makes every other rule one epoch older. -/
theorem lookup_marked {n : Nat} {known rules : List Rule} {sw : SwitchClassifier}
    (h : sw.Aged n known) {id : RuleId} {stored : StoredRule}
    (hstored : (sw.marked rules).rulesById.lookup id = some stored) :
    (id ∈ rules.map Rule.id ∧ stored.lastSeenEpoch = (sw.marked rules).epoch) ∨
      (id ∈ known.map Rule.id ∧
        ∃ age ≤ n, stored.lastSeenEpoch + UInt64.ofNat (age + 1) = (sw.marked rules).epoch) := by
  have hepoch : (sw.marked rules).epoch = sw.epoch + 1 := epoch_foldl_upsertRule _ _
  by_cases hmem : id ∈ rules.map Rule.id
  · obtain ⟨r, hr⟩ := lookup_foldl_upsertRule_of_mem sw.nextEpoch hmem
    have hsome : some stored = some ⟨r, sw.nextEpoch.epoch⟩ := hstored.symm.trans hr
    rw [Option.some.inj hsome]
    exact Or.inl ⟨hmem, hepoch.symm⟩
  · have hbefore : sw.rulesById.lookup id = some stored := by
      rw [← hstored]
      exact (lookup_foldl_upsertRule_of_not_mem sw.nextEpoch hmem).symm
    obtain ⟨hknown, age, hage, hsum⟩ := h id stored hbefore
    refine Or.inr ⟨hknown, age, hage, ?_⟩
    rw [hepoch, ← hsum, UInt64.ofNat_add, UInt64.add_assoc]
    rfl

/-- A snapshot that broke off adds its rules to the known ones. -/
theorem aged_marked {n : Nat} {known rules : List Rule} {sw : SwitchClassifier}
    (h : sw.Aged n known) : (sw.marked rules).Aged (n + 1) (known ++ rules) := by
  intro id stored hstored
  rw [List.map_append, List.mem_append]
  rcases lookup_marked h hstored with ⟨hmem, hseen⟩ | ⟨hmem, age, hage, hsum⟩
  · exact ⟨Or.inr hmem, 0, Nat.zero_le _, by rw [hseen]; exact UInt64.add_zero _⟩
  · exact ⟨Or.inl hmem, age + 1, Nat.succ_le_succ hage, hsum⟩

/-- Fewer than `2 ^ 64` snapshots do not bring an epoch back. -/
theorem epoch_add_ne {age : Nat} (hage : age + 1 < 2 ^ 64) (epoch : UInt64) :
    epoch + UInt64.ofNat (age + 1) ≠ epoch := by
  intro hsum
  have hnat := congrArg UInt64.toNat (UInt64.add_eq_left.mp hsum)
  rw [UInt64.toNat_ofNat', Nat.mod_eq_of_lt hage] at hnat
  exact absurd hnat (Nat.succ_ne_zero age)

/-- A complete snapshot leaves only its own ids, as long as the epoch has not come round. -/
theorem aged_sweepAndRebuild (ord : SubtableOrder) (dpid : UInt64) {n : Nat}
    (hn : n + 1 < 2 ^ 64) {known rules : List Rule} {sw : SwitchClassifier}
    (h : sw.Aged n known) : ((sw.marked rules).sweepAndRebuild ord dpid).Aged 0 rules := by
  intro id stored hstored
  have hepoch := epoch_sweepAndRebuild ord dpid (sw.marked rules)
  rw [lookup_sweepAndRebuild, Option.filter_eq_some_iff] at hstored
  obtain ⟨hlookup, hlast⟩ := hstored
  have hlast : stored.lastSeenEpoch = (sw.marked rules).epoch := by simpa using hlast
  rcases lookup_marked h hlookup with ⟨hmem, -⟩ | ⟨-, age, hage, hsum⟩
  · exact ⟨hmem, 0, le_rfl, by rw [hepoch, hlast]; exact UInt64.add_zero _⟩
  · -- the age would have to be a multiple of 2^64
    rw [← hlast] at hsum
    exact absurd hsum (epoch_add_ne (by omega) stored.lastSeenEpoch)

/-- What a switch is after any snapshots of which fewer than `2 ^ 64 - 1` broke off. -/
theorem foldl_receive_inv (ord : SubtableOrder) (dpid : UInt64) (snapshots : List Snapshot)
    (hcut : (snapshots.countP fun s => ! s.complete) + 1 < 2 ^ 64) :
    (snapshots.foldl (receive ord dpid) {}).Inv ∧
      (∀ r, (snapshots.foldl (receive ord dpid) {}).Holds r →
        r ∈ snapshots.flatMap Snapshot.rules) ∧
      (snapshots.foldl (receive ord dpid) {}).Aged (snapshots.countP fun s => ! s.complete)
        (recentRules snapshots) := by
  induction snapshots using List.reverseRecOn with
  | nil => exact ⟨inv_empty, fun r hr => absurd hr (not_holds_empty r), aged_empty⟩
  | append_singleton snapshots s ih =>
    rw [List.countP_append] at hcut
    obtain ⟨hinv, hheld, haged⟩ := ih (by omega)
    have hmarked := marked_inv hinv s.rules
    have hfrom : ∀ r, ((snapshots.foldl (receive ord dpid) {}).marked s.rules).Holds r →
        r ∈ (snapshots ++ [s]).flatMap Snapshot.rules := by
      intro r hr
      rw [List.flatMap_append, List.mem_append, List.flatMap_singleton]
      exact (holds_marked hr).imp_left (hheld r)
    rw [List.foldl_append, List.foldl_cons, List.foldl_nil, List.countP_append, recentRules,
      List.foldl_append, List.foldl_cons, List.foldl_nil, ← recentRules]
    generalize snapshots.foldl (receive ord dpid) {} = sw at hinv haged hmarked hfrom
    unfold receive
    cases hs : s.complete with
    -- a complete snapshot sweeps away what it did not mark
    | true =>
      refine ⟨sweepAndRebuild_inv ord dpid hmarked, ?_, ?_⟩
      · intro r hr
        exact hfrom r (holds_of_holds_sweepAndRebuild hr)
      · intro id stored hstored
        obtain ⟨hmem, age, hage, hsum⟩ :=
          aged_sweepAndRebuild ord dpid (by omega) haged id stored hstored
        exact ⟨hmem, age, by omega, hsum⟩
    -- a snapshot cut short marks and ages, but sweeps nothing
    | false =>
      refine ⟨hmarked, hfrom, ?_⟩
      simpa [hs] using aged_marked haged

/-! ## A changed rule -/

end SwitchClassifier

/-- The rule alone decides a key in a snapshot: every other rule of its table that matches is
    below it. Lookups do not see negative priorities. -/
structure Rule.Decides (r : Rule) (rules : List Rule) (key : KeyBytes) : Prop where
  nonneg : 0 ≤ r.priority
  matched : r.Matches key
  above : ∀ r' ∈ rules, r'.tableId = r.tableId → r'.Matches key →
    r' = r ∨ r'.priority < r.priority

theorem Rule.SameCore.matches_iff {r r' : Rule} (h : r.SameCore r') (key : KeyBytes) :
    r.Matches key ↔ r'.Matches key := by
  unfold Rule.Matches
  rw [h.2.1, h.2.2.1]

namespace SwitchClassifier

/-- A rule whose identity is not stored yet is stored as it is read, and decides the keys that
    it decides in the snapshot. -/
theorem lookup_of_new_id (ord : SubtableOrder) (dpid : UInt64) {n : Nat} (hn : n + 1 < 2 ^ 64)
    {known rules seen : List Rule} {sw : SwitchClassifier} (hinv : sw.Inv)
    (haged : sw.Aged n known) (hsub : ∀ r, (sw.marked rules).Holds r ∨ r ∈ rules → r ∈ seen)
    (hhash : HashesApart seen) (hparsed : ∀ r ∈ seen, r.Parsed) {r : Rule} (hr : r ∈ rules)
    (hnew : sw.rulesById.lookup r.id = none) {key : FlowKey} (hdec : r.Decides rules (packKey key)) :
    (((sw.marked rules).sweepAndRebuild ord dpid).lookupInTableNoLock r.tableId key).map
      Rule.effect = some r.effect := by
  have hmarked := marked_inv hinv rules
  have hcore : ∀ {a b : Rule}, a ∈ seen → b ∈ seen → a.id = b.id → a.SameCore b :=
    fun ha hb hid => ((id_eq_iff hhash ha hb (hparsed _ ha) (hparsed _ hb)).mp hid).1
  have hrseen : r ∈ seen := hsub r (Or.inr hr)
  -- the rule stored under the id is the first of the snapshot that has it, which is `r`
  obtain ⟨s, hs⟩ := lookup_foldl_upsertRule_of_mem sw.nextEpoch
    (List.mem_map_of_mem (f := Rule.id) hr)
  have hsid : s.id = r.id := hmarked.id_eq _ _ hs
  have hsheld : (sw.marked rules).Holds s := ⟨_, hsid ▸ hs, rfl⟩
  have hsrules : s ∈ rules := by
    refine (holds_marked hsheld).resolve_left fun hold => ?_
    obtain ⟨stored, hstored, -⟩ := hold
    rw [hsid, hnew] at hstored
    exact nomatch hstored
  obtain rfl : s = r := by
    have hsame := hcore (hsub s (Or.inr hsrules)) hrseen hsid
    rcases hdec.above s hsrules hsame.1 ((hsame.matches_iff _).mpr hdec.matched) with heq | hlt
    · exact heq
    · exact absurd hlt (by rw [hsame.2.2.2]; exact lt_irrefl _)
  have hepoch : (sw.marked rules).epoch = sw.nextEpoch.epoch := epoch_foldl_upsertRule _ _
  have hheld : ((sw.marked rules).sweepAndRebuild ord dpid).Holds s := by
    refine ⟨⟨s, sw.nextEpoch.epoch⟩, ?_, rfl⟩
    rw [lookup_sweepAndRebuild, Option.filter_eq_some_iff]
    exact ⟨hs, by simp [hepoch]⟩
  -- everything else that is held and matches shares its core with a rule of the snapshot
  have hbelow : ∀ a, ((sw.marked rules).sweepAndRebuild ord dpid).Holds a →
      a.tableId = s.tableId → a.Matches (packKey key) → a = s ∨ a.priority < s.priority := by
    intro a ha htable hmatch
    obtain ⟨stored, hstored, hrule⟩ := ha
    obtain ⟨hmem, -⟩ := aged_sweepAndRebuild ord dpid hn haged _ _ hstored
    obtain ⟨b, hb, hbid⟩ := List.mem_map.mp hmem
    have haseen : a ∈ seen :=
      hsub a (Or.inl (holds_of_holds_sweepAndRebuild ⟨stored, hstored, hrule⟩))
    have hsame := hcore (hsub b (Or.inr hb)) haseen hbid
    rcases hdec.above b hb (hsame.1.trans htable) ((hsame.matches_iff _).mpr hmatch) with heq | hlt
    · subst heq
      obtain ⟨stored', hstored', hrule'⟩ := hheld
      rw [← hbid, hstored'] at hstored
      obtain rfl := Option.some.inj hstored
      exact Or.inl (hrule.symm.trans hrule')
    · exact Or.inr (hsame.2.2.2 ▸ hlt)
  have hbest := lookup_isBestMatch_nonneg (sweepAndRebuild_inv ord dpid hmarked)
    (sweepAndRebuild_ordered ord dpid hmarked) s.tableId key
  cases hres : (((sw.marked rules).sweepAndRebuild ord dpid).lookupInTableNoLock s.tableId
      key).map Rule.effect with
  | none =>
    rw [hres] at hbest
    exact absurd hdec.matched (hbest s ⟨⟨hheld, rfl⟩, hdec.nonneg⟩)
  | some effect =>
    rw [hres] at hbest
    obtain ⟨a, ⟨⟨ha, htable⟩, -⟩, hmatch, heffect, hmax⟩ := hbest
    have hle := hmax s ⟨⟨hheld, rfl⟩, hdec.nonneg⟩ hdec.matched
    rcases hbelow a ha htable hmatch with rfl | hlt
    · rw [← heffect]
    · exact absurd hlt (not_lt.mpr hle)

end SwitchClassifier

end Ndtwin.Kernel

namespace Ndtwin.Spec

open Ndtwin.Kernel

/-- Without accidental collisions, two polled entries of one table, match and priority with
    different effects get different identities exactly when their effects feed different
    words. After any polls, thrown ones included, a rule of the last snapshot of a switch whose
    words differ from those it had in the snapshot before is what lookups of the keys it
    decides return. -/
theorem changed_effect_seen (ord : SubtableOrder) :
    (∀ flow flow' r r', parseRuleFromJson flow = .ok r → parseRuleFromJson flow' = .ok r' →
      r.SameCore r' → r.effect ≠ r'.effect → HashesApart [r, r'] →
      (r.id ≠ r'.id ↔ ¬ r.effect.SameHashed r'.effect)) ∧
    ∀ (calls : List Json) (dpid : UInt64) (before : List Snapshot) (rules : List Rule),
      switchSnapshots calls dpid = before ++ [⟨dpid, rules, true⟩] →
      (before.countP fun s => ! s.complete) + 1 < 2 ^ 64 →
      HashesApart ((switchSnapshots calls dpid).flatMap Snapshot.rules) →
      ∀ r ∈ rules, ∀ key, r.Decides rules (packKey key) →
        (∀ r₀ ∈ recentRules before, r₀.SameCore r → ¬ r₀.effect.SameHashed r.effect) →
        (GuardedRun.run (Classifier.callStep ord) {} calls).lookup dpid key r.tableId =
          some r.effect := by
  constructor
  · intro flow flow' r r' hflow hflow' hcore hne hhash
    have hiff := id_eq_iff hhash List.mem_cons_self
      (List.mem_cons_of_mem r List.mem_cons_self) ⟨flow, hflow⟩ ⟨flow', hflow'⟩
    rw [ne_eq, hiff]
    exact not_congr ⟨fun h => h.2, fun h => ⟨hcore, h⟩⟩
  · intro calls dpid before rules hsnap hcut hhash r hr key hdec hchanged
    have hparsed : ∀ a ∈ (switchSnapshots calls dpid).flatMap Snapshot.rules, a.Parsed :=
      fun a ha => parsed_of_mem_switchSnapshots ha
    rw [Classifier.lookup_run, hsnap, List.foldl_append, List.foldl_cons, List.foldl_nil]
    rw [hsnap, List.flatMap_append, List.flatMap_singleton] at hhash hparsed
    obtain ⟨hinv, hheld, haged⟩ := SwitchClassifier.foldl_receive_inv ord dpid before hcut
    have hrecent : ∀ a ∈ recentRules before, a ∈ before.flatMap Snapshot.rules :=
      fun a ha => mem_of_mem_recentRules ha
    apply SwitchClassifier.lookup_of_new_id ord dpid hcut hinv haged ?_ hhash hparsed hr ?_ hdec
    · intro a ha
      rw [List.mem_append]
      rcases ha with hmarked | hmem
      · exact (SwitchClassifier.holds_marked hmarked).imp_left (hheld a)
      · exact Or.inr hmem
    · -- a stored identity would be that of a rule of the snapshot before
      cases hlookup : (before.foldl (SwitchClassifier.receive ord dpid) {}).rulesById.lookup
          r.id with
      | none => rfl
      | some stored =>
        obtain ⟨hmem, -⟩ := haged _ _ hlookup
        obtain ⟨r₀, hr₀, hid⟩ := List.mem_map.mp hmem
        have hr₀seen := List.mem_append_left rules (hrecent r₀ hr₀)
        have hrseen := List.mem_append_right (before.flatMap Snapshot.rules) hr
        obtain ⟨hcore, hsame⟩ := (id_eq_iff hhash hr₀seen hrseen (hparsed _ hr₀seen)
          (hparsed _ hrseen)).mp hid
        exact absurd hsame (hchanged r₀ hr₀ hcore)

/-- A rule that matches everything, as it is read. -/
def anyRule (effect : RuleEffect) : Rule where
  id := ⟨0, fingerprintRuleCore .zero .zero 10 effect⟩
  tableId := 0
  priority := 10
  mask := .zero
  maskedValue := .zero
  effect := effect

/-- A rule is edited from one port to another. -/
def editedPort : List Json :=
  [pollSwitchOne [flowEntry [] (.uint 10) "OUTPUT:5"],
    pollSwitchOne [flowEntry [] (.uint 10) "OUTPUT:6"]]

theorem editedPort_seen :
    (anyRule { outputPorts := [5] }).id ≠ (anyRule { outputPorts := [6] }).id ∧
      (GuardedRun.run (Classifier.callStep stableOrder) {} editedPort).lookup 1 {} 0 =
        some { outputPorts := [6] } := by
  constructor
  · apply ((changed_effect_seen stableOrder).1 (flowEntry [] (.uint 10) "OUTPUT:5")
      (flowEntry [] (.uint 10) "OUTPUT:6") _ _ (by decide +kernel) (by decide +kernel)
      (by decide +kernel) (by decide +kernel) (by decide +kernel)).mpr
    decide +kernel
  · exact (changed_effect_seen stableOrder).2 editedPort 1
      [⟨1, [anyRule { outputPorts := [5] }], true⟩] [anyRule { outputPorts := [6] }]
      (by decide +kernel) (by decide) (by decide +kernel) (anyRule { outputPorts := [6] })
      List.mem_cons_self {} ⟨by decide, by decide +kernel, by decide +kernel⟩ (by decide +kernel)

/-- A rule is edited from a group to the port of the same number. -/
def groupToPort : List Json :=
  [pollSwitchOne [flowEntry [] (.uint 10) "GROUP:5"],
    pollSwitchOne [flowEntry [] (.uint 10) "OUTPUT:5"]]

theorem groupToPort_hidden :
    (¬ ∀ flow flow' r r', parseRuleFromJson flow = .ok r → parseRuleFromJson flow' = .ok r' →
      r.SameCore r' → r.effect ≠ r'.effect → HashesApart [r, r'] → r.id ≠ r'.id) ∧
    ¬ ∀ (ord : SubtableOrder) (calls : List Json) (dpid : UInt64) (before : List Snapshot)
      (rules : List Rule),
      switchSnapshots calls dpid = before ++ [⟨dpid, rules, true⟩] →
      (before.countP fun s => ! s.complete) + 1 < 2 ^ 64 →
      HashesApart ((switchSnapshots calls dpid).flatMap Snapshot.rules) →
      ∀ r ∈ rules, ∀ key, r.Decides rules (packKey key) →
        (∃ r₀ ∈ recentRules before, r₀.SameCore r) →
        (∀ r₀ ∈ recentRules before, r₀.SameCore r → r₀.effect ≠ r.effect) →
        (GuardedRun.run (Classifier.callStep ord) {} calls).lookup dpid key r.tableId =
          some r.effect := by
  constructor
  · intro h
    exact h (flowEntry [] (.uint 10) "GROUP:5") (flowEntry [] (.uint 10) "OUTPUT:5")
      (anyRule { groupId := some 5 }) (anyRule { outputPorts := [5] }) (by decide +kernel)
      (by decide +kernel) (by decide +kernel) (by decide +kernel) (by decide +kernel)
      (by decide +kernel)
  · intro h
    have hnew := h stableOrder groupToPort 1 [⟨1, [anyRule { groupId := some 5 }], true⟩]
      [anyRule { outputPorts := [5] }] (by decide +kernel) (by decide) (by decide +kernel)
      (anyRule { outputPorts := [5] }) List.mem_cons_self {}
      ⟨by decide, by decide +kernel, by decide +kernel⟩ (by decide +kernel) (by decide +kernel)
    have hstale : (GuardedRun.run (Classifier.callStep stableOrder) {} groupToPort).lookup 1 {} 0 =
        some { groupId := some 5 } := by decide +kernel
    rw [show (anyRule { outputPorts := [5] }).tableId = 0 from rfl, hstale] at hnew
    exact nomatch hnew

end Ndtwin.Spec

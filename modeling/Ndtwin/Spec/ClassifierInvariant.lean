import Ndtwin.ForStd.List
import Ndtwin.Kernel.Classifier

/-!
# Classifier Invariant

The four linked structures of a switch's classifier agree: a bucket holds exactly the rules
of `rulesById` with its table, mask and value, by falling priority, and every cached maximum
bounds the priorities below it. The order of the subtables is only right between updates,
so it is kept apart (`TableClassifier.Ordered`): it lists every subtable that holds a rule,
by falling maximum.

## Key results

- `SwitchClassifier.lookup_isBestMatch`: with invariant and order, the lookup is a scan
- `SwitchClassifier.answersAlike_of_holds`: the order of the subtables shows in ties only
- `SwitchClassifier.upsertRule_inv`, `SwitchClassifier.deleteRule_inv`: the steps of an
  update keep the invariant
- `SwitchClassifier.rebuildPriorityOrders_ordered`: the rebuild restores the order
- `SwitchClassifier.upsertRule_ordered`: a marking step keeps the order when the rule is
  known, or stays below the maximum of a listed subtable
-/

namespace Ndtwin.Kernel

theorem KeyBytes.eq_of_bytes_eq {a b : KeyBytes} (h : a.bytes = b.bytes) : a = b := by
  cases a
  cases b
  cases h
  rfl

/-! ## Best match -/

/-- The rule matches the packed key: `key & mask == value`. -/
def Rule.Matches (r : Rule) (key : KeyBytes) : Prop :=
  key.bitAnd r.mask = r.maskedValue

instance (r : Rule) (key : KeyBytes) : Decidable (r.Matches key) :=
  inferInstanceAs (Decidable (key.bitAnd r.mask = r.maskedValue))

/-- `result` is what a linear scan of the rules that satisfy `held` may give for a packed
    key: nothing when none matches, else the effect of a matching rule whose priority is
    maximal among the matching ones. -/
def IsBestMatch (held : Rule → Prop) (key : KeyBytes) : Option RuleEffect → Prop
  | none => ∀ r, held r → ¬ r.Matches key
  | some effect => ∃ r, held r ∧ r.Matches key ∧ r.effect = effect ∧
      ∀ r', held r' → r'.Matches key → r'.priority ≤ r.priority

/-- Nothing is found exactly when nothing matches. -/
theorem IsBestMatch.eq_none_iff {held : Rule → Prop} {key : KeyBytes}
    {result : Option RuleEffect} (h : IsBestMatch held key result) :
    result = none ↔ ∀ r, held r → ¬ r.Matches key := by
  cases result with
  | none => exact ⟨fun _ => h, fun _ => rfl⟩
  | some effect =>
    obtain ⟨r, hr, hmatch, -⟩ := h
    constructor
    · intro heq
      exact nomatch heq
    · intro hno
      exact absurd hmatch (hno r hr)

/-- All best matches of a key have one effect, so that nothing is left to the order of a scan. -/
def NoTie (held : Rule → Prop) (key : KeyBytes) : Prop :=
  ∀ effect effect', IsBestMatch held key (some effect) → IsBestMatch held key (some effect') →
    effect = effect'

/-- Without a tie a scan has one result. -/
theorem IsBestMatch.unique {held : Rule → Prop} {key : KeyBytes} (hno : NoTie held key)
    {result result' : Option RuleEffect} (h : IsBestMatch held key result)
    (h' : IsBestMatch held key result') : result = result' := by
  cases result with
  | none => exact (h'.eq_none_iff.mpr (h.eq_none_iff.mp rfl)).symm
  | some effect =>
    cases result' with
    | none => exact h.eq_none_iff.mpr (h'.eq_none_iff.mp rfl)
    | some effect' => rw [hno effect effect' h h']

/-! ## Buckets -/

namespace Subtable

/-- Rules by falling priority. -/
def Falling (bucket : List Rule) : Prop :=
  bucket.Pairwise fun a b => b.priority ≤ a.priority

theorem mem_insertByPriority {r a : Rule} {bucket : List Rule} :
    a ∈ insertByPriority r bucket ↔ a = r ∨ a ∈ bucket :=
  List.mem_orderedInsert _

theorem nodup_insertByPriority {r : Rule} {bucket : List Rule} (hnodup : bucket.Nodup)
    (hr : r ∉ bucket) : (insertByPriority r bucket).Nodup :=
  (List.perm_orderedInsert _ r bucket).nodup_iff.mpr (List.nodup_cons.mpr ⟨hr, hnodup⟩)

theorem falling_insertByPriority {r : Rule} {bucket : List Rule} (h : Falling bucket) :
    Falling (insertByPriority r bucket) := by
  have htotal : Std.Total fun a b : Rule => b.priority ≤ a.priority :=
    ⟨fun a b => le_total b.priority a.priority⟩
  have htrans : IsTrans Rule fun a b => b.priority ≤ a.priority :=
    ⟨fun _ _ _ hab hbc => le_trans hbc hab⟩
  exact h.orderedInsert r bucket

/-- The front of a bucket bounds it. -/
theorem le_head_of_falling {bucket : List Rule} (h : Falling bucket) {front r : Rule}
    (hfront : bucket.head? = some front) (hr : r ∈ bucket) : r.priority ≤ front.priority := by
  cases bucket with
  | nil => exact nomatch hfront
  | cons b bs =>
    obtain rfl := Option.some.inj hfront
    rcases List.mem_cons.mp hr with rfl | hmem
    · exact le_refl _
    · exact List.rel_of_pairwise_cons h hmem

theorem le_raiseMax (mp : Int) (bucket : List Rule) : mp ≤ raiseMax mp bucket := by
  unfold raiseMax
  split
  · exact le_max_right _ _
  · exact le_refl _

theorem le_raiseMax_of_mem {bucket : List Rule} (h : Falling bucket) (mp : Int) {r : Rule}
    (hr : r ∈ bucket) : r.priority ≤ raiseMax mp bucket := by
  unfold raiseMax
  split
  · next front hfront => exact le_trans (le_head_of_falling h hfront hr) (le_max_left _ _)
  · next hnone =>
    rw [List.head?_eq_none_iff.mp hnone] at hr
    exact absurd hr List.not_mem_nil

theorem bucket_insertRule (st : Subtable) (r : Rule) (v : KeyBytes) :
    (st.insertRule r).bucket v =
      if v = r.maskedValue then insertByPriority r (st.bucket v) else st.bucket v := by
  unfold insertRule bucket
  simp only [AssocMap.lookup_insert_eq]
  split
  · next h => rw [h]; rfl
  · rfl

theorem bucket_removeRule (st : Subtable) (r : Rule) (v : KeyBytes) :
    (st.removeRule r).bucket v =
      if v = r.maskedValue then (st.bucket v).erase r else st.bucket v := by
  unfold removeRule recomputeMaxPriority bucket
  by_cases hv : v = r.maskedValue
  · subst hv
    cases hb : st.buckets.lookup r.maskedValue with
    | none => simp [hb]
    | some rs =>
      by_cases hmem : r ∈ rs
      · by_cases hempty : (rs.erase r).isEmpty
        · simp [hmem, List.isEmpty_iff.mp hempty]
        · simp [hmem, hempty]
      · simp [hb, hmem, List.erase_of_not_mem hmem]
  · rw [if_neg hv]
    cases hb : st.buckets.lookup r.maskedValue with
    | none => rfl
    | some rs =>
      simp only
      split
      · split
        · rw [AssocMap.lookup_erase_eq, if_neg hv]
        · rw [AssocMap.lookup_insert_eq, if_neg hv]
      · rfl

/-- A recomputed maximum bounds every bucket. -/
theorem le_recomputeMaxPriority {st : Subtable} (hfall : ∀ v, Falling (st.bucket v))
    {v : KeyBytes} {r : Rule} (hr : r ∈ st.bucket v) :
    r.priority ≤ st.recomputeMaxPriority.maxPriority := by
  obtain ⟨rs, hrs, hmem⟩ : ∃ rs, st.buckets.lookup v = some rs ∧ r ∈ rs := by
    unfold bucket at hr
    cases hb : st.buckets.lookup v with
    | none => rw [hb] at hr; exact absurd hr List.not_mem_nil
    | some rs => rw [hb] at hr; exact ⟨rs, rfl, hr⟩
  have hfallrs : Falling rs := by
    have h := hfall v
    unfold bucket at h
    rwa [hrs] at h
  have hpair : (v, rs) ∈ st.buckets.toPairs := AssocMap.mem_toPairs.mpr hrs
  refine List.le_foldl_of_mem (fun mp b => le_raiseMax mp b.2) hpair (fun mp => ?_) (-1)
  exact le_raiseMax_of_mem hfallrs mp hmem

end Subtable

/-! ## Tables -/

namespace TableClassifier

/-- The rules of a bucket of a table. -/
def bucket (tc : TableClassifier) (mask value : KeyBytes) : List Rule :=
  match tc.byMask.lookup mask with
  | some st => st.bucket value
  | none => []

/-- The buckets hold exactly the rules that satisfy `held`, by falling priority, below the
    cached maxima. -/
structure Inv (tc : TableClassifier) (held : Rule → Prop) : Prop where
  mask_eq : ∀ m st, tc.byMask.lookup m = some st → st.mask = m
  mem_bucket : ∀ m v r, r ∈ tc.bucket m v ↔ held r ∧ r.mask = m ∧ r.maskedValue = v
  falling : ∀ m v, Subtable.Falling (tc.bucket m v)
  nodup : ∀ m v, (tc.bucket m v).Nodup
  le_max : ∀ m v r, r ∈ tc.bucket m v → r.priority ≤ maxPriorityOf tc.byMask m

/-- The order lists every subtable that holds a rule, by falling maximum. -/
structure Ordered (tc : TableClassifier) : Prop where
  mem : ∀ m v r, r ∈ tc.bucket m v → m ∈ tc.subtablesByPriority
  sorted : tc.subtablesByPriority.Pairwise fun a b =>
    maxPriorityOf tc.byMask b ≤ maxPriorityOf tc.byMask a

theorem inv_empty {held : Rule → Prop} (h : ∀ r, ¬ held r) : Inv {} held where
  mask_eq _ _ hst := nomatch hst
  mem_bucket m v r := by simpa [bucket] using fun hr => absurd hr (h r)
  falling _ _ := List.Pairwise.nil
  nodup _ _ := List.nodup_nil
  le_max _ _ _ hr := absurd hr List.not_mem_nil

theorem ordered_empty : Ordered {} where
  mem _ _ _ hr := absurd hr List.not_mem_nil
  sorted := List.Pairwise.nil

/-- Only what is held matters. -/
theorem Inv.congr {tc : TableClassifier} {held held' : Rule → Prop} (h : Inv tc held)
    (hiff : ∀ r, held r ↔ held' r) : Inv tc held' where
  mask_eq := h.mask_eq
  mem_bucket m v r := (h.mem_bucket m v r).trans (and_congr_left fun _ => hiff r)
  falling := h.falling
  nodup := h.nodup
  le_max := h.le_max

/-! ### Lookup -/

/-- A candidate is a rule of the bucket that the key selects. -/
theorem candidate_eq_some {tc : TableClassifier} {held : Rule → Prop} (h : Inv tc held)
    {key m : KeyBytes} {r : Rule} (hr : tc.candidate key m = some r) :
    (tc.bucket m (key.bitAnd m)).head? = some r := by
  obtain ⟨st, hst, hhead⟩ := Option.bind_eq_some_iff.mp hr
  rw [h.mask_eq m st hst] at hhead
  simpa only [bucket, hst] using hhead

/-- A rule that matches has a candidate at least as high in its subtable. -/
theorem exists_candidate {tc : TableClassifier} {held : Rule → Prop} (h : Inv tc held)
    {key : KeyBytes} {r : Rule} (hheld : held r) (hmatch : r.Matches key) :
    ∃ c, tc.candidate key r.mask = some c ∧ r.priority ≤ c.priority := by
  have hmem : r ∈ tc.bucket r.mask (key.bitAnd r.mask) :=
    (h.mem_bucket _ _ r).mpr ⟨hheld, rfl, hmatch.symm⟩
  cases hhead : (tc.bucket r.mask (key.bitAnd r.mask)).head? with
  | none =>
    rw [List.head?_eq_none_iff.mp hhead] at hmem
    exact absurd hmem List.not_mem_nil
  | some c =>
    refine ⟨c, ?_, Subtable.le_head_of_falling (h.falling _ _) hhead hmem⟩
    unfold bucket at hhead
    cases hst : tc.byMask.lookup r.mask with
    | none => rw [hst] at hhead; exact nomatch hhead
    | some st =>
      rw [hst] at hhead
      simpa only [candidate, hst, Option.bind_some, h.mask_eq _ st hst] using hhead

/-- The search with its cut-off finds what a scan of the held rules finds. It starts from a
    best priority of -1, so a rule of negative priority is never found. -/
theorem search_isBestMatch {tc : TableClassifier} {held : Rule → Prop} (h : Inv tc held)
    (hord : Ordered tc) (key : KeyBytes) :
    IsBestMatch (fun r => held r ∧ 0 ≤ r.priority) key
      ((BoundedSearch.search (maxPriorityOf tc.byMask) (tc.candidate key)
        Rule.priority none (-1) tc.subtablesByPriority).map Rule.effect) := by
  have hbound : ∀ m c, tc.candidate key m = some c → c.priority ≤ maxPriorityOf tc.byMask m :=
    fun m c hc => h.le_max _ _ _ (List.mem_of_head? (candidate_eq_some h hc))
  -- every rule that matches is beaten by the candidate of a listed subtable
  have hlisted : ∀ r, held r → r.Matches key →
      ∃ m ∈ tc.subtablesByPriority, ∃ c, tc.candidate key m = some c ∧
        r.priority ≤ c.priority := by
    intro r hheld hmatch
    obtain ⟨c, hc, hle⟩ := exists_candidate h hheld hmatch
    have hmem : r ∈ tc.bucket r.mask r.maskedValue := (h.mem_bucket _ _ r).mpr ⟨hheld, rfl, rfl⟩
    exact ⟨r.mask, hord.mem _ _ r hmem, c, hc, hle⟩
  cases hsearch : BoundedSearch.search (maxPriorityOf tc.byMask) (tc.candidate key)
      Rule.priority none (-1) tc.subtablesByPriority with
  | none =>
    intro r hr hmatch
    obtain ⟨hheld, hnonneg⟩ := hr
    obtain ⟨m, hm, c, hc, hle⟩ := hlisted r hheld hmatch
    have hfloor := BoundedSearch.search_eq_none hbound hord.sorted hsearch m hm c hc
    omega
  | some c =>
    obtain ⟨hfloor, m, -, hc, hdom⟩ := BoundedSearch.search_eq_some hbound hord.sorted hsearch
    have hcand := candidate_eq_some h hc
    obtain ⟨hheld, hmask, hvalue⟩ := (h.mem_bucket _ _ c).mp (List.mem_of_head? hcand)
    refine ⟨c, ⟨hheld, by omega⟩, ?_, rfl, ?_⟩
    · rw [Rule.Matches, hmask, hvalue]
    · intro r hr hmatch
      obtain ⟨m', hm', c', hc', hle⟩ := hlisted r hr.1 hmatch
      exact le_trans hle (hdom m' hm' c' hc')

/-! ### Insertion and removal -/

/-- The subtable `getOrCreateSubtable` returns. -/
def subtable (tc : TableClassifier) (mask : KeyBytes) : Subtable :=
  (tc.byMask.lookup mask).getD { mask := mask }

theorem bucket_subtable (tc : TableClassifier) (m v : KeyBytes) :
    (tc.subtable m).bucket v = tc.bucket m v := by
  unfold subtable bucket
  cases tc.byMask.lookup m with
  | none => rfl
  | some st => rfl

theorem maxPriority_subtable (tc : TableClassifier) (m : KeyBytes) :
    (tc.subtable m).maxPriority = maxPriorityOf tc.byMask m := by
  unfold subtable maxPriorityOf
  cases tc.byMask.lookup m with
  | none => rfl
  | some st => rfl

theorem lookup_insertRule (tc : TableClassifier) (r : Rule) (m : KeyBytes) :
    (tc.insertRule r).byMask.lookup m =
      if m = r.mask then some ((tc.subtable r.mask).insertRule r) else tc.byMask.lookup m := by
  unfold insertRule getOrCreateSubtable subtable
  cases hst : tc.byMask.lookup r.mask with
  | none =>
    simp only [AssocMap.lookup_insert_eq, Option.getD_none]
    split
    · rfl
    · rfl
  | some st => simp only [AssocMap.lookup_insert_eq, Option.getD_some]

@[simp] theorem subtablesByPriority_insertRule (tc : TableClassifier) (r : Rule) :
    (tc.insertRule r).subtablesByPriority = tc.subtablesByPriority := by
  unfold insertRule getOrCreateSubtable
  split
  · next heq => split at heq <;> (obtain ⟨rfl, rfl⟩ := Prod.mk.inj heq; rfl)

theorem bucket_insertRule (tc : TableClassifier) (r : Rule) (m v : KeyBytes) :
    (tc.insertRule r).bucket m v =
      if m = r.mask ∧ v = r.maskedValue then Subtable.insertByPriority r (tc.bucket m v)
      else tc.bucket m v := by
  rw [bucket, lookup_insertRule]
  by_cases hm : m = r.mask
  · subst hm
    simp only [if_true, true_and, Subtable.bucket_insertRule, bucket_subtable]
  · simp only [hm, false_and, if_false, bucket]

theorem maxPriorityOf_insertRule (tc : TableClassifier) (r : Rule) (m : KeyBytes) :
    maxPriorityOf (tc.insertRule r).byMask m =
      if m = r.mask then
        Subtable.raiseMax (maxPriorityOf tc.byMask m)
          (Subtable.insertByPriority r (tc.bucket m r.maskedValue))
      else maxPriorityOf tc.byMask m := by
  rw [maxPriorityOf, lookup_insertRule]
  by_cases hm : m = r.mask
  · subst hm
    simp only [if_true, Subtable.insertRule, maxPriority_subtable, bucket_subtable]
  · simp only [hm, if_false, maxPriorityOf]

/-- Inserting a rule that is not held adds it and nothing else. -/
theorem insertRule_inv {tc : TableClassifier} {held : Rule → Prop} (h : Inv tc held) {r : Rule}
    (hr : ¬ held r) : Inv (tc.insertRule r) fun r' => r' = r ∨ held r' where
  mask_eq m st hst := by
    rw [lookup_insertRule] at hst
    split at hst
    · next hm =>
      obtain rfl := Option.some.inj hst
      show (tc.subtable r.mask).mask = m
      unfold subtable
      cases hlookup : tc.byMask.lookup r.mask with
      | none => exact hm.symm
      | some st => exact (h.mask_eq _ st hlookup).trans hm.symm
    · exact h.mask_eq m st hst
  mem_bucket m v r' := by
    rw [bucket_insertRule]
    split
    · next hmv =>
      obtain ⟨rfl, rfl⟩ := hmv
      rw [Subtable.mem_insertByPriority, h.mem_bucket]
      constructor
      · rintro (rfl | ⟨hheld, hm, hv⟩)
        · exact ⟨Or.inl rfl, rfl, rfl⟩
        · exact ⟨Or.inr hheld, hm, hv⟩
      · rintro ⟨rfl | hheld, hm, hv⟩
        · exact Or.inl rfl
        · exact Or.inr ⟨hheld, hm, hv⟩
    · next hmv =>
      rw [h.mem_bucket]
      constructor
      · rintro ⟨hheld, hm, hv⟩
        exact ⟨Or.inr hheld, hm, hv⟩
      · -- the new rule is in no bucket but its own
        rintro ⟨rfl | hheld, hm, hv⟩
        · exact absurd ⟨hm.symm, hv.symm⟩ hmv
        · exact ⟨hheld, hm, hv⟩
  falling m v := by
    rw [bucket_insertRule]
    split
    · exact Subtable.falling_insertByPriority (h.falling m v)
    · exact h.falling m v
  nodup m v := by
    rw [bucket_insertRule]
    split
    · exact Subtable.nodup_insertByPriority (h.nodup m v)
        fun hmem => hr ((h.mem_bucket m v r).mp hmem).1
    · exact h.nodup m v
  le_max m v r' hr' := by
    rw [maxPriorityOf_insertRule]
    rw [bucket_insertRule] at hr'
    have hfall := Subtable.falling_insertByPriority (r := r) (h.falling m r.maskedValue)
    by_cases hm : m = r.mask
    · rw [if_pos hm]
      -- of the subtables only the one that took the rule may raise its maximum
      by_cases hv : v = r.maskedValue
      · subst hv
        rw [if_pos ⟨hm, rfl⟩] at hr'
        exact Subtable.le_raiseMax_of_mem hfall _ hr'
      · rw [if_neg fun hmv => hv hmv.2] at hr'
        exact le_trans (h.le_max m v r' hr') (Subtable.le_raiseMax _ _)
    · rw [if_neg fun hmv => hm hmv.1] at hr'
      rw [if_neg hm]
      exact h.le_max m v r' hr'

theorem lookup_removeRule (tc : TableClassifier) (r : Rule) (m : KeyBytes) :
    (tc.removeRule r).byMask.lookup m =
      if m = r.mask then (tc.byMask.lookup m).map fun st => st.removeRule r
      else tc.byMask.lookup m := by
  unfold removeRule
  cases hst : tc.byMask.lookup r.mask with
  | none =>
    simp only
    split
    · next hm => rw [hm, hst]; rfl
    · rfl
  | some st =>
    simp only [AssocMap.lookup_insert_eq]
    split
    · next hm => rw [hm, hst]; rfl
    · rfl

theorem bucket_removeRule (tc : TableClassifier) (r : Rule) (m v : KeyBytes) :
    (tc.removeRule r).bucket m v =
      if m = r.mask ∧ v = r.maskedValue then (tc.bucket m v).erase r else tc.bucket m v := by
  rw [bucket, lookup_removeRule]
  by_cases hm : m = r.mask
  · rw [if_pos hm]
    unfold bucket
    cases tc.byMask.lookup m with
    | none => simp
    | some st => simp [Subtable.bucket_removeRule, hm]
  · simp only [hm, false_and, if_false, bucket]

/-- Removing a rule removes it and nothing else. -/
theorem removeRule_inv {tc : TableClassifier} {held : Rule → Prop} (h : Inv tc held) (r : Rule) :
    Inv (tc.removeRule r) fun r' => held r' ∧ r' ≠ r := by
  have hfall : ∀ m v, Subtable.Falling ((tc.removeRule r).bucket m v) := by
    intro m v
    rw [bucket_removeRule]
    split
    · exact List.Pairwise.sublist List.erase_sublist (h.falling m v)
    · exact h.falling m v
  refine ⟨?_, ?_, hfall, ?_, ?_⟩
  · intro m st hst
    rw [lookup_removeRule] at hst
    split at hst
    · obtain ⟨st₀, hst₀, rfl⟩ := Option.map_eq_some_iff.mp hst
      exact h.mask_eq m st₀ hst₀
    · exact h.mask_eq m st hst
  · intro m v r'
    rw [bucket_removeRule]
    split
    · next hmv =>
      rw [(h.nodup m v).mem_erase_iff, h.mem_bucket]
      tauto
    · next hmv =>
      rw [h.mem_bucket]
      constructor
      · rintro ⟨hheld, hm, hv⟩
        exact ⟨⟨hheld, fun heq => hmv (heq ▸ ⟨hm.symm, hv.symm⟩)⟩, hm, hv⟩
      · rintro ⟨⟨hheld, -⟩, hm, hv⟩
        exact ⟨hheld, hm, hv⟩
  · intro m v
    rw [bucket_removeRule]
    split
    · exact (h.nodup m v).erase r
    · exact h.nodup m v
  · intro m v r' hr'
    -- the maximum of the touched subtable is recomputed, the others stay
    by_cases hm : m = r.mask
    · cases hst : tc.byMask.lookup m with
      | none =>
        rw [bucket, lookup_removeRule, if_pos hm, hst] at hr'
        exact absurd hr' List.not_mem_nil
      | some st =>
        have hlookup : (tc.removeRule r).byMask.lookup m = some (st.removeRule r) := by
          rw [lookup_removeRule, if_pos hm, hst]
          rfl
        have hfall' : ∀ v, Subtable.Falling ((st.removeRule r).bucket v) := by
          intro v
          have := hfall m v
          simpa only [bucket, hlookup] using this
        have hmem : r' ∈ (st.removeRule r).bucket v := by
          simpa only [bucket, hlookup] using hr'
        rw [maxPriorityOf, hlookup]
        exact Subtable.le_recomputeMaxPriority hfall' hmem
    · have hmax : maxPriorityOf (tc.removeRule r).byMask m = maxPriorityOf tc.byMask m := by
        rw [maxPriorityOf, lookup_removeRule, if_neg hm, maxPriorityOf]
      rw [hmax]
      rw [bucket_removeRule, if_neg fun hmv => hm hmv.1] at hr'
      exact h.le_max m v r' hr'

/-- An empty removal leaves the table as it was; any other one marks its order. -/
theorem removeRule_eq_self_of_clean {tc : TableClassifier} {r : Rule}
    (h : (tc.removeRule r).priorityOrderDirty = false) : tc.removeRule r = tc := by
  unfold removeRule at h ⊢
  split at h
  · rfl
  · exact nomatch h

/-! ### Order -/

/-- The rule goes into a listed subtable and does not raise its maximum. -/
def Covers (tc : TableClassifier) (r : Rule) : Prop :=
  r.mask ∈ tc.subtablesByPriority ∧ r.priority ≤ maxPriorityOf tc.byMask r.mask

instance (tc : TableClassifier) (r : Rule) : Decidable (tc.Covers r) :=
  inferInstanceAs (Decidable (_ ∧ _))

/-- The rebuild restores the order, whether or not it has to sort. -/
theorem rebuild_ordered {sort : AssocMap KeyBytes Subtable → List KeyBytes}
    (hperm : ∀ byMask, (sort byMask).Perm byMask.keys)
    (hsorted : ∀ byMask, (sort byMask).Pairwise fun a b =>
      maxPriorityOf byMask b ≤ maxPriorityOf byMask a)
    {tc : TableClassifier} (hclean : tc.priorityOrderDirty = false → tc.Ordered) :
    (tc.rebuildPriorityOrderIfNeeded sort).Ordered := by
  unfold rebuildPriorityOrderIfNeeded
  split
  · refine ⟨?_, hsorted tc.byMask⟩
    intro m v r hr
    rw [(hperm tc.byMask).mem_iff, ← AList.mem_keys, ← AList.lookup_isSome]
    unfold bucket at hr
    cases hst : tc.byMask.lookup m with
    | none =>
      simp only [hst] at hr
      exact absurd hr List.not_mem_nil
    | some st => rfl
  · next hdirty => exact hclean (Bool.eq_false_iff.mpr hdirty)

/-- An insertion that raises no maximum of a listed subtable keeps the order right. -/
theorem insertRule_ordered {tc : TableClassifier} {held : Rule → Prop} (h : Inv tc held)
    (hord : Ordered tc) {r : Rule} (hcovers : tc.Covers r) : Ordered (tc.insertRule r) := by
  obtain ⟨hlisted, hle⟩ := hcovers
  have hmax : ∀ m, maxPriorityOf (tc.insertRule r).byMask m = maxPriorityOf tc.byMask m := by
    intro m
    rw [maxPriorityOf_insertRule]
    split
    · next hm =>
      subst hm
      unfold Subtable.raiseMax
      split
      · next front hfront =>
        -- the front is the new rule or one that was below the maximum already
        have hfrontLe : front.priority ≤ maxPriorityOf tc.byMask r.mask := by
          rcases Subtable.mem_insertByPriority.mp (List.mem_of_head? hfront) with rfl | hmem
          · exact hle
          · exact h.le_max _ _ front hmem
        exact max_eq_right hfrontLe
      · rfl
    · rfl
  refine ⟨?_, ?_⟩
  · intro m v r' hr'
    rw [subtablesByPriority_insertRule]
    rw [bucket_insertRule] at hr'
    split at hr'
    · next hmv => exact hmv.1 ▸ hlisted
    · exact hord.mem m v r' hr'
  · rw [subtablesByPriority_insertRule]
    simpa only [hmax] using hord.sorted

end TableClassifier

/-! ## Switches -/

namespace SwitchClassifier

/-- The rule is in `rulesById`. -/
def Holds (sw : SwitchClassifier) (r : Rule) : Prop :=
  ∃ stored, sw.rulesById.lookup r.id = some stored ∧ stored.rule = r

/-- The rule is in `rulesById`, for a table. -/
def HoldsIn (sw : SwitchClassifier) (tableId : UInt8) (r : Rule) : Prop :=
  sw.Holds r ∧ r.tableId = tableId

/-- The four structures agree, and an order that is not marked dirty is right. -/
structure Inv (sw : SwitchClassifier) : Prop where
  id_eq : ∀ id stored, sw.rulesById.lookup id = some stored → stored.rule.id = id
  tables : ∀ t, (sw.getTable t).Inv (sw.HoldsIn t)
  clean : ∀ t, (sw.getTable t).priorityOrderDirty = false → (sw.getTable t).Ordered

/-- The order of every table is right. -/
def Ordered (sw : SwitchClassifier) : Prop :=
  ∀ t, (sw.getTable t).Ordered

theorem not_holds_empty (r : Rule) : ¬ Holds {} r := fun h => nomatch h.choose_spec.1

theorem inv_empty : Inv {} where
  id_eq _ _ h := nomatch h
  tables _ := TableClassifier.inv_empty fun r h => not_holds_empty r h.1
  clean _ _ := TableClassifier.ordered_empty

theorem ordered_empty : Ordered {} := fun _ => TableClassifier.ordered_empty

/-- With invariant and order, the lookup is a scan of the rules of `rulesById` whose priority
    is not negative. -/
theorem lookup_isBestMatch_nonneg {sw : SwitchClassifier} (h : sw.Inv) (hord : sw.Ordered)
    (t : UInt8) (key : FlowKey) :
    IsBestMatch (fun r => sw.HoldsIn t r ∧ 0 ≤ r.priority) (packKey key)
      ((sw.lookupInTableNoLock t key).map Rule.effect) := by
  have hsearch := TableClassifier.search_isBestMatch (h.tables t) (hord t) (packKey key)
  unfold lookupInTableNoLock
  unfold getTable at hsearch
  cases hlookup : sw.tables.lookup t with
  | none =>
    rw [hlookup] at hsearch
    exact hsearch
  | some tc =>
    rw [hlookup] at hsearch
    exact hsearch

/-- The rules that a lookup can find leave no tie to the order of the subtables. -/
def Untied (sw : SwitchClassifier) (t : UInt8) (key : FlowKey) : Prop :=
  NoTie (fun r => sw.HoldsIn t r ∧ 0 ≤ r.priority) (packKey key)

/-- The two answers are the same, or best matches tie and each answer is one of them. -/
def AnswersAlike (sw sw' : SwitchClassifier) (t : UInt8) (key : FlowKey) : Prop :=
  (sw.lookupInTableNoLock t key).map Rule.effect =
      (sw'.lookupInTableNoLock t key).map Rule.effect ∨
    ¬ sw'.Untied t key ∧
      IsBestMatch (fun r => sw'.HoldsIn t r ∧ 0 ≤ r.priority) (packKey key)
        ((sw.lookupInTableNoLock t key).map Rule.effect) ∧
      IsBestMatch (fun r => sw'.HoldsIn t r ∧ 0 ≤ r.priority) (packKey key)
        ((sw'.lookupInTableNoLock t key).map Rule.effect)

/-- Two switches that hold the same rules answer alike, whatever their orders are. -/
theorem answersAlike_of_holds {sw sw' : SwitchClassifier} (h : sw.Inv) (hord : sw.Ordered)
    (h' : sw'.Inv) (hord' : sw'.Ordered) (hholds : ∀ r, sw.Holds r ↔ sw'.Holds r) (t : UInt8)
    (key : FlowKey) : sw.AnswersAlike sw' t key := by
  have hbest := lookup_isBestMatch_nonneg h hord t key
  have hbest' := lookup_isBestMatch_nonneg h' hord' t key
  simp only [HoldsIn, hholds] at hbest
  by_cases huntied : sw'.Untied t key
  · exact .inl (hbest.unique huntied hbest')
  · exact .inr ⟨huntied, hbest, hbest'⟩

/-- Without negative priorities it is a scan of all of `rulesById`. -/
theorem lookup_isBestMatch {sw : SwitchClassifier} (h : sw.Inv) (hord : sw.Ordered)
    (hnonneg : ∀ r, sw.Holds r → 0 ≤ r.priority) (t : UInt8) (key : FlowKey) :
    IsBestMatch (sw.HoldsIn t) (packKey key)
      ((sw.lookupInTableNoLock t key).map Rule.effect) := by
  have hall : (fun r => sw.HoldsIn t r ∧ 0 ≤ r.priority) = sw.HoldsIn t := by
    funext r
    exact propext ⟨fun hr => hr.1, fun hr => ⟨hr, hnonneg r hr.1⟩⟩
  rw [← hall]
  exact lookup_isBestMatch_nonneg h hord t key

/-! ### Marking -/

/-- What a marked rule's entry becomes. -/
theorem lookup_upsertRule (sw : SwitchClassifier) (r : Rule) (id : RuleId) :
    (sw.upsertRule r).rulesById.lookup id =
      if id = r.id then
        some ⟨((sw.rulesById.lookup r.id).map StoredRule.rule).getD r, sw.epoch⟩
      else sw.rulesById.lookup id := by
  unfold upsertRule
  cases hlookup : sw.rulesById.lookup r.id with
  | none => exact AssocMap.lookup_insert_eq sw.rulesById r.id id _
  | some stored => exact AssocMap.lookup_insert_eq sw.rulesById r.id id _

theorem getTable_upsertRule_of_some {sw : SwitchClassifier} {r : Rule} {stored : StoredRule}
    (h : sw.rulesById.lookup r.id = some stored) (t : UInt8) :
    (sw.upsertRule r).getTable t = sw.getTable t := by
  rw [upsertRule, h]
  rfl

theorem getTable_upsertRule_of_none {sw : SwitchClassifier} {r : Rule}
    (h : sw.rulesById.lookup r.id = none) (t : UInt8) :
    (sw.upsertRule r).getTable t =
      if t = r.tableId then (sw.getTable t).insertRule r else sw.getTable t := by
  rw [upsertRule, h]
  unfold getTable insertRuleIntoTables
  simp only [AssocMap.lookup_insert_eq]
  split
  · next ht => rw [ht]; rfl
  · rfl

@[simp] theorem epoch_upsertRule (sw : SwitchClassifier) (r : Rule) :
    (sw.upsertRule r).epoch = sw.epoch := by
  unfold upsertRule
  split
  · rfl
  · rfl

theorem holds_upsertRule_of_some {sw : SwitchClassifier} {r : Rule} {stored : StoredRule}
    (h : sw.rulesById.lookup r.id = some stored) (r' : Rule) :
    (sw.upsertRule r).Holds r' ↔ sw.Holds r' := by
  unfold Holds
  simp only [lookup_upsertRule, h]
  by_cases hid : r'.id = r.id
  · rw [hid, h]
    simp
  · simp [hid]

theorem holds_upsertRule_of_none {sw : SwitchClassifier} {r : Rule}
    (h : sw.rulesById.lookup r.id = none) (r' : Rule) :
    (sw.upsertRule r).Holds r' ↔ r' = r ∨ sw.Holds r' := by
  unfold Holds
  simp only [lookup_upsertRule, h]
  by_cases hid : r'.id = r.id
  · rw [hid, h]
    simp [eq_comm]
  · have hne : r' ≠ r := fun heq => hid (heq ▸ rfl)
    simp [hid, hne]

theorem upsertRule_inv {sw : SwitchClassifier} (h : sw.Inv) (r : Rule) :
    (sw.upsertRule r).Inv := by
  have hid : ∀ id stored, (sw.upsertRule r).rulesById.lookup id = some stored →
      stored.rule.id = id := by
    intro id s hs
    rw [lookup_upsertRule] at hs
    split at hs
    · next heq =>
      obtain rfl := Option.some.inj hs
      cases hlookup : sw.rulesById.lookup r.id with
      | none => exact heq.symm
      | some stored => exact (h.id_eq _ stored hlookup).trans heq.symm
    · exact h.id_eq id s hs
  cases hlookup : sw.rulesById.lookup r.id with
  | some stored =>
    -- a known rule: no table changes and the same rules are held
    have htable := getTable_upsertRule_of_some hlookup
    refine ⟨hid, ?_, ?_⟩
    · intro t
      rw [htable]
      exact (h.tables t).congr fun r' =>
        and_congr_left fun _ => (holds_upsertRule_of_some hlookup r').symm
    · intro t
      rw [htable]
      exact h.clean t
  | none =>
    have htable := getTable_upsertRule_of_none hlookup
    have hholds := holds_upsertRule_of_none hlookup
    have hnew : ¬ sw.Holds r := by
      rintro ⟨s, hs, -⟩
      rw [hlookup] at hs
      exact nomatch hs
    refine ⟨hid, ?_, ?_⟩
    · intro t
      rw [htable]
      split
      · next ht =>
        refine (TableClassifier.insertRule_inv (h.tables t) fun hr => hnew hr.1).congr fun r' => ?_
        rw [HoldsIn, HoldsIn, hholds, or_and_right]
        exact or_congr_left ⟨fun heq => ⟨heq, heq ▸ ht.symm⟩, And.left⟩
      · next ht =>
        refine (h.tables t).congr fun r' => ?_
        rw [HoldsIn, HoldsIn, hholds]
        refine and_congr_left fun hr't => ⟨Or.inr, ?_⟩
        rintro (rfl | hr')
        · exact absurd hr't.symm ht
        · exact hr'
    · intro t hdirty
      rw [htable] at hdirty ⊢
      split
      · next ht => rw [if_pos ht] at hdirty; exact nomatch hdirty
      · next ht => rw [if_neg ht] at hdirty; exact h.clean t hdirty

/-- Marking this rule cannot spoil an order that is right. -/
def Settles (sw : SwitchClassifier) (r : Rule) : Prop :=
  sw.rulesById.lookup r.id ≠ none ∨ (sw.getTable r.tableId).Covers r

instance (sw : SwitchClassifier) (r : Rule) : Decidable (sw.Settles r) :=
  inferInstanceAs (Decidable (_ ∨ _))

theorem upsertRule_ordered {sw : SwitchClassifier} (h : sw.Inv) (hord : sw.Ordered) {r : Rule}
    (hr : sw.Settles r) : (sw.upsertRule r).Ordered := by
  cases hlookup : sw.rulesById.lookup r.id with
  | some stored =>
    intro t
    rw [getTable_upsertRule_of_some hlookup]
    exact hord t
  | none =>
    have hcovers : (sw.getTable r.tableId).Covers r := hr.resolve_left fun hne => hne hlookup
    intro t
    rw [getTable_upsertRule_of_none hlookup]
    split
    · next ht => exact TableClassifier.insertRule_ordered (h.tables t) (hord t) (ht ▸ hcovers)
    · exact hord t

/-! ### Sweep and rebuild -/

theorem lookup_deleteRule (sw : SwitchClassifier) (rid id : RuleId) :
    (sw.deleteRule rid).rulesById.lookup id =
      if id = rid then none else sw.rulesById.lookup id := by
  unfold deleteRule
  cases hrid : sw.rulesById.lookup rid with
  | none =>
    by_cases h : id = rid
    · rw [if_pos h, h, hrid]
    · rw [if_neg h]
  | some stored => exact AssocMap.lookup_erase_eq sw.rulesById rid id

theorem getTable_deleteRule_of_some {sw : SwitchClassifier} {rid : RuleId} {stored : StoredRule}
    (h : sw.rulesById.lookup rid = some stored) (t : UInt8) :
    (sw.deleteRule rid).getTable t =
      if t = stored.rule.tableId then (sw.getTable t).removeRule stored.rule
      else sw.getTable t := by
  rw [deleteRule, h]
  unfold getTable removeRuleFromTables
  simp only [AssocMap.lookup_insert_eq]
  split
  · next ht => rw [ht]; rfl
  · rfl

@[simp] theorem epoch_deleteRule (sw : SwitchClassifier) (rid : RuleId) :
    (sw.deleteRule rid).epoch = sw.epoch := by
  unfold deleteRule
  split
  · rfl
  · rfl

theorem deleteRule_inv {sw : SwitchClassifier} (h : sw.Inv) (rid : RuleId) :
    (sw.deleteRule rid).Inv := by
  have hlookup := lookup_deleteRule sw rid
  have hid : ∀ id stored, (sw.deleteRule rid).rulesById.lookup id = some stored →
      stored.rule.id = id := by
    intro id s hs
    rw [hlookup] at hs
    split at hs
    · exact nomatch hs
    · exact h.id_eq id s hs
  cases hrid : sw.rulesById.lookup rid with
  | none =>
    -- an id that names no rule leaves the switch as it is
    have hself : sw.deleteRule rid = sw := by rw [deleteRule, hrid]
    exact hself.symm ▸ h
  | some stored =>
    have hstored : stored.rule.id = rid := h.id_eq rid stored hrid
    have hholds : ∀ r, (sw.deleteRule rid).Holds r ↔ sw.Holds r ∧ r ≠ stored.rule := by
      intro r
      unfold Holds
      simp only [hlookup]
      by_cases hr : r.id = rid
      · rw [hr, hrid]
        simp [eq_comm]
      · have hne : r ≠ stored.rule := fun heq => hr (heq ▸ hstored)
        simp [hr, hne]
    have htable := getTable_deleteRule_of_some hrid
    refine ⟨hid, ?_, ?_⟩
    · intro t
      rw [htable]
      split
      · refine (TableClassifier.removeRule_inv (h.tables t) stored.rule).congr fun r => ?_
        rw [HoldsIn, HoldsIn, hholds]
        tauto
      · next ht =>
        refine (h.tables t).congr fun r => ?_
        rw [HoldsIn, HoldsIn, hholds]
        refine and_congr_left fun hrt => ⟨fun hr => ⟨hr, ?_⟩, And.left⟩
        rintro rfl
        exact ht hrt.symm
    · intro t hdirty
      rw [htable] at hdirty ⊢
      split
      · next ht =>
        rw [if_pos ht] at hdirty
        -- a removal that leaves a clean table clean found nothing to remove
        have hself := TableClassifier.removeRule_eq_self_of_clean hdirty
        rw [hself] at hdirty ⊢
        exact h.clean t hdirty
      · next ht =>
        rw [if_neg ht] at hdirty
        exact h.clean t hdirty

theorem getTable_rebuildPriorityOrders (ord : SubtableOrder) (dpid : UInt64)
    (sw : SwitchClassifier) (t : UInt8) :
    (sw.rebuildPriorityOrders ord dpid).getTable t =
      match sw.tables.lookup t with
      | some tc => tc.rebuildPriorityOrderIfNeeded (ord.sort dpid sw.epoch t)
      | none => {} := by
  unfold getTable rebuildPriorityOrders
  simp only [AssocMap.lookup_mapVals]
  cases sw.tables.lookup t with
  | none => rfl
  | some tc => rfl

theorem rebuildPriorityOrders_ordered (ord : SubtableOrder) (dpid : UInt64)
    {sw : SwitchClassifier} (h : sw.Inv) : (sw.rebuildPriorityOrders ord dpid).Ordered := by
  intro t
  rw [getTable_rebuildPriorityOrders]
  have hclean := h.clean t
  unfold getTable at hclean
  cases hlookup : sw.tables.lookup t with
  | none => exact TableClassifier.ordered_empty
  | some tc =>
    rw [hlookup] at hclean
    exact TableClassifier.rebuild_ordered (ord.perm dpid sw.epoch t) (ord.sorted dpid sw.epoch t)
      hclean

/-- The rebuild touches no bucket and no maximum. -/
theorem rebuildPriorityOrders_inv (ord : SubtableOrder) (dpid : UInt64)
    {sw : SwitchClassifier} (h : sw.Inv) : (sw.rebuildPriorityOrders ord dpid).Inv := by
  refine ⟨h.id_eq, ?_, fun t _ => rebuildPriorityOrders_ordered ord dpid h t⟩
  intro t
  have htable := h.tables t
  rw [getTable_rebuildPriorityOrders]
  unfold getTable at htable
  cases hlookup : sw.tables.lookup t with
  | none =>
    rw [hlookup] at htable
    exact htable
  | some tc =>
    rw [hlookup] at htable
    simp only [TableClassifier.rebuildPriorityOrderIfNeeded]
    split
    · exact ⟨htable.mask_eq, htable.mem_bucket, htable.falling, htable.nodup, htable.le_max⟩
    · exact htable

theorem foldl_deleteRule_inv {sw : SwitchClassifier} (h : sw.Inv) (rids : List RuleId) :
    (rids.foldl deleteRule sw).Inv := by
  induction rids generalizing sw with
  | nil => exact h
  | cons rid rids ih => exact ih (deleteRule_inv h rid)

theorem lookup_foldl_deleteRule (sw : SwitchClassifier) (rids : List RuleId) (id : RuleId) :
    (rids.foldl deleteRule sw).rulesById.lookup id =
      if id ∈ rids then none else sw.rulesById.lookup id := by
  induction rids generalizing sw with
  | nil => simp
  | cons rid rids ih =>
    rw [List.foldl_cons, ih, lookup_deleteRule]
    by_cases h₁ : id = rid
    · simp [h₁]
    · simp [h₁]

theorem sweepAndRebuild_inv (ord : SubtableOrder) (dpid : UInt64) {sw : SwitchClassifier}
    (h : sw.Inv) : (sw.sweepAndRebuild ord dpid).Inv :=
  rebuildPriorityOrders_inv ord dpid (foldl_deleteRule_inv h sw.toDelete)

theorem sweepAndRebuild_ordered (ord : SubtableOrder) (dpid : UInt64) {sw : SwitchClassifier}
    (h : sw.Inv) : (sw.sweepAndRebuild ord dpid).Ordered :=
  rebuildPriorityOrders_ordered ord dpid (foldl_deleteRule_inv h sw.toDelete)

/-- The sweep keeps exactly what the present epoch has seen. -/
theorem lookup_sweepAndRebuild (ord : SubtableOrder) (dpid : UInt64) (sw : SwitchClassifier)
    (id : RuleId) :
    (sw.sweepAndRebuild ord dpid).rulesById.lookup id =
      (sw.rulesById.lookup id).filter fun stored => stored.lastSeenEpoch = sw.epoch := by
  show (sw.toDelete.foldl deleteRule sw).rulesById.lookup id = _
  rw [lookup_foldl_deleteRule]
  have hmem : id ∈ sw.toDelete ↔ ∃ stored, sw.rulesById.lookup id = some stored ∧
      stored.lastSeenEpoch ≠ sw.epoch := by
    unfold toDelete
    simp only [List.mem_map, List.mem_filter, Prod.exists, AssocMap.mem_toPairs,
      decide_eq_true_eq]
    constructor
    · rintro ⟨_, stored, hstored, rfl⟩
      exact ⟨stored, hstored⟩
    · rintro ⟨stored, hstored⟩
      exact ⟨id, stored, hstored, rfl⟩
  -- A rule is swept exactly when its epoch is an older one.
  cases hlookup : sw.rulesById.lookup id with
  | none =>
    rw [Option.filter_none]
    split <;> rfl
  | some stored =>
    rw [hlookup] at hmem
    by_cases hseen : stored.lastSeenEpoch = sw.epoch
    · have hkept : id ∉ sw.toDelete := by simp [hmem, hseen]
      rw [if_neg hkept, Option.filter_some_pos (by simpa using hseen)]
    · have hgone : id ∈ sw.toDelete := by simp [hmem, hseen]
      rw [if_pos hgone, Option.filter_some_neg (by simpa using hseen)]

/-- The order of the subtables has no say in what the sweep keeps. -/
theorem holds_sweepAndRebuild_congr (ord ord' : SubtableOrder) (dpid : UInt64)
    (sw : SwitchClassifier) (r : Rule) :
    (sw.sweepAndRebuild ord dpid).Holds r ↔ (sw.sweepAndRebuild ord' dpid).Holds r := by
  unfold Holds
  rw [lookup_sweepAndRebuild, lookup_sweepAndRebuild]

/-- Nor in the answers, but for ties. -/
theorem answersAlike_sweepAndRebuild (ord ord' : SubtableOrder) (dpid : UInt64)
    {sw : SwitchClassifier} (h : sw.Inv) (t : UInt8) (key : FlowKey) :
    (sw.sweepAndRebuild ord dpid).AnswersAlike (sw.sweepAndRebuild ord' dpid) t key :=
  answersAlike_of_holds (sweepAndRebuild_inv ord dpid h) (sweepAndRebuild_ordered ord dpid h)
    (sweepAndRebuild_inv ord' dpid h) (sweepAndRebuild_ordered ord' dpid h)
    (holds_sweepAndRebuild_congr ord ord' dpid sw) t key

end SwitchClassifier

end Ndtwin.Kernel

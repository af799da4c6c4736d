import Mathlib.Algebra.Order.Ring.Int
import Mathlib.Data.List.Basic
import Mathlib.Data.List.Forall2
import Mathlib.Data.List.Nodup
import Mathlib.Order.Basic

/-!
# List lemmas for the standard library

A loop over the entries of a map visits every key once. When each pass of the loop
only touches what belongs to its own key, the fold can be read key by key: whatever is
projected out for a key is changed by the pass for that key and by no other.
-/

namespace List

variable {σ β κ τ : Type*} {f : σ → β → σ} {key : β → κ} {proj : σ → τ} {k : κ}

/-- A fold over entries of other keys leaves what is projected out for `k`. -/
theorem foldl_proj_of_not_mem (hframe : ∀ s x, key x ≠ k → proj (f s x) = proj s)
    (l : List β) (hk : k ∉ l.map key) (s : σ) : proj (l.foldl f s) = proj s := by
  induction l generalizing s with
  | nil => rfl
  | cons x xs ih =>
    simp only [map_cons, mem_cons, not_or] at hk
    rw [foldl_cons, ih hk.2, hframe s x (Ne.symm hk.1)]

/-- A fold over entries with distinct keys changes what is projected out for `k` in the
    one pass for `k`, starting from what was there before the loop. -/
theorem foldl_proj_of_mem (hframe : ∀ s x, key x ≠ k → proj (f s x) = proj s)
    (l : List β) (hnodup : (l.map key).Nodup) {x : β} (hx : x ∈ l) (hkx : key x = k) (s : σ) :
    ∃ s', proj s' = proj s ∧ proj (l.foldl f s) = proj (f s' x) := by
  induction l generalizing s with
  | nil => simp at hx
  | cons y ys ih =>
    rw [map_cons, nodup_cons] at hnodup
    rcases mem_cons.mp hx with rfl | hmem
    · refine ⟨s, rfl, ?_⟩
      rw [foldl_cons]
      exact foldl_proj_of_not_mem hframe ys (hkx ▸ hnodup.1) _
    · have hne : key y ≠ k := by
        intro heq
        exact hnodup.1 (heq ▸ hkx ▸ mem_map_of_mem hmem)
      obtain ⟨s', hs', hfold⟩ := ih hnodup.2 hmem (f s y)
      exact ⟨s', hs'.trans (hframe s y hne), hfold⟩

/-- What a loop does to a projection, when each pass does it for the elements at hand. -/
theorem foldl_hom_of_mem {g : τ → β → τ} {l : List β}
    (hstep : ∀ s, ∀ x ∈ l, proj (f s x) = g (proj s) x) (s : σ) :
    proj (l.foldl f s) = l.foldl g (proj s) := by
  induction l generalizing s with
  | nil => rfl
  | cons x xs ih =>
    rw [foldl_cons, foldl_cons, ← hstep s x mem_cons_self]
    exact ih (fun s' y hy => hstep s' y (mem_cons_of_mem x hy)) (f s x)

/-- A loop that only acts on some elements is a loop over those elements. -/
theorem foldl_ite_eq_foldl_filter (p : β → Prop) [DecidablePred p] (g : τ → β → τ) (l : List β)
    (t : τ) : l.foldl (fun t x => if p x then g t x else t) t =
      (l.filter fun x => p x).foldl g t := by
  induction l generalizing t with
  | nil => rfl
  | cons x xs ih =>
    rw [foldl_cons, ih, filter_cons]
    by_cases hx : p x
    · rw [if_pos hx, if_pos (decide_eq_true hx), foldl_cons]
    · rw [if_neg hx, if_neg (by simpa using hx)]

/-- A loop that looks for an element. -/
theorem foldl_or_iff (p : β → Prop) (l : List β) (b : Prop) :
    l.foldl (fun b x => b ∨ p x) b ↔ b ∨ ∃ x ∈ l, p x := by
  induction l generalizing b with
  | nil => simp
  | cons x xs ih =>
    rw [foldl_cons, ih, or_assoc]
    simp

/-- A loop that keeps some entries, rewritten, under their own keys keeps a sublist of
    the keys. -/
theorem map_key_filterMap_sublist {α : Type*} {g : β → Option α} {key' : α → κ}
    (hkey : ∀ x y, g x = some y → key' y = key x) (l : List β) :
    ((l.filterMap g).map key').Sublist (l.map key) := by
  induction l with
  | nil => exact Sublist.slnil
  | cons x xs ih =>
    cases hx : g x with
    | none =>
      rw [filterMap_cons_none hx, map_cons]
      exact ih.cons (key x)
    | some y =>
      rw [filterMap_cons_some hx, map_cons, map_cons, hkey x y hx]
      exact ih.cons_cons (key x)

/-- The entry at an index splits the list around it, before and after a change of it. -/
theorem exists_split_of_getElem? {l : List β} {i : ℕ} {x : β} (h : l[i]? = some x) :
    ∃ l₁ l₂, l = l₁ ++ x :: l₂ ∧ ∀ g : β → β, l.modify i g = l₁ ++ g x :: l₂ := by
  induction l generalizing i with
  | nil => exact nomatch h
  | cons y ys ih =>
    cases i with
    | zero =>
      obtain rfl := Option.some.inj h
      exact ⟨[], ys, rfl, fun g => rfl⟩
    | succ i =>
      obtain ⟨l₁, l₂, hl, hmod⟩ := ih h
      refine ⟨y :: l₁, l₂, by rw [hl, cons_append], fun g => ?_⟩
      rw [modify_succ_cons, hmod g, cons_append]

/-- A sum over a list with one element changed. -/
theorem sum_map_modify {l : List β} {i : ℕ} {x : β} (f : β → ℕ) (g : β → β) (h : l[i]? = some x) :
    ((l.modify i g).map f).sum + f x = (l.map f).sum + f (g x) := by
  obtain ⟨l₁, l₂, rfl, hmod⟩ := exists_split_of_getElem? h
  rw [hmod]
  simp only [map_append, map_cons, sum_append, sum_cons]
  omega

/-- A change at the end of a prefix. -/
@[simp] theorem modify_length_append (l₁ : List β) (x : β) (l₂ : List β) (g : β → β) :
    (l₁ ++ x :: l₂).modify l₁.length g = l₁ ++ g x :: l₂ := by
  induction l₁ with
  | nil => rfl
  | cons y ys ih => rw [cons_append, length_cons, modify_succ_cons, ih, cons_append]

/-- The first element that passes a test, with what stands before it. -/
theorem exists_split_of_findIdx? {p : β → Bool} {l : List β} {i : ℕ} (h : l.findIdx? p = some i) :
    ∃ l₁ x l₂, l = l₁ ++ x :: l₂ ∧ i = l₁.length ∧ p x = true ∧ ∀ y ∈ l₁, p y = false := by
  induction l generalizing i with
  | nil => exact nomatch h
  | cons y ys ih =>
    rw [findIdx?_cons] at h
    split at h
    · rename_i hy
      obtain rfl := Option.some.inj h
      exact ⟨[], y, ys, rfl, rfl, hy, (fun _ hmem => nomatch hmem)⟩
    · rename_i hy
      obtain ⟨n, hn, rfl⟩ := Option.map_eq_some_iff.mp h
      obtain ⟨l₁, x, l₂, rfl, rfl, hx, hl₁⟩ := ih hn
      refine ⟨y :: l₁, x, l₂, rfl, rfl, hx, fun z hz => ?_⟩
      rcases mem_cons.mp hz with rfl | hz
      · simpa using hy
      · exact hl₁ z hz

section Preorder

variable {ω : Type*} [Preorder ω] {g : ω → β → ω}

/-- A loop that only raises its result ends no lower than it starts. -/
theorem le_foldl (hraise : ∀ s x, s ≤ g s x) (l : List β) (s : ω) : s ≤ l.foldl g s := by
  induction l generalizing s with
  | nil => exact le_rfl
  | cons x xs ih => exact le_trans (hraise s x) (ih (g s x))

/-- A loop that only raises its result ends no lower than any of its passes reaches. -/
theorem le_foldl_of_mem (hraise : ∀ s x, s ≤ g s x) {l : List β} {x : β} (hx : x ∈ l) {a : ω}
    (ha : ∀ s, a ≤ g s x) (s : ω) : a ≤ l.foldl g s := by
  induction l generalizing s with
  | nil => exact absurd hx not_mem_nil
  | cons y ys ih =>
    rcases mem_cons.mp hx with rfl | hmem
    · exact le_trans (ha s) (le_foldl hraise ys (g s x))
    · exact ih hmem (g s y)

end Preorder

/-- What is in a joined list is in the separator or in one of the parts. -/
theorem mem_of_mem_intercalate {α : Type*} {sep : List α} {ls : List (List α)} {a : α}
    (h : a ∈ sep.intercalate ls) : a ∈ sep ∨ ∃ l ∈ ls, a ∈ l := by
  induction ls with
  | nil => exact absurd h not_mem_nil
  | cons l ls ih =>
    cases ls with
    | nil =>
      rw [intercalate_singleton] at h
      exact Or.inr ⟨l, mem_cons_self, h⟩
    | cons l' ls =>
      rw [intercalate_cons_cons, append_assoc, mem_append, mem_append] at h
      rcases h with hl | hsep | hrest
      · exact Or.inr ⟨l, mem_cons_self, hl⟩
      · exact Or.inl hsep
      · refine (ih hrest).imp_right ?_
        rintro ⟨k, hk, ha⟩
        exact ⟨k, mem_cons_of_mem l hk, ha⟩

theorem map_eq_self_iff {g : β → β} {l : List β} : l.map g = l ↔ ∀ x ∈ l, g x = x := by
  have hid : l.map g = l ↔ l.map g = l.map id := by rw [map_id]
  rw [hid, map_inj_left]
  rfl

/-- Two filters leave the same exactly if they agree on every element. -/
theorem filter_eq_filter_iff {p q : β → Bool} {l : List β} :
    l.filter p = l.filter q ↔ ∀ x ∈ l, p x = q x := by
  refine ⟨fun h x hx => ?_, filter_congr⟩
  have hmem : x ∈ l.filter p ↔ x ∈ l.filter q := by rw [h]
  rw [Bool.eq_iff_iff]
  simpa only [mem_filter, hx, true_and] using hmem

/-- A loop that parses values which were written from `l`, when each is read back. -/
theorem mapM_map_eq_some {α β γ : Type*} {f : β → Option γ} {g : α → β} {h : α → γ} {l : List α}
    (hl : ∀ a ∈ l, f (g a) = some (h a)) : (l.map g).mapM f = some (l.map h) := by
  induction l with
  | nil => rfl
  | cons a l ih =>
    rw [map_cons, mapM_cons, hl a mem_cons_self, ih fun b hb => hl b (mem_cons_of_mem a hb)]
    rfl

theorem filterMap_map_eq_map {α β γ : Type*} {f : β → Option γ} {g : α → β} {h : α → γ}
    {l : List α} (hl : ∀ a ∈ l, f (g a) = some (h a)) : (l.map g).filterMap f = l.map h := by
  induction l with
  | nil => rfl
  | cons a l ih =>
    rw [map_cons, filterMap_cons_some (hl a mem_cons_self),
      ih fun b hb => hl b (mem_cons_of_mem a hb), map_cons]

/-! ## Lists side by side -/

variable {α γ δ : Type*} {R : α → γ → Prop} {l : List α} {l' : List γ}

theorem exists_right_of_forall₂ (h : Forall₂ R l l') {a : α} (ha : a ∈ l) : ∃ b ∈ l', R a b := by
  induction h with
  | nil => exact absurd ha not_mem_nil
  | cons hab _ ih =>
    rcases mem_cons.mp ha with rfl | ha
    · exact ⟨_, mem_cons_self, hab⟩
    · obtain ⟨b, hb, hR⟩ := ih ha
      exact ⟨b, mem_cons_of_mem _ hb, hR⟩

theorem exists_left_of_forall₂ (h : Forall₂ R l l') {b : γ} (hb : b ∈ l') : ∃ a ∈ l, R a b :=
  exists_right_of_forall₂ h.flip hb

/-- The partner of an element, between partners of others. -/
theorem exists_split_of_forall₂ (h : Forall₂ R l l') (hl : l.Nodup) {a : α} (ha : a ∈ l) :
    ∃ l₁ b l₂, l' = l₁ ++ b :: l₂ ∧ R a b ∧ ∀ c ∈ l₁ ++ l₂, ∃ a' ∈ l, a' ≠ a ∧ R a' c := by
  induction h with
  | nil => exact absurd ha not_mem_nil
  | @cons a' b l l' hab h ih =>
    obtain ⟨hnot, hl⟩ := nodup_cons.mp hl
    rcases mem_cons.mp ha with rfl | ha
    · refine ⟨[], b, l', rfl, hab, fun c hc => ?_⟩
      obtain ⟨a', ha', hR⟩ := exists_left_of_forall₂ h hc
      exact ⟨a', mem_cons_of_mem _ ha', fun heq => hnot (heq ▸ ha'), hR⟩
    · obtain ⟨l₁, c, l₂, rfl, hac, hother⟩ := ih hl ha
      refine ⟨b :: l₁, c, l₂, rfl, hac, fun d hd => ?_⟩
      rcases mem_cons.mp hd with rfl | hd
      · exact ⟨a', mem_cons_self, fun heq => hnot (heq ▸ ha), hab⟩
      · obtain ⟨a'', ha'', hne, hR⟩ := hother d hd
        exact ⟨a'', mem_cons_of_mem _ ha'', hne, hR⟩

/-- What passes a test comes from one part, if it does not come from the others. -/
theorem filter_flatMap_split {f : γ → List δ} {p : δ → Bool} {l₁ l₂ : List γ} {b : γ}
    (hother : ∀ c ∈ l₁ ++ l₂, (f c).filter p = []) :
    ((l₁ ++ b :: l₂).flatMap f).filter p = (f b).filter p := by
  have hnone : ∀ l : List γ, (∀ c ∈ l, (f c).filter p = []) → (l.flatMap f).filter p = [] := by
    intro l hl
    rw [filter_flatMap, flatMap_eq_nil_iff]
    exact hl
  rw [flatMap_append, flatMap_cons, filter_append, filter_append,
    hnone l₁ fun c hc => hother c (mem_append_left _ hc),
    hnone l₂ fun c hc => hother c (mem_append_right _ hc), nil_append, append_nil]

theorem filter_flatMap_of_nodup {f : γ → List δ} {p : δ → Bool} (hl : l'.Nodup) {b : γ}
    (hb : b ∈ l') (hother : ∀ c ∈ l', c ≠ b → (f c).filter p = []) :
    (l'.flatMap f).filter p = (f b).filter p := by
  have hself : Forall₂ Eq l' l' := forall₂_same.mpr fun _ _ => rfl
  obtain ⟨l₁, b', l₂, hsplit, rfl, hrest⟩ := exists_split_of_forall₂ hself hl hb
  rw [hsplit]
  refine filter_flatMap_split fun c hc => ?_
  obtain ⟨c', hc', hne, rfl⟩ := hrest c hc
  exact hother _ hc' hne

/-- Terms that are zero do not count in a sum. -/
theorem sum_map_filter {α M : Type*} [AddZeroClass M] {p : α → Bool} {f : α → M} {l : List α}
    (h : ∀ a ∈ l, p a = false → f a = 0) : ((l.filter p).map f).sum = (l.map f).sum := by
  induction l with
  | nil => rfl
  | cons a as ih =>
    have htail := ih fun b hb => h b (mem_cons_of_mem a hb)
    cases hp : p a with
    | true => rw [filter_cons_of_pos hp, map_cons, sum_cons, htail, map_cons, sum_cons]
    | false =>
      rw [filter_cons_of_neg (by rw [hp]; decide), htail, map_cons, sum_cons,
        h a mem_cons_self hp, zero_add]

end List

import Mathlib.Data.Set.Basic

/-!
# Records of a remote store

A program writes to a store it cannot look into and keeps a record of what it wrote. The record
is kept under names, and a name stands for an address of the store; several names may stand for
one address. `MirrorsExcept addr stale record store` says that the record and the store tell
the same, up to the names in `stale`, whose entries the store has lost. Record and store are
functions here, and each rule takes its change as an equation at every point, so that any
representation of the two maps can use it.
-/

namespace Mirror

variable {κ α ν : Type*}

/-- The record and the store agree, apart from the names in `stale`. -/
structure MirrorsExcept (addr : κ → Option α) (stale : Set κ) (record : κ → Option ν)
    (store : α → Option ν) : Prop where
  recorded : ∀ k v, record k = some v → k ∈ stale ∨ ∃ a, addr k = some a ∧ store a = some v
  stored : ∀ a v, store a = some v → ∃ k, addr k = some a ∧ record k = some v

/-- The record and the store agree. -/
abbrev Mirrors (addr : κ → Option α) (record : κ → Option ν) (store : α → Option ν) : Prop :=
  MirrorsExcept addr ∅ record store

/-- No other name is recorded for the address of `k`. -/
def Alone (addr : κ → Option α) (record : κ → Option ν) (k : κ) : Prop :=
  ∀ k', record k' ≠ none → addr k' = addr k → k' = k

variable {addr : κ → Option α} {stale : Set κ} {record record' : κ → Option ν}
  {store store' : α → Option ν} {k : κ} {a : α}

/-- Nothing recorded and nothing stored. -/
theorem mirrors_empty (hrecord : ∀ k, record k = none) (hstore : ∀ a, store a = none) :
    Mirrors addr record store where
  recorded k v h := by
    rw [hrecord] at h
    exact nomatch h
  stored a v h := by
    rw [hstore] at h
    exact nomatch h

theorem MirrorsExcept.congr (h : MirrorsExcept addr stale record store)
    (hrecord : ∀ k, record' k = record k) (hstore : ∀ a, store' a = store a) :
    MirrorsExcept addr stale record' store' := by
  rw [funext hrecord, funext hstore]
  exact h

theorem MirrorsExcept.of_subset (h : MirrorsExcept addr stale record store) {stale' : Set κ}
    (hsub : ∀ k ∈ stale, record k ≠ none → k ∈ stale') :
    MirrorsExcept addr stale' record store where
  recorded k v hk := (h.recorded k v hk).imp_left fun hs => hsub k hs (by rw [hk]; exact nofun)
  stored := h.stored

/-- An entry is written, or removed, in both. Its name is no longer stale. -/
theorem MirrorsExcept.write [DecidableEq κ] [DecidableEq α]
    (h : MirrorsExcept addr stale record store) (hk : addr k = some a)
    (halone : Alone addr record k) {v : Option ν}
    (hrecord : ∀ k', record' k' = if k' = k then v else record k')
    (hstore : ∀ a', store' a' = if a' = a then v else store a') :
    MirrorsExcept addr (stale \ {k}) record' store' where
  recorded k' v' hk' := by
    rw [hrecord] at hk'
    split at hk'
    · next heq =>
      subst heq
      exact Or.inr ⟨a, hk, by rw [hstore, if_pos rfl, hk']⟩
    · next hne =>
      rcases h.recorded k' v' hk' with hs | ⟨a', ha', hv'⟩
      · exact Or.inl ⟨hs, hne⟩
      · -- the address of another name is another address
        have hne' : a' ≠ a := by
          rintro rfl
          exact hne (halone k' (by rw [hk']; exact nofun) (by rw [ha', hk]))
        exact Or.inr ⟨a', ha', by rw [hstore, if_neg hne', hv']⟩
  stored a' v' ha' := by
    rw [hstore] at ha'
    split at ha'
    · next heq =>
      subst heq
      exact ⟨k, hk, by rw [hrecord, if_pos rfl, ha']⟩
    · next hne =>
      obtain ⟨k', hk', hv'⟩ := h.stored a' v' ha'
      have hne' : k' ≠ k := by
        rintro rfl
        rw [hk'] at hk
        exact hne (Option.some.inj hk)
      exact ⟨k', hk', by rw [hrecord, if_neg hne', hv']⟩

/-- The store loses all entries at the addresses in `P`. -/
theorem MirrorsExcept.wipe (h : Mirrors addr record store) (P : α → Prop) [DecidablePred P]
    (hstore : ∀ a, store' a = if P a then none else store a) :
    MirrorsExcept addr {k | ∃ a, addr k = some a ∧ P a} record store' where
  recorded k v hk := by
    obtain hs | ⟨a, ha, hv⟩ := h.recorded k v hk
    · exact absurd hs (Set.notMem_empty k)
    by_cases hP : P a
    · exact Or.inl ⟨a, ha, hP⟩
    · exact Or.inr ⟨a, ha, by rw [hstore, if_neg hP, hv]⟩
  stored a v ha := by
    rw [hstore] at ha
    split at ha
    · exact nomatch ha
    · exact h.stored a v ha

/-- A name whose address has an entry is not stale. -/
theorem MirrorsExcept.unstale (h : MirrorsExcept addr stale record store) (hk : addr k = some a)
    (halone : Alone addr record k) (ha : store a ≠ none) :
    MirrorsExcept addr (stale \ {k}) record store where
  recorded k' v' hk' := by
    rcases h.recorded k' v' hk' with hs | hok
    · by_cases heq : k' = k
      · subst heq
        obtain ⟨v, hv⟩ := Option.ne_none_iff_exists'.mp ha
        obtain ⟨k₀, hk₀, hv₀⟩ := h.stored a v hv
        have hsame : k₀ = k' := halone k₀ (by rw [hv₀]; exact nofun) (by rw [hk₀, hk])
        rw [hsame, hk'] at hv₀
        exact Or.inr ⟨a, hk, by rw [hv, hv₀]⟩
      · exact Or.inl ⟨hs, heq⟩
    · exact Or.inr hok
  stored := h.stored

end Mirror

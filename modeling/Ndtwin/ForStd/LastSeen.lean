import Ndtwin.ForStd.AssocMap

/-!
# Keys and when they were last seen

A map from keys to times, refreshed by `touch` and thinned out by `prune`, which compares every
entry with a reading of the clock of its own. The clock is a sequence of readings.
-/

/-- A clock that does not go back. -/
def NeverBack (clock : Nat → Int) : Prop := ∀ ⦃m n : Nat⦄, m ≤ n → clock m ≤ clock n

/-- When each key was last seen. -/
abbrev LastSeen (κ : Type*) := AssocMap κ Int

namespace LastSeen

variable {κ : Type*}

/-- The keys that are too old, where the first entry is compared with reading `n`. -/
def expired (clock : Nat → Int) (ttl : Int) : (n : Nat) → List (κ × Int) → List κ
  | _, [] => []
  | n, (k, ts) :: rest =>
    if clock n - ts > ttl then k :: expired clock ttl (n + 1) rest
    else expired clock ttl (n + 1) rest

variable {clock : Nat → Int} {ttl : Int}

/-- A key is too old by the reading of its own entry. -/
theorem mem_expired {n : Nat} {l : List (κ × Int)} {k : κ} (h : k ∈ expired clock ttl n l) :
    ∃ i ts, (k, ts) ∈ l ∧ n ≤ i ∧ i < n + l.length ∧ clock i - ts > ttl := by
  induction l generalizing n with
  | nil => exact nomatch h
  | cons p rest ih =>
    obtain ⟨k', ts⟩ := p
    have hrest : k ∈ expired clock ttl (n + 1) rest →
        ∃ i ts', (k, ts') ∈ (k', ts) :: rest ∧ n ≤ i ∧ i < n + (rest.length + 1) ∧
          clock i - ts' > ttl := by
      intro hmem
      obtain ⟨i, ts', hp, hle, hlt, hold⟩ := ih hmem
      exact ⟨i, ts', List.mem_cons_of_mem _ hp, by omega, by omega, hold⟩
    unfold expired at h
    split at h
    · next hold =>
      rcases List.mem_cons.mp h with rfl | h
      · exact ⟨n, ts, List.mem_cons_self, le_refl n, by simp, hold⟩
      · exact hrest h
    · exact hrest h

/-- An entry that is kept is young enough by a reading of the pass. -/
theorem exists_of_not_mem_expired {n : Nat} {l : List (κ × Int)} {k : κ} {ts : Int}
    (hmem : (k, ts) ∈ l) (h : k ∉ expired clock ttl n l) :
    ∃ i, n ≤ i ∧ i < n + l.length ∧ clock i - ts ≤ ttl := by
  induction l generalizing n with
  | nil => exact nomatch hmem
  | cons p rest ih =>
    obtain ⟨k', ts'⟩ := p
    have hnot : k ∉ expired clock ttl (n + 1) rest := by
      intro hin
      apply h
      unfold expired
      split
      · exact List.mem_cons_of_mem _ hin
      · exact hin
    rcases List.mem_cons.mp hmem with heq | hin
    · obtain ⟨rfl, rfl⟩ := Prod.mk.inj heq
      refine ⟨n, le_refl n, by simp, ?_⟩
      by_contra hgt
      apply h
      unfold expired
      rw [if_pos (by omega)]
      exact List.mem_cons_self
    · obtain ⟨i, hle, hlt, hyoung⟩ := ih hin hnot
      exact ⟨i, by omega, by simp only [List.length_cons]; omega, hyoung⟩

variable [DecidableEq κ]

/-- Erase the entries that are too old. -/
def prune (clock : Nat → Int) (ttl : Int) (n : Nat) (m : LastSeen κ) : LastSeen κ :=
  let old := expired clock ttl n m.toPairs
  m.filterPairs fun k _ => k ∉ old

/-- What is left was there, and is young enough. -/
theorem lookup_prune_of_some {n : Nat} {m : LastSeen κ} {k : κ} {ts : Int}
    (h : (prune clock ttl n m).lookup k = some ts) :
    m.lookup k = some ts ∧ ∃ i, n ≤ i ∧ i < n + m.toPairs.length ∧ clock i - ts ≤ ttl := by
  unfold prune at h
  rw [AssocMap.lookup_filterPairs] at h
  obtain ⟨hlookup, hkeep⟩ := Option.filter_eq_some_iff.mp h
  refine ⟨hlookup, exists_of_not_mem_expired (AssocMap.mem_toPairs.mpr hlookup) ?_⟩
  simpa using hkeep

/-- What is gone was too old. -/
theorem expired_of_lookup_prune {n : Nat} {m : LastSeen κ} {k : κ} {ts : Int}
    (hlookup : m.lookup k = some ts) (h : (prune clock ttl n m).lookup k = none) :
    ∃ i, n ≤ i ∧ i < n + m.toPairs.length ∧ clock i - ts > ttl := by
  unfold prune at h
  rw [AssocMap.lookup_filterPairs, hlookup] at h
  have hold : k ∈ expired clock ttl n m.toPairs := by
    by_contra hnot
    simp [Option.filter_some, hnot] at h
  obtain ⟨i, ts', hmem, hle, hlt, hgt⟩ := mem_expired hold
  -- the entry of a key is the only one
  have hsame : some ts' = some ts := (AssocMap.mem_toPairs.mp hmem).symm.trans hlookup
  obtain rfl := Option.some.inj hsame
  exact ⟨i, hle, hlt, hgt⟩

end LastSeen

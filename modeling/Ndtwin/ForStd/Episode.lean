import Mathlib

/-!
# Episodes of a recurring event

Ticks `0, 1, 2, …` happen at times `t 0 ≤ t 1 ≤ …`, and some of them are hits. An
episode is a maximal run of hits in which consecutive hits are less than `F` apart; it
is named by its first hit. The library says how the episode of the last hit before a
tick continues, ends, or is followed by a new one.

## Key results

- `In.start_unique`: a hit belongs to at most one episode
- `start_of_all_far`, `In.extend`: what a further hit does
- `ends_iff_of_lastBefore`: which episode ends at a tick
-/

namespace Episode

variable {F : ℤ} {t : ℕ → ℤ} {hit : ℕ → Prop} {a a' i j l m n : ℕ}

/-- `i` and `j` are hits with none between them. -/
def Consecutive (hit : ℕ → Prop) (i j : ℕ) : Prop :=
  i < j ∧ hit i ∧ hit j ∧ ∀ m, i < m → m < j → ¬ hit m

/-- The hit `a` is the first of an episode: the one before it, if any, is `F` away. -/
def Start (F : ℤ) (t : ℕ → ℤ) (hit : ℕ → Prop) (a : ℕ) : Prop :=
  hit a ∧ ∀ i, Consecutive hit i a → F ≤ t a - t i

/-- The hit `i` belongs to the episode that starts at `a`. -/
def In (F : ℤ) (t : ℕ → ℤ) (hit : ℕ → Prop) (a i : ℕ) : Prop :=
  Start F t hit a ∧ a ≤ i ∧ hit i ∧
    ∀ l m, a ≤ l → m ≤ i → Consecutive hit l m → t m - t l < F

/-- `l` is the last hit of the episode that starts at `a`. -/
def Last (F : ℤ) (t : ℕ → ℤ) (hit : ℕ → Prop) (a l : ℕ) : Prop :=
  In F t hit a l ∧ ∀ m, Consecutive hit l m → F ≤ t m - t l

/-- The episode of `a` has `l` as its last hit, and `j` is the first tick at least `F`
    after it. -/
def Ends (F : ℤ) (t : ℕ → ℤ) (hit : ℕ → Prop) (a l j : ℕ) : Prop :=
  Last F t hit a l ∧ l < j ∧ F ≤ t j - t l ∧ ∀ j', l < j' → j' < j → t j' - t l < F

/-- `l` is the last hit before the tick `n`. -/
def LastBefore (hit : ℕ → Prop) (n l : ℕ) : Prop :=
  l < n ∧ hit l ∧ ∀ m, l < m → m < n → ¬ hit m

/-! ## The hit before a tick -/

/-- A hit before `n` is followed by a last one before `n`. -/
theorem exists_lastBefore (hi : hit i) (hin : i < n) : ∃ l, i ≤ l ∧ LastBefore hit n l := by
  -- induction on `n`: the tick `n` itself is the last hit before `n + 1`, if it is one
  induction n with
  | zero => omega
  | succ n ih =>
    by_cases hn : hit n
    · exact ⟨n, by omega, by omega, hn, fun m _ _ => by omega⟩
    · have hne : i ≠ n := fun h => hn (h ▸ hi)
      obtain ⟨l, hil, hln, hl, hnone⟩ := ih (by omega)
      refine ⟨l, hil, by omega, hl, fun m hlm hmn => ?_⟩
      by_cases hmn' : m = n
      · exact hmn' ▸ hn
      · exact hnone m hlm (by omega)

/-- A hit that is followed by another has a next one. -/
theorem exists_next (hl : hit l) (hm : hit m) (hlm : l < m) : ∃ b, Consecutive hit l b ∧ b ≤ m := by
  classical
  have hex : ∃ b, l < b ∧ hit b := ⟨m, hlm, hm⟩
  have hspec := Nat.find_spec hex
  have hnone : ∀ x, l < x → x < Nat.find hex → ¬ hit x := by
    intro x hlx hx hhit
    exact Nat.find_min hex hx ⟨hlx, hhit⟩
  exact ⟨Nat.find hex, ⟨hspec.1, hl, hspec.2, hnone⟩, Nat.find_min' hex ⟨hlm, hm⟩⟩

theorem LastBefore.consecutive (h : LastBefore hit n l) (hn : hit n) : Consecutive hit l n :=
  ⟨h.1, h.2.1, hn, h.2.2⟩

theorem LastBefore.unique (h : LastBefore hit n l) (h' : LastBefore hit n m) : l = m := by
  rcases Nat.lt_trichotomy l m with hlt | heq | hgt
  · exact absurd h'.2.1 (h.2.2 m hlt h'.1)
  · exact heq
  · exact absurd h.2.1 (h'.2.2 l hgt h.1)

theorem Consecutive.lastBefore (h : Consecutive hit l n) : LastBefore hit n l :=
  ⟨h.1, h.2.1, h.2.2.2⟩

/-- A tick that is no hit does not change which hit is the last one. -/
theorem LastBefore.succ (h : LastBefore hit n l) (hn : ¬ hit n) : LastBefore hit (n + 1) l := by
  refine ⟨by have := h.1; omega, h.2.1, fun m hlm hmn => ?_⟩
  by_cases hmn' : m = n
  · exact hmn' ▸ hn
  · exact h.2.2 m hlm (by omega)

theorem LastBefore.self (hn : hit n) : LastBefore hit (n + 1) n :=
  ⟨by omega, hn, fun m _ _ => by omega⟩

/-- Every hit before `n` is at or before the last one. -/
theorem LastBefore.le (h : LastBefore hit n l) (hi : hit i) (hin : i < n) : i ≤ l := by
  by_contra hlt
  exact h.2.2 i (by omega) hin hi

/-! ## Membership -/

theorem Start.self_in (h : Start F t hit a) : In F t hit a a := by
  refine ⟨h, le_refl a, h.1, fun l m hal hma hc => ?_⟩
  have := hc.1
  omega

/-- A hit belongs to at most one episode. -/
theorem In.start_unique (h : In F t hit a i) (h' : In F t hit a' i) : a = a' := by
  -- the later start has a hit of the other episode right before it, both near and far
  have key : ∀ {b b'}, In F t hit b i → In F t hit b' i → ¬ b < b' := by
    intro b b' hb hb' hlt
    obtain ⟨l, hbl, hl⟩ := exists_lastBefore hb.1.1 hlt
    have hc := hl.consecutive hb'.1.1
    have hfar := hb'.1.2 l hc
    have hnear := hb.2.2.2 l b' hbl hb'.2.1 hc
    omega
  have h₁ := key h h'
  have h₂ := key h' h
  omega

/-- A further hit less than `F` after the last one continues the episode. -/
theorem In.extend (h : In F t hit a l) (hl : LastBefore hit n l) (hn : hit n)
    (hnear : t n - t l < F) : In F t hit a n := by
  refine ⟨h.1, by have := h.2.1; have := hl.1; omega, hn, fun x y hax hyn hc => ?_⟩
  by_cases hy : y = n
  · subst hy
    rw [hc.lastBefore.unique hl]
    exact hnear
  · have hyl : y ≤ l := hl.le hc.2.2.1 (by omega)
    exact h.2.2.2 x y hax hyl hc

/-- A hit starts an episode when every earlier hit is `F` away from some tick up to it. -/
theorem start_of_all_far (hmono : Monotone t) (hn : hit n)
    (hfar : ∀ l, l < n → hit l → ∃ j, l < j ∧ j ≤ n ∧ F ≤ t j - t l) : Start F t hit n := by
  refine ⟨hn, fun i hc => ?_⟩
  obtain ⟨j, _, hjn, hj⟩ := hfar i hc.1 hc.2.1
  have := hmono hjn
  omega

/-! ## The end of an episode -/

/-- The hit before a tick `F` away is the last of its episode. -/
theorem last_of_gap (hmono : Monotone t) (h : In F t hit a l) (hl : LastBefore hit n l)
    (hfar : F ≤ t n - t l) : Last F t hit a l := by
  refine ⟨h, fun m hc => ?_⟩
  have hnm : n ≤ m := by
    by_contra hlt
    exact hl.2.2 m hc.1 (by omega) hc.2.2.1
  have := hmono hnm
  omega

/-- Every hit of an episode is at or before its last one. -/
theorem Last.le (h : Last F t hit a l) (hi : In F t hit a i) : i ≤ l := by
  by_contra hlt
  obtain ⟨b, hc, hbi⟩ := exists_next h.1.2.2.1 hi.2.2.1 (by omega : l < i)
  have hfar := h.2 b hc
  have hnear := hi.2.2.2 l b h.1.2.1 hbi hc
  omega

theorem Last.unique (h : Last F t hit a l) (h' : Last F t hit a m) : l = m :=
  le_antisymm (h'.le h.1) (h.le h'.1)

/-- An episode ends at one tick. -/
theorem Ends.unique (h : Ends F t hit a l i) (h' : Ends F t hit a m j) : i = j := by
  have hlm := h.1.unique h'.1
  subst hlm
  rcases Nat.lt_trichotomy i j with hlt | heq | hgt
  · have := h'.2.2.2 i h.2.1 hlt
    have := h.2.2.1
    omega
  · exact heq
  · have := h.2.2.2 j h'.2.1 hgt
    have := h'.2.2.1
    omega

/-- An episode with a tick at least `F` after its last hit ends. -/
theorem Last.exists_ends (h : Last F t hit a l) (hlj : l < j) (hfar : F ≤ t j - t l) :
    ∃ i, Ends F t hit a l i := by
  classical
  have hex : ∃ i, l < i ∧ F ≤ t i - t l := ⟨j, hlj, hfar⟩
  obtain ⟨hli, hi⟩ := Nat.find_spec hex
  refine ⟨Nat.find hex, h, hli, hi, fun k hlk hk => ?_⟩
  by_contra hge
  exact Nat.find_min hex hk ⟨hlk, by omega⟩

/-- An episode that ends at `n` is the one of the last hit before `n`. -/
theorem Ends.lastBefore (h : Ends F t hit a l n) : LastBefore hit n l := by
  obtain ⟨⟨hin, hlast⟩, hln, _, hfirst⟩ := h
  refine ⟨hln, hin.2.2.1, fun m hlm hmn hm => ?_⟩
  -- the hit right after `l` would be both `F` away and before the first tick `F` away
  obtain ⟨b, hc, hbm⟩ := exists_next hin.2.2.1 hm hlm
  have hfar := hlast b hc
  have hnear := hfirst b hc.1 (by omega)
  omega

/-- Which episode ends at `n`, read off the last hit `l` before it: the episode of `l`,
    when `n` is the first tick `F` away from `l`. -/
theorem ends_iff_of_lastBefore (hmono : Monotone t) (h : In F t hit a l)
    (hl : LastBefore hit n l) (hfirst : ∀ j', l < j' → j' < n → t j' - t l < F) (b m : ℕ) :
    Ends F t hit b m n ↔ b = a ∧ m = l ∧ F ≤ t n - t l := by
  constructor
  · intro hend
    have hml : m = l := hend.lastBefore.unique hl
    subst hml
    exact ⟨hend.1.1.start_unique h, rfl, hend.2.2.1⟩
  · rintro ⟨rfl, rfl, hfar⟩
    exact ⟨last_of_gap hmono h hl hfar, hl.1, hfar, hfirst⟩

end Episode

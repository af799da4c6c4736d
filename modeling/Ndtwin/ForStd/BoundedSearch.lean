import Mathlib.Algebra.Order.Ring.Int
import Mathlib.Data.List.Pairwise
import Mathlib.Order.Defs.LinearOrder

/-!
# Best-first search with a cut-off

A list of groups, each with an upper bound on what it can offer and at most one candidate,
is searched for a candidate of largest priority. The search stops at the first group whose
bound is below the best priority found so far. When the bounds are right and the groups are
listed by falling bound, stopping there loses nothing.

## Key results

- `search_eq_none`: nothing is found exactly when no candidate exceeds the floor
- `search_eq_some`: what is found is a candidate, and no group offers a better one
-/

namespace BoundedSearch

variable {γ ρ π : Type*} [LinearOrder π] (bound : γ → π) (candidate : γ → Option ρ) (prio : ρ → π)

/-- The loop: `best` is the candidate found so far and `bestPrio` its priority. -/
def search (best : Option ρ) (bestPrio : π) : List γ → Option ρ
  | [] => best
  | g :: gs =>
    if bound g < bestPrio then best
    else
      match candidate g with
      | none => search best bestPrio gs
      | some c => if prio c > bestPrio then search (some c) (prio c) gs else search best bestPrio gs

variable {bound candidate prio}

/-- `b` is at least every candidate of the groups `gs`. -/
def Dominates (candidate : γ → Option ρ) (prio : ρ → π) (b : π) (gs : List γ) : Prop :=
  ∀ g ∈ gs, ∀ c, candidate g = some c → prio c ≤ b

theorem dominates_cons {b : π} {g : γ} {gs : List γ}
    (hg : ∀ c, candidate g = some c → prio c ≤ b) (hgs : Dominates candidate prio b gs) :
    Dominates candidate prio b (g :: gs) := by
  intro a ha c hc
  rcases List.mem_cons.mp ha with rfl | hmem
  · exact hg c hc
  · exact hgs a hmem c hc

/-- The groups after one whose bound is below `b` cannot beat `b` either. -/
private theorem dominates_of_bound_lt (hbound : ∀ g c, candidate g = some c → prio c ≤ bound g)
    {g : γ} {gs : List γ} (hsorted : (g :: gs).Pairwise fun a b => bound b ≤ bound a) {b : π}
    (hlt : bound g < b) : Dominates candidate prio b (g :: gs) := by
  refine dominates_cons (fun c hc => le_trans (hbound g c hc) (le_of_lt hlt)) ?_
  intro a ha c hc
  have hle : bound a ≤ bound g := List.rel_of_pairwise_cons hsorted ha
  exact le_trans (hbound a c hc) (le_trans hle (le_of_lt hlt))

/-- What the loop returns: the best so far when nothing beats it, else a candidate that
    beats it and that nothing beats. -/
theorem search_spec (hbound : ∀ g c, candidate g = some c → prio c ≤ bound g) (gs : List γ)
    (hsorted : gs.Pairwise fun a b => bound b ≤ bound a) (best : Option ρ) (bestPrio : π) :
    (search bound candidate prio best bestPrio gs = best ∧
        Dominates candidate prio bestPrio gs) ∨
      ∃ g ∈ gs, ∃ c, candidate g = some c ∧
        search bound candidate prio best bestPrio gs = some c ∧ bestPrio < prio c ∧
        Dominates candidate prio (prio c) gs := by
  induction gs generalizing best bestPrio with
  | nil => exact Or.inl ⟨rfl, fun g hg => absurd hg List.not_mem_nil⟩
  | cons g gs ih =>
    have hsorted' := List.Pairwise.of_cons hsorted
    unfold search
    split
    · next hlt => exact Or.inl ⟨rfl, dominates_of_bound_lt hbound hsorted hlt⟩
    · split
      · next hnone =>
        -- a group without a candidate changes neither the best nor what dominates
        have hg : ∀ b c, candidate g = some c → prio c ≤ b := by
          intro b c hc
          rw [hnone] at hc
          exact nomatch hc
        rcases ih hsorted' best bestPrio with ⟨hres, hdom⟩ | ⟨g', hg', c, hc, hres, hlt, hdom⟩
        · exact Or.inl ⟨hres, dominates_cons (hg _) hdom⟩
        · exact Or.inr ⟨g', List.mem_cons_of_mem g hg', c, hc, hres, hlt,
            dominates_cons (hg _) hdom⟩
      · next c₀ hc₀ =>
        have hg : ∀ b, prio c₀ ≤ b → ∀ c, candidate g = some c → prio c ≤ b := by
          intro b hb c hc
          rw [hc₀] at hc
          exact Option.some.inj hc ▸ hb
        split
        · next hgt =>
          -- the candidate of `g` is the new best; it stays or is beaten further on
          rcases ih hsorted' (some c₀) (prio c₀) with
            ⟨hres, hdom⟩ | ⟨g', hg', c, hc, hres, hlt, hdom⟩
          · exact Or.inr ⟨g, List.mem_cons_self, c₀, hc₀, hres, hgt,
              dominates_cons (hg _ le_rfl) hdom⟩
          · exact Or.inr ⟨g', List.mem_cons_of_mem g hg', c, hc, hres, lt_trans hgt hlt,
              dominates_cons (hg _ (le_of_lt hlt)) hdom⟩
        · next hle =>
          have hle : prio c₀ ≤ bestPrio := not_lt.mp hle
          rcases ih hsorted' best bestPrio with
            ⟨hres, hdom⟩ | ⟨g', hg', c, hc, hres, hlt, hdom⟩
          · exact Or.inl ⟨hres, dominates_cons (hg _ hle) hdom⟩
          · exact Or.inr ⟨g', List.mem_cons_of_mem g hg', c, hc, hres, hlt,
              dominates_cons (hg _ (le_trans hle (le_of_lt hlt))) hdom⟩

/-- Started with nothing, the search finds nothing exactly when no candidate is above the
    floor. -/
theorem search_eq_none (hbound : ∀ g c, candidate g = some c → prio c ≤ bound g) {gs : List γ}
    (hsorted : gs.Pairwise fun a b => bound b ≤ bound a) {floor : π}
    (h : search bound candidate prio none floor gs = none) :
    Dominates candidate prio floor gs := by
  rcases search_spec hbound gs hsorted none floor with ⟨-, hdom⟩ | ⟨g, -, c, -, hres, -, -⟩
  · exact hdom
  · rw [h] at hres
    exact nomatch hres

/-- What the search finds is the candidate of a listed group, it is above the floor and no
    group has a better one. -/
theorem search_eq_some (hbound : ∀ g c, candidate g = some c → prio c ≤ bound g) {gs : List γ}
    (hsorted : gs.Pairwise fun a b => bound b ≤ bound a) {floor : π} {c : ρ}
    (h : search bound candidate prio none floor gs = some c) :
    floor < prio c ∧ ∃ g ∈ gs, candidate g = some c ∧ Dominates candidate prio (prio c) gs := by
  rcases search_spec hbound gs hsorted none floor with
    ⟨hres, -⟩ | ⟨g, hg, c', hc', hres, hlt, hdom⟩
  · rw [h] at hres
    exact nomatch hres
  · rw [h] at hres
    obtain rfl := Option.some.inj hres
    exact ⟨hlt, g, hg, hc', hdom⟩

end BoundedSearch

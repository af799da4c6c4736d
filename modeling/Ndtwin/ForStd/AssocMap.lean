import Mathlib.Algebra.Order.Ring.Int
import Mathlib.Data.List.AList
import Mathlib.Data.List.Sort

/-!
# Finite maps as association lists

`AssocMap κ ν` is Mathlib's `AList` at a constant value type. This file adds the
operations that a program written against `std::map` or `dict` needs beyond `lookup`,
`insert` and `erase`: the list of pairs, keeping the entries that pass a test, rewriting
every value, and an assignment that keeps the order of insertion. Each comes with the one
lemma that says how `lookup` sees it.
-/

/-- A finite map from `κ` to `ν`. -/
abbrev AssocMap (κ ν : Type*) := AList fun _ : κ => ν

namespace AssocMap

variable {κ ν ν' : Type*}

/-- The entries of the map, in storage order. -/
def toPairs (m : AssocMap κ ν) : List (κ × ν) :=
  m.entries.map fun s => (s.1, s.2)

/-- The entries that pass `p`. -/
def filterPairs (p : κ → ν → Bool) (m : AssocMap κ ν) : AssocMap κ ν where
  entries := m.entries.filter fun s => p s.1 s.2
  nodupKeys := m.nodupKeys.sublist List.filter_sublist

/-- Every value rewritten, keys kept. -/
def mapVals (f : κ → ν → ν') (m : AssocMap κ ν) : AssocMap κ ν' where
  entries := m.entries.map (.map id f)
  nodupKeys := by
    have h := m.nodupKeys
    unfold List.NodupKeys List.keys at h ⊢
    rw [List.map_map]
    exact h

theorem keys_eq_map_toPairs (m : AssocMap κ ν) : m.keys = m.toPairs.map Prod.fst := by
  rw [toPairs, List.map_map]
  rfl

theorem nodup_keys_toPairs (m : AssocMap κ ν) : (m.toPairs.map Prod.fst).Nodup := by
  rw [← keys_eq_map_toPairs]
  exact m.keys_nodup

variable [DecidableEq κ]

theorem mem_toPairs {m : AssocMap κ ν} {k : κ} {v : ν} :
    (k, v) ∈ m.toPairs ↔ m.lookup k = some v := by
  rw [← Option.mem_def, AList.mem_lookup_iff, toPairs, List.mem_map]
  constructor
  · rintro ⟨⟨k', v'⟩, hmem, heq⟩
    obtain ⟨rfl, rfl⟩ := Prod.mk.inj heq
    exact hmem
  · intro h
    exact ⟨⟨k, v⟩, h, rfl⟩

theorem exists_of_mem {m : AssocMap κ ν} {k : κ} (h : k ∈ m) : ∃ v, m.lookup k = some v :=
  Option.isSome_iff_exists.mp (AList.lookup_isSome.mpr h)

theorem mem_of_lookup {m : AssocMap κ ν} {k : κ} {v : ν} (h : m.lookup k = some v) : k ∈ m :=
  AList.lookup_isSome.mp (Option.isSome_iff_exists.mpr ⟨v, h⟩)

@[simp] theorem lookup_filterPairs (p : κ → ν → Bool) (m : AssocMap κ ν) (k : κ) :
    (filterPairs p m).lookup k = (m.lookup k).filter (p k) := by
  ext v
  rw [← Option.mem_def, AList.mem_lookup_iff, filterPairs, List.mem_filter, ← AList.mem_lookup_iff,
    Option.mem_def, Option.filter_eq_some_iff]

@[simp] theorem lookup_mapVals (f : κ → ν → ν') (m : AssocMap κ ν) (k : κ) :
    (mapVals f m).lookup k = (m.lookup k).map (f k) :=
  List.dlookup_map₂ k

/-- `lookup` after `insert`, as one equation. -/
theorem lookup_insert_eq (m : AssocMap κ ν) (k k' : κ) (v : ν) :
    (m.insert k v).lookup k' = if k' = k then some v else m.lookup k' := by
  split
  · next h => subst h; exact AList.lookup_insert m
  · next h => exact AList.lookup_insert_ne h

/-- `lookup` after one value was inserted at several keys. -/
theorem lookup_foldl_insert (ks : List κ) (v : ν) (m : AssocMap κ ν) (k : κ) :
    (ks.foldl (fun m k => m.insert k v) m).lookup k = if k ∈ ks then some v else m.lookup k := by
  induction ks generalizing m with
  | nil => rw [if_neg List.not_mem_nil, List.foldl_nil]
  | cons k' ks ih =>
    rw [List.foldl_cons, ih, lookup_insert_eq]
    by_cases hk : k = k'
    · subst hk
      rw [if_pos rfl, ite_self, if_pos List.mem_cons_self]
    · rw [if_neg hk]
      simp only [List.mem_cons, hk, false_or]

/-- `lookup` after `erase`, as one equation. -/
theorem lookup_erase_eq (m : AssocMap κ ν) (k k' : κ) :
    (m.erase k).lookup k' = if k' = k then none else m.lookup k' := by
  split
  · next h => subst h; exact AList.lookup_erase _ m
  · next h => exact AList.lookup_erase_ne h

/-- `d[k] = v` on a map that remembers the order of insertion: a present key keeps its
    place, a new one goes to the end. -/
def set (m : AssocMap κ ν) (k : κ) (v : ν) : AssocMap κ ν :=
  if h : k ∈ m then mapVals (fun k' v' => if k' = k then v else v') m
  else
    { entries := m.entries ++ [⟨k, v⟩]
      nodupKeys := by
        unfold List.NodupKeys List.keys
        rw [List.map_append, List.nodup_append]
        refine ⟨m.nodupKeys, List.nodup_singleton _, ?_⟩
        intro a ha b hb heq
        obtain rfl : b = k := List.mem_singleton.mp hb
        exact h (heq ▸ ha) }

@[simp] theorem lookup_set (m : AssocMap κ ν) (k k' : κ) (v : ν) :
    (m.set k v).lookup k' = if k' = k then some v else m.lookup k' := by
  unfold set
  split
  · next hmem =>
    rw [lookup_mapVals]
    by_cases hk : k' = k
    · subst hk
      obtain ⟨w, hw⟩ := exists_of_mem hmem
      simp [hw]
    · simp [hk]
  · next hmem =>
    show List.dlookup k' (m.entries ++ [⟨k, v⟩]) = _
    rw [List.dlookup_append]
    by_cases hk : k' = k
    · subst hk
      have hnone : m.entries.dlookup k' = none := List.dlookup_eq_none.mpr hmem
      simp [hnone]
    · have hsingle : List.dlookup k' [(⟨k, v⟩ : Sigma fun _ : κ => ν)] = none := by
        rw [List.dlookup_eq_none]
        simp [List.keys, hk]
      rw [hsingle, if_neg hk, Option.or_none]
      rfl

/-- Assigning the value that is there changes nothing. -/
theorem set_of_lookup {m : AssocMap κ ν} {k : κ} {v : ν} (h : m.lookup k = some v) :
    m.set k v = m := by
  have hmem := mem_of_lookup h
  have hentries : ∀ s ∈ m.entries, Sigma.map id (fun k' v' => if k' = k then v else v') s = s := by
    intro ⟨k', v'⟩ hs
    show (⟨k', if k' = k then v else v'⟩ : Sigma fun _ : κ => ν) = ⟨k', v'⟩
    split
    · next hk =>
      subst hk
      have hlookup : m.lookup k' = some v' := AList.mem_lookup_iff.mpr hs
      rw [h, Option.some.injEq] at hlookup
      rw [hlookup]
    · rfl
  apply AList.ext
  rw [set, dif_pos hmem]
  exact (List.map_congr_left hentries).trans (List.map_id _)

theorem toPairs_set_of_not_mem {m : AssocMap κ ν} {k : κ} (h : k ∉ m) (v : ν) :
    (m.set k v).toPairs = m.toPairs ++ [(k, v)] := by
  rw [set, dif_neg h, toPairs, List.map_append, toPairs]
  rfl

end AssocMap

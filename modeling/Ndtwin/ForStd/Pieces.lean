import Mathlib.Data.List.Basic

/-!
# Searching a list between separators

`splitOn` cuts a list into pieces. A search that goes through the whole list finds what a
search piece by piece finds, as long as the pattern has no separator in it: an occurrence
then lies inside one piece.

Key results:
- `List.getElem?_one_splitOn_iff`: which text is the second piece
- `List.dropPrefix?_append_cons`: a separator ends the text that can match
- `List.dropInfix?_append_cons`: so the first occurrence is in the first piece that has one
- `List.findSome?_splitOn_dropInfix?`: the text from there up to the next separator
-/

namespace List

variable {α : Type*} [BEq α] [LawfulBEq α] {sep : α} {piece pattern rest : List α}

/-- The first separator is where the first piece ends. -/
theorem idxOf?_append_cons_of_not_mem (h : sep ∉ piece) (rest : List α) :
    (piece ++ sep :: rest).idxOf? sep = some piece.length := by
  induction piece with
  | nil => simp [idxOf?_cons]
  | cons a piece ih =>
    have ha : (a == sep) = false := beq_eq_false_iff_ne.mpr fun h' => h (by simp [h'])
    rw [cons_append, idxOf?_cons, ha, ih fun h' => h (mem_cons_of_mem a h')]
    rfl

theorem takeWhile_append_cons_of_not_mem (h : sep ∉ piece) (rest : List α) :
    (piece ++ sep :: rest).takeWhile (· != sep) = piece := by
  have hne : ∀ a ∈ piece, (a != sep) = true := fun a ha => bne_iff_ne.mpr fun h' => h (h' ▸ ha)
  rw [takeWhile_append_of_pos hne]
  simp

theorem takeWhile_eq_self_of_not_mem (h : sep ∉ piece) : piece.takeWhile (· != sep) = piece := by
  have hne : ∀ a ∈ piece, (a != sep) = true := fun a ha => bne_iff_ne.mpr fun h' => h (h' ▸ ha)
  have happend : (piece ++ []).takeWhile (· != sep) = piece ++ [].takeWhile (· != sep) :=
    takeWhile_append_of_pos hne
  simpa using happend

/-- A list with a separator in it is its first piece, the separator and the rest. -/
theorem splitOn_cases (sep : α) (text : List α) :
    (sep ∉ text ∧ text.splitOn sep = [text]) ∨
      ∃ piece rest, text = piece ++ sep :: rest ∧ sep ∉ piece ∧
        text.splitOn sep = piece :: rest.splitOn sep := by
  by_cases h : sep ∈ text
  · obtain ⟨piece, rest, rfl, hpiece⟩ := eq_append_cons_of_mem h
    exact .inr ⟨piece, rest, rfl, hpiece, splitOn_append_cons_self_of_not_mem hpiece rest⟩
  · exact .inl ⟨h, splitOn_eq_singleton h⟩

/-- The pieces hold nothing that the text does not. -/
theorem mem_of_mem_splitOn {text : List α} {a : α} (hpiece : piece ∈ text.splitOn sep)
    (ha : a ∈ piece) : a ∈ text := by
  -- by induction on the length: what follows the first piece is split again
  induction h : text.length using Nat.strongRecOn generalizing text with
  | ind n ih =>
    rcases splitOn_cases sep text with ⟨_, hsplit⟩ | ⟨first, rest, rfl, _, hsplit⟩ <;>
      rw [hsplit] at hpiece
    · rwa [← mem_singleton.mp hpiece]
    · cases hpiece with
      | head => exact mem_append_left _ ha
      | tail _ hpiece =>
        have hlen : rest.length < n := by
          rw [← h, length_append, length_cons]
          omega
        exact mem_append_right _ (mem_cons_of_mem sep (ih _ hlen hpiece rfl))

theorem getElem?_zero_splitOn (sep : α) (text : List α) :
    (text.splitOn sep)[0]? = some (text.takeWhile (· != sep)) := by
  rcases splitOn_cases sep text with ⟨hsep, hsplit⟩ | ⟨first, rest, rfl, hfirst, hsplit⟩
  · rw [hsplit, takeWhile_eq_self_of_not_mem hsep]
    rfl
  · rw [hsplit, takeWhile_append_cons_of_not_mem hfirst]
    rfl

/-- `piece` stands between the first separator of a text and the next one, or the end. -/
def IsSecondPiece (sep : α) (text piece : List α) : Prop :=
  ∃ first tail, text = first ++ sep :: (piece ++ tail) ∧ sep ∉ first ∧ sep ∉ piece ∧
    (tail = [] ∨ ∃ rest, tail = sep :: rest)

theorem getElem?_one_splitOn_iff {text : List α} :
    (text.splitOn sep)[1]? = some piece ↔ IsSecondPiece sep text piece := by
  rcases splitOn_cases sep text with ⟨hsep, hsplit⟩ | ⟨first, rest, rfl, hfirst, hsplit⟩
  · -- without a separator there is one piece
    rw [hsplit]
    refine iff_of_false (fun h => nomatch h) ?_
    rintro ⟨first, tail, rfl, -, -, -⟩
    exact hsep (mem_append_right first mem_cons_self)
  rw [hsplit, getElem?_cons_succ, getElem?_zero_splitOn, Option.some.injEq]
  constructor
  · rintro rfl
    refine ⟨first, rest.dropWhile (· != sep), ?_, hfirst, ?_, ?_⟩
    · rw [takeWhile_append_dropWhile]
    · intro hmem
      simpa using all_eq_true.mp all_takeWhile sep hmem
    · cases htail : rest.dropWhile (· != sep) with
      | nil => exact .inl rfl
      | cons a tail =>
        have ha := head_dropWhile_not (· != sep) (l := rest) (by simp [htail])
        simp only [htail, head_cons, bne_eq_false_iff_eq] at ha
        exact .inr ⟨tail, by rw [ha]⟩
  · rintro ⟨first', tail, htext, hfirst', hpiece, htail⟩
    -- both texts before the first separator are the same
    have hfront := congrArg (takeWhile (· != sep)) htext
    rw [takeWhile_append_cons_of_not_mem hfirst, takeWhile_append_cons_of_not_mem hfirst'] at hfront
    subst hfront
    obtain rfl := (cons.inj (append_cancel_left htext)).2
    rcases htail with rfl | ⟨rest, rfl⟩
    · rw [append_nil, takeWhile_eq_self_of_not_mem hpiece]
    · exact takeWhile_append_cons_of_not_mem hpiece rest

/-- A pattern without the separator matches at the front of a list exactly when it matches
    at the front of the first piece. -/
theorem dropPrefix?_append_cons (hsep : sep ∉ pattern) (piece rest : List α) :
    (piece ++ sep :: rest).dropPrefix? pattern =
      (piece.dropPrefix? pattern).map (· ++ sep :: rest) := by
  induction pattern generalizing piece with
  | nil => simp
  | cons b pattern ih =>
    cases piece with
    -- the piece is used up, and the separator is no character of the pattern
    | nil =>
      have hb : (sep == b) = false := beq_eq_false_iff_ne.mpr fun h => hsep (by simp [h])
      simp [dropPrefix?, hb]
    | cons a piece =>
      simp only [cons_append, dropPrefix?]
      split
      · exact ih (fun h => hsep (mem_cons_of_mem b h)) piece
      · rfl

omit [LawfulBEq α] in
private theorem dropInfix?_go_acc (pattern text acc : List α) :
    dropInfix?.go pattern text acc =
      (text.dropInfix? pattern).map fun r => (acc.reverse ++ r.1, r.2) := by
  unfold dropInfix?
  -- the accumulator is only put in front
  induction text generalizing acc with
  | nil => cases h : pattern.isEmpty <;> simp [dropInfix?.go, h]
  | cons a text ih =>
    simp only [dropInfix?.go]
    split
    · rw [ih (a :: acc), ih [a], Option.map_map]
      simp [Function.comp_def]
    · simp

omit [LawfulBEq α] in
/-- One step of the search for a pattern. -/
theorem dropInfix?_cons (pattern : List α) (a : α) (text : List α) :
    (a :: text).dropInfix? pattern =
      match (a :: text).dropPrefix? pattern with
      | some after => some ([], after)
      | none => (text.dropInfix? pattern).map fun r => (a :: r.1, r.2) := by
  conv_lhs => unfold dropInfix? dropInfix?.go
  split
  · rename_i h
    simp [h, dropInfix?_go_acc]
  · rename_i h
    simp [h]

omit [LawfulBEq α] in
/-- A match at the front is the first occurrence. -/
theorem dropInfix?_eq_some_nil_iff {text after : List α} :
    text.dropInfix? pattern = some ([], after) ↔ text.dropPrefix? pattern = some after := by
  rw [dropInfix?_eq_some_iff, dropPrefix?_eq_some_iff]
  simp

/-- The first occurrence of a pattern without the separator: in the first piece, or else in
    what follows it. -/
theorem dropInfix?_append_cons (hsep : sep ∉ pattern) (hne : pattern ≠ [])
    (piece rest : List α) :
    (piece ++ sep :: rest).dropInfix? pattern =
      ((piece.dropInfix? pattern).map fun r => (r.1, r.2 ++ sep :: rest)).or
        ((rest.dropInfix? pattern).map fun r => (piece ++ sep :: r.1, r.2)) := by
  have hnil : ([] : List α).dropInfix? pattern = none := by
    simp [dropInfix?, dropInfix?.go, isEmpty_iff, hne]
  induction piece with
  | nil =>
    -- the separator itself cannot begin an occurrence
    have hsep' : (sep :: rest).dropPrefix? pattern = none := by
      obtain ⟨b, pattern, rfl⟩ := exists_cons_of_ne_nil hne
      have hb : (sep == b) = false := beq_eq_false_iff_ne.mpr fun h => hsep (by simp [h])
      simp [dropPrefix?, hb]
    simp [dropInfix?_cons, hsep', hnil]
  | cons a piece ih =>
    rw [cons_append, dropInfix?_cons, ← cons_append, dropPrefix?_append_cons hsep,
      dropInfix?_cons pattern a piece]
    cases h : (a :: piece).dropPrefix? pattern with
    | some after => simp
    | none =>
      simp only [Option.map_none, ih]
      cases piece.dropInfix? pattern <;> simp [Function.comp_def]

/-- What follows the first occurrence of a pattern, up to the next separator, is found by
    searching the pieces one by one. -/
theorem findSome?_splitOn_dropInfix? (hsep : sep ∉ pattern) (hne : pattern ≠ [])
    (text : List α) :
    (text.splitOn sep).findSome? (fun piece => (piece.dropInfix? pattern).map (·.2)) =
      (text.dropInfix? pattern).map fun r => r.2.takeWhile (· != sep) := by
  induction h : text.length using Nat.strongRecOn generalizing text with
  | ind n ih =>
    -- what is left of a piece has no separator either
    have hafter : ∀ piece before after : List α, sep ∉ piece →
        piece.dropInfix? pattern = some (before, after) → sep ∉ after := by
      intro piece before after hpiece hdrop hmem
      obtain ⟨⟨_, rfl, _⟩, _⟩ := dropInfix?_eq_some_iff.mp hdrop
      exact hpiece (mem_append_right _ hmem)
    rcases splitOn_cases sep text with ⟨htext, hsplit⟩ | ⟨piece, rest, rfl, hpiece, hsplit⟩
    · rw [hsplit, findSome?_singleton]
      cases hdrop : text.dropInfix? pattern with
      | none => rfl
      | some r => simp [takeWhile_eq_self_of_not_mem (hafter text r.1 r.2 htext hdrop)]
    · rw [hsplit, findSome?_cons, dropInfix?_append_cons hsep hne]
      cases hdrop : piece.dropInfix? pattern with
      | none =>
        have hlen : rest.length < n := by
          rw [← h, length_append, length_cons]
          omega
        simpa [Function.comp_def] using ih _ hlen rest rfl
      | some r =>
        simp [takeWhile_append_cons_of_not_mem (hafter piece r.1 r.2 hpiece hdrop)]

end List

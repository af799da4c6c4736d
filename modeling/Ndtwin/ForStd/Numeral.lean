import Mathlib.Algebra.Order.Ring.Int
import Mathlib.Data.List.TakeWhile
import Ndtwin.ForStd.CText

/-!
# Numerals

Texts that are numerals in a base, and what `strtoul`, `strtol` and the functions built on them
make of such a text: they read all of it and return its value.
-/

namespace CText

/-- A numeral for `n`: one or more digits of the base, the most significant first. -/
def Numeral (base : Nat) (cs : List Char) (n : Nat) : Prop :=
  cs ≠ [] ∧ ∃ ds, cs.mapM (digitIn base) = some ds ∧ ds.foldl (fun a d => a * base + d) 0 = n

/-- A hexadecimal numeral after its prefix. -/
def HexNumeral (cs : List Char) (n : Nat) : Prop :=
  ∃ x ds, cs = '0' :: x :: ds ∧ (x = 'x' ∨ x = 'X') ∧ Numeral 16 ds n

/-! ## Digits -/

theorem digitVal_of_digitIn {base : Nat} {c : Char} {d : Nat} (h : digitIn base c = some d) :
    digitVal c = some d ∧ d < base := by
  rw [digitIn, Option.filter_eq_some_iff] at h
  exact ⟨h.1, of_decide_eq_true h.2⟩

/-- A digit is neither white space nor a sign nor one of the separators. -/
theorem plain_of_digitVal {c : Char} {d : Nat} (h : digitVal c = some d) :
    isSpace c = false ∧ c ≠ '-' ∧ c ≠ '+' ∧ c ≠ '\x00' ∧ c ≠ '/' ∧ c ≠ '.' := by
  refine ⟨?_, ?_, ?_, ?_, ?_, ?_⟩
  · have hlow : '0' ≤ c := by
      unfold digitVal at h
      split at h
      · next hd => exact (of_decide_eq_true hd).1
      · split at h
        · next ha => exact Char.le_trans (by decide) ha.1
        · split at h
          · next ha => exact Char.le_trans (by decide) ha.1
          · exact nomatch h
    rw [isSpace, decide_eq_false_iff_not]
    rintro (rfl | ⟨-, hhigh⟩)
    · exact absurd hlow (by decide)
    · exact absurd (Char.le_trans hlow hhigh) (by decide)
  all_goals
    rintro rfl
    revert h
    simp [digitVal, isDigit]

theorem isDigit_of_digitIn_ten {c : Char} {d : Nat} (h : digitIn 10 c = some d) :
    isDigit c = true := by
  obtain ⟨hval, hlt⟩ := digitVal_of_digitIn h
  unfold digitVal at hval
  split at hval
  · next hd => exact hd
  · -- the letters are digits from ten on
    exfalso
    split at hval
    · have := Option.some.inj hval
      omega
    · split at hval
      · have := Option.some.inj hval
        omega
      · exact nomatch hval

theorem digitIn_of_mem {base : Nat} {cs : List Char} {ds : List Nat}
    (h : cs.mapM (digitIn base) = some ds) {c : Char} (hc : c ∈ cs) :
    ∃ d, digitIn base c = some d := by
  induction cs generalizing ds with
  | nil => exact absurd hc List.not_mem_nil
  | cons a cs ih =>
    rw [List.mapM_cons] at h
    obtain ⟨d, hd, h⟩ := Option.bind_eq_some_iff.mp h
    obtain ⟨ds', hds, -⟩ := Option.bind_eq_some_iff.mp h
    rcases List.mem_cons.mp hc with rfl | hc
    · exact ⟨d, hd⟩
    · exact ih hds hc

/-! ## Reading -/

/-- The digits of a numeral are read to the end. -/
theorem readDigits_of_mapM {base : Nat} {cs : List Char} {ds : List Nat}
    (h : cs.mapM (digitIn base) = some ds) (acc : Nat) :
    readDigits base acc cs = (ds.foldl (fun a d => a * base + d) acc, []) := by
  induction cs generalizing ds acc with
  | nil =>
    cases h
    rfl
  | cons a cs ih =>
    rw [List.mapM_cons] at h
    obtain ⟨d, hd, h⟩ := Option.bind_eq_some_iff.mp h
    obtain ⟨ds', hds, h⟩ := Option.bind_eq_some_iff.mp h
    cases h
    rw [readDigits, hd]
    exact ih hds _

namespace Numeral

variable {base n : Nat} {cs : List Char}

theorem plain (h : Numeral base cs n) {c : Char} (hc : c ∈ cs) :
    isSpace c = false ∧ c ≠ '-' ∧ c ≠ '+' ∧ c ≠ '\x00' ∧ c ≠ '/' ∧ c ≠ '.' := by
  obtain ⟨-, ds, hds, -⟩ := h
  obtain ⟨d, hd⟩ := digitIn_of_mem hds hc
  exact plain_of_digitVal (digitVal_of_digitIn hd).1

theorem all_isDigit (h : Numeral 10 cs n) : cs.all isDigit = true := by
  obtain ⟨-, ds, hds, -⟩ := h
  rw [List.all_eq_true]
  intro c hc
  obtain ⟨d, hd⟩ := digitIn_of_mem hds hc
  exact isDigit_of_digitIn_ten hd

end Numeral

/-- A hexadecimal numeral has no white space either, and no NUL. -/
theorem HexNumeral.plain {cs : List Char} {n : Nat} (h : HexNumeral cs n) {c : Char}
    (hc : c ∈ cs) : isSpace c = false ∧ c ≠ '\x00' := by
  obtain ⟨x, ds, rfl, hx, hds⟩ := h
  rcases List.mem_cons.mp hc with rfl | hc
  · decide
  · rcases List.mem_cons.mp hc with rfl | hc
    · rcases hx with rfl | rfl <;> decide
    · have hplain := hds.plain hc
      exact ⟨hplain.1, hplain.2.2.2.1⟩

/-- A text without a NUL is a C string as it is. -/
theorem takeWhile_ne_nul {cs : List Char} (h : ∀ c ∈ cs, c ≠ '\x00') :
    cs.takeWhile (· ≠ '\x00') = cs :=
  List.takeWhile_eq_self_iff.mpr fun c hc => decide_eq_true (h c hc)

/-- What starts with neither a space nor a sign is scanned from its first character. -/
theorem scan_of_plain {base : Nat} {c : Char} {cs : List Char} (hspace : isSpace c = false)
    (hminus : c ≠ '-') (hplus : c ≠ '+') :
    scan base (c :: cs) =
      (scanUnsigned base (c :: cs)).map fun r =>
        { negative := false, magnitude := r.1, rest := r.2 } := by
  have hdrop : (c :: cs).dropWhile isSpace = c :: cs := by
    rw [List.dropWhile_cons_of_neg (by rw [hspace]; exact Bool.false_ne_true)]
  unfold scan
  rw [hdrop]
  dsimp only
  split
  · next heq => exact absurd (List.cons.inj heq).1 hminus
  · next heq => exact absurd (List.cons.inj heq).1 hplus
  · rfl

theorem scan_numeral {cs : List Char} {n : Nat} (h : Numeral 10 cs n) :
    scan 10 cs = some { negative := false, magnitude := n, rest := [] } := by
  obtain ⟨hne, ds, hds, hn⟩ := id h
  cases cs with
  | nil => exact absurd rfl hne
  | cons c cs =>
    obtain ⟨hspace, hminus, hplus, -⟩ := h.plain List.mem_cons_self
    obtain ⟨d, hd⟩ := digitIn_of_mem hds List.mem_cons_self
    rw [scan_of_plain hspace hminus hplus]
    have hunsigned : scanUnsigned 10 (c :: cs) = some (n, []) := by
      unfold scanUnsigned
      cases stripHexPrefix (c :: cs) with
      | none =>
        have hbase : ¬ (10 : Nat) = 0 := by decide
        simp only [if_neg hbase, hd, readDigits_of_mapM hds, hn]
        rfl
      | some rest =>
        -- a prefix is skipped in base 16 only
        dsimp only
        rw [if_neg (by decide)]
        dsimp only
        rw [hd, readDigits_of_mapM hds, hn]
        rfl
    rw [hunsigned]
    rfl

theorem scan_hexNumeral {cs : List Char} {n : Nat} (h : HexNumeral cs n) :
    scan 16 cs = some { negative := false, magnitude := n, rest := [] } := by
  obtain ⟨x, ds, rfl, hx, hne, vs, hvs, hn⟩ := h
  rw [scan_of_plain (by decide) (by decide) (by decide)]
  cases ds with
  | nil => exact absurd rfl hne
  | cons d ds =>
    obtain ⟨v, hv⟩ := digitIn_of_mem hvs List.mem_cons_self
    have hxdigit : isXDigit d = true := by rw [isXDigit, hv]; rfl
    have hstrip : stripHexPrefix ('0' :: x :: d :: ds) = some (d :: ds) :=
      if_pos ⟨hx, hxdigit⟩
    have hunsigned : scanUnsigned 16 ('0' :: x :: d :: ds) = some (n, []) := by
      unfold scanUnsigned
      rw [hstrip]
      dsimp only
      rw [if_pos (Or.inr rfl)]
      dsimp only
      rw [hv, readDigits_of_mapM hvs, hn]
      rfl
    rw [hunsigned]
    rfl

theorem stoull_numeral {cs : List Char} {n : Nat} (h : Numeral 10 cs n) (hn : n < 2 ^ 64) :
    stoull 10 cs = .ok (UInt64.ofNat n, []) := by
  unfold stoull
  rw [scan_numeral h]
  dsimp only
  rw [if_neg (by omega), if_neg Bool.false_ne_true]

theorem stoull_hexNumeral {cs : List Char} {n : Nat} (h : HexNumeral cs n) (hn : n < 2 ^ 64) :
    stoull 16 cs = .ok (UInt64.ofNat n, []) := by
  unfold stoull
  rw [scan_hexNumeral h]
  dsimp only
  rw [if_neg (by omega), if_neg Bool.false_ne_true]

theorem stoi_numeral {cs : List Char} {n : Nat} (h : Numeral 10 cs n) (hn : n < 2 ^ 31) :
    stoi cs = .ok n := by
  unfold stoi
  rw [scan_numeral h]
  dsimp only
  rw [if_neg Bool.false_ne_true, if_neg (by omega)]

end CText

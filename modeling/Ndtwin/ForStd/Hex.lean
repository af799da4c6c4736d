import Mathlib.Data.List.TakeWhile
import Mathlib.Data.Nat.Digits.Lemmas
import Ndtwin.ForStd.CText

/-!
# Hexadecimal text

`padded width n` is what Python's `format(n, '0<width>x')` and C's `%0<width>x` print. The C
functions that read it back skip nothing, see no sign and no `0x` prefix, and stop at its end.

## Key results

- `padded_two`: the text of a byte
- `stoull_padded`: `std::stoull` in base 16 reads back what was printed
-/

namespace Hex

/-- The hexadecimal digits of a number, most significant first, padded with zeros. -/
def digits (width n : Nat) : List Nat :=
  List.replicate (width - (Nat.digits 16 n).length) 0 ++ (Nat.digits 16 n).reverse

/-- The text of a number, padded with zeros. -/
def padded (width n : Nat) : List Char := (digits width n).map Nat.digitChar

theorem lt_of_mem_digits {width n d : Nat} (h : d ∈ digits width n) : d < 16 := by
  rcases List.mem_append.mp h with hpad | hdigit
  · rw [List.eq_of_mem_replicate hpad]
    decide
  · exact Nat.digits_lt_base (by decide) (List.mem_reverse.mp hdigit)

theorem foldl_digits (width n : Nat) : (digits width n).foldl (fun a d => a * 16 + d) 0 = n := by
  have hzeros : ∀ k, (List.replicate k 0).foldl (fun a d => a * 16 + d) 0 = 0 := by
    intro k
    induction k with
    | zero => rfl
    | succ k ih => exact ih
  unfold digits
  rw [List.foldl_append, hzeros, List.foldl_reverse]
  have hfold := Nat.ofDigits_eq_foldr 16 (Nat.digits 16 n)
  rw [Nat.ofDigits_digits] at hfold
  have hswap : (fun d a : Nat => a * 16 + d) = fun d a => d + 16 * a := by
    funext d a
    omega
  rw [hswap]
  exact hfold.symm

/-! ## Digit characters -/

theorem digitIn_digitChar : ∀ d < 16, CText.digitIn 16 d.digitChar = some d := by decide

/-- A digit is no space, no sign, no NUL and not the `x` of a prefix. -/
theorem digitChar_plain : ∀ d < 16, CText.isSpace d.digitChar = false ∧ d.digitChar ≠ '-' ∧
    d.digitChar ≠ '+' ∧ d.digitChar ≠ 'x' ∧ d.digitChar ≠ 'X' ∧ d.digitChar ≠ '\x00' := by decide

/-- The characters of the text are hexadecimal digits. -/
theorem exists_of_mem_padded {width n : Nat} {c : Char} (h : c ∈ padded width n) :
    ∃ d < 16, c = d.digitChar := by
  obtain ⟨d, hd, rfl⟩ := List.mem_map.mp h
  exact ⟨d, lt_of_mem_digits hd, rfl⟩

theorem isXDigit_of_mem_padded {width n : Nat} {c : Char} (h : c ∈ padded width n) :
    CText.isXDigit c = true := by
  obtain ⟨d, hd, rfl⟩ := exists_of_mem_padded h
  rw [CText.isXDigit, digitIn_digitChar d hd, Option.isSome_some]

theorem padded_ne_nil {width : Nat} (hwidth : 0 < width) (n : Nat) : padded width n ≠ [] := by
  intro h
  have hlen := congrArg List.length h
  simp only [padded, digits, List.length_map, List.length_append, List.length_replicate,
    List.length_reverse, List.length_nil] at hlen
  omega

/-- A byte is written as its two digits. -/
theorem padded_two : ∀ n < 256, padded 2 n = [(n / 16).digitChar, (n % 16).digitChar] := by
  decide +kernel

/-- The text is a C string as it stands. -/
theorem takeWhile_padded (width n : Nat) :
    (padded width n).takeWhile (· ≠ '\x00') = padded width n := by
  rw [List.takeWhile_eq_self_iff]
  intro c hc
  obtain ⟨d, hd, rfl⟩ := exists_of_mem_padded hc
  simp [(digitChar_plain d hd).2.2.2.2.2]

/-! ## Reading back -/

theorem readDigits_map_digitChar {l : List Nat} (hl : ∀ d ∈ l, d < 16) (acc : Nat) :
    CText.readDigits 16 acc (l.map Nat.digitChar) = (l.foldl (fun a d => a * 16 + d) acc, []) := by
  induction l generalizing acc with
  | nil => rfl
  | cons d l ih =>
    rw [List.map_cons, CText.readDigits, digitIn_digitChar d (hl d List.mem_cons_self)]
    exact ih (fun d' hd' => hl d' (List.mem_cons_of_mem d hd')) _

theorem stripHexPrefix_padded (width n : Nat) : CText.stripHexPrefix (padded width n) = none := by
  unfold CText.stripHexPrefix
  split
  · next x d cs h =>
    have hx : x ∈ padded width n := by
      rw [h]
      exact List.mem_cons_of_mem _ List.mem_cons_self
    obtain ⟨k, hk, rfl⟩ := exists_of_mem_padded hx
    have hplain := digitChar_plain k hk
    rw [if_neg]
    intro hprefix
    exact hprefix.1.elim hplain.2.2.2.1 hplain.2.2.2.2.1
  · rfl

theorem scan_padded {width : Nat} (hwidth : 0 < width) (n : Nat) :
    CText.scan 16 (padded width n) = some { negative := false, magnitude := n, rest := [] } := by
  have hread : CText.readDigits 16 0 (padded width n) = (n, []) := by
    rw [padded, readDigits_map_digitChar fun d hd => lt_of_mem_digits hd, foldl_digits]
  have hunsigned : CText.scanUnsigned 16 (padded width n) = some (n, []) := by
    unfold CText.scanUnsigned
    rw [stripHexPrefix_padded]
    cases htext : padded width n with
    | nil => exact absurd htext (padded_ne_nil hwidth n)
    | cons c cs =>
      have hc : (CText.digitIn 16 c).isSome = true :=
        isXDigit_of_mem_padded (htext ▸ List.mem_cons_self)
      rw [htext] at hread
      simp only [Nat.reduceEqDiff, if_false, hc, if_true, hread]
  cases htext : padded width n with
  | nil => exact absurd htext (padded_ne_nil hwidth n)
  | cons c cs =>
    obtain ⟨d, hd, hc⟩ := exists_of_mem_padded (htext ▸ List.mem_cons_self : c ∈ padded width n)
    have hplain := digitChar_plain d hd
    rw [← hc] at hplain
    unfold CText.scan
    rw [List.dropWhile_cons_of_neg (by simp [hplain.1])]
    -- the first character is a digit, so there is no sign
    dsimp only
    split
    · next h => exact absurd (List.cons.inj h).1 hplain.2.1
    · next h => exact absurd (List.cons.inj h).1 hplain.2.2.1
    · rw [← htext, hunsigned, Option.map_some]

/-- `std::stoull` in base 16 reads back a number that fits. -/
theorem stoull_padded {width : Nat} (hwidth : 0 < width) {n : Nat} (hn : n < 2 ^ 64) :
    CText.stoull 16 (padded width n) = .ok (UInt64.ofNat n, []) := by
  unfold CText.stoull
  rw [scan_padded hwidth]
  simp only [Nat.not_le.mpr hn, if_false]
  rfl

end Hex

import Mathlib.Algebra.Order.Ring.Int
import Mathlib.Data.List.TakeWhile
import Ndtwin.ForStd.CText
import Ndtwin.ForStd.List

/-!
# Decimal text

`Nat.toDigits 10 n` is what Python's `str(n)` prints. The C functions that read it back skip
nothing, see no sign and stop at its end; a dotted quad of such numbers is an address of
`inet_pton`.

## Key results

- `stoull_toDigits`: `std::stoull` in base 10 reads back what was printed
- `inetPton4_dottedQuad`: `inet_pton` reads back four bytes
-/

namespace Decimal

/-! ## Digit characters -/

/-- The characters of the text are decimal digits. -/
theorem exists_of_mem_toDigits {n : Nat} {c : Char} (h : c ∈ Nat.toDigits 10 n) :
    ∃ d < 10, c = d.digitChar := by
  induction n using Nat.strong_induction_on with
  | h n ih =>
    rw [Nat.toDigits_eq_if (by decide)] at h
    split at h
    · next hn => exact ⟨n, hn, List.mem_singleton.mp h⟩
    · next hn =>
      rcases List.mem_append.mp h with hhigh | hlow
      · exact ih (n / 10) (by omega) hhigh
      · exact ⟨n % 10, Nat.mod_lt n (by decide), List.mem_singleton.mp hlow⟩

theorem digitIn_digitChar : ∀ d < 10, CText.digitIn 10 d.digitChar = some d := by decide

/-- A digit is no space, no sign, no separator and no NUL. -/
theorem digitChar_plain : ∀ d < 10, CText.isSpace d.digitChar = false ∧ d.digitChar ≠ '-' ∧
    d.digitChar ≠ '+' ∧ d.digitChar ≠ '\x00' := by decide

theorem digitChar_ne_separator : ∀ d < 10, d.digitChar ≠ '.' ∧ d.digitChar ≠ '/' ∧
    d.digitChar ≠ ':' := by decide

theorem toUpper_digitChar : ∀ d < 10, CText.toUpper d.digitChar = d.digitChar := by decide

theorem map_toUpper_toDigits (n : Nat) :
    (Nat.toDigits 10 n).map CText.toUpper = Nat.toDigits 10 n := by
  calc (Nat.toDigits 10 n).map CText.toUpper
      = (Nat.toDigits 10 n).map id := by
        apply List.map_congr_left
        intro c hc
        obtain ⟨d, hd, rfl⟩ := exists_of_mem_toDigits hc
        exact toUpper_digitChar d hd
    _ = Nat.toDigits 10 n := List.map_id _

/-! ## Reading back -/

/-- Digits are read one block after the other. -/
theorem readDigits_append {base acc m : Nat} {ds : List Char} (cs : List Char)
    (h : CText.readDigits base acc ds = (m, [])) :
    CText.readDigits base acc (ds ++ cs) = CText.readDigits base m cs := by
  induction ds generalizing acc with
  | nil =>
    cases h
    rfl
  | cons d ds ih =>
    rw [List.cons_append, CText.readDigits]
    rw [CText.readDigits] at h
    cases hd : CText.digitIn base d with
    | none =>
      rw [hd] at h
      exact nomatch h
    | some v =>
      rw [hd] at h
      exact ih h

theorem readDigits_toDigits (n : Nat) : CText.readDigits 10 0 (Nat.toDigits 10 n) = (n, []) := by
  induction n using Nat.strong_induction_on with
  | h n ih =>
    rw [Nat.toDigits_eq_if (by decide)]
    split
    · next hn =>
      rw [CText.readDigits, digitIn_digitChar n hn]
      simp [CText.readDigits]
    · next hn =>
      rw [readDigits_append _ (ih (n / 10) (by omega)), CText.readDigits,
        digitIn_digitChar (n % 10) (Nat.mod_lt n (by decide))]
      simp only [CText.readDigits]
      rw [Nat.div_add_mod' n 10]

theorem scan_toDigits (n : Nat) :
    CText.scan 10 (Nat.toDigits 10 n) =
      some { negative := false, magnitude := n, rest := [] } := by
  have hread := readDigits_toDigits n
  cases htext : Nat.toDigits 10 n with
  | nil => exact absurd htext Nat.toDigits_ne_nil
  | cons c cs =>
    obtain ⟨d, hd, hc⟩ := exists_of_mem_toDigits (htext ▸ List.mem_cons_self : c ∈ Nat.toDigits 10 n)
    have hplain := digitChar_plain d hd
    have hdigit := digitIn_digitChar d hd
    rw [← hc] at hplain hdigit
    have hunsigned : CText.scanUnsigned 10 (c :: cs) = some (n, []) := by
      unfold CText.scanUnsigned
      rw [htext] at hread
      cases CText.stripHexPrefix (c :: cs) with
      | none => simp [hdigit, hread]
      | some ds => simp [hdigit, hread]
    unfold CText.scan
    rw [List.dropWhile_cons_of_neg (by simp [hplain.1])]
    -- the first character is a digit, so there is no sign
    dsimp only
    split
    · next h => exact absurd (List.cons.inj h).1 hplain.2.1
    · next h => exact absurd (List.cons.inj h).1 hplain.2.2.1
    · rw [hunsigned, Option.map_some]

/-- `std::stoull` in base 10 reads back a number that fits. -/
theorem stoull_toDigits {n : Nat} (hn : n < 2 ^ 64) :
    CText.stoull 10 (Nat.toDigits 10 n) = .ok (UInt64.ofNat n, []) := by
  unfold CText.stoull
  rw [scan_toDigits]
  simp only [Nat.not_le.mpr hn, if_false]
  rfl

/-! ## Addresses -/

/-- `".".join(str(b) for b in bs)` -/
def dottedQuad (bs : List UInt8) : List Char :=
  ['.'].intercalate (bs.map fun b => Nat.toDigits 10 b.toNat)

theorem decimalByte_toDigits (b : UInt8) :
    CText.decimalByte (Nat.toDigits 10 b.toNat) = some b := by
  have hall : ∀ n < 256, CText.decimalByte (Nat.toDigits 10 n) = some (UInt8.ofNat n) := by
    decide +kernel
  rw [hall b.toNat b.toNat_lt, UInt8.ofNat_toNat]

/-- The characters of a dotted quad. -/
theorem mem_dottedQuad {bs : List UInt8} {c : Char} (h : c ∈ dottedQuad bs) :
    c = '.' ∨ ∃ d < 10, c = d.digitChar := by
  rcases List.mem_of_mem_intercalate h with hdot | ⟨l, hl, hc⟩
  · exact Or.inl (List.mem_singleton.mp hdot)
  · obtain ⟨b, -, rfl⟩ := List.mem_map.mp hl
    exact Or.inr (exists_of_mem_toDigits hc)

/-- `inet_pton` reads back an address. -/
theorem inetPton4_dottedQuad {bs : List UInt8} (h : bs.length = 4) :
    CText.inetPton4 (dottedQuad bs) = some bs := by
  have hsplit : (dottedQuad bs).splitOn '.' = bs.map fun b => Nat.toDigits 10 b.toNat := by
    apply List.splitOn_intercalate
    · intro l hl hdot
      obtain ⟨b, -, rfl⟩ := List.mem_map.mp hl
      obtain ⟨d, hd, hc⟩ := exists_of_mem_toDigits hdot
      exact (digitChar_ne_separator d hd).1 hc.symm
    · intro hnil
      rw [List.map_eq_nil_iff] at hnil
      simp [hnil] at h
  unfold CText.inetPton4
  rw [hsplit]
  match bs, h with
  | [a, b, c, d], _ => simp only [List.map_cons, List.map_nil, decimalByte_toDigits]

end Decimal

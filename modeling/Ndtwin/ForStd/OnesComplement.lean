import Mathlib.Data.Nat.ModEq
import Ndtwin.ForStd.Python

/-!
# The one's complement sum

The checksum of RFC 1071: the complement of the sum of the 16-bit words of a buffer, where a
carry is added back at the low end. Up to the two ways to write zero the sum is the number that
the buffer stands for, taken modulo `2 ^ 16 - 1`.

## Key results

- `onesSum_mod`: the sum as a remainder
- `onesSum_eq_max_iff`: which buffers carry a correct checksum
-/

namespace OnesComplement

open Python

/-- Addition of 16-bit words with the carry added back. -/
def add16 (a b : Nat) : Nat := if a + b < 0x10000 then a + b else a + b - (0xFFFF)

/-- The one's complement sum of the 16-bit words of a buffer, the last byte padded with zero. -/
def onesSum : List UInt8 → Nat
  | a :: b :: bs => add16 (a.toNat * 256 + b.toNat) (onesSum bs)
  | [a] => a.toNat * 256
  | [] => 0

/-- The checksum of a buffer. -/
def csum16 (bs : List UInt8) : Nat := 0xFFFF - onesSum bs

theorem word_lt (a b : UInt8) : a.toNat * 256 + b.toNat < 0x10000 := by
  have ha := a.toNat_lt
  have hb := b.toNat_lt
  omega

theorem onesSum_lt (bs : List UInt8) : onesSum bs < 0x10000 := by
  induction bs using onesSum.induct with
  | case1 a b bs ih =>
    have hword := word_lt a b
    rw [onesSum, add16]
    split <;> omega
  | case2 a =>
    have ha := a.toNat_lt
    rw [onesSum]
    omega
  | case3 => decide

/-- A power of `2 ^ 16` counts as one. -/
theorem pow_modEq_one {n : Nat} (h : n % 2 = 0) : 256 ^ n ≡ 1 [MOD 0xFFFF] := by
  obtain ⟨k, rfl⟩ : ∃ k, n = 2 * k := ⟨n / 2, by omega⟩
  have hbase : 256 ^ 2 ≡ 1 [MOD 0xFFFF] := by decide
  have hpow := hbase.pow k
  rw [one_pow] at hpow
  rw [pow_mul]
  exact hpow

/-- Appending whole words adds their value. -/
theorem fromBytes_append_modEq (bs : List UInt8) {bs' : List UInt8} (h : bs'.length % 2 = 0) :
    fromBytes (bs ++ bs') ≡ fromBytes bs + fromBytes bs' [MOD 0xFFFF] := by
  rw [fromBytes_append]
  have hmul := (pow_modEq_one h).mul_left (fromBytes bs)
  rw [Nat.mul_one] at hmul
  exact hmul.add_right _

theorem add16_modEq (a b : Nat) : add16 a b ≡ a + b [MOD 0xFFFF] := by
  rw [add16]
  split
  · exact Nat.ModEq.refl _
  · unfold Nat.ModEq
    omega

theorem onesSum_modEq {bs : List UInt8} (h : bs.length % 2 = 0) :
    onesSum bs ≡ fromBytes bs [MOD 0xFFFF] := by
  induction bs using onesSum.induct with
  | case1 a b bs ih =>
    have htail : bs.length % 2 = 0 := by
      rw [List.length_cons, List.length_cons] at h
      omega
    have hword : fromBytes [a, b] = a.toNat * 256 + b.toNat := by
      rw [fromBytes_cons, fromBytes_cons]
      simp [fromBytes]
    have hsplit := fromBytes_append_modEq [a, b] htail
    rw [hword] at hsplit
    exact (add16_modEq _ _).trans (((ih htail).add_left _).trans hsplit.symm)
  | case2 a => cases h
  | case3 => rfl

/-- Only zeros have the sum zero. -/
theorem onesSum_eq_zero_iff {bs : List UInt8} (h : bs.length % 2 = 0) :
    onesSum bs = 0 ↔ fromBytes bs = 0 := by
  induction bs using onesSum.induct with
  | case1 a b bs ih =>
    have htail : bs.length % 2 = 0 := by
      rw [List.length_cons, List.length_cons] at h
      omega
    have hzero : a.toNat * (256 ^ bs.length * 256) +
        (b.toNat * 256 ^ bs.length + fromBytes bs) = 0 ↔
          a.toNat = 0 ∧ b.toNat = 0 ∧ fromBytes bs = 0 := by
      simp
    rw [onesSum, add16, fromBytes_cons, fromBytes_cons, List.length_cons, pow_succ, hzero,
      ← ih htail]
    have hlt := onesSum_lt bs
    split <;> omega
  | case2 a => cases h
  | case3 => exact iff_of_true rfl rfl

/-- A buffer has the sum of all ones exactly if it is a multiple of it, and not zero. -/
theorem onesSum_eq_max_iff {bs : List UInt8} (h : bs.length % 2 = 0) :
    onesSum bs = 0xFFFF ↔ fromBytes bs ≠ 0 ∧ fromBytes bs ≡ 0 [MOD 0xFFFF] := by
  have hlt := onesSum_lt bs
  have hmod : onesSum bs % (0xFFFF) = fromBytes bs % (0xFFFF) := onesSum_modEq h
  have hzero := onesSum_eq_zero_iff h
  unfold Nat.ModEq
  rw [← hmod, Ne, ← hzero]
  omega

end OnesComplement

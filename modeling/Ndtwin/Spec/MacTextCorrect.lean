import Mathlib.Tactic.IntervalCases
import Ndtwin.Kernel.Utils

/-!
# MAC addresses as text

`tryMacToUint64` accepts six groups of two hexadecimal digits, in either letter case, with one
`:` or `-` between any two, and nothing else. `macToString` writes the lower case spelling with
`:`, which reads back as the number it was written from.

Key results:
- `macPairs_macBytes`: the loop of `tryMacToUint64` reads what the loop of `macToString` wrote
- `macPairs_groups`: what was read is written in the spelling it was read in, up to letter case
  and separators
- `mac_round_trip`: both for whole addresses, and which texts are addresses
-/

namespace Ndtwin.Kernel.Utils

/-! ## The texts -/

/-- A hexadecimal digit, in either letter case. -/
def IsHexDigit (c : Char) : Prop := c ∈ "0123456789abcdefABCDEF".toList

/-- Groups of two hexadecimal digits, with one `:` or `-` between any two. -/
inductive MacGroups : Nat → List Char → Prop where
  | last {a b : Char} : IsHexDigit a → IsHexDigit b → MacGroups 1 [a, b]
  | more {n : Nat} {a b sep : Char} {rest : List Char} : IsHexDigit a → IsHexDigit b →
      sep = ':' ∨ sep = '-' → MacGroups n rest → MacGroups (n + 1) (a :: b :: sep :: rest)

/-- A character in lower case, and `:` for either separator. -/
def canonicalChar (c : Char) : Char := if c = '-' then ':' else c.toLower

def canonicalMac (mac : String) : String := String.ofList (mac.toList.map canonicalChar)

/-! ## Digits -/

theorem isHexDigit_of_digitIn {c : Char} {d : Nat} (h : CText.digitIn 16 c = some d) :
    IsHexDigit c := by
  rw [CText.digitIn, Option.filter_eq_some_iff] at h
  obtain ⟨hval, hlt⟩ := h
  unfold IsHexDigit
  have hchar : c = Char.ofNat c.toNat := (Char.ofNat_toNat c).symm
  have hlt : d < 16 := of_decide_eq_true hlt
  unfold CText.digitVal at hval
  -- a decimal digit, or a letter of either case up to the sixth
  split at hval
  · next hd =>
    obtain ⟨hlow, hhigh⟩ := of_decide_eq_true hd
    have hlow : 48 ≤ c.toNat := hlow
    have hhigh : c.toNat ≤ 57 := hhigh
    rw [hchar]
    interval_cases c.toNat <;> decide
  · split at hval
    · next ha =>
      have hlow : 97 ≤ c.toNat := ha.1
      have hhigh : c.toNat ≤ 102 := by
        have := Option.some.inj hval
        simp only [Char.reduceToNat] at this
        omega
      rw [hchar]
      interval_cases c.toNat <;> decide
    · split at hval
      · next ha =>
        have hlow : 65 ≤ c.toNat := ha.1
        have hhigh : c.toNat ≤ 70 := by
          have := Option.some.inj hval
          simp only [Char.reduceToNat] at this
          omega
        rw [hchar]
        interval_cases c.toNat <;> decide
      · exact nomatch hval

/-- A digit has a value, and the lower case digit of that value is the digit itself. -/
theorem digitIn_of_isHexDigit (c : Char) (h : IsHexDigit c) :
    (CText.digitIn 16 c).map Nat.digitChar = some (canonicalChar c) := by
  have hall : "0123456789abcdefABCDEF".toList.all fun c =>
      (CText.digitIn 16 c).map Nat.digitChar = some (canonicalChar c) := by decide
  exact of_decide_eq_true (List.all_eq_true.mp hall c h)

theorem ascii_of_isHexDigit (c : Char) (h : IsHexDigit c) : c.val ≤ 127 := by
  have hall : "0123456789abcdefABCDEF".toList.all fun c => c.val ≤ 127 := by decide
  exact of_decide_eq_true (List.all_eq_true.mp hall c h)

theorem exists_hexPair {a b : Char} (ha : IsHexDigit a) (hb : IsHexDigit b) :
    ∃ byte, hexPair a b = some byte := by
  obtain ⟨hi, hhi, _⟩ := Option.map_eq_some_iff.mp (digitIn_of_isHexDigit a ha)
  obtain ⟨lo, hlo, _⟩ := Option.map_eq_some_iff.mp (digitIn_of_isHexDigit b hb)
  rw [hexPair, hhi, hlo]
  exact ⟨_, rfl⟩

/-- A pair that was read is two digits, which the byte is written as. -/
theorem hexPair_spec {a b : Char} {byte : UInt64} (h : hexPair a b = some byte) :
    IsHexDigit a ∧ IsHexDigit b ∧ byte.toNat < 256 ∧
      Hex.padded 2 byte.toNat = [canonicalChar a, canonicalChar b] := by
  unfold hexPair at h
  split at h
  · next hi lo hhi hlo =>
    obtain rfl := Option.some.inj h
    have ha := isHexDigit_of_digitIn hhi
    have hb := isHexDigit_of_digitIn hlo
    have hhi16 : hi < 16 := of_decide_eq_true (Option.filter_eq_some_iff.mp hhi).2
    have hlo16 : lo < 16 := of_decide_eq_true (Option.filter_eq_some_iff.mp hlo).2
    have hcanonA := digitIn_of_isHexDigit a ha
    have hcanonB := digitIn_of_isHexDigit b hb
    rw [hhi, Option.map_some, Option.some.injEq] at hcanonA
    rw [hlo, Option.map_some, Option.some.injEq] at hcanonB
    have hbyte : (UInt64.ofNat (hi * 16 + lo)).toNat = hi * 16 + lo := by
      rw [UInt64.toNat_ofNat']
      omega
    refine ⟨ha, hb, by omega, ?_⟩
    rw [hbyte, Hex.padded_two _ (by omega), ← hcanonA, ← hcanonB,
      show (hi * 16 + lo) / 16 = hi by omega, show (hi * 16 + lo) % 16 = lo by omega]
  · exact nomatch h

theorem exists_padded {n : Nat} (hn : n < 256) :
    ∃ a b, Hex.padded 2 n = [a, b] ∧ hexPair a b = some (UInt64.ofNat n) := by
  refine ⟨_, _, Hex.padded_two n hn, ?_⟩
  rw [hexPair, Hex.digitIn_digitChar _ (by omega), Hex.digitIn_digitChar _ (by omega)]
  dsimp only
  rw [Nat.div_add_mod' n 16]

/-! ## Bytes of a number -/

theorem toNat_zero_lt : (0 : UInt64).toNat < 256 ^ (5 - 5) := by decide

/-- One more byte behind those read so far. -/
theorem toNat_shift_or {result byte : UInt64} (hresult : result.toNat < 2 ^ 56)
    (hbyte : byte.toNat < 256) :
    ((result <<< 8) ||| byte).toNat = result.toNat * 256 + byte.toNat := by
  have hshift : (result <<< 8).toNat = result.toNat <<< 8 := by
    rw [UInt64.toNat_shiftLeft, Nat.mod_eq_of_lt]
    · rfl
    · show result.toNat <<< 8 < 2 ^ 64
      rw [Nat.shiftLeft_eq]
      omega
  rw [UInt64.toNat_or, hshift, ← Nat.shiftLeft_add_eq_or_of_lt (show byte.toNat < 2 ^ 8 from hbyte),
    Nat.shiftLeft_eq]

theorem hexByte_eq (mac : UInt64) {i : Nat} (hi : i ≤ 5) :
    hexByte mac i = Hex.padded 2 (mac.toNat / 256 ^ i % 256) := by
  have hshift : (UInt64.ofNat (i * 8)).toNat % 64 = i * 8 := by
    rw [UInt64.toNat_ofNat']
    omega
  have hpow : 2 ^ (i * 8) = 256 ^ i := by
    rw [Nat.mul_comm, Nat.pow_mul]
  rw [hexByte, UInt64.toNat_and, UInt64.toNat_shiftRight, hshift, Nat.shiftRight_eq_div_pow, hpow]
  congr 1
  exact Nat.and_two_pow_sub_one_eq_mod _ 8

theorem length_macBytes (mac : UInt64) {i : Nat} (hi : i ≤ 5) :
    (macBytes mac i).length = 3 * i + 2 := by
  have htwo : ∀ k ≤ 5, (hexByte mac k).length = 2 := by
    intro k hk
    rw [hexByte_eq mac hk, Hex.padded_two _ (Nat.mod_lt _ (by decide))]
    rfl
  induction i with
  | zero => exact htwo 0 hi
  | succ i ih =>
    rw [macBytes, List.length_append, List.length_cons, htwo _ hi, ih (by omega)]
    omega

/-! ## The two loops -/

/-- The pairs from the byte `i` down are read back behind the bytes above them. -/
theorem macPairs_macBytes (mac : UInt64) {i : Nat} (hi : i ≤ 5) {acc : UInt64}
    (hacc : acc.toNat = mac.toNat / 256 ^ (i + 1)) : macPairs acc (macBytes mac i) = some mac := by
  have hbyte : ∀ k ≤ 5, mac.toNat / 256 ^ (k + 1) * 256 + mac.toNat / 256 ^ k % 256 =
      mac.toNat / 256 ^ k := by
    intro k _
    rw [Nat.pow_succ, ← Nat.div_div_eq_div_mul, Nat.div_add_mod']
  have hmac := mac.toNat_lt
  -- by induction on the byte that is written first; `acc` holds those above it
  induction i generalizing acc with
  | zero =>
    obtain ⟨a, b, hpadded, hpair⟩ := exists_padded (Nat.mod_lt (mac.toNat / 256 ^ 0) (by decide))
    rw [macBytes, hexByte_eq mac hi, hpadded, macPairs, hpair, Option.map_some, Option.some.injEq]
    apply UInt64.toNat_inj.mp
    have hlt : mac.toNat / 256 ^ 0 % 256 < 256 := Nat.mod_lt _ (by decide)
    rw [toNat_shift_or (by omega) (by rw [UInt64.toNat_ofNat']; omega), hacc, UInt64.toNat_ofNat',
      Nat.mod_eq_of_lt (by omega), hbyte 0 (by omega), Nat.pow_zero, Nat.div_one]
  | succ i ih =>
    have hlt : mac.toNat / 256 ^ (i + 1) % 256 < 256 := Nat.mod_lt _ (by decide)
    obtain ⟨a, b, hpadded, hpair⟩ := exists_padded hlt
    have hhigh : acc.toNat < 2 ^ 56 := by
      have hpow : 256 ^ (i + 1 + 1) = 256 * 256 ^ (i + 1) := by rw [Nat.pow_succ, Nat.mul_comm]
      rw [hacc, hpow, ← Nat.div_div_eq_div_mul]
      calc mac.toNat / 256 / 256 ^ (i + 1) ≤ mac.toNat / 256 := Nat.div_le_self _ _
        _ < 2 ^ 56 := by omega
    rw [macBytes, hexByte_eq mac hi, hpadded]
    show macPairs acc (a :: b :: ':' :: macBytes mac i) = some mac
    rw [macPairs, hpair]
    dsimp only
    rw [if_pos (.inl rfl)]
    apply ih (by omega)
    rw [toNat_shift_or hhigh (by rw [UInt64.toNat_ofNat']; omega), hacc, UInt64.toNat_ofNat',
      Nat.mod_eq_of_lt (by omega), hbyte (i + 1) hi]

/-- The loop reads groups. -/
theorem exists_groups {acc m : UInt64} {cs : List Char} (h : macPairs acc cs = some m) :
    ∃ n, MacGroups n cs := by
  -- the cases of the loop: a last pair, a pair with a separator behind it, and what is refused
  induction acc, cs using macPairs.induct with
  | case1 acc a b =>
    rw [macPairs] at h
    obtain ⟨byte, hpair, -⟩ := Option.map_eq_some_iff.mp h
    obtain ⟨ha, hb, -⟩ := hexPair_spec hpair
    exact ⟨1, .last ha hb⟩
  | case2 acc a b sep rest byte hpair hsep ih =>
    rw [macPairs, hpair] at h
    dsimp only at h
    rw [if_pos hsep] at h
    obtain ⟨n, hrest⟩ := ih h
    obtain ⟨ha, hb, -⟩ := hexPair_spec hpair
    exact ⟨n + 1, .more ha hb hsep hrest⟩
  | case3 acc a b sep rest byte hpair hsep =>
    rw [macPairs, hpair] at h
    dsimp only at h
    rw [if_neg hsep] at h
    exact nomatch h
  | case4 acc a b sep rest hpair =>
    rw [macPairs, hpair] at h
    exact nomatch h
  | case5 acc cs hpair hmore =>
    rw [macPairs] at h
    · exact nomatch h
    · exact hpair
    · exact hmore

theorem MacGroups.length {n : Nat} {cs : List Char} (h : MacGroups n cs) :
    cs.length + 1 = 3 * n := by
  induction h with
  | last => rfl
  | more _ _ _ _ ih =>
    simp only [List.length_cons]
    omega

theorem MacGroups.ascii {n : Nat} {cs : List Char} (h : MacGroups n cs) :
    ∀ c ∈ cs, c.val ≤ 127 := by
  induction h with
  | last ha hb =>
    intro c hc
    rcases List.mem_pair.mp hc with rfl | rfl
    · exact ascii_of_isHexDigit _ ha
    · exact ascii_of_isHexDigit _ hb
  | more ha hb hsep _ ih =>
    intro c hc
    simp only [List.mem_cons] at hc
    rcases hc with rfl | rfl | rfl | hc
    · exact ascii_of_isHexDigit _ ha
    · exact ascii_of_isHexDigit _ hb
    · rcases hsep with rfl | rfl <;> decide
    · exact ih c hc

/-- Groups are read, and the number is written as they are. -/
theorem macPairs_groups {n : Nat} {cs : List Char} (hgroups : MacGroups (n + 1) cs) (hn : n ≤ 5)
    {acc : UInt64} (hacc : acc.toNat < 256 ^ (5 - n)) :
    ∃ m, macPairs acc cs = some m ∧ m.toNat / 256 ^ (n + 1) = acc.toNat ∧
      macBytes m n = cs.map canonicalChar := by
  have hbound : acc.toNat < 2 ^ 56 := by
    have hle : 256 ^ (5 - n) ≤ 256 ^ 5 := Nat.pow_le_pow_right (by decide) (Nat.sub_le 5 n)
    omega
  generalize hk : n + 1 = k at hgroups
  induction hgroups generalizing n acc with
  | @last a b ha hb =>
    obtain rfl : n = 0 := by omega
    obtain ⟨byte, hpair⟩ := exists_hexPair ha hb
    obtain ⟨-, -, hbyte, hpadded⟩ := hexPair_spec hpair
    have hm := toNat_shift_or hbound hbyte
    refine ⟨(acc <<< 8) ||| byte, by rw [macPairs, hpair, Option.map_some], by omega, ?_⟩
    rw [macBytes, hexByte_eq _ (by omega), hm, Nat.pow_zero, Nat.div_one,
      show (acc.toNat * 256 + byte.toNat) % 256 = byte.toNat by omega, hpadded]
    rfl
  | @more k a b sep rest ha hb hsep hrest ih =>
    obtain rfl : n = k := by omega
    have hlength := hrest.length
    obtain ⟨n, rfl⟩ : ∃ j, n = j + 1 := ⟨n - 1, by omega⟩
    obtain ⟨byte, hpair⟩ := exists_hexPair ha hb
    obtain ⟨-, -, hbyte, hpadded⟩ := hexPair_spec hpair
    have hacc' := toNat_shift_or hbound hbyte
    -- one byte more has been read, and one less is to come
    have hpow : 256 ^ (5 - n) = 256 ^ (5 - (n + 1)) * 256 := by
      rw [← Nat.pow_succ]
      congr 1
      omega
    have hle : 256 ^ (5 - (n + 1)) ≤ 256 ^ 4 := Nat.pow_le_pow_right (by decide) (by omega)
    have hlow : ((acc <<< 8) ||| byte).toNat < 256 ^ (5 - n) := by omega
    obtain ⟨m, hread, hhigh, hwritten⟩ := ih (by omega) hlow (by omega) rfl
    refine ⟨m, ?_, ?_, ?_⟩
    · rw [macPairs, hpair]
      dsimp only
      rw [if_pos hsep, hread]
    · rw [Nat.pow_succ, ← Nat.div_div_eq_div_mul, hhigh]
      omega
    · rw [macBytes, hexByte_eq _ (by omega), hhigh, hacc', hwritten,
        show (acc.toNat * 256 + byte.toNat) % 256 = byte.toNat by omega, hpadded]
      have hcolon : canonicalChar sep = ':' := by rcases hsep with rfl | rfl <;> decide
      rw [List.map_cons, List.map_cons, List.map_cons, hcolon]
      rfl

/-! ## Whole addresses -/

theorem utf8ByteSize_of_ascii {text : String} (h : ∀ c ∈ text.toList, c.val ≤ 127) :
    text.utf8ByteSize = text.toList.length := by
  have hlist : ∀ cs : List Char, (∀ c ∈ cs, c.val ≤ 127) → cs.utf8Encode.size = cs.length := by
    intro cs hcs
    induction cs with
    | nil => rfl
    | cons c cs ih =>
      rw [List.utf8Encode_cons, ByteArray.size_append, List.utf8Encode_singleton,
        List.size_toByteArray, String.length_utf8EncodeChar,
        Char.utf8Size_eq_one_iff.mpr (hcs c List.mem_cons_self),
        ih fun c' hc' => hcs c' (List.mem_cons_of_mem c hc'), List.length_cons, Nat.add_comm]
  rw [← hlist _ h, ← String.toByteArray_ofList, String.ofList_toList]
  rfl

/-- The addresses are the texts of six groups. -/
theorem tryMacToUint64_isSome_iff (mac : String) :
    (tryMacToUint64 mac).isSome = true ↔ MacGroups 6 mac.toList := by
  rw [tryMacToUint64]
  constructor
  · intro h
    split at h
    · exact nomatch h
    · next hsize =>
      obtain ⟨m, hm⟩ := Option.isSome_iff_exists.mp h
      obtain ⟨n, hgroups⟩ := exists_groups hm
      have hlength := hgroups.length
      rw [utf8ByteSize_of_ascii hgroups.ascii] at hsize
      obtain rfl : n = 6 := by omega
      exact hgroups
  · intro h
    have hlength := h.length
    obtain ⟨m, hm, -⟩ := macPairs_groups h le_rfl toNat_zero_lt
    rw [utf8ByteSize_of_ascii h.ascii, if_neg (by omega), hm]
    rfl

/-- A number of 48 bits is read back from its text. The texts that are read are those of six
    groups, and the number that was read is written in the spelling it was read in, in lower case
    and with `:`. -/
theorem mac_round_trip :
    (∀ m : UInt64, m.toNat < 2 ^ 48 → tryMacToUint64 (macToString m) = some m) ∧
      (∀ mac, (tryMacToUint64 mac).isSome = true ↔ MacGroups 6 mac.toList) ∧
      ∀ mac m, tryMacToUint64 mac = some m → macToString m = canonicalMac mac := by
  have hwritten : ∀ mac m, tryMacToUint64 mac = some m → macToString m = canonicalMac mac := by
    intro mac m hm
    have hgroups := (tryMacToUint64_isSome_iff mac).mp (by rw [hm]; rfl)
    obtain ⟨m', hm', -, hbytes⟩ := macPairs_groups hgroups le_rfl toNat_zero_lt
    rw [tryMacToUint64] at hm
    split at hm
    · exact nomatch hm
    · rw [hm', Option.some.injEq] at hm
      rw [macToString, canonicalMac, ← hm, hbytes]
  refine ⟨fun m hm => ?_, tryMacToUint64_isSome_iff, hwritten⟩
  -- nothing is above the highest byte of a number of 48 bits
  have hread : macPairs 0 (macBytes m 5) = some m := by
    apply macPairs_macBytes m le_rfl
    rw [UInt64.toNat_zero, Nat.div_eq_of_lt (by omega)]
  obtain ⟨n, hgroups⟩ := exists_groups hread
  have hsize : (macToString m).utf8ByteSize = 17 := by
    rw [macToString, utf8ByteSize_of_ascii (by rw [String.toList_ofList]; exact hgroups.ascii),
      String.toList_ofList, length_macBytes m le_rfl]
  rw [tryMacToUint64, if_neg (by omega), macToString, String.toList_ofList, hread]

/-- An address in upper case with `-` is written in lower case with `:`. -/
theorem upperCase_mac_written :
    tryMacToUint64 "00-1A-2B-3C-4D-5E" = some 0x001A2B3C4D5E ∧
      macToString 0x001A2B3C4D5E = canonicalMac "00-1A-2B-3C-4D-5E" ∧
      tryMacToUint64 (macToString 0x001A2B3C4D5E) = some 0x001A2B3C4D5E := by
  have hread : tryMacToUint64 "00-1A-2B-3C-4D-5E" = some 0x001A2B3C4D5E := by decide
  exact ⟨hread, mac_round_trip.2.2 _ _ hread, mac_round_trip.1 _ (by decide)⟩

end Ndtwin.Kernel.Utils

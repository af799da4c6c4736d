import Ndtwin.ForStd.Decimal
import Ndtwin.ForStd.Hex
import Ndtwin.ForStd.Python

/-!
# Text of a Python program

How a Python program writes numbers and text as bytes: `str(i)`, `bs.hex()` and the UTF-8
encoding. Each of them is read back by its counterpart, and the decoder raises on everything that
the encoder does not write.

## Key results

- `decodeUtf8_eq_ok_iff`: the bytes that decode are those that were encoded
- `fromHex_hexText`: `bytes.fromhex` reads back `hex()`
- `toInt_strInt`: `int(..)` reads back `str(..)`
-/

namespace Python

/-- `s.encode("utf-8")` -/
def encodeUtf8 (cs : List Char) : List UInt8 := cs.flatMap String.utf8EncodeChar

/-- `bs.decode("utf-8")` -/
def decodeUtf8 (bs : List UInt8) : Except Error (List Char) :=
  match bs.toByteArray.utf8Decode? with
  | some cs => .ok cs.toList
  -- `UnicodeDecodeError` is a `ValueError`
  | none => .error .valueError

/-- `bs.hex()` -/
def hexText (bs : List UInt8) : List Char := bs.flatMap fun b => Hex.padded 2 b.toNat

/-- `str(i)`, which prints at most 4300 digits. -/
def strInt (i : Int) : Except Error (List Char) :=
  let digits := Nat.toDigits 10 i.natAbs
  if digits.length > 4300 then .error .valueError
  else .ok (if i < 0 then '-' :: digits else digits)

/-- `l[i]` -/
def item {α : Type} (l : List α) (i : Nat) : Except Error α :=
  match l[i]? with
  | some a => .ok a
  | none => .error .indexError

/-! ## UTF-8 -/

theorem decodeUtf8_encodeUtf8 (cs : List Char) : decodeUtf8 (encodeUtf8 cs) = .ok cs := by
  have hdecode : (encodeUtf8 cs).toByteArray.utf8Decode? = some cs.toArray :=
    List.utf8Decode?_utf8Encode
  rw [decodeUtf8, hdecode]

/-- What decodes was encoded: the decoder takes no other form of a character. -/
theorem decodeUtf8_eq_ok_iff {bs : List UInt8} {cs : List Char} :
    decodeUtf8 bs = .ok cs ↔ bs = encodeUtf8 cs := by
  constructor
  · intro h
    unfold decodeUtf8 at h
    split at h
    · next decoded hdecoded =>
      obtain rfl := Except.ok.inj h
      -- encoding what was decoded gives the bytes back
      have hsome : bs.toByteArray.utf8Decode?.isSome := by rw [hdecoded, Option.isSome_some]
      have hbytes := ByteArray.utf8Encode_get_utf8Decode? (h := hsome)
      simp only [hdecoded, Option.get_some] at hbytes
      have hlist := congrArg (fun b => b.data.toList) hbytes
      simpa [List.utf8Encode, encodeUtf8] using hlist.symm
    · exact nomatch h
  · rintro rfl
    exact decodeUtf8_encodeUtf8 cs

/-! ## Hexadecimal -/

theorem digit_digitChar : ∀ d < 16, digit 16 d.digitChar = some d := by decide

theorem isAsciiSpace_digitChar : ∀ d < 16, isAsciiSpace d.digitChar = false := by decide

theorem fromHexChars_hexText (bs : List UInt8) : fromHexChars (hexText bs) = some bs := by
  induction bs with
  | nil => rfl
  | cons b bs ih =>
    have hb := b.toNat_lt
    have hhigh : b.toNat / 16 < 16 := by omega
    have hlow : b.toNat % 16 < 16 := Nat.mod_lt _ (by decide)
    show fromHexChars (Hex.padded 2 b.toNat ++ hexText bs) = some (b :: bs)
    rw [Hex.padded_two b.toNat hb]
    show fromHexChars ((b.toNat / 16).digitChar :: (b.toNat % 16).digitChar :: hexText bs) = _
    rw [fromHexChars, isAsciiSpace_digitChar _ hhigh, digit_digitChar _ hhigh,
      digit_digitChar _ hlow, ih]
    show some (UInt8.ofNat (b.toNat / 16 * 16 + b.toNat % 16) :: bs) = some (b :: bs)
    rw [Nat.div_add_mod' b.toNat 16, UInt8.ofNat_toNat]

/-- `bytes.fromhex` reads back what `hex()` printed. -/
theorem fromHex_hexText (bs : List UInt8) : fromHex (hexText bs) = .ok bs := by
  rw [fromHex, fromHexChars_hexText]

/-- Bytes of one text are the same. -/
theorem hexText_injective : Function.Injective hexText := by
  intro bs bs' h
  have hbs := fromHex_hexText bs
  rw [h, fromHex_hexText] at hbs
  exact (Except.ok.inj hbs).symm

/-! ## Decimal -/

/-- A decimal digit is no space, no sign and no underscore, and ASCII already. -/
theorem digitChar_plain : ∀ d < 10, isAsciiSpace d.digitChar = false ∧ d.digitChar ≠ '-' ∧
    d.digitChar ≠ '+' ∧ d.digitChar ≠ '_' ∧ asciiChar d.digitChar = d.digitChar := by decide

theorem digit_ten_digitChar : ∀ d < 10, digit 10 d.digitChar = some d := by decide

theorem parseDigits_digitChar {d : Nat} (hd : d < 10) (acc : Nat) (afterDigit : Bool)
    (cs : List Char) :
    parseDigits 10 acc afterDigit (d.digitChar :: cs) = parseDigits 10 (acc * 10 + d) true cs := by
  rw [parseDigits, if_neg (digitChar_plain d hd).2.2.2.1, digit_ten_digitChar d hd,
    Option.bind_some]

/-- The digits of a number are read as that number, whatever follows. -/
theorem parseDigits_toDigits (n : Nat) (cs : List Char) :
    parseDigits 10 0 false (Nat.toDigits 10 n ++ cs) = parseDigits 10 n true cs := by
  -- by induction on the number: all digits but the last are those of a tenth of it
  induction n using Nat.strong_induction_on generalizing cs with
  | h n ih =>
    rw [Nat.toDigits_eq_if (by decide)]
    split
    · next hn =>
      show parseDigits 10 0 false (n.digitChar :: cs) = _
      rw [parseDigits_digitChar hn, Nat.zero_mul, Nat.zero_add]
    · next hn =>
      rw [List.append_assoc, ih (n / 10) (by omega)]
      show parseDigits 10 (n / 10) true ((n % 10).digitChar :: cs) = _
      rw [parseDigits_digitChar (Nat.mod_lt n (by decide)), Nat.div_add_mod' n 10]

theorem parseUnsigned_toDigits {n : Nat} (h : (Nat.toDigits 10 n).length ≤ 4300) :
    parseUnsigned 10 (Nat.toDigits 10 n) = some n := by
  -- the limit counts digits, of which there are no more than characters
  have hcount : ¬ ((Nat.toDigits 10 n).filter (· ≠ '_')).length > 4300 :=
    Nat.not_lt.mpr ((List.length_filter_le _ _).trans h)
  have hdigits := parseDigits_toDigits n []
  rw [List.append_nil] at hdigits
  unfold parseUnsigned
  simp only [hcount, if_false, hdigits]
  rfl

/-- A text without a character to remove. -/
theorem trim_of_forall {p : Char → Bool} {cs : List Char} (h : ∀ c ∈ cs, p c = false) :
    trim p cs = cs := by
  have hkeep : ∀ l : List Char, (∀ c ∈ l, p c = false) → l.dropWhile p = l := by
    intro l hl
    cases l with
    | nil => rfl
    | cons c l => exact List.dropWhile_cons_of_neg (by simp [hl c List.mem_cons_self])
  have hreverse : ∀ c ∈ cs.reverse, p c = false := fun c hc => h c (List.mem_reverse.mp hc)
  rw [trim, hkeep cs h, hkeep cs.reverse hreverse, List.reverse_reverse]

/-- The characters that `str(i)` prints. -/
theorem mem_strInt {i : Int} {cs : List Char} (h : strInt i = .ok cs) {c : Char} (hc : c ∈ cs) :
    c = '-' ∨ ∃ d < 10, c = d.digitChar := by
  unfold strInt at h
  dsimp only at h
  split at h
  · exact nomatch h
  · obtain rfl := Except.ok.inj h
    split at hc
    · rcases List.mem_cons.mp hc with hsign | hdigit
      · exact Or.inl hsign
      · exact Or.inr (Decimal.exists_of_mem_toDigits hdigit)
    · exact Or.inr (Decimal.exists_of_mem_toDigits hc)

/-- The text of a number starts with a digit, so without a sign. -/
theorem toDigits_no_sign (n : Nat) (cs : List Char) :
    Nat.toDigits 10 n ≠ '-' :: cs ∧ Nat.toDigits 10 n ≠ '+' :: cs := by
  have hhead : ∀ c, Nat.toDigits 10 n = c :: cs → c ≠ '-' ∧ c ≠ '+' := by
    intro c htext
    have hc : c ∈ Nat.toDigits 10 n := htext ▸ List.mem_cons_self
    obtain ⟨d, hd, rfl⟩ := Decimal.exists_of_mem_toDigits hc
    exact ⟨(digitChar_plain d hd).2.1, (digitChar_plain d hd).2.2.1⟩
  exact ⟨fun h => (hhead _ h).1 rfl, fun h => (hhead _ h).2 rfl⟩

/-- `int(..)` reads back what `str(..)` printed. -/
theorem toInt_strInt {i : Int} {cs : List Char} (h : strInt i = .ok cs) :
    toInt (.str (String.ofList cs)) = .ok i := by
  -- nothing is removed, and nothing is outside ASCII
  have hplain : ∀ c ∈ cs, isAsciiSpace c = false ∧ asciiChar c = c := by
    intro c hc
    rcases mem_strInt h hc with rfl | ⟨d, hd, rfl⟩
    · decide
    · have hdigit := digitChar_plain d hd
      exact ⟨hdigit.1, hdigit.2.2.2.2⟩
  have hascii : cs.map asciiChar = cs := by
    calc cs.map asciiChar
        = cs.map id := List.map_congr_left fun c hc => (hplain c hc).2
      _ = cs := List.map_id cs
  have htrim : trim isAsciiSpace ((String.ofList cs).toList.map asciiChar) = cs := by
    rw [String.toList_ofList, hascii, trim_of_forall fun c hc => (hplain c hc).1]
  have hparse : parseInt 10 (String.ofList cs) = some i := by
    unfold parseInt
    rw [htrim]
    unfold strInt at h
    dsimp only at h
    split at h
    · exact nomatch h
    · next hlength =>
      have hread := parseUnsigned_toDigits (Nat.not_lt.mp hlength)
      obtain rfl := Except.ok.inj h
      split_ifs with hneg
      · -- a sign in front of the digits of the absolute value
        have habs : -(i.natAbs : Int) = i := by omega
        simp only [hread]
        exact congrArg some habs
      · split
        · next htext => exact absurd htext (toDigits_no_sign _ _).1
        · next htext => exact absurd htext (toDigits_no_sign _ _).2
        · rw [hread]
          exact congrArg some (Int.natAbs_of_nonneg (Int.not_lt.mp hneg))
  rw [toInt, hparse]

/-- A number that is not too long is printed. -/
theorem exists_strInt {n k : Nat} (hk : k ≤ 4300) (hpos : 0 < k) (h : n < 10 ^ k) :
    ∃ cs, strInt n = .ok cs := by
  have hlength : (Nat.toDigits 10 n).length ≤ k :=
    (Nat.length_toDigits_le_iff (by decide) hpos).mpr h
  unfold strInt
  dsimp only
  rw [Int.natAbs_natCast, if_neg (by omega)]
  exact ⟨_, rfl⟩

end Python

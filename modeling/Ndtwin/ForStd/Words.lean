import Mathlib.Algebra.Order.Ring.Int
import Mathlib.Data.List.Basic

/-!
# Byte buffers as 32-bit words

A buffer read through a `const uint32_t*` on a little-endian machine, and the byte swap
`ntohl`. A word is built from its bytes by arithmetic, so that `omega` can take it apart.
-/

namespace Words

/-- The word whose bytes are stored in this order, least significant first. -/
def leWord (b₀ b₁ b₂ b₃ : UInt8) : UInt32 :=
  UInt32.ofNat (b₀.toNat + b₁.toNat * 2 ^ 8 + b₂.toNat * 2 ^ 16 + b₃.toNat * 2 ^ 24)

/-- The bytes of a word as they are stored. -/
def leBytes (w : UInt32) : List UInt8 :=
  [UInt8.ofNat w.toNat, UInt8.ofNat (w.toNat / 2 ^ 8), UInt8.ofNat (w.toNat / 2 ^ 16),
    UInt8.ofNat (w.toNat / 2 ^ 24)]

/-- The whole words of a buffer. -/
def toWords : List UInt8 → List UInt32
  | b₀ :: b₁ :: b₂ :: b₃ :: bs => leWord b₀ b₁ b₂ b₃ :: toWords bs
  | _ => []

/-- `ntohl` (and `htonl`) on a little-endian machine: the bytes in the opposite order. -/
def ntohl (w : UInt32) : UInt32 :=
  leWord (UInt8.ofNat (w.toNat / 2 ^ 24)) (UInt8.ofNat (w.toNat / 2 ^ 16))
    (UInt8.ofNat (w.toNat / 2 ^ 8)) (UInt8.ofNat w.toNat)

theorem toNat_leWord (b₀ b₁ b₂ b₃ : UInt8) : (leWord b₀ b₁ b₂ b₃).toNat =
    b₀.toNat + b₁.toNat * 2 ^ 8 + b₂.toNat * 2 ^ 16 + b₃.toNat * 2 ^ 24 := by
  have h₀ := b₀.toNat_lt
  have h₁ := b₁.toNat_lt
  have h₂ := b₂.toNat_lt
  have h₃ := b₃.toNat_lt
  rw [leWord, UInt32.toNat_ofNat']
  omega

theorem toNat_byte (n : Nat) : (UInt8.ofNat n).toNat = n % 2 ^ 8 := UInt8.toNat_ofNat'

/-- The stored bytes of a word that was built from bytes. -/
theorem leBytes_leWord (b₀ b₁ b₂ b₃ : UInt8) : leBytes (leWord b₀ b₁ b₂ b₃) = [b₀, b₁, b₂, b₃] := by
  have h₀ := b₀.toNat_lt
  have h₁ := b₁.toNat_lt
  have h₂ := b₂.toNat_lt
  have h₃ := b₃.toNat_lt
  simp only [leBytes, List.cons.injEq, and_true, ← UInt8.toNat_inj, toNat_byte, toNat_leWord]
  omega

/-- Storing a word and reading it back. -/
theorem leWord_leBytes (w : UInt32) :
    leWord (UInt8.ofNat w.toNat) (UInt8.ofNat (w.toNat / 2 ^ 8)) (UInt8.ofNat (w.toNat / 2 ^ 16))
      (UInt8.ofNat (w.toNat / 2 ^ 24)) = w := by
  have hw := w.toNat_lt
  rw [← UInt32.toNat_inj]
  simp only [toNat_leWord, toNat_byte]
  omega

/-- The byte swap of a word that was built from bytes. -/
theorem ntohl_leWord (b₀ b₁ b₂ b₃ : UInt8) : ntohl (leWord b₀ b₁ b₂ b₃) = leWord b₃ b₂ b₁ b₀ := by
  have hbytes := leBytes_leWord b₀ b₁ b₂ b₃
  simp only [leBytes, List.cons.injEq, and_true] at hbytes
  obtain ⟨h₀, h₁, h₂, h₃⟩ := hbytes
  rw [ntohl, h₀, h₁, h₂, h₃]

@[simp] theorem ntohl_ntohl (w : UInt32) : ntohl (ntohl w) = w := by
  have hinner : ntohl w = leWord (UInt8.ofNat (w.toNat / 2 ^ 24)) (UInt8.ofNat (w.toNat / 2 ^ 16))
      (UInt8.ofNat (w.toNat / 2 ^ 8)) (UInt8.ofNat w.toNat) := rfl
  rw [hinner, ntohl_leWord, leWord_leBytes]

@[simp] theorem toWords_flatMap_leBytes (ws : List UInt32) : toWords (ws.flatMap leBytes) = ws := by
  induction ws with
  | nil => rfl
  | cons w ws ih =>
    rw [List.flatMap_cons]
    show leWord _ _ _ _ :: toWords (ws.flatMap leBytes) = w :: ws
    rw [ih, leWord_leBytes]

@[simp] theorem length_flatMap_leBytes (ws : List UInt32) :
    (ws.flatMap leBytes).length = 4 * ws.length := by
  induction ws with
  | nil => rfl
  | cons w ws ih =>
    rw [List.flatMap_cons, List.length_append, ih, List.length_cons]
    show 4 + 4 * ws.length = _
    omega

/-! ## Big-endian fields -/

/-- The word whose bytes are sent in this order, most significant first. -/
def beWord (b₀ b₁ b₂ b₃ : UInt8) : UInt32 := leWord b₃ b₂ b₁ b₀

theorem toNat_beWord (b₀ b₁ b₂ b₃ : UInt8) : (beWord b₀ b₁ b₂ b₃).toNat =
    b₃.toNat + b₂.toNat * 2 ^ 8 + b₁.toNat * 2 ^ 16 + b₀.toNat * 2 ^ 24 :=
  toNat_leWord b₃ b₂ b₁ b₀

/-- The 16-bit field whose bytes are sent in this order. -/
def be16 (high low : UInt8) : UInt16 := UInt16.ofNat (high.toNat * 2 ^ 8 + low.toNat)

theorem toNat_be16 (high low : UInt8) :
    (be16 high low).toNat = high.toNat * 2 ^ 8 + low.toNat := by
  have hhigh := high.toNat_lt
  have hlow := low.toNat_lt
  rw [be16, UInt16.toNat_ofNat']
  omega

/-- The word of a buffer that holds four given bytes. -/
theorem toWords_getElem? {bs : List UInt8} {k : Nat} (h : 4 * k + 3 < bs.length) :
    (toWords bs)[k]? = some (leWord (bs[4 * k]?.getD 0) (bs[4 * k + 1]?.getD 0)
      (bs[4 * k + 2]?.getD 0) (bs[4 * k + 3]?.getD 0)) := by
  induction k generalizing bs with
  | zero =>
    match bs, h with
    | b₀ :: b₁ :: b₂ :: b₃ :: bs, _ => rfl
  | succ k ih =>
    match bs, h with
    | b₀ :: b₁ :: b₂ :: b₃ :: bs, h =>
      have htail := @ih bs (by simp only [List.length_cons] at h; omega)
      rw [toWords, List.getElem?_cons_succ, htail]
      rfl

theorem length_toWords {bs : List UInt8} (h : bs.length % 4 = 0) :
    4 * (toWords bs).length = bs.length := by
  match bs, h with
  | [], _ => rfl
  | [_], h => exact nomatch h
  | [_, _], h => exact nomatch h
  | [_, _, _], h => exact nomatch h
  | b₀ :: b₁ :: b₂ :: b₃ :: bs, h =>
    have htail := @length_toWords bs (by simp only [List.length_cons] at h; omega)
    simp only [toWords, List.length_cons]
    omega

/-- An aligned buffer is stored again as it was read. -/
theorem flatMap_leBytes_toWords {bs : List UInt8} (h : bs.length % 4 = 0) :
    (toWords bs).flatMap leBytes = bs := by
  match bs, h with
  | [], _ => rfl
  | [_], h => exact nomatch h
  | [_, _], h => exact nomatch h
  | [_, _, _], h => exact nomatch h
  | b₀ :: b₁ :: b₂ :: b₃ :: bs, h =>
    have htail := @flatMap_leBytes_toWords bs (by simp only [List.length_cons] at h; omega)
    rw [toWords, List.flatMap_cons, leBytes_leWord, htail]
    rfl

/-! ### Parts of a word -/

theorem toNat_shiftRight_and (w i n : UInt32) (m : Nat) (hn : n.toNat = 2 ^ m - 1)
    (hi : i.toNat < 32) : ((w >>> i) &&& n).toNat = w.toNat / 2 ^ i.toNat % 2 ^ m := by
  rw [UInt32.toNat_and, UInt32.toNat_shiftRight, hn, Nat.and_two_pow_sub_one_eq_mod,
    Nat.mod_eq_of_lt hi, Nat.shiftRight_eq_div_pow]

theorem toNat_and_mask (w n : UInt32) (m : Nat) (hn : n.toNat = 2 ^ m - 1) :
    (w &&& n).toNat = w.toNat % 2 ^ m := by
  rw [UInt32.toNat_and, hn, Nat.and_two_pow_sub_one_eq_mod]

section Parts

variable (b₀ b₁ b₂ b₃ : UInt8)

theorem toNat_high16 :
    ((beWord b₀ b₁ b₂ b₃ >>> 16) &&& 0xFFFF).toNat = b₀.toNat * 2 ^ 8 + b₁.toNat := by
  have h₀ := b₀.toNat_lt
  have h₁ := b₁.toNat_lt
  have h₂ := b₂.toNat_lt
  have h₃ := b₃.toNat_lt
  rw [toNat_shiftRight_and _ 16 0xFFFF 16 rfl (by decide), toNat_beWord]
  show _ / 2 ^ 16 % 2 ^ 16 = _
  omega

theorem toNat_low16 : (beWord b₀ b₁ b₂ b₃ &&& 0xFFFF).toNat = b₂.toNat * 2 ^ 8 + b₃.toNat := by
  have h₂ := b₂.toNat_lt
  have h₃ := b₃.toNat_lt
  rw [toNat_and_mask _ 0xFFFF 16 rfl, toNat_beWord]
  omega

theorem toNat_byte0 : ((beWord b₀ b₁ b₂ b₃ >>> 24) &&& 0xFF).toNat = b₀.toNat := by
  have h₀ := b₀.toNat_lt
  have h₁ := b₁.toNat_lt
  have h₂ := b₂.toNat_lt
  have h₃ := b₃.toNat_lt
  rw [toNat_shiftRight_and _ 24 0xFF 8 rfl (by decide), toNat_beWord]
  show _ / 2 ^ 24 % 2 ^ 8 = _
  omega

theorem toNat_byte1 : ((beWord b₀ b₁ b₂ b₃ >>> 16) &&& 0xFF).toNat = b₁.toNat := by
  have h₁ := b₁.toNat_lt
  have h₂ := b₂.toNat_lt
  have h₃ := b₃.toNat_lt
  rw [toNat_shiftRight_and _ 16 0xFF 8 rfl (by decide), toNat_beWord]
  show _ / 2 ^ 16 % 2 ^ 8 = _
  omega

theorem toNat_byte2 : ((beWord b₀ b₁ b₂ b₃ >>> 8) &&& 0xFF).toNat = b₂.toNat := by
  have h₂ := b₂.toNat_lt
  have h₃ := b₃.toNat_lt
  rw [toNat_shiftRight_and _ 8 0xFF 8 rfl (by decide), toNat_beWord]
  show _ / 2 ^ 8 % 2 ^ 8 = _
  omega

theorem toNat_byte3 : (beWord b₀ b₁ b₂ b₃ &&& 0xFF).toNat = b₃.toNat := by
  have h₃ := b₃.toNat_lt
  rw [toNat_and_mask _ 0xFF 8 rfl, toNat_beWord]
  omega

/-! ### Narrower fields -/

theorem toUInt16_high16 : ((beWord b₀ b₁ b₂ b₃ >>> 16) &&& 0xFFFF).toUInt16 = be16 b₀ b₁ := by
  have h₀ := b₀.toNat_lt
  have h₁ := b₁.toNat_lt
  rw [← UInt16.toNat_inj, UInt32.toNat_toUInt16, toNat_high16, toNat_be16]
  omega

theorem toUInt16_low16 : (beWord b₀ b₁ b₂ b₃ &&& 0xFFFF).toUInt16 = be16 b₂ b₃ := by
  have h₂ := b₂.toNat_lt
  have h₃ := b₃.toNat_lt
  rw [← UInt16.toNat_inj, UInt32.toNat_toUInt16, toNat_low16, toNat_be16]
  omega

theorem toUInt16_byte2 : ((beWord b₀ b₁ b₂ b₃ >>> 8) &&& 0xFF).toUInt16 = be16 0 b₂ := by
  have h₂ := b₂.toNat_lt
  rw [← UInt16.toNat_inj, UInt32.toNat_toUInt16, toNat_byte2, toNat_be16, UInt8.toNat_zero]
  omega

theorem toUInt16_byte3 : (beWord b₀ b₁ b₂ b₃ &&& 0xFF).toUInt16 = be16 0 b₃ := by
  have h₃ := b₃.toNat_lt
  rw [← UInt16.toNat_inj, UInt32.toNat_toUInt16, toNat_byte3, toNat_be16, UInt8.toNat_zero]
  omega

theorem toUInt8_byte3 : (beWord b₀ b₁ b₂ b₃ &&& 0xFF).toUInt8 = b₃ := by
  have h₃ := b₃.toNat_lt
  rw [← UInt8.toNat_inj, UInt32.toNat_toUInt8, toNat_byte3]
  omega

/-- A 16-bit field compared with a constant given by its bytes. -/
theorem high16_eq_iff (c : UInt32) (c₀ c₁ : UInt8) (hc : c.toNat = c₀.toNat * 2 ^ 8 + c₁.toNat) :
    (beWord b₀ b₁ b₂ b₃ >>> 16) &&& 0xFFFF = c ↔ b₀ = c₀ ∧ b₁ = c₁ := by
  have h₁ := b₁.toNat_lt
  have hc₁ := c₁.toNat_lt
  rw [← UInt32.toNat_inj, toNat_high16, hc, ← UInt8.toNat_inj, ← UInt8.toNat_inj]
  omega

end Parts

/-- Four bytes put together by shifts. -/
theorem toNat_shifted_or {o₁ o₂ o₃ o₄ : UInt32} (h₁ : o₁.toNat < 2 ^ 8) (h₂ : o₂.toNat < 2 ^ 8)
    (h₃ : o₃.toNat < 2 ^ 8) (h₄ : o₄.toNat < 2 ^ 8) :
    ((o₁ <<< 24) ||| (o₂ <<< 16) ||| (o₃ <<< 8) ||| o₄).toNat =
      o₄.toNat + o₃.toNat * 2 ^ 8 + o₂.toNat * 2 ^ 16 + o₁.toNat * 2 ^ 24 := by
  have hshift : ∀ (o i : UInt32) (k : Nat), i.toNat = k → o.toNat < 2 ^ 8 → k ≤ 24 →
      (o <<< i).toNat = o.toNat <<< k := by
    intro o i k hi ho hk
    rw [UInt32.toNat_shiftLeft, hi, Nat.mod_eq_of_lt (show k < 32 by omega),
      Nat.mod_eq_of_lt]
    rw [Nat.shiftLeft_eq]
    calc o.toNat * 2 ^ k < 2 ^ 8 * 2 ^ k := Nat.mul_lt_mul_of_pos_right ho (Nat.two_pow_pos k)
      _ ≤ 2 ^ 8 * 2 ^ 24 := Nat.mul_le_mul_left _ (Nat.pow_le_pow_right (by decide) hk)
      _ = 2 ^ 32 := rfl
  rw [UInt32.or_assoc, UInt32.or_assoc, UInt32.toNat_or, UInt32.toNat_or, UInt32.toNat_or,
    hshift o₁ 24 24 rfl h₁ (by decide), hshift o₂ 16 16 rfl h₂ (by decide),
    hshift o₃ 8 8 rfl h₃ (by decide)]
  -- from the right, each byte is put above what is already there
  have hs₃ : o₃.toNat <<< 8 = o₃.toNat * 2 ^ 8 := Nat.shiftLeft_eq _ _
  have hs₂ : o₂.toNat <<< 16 = o₂.toNat * 2 ^ 16 := Nat.shiftLeft_eq _ _
  have hs₁ : o₁.toNat <<< 24 = o₁.toNat * 2 ^ 24 := Nat.shiftLeft_eq _ _
  rw [← Nat.shiftLeft_add_eq_or_of_lt h₄,
    ← Nat.shiftLeft_add_eq_or_of_lt (show o₃.toNat <<< 8 + o₄.toNat < 2 ^ 16 by omega),
    ← Nat.shiftLeft_add_eq_or_of_lt
      (show o₂.toNat <<< 16 + (o₃.toNat <<< 8 + o₄.toNat) < 2 ^ 24 by omega)]
  omega

end Words

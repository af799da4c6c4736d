import Ndtwin.Spec.ClassifierInvariant

/-!
# Packed Match Correctness

A mask that is built from whole fields selects ranges of bytes. Two packed keys agree under it
exactly when they agree on each range, and a range of a packed key is one field of it.

## Key results

- `KeyBytes.bitAnd_eq_iff`: agreement under a mask, range by range
- `u32Be_inj`, `u16Be_inj`: the bytes of a field determine it
-/

namespace Ndtwin.Kernel

/-! ## Ranges of bytes -/

/-- A range of byte positions, which a mask may select. -/
structure ByteRange where
  selected : Bool
  off : Nat
  width : Nat

namespace ByteRange

/-- A position of a selected range. -/
def covers (r : ByteRange) (i : Nat) : Bool :=
  r.selected && decide (r.off ≤ i) && decide (i < r.off + r.width)

theorem covers_iff {r : ByteRange} {i : Nat} :
    r.covers i = true ↔ r.selected = true ∧ r.off ≤ i ∧ i < r.off + r.width := by
  unfold covers
  rw [Bool.and_eq_true, Bool.and_eq_true, decide_eq_true_eq, decide_eq_true_eq, and_assoc]

end ByteRange

namespace KeyBytes

/-- The bytes of a range. -/
def slice (k : KeyBytes) (r : ByteRange) : List UInt8 := (k.bytes.drop r.off).take r.width

/-- The mask that also selects a range. -/
def select (mask : KeyBytes) (r : ByteRange) : KeyBytes :=
  if r.selected then mask.orAt r.off (List.replicate r.width 0xFF) else mask

/-- A mask is all ones on the ranges and zero elsewhere. -/
def Covers (mask : KeyBytes) (ranges : List ByteRange) : Prop :=
  ∀ i < kKeyBytes, mask.bytes[i]? = some (if ranges.any (·.covers i) then 0xFF else 0)

theorem zero_covers : Covers zero [] := by
  intro i hi
  show (List.replicate kKeyBytes 0)[i]? = _
  rw [List.getElem?_replicate_of_lt hi]
  rfl

theorem select_covers {mask : KeyBytes} {ranges : List ByteRange} (h : mask.Covers ranges)
    (r : ByteRange) : (mask.select r).Covers (r :: ranges) := by
  intro i hi
  rw [List.any_cons]
  unfold select
  split
  · next hsel =>
    show (mask.bytes.mapIdx _)[i]? = _
    rw [List.getElem?_mapIdx, h i hi, Option.map_some]
    by_cases hcover : r.covers i = true
    · obtain ⟨-, hoff, hend⟩ := ByteRange.covers_iff.mp hcover
      rw [if_pos hoff, List.getElem?_replicate_of_lt (by omega), hcover]
      split
      · rfl
      · rfl
    · -- outside its range the field writes no byte
      have hbyte : (if r.off ≤ i then ((List.replicate r.width (0xFF : UInt8))[i - r.off]?).getD 0
          else 0) = 0 := by
        split
        · next hoff =>
          have hout : r.width ≤ i - r.off := by
            by_contra hin
            exact hcover (ByteRange.covers_iff.mpr ⟨hsel, hoff, by omega⟩)
          rw [List.getElem?_eq_none (by rw [List.length_replicate]; exact hout)]
          rfl
        · rfl
      rw [Bool.of_not_eq_true hcover, Bool.false_or]
      split
      · next hoff =>
        rw [if_pos hoff] at hbyte
        rw [hbyte, UInt8.or_zero]
      · rfl
  · next hsel =>
    have hcover : r.covers i = false := by
      unfold ByteRange.covers
      rw [Bool.of_not_eq_true hsel]
      rfl
    rw [h i hi, hcover, Bool.false_or]

/-- A byte of a masked key. -/
theorem getElem?_bitAnd {mask : KeyBytes} {ranges : List ByteRange} (h : mask.Covers ranges)
    (k : KeyBytes) {i : Nat} (hi : i < kKeyBytes) :
    (k.bitAnd mask).bytes[i]? =
      k.bytes[i]?.map fun b => if ranges.any (·.covers i) then b else 0 := by
  show (List.zipWith _ k.bytes mask.bytes)[i]? = _
  rw [List.getElem?_zipWith', h i hi]
  have hk : i < k.bytes.length := by rw [k.length_eq]; exact hi
  rw [List.getElem?_eq_getElem hk]
  simp only [Option.map_some, Option.bind_some]
  split
  · rw [show (0xFF : UInt8) = -1 from rfl, UInt8.and_neg_one]
  · rw [UInt8.and_zero]

/-- The bytes at the positions of a range. -/
theorem slice_eq_iff {a b : KeyBytes} {r : ByteRange} :
    a.slice r = b.slice r ↔
      ∀ i, r.off ≤ i → i < r.off + r.width → a.bytes[i]? = b.bytes[i]? := by
  unfold slice
  constructor
  · intro h i hoff hend
    have hi := congrArg (·[i - r.off]?) h
    simp only [List.getElem?_take, List.getElem?_drop] at hi
    rw [if_pos (by omega), if_pos (by omega)] at hi
    rwa [Nat.add_sub_cancel' hoff] at hi
  · intro h
    apply List.ext_getElem?
    intro i
    simp only [List.getElem?_take, List.getElem?_drop]
    split
    · next hi => exact h (r.off + i) (by omega) (by omega)
    · rfl

/-- Two keys agree under a mask when they agree on the ranges that it selects. -/
theorem bitAnd_eq_iff {mask : KeyBytes} {ranges : List ByteRange} (h : mask.Covers ranges)
    (a b : KeyBytes) :
    a.bitAnd mask = b.bitAnd mask ↔ ∀ r ∈ ranges, r.selected = true → a.slice r = b.slice r := by
  have ha : a.bytes.length = kKeyBytes := a.length_eq
  have hb : b.bytes.length = kKeyBytes := b.length_eq
  constructor
  · intro heq r hr hsel
    rw [slice_eq_iff]
    intro i hoff hend
    by_cases hi : i < kKeyBytes
    · have hcovered : ranges.any (·.covers i) = true :=
        List.any_eq_true.mpr ⟨r, hr, ByteRange.covers_iff.mpr ⟨hsel, hoff, hend⟩⟩
      have hbyte := congrArg (fun k => k.bytes[i]?) heq
      simp only [getElem?_bitAnd h _ hi, hcovered, if_true] at hbyte
      simpa using hbyte
    · rw [List.getElem?_eq_none (by omega), List.getElem?_eq_none (by omega)]
  · intro hslices
    have hbytes : (a.bitAnd mask).bytes = (b.bitAnd mask).bytes := by
      apply List.ext_getElem?
      intro i
      by_cases hi : i < kKeyBytes
      · rw [getElem?_bitAnd h a hi, getElem?_bitAnd h b hi]
        split
        · next hcovered =>
          obtain ⟨r, hr, hcover⟩ := List.any_eq_true.mp hcovered
          obtain ⟨hsel, hoff, hend⟩ := ByteRange.covers_iff.mp hcover
          rw [slice_eq_iff.mp (hslices r hr hsel) i hoff hend]
        · -- a byte that no field selects is masked to zero on both sides
          rw [List.getElem?_eq_getElem (by omega), List.getElem?_eq_getElem (by omega)]
          rfl
      · rw [List.getElem?_eq_none (by rw [(a.bitAnd mask).length_eq]; omega),
          List.getElem?_eq_none (by rw [(b.bitAnd mask).length_eq]; omega)]
    cases hca : a.bitAnd mask
    cases hcb : b.bitAnd mask
    rw [hca, hcb] at hbytes
    cases hbytes
    rfl

end KeyBytes

/-! ## Fields -/

theorem u32Be_inj {a b : UInt32} : u32Be a = u32Be b ↔ a = b := by
  constructor
  · intro h
    simp only [u32Be, List.cons.injEq, ← UInt8.toNat_inj, UInt32.toNat_toUInt8,
      UInt32.toNat_shiftRight, and_true] at h
    obtain ⟨h₃, h₂, h₁, h₀⟩ := h
    have ha := a.toNat_lt
    have hb := b.toNat_lt
    rw [← UInt32.toNat_inj]
    simp [Nat.shiftRight_eq_div_pow] at h₃ h₂ h₁ h₀
    omega
  · rintro rfl
    rfl

theorem u16Be_inj {a b : UInt16} : u16Be a = u16Be b ↔ a = b := by
  constructor
  · intro h
    simp only [u16Be, List.cons.injEq, ← UInt8.toNat_inj, UInt16.toNat_toUInt8,
      UInt16.toNat_shiftRight, and_true] at h
    obtain ⟨h₁, h₀⟩ := h
    have ha := a.toNat_lt
    have hb := b.toNat_lt
    rw [← UInt16.toNat_inj]
    simp [Nat.shiftRight_eq_div_pow] at h₁ h₀
    omega
  · rintro rfl
    rfl

/-- Four bytes in network order are the number they spell. -/
theorem toNat_hostOrder {bs : List UInt8} (h : bs.length = 4) :
    (hostOrder bs).toNat = bs.foldl (fun n b => n * 256 + b.toNat) 0 := by
  match bs, h with
  | [a, b, c, d], _ =>
    have ha := a.toNat_lt
    have hb := b.toNat_lt
    have hc := c.toNat_lt
    have hd := d.toNat_lt
    simp only [hostOrder, UInt32.toNat_add, UInt32.toNat_mul, UInt8.toNat_toUInt32,
      List.foldl_cons, List.foldl_nil]
    simp
    omega

end Ndtwin.Kernel

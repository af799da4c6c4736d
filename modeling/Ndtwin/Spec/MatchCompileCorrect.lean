import Mathlib.Data.Nat.Bitwise
import Ndtwin.ForStd.Decimal
import Ndtwin.ForStd.Numeral
import Ndtwin.Spec.MatchFieldsCorrect

/-!
# Match Compilation Correctness

What the values of a match mean is defined here from how they are written: a number or a
numeral for a numeric field; for an address field a dotted quad, which may be followed by a
prefix length or by a mask. The pair of mask and value that `buildMaskAndValueFromMatch`
compiles from well-formed values matches the packets that have what is asked for.

## Key results

- `parseU64_of_spells`, `parseIpv4_of_addressText`: the parsers read the grammar
- `buildMaskAndValueFromMatch_correct`: a compiled match
-/

namespace Ndtwin.Kernel

/-! ## The grammar -/

/-- A number in a text: decimal, or hexadecimal with its prefix, with white space around it. -/
def NumberText (cs : List Char) (n : Nat) : Prop :=
  ∃ pre ds post, cs = pre ++ (ds ++ post) ∧ (∀ c ∈ pre, CText.isSpace c) ∧
    (∀ c ∈ post, CText.isSpace c) ∧ (CText.Numeral 10 ds n ∨ CText.HexNumeral ds n)

/-- A value that stands for a number. -/
def Spells : Json → Nat → Prop
  | .uint v, n => v = n
  | .int i, n => i = n
  | .str s, n => NumberText s.toList n
  | _, _ => False

/-- The number of an address. -/
def addressOf (bs : List UInt8) : Nat := bs.foldl (fun n b => n * 256 + b.toNat) 0

/-- A text for a set of addresses: one address, a network by the length of its prefix, or what
    agrees with an address under a hexadecimal or a dotted mask. -/
inductive AddressText : List Char → (Nat → Prop) → Prop
  | host (bs : List UInt8) : bs.length = 4 →
      AddressText (Decimal.dottedQuad bs) fun x => x = addressOf bs
  | network (bs : List UInt8) (ds : List Char) (len : Nat) : bs.length = 4 →
      CText.Numeral 10 ds len → len ≤ 32 →
      AddressText (Decimal.dottedQuad bs ++ '/' :: ds) fun x =>
        x / 2 ^ (32 - len) = addressOf bs / 2 ^ (32 - len)
  | hexMask (bs : List UInt8) (hs : List Char) (mask : Nat) : bs.length = 4 →
      CText.HexNumeral hs mask → mask < 2 ^ 32 →
      AddressText (Decimal.dottedQuad bs ++ '/' :: hs) fun x =>
        x &&& mask = addressOf bs &&& mask
  | dottedMask (bs ms : List UInt8) : bs.length = 4 → ms.length = 4 →
      AddressText (Decimal.dottedQuad bs ++ '/' :: Decimal.dottedQuad ms) fun x =>
        x &&& addressOf ms = addressOf bs &&& addressOf ms

namespace MatchField

/-- A value that is well formed for a field, and fits it. -/
def WellFormed (f : MatchField) (j : Json) : Prop :=
  if f.isAddress then ∃ s addresses, j = .str s ∧ AddressText s.toList addresses
  else ∃ n < 2 ^ f.bits, Spells j n

/-- The content of a packet's field is what the value asks for. -/
def Satisfies (f : MatchField) (j : Json) (x : Nat) : Prop :=
  if f.isAddress then ∃ s addresses, j = .str s ∧ AddressText s.toList addresses ∧ addresses x
  else Spells j x

end MatchField

/-- The values that a match has for the fields are well formed. -/
def WellFormedMatch (m : Json) : Prop :=
  ∀ f : MatchField, ∀ name ∈ f.spellings, ∀ j, m.field? name = some j → f.WellFormed j

/-! ## Numbers -/

theorem dropWhile_of_all_not {p : Char → Bool} {cs : List Char} (h : ∀ c ∈ cs, p c = false) :
    cs.dropWhile p = cs := by
  cases cs with
  | nil => rfl
  | cons c cs =>
    rw [List.dropWhile_cons_of_neg (by rw [h c List.mem_cons_self]; exact Bool.false_ne_true)]

/-- The white space around a word is trimmed, and nothing else. -/
theorem trim_spaced {pre ds post : List Char} (hpre : ∀ c ∈ pre, CText.isSpace c)
    (hpost : ∀ c ∈ post, CText.isSpace c) (hds : ∀ c ∈ ds, CText.isSpace c = false)
    (hne : ds ≠ []) : trim (pre ++ (ds ++ post)) = ds := by
  have hfront : (pre ++ (ds ++ post)).dropWhile CText.isSpace = ds ++ post := by
    rw [List.dropWhile_append_of_pos hpre]
    cases ds with
    | nil => exact absurd rfl hne
    | cons d ds =>
      rw [List.cons_append, List.dropWhile_cons_of_neg]
      rw [hds d List.mem_cons_self]
      exact Bool.false_ne_true
  have hback : (post.reverse ++ ds.reverse).dropWhile CText.isSpace = ds.reverse := by
    rw [List.dropWhile_append_of_pos fun c hc => hpost c (List.mem_reverse.mp hc)]
    exact dropWhile_of_all_not fun c hc => hds c (List.mem_reverse.mp hc)
  unfold trim
  rw [hfront, List.reverse_append, hback, List.reverse_reverse]

/-- The base that a text is read in, by its prefix. -/
def baseOf (cs : List Char) : Nat :=
  match cs with
  | '0' :: x :: _ :: _ => if x = 'x' ∨ x = 'X' then 16 else 10
  | _ => 10

theorem parseU64_str (s : String) :
    parseU64 (.str s) =
      match CText.stoull (baseOf (trim s.toList))
          ((trim s.toList).takeWhile (· ≠ '\x00')) with
      | .ok (v, _) => .ok v
      | .error e => .error (.conversion e) := rfl

theorem baseOf_numeral {cs : List Char} {n : Nat} (h : CText.Numeral 10 cs n) :
    baseOf cs = 10 := by
  unfold baseOf
  split
  · next x _ _ =>
    have hdigit := List.all_eq_true.mp h.all_isDigit x (by simp)
    rw [if_neg]
    rintro (rfl | rfl)
    · exact absurd hdigit (by decide)
    · exact absurd hdigit (by decide)
  · rfl

theorem baseOf_hexNumeral {cs : List Char} {n : Nat} (h : CText.HexNumeral cs n) :
    baseOf cs = 16 := by
  obtain ⟨x, ds, rfl, hx, hdigits, -⟩ := h
  cases ds with
  | nil => exact absurd rfl hdigits
  | cons d ds => exact if_pos hx

theorem parseU64_of_spells {j : Json} {n : Nat} (h : Spells j n) (hn : n < 2 ^ 64) :
    parseU64 j = .ok (UInt64.ofNat n) := by
  cases j with
  | uint v =>
    cases h
    rfl
  | int i =>
    have hi : i = n := h
    rw [hi, parseU64, UInt64.ofInt]
    congr 2
    omega
  | str s =>
    obtain ⟨pre, ds, post, hs, hpre, hpost, hnum⟩ := h
    have hne : ds ≠ [] := by
      rcases hnum with hdec | ⟨x, hs, rfl, -⟩
      · exact hdec.1
      · exact List.cons_ne_nil _ _
    -- No digit is a space or a null character, so neither the trim nor `stoull` cuts the numeral.
    have hplain : ∀ c ∈ ds, CText.isSpace c = false ∧ c ≠ '\x00' := by
      intro c hc
      rcases hnum with hdec | hhex
      · exact ⟨(hdec.plain hc).1, (hdec.plain hc).2.2.2.1⟩
      · exact ⟨(hhex.plain hc).1, (hhex.plain hc).2⟩
    have htrim : trim s.toList = ds := by
      rw [hs, trim_spaced hpre hpost (fun c hc => (hplain c hc).1) hne]
    rw [parseU64_str, htrim, CText.takeWhile_ne_nul fun c hc => (hplain c hc).2]
    rcases hnum with hdec | hhex
    · rw [baseOf_numeral hdec, CText.stoull_numeral hdec hn]
    · rw [baseOf_hexNumeral hhex, CText.stoull_hexNumeral hhex hn]
  | _ => exact h.elim

/-! ## Addresses -/

/-- The bits above a prefix agree when the numbers agree under the mask of the prefix. -/
theorem and_prefixMask_eq_iff {x a shift : Nat} (hx : x < 2 ^ 32) (ha : a < 2 ^ 32)
    (hshift : shift ≤ 32) :
    x &&& (2 ^ 32 - 1) <<< shift % 2 ^ 32 = a &&& (2 ^ 32 - 1) <<< shift % 2 ^ 32 ↔
      x / 2 ^ shift = a / 2 ^ shift := by
  have hmask : ∀ i, ((2 ^ 32 - 1) <<< shift % 2 ^ 32).testBit i =
      (decide (i < 32) && decide (shift ≤ i)) := by
    intro i
    rw [Nat.testBit_mod_two_pow, Nat.testBit_shiftLeft, Nat.testBit_two_pow_sub_one]
    by_cases hi : i < 32
    · have hlow : i - shift < 32 := by omega
      simp [hi, hlow]
    · simp [hi]
  constructor
  · intro h
    apply Nat.eq_of_testBit_eq
    intro i
    rw [Nat.testBit_div_two_pow, Nat.testBit_div_two_pow]
    by_cases hi : i + shift < 32
    · have hbit := congrArg (Nat.testBit · (i + shift)) h
      simp only [Nat.testBit_and, hmask, decide_eq_true hi, Nat.le_add_left, decide_true,
        Bool.and_true] at hbit
      exact hbit
    · -- above the width of an address both are zero
      have hpow : 2 ^ 32 ≤ 2 ^ (i + shift) := Nat.pow_le_pow_right (by decide) (by omega)
      rw [Nat.testBit_lt_two_pow (by omega), Nat.testBit_lt_two_pow (by omega)]
  · intro h
    apply Nat.eq_of_testBit_eq
    intro i
    rw [Nat.testBit_and, Nat.testBit_and, hmask]
    by_cases hi : shift ≤ i
    · have hbit := congrArg (Nat.testBit · (i - shift)) h
      simp only [Nat.testBit_div_two_pow, Nat.sub_add_cancel hi] at hbit
      rw [hbit]
    · simp [hi]

theorem addressOf_eq {bs : List UInt8} (h : bs.length = 4) :
    addressOf bs = (hostOrder bs).toNat :=
  (toNat_hostOrder h).symm

/-- A dotted quad has digits and dots only. -/
theorem dottedQuad_plain {bs : List UInt8} {c : Char} (h : c ∈ Decimal.dottedQuad bs) :
    c ≠ '/' ∧ c ≠ '\x00' := by
  rcases Decimal.mem_dottedQuad h with rfl | ⟨d, hd, rfl⟩
  · decide
  · exact ⟨(Decimal.digitChar_ne_separator d hd).2.1, (Decimal.digitChar_plain d hd).2.2.2⟩

theorem parseIpv4AddrHost_dottedQuad {bs : List UInt8} (h : bs.length = 4) :
    parseIpv4AddrHost (Decimal.dottedQuad bs) = some (hostOrder bs) := by
  unfold parseIpv4AddrHost
  rw [CText.takeWhile_ne_nul fun _ hc => (dottedQuad_plain hc).2, Decimal.inetPton4_dottedQuad h]
  rfl

theorem cutAt_of_notMem {c : Char} {cs : List Char} (h : c ∉ cs) : cutAt c cs = (cs, []) := by
  have hne : ∀ d ∈ cs, decide (d ≠ c) = true := fun d hd =>
    decide_eq_true fun heq => h (heq ▸ hd)
  unfold cutAt
  rw [List.takeWhile_eq_self_iff.mpr hne, List.dropWhile_eq_nil_iff.mpr hne]
  rfl

theorem cutAt_append {c : Char} {cs : List Char} (h : c ∉ cs) (ds : List Char) :
    cutAt c (cs ++ c :: ds) = (cs, ds) := by
  have hne : ∀ d ∈ cs, decide (d ≠ c) = true := fun d hd =>
    decide_eq_true fun heq => h (heq ▸ hd)
  unfold cutAt
  rw [List.takeWhile_append_of_pos hne, List.dropWhile_append_of_pos hne]
  simp

section

variable {bs : List UInt8} {s : String}

theorem parseIpv4_host (h : bs.length = 4) (hs : s.toList = Decimal.dottedQuad bs) :
    parseIpv4WithMaskOrPrefix (.str s) = .ok (some (hostOrder bs, 0xFFFFFFFF)) := by
  have hcut : cutAt '/' s.toList = (Decimal.dottedQuad bs, []) := by
    rw [hs, cutAt_of_notMem fun hmem => (dottedQuad_plain hmem).1 rfl]
  unfold parseIpv4WithMaskOrPrefix
  simp only [hcut, parseIpv4AddrHost_dottedQuad h]
  rfl

theorem cutAt_slash {cs : List Char} (hs : s.toList = Decimal.dottedQuad bs ++ '/' :: cs) :
    cutAt '/' s.toList = (Decimal.dottedQuad bs, cs) := by
  rw [hs, cutAt_append fun hmem => (dottedQuad_plain hmem).1 rfl]

theorem isEmpty_eq_false {cs : List Char} (h : cs ≠ []) : ¬cs.isEmpty = true := by
  rwa [List.isEmpty_iff]

theorem parseIpv4_network (h : bs.length = 4) {ds : List Char} {len : Nat}
    (hs : s.toList = Decimal.dottedQuad bs ++ '/' :: ds) (hds : CText.Numeral 10 ds len)
    (hlen : len ≤ 32) :
    ∃ mask, parseIpv4WithMaskOrPrefix (.str s) = .ok (some (hostOrder bs, mask)) ∧
      mask.toNat = (2 ^ 32 - 1) <<< (32 - len) % 2 ^ 32 := by
  unfold parseIpv4WithMaskOrPrefix
  simp only [cutAt_slash hs, parseIpv4AddrHost_dottedQuad h]
  rw [if_neg (isEmpty_eq_false hds.1), if_pos hds.all_isDigit, CText.stoi_numeral hds (by omega)]
  dsimp only
  rw [if_neg (by omega)]
  split
  · next hzero =>
    -- a shift by the whole width is not made
    have hlen : len = 0 := by omega
    subst hlen
    exact ⟨0, rfl, by decide⟩
  · next hpos =>
    refine ⟨_, rfl, ?_⟩
    have hshift : (UInt32.ofInt (32 - (len : Int))).toNat = 32 - len := by
      rw [UInt32.ofInt]
      have hcast : ((32 - (len : Int)) % (2 : Int) ^ 32).toNat = 32 - len := by omega
      rw [hcast, UInt32.toNat_ofNat']
      omega
    rw [UInt32.toNat_shiftLeft, hshift, Nat.mod_eq_of_lt (show 32 - len < 32 by omega)]
    rfl

theorem parseIpv4_hexMask (h : bs.length = 4) {hs : List Char} {mask : Nat}
    (htext : s.toList = Decimal.dottedQuad bs ++ '/' :: hs) (hhex : CText.HexNumeral hs mask)
    (hmask : mask < 2 ^ 32) :
    parseIpv4WithMaskOrPrefix (.str s) = .ok (some (hostOrder bs, UInt32.ofNat mask)) := by
  unfold parseIpv4WithMaskOrPrefix
  simp only [cutAt_slash htext, parseIpv4AddrHost_dottedQuad h]
  have hread : CText.stoull 16 (hs.takeWhile (· ≠ '\x00')) = .ok (UInt64.ofNat mask, []) := by
    rw [CText.takeWhile_ne_nul fun _ hc => (hhex.plain hc).2,
      CText.stoull_hexNumeral hhex (by omega)]
  obtain ⟨x, ds, rfl, hx, hdigits, -⟩ := hhex
  cases ds with
  | nil => exact absurd rfl hdigits
  | cons d ds =>
    have hdigit : ¬('0' :: x :: d :: ds).all CText.isDigit = true := by
      intro hall
      have hxdigit := List.all_eq_true.mp hall x (by simp)
      rcases hx with rfl | rfl
      · exact absurd hxdigit (by decide)
      · exact absurd hxdigit (by decide)
    rw [if_neg (isEmpty_eq_false (List.cons_ne_nil _ _)), if_neg hdigit]
    have hcast : (UInt64.ofNat mask).toUInt32 = UInt32.ofNat mask := by
      apply UInt32.toNat_inj.mp
      rw [UInt64.toNat_toUInt32, UInt64.toNat_ofNat', UInt32.toNat_ofNat']
      omega
    rw [hread, ← hcast]
    exact if_pos hx

theorem parseIpv4_dottedMask (h : bs.length = 4) {ms : List UInt8} (hms : ms.length = 4)
    (hs : s.toList = Decimal.dottedQuad bs ++ '/' :: Decimal.dottedQuad ms) :
    parseIpv4WithMaskOrPrefix (.str s) = .ok (some (hostOrder bs, hostOrder ms)) := by
  unfold parseIpv4WithMaskOrPrefix
  simp only [cutAt_slash hs, parseIpv4AddrHost_dottedQuad h]
  have hdot : '.' ∈ Decimal.dottedQuad ms := by
    match ms, hms with
    | [a, b, c, d], _ => simp [Decimal.dottedQuad, List.intercalate, List.intersperse]
  have hdigit : ¬(Decimal.dottedQuad ms).all CText.isDigit = true := fun hall =>
    absurd (List.all_eq_true.mp hall '.' hdot) (by decide)
  rw [if_neg (isEmpty_eq_false (List.ne_nil_of_mem hdot)), if_neg hdigit,
    parseIpv4AddrHost_dottedQuad hms]
  have hplain : ∀ c ∈ Decimal.dottedQuad ms, ¬(c = 'x' ∨ c = 'X') := by
    have hdigits : ∀ d < 10, ¬(d.digitChar = 'x' ∨ d.digitChar = 'X') := by decide
    intro c hc
    rcases Decimal.mem_dottedQuad hc with rfl | ⟨d, hd, rfl⟩
    · decide
    · exact hdigits d hd
  split
  · next x _ _ heq =>
    rw [if_neg (hplain x (by rw [heq]; simp))]
    rfl
  · rfl

end

/-- The parser reads the grammar: an address and a mask that select the addresses of the text. -/
theorem parseIpv4_of_addressText {s : String} {addresses : Nat → Prop}
    (h : AddressText s.toList addresses) :
    ∃ addr mask : UInt32, parseIpv4WithMaskOrPrefix (.str s) = .ok (some (addr, mask)) ∧
      ∀ x < 2 ^ 32, (x &&& mask.toNat = addr.toNat &&& mask.toNat ↔ addresses x) := by
  generalize hs : s.toList = cs at h
  cases h with
  | host bs hbs =>
    refine ⟨_, _, parseIpv4_host hbs hs, fun x hx => ?_⟩
    have haddr := (hostOrder bs).toNat_lt
    rw [show (0xFFFFFFFF : UInt32).toNat = 2 ^ 32 - 1 from rfl, Nat.and_two_pow_sub_one_eq_mod,
      Nat.and_two_pow_sub_one_eq_mod, Nat.mod_eq_of_lt hx, Nat.mod_eq_of_lt haddr,
      addressOf_eq hbs]
  | network bs ds len hbs hds hlen =>
    obtain ⟨mask, hparse, hmask⟩ := parseIpv4_network hbs hs hds hlen
    refine ⟨_, _, hparse, fun x hx => ?_⟩
    rw [hmask, and_prefixMask_eq_iff hx (hostOrder bs).toNat_lt (by omega), addressOf_eq hbs]
  | hexMask bs hs' mask hbs hhex hmask =>
    refine ⟨_, _, parseIpv4_hexMask hbs hs hhex hmask, fun x hx => ?_⟩
    rw [UInt32.toNat_ofNat', Nat.mod_eq_of_lt hmask, addressOf_eq hbs]
  | dottedMask bs ms hbs hms =>
    refine ⟨_, _, parseIpv4_dottedMask hbs hms hs, fun x hx => ?_⟩
    rw [addressOf_eq hbs, addressOf_eq hms]

/-! ## Fields -/

/-- A well-formed value is read, and the slot it fills selects what it asks for. -/
theorem read_of_wellFormed {f : MatchField} {j : Json} (h : f.WellFormed j) :
    ∃ n mask, f.read j = .ok (some (n, mask)) ∧
      ∀ x < 2 ^ f.bits, (x &&& mask = n &&& mask ↔ f.Satisfies j x) := by
  unfold MatchField.WellFormed at h
  unfold MatchField.read MatchField.Satisfies
  cases hf : f.isAddress with
  | true =>
    rw [hf, if_pos rfl] at h
    obtain ⟨s, addresses, rfl, htext⟩ := h
    obtain ⟨addr, mask, hparse, hiff⟩ := parseIpv4_of_addressText htext
    refine ⟨addr.toNat, mask.toNat, ?_, fun x hx => ?_⟩
    · rw [if_pos rfl, hparse]
      rfl
    · rw [bits_eq_of_isAddress hf] at hx
      rw [if_pos rfl, hiff x hx]
      constructor
      · exact fun hx' => ⟨s, addresses, rfl, htext, hx'⟩
      · -- every reading of the text selects what the parser selects
        rintro ⟨s', addresses', heq, htext', hx'⟩
        cases heq
        obtain ⟨addr', mask', hparse', hiff'⟩ := parseIpv4_of_addressText htext'
        rw [hparse] at hparse'
        cases hparse'
        rwa [← hiff x hx, hiff' x hx]
  | false =>
    rw [hf, if_neg Bool.false_ne_true] at h
    obtain ⟨n, hn, hspells⟩ := h
    have hbits : 2 ^ f.bits ≤ 2 ^ 64 := by cases f <;> decide
    have hparse := parseU64_of_spells hspells (by omega)
    have hmod : (UInt64.ofNat n).toNat = n := by
      rw [UInt64.toNat_ofNat', Nat.mod_eq_of_lt (by omega)]
    refine ⟨n, 2 ^ f.bits - 1, ?_, fun x hx => ?_⟩
    · rw [if_neg Bool.false_ne_true, hparse]
      show Except.ok (some ((UInt64.ofNat n).toNat % 2 ^ f.bits, 2 ^ f.bits - 1)) = _
      rw [hmod, Nat.mod_eq_of_lt hn]
    · rw [if_neg Bool.false_ne_true, Nat.and_two_pow_sub_one_eq_mod,
        Nat.and_two_pow_sub_one_eq_mod, Nat.mod_eq_of_lt hx, Nat.mod_eq_of_lt hn]
      constructor
      · rintro rfl
        exact hspells
      · intro hx'
        have hparse' := parseU64_of_spells hx' (by omega)
        rw [hparse] at hparse'
        have heq := congrArg UInt64.toNat (Except.ok.inj hparse')
        rw [hmod, UInt64.toNat_ofNat', Nat.mod_eq_of_lt (by omega)] at heq
        exact heq.symm

/-- A byte of a compiled match that is not zero belongs to one field, which the match has. -/
theorem existsUnique_field {m : Json} {value mask : FlowKey}
    (hslots : ∀ f, SlotOf f m (f.get value, f.get mask)) {i : Nat} (hi : i < kKeyBytes)
    (hbyte : (packKey mask).bytes[i]? ≠ some 0 ∨ (packKey value).bytes[i]? ≠ some 0) :
    ∃! f : MatchField, f.Holds i ∧ (f.used m).isSome = true := by
  rcases MatchField.holds_or_padding hi with ⟨f, hf⟩ | hpad
  · refine ⟨f, ⟨hf, ?_⟩, fun g hg => MatchField.eq_of_holds hg.1 hf⟩
    cases hused : f.used m with
    | some j => rfl
    | none =>
      -- the slot of a field that the match does not have is zero
      have hslot := hslots f
      rw [SlotOf, hused] at hslot
      have hzero := Prod.mk.inj hslot
      rcases hbyte with hne | hne
      · exact absurd (MatchField.getElem?_packKey_of_get_eq_zero hf hzero.2) hne
      · exact absurd (MatchField.getElem?_packKey_of_get_eq_zero hf hzero.1) hne
  · rcases hbyte with hne | hne
    · exact absurd (hpad mask) hne
    · exact absurd (hpad value) hne

/-- A match of well-formed values is compiled. Mask and value match the packets that have what
    every field of the match asks for, and none of their bytes belongs to two fields. -/
theorem buildMaskAndValueFromMatch_correct (m : Json) (h : WellFormedMatch m) :
    ∃ b, buildMaskAndValueFromMatch m = .ok b ∧
      (∀ k : FlowKey, (packKey k).bitAnd b.mask = (packKey b.value).bitAnd b.mask ↔
        ∀ f : MatchField, ∀ j, f.used m = some j → f.Satisfies j (f.get k)) ∧
      ∀ i < kKeyBytes,
        b.mask.bytes[i]? ≠ some 0 ∨ (packKey b.value).bytes[i]? ≠ some 0 →
          ∃! f : MatchField, f.Holds i ∧ (f.used m).isSome = true := by
  have hread : ∀ f : MatchField, ∀ name ∈ f.spellings, ∀ j, m.field? name = some j →
      ∃ r, f.read j = .ok r := by
    intro f name hname j hj
    obtain ⟨n, mask, hr, -⟩ := read_of_wellFormed (h f name hname j hj)
    exact ⟨_, hr⟩
  obtain ⟨b, hb⟩ := isOk_build hread
  obtain ⟨mask, hmask, hslots⟩ := build_spec hb
  refine ⟨b, hb, fun k => ?_, fun i hi hbyte => ?_⟩
  · -- The packed keys agree under the mask when each field does; a field that is not used has the
    -- mask zero.
    rw [hmask, bitAnd_packKey_eq_iff]
    apply forall_congr'
    intro f
    have hslot := hslots f
    unfold SlotOf SlotAfter at hslot
    cases hused : f.used m with
    | none =>
      rw [hused] at hslot
      have hzero : f.get mask = 0 := (Prod.mk.inj hslot).2
      simp [hzero]
    | some j =>
      rw [hused] at hslot
      obtain ⟨r, hr, hslot⟩ := hslot
      obtain ⟨name, hname, hfield⟩ := exists_of_used hused
      obtain ⟨n, mask', hr', hiff⟩ := read_of_wellFormed (h f name hname j hfield)
      rw [hr] at hr'
      cases hr'
      obtain ⟨hvalue, hmask'⟩ := Prod.mk.inj hslot
      rw [hvalue, hmask', hiff _ (f.get_lt k)]
      simp
  · rw [hmask] at hbyte
    exact existsUnique_field hslots hi hbyte

theorem addressText_network : AddressText "10.0.0.0/8".toList
    fun x => x / 2 ^ (32 - 8) = addressOf [10, 0, 0, 0] / 2 ^ (32 - 8) := by
  have htext : "10.0.0.0/8".toList = Decimal.dottedQuad [10, 0, 0, 0] ++ '/' :: ['8'] := by
    decide
  rw [htext]
  exact .network [10, 0, 0, 0] ['8'] 8 rfl ⟨List.cons_ne_nil _ _, [8], by decide⟩ (by decide)

/-- A network, and a port under its oldest name. -/
theorem buildMaskAndValueFromMatch_correct_network :
    ∃ b, buildMaskAndValueFromMatch
        (.obj [("nw_dst", .str "10.0.0.0/8"), ("tcp_dst", .uint 80)]) = .ok b ∧
      (packKey { ipv4Dst := 0x0A010203, tpDst := 80 }).bitAnd b.mask =
        (packKey b.value).bitAnd b.mask := by
  have hwf : WellFormedMatch (.obj [("nw_dst", .str "10.0.0.0/8"), ("tcp_dst", .uint 80)]) := by
    intro f name hname j hj
    cases f <;> simp only [MatchField.spellings, List.mem_cons, List.not_mem_nil, or_false] at hname
    case ipv4Dst =>
      rcases hname with rfl | rfl
      · cases hj
      · cases hj
        exact ⟨_, _, rfl, addressText_network⟩
    case tpDst =>
      rcases hname with rfl | rfl | rfl
      · cases hj
      · cases hj
      · cases hj
        exact ⟨80, by decide, rfl⟩
    case inPort | vlanVid | metadata =>
      subst hname
      cases hj
    case ethType | ipProto | ipv4Src =>
      rcases hname with rfl | rfl
      · cases hj
      · cases hj
    case tpSrc =>
      rcases hname with rfl | rfl | rfl
      · cases hj
      · cases hj
      · cases hj
  obtain ⟨b, hb, hiff, -⟩ := buildMaskAndValueFromMatch_correct
    (.obj [("nw_dst", .str "10.0.0.0/8"), ("tcp_dst", .uint 80)]) hwf
  refine ⟨b, hb, (hiff _).mpr fun f j hj => ?_⟩
  cases f
  case ipv4Dst =>
    cases hj
    exact ⟨_, _, rfl, addressText_network, by decide⟩
  case tpDst =>
    cases hj
    exact rfl
  all_goals cases hj

end Ndtwin.Kernel

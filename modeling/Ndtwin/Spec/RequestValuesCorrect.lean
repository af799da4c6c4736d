import Ndtwin.Spec.RequestedMatchCorrect

/-!
# Request Values

Which values of a request the encoders of the client take. A value goes through `int(..)`,
`to_bytes`, `inet_aton` and `fromhex` on its way to the wire, each of which raises on its own
terms; together they accept the numbers in the range of a field and the addresses where an
address is meant.

## Key results

- `encode5tupleValue_isOk_iff`: the values that fit a key
- `fitsKey_iff_of_eq`: which of two equal values is kept does not matter
- `build5tupleEntry_isOk_iff`, `isOk_forwardAction_iff`, `isOk_routeEntry_iff`: whole entries
- `encode5tupleValue_error`: what the encoder raises
-/

namespace Ndtwin.Proxy

/-! ## Values that can be encoded -/

/-- A value that `_encode_5tuple_value` takes for a key: an address with dots where an address is
    meant, and otherwise what `int(..)` makes a number in the range of the key. -/
def FitsKey (field : P4Field) (v : Json) : Prop :=
  (∃ s bytes, v = .str s ∧ '.' ∈ s.toList ∧ field.isAddress = true ∧ inetAton s = .ok bytes) ∨
    (∀ s, v = .str s → '.' ∉ s.toList) ∧ ∃ n : Int, Python.toInt v = .ok n ∧ 0 ≤ n ∧
      n < 2 ^ field.bits

/-- A port number that fits the two bytes of the action parameter. -/
def FitsPort (v : Json) : Prop := ∃ n, Python.asInt? v = some n ∧ 0 ≤ n ∧ n < 2 ^ 16

/-- A text that `inet_aton` takes. -/
def IsAddress (v : Json) : Prop := ∃ s bytes, v = .str s ∧ inetAton s = .ok bytes

/-- The address that the graph has for a destination can be looked up and is hexadecimal. -/
def HasMac (net : NetGraph) (ipv4Dst : Json) : Prop :=
  ∃ mac bytes, nextHopMac5tuple net ipv4Dst = .ok mac ∧ macBytes mac = .ok bytes

theorem isOk_toBytes_iff {width : Nat} {n : Int} :
    (∃ bs, Python.toBytes width n = .ok bs) ↔ 0 ≤ n ∧ n < 256 ^ width := by
  unfold Python.toBytes
  split
  · next h => exact iff_of_true ⟨_, rfl⟩ h
  · next h => exact iff_of_false (fun ⟨_, hbs⟩ => nomatch hbs) h

/-- The checks that close `_encode_5tuple_value`. -/
def checkRaw (field : P4Field) (raw : List UInt8) : Except Python.Error (List UInt8 × List UInt8) :=
  if raw.length ≠ (field.bits + 7) / 8 then .error .valueError
  else if Python.fromBytes raw / 2 ^ field.bits ≠ 0 then .error .overflowError
  else .ok (raw, Python.bytesOf ((field.bits + 7) / 8) (2 ^ field.bits - 1))

/-- The numeric arm of the encoder. -/
def encodeInt (field : P4Field) (v : Json) : Except Python.Error (List UInt8 × List UInt8) :=
  Python.toInt v >>= fun n => Python.toBytes ((field.bits + 7) / 8) n >>= checkRaw field

theorem encode5tupleValue_str (field : P4Field) (s : String) :
    encode5tupleValue field (.str s) =
      if '.' ∈ s.toList then inetAton s >>= checkRaw field else encodeInt field (.str s) := by
  unfold encode5tupleValue encodeInt
  dsimp only
  split <;> rfl

/-- The bytes of a number pass the checks when the number is in the range of the key. -/
theorem isOk_encodeInt_iff (field : P4Field) (v : Json) :
    (∃ r, encodeInt field v = .ok r) ↔
      ∃ n : Int, Python.toInt v = .ok n ∧ 0 ≤ n ∧ n < 2 ^ field.bits := by
  -- the bytes of a key hold all its bits, so its range is the narrower one
  have hwide : (2 : Int) ^ field.bits ≤ 256 ^ ((field.bits + 7) / 8) := by
    cases field <;> decide
  have hpos : 0 < 2 ^ field.bits := Nat.two_pow_pos _
  have hcast : ((2 ^ field.bits : Nat) : Int) = 2 ^ field.bits := by simp
  unfold encodeInt
  constructor
  · intro ⟨r, h⟩
    obtain ⟨n, hn, h⟩ := EState.bind_eq_ok h
    obtain ⟨raw, hraw, h⟩ := EState.bind_eq_ok h
    obtain ⟨hvalue, hlength⟩ := toBytes_ok hraw
    unfold checkRaw at h
    rw [if_neg (not_not.mpr hlength)] at h
    split at h
    · exact nomatch h
    · next hfits =>
      -- the second check: no bit above the width of the key
      have hlt := (Nat.div_eq_zero_iff_lt hpos).mp (not_not.mp hfits)
      exact ⟨n, hn, by omega, by omega⟩
  · intro ⟨n, hn, hnonneg, hlt⟩
    obtain ⟨raw, hraw⟩ := isOk_toBytes_iff.mpr ⟨hnonneg, Int.lt_of_lt_of_le hlt hwide⟩
    obtain ⟨hvalue, hlength⟩ := toBytes_ok hraw
    have hfits : Python.fromBytes raw / 2 ^ field.bits = 0 := Nat.div_eq_of_lt (by omega)
    rw [hn, EState.ok_bind, hraw, EState.ok_bind, checkRaw, if_neg (not_not.mpr hlength),
      if_neg (not_not.mpr hfits)]
    exact ⟨_, rfl⟩

/-- An address passes them where the key has 32 bits. -/
theorem isOk_encodeAddress_iff (field : P4Field) (s : String) :
    (∃ r, (inetAton s >>= checkRaw field) = .ok r) ↔
      field.isAddress = true ∧ ∃ bytes, inetAton s = .ok bytes := by
  cases hraw : inetAton s with
  | error e => exact iff_of_false (fun ⟨_, h⟩ => nomatch h) fun ⟨_, _, h⟩ => nomatch h
  | ok raw =>
    have hlength := inetAton_length hraw
    have hlt := Python.fromBytes_lt raw
    rw [hlength] at hlt
    rw [EState.ok_bind, checkRaw, hlength]
    cases haddress : field.isAddress with
    | true =>
      have hbits : field.bits = 32 := by cases field <;> first | rfl | exact nomatch haddress
      have hfits : Python.fromBytes raw / 2 ^ 32 = 0 := Nat.div_eq_of_lt hlt
      rw [hbits, if_neg (by decide), if_neg (not_not.mpr hfits)]
      exact iff_of_true ⟨_, rfl⟩ ⟨rfl, raw, rfl⟩
    | false =>
      -- the four bytes of an address fail the length check of any other key
      have hwidth : 4 ≠ (field.bits + 7) / 8 := by
        cases field <;> first | decide | exact nomatch haddress
      rw [if_pos hwidth]
      exact iff_of_false (fun ⟨_, h⟩ => nomatch h) fun h => nomatch h.1

theorem encode5tupleValue_isOk_iff (field : P4Field) (v : Json) :
    (∃ r, encode5tupleValue field v = .ok r) ↔ FitsKey field v := by
  unfold FitsKey
  by_cases hdots : ∃ s, v = .str s ∧ '.' ∈ s.toList
  · obtain ⟨s, rfl, hdot⟩ := hdots
    rw [encode5tupleValue_str, if_pos hdot, isOk_encodeAddress_iff]
    constructor
    · intro ⟨haddress, bytes, hbytes⟩
      exact Or.inl ⟨s, bytes, rfl, hdot, haddress, hbytes⟩
    · rintro (⟨s', bytes, hs, -, haddress, hbytes⟩ | ⟨hno, -⟩)
      · cases hs
        exact ⟨haddress, bytes, hbytes⟩
      · exact absurd hdot (hno s rfl)
  · -- everything else is only ever a number
    have hno : ∀ s, v = .str s → '.' ∉ s.toList := fun s hs hdot => hdots ⟨s, hs, hdot⟩
    have hint : encode5tupleValue field v = encodeInt field v := by
      cases v with
      | str s => rw [encode5tupleValue_str, if_neg (hno s rfl)]
      | _ => rfl
    rw [hint, isOk_encodeInt_iff]
    constructor
    · intro h
      exact Or.inr ⟨hno, h⟩
    · rintro (⟨s, _, hs, hdot, -⟩ | ⟨-, h⟩)
      · exact absurd hdot (hno s hs)
      · exact h

/-! ## Equal values -/

/-- `int(..)` of a decimal: the fraction is cut. -/
def truncated (x : Int × Int) : Int :=
  if 0 ≤ x.2 then x.1 * 10 ^ x.2.toNat else x.1.tdiv (10 ^ (-x.2).toNat)

/-- A decimal with more digits behind the point. -/
theorem truncated_scaled (m e : Int) (k : Nat) :
    truncated (m * 10 ^ k, e - k) = truncated (m, e) := by
  unfold truncated
  dsimp only
  by_cases he : 0 ≤ e
  · rw [if_pos he]
    by_cases hk : 0 ≤ e - k
    · -- still a whole number: the power of ten is split in two
      have hsum : k + (e - k).toNat = e.toNat := by omega
      rw [if_pos hk, mul_assoc, ← pow_add, hsum]
    · -- now a fraction, which divides without a remainder
      have hsum : k = e.toNat + (-(e - k)).toNat := by omega
      have hpos : (10 : Int) ^ (-(e - k)).toNat ≠ 0 := (Int.pow_pos (by decide)).ne'
      rw [if_neg hk]
      conv_lhs => rw [hsum]
      rw [pow_add, ← mul_assoc]
      have hexp : (-(e - ((e.toNat + (-(e - k)).toNat : Nat) : Int))).toNat = (-(e - k)).toNat := by
        omega
      rw [hexp, Int.mul_tdiv_cancel _ hpos]
  · have hsum : (-(e - k)).toNat = (-e).toNat + k := by omega
    rw [if_neg he, if_neg (by omega), hsum, pow_add]
    exact Int.mul_tdiv_mul_of_pos_left _ _ (Int.pow_pos (by decide))

theorem truncated_eq_of_sameNumber {x y : Int × Int} (h : Python.sameNumber x y = true) :
    truncated x = truncated y := by
  have hscaled := of_decide_eq_true h
  -- `Python.sameNumber` brings both to the smaller exponent
  have hx := truncated_scaled x.1 x.2 (x.2 - min x.2 y.2).toNat
  have hy := truncated_scaled y.1 y.2 (y.2 - min x.2 y.2).toNat
  have hexp : x.2 - ((x.2 - min x.2 y.2).toNat : Int) =
      y.2 - ((y.2 - min x.2 y.2).toNat : Int) := by
    omega
  rw [← hscaled, ← hexp] at hy
  exact hx.symm.trans hy

theorem toInt_of_number {v : Json} {x : Int × Int} (h : Python.number? v = some x) :
    Python.toInt v = .ok (truncated x) := by
  -- an integer has no fraction to cut
  have hint : ∀ i : Int, truncated (i, 0) = i := by
    intro i
    unfold truncated
    simp
  cases v with
  | float m e =>
    cases h
    rfl
  | bool b =>
    cases h
    rw [hint]
    rfl
  | int i =>
    cases h
    rw [hint]
    rfl
  | uint n =>
    cases h
    rw [hint]
    rfl
  | _ => exact nomatch h

/-- A value that is neither a number nor a text is not an `int(..)`. -/
theorem not_fitsKey_of_number_none {field : P4Field} {v : Json} (hstr : ∀ s, v ≠ .str s)
    (hnone : Python.number? v = none) : ¬FitsKey field v := by
  rintro (⟨s, _, hs, -⟩ | ⟨-, n, hn, -⟩)
  · exact hstr s hs
  · cases v with
    | str s => exact hstr s rfl
    | null => exact nomatch hn
    | arr elems => exact nomatch hn
    | obj fields => exact nomatch hn
    | _ => exact nomatch hnone

/-- Of two values that Python takes for equal, both fit a key or none does. -/
theorem fitsKey_iff_of_eq {v w : Json} (h : Python.eq v w = true) (field : P4Field) :
    FitsKey field v ↔ FitsKey field w := by
  have hnumber : ∀ {v : Json} {x : Int × Int}, Python.number? v = some x →
      (FitsKey field v ↔ 0 ≤ truncated x ∧ truncated x < 2 ^ field.bits) := by
    intro v x hx
    have hstr : ∀ s, v ≠ .str s := by
      intro s hs
      rw [hs] at hx
      exact nomatch hx
    constructor
    · rintro (⟨s, _, hs, -⟩ | ⟨-, n, hn, hrange⟩)
      · exact absurd hs (hstr s)
      · rw [toInt_of_number hx] at hn
        cases hn
        exact hrange
    · intro hrange
      exact Or.inr ⟨fun s hs => absurd hs (hstr s), _, toInt_of_number hx, hrange⟩
  -- equal texts, equal numbers, or values that no key takes
  obtain ⟨s, rfl, rfl⟩ | ⟨x, y, hx, hy, hsame⟩ | ⟨hv, hw, hvnone, hwnone⟩ := eq_cases h
  · exact Iff.rfl
  · rw [hnumber hx, hnumber hy, truncated_eq_of_sameNumber hsame]
  · exact iff_of_false (not_fitsKey_of_number_none hv hvnone) (not_fitsKey_of_number_none hw hwnone)

theorem EqualChain.fitsKey_iff {v w : Json} (h : EqualChain v w) (field : P4Field) :
    FitsKey field v ↔ FitsKey field w := by
  induction h with
  | refl => exact Iff.rfl
  | tail _ heq ih => exact ih.trans (fitsKey_iff_of_eq heq field)

/-! ## The entry of a request -/

/-- Every field of the match that the 5-tuple table has a key for fits its key. -/
def ValuesFit (fields : List (String × Json)) : Prop :=
  ∀ f ∈ fields, ∀ field, fiveTupleField? f.1 = some field → FitsKey field f.2

theorem isOk_ternaryMatches_iff (keys : AssocMap P4Field Json) (order : List P4Field) :
    (∃ ternary, ternaryMatches keys order = .ok ternary) ↔
      ∀ field ∈ order, ∀ v, keys.lookup field = some v → FitsKey field v := by
  -- the fields are encoded one by one, and the first that does not fit ends it
  induction order with
  | nil =>
    refine iff_of_true ⟨_, rfl⟩ ?_
    intro _ hf
    exact absurd hf List.not_mem_nil
  | cons field order ih =>
    unfold ternaryMatches
    rw [List.forall_mem_cons, ← ih]
    cases hv : keys.lookup field with
    | none => simp
    | some v =>
      simp only [Option.some.injEq, forall_eq', ← encode5tupleValue_isOk_iff]
      constructor
      · intro hentry
        obtain ⟨ternary, h⟩ := hentry
        obtain ⟨r, hr, h⟩ := EState.bind_eq_ok h
        obtain ⟨rest, hrest, -⟩ := EState.bind_eq_ok h
        exact ⟨⟨r, hr⟩, rest, hrest⟩
      · intro hparts
        obtain ⟨⟨r, hr⟩, rest, hrest⟩ := hparts
        rw [hr, EState.ok_bind, hrest, EState.ok_bind]
        exact ⟨_, rfl⟩

/-- The 5-tuple entry of a match without conflict is built when its values fit their keys and the
    priority an `int32`. -/
theorem build5tupleEntry_isOk_iff {fields : List (String × Json)} {keys : AssocMap P4Field Json}
    (hkeys : fiveTupleKeys fields = .ok keys) (priority : Json) :
    (∃ key, build5tupleEntry keys (p4Priority priority) = .ok key) ↔
      ValuesFit fields ∧ p4Priority priority < 2 ^ 31 := by
  obtain ⟨-, hitems, hfrom⟩ := collectKeys_spec hkeys
  have hfit : (∀ field ∈ P4Field.sorted, ∀ v, keys.lookup field = some v → FitsKey field v) ↔
      ValuesFit fields := by
    constructor
    · intro h f hf field hfield
      -- the value kept for the key may be another one, but it is equal
      obtain ⟨v, hv, hchain⟩ := hitems f (mem_sortedItems.mpr hf) field hfield
      exact (hchain.fitsKey_iff field).mpr (h field (mem_sorted field) v hv)
    · intro h field _ v hv
      obtain hnone | ⟨f, hf, hfield, rfl⟩ := hfrom field v hv
      · rw [AList.lookup_empty] at hnone
        exact nomatch hnone
      · exact h f (mem_sortedItems.mp hf) field hfield
  -- the lowest priority is 1
  have hlow : -2 ^ 31 ≤ p4Priority priority := by
    unfold p4Priority
    dsimp only
    omega
  rw [← hfit, ← isOk_ternaryMatches_iff]
  unfold build5tupleEntry
  constructor
  · intro ⟨key, h⟩
    obtain ⟨ternary, hternary, h⟩ := EState.bind_eq_ok h
    split at h
    · next hrange => exact ⟨⟨ternary, hternary⟩, hrange.2⟩
    · exact nomatch h
  · intro ⟨⟨ternary, hternary⟩, hhigh⟩
    rw [hternary, EState.ok_bind, if_pos ⟨hlow, hhigh⟩]
    exact ⟨_, rfl⟩

theorem isOk_portBytes_iff (v : Json) : (∃ bs, portBytes v = .ok bs) ↔ FitsPort v := by
  unfold portBytes FitsPort
  cases Python.asInt? v with
  | none => exact iff_of_false (fun ⟨_, h⟩ => nomatch h) fun ⟨_, h, _⟩ => nomatch h
  | some n =>
    rw [isOk_toBytes_iff]
    constructor
    · intro h
      exact ⟨n, rfl, h⟩
    · intro ⟨n', heq, h⟩
      cases heq
      exact h

theorem isOk_forwardAction_iff (mac : String) (port : Json) :
    (∃ action, forwardAction mac port = .ok action) ↔
      (∃ bytes, macBytes mac = .ok bytes) ∧ FitsPort port := by
  rw [← isOk_portBytes_iff]
  unfold forwardAction
  constructor
  · intro ⟨action, h⟩
    obtain ⟨bytes, hmac, h⟩ := EState.bind_eq_ok h
    obtain ⟨bs, hport, -⟩ := EState.bind_eq_ok h
    exact ⟨⟨bytes, hmac⟩, bs, hport⟩
  · intro ⟨⟨bytes, hmac⟩, bs, hport⟩
    rw [hmac, EState.ok_bind, hport, EState.ok_bind]
    exact ⟨_, rfl⟩

theorem isOk_inetAtonValue_iff (v : Json) : (∃ bs, inetAtonValue v = .ok bs) ↔ IsAddress v := by
  constructor
  · intro ⟨bs, h⟩
    obtain ⟨s, hs, hbs⟩ := inetAtonValue_ok h
    exact ⟨s, bs, hs, hbs⟩
  · rintro ⟨s, bs, rfl, hbs⟩
    exact ⟨bs, hbs⟩

theorem isOk_routeEntry_iff (dstIp : Json) (prefixLen : Nat) (mac : String) (port : Json) :
    (∃ entry, routeEntry dstIp prefixLen mac port = .ok entry) ↔
      IsAddress dstIp ∧ (∃ bytes, macBytes mac = .ok bytes) ∧ FitsPort port := by
  rw [← isOk_inetAtonValue_iff, ← isOk_forwardAction_iff]
  unfold routeEntry
  constructor
  · intro ⟨entry, h⟩
    obtain ⟨value, hvalue, h⟩ := EState.bind_eq_ok h
    obtain ⟨action, haction, -⟩ := EState.bind_eq_ok h
    exact ⟨⟨value, hvalue⟩, action, haction⟩
  · intro ⟨⟨value, hvalue⟩, action, haction⟩
    rw [hvalue, EState.ok_bind, haction, EState.ok_bind]
    exact ⟨_, rfl⟩

/-! ## What the encoder raises -/

/-- The built-in exceptions that `_check_in_port_value` catches. -/
def caught : List Python.Error := [.valueError, .overflowError, .typeError, .osError]

theorem inetAton_error {s : String} {e : Python.Error} (h : inetAton s = .error e) :
    e ∈ caught := by
  unfold inetAton at h
  split at h
  · exact nomatch h
  · cases h
    decide
  · cases h
    decide

theorem toInt_error {v : Json} {e : Python.Error} (h : Python.toInt v = .error e) : e ∈ caught := by
  cases v with
  | str s =>
    unfold Python.toInt at h
    dsimp only at h
    split at h
    · exact nomatch h
    · cases h
      decide
  | null | arr _ | obj _ =>
    cases h
    decide
  | _ => exact nomatch h

theorem toBytes_error {width : Nat} {n : Int} {e : Python.Error}
    (h : Python.toBytes width n = .error e) : e ∈ caught := by
  unfold Python.toBytes at h
  split at h
  · exact nomatch h
  · cases h
    decide

theorem checkRaw_error {field : P4Field} {raw : List UInt8} {e : Python.Error}
    (h : checkRaw field raw = .error e) : e ∈ caught := by
  unfold checkRaw at h
  split at h
  · cases h
    decide
  · split at h
    · cases h
      decide
    · exact nomatch h

/-- Where a sequence of computations raises, one of them does. -/
theorem bind_error_mem {α β : Type} {x : Except Python.Error α} {f : α → Except Python.Error β}
    {e : Python.Error} (hx : ∀ e, x = .error e → e ∈ caught)
    (hf : ∀ a e, f a = .error e → e ∈ caught) (h : (x >>= f) = .error e) : e ∈ caught := by
  cases x with
  | error e' =>
    cases h
    exact hx _ rfl
  | ok a => exact hf a e h

/-- The encoder raises nothing else. -/
theorem encode5tupleValue_error {field : P4Field} {v : Json} {e : Python.Error}
    (h : encode5tupleValue field v = .error e) : e ∈ caught := by
  -- `int(..)`, `to_bytes` and the checks, in the order of the encoder
  have hint : ∀ {e}, encodeInt field v = .error e → e ∈ caught := by
    intro e h
    refine bind_error_mem (fun _ => toInt_error) (fun n e hn => ?_) h
    exact bind_error_mem (fun _ => toBytes_error) (fun _ _ => checkRaw_error) hn
  cases v with
  | str s =>
    rw [encode5tupleValue_str] at h
    split at h
    · exact bind_error_mem (fun _ => inetAton_error) (fun _ _ => checkRaw_error) h
    · exact hint h
  | _ => exact hint h

end Ndtwin.Proxy

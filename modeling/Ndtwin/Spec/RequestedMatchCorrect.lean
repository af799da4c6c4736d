import Mathlib.Algebra.Order.Field.Rat
import Mathlib.Tactic.FieldSimp
import Ndtwin.Proxy.Pipeline
import Ndtwin.Spec.InstalledRoutesCorrect

/-!
# Requested Matches

A rule that `route_flow` installs should match what was asked for and nothing else. The names of
an OpenFlow match and the keys of the two tables are set side by side here: what a request
describes, which packets hit the entry written for it, and when the second are among the first.

Three kinds of request get a wider or a different rule: a `tcp_*` or `udp_*` field without the
protocol it implies, a number that is cut to an integer, and a destination in two spellings of
which one is looked at.

## Key results

- `routeFlow_writes`: the entry that an accepted request writes
- `fiveTuple_iff`, `destination_iff`: the two tables
- `route_flow_faithful_iff`: when the rule is the one asked for
-/

namespace Ndtwin.Proxy

/-! ## What a request describes -/

/-- The part of a packet that a match field is about. -/
def openflowField : String → Option P4Field
  | "in_port" => some .ingressPort
  | "nw_src" => some .srcAddr
  | "ipv4_src" => some .srcAddr
  | "nw_dst" => some .dstAddr
  | "ipv4_dst" => some .dstAddr
  | "nw_proto" => some .protocol
  | "ip_proto" => some .protocol
  | "tp_src" => some .l4SrcPort
  | "tcp_src" => some .l4SrcPort
  | "udp_src" => some .l4SrcPort
  | "tp_dst" => some .l4DstPort
  | "tcp_dst" => some .l4DstPort
  | "udp_dst" => some .l4DstPort
  | _ => none

/-- The protocol that a match field implies. -/
def transportOf : String → Option Nat
  | "tcp_src" => some 6
  | "tcp_dst" => some 6
  | "udp_src" => some 17
  | "udp_dst" => some 17
  | _ => none

/-- The keys that hold an address. -/
def P4Field.isAddress : P4Field → Bool
  | .srcAddr | .dstAddr => true
  | _ => false

/-- A value of a request stands for a number: a number for itself, and a text for the integer or,
    where an address is meant, for the address that it spells. -/
def Denotes (field : P4Field) : Json → Nat → Prop
  | .str s, n => Python.parseInt 10 s = some (n : Int) ∨
      field.isAddress ∧ ∃ bytes, inetAton s = .ok bytes ∧ Python.fromBytes bytes = n
  | v, n => integerKey? v = some (n : Int)

/-- A packet has what a field of the match asks for. Every packet here is an IPv4 packet. -/
def FieldHolds (p : PacketKeys) (name : String) (value : Json) : Prop :=
  match openflowField name with
  | some field => Denotes field value (p.value field) ∧
      ∀ protocol, transportOf name = some protocol → p.value .protocol = protocol
  | none => name ∈ ethTypeFields ∧ parseEthType value = some ipv4EthType

/-- A packet has everything the match asks for. -/
def Describes (fields : List (String × Json)) (p : PacketKeys) : Prop :=
  ∀ f ∈ fields, FieldHolds p f.1 f.2

/-! ## The entry of a request -/

/-- The key of an entry of either table. -/
inductive TableKey where
  | fiveTuple (key : FiveTupleKey)
  | lpm (key : LpmKey)

/-- The packets that hit an entry. -/
def TableKey.hits : TableKey → PacketKeys → Bool
  | .fiveTuple key, p => key.hits p
  | .lpm key, p => key.hits p

/-- A switch with one entry more. -/
def P4Switch.put (switch : P4Switch) (action : Forward) : TableKey → P4Switch
  | .fiveTuple key => { switch with flow5tuple := switch.flow5tuple.insert key action }
  | .lpm key => { switch with ipv4Lpm := switch.ipv4Lpm.insert key action }

/-- The entry is the one that is built from the request. -/
def EntryOf (fields : List (String × Json)) (priority : Json) : TableKey → Prop
  | .fiveTuple key => needsFiveTuple (.obj fields) = true ∧
      ∃ keys, fiveTupleKeys fields = .ok keys ∧
        build5tupleEntry keys (p4Priority priority) = .ok key
  | .lpm key => needsFiveTuple (.obj fields) = false ∧ key.prefixLen = 32 ∧
      inetAtonValue (ipv4DstOf fields) = .ok key.value

theorem exists_of_py_bind_ok {α β : Type} {x : Except Python.Error α} {f : α → RouteM β}
    {m m' : TopologyManager} {b : β} (h : (py x >>= f) m = .ok b m') :
    ∃ a, x = .ok a ∧ f a m = .ok b m' := by
  cases x with
  | ok a => exact ⟨a, rfl, h⟩
  | error e => exact nomatch h

/-- The checks of a match leave the state, and a match that passes them is an object with no
    unsupported field. -/
theorem exists_of_checkedMatch_bind_ok {β : Type} {matchDict : Json} {action : String}
    {f : List (String × Json) → RouteM β} {m m' : TopologyManager} {b : β}
    (h : (checkedMatch matchDict action >>= f) m = .ok b m') :
    ∃ fields, matchDict = .obj fields ∧ refuseUnsupported matchDict = .ok () ∧
      f fields m = .ok b m' := by
  obtain ⟨fields, s, hchecked, hrest⟩ := EState.exists_of_bind_ok h
  unfold checkedMatch at hchecked
  obtain ⟨_, hrefuse, hchecked⟩ := EState.exists_of_ofExcept_bind_ok hchecked
  obtain ⟨_, -, hchecked⟩ := EState.exists_of_ofExcept_bind_ok hchecked
  cases matchDict with
  | obj fields' =>
    cases hchecked
    exact ⟨fields, rfl, hrefuse, hrest⟩
  | _ => exact nomatch hchecked

/-- The record does not show at the switches. -/
theorem switches_recordRoute (dpid : Int) (ipv4Dst outPort : Json) (m : TopologyManager) :
    (EState.finalState (recordRoute dpid ipv4Dst outPort) m).switches = m.switches := by
  unfold recordRoute
  split
  · rfl
  · rfl

/-- An accepted request puts the entry built from it into a table of its switch. -/
theorem routeFlow_writes {dpid matchDict actions priority : Json} {answers : Answers}
    {m m' : TopologyManager}
    (h : routeFlow dpid matchDict actions priority answers m = .ok true m') :
    ∃ fields d switch entry action, matchDict = .obj fields ∧
      refuseUnsupported matchDict = .ok () ∧ knownDpid m dpid = .ok (some d) ∧
      m.switches.lookup d = some switch ∧ m'.switches.lookup d = some (switch.put action entry) ∧
      EntryOf fields priority entry := by
  unfold routeFlow at h
  rw [EState.get_bind] at h
  obtain ⟨known, hknown, h⟩ := exists_of_py_bind_ok h
  cases known with
  | none => exact nomatch h
  | some d =>
    obtain ⟨fields, rfl, hrefuse, h⟩ := exists_of_checkedMatch_bind_ok h
    obtain ⟨out, -, h⟩ := exists_of_py_bind_ok h
    split at h
    · exact nomatch h
    split at h
    · -- the 5-tuple table
      next hfive =>
      obtain ⟨keys, hkeys, h⟩ := EState.exists_of_ofExcept_bind_ok h
      obtain ⟨mac, -, h⟩ := exists_of_py_bind_ok h
      obtain ⟨switch, switch', hswitch, htrue, rfl⟩ := exists_of_onSwitch_ok h
      rcases insert5tupleRule_spec keys (p4Priority priority) mac out answers switch with
        ⟨e, -, he⟩ | hfalse | ⟨key, action, hentry, hstored⟩
      · rw [he] at htrue
        exact nomatch htrue
      · rw [hfalse] at htrue
        exact nomatch htrue
      · rw [hstored] at htrue
        cases htrue
        refine ⟨fields, d, switch, .fiveTuple key, action, rfl, hrefuse, hknown, hswitch, ?_,
          hfive, keys, hkeys, ?_⟩
        · show (m.switches.set d _).lookup d = _
          rw [AssocMap.lookup_set, if_pos rfl]
          rfl
        · unfold ruleEntry at hentry
          obtain ⟨key', hkey, hentry⟩ := EState.bind_eq_ok hentry
          obtain ⟨action', -, hentry⟩ := EState.bind_eq_ok hentry
          cases hentry
          exact hkey
    · next hlpm =>
      split at h
      · -- the destination table
        obtain ⟨mac, -, h⟩ := exists_of_py_bind_ok h
        obtain ⟨success, m₁, hinsert, h⟩ := EState.exists_of_bind_ok h
        obtain ⟨switch, switch', hswitch, hcall, rfl⟩ := exists_of_onSwitch_ok hinsert
        split at h
        · next hsuccess =>
          subst hsuccess
          have hm' := EState.finalState_of_ok h
          rw [EState.finalState_bind_of_keeps fun _ _ => rfl] at hm'
          rcases insertIpv4Route_spec (ipv4DstOf fields) 32 mac out answers switch with
            ⟨e, -, he⟩ | hfalse | ⟨key, action, hentry, hstored⟩
          · rw [he] at hcall
            exact nomatch hcall
          · rw [hfalse] at hcall
            exact nomatch hcall
          · rw [hstored] at hcall
            cases hcall
            obtain ⟨hvalue, hprefix, -⟩ := routeEntry_ok hentry
            refine ⟨fields, d, switch, .lpm key, action, rfl, hrefuse, hknown, hswitch, ?_,
              Bool.eq_false_iff.mpr hlpm, hprefix, hvalue⟩
            rw [← hm', switches_recordRoute]
            show (m.switches.set d _).lookup d = _
            rw [AssocMap.lookup_set, if_pos rfl]
            rfl
        · exact nomatch h
      · exact nomatch h

/-! ## Values -/

theorem openflowField_eq (name : String) : openflowField name = fiveTupleField? name := by
  unfold openflowField
  split
  all_goals first | rfl | skip
  unfold fiveTupleField?
  rw [eq_comm, Option.map_eq_none_iff, List.find?_eq_none]
  intro f hf
  simp only [fiveTupleFieldMap, List.mem_cons, List.not_mem_nil, or_false] at hf
  rcases hf with rfl | rfl | rfl | rfl | rfl | rfl | rfl | rfl | rfl | rfl | rfl | rfl | rfl <;>
    simp_all [eq_comm]

/-- A number that `int(..)` cuts. -/
def Fractional : Json → Prop
  | .float mantissa exponent => integerKey? (.float mantissa exponent) = none
  | _ => False

/-- A number that is cut stands for nothing. -/
theorem not_denotes_of_fractional {field : P4Field} {v : Json} (h : Fractional v) (n : Nat) :
    ¬Denotes field v n := by
  cases v with
  | float mantissa exponent =>
    intro hdenotes
    have hsome : integerKey? (.float mantissa exponent) = some (n : Int) := hdenotes
    have hnone : integerKey? (.float mantissa exponent) = none := h
    rw [hnone] at hsome
    exact nomatch hsome
  | _ => exact h.elim

/-- `int(v)` of what is not a text is the integer that `v` equals. -/
theorem integerKey_of_toInt {v : Json} {n : Int} (h : Python.toInt v = .ok n)
    (hstr : ∀ s, v ≠ .str s) (hintegral : ¬Fractional v) : integerKey? v = some n := by
  cases v with
  | float mantissa exponent =>
    have hsome : integerKey? (.float mantissa exponent) ≠ none := hintegral
    simp only [integerKey?, Python.toInt, Except.ok.injEq] at hsome h ⊢
    subst h
    split
    · rfl
    · next hneg =>
      rw [if_neg hneg] at hsome
      split
      · next hdiv =>
        -- nothing is cut where the division is exact
        rw [Int.tdiv_eq_ediv_of_dvd (Int.dvd_of_emod_eq_zero hdiv)]
      · next hdiv =>
        rw [if_neg hdiv] at hsome
        exact absurd rfl hsome
  | str s => exact absurd rfl (hstr s)
  | bool b => exact congrArg some (Except.ok.inj h)
  | int i => exact congrArg some (Except.ok.inj h)
  | uint k => exact congrArg some (Except.ok.inj h)
  | null => cases h
  | arr elems => cases h
  | obj fields => cases h

/-- The number that `to_bytes` encodes is the one it is given. -/
theorem toBytes_ok {width : Nat} {n : Int} {bs : List UInt8} (h : Python.toBytes width n = .ok bs) :
    (Python.fromBytes bs : Int) = n ∧ bs.length = width := by
  unfold Python.toBytes at h
  split at h
  · next hrange =>
    cases h
    have hnat : n.toNat < 256 ^ width := by
      have hcast : ((256 ^ width : Nat) : Int) = 256 ^ width := by simp
      omega
    rw [Python.fromBytes_bytesOf hnat, Python.length_bytesOf]
    exact ⟨Int.toNat_of_nonneg hrange.1, rfl⟩
  · exact nomatch h

/-- What the encoder makes of a value, before it looks at the width. -/
theorem encode5tupleValue_raw {field : P4Field} {v : Json} {raw mask : List UInt8}
    (h : encode5tupleValue field v = .ok (raw, mask)) :
    raw.length = (field.bits + 7) / 8 ∧ Python.fromBytes raw / 2 ^ field.bits = 0 ∧
      mask = Python.bytesOf ((field.bits + 7) / 8) (2 ^ field.bits - 1) ∧
      ((∃ s, v = .str s ∧ inetAton s = .ok raw) ∨
        ∃ n, Python.toInt v = .ok n ∧ Python.toBytes ((field.bits + 7) / 8) n = .ok raw) := by
  -- the checks that every encoding goes through
  have hchecks : ∀ bytes : List UInt8,
      (if bytes.length ≠ (field.bits + 7) / 8 then Except.error Python.Error.valueError
        else if Python.fromBytes bytes / 2 ^ field.bits ≠ 0 then .error .overflowError
        else pure (bytes, Python.bytesOf ((field.bits + 7) / 8) (2 ^ field.bits - 1))) =
        .ok (raw, mask) →
      bytes = raw ∧ raw.length = (field.bits + 7) / 8 ∧
        Python.fromBytes raw / 2 ^ field.bits = 0 ∧
        mask = Python.bytesOf ((field.bits + 7) / 8) (2 ^ field.bits - 1) := by
    intro bytes hb
    split at hb
    · exact nomatch hb
    next hlength =>
    split at hb
    · exact nomatch hb
    next hfits =>
    cases hb
    exact ⟨rfl, not_not.mp hlength, not_not.mp hfits, rfl⟩
  unfold encode5tupleValue at h
  dsimp only at h
  split at h
  · next s =>
    split at h
    · obtain ⟨bytes, haddress, h⟩ := EState.bind_eq_ok h
      obtain ⟨rfl, hlength, hfits, hmask⟩ := hchecks bytes h
      exact ⟨hlength, hfits, hmask, Or.inl ⟨s, rfl, haddress⟩⟩
    · obtain ⟨n, hn, h⟩ := EState.bind_eq_ok h
      obtain ⟨bytes, hto, h⟩ := EState.bind_eq_ok h
      obtain ⟨rfl, hlength, hfits, hmask⟩ := hchecks bytes h
      exact ⟨hlength, hfits, hmask, Or.inr ⟨n, hn, hto⟩⟩
  · obtain ⟨n, hn, h⟩ := EState.bind_eq_ok h
    obtain ⟨bytes, hto, h⟩ := EState.bind_eq_ok h
    obtain ⟨rfl, hlength, hfits, hmask⟩ := hchecks bytes h
    exact ⟨hlength, hfits, hmask, Or.inr ⟨n, hn, hto⟩⟩

/-- An encoded key has the value of its request, and a mask of all its bits. -/
theorem encode5tupleValue_ok {field : P4Field} {v : Json} {raw mask : List UInt8}
    (h : encode5tupleValue field v = .ok (raw, mask)) :
    Python.fromBytes raw < 2 ^ field.bits ∧ Python.fromBytes mask = 2 ^ field.bits - 1 ∧
      (¬Fractional v → Denotes field v (Python.fromBytes raw)) := by
  obtain ⟨hlength, hfits, rfl, hsource⟩ := encode5tupleValue_raw h
  have hpos : 0 < 2 ^ field.bits := Nat.two_pow_pos _
  refine ⟨?_, ?_, ?_⟩
  · exact (Nat.div_eq_zero_iff.mp hfits).resolve_left (by omega)
  · apply Python.fromBytes_bytesOf
    cases field <;> decide
  · intro hintegral
    rcases hsource with ⟨s, rfl, haddress⟩ | ⟨n, hn, hto⟩
    · -- four bytes fit an address only
      right
      refine ⟨?_, raw, haddress, rfl⟩
      rw [inetAton_length haddress] at hlength
      cases field <;> first | rfl | exact absurd hlength (by decide)
    · obtain ⟨hvalue, -⟩ := toBytes_ok hto
      cases v with
      | str s =>
        left
        cases hparse : Python.parseInt 10 s with
        | none =>
          simp only [Python.toInt, hparse] at hn
          exact nomatch hn
        | some i =>
          simp only [Python.toInt, hparse, Except.ok.injEq] at hn
          rw [hvalue, hn]
      | _ =>
        have hkey := integerKey_of_toInt hn (fun s => nofun) hintegral
        rw [← hvalue] at hkey
        exact hkey

/-! ## Equal values -/

/-- The value of a decimal. -/
def decimalValue (x : Int × Int) : ℚ := x.1 * 10 ^ x.2

theorem decimalValue_scaled (x : Int × Int) {e : Int} (he : e ≤ x.2) :
    decimalValue x = ((x.1 * 10 ^ (x.2 - e).toNat : Int) : ℚ) * 10 ^ e := by
  have hsum : x.2 = ((x.2 - e).toNat : Int) + e := by omega
  unfold decimalValue
  push_cast
  rw [mul_assoc, ← zpow_natCast, ← zpow_add₀ (by norm_num), ← hsum]

theorem decimalValue_eq_of_sameNumber {x y : Int × Int} (h : Python.sameNumber x y = true) :
    decimalValue x = decimalValue y := by
  have hscaled := of_decide_eq_true h
  rw [decimalValue_scaled x (min_le_left x.2 y.2), decimalValue_scaled y (min_le_right x.2 y.2),
    hscaled]

/-- The integer that a decimal equals. -/
theorem integerKey_float_iff (m e n : Int) :
    integerKey? (.float m e) = some n ↔ decimalValue (m, e) = n := by
  unfold integerKey? decimalValue
  simp only
  split
  · next he =>
    have hpow : (10 : ℚ) ^ e = ((10 ^ e.toNat : Int) : ℚ) := by
      push_cast
      rw [← zpow_natCast, Int.toNat_of_nonneg he]
    rw [hpow, ← Int.cast_mul, Int.cast_inj, Option.some.injEq]
  · next he =>
    have hpos : (0 : Int) < 10 ^ (-e).toNat := Int.pow_pos (by decide)
    have hpow : (10 : ℚ) ^ e = (((10 ^ (-e).toNat : Int) : ℚ))⁻¹ := by
      push_cast
      rw [← zpow_natCast, ← zpow_neg, Int.toNat_of_nonneg (by omega), neg_neg]
    have hne : (((10 ^ (-e).toNat : Int)) : ℚ) ≠ 0 := by exact_mod_cast hpos.ne'
    rw [hpow, ← div_eq_mul_inv, div_eq_iff hne, ← Int.cast_mul, Int.cast_inj]
    split
    · next hdiv =>
      rw [Option.some.injEq]
      exact ⟨fun h => by rw [← h, Int.ediv_mul_cancel (Int.dvd_of_emod_eq_zero hdiv)],
        fun h => Int.ediv_eq_of_eq_mul_left hpos.ne' h⟩
    · next hdiv =>
      refine ⟨(fun h => nomatch h), fun h => absurd ?_ hdiv⟩
      rw [h]
      exact Int.mul_emod_left _ _

theorem integerKey_iff_of_number {v : Json} {x : Int × Int} (h : Python.number? v = some x)
    (n : Int) : integerKey? v = some n ↔ decimalValue x = n := by
  -- an integer is a decimal without an exponent
  have hint : ∀ i : Int, some i = some n ↔ decimalValue (i, 0) = n := by
    intro i
    rw [Option.some.injEq, decimalValue, zpow_zero, mul_one, Int.cast_inj]
  cases v with
  | float m e =>
    cases h
    exact integerKey_float_iff m e n
  | bool b =>
    cases h
    exact hint _
  | int i =>
    cases h
    exact hint i
  | uint k =>
    cases h
    exact hint k
  | _ => exact nomatch h

theorem integerKey_eq_none {v : Json} (h : Python.number? v = none) : integerKey? v = none := by
  cases v with
  | null => rfl
  | str s => rfl
  | arr elems => rfl
  | obj fields => rfl
  | _ => exact nomatch h

/-- What Python takes for equal: equal texts, equal numbers, or neither of them. -/
theorem eq_cases {v w : Json} (h : Python.eq v w = true) :
    (∃ s, v = .str s ∧ w = .str s) ∨
    (∃ x y, Python.number? v = some x ∧ Python.number? w = some y ∧
      Python.sameNumber x y = true) ∨
    ((∀ s, v ≠ .str s) ∧ (∀ s, w ≠ .str s) ∧ Python.number? v = none ∧
      Python.number? w = none) := by
  cases v <;> cases w <;>
    simp only [Python.eq, Python.number?, Python.asInt?, Option.map_some, Option.map_none,
      decide_eq_true_eq, Bool.false_eq_true] at h
  all_goals first
    | exact Or.inl ⟨_, rfl, congrArg Json.str h.symm⟩
    | exact Or.inr (Or.inl ⟨_, _, rfl, rfl, h⟩)
    | exact Or.inr (Or.inr ⟨fun _ h => (by cases h), fun _ h => (by cases h), rfl, rfl⟩)

/-- Values that Python takes for equal stand for the same. -/
theorem denotes_iff_of_eq {v w : Json} (h : Python.eq v w = true) (field : P4Field) (n : Nat) :
    Denotes field v n ↔ Denotes field w n := by
  have hnot : ∀ {v : Json}, (∀ s, v ≠ .str s) →
      (Denotes field v n ↔ integerKey? v = some (n : Int)) := by
    intro v hv
    cases v with
    | str s => exact absurd rfl (hv s)
    | _ => exact Iff.rfl
  rcases eq_cases h with ⟨s, rfl, rfl⟩ | ⟨x, y, hx, hy, hsame⟩ | ⟨hv, hw, hvnone, hwnone⟩
  · exact Iff.rfl
  · have hv : ∀ s, v ≠ .str s := by
      intro s hs
      rw [hs] at hx
      exact nomatch hx
    have hw : ∀ s, w ≠ .str s := by
      intro s hs
      rw [hs] at hy
      exact nomatch hy
    rw [hnot hv, hnot hw, integerKey_iff_of_number hx, integerKey_iff_of_number hy,
      decimalValue_eq_of_sameNumber hsame]
  · rw [hnot hv, hnot hw, integerKey_eq_none hvnone, integerKey_eq_none hwnone]

/-! ## The keys of a rule -/

/-- What a rule asks of a key that it names. -/
def ruleValue (keys : AssocMap P4Field Json) (field : P4Field) : Nat :=
  match keys.lookup field with
  | none => 0
  | some v =>
    match encode5tupleValue field v with
    | .ok (raw, _) => Python.fromBytes raw
    | .error _ => 0

/-- Every value of a rule has been encoded. -/
def Encoded (keys : AssocMap P4Field Json) : Prop :=
  ∀ field v, keys.lookup field = some v → ∃ raw mask, encode5tupleValue field v = .ok (raw, mask)

theorem ruleValue_of_encode {keys : AssocMap P4Field Json} {field : P4Field} {v : Json}
    {raw mask : List UInt8} (hv : keys.lookup field = some v)
    (h : encode5tupleValue field v = .ok (raw, mask)) :
    ruleValue keys field = Python.fromBytes raw := by
  simp only [ruleValue, hv, h]

theorem ruleValue_lt (keys : AssocMap P4Field Json) (field : P4Field) :
    ruleValue keys field < 2 ^ field.bits := by
  have hpos : 0 < 2 ^ field.bits := Nat.two_pow_pos _
  unfold ruleValue
  split
  · exact hpos
  · split
    · next raw mask h => exact (encode5tupleValue_ok h).1
    · exact hpos

/-- A key with a full mask is hit by its value alone. -/
theorem hits_ternary_iff {field : P4Field} {v : Json} {raw mask : List UInt8}
    (h : encode5tupleValue field v = .ok (raw, mask)) (p : PacketKeys) :
    TernaryMatch.hits ⟨field, raw, mask⟩ p = true ↔ p.value field = Python.fromBytes raw := by
  obtain ⟨hlt, hmask, -⟩ := encode5tupleValue_ok h
  unfold TernaryMatch.hits
  rw [decide_eq_true_eq]
  simp only [hmask, Nat.and_two_pow_sub_one_eq_mod]
  rw [Nat.mod_eq_of_lt (p.value_lt field), Nat.mod_eq_of_lt hlt]

theorem ternaryMatches_hits {keys : AssocMap P4Field Json} {fields : List P4Field}
    {ternary : List TernaryMatch} (h : ternaryMatches keys fields = .ok ternary) :
    (∀ field ∈ fields, ∀ v, keys.lookup field = some v →
      ∃ raw mask, encode5tupleValue field v = .ok (raw, mask)) ∧
    ∀ p : PacketKeys, (ternary.all fun t => t.hits p) = true ↔
      ∀ field ∈ fields, keys.lookup field ≠ none → p.value field = ruleValue keys field := by
  induction fields generalizing ternary with
  | nil =>
    cases h
    exact ⟨nofun, fun p => ⟨fun _ => nofun, fun _ => rfl⟩⟩
  | cons field fields ih =>
    unfold ternaryMatches at h
    cases hv : keys.lookup field with
    | none =>
      -- a field that was not asked for gets no ternary match
      rw [hv] at h
      obtain ⟨hencoded, hhits⟩ := ih h
      constructor
      · intro f hf v hfv
        rcases List.mem_cons.mp hf with rfl | hf
        · rw [hv] at hfv
          exact nomatch hfv
        · exact hencoded f hf v hfv
      · intro p
        rw [hhits p]
        simp only [List.mem_cons, forall_eq_or_imp, hv, ne_eq, not_true_eq_false,
          IsEmpty.forall_iff, true_and]
    | some v =>
      rw [hv] at h
      obtain ⟨⟨raw, mask⟩, hencode, h⟩ := EState.bind_eq_ok h
      obtain ⟨rest, hrest, h⟩ := EState.bind_eq_ok h
      cases h
      obtain ⟨hencoded, hhits⟩ := ih hrest
      constructor
      · intro f hf w hfw
        rcases List.mem_cons.mp hf with rfl | hf
        · cases hv.symm.trans hfw
          exact ⟨raw, mask, hencode⟩
        · exact hencoded f hf w hfw
      · intro p
        rw [List.all_cons, Bool.and_eq_true, hhits p, hits_ternary_iff hencode]
        simp only [List.mem_cons, forall_eq_or_imp, hv, ruleValue_of_encode hv hencode, ne_eq,
          reduceCtorEq, not_false_eq_true, forall_const]

theorem mem_sorted (field : P4Field) : field ∈ P4Field.sorted := by
  cases field <;> decide

/-- The packets that hit the entry of a rule have the values that the rule names. -/
theorem build5tupleEntry_hits {keys : AssocMap P4Field Json} {priority : Int} {key : FiveTupleKey}
    (h : build5tupleEntry keys priority = .ok key) :
    Encoded keys ∧ ∀ p : PacketKeys, key.hits p = true ↔
      ∀ field, keys.lookup field ≠ none → p.value field = ruleValue keys field := by
  unfold build5tupleEntry at h
  obtain ⟨ternary, hternary, h⟩ := EState.bind_eq_ok h
  split at h
  · cases h
    obtain ⟨hencoded, hhits⟩ := ternaryMatches_hits hternary
    refine ⟨fun field v hv => hencoded field (mem_sorted field) v hv, fun p => ?_⟩
    rw [FiveTupleKey.hits, hhits p]
    exact ⟨fun hall field => hall field (mem_sorted field), fun hall field _ => hall field⟩
  · exact nomatch h

/-- Two values stand for the same, wherever they are put. -/
def SameMeaning (v w : Json) : Prop := ∀ field n, Denotes field v n ↔ Denotes field w n

theorem SameMeaning.trans {u v w : Json} (h : SameMeaning u v) (h' : SameMeaning v w) :
    SameMeaning u w :=
  fun field n => (h field n).trans (h' field n)

/-- Values that Python takes for equal, one after the other. -/
def EqualChain : Json → Json → Prop := Relation.ReflTransGen fun v w => Python.eq v w = true

theorem EqualChain.sameMeaning {v w : Json} (h : EqualChain v w) : SameMeaning v w := by
  induction h with
  | refl => exact fun _ _ => Iff.rfl
  | tail _ heq ih => exact ih.trans fun field n => denotes_iff_of_eq heq field n

/-- The keys that are collected: every field of the match is there with an equal value, and
    nothing is there that no field has put. -/
theorem collectKeys_spec {items : List (String × Json)} {keys₀ keys : AssocMap P4Field Json}
    (h : collectKeys keys₀ items = .ok keys) :
    (∀ field v, keys₀.lookup field = some v →
      ∃ v', keys.lookup field = some v' ∧ EqualChain v v') ∧
    (∀ f ∈ items, ∀ field, fiveTupleField? f.1 = some field →
      ∃ v', keys.lookup field = some v' ∧ EqualChain f.2 v') ∧
    ∀ field v', keys.lookup field = some v' → keys₀.lookup field = some v' ∨
      ∃ f ∈ items, fiveTupleField? f.1 = some field ∧ f.2 = v' := by
  induction items generalizing keys₀ with
  | nil =>
    cases h
    exact ⟨fun _ v hv => ⟨v, hv, .refl⟩, nofun, fun _ _ hv => Or.inl hv⟩
  | cons item items ih =>
    obtain ⟨name, value⟩ := item
    unfold collectKeys at h
    cases hfield : fiveTupleField? name with
    | none =>
      -- a field that no table has a key for
      rw [hfield] at h
      obtain ⟨hkept, hitems, hfrom⟩ := ih h
      refine ⟨hkept, ?_, ?_⟩
      · intro f hf field hff
        rcases List.mem_cons.mp hf with rfl | hf
        · rw [hfield] at hff
          exact nomatch hff
        · exact hitems f hf field hff
      · intro field v' hv'
        rcases hfrom field v' hv' with hold | ⟨f, hf, hff⟩
        · exact Or.inl hold
        · exact Or.inr ⟨f, List.mem_cons_of_mem _ hf, hff⟩
    | some p4Field =>
      rw [hfield] at h
      -- whatever was there before is equal to the new value
      have hset : (∀ v, keys₀.lookup p4Field = some v → EqualChain v value) ∧
          collectKeys (keys₀.set p4Field value) items = .ok keys := by
        cases hold : keys₀.lookup p4Field with
        | none =>
          simp only [hold] at h
          exact ⟨nofun, h⟩
        | some v =>
          simp only [hold] at h
          split at h
          · next heq =>
            refine ⟨fun w hw => ?_, h⟩
            cases hw
            exact .single heq
          · exact nomatch h
      obtain ⟨hsame, hrest⟩ := hset
      obtain ⟨hkept, hitems, hfrom⟩ := ih hrest
      obtain ⟨v', hv', hmeaning⟩ := hkept p4Field value (by rw [AssocMap.lookup_set, if_pos rfl])
      refine ⟨?_, ?_, ?_⟩
      · intro field v hv
        by_cases hf : field = p4Field
        · subst hf
          exact ⟨v', hv', (hsame v hv).trans hmeaning⟩
        · exact hkept field v (by rw [AssocMap.lookup_set, if_neg hf]; exact hv)
      · intro f hf field hff
        rcases List.mem_cons.mp hf with rfl | hf
        · cases hfield.symm.trans hff
          exact ⟨v', hv', hmeaning⟩
        · exact hitems f hf field hff
      · intro field w hw
        rcases hfrom field w hw with hold | ⟨f, hf, hff⟩
        · rw [AssocMap.lookup_set] at hold
          split at hold
          · next hf =>
            cases hold
            exact Or.inr ⟨_, List.mem_cons_self, hf ▸ hfield, rfl⟩
          · exact Or.inl hold
        · exact Or.inr ⟨f, List.mem_cons_of_mem _ hf, hff⟩

theorem mem_sortedItems {fields : List (String × Json)} {f : String × Json} :
    f ∈ Python.sortedItems fields ↔ f ∈ fields :=
  (List.perm_insertionSort _ fields).mem_iff

theorem fiveTupleKeys_spec {fields : List (String × Json)} {keys : AssocMap P4Field Json}
    (h : fiveTupleKeys fields = .ok keys) :
    (∀ f ∈ fields, ∀ field, openflowField f.1 = some field →
      ∃ v, keys.lookup field = some v ∧ SameMeaning f.2 v) ∧
    ∀ field v, keys.lookup field = some v →
      ∃ f ∈ fields, openflowField f.1 = some field ∧ f.2 = v := by
  obtain ⟨-, hitems, hfrom⟩ := collectKeys_spec h
  constructor
  · intro f hf field hfield
    rw [openflowField_eq] at hfield
    obtain ⟨v, hv, hchain⟩ := hitems f (mem_sortedItems.mpr hf) field hfield
    exact ⟨v, hv, hchain.sameMeaning⟩
  · intro field v hv
    rcases hfrom field v hv with hnone | ⟨f, hf, hfield, hvalue⟩
    · rw [AList.lookup_empty] at hnone
      exact nomatch hnone
    · rw [← openflowField_eq] at hfield
      exact ⟨f, mem_sortedItems.mp hf, hfield, hvalue⟩

/-! ## When the rule is the one asked for -/

/-- The requests whose rule is the one asked for. -/
structure Faithful (fields : List (String × Json)) : Prop where
  /-- A `tcp_*` or `udp_*` field comes with its protocol. -/
  transport : ∀ f ∈ fields, ∀ protocol, transportOf f.1 = some protocol →
    ∃ g ∈ fields, openflowField g.1 = some .protocol ∧ Denotes .protocol g.2 protocol
  /-- No number of a 5-tuple rule is cut. -/
  integral : needsFiveTuple (.obj fields) = true → ∀ f ∈ fields, openflowField f.1 ≠ none →
    ¬Fractional f.2
  /-- Every destination of a destination rule is the one that is looked at. -/
  destination : needsFiveTuple (.obj fields) = false → ∀ f ∈ fields,
    openflowField f.1 = some .dstAddr →
    ∀ address, inetAtonValue (ipv4DstOf fields) = .ok address →
    Denotes .dstAddr f.2 (Python.fromBytes address)

/-- A match that passes the check has no field but those of the tables and the ether type. -/
theorem ethType_of_refuseUnsupported {fields : List (String × Json)}
    (h : refuseUnsupported (.obj fields) = .ok ()) {f : String × Json} (hf : f ∈ fields)
    (hfield : openflowField f.1 = none) :
    f.1 ∈ ethTypeFields ∧ parseEthType f.2 = some ipv4EthType := by
  have hsupported : isUnsupported f.1 f.2 = false := by
    by_contra hbad
    have hmem : f.1 ∈ Python.sortedStrings
        ((fields.filter fun f => isUnsupported f.1 f.2).map Prod.fst) := by
      apply (List.perm_insertionSort _ _).mem_iff.mpr
      exact List.mem_map_of_mem (List.mem_filter.mpr ⟨hf, Bool.of_not_eq_false hbad⟩)
    unfold refuseUnsupported unsupportedMatchFields at h
    simp only [pure_bind] at h
    split at h
    · next hempty =>
      rw [List.isEmpty_iff.mp hempty] at hmem
      cases hmem
    · cases h
  -- the honoured fields all have a field of their own in the table
  have hnot : f.1 ∉ honouredMatchFields := by
    intro hmem
    simp only [honouredMatchFields, List.mem_cons, List.not_mem_nil, or_false] at hmem
    rcases hmem with hname | hname
    · rw [hname] at hfield
      cases hfield
    · rw [hname] at hfield
      cases hfield
  rw [openflowField_eq] at hfield
  unfold isUnsupported at hsupported
  simp only [hnot, if_false, hfield, Option.isSome_none, Bool.false_eq_true] at hsupported
  split at hsupported
  · next heth => exact ⟨heth, by simpa using hsupported⟩
  · cases hsupported

/-- Where no address is meant a value stands for one number only. -/
theorem denotes_unique {field : P4Field} (hfield : field.isAddress = false) {v : Json} {n n' : Nat}
    (h : Denotes field v n) (h' : Denotes field v n') : n = n' := by
  have hsome : ∀ {x : Option Int}, x = some (n : Int) → x = some (n' : Int) → n = n' := by
    intro x hx hx'
    have hcast := Option.some.inj (hx.symm.trans hx')
    omega
  cases v with
  | str s =>
    rcases h with h | ⟨haddress, -⟩
    · rcases h' with h' | ⟨haddress, -⟩
      · exact hsome h h'
      · exact absurd haddress (by rw [hfield]; decide)
    · exact absurd haddress (by rw [hfield]; decide)
  | _ => exact hsome h h'

/-- A field that implies a protocol is a field of the packet. -/
theorem transportOf_eq_some {name : String} {protocol : Nat}
    (h : transportOf name = some protocol) :
    (∃ field, openflowField name = some field) ∧ protocol ≠ 0 := by
  unfold transportOf at h
  split at h
  · cases h; exact ⟨⟨_, rfl⟩, by decide⟩
  · cases h; exact ⟨⟨_, rfl⟩, by decide⟩
  · cases h; exact ⟨⟨_, rfl⟩, by decide⟩
  · cases h; exact ⟨⟨_, rfl⟩, by decide⟩
  · exact nomatch h

/-- The packet that has what a rule names, and a protocol of choice. -/
def rulePacket (keys : AssocMap P4Field Json) (protocol : Nat) (h : protocol < 2 ^ 8) :
    PacketKeys where
  value field := if field = .protocol then protocol else ruleValue keys field
  value_lt field := by
    split
    · next hf =>
      rw [hf]
      exact h
    · exact ruleValue_lt keys field

section FiveTuple

variable {fields : List (String × Json)} {keys : AssocMap P4Field Json} {priority : Int}
  {key : FiveTupleKey} (hrefuse : refuseUnsupported (.obj fields) = .ok ())
  (hkeys : fiveTupleKeys fields = .ok keys) (hbuild : build5tupleEntry keys priority = .ok key)

include hrefuse hkeys hbuild in
/-- A faithful request describes every packet that hits its rule. -/
theorem describes_of_hits (hfaithful : Faithful fields)
    (hfive : needsFiveTuple (.obj fields) = true) {p : PacketKeys} (hhits : key.hits p = true) :
    Describes fields p := by
  obtain ⟨hnamed, hfrom⟩ := fiveTupleKeys_spec hkeys
  obtain ⟨hencoded, hhits_iff⟩ := build5tupleEntry_hits hbuild
  have hvalues := (hhits_iff p).mp hhits
  -- a value that is collected stands for what the packet has
  have hdenotes : ∀ field v, keys.lookup field = some v → Denotes field v (p.value field) := by
    intro field v hv
    obtain ⟨f, hf, hfield, rfl⟩ := hfrom field v hv
    obtain ⟨raw, mask, hencode⟩ := hencoded field f.2 hv
    have hintegral := hfaithful.integral hfive f hf (by rw [hfield]; exact nofun)
    rw [hvalues field (by rw [hv]; exact nofun), ruleValue_of_encode hv hencode]
    exact (encode5tupleValue_ok hencode).2.2 hintegral
  intro f hf
  unfold FieldHolds
  cases hfield : openflowField f.1 with
  | none => exact ethType_of_refuseUnsupported hrefuse hf hfield
  | some field =>
    obtain ⟨v, hv, hsame⟩ := hnamed f hf field hfield
    refine ⟨(hsame field _).mpr (hdenotes field v hv), fun protocol hprotocol => ?_⟩
    obtain ⟨g, hg, hgfield, hgdenotes⟩ := hfaithful.transport f hf protocol hprotocol
    obtain ⟨w, hw, hgsame⟩ := hnamed g hg .protocol hgfield
    exact denotes_unique rfl (hdenotes .protocol w hw) ((hgsame .protocol protocol).mp hgdenotes)

include hkeys hbuild in
/-- A request that describes every packet that hits its rule is faithful. -/
theorem faithful_of_describes (hfive : needsFiveTuple (.obj fields) = true)
    (hdescribes : ∀ p, key.hits p = true → Describes fields p) : Faithful fields := by
  obtain ⟨-, hfrom⟩ := fiveTupleKeys_spec hkeys
  obtain ⟨-, hhits_iff⟩ := build5tupleEntry_hits hbuild
  have hrule : key.hits (rulePacket keys (ruleValue keys .protocol) (ruleValue_lt keys .protocol))
      = true := by
    apply (hhits_iff _).mpr
    intro field _
    show (if field = .protocol then _ else _) = _
    split
    · next hf => rw [hf]
    · rfl
  have hall := hdescribes _ hrule
  refine ⟨?_, ?_, fun hlpm => absurd hfive (by rw [hlpm]; exact nofun)⟩
  · intro f hf protocol hprotocol
    obtain ⟨⟨field, hfield⟩, hne⟩ := transportOf_eq_some hprotocol
    cases hlookup : keys.lookup .protocol with
    | none =>
      -- any protocol hits the rule, and the request wants one
      have hother : key.hits (rulePacket keys 0 (by decide)) = true := by
        apply (hhits_iff _).mpr
        intro field' hnamed
        show (if field' = .protocol then _ else _) = _
        rw [if_neg]
        intro heq
        rw [heq] at hnamed
        exact hnamed hlookup
      have hholds := hdescribes _ hother f hf
      simp only [FieldHolds, hfield] at hholds
      have hzero : 0 = protocol := hholds.2 protocol hprotocol
      exact absurd hzero.symm hne
    | some v =>
      obtain ⟨g, hg, hgfield, rfl⟩ := hfrom .protocol v hlookup
      have hholds := hall f hf
      have hgholds := hall g hg
      simp only [FieldHolds, hfield] at hholds
      simp only [FieldHolds, hgfield] at hgholds
      have hvalue := hholds.2 protocol hprotocol
      exact ⟨g, hg, hgfield, hvalue ▸ hgholds.1⟩
  · intro _ f hf hnone hfractional
    obtain ⟨field, hfield⟩ := Option.ne_none_iff_exists'.mp hnone
    have hholds := hall f hf
    simp only [FieldHolds, hfield] at hholds
    exact not_denotes_of_fractional hfractional _ hholds.1

include hrefuse hkeys hbuild in
theorem fiveTuple_iff (hfive : needsFiveTuple (.obj fields) = true) :
    (∀ p, key.hits p = true → Describes fields p) ↔ Faithful fields :=
  ⟨faithful_of_describes hkeys hbuild hfive,
    fun hfaithful _ hhits => describes_of_hits hrefuse hkeys hbuild hfaithful hfive hhits⟩

end FiveTuple

/-- The fields of a match that goes to the destination table. -/
theorem openflowField_of_destination {fields : List (String × Json)}
    (hlpm : needsFiveTuple (.obj fields) = false) {f : String × Json} (hf : f ∈ fields)
    {field : P4Field} (hfield : openflowField f.1 = some field) :
    field = .dstAddr ∧ transportOf f.1 = none := by
  have honly : isFiveTupleOnlyField f.1 = false := by
    have hany : fields.any (fun f => isFiveTupleOnlyField f.1) = false := hlpm
    exact Bool.eq_false_iff.mpr fun h => List.any_eq_false.mp hany f hf h
  have hsome : (fiveTupleField? f.1).isSome := by
    rw [← openflowField_eq, hfield]
    rfl
  have hmem : f.1 ∈ honouredMatchFields := by
    by_contra hnot
    simp [isFiveTupleOnlyField, hsome, hnot] at honly
  simp only [honouredMatchFields, List.mem_cons, List.not_mem_nil, or_false] at hmem
  rcases hmem with hname | hname
  · rw [hname] at hfield ⊢
    cases hfield
    exact ⟨rfl, rfl⟩
  · rw [hname] at hfield ⊢
    cases hfield
    exact ⟨rfl, rfl⟩

/-- An entry for one address. -/
theorem hits_lpm_iff (value : List UInt8) (p : PacketKeys) :
    LpmKey.hits ⟨value, 32⟩ p = true ↔ p.value .dstAddr = Python.fromBytes value := by
  unfold LpmKey.hits
  rw [decide_eq_true_eq]
  simp

/-- A packet for an address. -/
def destinationPacket (address : Nat) (h : address < 2 ^ 32) : PacketKeys where
  value field := if field = .dstAddr then address else 0
  value_lt field := by
    split
    · next hf =>
      rw [hf]
      exact h
    · exact Nat.two_pow_pos _

theorem destination_iff {fields : List (String × Json)} {address : List UInt8}
    (hrefuse : refuseUnsupported (.obj fields) = .ok ())
    (hlpm : needsFiveTuple (.obj fields) = false)
    (haddress : inetAtonValue (ipv4DstOf fields) = .ok address) :
    (∀ p, LpmKey.hits ⟨address, 32⟩ p = true → Describes fields p) ↔ Faithful fields := by
  have hlt : Python.fromBytes address < 2 ^ 32 := by
    obtain ⟨s, -, hs⟩ := inetAtonValue_ok haddress
    have hbound := Python.fromBytes_lt address
    rw [inetAton_length hs] at hbound
    exact hbound
  constructor
  · intro hdescribes
    -- the packet to that address which fits nothing else is the test
    have hvalue : (destinationPacket _ hlt).value .dstAddr = Python.fromBytes address := rfl
    have hall := hdescribes (destinationPacket _ hlt) ((hits_lpm_iff address _).mpr hvalue)
    refine ⟨?_, fun hfive => absurd hfive (by rw [hlpm]; exact nofun), ?_⟩
    · intro f hf protocol hprotocol
      obtain ⟨⟨field, hfield⟩, -⟩ := transportOf_eq_some hprotocol
      rw [(openflowField_of_destination hlpm hf hfield).2] at hprotocol
      exact nomatch hprotocol
    · intro _ f hf hfield address' haddress'
      cases haddress.symm.trans haddress'
      have hholds := hall f hf
      simp only [FieldHolds, hfield] at hholds
      exact hholds.1
  · intro hfaithful p hhits f hf
    unfold FieldHolds
    cases hfield : openflowField f.1 with
    | none => exact ethType_of_refuseUnsupported hrefuse hf hfield
    | some field =>
      obtain ⟨rfl, htransport⟩ := openflowField_of_destination hlpm hf hfield
      refine ⟨?_, fun protocol hprotocol => ?_⟩
      · rw [(hits_lpm_iff address p).mp hhits]
        exact hfaithful.destination hlpm f hf hfield address haddress
      · rw [htransport] at hprotocol
        exact nomatch hprotocol

/-- Either table. -/
theorem entryOf_iff {fields : List (String × Json)} {priority : Json} {entry : TableKey}
    (hrefuse : refuseUnsupported (.obj fields) = .ok ()) (hentry : EntryOf fields priority entry) :
    (∀ p, entry.hits p = true → Describes fields p) ↔ Faithful fields := by
  cases entry with
  | fiveTuple key =>
    obtain ⟨hfive, keys, hkeys, hbuild⟩ := hentry
    exact fiveTuple_iff hrefuse hkeys hbuild hfive
  | lpm key =>
    obtain ⟨hlpm, hprefix, hvalue⟩ := hentry
    obtain ⟨value, prefixLen⟩ := key
    subst hprefix
    exact destination_iff hrefuse hlpm hvalue

end Ndtwin.Proxy

namespace Ndtwin.Spec

open Ndtwin.Proxy

/-- An accepted request writes the entry that is built from it, and every packet that hits the
    entry is one the request describes exactly when the request is faithful: a `tcp_*` or
    `udp_*` field comes with its protocol, no number is cut, and a destination-only match has
    one destination. -/
theorem route_flow_faithful_iff {dpid matchDict actions priority : Json} {answers : Answers}
    {m m' : TopologyManager}
    (h : routeFlow dpid matchDict actions priority answers m = .ok true m') :
    ∃ fields d switch entry action, matchDict = .obj fields ∧
      m.switches.lookup d = some switch ∧
      m'.switches.lookup d = some (switch.put action entry) ∧ EntryOf fields priority entry ∧
      ((∀ p, entry.hits p = true → Describes fields p) ↔ Faithful fields) := by
  obtain ⟨fields, d, switch, entry, action, hfields, hrefuse, -, hswitch, hput, hentry⟩ :=
    routeFlow_writes h
  rw [hfields] at hrefuse
  exact ⟨fields, d, switch, entry, action, hfields, hswitch, hput, hentry,
    entryOf_iff hrefuse hentry⟩

/-- A proxy with one switch. -/
def oneSwitch : TopologyManager where
  switches := (∅ : AssocMap Int P4Switch).set 1 {}
  watchdog := { beaconInterval := 5 }

/-- The action of a request to forward to port 1. -/
def outputOne : Json := .arr [.obj [("type", .str "OUTPUT"), ("port", .int 1)]]

/-- A call that returned `true`. -/
theorem exists_of_returns_true {x : RouteM Bool} {m : TopologyManager}
    (h : (match x m with
      | .ok b _ => b
      | .error _ _ => false) = true) : ∃ m', x m = .ok true m' := by
  cases hx : x m with
  | ok b m' =>
    rw [hx] at h
    exact ⟨m', by rw [show b = true from h]⟩
  | error e m' =>
    rw [hx] at h
    exact nomatch h

/-- A rule for HTTP requests to a host that names the protocol. -/
theorem route_flow_faithful_http :
    ∃ m' d switch entry action,
      routeFlow (.int 1) (.obj [("nw_dst", .str "10.0.0.1"), ("ip_proto", .int 6),
        ("tcp_dst", .int 80)]) outputOne (.int 10) {} oneSwitch = .ok true m' ∧
      m'.switches.lookup d = some (P4Switch.put switch action entry) ∧
      ∀ p, entry.hits p = true → Describes [("nw_dst", .str "10.0.0.1"), ("ip_proto", .int 6),
        ("tcp_dst", .int 80)] p := by
  obtain ⟨m', hm'⟩ := exists_of_returns_true (x := routeFlow (.int 1)
    (.obj [("nw_dst", .str "10.0.0.1"), ("ip_proto", .int 6), ("tcp_dst", .int 80)]) outputOne
    (.int 10) {}) (m := oneSwitch) (by decide +kernel)
  obtain ⟨fields, d, switch, entry, action, hfields, -, hput, -, hiff⟩ :=
    route_flow_faithful_iff hm'
  cases hfields
  refine ⟨m', d, switch, entry, action, hm', hput, hiff.mpr ?_⟩
  refine ⟨?_, ?_, fun hlpm => absurd hlpm (by decide +kernel)⟩
  · intro f hf protocol hprotocol
    simp only [List.mem_cons, List.not_mem_nil, or_false] at hf
    rcases hf with rfl | rfl | rfl
    · cases hprotocol
    · cases hprotocol
    · cases hprotocol
      exact ⟨_, List.mem_cons_of_mem _ List.mem_cons_self, rfl, rfl⟩
  · intro _ f hf _
    simp only [List.mem_cons, List.not_mem_nil, or_false] at hf
    rcases hf with rfl | rfl | rfl
    · exact id
    · exact id
    · exact id

/-- A rule for HTTP requests is asked for without the protocol. -/
theorem tcp_rule_matches_udp :
    ¬ ∀ (dpid matchDict actions priority : Json) (answers : Answers) (m m' : TopologyManager),
      routeFlow dpid matchDict actions priority answers m = .ok true m' →
      ∀ fields entry, matchDict = .obj fields → EntryOf fields priority entry →
      ∀ p, entry.hits p = true → Describes fields p := by
  intro h
  obtain ⟨m', hm'⟩ := exists_of_returns_true (x := routeFlow (.int 1)
    (.obj [("tcp_dst", .int 80)]) outputOne (.int 10) {}) (m := oneSwitch) (by decide +kernel)
  obtain ⟨fields, d, switch, entry, action, hfields, hrefuse, -, -, -, hentry⟩ :=
    routeFlow_writes hm'
  have hdescribes := h _ _ _ _ _ _ _ hm' fields entry hfields hentry
  rw [hfields] at hrefuse
  have hfaithful := (entryOf_iff hrefuse hentry).mp hdescribes
  cases hfields
  obtain ⟨g, hg, hfield, -⟩ := hfaithful.transport _ List.mem_cons_self 6 rfl
  rw [List.mem_singleton.mp hg] at hfield
  exact nomatch hfield

end Ndtwin.Spec

import Ndtwin.Spec.MatchFieldsCorrect

/-!
# Match Conditions

A rule in the classifier should match no packet that a field of its entry rules out. What a
value rules out is taken here from the parsers themselves: a packet meets a value when the
parser of the field reads the value and the packet has what was read. A value that cannot be
read is met by nothing. An address that cannot be read leaves its slot unmatched, and a number
too wide for its slot is cut.

## Key results

- `forall_meets_iff`: what a slot lets through, against one value
- `parseRuleFromJson_meets_iff`: which rules let through only what meets their entry
-/

namespace Ndtwin.Kernel

namespace MatchField

/-- The content of a packet's field has what a value asks for. -/
def Meets (f : MatchField) (j : Json) (x : Nat) : Prop :=
  if f.isAddress then
    ∃ addr mask, parseIpv4WithMaskOrPrefix j = .ok (some (addr, mask)) ∧
      x &&& mask.toNat = addr.toNat &&& mask.toNat
  else ∃ n, parseU64 j = .ok n ∧ x = n.toNat

/-- A value that can be read, and that its slot can hold. -/
def Readable (f : MatchField) (j : Json) : Prop :=
  if f.isAddress then ∃ addr mask, parseIpv4WithMaskOrPrefix j = .ok (some (addr, mask))
  else ∃ n, parseU64 j = .ok n ∧ n.toNat < 2 ^ f.bits

/-- The second value can be read, and what the slot of the first lets through has what it asks
    for. The slot of an address that cannot be read lets everything through. -/
def Implies (f : MatchField) (j₀ j : Json) : Prop :=
  if f.isAddress then
    ∃ slot addr mask, parseIpv4WithMaskOrPrefix j₀ = .ok slot ∧
      parseIpv4WithMaskOrPrefix j = .ok (some (addr, mask)) ∧
      mask &&& (slot.getD (0, 0)).2 = mask ∧ (slot.getD (0, 0)).1 &&& mask = addr &&& mask
  else
    ∃ n₀ n, parseU64 j₀ = .ok n₀ ∧ parseU64 j = .ok n ∧ n.toNat = n₀.toNat % 2 ^ f.bits

theorem implies_self {f : MatchField} {j : Json} : f.Implies j j ↔ f.Readable j := by
  unfold Implies Readable
  split
  · constructor
    · rintro ⟨-, addr, mask, -, h, -⟩
      exact ⟨addr, mask, h⟩
    · rintro ⟨addr, mask, h⟩
      exact ⟨some (addr, mask), addr, mask, h, h, UInt32.and_self, rfl⟩
  · constructor
    · rintro ⟨n, n', hn, hn', heq⟩
      rw [hn] at hn'
      cases hn'
      exact ⟨n, hn, heq ▸ Nat.mod_lt _ (Nat.two_pow_pos _)⟩
    · rintro ⟨n, hn, hlt⟩
      exact ⟨n, n, hn, hn, (Nat.mod_eq_of_lt hlt).symm⟩

end MatchField

/-! ## One slot -/

/-- A mask lets through only what agrees under another mask: it has all the ones of the
    other. -/
theorem forall_and_eq_iff (addr₀ mask₀ addr mask : UInt32) :
    (∀ x : UInt32, x &&& mask₀ = addr₀ &&& mask₀ → x &&& mask = addr &&& mask) ↔
      mask &&& mask₀ = mask ∧ addr₀ &&& mask = addr &&& mask := by
  constructor
  · intro h
    have haddr := h addr₀ rfl
    refine ⟨?_, haddr⟩
    -- an address that differs from the first one wherever its mask allows it
    have hpass : (addr₀ ^^^ ~~~mask₀) &&& mask₀ = addr₀ &&& mask₀ := by
      apply UInt32.toBitVec_inj.mp
      ext i hi
      simp only [UInt32.toBitVec_and, UInt32.toBitVec_xor, UInt32.toBitVec_not,
        BitVec.getElem_and, BitVec.getElem_xor, BitVec.getElem_not]
      cases addr₀.toBitVec[i] <;> cases mask₀.toBitVec[i] <;> rfl
    have hflip := (h _ hpass).trans haddr.symm
    apply UInt32.toBitVec_inj.mp
    ext i hi
    have hbit := congrArg (fun v : UInt32 => v.toBitVec[i]) hflip
    simp only [UInt32.toBitVec_and, UInt32.toBitVec_xor, UInt32.toBitVec_not, BitVec.getElem_and,
      BitVec.getElem_xor, BitVec.getElem_not] at hbit ⊢
    revert hbit
    cases addr₀.toBitVec[i] <;> cases mask₀.toBitVec[i] <;> cases mask.toBitVec[i] <;> simp
  · rintro ⟨hmask, haddr⟩ x hx
    rw [← haddr, ← hmask, ← UInt32.and_comm mask₀, ← UInt32.and_assoc, hx, UInt32.and_assoc]

/-- What the slot of a value lets through meets a value of the same field exactly when the
    first one implies the second. -/
theorem forall_meets_iff {f : MatchField} {j₀ : Json} {n mask : Nat}
    (hslot : SlotAfter f (some j₀) (0, 0) (n, mask)) (j : Json) :
    (∀ x < 2 ^ f.bits, x &&& mask = n &&& mask → f.Meets j x) ↔ f.Implies j₀ j := by
  obtain ⟨r, hr, hslot⟩ := hslot
  unfold MatchField.read at hr
  unfold MatchField.Meets MatchField.Implies
  cases hf : f.isAddress with
  | true =>
    rw [if_pos hf] at hr
    simp only [if_true]
    rw [bits_eq_of_isAddress hf]
    cases hparse : parseIpv4WithMaskOrPrefix j₀ with
    | error e =>
      rw [hparse] at hr
      exact nomatch hr
    | ok p =>
      rw [hparse] at hr
      cases hr
      -- the number of an address and the address are used side by side
      have hnat : n = (p.getD (0, 0)).1.toNat ∧ mask = (p.getD (0, 0)).2.toNat := by
        cases p with
        | none => exact Prod.mk.inj hslot
        | some p => exact Prod.mk.inj hslot
      obtain ⟨rfl, rfl⟩ := hnat
      generalize hslot₀ : p.getD (0, 0) = slot
      obtain ⟨addr₀, mask₀⟩ := slot
      constructor
      · intro h
        obtain ⟨addr, mask, hread, -⟩ := h addr₀.toNat addr₀.toNat_lt rfl
        refine ⟨p, addr, mask, rfl, hread, ?_⟩
        rw [hslot₀, ← forall_and_eq_iff]
        intro x hx
        obtain ⟨addr', mask', hread', heq⟩ := h x.toNat x.toNat_lt (by
          rw [← UInt32.toNat_and, hx, UInt32.toNat_and])
        rw [hread] at hread'
        cases hread'
        rwa [← UInt32.toNat_and, ← UInt32.toNat_and, UInt32.toNat_inj] at heq
      · rintro ⟨p', addr, mask, hp', hread, himp⟩ x hx hand
        cases hp'
        rw [hslot₀, ← forall_and_eq_iff] at himp
        refine ⟨addr, mask, hread, ?_⟩
        have hx' : (UInt32.ofNat x).toNat = x := by
          rw [UInt32.toNat_ofNat', Nat.mod_eq_of_lt hx]
        have heq := himp (UInt32.ofNat x) (by
          rw [← UInt32.toNat_inj, UInt32.toNat_and, UInt32.toNat_and, hx', hand])
        rw [← UInt32.toNat_inj, UInt32.toNat_and, UInt32.toNat_and, hx'] at heq
        exact heq
  | false =>
    rw [hf, if_neg Bool.false_ne_true] at hr
    simp only [Bool.false_eq_true, if_false]
    cases hparse : parseU64 j₀ with
    | error e =>
      rw [hparse] at hr
      exact nomatch hr
    | ok n₀ =>
      rw [hparse] at hr
      cases hr
      cases hslot
      have hlt : n₀.toNat % 2 ^ f.bits < 2 ^ f.bits := Nat.mod_lt _ (Nat.two_pow_pos _)
      constructor
      · intro h
        obtain ⟨n, hn, heq⟩ := h (n₀.toNat % 2 ^ f.bits) hlt rfl
        exact ⟨n₀, n, rfl, hn, heq.symm⟩
      · rintro ⟨n₀', n, hn₀, hn, heq⟩ x hx hand
        cases hn₀
        rw [Nat.and_two_pow_sub_one_eq_mod, Nat.and_two_pow_sub_one_eq_mod, Nat.mod_eq_of_lt hx,
          Nat.mod_eq_of_lt hlt] at hand
        exact ⟨n, hn, hand.trans heq.symm⟩

/-! ## Rules -/

/-- The match of an entry; null when it has none. -/
def entryMatch (flow : Json) : Json := (flow.field? "match").getD .null

/-- Every packet that a rule matches meets the value that counts for each field of its entry. -/
def MeetsEveryField (flow : Json) (r : Rule) : Prop :=
  ∀ k : FlowKey, (packKey k).bitAnd r.mask = r.maskedValue →
    ∀ f : MatchField, ∀ j, f.used (entryMatch flow) = some j → f.Meets j (f.get k)

/-- Every packet that a rule matches meets every value its entry has for a field, also those
    that stand under a name that another one takes precedence over. -/
def MeetsEveryName (flow : Json) (r : Rule) : Prop :=
  ∀ k : FlowKey, (packKey k).bitAnd r.mask = r.maskedValue →
    ∀ f : MatchField, ∀ name ∈ f.spellings, ∀ j, (entryMatch flow).field? name = some j →
      f.Meets j (f.get k)

/-- The slots of a rule are those of the match of its entry. -/
theorem exists_slots_of_parseRule {flow : Json} {r : Rule} (h : parseRuleFromJson flow = .ok r) :
    ∃ value mask : FlowKey, r.mask = packKey mask ∧
      r.maskedValue = (packKey value).bitAnd (packKey mask) ∧
      ∀ f, SlotOf f (entryMatch flow) (f.get value, f.get mask) := by
  obtain ⟨tableId, -, h⟩ := EState.bind_eq_ok h
  obtain ⟨priority, -, h⟩ := EState.bind_eq_ok h
  obtain ⟨b, hb, h⟩ := EState.bind_eq_ok h
  obtain ⟨effect, -, h⟩ := EState.bind_eq_ok h
  cases h
  have hslots : ∃ mask : FlowKey, b.mask = packKey mask ∧
      ∀ f, SlotOf f (entryMatch flow) (f.get b.value, f.get mask) := by
    unfold matchOf at hb
    unfold entryMatch
    split at hb
    · next fields hmatch =>
      rw [hmatch]
      exact build_spec hb
    · next hmatch =>
      -- what is not an object has no field
      cases hb
      refine ⟨{}, by decide, fun f => ?_⟩
      have hnone : f.used ((flow.field? "match").getD .null) = none := by
        cases hj : flow.field? "match" with
        | none => cases f <;> rfl
        | some j =>
          cases j with
          | obj fields => exact absurd hj (hmatch fields)
          | _ => cases f <;> rfl
      rw [SlotOf, hnone]
      cases f <;> rfl
  obtain ⟨mask, hmask, hslots⟩ := hslots
  exact ⟨b.value, mask, hmask, by rw [hmask], hslots⟩

/-- The packets of a rule differ in one field as its slot lets them. -/
theorem forall_matched_iff {value mask : FlowKey} (f : MatchField) (p : Nat → Prop) :
    (∀ k : FlowKey, (packKey k).bitAnd (packKey mask) = (packKey value).bitAnd (packKey mask) →
      p (f.get k)) ↔
    ∀ x < 2 ^ f.bits, x &&& f.get mask = f.get value &&& f.get mask → p x := by
  constructor
  · intro h x hx hslot
    have hbits : 2 ^ f.bits ≤ 2 ^ 64 := by cases f <;> decide
    have hget : f.get (f.put value (UInt64.ofNat x)) = x := by
      have hwide : x < 2 ^ 64 := by omega
      rw [MatchField.get_put_self, UInt64.toNat_ofNat', Nat.mod_eq_of_lt hwide,
        Nat.mod_eq_of_lt hx]
    -- the packet that has what the rule asks for everywhere else
    have hp := h (f.put value (UInt64.ofNat x)) (by
      rw [bitAnd_packKey_eq_iff]
      intro g
      by_cases hg : g = f
      · subst hg
        rw [hget, hslot]
      · rw [MatchField.get_put_of_ne hg])
    rwa [hget] at hp
  · intro h k hk
    exact h _ (f.get_lt k) (bitAnd_packKey_eq_iff.mp hk f)

/-- When a rule lets through only what its entry asks for: the values that count can be read and
    fit their slots. When overridden values are to be met as well, they have to follow from the
    ones that count. -/
theorem parseRuleFromJson_meets_iff {flow : Json} {r : Rule}
    (h : parseRuleFromJson flow = .ok r) :
    (MeetsEveryField flow r ↔
      ∀ f : MatchField, ∀ j, f.used (entryMatch flow) = some j → f.Readable j) ∧
    (MeetsEveryName flow r ↔
      ∀ f : MatchField, ∀ name ∈ f.spellings, ∀ j j₀, (entryMatch flow).field? name = some j →
        f.used (entryMatch flow) = some j₀ → f.Implies j₀ j) := by
  obtain ⟨value, mask, hmask, hvalue, hslots⟩ := exists_slots_of_parseRule h
  have hslot : ∀ (f : MatchField) j₀, f.used (entryMatch flow) = some j₀ → ∀ j,
      (∀ k : FlowKey, (packKey k).bitAnd r.mask = r.maskedValue → f.Meets j (f.get k)) ↔
        f.Implies j₀ j := by
    intro f j₀ hused j
    have hf := hslots f
    rw [SlotOf, hused] at hf
    rw [hmask, hvalue, forall_matched_iff f (f.Meets j), forall_meets_iff hf]
  -- Each side asks one slot at a time, and the slot is filled by the value that is used.
  constructor
  · constructor
    · intro hmeets f j hused
      rw [← MatchField.implies_self, ← hslot f j hused]
      exact fun k hk => hmeets k hk f j hused
    · intro hread k hk f j hused
      exact (hslot f j hused j).mpr (MatchField.implies_self.mpr (hread f j hused)) k hk
  · constructor
    · intro hmeets f name hname j j₀ hj hused
      rw [← hslot f j₀ hused]
      exact fun k hk => hmeets k hk f name hname j hj
    · intro himp k hk f name hname j hj
      obtain ⟨j₀, hused⟩ := exists_used hname hj
      exact (hslot f j₀ hused j).mpr (himp f name hname j j₀ hj hused) k hk

/-- A rule of a well-formed entry. -/
theorem parseRuleFromJson_meets_iff_port :
    ∃ r, parseRuleFromJson (.obj [("match", .obj [("tcp_dst", .uint 80)])]) = .ok r ∧
      MeetsEveryField (.obj [("match", .obj [("tcp_dst", .uint 80)])]) r := by
  refine ⟨_, rfl, (parseRuleFromJson_meets_iff rfl).1.mpr fun f j hj => ?_⟩
  cases f
  case tpDst =>
    cases hj
    exact ⟨80, rfl, by decide⟩
  all_goals exact nomatch hj

/-- An address that cannot be read: the entry becomes a rule that matches every destination. -/
theorem unreadable_address_matches :
    ∃ r, parseRuleFromJson
        (.obj [("priority", .uint 9), ("match", .obj [("ipv4_dst", .str "10.0.0.300")])]) = .ok r ∧
      (packKey { ipv4Dst := 0xC0A80001 }).bitAnd r.mask = r.maskedValue ∧
      ¬MeetsEveryField
        (.obj [("priority", .uint 9), ("match", .obj [("ipv4_dst", .str "10.0.0.300")])]) r := by
  have hnone : parseIpv4WithMaskOrPrefix (.str "10.0.0.300") = .ok none := by decide
  refine ⟨_, rfl, by decide, fun hmeets => ?_⟩
  obtain ⟨addr, mask, hread, -⟩ := hmeets {} (by decide) .ipv4Dst (.str "10.0.0.300") rfl
  rw [hnone] at hread
  exact nomatch hread

end Ndtwin.Kernel

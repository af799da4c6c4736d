import Ndtwin.Spec.PackedMatchCorrect

/-!
# Match Fields

The packed key has one slot for each field, so a mask is the packed key of a record of masks,
and masking works field by field. `buildMaskAndValueFromMatch` runs through the names of a
match; what it leaves in a slot is what the last name of that field made of it.

## Key results

- `bitAnd_packKey`, `packKey_inj`: the packed key as a record
- `build_spec`: the slots of a compiled match
- `isOk_build`: a match whose fields can be read is compiled
-/

namespace Ndtwin.Kernel

/-! ## Slots -/

/-- The fields of a packet that a match can ask about. -/
inductive MatchField where
  | inPort
  | ethType
  | ipProto
  | ipv4Src
  | ipv4Dst
  | tpSrc
  | tpDst
  | vlanVid
  | metadata
  deriving DecidableEq, Repr

namespace MatchField

def bits : MatchField → Nat
  | .inPort => 32
  | .ethType => 16
  | .ipProto => 8
  | .ipv4Src => 32
  | .ipv4Dst => 32
  | .tpSrc => 16
  | .tpDst => 16
  | .vlanVid => 16
  | .metadata => 64

/-- The first byte of the slot. -/
def off : MatchField → Nat
  | .inPort => 0
  | .ethType => 4
  | .ipProto => 6
  | .ipv4Src => 8
  | .ipv4Dst => 12
  | .tpSrc => 16
  | .tpDst => 18
  | .vlanVid => 20
  | .metadata => 24

/-- A byte of the packed key that belongs to the slot. -/
def Holds (f : MatchField) (i : Nat) : Prop := f.off ≤ i ∧ i < f.off + f.bits / 8

instance (f : MatchField) (i : Nat) : Decidable (f.Holds i) :=
  inferInstanceAs (Decidable (_ ∧ _))

/-- The content of a slot. -/
def get (f : MatchField) (k : FlowKey) : Nat :=
  match f with
  | .inPort => k.inPort.toNat
  | .ethType => k.ethType.toNat
  | .ipProto => k.ipProto.toNat
  | .ipv4Src => k.ipv4Src.toNat
  | .ipv4Dst => k.ipv4Dst.toNat
  | .tpSrc => k.tpSrc.toNat
  | .tpDst => k.tpDst.toNat
  | .vlanVid => k.vlanTci.toNat
  | .metadata => k.metadata.toNat

/-- A slot written with a number, cut to the width of the slot. -/
def put (f : MatchField) (k : FlowKey) (n : UInt64) : FlowKey :=
  match f with
  | .inPort => { k with inPort := n.toUInt32 }
  | .ethType => { k with ethType := n.toUInt16 }
  | .ipProto => { k with ipProto := n.toUInt8 }
  | .ipv4Src => { k with ipv4Src := n.toUInt32 }
  | .ipv4Dst => { k with ipv4Dst := n.toUInt32 }
  | .tpSrc => { k with tpSrc := n.toUInt16 }
  | .tpDst => { k with tpDst := n.toUInt16 }
  | .vlanVid => { k with vlanTci := n.toUInt16 }
  | .metadata => { k with metadata := n }

theorem get_lt (f : MatchField) (k : FlowKey) : f.get k < 2 ^ f.bits := by
  cases f with
  | inPort => exact k.inPort.toNat_lt
  | ethType => exact k.ethType.toNat_lt
  | ipProto => exact k.ipProto.toNat_lt
  | ipv4Src => exact k.ipv4Src.toNat_lt
  | ipv4Dst => exact k.ipv4Dst.toNat_lt
  | tpSrc => exact k.tpSrc.toNat_lt
  | tpDst => exact k.tpDst.toNat_lt
  | vlanVid => exact k.vlanTci.toNat_lt
  | metadata => exact k.metadata.toNat_lt

theorem get_put_self (f : MatchField) (k : FlowKey) (n : UInt64) :
    f.get (f.put k n) = n.toNat % 2 ^ f.bits := by
  cases f with
  | metadata => exact (Nat.mod_eq_of_lt n.toNat_lt).symm
  | _ => simp [get, put, bits]

theorem get_put_of_ne {f g : MatchField} (h : f ≠ g) (k : FlowKey) (n : UInt64) :
    f.get (g.put k n) = f.get k := by
  cases f <;> cases g <;> first | rfl | exact absurd rfl h

/-- A packet is the record of its fields. -/
theorem ext_get {a b : FlowKey} (h : ∀ f : MatchField, f.get a = f.get b) : a = b := by
  cases a
  cases b
  rw [FlowKey.mk.injEq]
  exact ⟨UInt32.toNat_inj.mp (h .inPort), UInt16.toNat_inj.mp (h .ethType),
    UInt8.toNat_inj.mp (h .ipProto), UInt32.toNat_inj.mp (h .ipv4Src),
    UInt32.toNat_inj.mp (h .ipv4Dst), UInt16.toNat_inj.mp (h .tpSrc),
    UInt16.toNat_inj.mp (h .tpDst), UInt16.toNat_inj.mp (h .vlanVid),
    UInt64.toNat_inj.mp (h .metadata)⟩

end MatchField

/-- Masking field by field. -/
def FlowKey.and (a m : FlowKey) : FlowKey where
  inPort := a.inPort &&& m.inPort
  ethType := a.ethType &&& m.ethType
  ipProto := a.ipProto &&& m.ipProto
  ipv4Src := a.ipv4Src &&& m.ipv4Src
  ipv4Dst := a.ipv4Dst &&& m.ipv4Dst
  tpSrc := a.tpSrc &&& m.tpSrc
  tpDst := a.tpDst &&& m.tpDst
  vlanTci := a.vlanTci &&& m.vlanTci
  metadata := a.metadata &&& m.metadata

theorem MatchField.get_and (f : MatchField) (a m : FlowKey) :
    f.get (a.and m) = f.get a &&& f.get m := by
  cases f with
  | inPort => exact UInt32.toNat_and ..
  | ethType => exact UInt16.toNat_and ..
  | ipProto => exact UInt8.toNat_and ..
  | ipv4Src => exact UInt32.toNat_and ..
  | ipv4Dst => exact UInt32.toNat_and ..
  | tpSrc => exact UInt16.toNat_and ..
  | tpDst => exact UInt16.toNat_and ..
  | vlanVid => exact UInt16.toNat_and ..
  | metadata => exact UInt64.toNat_and ..

/-! ## The packed key as a record -/

theorem u16Be_and (a b : UInt16) :
    u16Be (a &&& b) = List.zipWith (· &&& ·) (u16Be a) (u16Be b) := by
  simp [u16Be, UInt16.shiftRight_and]

theorem u32Be_and (a b : UInt32) :
    u32Be (a &&& b) = List.zipWith (· &&& ·) (u32Be a) (u32Be b) := by
  simp [u32Be, UInt32.shiftRight_and]

theorem u64Be_and (a b : UInt64) :
    u64Be (a &&& b) = List.zipWith (· &&& ·) (u64Be a) (u64Be b) := by
  simp [u64Be, UInt64.shiftRight_and]

theorem u64Be_inj {a b : UInt64} : u64Be a = u64Be b ↔ a = b := by
  constructor
  · intro h
    simp only [u64Be, List.cons.injEq, ← UInt8.toNat_inj, UInt64.toNat_toUInt8,
      UInt64.toNat_shiftRight, and_true] at h
    obtain ⟨h₇, h₆, h₅, h₄, h₃, h₂, h₁, h₀⟩ := h
    have ha := a.toNat_lt
    have hb := b.toNat_lt
    rw [← UInt64.toNat_inj]
    simp [Nat.shiftRight_eq_div_pow] at h₇ h₆ h₅ h₄ h₃ h₂ h₁ h₀
    -- the eight bytes are the digits of the number
    omega
  · rintro rfl
    rfl

theorem bitAnd_packKey (a m : FlowKey) : (packKey a).bitAnd (packKey m) = packKey (a.and m) := by
  apply KeyBytes.eq_of_bytes_eq
  show List.zipWith _ (packKey a).bytes (packKey m).bytes = _
  simp only [packKey, FlowKey.and, u16Be_and, u32Be_and, u64Be_and]
  rfl

/-- The slots of a packed key. -/
theorem packKey_inj {a b : FlowKey} : packKey a = packKey b ↔ a = b := by
  refine ⟨fun h => ?_, fun h => congrArg packKey h⟩
  -- every field is read back at its place
  have hslice : ∀ off width, ((packKey a).bytes.drop off).take width =
      ((packKey b).bytes.drop off).take width := fun off width => by rw [h]
  cases a
  cases b
  rw [FlowKey.mk.injEq]
  exact ⟨u32Be_inj.mp (hslice 0 4), u16Be_inj.mp (hslice 4 2),
    (List.cons.inj (hslice 6 1)).1, u32Be_inj.mp (hslice 8 4), u32Be_inj.mp (hslice 12 4),
    u16Be_inj.mp (hslice 16 2), u16Be_inj.mp (hslice 18 2), u16Be_inj.mp (hslice 20 2),
    u64Be_inj.mp (hslice 24 8)⟩

/-- Two packets agree under a packed mask when they agree under it in every field. -/
theorem bitAnd_packKey_eq_iff {a b m : FlowKey} :
    (packKey a).bitAnd (packKey m) = (packKey b).bitAnd (packKey m) ↔
      ∀ f : MatchField, f.get a &&& f.get m = f.get b &&& f.get m := by
  rw [bitAnd_packKey, bitAnd_packKey, packKey_inj]
  constructor
  · intro h f
    rw [← f.get_and, ← f.get_and, h]
  · intro h
    apply MatchField.ext_get
    intro f
    rw [f.get_and, f.get_and, h f]

/-- Bytes that are or-ed into the middle of a key. -/
theorem bytes_orAt {k : KeyBytes} {pre mid post bs : List UInt8} (hk : k.bytes = pre ++ (mid ++ post))
    (hmid : mid.length = bs.length) :
    (k.orAt pre.length bs).bytes = pre ++ (List.zipWith (· ||| ·) mid bs ++ post) := by
  show k.bytes.mapIdx _ = _
  rw [hk, List.mapIdx_append, List.mapIdx_append]
  congr 1
  · -- before the offset
    apply List.ext_getElem?
    intro i
    rw [List.getElem?_mapIdx]
    cases hi : pre[i]? with
    | none => rfl
    | some b =>
      obtain ⟨hlt, -⟩ := List.getElem?_eq_some_iff.mp hi
      rw [Option.map_some, if_neg (by omega)]
  · congr 1
    · -- where the bytes are or-ed
      apply List.ext_getElem?
      intro i
      rw [List.getElem?_mapIdx, List.getElem?_zipWith']
      cases hi : mid[i]? with
      | none => rfl
      | some b =>
        obtain ⟨hlt, -⟩ := List.getElem?_eq_some_iff.mp hi
        have hbs : i < bs.length := by omega
        simp [List.getElem?_eq_getElem hbs]
    · -- behind the last of the bytes
      apply List.ext_getElem?
      intro i
      rw [List.getElem?_mapIdx]
      cases hi : post[i]? with
      | none => rfl
      | some b =>
        have hnone : bs[i + mid.length + pre.length - pre.length]? = none := by
          rw [List.getElem?_eq_none]
          omega
        rw [Option.map_some, if_pos (by omega), hnone]
        simp

namespace MatchField

/-- The bytes of a number in the slot, most significant first. -/
def be (f : MatchField) (n : UInt64) : List UInt8 :=
  match f with
  | .inPort => u32Be n.toUInt32
  | .ethType => u16Be n.toUInt16
  | .ipProto => [n.toUInt8]
  | .ipv4Src => u32Be n.toUInt32
  | .ipv4Dst => u32Be n.toUInt32
  | .tpSrc => u16Be n.toUInt16
  | .tpDst => u16Be n.toUInt16
  | .vlanVid => u16Be n.toUInt16
  | .metadata => u64Be n

theorem length_be (f : MatchField) (n : UInt64) : (f.be n).length = f.bits / 8 := by
  cases f <;> simp [be, u16Be, u32Be, u64Be, bits]

theorem be_or (f : MatchField) (a b : UInt64) :
    f.be (a ||| b) = List.zipWith (· ||| ·) (f.be a) (f.be b) := by
  cases f <;> simp [be, u16Be, u32Be, u64Be, UInt16.shiftRight_or, UInt32.shiftRight_or,
    UInt64.shiftRight_or]

/-- All ones, as the mask of a whole field is written. -/
theorem be_neg_one (f : MatchField) : f.be (-1) = List.replicate (f.bits / 8) 0xFF := by
  cases f <;> decide

theorem be_zero (f : MatchField) : f.be 0 = List.replicate (f.bits / 8) 0 := by
  cases f <;> decide

/-- A packed key around a slot: what is before it and behind it does not depend on the number
    in it. -/
theorem exists_split (f : MatchField) (k : FlowKey) :
    ∃ pre post, pre.length = f.off ∧
      ∀ n, (packKey (f.put k n)).bytes = pre ++ (f.be n ++ post) := by
  let bytes := (packKey k).bytes
  refine ⟨bytes.take f.off, bytes.drop (f.off + f.bits / 8), ?_, ?_⟩
  · cases f <;> rfl
  · intro n
    cases f <;> rfl

theorem put_get (f : MatchField) (k : FlowKey) : f.put k (UInt64.ofNat (f.get k)) = k := by
  apply ext_get
  intro g
  by_cases h : g = f
  · subst h
    have hlt := g.get_lt k
    have hbits : g.bits ≤ 64 := by cases g <;> decide
    -- a field is no wider than the number that is put into it
    have hlt' := Nat.lt_of_lt_of_le hlt (Nat.pow_le_pow_right (by decide) hbits)
    rw [get_put_self, UInt64.toNat_ofNat', Nat.mod_eq_of_lt hlt', Nat.mod_eq_of_lt hlt]
  · rw [get_put_of_ne h]

/-- Bytes that are or-ed into a slot are or-ed to the number in it. -/
theorem orAt_packKey (f : MatchField) (k : FlowKey) (n : UInt64) :
    (packKey k).orAt f.off (f.be n) = packKey (f.put k (UInt64.ofNat (f.get k) ||| n)) := by
  obtain ⟨pre, post, hpre, hbytes⟩ := f.exists_split k
  apply KeyBytes.eq_of_bytes_eq
  have hk : (packKey k).bytes = pre ++ (f.be (UInt64.ofNat (f.get k)) ++ post) := by
    rw [← hbytes, put_get]
  rw [← hpre, bytes_orAt hk (by rw [length_be, length_be]), hbytes, be_or]

/-- A byte of a slot that holds zero. -/
theorem getElem?_packKey_of_get_eq_zero {f : MatchField} {k : FlowKey} {i : Nat} (h : f.Holds i)
    (hzero : f.get k = 0) : (packKey k).bytes[i]? = some 0 := by
  obtain ⟨pre, post, hpre, hbytes⟩ := f.exists_split k
  obtain ⟨hoff, hend⟩ := h
  have hk := hbytes (UInt64.ofNat (f.get k))
  rw [put_get, hzero, show UInt64.ofNat 0 = 0 from rfl, be_zero] at hk
  rw [hk, List.getElem?_append_right (by omega), List.getElem?_append_left (by simp; omega),
    List.getElem?_replicate_of_lt (by omega)]

/-- No byte belongs to two slots. -/
theorem eq_of_holds {f g : MatchField} {i : Nat} (hf : f.Holds i) (hg : g.Holds i) : f = g := by
  unfold Holds at hf hg
  cases f <;> cases g <;> simp only [off, bits] at hf hg <;> first | rfl | omega

/-- The bytes that belong to no slot are padding. -/
theorem holds_or_padding {i : Nat} (hi : i < kKeyBytes) :
    (∃ f : MatchField, f.Holds i) ∨ ∀ k, (packKey k).bytes[i]? = some 0 := by
  by_contra hnone
  rw [not_or, not_exists] at hnone
  obtain ⟨hslot, hpad⟩ := hnone
  -- what the slots leave out
  have hmem : i = 7 ∨ i = 22 ∨ i = 23 := by
    have h₀ := hslot .inPort
    have h₁ := hslot .ethType
    have h₂ := hslot .ipProto
    have h₃ := hslot .ipv4Src
    have h₄ := hslot .ipv4Dst
    have h₅ := hslot .tpSrc
    have h₆ := hslot .tpDst
    have h₇ := hslot .vlanVid
    have h₈ := hslot .metadata
    simp only [Holds, off, bits, kKeyBytes] at h₀ h₁ h₂ h₃ h₄ h₅ h₆ h₇ h₈ hi
    omega
  apply hpad
  rcases hmem with rfl | rfl | rfl <;> exact fun _ => rfl

end MatchField

/-! ## A match, name by name -/

namespace MatchField

/-- The names of a field, the one that is used first. -/
def spellings : MatchField → List String
  | .inPort => ["in_port"]
  | .ethType => ["eth_type", "dl_type"]
  | .ipProto => ["ip_proto", "nw_proto"]
  | .ipv4Src => ["ipv4_src", "nw_src"]
  | .ipv4Dst => ["ipv4_dst", "nw_dst"]
  | .tpSrc => ["tp_src", "udp_src", "tcp_src"]
  | .tpDst => ["tp_dst", "udp_dst", "tcp_dst"]
  | .vlanVid => ["vlan_vid"]
  | .metadata => ["metadata"]

def isAddress : MatchField → Bool
  | .ipv4Src | .ipv4Dst => true
  | _ => false

/-- The value of a match that counts for a field. -/
def used (f : MatchField) (m : Json) : Option Json := firstField m f.spellings

/-- What the parser of a field makes of a value: number and mask of the slot, `none` when the
    slot is left alone. -/
def read (f : MatchField) (j : Json) : Except ParseError (Option (Nat × Nat)) :=
  if f.isAddress then
    (parseIpv4WithMaskOrPrefix j).map (Option.map fun r => (r.1.toNat, r.2.toNat))
  else (parseU64 j).map fun n => some (n.toNat % 2 ^ f.bits, 2 ^ f.bits - 1)

/-- The parser of a field. -/
def apply (f : MatchField) (j : Json) (b : MatchBuild) : Except ParseError MatchBuild :=
  match f with
  | .ipv4Src => applyIpv4Masked true j b
  | .ipv4Dst => applyIpv4Masked false j b
  | f => numericField f.off (f.bits / 8) f.put j b

end MatchField

/-- The places where a match is looked into, in the order of the source. -/
def matchSteps (m : Json) : List (MatchField × Option Json) :=
  [(.inPort, m.field? "in_port"), (.ethType, firstField m ["eth_type", "dl_type"]),
    (.ipProto, firstField m ["ip_proto", "nw_proto"]),
    (.ipv4Src, firstField m ["ipv4_src", "nw_src"]),
    (.ipv4Dst, firstField m ["ipv4_dst", "nw_dst"]), (.tpSrc, m.field? "tcp_src"),
    (.tpDst, m.field? "tcp_dst"), (.tpSrc, m.field? "udp_src"), (.tpDst, m.field? "udp_dst"),
    (.tpSrc, m.field? "tp_src"), (.tpDst, m.field? "tp_dst"), (.vlanVid, m.field? "vlan_vid"),
    (.metadata, m.field? "metadata")]

/-- One of the places. -/
def matchStep (b : MatchBuild) (step : MatchField × Option Json) : Except ParseError MatchBuild :=
  withField step.2 step.1.apply b

theorem buildMaskAndValueFromMatch_eq (m : Json) :
    buildMaskAndValueFromMatch m = (matchSteps m).foldlM matchStep {} := by
  unfold buildMaskAndValueFromMatch
  simp only [matchSteps, matchStep, List.foldlM_cons, List.foldlM_nil, bind_pure]
  rfl

/-- The values that are given for a field, in the order they are looked at. -/
def given (f : MatchField) (steps : List (MatchField × Option Json)) : List Json :=
  steps.filterMap fun step => if step.1 = f then step.2 else none

/-- The last value that is given for a field is the one that counts. -/
theorem getLast?_given (f : MatchField) (m : Json) : (given f (matchSteps m)).getLast? = f.used m := by
  cases f
  -- the ports have three names, each looked at in a place of its own
  case tpSrc =>
    simp only [given, matchSteps, MatchField.used, MatchField.spellings, firstField]
    cases m.field? "tcp_src" <;> cases m.field? "udp_src" <;> cases m.field? "tp_src" <;> rfl
  case tpDst =>
    simp only [given, matchSteps, MatchField.used, MatchField.spellings, firstField]
    cases m.field? "tcp_dst" <;> cases m.field? "udp_dst" <;> cases m.field? "tp_dst" <;> rfl
  all_goals
    simp only [given, matchSteps, MatchField.used, MatchField.spellings, List.filterMap_cons,
      List.filterMap_nil, reduceCtorEq, if_false, if_true, firstField]
  case inPort => cases m.field? "in_port" <;> rfl
  case ethType => cases m.field? "eth_type" <;> cases m.field? "dl_type" <;> rfl
  case ipProto => cases m.field? "ip_proto" <;> cases m.field? "nw_proto" <;> rfl
  case ipv4Src => cases m.field? "ipv4_src" <;> cases m.field? "nw_src" <;> rfl
  case ipv4Dst => cases m.field? "ipv4_dst" <;> cases m.field? "nw_dst" <;> rfl
  case vlanVid => cases m.field? "vlan_vid" <;> rfl
  case metadata => cases m.field? "metadata" <;> rfl

/-! ## Slot by slot -/

/-- The slots of a match that is being built: number and mask of every field. -/
def Slots (b : MatchBuild) (slots : MatchField → Nat × Nat) : Prop :=
  ∃ mask : FlowKey, b.mask = packKey mask ∧ ∀ f, slots f = (f.get b.value, f.get mask)

theorem slots_empty : Slots {} fun _ => (0, 0) :=
  ⟨{}, by decide, fun f => by cases f <;> rfl⟩

/-- A number written into one slot, with a mask that is or-ed to the one there. -/
theorem Slots.put {b : MatchBuild} {slots : MatchField → Nat × Nat} (h : Slots b slots)
    (f : MatchField) (n mask : UInt64) :
    Slots { mask := b.mask.orAt f.off (f.be mask), value := f.put b.value n }
      (Function.update slots f
        (n.toNat % 2 ^ f.bits, (UInt64.ofNat (slots f).2 ||| mask).toNat % 2 ^ f.bits)) := by
  obtain ⟨key, hmask, hslots⟩ := h
  refine ⟨f.put key (UInt64.ofNat (f.get key) ||| mask), ?_, ?_⟩
  · show b.mask.orAt _ _ = _
    rw [hmask, MatchField.orAt_packKey]
  · intro g
    -- the other slots are as they were
    by_cases hg : g = f
    · subst hg
      rw [Function.update_self, MatchField.get_put_self, MatchField.get_put_self, hslots]
    · rw [Function.update_of_ne hg, MatchField.get_put_of_ne hg, MatchField.get_put_of_ne hg,
        hslots]

/-- A numeric field is the parser of numbers, and a write. -/
theorem apply_numeric {f : MatchField} (hf : f.isAddress = false) (j : Json) (b : MatchBuild) :
    f.apply j b = numericField f.off (f.bits / 8) f.put j b := by
  cases f with
  | ipv4Src => exact nomatch hf
  | ipv4Dst => exact nomatch hf
  | _ => rfl

/-- A numeric field fills its slot. -/
theorem slots_numeric {b b' : MatchBuild} {slots : MatchField → Nat × Nat} (h : Slots b slots)
    {f : MatchField} {j : Json} (hf : f.isAddress = false) (happly : f.apply j b = .ok b') :
    ∃ r, f.read j = .ok r ∧ Slots b' (Function.update slots f (r.getD (slots f))) := by
  rw [apply_numeric hf] at happly
  obtain ⟨n, hn, hb⟩ := EState.bind_eq_ok happly
  cases hb
  refine ⟨some (n.toNat % 2 ^ f.bits, 2 ^ f.bits - 1), ?_, ?_⟩
  · rw [MatchField.read, hf, if_neg Bool.false_ne_true, hn]
    rfl
  · have hslots := h.put f n (-1)
    -- the mask is all ones, whatever was there
    have hones : ((-1 : UInt64).toNat) % 2 ^ f.bits = 2 ^ f.bits - 1 := by
      cases f <;> decide
    rw [MatchField.be_neg_one, UInt64.or_neg_one, hones] at hslots
    exact hslots

theorem bits_eq_of_isAddress {f : MatchField} (hf : f.isAddress = true) : f.bits = 32 := by
  cases f with
  | ipv4Src => rfl
  | ipv4Dst => rfl
  | _ => exact nomatch hf

/-- An address field writes the address that it reads, and nothing when it reads none. -/
theorem apply_address {f : MatchField} (hf : f.isAddress = true) (j : Json) (b : MatchBuild) :
    f.apply j b = (parseIpv4WithMaskOrPrefix j).map fun
      | none => b
      | some (addr, mask) =>
        { mask := b.mask.orAt f.off (f.be mask.toUInt64)
          value := f.put b.value addr.toUInt64 } := by
  cases f with
  | ipv4Src =>
    rw [MatchField.apply, applyIpv4Masked]
    rcases parseIpv4WithMaskOrPrefix j with e | (_ | ⟨addr, mask⟩)
    · rfl
    · rfl
    · simp [bind, pure, Except.bind, Except.pure, Except.map, MatchField.off, MatchField.be,
        MatchField.put]
  | ipv4Dst =>
    rw [MatchField.apply, applyIpv4Masked]
    rcases parseIpv4WithMaskOrPrefix j with e | (_ | ⟨addr, mask⟩)
    · rfl
    · rfl
    · simp [bind, pure, Except.bind, Except.pure, Except.map, MatchField.off, MatchField.be,
        MatchField.put]
  | _ => exact nomatch hf

/-- An address that can be read fills its slot, if it was empty. -/
theorem slots_address {b b' : MatchBuild} {slots : MatchField → Nat × Nat} (h : Slots b slots)
    {f : MatchField} {j : Json} (hf : f.isAddress = true) (hzero : (slots f).2 = 0)
    (happly : f.apply j b = .ok b') :
    ∃ r, f.read j = .ok r ∧ Slots b' (Function.update slots f (r.getD (slots f))) := by
  rw [apply_address hf] at happly
  unfold MatchField.read
  rw [if_pos hf]
  cases hparse : parseIpv4WithMaskOrPrefix j with
  | error e =>
    rw [hparse] at happly
    exact nomatch happly
  | ok p =>
    rw [hparse] at happly
    cases happly
    refine ⟨_, rfl, ?_⟩
    cases p with
    -- an address that is left alone
    | none => simpa using h
    | some r =>
      obtain ⟨addr, mask⟩ := r
      have hslots := h.put f addr.toUInt64 mask.toUInt64
      rw [hzero, bits_eq_of_isAddress hf] at hslots
      simpa [Nat.mod_eq_of_lt addr.toNat_lt, Nat.mod_eq_of_lt mask.toNat_lt] using hslots

/-- What a run through the places makes of a slot: what the last value for the field says. -/
def SlotAfter (f : MatchField) (last : Option Json) (before after : Nat × Nat) : Prop :=
  match last with
  | none => after = before
  | some j => ∃ r, f.read j = .ok r ∧ after = r.getD before

theorem given_cons_self (f : MatchField) (j : Json) (steps : List (MatchField × Option Json)) :
    given f ((f, some j) :: steps) = j :: given f steps := by
  simp [given]

theorem given_cons_none (f g : MatchField) (steps : List (MatchField × Option Json)) :
    given f ((g, none) :: steps) = given f steps := by
  simp [given]

theorem given_cons_of_ne {f g : MatchField} (h : f ≠ g) (j : Option Json)
    (steps : List (MatchField × Option Json)) :
    given f ((g, j) :: steps) = given f steps := by
  simp [given, h.symm]

/-- A number fills its slot whatever was in it. -/
theorem SlotAfter.of_numeric {f : MatchField} (hf : f.isAddress = false) {j : Json}
    {before before' after : Nat × Nat} (h : SlotAfter f (some j) before after) :
    SlotAfter f (some j) before' after := by
  obtain ⟨r, hr, rfl⟩ := h
  refine ⟨r, hr, ?_⟩
  rw [MatchField.read, hf, if_neg Bool.false_ne_true] at hr
  cases hparse : parseU64 j with
  | error e =>
    rw [hparse] at hr
    exact nomatch hr
  | ok n =>
    rw [hparse] at hr
    cases hr
    rfl

/-- Run lemma. An address is given at most once, so its slot is empty when it is written. -/
theorem slots_foldlM {steps : List (MatchField × Option Json)} {b b' : MatchBuild}
    {slots : MatchField → Nat × Nat} (h : Slots b slots)
    (hfree : ∀ f, f.isAddress = true → given f steps ≠ [] → (slots f).2 = 0)
    (honce : ∀ f, f.isAddress = true → (given f steps).length ≤ 1)
    (hrun : steps.foldlM matchStep b = .ok b') :
    ∃ slots', Slots b' slots' ∧ ∀ f, SlotAfter f (given f steps).getLast? (slots f) (slots' f) := by
  -- by induction on the places, with what the slots hold when one is reached
  induction steps generalizing b slots with
  | nil =>
    cases hrun
    exact ⟨slots, h, fun _ => rfl⟩
  | cons step steps ih =>
    obtain ⟨g, j⟩ := step
    rw [List.foldlM_cons] at hrun
    obtain ⟨b₁, hstep, hlater⟩ := EState.bind_eq_ok hrun
    cases j with
    | none =>
      cases hstep
      simp only [given_cons_none] at hfree honce ⊢
      exact ih h hfree honce hlater
    | some j =>
      have hslots : ∃ r, g.read j = .ok r ∧
          Slots b₁ (Function.update slots g (r.getD (slots g))) := by
        cases hg : g.isAddress with
        | false => exact slots_numeric h hg hstep
        | true =>
          refine slots_address h hg (hfree g hg ?_) hstep
          rw [given_cons_self]
          exact List.cons_ne_nil _ _
      obtain ⟨r, hr, hslots⟩ := hslots
      -- behind this place an address is not given again
      have hrest : g.isAddress = true → given g steps = [] := by
        intro hg
        have hlen := honce g hg
        rw [given_cons_self, List.length_cons] at hlen
        exact List.length_eq_zero_iff.mp (by omega)
      obtain ⟨slots', hslots', hafter⟩ := ih hslots
        (fun f hf hne => by
          by_cases hfg : f = g
          · subst hfg
            exact absurd (hrest hf) hne
          · rw [Function.update_of_ne hfg]
            exact hfree f hf (by rwa [given_cons_of_ne hfg]))
        (fun f hf => by
          by_cases hfg : f = g
          · subst hfg
            rw [hrest hf]
            exact Nat.zero_le 1
          · have hlen := honce f hf
            rwa [given_cons_of_ne hfg] at hlen)
        hlater
      refine ⟨slots', hslots', fun f => ?_⟩
      have hf := hafter f
      by_cases hfg : f = g
      · subst hfg
        rw [given_cons_self]
        rw [Function.update_self] at hf
        -- this place is the last one for the field, or a later one overwrites it
        cases hgiven : given f steps with
        | nil =>
          rw [hgiven] at hf
          exact ⟨r, hr, hf⟩
        | cons j' js =>
          rw [hgiven] at hf
          rw [List.getLast?_cons_cons]
          cases haddr : f.isAddress with
          | false =>
            rw [List.getLast?_cons] at hf ⊢
            exact hf.of_numeric haddr
          | true =>
            rw [hrest haddr] at hgiven
            exact nomatch hgiven
      · rw [Function.update_of_ne hfg] at hf
        rwa [given_cons_of_ne hfg]

/-- What a slot of a compiled match holds: what the value says that counts for the field, and
    zero under an empty mask when there is none. -/
def SlotOf (f : MatchField) (m : Json) (slot : Nat × Nat) : Prop :=
  SlotAfter f (f.used m) (0, 0) slot

theorem build_spec {m : Json} {b : MatchBuild} (h : buildMaskAndValueFromMatch m = .ok b) :
    ∃ mask : FlowKey, b.mask = packKey mask ∧ ∀ f, SlotOf f m (f.get b.value, f.get mask) := by
  rw [buildMaskAndValueFromMatch_eq] at h
  -- an address has one place, which looks for both its names
  have honce : ∀ f : MatchField, f.isAddress = true → (given f (matchSteps m)).length ≤ 1 := by
    intro f hf
    cases f with
    | ipv4Src =>
      simp only [given, matchSteps, List.filterMap_cons, List.filterMap_nil, reduceCtorEq,
        if_false, if_true]
      cases firstField m ["ipv4_src", "nw_src"] <;> simp
    | ipv4Dst =>
      simp only [given, matchSteps, List.filterMap_cons, List.filterMap_nil, reduceCtorEq,
        if_false, if_true]
      cases firstField m ["ipv4_dst", "nw_dst"] <;> simp
    | _ => exact nomatch hf
  obtain ⟨slots, ⟨mask, hmask, hslots⟩, hafter⟩ :=
    slots_foldlM slots_empty (fun _ _ _ => rfl) honce h
  refine ⟨mask, hmask, fun f => ?_⟩
  have hf := hafter f
  rwa [getLast?_given, hslots] at hf

/-! ## Reading all fields -/

theorem isOk_apply {f : MatchField} {j : Json} {r : Option (Nat × Nat)} (h : f.read j = .ok r)
    (b : MatchBuild) : ∃ b', f.apply j b = .ok b' := by
  unfold MatchField.read at h
  cases hf : f.isAddress with
  | true =>
    rw [if_pos hf] at h
    rw [apply_address hf]
    cases hparse : parseIpv4WithMaskOrPrefix j with
    | error e =>
      rw [hparse] at h
      exact nomatch h
    | ok p => exact ⟨_, rfl⟩
  | false =>
    rw [hf, if_neg Bool.false_ne_true] at h
    rw [apply_numeric hf, numericField]
    cases hparse : parseU64 j with
    | error e =>
      rw [hparse] at h
      exact nomatch h
    | ok n => exact ⟨_, rfl⟩

/-- Values that can all be read are compiled. -/
theorem isOk_foldlM {steps : List (MatchField × Option Json)}
    (h : ∀ f, ∀ j ∈ given f steps, ∃ r, f.read j = .ok r) (b : MatchBuild) :
    ∃ b', steps.foldlM matchStep b = .ok b' := by
  induction steps generalizing b with
  | nil => exact ⟨b, rfl⟩
  | cons step steps ih =>
    obtain ⟨f, j⟩ := step
    have hok : ∃ b₁, matchStep b (f, j) = .ok b₁ := by
      cases j with
      | none => exact ⟨b, rfl⟩
      | some j =>
        obtain ⟨r, hr⟩ := h f j (by rw [given_cons_self]; exact List.mem_cons_self)
        exact isOk_apply hr b
    obtain ⟨b₁, hb₁⟩ := hok
    rw [List.foldlM_cons, hb₁]
    refine ih (fun g j' hj' => h g j' ?_) b₁
    -- what is given behind a place is given
    unfold given at hj' ⊢
    rw [List.filterMap_cons]
    split
    · exact hj'
    · exact List.mem_cons_of_mem _ hj'

theorem exists_of_firstField {m j : Json} {names : List String}
    (h : firstField m names = some j) : ∃ name ∈ names, m.field? name = some j := by
  induction names with
  | nil => exact nomatch h
  | cons name names ih =>
    rw [firstField] at h
    cases hname : m.field? name with
    | some j' =>
      rw [hname] at h
      exact ⟨name, List.mem_cons_self, hname.trans h⟩
    | none =>
      rw [hname] at h
      obtain ⟨name', hmem, hname'⟩ := ih h
      exact ⟨name', List.mem_cons_of_mem _ hmem, hname'⟩

/-- Every value that is looked at for a field stands under one of its names. -/
theorem exists_of_mem_given {f : MatchField} {m j : Json} (h : j ∈ given f (matchSteps m)) :
    ∃ name ∈ f.spellings, m.field? name = some j := by
  obtain ⟨⟨g, value⟩, hmem, hvalue⟩ := List.mem_filterMap.mp h
  dsimp only at hvalue
  split at hvalue
  · next hg =>
    subst hg
    cases hvalue
    simp only [matchSteps, List.mem_cons, Prod.mk.injEq, List.not_mem_nil, or_false] at hmem
    clear h
    rcases hmem with ⟨rfl, h⟩ | ⟨rfl, h⟩ | ⟨rfl, h⟩ | ⟨rfl, h⟩ | ⟨rfl, h⟩ | ⟨rfl, h⟩ | ⟨rfl, h⟩ |
      ⟨rfl, h⟩ | ⟨rfl, h⟩ | ⟨rfl, h⟩ | ⟨rfl, h⟩ | ⟨rfl, h⟩ | ⟨rfl, h⟩
    all_goals first
      | exact exists_of_firstField h.symm
      | exact ⟨_, by simp [MatchField.spellings], h.symm⟩
  · cases hvalue

/-- A match whose values can all be read is compiled. -/
theorem isOk_build {m : Json}
    (h : ∀ f : MatchField, ∀ name ∈ f.spellings, ∀ j, m.field? name = some j →
      ∃ r, f.read j = .ok r) :
    ∃ b, buildMaskAndValueFromMatch m = .ok b := by
  rw [buildMaskAndValueFromMatch_eq]
  apply isOk_foldlM
  intro f j hj
  obtain ⟨name, hname, hfield⟩ := exists_of_mem_given hj
  exact h f name hname j hfield

/-- The value that counts for a field is one that stands under one of its names. -/
theorem exists_of_used {f : MatchField} {m j : Json} (h : f.used m = some j) :
    ∃ name ∈ f.spellings, m.field? name = some j :=
  exists_of_firstField h

/-- A name that is there makes some value count. -/
theorem exists_used {m j : Json} {name : String} {names : List String} (hname : name ∈ names)
    (h : m.field? name = some j) : ∃ j₀, firstField m names = some j₀ := by
  induction names with
  | nil => exact absurd hname List.not_mem_nil
  | cons first names ih =>
    rw [firstField]
    cases hfirst : m.field? first with
    | some j₀ => exact ⟨j₀, rfl⟩
    | none =>
      rcases List.mem_cons.mp hname with rfl | hname
      · rw [hfirst] at h
        exact nomatch h
      · exact ih hname

end Ndtwin.Kernel

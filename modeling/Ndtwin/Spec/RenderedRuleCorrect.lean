import Ndtwin.ForStd.Decimal
import Ndtwin.Proxy.RyuFlowStats
import Ndtwin.Spec.PackedMatchCorrect
import Ndtwin.Spec.SwitchTablesCorrect

/-!
# Rendered Rules

One entry of a switch goes through three representations: byte strings in the tables of the
switch, a match under Ryu's names, and a packed mask with a masked value. The classifier reads a
rendered entry back as a rule that matches exactly the packets that hit the entry.

## Key results

- `build_ryuMatch`: what `buildMaskAndValueFromMatch` makes of a rendered match
- `askedMask_matches_iff`: the packets that match it
- `parseRule_of_renders`: the rule of a rendered entry
-/

namespace Ndtwin.Spec

open Ndtwin.Kernel Ndtwin.Proxy

/-- The key under which the classifier looks up an IPv4 packet. -/
def flowKeyOf (p : PacketKeys) : Kernel.FlowKey where
  inPort := UInt32.ofNat (p.value .ingressPort)
  ethType := 0x0800
  ipProto := UInt8.ofNat (p.value .protocol)
  ipv4Src := UInt32.ofNat (p.value .srcAddr)
  ipv4Dst := UInt32.ofNat (p.value .dstAddr)
  tpSrc := UInt16.ofNat (p.value .l4SrcPort)
  tpDst := UInt16.ofNat (p.value .l4DstPort)

/-! ## Rendered matches -/

/-- What an entry asks of some fields: for each the bytes of a value, of the width of the
    field. -/
abbrev FieldValues := List (P4Field × List UInt8)

/-- The name of a field in a rendered match. -/
def ryuName : P4Field → String
  | .ingressPort => "in_port"
  | .srcAddr => "nw_src"
  | .dstAddr => "nw_dst"
  | .protocol => "nw_proto"
  | .l4SrcPort => "tp_src"
  | .l4DstPort => "tp_dst"

/-- The value of a field in a rendered match. -/
def ryuValue (field : P4Field) (bytes : List UInt8) : Json :=
  if field.isAddress then .str (String.ofList (Decimal.dottedQuad bytes))
  else .uint (Python.fromBytes bytes)

/-- A field of a rendered match. -/
def ryuField (v : P4Field × List UInt8) : String × Json := (ryuName v.1, ryuValue v.1 v.2)

/-- Some field is one of the IPv4 header or of what it carries. -/
def aboutIpv4 (values : FieldValues) : Bool := values.any fun v => v.1 ≠ .ingressPort

/-- A rendered match. -/
def ryuMatch (values : FieldValues) : List (String × Json) :=
  if aboutIpv4 values then values.map ryuField ++ [("dl_type", .uint ethTypeIpv4)]
  else values.map ryuField

/-- The bytes asked of a field. -/
def askedBytes (values : FieldValues) (field : P4Field) : Option (List UInt8) :=
  (values.find? fun v => v.1 = field).map Prod.snd

theorem ryuName_inj {f g : P4Field} : ryuName f = ryuName g ↔ f = g := by
  cases f <;> cases g <;> decide

theorem ryuName_ne_dl_type (f : P4Field) : ryuName f ≠ "dl_type" := by
  cases f <;> decide

theorem field?_obj (fields : List (String × Json)) (key : String) :
    (Json.obj fields).field? key = (fields.find? fun f => f.1 = key).map Prod.snd := rfl

/-- A field of the match, by its name. -/
theorem field?_map_ryuField (values : FieldValues) (field : P4Field) :
    (Json.obj (values.map ryuField)).field? (ryuName field) =
      (askedBytes values field).map (ryuValue field) := by
  unfold askedBytes
  induction values with
  | nil => rfl
  | cons v values ih =>
    rw [field?_obj] at ih ⊢
    rw [List.map_cons]
    by_cases hv : v.1 = field
    · rw [List.find?_cons_of_pos (by simp [ryuField, hv]), List.find?_cons_of_pos (by simp [hv])]
      simp only [ryuField, Option.map_some, hv]
    · rw [List.find?_cons_of_neg (by simp [ryuField, ryuName_inj, hv]),
        List.find?_cons_of_neg (by simp [hv])]
      exact ih

theorem field?_ryuMatch (values : FieldValues) (field : P4Field) :
    (Json.obj (ryuMatch values)).field? (ryuName field) =
      (askedBytes values field).map (ryuValue field) := by
  rw [← field?_map_ryuField]
  unfold ryuMatch
  split
  · rw [field?_obj, field?_obj, List.find?_append,
      List.find?_cons_of_neg (by simp [Ne.symm (ryuName_ne_dl_type field)]),
      List.find?_nil, Option.or_none]
  · rfl

/-- A name that no field is rendered under. -/
theorem field?_map_ryuField_none (values : FieldValues) {name : String}
    (hname : ∀ f, ryuName f ≠ name) : (values.map ryuField).find? (fun f => f.1 = name) = none := by
  rw [List.find?_eq_none]
  intro f hf
  obtain ⟨v, -, rfl⟩ := List.mem_map.mp hf
  simp [ryuField, hname v.1]

theorem field?_ryuMatch_none (values : FieldValues) {name : String}
    (hname : ∀ f, ryuName f ≠ name) (hdl : name ≠ "dl_type") :
    (Json.obj (ryuMatch values)).field? name = none := by
  rw [field?_obj, ryuMatch]
  split
  · rw [List.find?_append, field?_map_ryuField_none values hname,
      List.find?_cons_of_neg (by simp [Ne.symm hdl])]
    rfl
  · rw [field?_map_ryuField_none values hname]
    rfl

/-- The ether type of a rendered match. -/
def askedEthType (values : FieldValues) : Option Nat :=
  if aboutIpv4 values then some ethTypeIpv4 else none

theorem field?_ryuMatch_dl_type (values : FieldValues) :
    (Json.obj (ryuMatch values)).field? "dl_type" = (askedEthType values).map .uint := by
  have hnone := field?_map_ryuField_none values ryuName_ne_dl_type
  rw [field?_obj, ryuMatch, askedEthType]
  split
  · rw [List.find?_append, hnone, List.find?_cons_of_pos (by simp)]
    rfl
  · rw [hnone]
    rfl

/-! ## The packed match -/

/-- The ranges of the packed key that a rendered match selects. -/
def askedRanges (values : FieldValues) : List ByteRange :=
  [⟨(askedBytes values .l4DstPort).isSome, 18, 2⟩, ⟨(askedBytes values .l4SrcPort).isSome, 16, 2⟩,
    ⟨(askedBytes values .dstAddr).isSome, 12, 4⟩, ⟨(askedBytes values .srcAddr).isSome, 8, 4⟩,
    ⟨(askedBytes values .protocol).isSome, 6, 1⟩, ⟨(askedEthType values).isSome, 4, 2⟩,
    ⟨(askedBytes values .ingressPort).isSome, 0, 4⟩]

/-- The mask of a rendered match. -/
def askedMask (values : FieldValues) : KeyBytes :=
  (askedRanges values).foldr (fun r mask => mask.select r) .zero

/-- A number that the classifier reads, of the field's type. -/
def askedNumber {ν : Type} (cut : UInt64 → ν) (values : FieldValues) (field : P4Field) (d : ν) :
    ν :=
  ((askedBytes values field).map fun bytes => cut (UInt64.ofNat (Python.fromBytes bytes))).getD d

/-- The value of a rendered match. -/
def askedKey (values : FieldValues) : Kernel.FlowKey where
  inPort := askedNumber UInt64.toUInt32 values .ingressPort 0
  ethType := ((askedEthType values).map fun n => (UInt64.ofNat n).toUInt16).getD 0
  ipProto := askedNumber UInt64.toUInt8 values .protocol 0
  ipv4Src := ((askedBytes values .srcAddr).map hostOrder).getD 0
  ipv4Dst := ((askedBytes values .dstAddr).map hostOrder).getD 0
  tpSrc := askedNumber UInt64.toUInt16 values .l4SrcPort 0
  tpDst := askedNumber UInt64.toUInt16 values .l4DstPort 0

/-- A field of the match: it selects its range and stores its value when it is there. -/
theorem withField_asked {α ν : Type} (get : Kernel.FlowKey → ν)
    (put : Kernel.FlowKey → ν → Kernel.FlowKey) (hput : ∀ k, put k (get k) = k) (off width : Nat)
    {parse : Json → MatchBuild → Except ParseError MatchBuild} {json : α → Json} {number : α → ν}
    {x : Option α}
    (hparse : ∀ a b, x = some a → parse (json a) b =
      .ok { mask := b.mask.orAt off (List.replicate width 0xFF), value := put b.value (number a) })
    (b : MatchBuild) :
    withField (x.map json) parse b =
      .ok { mask := b.mask.select ⟨x.isSome, off, width⟩
            value := put b.value ((x.map number).getD (get b.value)) } := by
  cases x with
  | none =>
    rw [Option.map_none, Option.map_none, Option.getD_none, hput]
    rfl
  | some a =>
    rw [Option.map_some, withField, hparse a b rfl]
    rfl

/-- The text of an address is read back as the address. -/
theorem parseIpv4_dottedQuad {bytes : List UInt8} (h : bytes.length = 4) :
    parseIpv4WithMaskOrPrefix (.str (String.ofList (Decimal.dottedQuad bytes))) =
      .ok (some (hostOrder bytes, 0xFFFFFFFF)) := by
  have hplain : ∀ c ∈ Decimal.dottedQuad bytes, c ≠ '/' ∧ c ≠ '\x00' := by
    intro c hc
    rcases Decimal.mem_dottedQuad hc with rfl | ⟨d, hd, rfl⟩
    · decide
    · exact ⟨(Decimal.digitChar_ne_separator d hd).2.1, (Decimal.digitChar_plain d hd).2.2.2⟩
  have hslash : cutAt '/' (Decimal.dottedQuad bytes) = (Decimal.dottedQuad bytes, []) := by
    have hall : ∀ c ∈ Decimal.dottedQuad bytes, decide (c ≠ '/') = true :=
      fun c hc => decide_eq_true (hplain c hc).1
    rw [cutAt, List.takeWhile_eq_self_iff.mpr hall, List.dropWhile_eq_nil_iff.mpr hall]
    rfl
  have hnul : (Decimal.dottedQuad bytes).takeWhile (fun c => decide (c ≠ '\x00')) =
      Decimal.dottedQuad bytes :=
    List.takeWhile_eq_self_iff.mpr fun c hc => decide_eq_true (hplain c hc).2
  unfold parseIpv4WithMaskOrPrefix
  simp only [String.toList_ofList, hslash]
  unfold parseIpv4AddrHost
  rw [hnul, Decimal.inetPton4_dottedQuad h]
  rfl

/-- A numeric field. -/
theorem withField_numeric {ν : Type} (get : Kernel.FlowKey → ν)
    (put : Kernel.FlowKey → ν → Kernel.FlowKey) (hput : ∀ k, put k (get k) = k) (off width : Nat)
    (cut : UInt64 → ν) (values : FieldValues) {field : P4Field} (hfield : field.isAddress = false)
    (b : MatchBuild) :
    withField ((askedBytes values field).map (ryuValue field))
        (numericField off width fun k v => put k (cut v)) b =
      .ok { mask := b.mask.select ⟨(askedBytes values field).isSome, off, width⟩
            value := put b.value (askedNumber cut values field (get b.value)) } := by
  apply withField_asked get put hput off width
  intro bytes b _
  rw [ryuValue, hfield]
  rfl

/-- The bytes asked of a field are a value of it. -/
theorem asked_encodes {values : FieldValues} (hvalues : ∀ v ∈ values, v.1.Encodes v.2)
    {field : P4Field} {bytes : List UInt8} (hasked : askedBytes values field = some bytes) :
    field.Encodes bytes := by
  obtain ⟨v, hv, rfl⟩ := Option.map_eq_some_iff.mp hasked
  have hfield : v.1 = field := by simpa using List.find?_some hv
  rw [← hfield]
  exact hvalues v (List.mem_of_find?_eq_some hv)

/-- An address. -/
theorem applyIpv4Masked_ryuValue (isSrc : Bool) {field : P4Field} (hfield : field.isAddress = true)
    {bytes : List UInt8} (h : bytes.length = 4) (b : MatchBuild) :
    applyIpv4Masked isSrc (ryuValue field bytes) b =
      .ok { mask := b.mask.orAt (if isSrc then 8 else 12) (List.replicate 4 0xFF)
            value := if isSrc then { b.value with ipv4Src := hostOrder bytes }
              else { b.value with ipv4Dst := hostOrder bytes } } := by
  have hones : u32Be 0xFFFFFFFF = List.replicate 4 0xFF := by decide
  rw [ryuValue, hfield, if_pos rfl, applyIpv4Masked, parseIpv4_dottedQuad h, EState.ok_bind]
  dsimp only
  rw [hones]
  rfl

/-- An address has four bytes. -/
theorem length_of_address {field : P4Field} (hfield : field.isAddress = true) {bytes : List UInt8}
    (h : field.Encodes bytes) : bytes.length = 4 := by
  rw [h.1]
  cases field <;> first | rfl | exact nomatch hfield

theorem withField_address (isSrc : Bool) {values : FieldValues}
    (hvalues : ∀ v ∈ values, v.1.Encodes v.2) {field : P4Field} (hfield : field.isAddress = true)
    (b : MatchBuild) :
    withField ((askedBytes values field).map (ryuValue field)) (applyIpv4Masked isSrc) b =
      .ok { mask := b.mask.select ⟨(askedBytes values field).isSome, if isSrc then 8 else 12, 4⟩
            value :=
              if isSrc then
                { b.value with
                  ipv4Src := ((askedBytes values field).map hostOrder).getD b.value.ipv4Src }
              else
                { b.value with
                  ipv4Dst :=
                    ((askedBytes values field).map hostOrder).getD b.value.ipv4Dst } } := by
  have hparse : ∀ bytes b, askedBytes values field = some bytes → _ := fun bytes b hbytes =>
    applyIpv4Masked_ryuValue isSrc hfield (length_of_address hfield (asked_encodes hvalues hbytes)) b
  cases isSrc with
  | true =>
    exact withField_asked Kernel.FlowKey.ipv4Src (fun k v => { k with ipv4Src := v })
      (fun _ => rfl) 8 4 hparse b
  | false =>
    exact withField_asked Kernel.FlowKey.ipv4Dst (fun k v => { k with ipv4Dst := v })
      (fun _ => rfl) 12 4 hparse b

/-- The other names that the classifier knows are not used. -/
theorem field?_ryuMatch_unused (values : FieldValues) :
    ∀ name ∈ ["eth_type", "ip_proto", "ipv4_src", "ipv4_dst", "tcp_src", "tcp_dst", "udp_src",
      "udp_dst", "vlan_vid", "metadata"], (Json.obj (ryuMatch values)).field? name = none := by
  intro name hname
  apply field?_ryuMatch_none values
  · rintro f rfl
    revert hname
    cases f <;> decide
  · rintro rfl
    revert hname
    decide

theorem withField_none (parse : Json → MatchBuild → Except ParseError MatchBuild) (b : MatchBuild) :
    withField none parse b = .ok b := rfl

theorem firstField_second {m : Json} {first second : String} (h : m.field? first = none) :
    firstField m [first, second] = m.field? second := by
  rw [firstField, h, firstField, firstField]
  cases m.field? second with
  | none => rfl
  | some v => rfl

/-- The mask and the value of a rendered match. -/
theorem build_ryuMatch {values : FieldValues} (hvalues : ∀ v ∈ values, v.1.Encodes v.2) :
    buildMaskAndValueFromMatch (.obj (ryuMatch values)) =
      .ok { mask := askedMask values, value := askedKey values } := by
  have hunused := field?_ryuMatch_unused values
  simp only [List.forall_mem_cons] at hunused
  obtain ⟨hethType, hipProto, hipv4Src, hipv4Dst, htcpSrc, htcpDst, hudpSrc, hudpDst, hvlan, hmeta,
    -⟩ := hunused
  have hinPort := field?_ryuMatch values .ingressPort
  have hsrc := field?_ryuMatch values .srcAddr
  have hdst := field?_ryuMatch values .dstAddr
  have hproto := field?_ryuMatch values .protocol
  have htpSrc := field?_ryuMatch values .l4SrcPort
  have htpDst := field?_ryuMatch values .l4DstPort
  simp only [ryuName] at hinPort hsrc hdst hproto htpSrc htpDst
  -- the EtherType is the one field that the rendering adds by itself
  have hethStage : ∀ b, withField ((askedEthType values).map .uint)
      (numericField 4 2 fun k v => { k with ethType := v.toUInt16 }) b = _ :=
    withField_asked Kernel.FlowKey.ethType (fun k v => { k with ethType := v }) (fun _ => rfl) 4 2
      fun n b _ => rfl
  unfold buildMaskAndValueFromMatch setTpSrc setTpDst
  simp only [firstField_second hethType, firstField_second hipProto, firstField_second hipv4Src,
    firstField_second hipv4Dst, htcpSrc, htcpDst, hudpSrc, hudpDst, hvlan, hmeta, hinPort, hsrc,
    hdst, hproto, htpSrc, htpDst, field?_ryuMatch_dl_type, withField_none, EState.ok_bind]
  -- one rewrite for each field, in the order of the source
  rw [withField_numeric Kernel.FlowKey.inPort (fun k v => { k with inPort := v }) (fun _ => rfl) 0 4
    UInt64.toUInt32 values rfl, EState.ok_bind, hethStage, EState.ok_bind,
    withField_numeric Kernel.FlowKey.ipProto (fun k v => { k with ipProto := v }) (fun _ => rfl) 6 1
    UInt64.toUInt8 values rfl, EState.ok_bind, withField_address true hvalues rfl, EState.ok_bind,
    withField_address false hvalues rfl, EState.ok_bind,
    withField_numeric Kernel.FlowKey.tpSrc (fun k v => { k with tpSrc := v }) (fun _ => rfl) 16 2
    UInt64.toUInt16 values rfl, EState.ok_bind,
    withField_numeric Kernel.FlowKey.tpDst (fun k v => { k with tpDst := v }) (fun _ => rfl) 18 2
    UInt64.toUInt16 values rfl, EState.ok_bind]
  rfl

/-! ## The packets that match -/

theorem askedMask_covers (values : FieldValues) :
    (askedMask values).Covers (askedRanges values) := by
  have hall : ∀ ranges : List ByteRange,
      (ranges.foldr (fun r mask => mask.select r) KeyBytes.zero).Covers ranges := by
    intro ranges
    induction ranges with
    | nil => exact KeyBytes.zero_covers
    | cons r ranges ih => exact KeyBytes.select_covers ih r
  exact hall (askedRanges values)

/-- The packet has the value asked of a field. -/
def HasAsked (values : FieldValues) (p : PacketKeys) (field : P4Field) : Prop :=
  ∀ bytes, askedBytes values field = some bytes → p.value field = Python.fromBytes bytes

/-- The packet and the match have the same bytes in a range, if that is selected. -/
def AgreesOn (values : FieldValues) (p : PacketKeys) (r : ByteRange) : Prop :=
  r.selected = true → (packKey (flowKeyOf p)).slice r = (packKey (askedKey values)).slice r

theorem agreesOn_iff {values : FieldValues} {p : PacketKeys} {field : P4Field} {off width : Nat}
    (h : ∀ bytes, askedBytes values field = some bytes →
      ((packKey (flowKeyOf p)).slice ⟨true, off, width⟩ =
          (packKey (askedKey values)).slice ⟨true, off, width⟩ ↔
        p.value field = Python.fromBytes bytes)) :
    AgreesOn values p ⟨(askedBytes values field).isSome, off, width⟩ ↔ HasAsked values p field := by
  unfold AgreesOn HasAsked
  cases hasked : askedBytes values field with
  | none => exact ⟨fun _ => nofun, fun _ => nofun⟩
  | some bytes =>
    have hbytes := h bytes hasked
    constructor
    · rintro hagrees _ ⟨⟩
      exact hbytes.mp (hagrees rfl)
    · intro hvalue _
      exact hbytes.mpr (hvalue bytes rfl)

section Packet

variable {values : FieldValues} (hvalues : ∀ v ∈ values, v.1.Encodes v.2) (p : PacketKeys)
include hvalues

/-- A number of the packet that is cut to the type of the field is not changed by that. -/
theorem ofNat_eq_cut_iff {ν : Type} {ofNat : Nat → ν} {toNat : ν → Nat} {cut : UInt64 → ν} {w : Nat}
    (hinj : ∀ a b, toNat a = toNat b ↔ a = b) (hofNat : ∀ n, toNat (ofNat n) = n % 2 ^ w)
    (hcut : ∀ v, toNat (cut v) = v.toNat % 2 ^ w) (hw : w ≤ 64) {field : P4Field}
    (hbits : field.bits ≤ w) {bytes : List UInt8} (hasked : askedBytes values field = some bytes)
    (d : ν) :
    ofNat (p.value field) = askedNumber cut values field d ↔
      p.value field = Python.fromBytes bytes := by
  have hle : 2 ^ field.bits ≤ 2 ^ w := Nat.pow_le_pow_right (by decide) hbits
  have hle64 : 2 ^ w ≤ 2 ^ 64 := Nat.pow_le_pow_right (by decide) hw
  have hp := p.value_lt field
  have hv := (asked_encodes hvalues hasked).2
  rw [← hinj, hofNat, askedNumber, hasked, Option.map_some, Option.getD_some, hcut,
    UInt64.toNat_ofNat', Nat.mod_eq_of_lt (by omega), Nat.mod_eq_of_lt (by omega),
    Nat.mod_eq_of_lt (by omega)]

theorem ofNat_eq_hostOrder_iff {field : P4Field} (hbits : field.bits = 32) {bytes : List UInt8}
    (hasked : askedBytes values field = some bytes) :
    UInt32.ofNat (p.value field) = ((askedBytes values field).map hostOrder).getD 0 ↔
      p.value field = Python.fromBytes bytes := by
  obtain ⟨hlength, -⟩ := asked_encodes hvalues hasked
  have hp := p.value_lt field
  rw [hbits] at hlength hp
  rw [hasked, Option.map_some, Option.getD_some, ← UInt32.toNat_inj, UInt32.toNat_ofNat',
    Nat.mod_eq_of_lt hp, toNat_hostOrder hlength]
  rfl

theorem agreesOn_inPort : AgreesOn values p ⟨(askedBytes values .ingressPort).isSome, 0, 4⟩ ↔
    HasAsked values p .ingressPort := by
  apply agreesOn_iff
  intro bytes hbytes
  show u32Be (flowKeyOf p).inPort = u32Be (askedKey values).inPort ↔ _
  rw [u32Be_inj]
  exact ofNat_eq_cut_iff hvalues p (fun _ _ => UInt32.toNat_inj) (fun _ => UInt32.toNat_ofNat')
    UInt64.toNat_toUInt32 (by decide) (by decide) hbytes 0

theorem agreesOn_ipProto : AgreesOn values p ⟨(askedBytes values .protocol).isSome, 6, 1⟩ ↔
    HasAsked values p .protocol := by
  apply agreesOn_iff
  intro bytes hbytes
  show [(flowKeyOf p).ipProto] = [(askedKey values).ipProto] ↔ _
  rw [List.singleton_inj]
  exact ofNat_eq_cut_iff hvalues p (fun _ _ => UInt8.toNat_inj) (fun _ => UInt8.toNat_ofNat')
    UInt64.toNat_toUInt8 (by decide) (by decide) hbytes 0

theorem agreesOn_ipv4Src : AgreesOn values p ⟨(askedBytes values .srcAddr).isSome, 8, 4⟩ ↔
    HasAsked values p .srcAddr := by
  apply agreesOn_iff
  intro bytes hbytes
  show u32Be (flowKeyOf p).ipv4Src = u32Be (askedKey values).ipv4Src ↔ _
  rw [u32Be_inj]
  exact ofNat_eq_hostOrder_iff hvalues p rfl hbytes

theorem agreesOn_ipv4Dst : AgreesOn values p ⟨(askedBytes values .dstAddr).isSome, 12, 4⟩ ↔
    HasAsked values p .dstAddr := by
  apply agreesOn_iff
  intro bytes hbytes
  show u32Be (flowKeyOf p).ipv4Dst = u32Be (askedKey values).ipv4Dst ↔ _
  rw [u32Be_inj]
  exact ofNat_eq_hostOrder_iff hvalues p rfl hbytes

theorem agreesOn_tpSrc : AgreesOn values p ⟨(askedBytes values .l4SrcPort).isSome, 16, 2⟩ ↔
    HasAsked values p .l4SrcPort := by
  apply agreesOn_iff
  intro bytes hbytes
  show u16Be (flowKeyOf p).tpSrc = u16Be (askedKey values).tpSrc ↔ _
  rw [u16Be_inj]
  exact ofNat_eq_cut_iff hvalues p (fun _ _ => UInt16.toNat_inj) (fun _ => UInt16.toNat_ofNat')
    UInt64.toNat_toUInt16 (by decide) (by decide) hbytes 0

theorem agreesOn_tpDst : AgreesOn values p ⟨(askedBytes values .l4DstPort).isSome, 18, 2⟩ ↔
    HasAsked values p .l4DstPort := by
  apply agreesOn_iff
  intro bytes hbytes
  show u16Be (flowKeyOf p).tpDst = u16Be (askedKey values).tpDst ↔ _
  rw [u16Be_inj]
  exact ofNat_eq_cut_iff hvalues p (fun _ _ => UInt16.toNat_inj) (fun _ => UInt16.toNat_ofNat')
    UInt64.toNat_toUInt16 (by decide) (by decide) hbytes 0

omit hvalues in
/-- Every packet here is an IPv4 packet. -/
theorem agreesOn_ethType : AgreesOn values p ⟨(askedEthType values).isSome, 4, 2⟩ := by
  intro hsome
  show u16Be (flowKeyOf p).ethType = u16Be (askedKey values).ethType
  unfold askedEthType at hsome
  split at hsome
  · next habout => simp [flowKeyOf, askedKey, askedEthType, habout, ethTypeIpv4]
  · exact nomatch hsome

/-- A packet agrees with a rendered match under its mask when it has the values asked for. -/
theorem askedMask_matches_iff :
    (packKey (flowKeyOf p)).bitAnd (askedMask values) =
        (packKey (askedKey values)).bitAnd (askedMask values) ↔
      ∀ field, HasAsked values p field := by
  rw [KeyBytes.bitAnd_eq_iff (askedMask_covers values)]
  show (∀ r ∈ askedRanges values, AgreesOn values p r) ↔ _
  simp only [askedRanges, List.forall_mem_cons]
  constructor
  · rintro ⟨htpDst, htpSrc, hdst, hsrc, hproto, -, hinPort, -⟩ field
    cases field with
    | ingressPort => exact (agreesOn_inPort hvalues p).mp hinPort
    | srcAddr => exact (agreesOn_ipv4Src hvalues p).mp hsrc
    | dstAddr => exact (agreesOn_ipv4Dst hvalues p).mp hdst
    | protocol => exact (agreesOn_ipProto hvalues p).mp hproto
    | l4SrcPort => exact (agreesOn_tpSrc hvalues p).mp htpSrc
    | l4DstPort => exact (agreesOn_tpDst hvalues p).mp htpDst
  · intro h
    exact ⟨(agreesOn_tpDst hvalues p).mpr (h .l4DstPort),
      (agreesOn_tpSrc hvalues p).mpr (h .l4SrcPort),
      (agreesOn_ipv4Dst hvalues p).mpr (h .dstAddr), (agreesOn_ipv4Src hvalues p).mpr (h .srcAddr),
      (agreesOn_ipProto hvalues p).mpr (h .protocol), agreesOn_ethType p,
      (agreesOn_inPort hvalues p).mpr (h .ingressPort), nofun⟩

end Packet

/-- With each field once, these are the values that the match lists. -/
theorem forall_hasAsked_iff {values : FieldValues} (hnodup : (values.map Prod.fst).Nodup)
    (p : PacketKeys) :
    (∀ field, HasAsked values p field) ↔ ∀ v ∈ values, p.value v.1 = Python.fromBytes v.2 := by
  constructor
  · intro h v hv
    apply h v.1 v.2
    have hfind : values.find? (fun w => w.1 = v.1) = some v := by
      obtain ⟨w, hw⟩ := Option.isSome_iff_exists.mp
        (List.find?_isSome.mpr ⟨v, hv, decide_eq_true rfl⟩ :
          (values.find? fun w => w.1 = v.1).isSome = true)
      have hkey : w.1 = v.1 := by simpa using List.find?_some hw
      rw [hw, List.inj_on_of_nodup_map hnodup (List.mem_of_find?_eq_some hw) hv hkey]
    rw [askedBytes, hfind, Option.map_some]
  · intro h field bytes hbytes
    obtain ⟨v, hv, rfl⟩ := Option.map_eq_some_iff.mp hbytes
    have hfield : v.1 = field := by simpa using List.find?_some hv
    rw [← hfield]
    exact h v (List.mem_of_find?_eq_some hv)

/-! ## The rule of an entry -/

/-- The text of a number is no word. -/
theorem toDigits_ne_word (n : Nat) {word : List Char} (c : Char) (hc : c ∈ word)
    (hdigit : ∀ d < 10, c ≠ Nat.digitChar d) : Nat.toDigits 10 n ≠ word := by
  rintro rfl
  obtain ⟨d, hd, heq⟩ := Decimal.exists_of_mem_toDigits hc
  exact hdigit d hd heq

/-- The number of an output port is read back. -/
theorem outputPort_toDigits {n : Nat} (hn : n < 2 ^ 32) :
    outputPort (Nat.toDigits 10 n) = some (UInt32.ofNat n) := by
  have hnul : (Nat.toDigits 10 n).takeWhile (fun c => decide (c ≠ '\x00')) = Nat.toDigits 10 n := by
    apply List.takeWhile_eq_self_iff.mpr
    intro c hc
    obtain ⟨d, hd, rfl⟩ := Decimal.exists_of_mem_toDigits hc
    exact decide_eq_true (Decimal.digitChar_plain d hd).2.2.2
  have hfits : UInt64.ofNat n ≤ 0xFFFFFFFF := by
    rw [UInt64.le_iff_toNat_le, UInt64.toNat_ofNat', Nat.mod_eq_of_lt (by omega)]
    show n ≤ 0xFFFFFFFF
    omega
  unfold outputPort
  simp only [Decimal.map_toUpper_toDigits]
  rw [if_neg (toDigits_ne_word n 'C' (by decide) (by decide)),
    if_neg (toDigits_ne_word n 'L' (by decide) (by decide)),
    if_neg (toDigits_ne_word n 'F' (by decide) (by decide)),
    if_neg (toDigits_ne_word n 'N' (by decide) (by decide)), parseUint, hnul,
    Decimal.stoull_toDigits (by omega)]
  simp only [hfits, if_true, Option.some.injEq, ← UInt32.toNat_inj, UInt64.toNat_toUInt32,
    UInt64.toNat_ofNat', UInt32.toNat_ofNat']
  omega

/-- The action of a rendered entry. -/
theorem parseActions_output {n : Nat} (hn : n < 2 ^ 32) :
    parseActionsArrayIntoEffect (.arr [.str ("OUTPUT:" ++ toString n)]) {} =
      { outputPorts := [UInt32.ofNat n] } := by
  have htext : ("OUTPUT:" ++ toString n).toList = "OUTPUT:".toList ++ Nat.toDigits 10 n := by
    rw [String.toList_append]
    simp [toString]
  have hcut : cutAt ':' ("OUTPUT:".toList ++ Nat.toDigits 10 n) =
      ("OUTPUT".toList, Nat.toDigits 10 n) := rfl
  have hrest : (cutAt ':' (Nat.toDigits 10 n)).1 = Nat.toDigits 10 n := by
    apply List.takeWhile_eq_self_iff.mpr
    intro c hc
    obtain ⟨d, hd, rfl⟩ := Decimal.exists_of_mem_toDigits hc
    exact decide_eq_true (Decimal.digitChar_ne_separator d hd).2.2
  have hkind : "OUTPUT".toList.map CText.toUpper = "OUTPUT".toList := by decide
  have hne : ¬(Nat.toDigits 10 n).isEmpty = true := by
    rw [List.isEmpty_iff]
    exact Nat.toDigits_ne_nil
  show parseAction {} (.str ("OUTPUT:" ++ toString n)) = _
  unfold parseAction
  dsimp only
  rw [htext, hcut]
  dsimp only
  rw [hkind, hrest, if_pos ⟨rfl, hne⟩, outputPort_toDigits hn]
  rfl

/-- Leading zero bytes do not change a number. -/
theorem fromBytes_canonical (bs : List UInt8) :
    Python.fromBytes (canonical bs) = Python.fromBytes bs := by
  obtain ⟨n, hn⟩ := exists_replicate_canonical bs
  conv_rhs => rw [hn]
  rw [Python.fromBytes_replicate_append]

theorem actionsToRyu_forward (action : Forward) :
    actionsToRyu (some action.tableAction) =
      [.str ("OUTPUT:" ++ toString (Python.fromBytes action.port))] := by
  rw [← fromBytes_canonical action.port]
  rfl

/-- An entry that is read back with the values it asks for and a forward action. -/
structure Renders (entry : TableEntry) (values : FieldValues) (priority : Int)
    (action : Forward) : Prop where
  isDefault : entry.isDefault = false
  priority : entry.priority = priority
  action : entry.action = some action.tableAction
  matchFields : entry.matchFields.filterMap fieldOfSpec = values.map ryuField

theorem Renders.matchToRyu {entry : TableEntry} {values : FieldValues} {priority : Int}
    {action : Forward} (h : Renders entry values priority action) :
    matchToRyu entry.matchFields = ryuMatch values := by
  have hname : ∀ f : P4Field, decide (ryuName f ∈ ipv4Fields) = decide (f ≠ .ingressPort) := by
    intro f
    cases f <;> decide
  have habout : ((values.map ryuField).any fun f => f.1 ∈ ipv4Fields) = aboutIpv4 values := by
    rw [List.any_map, aboutIpv4]
    congr 1
    funext v
    exact hname v.1
  unfold Proxy.matchToRyu ryuMatch
  rw [h.matchFields]
  simp only [habout]

/-- The object of a rendered entry. -/
def ryuEntry (fields : List (String × Json)) (priority : Nat) (actions : List Json)
    (counters : Option CounterData) : Json :=
  .obj [("table_id", .uint 0), ("priority", .uint priority), ("match", .obj fields),
    ("actions", .arr actions), ("byte_count", .uint ((counters.map CounterData.bytes).getD 0)),
    ("packet_count", .uint ((counters.map CounterData.packets).getD 0)), ("duration_sec", .uint 0),
    ("duration_nsec", .uint 0), ("idle_timeout", .uint 0), ("hard_timeout", .uint 0),
    ("cookie", .uint 0), ("flags", .uint 0), ("length", .uint 0)]

/-- What the classifier reads from a rendered entry. -/
theorem parseRuleFromJson_ryuEntry {fields : List (String × Json)} {b : MatchBuild}
    (hbuild : buildMaskAndValueFromMatch (.obj fields) = .ok b) (priority : Nat)
    (actions : List Json) (counters : Option CounterData) :
    ∃ id, parseRuleFromJson (ryuEntry fields priority actions counters) =
      .ok { id := id, tableId := 0, priority := (priority : Int).bmod (2 ^ 32), mask := b.mask,
            maskedValue := (packKey b.value).bitAnd b.mask,
            effect := parseActionsArrayIntoEffect (.arr actions) {} } := by
  have htable : tableIdOf (ryuEntry fields priority actions counters) = .ok 0 := rfl
  have hpriority : priorityOf (ryuEntry fields priority actions counters) =
      .ok ((priority : Int).bmod (2 ^ 32)) := rfl
  have hmatch : matchOf (ryuEntry fields priority actions counters) = .ok b := hbuild
  have heffect : parseEffectFromFlowEntry (ryuEntry fields priority actions counters) =
      .ok (parseActionsArrayIntoEffect (.arr actions) {}) := rfl
  unfold parseRuleFromJson
  rw [htable, EState.ok_bind, hpriority, EState.ok_bind, hmatch, EState.ok_bind]
  dsimp only
  rw [heffect, EState.ok_bind]
  exact ⟨_, rfl⟩

/-- The rule that the classifier reads from a rendered entry. -/
theorem parseRule_of_renders {entry : TableEntry} {values : FieldValues} {priority : Int}
    {action : Forward} (h : Renders entry values priority action) (hne : values ≠ [])
    (hvalues : ∀ v ∈ values, v.1.Encodes v.2) (hnodup : (values.map Prod.fst).Nodup)
    (hprio : 0 ≤ priority) (hprio' : priority < 2 ^ 31) (hport : action.port.length = 2) :
    ∃ json r, entryToRyu entry = some json ∧ parseRuleFromJson json = .ok r ∧ r.tableId = 0 ∧
      r.priority = priority ∧
      r.effect = { outputPorts := [UInt32.ofNat (Python.fromBytes action.port)] } ∧
      ∀ p, r.Matches (packKey (flowKeyOf p)) ↔
        ∀ v ∈ values, p.value v.1 = Python.fromBytes v.2 := by
  have hlt : Python.fromBytes action.port < 2 ^ 32 := by
    have hbytes := Python.fromBytes_lt action.port
    rw [hport] at hbytes
    omega
  have hfields : (ryuMatch values).isEmpty = false := by
    rw [Bool.eq_false_iff, ne_eq, List.isEmpty_iff]
    intro hnil
    unfold ryuMatch at hnil
    split at hnil
    · exact absurd hnil (by simp)
    · exact hne (List.map_eq_nil_iff.mp hnil)
  -- the priority passes the kernel's int unchanged
  have hbmod : ((max 0 priority).toNat : Int).bmod (2 ^ 32) = priority := by
    rw [Int.max_eq_right hprio, Int.toNat_of_nonneg hprio]
    exact Int.bmod_eq_of_le (by omega) (by omega)
  have hjson : entryToRyu entry = some (ryuEntry (ryuMatch values) (max 0 priority).toNat
      [.str ("OUTPUT:" ++ toString (Python.fromBytes action.port))] entry.counters) := by
    unfold entryToRyu
    rw [h.isDefault, h.priority, h.action, h.matchToRyu, actionsToRyu_forward]
    simp only [hfields]
    rfl
  obtain ⟨id, hparse⟩ := parseRuleFromJson_ryuEntry (build_ryuMatch hvalues)
    (max 0 priority).toNat [.str ("OUTPUT:" ++ toString (Python.fromBytes action.port))]
    entry.counters
  rw [hbmod, parseActions_output hlt] at hparse
  refine ⟨_, _, hjson, hparse, rfl, rfl, rfl, fun p => ?_⟩
  rw [← forall_hasAsked_iff hnodup]
  exact askedMask_matches_iff hvalues p

end Ndtwin.Spec

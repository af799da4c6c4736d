import Ndtwin.Kernel.FlowBatch
import Ndtwin.Spec.FlowTablesCorrect
import Mathlib.Logic.Basic

/-!
# Which cached flows a request changes

A switch changes or removes the rules of a table, a match and a priority. The cache looks for
them by a key of its own (`extractKey`): the table, the priority, and six fields of the match
under their OpenFlow names, a missing one read as 0. Two rules can share a key, one rule can have
two, and a flow whose key cannot be read ends the search.

This module is about one pass of the two loops. It is split into what the pass leaves of the flows
of its switch (`flowsLeft`) and the comparison of that, position by position, with what the switch
does (`ruleEffect`).

## Key results

- `keyOf_eq_iff`: two keys are the same when six fields are read alike
- `flowsLeft_eq_iff`: a pass does what the switch does exactly when these fields tell the flows
  of the rule from the others
-/

namespace Ndtwin.Spec.FlowTablesCorrect

open Ndtwin.Kernel Ndtwin.Kernel.FlowTables EState

/-! ## Rules -/

/-- A value of a match, however it is written. -/
inductive MatchValue where
  | number (i : Int)
  | address (addr mask : UInt32)
  | other (j : Json)

/-- An address with its mask, given as a number or as a text. -/
def addressValue : Json → MatchValue
  | .uint n => .address (UInt32.ofNat n) 0xFFFFFFFF
  | .int i => .address (UInt32.ofInt i) 0xFFFFFFFF
  | j =>
    match parseIpv4WithMaskOrPrefix j with
    | .ok (some (addr, mask)) => .address (addr &&& mask) mask
    | _ => .other j

def plainValue : Json → MatchValue
  | .uint n => .number n
  | .int i => .number i
  | j => .other j

/-- The number of the protocol that a match asks for. -/
def askedProtocol (m : Json) : Option Int :=
  match firstField m ["ip_proto", "nw_proto"] with
  | some (.uint n) => some n
  | some (.int i) => some i
  | _ => none

/-- The names of a port, given the protocol of the match. -/
def portSpellings (protocol : Option Int) (own : Int) (name plain : String) : List String :=
  if protocol = some own then [name, plain] else [name]

/-- The names of a field, that of OpenFlow first. A port whose name has no protocol in it is one of
    the protocol that the match asks for. -/
def spellings (protocol : Option Int) : String → List String
  | "eth_type" => ["eth_type", "dl_type"]
  | "eth_src" => ["eth_src", "dl_src"]
  | "eth_dst" => ["eth_dst", "dl_dst"]
  | "vlan_vid" => ["vlan_vid", "dl_vlan"]
  | "ip_proto" => ["ip_proto", "nw_proto"]
  | "ipv4_src" => ["ipv4_src", "nw_src"]
  | "ipv4_dst" => ["ipv4_dst", "nw_dst"]
  | "tcp_src" => portSpellings protocol 6 "tcp_src" "tp_src"
  | "tcp_dst" => portSpellings protocol 6 "tcp_dst" "tp_dst"
  | "udp_src" => portSpellings protocol 17 "udp_src" "tp_src"
  | "udp_dst" => portSpellings protocol 17 "udp_dst" "tp_dst"
  | "tp_src" => if protocol = some 6 ∨ protocol = some 17 then [] else ["tp_src"]
  | "tp_dst" => if protocol = some 6 ∨ protocol = some 17 then [] else ["tp_dst"]
  | name => [name]

/-- The names that only the replies of the control plane use. -/
def ryuNames : List String :=
  ["dl_type", "dl_src", "dl_dst", "dl_vlan", "nw_proto", "nw_src", "nw_dst"]

/-- What a match asks of a field, if anything. -/
def askedValue (m : Json) (name : String) : Option MatchValue :=
  (firstField m (spellings (askedProtocol m) name)).map
    (if name = "ipv4_src" ∨ name = "ipv4_dst" then addressValue else plainValue)

/-- Two matches that ask the same of every field. -/
structure SameMatch (m m' : Json) : Prop where
  object : m.isObject = true ∧ m'.isObject = true
  asked : ∀ name ∉ ryuNames, askedValue m name = askedValue m' name

/-- The match of an entry or a cached flow. -/
def matchOf (j : Json) : Json := (j.field? "match").getD (.obj [])

/-- The cached flow `f` is a rule that the switch changes or removes for the entry `e`: that of
    the entry's table, of the match of its job, and of the priority of its job. A delete of
    priority -1 is a delete of every priority. -/
structure SameRule (op : FlowOp) (e f : Json) : Prop where
  table : ∃ t, e.valueInt "table_id" 0 = .ok t ∧ f.valueInt "table_id" 0 = .ok t
  job : ∃ job, HttpSession.makeJob op e = .ok job ∧ SameMatch job.match (matchOf f) ∧
    (op = .delete ∧ job.priority = -1 ∨ f.valueInt "priority" 0 = .ok job.priority)

/-- An `int` field; 0 if there is none that can be read. -/
def intField (j : Json) (key : String) : Int := (j.valueInt key 0).toOption.getD 0

/-- A flow that gets the priority, the match and the actions of an entry. Everything else of it
    stays, its counters among it. -/
def withRule (e : Json) : Json → Json
  | .obj fields =>
    .obj (Json.insertField "actions" ((e.field? "actions").getD (.arr []))
      (Json.insertField "match" (matchOf e)
        (Json.insertField "priority" (.int (intField e "priority")) fields)))
  | f => f

open scoped Classical in
/-- What becomes of the flows when those of the rule are changed or removed, and no other. -/
noncomputable def ruleEffect (op : FlowOp) (e : Json) (fs : List Json) : List Json :=
  match op with
  | .install => fs
  | .modify => fs.map fun f => if SameRule .modify e f then withRule e f else f
  | .delete => fs.filter fun f => ¬SameRule .delete e f

/-! ## The fields of a key -/

/-- An address field of a match; 0 if there is none that can be read. -/
def addressOf (m : Json) (key : String) : UInt32 := (ipv4Field m key).toOption.getD 0

/-- The port of a match, by the name that goes with its protocol. -/
def portField (m : Json) (tcp udp : String) : Int :=
  if protoOf m = 6 then intField m tcp else if protoOf m = 17 then intField m udp else 0

/-- Two matches in which the cache reads the same: in these fields, under these names, a missing
    one as 0 and each cut to the width of its field. -/
structure SameKeyFields (m m' : Json) : Prop where
  ethType : UInt16.ofInt (intField m "eth_type") = UInt16.ofInt (intField m' "eth_type")
  ipProto : protoOf m = protoOf m'
  ipv4Dst : addressOf m "ipv4_dst" = addressOf m' "ipv4_dst"
  ipv4Src : addressOf m "ipv4_src" = addressOf m' "ipv4_src"
  tpDst : UInt16.ofInt (portField m "tcp_dst" "udp_dst") =
    UInt16.ofInt (portField m' "tcp_dst" "udp_dst")
  tpSrc : UInt16.ofInt (portField m "tcp_src" "udp_src") =
    UInt16.ofInt (portField m' "tcp_src" "udp_src")

/-- The cached flow `f` is one that the cache takes for the rule of the entry `e`. -/
structure LooksLike (e f : Json) : Prop where
  table : intField e "table_id" = intField f "table_id"
  priority : intField e "priority" = intField f "priority"
  fields : SameKeyFields (matchOf e) (matchOf f)

theorem intField_of_ok {j : Json} {key : String} {i : Int} (h : j.valueInt key 0 = .ok i) :
    intField j key = i := by
  rw [intField, h]
  rfl

theorem valueInt_of_intField {j : Json} {key : String} (hj : j.isObject = true)
    (h : Json.IntField j key) : j.valueInt key 0 = .ok (intField j key) := by
  obtain ⟨i, hi⟩ := exists_of_isOk ((Json.valueInt_isOk_iff j key 0).mpr ⟨hj, h⟩)
  rw [intField_of_ok hi, hi]

/-- Both ports of a match, as they are read. -/
theorem portFields_eq_ok {m : Json} {ports : Int × Int}
    (h : portFields m (protoOf m) = .ok ports) :
    ports.1 = portField m "tcp_dst" "udp_dst" ∧ ports.2 = portField m "tcp_src" "udp_src" := by
  have htwo : ∀ dst src, (do
      let d ← m.valueInt dst 0
      let s ← m.valueInt src 0
      return (d, s) : Except Json.Error (Int × Int)) = .ok ports →
      ports.1 = intField m dst ∧ ports.2 = intField m src := by
    intro dst src hports
    obtain ⟨d, hd, hports⟩ := bind_eq_ok hports
    obtain ⟨s, hs, hports⟩ := bind_eq_ok hports
    cases hports
    exact ⟨(intField_of_ok hd).symm, (intField_of_ok hs).symm⟩
  unfold portFields at h
  unfold portField
  split at h
  · next htcp =>
    rw [if_pos htcp, if_pos htcp]
    exact htwo _ _ h
  · next htcp =>
    rw [if_neg htcp, if_neg htcp]
    split at h
    · next hudp =>
      rw [if_pos hudp, if_pos hudp]
      exact htwo _ _ h
    · next hudp =>
      rw [if_neg hudp, if_neg hudp]
      cases h
      exact ⟨rfl, rfl⟩

/-- The key of a match, field by field. -/
theorem matchKey_eq_ok {m : Json} {fk : FlowKey} (h : matchKey m = .ok fk) :
    fk = { ethType := UInt16.ofInt (intField m "eth_type")
           ipProto := protoOf m
           ipv4Dst := addressOf m "ipv4_dst"
           ipv4Src := addressOf m "ipv4_src"
           tpDst := UInt16.ofInt (portField m "tcp_dst" "udp_dst")
           tpSrc := UInt16.ofInt (portField m "tcp_src" "udp_src") } := by
  obtain ⟨ethType, heth, h⟩ := bind_eq_ok h
  obtain ⟨ipProto, hproto, h⟩ := bind_eq_ok h
  obtain ⟨ipv4Dst, hdst, h⟩ := bind_eq_ok h
  obtain ⟨ipv4Src, hsrc, h⟩ := bind_eq_ok h
  obtain ⟨ports, hports, h⟩ := bind_eq_ok h
  rw [liftJson_eq_ok] at heth hproto hports
  rw [← protoOf_of_ok hproto] at hports
  obtain ⟨hportDst, hportSrc⟩ := portFields_eq_ok hports
  cases h
  simp only [intField_of_ok heth, protoOf_of_ok hproto, addressOf, hdst, hsrc, hportDst, hportSrc,
    Except.toOption, Option.getD_some]

/-- The keys of two entries or flows that can be read are the same when the cache reads the same
    in both. -/
theorem keyOf_eq_iff {e f : Json} (he : KeyReadable e) (hf : KeyReadable f) :
    keyOf f = keyOf e ↔ LooksLike e f := by
  obtain ⟨key, hkey⟩ := exists_of_isOk ((isOk_extractKey_iff e).mpr he)
  obtain ⟨fKey, hfKey⟩ := exists_of_isOk ((isOk_extractKey_iff f).mpr hf)
  obtain ⟨htable, hprio, hmatch⟩ := extractKey_eq_ok hkey
  obtain ⟨hftable, hfprio, hfmatch⟩ := extractKey_eq_ok hfKey
  obtain ⟨tableId, priority, fk⟩ := key
  obtain ⟨fTableId, fPriority, ffk⟩ := fKey
  dsimp only at htable hprio hmatch hftable hfprio hfmatch
  rw [keyOf_eq_some.mpr hkey, keyOf_eq_some.mpr hfKey, Option.some.injEq, Prod.mk.injEq,
    Prod.mk.injEq, matchKey_eq_ok hmatch, matchKey_eq_ok hfmatch, FlowKey.mk.injEq]
  constructor
  · rintro ⟨ht, hp, -, hethType, hipProto, hipv4Src, hipv4Dst, htpSrc, htpDst, -⟩
    exact {
      table := by rw [intField_of_ok htable, intField_of_ok hftable, ht]
      priority := by rw [intField_of_ok hprio, intField_of_ok hfprio, hp]
      fields := ⟨hethType.symm, hipProto.symm, hipv4Dst.symm, hipv4Src.symm, htpDst.symm,
        htpSrc.symm⟩ }
  · rintro ⟨ht, hp, h⟩
    rw [intField_of_ok htable, intField_of_ok hftable] at ht
    rw [intField_of_ok hprio, intField_of_ok hfprio] at hp
    exact ⟨ht.symm, hp.symm, rfl, h.ethType.symm, h.ipProto.symm, h.ipv4Src.symm, h.ipv4Dst.symm,
      h.tpSrc.symm, h.tpDst.symm, rfl, rfl⟩

/-- What the loop of a modify writes. -/
theorem updatedFlow_eq_withRule {e f : Json} {priority : Int}
    (hprio : e.valueInt "priority" 0 = .ok priority) (hf : f.isObject = true) :
    updatedFlow e f = .ok (withRule e f) := by
  obtain ⟨efields, rfl⟩ := exists_obj (Json.isObject_of_valueOr_ok hprio)
  obtain ⟨ffields, rfl⟩ := exists_obj hf
  rw [updatedFlow, hprio, withRule, intField_of_ok hprio]
  simp only [ok_bind, Json.valueJson_obj, Json.assign]
  rfl

theorem keyOf_ne_none_iff (f : Json) : keyOf f ≠ none ↔ KeyReadable f := by
  rw [keyReadable_iff, Option.isSome_iff_ne_none]

/-! ## What a pass leaves -/

/-- A pass of the loop over the entries of `op`. -/
def stagePass (graph : Graph) : FlowOp → Json → TablesM Unit
  | .install => installOne graph
  | .modify => modifyOne graph
  | .delete => deleteOne graph

/-- The flows of a switch after a modify, normally or by an exception. -/
def modifyLeft (e : Json) (fs : List Json) : List Json :=
  match keyOf e with
  | none => fs
  | some key => (modifyFirst key e fs).toOption.getD fs

/-- The flows of a switch after a delete, normally or by an exception. -/
def deleteLeft (e : Json) (fs : List Json) : List Json :=
  match keyOf e with
  | none => fs
  | some key =>
    match InPlace.removeIf (hasKey key) .null [] [] fs with
    | .ok kept => kept
    | .error (_, elems) => elems

def flowsLeft : FlowOp → Json → List Json → List Json
  | .install, _, fs => fs
  | .modify, e, fs => modifyLeft e fs
  | .delete, e, fs => deleteLeft e fs

/-- The lookup of a switch changes no flows. -/
theorem flowsOf_getFlowsArrayForDpid (graph : Graph) {tables tables' : List SwitchTable}
    {dpid : UInt64} {i : Nat} (h : getFlowsArrayForDpid graph dpid tables = .ok (some i) tables')
    (d : UInt64) : flowsOf graph tables' d = flowsOf graph tables d := by
  cases hidx : tables.findIdx? fun sw => sw.dpid = dpid with
  | some k =>
    obtain ⟨pre, sw, post, rfl, rfl, hsw, hpre⟩ := List.exists_split_of_findIdx? hidx
    obtain rfl : sw.dpid = dpid := by simpa using hsw
    have hpre' : ∀ t ∈ pre, t.dpid ≠ sw.dpid := by simpa using hpre
    rw [getFlowsArrayForDpid_split graph hpre'] at h
    obtain ⟨dpid, flows⟩ := sw
    have hself : ∀ w, flowsOf graph (pre ++ ⟨dpid, w⟩ :: post) dpid =
        flowsOf graph [⟨dpid, w⟩] dpid := fun w => flowsOf_split_self graph hpre' rfl
    rcases subscript_cases flows (flowsKey dpid) with ⟨fields, v, hsub, hv, hj⟩ | ⟨hsub, _, _⟩
    · simp only [hsub] at h
      obtain ⟨_, rfl⟩ := EStateM.Result.ok.inj h
      by_cases hd : d = dpid
      · -- a field that is missing is read as null, and the lookup adds it as null
        subst hd
        rw [hself, hself]
        rcases hj with ⟨rfl, rfl⟩ | ⟨fields₀, rfl, rfl⟩
        · simp [flowsOf, hv]
        · simp [flowsOf, hv]
      · rw [flowsOf_split_other graph pre post (Ne.symm hd),
          flowsOf_split_other graph pre post (Ne.symm hd)]
    · simp only [hsub] at h
      cases h
  | none =>
    have hnone : ∀ t ∈ tables, t.dpid ≠ dpid := by
      simpa [List.findIdx?_eq_none_iff] using hidx
    rw [getFlowsArrayForDpid_missing graph hnone] at h
    split at h
    · cases (EStateM.Result.ok.inj h).1
    · rename_i hknown
      obtain ⟨_, rfl⟩ := EStateM.Result.ok.inj h
      by_cases hd : d = dpid
      · subst hd
        have hfind : tables.find? (fun t => t.dpid = d) = none := by
          simpa [List.find?_eq_none] using hnone
        rw [flowsOf_split_self graph hnone rfl]
        simp [flowsOf, hfind, hknown, Json.field?]
      · rw [flowsOf_split_other graph tables [] (Ne.symm hd), List.append_nil]

/-- What a program leaves that gets the pointer of a switch and then works behind it. -/
theorem flowsOf_left_of_body (graph : Graph) {dpid : UInt64} (left : Json → Json)
    {body : Nat → TablesM Unit}
    (hbody : ∀ i tables, finalState (body i) tables =
        writeFlows i dpid (left (readFlows i dpid tables)) tables ∨
      finalState (body i) tables = tables ∧
        left (readFlows i dpid tables) = readFlows i dpid tables)
    {tables : List SwitchTable} {v : Json} (hv : flowsOf graph tables dpid = .ok (some v))
    (d : UInt64) :
    flowsOf graph (finalState (do
      match ← getFlowsArrayForDpid graph dpid with
      | none => return
      | some i => body i) tables) d =
      if d = dpid then .ok (some (left v)) else flowsOf graph tables d := by
  have hget := getFlowsArrayForDpid_cases graph tables dpid
  rw [hv] at hget
  obtain ⟨i, tables', hget, hpoints⟩ := hget
  rw [finalState, bind_of_ok hget]
  show flowsOf graph (finalState (body i) tables') d = _
  rcases hbody i tables' with hwrite | ⟨hkept, hleft⟩
  · rw [hwrite, hpoints.read, hpoints.write]
  · rw [hkept, flowsOf_getFlowsArrayForDpid graph hget]
    rw [hpoints.read] at hleft
    split
    · rename_i hd
      rw [hd, hv, hleft]
    · rfl

/-- What a modify leaves of the flows of every switch. -/
theorem flowsOf_modifyOne_left (graph : Graph) {e : Json} (hdpid : (entryDpid e).isOk = true)
    {tables : List SwitchTable} {v : Json} (hv : flowsOf graph tables (dpidOf e) = .ok (some v))
    (d : UInt64) :
    flowsOf graph (finalState (modifyOne graph e) tables) d =
      if d = dpidOf e then .ok (some (v.withElems (modifyLeft e v.iterate)))
      else flowsOf graph tables d := by
  have hentry : liftJson (entryDpid e) = .ok (dpidOf e) := by rw [entryDpid_eq hdpid]; rfl
  cases hkey : extractKey e with
  | error err =>
    -- The key is read before any table is looked at.
    have hthrows : finalState (modifyOne graph e) tables = tables := by
      rw [modifyOne, finalState, ofExcept_bind hentry, hkey]
      rfl
    have hnone : keyOf e = none := by rw [keyOf, hkey]; rfl
    rw [hthrows, modifyLeft, hnone, Json.withElems_iterate]
    split
    · rename_i hd
      rw [hd, hv]
    · rfl
  | ok key =>
    have hsome : keyOf e = some key := keyOf_eq_some.mpr hkey
    rw [finalState, modifyOne, ofExcept_bind hentry, ofExcept_bind hkey, ← finalState]
    refine flowsOf_left_of_body graph (fun v => v.withElems (modifyLeft e v.iterate)) ?_ hv d
    intro i tables
    have hleft : ∀ fs, modifyLeft e fs = (modifyFirst key e fs).toOption.getD fs := by
      intro fs
      rw [modifyLeft, hsome]
    rw [finalState, get_bind]
    simp only [hleft]
    cases modifyFirst key e (readFlows i (dpidOf e) tables).iterate with
    | error err => exact .inr ⟨rfl, Json.withElems_iterate _⟩
    | ok elems => exact .inl rfl

/-- What a delete leaves of the flows of every switch. -/
theorem flowsOf_deleteOne_left (graph : Graph) {e : Json} (hdpid : (entryDpid e).isOk = true)
    {tables : List SwitchTable} {v : Json} (hv : flowsOf graph tables (dpidOf e) = .ok (some v))
    (d : UInt64) :
    flowsOf graph (finalState (deleteOne graph e) tables) d =
      if d = dpidOf e then .ok (some (v.withElems (deleteLeft e v.iterate)))
      else flowsOf graph tables d := by
  have hentry : liftJson (entryDpid e) = .ok (dpidOf e) := by rw [entryDpid_eq hdpid]; rfl
  cases hkey : extractKey e with
  | error err =>
    have hthrows : finalState (deleteOne graph e) tables = tables := by
      rw [deleteOne, finalState, ofExcept_bind hentry, hkey]
      rfl
    have hnone : keyOf e = none := by rw [keyOf, hkey]; rfl
    rw [hthrows, deleteLeft, hnone, Json.withElems_iterate]
    split
    · rename_i hd
      rw [hd, hv]
    · rfl
  | ok key =>
    have hsome : keyOf e = some key := keyOf_eq_some.mpr hkey
    rw [finalState, deleteOne, ofExcept_bind hentry, ofExcept_bind hkey, ← finalState]
    refine flowsOf_left_of_body graph (fun v => v.withElems (deleteLeft e v.iterate)) ?_ hv d
    intro i tables
    have hleft : ∀ fs, deleteLeft e fs =
        match InPlace.removeIf (hasKey key) .null [] [] fs with
        | .ok kept => kept
        | .error (_, elems) => elems := by
      intro fs
      rw [deleteLeft, hsome]
    rw [finalState, get_bind]
    simp only [hleft]
    generalize readFlows i (dpidOf e) tables = w
    cases InPlace.removeIf (hasKey key) .null [] [] w.iterate with
    | error err => exact .inl rfl
    | ok kept =>
      -- a table that is null has no flows, and `erase` throws for it
      cases w with
      | null => exact .inr ⟨rfl, rfl⟩
      | _ => exact .inl rfl

/-- A value whose iteration gives itself, or nothing, holds no flow that can be read. -/
theorem left_of_scalar (op : FlowOp) (e : Json) {v : Json} (hobj : v.isObject = false)
    (harr : v.isArray = false) : flowsLeft op e v.iterate = v.iterate := by
  by_cases hnull : v = .null
  · subst hnull
    cases op with
    | install => rfl
    | modify => cases h : keyOf e <;> simp [flowsLeft, modifyLeft, h, Json.iterate, modifyFirst,
        Except.toOption]
    | delete => cases h : keyOf e <;> simp [flowsLeft, deleteLeft, h, Json.iterate,
        InPlace.removeIf]
  · -- A scalar iterates as itself, and no key can be read from it.
    obtain ⟨hself, hnot⟩ := not_readable_scalar hnull hobj harr
    have herr : ∃ err, extractKey v = .error err := by
      cases hv : extractKey v with
      | error err => exact ⟨err, rfl⟩
      | ok key => exact absurd ((isOk_extractKey_iff v).mp (by rw [hv]; rfl)) hnot
    obtain ⟨err, herr⟩ := herr
    rw [hself]
    cases op with
    | install => rfl
    | modify =>
      cases h : keyOf e with
      | none => simp only [flowsLeft, modifyLeft, h]
      | some key =>
        simp only [flowsLeft, modifyLeft, h, modifyFirst, herr]
        rfl
    | delete =>
      cases h : keyOf e with
      | none => simp only [flowsLeft, deleteLeft, h]
      | some key =>
        simp only [flowsLeft, deleteLeft, h, InPlace.removeIf, hasKey, herr]
        rfl

theorem length_modifyFirst {key : Int × Int × FlowKey} {e : Json} {fs fs' : List Json}
    (h : modifyFirst key e fs = .ok fs') : fs'.length = fs.length := by
  induction fs generalizing fs' with
  | nil =>
    obtain rfl := Except.ok.inj h
    rfl
  | cons f fs ih =>
    obtain ⟨fKey, _, h⟩ := bind_eq_ok h
    split at h
    · obtain ⟨f', _, h⟩ := bind_eq_ok h
      obtain rfl := Except.ok.inj h
      rfl
    · obtain ⟨rest, hrest, h⟩ := bind_eq_ok h
      obtain rfl := Except.ok.inj h
      rw [List.length_cons, List.length_cons, ih hrest]

theorem length_flowsLeft_le (op : FlowOp) (e : Json) (fs : List Json) :
    (flowsLeft op e fs).length ≤ fs.length := by
  cases op with
  | install => exact Nat.le_refl _
  | modify =>
    rw [flowsLeft, modifyLeft]
    split
    · exact Nat.le_refl _
    · next key _ =>
      cases hfirst : modifyFirst key e fs with
      | error err => exact Nat.le_refl _
      | ok fs' => exact Nat.le_of_eq (length_modifyFirst hfirst)
  | delete =>
    rw [flowsLeft, deleteLeft]
    split
    · exact Nat.le_refl _
    · next key _ =>
      cases hremove : InPlace.removeIf (hasKey key) .null [] [] fs with
      | error err =>
        -- A removal that throws leaves its places behind, moved elements and holes.
        obtain ⟨err, elems⟩ := err
        have hlen := (InPlace.prefix_of_removeIf_error hremove).2
        simp only [List.length_nil] at hlen ⊢
        omega
      | ok kept =>
        have hread := InPlace.forall_isOk_of_removeIf hremove
        rw [InPlace.removeIf_eq_ok .null [] [] hread] at hremove
        obtain rfl := Except.ok.inj hremove
        exact List.length_filter_le _ _

/-- The flows of a switch after a pass, as the loop over them visits them. -/
theorem iterate_left (op : FlowOp) (e v : Json) :
    (v.withElems (flowsLeft op e v.iterate)).iterate = flowsLeft op e v.iterate := by
  by_cases hkind : v.isObject = true ∨ v.isArray = true
  · exact Json.iterate_withElems (length_flowsLeft_le op e v.iterate) hkind
  · have hboth : v.isObject = false ∧ v.isArray = false := by simpa using hkind
    rw [left_of_scalar op e hboth.1 hboth.2, Json.withElems_iterate]

/-! ## The flow that a modify takes -/

/-- The loop of a modify goes past these flows: they can be read and have other keys. -/
def PassedBy (e : Json) (pre : List Json) : Prop := ∀ g ∈ pre, keyOf g ≠ none ∧ keyOf g ≠ keyOf e

/-- The loop of a modify changes the flow `f` behind the flows `pre`. -/
def Chosen (e : Json) (pre : List Json) (f : Json) : Prop :=
  keyOf e ≠ none ∧ keyOf f = keyOf e ∧ PassedBy e pre

theorem chosen_nil {e f : Json} (he : keyOf e ≠ none) : Chosen e [] f ↔ keyOf f = keyOf e :=
  ⟨fun h => h.2.1, fun h => ⟨he, h, fun _ hg => absurd hg List.not_mem_nil⟩⟩

theorem chosen_cons {e f g : Json} {pre : List Json} (hf : keyOf f ≠ none ∧ keyOf f ≠ keyOf e) :
    Chosen e (f :: pre) g ↔ Chosen e pre g := by
  unfold Chosen PassedBy
  rw [List.forall_mem_cons, and_iff_right hf]

theorem not_chosen_cons {e f g : Json} {pre : List Json} (hf : keyOf f = none ∨ keyOf f = keyOf e) :
    ¬Chosen e (f :: pre) g := by
  intro h
  have hpassed := h.2.2 f List.mem_cons_self
  exact hf.elim hpassed.1 hpassed.2

/-- One flow of the loop of a modify: the search ends at a flow that cannot be read, and at the
    one that is changed. -/
theorem modifyLeft_cons {e : Json} (he : keyOf e ≠ none) (f : Json) (fs : List Json) :
    (keyOf f = none ∧ modifyLeft e (f :: fs) = f :: fs) ∨
    (keyOf f = keyOf e ∧ modifyLeft e (f :: fs) = withRule e f :: fs) ∨
    ((keyOf f ≠ none ∧ keyOf f ≠ keyOf e) ∧ modifyLeft e (f :: fs) = f :: modifyLeft e fs) := by
  obtain ⟨key, hkey⟩ := Option.ne_none_iff_exists'.mp he
  have hleft : ∀ fs, modifyLeft e fs = (modifyFirst key e fs).toOption.getD fs := by
    intro fs
    rw [modifyLeft, hkey]
  rw [hleft, hleft]
  -- A flow without a key ends the search with an exception, and the list stays as it is.
  cases hf : extractKey f with
  | error err =>
    left
    refine ⟨by rw [keyOf, hf]; rfl, ?_⟩
    rw [modifyFirst, hf]
    rfl
  | ok fKey =>
    right
    have hfsome : keyOf f = some fKey := keyOf_eq_some.mpr hf
    by_cases hsame : fKey = key
    · left
      subst hsame
      refine ⟨by rw [hfsome, hkey], ?_⟩
      obtain ⟨-, hprio, -⟩ := extractKey_eq_ok (keyOf_eq_some.mp hkey)
      have hobject := Json.isObject_of_valueOr_ok (extractKey_eq_ok hf).1
      rw [modifyFirst, hf, ok_bind, if_pos rfl, updatedFlow_eq_withRule hprio hobject]
      rfl
    · right
      refine ⟨⟨by rw [hfsome]; exact Option.some_ne_none _, by rw [hfsome, hkey]; simpa using hsame⟩, ?_⟩
      rw [modifyFirst, hf, ok_bind, if_neg hsame]
      cases modifyFirst key e fs <;> rfl

open scoped Classical in
/-- What a modify leaves at every position. -/
theorem getElem?_modifyLeft (e : Json) (fs : List Json) (i : Nat) :
    (modifyLeft e fs)[i]? = (fs[i]?).map fun f =>
      if Chosen e (fs.take i) f then withRule e f else f := by
  by_cases he : keyOf e = none
  · have hnone : ∀ pre f, ¬Chosen e pre f := fun pre f h => h.1 he
    simp only [modifyLeft, he, hnone, if_false, Option.map_id']
  · induction fs generalizing i with
    | nil => cases hkey : keyOf e <;> simp [modifyLeft, hkey, modifyFirst, Except.toOption]
    | cons f fs ih =>
      rcases modifyLeft_cons he f fs with ⟨hf, hleft⟩ | ⟨hf, hleft⟩ | ⟨hf, hleft⟩
      · rw [hleft]
        cases i with
        | zero => simp [chosen_nil he, hf, Ne.symm he]
        | succ i => simp [not_chosen_cons (.inl hf)]
      · rw [hleft]
        cases i with
        | zero => simp [chosen_nil he, hf]
        | succ i => simp [not_chosen_cons (.inr hf)]
      · rw [hleft]
        cases i with
        | zero => simp [chosen_nil he, hf.2]
        | succ i => simp [chosen_cons hf, ih]

/-! ## When the flows that are changed are those of the rule -/

/-- What a modify leaves is what the switch leaves when the flow that it takes is the one of the
    rule, up to flows that already stand as the modify writes them. -/
theorem modifyLeft_eq_iff (e : Json) (fs : List Json) :
    modifyLeft e fs = ruleEffect .modify e fs ↔ ∀ i f, fs[i]? = some f →
      (SameRule .modify e f ↔ Chosen e (fs.take i) f) ∨ withRule e f = f := by
  classical
  rw [List.ext_getElem?_iff]
  apply forall_congr'
  intro i
  rw [getElem?_modifyLeft, ruleEffect, List.getElem?_map]
  cases hf : fs[i]? with
  | none => simp
  | some f =>
    rw [Option.map_some, Option.map_some, Option.some.injEq]
    have honly : (∀ g, some f = some g →
        (SameRule .modify e g ↔ Chosen e (fs.take i) g) ∨ withRule e g = g) ↔
        (SameRule .modify e f ↔ Chosen e (fs.take i) f) ∨ withRule e f = f := by
      simp only [Option.some.injEq, forall_eq']
    rw [honly]
    by_cases hsame : SameRule .modify e f <;> by_cases hchosen : Chosen e (fs.take i) f
    · simp [hsame, hchosen]
    · simp [hsame, hchosen, eq_comm]
    · simp [hsame, hchosen]
    · simp [hsame, hchosen]

/-- The flows that a delete of the cache removes are those of the rule. It removes nothing when
    some flow, or the entry, has no key; then the flows before the first such flow have to stand
    so that none was moved. -/
def RemovesRule (e : Json) (fs : List Json) : Prop :=
  (∀ f ∈ fs, SameRule .delete e f ↔
    keyOf e ≠ none ∧ keyOf f = keyOf e ∧ ∀ g ∈ fs, keyOf g ≠ none) ∧
  (keyOf e ≠ none → (∃ g ∈ fs, keyOf g = none) →
    (fs.takeWhile fun f => (keyOf f).isSome).Pairwise fun f g =>
      keyOf f = keyOf e → keyOf g = keyOf e)

theorem isOk_hasKey (key : Int × Int × FlowKey) (f : Json) :
    (hasKey key f).isOk = (keyOf f).isSome := by
  rw [Bool.eq_iff_iff, isOk_hasKey_iff, keyReadable_iff]

theorem hasKey_eq_true_iff (key : Int × Int × FlowKey) (f : Json) :
    hasKey key f = .ok true ↔ keyOf f = some key := by
  rw [hasKey, keyOf]
  cases extractKey f with
  | error err => exact ⟨fun h => (by cases h), fun h => (by cases h)⟩
  | ok fKey =>
    show Except.ok (decide (fKey = key)) = .ok true ↔ some fKey = some key
    rw [Except.ok.injEq, decide_eq_true_iff, Option.some.injEq]

/-- A delete keeps a flow that it can read unless it has the key. -/
theorem fails_hasKey_iff {key : Int × Int × FlowKey} {f : Json} (hf : keyOf f ≠ none) :
    InPlace.fails (hasKey key) f = true ↔ keyOf f ≠ some key := by
  have hok : (hasKey key f).isOk = true := by rwa [isOk_hasKey, Option.isSome_iff_ne_none]
  rw [ne_eq, ← hasKey_eq_true_iff, InPlace.fails]
  obtain ⟨b, hb⟩ := exists_of_isOk hok
  cases b <;> simp [hb]

theorem deleteLeft_of_error {e : Json} {key : Int × Int × FlowKey} (hkey : keyOf e = some key)
    {fs : List Json} (hbad : ∃ g ∈ fs, keyOf g = none) :
    ∃ err, InPlace.removeIf (hasKey key) .null [] [] fs = .error (err, deleteLeft e fs) := by
  cases hremove : InPlace.removeIf (hasKey key) .null [] [] fs with
  | error err =>
    simp only [deleteLeft, hkey, hremove]
    exact ⟨err.1, rfl⟩
  | ok kept =>
    obtain ⟨g, hg, hnone⟩ := hbad
    have hread := InPlace.forall_isOk_of_removeIf hremove g hg
    rw [isOk_hasKey, hnone] at hread
    exact nomatch hread

/-- A delete that can read all flows keeps those of other keys. -/
theorem deleteLeft_of_readable {e : Json} {key : Int × Int × FlowKey} (hkey : keyOf e = some key)
    {fs : List Json} (hread : ∀ f ∈ fs, keyOf f ≠ none) :
    deleteLeft e fs = fs.filter (InPlace.fails (hasKey key)) := by
  have hremove := InPlace.removeIf_eq_ok (p := hasKey key) .null [] [] fun f hf => by
    rw [isOk_hasKey, Option.isSome_iff_ne_none]
    exact hread f hf
  rw [deleteLeft, hkey]
  simp only [hremove, List.nil_append]

theorem deleteLeft_eq_iff (e : Json) (fs : List Json) :
    deleteLeft e fs = ruleEffect .delete e fs ↔ RemovesRule e fs := by
  classical
  have hkeeps : fs = ruleEffect .delete e fs ↔ ∀ f ∈ fs, ¬SameRule .delete e f := by
    rw [ruleEffect, eq_comm, List.filter_eq_self]
    simp only [decide_eq_true_eq]
  cases hkey : keyOf e with
  | none =>
    have hleft : deleteLeft e fs = fs := by rw [deleteLeft, hkey]
    rw [hleft, hkeeps, RemovesRule, hkey]
    simp
  | some key =>
    by_cases hbad : ∃ g ∈ fs, keyOf g = none
    · -- the delete throws: the flows are as many as before
      obtain ⟨err, hremove⟩ := deleteLeft_of_error hkey hbad
      have hlen : (deleteLeft e fs).length = fs.length := by
        have hlen := (InPlace.prefix_of_removeIf_error hremove).2
        simp only [List.length_nil] at hlen
        omega
      have hsame : deleteLeft e fs = fs ↔
          (fs.takeWhile fun f => (keyOf f).isSome).Pairwise fun f g =>
            keyOf f = keyOf e → keyOf g = keyOf e := by
        have h := InPlace.eq_iff_of_removeIf_error (fun g hg => absurd hg List.not_mem_nil) hremove
        simpa only [isOk_hasKey, hasKey_eq_true_iff, List.nil_append, hkey] using h
      have hnever : ∀ f, ¬(keyOf e ≠ none ∧ keyOf f = keyOf e ∧ ∀ g ∈ fs, keyOf g ≠ none) := by
        obtain ⟨g, hg, hnone⟩ := hbad
        exact fun f h => h.2.2 g hg hnone
      have hne : keyOf e ≠ none := by rw [hkey]; exact nofun
      have hfirst : (∀ f ∈ fs, SameRule .delete e f ↔
          keyOf e ≠ none ∧ keyOf f = keyOf e ∧ ∀ g ∈ fs, keyOf g ≠ none) ↔
          ∀ f ∈ fs, ¬SameRule .delete e f :=
        forall₂_congr fun f _ => iff_false_right (hnever f)
      rw [RemovesRule, hfirst, ← hsame, imp_iff_right hne, imp_iff_right hbad, ← hkeeps]
      constructor
      · intro h
        have hfull : (ruleEffect .delete e fs).length = fs.length := h ▸ hlen
        rw [ruleEffect, List.length_filter_eq_length_iff] at hfull
        have heq : fs = ruleEffect .delete e fs := by
          rw [ruleEffect, eq_comm, List.filter_eq_self]
          exact hfull
        exact ⟨heq, h.trans heq.symm⟩
      · exact fun h => h.2.trans h.1
    · have hread : ∀ g ∈ fs, keyOf g ≠ none := fun g hg hnone => hbad ⟨g, hg, hnone⟩
      rw [deleteLeft_of_readable hkey hread, ruleEffect, RemovesRule, List.filter_eq_filter_iff]
      simp only [hbad, false_imp_iff, imp_true_iff, and_true, hkey, ne_eq, reduceCtorEq,
        not_false_eq_true, true_and]
      apply forall₂_congr
      intro f hf
      rw [Bool.eq_iff_iff, fails_hasKey_iff (hread f hf), decide_eq_true_iff, not_iff_not]
      exact ⟨fun h => ⟨fun hs => ⟨h.mpr hs, hread⟩, fun hs => h.mp hs.1⟩,
        fun h => ⟨fun hs => h.mpr ⟨hs, hread⟩, fun hs => (h.mp hs).1⟩⟩

/-! ## The condition by fields -/

/-- The priority that a delete names; -1 if it names none. -/
def deletePriority (e : Json) : Int := (e.valueInt "priority" (-1)).toOption.getD (-1)

/-- The job of an entry to modify. -/
theorem exists_makeJob_modify {e : Json} (hdpid : (entryDpid e).isOk = true)
    (he : KeyReadable e) : ∃ job, HttpSession.makeJob .modify e = .ok job ∧
      job.match = matchOf e ∧ job.priority = intField e "priority" := by
  obtain ⟨fields, rfl⟩ := exists_obj he.object
  have hprio := valueInt_of_intField he.object he.priority
  simp only [HttpSession.makeJob, HttpSession.makeModifyJob, entryDpid_eq hdpid, hprio,
    Json.valueJson_obj, ok_bind]
  exact ⟨_, rfl, rfl, rfl⟩

/-- The job of an entry to delete. -/
theorem exists_makeJob_delete {e : Json} (hdpid : (entryDpid e).isOk = true)
    (he : KeyReadable e) : ∃ job, HttpSession.makeJob .delete e = .ok job ∧
      job.match = matchOf e ∧ job.priority = deletePriority e := by
  obtain ⟨fields, rfl⟩ := exists_obj he.object
  obtain ⟨priority, hprio⟩ := exists_of_isOk
    ((Json.valueInt_isOk_iff (.obj fields) "priority" (-1)).mpr ⟨he.object, he.priority⟩)
  have hdelete : deletePriority (.obj fields) = priority := by
    rw [deletePriority, hprio]
    rfl
  simp only [HttpSession.makeJob, HttpSession.makeDeleteJob, entryDpid_eq hdpid, hprio,
    Json.valueJson_obj, ok_bind]
  exact ⟨_, rfl, rfl, hdelete.symm⟩

/-- A delete that names a priority has it in its key. -/
theorem intField_of_deletePriority {e : Json} (he : KeyReadable e) (h : deletePriority e ≠ -1) :
    deletePriority e = intField e "priority" := by
  obtain ⟨fields, rfl⟩ := exists_obj he.object
  unfold deletePriority intField at *
  cases hfield : (Json.obj fields).field? "priority" with
  | none =>
    rw [Json.valueInt, Json.valueOr_obj_of_none hfield] at h
    exact absurd rfl h
  | some v =>
    have hread : ∀ fallback, (Json.obj fields).valueInt "priority" fallback = v.getInt :=
      fun fallback => Json.valueOr_of_field hfield
    rw [hread] at h
    rw [hread, hread]
    cases hv : v.getInt with
    | error err =>
      rw [hv] at h
      exact absurd rfl h
    | ok i => rfl

section Readable

variable {e f : Json} (hdpid : (entryDpid e).isOk = true) (he : KeyReadable e)
  (hf : KeyReadable f)
include hdpid he hf

/-- The rule of an entry to modify, by the fields that name it. -/
theorem sameRule_modify_iff : SameRule .modify e f ↔
    intField e "table_id" = intField f "table_id" ∧ intField e "priority" = intField f "priority" ∧
      SameMatch (matchOf e) (matchOf f) := by
  obtain ⟨job, hjob, hmatch, hpriority⟩ := exists_makeJob_modify hdpid he
  have htable := valueInt_of_intField he.object he.tableId
  have hftable := valueInt_of_intField hf.object hf.tableId
  have hfprio := valueInt_of_intField hf.object hf.priority
  constructor
  · rintro ⟨⟨t, ht, hft⟩, job', hjob', hsame, hprio⟩
    rw [hjob] at hjob'
    cases hjob'
    rw [hmatch] at hsame
    have hprio' := hprio.resolve_left fun h => nomatch h.1
    rw [hfprio, Except.ok.injEq, hpriority] at hprio'
    exact ⟨(intField_of_ok ht).trans (intField_of_ok hft).symm, hprio'.symm, hsame⟩
  · rintro ⟨ht, hprio, hsame⟩
    refine ⟨⟨_, htable, ?_⟩, job, hjob, ?_, .inr ?_⟩
    · rw [hftable, ht]
    · rwa [hmatch]
    · rw [hfprio, hpriority, hprio]

/-- The rules of an entry to delete. -/
theorem sameRule_delete_iff : SameRule .delete e f ↔
    intField e "table_id" = intField f "table_id" ∧
      (deletePriority e = -1 ∨ intField e "priority" = intField f "priority") ∧
      SameMatch (matchOf e) (matchOf f) := by
  obtain ⟨job, hjob, hmatch, hpriority⟩ := exists_makeJob_delete hdpid he
  have htable := valueInt_of_intField he.object he.tableId
  have hftable := valueInt_of_intField hf.object hf.tableId
  have hfprio := valueInt_of_intField hf.object hf.priority
  have hnamed : deletePriority e = -1 ∨ deletePriority e = intField e "priority" :=
    or_iff_not_imp_left.mpr (intField_of_deletePriority he)
  constructor
  · rintro ⟨⟨t, ht, hft⟩, job', hjob', hsame, hprio⟩
    rw [hjob] at hjob'
    cases hjob'
    rw [hmatch] at hsame
    refine ⟨(intField_of_ok ht).trans (intField_of_ok hft).symm, ?_, hsame⟩
    rw [hpriority, hfprio, Except.ok.injEq] at hprio
    rcases hprio with hany | hprio
    · exact .inl hany.2
    · rcases hnamed with hany | hnamed
      · exact .inl hany
      · exact .inr (hnamed.symm.trans hprio.symm)
  · rintro ⟨ht, hprio, hsame⟩
    refine ⟨⟨_, htable, ?_⟩, job, hjob, ?_, ?_⟩
    · rw [hftable, ht]
    · rwa [hmatch]
    · rw [hpriority, hfprio, Except.ok.injEq]
      rcases hnamed with hany | hnamed
      · exact .inl ⟨rfl, hany⟩
      · rcases hprio with hany | hprio
        · exact .inl ⟨rfl, hany⟩
        · exact .inr (hprio.symm.trans hnamed.symm)

end Readable

/-- The flow that the cache takes for the rule: the first that looks like the entry, with flows
    before it that can be read. -/
structure FirstAlike (e : Json) (pre : List Json) (f : Json) : Prop where
  entry : KeyReadable e
  flow : KeyReadable f
  alike : LooksLike e f
  before : ∀ g ∈ pre, KeyReadable g ∧ ¬LooksLike e g

theorem chosen_iff (e : Json) (pre : List Json) (f : Json) :
    Chosen e pre f ↔ FirstAlike e pre f := by
  constructor
  · rintro ⟨he, hkey, hpassed⟩
    have hf := (keyOf_ne_none_iff f).mp (hkey ▸ he)
    rw [keyOf_ne_none_iff] at he
    refine ⟨he, hf, (keyOf_eq_iff he hf).mp hkey, fun g hg => ?_⟩
    obtain ⟨hread, hother⟩ := hpassed g hg
    rw [keyOf_ne_none_iff] at hread
    exact ⟨hread, fun h => hother ((keyOf_eq_iff he hread).mpr h)⟩
  · rintro ⟨he, hf, halike, hbefore⟩
    refine ⟨(keyOf_ne_none_iff e).mpr he, (keyOf_eq_iff he hf).mpr halike, fun g hg => ?_⟩
    obtain ⟨hread, hother⟩ := hbefore g hg
    exact ⟨(keyOf_ne_none_iff g).mpr hread, fun h => hother ((keyOf_eq_iff he hread).mp h)⟩

/-- Apart from flows that already stand as the modify writes them, the flow of the rule is the
    first that looks like the entry, and the first that looks like the entry asks the same of
    every field of its match. -/
structure ModifyFindsRule (e : Json) (fs : List Json) : Prop where
  found : ∀ i f, fs[i]? = some f → withRule e f ≠ f → SameRule .modify e f →
    FirstAlike e (fs.take i) f
  only : ∀ i f, fs[i]? = some f → withRule e f ≠ f → FirstAlike e (fs.take i) f →
    SameMatch (matchOf e) (matchOf f)

theorem modifyFindsRule_iff {e : Json} (hdpid : (entryDpid e).isOk = true) (fs : List Json) :
    (∀ i f, fs[i]? = some f →
      (SameRule .modify e f ↔ Chosen e (fs.take i) f) ∨ withRule e f = f) ↔
      ModifyFindsRule e fs := by
  simp only [chosen_iff]
  constructor
  · intro h
    refine ⟨fun i f hf hne => ((h i f hf).resolve_right hne).mp, fun i f hf hne hfirst => ?_⟩
    have hsame := ((h i f hf).resolve_right hne).mpr hfirst
    exact ((sameRule_modify_iff hdpid hfirst.entry hfirst.flow).mp hsame).2.2
  · intro h i f hf
    by_cases hne : withRule e f = f
    · exact .inr hne
    · refine .inl ⟨h.found i f hf hne, fun hfirst => ?_⟩
      exact (sameRule_modify_iff hdpid hfirst.entry hfirst.flow).mpr
        ⟨hfirst.alike.table, hfirst.alike.priority, h.only i f hf hne hfirst⟩

/-- What tells a flow of the rule of a delete from another one of its table. A delete without a
    priority is for all of them, but its key has the priority 0, and -1 if it names -1. -/
structure TellsRule (e f : Json) : Prop where
  priority : deletePriority e = -1 → SameMatch (matchOf e) (matchOf f) →
    intField e "priority" = intField f "priority"
  «match» : intField e "priority" = intField f "priority" →
    (SameMatch (matchOf e) (matchOf f) ↔ SameKeyFields (matchOf e) (matchOf f))

/-- The flows of the rule of a delete can be told by the fields that the cache looks at. Where
    the entry or a flow cannot be read, none is of the rule, and among the flows before the first
    that cannot be read those that look like the entry stand last. -/
structure DeleteFindsRule (e : Json) (fs : List Json) : Prop where
  told : KeyReadable e → (∀ f ∈ fs, KeyReadable f) → ∀ f ∈ fs,
    intField e "table_id" = intField f "table_id" → TellsRule e f
  none : ¬(KeyReadable e ∧ ∀ f ∈ fs, KeyReadable f) → ∀ f ∈ fs, ¬SameRule .delete e f
  unmoved : KeyReadable e → ∀ pre g post, fs = pre ++ g :: post → (∀ f ∈ pre, KeyReadable f) →
    ¬KeyReadable g → pre.Pairwise fun f f' => LooksLike e f → LooksLike e f'

theorem tellsRule_iff {e f : Json} (hdpid : (entryDpid e).isOk = true) (he : KeyReadable e)
    (hf : KeyReadable f) : (SameRule .delete e f ↔ LooksLike e f) ↔
      (intField e "table_id" = intField f "table_id" → TellsRule e f) := by
  have hlooks : LooksLike e f ↔ intField e "table_id" = intField f "table_id" ∧
      intField e "priority" = intField f "priority" ∧
        SameKeyFields (matchOf e) (matchOf f) :=
    ⟨fun h => ⟨h.table, h.priority, h.fields⟩, fun h => ⟨h.1, h.2.1, h.2.2⟩⟩
  have htells : TellsRule e f ↔
      (deletePriority e = -1 → SameMatch (matchOf e) (matchOf f) →
        intField e "priority" = intField f "priority") ∧
      (intField e "priority" = intField f "priority" →
        (SameMatch (matchOf e) (matchOf f) ↔ SameKeyFields (matchOf e) (matchOf f))) :=
    ⟨fun h => ⟨h.priority, h.match⟩, fun h => ⟨h.1, h.2⟩⟩
  rw [sameRule_delete_iff hdpid he hf, hlooks, htells]
  tauto

theorem takeWhile_eq_of_split {α : Type} {p : α → Bool} {pre : List α} {x : α} (post : List α)
    (hpre : ∀ a ∈ pre, p a = true) (hx : p x = false) :
    (pre ++ x :: post).takeWhile p = pre := by
  rw [List.takeWhile_append_of_pos hpre, List.takeWhile_cons_of_neg (by simp [hx]),
    List.append_nil]

theorem deleteFindsRule_iff {e : Json} (hdpid : (entryDpid e).isOk = true) (fs : List Json) :
    RemovesRule e fs ↔ DeleteFindsRule e fs := by
  unfold RemovesRule
  simp only [keyOf_ne_none_iff]
  by_cases he : KeyReadable e
  · by_cases hall : ∀ f ∈ fs, KeyReadable f
    · -- the delete returns: only the flows that are told matter
      have hkeys : (∀ f ∈ fs, SameRule .delete e f ↔
          KeyReadable e ∧ keyOf f = keyOf e ∧ ∀ g ∈ fs, KeyReadable g) ↔
          ∀ f ∈ fs, intField e "table_id" = intField f "table_id" → TellsRule e f := by
        apply forall₂_congr
        intro f hf
        rw [← tellsRule_iff hdpid he (hall f hf), ← keyOf_eq_iff he (hall f hf),
          and_iff_right he, and_iff_left hall]
      have hreadable : ¬∃ g ∈ fs, keyOf g = none := by
        rintro ⟨g, hg, hnone⟩
        exact (keyOf_ne_none_iff g).mpr (hall g hg) hnone
      rw [hkeys]
      constructor
      · rintro ⟨htold, -⟩
        refine ⟨fun _ _ => htold, fun hnot => absurd ⟨he, hall⟩ hnot, ?_⟩
        intro _ pre g post hsplit _ hg
        exact absurd (hall g (hsplit ▸ List.mem_append_right pre List.mem_cons_self)) hg
      · intro h
        exact ⟨h.told he hall, fun _ hbad => absurd hbad hreadable⟩
    · -- it throws behind the flows before the first that cannot be read
      have hnever : (∀ f ∈ fs, SameRule .delete e f ↔
          KeyReadable e ∧ keyOf f = keyOf e ∧ ∀ g ∈ fs, KeyReadable g) ↔
          ∀ f ∈ fs, ¬SameRule .delete e f :=
        forall₂_congr fun f _ => iff_false_right fun h => hall h.2.2
      have hbefore : ∀ {pre : List Json}, (∀ f ∈ pre, KeyReadable f) →
          ((pre.Pairwise fun f g => keyOf f = keyOf e → keyOf g = keyOf e) ↔
            pre.Pairwise fun f g => LooksLike e f → LooksLike e g) := by
        intro pre hpre
        apply List.Pairwise.iff_of_mem
        intro f g hf hg
        rw [keyOf_eq_iff he (hpre f hf), keyOf_eq_iff he (hpre g hg)]
      rw [hnever]
      constructor
      · rintro ⟨hnone, hmoved⟩
        refine ⟨fun _ h => absurd h hall, fun _ => hnone, ?_⟩
        rintro _ pre g post rfl hpre hg
        have hg' : keyOf g = none := by rwa [← not_ne_iff, keyOf_ne_none_iff]
        have htake := takeWhile_eq_of_split (p := fun f => (keyOf f).isSome) post
          (fun f hf => (keyReadable_iff f).mp (hpre f hf)) (x := g) (by simp [hg'])
        have hpairwise := hmoved he ⟨g, List.mem_append_right pre List.mem_cons_self, hg'⟩
        rw [htake, hbefore hpre] at hpairwise
        exact hpairwise
      · intro h
        refine ⟨h.none fun hread => hall hread.2, fun _ ⟨g, hg, hnone⟩ => ?_⟩
        cases hfirst : fs.find? fun f => (keyOf f).isNone with
        | none =>
          rw [List.find?_eq_none] at hfirst
          exact absurd (by rw [hnone]; rfl) (hfirst g hg)
        | some x =>
          obtain ⟨hx, pre, post, rfl, hpre⟩ := List.find?_eq_some_iff_append.mp hfirst
          rw [Option.isNone_iff_eq_none] at hx
          have hread : ∀ f ∈ pre, KeyReadable f := fun f hf => by
            rw [keyReadable_iff]
            simpa using hpre f hf
          have htake := takeWhile_eq_of_split (p := fun f => (keyOf f).isSome) post
            (fun f hf => (keyReadable_iff f).mp (hread f hf)) (x := x) (by simp [hx])
          rw [htake, hbefore hread]
          exact h.unmoved he pre x post rfl hread fun hxread =>
            (keyOf_ne_none_iff x).mpr hxread hx
  · -- the key of the entry is read first
    have hnever : (∀ f ∈ fs, SameRule .delete e f ↔
        KeyReadable e ∧ keyOf f = keyOf e ∧ ∀ g ∈ fs, KeyReadable g) ↔
        ∀ f ∈ fs, ¬SameRule .delete e f :=
      forall₂_congr fun f _ => iff_false_right fun h => he h.1
    rw [hnever]
    constructor
    · rintro ⟨hnone, -⟩
      exact ⟨fun h => absurd h he, fun _ => hnone, fun h => absurd h he⟩
    · intro h
      exact ⟨h.none fun hread => he hread.1, fun h => absurd h he⟩

/-- The condition for a pass of the loop over the entries of `op`. -/
def FindsRule : FlowOp → Json → List Json → Prop
  | .install, _, _ => True
  | .modify, e, fs => ModifyFindsRule e fs
  | .delete, e, fs => DeleteFindsRule e fs

/-- A pass leaves what the switch leaves exactly when it finds the flows of the rule. -/
theorem flowsLeft_eq_iff (op : FlowOp) {e : Json} (hdpid : (entryDpid e).isOk = true)
    (fs : List Json) : flowsLeft op e fs = ruleEffect op e fs ↔ FindsRule op e fs := by
  cases op with
  | install => exact iff_of_true rfl trivial
  | modify => exact (modifyLeft_eq_iff e fs).trans (modifyFindsRule_iff hdpid fs)
  | delete => exact (deleteLeft_eq_iff e fs).trans (deleteFindsRule_iff hdpid fs)

end Ndtwin.Spec.FlowTablesCorrect

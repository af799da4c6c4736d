import Ndtwin.ForStd.List
import Ndtwin.Kernel.FlowTables

/-!
# When the cached tables can be updated

`updateOpenFlowTables` reads more than the checks before it: the key of every entry to modify
or delete, the keys of the flows that are cached for its switch, and the table of every entry to
install. The main result, `isOk_updateOpenFlowTables_iff`, says which entries and which cached
flows it can read, in terms of the tables before the update.

The proof follows the flows of each switch (`flowsOf`). An operation changes the flows of its
own switch only (`Applies`); an install adds a flow, a modify keeps all keys, and a delete leaves
some of the flows.
-/

namespace Ndtwin.Spec.FlowTablesCorrect

open Ndtwin.Kernel Ndtwin.Kernel.FlowTables EState

/-! ## Readable keys -/

/-- An address that `parseIpv4U32` can read. -/
def AddressLike : Json → Prop
  | .uint _ | .int _ => True
  | .str s => (parseIpv4AddrHost s.toList).isSome = true
  | _ => False

/-- The field, if there is one, is an address. -/
def AddressField (m : Json) (key : String) : Prop := ∀ v ∈ m.field? key, AddressLike v

/-- The protocol that a match names; 0 if it names none. -/
def protoOf (m : Json) : UInt8 := UInt8.ofInt ((m.valueInt "ip_proto" 0).toOption.getD 0)

/-- A match whose fields have the types that `extractKey` asks for. -/
structure MatchReadable (m : Json) : Prop where
  object : m.isObject = true
  ethType : Json.IntField m "eth_type"
  ipProto : Json.IntField m "ip_proto"
  ipv4Dst : AddressField m "ipv4_dst"
  ipv4Src : AddressField m "ipv4_src"
  tcpPorts : protoOf m = 6 → Json.IntField m "tcp_dst" ∧ Json.IntField m "tcp_src"
  udpPorts : protoOf m = 17 → Json.IntField m "udp_dst" ∧ Json.IntField m "udp_src"

/-- An entry or a cached flow whose key can be read. -/
structure KeyReadable (e : Json) : Prop where
  object : e.isObject = true
  tableId : Json.IntField e "table_id"
  priority : Json.IntField e "priority"
  «match» : MatchReadable ((e.field? "match").getD (.obj []))

theorem isOk_liftJson {α : Type} (x : Except Json.Error α) : (liftJson x).isOk = x.isOk := by
  cases x <;> rfl

theorem isOk_ipv4Field_iff (m : Json) (key : String) :
    (ipv4Field m key).isOk = true ↔ AddressField m key := by
  unfold ipv4Field AddressField
  cases m.field? key with
  | none => simp [Except.isOk, Except.toBool]
  | some v =>
    simp only [Option.mem_def, Option.some.injEq, forall_eq']
    cases v with
    | str s =>
      simp only [parseIpv4U32, AddressLike]
      cases parseIpv4AddrHost s.toList <;> simp [Except.isOk, Except.toBool]
    | _ => simp [parseIpv4U32, AddressLike, Except.isOk, Except.toBool]

/-- Two `int` fields of an object, read one after the other. -/
theorem isOk_intFields_iff {m : Json} (hm : m.isObject = true) (dst src : String) :
    (do let d ← m.valueInt dst 0
        let s ← m.valueInt src 0
        return (d, s) : Except Json.Error (Int × Int)).isOk = true ↔
      Json.IntField m dst ∧ Json.IntField m src := by
  rw [isOk_bind_of_forall fun d => isOk_bind_of_forall fun s => (iff_true_intro rfl)]
  simp [Json.valueInt_isOk_iff, hm]

theorem isOk_portFields_iff {m : Json} (hm : m.isObject = true) (proto : UInt8) :
    (portFields m proto).isOk = true ↔
      (proto = 6 → Json.IntField m "tcp_dst" ∧ Json.IntField m "tcp_src") ∧
      (proto = 17 → Json.IntField m "udp_dst" ∧ Json.IntField m "udp_src") := by
  unfold portFields
  split
  · rename_i htcp
    rw [isOk_intFields_iff hm]
    simp [htcp]
  · rename_i htcp
    split
    · rename_i hudp
      rw [isOk_intFields_iff hm]
      simp [hudp]
    · rename_i hudp
      simp [htcp, hudp, Except.isOk, Except.toBool]

theorem liftJson_eq_ok {α : Type} {x : Except Json.Error α} {a : α} :
    liftJson x = .ok a ↔ x = .ok a := by
  cases x <;> simp [liftJson]

theorem protoOf_of_ok {m : Json} {proto : Int} (h : m.valueInt "ip_proto" 0 = .ok proto) :
    protoOf m = UInt8.ofInt proto := by
  rw [protoOf, h]
  rfl

theorem isOk_matchKey_iff (m : Json) : (matchKey m).isOk = true ↔ MatchReadable m := by
  constructor
  · intro h
    obtain ⟨fk, h⟩ := exists_of_isOk h
    obtain ⟨ethType, heth, h⟩ := bind_eq_ok h
    obtain ⟨ipProto, hproto, h⟩ := bind_eq_ok h
    obtain ⟨ipv4Dst, hdst, h⟩ := bind_eq_ok h
    obtain ⟨ipv4Src, hsrc, h⟩ := bind_eq_ok h
    obtain ⟨ports, hports, h⟩ := bind_eq_ok h
    rw [liftJson_eq_ok] at heth hproto hports
    have hetype := (Json.valueInt_isOk_iff m "eth_type" 0).mp (isOk_of_exists ⟨_, heth⟩)
    have hptype := (Json.valueInt_isOk_iff m "ip_proto" 0).mp (isOk_of_exists ⟨_, hproto⟩)
    have hplain := (isOk_portFields_iff hptype.1 _).mp (isOk_of_exists ⟨_, hports⟩)
    -- which pair of ports is read depends on the protocol just read
    rw [← protoOf_of_ok hproto] at hplain
    exact {
      object := hptype.1
      ethType := hetype.2
      ipProto := hptype.2
      ipv4Dst := (isOk_ipv4Field_iff m "ipv4_dst").mp (isOk_of_exists ⟨_, hdst⟩)
      ipv4Src := (isOk_ipv4Field_iff m "ipv4_src").mp (isOk_of_exists ⟨_, hsrc⟩)
      tcpPorts := hplain.1
      udpPorts := hplain.2 }
  · intro h
    obtain ⟨ethType, heth⟩ := exists_of_isOk
      ((Json.valueInt_isOk_iff m "eth_type" 0).mpr ⟨h.object, h.ethType⟩)
    obtain ⟨ipProto, hproto⟩ := exists_of_isOk
      ((Json.valueInt_isOk_iff m "ip_proto" 0).mpr ⟨h.object, h.ipProto⟩)
    obtain ⟨ipv4Dst, hdst⟩ := exists_of_isOk ((isOk_ipv4Field_iff m "ipv4_dst").mpr h.ipv4Dst)
    obtain ⟨ipv4Src, hsrc⟩ := exists_of_isOk ((isOk_ipv4Field_iff m "ipv4_src").mpr h.ipv4Src)
    have hproto' := protoOf_of_ok hproto
    obtain ⟨ports, hports⟩ := exists_of_isOk ((isOk_portFields_iff h.object (UInt8.ofInt ipProto)).mpr
      ⟨hproto' ▸ h.tcpPorts, hproto' ▸ h.udpPorts⟩)
    rw [matchKey, heth, hproto, hdst, hsrc]
    simp only [liftJson, ok_bind, hports]
    rfl

/-- `extractKey` returns exactly for readable keys. -/
theorem isOk_extractKey_iff (e : Json) : (extractKey e).isOk = true ↔ KeyReadable e := by
  constructor
  · intro h
    obtain ⟨key, h⟩ := exists_of_isOk h
    obtain ⟨tableId, htable, h⟩ := bind_eq_ok h
    obtain ⟨priority, hprio, h⟩ := bind_eq_ok h
    obtain ⟨fk, hfk, h⟩ := bind_eq_ok h
    rw [liftJson_eq_ok] at htable hprio
    have httype := (Json.valueInt_isOk_iff e "table_id" 0).mp (isOk_of_exists ⟨_, htable⟩)
    have hptype := (Json.valueInt_isOk_iff e "priority" 0).mp (isOk_of_exists ⟨_, hprio⟩)
    exact {
      object := httype.1
      tableId := httype.2
      priority := hptype.2
      «match» := (isOk_matchKey_iff _).mp (isOk_of_exists ⟨_, hfk⟩) }
  · intro h
    obtain ⟨tableId, htable⟩ := exists_of_isOk
      ((Json.valueInt_isOk_iff e "table_id" 0).mpr ⟨h.object, h.tableId⟩)
    obtain ⟨priority, hprio⟩ := exists_of_isOk
      ((Json.valueInt_isOk_iff e "priority" 0).mpr ⟨h.object, h.priority⟩)
    obtain ⟨fk, hfk⟩ := exists_of_isOk ((isOk_matchKey_iff _).mpr h.match)
    rw [extractKey, htable, hprio]
    simp only [liftJson, ok_bind, hfk]
    rfl

/-! ## The flows of a switch -/

/-- What the update finds for a switch: its flows, none for one that is neither cached nor in the
    topology, or an error for a reply that is neither an object nor null. -/
def flowsOf (graph : Graph) (tables : List SwitchTable) (dpid : UInt64) :
    Except Json.Error (Option Json) :=
  match tables.find? fun sw => sw.dpid = dpid with
  | some sw =>
    match sw.flows with
    | .obj fields => .ok (some (((Json.obj fields).field? (flowsKey dpid)).getD .null))
    | .null => .ok (some .null)
    | _ => .error .typeError
  | none => .ok (if (graph.findSwitchByDpid dpid).isNone then none else some (.arr []))

theorem flowsOf_split_self (graph : Graph) {pre post : List SwitchTable} {sw : SwitchTable}
    {dpid : UInt64} (hpre : ∀ t ∈ pre, t.dpid ≠ dpid) (hsw : sw.dpid = dpid) :
    flowsOf graph (pre ++ sw :: post) dpid = flowsOf graph [sw] dpid := by
  have hnone : pre.find? (fun t => t.dpid = dpid) = none := by
    simpa [List.find?_eq_none] using hpre
  simp [flowsOf, List.find?_append, hnone, hsw]

theorem flowsOf_split_other (graph : Graph) (pre post : List SwitchTable) {sw : SwitchTable}
    {dpid : UInt64} (hsw : sw.dpid ≠ dpid) :
    flowsOf graph (pre ++ sw :: post) dpid = flowsOf graph (pre ++ post) dpid := by
  simp [flowsOf, List.find?_append, hsw]

/-- `i` points to the flows of a switch: the value read there is `v`, and a write through it
    changes, of the flows in `tables`, those of the switch. -/
structure PointsTo (graph : Graph) (tables : List SwitchTable) (dpid : UInt64) (v : Json)
    (i : Nat) (tables' : List SwitchTable) : Prop where
  read : readFlows i dpid tables' = v
  write : ∀ w d, flowsOf graph (writeFlows i dpid w tables') d =
    if d = dpid then .ok (some w) else flowsOf graph tables d

/-- The pointer of a switch whose `flows` has its key. -/
theorem pointsTo_of_split (graph : Graph) {tables pre post : List SwitchTable} {dpid : UInt64}
    {fields : List (String × Json)} {v : Json} (hpre : ∀ t ∈ pre, t.dpid ≠ dpid)
    (hfield : (Json.obj fields).field? (flowsKey dpid) = some v)
    (hothers : ∀ d, d ≠ dpid → flowsOf graph (pre ++ post) d = flowsOf graph tables d) :
    PointsTo graph tables dpid v pre.length (pre ++ ⟨dpid, .obj fields⟩ :: post) where
  read := by simp [readFlows, hfield]
  write := by
    intro w d
    have hwrite : writeFlows pre.length dpid w (pre ++ ⟨dpid, .obj fields⟩ :: post) =
        pre ++ ⟨dpid, .obj (Json.insertField (flowsKey dpid) w fields)⟩ :: post := by
      simp [writeFlows]
    rw [hwrite]
    by_cases hd : d = dpid
    · subst hd
      rw [flowsOf_split_self graph hpre rfl, if_pos rfl]
      simp [flowsOf]
    · rw [flowsOf_split_other graph pre post (Ne.symm hd), if_neg hd]
      exact hothers d hd

/-- What a mutable subscript leaves in its place. -/
theorem subscript_cases (j : Json) (key : String) :
    (∃ fields v, j.subscript key = .ok (.obj fields) ∧ (Json.obj fields).field? key = some v ∧
      (j = .null ∧ v = .null ∨
        ∃ fields₀, j = .obj fields₀ ∧ v = ((Json.obj fields₀).field? key).getD .null)) ∨
    (j.subscript key = .error .typeError ∧ j.isObject = false ∧ j ≠ .null) := by
  cases j with
  | null => exact .inl ⟨[(key, .null)], .null, rfl, by simp [Json.field?], .inl ⟨rfl, rfl⟩⟩
  | obj fields =>
    left
    cases hfield : (Json.obj fields).field? key with
    | some v =>
      refine ⟨fields, v, by simp only [Json.subscript, hfield], hfield, .inr ⟨fields, rfl, ?_⟩⟩
      rw [hfield, Option.getD_some]
    | none =>
      refine ⟨Json.insertField key .null fields, .null, ?_, by simp, .inr ⟨fields, rfl, ?_⟩⟩
      · simp only [Json.subscript, hfield, Json.assign]
      · rw [hfield, Option.getD_none]
  | _ => exact .inr ⟨rfl, rfl, (fun h => by cases h)⟩

/-- The search for a switch that is cached. -/
theorem getFlowsArrayForDpid_split (graph : Graph) {pre post : List SwitchTable}
    {sw : SwitchTable} (hpre : ∀ t ∈ pre, t.dpid ≠ sw.dpid) :
    getFlowsArrayForDpid graph sw.dpid (pre ++ sw :: post) =
      match sw.flows.subscript (flowsKey sw.dpid) with
      | .ok flows => .ok (some pre.length) (pre ++ { sw with flows := flows } :: post)
      | .error e => .error (.json e) (pre ++ sw :: post) := by
  have hidx : (pre ++ sw :: post).findIdx? (fun t => t.dpid = sw.dpid) = some pre.length := by
    have hnone : pre.findIdx? (fun t => t.dpid = sw.dpid) = none := by
      simpa [List.findIdx?_eq_none_iff] using hpre
    simp [List.findIdx?_append, List.findIdx?_cons, hnone]
  unfold getFlowsArrayForDpid
  rw [get_bind, hidx]
  have hget : ((pre ++ sw :: post)[pre.length]?.map SwitchTable.flows).getD .null = sw.flows := by
    simp
  simp only [hget]
  cases sw.flows.subscript (flowsKey sw.dpid) with
  | error e => rfl
  | ok flows =>
    show EStateM.Result.ok _ _ = _
    simp

/-- The search for a switch that is not. -/
theorem getFlowsArrayForDpid_missing (graph : Graph) {tables : List SwitchTable} {dpid : UInt64}
    (h : ∀ t ∈ tables, t.dpid ≠ dpid) :
    getFlowsArrayForDpid graph dpid tables =
      if (graph.findSwitchByDpid dpid).isNone then .ok none tables
      else .ok (some tables.length) (tables ++ [⟨dpid, .obj [(flowsKey dpid, .arr [])]⟩]) := by
  have hidx : tables.findIdx? (fun t => t.dpid = dpid) = none := by
    simpa [List.findIdx?_eq_none_iff] using h
  unfold getFlowsArrayForDpid
  rw [get_bind, hidx]
  dsimp only
  split <;> rfl

/-- What `getFlowsArrayForDpid` does, by what it finds. -/
theorem getFlowsArrayForDpid_cases (graph : Graph) (tables : List SwitchTable) (dpid : UInt64) :
    match flowsOf graph tables dpid with
    | .error _ => ∃ e, getFlowsArrayForDpid graph dpid tables = .error e tables
    | .ok none => getFlowsArrayForDpid graph dpid tables = .ok none tables
    | .ok (some v) => ∃ i tables', getFlowsArrayForDpid graph dpid tables = .ok (some i) tables' ∧
        PointsTo graph tables dpid v i tables' := by
  cases hidx : tables.findIdx? fun sw => sw.dpid = dpid with
  | some i =>
    obtain ⟨pre, sw, post, rfl, rfl, hsw, hpre⟩ := List.exists_split_of_findIdx? hidx
    obtain rfl : sw.dpid = dpid := by simpa using hsw
    have hpre' : ∀ t ∈ pre, t.dpid ≠ sw.dpid := by simpa using hpre
    rw [flowsOf_split_self graph hpre' rfl, getFlowsArrayForDpid_split graph hpre']
    obtain ⟨dpid, flows⟩ := sw
    rcases subscript_cases flows (flowsKey dpid) with ⟨fields, v, hsub, hv, hj⟩ | ⟨hsub, hobj, hnull⟩
    · have hpoints : PointsTo graph (pre ++ ⟨dpid, flows⟩ :: post) dpid v pre.length
          (pre ++ ⟨dpid, .obj fields⟩ :: post) :=
        pointsTo_of_split graph hpre' hv fun d hd =>
          (flowsOf_split_other graph pre post (Ne.symm hd)).symm
      have hflows : flowsOf graph [⟨dpid, flows⟩] dpid = .ok (some v) := by
        rcases hj with ⟨rfl, rfl⟩ | ⟨fields₀, rfl, rfl⟩ <;> simp [flowsOf]
      rw [hflows]
      simp only [hsub]
      exact ⟨pre.length, _, rfl, hpoints⟩
    · have hflows : flowsOf graph [⟨dpid, flows⟩] dpid = .error .typeError := by
        cases flows <;> simp_all [flowsOf, Json.isObject]
      rw [hflows]
      simp only [hsub]
      exact ⟨_, rfl⟩
  | none =>
    -- no entry for the switch: a known one gets an empty table at the end
    have hnone : ∀ t ∈ tables, t.dpid ≠ dpid := by
      simpa [List.findIdx?_eq_none_iff] using hidx
    have hfind : tables.find? (fun t => t.dpid = dpid) = none := by
      simpa [List.find?_eq_none] using hnone
    rw [getFlowsArrayForDpid_missing graph hnone]
    simp only [flowsOf, hfind]
    split
    · simp_all
    · simp_all
    · rename_i v hv
      split at hv
      · cases hv
      · obtain rfl : Json.arr [] = v := by simpa using hv
        rename_i hknown
        rw [if_neg hknown]
        refine ⟨tables.length, _, rfl, ?_⟩
        apply pointsTo_of_split graph hnone (by simp [Json.field?])
        intro d _
        rw [List.append_nil]

/-! ## What an operation does to the flows of its switch -/

/-- A program that changes the flows of one switch by `effect`, and throws where that throws. -/
def Applies (graph : Graph) (dpid : UInt64) (effect : Json → Except TableError Json)
    (m : TablesM Unit) : Prop :=
  ∀ tables,
    match flowsOf graph tables dpid with
    | .error _ => isOk (m tables) = false
    | .ok none => m tables = .ok () tables
    | .ok (some v) =>
      match effect v with
      | .error _ => isOk (m tables) = false
      | .ok w => ∃ tables', m tables = .ok () tables' ∧
          ∀ d, flowsOf graph tables' d =
            if d = dpid then .ok (some w) else flowsOf graph tables d

/-- A program that gets the pointer and then works on the value behind it. -/
theorem applies_of_body (graph : Graph) (dpid : UInt64)
    {effect : Json → Except TableError Json} {body : Nat → TablesM Unit}
    (hbody : ∀ i tables,
      match effect (readFlows i dpid tables) with
      | .ok w => body i tables = .ok () (writeFlows i dpid w tables)
      | .error _ => isOk (body i tables) = false) :
    Applies graph dpid effect (do
      match ← getFlowsArrayForDpid graph dpid with
      | none => return
      | some i => body i) := by
  intro tables
  have hget := getFlowsArrayForDpid_cases graph tables dpid
  cases hflows : flowsOf graph tables dpid with
  | error e =>
    rw [hflows] at hget
    obtain ⟨e', hget⟩ := hget
    dsimp only
    -- the lookup throws before the body runs
    rw [bind_of_error hget]
    rfl
  | ok found =>
    cases found with
    | none =>
      rw [hflows] at hget
      dsimp only at hget ⊢
      rw [bind_of_ok hget]
      rfl
    | some v =>
      rw [hflows] at hget
      obtain ⟨i, tables', hget, hpoints⟩ := hget
      dsimp only
      have hi := hbody i tables'
      -- the body works on the array that the lookup pointed to
      rw [hpoints.read] at hi
      rw [bind_of_ok hget]
      cases heffect : effect v with
      | error e =>
        rw [heffect] at hi
        exact hi
      | ok w =>
        rw [heffect] at hi
        exact ⟨_, hi, hpoints.write w⟩

/-- The dpid of an entry that has one. -/
def dpidOf (e : Json) : UInt64 := (entryDpid e).toOption.getD 0

theorem entryDpid_eq {e : Json} (h : (entryDpid e).isOk = true) : entryDpid e = .ok (dpidOf e) := by
  obtain ⟨d, hd⟩ := exists_of_isOk h
  rw [dpidOf, hd]
  rfl

def installEffect (e v : Json) : Except TableError Json := do
  let flow ← liftJson (newFlow e)
  liftJson (v.pushBack flow)

def modifyEffect (key : Int × Int × FlowKey) (e v : Json) : Except TableError Json := do
  let elems ← modifyFirst key e v.iterate
  return v.withElems elems

def deleteEffect (key : Int × Int × FlowKey) (v : Json) : Except TableError Json :=
  match InPlace.removeIf (hasKey key) .null [] [] v.iterate with
  | .error (err, _) => .error err
  | .ok kept =>
    match v with
    | .null => .error (.json .typeError)
    | _ => .ok (v.withElems kept)

theorem applies_installOne (graph : Graph) {e : Json} (hdpid : (entryDpid e).isOk = true) :
    Applies graph (dpidOf e) (installEffect e) (installOne graph e) := by
  intro tables
  have hentry : liftJson (entryDpid e) = .ok (dpidOf e) := by rw [entryDpid_eq hdpid]; rfl
  rw [installOne, ofExcept_bind hentry]
  revert tables
  apply applies_of_body
  intro i tables
  rw [installEffect]
  cases hflow : newFlow e with
  | error err => rfl
  | ok flow =>
    have hlift : liftJson (.ok flow) = .ok flow := rfl
    rw [hlift, ofExcept_bind rfl, get_bind, ok_bind]
    cases (readFlows i (dpidOf e) tables).pushBack flow with
    | error err => rfl
    | ok w => rfl

theorem applies_modifyOne (graph : Graph) {e : Json} {key : Int × Int × FlowKey}
    (hdpid : (entryDpid e).isOk = true) (hkey : extractKey e = .ok key) :
    Applies graph (dpidOf e) (modifyEffect key e) (modifyOne graph e) := by
  intro tables
  have hentry : liftJson (entryDpid e) = .ok (dpidOf e) := by rw [entryDpid_eq hdpid]; rfl
  rw [modifyOne, ofExcept_bind hentry, ofExcept_bind hkey]
  revert tables
  apply applies_of_body
  intro i tables
  rw [modifyEffect, get_bind]
  cases modifyFirst key e (readFlows i (dpidOf e) tables).iterate with
  | error err => rfl
  | ok elems => rfl

theorem applies_deleteOne (graph : Graph) {e : Json} {key : Int × Int × FlowKey}
    (hdpid : (entryDpid e).isOk = true) (hkey : extractKey e = .ok key) :
    Applies graph (dpidOf e) (deleteEffect key) (deleteOne graph e) := by
  intro tables
  have hentry : liftJson (entryDpid e) = .ok (dpidOf e) := by rw [entryDpid_eq hdpid]; rfl
  rw [deleteOne, ofExcept_bind hentry, ofExcept_bind hkey]
  revert tables
  apply applies_of_body
  intro i tables
  rw [deleteEffect, get_bind]
  generalize readFlows i (dpidOf e) tables = v
  cases InPlace.removeIf (hasKey key) .null [] [] v.iterate with
  | error err => rfl
  | ok kept => cases v <;> rfl

/-- An entry whose key cannot be read is refused before any table is looked at. -/
theorem isOk_keyed_of_error {e : Json} {err : TableError} (hkey : extractKey e = .error err)
    (body : UInt64 → Int × Int × FlowKey → TablesM Unit) (tables : List SwitchTable) :
    isOk ((do
      let dpid ← EState.ofExcept (liftJson (entryDpid e))
      let key ← EState.ofExcept (extractKey e)
      body dpid key) tables) = false := by
  cases liftJson (entryDpid e) with
  | error _ => rfl
  | ok d =>
    rw [ofExcept_bind rfl, hkey]
    rfl

/-- `P` holds of the flows that the update works on, if it works on any. -/
def OnFlows (P : Json → Prop) : Except Json.Error (Option Json) → Prop
  | .error _ => False
  | .ok none => True
  | .ok (some v) => P v

theorem onFlows_congr {P Q : Json → Prop} (h : ∀ v, P v ↔ Q v)
    (found : Except Json.Error (Option Json)) : OnFlows P found ↔ OnFlows Q found := by
  rcases found with _ | _ | v
  · exact Iff.rfl
  · exact Iff.rfl
  · exact h v

/-- When an operation returns. -/
theorem Applies.isOk_iff {graph : Graph} {dpid : UInt64}
    {effect : Json → Except TableError Json} {m : TablesM Unit}
    (h : Applies graph dpid effect m) (tables : List SwitchTable) :
    isOk (m tables) = true ↔
      OnFlows (fun v => (effect v).isOk = true) (flowsOf graph tables dpid) := by
  have hm := h tables
  rcases hflows : flowsOf graph tables dpid with e | _ | v
  · rw [hflows] at hm
    simp only [OnFlows, hm, Bool.false_eq_true]
  · rw [hflows] at hm
    simp only [OnFlows, hm, isOk]
  · rw [hflows] at hm
    dsimp only [OnFlows] at hm ⊢
    cases heffect : effect v with
    | error e =>
      rw [heffect] at hm
      simp only [hm, Bool.false_eq_true, Except.isOk, Except.toBool]
    | ok w =>
      rw [heffect] at hm
      obtain ⟨tables', hm, _⟩ := hm
      rw [hm]
      exact ⟨fun _ => rfl, fun _ => rfl⟩

/-- The flows of a switch that is found, after a change of them. -/
def changeFlows (effect : Json → Except TableError Json) :
    Except Json.Error (Option Json) → Except Json.Error (Option Json)
  | .ok (some v) => .ok (some ((effect v).toOption.getD v))
  | found => found

/-- What an operation that returned did. -/
theorem Applies.flowsOf_eq {graph : Graph} {dpid : UInt64}
    {effect : Json → Except TableError Json} {m : TablesM Unit}
    (h : Applies graph dpid effect m) {tables tables' : List SwitchTable}
    (hm : m tables = .ok () tables') (d : UInt64) :
    flowsOf graph tables' d =
      if d = dpid then changeFlows effect (flowsOf graph tables dpid)
      else flowsOf graph tables d := by
  have hcases := h tables
  rw [hm] at hcases
  rcases hflows : flowsOf graph tables dpid with e | _ | v
  · rw [hflows] at hcases
    exact nomatch hcases
  · rw [hflows] at hcases
    -- an unknown switch: the update is skipped
    obtain ⟨_, rfl⟩ := EStateM.Result.ok.inj hcases
    split
    · rename_i hd
      rw [hd, hflows]
      rfl
    · rfl
  · rw [hflows] at hcases
    dsimp only at hcases
    cases heffect : effect v with
    | error e =>
      rw [heffect] at hcases
      exact nomatch hcases
    | ok w =>
      rw [heffect] at hcases
      obtain ⟨tables'', heq, hd⟩ := hcases
      obtain ⟨_, rfl⟩ := EStateM.Result.ok.inj heq
      rw [hd d]
      simp only [changeFlows, heffect, Except.toOption, Option.getD_some]

/-! ## Installs -/

theorem isObject_of_entryDpid {e : Json} (h : (entryDpid e).isOk = true) : e.isObject = true := by
  cases e with
  | obj fields => rfl
  | _ => exact nomatch h

/-- A table to which a flow can be added. -/
def Appendable (v : Json) : Prop := v = .null ∨ v.isArray = true

/-- The fields that an install reads and that are not used as they are. -/
def FlowFieldsReadable (e : Json) : Prop :=
  Json.IntField e "priority" ∧ Json.IntField e "table_id"

theorem isOk_newFlow_iff {e : Json} (he : e.isObject = true) :
    (newFlow e).isOk = true ↔ FlowFieldsReadable e := by
  have hprio := Json.valueInt_isOk_iff e "priority" 0
  have htable := Json.valueInt_isOk_iff e "table_id" 0
  obtain ⟨fields, rfl⟩ : ∃ fields, e = .obj fields := by
    cases e <;> simp [Json.isObject] at he ⊢
  rw [newFlow, isOk_bind_of_forall fun priority => ?_, hprio, FlowFieldsReadable]
  · exact and_congr_left' (and_iff_right he)
  · rw [Json.valueJson_obj, ok_bind, Json.valueJson_obj, ok_bind,
      isOk_bind_of_forall fun _ => iff_true_intro rfl, htable]
    rw [and_true]
    exact and_iff_right he

theorem isOk_pushBack_iff (v w : Json) : (v.pushBack w).isOk = true ↔ Appendable v := by
  cases v <;> simp [Json.pushBack, Appendable, Json.isArray, Except.isOk, Except.toBool]

theorem isOk_installEffect_iff {e : Json} (he : e.isObject = true) (v : Json) :
    (installEffect e v).isOk = true ↔ FlowFieldsReadable e ∧ Appendable v := by
  rw [installEffect, isOk_bind_of_forall fun flow => ?_, isOk_liftJson, isOk_newFlow_iff he]
  rw [isOk_liftJson, isOk_pushBack_iff]

/-- The flow that an entry installs. -/
def flowOfEntry (e : Json) : Json := (newFlow e).toOption.getD .null

/-- The flows that a batch installs on a switch. -/
def installedFlows (ins : List Json) (dpid : UInt64) : List Json :=
  (ins.filter fun e => dpidOf e = dpid).map flowOfEntry

/-- Flows after some were added. -/
def addFlows (flows : List Json) (v : Json) : Json :=
  if flows = [] then v else .arr (v.iterate ++ flows)

theorem installEffect_eq {e v w : Json} (h : installEffect e v = .ok w) :
    w = .arr (v.iterate ++ [flowOfEntry e]) := by
  obtain ⟨flow, hflow, hpush⟩ := bind_eq_ok h
  rw [liftJson_eq_ok] at hflow hpush
  have hentry : flowOfEntry e = flow := by rw [flowOfEntry, hflow]; rfl
  rw [hentry]
  cases v with
  | null | arr elems => exact (Except.ok.inj hpush).symm
  | _ => exact nomatch hpush

/-- An install can be made. -/
def InstallReadable (graph : Graph) (tables : List SwitchTable) (e : Json) : Prop :=
  OnFlows (fun v => FlowFieldsReadable e ∧ Appendable v) (flowsOf graph tables (dpidOf e))

theorem isOk_installOne_iff (graph : Graph) {e : Json} (hdpid : (entryDpid e).isOk = true)
    (tables : List SwitchTable) :
    isOk (installOne graph e tables) = true ↔ InstallReadable graph tables e := by
  rw [(applies_installOne graph hdpid).isOk_iff]
  exact onFlows_congr (isOk_installEffect_iff (isObject_of_entryDpid hdpid)) _

/-- What an install that returned did. -/
theorem flowsOf_installOne (graph : Graph) {e : Json} (hdpid : (entryDpid e).isOk = true)
    {tables tables' : List SwitchTable} (h : installOne graph e tables = .ok () tables')
    (d : UInt64) :
    flowsOf graph tables' d =
      (flowsOf graph tables d).map (Option.map (addFlows (installedFlows [e] d))) := by
  rw [(applies_installOne graph hdpid).flowsOf_eq h d]
  have hok : isOk (installOne graph e tables) = true := by rw [h]; rfl
  rw [(applies_installOne graph hdpid).isOk_iff] at hok
  by_cases hd : d = dpidOf e
  · subst hd
    have hflows : installedFlows [e] (dpidOf e) = [flowOfEntry e] := by simp [installedFlows]
    rw [if_pos rfl, hflows]
    rcases hfound : flowsOf graph tables (dpidOf e) with err | _ | v
    · rfl
    · rfl
    · rw [hfound] at hok
      obtain ⟨w, hw⟩ := exists_of_isOk hok
      have hcases := installEffect_eq hw
      simp only [changeFlows, hw, Except.toOption, Option.getD_some, Except.map, Option.map_some,
        addFlows, List.cons_ne_nil, if_false, hcases]
  · have hflows : installedFlows [e] d = [] := by simp [installedFlows, Ne.symm hd]
    rw [if_neg hd, hflows]
    rcases flowsOf graph tables d with err | _ | v <;> rfl

theorem map_addFlows_nil (found : Except Json.Error (Option Json)) :
    found.map (Option.map (addFlows [])) = found := by
  rcases found with err | _ | v <;> rfl

theorem addFlows_addFlows (flows flows' : List Json) (v : Json) :
    addFlows flows' (addFlows flows v) = addFlows (flows ++ flows') v := by
  cases flows with
  | nil => rfl
  | cons f fs =>
    cases flows' with
    | nil => simp [addFlows]
    | cons g gs => simp [addFlows, Json.iterate]

theorem installedFlows_cons (e : Json) (ins : List Json) (d : UInt64) :
    installedFlows (e :: ins) d = installedFlows [e] d ++ installedFlows ins d := by
  simp only [installedFlows, ← List.map_append, ← List.filter_append, List.singleton_append]

/-- An install leaves every other install possible. -/
theorem installReadable_installOne (graph : Graph) {e : Json} (hdpid : (entryDpid e).isOk = true)
    {tables tables' : List SwitchTable} (h : installOne graph e tables = .ok () tables')
    (e' : Json) : InstallReadable graph tables' e' ↔ InstallReadable graph tables e' := by
  have hok : InstallReadable graph tables e := by
    rw [← isOk_installOne_iff graph hdpid, h]
    rfl
  rw [InstallReadable, InstallReadable, flowsOf_installOne graph hdpid h]
  by_cases hd : dpidOf e' = dpidOf e
  · rw [InstallReadable] at hok
    rw [hd]
    rcases hfound : flowsOf graph tables (dpidOf e) with err | _ | v
    · exact Iff.rfl
    · exact Iff.rfl
    · rw [hfound] at hok
      have hflows : installedFlows [e] (dpidOf e) = [flowOfEntry e] := by simp [installedFlows]
      have happend : Appendable (addFlows (installedFlows [e] (dpidOf e)) v) := by
        rw [hflows]
        exact .inr rfl
      exact and_congr_right' (iff_of_true happend hok.2)
  · have hflows : installedFlows [e] (dpidOf e') = [] := by simp [installedFlows, Ne.symm hd]
    rw [hflows, map_addFlows_nil]

theorem isOk_installs_iff (graph : Graph) {ins : List Json}
    (hins : ∀ e ∈ ins, (entryDpid e).isOk = true) (tables : List SwitchTable) :
    isOk (ins.forM (installOne graph) tables) = true ↔
      ∀ e ∈ ins, InstallReadable graph tables e :=
  isOk_forM_iff (fun e he => isOk_installOne_iff graph (hins e he))
    (fun e he _ _ h e' _ => installReadable_installOne graph (hins e he) h e') tables

/-- The flows after all installs. -/
theorem flowsOf_installs (graph : Graph) {ins : List Json}
    (hins : ∀ e ∈ ins, (entryDpid e).isOk = true) {tables tables' : List SwitchTable}
    (h : ins.forM (installOne graph) tables = .ok () tables') (d : UInt64) :
    flowsOf graph tables' d =
      (flowsOf graph tables d).map (Option.map (addFlows (installedFlows ins d))) := by
  refine forM_ok_rel (R := fun l s s' => (∀ e ∈ l, (entryDpid e).isOk = true) →
    flowsOf graph s' d = (flowsOf graph s d).map (Option.map (addFlows (installedFlows l d))))
    (fun s _ => (map_addFlows_nil _).symm) ?_ h hins
  intro e es s s₁ s' he hes hdpids
  rw [hes fun e' he' => hdpids e' (List.mem_cons_of_mem e he'),
    flowsOf_installOne graph (hdpids e List.mem_cons_self) he, installedFlows_cons e es]
  rcases flowsOf graph s d with err | _ | v
  · rfl
  · rfl
  · simp only [Except.map, Option.map_some, addFlows_addFlows]

/-! ## Modifies -/

/-- The key of a flow, if it can be read. -/
def keyOf (f : Json) : Option (Int × Int × FlowKey) := (extractKey f).toOption

theorem keyReadable_iff (f : Json) : KeyReadable f ↔ (keyOf f).isSome = true := by
  rw [← isOk_extractKey_iff, keyOf]
  cases extractKey f <;> simp [Except.isOk, Except.toBool, Except.toOption]

/-- The flows that `modifyOne` reads for an entry: those up to the first one with its key. -/
def ReadableUntil (e : Json) : List Json → Prop
  | [] => True
  | f :: fs => KeyReadable f ∧ (extractKey f = extractKey e ∨ ReadableUntil e fs)

/-- The parts of a key that could be read. -/
theorem extractKey_eq_ok {e : Json} {key : Int × Int × FlowKey} (h : extractKey e = .ok key) :
    e.valueInt "table_id" 0 = .ok key.1 ∧ e.valueInt "priority" 0 = .ok key.2.1 ∧
      matchKey ((e.field? "match").getD (.obj [])) = .ok key.2.2 := by
  obtain ⟨tableId, htable, h⟩ := bind_eq_ok h
  obtain ⟨priority, hprio, h⟩ := bind_eq_ok h
  obtain ⟨fk, hfk, h⟩ := bind_eq_ok h
  obtain rfl := Except.ok.inj h
  exact ⟨liftJson_eq_ok.mp htable, liftJson_eq_ok.mp hprio, hfk⟩

theorem extractKey_of_parts {e : Json} {key : Int × Int × FlowKey}
    (htable : e.valueInt "table_id" 0 = .ok key.1) (hprio : e.valueInt "priority" 0 = .ok key.2.1)
    (hmatch : matchKey ((e.field? "match").getD (.obj [])) = .ok key.2.2) :
    extractKey e = .ok key := by
  rw [extractKey, htable, hprio]
  simp only [liftJson, ok_bind, hmatch]
  rfl

theorem exists_obj {j : Json} (h : j.isObject = true) : ∃ fields, j = .obj fields := by
  cases j with
  | obj fields => exact ⟨fields, rfl⟩
  | _ => exact nomatch h

/-- An `int` field with its fallback comes from some value that was read as an `int`. -/
theorem getInt_of_valueInt {j : Json} {key : String} {i : Int} (h : j.valueInt key 0 = .ok i) :
    (Json.int i).getInt = .ok i := by
  obtain ⟨fields, rfl⟩ := exists_obj (Json.isObject_of_valueOr_ok h)
  cases hfield : (Json.obj fields).field? key with
  | none =>
    rw [Json.valueInt, Json.valueOr_obj_of_none hfield] at h
    obtain rfl := Except.ok.inj h
    decide
  | some v =>
    rw [Json.valueInt, Json.valueOr_of_field hfield] at h
    exact Json.getInt_int h

/-- A modify keeps the key of the flow that it changes. -/
theorem extractKey_updatedFlow {e f : Json} {key : Int × Int × FlowKey}
    (he : extractKey e = .ok key) (hf : extractKey f = .ok key) :
    ∃ f', updatedFlow e f = .ok f' ∧ extractKey f' = .ok key := by
  obtain ⟨hetable, heprio, hematch⟩ := extractKey_eq_ok he
  obtain ⟨hftable, _, _⟩ := extractKey_eq_ok hf
  obtain ⟨efields, rfl⟩ := exists_obj (Json.isObject_of_valueOr_ok hetable)
  obtain ⟨ffields, rfl⟩ := exists_obj (Json.isObject_of_valueOr_ok hftable)
  refine ⟨.obj (Json.insertField "actions" (((Json.obj efields).field? "actions").getD (.arr []))
    (Json.insertField "match" (((Json.obj efields).field? "match").getD (.obj []))
      (Json.insertField "priority" (.int key.2.1) ffields))), ?_, ?_⟩
  · rw [updatedFlow, heprio]
    simp only [ok_bind, Json.valueJson_obj, Json.assign]
  · apply extractKey_of_parts
    · rw [← hftable]
      exact Json.valueOr_obj_congr (by simp) 0
    · rw [Json.valueInt, Json.valueOr_of_field (v := .int key.2.1) (by simp)]
      exact getInt_of_valueInt heprio
    · simpa using hematch

theorem keyOf_eq_some {f : Json} {key : Int × Int × FlowKey} :
    keyOf f = some key ↔ extractKey f = .ok key := by
  rw [keyOf]
  cases extractKey f <;> simp [Except.toOption]

/-- The loop of `modifyOne` returns when it can read what it reads, and keeps all keys. -/
theorem modifyFirst_spec {e : Json} {key : Int × Int × FlowKey} (he : extractKey e = .ok key)
    (fs : List Json) :
    (ReadableUntil e fs ∧ ∃ fs', modifyFirst key e fs = .ok fs' ∧ fs'.map keyOf = fs.map keyOf) ∨
    (¬ReadableUntil e fs ∧ (modifyFirst key e fs).isOk = false) := by
  induction fs with
  | nil => exact .inl ⟨trivial, [], rfl, rfl⟩
  | cons f fs ih =>
    cases hf : extractKey f with
    | error err =>
      right
      have hnot : ¬KeyReadable f := by
        rw [← isOk_extractKey_iff, hf]
        exact nofun
      refine ⟨fun h => hnot h.1, ?_⟩
      rw [modifyFirst, hf]
      rfl
    | ok fKey =>
      have hread : KeyReadable f := by
        rw [← isOk_extractKey_iff, hf]
        rfl
      by_cases hkey : fKey = key
      · -- the first flow with the key: the loop ends here
        subst hkey
        left
        obtain ⟨f', hupdated, hf'⟩ := extractKey_updatedFlow he hf
        refine ⟨⟨hread, .inl (hf.trans he.symm)⟩, f' :: fs, ?_, ?_⟩
        · rw [modifyFirst, hf, ok_bind, if_pos rfl, hupdated]
          rfl
        · rw [List.map_cons, List.map_cons, keyOf_eq_some.mpr hf, keyOf_eq_some.mpr hf']
      · have hne : extractKey f ≠ extractKey e := by
          rw [hf, he]
          exact fun h => hkey (Except.ok.inj h)
        have hloop : modifyFirst key e (f :: fs) = (modifyFirst key e fs).map (f :: ·) := by
          rw [modifyFirst, hf, ok_bind, if_neg hkey]
          cases modifyFirst key e fs <;> rfl
        rcases ih with ⟨hfs, fs', hok, hkeys⟩ | ⟨hfs, herr⟩
        · left
          refine ⟨⟨hread, .inr hfs⟩, f :: fs', ?_, ?_⟩
          · rw [hloop, hok]
            rfl
          · rw [List.map_cons, List.map_cons, hkeys]
        · right
          refine ⟨fun h => hfs (h.2.resolve_left hne), ?_⟩
          rw [hloop]
          cases hfirst : modifyFirst key e fs with
          | error err => rfl
          | ok fs' =>
            rw [hfirst] at herr
            exact nomatch herr

/-- The same flows as far as keys go. -/
def SameKeys : Except Json.Error (Option Json) → Except Json.Error (Option Json) → Prop
  | .error _, .error _ => True
  | .ok none, .ok none => True
  | .ok (some v), .ok (some w) =>
    (v = .null ↔ w = .null) ∧ v.iterate.map keyOf = w.iterate.map keyOf
  | _, _ => False

theorem SameKeys.refl (found : Except Json.Error (Option Json)) : SameKeys found found := by
  rcases found with _ | _ | v
  · trivial
  · trivial
  · exact ⟨Iff.rfl, rfl⟩

theorem SameKeys.trans {a b c : Except Json.Error (Option Json)} (hab : SameKeys a b)
    (hbc : SameKeys b c) : SameKeys a c := by
  rcases a with _ | _ | v <;> rcases b with _ | _ | w <;> rcases c with _ | _ | x <;>
    try exact hab.elim
  all_goals first
    | trivial
    | exact hbc.elim
    | exact ⟨hab.1.trans hbc.1, hab.2.trans hbc.2⟩

/-- A property of the flows of which only the keys matter. -/
theorem onFlows_of_sameKeys {P : Json → Prop} {found found' : Except Json.Error (Option Json)}
    (hP : ∀ v w, (v = .null ↔ w = .null) → v.iterate.map keyOf = w.iterate.map keyOf →
      (P v ↔ P w))
    (h : SameKeys found found') : OnFlows P found ↔ OnFlows P found' := by
  rcases found with _ | _ | v <;> rcases found' with _ | _ | w
  all_goals first
    | exact h.elim
    | exact Iff.rfl
    | exact hP v w h.1 h.2

theorem extractKey_eq_iff_keyOf {e f : Json} (hf : KeyReadable f) :
    extractKey f = extractKey e ↔ keyOf f = keyOf e := by
  obtain ⟨key, hkey⟩ := exists_of_isOk ((isOk_extractKey_iff f).mpr hf)
  rw [hkey, keyOf_eq_some.mpr hkey, eq_comm, eq_comm (a := some key), keyOf_eq_some]

theorem readableUntil_congr (e : Json) {fs gs : List Json} (h : fs.map keyOf = gs.map keyOf) :
    ReadableUntil e fs ↔ ReadableUntil e gs := by
  induction fs generalizing gs with
  | nil =>
    obtain rfl := List.map_eq_nil_iff.mp h.symm
    exact Iff.rfl
  | cons f fs ih =>
    cases gs with
    | nil => exact nomatch h
    | cons g gs =>
      obtain ⟨hfg, hrest⟩ := List.cons.inj h
      have hread : KeyReadable f ↔ KeyReadable g := by rw [keyReadable_iff, keyReadable_iff, hfg]
      simp only [ReadableUntil, ih hrest]
      constructor
      · intro ⟨hf, hor⟩
        rw [extractKey_eq_iff_keyOf hf, hfg, ← extractKey_eq_iff_keyOf (hread.mp hf)] at hor
        exact ⟨hread.mp hf, hor⟩
      · intro ⟨hg, hor⟩
        rw [extractKey_eq_iff_keyOf hg, ← hfg, ← extractKey_eq_iff_keyOf (hread.mpr hg)] at hor
        exact ⟨hread.mpr hg, hor⟩

/-- A value that is neither null, array nor object holds no readable flow. -/
theorem not_readable_scalar {v : Json} (hnull : v ≠ .null) (hobj : v.isObject = false)
    (harr : v.isArray = false) : v.iterate = [v] ∧ ¬KeyReadable v := by
  have hnot : ¬KeyReadable v := by
    intro h
    rw [h.object] at hobj
    exact nomatch hobj
  refine ⟨?_, hnot⟩
  cases v with
  | null => exact absurd rfl hnull
  | arr elems => exact nomatch harr
  | obj fields => exact nomatch hobj
  | _ => rfl

theorem isOk_modifyEffect_iff {e : Json} {key : Int × Int × FlowKey} (he : extractKey e = .ok key)
    (v : Json) : (modifyEffect key e v).isOk = true ↔ ReadableUntil e v.iterate := by
  rw [modifyEffect, isOk_bind_of_forall fun _ => iff_true_intro rfl, and_true]
  rcases modifyFirst_spec he v.iterate with ⟨hread, fs', hok, _⟩ | ⟨hread, herr⟩
  · exact iff_of_true (isOk_of_exists ⟨fs', hok⟩) hread
  · exact iff_of_false (by simp [herr]) hread

/-- Flows in which some values were replaced by others with the same keys. -/
theorem sameKeys_withElems {e v : Json} {fs : List Json} (hread : ReadableUntil e v.iterate)
    (hkeys : fs.map keyOf = v.iterate.map keyOf) :
    SameKeys (.ok (some v)) (.ok (some (v.withElems fs))) := by
  have hlen : fs.length = v.iterate.length := by simpa using congrArg List.length hkeys
  have hiterate : v ≠ .null → (v.withElems fs).iterate = fs := by
    intro hnull
    apply Json.iterate_withElems (Nat.le_of_eq hlen)
    by_contra hneither
    have hboth : v.isObject = false ∧ v.isArray = false := by simpa using hneither
    obtain ⟨hself, hnot⟩ := not_readable_scalar hnull hboth.1 hboth.2
    rw [hself] at hread
    exact hnot hread.1
  by_cases hnull : v = .null
  · subst hnull
    exact ⟨Iff.rfl, rfl⟩
  · refine ⟨iff_of_false hnull ?_, ?_⟩
    · cases v <;> simp_all [Json.withElems]
    · rw [hiterate hnull, hkeys]

/-- A modify can be made. -/
def ModifyReadable (graph : Graph) (tables : List SwitchTable) (e : Json) : Prop :=
  KeyReadable e ∧ OnFlows (fun v => ReadableUntil e v.iterate) (flowsOf graph tables (dpidOf e))

theorem isOk_modifyOne_iff (graph : Graph) {e : Json} (hdpid : (entryDpid e).isOk = true)
    (tables : List SwitchTable) :
    isOk (modifyOne graph e tables) = true ↔ ModifyReadable graph tables e := by
  rw [ModifyReadable, ← isOk_extractKey_iff]
  cases hkey : extractKey e with
  | error err =>
    rw [modifyOne, isOk_keyed_of_error hkey]
    exact iff_of_false Bool.false_ne_true fun h => nomatch h.1
  | ok key =>
    rw [(applies_modifyOne graph hdpid hkey).isOk_iff, onFlows_congr (isOk_modifyEffect_iff hkey)]
    exact (and_iff_right rfl).symm

/-- A modify that returned keeps the keys of every switch. -/
theorem sameKeys_modifyOne (graph : Graph) {e : Json} (hdpid : (entryDpid e).isOk = true)
    {tables tables' : List SwitchTable} (h : modifyOne graph e tables = .ok () tables')
    (d : UInt64) : SameKeys (flowsOf graph tables d) (flowsOf graph tables' d) := by
  have hok : isOk (modifyOne graph e tables) = true := by rw [h]; rfl
  obtain ⟨hread, hflows⟩ := (isOk_modifyOne_iff graph hdpid tables).mp hok
  obtain ⟨key, hkey⟩ := exists_of_isOk ((isOk_extractKey_iff e).mpr hread)
  rw [(applies_modifyOne graph hdpid hkey).flowsOf_eq h d]
  split
  · rename_i hd
    subst hd
    rcases hfound : flowsOf graph tables (dpidOf e) with err | _ | v
    · trivial
    · trivial
    · rw [hfound] at hflows
      rcases modifyFirst_spec hkey v.iterate with ⟨_, fs, hfirst, hkeys⟩ | ⟨hnot, _⟩
      · have heffect : modifyEffect key e v = .ok (v.withElems fs) := by
          rw [modifyEffect, hfirst]
          rfl
        simp only [changeFlows, heffect, Except.toOption, Option.getD_some]
        exact sameKeys_withElems hflows hkeys
      · exact absurd hflows hnot
  · exact .refl _

theorem modifyReadable_congr (graph : Graph) {tables tables' : List SwitchTable} {e : Json}
    (h : SameKeys (flowsOf graph tables (dpidOf e)) (flowsOf graph tables' (dpidOf e))) :
    ModifyReadable graph tables' e ↔ ModifyReadable graph tables e :=
  and_congr_right' (onFlows_of_sameKeys (fun _ _ _ hkeys => readableUntil_congr e hkeys) h).symm

theorem isOk_modifies_iff (graph : Graph) {mods : List Json}
    (hmods : ∀ e ∈ mods, (entryDpid e).isOk = true) (tables : List SwitchTable) :
    isOk (mods.forM (modifyOne graph) tables) = true ↔
      ∀ e ∈ mods, ModifyReadable graph tables e :=
  isOk_forM_iff (fun e he => isOk_modifyOne_iff graph (hmods e he))
    (fun e he _ _ h _ _ => modifyReadable_congr graph (sameKeys_modifyOne graph (hmods e he) h _))
    tables

theorem sameKeys_modifies (graph : Graph) {mods : List Json}
    (hmods : ∀ e ∈ mods, (entryDpid e).isOk = true) {tables tables' : List SwitchTable}
    (h : mods.forM (modifyOne graph) tables = .ok () tables') (d : UInt64) :
    SameKeys (flowsOf graph tables d) (flowsOf graph tables' d) := by
  refine forM_ok_rel (R := fun l s s' => (∀ e ∈ l, (entryDpid e).isOk = true) →
    SameKeys (flowsOf graph s d) (flowsOf graph s' d)) (fun s _ => .refl _) ?_ h hmods
  intro e es s s₁ s' he hes hdpids
  exact (sameKeys_modifyOne graph (hdpids e List.mem_cons_self) he d).trans
    (hes fun e' he' => hdpids e' (List.mem_cons_of_mem e he'))

/-! ## Deletes -/

/-- Flows of which a delete can read all. -/
def AllReadable (v : Json) : Prop := v ≠ .null ∧ ∀ f ∈ v.iterate, KeyReadable f

theorem isOk_hasKey_iff (key : Int × Int × FlowKey) (f : Json) :
    (hasKey key f).isOk = true ↔ KeyReadable f := by
  rw [hasKey, isOk_bind_of_forall fun _ => iff_true_intro rfl, and_true, isOk_extractKey_iff]

/-- A delete returns when it can read all flows, and leaves some of them. -/
theorem deleteEffect_spec (key : Int × Int × FlowKey) (v : Json) :
    (AllReadable v ∧ ∃ w, deleteEffect key v = .ok w ∧ AllReadable w) ∨
    (¬AllReadable v ∧ (deleteEffect key v).isOk = false) := by
  by_cases hall : ∀ f ∈ v.iterate, KeyReadable f
  · by_cases hnull : v = .null
    · right
      subst hnull
      exact ⟨fun h => h.1 rfl, rfl⟩
    · left
      have hremove := InPlace.removeIf_eq_ok .null [] []
        fun f hf => (isOk_hasKey_iff key f).mpr (hall f hf)
      rw [List.nil_append] at hremove
      -- a scalar would be its own only entry, and no scalar has a readable key
      have hkind : v.isObject = true ∨ v.isArray = true := by
        by_contra hneither
        have hboth : v.isObject = false ∧ v.isArray = false := by simpa using hneither
        obtain ⟨hself, hnot⟩ := not_readable_scalar hnull hboth.1 hboth.2
        exact hnot (hall v (by rw [hself]; exact List.mem_singleton_self v))
      have hleft := Json.iterate_withElems (List.length_filter_le (InPlace.fails (hasKey key)) _) hkind
      refine ⟨⟨hnull, hall⟩, v.withElems (v.iterate.filter (InPlace.fails (hasKey key))), ?_, ?_, ?_⟩
      · rw [deleteEffect, hremove]
        cases v <;> simp_all
      · cases v <;> simp_all [Json.withElems]
      · rw [hleft]
        exact fun f hf => hall f (List.mem_of_mem_filter hf)
  · right
    refine ⟨fun h => hall h.2, ?_⟩
    rw [deleteEffect]
    cases hremove : InPlace.removeIf (hasKey key) .null [] [] v.iterate with
    | error err => rfl
    | ok kept =>
      -- the removal calls the predicate on every entry, so one that throws is met
      have hread := InPlace.forall_isOk_of_removeIf hremove
      exact absurd (fun f hf => (isOk_hasKey_iff key f).mp (hread f hf)) hall

theorem isOk_deleteEffect_iff (key : Int × Int × FlowKey) (v : Json) :
    (deleteEffect key v).isOk = true ↔ AllReadable v := by
  rcases deleteEffect_spec key v with ⟨hread, w, hok, _⟩ | ⟨hread, herr⟩
  · exact iff_of_true (isOk_of_exists ⟨w, hok⟩) hread
  · exact iff_of_false (by simp [herr]) hread

/-- A delete can be made. -/
def DeleteReadable (graph : Graph) (tables : List SwitchTable) (e : Json) : Prop :=
  KeyReadable e ∧ OnFlows AllReadable (flowsOf graph tables (dpidOf e))

theorem isOk_deleteOne_iff (graph : Graph) {e : Json} (hdpid : (entryDpid e).isOk = true)
    (tables : List SwitchTable) :
    isOk (deleteOne graph e tables) = true ↔ DeleteReadable graph tables e := by
  rw [DeleteReadable, ← isOk_extractKey_iff]
  cases hkey : extractKey e with
  | error err =>
    rw [deleteOne, isOk_keyed_of_error hkey]
    exact iff_of_false Bool.false_ne_true fun h => nomatch h.1
  | ok key =>
    rw [(applies_deleteOne graph hdpid hkey).isOk_iff, onFlows_congr (isOk_deleteEffect_iff key)]
    exact (and_iff_right rfl).symm

/-- A delete leaves every other delete as possible as it was. -/
theorem deleteReadable_deleteOne (graph : Graph) {e : Json} (hdpid : (entryDpid e).isOk = true)
    {tables tables' : List SwitchTable} (h : deleteOne graph e tables = .ok () tables')
    (e' : Json) : DeleteReadable graph tables' e' ↔ DeleteReadable graph tables e' := by
  have hok : isOk (deleteOne graph e tables) = true := by rw [h]; rfl
  obtain ⟨hread, hflows⟩ := (isOk_deleteOne_iff graph hdpid tables).mp hok
  obtain ⟨key, hkey⟩ := exists_of_isOk ((isOk_extractKey_iff e).mpr hread)
  apply and_congr_right'
  rw [(applies_deleteOne graph hdpid hkey).flowsOf_eq h]
  split
  · rename_i hd
    rw [hd]
    rcases hfound : flowsOf graph tables (dpidOf e) with err | _ | v
    · exact Iff.rfl
    · exact Iff.rfl
    · rw [hfound] at hflows
      rcases deleteEffect_spec key v with ⟨_, w, hok, hw⟩ | ⟨hnot, _⟩
      · simp only [changeFlows, hok, Except.toOption, Option.getD_some]
        exact iff_of_true hw hflows
      · exact absurd hflows hnot
  · exact Iff.rfl

theorem isOk_deletes_iff (graph : Graph) {dels : List Json}
    (hdels : ∀ e ∈ dels, (entryDpid e).isOk = true) (tables : List SwitchTable) :
    isOk (dels.forM (deleteOne graph) tables) = true ↔
      ∀ e ∈ dels, DeleteReadable graph tables e :=
  isOk_forM_iff (fun e he => isOk_deleteOne_iff graph (hdels e he))
    (fun e he _ _ h e' _ => deleteReadable_deleteOne graph (hdels e he) h e') tables

theorem deleteReadable_congr (graph : Graph) {tables tables' : List SwitchTable} {e : Json}
    (h : SameKeys (flowsOf graph tables (dpidOf e)) (flowsOf graph tables' (dpidOf e))) :
    DeleteReadable graph tables' e ↔ DeleteReadable graph tables e := by
  apply and_congr_right'
  refine (onFlows_of_sameKeys (fun v w hnull hkeys => ?_) h).symm
  have hread : ∀ j : Json, (∀ f ∈ j.iterate, KeyReadable f) ↔
      ∀ k ∈ j.iterate.map keyOf, k.isSome = true := by
    intro j
    simp only [List.forall_mem_map, keyReadable_iff]
  rw [AllReadable, AllReadable, hread, hread, hkeys]
  exact and_congr_left' (not_congr hnull)

/-! ## The whole update -/

/-- What the update of the cached tables has to be able to read, in the tables before it: the
    flows of each switch are followed by those that the batch installs there. -/
structure UpdateReadable (graph : Graph) (tables : List SwitchTable)
    (ins mods dels : List Json) : Prop where
  /-- An install reads the table of its entry, and its switch's flows are null or an array. -/
  install : ∀ e ∈ ins,
    OnFlows (fun v => FlowFieldsReadable e ∧ Appendable v) (flowsOf graph tables (dpidOf e))
  /-- A modify reads the key of its entry, and those of the flows up to the one it changes. -/
  modify : ∀ e ∈ mods, KeyReadable e ∧
    OnFlows (fun v => ReadableUntil e (v.iterate ++ installedFlows ins (dpidOf e)))
      (flowsOf graph tables (dpidOf e))
  /-- A delete reads the key of its entry and those of all flows, and there is a table. -/
  delete : ∀ e ∈ dels, KeyReadable e ∧
    OnFlows (fun v => (v = .null → installedFlows ins (dpidOf e) ≠ []) ∧
        ∀ f ∈ v.iterate ++ installedFlows ins (dpidOf e), KeyReadable f)
      (flowsOf graph tables (dpidOf e))

theorem iterate_addFlows (flows : List Json) (v : Json) :
    (addFlows flows v).iterate = v.iterate ++ flows := by
  rw [addFlows]
  split
  · rename_i hnil
    rw [hnil, List.append_nil]
  · rfl

theorem addFlows_ne_null_iff (flows : List Json) (v : Json) :
    addFlows flows v ≠ .null ↔ (v = .null → flows ≠ []) := by
  rw [addFlows]
  split
  · rename_i hnil
    simp [hnil]
  · rename_i hne
    exact iff_of_true (fun h => nomatch h) fun _ => hne

theorem onFlows_map (P : Json → Prop) (g : Json → Json)
    (found : Except Json.Error (Option Json)) :
    OnFlows P (found.map (Option.map g)) ↔ OnFlows (fun v => P (g v)) found := by
  rcases found with _ | _ | v <;> exact Iff.rfl

/-- The update returns exactly when it can read what it has to. -/
theorem isOk_updateOpenFlowTables_iff (graph : Graph) {j : Json} {ins mods dels : List Json}
    (hins : batchField j "install_flow_entries" = .ok (.arr ins))
    (hmods : batchField j "modify_flow_entries" = .ok (.arr mods))
    (hdels : batchField j "delete_flow_entries" = .ok (.arr dels))
    (hdpid : ∀ e ∈ ins ++ mods ++ dels, (entryDpid e).isOk = true) (tables : List SwitchTable) :
    isOk (updateOpenFlowTables graph j tables) = true ↔
      UpdateReadable graph tables ins mods dels := by
  have hdpidIns : ∀ e ∈ ins, (entryDpid e).isOk = true := fun e he => hdpid e (by simp [he])
  have hdpidMods : ∀ e ∈ mods, (entryDpid e).isOk = true := fun e he => hdpid e (by simp [he])
  have hdpidDels : ∀ e ∈ dels, (entryDpid e).isOk = true := fun e he => hdpid e (by simp [he])
  rw [updateOpenFlowTables, hins, hmods, hdels, liftJson, liftJson, liftJson, ofExcept_bind rfl,
    ofExcept_bind rfl, ofExcept_bind rfl, isOk_seq_iff]
  simp only [Json.iterate]
  -- the conditions of the later phases, read in the tables before the update
  have hmodify : ∀ {tables₁}, ins.forM (installOne graph) tables = .ok () tables₁ → ∀ e,
      ModifyReadable graph tables₁ e ↔ KeyReadable e ∧
        OnFlows (fun v => ReadableUntil e (v.iterate ++ installedFlows ins (dpidOf e)))
          (flowsOf graph tables (dpidOf e)) := by
    intro tables₁ h e
    rw [ModifyReadable, flowsOf_installs graph hdpidIns h, onFlows_map]
    simp only [iterate_addFlows]
  have hdelete : ∀ {tables₁}, ins.forM (installOne graph) tables = .ok () tables₁ → ∀ e,
      DeleteReadable graph tables₁ e ↔ KeyReadable e ∧
        OnFlows (fun v => (v = .null → installedFlows ins (dpidOf e) ≠ []) ∧
            ∀ f ∈ v.iterate ++ installedFlows ins (dpidOf e), KeyReadable f)
          (flowsOf graph tables (dpidOf e)) := by
    intro tables₁ h e
    rw [DeleteReadable, flowsOf_installs graph hdpidIns h, onFlows_map]
    simp only [AllReadable, iterate_addFlows, addFlows_ne_null_iff]
  constructor
  · rintro ⟨tables₁, h₁, hrest⟩
    rw [isOk_seq_iff] at hrest
    obtain ⟨tables₂, h₂, h₃⟩ := hrest
    have hok₁ : isOk (ins.forM (installOne graph) tables) = true := by rw [h₁]; rfl
    have hok₂ : isOk (mods.forM (modifyOne graph) tables₁) = true := by rw [h₂]; rfl
    rw [isOk_installs_iff graph hdpidIns] at hok₁
    rw [isOk_modifies_iff graph hdpidMods] at hok₂
    rw [isOk_deletes_iff graph hdpidDels] at h₃
    refine ⟨hok₁, fun e he => (hmodify h₁ e).mp (hok₂ e he), fun e he => ?_⟩
    exact (hdelete h₁ e).mp
      ((deleteReadable_congr graph (sameKeys_modifies graph hdpidMods h₂ _)).mp (h₃ e he))
  · intro h
    have h₁ := eq_ok_of_isOk ((isOk_installs_iff graph hdpidIns tables).mpr h.install)
    refine ⟨_, h₁, ?_⟩
    have h₂ := eq_ok_of_isOk ((isOk_modifies_iff graph hdpidMods _).mpr fun e he =>
      (hmodify h₁ e).mpr (h.modify e he))
    rw [isOk_seq_iff]
    refine ⟨_, h₂, (isOk_deletes_iff graph hdpidDels _).mpr fun e he => ?_⟩
    rw [deleteReadable_congr graph (sameKeys_modifies graph hdpidMods h₂ _)]
    exact (hdelete h₁ e).mpr (h.delete e he)

end Ndtwin.Spec.FlowTablesCorrect

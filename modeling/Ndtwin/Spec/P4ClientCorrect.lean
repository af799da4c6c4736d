import Ndtwin.ForStd.EState
import Ndtwin.Proxy.P4Client

/-!
# P4Runtime Client Correctness

What a client call leaves on the switch, whatever the switch answers. A call that raises or
returns `False` leaves the tables as they were; an accepted insert or modify has stored exactly
the entry of the request, and an accepted delete, when the switch says `NOT_FOUND` only of an
entry that is not there, has removed it or found it gone.

## Key results

- `insertIpv4Route_spec`, `modifyIpv4Route_spec`, `deleteIpv4Route_spec`: one call
- `insertIpv4Route_accepts`: an insert that the switch does not refuse
- `keeps_ipv4Lpm_insert5tupleRule` and its siblings: the 5-tuple calls leave the routes
-/

namespace Ndtwin.Proxy

/-! ## Requests -/

/-- The port of an encoded action is the port of the request. -/
theorem portBytes_ok {v : Json} {bs : List UInt8} (h : portBytes v = .ok bs) :
    Python.asInt? v = some (Python.fromBytes bs : Int) := by
  unfold portBytes at h
  split at h
  · next n hn =>
    unfold Python.toBytes at h
    split at h
    · next hrange =>
      cases h
      have hnat : n.toNat < 256 ^ 2 := by omega
      rw [Python.fromBytes_bytesOf hnat, hn, Int.toNat_of_nonneg hrange.1]
    · exact nomatch h
  · exact nomatch h

/-- What the entry of a request says of the request. -/
theorem routeEntry_ok {dstIp : Json} {prefixLen : Nat} {nextHopMac : String} {port : Json}
    {key : LpmKey} {action : Forward}
    (h : routeEntry dstIp prefixLen nextHopMac port = .ok (key, action)) :
    inetAtonValue dstIp = .ok key.value ∧ key.prefixLen = prefixLen ∧
      Python.asInt? port = some (Python.fromBytes action.port : Int) := by
  unfold routeEntry at h
  obtain ⟨value, hvalue, h⟩ := EState.bind_eq_ok h
  obtain ⟨action', haction, h⟩ := EState.bind_eq_ok h
  cases h
  unfold forwardAction at haction
  obtain ⟨mac, -, haction⟩ := EState.bind_eq_ok haction
  obtain ⟨bs, hport, haction⟩ := EState.bind_eq_ok haction
  cases haction
  exact ⟨hvalue, rfl, portBytes_ok hport⟩

/-- An address that encodes is a string. -/
theorem inetAtonValue_ok {v : Json} {bs : List UInt8} (h : inetAtonValue v = .ok bs) :
    ∃ s, v = .str s ∧ inetAton s = .ok bs := by
  cases v with
  | str s => exact ⟨s, rfl, h⟩
  | null => exact nomatch h
  | bool b => exact nomatch h
  | int i => exact nomatch h
  | uint n => exact nomatch h
  | float m e => exact nomatch h
  | arr elems => exact nomatch h
  | obj fields => exact nomatch h

/-! ## One write -/

/-- The table after a write that was carried out. -/
theorem writeTable_ok {κ : Type} [DecidableEq κ] {type : UpdateType} {key : κ} {action : Forward}
    {answer : Option GrpcStatus} {table table' : AssocMap κ Forward}
    (h : writeTable type key action answer table = .ok table') :
    table' = match type with
      | .insert | .modify => table.insert key action
      | .delete => table.erase key := by
  unfold writeTable at h
  cases answer with
  | some status => exact nomatch h
  | none =>
    cases type with
    | insert =>
      simp only at h
      split at h
      · exact nomatch h
      · exact (Except.ok.inj h).symm
    | modify =>
      simp only at h
      split at h
      · exact (Except.ok.inj h).symm
      · exact nomatch h
    | delete =>
      simp only at h
      split at h
      · exact (Except.ok.inj h).symm
      · exact nomatch h

/-- A request of a client, run on a switch. -/
theorem writeIpv4Lpm_apply (type : UpdateType) (key : LpmKey) (action : Forward)
    (answer : Option GrpcStatus) (switch : P4Switch) :
    writeIpv4Lpm type key action answer switch =
      match writeTable type key action answer switch.ipv4Lpm with
      | .ok table => .ok (.ok ()) { switch with ipv4Lpm := table }
      | .error status => .ok (.error status) switch := by
  unfold writeIpv4Lpm
  rw [EState.get_bind]
  cases writeTable type key action answer switch.ipv4Lpm <;> rfl

/-! ## Client calls -/

/-- A call that stores the entry of its request: when it is accepted the entry is in the table,
    and otherwise the switch is as it was. It raises only for a request it cannot encode. -/
def StoresRoute (call : ClientM Bool) (entry : Except Python.Error (LpmKey × Forward)) : Prop :=
  ∀ switch, (∃ e, entry = .error e ∧ call switch = .error e switch) ∨
    call switch = .ok false switch ∨
    ∃ key action, entry = .ok (key, action) ∧
      call switch = .ok true { switch with ipv4Lpm := switch.ipv4Lpm.insert key action }

section Store

variable (dstIp : Json) (prefixLen : Nat) (nextHopMac : String) (port : Json) (answers : Answers)

theorem modifyIpv4Route_spec :
    StoresRoute (modifyIpv4Route dstIp prefixLen nextHopMac port answers)
      (routeEntry dstIp prefixLen nextHopMac port) := by
  intro switch
  unfold modifyIpv4Route
  cases hentry : routeEntry dstIp prefixLen nextHopMac port with
  | error e => exact Or.inl ⟨e, rfl, rfl⟩
  | ok entry =>
    obtain ⟨key, action⟩ := entry
    rw [EState.ofExcept_bind rfl]
    simp only
    cases hwrite : writeTable .modify key action answers.modify switch.ipv4Lpm with
    | error status =>
      rw [EState.bind_of_ok (by rw [writeIpv4Lpm_apply, hwrite])]
      exact Or.inr (Or.inl rfl)
    | ok table =>
      have htable := writeTable_ok hwrite
      simp only at htable
      rw [EState.bind_of_ok (by rw [writeIpv4Lpm_apply, hwrite]), htable]
      exact Or.inr (Or.inr ⟨key, action, rfl, rfl⟩)

theorem insertIpv4Route_spec :
    StoresRoute (insertIpv4Route dstIp prefixLen nextHopMac port answers)
      (routeEntry dstIp prefixLen nextHopMac port) := by
  intro switch
  have hmodify := modifyIpv4Route_spec dstIp prefixLen nextHopMac port answers switch
  unfold insertIpv4Route
  cases hentry : routeEntry dstIp prefixLen nextHopMac port with
  | error e => exact Or.inl ⟨e, rfl, rfl⟩
  | ok entry =>
    obtain ⟨key, action⟩ := entry
    rw [hentry] at hmodify
    rw [EState.ofExcept_bind rfl]
    simp only
    cases hwrite : writeTable .insert key action answers.insert switch.ipv4Lpm with
    | error status =>
      rw [EState.bind_of_ok (by rw [writeIpv4Lpm_apply, hwrite])]
      simp only
      split
      · exact hmodify
      · exact Or.inr (Or.inl rfl)
    | ok table =>
      have htable := writeTable_ok hwrite
      simp only at htable
      rw [EState.bind_of_ok (by rw [writeIpv4Lpm_apply, hwrite]), htable]
      exact Or.inr (Or.inr ⟨key, action, rfl, rfl⟩)

/-- An insert of an entry that is not there, and that the switch does not refuse. -/
theorem insertIpv4Route_accepts {key : LpmKey} {action : Forward}
    (hentry : routeEntry dstIp prefixLen nextHopMac port = .ok (key, action))
    (hanswer : answers.insert = none) {switch : P4Switch} (habsent : key ∉ switch.ipv4Lpm) :
    insertIpv4Route dstIp prefixLen nextHopMac port answers switch =
      .ok true { switch with ipv4Lpm := switch.ipv4Lpm.insert key action } := by
  have hwrite : writeTable .insert key action answers.insert switch.ipv4Lpm =
      .ok (switch.ipv4Lpm.insert key action) := by
    unfold writeTable
    rw [hanswer]
    simp only
    rw [if_neg habsent]
  unfold insertIpv4Route
  rw [EState.ofExcept_bind hentry]
  simp only
  rw [EState.bind_of_ok (by rw [writeIpv4Lpm_apply, hwrite])]
  rfl

/-- An insert that returns `False` and that the switch did not refuse is of an entry that is
    there. -/
theorem insertIpv4Route_false {switch switch' : P4Switch}
    (h : insertIpv4Route dstIp prefixLen nextHopMac port answers switch = .ok false switch') :
    ∃ key action, routeEntry dstIp prefixLen nextHopMac port = .ok (key, action) ∧
      (answers.insert = none → key ∈ switch.ipv4Lpm) := by
  cases hentry : routeEntry dstIp prefixLen nextHopMac port with
  | error e =>
    unfold insertIpv4Route at h
    rw [hentry] at h
    exact nomatch h
  | ok entry =>
    obtain ⟨key, action⟩ := entry
    refine ⟨key, action, rfl, ?_⟩
    intro hanswer
    by_contra habsent
    rw [insertIpv4Route_accepts dstIp prefixLen nextHopMac port answers hentry hanswer habsent] at h
    exact nomatch h

end Store

/-- What bmv2 strips from a byte string. -/
theorem exists_replicate_canonical (bs : List UInt8) :
    ∃ n, bs = List.replicate n 0 ++ canonical bs := by
  induction bs with
  | nil => exact ⟨0, rfl⟩
  | cons b bs ih =>
    obtain ⟨n, hn⟩ := ih
    cases bs with
    | nil =>
      refine ⟨0, ?_⟩
      unfold canonical
      split
      · next heq => exact nomatch heq
      · rfl
    | cons c cs =>
      by_cases hb : b = 0
      · subst hb
        refine ⟨n + 1, ?_⟩
        rw [List.replicate_succ, List.cons_append]
        show 0 :: c :: cs = 0 :: (List.replicate n 0 ++ canonical (c :: cs))
        rw [← hn]
      · refine ⟨0, ?_⟩
        unfold canonical
        split
        · next heq => exact absurd (List.cons.inj heq).1 hb
        · rfl

/-- A byte string as bmv2 returns it, padded to its width again. -/
theorem rjust_canonical {width : Nat} {bs : List UInt8} (h : bs.length = width) :
    Python.rjust width (canonical bs) = bs := by
  obtain ⟨n, hn⟩ := exists_replicate_canonical bs
  have hlength := congrArg List.length hn
  rw [List.length_append, List.length_replicate] at hlength
  have hpad : width - (canonical bs).length = n := by omega
  rw [Python.rjust, hpad, ← hn]

/-- The read-back finds an entry that is there. -/
theorem ipv4RoutePresent_of_mem {value : List UInt8} (hlength : value.length = 4) {prefixLen : Nat}
    {switch : P4Switch} (hmem : (⟨value, prefixLen⟩ : LpmKey) ∈ switch.ipv4Lpm) :
    ipv4RoutePresent value prefixLen switch = true := by
  unfold ipv4RoutePresent
  rw [List.any_eq_true]
  refine ⟨⟨value, prefixLen⟩, AList.mem_keys.mp hmem, ?_⟩
  rw [decide_eq_true_eq]
  exact ⟨rfl, rjust_canonical hlength⟩

theorem inetAton_length {s : String} {bs : List UInt8} (h : inetAton s = .ok bs) :
    bs.length = 4 := by
  unfold inetAton at h
  split at h
  · next bytes hbytes =>
    cases h
    unfold inetAtonOrThrow at hbytes
    split at hbytes
    · exact nomatch hbytes
    split at hbytes
    · next hparse =>
      cases hbytes
      exact CText.inetAton_length hparse
    · exact nomatch hbytes
  · exact nomatch h
  · exact nomatch h

/-- A refusal with `NOT_FOUND` is about an entry that is not there. -/
def TruthfulDelete (answers : Answers) (key : LpmKey) (switch : P4Switch) : Prop :=
  answers.delete = some .notFound → key ∉ switch.ipv4Lpm

/-- A delete that is accepted leaves no entry for its key and every other one as it was. -/
theorem deleteIpv4Route_spec (dstIp : Json) (prefixLen : Nat) (answers : Answers)
    (switch : P4Switch)
    (htruthful : ∀ value, inetAtonValue dstIp = .ok value →
      TruthfulDelete answers ⟨value, prefixLen⟩ switch) :
    (∃ e, deleteIpv4Route dstIp prefixLen answers switch = .error e switch) ∨
    deleteIpv4Route dstIp prefixLen answers switch = .ok false switch ∨
    ∃ value table, inetAtonValue dstIp = .ok value ∧
      deleteIpv4Route dstIp prefixLen answers switch =
        .ok true { switch with ipv4Lpm := table } ∧
      ∀ key, table.lookup key =
        if key = ⟨value, prefixLen⟩ then none else switch.ipv4Lpm.lookup key := by
  unfold deleteIpv4Route
  cases hvalue : inetAtonValue dstIp with
  | error e => exact Or.inl ⟨e, rfl⟩
  | ok value =>
    have hlength : value.length = 4 := by
      obtain ⟨s, -, hs⟩ := inetAtonValue_ok hvalue
      exact inetAton_length hs
    -- an entry that is not there is gone already
    have hgone : (⟨value, prefixLen⟩ : LpmKey) ∉ switch.ipv4Lpm → ∀ key,
        switch.ipv4Lpm.lookup key =
          if key = ⟨value, prefixLen⟩ then none else switch.ipv4Lpm.lookup key := by
      intro habsent key
      split
      · next heq => rw [heq, AList.lookup_eq_none.mpr habsent]
      · rfl
    rw [EState.ofExcept_bind rfl]
    cases hwrite : writeTable .delete ⟨value, prefixLen⟩ { dstAddr := [], port := [] }
        answers.delete switch.ipv4Lpm with
    | ok table =>
      have htable := writeTable_ok hwrite
      simp only at htable
      rw [EState.bind_of_ok (by rw [writeIpv4Lpm_apply, hwrite])]
      refine Or.inr (Or.inr ⟨value, table, rfl, rfl, fun key => ?_⟩)
      rw [htable, AssocMap.lookup_erase_eq]
    | error status =>
      rw [EState.bind_of_ok (by rw [writeIpv4Lpm_apply, hwrite])]
      cases status with
      | notFound =>
        -- a switch does not say this of its own accord about an entry that is not there
        have habsent : (⟨value, prefixLen⟩ : LpmKey) ∉ switch.ipv4Lpm := by
          refine htruthful value hvalue ?_
          unfold writeTable at hwrite
          cases hanswer : answers.delete with
          | some status =>
            rw [hanswer] at hwrite
            exact congrArg some (Except.error.inj hwrite)
          | none =>
            rw [hanswer] at hwrite
            simp only at hwrite
            split at hwrite
            · exact nomatch hwrite
            · exact nomatch hwrite
        exact Or.inr (Or.inr ⟨value, switch.ipv4Lpm, rfl, rfl, hgone habsent⟩)
      | unknown =>
        cases answers.read with
        | some status => exact Or.inr (Or.inl rfl)
        | none =>
          by_cases hpresent : ipv4RoutePresent value prefixLen switch = true
          · exact Or.inr (Or.inl (congrArg (fun b => EStateM.Result.ok (!b) switch) hpresent))
          · have habsent : (⟨value, prefixLen⟩ : LpmKey) ∉ switch.ipv4Lpm :=
              fun hmem => hpresent (ipv4RoutePresent_of_mem hlength hmem)
            exact Or.inr (Or.inr ⟨value, switch.ipv4Lpm, rfl,
              congrArg (fun b => EStateM.Result.ok (!b) switch) (Bool.eq_false_iff.mpr hpresent),
              hgone habsent⟩)
      | _ => exact Or.inr (Or.inl rfl)

/-! ## The 5-tuple table -/

theorem keeps_ipv4Lpm_writeFlow5tuple (type : UpdateType) (key : FiveTupleKey) (action : Forward)
    (answer : Option GrpcStatus) :
    EState.Keeps P4Switch.ipv4Lpm (writeFlow5tuple type key action answer) := by
  intro switch
  unfold writeFlow5tuple EState.finalState
  rw [EState.get_bind]
  cases writeTable type key action answer switch.flow5tuple <;> rfl

theorem writeFlow5tuple_apply (type : UpdateType) (key : FiveTupleKey) (action : Forward)
    (answer : Option GrpcStatus) (switch : P4Switch) :
    writeFlow5tuple type key action answer switch =
      match writeTable type key action answer switch.flow5tuple with
      | .ok table => .ok (.ok ()) { switch with flow5tuple := table }
      | .error status => .ok (.error status) switch := by
  unfold writeFlow5tuple
  rw [EState.get_bind]
  cases writeTable type key action answer switch.flow5tuple <;> rfl

/-- The `flow_5tuple` entry of a request. -/
def ruleEntry (keys : AssocMap P4Field Json) (priority : Int) (nextHopMac : String)
    (port : Json) : Except Python.Error (FiveTupleKey × Forward) := do
  let key ← build5tupleEntry keys priority
  let action ← forwardAction nextHopMac port
  return (key, action)

/-- As `StoresRoute`, for the 5-tuple table. -/
def StoresRule (call : ClientM Bool) (entry : Except Python.Error (FiveTupleKey × Forward)) :
    Prop :=
  ∀ switch, (∃ e, entry = .error e ∧ call switch = .error e switch) ∨
    call switch = .ok false switch ∨
    ∃ key action, entry = .ok (key, action) ∧
      call switch = .ok true { switch with flow5tuple := switch.flow5tuple.insert key action }

section FiveTuple

variable (keys : AssocMap P4Field Json) (priority : Int) (nextHopMac : String) (port : Json)
  (answers : Answers)

theorem modify5tupleRule_spec :
    StoresRule (modify5tupleRule keys priority nextHopMac port answers)
      (ruleEntry keys priority nextHopMac port) := by
  intro switch
  unfold modify5tupleRule ruleEntry
  cases build5tupleEntry keys priority with
  | error e => exact Or.inl ⟨e, rfl, rfl⟩
  | ok key =>
    cases forwardAction nextHopMac port with
    | error e => exact Or.inl ⟨e, rfl, rfl⟩
    | ok action =>
      rw [EState.ofExcept_bind rfl, EState.ofExcept_bind rfl]
      cases hwrite : writeTable .modify key action answers.modify switch.flow5tuple with
      | error status =>
        rw [EState.bind_of_ok (by rw [writeFlow5tuple_apply, hwrite])]
        exact Or.inr (Or.inl rfl)
      | ok table =>
        have htable := writeTable_ok hwrite
        simp only at htable
        rw [EState.bind_of_ok (by rw [writeFlow5tuple_apply, hwrite]), htable]
        exact Or.inr (Or.inr ⟨key, action, rfl, rfl⟩)

theorem insert5tupleRule_spec :
    StoresRule (insert5tupleRule keys priority nextHopMac port answers)
      (ruleEntry keys priority nextHopMac port) := by
  intro switch
  have hmodify := modify5tupleRule_spec keys priority nextHopMac port answers switch
  unfold ruleEntry at hmodify ⊢
  unfold insert5tupleRule
  cases hkey : build5tupleEntry keys priority with
  | error e => exact Or.inl ⟨e, rfl, rfl⟩
  | ok key =>
    cases haction : forwardAction nextHopMac port with
    | error e => exact Or.inl ⟨e, rfl, rfl⟩
    | ok action =>
      rw [hkey, haction] at hmodify
      rw [EState.ofExcept_bind rfl, EState.ofExcept_bind rfl]
      cases hwrite : writeTable .insert key action answers.insert switch.flow5tuple with
      | error status =>
        rw [EState.bind_of_ok (by rw [writeFlow5tuple_apply, hwrite])]
        simp only
        split
        · exact hmodify
        · exact Or.inr (Or.inl rfl)
      | ok table =>
        have htable := writeTable_ok hwrite
        simp only at htable
        rw [EState.bind_of_ok (by rw [writeFlow5tuple_apply, hwrite]), htable]
        exact Or.inr (Or.inr ⟨key, action, rfl, rfl⟩)

/-- A delete takes an entry of its key away, or leaves the switch as it was. -/
theorem delete5tupleRule_spec (switch : P4Switch) :
    EState.finalState (delete5tupleRule keys priority answers) switch = switch ∨
      ∃ key, EState.finalState (delete5tupleRule keys priority answers) switch =
        { switch with flow5tuple := switch.flow5tuple.erase key } := by
  unfold delete5tupleRule
  cases build5tupleEntry keys priority with
  | error e => exact Or.inl rfl
  | ok key =>
    unfold EState.finalState
    rw [EState.ofExcept_bind rfl]
    cases hwrite : writeTable .delete key { dstAddr := [], port := [] } answers.delete
        switch.flow5tuple with
    | error status =>
      rw [EState.bind_of_ok (by rw [writeFlow5tuple_apply, hwrite])]
      exact Or.inl rfl
    | ok table =>
      have htable := writeTable_ok hwrite
      simp only at htable
      rw [EState.bind_of_ok (by rw [writeFlow5tuple_apply, hwrite]), htable]
      exact Or.inr ⟨key, rfl⟩

theorem keeps_ipv4Lpm_modify5tupleRule :
    EState.Keeps P4Switch.ipv4Lpm (modify5tupleRule keys priority nextHopMac port answers) := by
  unfold modify5tupleRule
  refine EState.keeps_bind (EState.keeps_ofExcept _) fun key => ?_
  refine EState.keeps_bind (EState.keeps_ofExcept _) fun action => ?_
  refine EState.keeps_bind (keeps_ipv4Lpm_writeFlow5tuple _ _ _ _) fun result => ?_
  cases result <;> exact EState.keeps_pure _

theorem keeps_ipv4Lpm_insert5tupleRule :
    EState.Keeps P4Switch.ipv4Lpm (insert5tupleRule keys priority nextHopMac port answers) := by
  unfold insert5tupleRule
  refine EState.keeps_bind (EState.keeps_ofExcept _) fun key => ?_
  refine EState.keeps_bind (EState.keeps_ofExcept _) fun action => ?_
  refine EState.keeps_bind (keeps_ipv4Lpm_writeFlow5tuple _ _ _ _) fun result => ?_
  cases result with
  | ok _ => exact EState.keeps_pure _
  | error status =>
    simp only
    split
    · exact keeps_ipv4Lpm_modify5tupleRule keys priority nextHopMac port answers
    · exact EState.keeps_pure _

theorem keeps_ipv4Lpm_delete5tupleRule :
    EState.Keeps P4Switch.ipv4Lpm (delete5tupleRule keys priority answers) := by
  unfold delete5tupleRule
  refine EState.keeps_bind (EState.keeps_ofExcept _) fun key => ?_
  refine EState.keeps_bind (keeps_ipv4Lpm_writeFlow5tuple _ _ _ _) fun result => ?_
  cases result <;> exact EState.keeps_pure _

end FiveTuple

end Ndtwin.Proxy

import Ndtwin.Proxy.RyuFlowStats
import Ndtwin.Spec.P4ClientCorrect

/-!
# Route Write Correctness

A refused write says little: bmv2 answers `UNKNOWN` to a duplicate insert, to a delete of what is
not there, and to real failures alike. The client resolves it by a second write or by reading the
table back. Whatever is answered, what a call returns is true of the table it leaves.

## Key results

- `routePresentIn_eq`: the read-back, over any reply to the read
- `TruthfulCall.addressKeys`: a truthful call keeps the keys of the table addresses
- `routeCalls_truthful`: the three calls, on every table and for all answers
-/

namespace Ndtwin.Proxy

/-! ## The read-back -/

/-- The loop of `_ipv4_route_present`: default entries and entries of other kinds are skipped. -/
def routePresentIn (want : List UInt8) (prefixLen : Nat) (entries : List TableEntry) : Bool :=
  entries.any fun entry =>
    !entry.isDefault &&
      match getItem entry.matchFields "hdr.ipv4.dstAddr" with
      | some (.lpm value len) => decide (len = prefixLen ∧ Python.rjust 4 value = want)
      | _ => false

/-- `d.get(key)` of a dictionary that is made item by item. -/
theorem getItem_map {α β : Type} (name : α → String) (val : α → β) (as : List α) (key : String) :
    getItem (as.map fun a => (name a, val a)) key = (as.find? fun a => name a = key).map val := by
  unfold getItem
  rw [List.find?_map, Option.map_map]
  rfl

/-- The counters of an entry are not looked at. -/
theorem routePresentIn_counters (want : List UInt8) (prefixLen : Nat) (entries : List TableEntry) :
    routePresentIn want prefixLen (entries.map fun e => { e with counters := none }) =
      routePresentIn want prefixLen entries := by
  unfold routePresentIn
  rw [List.any_map]
  rfl

/-- Nor are default entries. -/
theorem routePresentIn_filter (want : List UInt8) (prefixLen : Nat) (entries : List TableEntry) :
    routePresentIn want prefixLen (entries.filter fun e => !e.isDefault) =
      routePresentIn want prefixLen entries := by
  unfold routePresentIn
  rw [List.any_filter]
  congr 1
  funext entry
  cases entry.isDefault <;> simp

/-- The entries of the 5-tuple table have ternary keys only. -/
theorem routePresentIn_flow5tuple (want : List UInt8) (prefixLen : Nat)
    (entries : List (FiveTupleKey × Forward)) :
    routePresentIn want prefixLen (entries.map fun e => e.1.tableEntry e.2) = false := by
  unfold routePresentIn
  rw [List.any_map, List.any_eq_false]
  intro e _
  simp only [Function.comp, FiveTupleKey.tableEntry]
  rw [getItem_map (fun t : TernaryMatch => t.field.name)
    (fun t => MatchSpec.ternary (canonical t.value) (canonical t.mask))]
  -- whatever is found under the name of the address, it is a ternary match
  cases e.1.keys.find? fun t => t.field.name = "hdr.ipv4.dstAddr" <;> simp

/-- Whatever a switch answers to the read, in whatever order, the loop finds what is in its
    table. -/
theorem routePresentIn_eq {switch : P4Switch} {entries : List TableEntry}
    (hreads : switch.Reads entries) (want : List UInt8) (prefixLen : Nat) :
    routePresentIn want prefixLen entries = ipv4RoutePresent want prefixLen switch := by
  calc routePresentIn want prefixLen entries
      = routePresentIn want prefixLen
          ((entries.filter fun e => !e.isDefault).map fun e => { e with counters := none }) := by
        rw [routePresentIn_counters, routePresentIn_filter]
    _ = routePresentIn want prefixLen switch.tableEntries := List.Perm.any_eq hreads
    _ = routePresentIn want prefixLen (switch.ipv4Lpm.toPairs.map fun e => e.1.tableEntry e.2) := by
        have hother := routePresentIn_flow5tuple want prefixLen switch.flow5tuple.toPairs
        unfold routePresentIn at hother ⊢
        rw [P4Switch.tableEntries, List.any_append, hother, Bool.or_false]
    _ = ipv4RoutePresent want prefixLen switch := by
        unfold routePresentIn ipv4RoutePresent
        rw [AssocMap.keys_eq_map_toPairs, List.any_map, List.any_map]
        rfl

/-! ## What a call leaves -/

/-- The keys of `ipv4_lpm` are addresses: the field has 32 bits. -/
def P4Switch.AddressKeys (switch : P4Switch) : Prop :=
  ∀ key ∈ switch.ipv4Lpm.keys, key.value.length = 4

instance (switch : P4Switch) : Decidable switch.AddressKeys :=
  inferInstanceAs (Decidable (∀ key ∈ switch.ipv4Lpm.keys, key.value.length = 4))

/-- The table maps exactly this destination to the port and the MAC. -/
def P4Switch.Routes (switch : P4Switch) (dstIp : Json) (prefixLen : Nat) (nextHopMac : String)
    (port : Json) : Prop :=
  ∃ value action, inetAtonValue dstIp = .ok value ∧ macBytes nextHopMac = .ok action.dstAddr ∧
    Python.asInt? port = some (Python.fromBytes action.port : Int) ∧
    switch.ipv4Lpm.lookup ⟨value, prefixLen⟩ = some action

/-- The table has no entry for exactly this destination. -/
def P4Switch.Unrouted (switch : P4Switch) (dstIp : Json) (prefixLen : Nat) : Prop :=
  ∃ value, inetAtonValue dstIp = .ok value ∧ switch.ipv4Lpm.lookup ⟨value, prefixLen⟩ = none

/-- The switch is as it was but for the entry of one destination. -/
def P4Switch.SameElsewhere (dstIp : Json) (prefixLen : Nat) (switch switch' : P4Switch) : Prop :=
  switch'.flow5tuple = switch.flow5tuple ∧
    ∀ key : LpmKey, ¬(inetAtonValue dstIp = .ok key.value ∧ key.prefixLen = prefixLen) →
      switch'.ipv4Lpm.lookup key = switch.ipv4Lpm.lookup key

/-- What a call says is true: `True` when its goal holds and nothing else has changed, and a
    switch that is as it was when it returns `False` or raises. -/
def TruthfulCall (dstIp : Json) (prefixLen : Nat) (Goal : P4Switch → Prop) (switch : P4Switch) :
    EStateM.Result Python.Error P4Switch Bool → Prop
  | .ok true switch' => Goal switch' ∧ switch.SameElsewhere dstIp prefixLen switch'
  | .ok false switch' => switch' = switch
  | .error _ switch' => switch' = switch

/-- The state after a call. -/
def resultState : EStateM.Result Python.Error P4Switch Bool → P4Switch
  | .ok _ switch' => switch'
  | .error _ switch' => switch'

/-- The keys stay addresses over any sequence of truthful calls. -/
theorem TruthfulCall.addressKeys {dstIp : Json} {prefixLen : Nat} {Goal : P4Switch → Prop}
    {switch : P4Switch} {r : EStateM.Result Python.Error P4Switch Bool}
    (h : TruthfulCall dstIp prefixLen Goal switch r) (hkeys : switch.AddressKeys) :
    (resultState r).AddressKeys := by
  unfold TruthfulCall at h
  split at h
  · next switch' =>
    intro key hkey
    by_cases hdst : inetAtonValue dstIp = .ok key.value ∧ key.prefixLen = prefixLen
    · -- an address that was encoded
      obtain ⟨s, -, hs⟩ := inetAtonValue_ok hdst.1
      exact inetAton_length hs
    · -- any other key was in the table before
      have hsame := h.2.2 key hdst
      obtain ⟨action, haction⟩ := AssocMap.exists_of_mem (AList.mem_keys.mpr hkey)
      have hold : switch.ipv4Lpm.lookup key = some action := hsame.symm.trans haction
      exact hkeys key (AList.mem_keys.mp (AssocMap.mem_of_lookup hold))
  · rw [resultState, h]
    exact hkeys
  · rw [resultState, h]
    exact hkeys

/-- A switch starts with no entries. -/
theorem P4Switch.addressKeys_pushPipeline (switch : P4Switch) : switch.pushPipeline.AddressKeys :=
  fun _ hkey => nomatch hkey

/-! ## The three calls -/

section Calls

variable (dstIp : Json) (prefixLen : Nat) (nextHopMac : String) (port : Json) (answers : Answers)
  (switch : P4Switch)

/-- The action of a request has the MAC of the request. -/
theorem routeEntry_macBytes {key : LpmKey} {action : Forward}
    (h : routeEntry dstIp prefixLen nextHopMac port = .ok (key, action)) :
    macBytes nextHopMac = .ok action.dstAddr := by
  unfold routeEntry at h
  obtain ⟨value, -, h⟩ := EState.bind_eq_ok h
  obtain ⟨action', haction, h⟩ := EState.bind_eq_ok h
  cases h
  unfold forwardAction at haction
  obtain ⟨mac, hmac, haction⟩ := EState.bind_eq_ok haction
  obtain ⟨bs, -, haction⟩ := EState.bind_eq_ok haction
  cases haction
  exact hmac

/-- A call that stores the entry of its request is truthful. -/
theorem StoresRoute.truthful {call : ClientM Bool}
    (h : StoresRoute call (routeEntry dstIp prefixLen nextHopMac port)) :
    TruthfulCall dstIp prefixLen (·.Routes dstIp prefixLen nextHopMac port) switch
      (call switch) := by
  -- raised, returned `False`, or stored the entry
  obtain ⟨e, -, hcall⟩ | hcall | ⟨key, action, hentry, hcall⟩ := h switch
  · rw [hcall]
    rfl
  · rw [hcall]
    rfl
  · rw [hcall]
    obtain ⟨hvalue, hprefix, hport⟩ := routeEntry_ok hentry
    subst hprefix
    have hmac := routeEntry_macBytes dstIp key.prefixLen nextHopMac port hentry
    refine ⟨⟨key.value, action, hvalue, hmac, hport, AList.lookup_insert _⟩, rfl, ?_⟩
    intro key' hne
    have hkey : key' ≠ key := by
      intro heq
      subst heq
      exact hne ⟨hvalue, rfl⟩
    exact AList.lookup_insert_ne hkey

/-- A delete is truthful when `NOT_FOUND` is answered of absent entries only. -/
theorem deleteIpv4Route_truthful
    (htruthful : ∀ value, inetAtonValue dstIp = .ok value →
      TruthfulDelete answers ⟨value, prefixLen⟩ switch) :
    TruthfulCall dstIp prefixLen (·.Unrouted dstIp prefixLen) switch
      (deleteIpv4Route dstIp prefixLen answers switch) := by
  obtain ⟨e, hcall⟩ | hcall | ⟨value, table, hvalue, hcall, hlookup⟩ :=
    deleteIpv4Route_spec dstIp prefixLen answers switch htruthful
  · rw [hcall]
    rfl
  · rw [hcall]
    rfl
  · rw [hcall]
    refine ⟨⟨value, hvalue, ?_⟩, rfl, ?_⟩
    · exact (hlookup _).trans (if_pos rfl)
    · intro key hne
      have hkey : key ≠ ⟨value, prefixLen⟩ := by
        intro heq
        subst heq
        exact hne ⟨hvalue, rfl⟩
      exact (hlookup key).trans (if_neg hkey)

/-- An entry that the read-back finds is there: padded to the width of the field, what bmv2
    stripped is the key again. -/
theorem mem_of_ipv4RoutePresent {value : List UInt8} (hkeys : switch.AddressKeys)
    (h : ipv4RoutePresent value prefixLen switch = true) :
    (⟨value, prefixLen⟩ : LpmKey) ∈ switch.ipv4Lpm := by
  unfold ipv4RoutePresent at h
  obtain ⟨key, hkey, hmatch⟩ := List.any_eq_true.mp h
  rw [decide_eq_true_eq] at hmatch
  obtain ⟨hplen, hvalue⟩ := hmatch
  -- bmv2 strips leading zeros, `rjust` puts them back
  rw [rjust_canonical (hkeys key hkey)] at hvalue
  subst hplen hvalue
  exact AList.mem_keys.mpr hkey

/-- A delete of what is not there is done, when the switch says so or lets it be read. -/
theorem deleteIpv4Route_absent (hkeys : switch.AddressKeys)
    (habsent : switch.Unrouted dstIp prefixLen)
    (hanswer : answers.delete = some .notFound ∨
      (answers.delete = none ∨ answers.delete = some .unknown) ∧ answers.read = none) :
    deleteIpv4Route dstIp prefixLen answers switch = .ok true switch := by
  obtain ⟨value, hvalue, hlookup⟩ := habsent
  have hnot : (⟨value, prefixLen⟩ : LpmKey) ∉ switch.ipv4Lpm := AList.lookup_eq_none.mp hlookup
  have hpresent : ipv4RoutePresent value prefixLen switch = false := by
    rw [← Bool.not_eq_true]
    exact fun h => hnot (mem_of_ipv4RoutePresent prefixLen switch hkeys h)
  unfold deleteIpv4Route
  rw [EState.ofExcept_bind hvalue]
  obtain hnotFound | ⟨hunknown, hread⟩ := hanswer
  · have hwrite : writeTable .delete ⟨value, prefixLen⟩ { dstAddr := [], port := [] }
        answers.delete switch.ipv4Lpm = .error .notFound := by
      unfold writeTable
      rw [hnotFound]
    rw [EState.bind_of_ok (by rw [writeIpv4Lpm_apply, hwrite])]
    rfl
  · have hwrite : writeTable .delete ⟨value, prefixLen⟩ { dstAddr := [], port := [] }
        answers.delete switch.ipv4Lpm = .error .unknown := by
      unfold writeTable
      obtain hnone | hsome := hunknown
      · -- the switch refuses a delete of what is not there
        rw [hnone]
        exact if_neg hnot
      · rw [hsome]
    rw [EState.bind_of_ok (by rw [writeIpv4Lpm_apply, hwrite])]
    simp only [hread]
    show EStateM.Result.ok (!ipv4RoutePresent value prefixLen switch) switch = _
    rw [hpresent]
    rfl

/-- On every table and for all answers: insert and modify return `True` only with exactly the
    requested entry stored, delete only with the entry gone, nothing else ever changes, and a
    call that returns `False` or raises changes nothing. A delete of an entry that is not there
    returns `True` when it is answered `NOT_FOUND`, or `UNKNOWN` with a read that works. -/
theorem routeCalls_truthful :
    TruthfulCall dstIp prefixLen (·.Routes dstIp prefixLen nextHopMac port) switch
        (insertIpv4Route dstIp prefixLen nextHopMac port answers switch) ∧
      TruthfulCall dstIp prefixLen (·.Routes dstIp prefixLen nextHopMac port) switch
        (modifyIpv4Route dstIp prefixLen nextHopMac port answers switch) ∧
      ((∀ value, inetAtonValue dstIp = .ok value →
          TruthfulDelete answers ⟨value, prefixLen⟩ switch) →
        TruthfulCall dstIp prefixLen (·.Unrouted dstIp prefixLen) switch
          (deleteIpv4Route dstIp prefixLen answers switch)) ∧
      (switch.AddressKeys → switch.Unrouted dstIp prefixLen →
        answers.delete = some .notFound ∨
          (answers.delete = none ∨ answers.delete = some .unknown) ∧ answers.read = none →
        deleteIpv4Route dstIp prefixLen answers switch = .ok true switch) :=
  ⟨(insertIpv4Route_spec dstIp prefixLen nextHopMac port answers).truthful _ _ _ _ _,
    (modifyIpv4Route_spec dstIp prefixLen nextHopMac port answers).truthful _ _ _ _ _,
    deleteIpv4Route_truthful dstIp prefixLen answers switch,
    deleteIpv4Route_absent dstIp prefixLen answers switch⟩

end Calls

/-- A switch with a route to `0.10.0.1`. -/
def leadingZeroSwitch : P4Switch where
  ipv4Lpm := AList.insert ⟨[0, 10, 0, 1], 32⟩ ⟨[0, 0, 0, 0, 0, 7], [0, 1]⟩ ∅

/-- A delete of an address that has no route, answered with `UNKNOWN`, is done; whatever the
    delete of the route itself returns, refused with the same status, is true too. -/
theorem routeCalls_truthful_leadingZero :
    deleteIpv4Route (.str "0.10.0.2") 32 {} leadingZeroSwitch = .ok true leadingZeroSwitch ∧
      TruthfulCall (.str "0.10.0.1") 32 (·.Unrouted (.str "0.10.0.1") 32) leadingZeroSwitch
        (deleteIpv4Route (.str "0.10.0.1") 32 { delete := some .unknown } leadingZeroSwitch) := by
  constructor
  · refine (routeCalls_truthful (.str "0.10.0.2") 32 "" .null {} leadingZeroSwitch).2.2.2
      (by decide) ⟨[0, 10, 0, 2], by rfl, by decide⟩ (by decide)
  · refine (routeCalls_truthful (.str "0.10.0.1") 32 "" .null { delete := some .unknown }
      leadingZeroSwitch).2.2.1 ?_
    intro value _ hnotFound
    exact absurd hnotFound (by decide)

end Ndtwin.Proxy

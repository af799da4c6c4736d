import Ndtwin.Kernel.HttpRoutingStrategy
import Ndtwin.Proxy.ApiRoutes
import Ndtwin.Spec.InstalledRoutesCorrect
import Ndtwin.Spec.RequestedMatchCorrect

/-!
# Flow Deletes

A delete of the kernel travels as a POST to the proxy and ends as one `DELETE` of a `flow_5tuple`
entry, whose priority is part of its identity. The request of a non-strict delete carries no
priority, and the proxy reads a missing one as the lowest: it removes the entry of that priority
and answers with success, whatever other priorities the same keys are installed at. A negative
priority is read as the lowest as well.

## Key results

- `installedKey_inj`: the OpenFlow priorities from 0 on name different entries
- `kernelInstall_stores`: the entry that a priority names is the one an install puts there
- `unrouteFlow_removes`: what an accepted delete has removed
- `five_tuple_delete_iff`: when no entry of the keys is left, and when a strict delete is exact
-/

namespace Ndtwin.Proxy

open Ndtwin.Kernel

/-! ## Requests and replies -/

/-- A delete of the kernel, served by the proxy: whether it is answered with success, and the
    state of the proxy afterwards. -/
def kernelDelete (dpid : UInt64) (matchJson : Json) (priority : Int) (answers : Answers)
    (m : TopologyManager) : Bool × TopologyManager :=
  let request := HttpRoutingStrategy.deleteAnEntry dpid matchJson priority
  let served := postFlowEntry request.path answers request.body m
  (HttpRoutingStrategy.succeeded served.1.status served.1.body, served.2)

/-- The priority that the proxy reads from the request. -/
def sentPriority (priority : Int) : Json := if priority = -1 then .null else .int priority

/-- Only an operation that returned `True` is answered with success. -/
theorem answerWith_succeeded {operation : RouteM Bool} {message : String}
    {m m' : TopologyManager}
    (h : HttpRoutingStrategy.succeeded (answerWith operation (errorReply message) m).1.status
      (answerWith operation (errorReply message) m).1.body = true)
    (hm' : (answerWith operation (errorReply message) m).2 = m') :
    operation m = .ok true m' := by
  unfold answerWith at h hm'
  cases hop : operation m with
  | ok success m'' =>
    rw [hop] at h hm'
    cases success with
    | true => rw [← hm']
    | false => simp [errorReply, HttpRoutingStrategy.succeeded, Json.field?] at h
  | error e m'' =>
    rw [hop] at h
    cases e with
    | unsupportedMatch e =>
      simp [unsupportedMatchReply, httpException, HttpRoutingStrategy.succeeded] at h
    | python e => simp [HttpRoutingStrategy.succeeded] at h

theorem unrouteFlow_of_kernelDelete {dpid : UInt64} {matchJson : Json} {priority : Int}
    {answers : Answers} {m m' : TopologyManager}
    (h : kernelDelete dpid matchJson priority answers m = (true, m')) :
    unrouteFlow (.uint dpid.toNat) matchJson (sentPriority priority) answers m = .ok true m' := by
  unfold kernelDelete HttpRoutingStrategy.deleteAnEntry at h
  unfold sentPriority
  split at h
  · next hsentinel =>
    rw [if_pos hsentinel]
    obtain ⟨hsuccess, hm'⟩ := Prod.mk.inj h
    exact answerWith_succeeded hsuccess hm'
  · next hsentinel =>
    rw [if_neg hsentinel]
    obtain ⟨hsuccess, hm'⟩ := Prod.mk.inj h
    exact answerWith_succeeded hsuccess hm'

/-! ## What a delete removes -/

/-- The key set that the fields of a match select in `flow_5tuple`. -/
def HasKeySet (fields : List (String × Json)) (keySet : List TernaryMatch) : Prop :=
  ∃ keys, fiveTupleKeys fields = .ok keys ∧
    ternaryMatches keys P4Field.sorted = .ok keySet

/-- The `flow_5tuple` entries of a switch. -/
def TopologyManager.fiveTuple (m : TopologyManager) (dpid : Int) : AssocMap FiveTupleKey Forward :=
  ((m.switches.lookup dpid).map P4Switch.flow5tuple).getD ∅

/-- The entry of a request has the keys of its match and its own priority. -/
theorem build5tupleEntry_ok {keys : AssocMap P4Field Json} {priority : Int} {key : FiveTupleKey}
    (h : build5tupleEntry keys priority = .ok key) :
    ternaryMatches keys P4Field.sorted = .ok key.keys ∧ key.priority = priority := by
  unfold build5tupleEntry at h
  obtain ⟨ternary, hternary, h⟩ := EState.bind_eq_ok h
  split at h
  · cases h
    exact ⟨hternary, rfl⟩
  · exact nomatch h

/-- An accepted delete found its entry, and took it away. -/
theorem delete5tupleRule_true {keys : AssocMap P4Field Json} {priority : Int} {answers : Answers}
    {switch switch' : P4Switch}
    (h : delete5tupleRule keys priority answers switch = .ok true switch') :
    ∃ key, build5tupleEntry keys priority = .ok key ∧ key ∈ switch.flow5tuple ∧
      switch' = { switch with flow5tuple := switch.flow5tuple.erase key } := by
  unfold delete5tupleRule at h
  obtain ⟨key, hkey, h⟩ := EState.exists_of_ofExcept_bind_ok h
  refine ⟨key, hkey, ?_⟩
  obtain ⟨result, s, hwrite, h⟩ := EState.exists_of_bind_ok h
  rw [writeFlow5tuple_apply] at hwrite
  cases htable : writeTable .delete key { dstAddr := [], port := [] } answers.delete
      switch.flow5tuple with
  | error status =>
    rw [htable] at hwrite
    cases hwrite
    exact nomatch h
  | ok table =>
    rw [htable] at hwrite
    cases hwrite
    cases h
    refine ⟨?_, by rw [writeTable_ok htable]⟩
    unfold writeTable at htable
    cases hanswer : answers.delete with
    | some status =>
      rw [hanswer] at htable
      exact nomatch htable
    | none =>
      rw [hanswer] at htable
      -- deleting a key that the table does not hold is NOT_FOUND
      by_contra habsent
      simp only [if_neg habsent] at htable
      exact nomatch htable

/-- A delete of a 5-tuple match that returned `True` has removed the entry of its keys at the
    priority it was read with, and nothing else. -/
theorem unrouteFlow_removes {dpid : Nat} {fields : List (String × Json)} {priority : Json}
    {answers : Answers} {m m' : TopologyManager} (hfive : needsFiveTuple (.obj fields) = true)
    {keySet : List TernaryMatch} (hkeys : HasKeySet fields keySet)
    (h : unrouteFlow (.uint dpid) (.obj fields) priority answers m = .ok true m') :
    ∃ switch, m.switches.lookup (dpid : Int) = some switch ∧
      (⟨keySet, p4Priority priority⟩ : FiveTupleKey) ∈ switch.flow5tuple ∧
      m' = m.withSwitch dpid { switch with
        flow5tuple := switch.flow5tuple.erase ⟨keySet, p4Priority priority⟩ } := by
  unfold unrouteFlow at h
  rw [EState.get_bind] at h
  obtain ⟨known, hknown, h⟩ := exists_of_py_bind_ok h
  cases known with
  | none => exact nomatch h
  | some d =>
    obtain rfl := eq_of_knownDpid_uint hknown
    obtain ⟨fields', hobj, -, h⟩ := exists_of_checkedMatch_bind_ok h
    cases hobj
    simp only [hfive, if_true] at h
    obtain ⟨keys, hcollected, h⟩ := EState.exists_of_ofExcept_bind_ok h
    obtain ⟨switch, switch', hswitch, hcall, rfl⟩ := exists_of_onSwitch_ok h
    obtain ⟨key, hkey, hmem, rfl⟩ := delete5tupleRule_true hcall
    obtain ⟨keys', hkeys', hternary⟩ := hkeys
    rw [hcollected] at hkeys'
    cases hkeys'
    obtain ⟨hkeySet, hpriority⟩ := build5tupleEntry_ok hkey
    rw [hternary] at hkeySet
    cases hkeySet
    rw [← hpriority]
    exact ⟨switch, hswitch, hmem, rfl⟩

/-! ## The entry of a priority -/

/-- The entry of a key set that is installed at an OpenFlow priority. -/
def installedKey (keySet : List TernaryMatch) (priority : Int) : FiveTupleKey :=
  ⟨keySet, p4Priority (.int priority)⟩

theorem p4Priority_int (priority : Int) : p4Priority (.int priority) = max 0 priority + 1 := rfl

theorem installedKey_inj (keySet : List TernaryMatch) {p q : Int} (hp : 0 ≤ p) (hq : 0 ≤ q) :
    installedKey keySet q = installedKey keySet p ↔ q = p := by
  simp only [installedKey, FiveTupleKey.mk.injEq, true_and, p4Priority_int]
  omega

/-- A negative priority names the entry of priority 0. -/
theorem installedKey_of_neg {keySet : List TernaryMatch} {p : Int} (hp : p < 0) :
    installedKey keySet p = installedKey keySet 0 := by
  simp only [installedKey, FiveTupleKey.mk.injEq, true_and, p4Priority_int]
  omega

/-- An install of the kernel, served by the proxy. -/
def kernelInstall (dpid : UInt64) (priority : Int) (matchJson action : Json) (idleTimeout : Int)
    (answers : Answers) (m : TopologyManager) : Bool × TopologyManager :=
  let request := HttpRoutingStrategy.installAnEntry dpid priority matchJson action idleTimeout
  let served := postFlowEntry request.path answers request.body m
  (HttpRoutingStrategy.succeeded served.1.status served.1.body, served.2)

/-- What the name stands for: an install at a priority that is answered with success puts the
    entry of that priority into the table of its switch. -/
theorem kernelInstall_stores {dpid : UInt64} {priority : Int} {fields : List (String × Json)}
    {action : Json} {idleTimeout : Int} {answers : Answers} {m m' : TopologyManager}
    (hfive : needsFiveTuple (.obj fields) = true) {keySet : List TernaryMatch}
    (hkeys : HasKeySet fields keySet)
    (h : kernelInstall dpid priority (.obj fields) action idleTimeout answers m = (true, m')) :
    ∃ switch forward, m.switches.lookup (dpid.toNat : Int) = some switch ∧
      m'.switches.lookup (dpid.toNat : Int) =
        some (switch.put forward (.fiveTuple (installedKey keySet priority))) := by
  obtain ⟨hsuccess, hm'⟩ := Prod.mk.inj h
  have hroute : routeFlow (.uint dpid.toNat) (.obj fields) action (.int priority) answers m =
      .ok true m' := answerWith_succeeded hsuccess hm'
  obtain ⟨fields', d, switch, entry, forward, hobj, -, hknown, hswitch, hput, hentry⟩ :=
    routeFlow_writes hroute
  cases hobj
  obtain rfl := eq_of_knownDpid_uint hknown
  cases entry with
  | lpm key =>
    have hlpm := hentry.1
    rw [hfive] at hlpm
    exact nomatch hlpm
  | fiveTuple key =>
    obtain ⟨-, keys, hcollected, hkey⟩ := hentry
    obtain ⟨keys', hkeys', hternary⟩ := hkeys
    rw [hcollected] at hkeys'
    cases hkeys'
    obtain ⟨hkeySet, hpriority⟩ := build5tupleEntry_ok hkey
    rw [hternary] at hkeySet
    cases hkeySet
    refine ⟨switch, forward, hswitch, ?_⟩
    rw [installedKey, ← hpriority]
    exact hput

/-! ## Strict deletes -/

theorem fiveTuple_withSwitch (m : TopologyManager) (dpid : Int) (switch : P4Switch) :
    (m.withSwitch dpid switch).fiveTuple dpid = switch.flow5tuple := by
  simp [TopologyManager.fiveTuple, TopologyManager.withSwitch]

/-- Of the entries of a key set, the delete of a priority takes exactly the one installed at that
    priority, unless the priority is negative. -/
theorem erase_installedKey_exact_iff {keySet : List TernaryMatch} {priority : Int}
    {table : AssocMap FiveTupleKey Forward} (hmem : installedKey keySet priority ∈ table) :
    (∀ q, 0 ≤ q → installedKey keySet q ∈ table →
      (installedKey keySet q ∉ table.erase (installedKey keySet priority) ↔ q = priority)) ↔
      0 ≤ priority := by
  constructor
  · intro hexact
    by_contra hneg
    -- the entry of priority 0 is the one that goes
    rw [installedKey_of_neg (by omega)] at hmem hexact
    have hzero : 0 = priority := (hexact 0 le_rfl hmem).mp (by simp [AList.mem_erase])
    omega
  · intro hpriority q hq hinstalled
    rw [AList.mem_erase, ← installedKey_inj keySet hpriority hq]
    constructor
    · intro hgone
      by_contra hne
      exact hgone ⟨hne, hinstalled⟩
    · rintro heq ⟨hne, -⟩
      exact hne heq

end Ndtwin.Proxy

namespace Ndtwin.Spec

open Ndtwin.Proxy

/-- A non-strict delete that is answered with success leaves no entry of its key set exactly when
    the switch held none of them at a priority other than 1, the one a missing priority is read
    as. A strict delete removes one entry of its key set and nothing else, and of the entries
    installed at the OpenFlow priorities it removes exactly that of its own, unless the priority
    is negative. -/
theorem five_tuple_delete_iff (dpid : UInt64) (fields : List (String × Json)) (answers : Answers)
    (m m' : TopologyManager) (keySet : List TernaryMatch)
    (hfive : needsFiveTuple (.obj fields) = true) (hkeys : HasKeySet fields keySet) :
    (kernelDelete dpid (.obj fields) (-1) answers m = (true, m') →
      ((∀ key ∈ m'.fiveTuple dpid.toNat, key.keys ≠ keySet) ↔
        ∀ key ∈ m.fiveTuple dpid.toNat, key.keys = keySet → key.priority = 1)) ∧
    ∀ priority : Int, priority ≠ -1 →
      kernelDelete dpid (.obj fields) priority answers m = (true, m') →
        ∃ switch, m.switches.lookup (dpid.toNat : Int) = some switch ∧
          installedKey keySet priority ∈ switch.flow5tuple ∧
          m' = m.withSwitch dpid.toNat { switch with
            flow5tuple := switch.flow5tuple.erase (installedKey keySet priority) } ∧
          ((∀ q, 0 ≤ q → installedKey keySet q ∈ switch.flow5tuple →
            (installedKey keySet q ∉ m'.fiveTuple dpid.toNat ↔ q = priority)) ↔
              0 ≤ priority) := by
  constructor
  · intro h
    obtain ⟨switch, hswitch, -, rfl⟩ :=
      unrouteFlow_removes hfive hkeys (unrouteFlow_of_kernelDelete h)
    -- a request without a priority is read as the lowest one
    have hpriority : p4Priority (sentPriority (-1)) = 1 := by decide
    have hbefore : m.fiveTuple dpid.toNat = switch.flow5tuple := by
      simp [TopologyManager.fiveTuple, hswitch]
    rw [hpriority, fiveTuple_withSwitch, hbefore]
    simp only [AList.mem_erase]
    constructor
    · intro hgone key hmem hsame
      by_contra hother
      apply hgone key ⟨?_, hmem⟩ hsame
      intro hkey
      exact hother (by rw [hkey])
    · intro hlowest key ⟨hne, hmem⟩ hsame
      apply hne
      rw [FiveTupleKey.mk.injEq]
      exact ⟨hsame, hlowest key hmem hsame⟩
  · intro priority hsent h
    obtain ⟨switch, hswitch, hmem, rfl⟩ :=
      unrouteFlow_removes hfive hkeys (unrouteFlow_of_kernelDelete h)
    rw [sentPriority, if_neg hsent] at hmem ⊢
    refine ⟨switch, hswitch, hmem, rfl, ?_⟩
    rw [fiveTuple_withSwitch]
    exact erase_installedKey_exact_iff hmem

/-- A match on the protocol, and the key set it selects. -/
def tcpMatch : List (String × Json) := [("nw_proto", .int 6)]

def tcpKeySet : List TernaryMatch := [{ field := .protocol, value := [6], mask := [255] }]

theorem hasKeySet_tcpMatch : HasKeySet tcpMatch tcpKeySet := ⟨_, rfl, rfl⟩

/-- Switch 1 with an entry of that key set at each of the priorities. -/
def tcpRulesAt (priorities : List Int) : TopologyManager :=
  oneSwitch.withSwitch 1
    { flow5tuple := priorities.foldl
        (fun table p => table.insert ⟨tcpKeySet, p⟩ ⟨[0, 0, 0, 0, 0, 0], [0, 1]⟩) ∅ }

/-- A non-strict delete of the only entry, and a strict one that finds two. -/
theorem delete_tcpRule :
    ((kernelDelete 1 (.obj tcpMatch) (-1) {} (tcpRulesAt [1])).1 = true ∧
      ∀ key ∈ (kernelDelete 1 (.obj tcpMatch) (-1) {} (tcpRulesAt [1])).2.fiveTuple
        ((1 : UInt64).toNat : Int), key.keys ≠ tcpKeySet) ∧
    ((kernelDelete 1 (.obj tcpMatch) 10 {} (tcpRulesAt [1, 11])).1 = true ∧
      ∃ switch, (tcpRulesAt [1, 11]).switches.lookup ((1 : UInt64).toNat : Int) = some switch ∧
        ∀ q, 0 ≤ q → installedKey tcpKeySet q ∈ switch.flow5tuple →
          (installedKey tcpKeySet q ∉ (kernelDelete 1 (.obj tcpMatch) 10 {}
            (tcpRulesAt [1, 11])).2.fiveTuple ((1 : UInt64).toNat : Int) ↔ q = 10)) := by
  have hsuccess : (kernelDelete 1 (.obj tcpMatch) (-1) {} (tcpRulesAt [1])).1 = true := by
    decide +kernel
  have hlowest : ∀ key ∈ ((tcpRulesAt [1]).fiveTuple ((1 : UInt64).toNat : Int)).keys,
      key.keys = tcpKeySet → key.priority = 1 := by decide +kernel
  have hiff := (five_tuple_delete_iff 1 tcpMatch {} (tcpRulesAt [1]) _ tcpKeySet (by decide)
    hasKeySet_tcpMatch).1 (Prod.ext hsuccess rfl)
  have hstrict : (kernelDelete 1 (.obj tcpMatch) 10 {} (tcpRulesAt [1, 11])).1 = true := by
    decide +kernel
  obtain ⟨switch, hswitch, -, -, hexact⟩ := (five_tuple_delete_iff 1 tcpMatch {}
    (tcpRulesAt [1, 11]) _ tcpKeySet (by decide) hasKeySet_tcpMatch).2 10 (by decide)
    (Prod.ext hstrict rfl)
  exact ⟨⟨hsuccess, hiff.mpr hlowest⟩, hstrict, switch, hswitch, hexact.mpr (by decide)⟩

/-- The same match is installed at priorities 0 and 10: the delete is answered with success, and
    the entry of priority 10 still forwards. -/
theorem delete_leaves_higher_priority :
    ¬ ∀ (dpid : UInt64) (fields : List (String × Json)) (answers : Answers)
        (m m' : TopologyManager) (keySet : List TernaryMatch),
      needsFiveTuple (.obj fields) = true → HasKeySet fields keySet →
      kernelDelete dpid (.obj fields) (-1) answers m = (true, m') →
      ∀ key ∈ m'.fiveTuple dpid.toNat, key.keys ≠ keySet := by
  intro h
  have hsuccess : (kernelDelete 1 (.obj tcpMatch) (-1) {} (tcpRulesAt [1, 11])).1 = true := by
    decide +kernel
  have hleft : (⟨tcpKeySet, 11⟩ : FiveTupleKey) ∈
      ((kernelDelete 1 (.obj tcpMatch) (-1) {} (tcpRulesAt [1, 11])).2.fiveTuple
        ((1 : UInt64).toNat : Int)).keys := by decide +kernel
  exact h 1 tcpMatch {} (tcpRulesAt [1, 11]) _ tcpKeySet (by decide) hasKeySet_tcpMatch
    (Prod.ext hsuccess rfl) _ hleft rfl

end Ndtwin.Spec

import Ndtwin.Spec.InstalledRoutesCorrect
import Ndtwin.Spec.RequestedMatchCorrect

/-!
# What the Tables of a Switch Hold

Whatever the requests and the answers of the switches are, an `ipv4_lpm` entry is about one
address, and a `flow_5tuple` entry has at least one key, each of its keys once and with a full
mask, and a priority from 1 on.

## Key results

- `RouteOp.step_exactTables`: one operation of the proxy keeps this
- `exactTables_run`: so does every run
-/

namespace Ndtwin.Proxy

/-- Bytes of the width of a field that are a value of the field. -/
def P4Field.Encodes (field : P4Field) (bytes : List UInt8) : Prop :=
  bytes.length = (field.bits + 7) / 8 ∧ Python.fromBytes bytes < 2 ^ field.bits

/-- A key that compares all bits of its field. -/
structure TernaryMatch.Exact (t : TernaryMatch) : Prop where
  value : t.field.Encodes t.value
  mask : t.mask = Python.bytesOf ((t.field.bits + 7) / 8) (2 ^ t.field.bits - 1)

/-- A `flow_5tuple` entry as the proxy writes them. -/
structure FiveTupleKey.Exact (key : FiveTupleKey) : Prop where
  nonempty : key.keys ≠ []
  nodup : (key.keys.map TernaryMatch.field).Nodup
  keys : ∀ t ∈ key.keys, t.Exact
  priority_pos : 1 ≤ key.priority
  priority_lt : key.priority < 2 ^ 31

/-- An `ipv4_lpm` entry as the proxy writes them. -/
structure LpmKey.Exact (key : LpmKey) : Prop where
  value : P4Field.dstAddr.Encodes key.value
  prefixLen : key.prefixLen = 32

/-- Every entry of a switch is one that the proxy writes. -/
structure P4Switch.Exact (switch : P4Switch) : Prop where
  ipv4Lpm : ∀ key action, switch.ipv4Lpm.lookup key = some action →
    key.Exact ∧ action.port.length = 2
  flow5tuple : ∀ key action, switch.flow5tuple.lookup key = some action →
    key.Exact ∧ action.port.length = 2

/-! ## Entries -/

/-- A port that encodes has two bytes. -/
theorem forwardAction_ok {mac : String} {port : Json} {action : Forward}
    (h : forwardAction mac port = .ok action) : action.port.length = 2 := by
  unfold forwardAction at h
  obtain ⟨dstAddr, -, h⟩ := EState.bind_eq_ok h
  obtain ⟨bytes, hport, h⟩ := EState.bind_eq_ok h
  cases h
  unfold portBytes at hport
  split at hport
  · exact (toBytes_ok hport).2
  · exact nomatch hport

theorem routeEntry_exact {dstIp : Json} {mac : String} {port : Json} {key : LpmKey}
    {action : Forward} (h : routeEntry dstIp 32 mac port = .ok (key, action)) :
    key.Exact ∧ action.port.length = 2 := by
  unfold routeEntry at h
  obtain ⟨value, hvalue, h⟩ := EState.bind_eq_ok h
  obtain ⟨action', haction, h⟩ := EState.bind_eq_ok h
  cases h
  obtain ⟨s, -, haddress⟩ := inetAtonValue_ok hvalue
  have hlength := inetAton_length haddress
  have hlt := Python.fromBytes_lt value
  rw [hlength] at hlt
  exact ⟨⟨⟨hlength, hlt⟩, rfl⟩, forwardAction_ok haction⟩

/-- The keys of an entry are exact, and are those that the rule names, in the given order. -/
theorem ternaryMatches_exact {keys : AssocMap P4Field Json} {fields : List P4Field}
    {ternary : List TernaryMatch} (h : ternaryMatches keys fields = .ok ternary) :
    (∀ t ∈ ternary, t.Exact) ∧
      ternary.map TernaryMatch.field = fields.filter fun f => (keys.lookup f).isSome := by
  induction fields generalizing ternary with
  | nil =>
    cases h
    exact ⟨nofun, rfl⟩
  | cons field fields ih =>
    unfold ternaryMatches at h
    cases hv : keys.lookup field with
    | none =>
      rw [hv] at h
      obtain ⟨hexact, hfields⟩ := ih h
      refine ⟨hexact, ?_⟩
      rw [List.filter_cons_of_neg (by simp [hv]), hfields]
    | some v =>
      rw [hv] at h
      obtain ⟨⟨raw, mask⟩, hencode, h⟩ := EState.bind_eq_ok h
      obtain ⟨rest, hrest, h⟩ := EState.bind_eq_ok h
      cases h
      obtain ⟨hexact, hfields⟩ := ih hrest
      -- an encoded field has the full width and a mask of ones
      obtain ⟨hlength, -, hmask, -⟩ := encode5tupleValue_raw hencode
      have hvalue := (encode5tupleValue_ok hencode).1
      constructor
      · intro t ht
        rcases List.mem_cons.mp ht with rfl | ht
        · exact ⟨⟨hlength, hvalue⟩, hmask⟩
        · exact hexact t ht
      · rw [List.map_cons, hfields, List.filter_cons_of_pos (by simp [hv])]

/-- A match that goes to the 5-tuple table sets a key of it. -/
theorem exists_key_of_needsFiveTuple {fields : List (String × Json)}
    (hfive : needsFiveTuple (.obj fields) = true) {keys : AssocMap P4Field Json}
    (hkeys : fiveTupleKeys fields = .ok keys) : ∃ field, (keys.lookup field).isSome = true := by
  obtain ⟨f, hf, honly⟩ := List.any_eq_true.mp hfive
  unfold isFiveTupleOnlyField at honly
  rw [decide_eq_true_eq] at honly
  obtain ⟨field, hfield⟩ := Option.isSome_iff_exists.mp honly.1
  rw [← openflowField_eq] at hfield
  obtain ⟨v, hv, -⟩ := (fiveTupleKeys_spec hkeys).1 f hf field hfield
  exact ⟨field, by rw [hv]; rfl⟩

theorem one_le_p4Priority (priority : Json) : 1 ≤ p4Priority priority := by
  unfold p4Priority
  simp only
  omega

theorem build5tupleEntry_exact {keys : AssocMap P4Field Json} {priority : Json}
    {key : FiveTupleKey} (hsome : ∃ field, (keys.lookup field).isSome = true)
    (h : build5tupleEntry keys (p4Priority priority) = .ok key) : key.Exact := by
  unfold build5tupleEntry at h
  obtain ⟨ternary, hternary, h⟩ := EState.bind_eq_ok h
  split at h
  · next hrange =>
    cases h
    obtain ⟨hexact, hfields⟩ := ternaryMatches_exact hternary
    refine ⟨?_, ?_, hexact, one_le_p4Priority priority, hrange.2⟩
    · rintro rfl
      obtain ⟨field, hfield⟩ := hsome
      have hmem : field ∈ P4Field.sorted.filter fun f => (keys.lookup f).isSome :=
        List.mem_filter.mpr ⟨mem_sorted field, hfield⟩
      rw [← hfields] at hmem
      exact nomatch hmem
    · have hsorted : P4Field.sorted.Nodup := by decide
      rw [hfields]
      exact hsorted.filter _
  · exact nomatch h

/-! ## Writes -/

namespace P4Switch.Exact

variable {switch : P4Switch} (h : switch.Exact)
include h

theorem insertRoute {key : LpmKey} {action : Forward} (hkey : key.Exact)
    (haction : action.port.length = 2) :
    Exact { switch with ipv4Lpm := switch.ipv4Lpm.insert key action } := by
  refine ⟨fun key' action' hlookup => ?_, h.flow5tuple⟩
  rw [AssocMap.lookup_insert_eq] at hlookup
  split at hlookup
  · next heq =>
    cases hlookup
    exact ⟨heq ▸ hkey, haction⟩
  · exact h.ipv4Lpm key' action' hlookup

theorem eraseRoute (key : LpmKey) :
    Exact { switch with ipv4Lpm := switch.ipv4Lpm.erase key } := by
  refine ⟨fun key' action' hlookup => ?_, h.flow5tuple⟩
  rw [AssocMap.lookup_erase_eq] at hlookup
  split at hlookup
  · exact nomatch hlookup
  · exact h.ipv4Lpm key' action' hlookup

theorem insertRule {key : FiveTupleKey} {action : Forward} (hkey : key.Exact)
    (haction : action.port.length = 2) :
    Exact { switch with flow5tuple := switch.flow5tuple.insert key action } := by
  refine ⟨h.ipv4Lpm, fun key' action' hlookup => ?_⟩
  rw [AssocMap.lookup_insert_eq] at hlookup
  split at hlookup
  · next heq =>
    cases hlookup
    exact ⟨heq ▸ hkey, haction⟩
  · exact h.flow5tuple key' action' hlookup

theorem eraseRule (key : FiveTupleKey) :
    Exact { switch with flow5tuple := switch.flow5tuple.erase key } := by
  refine ⟨h.ipv4Lpm, fun key' action' hlookup => ?_⟩
  rw [AssocMap.lookup_erase_eq] at hlookup
  split at hlookup
  · exact nomatch hlookup
  · exact h.flow5tuple key' action' hlookup

end P4Switch.Exact

theorem exact_empty : P4Switch.Exact {} := ⟨nofun, nofun⟩

/-! ## Client calls -/

/-- A call that stores a route. -/
theorem StoresRoute.exact {call : ClientM Bool} {dstIp : Json} {mac : String} {port : Json}
    (hcall : StoresRoute call (routeEntry dstIp 32 mac port)) {switch : P4Switch}
    (h : switch.Exact) : EState.EndsIn P4Switch.Exact call switch := by
  unfold EState.EndsIn
  rcases hcall switch with ⟨e, -, herror⟩ | hfalse | ⟨key, action, hentry, htrue⟩
  · rwa [EState.finalState_of_error herror]
  · rwa [EState.finalState_of_ok hfalse]
  · rw [EState.finalState_of_ok htrue]
    obtain ⟨hkey, haction⟩ := routeEntry_exact hentry
    exact h.insertRoute hkey haction

/-- A call that stores a rule. -/
theorem StoresRule.exact {call : ClientM Bool} {keys : AssocMap P4Field Json} {priority : Json}
    {mac : String} {port : Json}
    (hcall : StoresRule call (ruleEntry keys (p4Priority priority) mac port))
    (hsome : ∃ field, (keys.lookup field).isSome = true) {switch : P4Switch} (h : switch.Exact) :
    EState.EndsIn P4Switch.Exact call switch := by
  unfold EState.EndsIn
  rcases hcall switch with ⟨e, -, herror⟩ | hfalse | ⟨key, action, hentry, htrue⟩
  · rwa [EState.finalState_of_error herror]
  · rwa [EState.finalState_of_ok hfalse]
  · rw [EState.finalState_of_ok htrue]
    unfold ruleEntry at hentry
    obtain ⟨key', hkey, hentry⟩ := EState.bind_eq_ok hentry
    obtain ⟨action', haction, hentry⟩ := EState.bind_eq_ok hentry
    cases hentry
    exact h.insertRule (build5tupleEntry_exact hsome hkey) (forwardAction_ok haction)

theorem deleteIpv4Route_exact (dstIp : Json) (answers : Answers) {switch : P4Switch}
    (h : switch.Exact) : EState.EndsIn P4Switch.Exact (deleteIpv4Route dstIp 32 answers) switch := by
  unfold deleteIpv4Route
  apply EState.endsIn_ofExcept_bind h
  intro value _
  apply EState.endsIn_bind
  · unfold EState.EndsIn EState.finalState
    rw [writeIpv4Lpm_apply]
    cases hwrite : writeTable .delete ⟨value, 32⟩ { dstAddr := [], port := [] } answers.delete
        switch.ipv4Lpm with
    | error status => exact h
    | ok table =>
      rw [writeTable_ok hwrite]
      exact h.eraseRoute _
  · -- what follows only reads
    intro result switch' h'
    split
    · exact h'
    · exact h'
    · split
      · exact h'
      · exact h'
    · exact h'

theorem delete5tupleRule_exact (keys : AssocMap P4Field Json) (priority : Int) (answers : Answers)
    {switch : P4Switch} (h : switch.Exact) :
    EState.EndsIn P4Switch.Exact (delete5tupleRule keys priority answers) switch := by
  unfold EState.EndsIn
  rcases delete5tupleRule_spec keys priority answers switch with hsame | ⟨key, herase⟩
  · rwa [hsame]
  · rw [herase]
    exact h.eraseRule key

/-! ## Operations of the proxy -/

/-- The tables of every switch hold what the proxy writes. -/
def TopologyManager.ExactTables (m : TopologyManager) : Prop :=
  ∀ dpid switch, m.switches.lookup dpid = some switch → switch.Exact

theorem exactTables_withSwitch {m : TopologyManager} (h : m.ExactTables) (dpid : Int)
    {switch : P4Switch} (hswitch : switch.Exact) : (m.withSwitch dpid switch).ExactTables := by
  intro dpid' switch' hlookup
  have hset : (m.switches.set dpid switch).lookup dpid' = some switch' := hlookup
  rw [AssocMap.lookup_set] at hset
  split at hset
  · cases hset
    exact hswitch
  · exact h dpid' switch' hset

theorem onSwitch_exactTables {α : Type} {m : TopologyManager} (h : m.ExactTables) (dpid : Int)
    {call : ClientM α}
    (hcall : ∀ switch, switch.Exact → EState.EndsIn P4Switch.Exact call switch) :
    EState.EndsIn TopologyManager.ExactTables (onSwitch dpid call) m := by
  unfold EState.EndsIn
  cases hswitch : m.switches.lookup dpid with
  | none =>
    unfold EState.finalState onSwitch
    rw [hswitch]
    exact h
  | some switch =>
    have hexact := hcall switch (h dpid switch hswitch)
    unfold EState.EndsIn at hexact
    cases hrun : call switch with
    | ok a switch' =>
      rw [EState.finalState_of_ok hrun] at hexact
      rw [EState.finalState_of_ok (onSwitch_of_ok hswitch hrun)]
      exact exactTables_withSwitch h dpid hexact
    | error e switch' =>
      rw [EState.finalState_of_error hrun] at hexact
      rw [EState.finalState_of_error (onSwitch_of_error hswitch hrun)]
      exact exactTables_withSwitch h dpid hexact

theorem recordRoute_exactTables {m : TopologyManager} (h : m.ExactTables) (dpid : Int)
    (ipv4Dst out : Json) :
    EState.EndsIn TopologyManager.ExactTables (recordRoute dpid ipv4Dst out) m := by
  intro dpid' switch' hlookup
  rw [switches_recordRoute] at hlookup
  exact h dpid' switch' hlookup

theorem withdrawRoute_exactTables {m : TopologyManager} (h : m.ExactTables) (dpid : Int)
    (ipv4Dst : Json) :
    EState.EndsIn TopologyManager.ExactTables (withdrawRoute dpid ipv4Dst) m := by
  unfold withdrawRoute
  split
  · exact h
  · exact h

section Requests

variable {m : TopologyManager} (h : m.ExactTables) (dpid matchDict actions priority : Json)
  (answers : Answers)
include h

/-- A call that writes to a switch, and the change of the record after it. -/
theorem write_record_exactTables {d : Int} {call : ClientM Bool} {record : RouteM Unit}
    (hcall : ∀ switch, switch.Exact → EState.EndsIn P4Switch.Exact call switch)
    (hrecord : ∀ m' : TopologyManager, m'.ExactTables →
      EState.EndsIn TopologyManager.ExactTables record m') :
    EState.EndsIn TopologyManager.ExactTables (do
      let success ← onSwitch d call
      if success then do
        record
        return true
      else return false) m := by
  apply EState.endsIn_bind (onSwitch_exactTables h d hcall)
  intro success m' h'
  split
  · apply EState.endsIn_bind (hrecord m' h')
    intro _ m'' h''
    exact h''
  · exact h'

theorem routeFlow_exactTables :
    EState.EndsIn TopologyManager.ExactTables
      (routeFlow dpid matchDict actions priority answers) m := by
  unfold routeFlow
  apply endsIn_storing m dpid matchDict actions h "installed"
    (fun keys mac out => insert5tupleRule keys (p4Priority priority) mac out answers)
    (fun ipv4Dst mac out => insertIpv4Route ipv4Dst 32 mac out answers)
  · intro d _ fields keys mac out _ hfields hfive hkeys
    have hsome := exists_key_of_needsFiveTuple (hfields ▸ hfive) hkeys
    exact onSwitch_exactTables h d fun _ =>
      (insert5tupleRule_spec keys (p4Priority priority) mac out answers).exact hsome
  · intro d _ fields mac out _ _
    exact write_record_exactTables h
      (fun _ => (insertIpv4Route_spec (ipv4DstOf fields) 32 mac out answers).exact)
      fun m' h' => recordRoute_exactTables h' d (ipv4DstOf fields) out

theorem modifyFlow_exactTables :
    EState.EndsIn TopologyManager.ExactTables
      (modifyFlow dpid matchDict actions priority answers) m := by
  unfold modifyFlow
  apply endsIn_storing m dpid matchDict actions h "modified"
    (fun keys mac out => modify5tupleRule keys (p4Priority priority) mac out answers)
    (fun ipv4Dst mac out => modifyIpv4Route ipv4Dst 32 mac out answers)
  · intro d _ fields keys mac out _ hfields hfive hkeys
    have hsome := exists_key_of_needsFiveTuple (hfields ▸ hfive) hkeys
    exact onSwitch_exactTables h d fun _ =>
      (modify5tupleRule_spec keys (p4Priority priority) mac out answers).exact hsome
  · intro d _ fields mac out _ _
    exact write_record_exactTables h
      (fun _ => (modifyIpv4Route_spec (ipv4DstOf fields) 32 mac out answers).exact)
      fun m' h' => recordRoute_exactTables h' d (ipv4DstOf fields) out

theorem unrouteFlow_exactTables :
    EState.EndsIn TopologyManager.ExactTables (unrouteFlow dpid matchDict priority answers) m := by
  unfold unrouteFlow
  apply EState.endsIn_get_bind
  apply endsIn_py_bind h
  intro known _
  cases known with
  | none => exact h
  | some d =>
    apply endsIn_checkedMatch_bind h
    intro fields _
    simp only
    split
    · apply EState.endsIn_ofExcept_bind h
      intro keys _
      exact onSwitch_exactTables h d fun _ => delete5tupleRule_exact keys _ answers
    · split
      · exact write_record_exactTables h
          (fun _ => deleteIpv4Route_exact (ipv4DstOf fields) answers)
          fun m' h' => withdrawRoute_exactTables h' d (ipv4DstOf fields)
      · exact h

end Requests

/-- The loop over the planned routes. -/
theorem installRoutes_exactTables (answers : Nat → Answers) (tasks : List RouteTask)
    (installed attempted : Nat) {m : TopologyManager} (h : m.ExactTables) :
    EState.EndsIn TopologyManager.ExactTables (installRoutes answers installed attempted tasks)
      m := by
  induction tasks generalizing installed attempted m with
  | nil => exact h
  | cons task tasks ih =>
    rw [installRoutes]
    apply EState.endsIn_get_bind
    apply endsIn_py_bind h
    intro route _
    apply EState.endsIn_bind
    · exact onSwitch_exactTables h route.dpid fun _ =>
        (insertIpv4Route_spec route.dst 32 route.mac (.int route.outPort)
          (answers attempted)).exact
    · intro accepted m' h'
      split
      · apply EState.endsIn_bind (recordRoute_exactTables h' _ _ _)
        intro _ m'' h''
        exact ih (installed + 1) (attempted + 1) h''
      · exact ih installed (attempted + 1) h'

theorem installInitialRoutes_exactTables (shortestPath : ShortestPath) (onlyDpid : Option Int)
    (answers : Nat → Answers) {m : TopologyManager} (h : m.ExactTables) :
    EState.EndsIn TopologyManager.ExactTables
      (installInitialRoutes shortestPath onlyDpid answers) m :=
  installRoutes_exactTables answers _ 0 0 h

/-- Re-adoption leaves the switch, or empties it before it installs routes. -/
theorem readoptSwitch_exactTables (shortestPath : ShortestPath) (dpid : Int) (env : ReadoptEnv)
    {m : TopologyManager} (h : m.ExactTables) :
    EState.EndsIn TopologyManager.ExactTables (readoptSwitch shortestPath dpid env) m := by
  unfold readoptSwitch
  apply EState.endsIn_get_bind
  cases m.switches.lookup dpid with
  | none => exact h
  | some switch =>
    simp only
    split
    · exact h
    · exact h
    split
    · exact h
    split
    · exact h
    -- The pipeline is pushed with empty tables, and the routes are written into these.
    show EState.EndsIn _ (installInitialRoutes shortestPath (some dpid) env.answers >>= _)
      (m.withSwitch dpid switch.pushPipeline)
    have hempty : switch.pushPipeline.Exact := exact_empty
    have hpushed := exactTables_withSwitch h dpid hempty
    apply EState.endsIn_bind
      (installInitialRoutes_exactTables shortestPath (some dpid) env.answers hpushed)
    intro result m' h'
    split
    · exact h'
    · exact h'

/-- One operation. -/
theorem RouteOp.step_exactTables (shortestPath : ShortestPath) (m : TopologyManager)
    (op : RouteOp) (h : m.ExactTables) : (op.step shortestPath m).ExactTables := by
  cases op with
  | routeFlow dpid matchDict actions priority answers =>
    exact routeFlow_exactTables h dpid matchDict actions priority answers
  | unrouteFlow dpid matchDict priority answers =>
    exact unrouteFlow_exactTables h dpid matchDict priority answers
  | modifyFlow dpid matchDict actions priority answers =>
    exact modifyFlow_exactTables h dpid matchDict actions priority answers
  | installInitialRoutes onlyDpid answers =>
    exact installInitialRoutes_exactTables shortestPath onlyDpid answers h
  | readoptSwitch dpid env => exact readoptSwitch_exactTables shortestPath dpid env h
  | learn net lastProbe watchdog => exact h

/-- Every run, from switches whose tables are empty. -/
theorem exactTables_run (shortestPath : ShortestPath) {m : TopologyManager}
    (hempty : ∀ dpid switch, m.switches.lookup dpid = some switch → switch = {})
    (ops : List RouteOp) : (GuardedRun.run (RouteOp.step shortestPath) m ops).ExactTables := by
  apply GuardedRun.run_of_step _ (fun m op => RouteOp.step_exactTables shortestPath m op)
  intro dpid switch hswitch
  rw [hempty dpid switch hswitch]
  exact exact_empty

end Ndtwin.Proxy

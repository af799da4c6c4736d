import Ndtwin.ForStd.Mirror
import Ndtwin.ForStd.Run
import Ndtwin.Proxy.TopologyManager
import Ndtwin.Spec.P4ClientCorrect

/-!
# Installed Routes Correctness

`_installed_routes` should say which `ipv4_lpm` entries the switches hold. Every operation
writes to the switch first and to the record only when the switch accepted, so the two agree
as long as a record and an entry are written, or removed, together. They come apart in three
ways: re-adoption empties a switch and does not touch its record; a destination is recorded as
it was spelled, while the switch knows its address; and a delete answered with `NOT_FOUND` is
taken for done.

## Key results

- `routeFlow_changes`, `unrouteFlow_changes`, `modifyFlow_changes`: one request
- `isOk_installRoutes_iff`, `installRoutes_mirrored`: the loop over all routes
- `record_matches_switches`: every run that avoids the three ways
-/

namespace Ndtwin.Proxy

open Mirror

/-! ## Views -/

/-- The entry that a recorded route stands for. -/
def routeAddr (r : Int × String) : Option (Int × LpmKey) :=
  match inetAton r.2 with
  | .ok value => some (r.1, { value := value, prefixLen := 32 })
  | .error _ => none

namespace TopologyManager

/-- The recorded port of a destination at a switch. -/
def recorded (m : TopologyManager) (r : Int × String) : Option Int := m.installedRoutes.lookup r

/-- The port of an `ipv4_lpm` entry of a switch. -/
def present (m : TopologyManager) (r : Int × LpmKey) : Option Int :=
  ((m.switches.lookup r.1).bind fun switch => switch.ipv4Lpm.lookup r.2).map fun action =>
    (Python.fromBytes action.port : Int)

/-- Another content of a switch. -/
def withSwitch (m : TopologyManager) (dpid : Int) (switch : P4Switch) : TopologyManager :=
  { m with switches := m.switches.set dpid switch }

/-- The record says exactly which entries the switches hold, and their ports. -/
def RoutesMirrored (m : TopologyManager) : Prop := Mirrors routeAddr m.recorded m.present

end TopologyManager

/-- Neither the record nor an entry changed. -/
def SameRoutes (m m' : TopologyManager) : Prop :=
  (∀ r, m'.recorded r = m.recorded r) ∧ ∀ r, m'.present r = m.present r

theorem SameRoutes.refl (m : TopologyManager) : SameRoutes m m := ⟨fun _ => rfl, fun _ => rfl⟩

/-- One route was written, or removed, in the record and at its switch. -/
def Writes (m m' : TopologyManager) (r : Int × String) (port : Option Int) : Prop :=
  ∃ a, routeAddr r = some a ∧ (∀ r', m'.recorded r' = if r' = r then port else m.recorded r') ∧
    ∀ a', m'.present a' = if a' = a then port else m.present a'

/-- A request changes nothing, or one route among its targets. -/
def Changes (m m' : TopologyManager) (targets : Set (Int × String)) : Prop :=
  SameRoutes m m' ∨ ∃ r ∈ targets, ∃ port, Writes m m' r port

/-- No address is spelled in two ways among these routes of a switch. -/
def OneSpelling (names : Set (Int × String)) : Prop :=
  ∀ r ∈ names, ∀ r' ∈ names, ∀ a, routeAddr r = some a → routeAddr r' = some a → r = r'

/-- The routes that are recorded. -/
def TopologyManager.names (m : TopologyManager) : Set (Int × String) :=
  {r | m.recorded r ≠ none}

theorem alone_of_oneSpelling {m : TopologyManager} {names : Set (Int × String)}
    (hnames : OneSpelling names) (hsub : m.names ⊆ names) {r : Int × String} (hr : r ∈ names)
    {a : Int × LpmKey} (ha : routeAddr r = some a) : Alone routeAddr m.recorded r :=
  fun r' hr' heq => hnames r' (hsub hr') r hr a (heq.trans ha) ha

section Mirrored

variable {m m' : TopologyManager} {stale : Set (Int × String)} {names : Set (Int × String)}

theorem SameRoutes.mirrored (h : SameRoutes m m')
    (hm : MirrorsExcept routeAddr stale m.recorded m.present) :
    MirrorsExcept routeAddr stale m'.recorded m'.present :=
  hm.congr h.1 h.2

theorem Writes.mirrored {r : Int × String} {port : Option Int} (h : Writes m m' r port)
    (hnames : OneSpelling names) (hsub : m.names ⊆ names) (hr : r ∈ names)
    (hm : MirrorsExcept routeAddr stale m.recorded m.present) :
    MirrorsExcept routeAddr (stale \ {r}) m'.recorded m'.present := by
  obtain ⟨a, ha, hrecorded, hpresent⟩ := h
  exact hm.write ha (alone_of_oneSpelling hnames hsub hr ha) hrecorded hpresent

theorem Changes.mirrored {targets : Set (Int × String)} (h : Changes m m' targets)
    (hnames : OneSpelling (m.names ∪ targets)) (hm : m.RoutesMirrored) : m'.RoutesMirrored := by
  rcases h with hsame | ⟨r, hr, port, hwrites⟩
  · exact hsame.mirrored hm
  · -- the route that is written was not stale, and no other route has its address
    have hafter := hwrites.mirrored hnames Set.subset_union_left (Or.inr hr) hm
    rw [Set.empty_sdiff] at hafter
    exact hafter

end Mirrored

/-! ## Client calls of the manager -/

section OnSwitch

variable {α : Type} {dpid : Int} {call : ClientM α} {m : TopologyManager} {switch : P4Switch}

theorem onSwitch_of_ok (hswitch : m.switches.lookup dpid = some switch) {a : α}
    {switch' : P4Switch} (h : call switch = .ok a switch') :
    onSwitch dpid call m = .ok a (m.withSwitch dpid switch') := by
  unfold onSwitch
  rw [hswitch]
  simp only [h, TopologyManager.withSwitch]

theorem onSwitch_of_error (hswitch : m.switches.lookup dpid = some switch) {e : Python.Error}
    {switch' : P4Switch} (h : call switch = .error e switch') :
    onSwitch dpid call m = .error (.python e) (m.withSwitch dpid switch') := by
  unfold onSwitch
  rw [hswitch]
  simp only [h, TopologyManager.withSwitch]

end OnSwitch

theorem py_bind {α β : Type} {x : Except Python.Error α} {a : α} (h : x = .ok a)
    (f : α → RouteM β) (m : TopologyManager) : (py x >>= f) m = f a m := by
  subst h
  rfl

/-- A client call that returned, as the manager sees it. -/
theorem exists_of_onSwitch_ok {α : Type} {dpid : Int} {call : ClientM α} {m m' : TopologyManager}
    {a : α} (h : onSwitch dpid call m = .ok a m') :
    ∃ switch switch', m.switches.lookup dpid = some switch ∧ call switch = .ok a switch' ∧
      m' = m.withSwitch dpid switch' := by
  unfold onSwitch at h
  cases hswitch : m.switches.lookup dpid with
  -- an unknown switch raises
  | none =>
    rw [hswitch] at h
    exact nomatch h
  | some switch =>
    rw [hswitch] at h
    cases hcall : call switch with
    | ok a' switch' =>
      simp only [hcall] at h
      cases h
      exact ⟨switch, switch', rfl, hcall, rfl⟩
    | error e switch' =>
      simp only [hcall] at h
      exact nomatch h

/-- The entries after a change of one switch. -/
theorem present_withSwitch (m : TopologyManager) (dpid : Int) (switch : P4Switch)
    (r : Int × LpmKey) :
    (m.withSwitch dpid switch).present r =
      if r.1 = dpid then
        (switch.ipv4Lpm.lookup r.2).map fun action => (Python.fromBytes action.port : Int)
      else m.present r := by
  unfold TopologyManager.present TopologyManager.withSwitch
  simp only [AssocMap.lookup_set]
  split
  · rw [Option.bind_some]
  · rfl

/-- One entry of one switch was written, or removed. -/
theorem present_withSwitch_write {m : TopologyManager} {dpid : Int} {switch switch' : P4Switch}
    (hswitch : m.switches.lookup dpid = some switch) {key : LpmKey} {action : Option Forward}
    (htable : ∀ k, switch'.ipv4Lpm.lookup k =
      if k = key then action else switch.ipv4Lpm.lookup k) (r : Int × LpmKey) :
    (m.withSwitch dpid switch').present r =
      if r = (dpid, key) then action.map fun action => (Python.fromBytes action.port : Int)
      else m.present r := by
  obtain ⟨d, k⟩ := r
  rw [present_withSwitch]
  simp only [Prod.mk.injEq]
  by_cases hd : d = dpid
  · subst hd
    rw [if_pos rfl, htable]
    by_cases hk : k = key
    · rw [if_pos hk, if_pos ⟨rfl, hk⟩]
    · -- another entry of the same switch
      rw [if_neg hk, if_neg fun h => hk h.2]
      unfold TopologyManager.present
      rw [hswitch, Option.bind_some]
  · rw [if_neg hd, if_neg fun h => hd h.1]

/-- A switch whose routes are as they were. -/
theorem sameRoutes_withSwitch {m : TopologyManager} {dpid : Int} {switch switch' : P4Switch}
    (hswitch : m.switches.lookup dpid = some switch) (h : switch'.ipv4Lpm = switch.ipv4Lpm) :
    SameRoutes m (m.withSwitch dpid switch') := by
  refine ⟨fun r => rfl, fun r => ?_⟩
  rw [present_withSwitch]
  split
  · next heq =>
    unfold TopologyManager.present
    rw [heq, hswitch, Option.bind_some, h]
  · rfl

/-- The key of an encoded request is the address of its destination. -/
theorem routeAddr_of_inetAtonValue {dst : String} {value : List UInt8}
    (h : inetAtonValue (.str dst) = .ok value) (dpid : Int) :
    routeAddr (dpid, dst) = some (dpid, ⟨value, 32⟩) := by
  have haddress : inetAton dst = .ok value := h
  simp only [routeAddr, haddress]

/-- An accepted route, written at its switch and then recorded. -/
theorem writes_of_insert {m : TopologyManager} {dpid : Int} {switch : P4Switch}
    (hswitch : m.switches.lookup dpid = some switch) {dst : String} {mac : String} {out : Json}
    {key : LpmKey} {action : Forward}
    (hentry : routeEntry (.str dst) 32 mac out = .ok (key, action)) :
    Writes m (EState.finalState (recordRoute dpid (.str dst) out)
      (m.withSwitch dpid { switch with ipv4Lpm := switch.ipv4Lpm.insert key action })) (dpid, dst)
      (some (Python.fromBytes action.port : Int)) := by
  obtain ⟨hvalue, hprefix, hport⟩ := routeEntry_ok hentry
  have hkey : key = ⟨key.value, 32⟩ := by rw [← hprefix]
  refine ⟨(dpid, key), ?_, ?_, ?_⟩
  · rw [routeAddr_of_inetAtonValue hvalue, ← hkey]
  · intro r
    simp only [recordRoute, hport]
    show (m.installedRoutes.set (dpid, dst) _).lookup r = _
    rw [AssocMap.lookup_set]
    rfl
  · intro r
    simp only [recordRoute, hport]
    exact @present_withSwitch_write m dpid switch
      { switch with ipv4Lpm := switch.ipv4Lpm.insert key action } hswitch key (some action)
      (fun k => AssocMap.lookup_insert_eq switch.ipv4Lpm key k action) r

/-- The routes a request to `ipv4_lpm` is about. -/
def routeTarget (dpid : Int) (ipv4Dst : Json) : Set (Int × String) :=
  {r | r.1 = dpid ∧ ipv4Dst = .str r.2}

/-- A call that answers `False` or raises leaves the entries, and nothing is recorded. -/
theorem sameRoutes_of_refused {m : TopologyManager} {dpid : Int} {switch : P4Switch}
    (hswitch : m.switches.lookup dpid = some switch) {call : ClientM Bool}
    (hcall : (∃ e, call switch = .error e switch) ∨ call switch = .ok false switch)
    {recorded : RouteM Unit} :
    SameRoutes m (EState.finalState (do
      let success ← onSwitch dpid call
      if success then do
        recorded
        return true
      else return false) m) := by
  rcases hcall with ⟨e, he⟩ | hfalse
  · have hrun := onSwitch_of_error hswitch he
    rw [EState.finalState, EState.bind_of_error hrun]
    exact sameRoutes_withSwitch hswitch rfl
  · have hrun := onSwitch_of_ok hswitch hfalse
    rw [EState.finalState, EState.bind_of_ok hrun]
    exact sameRoutes_withSwitch hswitch rfl

/-- A call that stores a route, and the record of it. -/
theorem storeRoute_changes {m : TopologyManager} {dpid : Int} {switch : P4Switch}
    (hswitch : m.switches.lookup dpid = some switch) {ipv4Dst : Json} {mac : String} {out : Json}
    {call : ClientM Bool} (hcall : StoresRoute call (routeEntry ipv4Dst 32 mac out)) :
    Changes m (EState.finalState (do
      let success ← onSwitch dpid call
      if success then do
        recordRoute dpid ipv4Dst out
        return true
      else return false) m) (routeTarget dpid ipv4Dst) := by
  rcases hcall switch with ⟨e, -, he⟩ | hfalse | ⟨key, action, hentry, htrue⟩
  · exact Or.inl (sameRoutes_of_refused hswitch (Or.inl ⟨e, he⟩))
  · exact Or.inl (sameRoutes_of_refused hswitch (Or.inr hfalse))
  · have hrun := onSwitch_of_ok hswitch htrue
    obtain ⟨dst, rfl, -⟩ := inetAtonValue_ok (routeEntry_ok hentry).1
    have hwrites := writes_of_insert hswitch hentry
    rw [EState.finalState, EState.bind_of_ok hrun, if_pos rfl, ← EState.finalState,
      EState.finalState_bind_of_keeps fun _ _ => rfl]
    exact Or.inr ⟨(dpid, dst), ⟨rfl, rfl⟩, _, hwrites⟩

/-- A delete, and the withdrawal of the record. -/
theorem deleteRoute_changes {m : TopologyManager} {dpid : Int} {switch : P4Switch}
    (hswitch : m.switches.lookup dpid = some switch) {ipv4Dst : Json} {answers : Answers}
    (htruthful : ∀ value, inetAtonValue ipv4Dst = .ok value →
      TruthfulDelete answers ⟨value, 32⟩ switch) :
    Changes m (EState.finalState (do
      let success ← onSwitch dpid (deleteIpv4Route ipv4Dst 32 answers)
      if success then do
        withdrawRoute dpid ipv4Dst
        return true
      else return false) m) (routeTarget dpid ipv4Dst) := by
  rcases deleteIpv4Route_spec ipv4Dst 32 answers switch htruthful with
    ⟨e, he⟩ | hfalse | ⟨value, table, hvalue, htrue, htable⟩
  · exact Or.inl (sameRoutes_of_refused hswitch (Or.inl ⟨e, he⟩))
  · exact Or.inl (sameRoutes_of_refused hswitch (Or.inr hfalse))
  · have hrun := onSwitch_of_ok hswitch htrue
    -- the entry is gone, and the record of the same destination goes with it
    obtain ⟨dst, rfl, -⟩ := inetAtonValue_ok hvalue
    rw [EState.finalState, EState.bind_of_ok hrun]
    refine Or.inr ⟨(dpid, dst), ⟨rfl, rfl⟩, none, (dpid, ⟨value, 32⟩),
      routeAddr_of_inetAtonValue hvalue dpid, ?_, ?_⟩
    · intro r
      exact AssocMap.lookup_erase_eq m.installedRoutes (dpid, dst) r
    · intro r
      exact @present_withSwitch_write m dpid switch { switch with ipv4Lpm := table } hswitch
        ⟨value, 32⟩ none htable r

/-- A call that leaves the routes of its switch. -/
theorem onSwitch_sameRoutes {m : TopologyManager} {dpid : Int} {switch : P4Switch}
    (hswitch : m.switches.lookup dpid = some switch) {α : Type} {call : ClientM α}
    (hkeeps : EState.Keeps P4Switch.ipv4Lpm call) :
    SameRoutes m (EState.finalState (onSwitch dpid call) m) := by
  have hview := hkeeps switch
  cases hcall : call switch with
  | ok a switch' =>
    rw [EState.finalState_of_ok hcall] at hview
    rw [EState.finalState_of_ok (onSwitch_of_ok hswitch hcall)]
    exact sameRoutes_withSwitch hswitch hview
  | error e switch' =>
    rw [EState.finalState_of_error hcall] at hview
    rw [EState.finalState_of_error (onSwitch_of_error hswitch hcall)]
    exact sameRoutes_withSwitch hswitch hview

/-! ## Requests -/

/-- A request that raises before it writes ends where it started. -/
theorem endsIn_py_bind {α β : Type} {P : TopologyManager → Prop} {x : Except Python.Error α}
    {f : α → RouteM β} {m : TopologyManager} (herror : P m)
    (hok : ∀ a, x = .ok a → EState.EndsIn P (f a) m) : EState.EndsIn P (py x >>= f) m := by
  cases x with
  | error e => exact herror
  | ok a => exact hok a rfl

/-- A known switch has tables. -/
theorem knownDpid_ok {m : TopologyManager} {v : Json} {dpid : Int}
    (h : knownDpid m v = .ok (some dpid)) : ∃ switch, m.switches.lookup dpid = some switch := by
  have hfilter : (integerKey? v).filter (fun n => (m.switches.lookup n).isSome) = some dpid := by
    unfold knownDpid at h
    split at h
    · exact nomatch h
    · exact nomatch h
    · exact Except.ok.inj h
  rw [Option.filter_eq_some_iff] at hfilter
  exact Option.isSome_iff_exists.mp hfilter.2

/-- The fields of a match that passed the checks. -/
theorem endsIn_checkedMatch_bind {β : Type} {P : TopologyManager → Prop} {matchDict : Json}
    {action : String} {f : List (String × Json) → RouteM β} {m : TopologyManager} (herror : P m)
    (hok : ∀ fields, matchDict = .obj fields → EState.EndsIn P (f fields) m) :
    EState.EndsIn P (checkedMatch matchDict action >>= f) m := by
  -- the checks raise, or leave the fields; only a null match raises behind them
  have hcheck : checkedMatch matchDict action m = .error (.python .attributeError) m ∨
      (∃ e, checkedMatch matchDict action m = .error e m) ∨
      ∃ fields, matchDict = .obj fields ∧ checkedMatch matchDict action m = .ok fields m := by
    unfold checkedMatch
    cases hrefuse : refuseUnsupported matchDict with
    | error e => exact Or.inr (Or.inl ⟨e, rfl⟩)
    | ok _ =>
      cases hvalues : checkMatchValues matchDict action with
      | error e => exact Or.inr (Or.inl ⟨e, rfl⟩)
      | ok _ =>
        cases matchDict with
        | obj fields => exact Or.inr (Or.inr ⟨fields, rfl, rfl⟩)
        | _ => exact Or.inl rfl
  unfold EState.EndsIn
  rcases hcheck with herr | ⟨e, herr⟩ | ⟨fields, hfields, hrun⟩
  · rw [EState.finalState_of_error (EState.bind_of_error herr f)]
    exact herror
  · rw [EState.finalState_of_error (EState.bind_of_error herr f)]
    exact herror
  · rw [EState.finalState, EState.bind_of_ok hrun]
    exact hok fields hfields

/-- The routes that a flow request may write: none when it goes to the 5-tuple table. -/
def flowTargets (m : TopologyManager) (dpid matchDict : Json) : Set (Int × String) :=
  {r | knownDpid m dpid = .ok (some r.1) ∧ needsFiveTuple matchDict = false ∧
    ∃ fields, matchDict = .obj fields ∧ ipv4DstOf fields = .str r.2}

theorem Changes.mono {m m' : TopologyManager} {targets targets' : Set (Int × String)}
    (h : Changes m m' targets) (hsub : targets ⊆ targets') : Changes m m' targets' := by
  rcases h with hsame | ⟨r, hr, port, hwrites⟩
  · exact Or.inl hsame
  · exact Or.inr ⟨r, hsub hr, port, hwrites⟩

section Requests

variable (m : TopologyManager) (dpid matchDict actions priority : Json) (answers : Answers)

theorem routeTarget_subset {d : Int} (hknown : knownDpid m dpid = .ok (some d))
    {fields : List (String × Json)} (hfields : matchDict = .obj fields)
    (hlpm : needsFiveTuple matchDict = false) :
    routeTarget d (ipv4DstOf fields) ⊆ flowTargets m dpid matchDict := by
  intro r hr
  obtain ⟨hd, hdst⟩ := hr
  exact ⟨by rw [hknown, hd], hlpm, fields, hfields, hdst⟩

/-- A request that stores an entry: `route_flow` and `modify_flow` differ in their calls only. -/
theorem endsIn_storing {P : TopologyManager → Prop} (hrefused : P m) (action : String)
    (call5tuple : AssocMap P4Field Json → String → Json → ClientM Bool)
    (callLpm : Json → String → Json → ClientM Bool)
    (hfive : ∀ d switch fields keys mac out, m.switches.lookup d = some switch →
      matchDict = .obj fields → needsFiveTuple matchDict = true →
      fiveTupleKeys fields = .ok keys → EState.EndsIn P (onSwitch d (call5tuple keys mac out)) m)
    (hlpm : ∀ d switch fields mac out, m.switches.lookup d = some switch →
      routeTarget d (ipv4DstOf fields) ⊆ flowTargets m dpid matchDict → EState.EndsIn P (do
        let success ← onSwitch d (callLpm (ipv4DstOf fields) mac out)
        if success then do
          recordRoute d (ipv4DstOf fields) out
          return true
        else return false) m) :
    EState.EndsIn P (do
      let m ← get
      match ← py (knownDpid m dpid) with
      | none => return false
      | some dpid => do
        let fields ← checkedMatch matchDict action
        let ipv4Dst := ipv4DstOf fields
        match ← py (outPort actions) with
        | .null => return false
        | out =>
          if needsFiveTuple matchDict then do
            let keys ← EState.ofExcept (fiveTupleKeys fields)
            let mac ← py (nextHopMac5tuple m.net ipv4Dst)
            onSwitch dpid (call5tuple keys mac out)
          else if Python.truthy ipv4Dst then do
            let mac ← py (nextHopMac m.net ipv4Dst)
            let success ← onSwitch dpid (callLpm ipv4Dst mac out)
            if success then do
              recordRoute dpid ipv4Dst out
              return true
            else return false
          else return false) m := by
  apply EState.endsIn_get_bind
  apply endsIn_py_bind hrefused
  intro known hknown
  cases known with
  -- an unknown switch answers `False` before anything is checked
  | none => exact hrefused
  | some d =>
    obtain ⟨switch, hswitch⟩ := knownDpid_ok hknown
    apply endsIn_checkedMatch_bind hrefused
    intro fields hfields
    apply endsIn_py_bind hrefused
    intro out hout
    split
    · exact hrefused
    split
    · -- to the 5-tuple table
      next hneeds =>
      apply EState.endsIn_ofExcept_bind
      · exact hrefused
      intro keys hkeys
      apply endsIn_py_bind hrefused
      intro mac hmac
      exact hfive d switch fields keys mac out hswitch hfields hneeds hkeys
    · next hneeds =>
      split
      · apply endsIn_py_bind hrefused
        intro mac hmac
        have hsub := routeTarget_subset m dpid matchDict hknown hfields (Bool.eq_false_iff.mpr hneeds)
        exact hlpm d switch fields mac out hswitch hsub
      · exact hrefused

theorem routeFlow_changes :
    EState.EndsIn (fun m' => Changes m m' (flowTargets m dpid matchDict))
      (routeFlow dpid matchDict actions priority answers) m := by
  unfold routeFlow
  apply endsIn_storing m dpid matchDict actions (Or.inl (SameRoutes.refl m)) "installed"
    (fun keys mac out => insert5tupleRule keys (p4Priority priority) mac out answers)
    (fun ipv4Dst mac out => insertIpv4Route ipv4Dst 32 mac out answers)
  · -- the 5-tuple table holds no recorded route
    intro d switch fields keys mac out hswitch _ _ _
    exact Or.inl (onSwitch_sameRoutes hswitch (keeps_ipv4Lpm_insert5tupleRule _ _ _ _ _))
  · intro d switch fields mac out hswitch hsub
    have hchange := storeRoute_changes hswitch
      (insertIpv4Route_spec (ipv4DstOf fields) 32 mac out answers)
    exact hchange.mono hsub

theorem modifyFlow_changes :
    EState.EndsIn (fun m' => Changes m m' (flowTargets m dpid matchDict))
      (modifyFlow dpid matchDict actions priority answers) m := by
  unfold modifyFlow
  apply endsIn_storing m dpid matchDict actions (Or.inl (SameRoutes.refl m)) "modified"
    (fun keys mac out => modify5tupleRule keys (p4Priority priority) mac out answers)
    (fun ipv4Dst mac out => modifyIpv4Route ipv4Dst 32 mac out answers)
  · -- the 5-tuple table holds no recorded route
    intro d switch fields keys mac out hswitch _ _ _
    exact Or.inl (onSwitch_sameRoutes hswitch (keeps_ipv4Lpm_modify5tupleRule _ _ _ _ _))
  · intro d switch fields mac out hswitch hsub
    have hchange := storeRoute_changes hswitch
      (modifyIpv4Route_spec (ipv4DstOf fields) 32 mac out answers)
    exact hchange.mono hsub

/-- The switch of a request says `NOT_FOUND` only of an entry that is not there. -/
def TruthfulUnroute : Prop :=
  ∀ r ∈ flowTargets m dpid matchDict, ∀ switch, m.switches.lookup r.1 = some switch →
    ∀ value, inetAton r.2 = .ok value → TruthfulDelete answers ⟨value, 32⟩ switch

theorem unrouteFlow_changes (htruthful : TruthfulUnroute m dpid matchDict answers) :
    EState.EndsIn (fun m' => Changes m m' (flowTargets m dpid matchDict))
      (unrouteFlow dpid matchDict priority answers) m := by
  have hsame : Changes m m (flowTargets m dpid matchDict) := Or.inl (SameRoutes.refl m)
  unfold unrouteFlow
  apply EState.endsIn_get_bind
  apply endsIn_py_bind hsame
  intro known hknown
  cases known with
  | none => exact hsame
  | some d =>
    obtain ⟨switch, hswitch⟩ := knownDpid_ok hknown
    apply endsIn_checkedMatch_bind hsame
    intro fields hfields
    simp only
    split
    · apply EState.endsIn_ofExcept_bind
      · exact hsame
      intro keys hkeys
      exact Or.inl (onSwitch_sameRoutes hswitch (keeps_ipv4Lpm_delete5tupleRule _ _ _))
    · next hlpm =>
      have hsub := routeTarget_subset m dpid matchDict hknown hfields
        (Bool.eq_false_iff.mpr hlpm)
      split
      · -- the delete is about a target of the request, so its answer is truthful
        have hdelete : ∀ value, inetAtonValue (ipv4DstOf fields) = .ok value →
            TruthfulDelete answers ⟨value, 32⟩ switch := by
          intro value hvalue
          obtain ⟨dst, hdst, haddress⟩ := inetAtonValue_ok hvalue
          exact htruthful (d, dst) (hsub ⟨rfl, hdst⟩) switch hswitch value haddress
        exact (deleteRoute_changes hswitch hdelete).mono hsub
      · exact hsame

end Requests

/-! ## All routes -/

/-- The route that a pass of the loop is about. -/
def taskName (task : RouteTask) : Option (Int × String) :=
  match task.src, task.dst with
  | .dpid d, .ip s => some (d, s)
  | _, _ => none

/-- The routes that the loop is about. -/
def planned (tasks : List RouteTask) : Set (Int × String) :=
  {r | ∃ task ∈ tasks, taskName task = some r}

/-- A pass that does not raise. -/
def Encodes (m : TopologyManager) (task : RouteTask) : Prop :=
  ∃ route entry, planRoute m task = .ok route ∧
    routeEntry route.dst 32 route.mac (.int route.outPort) = .ok entry

/-- The graph is the same, and so are the switches that are known. -/
def SameFrame (m m' : TopologyManager) : Prop :=
  m'.net = m.net ∧ ∀ d, (m'.switches.lookup d).isSome = (m.switches.lookup d).isSome

theorem SameFrame.planRoute {m m' : TopologyManager} (h : SameFrame m m') (task : RouteTask) :
    planRoute m' task = planRoute m task := by
  -- a plan looks at the graph and at which switches there are, and at nothing else
  unfold Proxy.planRoute
  rw [h.1]
  cases nextNode task.src task.path with
  | error e => rfl
  | ok next =>
    rw [EState.ok_bind, EState.ok_bind]
    cases m.net.edges.lookup (task.src, next) with
    | none => rfl
    | some outPort =>
      cases task.src with
      | ip s => rfl
      | dpid d =>
        have hd := h.2 d
        simp only
        cases hlookup : m.switches.lookup d with
        | none =>
          rw [hlookup, Option.isSome_none, Option.isSome_eq_false_iff, Option.isNone_iff_eq_none]
            at hd
          rw [hd]
        | some switch =>
          rw [hlookup, Option.isSome_some] at hd
          obtain ⟨switch', hswitch'⟩ := Option.isSome_iff_exists.mp hd
          rw [hswitch']

theorem SameFrame.encodes {m m' : TopologyManager} (h : SameFrame m m') (task : RouteTask) :
    Encodes m' task ↔ Encodes m task := by
  unfold Encodes
  rw [h.planRoute]

/-- What a route says of the pass it comes from. -/
theorem planRoute_ok {m : TopologyManager} {task : RouteTask} {route : PlannedRoute}
    (h : planRoute m task = .ok route) :
    task.src = .dpid route.dpid ∧ (∃ switch, m.switches.lookup route.dpid = some switch) ∧
      ∀ s, route.dst = .str s → task.dst = .ip s := by
  unfold planRoute at h
  obtain ⟨next, -, h⟩ := EState.bind_eq_ok h
  split at h
  · exact nomatch h
  · exact nomatch h
  · next outPort d hedge hsrc =>
    split at h
    · exact nomatch h
    · next switch hswitch =>
      cases h
      refine ⟨hsrc, ⟨switch, hswitch⟩, ?_⟩
      intro s hs
      simp only at hs
      split at hs
      · exact nomatch hs
      · next s' hdst =>
        rw [hdst, Json.str.inj hs]

theorem sameFrame_withSwitch {m : TopologyManager} {dpid : Int} {switch : P4Switch}
    (hswitch : m.switches.lookup dpid = some switch) (switch' : P4Switch) :
    SameFrame m (m.withSwitch dpid switch') := by
  refine ⟨rfl, fun d => ?_⟩
  show ((m.switches.set dpid switch').lookup d).isSome = _
  rw [AssocMap.lookup_set]
  split
  · next heq => rw [heq, hswitch, Option.isSome_some, Option.isSome_some]
  · rfl

theorem sameFrame_recordRoute (m : TopologyManager) (dpid : Int) (ipv4Dst out : Json) :
    SameFrame m (EState.finalState (recordRoute dpid ipv4Dst out) m) := by
  unfold recordRoute
  split
  · exact ⟨rfl, fun _ => rfl⟩
  · exact ⟨rfl, fun _ => rfl⟩

theorem SameFrame.trans {m₁ m₂ m₃ : TopologyManager} (h : SameFrame m₁ m₂)
    (h' : SameFrame m₂ m₃) : SameFrame m₁ m₃ :=
  ⟨h'.1.trans h.1, fun d => (h'.2 d).trans (h.2 d)⟩

/-- A pass ends the loop by an exception, leaves the routes, or writes its own route. A write
    that the switch does not refuse is left out only when the entry is there already. -/
theorem installRoutes_pass (answers : Nat → Answers) (installed attempted : Nat)
    (task : RouteTask) (tasks : List RouteTask) (m : TopologyManager) :
    (∃ e m', installRoutes answers installed attempted (task :: tasks) m = .error e m' ∧
      SameRoutes m m' ∧ ¬ Encodes m task) ∨
    ∃ installed' m', installRoutes answers installed attempted (task :: tasks) m =
        installRoutes answers installed' (attempted + 1) tasks m' ∧ SameFrame m m' ∧
      Encodes m task ∧ ((SameRoutes m m' ∧ ∀ r a, taskName task = some r → routeAddr r = some a →
          (answers attempted).insert = none → m.present a ≠ none) ∨
        ∃ r port, taskName task = some r ∧ Writes m m' r port) := by
  rw [installRoutes, EState.get_bind]
  cases hplan : planRoute m task with
  -- the pass raises before it gets to a switch
  | error e =>
    refine Or.inl ⟨.python e, m, rfl, SameRoutes.refl m, ?_⟩
    intro ⟨route, entry, hroute, _⟩
    rw [hplan] at hroute
    exact nomatch hroute
  | ok route =>
    obtain ⟨hsrc, ⟨switch, hswitch⟩, hdst⟩ := planRoute_ok hplan
    rw [py_bind rfl]
    have hspec := insertIpv4Route_spec route.dst 32 route.mac (.int route.outPort)
      (answers attempted) switch
    -- the call raises, is refused, or stores the entry
    rcases hspec with ⟨e, herror, hcall⟩ | hcall | ⟨key, action, hentry, hcall⟩
    · rw [EState.bind_of_error (onSwitch_of_error hswitch hcall)]
      refine Or.inl ⟨_, _, rfl, sameRoutes_withSwitch hswitch rfl, ?_⟩
      intro ⟨route', entry, hroute', hentry⟩
      rw [hplan] at hroute'
      cases hroute'
      rw [herror] at hentry
      exact nomatch hentry
    · rw [EState.bind_of_ok (onSwitch_of_ok hswitch hcall)]
      obtain ⟨key, action, hentry, hpresent⟩ := insertIpv4Route_false _ _ _ _ _ hcall
      refine Or.inr ⟨installed, _, rfl, sameFrame_withSwitch hswitch switch,
        ⟨route, _, hplan, hentry⟩, Or.inl ⟨sameRoutes_withSwitch hswitch rfl, ?_⟩⟩
      intro r a hr ha hanswer
      -- the address of the route is the key of the entry that is there
      obtain ⟨hvalue, hprefix, -⟩ := routeEntry_ok hentry
      obtain ⟨dst, hstr, haddress⟩ := inetAtonValue_ok hvalue
      rw [taskName, hsrc, hdst dst hstr] at hr
      cases hr
      have hkey : a = (route.dpid, key) := by
        simp only [routeAddr, haddress, Option.some.injEq] at ha
        rw [← ha, ← hprefix]
      obtain ⟨entry, hlookup⟩ := AssocMap.exists_of_mem (hpresent hanswer)
      rw [hkey, TopologyManager.present, hswitch, Option.bind_some, hlookup]
      exact nofun
    · rw [EState.bind_of_ok (onSwitch_of_ok hswitch hcall)]
      obtain ⟨dst, hstr, -⟩ := inetAtonValue_ok (routeEntry_ok hentry).1
      have hencodes : Encodes m task := ⟨route, _, hplan, hentry⟩
      have hname : taskName task = some (route.dpid, dst) := by
        rw [taskName, hsrc, hdst dst hstr]
      rw [hstr] at hentry
      have hwrites := writes_of_insert hswitch hentry
      have hrecord : recordRoute route.dpid route.dst (.int route.outPort) (m.withSwitch route.dpid
          { switch with ipv4Lpm := switch.ipv4Lpm.insert key action }) =
          .ok () (EState.finalState (recordRoute route.dpid (.str dst) (.int route.outPort))
            (m.withSwitch route.dpid
              { switch with ipv4Lpm := switch.ipv4Lpm.insert key action })) := by
        rw [hstr]
        rfl
      rw [if_pos rfl, EState.bind_of_ok hrecord]
      exact Or.inr ⟨installed + 1, _, rfl,
        (sameFrame_withSwitch hswitch _).trans (sameFrame_recordRoute _ _ _ _), hencodes,
        Or.inr ⟨_, _, hname, hwrites⟩⟩

/-- The loop over all routes returns when every pass of it encodes. -/
theorem isOk_installRoutes_iff (answers : Nat → Answers) (installed attempted : Nat)
    (tasks : List RouteTask) (m : TopologyManager) :
    EState.isOk (installRoutes answers installed attempted tasks m) = true ↔
      ∀ task ∈ tasks, Encodes m task := by
  induction tasks generalizing installed attempted m with
  | nil => exact iff_of_true rfl fun _ htask => absurd htask List.not_mem_nil
  | cons task tasks ih =>
    rw [List.forall_mem_cons]
    rcases installRoutes_pass answers installed attempted task tasks m with
      ⟨e, m', hrun, -, hfails⟩ | ⟨installed', m', hrun, hframe, hencodes, -⟩
    · rw [hrun]
      exact iff_of_false (fun h => nomatch h) fun h => hfails h.1
    · -- what a pass writes does not change which of the others encode
      rw [hrun, ih, and_iff_right hencodes]
      exact forall₂_congr fun t _ => hframe.encodes t

/-- The routes among the first `n` passes whose write the switch does not refuse. -/
def restored (answers : Nat → Answers) (attempted n : Nat) (tasks : List RouteTask) :
    Set (Int × String) :=
  {r | ∃ i < n, ∃ task, tasks[i]? = some task ∧ taskName task = some r ∧
    (answers (attempted + i)).insert = none}

theorem Encodes.routeAddr {m : TopologyManager} {task : RouteTask} (h : Encodes m task)
    {r : Int × String} (hr : taskName task = some r) : ∃ a, routeAddr r = some a := by
  obtain ⟨route, ⟨key, action⟩, hplan, hentry⟩ := h
  obtain ⟨hsrc, -, hdst⟩ := planRoute_ok hplan
  have hvalue := (routeEntry_ok hentry).1
  obtain ⟨dst, hstr, haddress⟩ := inetAtonValue_ok hvalue
  rw [taskName, hsrc, hdst dst hstr] at hr
  cases hr
  exact ⟨(route.dpid, ⟨key.value, 32⟩), by simp only [Proxy.routeAddr, haddress]⟩

theorem names_subset_of_writes {m m' : TopologyManager} {r : Int × String} {port : Option Int}
    (h : Writes m m' r port) {names : Set (Int × String)} (hsub : m.names ⊆ names)
    (hr : r ∈ names) : m'.names ⊆ names := by
  obtain ⟨a, -, hrecorded, -⟩ := h
  intro r' hr'
  by_cases heq : r' = r
  · exact heq ▸ hr
  · apply hsub
    intro hnone
    apply hr'
    rw [hrecorded, if_neg heq, hnone]

/-- The loop keeps record and switches together, and every route among its first passes that the
    switch takes is no longer stale. -/
theorem installRoutes_mirrored {names : Set (Int × String)} (hnames : OneSpelling names)
    (answers : Nat → Answers) (tasks : List RouteTask) (hplanned : planned tasks ⊆ names)
    (n installed attempted : Nat) (m : TopologyManager) (stale : Set (Int × String))
    (hsub : m.names ⊆ names) (hm : MirrorsExcept routeAddr stale m.recorded m.present)
    (hencodes : ∀ i < n, ∀ task, tasks[i]? = some task → Encodes m task) :
    EState.EndsIn
      (fun m' => MirrorsExcept routeAddr (stale \ restored answers attempted n tasks) m'.recorded
        m'.present) (installRoutes answers installed attempted tasks) m := by
  -- by induction on the passes: what is stale now are the routes that are still to be written
  induction tasks generalizing n installed attempted m stale with
  | nil =>
    refine hm.of_subset fun r hr _ => ⟨hr, ?_⟩
    intro ⟨i, _, task, htask, _⟩
    cases htask
  | cons task tasks ih =>
    have htail : planned tasks ⊆ names := by
      intro r ⟨t, ht, hr⟩
      exact hplanned ⟨t, List.mem_cons_of_mem task ht, hr⟩
    unfold EState.EndsIn
    rcases installRoutes_pass answers installed attempted task tasks m with
      ⟨e, m', hrun, hsame, hfails⟩ | ⟨installed', m', hrun, hframe, -, hpass⟩
    · -- an exception in this pass: it was not among the first `n`
      rw [EState.finalState_of_error hrun]
      refine (hsame.mirrored hm).of_subset fun r hr _ => ⟨hr, ?_⟩
      intro ⟨i, hi, _⟩
      exact hfails (hencodes 0 (Nat.lt_of_le_of_lt (Nat.zero_le i) hi) task rfl)
    · -- the routes that this pass makes current
      have hhere : ∃ stale', MirrorsExcept routeAddr stale' m'.recorded m'.present ∧
          m'.names ⊆ names ∧ ∀ r ∈ stale', r ∈ stale ∧
            ¬ (0 < n ∧ taskName task = some r ∧ (answers attempted).insert = none) := by
        have hmem : ∀ r, taskName task = some r → r ∈ names :=
          fun r hr => hplanned ⟨task, List.mem_cons_self, hr⟩
        rcases hpass with ⟨hsame, htaken⟩ | ⟨r, port, hname, hwrites⟩
        · have hnames' : m'.names ⊆ names := by
            intro r hr
            apply hsub
            intro hnone
            exact hr (by rw [hsame.1, hnone])
          -- a refused write is current only when the entry is there, which an honest answer says
          by_cases hone : ∃ r, 0 < n ∧ taskName task = some r ∧ (answers attempted).insert = none
          · obtain ⟨r, hn, hname, hanswer⟩ := hone
            obtain ⟨a, ha⟩ := (hencodes 0 hn task rfl).routeAddr hname
            have halone := alone_of_oneSpelling hnames hsub (hmem r hname) ha
            have hcurrent := hm.unstale ha halone (htaken r a hname ha hanswer)
            refine ⟨stale \ {r}, hsame.mirrored hcurrent, hnames', ?_⟩
            intro r' hr'
            refine ⟨hr'.1, fun h => hr'.2 ?_⟩
            exact (Option.some.inj (hname.symm.trans h.2.1)).symm
          · exact ⟨stale, hsame.mirrored hm, hnames', fun r hr => ⟨hr, fun h => hone ⟨r, h⟩⟩⟩
        · refine ⟨stale \ {r}, hwrites.mirrored hnames hsub (hmem r hname) hm,
            names_subset_of_writes hwrites hsub (hmem r hname), ?_⟩
          intro r' hr'
          refine ⟨hr'.1, fun h => hr'.2 ?_⟩
          exact (Option.some.inj (hname.symm.trans h.2.1)).symm
      obtain ⟨stale', hm', hsub', hstale'⟩ := hhere
      have hrest := ih htail (n - 1) installed' (attempted + 1) m' stale' hsub' hm' (by
        intro i hi t ht
        exact (hframe.encodes t).mpr (hencodes (i + 1) (by omega) t ht))
      rw [EState.finalState, hrun]
      refine MirrorsExcept.of_subset hrest fun r hr _ => ?_
      obtain ⟨hrstale, hnew⟩ := hr
      refine ⟨(hstale' r hrstale).1, ?_⟩
      rintro ⟨i, hi, t, ht, hname, hanswer⟩
      -- the first pass, or one of the rest
      cases i with
      | zero =>
        cases ht
        exact (hstale' r hrstale).2 ⟨hi, hname, hanswer⟩
      | succ i =>
        apply hnew
        refine ⟨i, by omega, t, ht, hname, ?_⟩
        rw [Nat.add_assoc, Nat.add_comm 1 i]
        exact hanswer

/-! ## Runs -/

/-- What happens to the proxy: the five operations, each with the answers it gets, and, between
    them, whatever else it learns about the network. -/
inductive RouteOp where
  | routeFlow (dpid matchDict actions priority : Json) (answers : Answers)
  | unrouteFlow (dpid matchDict priority : Json) (answers : Answers)
  | modifyFlow (dpid matchDict actions priority : Json) (answers : Answers)
  | installInitialRoutes (onlyDpid : Option Int) (answers : Nat → Answers)
  | readoptSwitch (dpid : Int) (env : ReadoptEnv)
  | learn (net : NetGraph) (lastProbe : AssocMap Int Bool) (watchdog : LinkWatchdog)

/-- One operation; an exception is answered by the caller, and what was done stays. -/
def RouteOp.step (shortestPath : ShortestPath) (m : TopologyManager) :
    RouteOp → TopologyManager
  | .routeFlow dpid matchDict actions priority answers =>
    EState.finalState (Proxy.routeFlow dpid matchDict actions priority answers) m
  | .unrouteFlow dpid matchDict priority answers =>
    EState.finalState (Proxy.unrouteFlow dpid matchDict priority answers) m
  | .modifyFlow dpid matchDict actions priority answers =>
    EState.finalState (Proxy.modifyFlow dpid matchDict actions priority answers) m
  | .installInitialRoutes onlyDpid answers =>
    EState.finalState (Proxy.installInitialRoutes shortestPath onlyDpid answers) m
  | .readoptSwitch dpid env =>
    EState.finalState (Proxy.readoptSwitch shortestPath dpid env) m
  | .learn net lastProbe watchdog =>
    { m with net := net, lastProbe := lastProbe, watchdog := watchdog }

/-- The passes of `install_initial_routes` in a state. -/
def tasksOf (shortestPath : ShortestPath) (m : TopologyManager) (onlyDpid : Option Int) :
    List RouteTask :=
  routeTasks m.net
    (calculateAllPaths shortestPath m.net (reroutableDownEndpoints m.watchdog m.lastProbe))
    onlyDpid

/-- Re-adoption gets as far as pushing the pipeline. -/
def ReadoptEnv.pushes (env : ReadoptEnv) : Bool :=
  env.clientFactory.isOk && env.start.isOk && env.mastershipConfirmed &&
    env.setForwardingPipelineConfig.isOk

/-- The routes an operation may write. -/
def RouteOp.targets (shortestPath : ShortestPath) (m : TopologyManager) :
    RouteOp → Set (Int × String)
  | .routeFlow dpid matchDict _ _ _ => flowTargets m dpid matchDict
  | .unrouteFlow dpid matchDict _ _ => flowTargets m dpid matchDict
  | .modifyFlow dpid matchDict _ _ _ => flowTargets m dpid matchDict
  | .installInitialRoutes onlyDpid _ => planned (tasksOf shortestPath m onlyDpid)
  | .readoptSwitch dpid _ => planned (tasksOf shortestPath m (some dpid))
  | .learn _ _ _ => ∅

/-- Every recorded route of a switch is written again, and taken, before anything raises. -/
def Restores (shortestPath : ShortestPath) (m : TopologyManager) (dpid : Int)
    (answers : Nat → Answers) : Prop :=
  ∃ n, (∀ i < n, ∀ task, (tasksOf shortestPath m (some dpid))[i]? = some task →
      Encodes m task) ∧
    ∀ r ∈ m.names, r.1 = dpid → r ∈ restored answers 0 n (tasksOf shortestPath m (some dpid))

/-- The operations that keep the record true. -/
structure KeepsRecord (shortestPath : ShortestPath) (m : TopologyManager) (op : RouteOp) :
    Prop where
  /-- No address is recorded or asked for in two spellings at one switch. -/
  oneSpelling : OneSpelling (m.names ∪ op.targets shortestPath m)
  /-- A switch says `NOT_FOUND` of a delete only when the entry is not there. -/
  truthful : ∀ dpid matchDict priority answers,
    op = .unrouteFlow dpid matchDict priority answers → TruthfulUnroute m dpid matchDict answers
  /-- A switch that is re-adopted gets its recorded routes back. -/
  restores : ∀ dpid env, op = .readoptSwitch dpid env → env.pushes = true →
    Restores shortestPath m dpid env.answers

section Step

variable {shortestPath : ShortestPath} {m : TopologyManager}

/-- All routes are installed, from a state whose record is stale at some routes. -/
theorem installInitialRoutes_mirrored {onlyDpid : Option Int} {answers : Nat → Answers}
    {stale : Set (Int × String)} {n : Nat}
    (hspelling : OneSpelling (m.names ∪ planned (tasksOf shortestPath m onlyDpid)))
    (hm : MirrorsExcept routeAddr stale m.recorded m.present)
    (hencodes : ∀ i < n, ∀ task, (tasksOf shortestPath m onlyDpid)[i]? = some task →
      Encodes m task) :
    EState.EndsIn
      (fun m' => MirrorsExcept routeAddr
        (stale \ restored answers 0 n (tasksOf shortestPath m onlyDpid)) m'.recorded m'.present)
      (installInitialRoutes shortestPath onlyDpid answers) m :=
  installRoutes_mirrored hspelling answers _ Set.subset_union_right n 0 0 _ stale
    Set.subset_union_left hm hencodes

/-- A switch whose tables a new pipeline has emptied. -/
theorem mirrors_pushPipeline (hm : m.RoutesMirrored) (dpid : Int) (switch : P4Switch) :
    MirrorsExcept routeAddr {r | r ∈ m.names ∧ r.1 = dpid} m.recorded
      (m.withSwitch dpid switch.pushPipeline).present := by
  -- an entry is gone when it was at this switch
  have hstore : ∀ a, (m.withSwitch dpid switch.pushPipeline).present a =
      if a.1 = dpid then none else m.present a := by
    intro a
    rw [present_withSwitch]
    rfl
  refine (MirrorsExcept.wipe hm _ hstore).of_subset fun r hr hrecorded => ⟨hrecorded, ?_⟩
  obtain ⟨a, ha, hd⟩ := hr
  unfold routeAddr at ha
  split at ha
  · cases ha
    exact hd
  · exact nomatch ha

/-- Re-adoption either leaves the switch alone, or empties it and installs its routes again. -/
theorem readoptSwitch_mirrored {dpid : Int} {env : ReadoptEnv}
    (hspelling : OneSpelling (m.names ∪ planned (tasksOf shortestPath m (some dpid))))
    (hrestores : env.pushes = true → Restores shortestPath m dpid env.answers)
    (hm : m.RoutesMirrored) :
    EState.EndsIn TopologyManager.RoutesMirrored (readoptSwitch shortestPath dpid env) m := by
  unfold readoptSwitch
  apply EState.endsIn_get_bind
  cases hswitch : m.switches.lookup dpid with
  | none => exact hm
  | some switch =>
    simp only
    -- each step of the re-adoption that fails leaves the switch as it was
    split
    · exact hm
    · exact hm
    · next hfactory hstart =>
      split
      · exact hm
      · next hmaster =>
        split
        · exact hm
        · next hpush =>
          have hpushes : env.pushes = true := by
            simp only [Bool.not_eq_true', Bool.not_eq_false] at hmaster
            simp [ReadoptEnv.pushes, hfactory, hstart, hmaster, hpush, Except.isOk, Except.toBool]
          obtain ⟨n, hencodes, hall⟩ := hrestores hpushes
          have hframe := sameFrame_withSwitch hswitch switch.pushPipeline
          have hinstall := @installInitialRoutes_mirrored shortestPath
            (m.withSwitch dpid switch.pushPipeline) (some dpid) env.answers _ n hspelling
            (mirrors_pushPipeline hm dpid switch)
            (fun i hi task htask => (hframe.encodes task).mpr (hencodes i hi task htask))
          show TopologyManager.RoutesMirrored (EState.finalState
            (installInitialRoutes shortestPath (some dpid) env.answers >>= _)
            (m.withSwitch dpid switch.pushPipeline))
          rw [EState.finalState_bind_of_keeps]
          · -- the routes that were recorded have all been restored
            refine MirrorsExcept.of_subset hinstall fun r hr _ => ?_
            exact absurd (hall r hr.1.1 hr.1.2) hr.2
          · -- what is reported of the installation changes nothing
            intro result s
            split
            · rfl
            · rfl

/-- One operation. -/
theorem RouteOp.step_mirrored {op : RouteOp} (h : KeepsRecord shortestPath m op)
    (hm : m.RoutesMirrored) : (op.step shortestPath m).RoutesMirrored := by
  cases op with
  | routeFlow dpid matchDict actions priority answers =>
    have hchanges := routeFlow_changes m dpid matchDict actions priority answers
    exact Changes.mirrored hchanges h.oneSpelling hm
  | unrouteFlow dpid matchDict priority answers =>
    have htruthful := h.truthful dpid matchDict priority answers rfl
    have hchanges := unrouteFlow_changes m dpid matchDict priority answers htruthful
    exact Changes.mirrored hchanges h.oneSpelling hm
  | modifyFlow dpid matchDict actions priority answers =>
    have hchanges := modifyFlow_changes m dpid matchDict actions priority answers
    exact Changes.mirrored hchanges h.oneSpelling hm
  | installInitialRoutes onlyDpid answers =>
    have hinstall := @installInitialRoutes_mirrored shortestPath m onlyDpid answers ∅ 0
      h.oneSpelling hm (fun i hi => absurd hi (Nat.not_lt_zero i))
    exact MirrorsExcept.of_subset hinstall fun r hr _ => hr.1
  | readoptSwitch dpid env =>
    exact readoptSwitch_mirrored h.oneSpelling (h.restores dpid env rfl) hm
  | learn net lastProbe watchdog => exact hm

end Step

end Ndtwin.Proxy

namespace Ndtwin.Spec

open Ndtwin.Proxy

/-- Nothing is recorded and no switch has a route. -/
def FreshProxy (m : TopologyManager) : Prop :=
  (∀ r, m.recorded r = none) ∧ ∀ a, m.present a = none

/-- From a start with empty tables, after every run of operations that each keep to one spelling
    of an address at a switch, get `NOT_FOUND` only for an entry that is not there, and restore
    every recorded route of a switch they empty, the record says exactly which `ipv4_lpm`
    entries the switches hold, with their ports. -/
theorem record_matches_switches (shortestPath : ShortestPath) (m : TopologyManager)
    (hfresh : FreshProxy m) (ops : List RouteOp)
    (hops : GuardedRun.Guarded (RouteOp.step shortestPath) (KeepsRecord shortestPath) m ops) :
    (GuardedRun.run (RouteOp.step shortestPath) m ops).RoutesMirrored :=
  GuardedRun.run_invariant (fun _ _ hm hop => RouteOp.step_mirrored hop hm)
    (Mirror.mirrors_empty hfresh.1 hfresh.2) hops

/-- Recorded routes are found among the keys of the record. -/
theorem names_subset_keys {m : TopologyManager} {keys : List (Int × String)}
    (h : m.installedRoutes.keys = keys) : m.names ⊆ {r | r ∈ keys} := by
  intro r hr
  have hsome : (m.installedRoutes.lookup r).isSome := Option.isSome_iff_ne_none.mpr hr
  rw [AList.lookup_isSome, AList.mem_keys, h] at hsome
  exact hsome

theorem oneSpelling_of_subset_singleton {names : Set (Int × String)} {r : Int × String}
    (h : names ⊆ {r}) : OneSpelling names :=
  fun _ h₁ _ h₂ _ _ _ => (h h₁).trans (h h₂).symm

/-- One switch with one host. -/
def oneHost : TopologyManager where
  switches := (∅ : AssocMap Int P4Switch).set 1 {}
  net := (({} : NetGraph).addSwitch 1).addHost "10.0.0.1" "00:00:00:00:00:01" 1 1
  watchdog := { beaconInterval := 5 }

/-- The paths of one hop. -/
def oneHop : ShortestPath := fun net src dst =>
  if (net.edges.lookup (src, dst)).isSome then some [src, dst] else none

/-- A request to route the host. -/
def routeHost : RouteOp :=
  .routeFlow (.int 1) (.obj [("nw_dst", .str "10.0.0.1")])
    (.arr [.obj [("type", .str "OUTPUT"), ("port", .int 1)]]) .null {}

theorem freshProxy_oneHost : FreshProxy oneHost := by
  refine ⟨fun r => rfl, fun a => ?_⟩
  unfold TopologyManager.present oneHost
  rw [AssocMap.lookup_set]
  split
  · rfl
  · rfl

theorem keepsRecord_routeHost : KeepsRecord oneHop oneHost routeHost where
  oneSpelling := by
    apply oneSpelling_of_subset_singleton (r := (1, "10.0.0.1"))
    rintro r (hr | ⟨hknown, -, fields, hfields, hdst⟩)
    · exact absurd rfl hr
    · -- the request names one switch and one destination
      have hone : knownDpid oneHost (.int 1) = .ok (some 1) := by decide +kernel
      have hd : some 1 = some r.1 := Except.ok.inj (hone.symm.trans hknown)
      cases hfields
      have hs : Json.str "10.0.0.1" = .str r.2 := hdst
      exact Prod.ext (Option.some.inj hd).symm (Json.str.inj hs).symm
  truthful _ _ _ _ h := nomatch h
  restores _ _ h := nomatch h

theorem keepsRecord_readopt :
    KeepsRecord oneHop (routeHost.step oneHop oneHost) (.readoptSwitch 1 {}) := by
  have htasks : tasksOf oneHop (routeHost.step oneHop oneHost) (some 1) =
      [{ dst := .ip "10.0.0.1", src := .dpid 1, path := [.dpid 1, .ip "10.0.0.1"] }] := by
    decide +kernel
  have hnames : (routeHost.step oneHop oneHost).names ⊆ {(1, "10.0.0.1")} := by
    intro r hr
    exact List.mem_singleton.mp (names_subset_keys (by decide +kernel) hr)
  refine ⟨?_, (fun _ _ _ _ h => nomatch h), ?_⟩
  · apply oneSpelling_of_subset_singleton (r := (1, "10.0.0.1"))
    apply Set.union_subset hnames
    intro r ⟨task, htask, hname⟩
    rw [htasks, List.mem_singleton] at htask
    subst htask
    exact (Option.some.inj hname).symm
  · intro dpid env heq _
    cases heq
    refine ⟨1, ?_, ?_⟩
    · intro i hi task htask
      rw [htasks, Nat.lt_one_iff.mp hi] at htask
      cases htask
      exact ⟨_, _, rfl, rfl⟩
    · intro r hr _
      rw [htasks, Set.mem_singleton_iff.mp (hnames hr)]
      exact ⟨0, Nat.one_pos, _, rfl, rfl, rfl⟩

/-- A route is written, and written again by the re-adoption of its switch. -/
theorem record_matches_switches_oneHost :
    (GuardedRun.run (RouteOp.step oneHop) oneHost
      [routeHost, .readoptSwitch 1 {}]).RoutesMirrored :=
  record_matches_switches oneHop oneHost freshProxy_oneHost _
    ⟨keepsRecord_routeHost, keepsRecord_readopt, trivial⟩

/-- One switch, and no host that the proxy has seen. -/
def noHost : TopologyManager := { oneHost with net := ({} : NetGraph).addSwitch 1 }

/-- A switch is re-adopted while the graph has no path to a host it was told to route. -/
theorem readopted_switch_record_stale :
    ¬ ∀ (shortestPath : ShortestPath) (m : TopologyManager), FreshProxy m →
      ∀ ops, (GuardedRun.run (RouteOp.step shortestPath) m ops).RoutesMirrored := by
  intro h
  have hmirrored := h oneHop noHost ⟨freshProxy_oneHost.1, freshProxy_oneHost.2⟩
    [routeHost, .readoptSwitch 1 {}]
  rcases hmirrored.recorded (1, "10.0.0.1") 1 (by decide +kernel) with hstale | ⟨a, ha, hpresent⟩
  · exact hstale
  · have haddr : routeAddr (1, "10.0.0.1") = some (1, ⟨[10, 0, 0, 1], 32⟩) := by decide +kernel
    rw [haddr] at ha
    cases ha
    revert hpresent
    decide +kernel

end Ndtwin.Spec

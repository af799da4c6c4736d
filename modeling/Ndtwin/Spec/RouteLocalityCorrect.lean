import Ndtwin.ForStd.EStateRel
import Ndtwin.Proxy.ApiRoutes

/-!
# A request is about its own switch

Whatever a flow request asks for, and whatever the switch answers, the proxy decides by the
tables and the records of the switch that the request names, and changes no other ones.

## Key results

- `Confined`: what two runs of one request have in common, and what each leaves alone
- `postFlowEntry_confined`: every flow-entry route is confined to the switch of its body
-/

namespace Ndtwin.Proxy

/-- Two managers agree on a switch: on its tables, on its records, and on the graph. -/
structure SameAt (k : Int) (m m' : TopologyManager) : Prop where
  net : m.net = m'.net
  tables : m.switches.lookup k = m'.switches.lookup k
  routes : ∀ dst, m.installedRoutes.lookup (k, dst) = m'.installedRoutes.lookup (k, dst)

/-- Two managers agree on all switches but one, and on what belongs to no switch. -/
structure SameBut (k : Int) (m m' : TopologyManager) : Prop where
  net : m.net = m'.net
  destPaths : m.destPaths = m'.destPaths
  lastProbe : m.lastProbe = m'.lastProbe
  watchdog : m.watchdog = m'.watchdog
  tables : ∀ k', k' ≠ k → m.switches.lookup k' = m'.switches.lookup k'
  routes : ∀ k' dst, k' ≠ k →
    m.installedRoutes.lookup (k', dst) = m'.installedRoutes.lookup (k', dst)

theorem SameAt.refl (k : Int) (m : TopologyManager) : SameAt k m m := ⟨rfl, rfl, fun _ => rfl⟩

theorem SameBut.refl (k : Int) (m : TopologyManager) : SameBut k m m :=
  ⟨rfl, rfl, rfl, rfl, fun _ _ => rfl, fun _ _ _ => rfl⟩

theorem SameAt.symm {k : Int} {m m' : TopologyManager} (h : SameAt k m m') : SameAt k m' m :=
  ⟨h.net.symm, h.tables.symm, fun dst => (h.routes dst).symm⟩

theorem SameAt.trans {k : Int} {m m' m'' : TopologyManager} (h : SameAt k m m')
    (h' : SameAt k m' m'') : SameAt k m m'' :=
  ⟨h.net.trans h'.net, h.tables.trans h'.tables, fun dst => (h.routes dst).trans (h'.routes dst)⟩

/-- What is the same but for one switch is the same at every other one. -/
theorem SameBut.sameAt {k k' : Int} {m m' : TopologyManager} (h : SameBut k m m')
    (hne : k' ≠ k) : SameAt k' m m' :=
  ⟨h.net, h.tables k' hne, fun dst => h.routes k' dst hne⟩

/-- Two runs, from `m` and from `m'`, that have come to `s` and to `t`: they agree on the switch,
    and have left everything else as it was. -/
structure Confined (k : Int) (m m' s t : TopologyManager) : Prop where
  sameAt : SameAt k s t
  left : SameBut k m s
  right : SameBut k m' t

section Calls

variable {k : Int} {m m' s t : TopologyManager}

theorem SameBut.setSwitch (h : SameBut k m s) (switch : P4Switch) :
    SameBut k m { s with switches := s.switches.set k switch } := by
  refine ⟨h.net, h.destPaths, h.lastProbe, h.watchdog, fun k' hne => ?_, h.routes⟩
  rw [h.tables k' hne]
  simp [hne]

theorem Confined.setSwitch (h : Confined k m m' s t) (switch : P4Switch) :
    Confined k m m' { s with switches := s.switches.set k switch }
      { t with switches := t.switches.set k switch } := by
  refine ⟨⟨h.sameAt.net, ?_, h.sameAt.routes⟩, h.left.setSwitch switch, h.right.setSwitch switch⟩
  simp

/-- A call of the client of the switch. -/
theorem agree_onSwitch {α : Type} (h : Confined k m m' s t) (call : ClientM α) :
    EState.Agree (Confined k m m') (onSwitch k call) s (onSwitch k call) t := by
  unfold EState.Agree onSwitch
  rw [← h.sameAt.tables]
  cases s.switches.lookup k with
  | none => exact ⟨rfl, h⟩
  | some switch =>
    cases hcall : call switch with
    | ok a switch' =>
      simp only [hcall]
      exact ⟨rfl, h.setSwitch switch'⟩
    | error e switch' =>
      simp only [hcall]
      exact ⟨rfl, h.setSwitch switch'⟩

theorem agree_py {α : Type} (h : Confined k m m' s t) (x : Except Python.Error α) :
    EState.Agree (Confined k m m') (py x) s (py x) t := by
  cases x with
  | ok a => exact EState.agree_pure h a
  | error e => exact EState.agree_throw h _

theorem SameBut.setRoute (h : SameBut k m s) (dst : String) (port : Int) :
    SameBut k m { s with installedRoutes := s.installedRoutes.set (k, dst) port } := by
  refine ⟨h.net, h.destPaths, h.lastProbe, h.watchdog, h.tables, fun k' dst' hne => ?_⟩
  rw [h.routes k' dst' hne]
  simp [hne]

theorem SameBut.eraseRoute (h : SameBut k m s) (dst : String) :
    SameBut k m { s with installedRoutes := s.installedRoutes.erase (k, dst) } := by
  refine ⟨h.net, h.destPaths, h.lastProbe, h.watchdog, h.tables, fun k' dst' hne => ?_⟩
  rw [h.routes k' dst' hne]
  simp [hne]

theorem agree_recordRoute (h : Confined k m m' s t) (ipv4Dst outPort : Json) :
    EState.Agree (Confined k m m') (recordRoute k ipv4Dst outPort) s
      (recordRoute k ipv4Dst outPort) t := by
  unfold recordRoute
  split
  · next dst port _ =>
    apply EState.agree_modify
    refine ⟨⟨h.sameAt.net, h.sameAt.tables, fun dst' => ?_⟩, h.left.setRoute dst port,
      h.right.setRoute dst port⟩
    simp [h.sameAt.routes dst']
  · exact EState.agree_pure h _

theorem agree_withdrawRoute (h : Confined k m m' s t) (ipv4Dst : Json) :
    EState.Agree (Confined k m m') (withdrawRoute k ipv4Dst) s (withdrawRoute k ipv4Dst) t := by
  unfold withdrawRoute
  split
  · next dst =>
    apply EState.agree_modify
    refine ⟨⟨h.sameAt.net, h.sameAt.tables, fun dst' => ?_⟩, h.left.eraseRoute dst,
      h.right.eraseRoute dst⟩
    simp [AssocMap.lookup_erase_eq, h.sameAt.routes dst']
  · exact EState.agree_pure h _

theorem agree_checkedMatch (h : Confined k m m' s t) (matchDict : Json) (action : String) :
    EState.Agree (Confined k m m') (checkedMatch matchDict action) s
      (checkedMatch matchDict action) t := by
  unfold checkedMatch
  apply EState.agree_bind (EState.agree_ofExcept h _)
  intro _ s t h
  apply EState.agree_bind (EState.agree_ofExcept h _)
  intro _ s t h
  exact agree_py h _

/-- Which switch a request names does not depend on the other switches. -/
theorem knownDpid_congr {n : Nat} (h : SameAt n s t) :
    knownDpid s (.uint n) = knownDpid t (.uint n) := by
  simp [knownDpid, integerKey?, Python.asInt?, Option.filter_some, h.tables]

end Calls

/-! ## The operations -/

section Operations

variable {n : Nat} {m m' : TopologyManager}

/-- The check of the switch comes first in every operation. -/
theorem agree_knownDpid {β : Type} (h : SameAt n m m') {f g : Option Int → RouteM β}
    (hnone : EState.Agree (Confined n m m') (f none) m (g none) m')
    (hsome : EState.Agree (Confined n m m') (f (some n)) m (g (some n)) m') :
    EState.Agree (Confined n m m') (py (knownDpid m (.uint n)) >>= f) m
      (py (knownDpid m' (.uint n)) >>= g) m' := by
  rw [← knownDpid_congr h]
  cases hknown : knownDpid m (.uint n) with
  | error e => simp [knownDpid] at hknown
  | ok d =>
    cases d with
    | none => exact hnone
    | some d =>
      rw [eq_of_knownDpid_uint hknown]
      exact hsome

/-- `route_flow` and `modify_flow` differ in their calls only. -/
theorem agree_storing (h : SameAt n m m') (matchDict actions : Json) (action : String)
    (call5tuple : AssocMap P4Field Json → String → Json → ClientM Bool)
    (callLpm : Json → String → Json → ClientM Bool) {op : RouteM Bool}
    (hop : op = do
      let m ← get
      match ← py (knownDpid m (.uint n)) with
      | none => return false
      | some dpid => do
        let fields ← checkedMatch matchDict action
        let ipv4Dst := ipv4DstOf fields
        match ← py (outPort actions) with
        | .null => return false
        | out =>
          if needsFiveTuple matchDict then do
            let keys ← EState.ofExcept (fiveTupleKeys fields)
            let mac ← py (nextHopMac5tuple m.net ipv4Dst)
            onSwitch dpid (call5tuple keys mac out)
          else if Python.truthy ipv4Dst then do
            let mac ← py (nextHopMac m.net ipv4Dst)
            let success ← onSwitch dpid (callLpm ipv4Dst mac out)
            if success then do
              recordRoute dpid ipv4Dst out
              return true
            else return false
          else return false) :
    EState.Agree (Confined n m m') op m op m' := by
  subst hop
  have h₀ : Confined n m m' m m' := ⟨h, SameBut.refl n m, SameBut.refl n m'⟩
  apply EState.agree_get_bind
  apply agree_knownDpid h (EState.agree_pure h₀ false)
  apply EState.agree_bind (agree_checkedMatch h₀ _ _)
  intro fields s t h₁
  apply EState.agree_bind (agree_py h₁ _)
  intro out s t h₂
  split
  · exact EState.agree_pure h₂ false
  -- the graph is read as it was at the start
  · rw [h.net]
    split
    · apply EState.agree_bind (EState.agree_ofExcept h₂ _)
      intro keys s t h₃
      apply EState.agree_bind (agree_py h₃ _)
      intro mac s t h₄
      exact agree_onSwitch h₄ _
    · split
      · apply EState.agree_bind (agree_py h₂ _)
        intro mac s t h₃
        apply EState.agree_bind (agree_onSwitch h₃ _)
        intro success s t h₄
        split
        · apply EState.agree_bind (agree_recordRoute h₄ _ _)
          intro _ s t h₅
          exact EState.agree_pure h₅ true
        · exact EState.agree_pure h₄ false
      · exact EState.agree_pure h₂ false

theorem agree_unrouteFlow (h : SameAt n m m') (matchDict priority : Json) (answers : Answers) :
    EState.Agree (Confined n m m') (unrouteFlow (.uint n) matchDict priority answers) m
      (unrouteFlow (.uint n) matchDict priority answers) m' := by
  unfold unrouteFlow
  have h₀ : Confined n m m' m m' := ⟨h, SameBut.refl n m, SameBut.refl n m'⟩
  apply EState.agree_get_bind
  apply agree_knownDpid h (EState.agree_pure h₀ false)
  apply EState.agree_bind (agree_checkedMatch h₀ _ _)
  intro fields s t h₁
  show EState.Agree _ (ite _ _ _) s (ite _ _ _) t
  split
  · apply EState.agree_bind (EState.agree_ofExcept h₁ _)
    intro keys s t h₂
    exact agree_onSwitch h₂ _
  · split
    · apply EState.agree_bind (agree_onSwitch h₁ _)
      intro success s t h₂
      split
      · apply EState.agree_bind (agree_withdrawRoute h₂ _)
        intro _ s t h₃
        exact EState.agree_pure h₃ true
      · exact EState.agree_pure h₂ false
    · exact EState.agree_pure h₁ false

/-! ## The routes -/

/-- Two requests that were answered alike, and were confined to the switch. -/
def AnsweredAlike (k : Int) (m m' : TopologyManager) (r r' : HttpReply × TopologyManager) : Prop :=
  r.1 = r'.1 ∧ Confined k m m' r.2 r'.2

theorem answerWith_alike {k : Int} {operation : RouteM Bool}
    (h : EState.Agree (Confined k m m') operation m operation m') (refused : HttpReply) :
    AnsweredAlike k m m' (answerWith operation refused m) (answerWith operation refused m') := by
  unfold EState.Agree at h
  unfold AnsweredAlike answerWith
  cases hm : operation m with
  | ok a s =>
    cases hm' : operation m' with
    | ok b t =>
      rw [hm, hm'] at h
      obtain ⟨rfl, hrel⟩ := h
      cases a with
      | true => exact ⟨rfl, hrel⟩
      | false => exact ⟨rfl, hrel⟩
    | error e t =>
      rw [hm, hm'] at h
      exact h.elim
  | error e s =>
    cases hm' : operation m' with
    | ok b t =>
      rw [hm, hm'] at h
      exact h.elim
    | error e' t =>
      rw [hm, hm'] at h
      obtain ⟨rfl, hrel⟩ := h
      cases e with
      | unsupportedMatch e => exact ⟨rfl, hrel⟩
      | python e => exact ⟨rfl, hrel⟩

/-- A flow-entry request reads and changes no other switch than the one it names. -/
theorem postFlowEntry_confined (h : SameAt n m m') {fields : List (String × Json)}
    (hdpid : getField fields "dpid" = .uint n) (path : String) (answers : Answers) :
    AnsweredAlike n m m' (postFlowEntry path answers (.obj fields) m)
      (postFlowEntry path answers (.obj fields) m') := by
  have hadd : ∀ matchDict actions priority,
      EState.Agree (Confined n m m') (routeFlow (.uint n) matchDict actions priority answers) m
        (routeFlow (.uint n) matchDict actions priority answers) m' :=
    fun matchDict actions priority => agree_storing h matchDict actions "installed"
      (fun keys mac out => insert5tupleRule keys (p4Priority priority) mac out answers)
      (fun dst mac out => insertIpv4Route dst 32 mac out answers) rfl
  have hmodify : ∀ matchDict actions priority,
      EState.Agree (Confined n m m') (modifyFlow (.uint n) matchDict actions priority answers) m
        (modifyFlow (.uint n) matchDict actions priority answers) m' :=
    fun matchDict actions priority => agree_storing h matchDict actions "modified"
      (fun keys mac out => modify5tupleRule keys (p4Priority priority) mac out answers)
      (fun dst mac out => modifyIpv4Route dst 32 mac out answers) rfl
  unfold postFlowEntry
  split
  · simp only [addFlowEntry, handleFlowEntry, flowentryBody, hdpid]
    exact answerWith_alike (hadd _ _ _) _
  · simp only [deleteFlowEntry, handleFlowEntry, flowentryBody, hdpid]
    exact answerWith_alike (agree_unrouteFlow h _ _ _) _
  · simp only [deleteFlowEntry, handleFlowEntry, flowentryBody, hdpid]
    exact answerWith_alike (agree_unrouteFlow h _ _ _) _
  · simp only [modifyFlowEntry, handleFlowEntry, flowentryBody, hdpid]
    exact answerWith_alike (hmodify _ _ _) _
  · exact ⟨rfl, h, SameBut.refl n m, SameBut.refl n m'⟩

end Operations

end Ndtwin.Proxy

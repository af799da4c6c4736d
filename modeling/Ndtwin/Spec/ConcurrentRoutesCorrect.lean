import Ndtwin.Spec.InstalledRoutesCorrect

/-!
# Concurrent Route Calls

Each call on its own leaves the record and the switch in agreement. Two calls on one destination
can write to the switch in one order and to the record in the other, since nothing is held
across the two steps of a call. Record and entry are two registers, each with what was written
to it last.

## Key results

- `write_spec`, `record_spec`: the two steps of a call
- `concurrent_agree_iff`: when the two registers agree once all calls have returned
-/

namespace Ndtwin.Proxy

open GuardedRun

/-! ## One call -/

namespace RouteCall

/-- The port that a call asks for; `none` when it asks for no route. -/
def request : RouteCall → Option Int
  | .routeFlow _ out => Python.asInt? out
  | .modifyFlow _ out => Python.asInt? out
  | .unrouteFlow => none
  | .installRoute _ out => some out

/-- What the call asks for can be recorded: its port, if it has one, is a number. -/
def Recordable : RouteCall → Prop
  | .routeFlow _ out => (Python.asInt? out).isSome
  | .modifyFlow _ out => (Python.asInt? out).isSome
  | .unrouteFlow => True
  | .installRoute _ _ => True

end RouteCall

namespace TopologyManager

/-- The port of the entry for a destination at a switch. -/
def entryPort (m : TopologyManager) (dpid : Int) (dst : String) : Option Int :=
  (routeAddr (dpid, dst)).bind m.present

/-- The record of a destination at a switch is the entry the switch has. -/
def Agrees (m : TopologyManager) (dpid : Int) (dst : String) : Prop :=
  m.recorded (dpid, dst) = m.entryPort dpid dst

instance (m : TopologyManager) (dpid : Int) (dst : String) : Decidable (m.Agrees dpid dst) :=
  inferInstanceAs (Decidable (_ = _))

end TopologyManager

section Call

variable {dpid : Int} {dst : String} {m m' : TopologyManager}

/-- A route that was stored is the entry of its destination. -/
theorem store_spec {call : ClientM Bool} {mac : String} {out : Json}
    (hcall : StoresRoute call (routeEntry (.str dst) 32 mac out))
    (h : onSwitch dpid call m = .ok true m') :
    m'.entryPort dpid dst = Python.asInt? out ∧ (Python.asInt? out).isSome ∧
      m'.recorded (dpid, dst) = m.recorded (dpid, dst) := by
  obtain ⟨switch, switch', hswitch, htrue, rfl⟩ := exists_of_onSwitch_ok h
  rcases hcall switch with ⟨e, -, he⟩ | hfalse | ⟨key, action, hentry, hstored⟩
  · rw [he] at htrue
    exact nomatch htrue
  · rw [hfalse] at htrue
    exact nomatch htrue
  · rw [hstored] at htrue
    cases htrue
    obtain ⟨hvalue, hprefix, hport⟩ := routeEntry_ok hentry
    have hkey : key = ⟨key.value, 32⟩ := by rw [← hprefix]
    refine ⟨?_, ?_, rfl⟩
    · unfold TopologyManager.entryPort
      rw [routeAddr_of_inetAtonValue hvalue, ← hkey, Option.bind_some, present_withSwitch,
        if_pos rfl, AssocMap.lookup_insert_eq, if_pos rfl, hport]
      rfl
    · rw [hport]
      rfl

/-- A route that was deleted leaves no entry. -/
theorem delete_spec (h : onSwitch dpid (deleteIpv4Route (.str dst) 32 {}) m = .ok true m') :
    m'.entryPort dpid dst = none ∧ m'.recorded (dpid, dst) = m.recorded (dpid, dst) := by
  obtain ⟨switch, switch', hswitch, htrue, rfl⟩ := exists_of_onSwitch_ok h
  have htruthful : ∀ value, inetAtonValue (.str dst) = .ok value →
      TruthfulDelete {} ⟨value, 32⟩ switch := fun _ _ hnot => nomatch hnot
  rcases deleteIpv4Route_spec (.str dst) 32 {} switch htruthful with
    ⟨e, he⟩ | hfalse | ⟨value, table, hvalue, hdeleted, htable⟩
  · rw [he] at htrue
    exact nomatch htrue
  · rw [hfalse] at htrue
    exact nomatch htrue
  · rw [hdeleted] at htrue
    cases htrue
    refine ⟨?_, rfl⟩
    unfold TopologyManager.entryPort
    rw [routeAddr_of_inetAtonValue hvalue, Option.bind_some, present_withSwitch, if_pos rfl,
      htable, if_pos rfl]
    rfl

/-- The write of a call makes the entry what the call asks for. -/
theorem write_spec {call : RouteCall} (h : call.write dpid dst m = .ok true m') :
    m'.entryPort dpid dst = call.request ∧ call.Recordable ∧
      m'.recorded (dpid, dst) = m.recorded (dpid, dst) := by
  cases call with
  | routeFlow mac out => exact store_spec (insertIpv4Route_spec (.str dst) 32 mac out {}) h
  | modifyFlow mac out => exact store_spec (modifyIpv4Route_spec (.str dst) 32 mac out {}) h
  | unrouteFlow =>
    obtain ⟨hentry, hrecord⟩ := delete_spec h
    exact ⟨hentry, trivial, hrecord⟩
  | installRoute mac out =>
    obtain ⟨hentry, -, hrecord⟩ :=
      store_spec (insertIpv4Route_spec (.str dst) 32 mac (.int out) {}) h
    exact ⟨hentry, trivial, hrecord⟩

theorem recordRoute_spec {out : Json} (hout : (Python.asInt? out).isSome) :
    (EState.finalState (recordRoute dpid (.str dst) out) m).recorded (dpid, dst) =
        Python.asInt? out ∧
      (EState.finalState (recordRoute dpid (.str dst) out) m).entryPort dpid dst =
        m.entryPort dpid dst := by
  obtain ⟨port, hport⟩ := Option.isSome_iff_exists.mp hout
  unfold recordRoute
  simp only [hport]
  refine ⟨?_, rfl⟩
  show (m.installedRoutes.set (dpid, dst) port).lookup (dpid, dst) = some port
  rw [AssocMap.lookup_set, if_pos rfl]

/-- The record of a call makes the record what the call asks for. -/
theorem record_spec {call : RouteCall} (h : call.Recordable) :
    (EState.finalState (call.record dpid dst) m).recorded (dpid, dst) = call.request ∧
      (EState.finalState (call.record dpid dst) m).entryPort dpid dst =
        m.entryPort dpid dst := by
  cases call with
  | routeFlow mac out => exact recordRoute_spec h
  | modifyFlow mac out => exact recordRoute_spec h
  | unrouteFlow => exact ⟨AList.lookup_erase _ _, rfl⟩
  | installRoute mac out =>
    have hint : (Python.asInt? (.int out)).isSome := rfl
    exact recordRoute_spec hint

end Call

/-! ## Interleavings -/

/-- What a step writes to the switch: the request of its call. -/
def entryWrite (calls : List RouteCall) : CallStep → Option (Option Int)
  | .write i => calls[i]?.map RouteCall.request
  | .record _ => none

/-- What a step writes to the record: the request of its call. -/
def recordWrite (calls : List RouteCall) : CallStep → Option (Option Int)
  | .write _ => none
  | .record i => calls[i]?.map RouteCall.request

namespace RouteThreads

variable {dpid : Int} {dst : String} {calls : List RouteCall} {t t' : RouteThreads}

/-- A call that has written and not recorded yet can be recorded. -/
def WrittenRecordable (calls : List RouteCall) (t : RouteThreads) : Prop :=
  ∀ (i : Nat) (call : RouteCall), calls[i]? = some call → t.stages[i]? = some .written →
    call.Recordable

/-- What a step can do. -/
theorem step_cases {e : CallStep} (h : t.step dpid dst calls e = some t') :
    (∃ i call m, e = .write i ∧ calls[i]? = some call ∧ t.stages[i]? = some .ready ∧
      call.write dpid dst t.manager = .ok true m ∧
      t' = { manager := m, stages := t.stages.set i .written }) ∨
    (∃ i call, e = .record i ∧ calls[i]? = some call ∧ t.stages[i]? = some .written ∧
      t' = {
        manager := EState.finalState (call.record dpid dst) t.manager
        stages := t.stages.set i .returned }) := by
  cases e with
  | write i =>
    left
    simp only [step] at h
    split at h
    · next call hcall hstage =>
      split at h
      · next m hwrite => exact ⟨i, call, m, rfl, hcall, hstage, hwrite, (Option.some.inj h).symm⟩
      · exact nomatch h
    · exact nomatch h
  | record i =>
    right
    simp only [step] at h
    split at h
    · next call hcall hstage => exact ⟨i, call, rfl, hcall, hstage, (Option.some.inj h).symm⟩
    · exact nomatch h

theorem step_writtenRecordable {e : CallStep} (h : t.step dpid dst calls e = some t')
    (hinv : t.WrittenRecordable calls) : t'.WrittenRecordable calls := by
  obtain ⟨i, call, m, rfl, hcall, hstage, hwrite, rfl⟩ | ⟨i, call, rfl, hcall, hstage, rfl⟩ :=
    step_cases h
  · intro j other hother hwritten
    by_cases hij : i = j
    · subst hij
      cases hcall.symm.trans hother
      exact (write_spec hwrite).2.1
    · rw [List.getElem?_set_ne hij] at hwritten
      exact hinv j other hother hwritten
  · intro j other hother hwritten
    by_cases hij : i = j
    · subst hij
      rw [List.getElem?_set_self' , hstage] at hwritten
      exact nomatch hwritten
    · rw [List.getElem?_set_ne hij] at hwritten
      exact hinv j other hother hwritten

/-- The entry after a step. -/
theorem step_entryPort {e : CallStep} (h : t.step dpid dst calls e = some t')
    (hinv : t.WrittenRecordable calls) :
    t'.manager.entryPort dpid dst =
      (entryWrite calls e).getD (t.manager.entryPort dpid dst) := by
  obtain ⟨i, call, m, rfl, hcall, hstage, hwrite, rfl⟩ | ⟨i, call, rfl, hcall, hstage, rfl⟩ :=
    step_cases h
  · rw [entryWrite, hcall]
    exact (write_spec hwrite).1
  · exact (record_spec (hinv i call hcall hstage)).2

/-- The record after a step. -/
theorem step_recorded {e : CallStep} (h : t.step dpid dst calls e = some t')
    (hinv : t.WrittenRecordable calls) :
    t'.manager.recorded (dpid, dst) =
      (recordWrite calls e).getD (t.manager.recorded (dpid, dst)) := by
  obtain ⟨i, call, m, rfl, hcall, hstage, hwrite, rfl⟩ | ⟨i, call, rfl, hcall, hstage, rfl⟩ :=
    step_cases h
  · exact (write_spec hwrite).2.2
  · rw [recordWrite, hcall]
    exact (record_spec (hinv i call hcall hstage)).1

/-- A step that writes takes one call from `ready`, and one that records brings one to
    `returned`. -/
theorem step_counts {e : CallStep} (h : t.step dpid dst calls e = some t') :
    t.stages.count .ready = t'.stages.count .ready + (entryWrite calls e).toList.length ∧
      t'.stages.count .returned =
        t.stages.count .returned + (recordWrite calls e).toList.length := by
  obtain ⟨i, call, m, rfl, hcall, hstage, hwrite, rfl⟩ | ⟨i, call, rfl, hcall, hstage, rfl⟩ :=
    step_cases h
  · obtain ⟨hi, hget⟩ := List.getElem?_eq_some_iff.mp hstage
    have hpos : 0 < t.stages.count .ready :=
      List.count_pos_iff.mpr (hget ▸ List.getElem_mem hi)
    simp only [List.count_set hi, hget, entryWrite, recordWrite, hcall]
    simp
    omega
  · obtain ⟨hi, hget⟩ := List.getElem?_eq_some_iff.mp hstage
    simp only [List.count_set hi, hget, entryWrite, recordWrite, hcall]
    simp

/-- Writes and records are counted by the stages of the calls. -/
theorem exec_counts {es : List CallStep} (h : exec (step dpid dst calls) t es = some t') :
    t.stages.count .ready = t'.stages.count .ready + (es.filterMap (entryWrite calls)).length ∧
      t'.stages.count .returned =
        t.stages.count .returned + (es.filterMap (recordWrite calls)).length := by
  have hcons : ∀ (f : CallStep → Option (Option Int)) e (es : List CallStep),
      ((e :: es).filterMap f).length = (f e).toList.length + (es.filterMap f).length := by
    intro f e es
    cases hf : f e with
    | none => rw [List.filterMap_cons_none hf]; simp
    | some a => rw [List.filterMap_cons_some hf, List.length_cons]; simp [Nat.add_comm]
  induction es generalizing t with
  | nil =>
    cases h
    exact ⟨rfl, rfl⟩
  | cons e es ih =>
    obtain ⟨t₁, he, hes⟩ := exec_cons_eq_some h
    obtain ⟨hready, hreturned⟩ := step_counts he
    obtain ⟨hready', hreturned'⟩ := ih hes
    rw [hcons, hcons]
    omega

/-- No call has written at the start. -/
theorem writtenRecordable_start (m : TopologyManager) (calls : List RouteCall) :
    (start m calls).WrittenRecordable calls := by
  intro i call _ hwritten
  have hmem := List.mem_of_getElem? hwritten
  exact nomatch List.eq_of_mem_replicate hmem

/-- As many writes as records in a run of calls that all return. -/
theorem length_writes_eq {m : TopologyManager} {es : List CallStep}
    (h : exec (step dpid dst calls) (start m calls) es = some t')
    (hreturned : ∀ stage ∈ t'.stages, stage = .returned) :
    (es.filterMap (entryWrite calls)).length = (es.filterMap (recordWrite calls)).length := by
  have hlength : t'.stages.length = calls.length := by
    have hsame : ∀ (t : RouteThreads) e (t' : RouteThreads), t.step dpid dst calls e = some t' →
        t.stages.length = calls.length → t'.stages.length = calls.length := by
      intro t e t' he hlen
      obtain ⟨i, call, m, -, -, -, -, rfl⟩ | ⟨i, call, -, -, -, rfl⟩ := step_cases he
      · rw [List.length_set]
        exact hlen
      · rw [List.length_set]
        exact hlen
    exact exec_invariant hsame h (List.length_replicate ..)
  obtain ⟨hready, hdone⟩ := exec_counts h
  have hall : t'.stages = List.replicate calls.length .returned :=
    List.eq_replicate_iff.mpr ⟨hlength, hreturned⟩
  have hstart : (start m calls).stages = List.replicate calls.length .ready := rfl
  rw [hstart, hall] at hready hdone
  simp [List.count_replicate] at hready hdone
  omega

end RouteThreads

end Ndtwin.Proxy

namespace Ndtwin.Spec

open Ndtwin.Proxy GuardedRun

/-- Calls on one destination of one switch run in any interleaving of their steps, with every
    write succeeding, from a state in which record and entry agree. Once all have returned they
    agree exactly when the call that wrote to the switch last and the call that recorded last
    asked for the same. -/
theorem concurrent_agree_iff (dpid : Int) (dst : String) (calls : List RouteCall)
    (m : TopologyManager) (hagrees : m.Agrees dpid dst) (es : List CallStep) (t : RouteThreads)
    (hrun : exec (RouteThreads.step dpid dst calls) (RouteThreads.start m calls) es = some t)
    (hreturned : ∀ stage ∈ t.stages, stage = .returned) :
    t.manager.Agrees dpid dst ↔
      (es.filterMap (entryWrite calls)).getLast? = (es.filterMap (recordWrite calls)).getLast? := by
  have hstart := RouteThreads.writtenRecordable_start m calls
  have hkeeps : ∀ t e t', RouteThreads.step dpid dst calls t e = some t' →
      t.WrittenRecordable calls → t'.WrittenRecordable calls :=
    fun _ _ _ h hinv => RouteThreads.step_writtenRecordable h hinv
  have hentry := exec_lastWrite (RouteThreads.WrittenRecordable calls)
    (fun t => t.manager.entryPort dpid dst) (entryWrite calls) hkeeps
    (fun _ _ _ h hinv => RouteThreads.step_entryPort h hinv) hrun hstart
  have hrecord := exec_lastWrite (RouteThreads.WrittenRecordable calls)
    (fun t => t.manager.recorded (dpid, dst)) (recordWrite calls) hkeeps
    (fun _ _ _ h hinv => RouteThreads.step_recorded h hinv) hrun hstart
  have hlength := RouteThreads.length_writes_eq hrun hreturned
  unfold TopologyManager.Agrees at hagrees ⊢
  rw [hentry, hrecord]
  generalize es.filterMap (entryWrite calls) = writes at hlength
  generalize es.filterMap (recordWrite calls) = records at hlength
  rcases List.eq_nil_or_concat writes with rfl | ⟨writes, write, rfl⟩
  · -- nothing was written, and nothing recorded
    obtain rfl : records = [] := List.length_eq_zero_iff.mp hlength.symm
    exact ⟨fun _ => rfl, fun _ => hagrees⟩
  · rcases List.eq_nil_or_concat records with rfl | ⟨records, record, rfl⟩
    · simp at hlength
    · simp [eq_comm]

/-- A switch that is known, and nothing written yet. -/
def emptySwitch : TopologyManager where
  switches := (∅ : AssocMap Int P4Switch).set 1 {}
  watchdog := { beaconInterval := 5 }

/-- A request to route a destination to a port. -/
def routeTo (port : Int) : RouteCall := .routeFlow "00:00:00:00:00:01" (.int port)

/-- Two requests run one after the other. -/
theorem sequential_calls_agree :
    ∃ t, exec (RouteThreads.step 1 "10.0.0.1" [routeTo 1, routeTo 2])
        (RouteThreads.start emptySwitch [routeTo 1, routeTo 2])
        [.write 0, .record 0, .write 1, .record 1] = some t ∧
      t.manager.Agrees 1 "10.0.0.1" := by
  have hdone : (exec (RouteThreads.step 1 "10.0.0.1" [routeTo 1, routeTo 2])
      (RouteThreads.start emptySwitch [routeTo 1, routeTo 2])
      [.write 0, .record 0, .write 1, .record 1]).map RouteThreads.stages =
        some [.returned, .returned] := by
    decide +kernel
  obtain ⟨t, hrun, hstages⟩ := Option.map_eq_some_iff.mp hdone
  refine ⟨t, hrun, ?_⟩
  apply (concurrent_agree_iff 1 "10.0.0.1" _ emptySwitch (by decide +kernel) _ t hrun ?_).mpr rfl
  rw [hstages]
  decide

/-- Two requests write to the switch in one order and to the record in the other. -/
theorem crossed_calls_disagree :
    ¬ ∀ (dpid : Int) (dst : String) (calls : List RouteCall) (m : TopologyManager),
      m.Agrees dpid dst → ∀ (es : List CallStep) (t : RouteThreads),
      exec (RouteThreads.step dpid dst calls) (RouteThreads.start m calls) es = some t →
      (∀ stage ∈ t.stages, stage = .returned) → t.manager.Agrees dpid dst := by
  intro h
  have hdone : (exec (RouteThreads.step 1 "10.0.0.1" [routeTo 1, routeTo 2])
      (RouteThreads.start emptySwitch [routeTo 1, routeTo 2])
      [.write 0, .write 1, .record 1, .record 0]).map (fun t => (t.stages,
        t.manager.recorded (1, "10.0.0.1"), t.manager.entryPort 1 "10.0.0.1")) =
        some ([.returned, .returned], some 1, some 2) := by
    decide +kernel
  obtain ⟨t, hrun, hview⟩ := Option.map_eq_some_iff.mp hdone
  obtain ⟨hstages, hrecorded, hentry⟩ : t.stages = [.returned, .returned] ∧
      t.manager.recorded (1, "10.0.0.1") = some 1 ∧
      t.manager.entryPort 1 "10.0.0.1" = some 2 := by
    simpa using hview
  have hagrees := h 1 "10.0.0.1" _ emptySwitch (by decide +kernel) _ t hrun
    (by rw [hstages]; decide)
  unfold TopologyManager.Agrees at hagrees
  rw [hrecorded, hentry] at hagrees
  exact absurd hagrees (by decide)

end Ndtwin.Spec

import Ndtwin.Spec.RequestValuesCorrect

/-!
# Flow Request Refusals

The handlers of the flow routes catch `UnsupportedMatchError` and nothing else: it becomes a 400,
and any other exception a 500. `check_match_values` tries the encoder on `in_port` ahead of the
writes, for this reason. The other values of a request reach the encoders unchecked, and a null
match passes both checks and has no `get`.

## Key results

- `answersIf_checkedMatch_bind`: what the two checks let through
- `answersIf_store`, `answersIf_delete`: what is left once the checks are passed
- `refused_unchanged`: a request that is refused, or raises, leaves everything as it was
- `flowOp_answered_iff`: the requests that end in a bool or in a refusal
-/

namespace Ndtwin.Proxy

/-! ## Client calls -/

/-- A client call raises exactly when its request cannot be encoded, and it leaves the switch as
    it was unless it returns `True`. -/
def RaisesUnless (call : ClientM Bool) (encodes : Prop) : Prop :=
  ∀ switch, match call switch with
    | .ok true _ => encodes
    | .ok false switch' => encodes ∧ switch' = switch
    | .error _ switch' => ¬encodes ∧ switch' = switch

theorem RaisesUnless.congr {call : ClientM Bool} {P Q : Prop} (h : RaisesUnless call P)
    (hiff : P ↔ Q) : RaisesUnless call Q := by
  rw [← propext hiff]
  exact h

theorem raisesUnless_pure (b : Bool) : RaisesUnless (pure b) True := by
  intro switch
  cases b with
  | true => trivial
  | false => exact ⟨trivial, rfl⟩

theorem raisesUnless_ofExcept_bind {α : Type} {x : Except Python.Error α} {f : α → ClientM Bool}
    {P : Prop} (hf : ∀ a, x = .ok a → RaisesUnless (f a) P) :
    RaisesUnless (EState.ofExcept x >>= f) ((∃ a, x = .ok a) ∧ P) := by
  cases x with
  | error e => exact fun _ => ⟨(fun ⟨⟨_, h⟩, _⟩ => nomatch h), rfl⟩
  | ok a => exact (hf a rfl).congr (iff_and_self.mpr fun _ => ⟨a, rfl⟩)

/-- A call that encodes its request first. -/
theorem raisesUnless_encoding {α : Type} {x : Except Python.Error α} {f : α → ClientM Bool}
    (hf : ∀ a, x = .ok a → RaisesUnless (f a) True) :
    RaisesUnless (EState.ofExcept x >>= f) (∃ a, x = .ok a) :=
  (raisesUnless_ofExcept_bind hf).congr (Iff.of_eq (and_true _))

/-- A write that the switch carries out, or refuses with its tables as they were. -/
def IsWrite (write : ClientM (Except GrpcStatus Unit)) : Prop :=
  ∀ switch, (∃ status, write switch = .ok (.error status) switch) ∨
    ∃ switch', write switch = .ok (.ok ()) switch'

theorem isWrite_writeIpv4Lpm (type : UpdateType) (key : LpmKey) (action : Forward)
    (answer : Option GrpcStatus) : IsWrite (writeIpv4Lpm type key action answer) := by
  intro switch
  rw [writeIpv4Lpm_apply]
  cases writeTable type key action answer switch.ipv4Lpm with
  | error status => exact Or.inl ⟨status, rfl⟩
  | ok table => exact Or.inr ⟨_, rfl⟩

theorem isWrite_writeFlow5tuple (type : UpdateType) (key : FiveTupleKey) (action : Forward)
    (answer : Option GrpcStatus) : IsWrite (writeFlow5tuple type key action answer) := by
  intro switch
  rw [writeFlow5tuple_apply]
  cases writeTable type key action answer switch.flow5tuple with
  | error status => exact Or.inl ⟨status, rfl⟩
  | ok table => exact Or.inr ⟨_, rfl⟩

/-- A call returns `True` when its write is carried out. -/
theorem raisesUnless_write {write : ClientM (Except GrpcStatus Unit)} (hwrite : IsWrite write)
    {f : Except GrpcStatus Unit → ClientM Bool} (hok : f (.ok ()) = pure true)
    (herror : ∀ status, RaisesUnless (f (.error status)) True) :
    RaisesUnless (write >>= f) True := by
  intro switch
  obtain ⟨status, hrefused⟩ | ⟨switch', hdone⟩ := hwrite switch
  · rw [EState.bind_of_ok hrefused]
    exact herror status switch
  · rw [EState.bind_of_ok hdone, hok]
    trivial

section Calls

variable (dstIp : Json) (prefixLen : Nat) (nextHopMac : String) (port : Json) (answers : Answers)
  (keys : AssocMap P4Field Json) (priority : Int)

theorem modifyIpv4Route_raisesUnless :
    RaisesUnless (modifyIpv4Route dstIp prefixLen nextHopMac port answers)
      (∃ entry, routeEntry dstIp prefixLen nextHopMac port = .ok entry) := by
  refine raisesUnless_encoding fun entry _ => ?_
  exact raisesUnless_write (isWrite_writeIpv4Lpm _ _ _ _) rfl fun _ => raisesUnless_pure false

theorem insertIpv4Route_raisesUnless :
    RaisesUnless (insertIpv4Route dstIp prefixLen nextHopMac port answers)
      (∃ entry, routeEntry dstIp prefixLen nextHopMac port = .ok entry) := by
  have hmodify := modifyIpv4Route_raisesUnless dstIp prefixLen nextHopMac port answers
  refine raisesUnless_encoding fun entry hentry => ?_
  refine raisesUnless_write (isWrite_writeIpv4Lpm _ _ _ _) rfl fun status => ?_
  -- a refused insert may be a duplicate, and is tried again as a modify
  dsimp only
  split
  · exact hmodify.congr (iff_true_intro ⟨entry, hentry⟩)
  · exact raisesUnless_pure false

theorem deleteIpv4Route_raisesUnless :
    RaisesUnless (deleteIpv4Route dstIp prefixLen answers)
      (∃ value, inetAtonValue dstIp = .ok value) := by
  refine raisesUnless_encoding fun value _ => ?_
  refine raisesUnless_write (isWrite_writeIpv4Lpm _ _ _ _) rfl fun status => ?_
  cases status with
  | notFound => exact raisesUnless_pure true
  -- `UNKNOWN` is resolved by reading the table back
  | unknown =>
    dsimp only
    split
    · exact raisesUnless_pure false
    · exact fun switch => raisesUnless_pure (!ipv4RoutePresent value prefixLen switch) switch
  | _ => exact raisesUnless_pure false

theorem modify5tupleRule_raisesUnless :
    RaisesUnless (modify5tupleRule keys priority nextHopMac port answers)
      ((∃ key, build5tupleEntry keys priority = .ok key) ∧
        ∃ action, forwardAction nextHopMac port = .ok action) := by
  refine raisesUnless_ofExcept_bind fun key _ => ?_
  refine raisesUnless_encoding fun action _ => ?_
  exact raisesUnless_write (isWrite_writeFlow5tuple _ _ _ _) rfl fun _ => raisesUnless_pure false

theorem insert5tupleRule_raisesUnless :
    RaisesUnless (insert5tupleRule keys priority nextHopMac port answers)
      ((∃ key, build5tupleEntry keys priority = .ok key) ∧
        ∃ action, forwardAction nextHopMac port = .ok action) := by
  have hmodify := modify5tupleRule_raisesUnless nextHopMac port answers keys priority
  refine raisesUnless_ofExcept_bind fun key hkey => ?_
  refine raisesUnless_encoding fun action haction => ?_
  refine raisesUnless_write (isWrite_writeFlow5tuple _ _ _ _) rfl fun status => ?_
  -- the second write encodes the same key and action
  dsimp only
  split
  · exact hmodify.congr (iff_true_intro ⟨⟨key, hkey⟩, action, haction⟩)
  · exact raisesUnless_pure false

theorem delete5tupleRule_raisesUnless :
    RaisesUnless (delete5tupleRule keys priority answers)
      (∃ key, build5tupleEntry keys priority = .ok key) := by
  refine raisesUnless_encoding fun key _ => ?_
  exact raisesUnless_write (isWrite_writeFlow5tuple _ _ _ _) rfl fun _ => raisesUnless_pure false

end Calls

/-! ## Operations of the manager -/

/-- An operation ends in a bool or in a refusal exactly if `P`, and in the state it started from
    unless it returns `True`. -/
def AnswersIf (P : Prop) (m : TopologyManager) :
    EStateM.Result RouteError TopologyManager Bool → Prop
  | .ok true _ => P
  | .ok false m' => P ∧ m' = m
  | .error (.unsupportedMatch _) m' => P ∧ m' = m
  | .error (.python _) m' => ¬P ∧ m' = m

section Rules

variable {α : Type} {m : TopologyManager} {P Q : Prop}

theorem AnswersIf.congr {r : EStateM.Result RouteError TopologyManager Bool}
    (h : AnswersIf P m r) (hiff : P ↔ Q) : AnswersIf Q m r := by
  rw [← propext hiff]
  exact h

theorem answersIf_false : AnswersIf True m ((pure false : RouteM Bool) m) := ⟨trivial, rfl⟩

theorem answersIf_py_bind {x : Except Python.Error α} {f : α → RouteM Bool} {R : α → Prop}
    (hf : ∀ a, x = .ok a → AnswersIf (R a) m (f a m)) :
    AnswersIf (∃ a, x = .ok a ∧ R a) m ((py x >>= f) m) := by
  cases x with
  | error e => exact ⟨(fun ⟨_, h, _⟩ => nomatch h), rfl⟩
  | ok a =>
    refine AnswersIf.congr (hf a rfl) ⟨fun h => ⟨a, rfl, h⟩, ?_⟩
    intro ⟨a', heq, h⟩
    cases heq
    exact h

/-- The client call of an operation. -/
theorem answersIf_onSwitch {dpid : Int} {switch : P4Switch}
    (hswitch : m.switches.lookup dpid = some switch) {call : ClientM Bool}
    (hcall : RaisesUnless call P) : AnswersIf P m (onSwitch dpid call m) := by
  -- what is put back is what was there
  have hsame : m.withSwitch dpid switch = m := by
    unfold TopologyManager.withSwitch
    rw [AssocMap.set_of_lookup hswitch]
  have h := hcall switch
  cases hresult : call switch with
  | ok b switch' =>
    rw [hresult] at h
    rw [onSwitch_of_ok hswitch hresult]
    cases b with
    | true => exact h
    | false =>
      obtain ⟨hP, heq⟩ := h
      rw [heq, hsame]
      exact ⟨hP, rfl⟩
  | error e switch' =>
    rw [hresult] at h
    obtain ⟨hP, heq⟩ := h
    rw [onSwitch_of_error hswitch hresult, heq, hsame]
    exact ⟨hP, rfl⟩

/-- A call to the destination table, whose success is recorded. -/
theorem answersIf_onSwitch_record {dpid : Int} {switch : P4Switch}
    (hswitch : m.switches.lookup dpid = some switch) {call : ClientM Bool}
    (hcall : RaisesUnless call P) {record : RouteM Unit}
    (hrecord : ∀ m', ∃ m'', record m' = .ok () m'') :
    AnswersIf P m ((do
      let success ← onSwitch dpid call
      if success then do
        record
        return true
      else return false) m) := by
  have h := answersIf_onSwitch hswitch hcall
  cases hresult : onSwitch dpid call m with
  | ok b m' =>
    rw [hresult] at h
    rw [EState.bind_of_ok hresult]
    cases b with
    -- the record is written after the call, and cannot fail
    | true =>
      obtain ⟨m'', hm''⟩ := hrecord m'
      rw [if_pos rfl, EState.bind_of_ok hm'']
      exact h
    | false => exact h
  | error e m' =>
    rw [hresult] at h
    rw [EState.bind_of_error hresult]
    exact h

end Rules

theorem recordRoute_ok (dpid : Int) (ipv4Dst out : Json) (m : TopologyManager) :
    ∃ m', recordRoute dpid ipv4Dst out m = .ok () m' := by
  unfold recordRoute
  cases ipv4Dst with
  | str dst => cases Python.asInt? out <;> exact ⟨_, rfl⟩
  | _ => exact ⟨_, rfl⟩

theorem withdrawRoute_ok (dpid : Int) (ipv4Dst : Json) (m : TopologyManager) :
    ∃ m', withdrawRoute dpid ipv4Dst m = .ok () m' := by
  cases ipv4Dst <;> exact ⟨_, rfl⟩

/-! ## The checks -/

/-- A match that the checks refuse: it is not an object (null passes), it has a field that no
    table honours, or an `in_port` that does not fit its key. -/
def Refused : Json → Prop
  | .null => False
  | .obj fields => (∃ f ∈ fields, isUnsupported f.1 f.2 = true) ∨
      ∃ f ∈ fields, isInPortMatchField f.1 = true ∧ ¬FitsKey .ingressPort f.2
  | _ => True

theorem refuseUnsupported_obj (fields : List (String × Json)) :
    refuseUnsupported (.obj fields) = .ok () ∧ (∀ f ∈ fields, isUnsupported f.1 f.2 = false) ∨
      (∃ e, refuseUnsupported (.obj fields) = .error (.unsupportedMatch e)) ∧
        ∃ f ∈ fields, isUnsupported f.1 f.2 = true := by
  let bad := Python.sortedStrings ((fields.filter fun f => isUnsupported f.1 f.2).map Prod.fst)
  have heq : refuseUnsupported (.obj fields) =
      if bad.isEmpty then .ok () else .error (.unsupportedMatch (.unsupported bad)) := rfl
  -- the list in the message is empty exactly when there is nothing to refuse
  have hempty : bad.isEmpty = true ↔ ∀ f ∈ fields, isUnsupported f.1 f.2 = false := by
    have hlength : bad.length = (fields.filter fun f => isUnsupported f.1 f.2).length := by
      rw [← List.length_map (f := Prod.fst)]
      exact (List.perm_insertionSort _ _).length_eq
    rw [List.isEmpty_iff_length_eq_zero, hlength, List.length_eq_zero_iff, List.filter_eq_nil_iff]
    simp only [Bool.not_eq_true]
  rw [heq]
  by_cases hbad : bad.isEmpty = true
  · rw [if_pos hbad]
    exact Or.inl ⟨rfl, hempty.mp hbad⟩
  · rw [if_neg hbad]
    refine Or.inr ⟨⟨_, rfl⟩, ?_⟩
    by_contra hnone
    refine hbad (hempty.mpr fun f hf => ?_)
    exact Bool.eq_false_iff.mpr fun htrue => hnone ⟨f, hf, htrue⟩

theorem checkInPortValue_cases (field : String) (value : Json) (action : String) :
    checkInPortValue field value action = .ok () ∧ FitsKey .ingressPort value ∨
      (∃ e, checkInPortValue field value action = .error (.unsupportedMatch e)) ∧
        ¬FitsKey .ingressPort value := by
  rw [← encode5tupleValue_isOk_iff]
  unfold checkInPortValue
  cases hencode : encode5tupleValue .ingressPort value with
  | ok r => exact Or.inl ⟨rfl, r, rfl⟩
  | error e =>
    refine Or.inr ⟨?_, fun ⟨_, h⟩ => nomatch h⟩
    have hmem := encode5tupleValue_error hencode
    cases e with
    | valueError | overflowError | typeError | osError => exact ⟨_, rfl⟩
    -- the encoder raises none of these, so the `except` clause catches all
    | attributeError | keyError | indexError => exact absurd hmem (by decide)

theorem checkFields_cases (action : String) (fields : List (String × Json)) :
    checkFields action fields = .ok () ∧
        (∀ f ∈ fields, isInPortMatchField f.1 = true → FitsKey .ingressPort f.2) ∨
      (∃ e, checkFields action fields = .error (.unsupportedMatch e)) ∧
        ∃ f ∈ fields, isInPortMatchField f.1 = true ∧ ¬FitsKey .ingressPort f.2 := by
  -- the fields are checked in their sorted order, up to the first that does not fit
  induction fields with
  | nil => exact Or.inl ⟨rfl, fun _ hf => nomatch hf⟩
  | cons f rest ih =>
    obtain ⟨field, value⟩ := f
    have hskip : ∀ {x : Except RouteError Unit}, x = .ok () →
        (x >>= fun _ => checkFields action rest) = checkFields action rest := by
      rintro x rfl
      rfl
    unfold checkFields
    by_cases hfield : isInPortMatchField field = true
    · rw [if_pos hfield]
      obtain ⟨hok, hfits⟩ | ⟨⟨e, he⟩, hunfit⟩ := checkInPortValue_cases field value action
      · rw [hskip hok]
        obtain ⟨hrest, hall⟩ | ⟨hrest, g, hg, hbad⟩ := ih
        · exact Or.inl ⟨hrest, List.forall_mem_cons.mpr ⟨fun _ => hfits, hall⟩⟩
        · exact Or.inr ⟨hrest, g, List.mem_cons_of_mem _ hg, hbad⟩
      · refine Or.inr ⟨⟨e, ?_⟩, (field, value), List.mem_cons_self, hfield, hunfit⟩
        rw [he]
        rfl
    · rw [if_neg hfield]
      obtain ⟨hrest, hall⟩ | ⟨hrest, g, hg, hbad⟩ := ih
      · exact Or.inl ⟨hrest, List.forall_mem_cons.mpr ⟨fun h => absurd h hfield, hall⟩⟩
      · exact Or.inr ⟨hrest, g, List.mem_cons_of_mem _ hg, hbad⟩

/-- The checks of an operation: what they refuse ends in a refusal, and only a null match gets
    past them without being an object. -/
theorem answersIf_checkedMatch_bind {matchDict : Json} {action : String} {m : TopologyManager}
    {f : List (String × Json) → RouteM Bool} {R : List (String × Json) → Prop}
    (hf : ∀ fields, matchDict = .obj fields → AnswersIf (R fields) m (f fields m)) :
    AnswersIf (Refused matchDict ∨ ∃ fields, matchDict = .obj fields ∧ R fields) m
      ((checkedMatch matchDict action >>= f) m) := by
  cases matchDict with
  | obj fields =>
    have hrest : AnswersIf (∃ fields', Json.obj fields = .obj fields' ∧ R fields') m
        (f fields m) := by
      refine AnswersIf.congr (hf fields rfl) ⟨fun h => ⟨fields, rfl, h⟩, ?_⟩
      intro ⟨fields', heq, h⟩
      cases heq
      exact h
    obtain ⟨hsupported, hall⟩ | ⟨⟨e, he⟩, hbad⟩ := refuseUnsupported_obj fields
    · obtain ⟨hchecked, hfit⟩ | ⟨⟨e, he⟩, f', hf', hport, hunfit⟩ :=
        checkFields_cases action (Python.sortedItems fields)
      · -- nothing to refuse
        have hnot : ¬Refused (.obj fields) := by
          rintro (⟨g, hg, htrue⟩ | ⟨g, hg, hport, hunfit⟩)
          · rw [hall g hg] at htrue
            exact nomatch htrue
          · exact hunfit (hfit g (mem_sortedItems.mpr hg) hport)
        have hok : checkedMatch (.obj fields) action m = .ok fields m := by
          unfold checkedMatch
          rw [EState.ofExcept_bind hsupported]
          exact EState.ofExcept_bind hchecked _ _
        rw [EState.bind_of_ok hok]
        exact hrest.congr ⟨Or.inr, fun h => h.resolve_left hnot⟩
      · have hrefused : Refused (.obj fields) :=
          Or.inr ⟨f', mem_sortedItems.mp hf', hport, hunfit⟩
        have herror : checkedMatch (.obj fields) action m = .error (.unsupportedMatch e) m := by
          unfold checkedMatch checkMatchValues
          rw [EState.ofExcept_bind hsupported]
          dsimp only
          rw [he]
          rfl
        rw [EState.bind_of_error herror]
        exact ⟨Or.inl hrefused, rfl⟩
    · have herror : checkedMatch (.obj fields) action m = .error (.unsupportedMatch e) m := by
        unfold checkedMatch
        rw [he]
        rfl
      rw [EState.bind_of_error herror]
      exact ⟨Or.inl (Or.inl hbad), rfl⟩
  | null =>
    -- no field is unsupported, no in_port is checked, and there is no `get`
    refine ⟨?_, rfl⟩
    rintro (h | ⟨_, h, _⟩)
    · exact h
    · exact nomatch h
  | _ => exact ⟨Or.inl trivial, rfl⟩

/-- Two spellings of a key that ask for different values. -/
def Conflicting (fields : List (String × Json)) : Prop := ∃ e, fiveTupleKeys fields = .error e

theorem collectKeys_error {keys : AssocMap P4Field Json} {items : List (String × Json)}
    {e : RouteError} (h : collectKeys keys items = .error e) : ∃ e', e = .unsupportedMatch e' := by
  induction items generalizing keys with
  | nil => exact nomatch h
  | cons item items ih =>
    obtain ⟨field, value⟩ := item
    unfold collectKeys at h
    cases hfield : fiveTupleField? field with
    | none =>
      rw [hfield] at h
      exact ih h
    | some p4Field =>
      rw [hfield] at h
      cases hold : keys.lookup p4Field with
      | none =>
        simp only [hold] at h
        exact ih h
      | some value' =>
        simp only [hold] at h
        split at h
        · exact ih h
        · cases h
          exact ⟨_, rfl⟩

theorem answersIf_fiveTupleKeys_bind {fields : List (String × Json)} {m : TopologyManager}
    {f : AssocMap P4Field Json → RouteM Bool} {P : Prop}
    (hf : ∀ keys, fiveTupleKeys fields = .ok keys → AnswersIf P m (f keys m)) :
    AnswersIf (Conflicting fields ∨ P) m ((EState.ofExcept (fiveTupleKeys fields) >>= f) m) := by
  cases hkeys : fiveTupleKeys fields with
  | error e =>
    obtain ⟨e', rfl⟩ := collectKeys_error hkeys
    exact ⟨Or.inl ⟨_, hkeys⟩, rfl⟩
  | ok keys =>
    have hnot : ¬Conflicting fields := by
      intro ⟨e, he⟩
      rw [hkeys] at he
      exact nomatch he
    exact (hf keys hkeys).congr ⟨Or.inr, fun h => h.resolve_left hnot⟩

/-! ## Requests -/

/-- The operations on a flow. -/
inductive FlowOperation where
  | routeFlow (actions : Json)
  | unrouteFlow
  | modifyFlow (actions : Json)

namespace FlowOperation

def run (dpid matchDict priority : Json) (answers : Answers) : FlowOperation → RouteM Bool
  | .routeFlow actions => Proxy.routeFlow dpid matchDict actions priority answers
  | .unrouteFlow => Proxy.unrouteFlow dpid matchDict priority answers
  | .modifyFlow actions => Proxy.modifyFlow dpid matchDict actions priority answers

end FlowOperation

/-- Actions that the loop over them can read: objects, or nothing to iterate over. -/
def ReadableActions : Json → Prop
  | .arr elems => ∀ action ∈ elems, action.isObject = true
  | .obj [] | .str "" => True
  | _ => False

/-- What the writes encode of a rule, out of a port that was asked for. -/
def CanStore (net : NetGraph) (fields : List (String × Json)) (priority out : Json) : Prop :=
  if needsFiveTuple (.obj fields) then
    Conflicting fields ∨ (ValuesFit fields ∧ p4Priority priority < 2 ^ 31) ∧
      HasMac net (ipv4DstOf fields) ∧ FitsPort out
  else if Python.truthy (ipv4DstOf fields) then
    IsAddress (ipv4DstOf fields) ∧ HasMac net (ipv4DstOf fields) ∧ FitsPort out
  else True

/-- What a delete encodes. -/
def CanDelete (fields : List (String × Json)) (priority : Json) : Prop :=
  if needsFiveTuple (.obj fields) then
    Conflicting fields ∨ ValuesFit fields ∧ p4Priority priority < 2 ^ 31
  else if Python.truthy (ipv4DstOf fields) then IsAddress (ipv4DstOf fields)
  else True

/-- The values of a request that is not refused fit where they are put. -/
def FlowOperation.Encodable (net : NetGraph) (fields : List (String × Json)) (priority : Json) :
    FlowOperation → Prop
  | .routeFlow actions | .modifyFlow actions => ReadableActions actions ∧
      ∀ out, outPort actions = .ok out → out ≠ .null → CanStore net fields priority out
  | .unrouteFlow => CanDelete fields priority

/-- A datapath id that can be looked up. -/
def Hashable : Json → Prop
  | .arr _ | .obj _ => False
  | _ => True

/-- The requests that end in a bool or in a refusal: of a switch that is not known, of a match
    that is refused, or with values that can be encoded. -/
def FlowOperation.Answerable (m : TopologyManager) (dpid matchDict priority : Json)
    (op : FlowOperation) : Prop :=
  Hashable dpid ∧ ∀ d, knownDpid m dpid = .ok (some d) →
    Refused matchDict ∨ ∃ fields, matchDict = .obj fields ∧ op.Encodable m.net fields priority

theorem isOk_outPortOf_iff (out : Json) (elems : List Json) :
    (∃ out', outPortOf out elems = .ok out') ↔ ∀ action ∈ elems, action.isObject = true := by
  induction elems generalizing out with
  | nil => exact iff_of_true ⟨_, rfl⟩ fun _ h => nomatch h
  | cons action rest ih =>
    rw [List.forall_mem_cons]
    cases action with
    | obj fields =>
      unfold outPortOf
      split
      · -- an output action replaces the port found so far, and the loop goes on
        rw [ih]
        exact ⟨fun h => ⟨rfl, h⟩, fun h => h.2⟩
      · rw [ih]
        exact ⟨fun h => ⟨rfl, h⟩, fun h => h.2⟩
    -- only an object has the `get` of the loop
    | _ => exact iff_of_false (fun ⟨_, h⟩ => nomatch h) fun h => nomatch h.1

theorem isOk_outPort_iff (actions : Json) :
    (∃ out, outPort actions = .ok out) ↔ ReadableActions actions := by
  cases actions with
  | arr elems => exact isOk_outPortOf_iff _ _
  | obj fields =>
    cases fields with
    -- an empty object has nothing to iterate over; any other yields its keys
    | nil => exact iff_of_true ⟨_, rfl⟩ trivial
    | cons f rest => exact iff_of_false (fun ⟨_, h⟩ => nomatch h) id
  | str s =>
    by_cases hs : s = ""
    · subst hs
      exact iff_of_true ⟨_, rfl⟩ trivial
    · simp [outPort, ReadableActions, hs]
  | _ => exact iff_of_false (fun ⟨_, h⟩ => nomatch h) id

section Known

variable {m : TopologyManager} {d : Int} {switch : P4Switch} {fields : List (String × Json)}
  {priority : Json}

/-- An operation that stores a rule, past its checks. -/
theorem answersIf_store (hswitch : m.switches.lookup d = some switch) (actions : Json)
    {storeRule : AssocMap P4Field Json → String → Json → ClientM Bool}
    {storeRoute : String → Json → ClientM Bool}
    (hrule : ∀ keys mac out, RaisesUnless (storeRule keys mac out)
      ((∃ key, build5tupleEntry keys (p4Priority priority) = .ok key) ∧
        ∃ action, forwardAction mac out = .ok action))
    (hroute : ∀ mac out, RaisesUnless (storeRoute mac out)
      (∃ entry, routeEntry (ipv4DstOf fields) 32 mac out = .ok entry)) :
    AnswersIf (ReadableActions actions ∧
        ∀ out, outPort actions = .ok out → out ≠ .null → CanStore m.net fields priority out) m
      ((do
        match ← py (outPort actions) with
        | .null => return false
        | out =>
          if needsFiveTuple (.obj fields) then do
            let keys ← EState.ofExcept (fiveTupleKeys fields)
            let mac ← py (nextHopMac5tuple m.net (ipv4DstOf fields))
            onSwitch d (storeRule keys mac out)
          else if Python.truthy (ipv4DstOf fields) then do
            let mac ← py (nextHopMac m.net (ipv4DstOf fields))
            let success ← onSwitch d (storeRoute mac out)
            if success then do
              recordRoute d (ipv4DstOf fields) out
              return true
            else return false
          else return false) m) := by
  have hport : (∃ out, outPort actions = .ok out ∧
        (out ≠ .null → CanStore m.net fields priority out)) ↔
      ReadableActions actions ∧
        ∀ out, outPort actions = .ok out → out ≠ .null → CanStore m.net fields priority out := by
    rw [← isOk_outPort_iff]
    constructor
    · intro ⟨out, hout, h⟩
      refine ⟨⟨out, hout⟩, ?_⟩
      intro out' hout'
      cases hout.symm.trans hout'
      exact h
    · intro ⟨⟨out, hout⟩, h⟩
      exact ⟨out, hout, h out hout⟩
  -- without an output port the operation returns `False` before any write
  refine AnswersIf.congr (answersIf_py_bind fun out _ => ?_) hport
  by_cases hnull : out = .null
  · subst hnull
    exact answersIf_false.congr (iff_of_true trivial fun h => absurd rfl h)
  · -- one of the two tables
    have hstore : AnswersIf (CanStore m.net fields priority out) m
        ((if needsFiveTuple (.obj fields) then do
            let keys ← EState.ofExcept (fiveTupleKeys fields)
            let mac ← py (nextHopMac5tuple m.net (ipv4DstOf fields))
            onSwitch d (storeRule keys mac out)
          else if Python.truthy (ipv4DstOf fields) then do
            let mac ← py (nextHopMac m.net (ipv4DstOf fields))
            let success ← onSwitch d (storeRoute mac out)
            if success then do
              recordRoute d (ipv4DstOf fields) out
              return true
            else return false
          else return false : RouteM Bool) m) := by
      unfold CanStore
      split
      · -- the 5-tuple table: the key is encoded after the MAC is found
        refine answersIf_fiveTupleKeys_bind fun keys hkeys => ?_
        refine AnswersIf.congr (answersIf_py_bind fun mac _ =>
          answersIf_onSwitch hswitch (hrule keys mac out)) ?_
        simp only [build5tupleEntry_isOk_iff hkeys, isOk_forwardAction_iff]
        constructor
        · intro ⟨mac, hmac, hfit, ⟨bytes, hbytes⟩, hout⟩
          exact ⟨hfit, ⟨mac, bytes, hmac, hbytes⟩, hout⟩
        · intro ⟨hfit, ⟨mac, bytes, hmac, hbytes⟩, hout⟩
          exact ⟨mac, hmac, hfit, ⟨bytes, hbytes⟩, hout⟩
      · split
        · -- the destination table; the MAC is looked up under the same address
          next hdst =>
          refine AnswersIf.congr (answersIf_py_bind fun mac _ =>
            answersIf_onSwitch_record hswitch (hroute mac out) (recordRoute_ok d _ out)) ?_
          have hmacOf : nextHopMac5tuple m.net (ipv4DstOf fields) =
              nextHopMac m.net (ipv4DstOf fields) := if_pos hdst
          simp only [isOk_routeEntry_iff, HasMac, hmacOf]
          constructor
          · intro ⟨mac, hmac, haddress, ⟨bytes, hbytes⟩, hout⟩
            exact ⟨haddress, ⟨mac, bytes, hmac, hbytes⟩, hout⟩
          · intro ⟨haddress, ⟨mac, bytes, hmac, hbytes⟩, hout⟩
            exact ⟨mac, hmac, haddress, ⟨bytes, hbytes⟩, hout⟩
        · exact answersIf_false
    cases out with
    | null => exact absurd rfl hnull
    | _ => exact hstore.congr ⟨fun h _ => h, fun h => h hnull⟩

/-- A delete, past its checks. -/
theorem answersIf_delete (hswitch : m.switches.lookup d = some switch) (answers : Answers) :
    AnswersIf (CanDelete fields priority) m
      ((if needsFiveTuple (.obj fields) then do
          let keys ← EState.ofExcept (fiveTupleKeys fields)
          onSwitch d (delete5tupleRule keys (p4Priority priority) answers)
        else if Python.truthy (ipv4DstOf fields) then do
          let success ← onSwitch d (deleteIpv4Route (ipv4DstOf fields) 32 answers)
          if success then do
            withdrawRoute d (ipv4DstOf fields)
            return true
          else return false
        else return false : RouteM Bool) m) := by
  unfold CanDelete
  split
  · refine answersIf_fiveTupleKeys_bind fun keys hkeys => ?_
    have hcall := delete5tupleRule_raisesUnless answers keys (p4Priority priority)
    exact answersIf_onSwitch hswitch (hcall.congr (build5tupleEntry_isOk_iff hkeys priority))
  · split
    · have hcall := deleteIpv4Route_raisesUnless (ipv4DstOf fields) 32 answers
      exact answersIf_onSwitch_record hswitch (hcall.congr (isOk_inetAtonValue_iff _))
        (withdrawRoute_ok d _)
    · exact answersIf_false

end Known

theorem isOk_knownDpid_iff (m : TopologyManager) (dpid : Json) :
    (∃ known, knownDpid m dpid = .ok known) ↔ Hashable dpid := by
  cases dpid with
  | arr elems => exact iff_of_false (fun ⟨_, h⟩ => nomatch h) id
  | obj fields => exact iff_of_false (fun ⟨_, h⟩ => nomatch h) id
  | _ => exact iff_of_true ⟨_, rfl⟩ trivial

/-- An operation that looks up its switch. -/
theorem answersIf_knownDpid_bind {m : TopologyManager} {dpid : Json} {f : Int → RouteM Bool}
    {P : Prop} (hf : ∀ d, knownDpid m dpid = .ok (some d) → AnswersIf P m (f d m)) :
    AnswersIf (Hashable dpid ∧ ∀ d, knownDpid m dpid = .ok (some d) → P) m
      ((do
        match ← py (knownDpid m dpid) with
        | none => return false
        | some d => f d) m) := by
  have hknown : (∃ known, knownDpid m dpid = .ok known ∧ (known ≠ none → P)) ↔
      Hashable dpid ∧ ∀ d, knownDpid m dpid = .ok (some d) → P := by
    rw [← isOk_knownDpid_iff m]
    constructor
    · intro ⟨known, hd, h⟩
      refine ⟨⟨known, hd⟩, ?_⟩
      intro d hd'
      cases hd.symm.trans hd'
      exact h nofun
    · intro ⟨⟨known, hd⟩, h⟩
      refine ⟨known, hd, ?_⟩
      intro hne
      obtain ⟨d, rfl⟩ := Option.ne_none_iff_exists'.mp hne
      exact h d hd
  refine AnswersIf.congr (answersIf_py_bind fun known hd => ?_) hknown
  cases known with
  | none => exact answersIf_false.congr (iff_of_true trivial fun h => absurd rfl h)
  | some d => exact (hf d hd).congr ⟨fun h _ => h, fun h => h nofun⟩

/-- Every operation, from every state. -/
theorem answersIf_run (op : FlowOperation) (dpid matchDict priority : Json) (answers : Answers)
    (m : TopologyManager) :
    AnswersIf (op.Answerable m dpid matchDict priority) m
      (op.run dpid matchDict priority answers m) := by
  cases op with
  | routeFlow actions =>
    refine answersIf_knownDpid_bind fun d hd => ?_
    obtain ⟨switch, hswitch⟩ := knownDpid_ok hd
    refine answersIf_checkedMatch_bind fun fields hfields => ?_
    subst hfields
    exact answersIf_store hswitch actions
      (fun keys mac out => insert5tupleRule_raisesUnless mac out answers keys _)
      fun mac out => insertIpv4Route_raisesUnless _ 32 mac out answers
  | unrouteFlow =>
    refine answersIf_knownDpid_bind fun d hd => ?_
    obtain ⟨switch, hswitch⟩ := knownDpid_ok hd
    refine answersIf_checkedMatch_bind fun fields hfields => ?_
    subst hfields
    exact answersIf_delete hswitch answers
  | modifyFlow actions =>
    refine answersIf_knownDpid_bind fun d hd => ?_
    obtain ⟨switch, hswitch⟩ := knownDpid_ok hd
    refine answersIf_checkedMatch_bind fun fields hfields => ?_
    subst hfields
    exact answersIf_store hswitch actions
      (fun keys mac out => modify5tupleRule_raisesUnless mac out answers keys _)
      fun mac out => modifyIpv4Route_raisesUnless _ 32 mac out answers

/-! ## Main results -/

/-- A bool or a refusal, and nothing else; and where it is not `True`, everything is as it was. -/
def Answered (m : TopologyManager) : EStateM.Result RouteError TopologyManager Bool → Prop
  | .ok true _ => True
  | .ok false m' => m' = m
  | .error (.unsupportedMatch _) m' => m' = m
  | .error (.python _) _ => False

/-- An operation that returns `False` or raises, whatever it raises, has changed no switch and no
    record. -/
theorem refused_unchanged (op : FlowOperation) (dpid matchDict priority : Json)
    (answers : Answers) (m : TopologyManager) :
    (∃ m', op.run dpid matchDict priority answers m = .ok true m') ∨
      EState.finalState (op.run dpid matchDict priority answers) m = m := by
  have h := answersIf_run op dpid matchDict priority answers m
  unfold EState.finalState
  cases hresult : op.run dpid matchDict priority answers m with
  | ok b m' =>
    rw [hresult] at h
    cases b with
    | true => exact Or.inl ⟨m', rfl⟩
    | false => exact Or.inr h.2
  | error e m' =>
    rw [hresult] at h
    cases e with
    | unsupportedMatch e => exact Or.inr h.2
    | python e => exact Or.inr h.2

/-- The three operations end in a bool or in a refusal, and change nothing unless they return
    `True`, exactly for the requests whose values can be looked up, read and encoded. -/
theorem flowOp_answered_iff (op : FlowOperation) (dpid matchDict priority : Json)
    (answers : Answers) (m : TopologyManager) :
    Answered m (op.run dpid matchDict priority answers m) ↔
      op.Answerable m dpid matchDict priority := by
  have h := answersIf_run op dpid matchDict priority answers m
  cases hresult : op.run dpid matchDict priority answers m with
  | ok b m' =>
    rw [hresult] at h
    cases b with
    | true => exact iff_of_true trivial h
    | false => exact iff_of_true h.2 h.1
  | error e m' =>
    rw [hresult] at h
    cases e with
    | unsupportedMatch e => exact iff_of_true h.2 h.1
    | python e => exact iff_of_false id h.1

/-- A rule with a null match is no refusal. -/
theorem null_match_raises :
    ¬ ∀ (op : FlowOperation) (dpid matchDict priority : Json) (answers : Answers)
      (m : TopologyManager), Answered m (op.run dpid matchDict priority answers m) := by
  intro h
  exact h (.routeFlow Spec.outputOne) (.int 1) .null (.int 10) {} Spec.oneSwitch

end Ndtwin.Proxy

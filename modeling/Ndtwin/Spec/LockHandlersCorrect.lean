import Ndtwin.Kernel.LockHandlers

/-!
# What a malformed lock request does

A request should touch the lock that its body names, or the default one when the body is
absent or leaves the type out; a malformed body should be refused. The handlers of acquire and
renew swallow every exception and go on with the defaults, so a malformed body acts on a lock
that nobody named, unless the manager refuses the call anyway.

Key results:
- `handle_cases`: a handler refuses early, or makes one call of the lock manager
- `respects_of_wellFormed`: a well-formed request touches what it names
- `respects_iff`: the requests and lock states for which a handler behaves
-/

namespace Ndtwin.Kernel

namespace LockManager

/-! ## When a call succeeds -/

theorem renew_fst (m : LockManager) (now : Int) (name : String) (ttl : Int) :
    (m.renew now name ttl).1 = true ↔
      stringToLockType name ≠ .unknown ∧ (m.state (stringToLockType name)).isLocked = true := by
  unfold renew state
  by_cases hname : stringToLockType name = .unknown
  · simp [hname]
  · cases h : m.locks.lookup (stringToLockType name) with
    | none => simp [hname, h]
    | some st => cases hst : st.isLocked <;> simp [hname, h, hst]

theorem unlock_fst (m : LockManager) (name : String) :
    (m.unlock name).1 = true ↔
      stringToLockType name ≠ .unknown ∧ (m.state (stringToLockType name)).isLocked = true := by
  unfold unlock state
  by_cases hname : stringToLockType name = .unknown
  · simp [hname]
  · cases h : m.locks.lookup (stringToLockType name) with
    | none => simp [hname, h]
    | some st => cases hst : st.isLocked <;> simp [hname, h, hst]

theorem acquireLock_fst (m : LockManager) (now : Int) (name : String) (ttl : Int) :
    (m.acquireLock now name ttl).1 = true ↔
      stringToLockType name ≠ .unknown ∧
        ¬ ((m.state (stringToLockType name)).isLocked = true ∧
          now < (m.state (stringToLockType name)).expiryTime) := by
  unfold acquireLock
  by_cases hname : stringToLockType name = .unknown
  · simp [hname]
  · by_cases hheld : (m.state (stringToLockType name)).isLocked = true ∧
      now < (m.state (stringToLockType name)).expiryTime <;> simp [hname, hheld]

end LockManager

namespace LockHandlers

open LockManager

/-! ## The request -/

/-- The three endpoints. -/
inductive Endpoint where
  | acquire
  | renew
  | release
  deriving DecidableEq, Repr

/-- The handler of an endpoint. -/
def handle (m : LockManager) (now : Int) : Endpoint → RequestBody → JsonReply × LockManager
  | .acquire, body => handleAcquireLock m now body
  | .renew, body => handleRenewLock m now body
  | .release, body => handleReleaseLock m body

/-- A JSON number. -/
def IsNumber : Json → Prop
  | .uint _ | .int _ | .float _ _ => True
  | _ => False

/-- The lock that a body names: by its type, or the default one when it leaves the type out. -/
inductive Names : RequestBody → LockType → Prop where
  | empty : Names .empty (stringToLockType defaultLockTypeStr)
  | omitted {jsonBody : Json} (hobj : jsonBody.isObject = true)
      (htype : jsonBody.field? "type" = none) :
      Names (.json jsonBody) (stringToLockType defaultLockTypeStr)
  | named {jsonBody : Json} {lockType : String}
      (htype : jsonBody.field? "type" = some (.str lockType)) :
      Names (.json jsonBody) (stringToLockType lockType)

/-- A body that is not JSON, or whose type or TTL has the wrong JSON type. -/
inductive Invalid : RequestBody → Prop where
  | notJson : Invalid .notJson
  | type {jsonBody value : Json} (htype : jsonBody.field? "type" = some value)
      (hvalue : ∀ s, value ≠ .str s) : Invalid (.json jsonBody)
  | ttl {jsonBody value : Json} (httl : jsonBody.field? "ttl" = some value)
      (hvalue : ¬ IsNumber value) : Invalid (.json jsonBody)

/-- An empty body, or an object whose type and TTL, where it has them, have the right types. -/
inductive WellFormed : RequestBody → Prop where
  | empty : WellFormed .empty
  | object {jsonBody : Json} (hobj : jsonBody.isObject = true)
      (htype : ∀ value, jsonBody.field? "type" = some value → ∃ s, value = .str s)
      (httl : ∀ value, jsonBody.field? "ttl" = some value → IsNumber value) :
      WellFormed (.json jsonBody)

/-- The request touches no lock that it does not name, and an invalid one touches none and is
    refused. -/
structure Respects (m : LockManager) (now : Int) (e : Endpoint) (body : RequestBody) : Prop where
  named : ∀ t, (handle m now e body).2.state t ≠ m.state t → Names body t
  refused : Invalid body →
    (handle m now e body).1.status ≠ 200 ∧ ∀ t, (handle m now e body).2.state t = m.state t

theorem WellFormed.not_invalid {body : RequestBody} (h : WellFormed body) : ¬ Invalid body := by
  intro hinv
  cases hinv with
  | notJson => exact nomatch h
  | type htype hvalue =>
    cases h with
    | object _ hstr _ =>
      obtain ⟨s, hs⟩ := hstr _ htype
      exact hvalue s hs
  | ttl httl hvalue =>
    cases h with
    | object _ _ hnum => exact hvalue (hnum _ httl)

/-- A body that is neither well-formed nor invalid is a JSON value without fields. -/
theorem wellFormed_or_invalid (body : RequestBody) :
    WellFormed body ∨ Invalid body ∨ ∃ value, body = .json value ∧ value.isObject = false := by
  cases body with
  | empty => exact .inl .empty
  | notJson => exact .inr (.inl .notJson)
  | json jsonBody =>
    by_cases hobj : jsonBody.isObject = true
    · by_cases htype : ∀ value, jsonBody.field? "type" = some value → ∃ s, value = .str s
      · by_cases httl : ∀ value, jsonBody.field? "ttl" = some value → IsNumber value
        · exact .inl (.object hobj htype httl)
        · simp only [not_forall] at httl
          obtain ⟨value, hvalue, hnum⟩ := httl
          exact .inr (.inl (.ttl hvalue hnum))
      · simp only [not_forall] at htype
        obtain ⟨value, hvalue, hstr⟩ := htype
        exact .inr (.inl (.type hvalue fun s hs => hstr ⟨s, hs⟩))
    · -- an array, a number or the like: it parses, and `contains` finds no field
      exact .inr (.inr ⟨jsonBody, rfl, by simpa using hobj⟩)

/-! ## What the handlers read -/

/-- The type in the body when it is a string, else the default one. -/
def givenType : RequestBody → String
  | .json jsonBody =>
    match jsonBody.field? "type" with
    | some (.str lockType) => lockType
    | _ => defaultLockTypeStr
  | _ => defaultLockTypeStr

/-- The TTL in the body, if there is one, can be read as an `int`. -/
def TtlReadable : RequestBody → Prop
  | .json jsonBody => Json.IntField jsonBody "ttl"
  | _ => True

instance (body : RequestBody) : Decidable (TtlReadable body) :=
  match body with
  | .json jsonBody => inferInstanceAs (Decidable (Json.IntField jsonBody "ttl"))
  | .empty | .notJson => inferInstanceAs (Decidable True)

/-- The type that a handler passes on: renew falls back to the default one when it cannot read
    the TTL, which it reads first. -/
def usedType : Endpoint → RequestBody → String
  | .renew, body => if TtlReadable body then givenType body else defaultLockTypeStr
  | _, body => givenType body

theorem valueType_cases (jsonBody : Json) :
    (∃ e, valueType jsonBody = .error e ∧ givenType (.json jsonBody) = defaultLockTypeStr) ∨
      valueType jsonBody = .ok (givenType (.json jsonBody)) := by
  cases jsonBody with
  | obj fields =>
    simp only [valueType, givenType]
    cases h : (Json.obj fields).field? "type" with
    | none => exact .inr (Json.valueOr_obj_of_none h)
    | some value =>
      rw [Json.valueOr_of_field h]
      cases value with
      | str s => exact .inr rfl
      -- a type that is no string: `value` throws
      | _ => exact .inl ⟨_, rfl, rfl⟩
  -- no object: `value` throws whatever the key
  | _ => exact .inl ⟨_, rfl, rfl⟩

theorem acquireArgs_lockType (body : RequestBody) :
    (acquireArgs body).lockType = usedType .acquire body := by
  cases body with
  | json jsonBody =>
    simp only [acquireArgs, RequestBody.parse, usedType]
    rcases valueType_cases jsonBody with ⟨e, htype, hgiven⟩ | htype
    · simp only [htype, hgiven]
    · simp only [htype]
      cases valueTtl jsonBody <;> rfl
  | _ => rfl

/-- The second read of renew, once the first has given a TTL. -/
private theorem renew_second_read (jsonBody : Json) (ttl : Int) :
    (match (if (jsonBody.field? "type").isSome then valueType jsonBody
        else .ok defaultLockTypeStr) with
      | .error _ => ({ ttl } : LockArgs)
      | .ok lockType => { lockType, ttl }).lockType = givenType (.json jsonBody) := by
  cases h : jsonBody.field? "type" with
  | none => simp [givenType, h]
  | some value =>
    rcases valueType_cases jsonBody with ⟨e, herr, hgiven⟩ | hok
    · simp [herr, hgiven]
    · simp [hok]

theorem renewArgs_lockType (body : RequestBody) :
    (renewArgs body).lockType = usedType .renew body := by
  cases body with
  | json jsonBody =>
    simp only [renewArgs, RequestBody.parse, usedType]
    cases hfield : jsonBody.field? "ttl" with
    | none =>
      have hread : TtlReadable (.json jsonBody) := by simp [TtlReadable, Json.IntField, hfield]
      rw [if_pos hread]
      exact renew_second_read jsonBody _
    | some value =>
      have hvalue : valueTtl jsonBody = value.getInt := Json.valueOr_of_field hfield
      have hread : TtlReadable (.json jsonBody) ↔ value.getInt.isOk = true := by
        simp [TtlReadable, Json.IntField, hfield, Json.getInt_isOk_iff]
      simp only [Option.isSome_some, ↓reduceIte, hvalue, hread]
      -- a TTL that cannot be read ends the `try` before the type is looked at
      cases value.getInt with
      | error e => rfl
      | ok ttl => exact renew_second_read jsonBody ttl
  | _ => rfl

/-- A JSON value without fields leaves the TTL at its default too. -/
theorem args_ttl_of_not_object {value : Json} (h : value.isObject = false) :
    (acquireArgs (.json value)).ttl = defaultTtlSeconds ∧
      (renewArgs (.json value)).ttl = defaultTtlSeconds := by
  cases value with
  | obj _ => exact nomatch h
  | _ => exact ⟨rfl, rfl⟩

/-! ## What the handlers do -/

/-- The request cannot take effect: it is refused early, it names no lock, or the manager
    refuses the call in the present state. -/
def Refused (m : LockManager) (now : Int) (e : Endpoint) (body : RequestBody) : Prop :=
  let type := stringToLockType (usedType e body)
  type = .unknown ∨
    match e with
    | .acquire => (m.state type).isLocked = true ∧ now < (m.state type).expiryTime
    | .renew => (m.state type).isLocked = false
    | .release =>
      body = .notJson ∨
        (∃ jsonBody value, body = .json jsonBody ∧ jsonBody.field? "type" = some value ∧
          ∀ s, value ≠ .str s) ∨
        (m.state type).isLocked = false

/-- What a request that takes effect leaves in its lock. -/
def written (m : LockManager) (now : Int) (body : RequestBody) : Endpoint → LockState
  | .acquire =>
    { isLocked := true, expiryTime := now + (acquireArgs body).ttl * ticksPerSecond }
  | .renew => { isLocked := true, expiryTime := now + (renewArgs body).ttl * ticksPerSecond }
  | .release => { m.state (stringToLockType (usedType .release body)) with isLocked := false }

/-- What an endpoint does with the answer of the manager. -/
def Carries (m : LockManager) (now : Int) (e : Endpoint) (body : RequestBody) : Prop :=
  (Refused m now e body ∧ (handle m now e body).1.status ≠ 200 ∧
    ∀ t, (handle m now e body).2.state t = m.state t) ∨
  (¬ Refused m now e body ∧ (handle m now e body).1.status = 200 ∧
    ∀ t, (handle m now e body).2.state t =
      if t = stringToLockType (usedType e body) then written m now body e else m.state t)

theorem acquire_carries (m : LockManager) (now : Int) (body : RequestBody) :
    Carries m now .acquire body := by
  have hfst := acquireLock_fst m now (acquireArgs body).lockType (acquireArgs body).ttl
  have hcases := acquireLock_cases m now (acquireArgs body).lockType (acquireArgs body).ttl
  simp only [Carries, Refused, written, handle, handleAcquireLock, ← acquireArgs_lockType]
  cases h : m.acquireLock now (acquireArgs body).lockType (acquireArgs body).ttl with
  | mk success m' =>
    rw [h] at hfst hcases
    cases success with
    | true =>
      obtain ⟨hname, hfree⟩ := hfst.mp rfl
      obtain ⟨hfalse, _⟩ | ⟨_, _, hstate⟩ := hcases
      · exact nomatch hfalse
      · exact .inr ⟨not_or.mpr ⟨hname, hfree⟩, rfl, hstate⟩
    | false =>
      obtain ⟨_, hstate⟩ | ⟨htrue, _⟩ := hcases
      · refine .inl ⟨?_, by simp, hstate⟩
        -- the call was refused, so one of the conditions of its success fails
        have hno : ¬ _ := fun hyes => Bool.false_ne_true (hfst.mpr hyes)
        rwa [not_and_or, not_not, not_not] at hno
      · exact nomatch htrue

theorem renew_carries (m : LockManager) (now : Int) (body : RequestBody) :
    Carries m now .renew body := by
  have hfst := renew_fst m now (renewArgs body).lockType (renewArgs body).ttl
  have hcases := renew_cases m now (renewArgs body).lockType (renewArgs body).ttl
  simp only [Carries, Refused, written, handle, handleRenewLock, ← renewArgs_lockType]
  cases h : m.renew now (renewArgs body).lockType (renewArgs body).ttl with
  | mk success m' =>
    rw [h] at hfst hcases
    cases success with
    | true =>
      obtain ⟨hname, hlocked⟩ := hfst.mp rfl
      obtain ⟨hfalse, _⟩ | ⟨_, hstate⟩ := hcases
      · exact nomatch hfalse
      · refine .inr ⟨not_or.mpr ⟨hname, ?_⟩, rfl, hstate⟩
        simp [hlocked]
    | false =>
      obtain ⟨_, hstate⟩ | ⟨htrue, _⟩ := hcases
      · refine .inl ⟨?_, by simp, hstate⟩
        -- the call was refused, so one of the conditions of its success fails
        have hno : ¬ _ := fun hyes => Bool.false_ne_true (hfst.mpr hyes)
        rwa [not_and_or, not_not, Bool.not_eq_true] at hno
      · exact nomatch htrue

/-- The handler of release calls the manager, unless it can tell that the body is invalid. -/
private theorem releaseType_cases (body : RequestBody) :
    (∃ reply, releaseType body = .error reply ∧ reply.status = 400 ∧
      (body = .notJson ∨ ∃ jsonBody value, body = .json jsonBody ∧
        jsonBody.field? "type" = some value ∧ ∀ s, value ≠ .str s)) ∨
    (releaseType body = .ok (givenType body) ∧ body ≠ .notJson ∧
      ∀ jsonBody value, body = .json jsonBody → jsonBody.field? "type" = some value →
        ∃ s, value = .str s) := by
  cases body with
  | empty => exact .inr ⟨rfl, nofun, nofun⟩
  | notJson => exact .inl ⟨_, rfl, rfl, .inl rfl⟩
  | json jsonBody =>
    simp only [releaseType, givenType]
    cases h : jsonBody.field? "type" with
    | none =>
      refine .inr ⟨rfl, nofun, fun _ value hbody hvalue => ?_⟩
      cases hbody
      exact nomatch h.symm.trans hvalue
    | some value =>
      cases value with
      | str s =>
        refine .inr ⟨rfl, nofun, fun _ value hbody hvalue => ⟨s, ?_⟩⟩
        cases hbody
        exact Option.some.inj (hvalue.symm.trans h)
      -- the early return for a type that is no string
      | _ => exact .inl ⟨_, rfl, rfl, .inr ⟨_, _, rfl, h, nofun⟩⟩

theorem release_carries (m : LockManager) (now : Int) (body : RequestBody) :
    Carries m now .release body := by
  simp only [Carries, Refused, written, handle, handleReleaseLock, usedType]
  rcases releaseType_cases body with ⟨reply, htype, hstatus, hbody⟩ | ⟨htype, hjson, hstr⟩
  · -- an early return: the manager is not called
    rw [htype]
    refine .inl ⟨.inr ?_, by simp [hstatus], fun _ => rfl⟩
    exact hbody.imp_right .inl
  · have hfst := unlock_fst m (givenType body)
    have hcases := unlock_cases m (givenType body)
    rw [htype]
    cases h : m.unlock (givenType body) with
    | mk success m' =>
      rw [h] at hfst hcases
      cases success with
      | true =>
        obtain ⟨hname, hlocked⟩ := hfst.mp rfl
        obtain ⟨hfalse, _⟩ | ⟨_, hstate⟩ := hcases
        · exact nomatch hfalse
        · refine .inr ⟨?_, by simp [h], fun t => ?_⟩
          · -- each reason to be refused contradicts the success of the call
            rintro (hunknown | hbad | ⟨jsonBody, value, hbody, hvalue, hnot⟩ | hfree)
            · exact hname hunknown
            · exact hjson hbad
            · obtain ⟨s, hs⟩ := hstr jsonBody value hbody hvalue
              exact hnot s hs
            · rw [hlocked] at hfree
              exact nomatch hfree
          · have ht := hstate t
            simp only [h, ↓reduceIte]
            -- only the released lock is written, and only its flag
            by_cases heq : t = stringToLockType (givenType body)
            · rw [if_pos heq] at ht
              refine (ht.trans ?_).trans (if_pos heq).symm
              rw [heq]
            · rw [if_neg heq] at ht
              exact ht.trans (if_neg heq).symm
      | false =>
        obtain ⟨_, hstate⟩ | ⟨htrue, _⟩ := hcases
        · refine .inl ⟨?_, by simp [h], fun t => by simpa [h] using hstate t⟩
          have hno : ¬ _ := fun hyes => Bool.false_ne_true (hfst.mpr hyes)
          rw [not_and_or, not_not, Bool.not_eq_true] at hno
          exact hno.imp_right fun hfree => .inr (.inr hfree)
        · exact nomatch htrue

theorem carries (m : LockManager) (now : Int) (e : Endpoint) (body : RequestBody) :
    Carries m now e body := by
  cases e with
  | acquire => exact acquire_carries m now body
  | renew => exact renew_carries m now body
  | release => exact release_carries m now body

/-! ## The requests that are handled as they should be -/

/-- A well-formed request names the lock that the handler uses. -/
theorem WellFormed.names {body : RequestBody} (h : WellFormed body) (e : Endpoint) :
    Names body (stringToLockType (usedType e body)) := by
  have hgiven : Names body (stringToLockType (givenType body)) := by
    cases h with
    | empty => exact .empty
    | @object jsonBody hobj htype httl =>
      simp only [givenType]
      cases hfield : jsonBody.field? "type" with
      | none => exact .omitted hobj hfield
      | some value =>
        obtain ⟨s, rfl⟩ := htype value hfield
        exact .named hfield
  -- a number can be read as an `int`, so renew gets as far as the type
  have hread : TtlReadable body := by
    cases h with
    | empty => trivial
    | object hobj htype httl =>
      intro value hvalue
      have hnum := httl value hvalue
      cases value with
      | uint _ | int _ | float _ _ => trivial
      | _ => exact nomatch hnum
  cases e with
  | renew => rwa [usedType, if_pos hread]
  | acquire => exact hgiven
  | release => exact hgiven

/-- A body without fields falls back to the default lock, which it does not name. -/
theorem usedType_of_not_object {value : Json} (h : value.isObject = false) (e : Endpoint) :
    usedType e (.json value) = defaultLockTypeStr := by
  cases e <;> simp [usedType, givenType, Json.field?_of_not_object h]

theorem not_names_of_not_object {value : Json} (h : value.isObject = false) (t : LockType) :
    ¬ Names (.json value) t := by
  intro hnames
  cases hnames with
  | omitted hobj _ =>
    rw [h] at hobj
    exact nomatch hobj
  | named htype =>
    rw [Json.field?_of_not_object h] at htype
    exact nomatch htype

theorem not_invalid_of_not_object {value : Json} (h : value.isObject = false) :
    ¬ Invalid (.json value) := by
  intro hinvalid
  cases hinvalid with
  | type hfield _ | ttl hfield _ =>
    rw [Json.field?_of_not_object h] at hfield
    exact nomatch hfield

/-- The one call on a lock that no body names which nobody can notice: the lease of the
    default lock already ends when the renewed one would. -/
def SameLease (m : LockManager) (now : Int) (e : Endpoint) (body : RequestBody) : Prop :=
  e = .renew ∧ (∃ value, body = .json value ∧ value.isObject = false) ∧
    (m.state (stringToLockType defaultLockTypeStr)).expiryTime =
      now + defaultTtlSeconds * ticksPerSecond

/-- A request is handled as it should be exactly when it is well-formed, or cannot take effect
    in the present state anyway. -/
theorem respects_iff (m : LockManager) (now : Int) (e : Endpoint) (body : RequestBody) :
    Respects m now e body ↔
      WellFormed body ∨ Refused m now e body ∨ SameLease m now e body := by
  obtain ⟨hrefused, hstatus, hstate⟩ | ⟨hnot, hstatus, hstate⟩ := carries m now e body
  · -- a refused call leaves every lock, whatever the body
    refine iff_of_true ⟨fun t ht => absurd (hstate t) ht, fun _ => ⟨hstatus, hstate⟩⟩ ?_
    exact .inr (.inl hrefused)
  rcases wellFormed_or_invalid body with hwell | hinvalid | ⟨value, rfl, hobj⟩
  · refine iff_of_true ⟨fun t ht => ?_, fun hinv => absurd hinv hwell.not_invalid⟩ (.inl hwell)
    rw [hstate t] at ht
    split at ht
    · rename_i heq
      rw [heq]
      exact hwell.names e
    · exact absurd rfl ht
  · -- an invalid body that takes effect is answered 200
    refine iff_of_false (fun h => (h.refused hinvalid).1 hstatus) ?_
    rintro (hwell | hrefused | ⟨_, ⟨value, rfl, hobj⟩, _⟩)
    · exact hwell.not_invalid hinvalid
    · exact hnot hrefused
    · exact not_invalid_of_not_object hobj hinvalid
  · -- nothing is named, so the request behaves when it leaves the default lock as it was
    have hwell : ¬ WellFormed (.json value) := by
      intro hwell
      cases hwell with
      | object hobj' _ _ =>
        rw [hobj] at hobj'
        exact nomatch hobj'
    have hrespects : Respects m now e (.json value) ↔
        written m now (.json value) e = m.state (stringToLockType defaultLockTypeStr) := by
      constructor
      · intro h
        by_contra hne
        refine not_names_of_not_object hobj _ (h.named (stringToLockType defaultLockTypeStr) ?_)
        rwa [hstate, usedType_of_not_object hobj, if_pos rfl]
      · intro hsame
        refine ⟨fun t ht => absurd ?_ ht, fun hinv => absurd hinv (not_invalid_of_not_object hobj)⟩
        rw [hstate, usedType_of_not_object hobj]
        split
        · rename_i heq
          rw [hsame, heq]
        · rfl
    rw [hrespects, or_iff_right hwell, or_iff_right hnot]
    simp only [Refused, usedType_of_not_object hobj, not_or] at hnot
    cases e with
    -- unchanged, the lock would be held for the whole default TTL, and the call refused
    | acquire =>
      refine iff_of_false (fun hsame => hnot.2 ?_) fun hlease => nomatch hlease.1
      rw [← hsame, written, (args_ttl_of_not_object hobj).1]
      refine ⟨rfl, ?_⟩
      simp only [defaultTtlSeconds, ticksPerSecond]
      omega
    -- a held lock stays held, so only the expiry can differ
    | renew =>
      have hlocked : (m.state (stringToLockType defaultLockTypeStr)).isLocked = true := by
        simpa using hnot.2
      rw [written, (args_ttl_of_not_object hobj).2]
      constructor
      · intro hsame
        exact ⟨rfl, ⟨value, rfl, hobj⟩, by rw [← hsame]⟩
      · rintro ⟨-, -, hexpiry⟩
        rw [← hexpiry, ← hlocked]
    -- a held lock is freed, which is a change
    | release =>
      refine iff_of_false (fun hsame => hnot.2 (.inr (.inr ?_)))
        fun hlease => nomatch hlease.1
      rw [← hsame, written]

/-- A body that is not JSON takes the default lock. -/
theorem garbled_body_acquires :
    (handle .empty 0 .acquire .notJson).1.status = 200 ∧
      (handle .empty 0 .acquire .notJson).2.state .routing =
        { isLocked := true, expiryTime := 5000000000 } ∧
      ¬ Respects .empty 0 .acquire .notJson := by
  refine ⟨by decide, by decide, fun h => (h.refused .notJson).1 (by decide)⟩

end LockHandlers

end Ndtwin.Kernel

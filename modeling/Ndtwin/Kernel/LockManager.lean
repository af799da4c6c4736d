import Mathlib.Data.List.AList

/-!
# The TTL lock manager

`include/ndt_core/lock_management/LockManager.hpp`: three named locks, each a flag
and an expiry time. A lock carries no owner: `acquireLock` refuses while the lease
is unexpired, `renew` and `unlock` act for whoever calls them. Every call runs under
the one mutex of the class, so a call is one atomic step; the reading of
`steady_clock::now()` inside it is the argument `now`, in ticks of the clock.
-/

namespace Ndtwin.Kernel

/-- The lock types; `unknown` is the answer for a name that is none of the three. -/
inductive LockType where
  | routing
  | graph
  | power
  | unknown
  deriving DecidableEq, Repr

/-- One lock: whether it is flagged as held, and when that lease runs out. -/
structure LockState where
  isLocked : Bool := false
  expiryTime : Int := 0
  deriving DecidableEq, Repr

/-- `m_locks`: one state per lock type that was ever asked for. -/
structure LockManager where
  locks : AList (fun _ : LockType => LockState)

namespace LockManager

/-- A manager nobody has called yet. -/
def empty : LockManager := ⟨∅⟩

/-- `steady_clock` counts nanoseconds. -/
def ticksPerSecond : Int := 1000000000

/-- `DEFAULT_TTL_SECONDS` -/
def defaultTtlSeconds : Int := 5

/-- `DEFAULT_LOCK_TYPE_STR` -/
def defaultLockTypeStr : String := "routing_lock"

def stringToLockType (str : String) : LockType :=
  if str = "routing_lock" then .routing
  else if str = "graph_lock" then .graph
  else if str = "power_lock" then .power
  else .unknown

/-- `m_locks[type]`: the entry of the type, or the default one that `operator[]` makes. -/
def state (m : LockManager) (type : LockType) : LockState :=
  (m.locks.lookup type).getD {}

def setState (m : LockManager) (type : LockType) (st : LockState) : LockManager :=
  ⟨m.locks.insert type st⟩

/-- Take the lock unless an unexpired lease stands. -/
def acquireLock (m : LockManager) (now : Int) (lockNameStr : String) (ttlSeconds : Int) :
    Bool × LockManager :=
  let type := stringToLockType lockNameStr
  if type = .unknown then (false, m)
  else
    let st := m.state type
    if st.isLocked ∧ now < st.expiryTime then
      -- `operator[]` has made the entry, if it was missing, before the refusal
      (false, m.setState type st)
    else
      (true, m.setState type
        { isLocked := true, expiryTime := now + ttlSeconds * ticksPerSecond })

/-- Clear the flag. `false` for an unknown type and for a lock that is not flagged. -/
def unlock (m : LockManager) (lockNameStr : String) : Bool × LockManager :=
  let type := stringToLockType lockNameStr
  if type = .unknown then (false, m)
  else
    match m.locks.lookup type with
    | none => (false, m)
    | some st =>
      if st.isLocked then (true, m.setState type { st with isLocked := false }) else (false, m)

/-- Move the expiry time. The flag alone is tested, so an expired lease is renewed too. -/
def renew (m : LockManager) (now : Int) (lockNameStr : String) (ttlSeconds : Int) :
    Bool × LockManager :=
  let type := stringToLockType lockNameStr
  if type = .unknown then (false, m)
  else
    match m.locks.lookup type with
    | none => (false, m)
    | some st =>
      if st.isLocked then
        (true, m.setState type { st with expiryTime := now + ttlSeconds * ticksPerSecond })
      else (false, m)

/-! ## Reading a state back -/

@[simp] theorem state_setState (m : LockManager) (t : LockType) (st : LockState) :
    (m.setState t st).state t = st := by
  simp [state, setState]

theorem state_setState_ne (m : LockManager) {t t' : LockType} (st : LockState) (h : t' ≠ t) :
    (m.setState t st).state t' = m.state t' := by
  simp [state, setState, AList.lookup_insert_ne h]

/-- The lock of one type after a write to another, or to itself. -/
theorem state_setState_eq (m : LockManager) (t t' : LockType) (st : LockState) :
    (m.setState t st).state t' = if t' = t then st else m.state t' := by
  split
  · next h => subst h; exact state_setState m t' st
  · next h => exact state_setState_ne m st h

/-! ## What a call does to the lock of a valid name -/

/-- `acquireLock` succeeds exactly when no unexpired lease stands, and then starts one. -/
theorem acquireLock_cases (m : LockManager) (now : Int) (name : String) (ttl : Int) :
    ((acquireLock m now name ttl).1 = false ∧
      ∀ t, (acquireLock m now name ttl).2.state t = m.state t) ∨
    ((acquireLock m now name ttl).1 = true ∧
      ¬ ((m.state (stringToLockType name)).isLocked = true ∧
        now < (m.state (stringToLockType name)).expiryTime) ∧
      ∀ t, (acquireLock m now name ttl).2.state t =
        if t = stringToLockType name then
          { isLocked := true, expiryTime := now + ttl * ticksPerSecond }
        else m.state t) := by
  unfold acquireLock
  dsimp only
  split
  · exact .inl ⟨rfl, fun _ => rfl⟩
  · split
    · refine .inl ⟨rfl, fun t => ?_⟩
      rw [state_setState_eq]
      split
      · next h => rw [h]
      · rfl
    · next hfree => exact .inr ⟨rfl, hfree, fun t => state_setState_eq _ _ _ _⟩

/-- `renew` moves the expiry of a flagged lock and leaves everything else alone. -/
theorem renew_cases (m : LockManager) (now : Int) (name : String) (ttl : Int) :
    ((renew m now name ttl).1 = false ∧
      ∀ t, (renew m now name ttl).2.state t = m.state t) ∨
    ((renew m now name ttl).1 = true ∧ ∀ t, (renew m now name ttl).2.state t =
        if t = stringToLockType name then
          { isLocked := true, expiryTime := now + ttl * ticksPerSecond }
        else m.state t) := by
  unfold renew
  dsimp only
  split
  · exact .inl ⟨rfl, fun _ => rfl⟩
  · cases m.locks.lookup (stringToLockType name) with
    | none => exact .inl ⟨rfl, fun _ => rfl⟩
    | some st =>
      dsimp only
      split
      · next hlk =>
        refine .inr ⟨rfl, fun t => ?_⟩
        rw [state_setState_eq, hlk]
      · exact .inl ⟨rfl, fun _ => rfl⟩

/-- `unlock` clears the flag of a flagged lock and leaves everything else alone. -/
theorem unlock_cases (m : LockManager) (name : String) :
    ((unlock m name).1 = false ∧ ∀ t, (unlock m name).2.state t = m.state t) ∨
    ((unlock m name).1 = true ∧ ∀ t, (unlock m name).2.state t =
        if t = stringToLockType name then { m.state t with isLocked := false }
        else m.state t) := by
  unfold unlock
  dsimp only
  split
  · exact .inl ⟨rfl, fun _ => rfl⟩
  · cases hl : m.locks.lookup (stringToLockType name) with
    | none => exact .inl ⟨rfl, fun _ => rfl⟩
    | some st =>
      have hst : m.state (stringToLockType name) = st := by simp [state, hl]
      dsimp only
      split
      · refine .inr ⟨rfl, fun t => ?_⟩
        rw [state_setState_eq]
        split
        · next h => rw [h, hst]
        · rfl
      · exact .inl ⟨rfl, fun _ => rfl⟩

end LockManager

end Ndtwin.Kernel

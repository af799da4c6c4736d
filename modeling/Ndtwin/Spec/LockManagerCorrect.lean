import Ndtwin.ForStd.Run
import Ndtwin.Kernel.LockManager

/-!
# Leases of the lock manager

Clients call the lock manager in any order while the clock advances. A client *holds*
a lock type while its last `acquireLock` or `renew` on it returned true, that TTL has
not run out, and it has not called `unlock` since. The manager stores no owner, so it
cannot tell an expired client from the present holder: mutual exclusion is a property
of clients that call `renew` and `unlock` only while nobody else holds the lock.

## Key results

- `holder_unique_of_disciplined`: at most one holder, and no disciplined call changes
  the lock of another holder
- `late_renew_two_holders`: a renew after expiry makes two holders
-/

namespace Ndtwin.Spec

open Kernel GuardedRun

/-- The three calls a client can make. -/
inductive LockCall where
  | acquire (ttlSeconds : Int)
  | renew (ttlSeconds : Int)
  | unlock
  deriving DecidableEq, Repr

/-- The clock advances by some ticks, or a client makes a call on a lock name. -/
inductive LockEvent (C : Type) where
  | tick (ticks : Nat)
  | call (client : C) (lockName : String) (call : LockCall)

/-- The manager, the clock, and per client and lock type the expiry that the client
    knows of: the one of its last call, if that was an `acquireLock` or `renew` that
    returned true. -/
structure LockWorld (C : Type) where
  mgr : LockManager := .empty
  now : Int := 0
  lease : C → LockType → Option Int := fun _ _ => none

/-- `c` is a holder of `t`. -/
def LockWorld.Holder {C : Type} (w : LockWorld C) (c : C) (t : LockType) : Prop :=
  ∃ e, w.lease c t = some e ∧ w.now < e

section

variable {C : Type}

/-! ## The lease invariant -/

/-- The manager's lock is the lease of every holder, and there is at most one holder. -/
structure LeaseInv (w : LockWorld C) : Prop where
  agrees : ∀ c t e, w.lease c t = some e → w.now < e →
    w.mgr.state t = { isLocked := true, expiryTime := e }
  unique : ∀ c c' t, w.Holder c t → w.Holder c' t → c = c'

theorem leaseInv_init : LeaseInv ({} : LockWorld C) where
  agrees := by intro c t e h; exact nomatch h
  unique := by rintro c c' t ⟨e, h, _⟩; exact nomatch h

/-- Under the invariant a holder's lock is flagged and unexpired in the manager. -/
theorem LeaseInv.locked {w : LockWorld C} (hinv : LeaseInv w) {c : C} {t : LockType}
    (h : w.Holder c t) :
    (w.mgr.state t).isLocked = true ∧ w.now < (w.mgr.state t).expiryTime := by
  obtain ⟨e, hl, hlt⟩ := h
  rw [hinv.agrees c t e hl hlt]
  exact ⟨rfl, hlt⟩

/-! ## Clients calling the manager -/

variable [DecidableEq C]

/-- Record what a call told the client. -/
def LockWorld.learn (w : LockWorld C) (c : C) (t : LockType) (e : Option Int) :
    C → LockType → Option Int :=
  fun c' t' => if c' = c ∧ t' = t then e else w.lease c' t'

/-- One event. The answer of the manager is all that a client learns. -/
def lockStep (w : LockWorld C) : LockEvent C → LockWorld C
  | .tick ticks => { w with now := w.now + ticks }
  | .call c name (.acquire ttl) =>
    let r := w.mgr.acquireLock w.now name ttl
    { w with
      mgr := r.2
      lease := w.learn c (LockManager.stringToLockType name)
        (if r.1 then some (w.now + ttl * LockManager.ticksPerSecond) else none) }
  | .call c name (.renew ttl) =>
    let r := w.mgr.renew w.now name ttl
    { w with
      mgr := r.2
      lease := w.learn c (LockManager.stringToLockType name)
        (if r.1 then some (w.now + ttl * LockManager.ticksPerSecond) else none) }
  | .call c name .unlock =>
    let r := w.mgr.unlock name
    { w with
      mgr := r.2
      lease := w.learn c (LockManager.stringToLockType name) none }

/-- A client calls `renew` and `unlock` only while no other client holds the lock it names. -/
def Disciplined (w : LockWorld C) : LockEvent C → Prop
  | .tick _ => True
  | .call _ _ (.acquire _) => True
  | .call c name (.renew _) | .call c name .unlock =>
    ∀ c', w.Holder c' (LockManager.stringToLockType name) → c' = c

/-! ## Every disciplined step keeps the invariant -/

/-- Later, fewer clients are holders. -/
theorem LockWorld.Holder.of_tick {w : LockWorld C} {ticks : Nat} {c : C} {t : LockType}
    (h : (lockStep w (.tick ticks)).Holder c t) : w.Holder c t := by
  obtain ⟨e, he, hlt⟩ := h
  exact ⟨e, he, by simp only [lockStep] at hlt; omega⟩

/-- A call that succeeds writes one lock and one cell of the lease table. It keeps the
    invariant when nobody but the caller `c₀` holds `t₀`. -/
theorem leaseInv_write {w : LockWorld C} (hinv : LeaseInv w) {c₀ : C} {t₀ : LockType}
    {e₀ : Option Int} {mgr : LockManager} {st : LockState}
    (hmgr : ∀ t, mgr.state t = if t = t₀ then st else w.mgr.state t)
    (hst : ∀ e, e₀ = some e → w.now < e → st = { isLocked := true, expiryTime := e })
    (hother : ∀ c, c ≠ c₀ → ¬ w.Holder c t₀) :
    LeaseInv { w with mgr := mgr, lease := w.learn c₀ t₀ e₀ } where
  agrees := by
    intro c t e hl hlt
    simp only [LockWorld.learn] at hl
    rw [hmgr]
    by_cases ht : t = t₀
    · subst ht
      by_cases hc : c = c₀
      · subst hc
        simp only [and_self, if_true] at hl
        simpa using hst e hl hlt
      · simp only [hc, false_and, if_false] at hl
        exact absurd ⟨e, hl, hlt⟩ (hother c hc)
    · simp only [ht, and_false, if_false] at hl ⊢
      exact hinv.agrees c t e hl hlt
  unique := by
    rintro c c' t ⟨e, hl, hlt⟩ ⟨e', hl', hlt'⟩
    simp only [LockWorld.learn] at hl hl'
    by_cases ht : t = t₀
    · subst ht
      -- a holder of the written type can only be the writer
      have key : ∀ d f, (if d = c₀ ∧ t = t then e₀ else w.lease d t) = some f → w.now < f →
          d = c₀ := by
        intro d f hd hf
        by_contra hne
        simp only [hne, false_and, if_false] at hd
        exact hother d hne ⟨f, hd, hf⟩
      rw [key c e hl hlt, key c' e' hl' hlt']
    · simp only [ht, and_false, if_false] at hl hl'
      exact hinv.unique c c' t ⟨e, hl, hlt⟩ ⟨e', hl', hlt'⟩

/-- A refused call: the manager is unchanged and the caller is no holder. -/
theorem leaseInv_refused {w : LockWorld C} (hinv : LeaseInv w) {c₀ : C} {t₀ : LockType}
    {mgr : LockManager} (hmgr : ∀ t, mgr.state t = w.mgr.state t) :
    LeaseInv { w with mgr := mgr, lease := w.learn c₀ t₀ none } where
  agrees := by
    intro c t e hl hlt
    simp only [LockWorld.learn] at hl
    rw [hmgr]
    split at hl
    · exact nomatch hl
    · exact hinv.agrees c t e hl hlt
  unique := by
    rintro c c' t ⟨e, hl, hlt⟩ ⟨e', hl', hlt'⟩
    simp only [LockWorld.learn] at hl hl'
    split at hl
    · exact nomatch hl
    · split at hl'
      · exact nomatch hl'
      · exact hinv.unique c c' t ⟨e, hl, hlt⟩ ⟨e', hl', hlt'⟩

/-- Every disciplined event keeps the lease invariant. -/
theorem leaseInv_step (w : LockWorld C) (ev : LockEvent C) (hinv : LeaseInv w)
    (hok : Disciplined w ev) : LeaseInv (lockStep w ev) := by
  cases ev with
  -- time only ends leases
  | tick ticks =>
    refine ⟨fun c t e hl hlt => ?_, fun c c' t h h' => hinv.unique c c' t h.of_tick h'.of_tick⟩
    exact hinv.agrees c t e hl (by simp only [lockStep] at hlt; omega)
  | call c name call =>
    cases call with
    | acquire ttl =>
      rcases LockManager.acquireLock_cases w.mgr w.now name ttl with
        ⟨hf, hmgr⟩ | ⟨ht, hfree, hmgr⟩
      · simp only [lockStep, hf]
        exact leaseInv_refused hinv hmgr
      · simp only [lockStep, ht, if_true]
        exact leaseInv_write hinv hmgr (fun e he _ => by rw [Option.some.inj he])
          (fun d _ hd => hfree (hinv.locked hd))
    | renew ttl =>
      rcases LockManager.renew_cases w.mgr w.now name ttl with ⟨hf, hmgr⟩ | ⟨ht, hmgr⟩
      · simp only [lockStep, hf]
        exact leaseInv_refused hinv hmgr
      · simp only [lockStep, ht, if_true]
        exact leaseInv_write hinv hmgr (fun e he _ => by rw [Option.some.inj he])
          (fun d hd hdh => hd (hok d hdh))
    | unlock =>
      rcases LockManager.unlock_cases w.mgr name with ⟨_, hmgr⟩ | ⟨_, hmgr⟩
      · simp only [lockStep]
        exact leaseInv_refused hinv hmgr
      · simp only [lockStep]
        -- an unlock keeps the expiry and clears the flag
        have hmgr' : ∀ t, (w.mgr.unlock name).2.state t =
            if t = LockManager.stringToLockType name then
              { w.mgr.state (LockManager.stringToLockType name) with isLocked := false }
            else w.mgr.state t := by
          intro t
          rw [hmgr]
          split
          · next h => rw [h]
          · rfl
        exact leaseInv_write hinv hmgr' (fun e he => nomatch he)
          (fun d hd hdh => hd (hok d hdh))

/-- A disciplined call of one client leaves the lock of another holder as it is. -/
theorem disciplined_call_frame (w : LockWorld C) (hinv : LeaseInv w) (c₀ : C) (name : String)
    (call : LockCall) (hok : Disciplined w (.call c₀ name call)) (c : C) (t : LockType)
    (hc : w.Holder c t) (hne : c ≠ c₀) :
    (lockStep w (.call c₀ name call)).mgr.state t = w.mgr.state t := by
  cases call with
  | acquire ttl =>
    rcases LockManager.acquireLock_cases w.mgr w.now name ttl with
      ⟨_, hmgr⟩ | ⟨_, hfree, hmgr⟩
    · exact hmgr t
    · -- a success means the lease on that type had run out, so `t` is another type
      have ht : t ≠ LockManager.stringToLockType name := by
        rintro rfl
        exact hfree (hinv.locked hc)
      rw [lockStep, hmgr, if_neg ht]
  | renew ttl =>
    have ht : t ≠ LockManager.stringToLockType name := by
      rintro rfl
      exact hne (hok c hc)
    rcases LockManager.renew_cases w.mgr w.now name ttl with ⟨_, hmgr⟩ | ⟨_, hmgr⟩
    · exact hmgr t
    · rw [lockStep, hmgr, if_neg ht]
  | unlock =>
    have ht : t ≠ LockManager.stringToLockType name := by
      rintro rfl
      exact hne (hok c hc)
    rcases LockManager.unlock_cases w.mgr name with ⟨_, hmgr⟩ | ⟨_, hmgr⟩
    · exact hmgr t
    · rw [lockStep, hmgr, if_neg ht]

/-- In every run in which `renew` and `unlock` are called only while no other client holds the
    lock that is named, at most one client holds a lock type at any time, and a further
    disciplined call never changes the lock of another holder. -/
theorem holder_unique_of_disciplined (es : List (LockEvent C))
    (hg : Guarded lockStep Disciplined {} es) :
    (∀ c c' t, (run lockStep {} es).Holder c t → (run lockStep {} es).Holder c' t → c = c') ∧
    (∀ c₀ name call, Disciplined (run lockStep {} es) (.call c₀ name call) →
      ∀ c t, (run lockStep {} es).Holder c t → c ≠ c₀ →
        (run lockStep {} (es ++ [.call c₀ name call])).mgr.state t =
          (run lockStep {} es).mgr.state t) := by
  have hinv : LeaseInv (run lockStep {} es) := run_invariant leaseInv_step leaseInv_init hg
  refine ⟨hinv.unique, ?_⟩
  intro c₀ name call hok c t hc hne
  rw [run_append, run_cons, run_nil]
  exact disciplined_call_frame _ hinv c₀ name call hok c t hc hne

end

/-! ## Two clients -/

/-- `true` acquires and renews, once in time and once after its lease has run out, and is refused
    while `false` has the lock after it. -/
def handover : List (LockEvent Bool) :=
  [.call true "routing_lock" (.acquire 5), .tick 3000000000,
    .call true "routing_lock" (.renew 5), .tick 6000000000,
    .call true "routing_lock" (.renew 5), .call true "routing_lock" .unlock,
    .call false "routing_lock" (.acquire 5), .call true "routing_lock" (.acquire 5)]

/-- As long as `false` knows of no lease, nobody but `true` is a holder. -/
theorem eq_true_of_holder {w : LockWorld Bool} {t : LockType} (h : w.lease false t = none) (c : Bool)
    (hc : w.Holder c t) : c = true := by
  cases c with
  | true => rfl
  | false =>
    obtain ⟨e, he, -⟩ := hc
    rw [h] at he
    cases he

theorem handover_disciplined : Guarded lockStep Disciplined {} handover :=
  ⟨trivial, trivial, eq_true_of_holder rfl, trivial, eq_true_of_holder rfl, eq_true_of_holder rfl,
    trivial, trivial, trivial⟩

/-- The hypothesis is met by an orderly handover, after which only `false` holds. -/
theorem handover_holder_unique :
    (run lockStep {} handover).Holder false .routing ∧
    ∀ c, (run lockStep {} handover).Holder c .routing → c = false := by
  have hfalse : (run lockStep {} handover).Holder false .routing :=
    ⟨14000000000, rfl, by decide⟩
  refine ⟨hfalse, fun c hc => ?_⟩
  exact (holder_unique_of_disciplined handover handover_disciplined).1 c false .routing hc hfalse

/-- `true` lets its lease run out, `false` acquires, and `true` renews all the same. -/
def lateRenew : List (LockEvent Bool) :=
  [.call true "routing_lock" (.acquire 5), .tick 6000000000,
    .call false "routing_lock" (.acquire 5), .call true "routing_lock" (.renew 10)]

/-- A renew after expiry makes two holders, and extends the lock of the other client. -/
theorem late_renew_two_holders :
    ¬ ((∀ es : List (LockEvent Bool), ∀ c c' t, (run lockStep {} es).Holder c t →
        (run lockStep {} es).Holder c' t → c = c')) := by
  intro h
  have htrue : (run lockStep {} lateRenew).Holder true .routing := ⟨16000000000, rfl, by decide⟩
  have hfalse : (run lockStep {} lateRenew).Holder false .routing := ⟨11000000000, rfl, by decide⟩
  exact absurd (h lateRenew true false .routing htrue hfalse) (by decide)

end Ndtwin.Spec

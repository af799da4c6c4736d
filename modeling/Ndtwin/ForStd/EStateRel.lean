import Ndtwin.ForStd.EState

/-!
# A program run from two states

`Agree R m s n t` says that the program `m` run from `s` and the program `n` run from `t` end the
same way, with the same value or the same exception, in states that `R` relates. Where `R` says
that two states show the same, this is that a program decides nothing by what it is not shown.
The rules follow the structure of a program.
-/

namespace EState

variable {ε σ α β : Type}

/-- Two results with the same value or exception, in states that `R` relates. -/
def ResultRel (R : σ → σ → Prop) :
    EStateM.Result ε σ α → EStateM.Result ε σ α → Prop
  | .ok a s, .ok b t => a = b ∧ R s t
  | .error e s, .error f t => e = f ∧ R s t
  | _, _ => False

/-- The two programs end the same way, in states that `R` relates. -/
def Agree (R : σ → σ → Prop) (m : EStateM ε σ α) (s : σ) (n : EStateM ε σ α) (t : σ) : Prop :=
  ResultRel R (m s) (n t)

variable {R : σ → σ → Prop} {s t : σ}

theorem agree_pure (h : R s t) (a : α) :
    Agree R (pure a : EStateM ε σ α) s (pure a) t := ⟨rfl, h⟩

theorem agree_throw (h : R s t) (e : ε) :
    Agree R (throw e : EStateM ε σ α) s (throw e) t := ⟨rfl, h⟩

theorem agree_modify {f g : σ → σ} (h : R (f s) (g t)) :
    Agree R (modify f : EStateM ε σ PUnit) s (modify g) t := ⟨rfl, h⟩

/-- What reads the state first goes on from what it read. -/
theorem agree_get_bind {f g : σ → EStateM ε σ β} (h : Agree R (f s) s (g t) t) :
    Agree R (get >>= f) s (get >>= g) t := h

/-- Two sequences agree when their first parts do, and the rest from there. -/
theorem agree_bind {m n : EStateM ε σ α} {f g : α → EStateM ε σ β} (hm : Agree R m s n t)
    (hf : ∀ a s' t', R s' t' → Agree R (f a) s' (g a) t') :
    Agree R (m >>= f) s (n >>= g) t := by
  unfold Agree at hm
  cases hms : m s with
  | ok a s' =>
    cases hnt : n t with
    | ok b t' =>
      rw [hms, hnt] at hm
      obtain ⟨rfl, hrel⟩ := hm
      show ResultRel R ((m >>= f) s) ((n >>= g) t)
      rw [bind_of_ok hms, bind_of_ok hnt]
      exact hf a s' t' hrel
    | error e t' =>
      rw [hms, hnt] at hm
      exact hm.elim
  | error e s' =>
    cases hnt : n t with
    | ok b t' =>
      rw [hms, hnt] at hm
      exact hm.elim
    | error e' t' =>
      rw [hms, hnt] at hm
      show ResultRel R ((m >>= f) s) ((n >>= g) t)
      rw [bind_of_error hms, bind_of_error hnt]
      exact hm

/-- A computation that touches no state ends the same way from both. -/
theorem agree_ofExcept (h : R s t) (x : Except ε α) :
    Agree R (ofExcept x : EStateM ε σ α) s (ofExcept x) t := by
  cases x with
  | ok a => exact agree_pure h a
  | error e => exact agree_throw h e

/-- Programs that agree end in related states. -/
theorem Agree.finalState {m n : EStateM ε σ α} (h : Agree R m s n t) :
    R (EState.finalState m s) (EState.finalState n t) := by
  unfold Agree at h
  unfold EState.finalState
  cases hms : m s with
  | ok a s' =>
    cases hnt : n t with
    | ok b t' =>
      rw [hms, hnt] at h
      exact h.2
    | error e t' =>
      rw [hms, hnt] at h
      exact h.elim
  | error e s' =>
    cases hnt : n t with
    | ok b t' =>
      rw [hms, hnt] at h
      exact h.elim
    | error e' t' =>
      rw [hms, hnt] at h
      exact h.2

end EState

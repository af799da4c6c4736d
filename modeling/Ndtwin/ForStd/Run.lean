import Mathlib.Data.List.Basic

/-!
# Guarded runs of a step function

A deterministic system is a step function `σ → ε → σ` over events. `run` takes a
list of events in order, and `Guarded` says that every event of the list meets a
condition in the state it is taken from. The rule `run_invariant` is the only
induction over event lists that the safety proofs need: a property that holds at
the start and is kept by every step that meets the condition holds after the run.

A system in which an event can be disabled has a step function `σ → ε → Option σ`; `exec`
runs it, `exec_invariant` is the same rule for it, and `exec_length_le` bounds a run of
events that each lower a measure.
-/

namespace GuardedRun

variable {σ ε : Type*}

/-- The state after the events `es`, taken in order from `s`. -/
def run (step : σ → ε → σ) (s : σ) (es : List ε) : σ :=
  es.foldl step s

/-- Every event of `es` meets `ok` in the state from which it is taken. -/
def Guarded (step : σ → ε → σ) (ok : σ → ε → Prop) : σ → List ε → Prop
  | _, [] => True
  | s, e :: es => ok s e ∧ Guarded step ok (step s e) es

variable {step : σ → ε → σ} {ok : σ → ε → Prop}

@[simp] theorem run_nil (s : σ) : run step s [] = s := rfl

@[simp] theorem run_cons (s : σ) (e : ε) (es : List ε) :
    run step s (e :: es) = run step (step s e) es := rfl

theorem run_append (s : σ) (es fs : List ε) :
    run step s (es ++ fs) = run step (run step s es) fs :=
  List.foldl_append

instance decidableGuarded (step : σ → ε → σ) (ok : σ → ε → Prop)
    [∀ s e, Decidable (ok s e)] : ∀ s es, Decidable (Guarded step ok s es)
  | _, [] => isTrue trivial
  | s, e :: es =>
    have := decidableGuarded step ok (step s e) es
    inferInstanceAs (Decidable (ok s e ∧ Guarded step ok (step s e) es))

/-- Every run meets no condition. -/
theorem guarded_true (step : σ → ε → σ) (s : σ) (es : List ε) :
    Guarded step (fun _ _ => True) s es := by
  induction es generalizing s with
  | nil => trivial
  | cons e es ih => exact ⟨trivial, ih (step s e)⟩

/-- A guarded run in two parts. -/
theorem guarded_append {s : σ} {es fs : List ε} :
    Guarded step ok s (es ++ fs) ↔ Guarded step ok s es ∧ Guarded step ok (run step s es) fs := by
  induction es generalizing s with
  | nil => simp [Guarded]
  | cons e es ih =>
    rw [List.cons_append, run_cons]
    simp only [Guarded, ih, and_assoc]

/-- What every guarded step keeps, a guarded run keeps. -/
theorem run_invariant {Inv : σ → Prop}
    (hstep : ∀ s e, Inv s → ok s e → Inv (step s e))
    {s : σ} {es : List ε} (h0 : Inv s) (hg : Guarded step ok s es) :
    Inv (run step s es) := by
  induction es generalizing s with
  | nil => exact h0
  | cons e es ih =>
    obtain ⟨he, hes⟩ := hg
    exact ih (hstep s e h0 he) hes

/-- What every step keeps, every run keeps. -/
theorem run_of_step (Inv : σ → Prop) (hstep : ∀ s e, Inv s → Inv (step s e)) {s : σ}
    (h0 : Inv s) (es : List ε) : Inv (run step s es) := by
  induction es generalizing s with
  | nil => exact h0
  | cons e es ih => exact ih (hstep s e h0)

/-- Two conditions that agree on the states of an invariant guard the same runs, when a step that
    meets them keeps it. -/
theorem guarded_congr (Inv : σ → Prop) {ok' : σ → ε → Prop}
    (hiff : ∀ s e, Inv s → (ok s e ↔ ok' s e))
    (hstep : ∀ s e, Inv s → ok' s e → Inv (step s e)) {s : σ} (h0 : Inv s) (es : List ε) :
    Guarded step ok s es ↔ Guarded step ok' s es := by
  induction es generalizing s with
  | nil => exact Iff.rfl
  | cons e es ih =>
    constructor
    · rintro ⟨he, hes⟩
      have he' := (hiff s e h0).mp he
      exact ⟨he', (ih (hstep s e h0 he')).mp hes⟩
    · rintro ⟨he, hes⟩
      exact ⟨(hiff s e h0).mpr he, (ih (hstep s e h0 he)).mpr hes⟩

/-- When a property holds after every prefix of a run: the guard `ok` says exactly which steps
    keep it. `Inv` is what a guarded run keeps, and `allowed` is what every run is promised. -/
theorem forall_prefix_iff_guarded (Inv : σ → Prop) {allowed : σ → ε → Prop} {Good : σ → Prop}
    (hkeeps : ∀ s e, Inv s → allowed s e → ok s e → Inv (step s e))
    (hgood : ∀ s, Inv s → Good s)
    (hbreaks : ∀ s e, Inv s → allowed s e → ¬ok s e → ¬Good (step s e))
    {s : σ} {es : List ε} (h0 : Inv s) (hallowed : Guarded step allowed s es) :
    (∀ pre, pre <+: es → Good (run step s pre)) ↔ Guarded step ok s es := by
  induction es generalizing s with
  | nil =>
    refine ⟨fun _ => trivial, fun _ pre hpre => ?_⟩
    rw [List.prefix_nil.mp hpre]
    exact hgood s h0
  | cons e es ih =>
    obtain ⟨he, hes⟩ := hallowed
    constructor
    · intro hall
      have hstep : Good (step s e) := hall [e] ⟨es, rfl⟩
      have hok : ok s e := by
        -- A step that is not `ok` breaks the goal at once, and the run up to it is one of the
        -- prefixes.
        by_contra hnot
        exact hbreaks s e h0 he hnot hstep
      refine ⟨hok, (ih (hkeeps s e h0 he hok) hes).mp fun pre hpre => ?_⟩
      exact hall (e :: pre) (List.cons_prefix_cons.mpr ⟨rfl, hpre⟩)
    · intro ⟨hok, hrest⟩ pre hpre
      cases pre with
      | nil => exact hgood s h0
      | cons e' pre =>
        obtain ⟨rfl, htail⟩ := List.cons_prefix_cons.mp hpre
        exact (ih (hkeeps s e' h0 he hok) hes).mpr hrest pre htail

/-! ## Steps that may be disabled -/

/-- The state after the events `es`, or `none` when one of them is disabled. -/
def exec (step : σ → ε → Option σ) : σ → List ε → Option σ
  | s, [] => some s
  | s, e :: es => (step s e).bind fun s' => exec step s' es

variable {pstep : σ → ε → Option σ}

/-- The first event of a run, and the run of the others. -/
theorem exec_cons_eq_some {s s' : σ} {e : ε} {es : List ε}
    (h : exec pstep s (e :: es) = some s') :
    ∃ s₁, pstep s e = some s₁ ∧ exec pstep s₁ es = some s' :=
  Option.bind_eq_some_iff.mp h

/-- A run in two parts. -/
theorem exec_append_eq_some {s s' : σ} {es fs : List ε}
    (h : exec pstep s (es ++ fs) = some s') :
    ∃ s₁, exec pstep s es = some s₁ ∧ exec pstep s₁ fs = some s' := by
  induction es generalizing s with
  | nil => exact ⟨s, rfl, h⟩
  | cons e es ih =>
    obtain ⟨s₂, he, hes⟩ := exec_cons_eq_some h
    obtain ⟨s₁, hes, hfs⟩ := ih hes
    refine ⟨s₁, ?_, hfs⟩
    rw [exec, he]
    exact hes

/-- What every enabled step keeps, a run keeps. -/
theorem exec_invariant {Inv : σ → Prop}
    (hstep : ∀ s e s', pstep s e = some s' → Inv s → Inv s')
    {s s' : σ} {es : List ε} (h : exec pstep s es = some s') (h0 : Inv s) : Inv s' := by
  induction es generalizing s with
  | nil => exact Option.some.inj h ▸ h0
  | cons e es ih =>
    obtain ⟨s₁, he, hes⟩ := exec_cons_eq_some h
    exact ih hes (hstep s e s₁ he h0)

/-- A register that every step overwrites or leaves alone holds what was written last. -/
theorem exec_lastWrite {α : Type*} (Inv : σ → Prop) (view : σ → α) (writes : ε → Option α)
    (hstep : ∀ s e s', pstep s e = some s' → Inv s → Inv s')
    (hview : ∀ s e s', pstep s e = some s' → Inv s → view s' = (writes e).getD (view s))
    {s s' : σ} {es : List ε} (h : exec pstep s es = some s') (h0 : Inv s) :
    view s' = (es.filterMap writes).getLast?.getD (view s) := by
  induction es generalizing s with
  | nil => rw [← Option.some.inj h]; rfl
  | cons e es ih =>
    obtain ⟨s₁, he, hes⟩ := exec_cons_eq_some h
    have hfirst := hview s e s₁ he h0
    have hrest := ih hes (hstep s e s₁ he h0)
    cases hw : writes e with
    | none =>
      rw [hw, Option.getD_none] at hfirst
      rw [List.filterMap_cons_none hw, hrest, hfirst]
    | some a =>
      rw [hw, Option.getD_some] at hfirst
      rw [List.filterMap_cons_some hw, List.getLast?_cons, Option.getD_some, hrest, hfirst]

/-- A run of events that each lower `work` is no longer than the work at its start. -/
theorem exec_length_le {Inv : σ → Prop} {progress : ε → Prop} {work : σ → Nat}
    (hstep : ∀ s e s', pstep s e = some s' → Inv s → Inv s')
    (hwork : ∀ s e s', progress e → pstep s e = some s' → Inv s → work s' < work s)
    {s s' : σ} {es : List ε} (hes : ∀ e ∈ es, progress e) (h : exec pstep s es = some s')
    (h0 : Inv s) : es.length ≤ work s := by
  induction es generalizing s with
  | nil => exact Nat.zero_le _
  | cons e es ih =>
    obtain ⟨s₁, he, hrest⟩ := exec_cons_eq_some h
    have hlt := hwork s e s₁ (hes e List.mem_cons_self) he h0
    have hle := ih (fun e' he' => hes e' (List.mem_cons_of_mem e he')) hrest (hstep s e s₁ he h0)
    rw [List.length_cons]
    omega

end GuardedRun

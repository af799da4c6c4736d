import Mathlib.Data.List.Forall2

/-!
# Programs that keep their state when they throw

`EStateM ε σ α` is a C++ or Python function body that changes a state and may throw: the
changes made before the exception stay. `Keeps view m` says that `m` changes nothing that
`view` shows, however it ends; the rules below follow the structure of a program.
-/

namespace EState

variable {ε σ α β τ : Type}

/-- The state in which a program ends, normally or by an exception. -/
def finalState (m : EStateM ε σ α) (s : σ) : σ :=
  match m s with
  | .ok _ s' => s'
  | .error _ s' => s'

/-- A computation that may throw and does not touch the state. -/
def ofExcept : Except ε α → EStateM ε σ α
  | .ok a => pure a
  | .error e => throw e

/-- `P` holds of the state of a program that returned. -/
def OnOk (P : σ → Prop) : EStateM.Result ε σ α → Prop
  | .ok _ s => P s
  | .error _ _ => True

instance decidableOnOk (P : σ → Prop) [DecidablePred P] :
    ∀ r : EStateM.Result ε σ α, Decidable (OnOk P r)
  | .ok _ s => inferInstanceAs (Decidable (P s))
  | .error _ _ => isTrue trivial

/-- The program returned. -/
def isOk : EStateM.Result ε σ α → Bool
  | .ok _ _ => true
  | .error _ _ => false

theorem eq_ok_of_isOk {m : EStateM ε σ PUnit} {s : σ} (h : isOk (m s) = true) :
    m s = .ok ⟨⟩ (finalState m s) := by
  unfold isOk at h
  unfold finalState
  cases hm : m s with
  | ok _ s' => rfl
  | error e s' =>
    rw [hm] at h
    exact nomatch h

/-- A sequence returns when its first part does and the rest does from there. -/
theorem isOk_seq_iff {m : EStateM ε σ PUnit} {f : PUnit → EStateM ε σ PUnit} {s : σ} :
    isOk ((m >>= f) s) = true ↔ ∃ s', m s = .ok ⟨⟩ s' ∧ isOk (f ⟨⟩ s') = true := by
  simp only [bind, EStateM.bind]
  cases hm : m s with
  | ok _ s' => simp
  | error e s' => simp [isOk]

/-- The parts of a computation that returned. -/
theorem bind_eq_ok {x : Except ε α} {f : α → Except ε β} {b : β} (h : (x >>= f) = .ok b) :
    ∃ a, x = .ok a ∧ f a = .ok b := by
  cases x with
  | error e => exact nomatch h
  | ok a => exact ⟨a, rfl, h⟩

theorem ok_bind (a : α) (f : α → Except ε β) : ((Except.ok a : Except ε α) >>= f) = f a := rfl

theorem ofExcept_bind {x : Except ε α} {a : α} (h : x = .ok a) (f : α → EStateM ε σ β) (s : σ) :
    (ofExcept x >>= f) s = f a s := by
  subst h
  rfl

theorem bind_of_ok {m : EStateM ε σ α} {s s' : σ} {a : α} (h : m s = .ok a s')
    (f : α → EStateM ε σ β) : (m >>= f) s = f a s' := by
  simp only [bind, EStateM.bind, h]

theorem bind_of_error {m : EStateM ε σ α} {s s' : σ} {e : ε} (h : m s = .error e s')
    (f : α → EStateM ε σ β) : (m >>= f) s = .error e s' := by
  simp only [bind, EStateM.bind, h]

/-- What a sequence that returned did. -/
theorem exists_of_bind_ok {m : EStateM ε σ α} {f : α → EStateM ε σ β} {s s'' : σ} {b : β}
    (h : (m >>= f) s = .ok b s'') : ∃ a s', m s = .ok a s' ∧ f a s' = .ok b s'' := by
  cases hm : m s with
  | ok a s' =>
    rw [bind_of_ok hm] at h
    exact ⟨a, s', rfl, h⟩
  | error e s' =>
    rw [bind_of_error hm] at h
    exact nomatch h

theorem exists_of_ofExcept_bind_ok {x : Except ε α} {f : α → EStateM ε σ β} {s s' : σ} {b : β}
    (h : (ofExcept x >>= f) s = .ok b s') : ∃ a, x = .ok a ∧ f a s = .ok b s' := by
  cases x with
  | ok a => exact ⟨a, rfl, h⟩
  | error e => exact nomatch h

theorem ofExcept_apply {x : Except ε α} {a : α} (h : x = .ok a) (s : σ) :
    ofExcept x s = .ok a s := by
  subst h
  rfl

theorem get_bind (f : σ → EStateM ε σ β) (s : σ) : (get >>= f) s = f s s := rfl

theorem modify_bind (g : σ → σ) (f : PUnit → EStateM ε σ β) (s : σ) :
    (modify g >>= f) s = f ⟨⟩ (g s) := rfl

theorem set_bind (s' : σ) (f : PUnit → EStateM ε σ β) (s : σ) :
    (set s' >>= f) s = f ⟨⟩ s' := rfl

theorem exists_of_isOk {x : Except ε α} (h : x.isOk = true) : ∃ a, x = .ok a := by
  cases x with
  | error e => exact nomatch h
  | ok a => exact ⟨a, rfl⟩

theorem isOk_of_exists {x : Except ε α} (h : ∃ a, x = .ok a) : x.isOk = true := by
  obtain ⟨a, rfl⟩ := h
  rfl

/-- When the second part returns whatever the first one gave. -/
theorem isOk_bind_of_forall {x : Except ε α} {f : α → Except ε β} {P : Prop}
    (hf : ∀ a, (f a).isOk = true ↔ P) : (x >>= f).isOk = true ↔ x.isOk = true ∧ P := by
  cases x with
  | error e => simp [bind, Except.bind, Except.isOk, Except.toBool]
  | ok a => exact ⟨fun h => ⟨rfl, (hf a).mp h⟩, fun h => (hf a).mpr h.2⟩

/-- A loop that collects results has one for each element, in order. -/
theorem mapM_eq_ok_iff {f : α → Except ε β} {l : List α} {bs : List β} :
    l.mapM f = .ok bs ↔ List.Forall₂ (fun a b => f a = .ok b) l bs := by
  induction l generalizing bs with
  | nil =>
    rw [List.mapM_nil, List.forall₂_nil_left_iff]
    exact ⟨fun h => (Except.ok.inj h).symm, fun h => h ▸ rfl⟩
  | cons a l ih =>
    rw [List.mapM_cons, List.forall₂_cons_left_iff]
    constructor
    · intro h
      obtain ⟨b, hb, h⟩ := bind_eq_ok h
      obtain ⟨bs', hbs', h⟩ := bind_eq_ok h
      exact ⟨b, bs', hb, ih.mp hbs', (Except.ok.inj h).symm⟩
    · rintro ⟨b, bs', hb, hbs', rfl⟩
      rw [hb, ok_bind, ih.mpr hbs', ok_bind]
      rfl

/-- The results of such a loop stand where the elements stand. -/
theorem getElem?_of_mapM {f : α → Except ε β} {l : List α} {bs : List β} {i : Nat} {b : β}
    (h : l.mapM f = .ok bs) (hb : bs[i]? = some b) : ∃ a, l[i]? = some a ∧ f a = .ok b := by
  have hpairs := mapM_eq_ok_iff.mp h
  clear h
  induction hpairs generalizing i with
  | nil => exact nomatch hb
  | @cons a _ l bs ha _ ih =>
    cases i with
    | zero =>
      obtain rfl := Option.some.inj hb
      exact ⟨a, rfl, ha⟩
    | succ i => exact ih hb

theorem isOk_mapM_iff {f : α → Except ε β} {l : List α} :
    (l.mapM f).isOk = true ↔ ∀ a ∈ l, (f a).isOk = true := by
  induction l with
  | nil => exact iff_of_true rfl fun a ha => nomatch ha
  | cons a l ih =>
    rw [List.mapM_cons, List.forall_mem_cons, isOk_bind_of_forall fun b => ?_]
    rw [isOk_bind_of_forall fun _ => iff_true_intro rfl, and_true, ih]

/-- `y` returns whatever `x` returns; it may return where `x` throws. -/
def LeOk (x y : Except ε α) : Prop := ∀ a, x = .ok a → y = .ok a

theorem LeOk.refl (x : Except ε α) : LeOk x x := fun _ h => h

theorem LeOk.bind {x y : Except ε α} {f g : α → Except ε β} (hxy : LeOk x y)
    (hfg : ∀ a, LeOk (f a) (g a)) : LeOk (x >>= f) (y >>= g) := by
  intro b h
  obtain ⟨a, ha, hb⟩ := bind_eq_ok h
  rw [hxy a ha]
  exact hfg a b hb

/-! ## Where a program ends -/

theorem finalState_of_ok {m : EStateM ε σ α} {s s' : σ} {a : α} (h : m s = .ok a s') :
    finalState m s = s' := by
  rw [finalState, h]

theorem finalState_of_error {m : EStateM ε σ α} {s s' : σ} {e : ε} (h : m s = .error e s') :
    finalState m s = s' := by
  rw [finalState, h]

/-- What comes last and leaves the state does not matter. -/
theorem finalState_bind_of_keeps {m : EStateM ε σ α} {f : α → EStateM ε σ β}
    (hf : ∀ a s, finalState (f a) s = s) (s : σ) : finalState (m >>= f) s = finalState m s := by
  cases h : m s with
  | ok a s' => rw [finalState, bind_of_ok h, ← finalState, hf, finalState_of_ok h]
  | error e s' => rw [finalState_of_error (bind_of_error h f), finalState_of_error h]

/-- What comes last and returns does not matter for whether a program returns. -/
theorem isOk_bind_of_pure (m : EStateM ε σ α) (f : α → β) (s : σ) :
    isOk ((m >>= fun a => pure (f a)) s) = isOk (m s) := by
  cases h : m s with
  | ok a s' => rw [bind_of_ok h]; rfl
  | error e s' => rw [bind_of_error h]; rfl

/-- A program ends in a state that satisfies `P`, normally or by an exception. -/
def EndsIn (P : σ → Prop) (m : EStateM ε σ α) (s : σ) : Prop := P (finalState m s)

variable {P : σ → Prop} {s : σ}

theorem endsIn_get_bind {f : σ → EStateM ε σ β} (h : EndsIn P (f s) s) :
    EndsIn P (get >>= f) s := h

/-- A program that starts with a computation ends where it started, or as the rest does. -/
theorem endsIn_ofExcept_bind {x : Except ε α} {f : α → EStateM ε σ β} (herror : P s)
    (hok : ∀ a, x = .ok a → EndsIn P (f a) s) : EndsIn P (ofExcept x >>= f) s := by
  cases x with
  | error e => exact herror
  | ok a => exact hok a rfl

/-- A sequence ends in `P` when its first part does and the rest does from every such state. -/
theorem endsIn_bind {m : EStateM ε σ α} {f : α → EStateM ε σ β} (hm : EndsIn P m s)
    (hf : ∀ a s', P s' → EndsIn P (f a) s') : EndsIn P (m >>= f) s := by
  unfold EndsIn at hm ⊢
  cases h : m s with
  | ok a s' =>
    rw [finalState_of_ok h] at hm
    rw [finalState, bind_of_ok h]
    exact hf a s' hm
  | error e s' =>
    rw [finalState_of_error h] at hm
    rw [finalState_of_error (bind_of_error h f)]
    exact hm

/-- A loop ends in `P` when every pass of it keeps `P`. -/
theorem endsIn_forM {f : α → EStateM ε σ PUnit} {l : List α}
    (hf : ∀ a ∈ l, ∀ s, P s → EndsIn P (f a) s) (hs : P s) : EndsIn P (l.forM f) s := by
  induction l generalizing s with
  | nil => exact hs
  | cons x xs ih =>
    apply endsIn_bind (hf x List.mem_cons_self s hs)
    intro _ s' hs'
    exact ih (fun a ha => hf a (List.mem_cons_of_mem x ha)) hs'

/-- `m` changes nothing that `view` shows. -/
def Keeps (view : σ → τ) (m : EStateM ε σ α) : Prop :=
  ∀ s, view (finalState m s) = view s

variable {view : σ → τ}

theorem keeps_pure (a : α) : Keeps view (pure a : EStateM ε σ α) := fun _ => rfl

theorem keeps_get : Keeps view (get : EStateM ε σ σ) := fun _ => rfl

theorem keeps_modify {f : σ → σ} (h : ∀ s, view (f s) = view s) :
    Keeps view (modify f : EStateM ε σ PUnit) :=
  fun s => h s

theorem keeps_ofExcept (x : Except ε α) : Keeps view (ofExcept x : EStateM ε σ α) := by
  intro s
  cases x with
  | ok a => rfl
  | error e => rfl

theorem keeps_bind {m : EStateM ε σ α} {f : α → EStateM ε σ β} (hm : Keeps view m)
    (hf : ∀ a, Keeps view (f a)) : Keeps view (m >>= f) := by
  intro s
  have hms := hm s
  unfold finalState at hms ⊢
  simp only [bind, EStateM.bind]
  cases h : m s with
  | ok a s' =>
    simp only [h] at hms
    exact (hf a s').trans hms
  | error e s' =>
    simp only [h] at hms
    exact hms

/-- A loop keeps what every pass of it keeps. -/
theorem keeps_forM_of_mem {f : α → EStateM ε σ PUnit} {l : List α}
    (hf : ∀ a ∈ l, Keeps view (f a)) : Keeps view (l.forM f) := by
  induction l with
  | nil => exact keeps_pure _
  | cons x xs ih =>
    apply keeps_bind (hf x List.mem_cons_self)
    intro _
    exact ih fun a ha => hf a (List.mem_cons_of_mem x ha)

theorem keeps_forM {f : α → EStateM ε σ PUnit} (hf : ∀ a, Keeps view (f a)) (l : List α) :
    Keeps view (l.forM f) :=
  keeps_forM_of_mem fun a _ => hf a

/-- Where a sequence ends: where its first part throws, or where the rest ends. -/
theorem finalState_seq_of_ok {m : EStateM ε σ PUnit} {f : PUnit → EStateM ε σ PUnit} {s : σ}
    (h : isOk (m s) = true) : finalState (m >>= f) s = finalState (f ⟨⟩) (finalState m s) := by
  rw [finalState, bind_of_ok (eq_ok_of_isOk h), ← finalState]

theorem finalState_seq_of_not_ok {m : EStateM ε σ PUnit} {f : PUnit → EStateM ε σ PUnit} {s : σ}
    (h : ¬ isOk (m s) = true) : finalState (m >>= f) s = finalState m s := by
  cases hm : m s with
  | ok a s' =>
    rw [hm] at h
    exact absurd rfl h
  | error e s' => rw [finalState_of_error (bind_of_error hm f), finalState_of_error hm]

/-! ## Loops that parse and store -/

/-- The results up to the first element that `p` rejects, and its error. -/
def prefixOk (p : α → Except ε β) : List α → List β × Option ε
  | [] => ([], none)
  | x :: xs =>
    match p x with
    | .error e => ([], some e)
    | .ok b => (b :: (prefixOk p xs).1, (prefixOk p xs).2)

theorem exists_of_mem_prefixOk {p : α → Except ε β} {l : List α} {b : β}
    (h : b ∈ (prefixOk p l).1) : ∃ x ∈ l, p x = .ok b := by
  induction l with
  | nil => exact absurd h List.not_mem_nil
  | cons x xs ih =>
    unfold prefixOk at h
    cases hx : p x with
    | error e =>
      rw [hx] at h
      exact absurd h List.not_mem_nil
    | ok b₀ =>
      rw [hx] at h
      rcases List.mem_cons.mp h with rfl | hmem
      · exact ⟨x, List.mem_cons_self, hx⟩
      · obtain ⟨y, hy, hpy⟩ := ih hmem
        exact ⟨y, List.mem_cons_of_mem x hy, hpy⟩

/-- When every element parses, all results are there. -/
theorem prefixOk_of_forall {p : α → Except ε β} {l : List α} (h : ∀ x ∈ l, ∃ b, p x = .ok b) :
    (prefixOk p l).2 = none ∧ ∀ x ∈ l, ∀ b, p x = .ok b → b ∈ (prefixOk p l).1 := by
  induction l with
  | nil => exact ⟨rfl, nofun⟩
  | cons x xs ih =>
    obtain ⟨hnone, hmem⟩ := ih fun y hy => h y (List.mem_cons_of_mem x hy)
    obtain ⟨b₀, hb₀⟩ := h x List.mem_cons_self
    unfold prefixOk
    rw [hb₀]
    refine ⟨hnone, fun y hy b hb => ?_⟩
    rcases List.mem_cons.mp hy with rfl | hy
    · rw [hb₀] at hb
      cases hb
      exact List.mem_cons_self
    · exact List.mem_cons_of_mem b₀ (hmem y hy b hb)

/-- One pass of a loop. -/
theorem forM_cons_apply (g : α → EStateM ε σ PUnit) (x : α) (xs : List α) (s : σ) :
    (x :: xs).forM g s =
      match g x s with
      | .ok _ s' => xs.forM g s'
      | .error e s' => .error e s' := by
  show (g x >>= fun _ => xs.forM g) s = _
  simp only [bind, EStateM.bind]
  cases g x s <;> rfl

/-- A loop over two blocks is the loops over each. -/
theorem forM_append (g : α → EStateM ε σ PUnit) (l l' : List α) :
    (l ++ l').forM g = (l.forM g >>= fun _ => l'.forM g) :=
  List.forM_append

/-- A loop whose passes each fold some changes into the state has, when it ends normally,
    folded all of them. -/
theorem forM_ok_eq_foldl {g : α → EStateM ε σ PUnit} {f : σ → β → σ} {changes : α → List β}
    (hg : ∀ x s s', g x s = .ok ⟨⟩ s' → s' = (changes x).foldl f s) {l : List α} {s s' : σ}
    (h : l.forM g s = .ok ⟨⟩ s') : s' = (l.flatMap changes).foldl f s := by
  induction l generalizing s with
  | nil =>
    cases h
    rfl
  | cons x xs ih =>
    rw [forM_cons_apply] at h
    cases hx : g x s with
    | error e s₁ =>
      rw [hx] at h
      exact nomatch h
    | ok _ s₁ =>
      rw [hx] at h
      rw [List.flatMap_cons, List.foldl_append, ← hg x s s₁ hx]
      exact ih h

/-- A loop returns when every pass of it can, if no pass that returns changes which ones can. -/
theorem isOk_forM_iff {g : α → EStateM ε σ PUnit} {good : σ → α → Prop} {l : List α}
    (hstep : ∀ x ∈ l, ∀ s, isOk (g x s) = true ↔ good s x)
    (hkeep : ∀ x ∈ l, ∀ s s', g x s = .ok ⟨⟩ s' → ∀ y ∈ l, (good s' y ↔ good s y)) (s : σ) :
    isOk (l.forM g s) = true ↔ ∀ x ∈ l, good s x := by
  induction l generalizing s with
  | nil => simp [isOk, List.forM, pure, EStateM.pure]
  | cons x xs ih =>
    have hx := hstep x List.mem_cons_self s
    have ih' := ih (fun y hy => hstep y (List.mem_cons_of_mem x hy)) fun y hy s s' h z hz =>
      hkeep y (List.mem_cons_of_mem x hy) s s' h z (List.mem_cons_of_mem x hz)
    rw [forM_cons_apply, List.forall_mem_cons, ← hx]
    cases hg : g x s with
    | error e s' => simp [isOk]
    | ok _ s' =>
      have hrest := hkeep x List.mem_cons_self s s' hg
      have hthis : isOk (EStateM.Result.ok PUnit.unit s' : EStateM.Result ε σ PUnit) = true := rfl
      rw [iff_true_intro hthis, true_and]
      dsimp only
      rw [ih' s']
      exact forall₂_congr fun y hy => hrest y (List.mem_cons_of_mem x hy)

/-- What a loop that returned did, when its passes compose to a relation. -/
theorem forM_ok_rel {g : α → EStateM ε σ PUnit} {R : List α → σ → σ → Prop}
    (hnil : ∀ s, R [] s s)
    (hcons : ∀ x xs s s₁ s', g x s = .ok ⟨⟩ s₁ → R xs s₁ s' → R (x :: xs) s s')
    {l : List α} {s s' : σ} (h : l.forM g s = .ok ⟨⟩ s') : R l s s' := by
  induction l generalizing s with
  | nil =>
    cases h
    exact hnil s'
  | cons x xs ih =>
    rw [forM_cons_apply] at h
    cases hx : g x s with
    | error e s₁ =>
      rw [hx] at h
      exact nomatch h
    | ok _ s₁ =>
      rw [hx] at h
      exact hcons x xs s s₁ s' hx (ih h)

/-- A loop whose passes all return ends where its passes lead one after the other. -/
theorem finalState_forM_of_ok {g : α → EStateM ε σ PUnit} {l : List α}
    (hok : ∀ x ∈ l, ∀ s, isOk (g x s) = true) (s : σ) :
    finalState (l.forM g) s = l.foldl (fun s x => finalState (g x) s) s := by
  induction l generalizing s with
  | nil => rfl
  | cons x xs ih =>
    have hx := eq_ok_of_isOk (hok x List.mem_cons_self s)
    rw [finalState, forM_cons_apply, hx, List.foldl_cons]
    exact ih (fun y hy => hok y (List.mem_cons_of_mem x hy)) _

/-- A loop ends with the first pass that throws. -/
theorem finalState_forM_of_throw {g : α → EStateM ε σ PUnit} {pre post : List α} {x : α}
    (hok : ∀ y ∈ pre, ∀ s, isOk (g y s) = true) (hx : ∀ s, ¬isOk (g x s) = true) (s : σ) :
    finalState ((pre ++ x :: post).forM g) s =
      (pre ++ [x]).foldl (fun s x => finalState (g x) s) s := by
  induction pre generalizing s with
  | nil =>
    show finalState (g x >>= fun _ => post.forM g) s = finalState (g x) s
    exact finalState_seq_of_not_ok (hx s)
  | cons y ys ih =>
    have hy := eq_ok_of_isOk (hok y List.mem_cons_self s)
    rw [List.cons_append, finalState, forM_cons_apply, hy, List.cons_append, List.foldl_cons]
    exact ih (fun z hz => hok z (List.mem_cons_of_mem y hz)) _

/-- `P` holds of every pass of a loop: of its element and the state it starts in. -/
def EachPass (P : α → σ → Prop) (g : α → EStateM ε σ PUnit) : List α → σ → Prop
  | [], _ => True
  | x :: xs, s =>
    P x s ∧
    match g x s with
    | .ok _ s' => EachPass P g xs s'
    | .error _ _ => True

theorem eachPass_congr {P Q : α → σ → Prop} {g : α → EStateM ε σ PUnit}
    (h : ∀ x s, P x s ↔ Q x s) (l : List α) (s : σ) : EachPass P g l s ↔ EachPass Q g l s := by
  induction l generalizing s with
  | nil => exact Iff.rfl
  | cons x xs ih =>
    unfold EachPass
    rw [h]
    cases g x s with
    | ok _ s' => exact and_congr_right' (ih s')
    | error e s' => exact Iff.rfl

/-- A loop returns when every pass of it does, each in the state that the passes before left. -/
theorem isOk_forM_iff_eachPass (g : α → EStateM ε σ PUnit) (l : List α) (s : σ) :
    isOk (l.forM g s) = true ↔ EachPass (fun x s => isOk (g x s) = true) g l s := by
  induction l generalizing s with
  | nil => exact iff_of_true rfl trivial
  | cons x xs ih =>
    unfold EachPass
    rw [forM_cons_apply]
    cases g x s with
    | ok _ s' =>
      rw [ih s']
      exact (and_iff_right rfl).symm
    | error e s' => simp [isOk]

/-- Parse a value and store what it gives. -/
def storeParsed (p : α → Except ε β) (f : σ → β → σ) (x : α) : EStateM ε σ PUnit := do
  let b ← ofExcept (p x)
  modify fun s => f s b

/-- A loop that parses each element and stores the result has stored all results up to the
    first one that does not parse, and throws there. -/
theorem forM_storeParsed (p : α → Except ε β) (f : σ → β → σ) (l : List α) (s : σ) :
    l.forM (storeParsed p f) s =
      match prefixOk p l with
      | (bs, none) => .ok ⟨⟩ (bs.foldl f s)
      | (bs, some e) => .error e (bs.foldl f s) := by
  induction l generalizing s with
  | nil => rfl
  | cons x xs ih =>
    rw [forM_cons_apply]
    cases hx : p x with
    | error e =>
      have hstep : storeParsed p f x s = .error e s := by rw [storeParsed, hx]; rfl
      simp only [prefixOk, hstep, hx, List.foldl_nil]
    | ok b =>
      have hstep : storeParsed p f x s = .ok ⟨⟩ (f s b) := by rw [storeParsed, hx]; rfl
      simp only [prefixOk, hstep, hx, ih]
      rcases prefixOk p xs with ⟨bs, _ | e⟩ <;> rfl

end EState

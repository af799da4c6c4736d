import Ndtwin.ForStd.Json

/-!
# Reading and changing JSON values

The typed reads and the mutable accesses of `nlohmann::json`. A read of an integer accepts
every number, and an `int` a boolean as well. A mutable subscript makes an object out of
null and a null field out of a missing one. The fields of an object stay sorted by key.
-/

namespace Json

variable {α ε : Type}

/-! ## Typed reads -/

/-- A decimal number cut toward zero. -/
def truncate (mantissa exponent : Int) : Int :=
  if 0 ≤ exponent then mantissa * 10 ^ exponent.toNat
  else mantissa.tdiv (10 ^ (- exponent).toNat)

/-- `j.get<int>()`: an integer is cut to its low 32 bits. A floating-point number out of range
    is undefined in C++, and the smallest `int` on x86-64. -/
def getInt : Json → Except Error Int
  | .uint n => .ok ((n : Int).bmod (2 ^ 32))
  | .int i => .ok (i.bmod (2 ^ 32))
  | .float mantissa exponent =>
    let v := truncate mantissa exponent
    .ok (if - 2 ^ 31 ≤ v ∧ v < 2 ^ 31 then v else - 2 ^ 31)
  | .bool b => .ok (if b then 1 else 0)
  | _ => .error .typeError

/-- `j.get<uint64_t>()`, which does not accept a boolean. -/
def getUInt64 : Json → Except Error UInt64
  | .uint n => .ok (UInt64.ofNat n)
  | .int i => .ok (UInt64.ofInt i)
  | .float mantissa exponent => .ok (UInt64.ofInt (truncate mantissa exponent))
  | _ => .error .typeError

/-- `j.get<std::string>()` -/
def getString : Json → Except Error String
  | .str s => .ok s
  | _ => .error .typeError

/-- `j.get<int>()` as the machine integer. -/
def getInt32 (j : Json) : Except Error Int32 := j.getInt.map Int32.ofInt

/-- `j.get<uint16_t>()`: the low 16 bits of what an `int` reads. -/
def getUInt16 (j : Json) : Except Error UInt16 := j.getInt.map UInt16.ofInt

/-- `j.get<std::vector<std::string>>()` -/
def getStrings : Json → Except Error (List String)
  | .arr elems => elems.mapM getString
  | _ => .error .typeError

/-- `j.value(key, fallback)`: throws for a value that is not an object and for a field that
    cannot be read. -/
def valueOr (read : Json → Except Error α) (j : Json) (key : String) (fallback : α) :
    Except Error α :=
  match j with
  | .obj _ =>
    match j.field? key with
    | none => .ok fallback
    | some v => read v
  | _ => .error .typeError

/-- `j.value(key, fallback)` with an `int` as fallback. -/
def valueInt : Json → String → Int → Except Error Int := valueOr getInt

/-- `j.value(key, fallback)` with a JSON value as fallback, which accepts every field. -/
def valueJson : Json → String → Json → Except Error Json := valueOr .ok

/-- The value can be read as an `int`. -/
def IsIntLike : Json → Prop
  | .uint _ | .int _ | .float _ _ | .bool _ => True
  | _ => False

instance decidableIsIntLike : DecidablePred IsIntLike
  | .uint _ | .int _ | .float _ _ | .bool _ => isTrue trivial
  | .null | .str _ | .arr _ | .obj _ => isFalse id

/-- The field, if there is one, can be read as an `int`. -/
def IntField (j : Json) (key : String) : Prop := ∀ v ∈ j.field? key, IsIntLike v

instance decidableIntField (j : Json) (key : String) : Decidable (IntField j key) :=
  decidable_of_iff ((j.field? key).all fun v => decide (IsIntLike v)) (by
    unfold IntField
    cases j.field? key with
    | none => simp
    | some v => simp)

theorem getInt_isOk_iff (j : Json) : j.getInt.isOk = true ↔ IsIntLike j := by
  cases j <;> simp [getInt, IsIntLike, Except.isOk, Except.toBool]

theorem valueOr_of_field {read : Json → Except Error α} {j v : Json} {key : String} {fallback : α}
    (h : j.field? key = some v) : valueOr read j key fallback = read v := by
  cases j with
  | obj fields => simp only [valueOr, h]
  | _ => exact nomatch h

theorem valueOr_obj_of_none {read : Json → Except Error α} {fields : List (String × Json)}
    {key : String} {fallback : α} (h : (Json.obj fields).field? key = none) :
    valueOr read (.obj fields) key fallback = .ok fallback := by
  simp only [valueOr, h]

/-- A read depends on the field it reads only. -/
theorem valueOr_obj_congr {read : Json → Except Error α} {fields fields' : List (String × Json)}
    {key : String} (h : (Json.obj fields).field? key = (Json.obj fields').field? key)
    (fallback : α) :
    valueOr read (.obj fields) key fallback = valueOr read (.obj fields') key fallback := by
  simp only [valueOr, h]

/-- What was read as an `int` can be stored and read again. -/
theorem getInt_int {j : Json} {i : Int} (h : j.getInt = .ok i) : (Json.int i).getInt = .ok i := by
  have hmod : i.bmod (2 ^ 32) = i := by
    cases j with
    | uint n =>
      obtain rfl := Except.ok.inj h
      exact Int.bmod_bmod
    | int k =>
      obtain rfl := Except.ok.inj h
      exact Int.bmod_bmod
    | float mantissa exponent =>
      obtain rfl := Except.ok.inj h
      split
      · rename_i hrange
        exact Int.bmod_eq_of_le (by omega) (by omega)
      · decide
    | bool b =>
      obtain rfl := Except.ok.inj h
      cases b <;> decide
    | _ => exact nomatch h
  rw [getInt, hmod]

/-- An `int` that is stored is read again. -/
@[simp] theorem getInt32_int (x : Int32) : (Json.int x.toInt).getInt32 = .ok x := by
  show Except.ok (Int32.ofInt (x.toInt.bmod (2 ^ 32))) = _
  rw [Int.bmod_eq_of_le (by have := x.le_toInt; omega) (by have := x.toInt_lt; omega),
    Int32.ofInt_toInt]

@[simp] theorem getUInt16_uint (x : UInt16) : (Json.uint x.toNat).getUInt16 = .ok x := by
  have hx := x.toNat_lt
  show Except.ok (UInt16.ofInt ((x.toNat : Int).bmod (2 ^ 32))) = _
  rw [Int.bmod_eq_of_le (by omega) (by omega)]
  have hmod : ((x.toNat : Int) % 2 ^ 16).toNat = x.toNat := by omega
  show Except.ok (UInt16.ofNat ((x.toNat : Int) % 2 ^ 16).toNat) = _
  rw [hmod, UInt16.ofNat_toNat]

@[simp] theorem getStrings_map (xs : List String) :
    (Json.arr (xs.map .str)).getStrings = .ok xs := by
  show (xs.map Json.str).mapM getString = _
  induction xs with
  | nil => rfl
  | cons x xs ih =>
    rw [List.map_cons, List.mapM_cons, ih]
    rfl

/-- The integer `n`, however it is stored. -/
def IsInt (j : Json) (n : Int) : Prop := j = .int n ∨ ∃ k : Nat, j = .uint k ∧ (k : Int) = n

/-- An integer in the range of an `int` is read as it is. -/
theorem getInt_of_isInt {j : Json} {n : Int} (h : IsInt j n) (hlo : - 2 ^ 31 ≤ n)
    (hhi : n < 2 ^ 31) : j.getInt = .ok n := by
  have hmod : n.bmod (2 ^ 32) = n := Int.bmod_eq_of_le (by omega) (by omega)
  cases h with
  | inl hint =>
    rw [hint, getInt, hmod]
  | inr huint =>
    obtain ⟨k, rfl, rfl⟩ := huint
    rw [getInt, hmod]

theorem getUInt16_of_isInt {j : Json} {n : Int} {x : UInt16} (h : IsInt j n) (hlo : 0 ≤ n)
    (hhi : n < 2 ^ 16) (hx : j.getUInt16 = .ok x) : (x.toNat : Int) = n := by
  unfold getUInt16 at hx
  rw [getInt_of_isInt h (by omega) (by omega)] at hx
  obtain rfl := Except.ok.inj hx
  show ((UInt16.ofNat (n % 2 ^ 16).toNat).toNat : Int) = n
  rw [UInt16.toNat_ofNat']
  omega

theorem getInt32_of_isInt {j : Json} {n : Int} (h : IsInt j n) (hlo : - 2 ^ 31 ≤ n)
    (hhi : n < 2 ^ 31) : j.getInt32 = .ok (Int32.ofInt n) := by
  unfold getInt32
  rw [getInt_of_isInt h hlo hhi]
  rfl

theorem isObject_of_valueOr_ok {read : Json → Except Error α} {j : Json} {key : String}
    {fallback a : α} (h : valueOr read j key fallback = .ok a) : j.isObject = true := by
  cases j with
  | obj fields => rfl
  | _ => exact nomatch h

theorem valueInt_isOk_iff (j : Json) (key : String) (fallback : Int) :
    (j.valueInt key fallback).isOk = true ↔ j.isObject = true ∧ IntField j key := by
  cases j with
  | obj fields =>
    rw [valueInt, IntField]
    cases h : (Json.obj fields).field? key with
    | none => simp [valueOr_obj_of_none h, isObject, Except.isOk, Except.toBool]
    | some v => simp [valueOr_of_field h, isObject, getInt_isOk_iff]
  | _ => simp [valueInt, valueOr, isObject, Except.isOk, Except.toBool]

/-- What a read of a JSON value from an object gives. -/
theorem valueJson_obj (fields : List (String × Json)) (key : String) (fallback : Json) :
    (Json.obj fields).valueJson key fallback =
      .ok (((Json.obj fields).field? key).getD fallback) := by
  rw [valueJson]
  cases h : (Json.obj fields).field? key with
  | none => rw [valueOr_obj_of_none h, Option.getD_none]
  | some v => rw [valueOr_of_field h, Option.getD_some]

/-! ## Changes -/

/-- The fields of an object after an assignment to one of them. -/
def insertField (key : String) (v : Json) : List (String × Json) → List (String × Json)
  | [] => [(key, v)]
  | f :: fs =>
    if f.1 = key then (key, v) :: fs
    else if key < f.1 then (key, v) :: f :: fs
    else f :: insertField key v fs

/-- An object that is written down as its pairs. -/
def ofPairs (pairs : List (String × Json)) : Json :=
  .obj (pairs.foldl (fun fields f => insertField f.1 f.2 fields) [])

/-- `j[key] = v` -/
def assign (j : Json) (key : String) (v : Json) : Except Error Json :=
  match j with
  | .obj fields => .ok (.obj (insertField key v fields))
  | .null => .ok (.obj [(key, v)])
  | _ => .error .typeError

/-- `j[key]` of a value that can be changed: the value, in which the field now exists. -/
def subscript (j : Json) (key : String) : Except Error Json :=
  match j.field? key with
  | some _ => .ok j
  | none => j.assign key .null

/-- What `j[key]` refers to: null when the field did not exist. -/
def subscriptValue (j : Json) (key : String) : Except Error Json :=
  (j.subscript key).map fun j => (j.field? key).getD .null

/-- `j.erase(key)` -/
def eraseField (j : Json) (key : String) : Except Error Json :=
  match j with
  | .obj fields => .ok (.obj (fields.filter fun f => f.1 ≠ key))
  | _ => .error .typeError

/-- `j.push_back(v)` -/
def pushBack (j v : Json) : Except Error Json :=
  match j with
  | .arr elems => .ok (.arr (elems ++ [v]))
  | .null => .ok (.arr [v])
  | _ => .error .typeError

/-- What `iterate` visits, replaced in order by `xs`; elements beyond the last are gone. -/
def withElems : Json → List Json → Json
  | .arr _, xs => .arr xs
  | .obj fields, xs => .obj (List.zipWith (fun f x => (f.1, x)) fields xs)
  | j, _ => j

theorem find?_insertField (key k : String) (v : Json) (fields : List (String × Json)) :
    (insertField key v fields).find? (fun f => f.1 = k) =
      if key = k then some (key, v) else fields.find? (fun f => f.1 = k) := by
  induction fields with
  | nil => by_cases hk : key = k <;> simp [insertField, List.find?, hk]
  | cons f fs ih =>
    unfold insertField
    by_cases hkey : f.1 = key
    · rw [if_pos hkey]
      subst hkey
      by_cases hk : f.1 = k <;> simp [List.find?, hk]
    · rw [if_neg hkey]
      by_cases hk : key = k
      · subst hk
        split <;> simp [List.find?, hkey, ih]
      · split <;> simp [List.find?, hk, ih]

@[simp] theorem field?_insertField (key k : String) (v : Json) (fields : List (String × Json)) :
    (Json.obj (insertField key v fields)).field? k =
      if key = k then some v else (Json.obj fields).field? k := by
  simp only [field?, find?_insertField]
  split <;> simp

@[simp] theorem field?_filter_ne (key k : String) (fields : List (String × Json)) :
    (Json.obj (fields.filter fun f => f.1 ≠ key)).field? k =
      if key = k then none else (Json.obj fields).field? k := by
  simp only [field?, List.find?_filter]
  by_cases hk : key = k
  · subst hk
    simp
  · have hpred : (fun f : String × Json => !decide (f.1 = key) && decide (f.1 = k)) =
        fun f => decide (f.1 = k) := by
      funext f
      by_cases hf : f.1 = k <;> simp [hf, Ne.symm hk]
    simp [hk, hpred]

@[simp] theorem atField_insertField (key k : String) (v : Json) (fields : List (String × Json)) :
    (Json.obj (insertField key v fields)).atField k =
      if key = k then .ok v else (Json.obj fields).atField k := by
  by_cases hk : key = k <;> simp [atField, hk]

/-- A mutable subscript adds a null field if there is none, and changes nothing else. -/
theorem exists_subscript_obj (fields : List (String × Json)) (key : String) :
    ∃ fields', (Json.obj fields).subscript key = .ok (.obj fields') ∧
      ∀ k, (Json.obj fields').field? k =
        if key = k then some (((Json.obj fields).field? key).getD .null)
        else (Json.obj fields).field? k := by
  unfold subscript
  cases h : (Json.obj fields).field? key with
  | some v =>
    refine ⟨fields, rfl, ?_⟩
    intro k
    split
    · next hk => rw [← hk, h, Option.getD_some]
    · rfl
  | none => exact ⟨_, rfl, fun k => field?_insertField key k .null fields⟩

theorem subscriptValue_of_field {j v : Json} {key : String} (h : j.field? key = some v) :
    j.subscriptValue key = .ok v := by
  simp only [subscriptValue, subscript, h]
  exact congrArg (fun v => Except.ok (v.getD .null)) h

theorem withElems_iterate (j : Json) : j.withElems j.iterate = j := by
  cases j with
  | obj fields =>
    have hfields : List.zipWith (fun f x => (f.1, x)) fields (fields.map Prod.snd) = fields := by
      induction fields with
      | nil => rfl
      | cons f fs ih => rw [List.map_cons, List.zipWith_cons_cons, ih]
    rw [iterate, withElems, hfields]
  | _ => rfl

theorem iterate_withElems {j : Json} {xs : List Json} (hlen : xs.length ≤ j.iterate.length)
    (hj : j.isObject = true ∨ j.isArray = true) : (j.withElems xs).iterate = xs := by
  cases j with
  | arr elems => rfl
  | obj fields =>
    have hlen' : xs.length ≤ fields.length := by simpa [iterate] using hlen
    simp only [withElems, iterate, List.map_zipWith]
    clear hlen hj
    induction xs generalizing fields with
    | nil => simp
    | cons x xs ih =>
      cases fields with
      | nil => simp at hlen'
      | cons f fs =>
        have hrest := ih fs (by simpa using hlen')
        simp [hrest]
  | _ => simp [isObject, isArray] at hj

end Json

/-! ## Removing elements in place -/

namespace InPlace

/-- `std::remove_if`: what is left of the elements, or the error of the test together with the
    elements as they are then. `kept` are the elements already moved to the front, `gap` those
    between them and the next one to look at; an element that was moved leaves `hole`. -/
def removeIf {α ε : Type} (p : α → Except ε Bool) (hole : α) :
    List α → List α → List α → Except (ε × List α) (List α)
  | kept, _, [] => .ok kept
  | kept, gap, x :: xs =>
    match p x with
    | .error e => .error (e, kept ++ gap ++ x :: xs)
    | .ok true => removeIf p hole kept (gap ++ [x]) xs
    | .ok false =>
      match gap with
      | [] => removeIf p hole (kept ++ [x]) [] xs
      | _ :: gap => removeIf p hole (kept ++ [x]) (gap ++ [hole]) xs

/-- The test returned and rejects the element. -/
def fails {α ε : Type} (p : α → Except ε Bool) (x : α) : Bool :=
  match p x with
  | .ok false => true
  | _ => false

/-- When the test returns for every element, those that fail it are left, in order. -/
theorem removeIf_eq_ok {α ε : Type} {p : α → Except ε Bool} (hole : α) (kept gap : List α)
    {xs : List α} (h : ∀ x ∈ xs, (p x).isOk = true) :
    removeIf p hole kept gap xs = .ok (kept ++ xs.filter (fails p)) := by
  induction xs generalizing kept gap with
  | nil => simp [removeIf]
  | cons x xs ih =>
    have hx := h x List.mem_cons_self
    have hxs : ∀ y ∈ xs, (p y).isOk = true := fun y hy => h y (List.mem_cons_of_mem x hy)
    unfold removeIf
    cases hp : p x with
    | error e => rw [hp] at hx; exact nomatch hx
    | ok b =>
      cases b with
      | true =>
        have hfails : fails p x = false := by simp [fails, hp]
        simp only [ih _ _ hxs, List.filter_cons, hfails]
        rfl
      | false =>
        have hfails : fails p x = true := by simp [fails, hp]
        cases gap <;> simp [ih _ _ hxs, hfails]

/-- It throws as soon as the test throws for one element. -/
theorem forall_isOk_of_removeIf {α ε : Type} {p : α → Except ε Bool} {hole : α}
    {kept gap xs ys : List α} (h : removeIf p hole kept gap xs = .ok ys) :
    ∀ x ∈ xs, (p x).isOk = true := by
  induction xs generalizing kept gap with
  | nil => exact fun x hx => nomatch hx
  | cons x xs ih =>
    unfold removeIf at h
    cases hp : p x with
    | error e =>
      rw [hp] at h
      exact nomatch h
    | ok b =>
      have hrest : ∀ y ∈ xs, (p y).isOk = true := by
        rw [hp] at h
        cases b with
        | true => exact ih h
        | false =>
          cases gap with
          | nil => exact ih h
          | cons g gap => exact ih h
      intro y hy
      rcases List.mem_cons.mp hy with rfl | hy
      · rw [hp]
        rfl
      · exact hrest y hy

/-- When it throws, what was moved to the front stays there. -/
theorem prefix_of_removeIf_error {α ε : Type} {p : α → Except ε Bool} {hole : α} {e : ε}
    {kept gap xs elems : List α} (h : removeIf p hole kept gap xs = .error (e, elems)) :
    kept <+: elems ∧ elems.length = kept.length + gap.length + xs.length := by
  induction xs generalizing kept gap with
  | nil => exact nomatch h
  | cons x xs ih =>
    unfold removeIf at h
    cases hp : p x with
    -- The loop stops here, with the elements it has moved before the gap.
    | error e' =>
      rw [hp] at h
      obtain ⟨rfl, rfl⟩ := Prod.mk.inj (Except.error.inj h)
      rw [List.append_assoc]
      refine ⟨List.prefix_append kept _, ?_⟩
      simp only [List.length_append, List.length_cons]
      omega
    | ok b =>
      rw [hp] at h
      cases b with
      | true =>
        obtain ⟨hfront, hlen⟩ := ih h
        simp only [List.length_append, List.length_cons, List.length_nil] at hlen ⊢
        exact ⟨hfront, by omega⟩
      | false =>
        -- An element that stays fills the first place of the gap.
        cases gap with
        | nil =>
          obtain ⟨hfront, hlen⟩ := ih h
          simp only [List.length_append, List.length_cons, List.length_nil] at hlen ⊢
          exact ⟨(List.prefix_append kept [x]).trans hfront, by omega⟩
        | cons g gap =>
          obtain ⟨hfront, hlen⟩ := ih h
          simp only [List.length_append, List.length_cons, List.length_nil] at hlen ⊢
          exact ⟨(List.prefix_append kept [x]).trans hfront, by omega⟩

/-- When it throws, the elements are as they were exactly if, before the one that throws, no
    element to keep follows one to remove. -/
theorem eq_iff_of_removeIf_error {α ε : Type} {p : α → Except ε Bool} {hole : α} {e : ε}
    {kept gap xs elems : List α} (hgap : ∀ g ∈ gap, p g = .ok true)
    (h : removeIf p hole kept gap xs = .error (e, elems)) :
    elems = kept ++ gap ++ xs ↔
      (gap ++ xs.takeWhile fun x => (p x).isOk).Pairwise fun x y => p x = .ok true → p y = .ok true := by
  induction xs generalizing kept gap with
  | nil => exact nomatch h
  | cons x xs ih =>
    unfold removeIf at h
    cases hp : p x with
    | error e' =>
      rw [hp] at h
      obtain ⟨rfl, rfl⟩ := Prod.mk.inj (Except.error.inj h)
      have hstop : (x :: xs).takeWhile (fun x => (p x).isOk) = [] :=
        List.takeWhile_cons_of_neg (by simp [hp, Except.isOk, Except.toBool])
      rw [hstop, List.append_nil]
      refine iff_of_true rfl (List.Pairwise.imp_of_mem ?_ (List.pairwise_of_forall fun _ _ => trivial))
      exact fun _ hg _ _ => hgap _ hg
    | ok b =>
      rw [hp] at h
      have hnext : (x :: xs).takeWhile (fun x => (p x).isOk) =
          x :: xs.takeWhile fun x => (p x).isOk :=
        List.takeWhile_cons_of_pos (by simp [hp, Except.isOk, Except.toBool])
      rw [hnext]
      cases b with
      | true =>
        have hgap' : ∀ g ∈ gap ++ [x], p g = .ok true := by
          intro g hg
          rcases List.mem_append.mp hg with hg | hg
          · exact hgap g hg
          · rw [List.mem_singleton.mp hg, hp]
        have hrest := ih hgap' h
        simpa only [List.append_assoc, List.singleton_append] using hrest
      | false =>
        cases gap with
        | nil =>
          have hrest := ih (fun g hg => absurd hg List.not_mem_nil) h
          rw [List.append_nil, List.append_assoc, List.singleton_append, List.nil_append] at hrest
          rw [List.append_nil, hrest, List.nil_append, List.pairwise_cons]
          exact (and_iff_right fun y _ hx => by rw [hp] at hx; exact nomatch hx).symm
        | cons g gap =>
          -- the kept element stands where the first removed one stood
          obtain ⟨tail, htail⟩ := (prefix_of_removeIf_error h).1
          have hg := hgap g List.mem_cons_self
          refine iff_of_false ?_ ?_
          · intro heq
            rw [← htail] at heq
            have hgx : x = g := by simpa using congrArg (fun l => l[kept.length]?) heq
            rw [hgx, hg] at hp
            exact nomatch hp
          · intro hpairs
            rw [List.cons_append, List.pairwise_cons] at hpairs
            have hx := hpairs.1 x (by simp) hg
            rw [hp] at hx
            exact nomatch hx

end InPlace

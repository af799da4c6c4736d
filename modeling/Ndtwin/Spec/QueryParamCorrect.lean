import Ndtwin.ForStd.Pieces
import Ndtwin.Kernel.QueryParam

/-!
# Both parsers of the ip parameter

The parameters of a target are the pieces between `'&'` after its first `'?'`. `queryParam`
answers with the first piece that begins with `key=`; `parseIpParam` with the first piece
that contains `ip=`, wherever in the piece that is.

Key results:
- `Utils.queryParam_eq`: the loop of `queryParam`, piece by piece
- `Utils.queryParam_firstPair`: it answers with the value of the first pair of the key
- `parseIpParam_eq`: the substring search of `parseIpParam`, piece by piece
- `parseIpParam_eq_queryParam_iff`: the targets on which the two agree
-/

namespace Ndtwin.Kernel

namespace Utils

/-- What comes after the first `'?'`. -/
def query (target : String) : List Char :=
  match target.toList.idxOf? '?' with
  | none => []
  | some qpos => target.toList.drop (qpos + 1)

/-- The parameters of a target. -/
noncomputable def params (target : String) : List (List Char) := (query target).splitOn '&'

/-- The value of the first parameter that begins with `key=`. -/
def paramValue (key : List Char) (params : List (List Char)) : List Char :=
  (params.findSome? (·.dropPrefix? (key ++ ['=']))).getD []

private theorem dropPrefix?_eq_none {pair key : List Char} (h : '=' ∉ pair) :
    pair.dropPrefix? (key ++ ['=']) = none := by
  rw [Option.eq_none_iff_forall_ne_some]
  intro value hvalue
  obtain ⟨_, rfl, hkey⟩ := List.dropPrefix?_eq_some_iff.mp hvalue
  simp [beq_iff_eq.mp hkey] at h

/-- A pair is split at its first `'='`. -/
private theorem dropPrefix?_name {name key value : List Char} (hname : '=' ∉ name)
    (hkey : '=' ∉ key) :
    (name ++ '=' :: value).dropPrefix? (key ++ ['=']) = if name = key then some value else none := by
  split
  · rename_i heq
    exact List.dropPrefix?_eq_some_iff.mpr ⟨key ++ ['='], by simp [heq], by simp⟩
  · rename_i hne
    rw [Option.eq_none_iff_forall_ne_some]
    intro v hv
    obtain ⟨_, hpair, hbeq⟩ := List.dropPrefix?_eq_some_iff.mp hv
    -- both are what stands before the first `'='`
    have hlen : name.length = key.length := by
      have hname' := List.idxOf?_append_cons_of_not_mem hname value
      rw [hpair, beq_iff_eq.mp hbeq, List.append_assoc, List.singleton_append,
        List.idxOf?_append_cons_of_not_mem hkey, Option.some.injEq] at hname'
      exact hname'.symm
    rw [beq_iff_eq.mp hbeq, List.append_assoc] at hpair
    exact hne (List.append_inj hpair hlen).1

/-- `queryParam` searches the pieces one by one. A piece without `'='` is compared together
    with what is behind it, and that text has a `'&'` in it, which no key has. -/
theorem queryLoop_eq {key : List Char} (hamp : '&' ∉ key) (heq : '=' ∉ key)
    (target : List Char) : queryLoop key target = paramValue key (target.splitOn '&') := by
  induction h : target.length using Nat.strongRecOn generalizing target with
  | ind n ih =>
    rw [queryLoop]
    split
    · rename_i hnil
      simp [hnil, paramValue, dropPrefix?_eq_none]
    by_cases hmem : '=' ∈ target
    · obtain ⟨name, value, rfl, hname⟩ := List.eq_append_cons_of_mem hmem
      simp only [List.idxOf?_append_cons_of_not_mem hname]
      rw [List.take_left, show (name ++ '=' :: value).drop (name.length + 1) = value by simp]
      by_cases hkey : name = key
      · -- the key holds no '&', so the pair it begins is the first piece
        have hhead : ∃ rest, (name ++ '=' :: value).splitOn '&' =
            (name ++ '=' :: upTo '&' value) :: rest := by
          rcases List.splitOn_cases '&' value with ⟨hval, _⟩ | ⟨first, rest, rfl, hfirst, _⟩
          · refine ⟨[], ?_⟩
            rw [upTo, List.takeWhile_eq_self_of_not_mem hval]
            exact List.splitOn_eq_singleton (by simp [hkey, hamp, hval])
          · refine ⟨rest.splitOn '&', ?_⟩
            rw [upTo, List.takeWhile_append_cons_of_not_mem hfirst, ← List.cons_append,
              ← List.append_assoc]
            exact List.splitOn_append_cons_self_of_not_mem (by simp [hkey, hamp, hfirst]) rest
        obtain ⟨rest, hrest⟩ := hhead
        rw [if_pos hkey, hrest, paramValue, List.findSome?_cons, dropPrefix?_name hname heq,
          if_pos hkey]
        rfl
      · -- another key: the loop goes on behind the next `&`, if there is one
        rw [if_neg hkey]
        rcases List.splitOn_cases '&' (name ++ '=' :: value) with
          ⟨hno, hsplit⟩ | ⟨first, rest, hcut, hfirst, hsplit⟩
        · simp [List.idxOf?_eq_none_iff.mpr hno, hsplit, paramValue, dropPrefix?_name hname heq,
            hkey]
        · have hlen : rest.length < n := by
            rw [← h, hcut, List.length_append, List.length_cons]
            omega
          -- the first piece does not begin with the key
          have hskip : first.dropPrefix? (key ++ ['=']) = none := by
            have hsep : '&' ∉ key ++ ['='] := by simp [hamp]
            have hdrop := List.dropPrefix?_append_cons hsep first rest
            rw [← hcut, dropPrefix?_name hname heq, if_neg hkey] at hdrop
            exact Option.map_eq_none_iff.mp hdrop.symm
          rw [hcut, List.idxOf?_append_cons_of_not_mem hfirst, ← hcut]
          simp only
          rw [hsplit, paramValue, List.findSome?_cons, hskip, hcut, List.drop_length_add_append]
          exact ih _ hlen rest rfl
    · -- without a `'='` the loop stops, and no piece begins with the key
      have hnone : ∀ piece ∈ target.splitOn '&', piece.dropPrefix? (key ++ ['=']) = none := by
        intro piece hpiece
        exact dropPrefix?_eq_none fun hin => hmem (List.mem_of_mem_splitOn hpiece hin)
      rw [List.idxOf?_eq_none_iff.mpr hmem, paramValue, List.findSome?_eq_none_iff.mpr hnone]
      rfl

/-- `queryParam` answers with the first parameter that begins with `key=`. -/
theorem queryParam_eq (target key : String) (hamp : '&' ∉ key.toList) (heq : '=' ∉ key.toList) :
    queryParam target key = String.ofList (paramValue key.toList (params target)) := by
  cases h : target.toList.idxOf? '?' with
  | none =>
    have hnil : paramValue key.toList [[]] = [] := by
      have hempty : ([] : List Char).dropPrefix? (key.toList ++ ['=']) = none :=
        dropPrefix?_eq_none (by simp)
      simp [paramValue, hempty]
    simp [queryParam, params, query, h, hnil]
  | some qpos => simp [queryParam, params, query, h, queryLoop_eq hamp heq]

/-- The piece is the pair of a key: it has a `'='`, and the key is the text before the first. -/
def IsPairOf (key piece : List Char) : Prop := '=' ∈ piece ∧ upTo '=' piece = key

instance (key : List Char) : DecidablePred (IsPairOf key) := fun piece =>
  inferInstanceAs (Decidable ('=' ∈ piece ∧ upTo '=' piece = key))

/-- What a piece has behind its first `'='`. -/
def valueOf (piece : List Char) : List Char := piece.drop ((upTo '=' piece).length + 1)

/-- The pieces of a target that have a `'='`. -/
noncomputable def pairs (target : String) : List (List Char) :=
  (params target).filter ('=' ∈ ·)

/-- Only the pair of a key begins with `key=`. -/
theorem dropPrefix?_eq_ite {key : List Char} (heq : '=' ∉ key) (piece : List Char) :
    piece.dropPrefix? (key ++ ['=']) = if IsPairOf key piece then some (valueOf piece) else none := by
  by_cases hmem : '=' ∈ piece
  · obtain ⟨name, value, rfl, hname⟩ := List.eq_append_cons_of_mem hmem
    have hupTo : upTo '=' (name ++ '=' :: value) = name :=
      List.takeWhile_append_cons_of_not_mem hname value
    have hvalue : valueOf (name ++ '=' :: value) = value := by
      rw [valueOf, hupTo, List.drop_length_add_append]
      rfl
    simp only [dropPrefix?_name hname heq, IsPairOf, hmem, hupTo, hvalue, true_and]
  · rw [dropPrefix?_eq_none hmem, if_neg fun h => hmem h.1]

/-- The first piece that begins with `key=` is the first pair of the key. -/
theorem paramValue_eq_find? {key : List Char} (heq : '=' ∉ key) (pieces : List (List Char)) :
    paramValue key pieces = ((pieces.find? fun piece => IsPairOf key piece).map valueOf).getD [] := by
  unfold paramValue
  congr 1
  induction pieces with
  | nil => rfl
  | cons piece pieces ih =>
    rw [List.findSome?_cons, dropPrefix?_eq_ite heq]
    by_cases hpair : IsPairOf key piece
    · rw [if_pos hpair, List.find?_cons_of_pos (by simpa using hpair)]
      rfl
    · rw [if_neg hpair, List.find?_cons_of_neg (by simpa using hpair)]
      exact ih

/-- Pieces without a `'='` play no part in the search. -/
theorem find?_params_eq_find?_pairs (key : List Char) (target : String) :
    ((params target).find? fun piece => IsPairOf key piece) =
      (pairs target).find? fun piece => IsPairOf key piece := by
  rw [pairs, List.find?_filter]
  congr 1
  funext piece
  have hiff : IsPairOf key piece ↔ '=' ∈ piece ∧ IsPairOf key piece :=
    (and_iff_right_of_imp And.left).symm
  simpa using hiff

/-- `queryParam` answers with the value of the first pair of the key, and two targets with the
    same pairs have the same answer. -/
theorem queryParam_firstPair (target key : String) (hamp : '&' ∉ key.toList)
    (heq : '=' ∉ key.toList) :
    queryParam target key = String.ofList
        ((((params target).find? fun piece => IsPairOf key.toList piece).map valueOf).getD []) ∧
      ∀ target', pairs target' = pairs target →
        queryParam target' key = queryParam target key := by
  have hfirst : ∀ target, queryParam target key = String.ofList
      ((((params target).find? fun piece => IsPairOf key.toList piece).map valueOf).getD []) := by
    intro target
    rw [queryParam_eq target key hamp heq, paramValue_eq_find? heq]
  refine ⟨hfirst target, fun target' hpairs => ?_⟩
  rw [hfirst target', hfirst target, find?_params_eq_find?_pairs, find?_params_eq_find?_pairs,
    hpairs]

/-- A piece without a `'='` in front of the pair. -/
theorem broken_piece_skipped :
    '&' ∉ "dpid".toList ∧ '=' ∉ "dpid".toList ∧
      queryParam "/ndt/get_nickname?broken&dpid=3&mac=aa:bb" "dpid" = "3" := by
  refine ⟨by decide, by decide, ?_⟩
  rw [(queryParam_firstPair _ _ (by decide) (by decide)).1]
  decide

end Utils

namespace DeviceConfigurationAndPowerManager

open Utils

/-- `parseIpParam` answers with what follows the `ip=` in the first parameter that has one. -/
theorem parseIpParam_eq (target : String) :
    parseIpParam target = String.ofList
      (((params target).findSome? fun pair => (pair.dropInfix? "ip=".toList).map (·.2)).getD
        []) := by
  rw [params, List.findSome?_splitOn_dropInfix? (by decide) (by decide)]
  cases h : target.toList.idxOf? '?' with
  | none => simp [parseIpParam, query, h, List.dropInfix?, List.dropInfix?.go]
  | some qpos =>
    simp only [parseIpParam, query, h]
    cases (target.toList.drop (qpos + 1)).dropInfix? "ip=".toList <;> simp [upTo]

/-- The first parameter that contains `ip=` begins with it, or else what follows its `ip=` is
    also the value of the first parameter that begins with `ip=` (`""` when none does). -/
def LeadingIp (params : List (List Char)) : Prop :=
  ∀ before value, params.findSome? (·.dropInfix? "ip=".toList) = some (before, value) →
    before = [] ∨ value = paramValue "ip".toList params

/-- A parameter without `ip=` does not begin with it. -/
private theorem findSome?_dropPrefix?_eq_none {pairs : List (List Char)}
    (h : ∀ pair ∈ pairs, pair.dropInfix? "ip=".toList = none) :
    pairs.findSome? (·.dropPrefix? ("ip".toList ++ ['='])) = none := by
  refine List.findSome?_eq_none_iff.mpr fun pair hpair => ?_
  cases hvalue : pair.dropPrefix? ("ip".toList ++ ['=']) with
  | none => rfl
  | some value =>
    exact nomatch (h pair hpair).symm.trans (List.dropInfix?_eq_some_nil_iff.mpr hvalue)

/-- When the first parameter that contains `ip=` begins with it, it is also the first one
    that begins with it. -/
private theorem paramValue_of_leading {pairs : List (List Char)} {value : List Char}
    (h : pairs.findSome? (·.dropInfix? "ip=".toList) = some ([], value)) :
    paramValue "ip".toList pairs = value := by
  obtain ⟨skipped, pair, rest, rfl, hpair, hskipped⟩ := List.findSome?_eq_some_iff.mp h
  have hfirst : pair.dropPrefix? ("ip".toList ++ ['=']) = some value :=
    List.dropInfix?_eq_some_nil_iff.mp hpair
  rw [paramValue, List.findSome?_append, findSome?_dropPrefix?_eq_none hskipped, Option.none_or,
    List.findSome?_cons, hfirst]
  rfl

/-- The search for `ip=` and the search for the parameter `ip` agree. -/
theorem infix_eq_prefix_iff (pairs : List (List Char)) :
    (pairs.findSome? fun pair => (pair.dropInfix? "ip=".toList).map (·.2)).getD [] =
        paramValue "ip".toList pairs ↔ LeadingIp pairs := by
  rw [show (fun pair : List Char => (pair.dropInfix? "ip=".toList).map (·.2)) =
    Option.map (·.2) ∘ (·.dropInfix? "ip=".toList) from rfl, ← List.map_findSome?, LeadingIp]
  cases h : pairs.findSome? (·.dropInfix? "ip=".toList) with
  -- no `ip=` anywhere: both answer with nothing
  | none =>
    rw [paramValue, findSome?_dropPrefix?_eq_none (List.findSome?_eq_none_iff.mp h)]
    simp
  | some found =>
    obtain ⟨before, value⟩ := found
    constructor
    · intro hvalue _ _ heq
      cases heq
      exact .inr hvalue
    · intro hleading
      rcases hleading before value rfl with rfl | hvalue
      · exact (paramValue_of_leading h).symm
      · exact hvalue

/-- The two parsers read the same ip off a target in which the first parameter with an `ip=`
    in it begins with the `ip=`, or has the right value behind it by chance. -/
theorem parseIpParam_eq_queryParam_iff (target : String) :
    parseIpParam target = queryParam target "ip" ↔ LeadingIp (params target) := by
  rw [parseIpParam_eq, queryParam_eq target "ip" (by decide) (by decide), String.ofList_inj,
    infix_eq_prefix_iff]

/-- The two parsers read the same ip off a target in which no parameter has an `ip=` further
    inside before one begins with it. -/
theorem parseIpParam_eq_queryParam_of_leading (target : String)
    (h : ∀ before value, (params target).findSome? (·.dropInfix? "ip=".toList) =
      some (before, value) → before = []) : parseIpParam target = queryParam target "ip" := by
  rw [parseIpParam_eq, queryParam_eq target "ip" (by decide) (by decide), String.ofList_inj,
    infix_eq_prefix_iff]
  intro before value hfound
  exact .inl (h before value hfound)

/-- A parameter whose name ends in `ip` is read as the ip. -/
theorem skip_read_as_ip :
    let target := "/ndt/get_switches_power_state?skip=1&ip=10.0.0.1"
    parseIpParam target = "1" ∧ Utils.queryParam target "ip" = "10.0.0.1" ∧
      parseIpParam target ≠ Utils.queryParam target "ip" := by
  intro target
  have hquery : queryParam target "ip" = "10.0.0.1" := by
    rw [queryParam_eq _ _ (by decide) (by decide)]
    decide
  rw [hquery]
  decide

end DeviceConfigurationAndPowerManager

end Ndtwin.Kernel

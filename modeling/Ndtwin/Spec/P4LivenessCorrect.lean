import Ndtwin.ForStd.Run
import Ndtwin.Spec.LinkStateCorrect
import Ndtwin.Spec.ReplyEntriesCorrect
import Ndtwin.Twin.P4Liveness

/-!
# A P4 switch is marked on evidence only

The kernel marks a bmv2 switch down only by a reply that was made when the last probe of the
switch had failed a short time ago and no beacon of it was heard for twelve seconds, and up only
by one made when its last probe had not failed. An unreachable proxy changes nothing.

## Key results

- `p4LivenessFor_reply`: the verdict on a reply is the verdict on what the proxy had seen
- `fetchP4SwitchState_eq_some_iff`: which replies are read
- `verdictAt_eq_down_iff`: when a switch is taken for dead
- `P4Inv.step`: what every step of the two processes keeps
- `p4_liveness_justified`: every run
-/

namespace Ndtwin.Spec

open Kernel Kernel.DeviceConfigurationAndPowerManager Proxy Twin GuardedRun

/-! ## The verdict on what was seen -/

/-- The result of the last probe of a switch, and its time. -/
def lastProbeOf (m : Moment) (d : Int) : Option (Bool × Int) :=
  ((m.probes.filter (·.1 = d)).getLast?).map Prod.snd

/-- The time of the last beacon of a switch. -/
def lastBeaconOf (m : Moment) (d : Int) : Option Int :=
  ((m.beacons.filter (·.1 = d)).getLast?).map Prod.snd

/-- The policy, on what the proxy had seen. -/
def verdictAt (m : Moment) (d : Int) : OvsLiveness :=
  match lastProbeOf m d with
  | none => .unknown
  | some (true, _) => .up
  | some (false, «at») =>
    if 15000 < SwitchLiveness.roundMillis (m.now - «at») then .unknown
    else
      match lastBeaconOf m d with
      | none => .down
      | some t =>
        if 12000 < SwitchLiveness.roundMillis (m.now - t) then .down else .unknown

/-- The tables of the proxy hold the last probe and the last beacon of every switch. -/
structure LastKnown (proxy : SwitchLiveness) (m : Moment) : Prop where
  probe : ∀ d, (proxy.lastProbe.lookup d).map (fun p => (p.ok, p.at)) = lastProbeOf m d
  beacon : ∀ d, proxy.lastLldpFrom.lookup d = lastBeaconOf m d

/-! ### The reply -/

theorem repr_injective {m n : Nat} (h : Nat.repr m = Nat.repr n) : m = n := by
  have hdigits : Nat.toDigits 10 m = Nat.toDigits 10 n := by
    have hlist := congrArg String.toList h
    simpa [Nat.repr] using hlist
  have hread := Decimal.readDigits_toDigits m
  rw [hdigits, Decimal.readDigits_toDigits n] at hread
  exact (Prod.mk.inj hread).1.symm

/-- The text of an integer is that of a natural number only if it is that number. -/
theorem eq_of_toString_eq {z : Int} {n : Nat} (h : toString z = toString n) : z = n := by
  cases z with
  | ofNat k => exact congrArg Int.ofNat (repr_injective h)
  | negSucc k =>
    -- a minus sign is no digit
    have hlist : (toString (Int.negSucc k)).toList = '-' :: Nat.toDigits 10 (k + 1) := by
      show ("-" ++ Nat.repr (k + 1)).toList = _
      simp [Nat.repr]
    have hdigits : (toString n).toList = Nat.toDigits 10 n := by
      show (Nat.repr n).toList = _
      simp [Nat.repr]
    have hmem : '-' ∈ Nat.toDigits 10 n := by
      rw [← hdigits, ← h, hlist]
      exact List.mem_cons_self
    obtain ⟨d, hd, hc⟩ := Decimal.exists_of_mem_toDigits hmem
    interval_cases d <;> exact absurd hc (by decide)

theorem field?_switches (f : Int → Json) (ds : List Int) (n : Nat) :
    Json.field? (.obj (ds.map fun d => (toString d, f d))) (toString n) =
      if (n : Int) ∈ ds then some (f n) else none := by
  unfold Json.field?
  simp only [List.find?_map, Option.map_map]
  have hkey : ((fun field : String × Json => decide (field.1 = toString n)) ∘
      fun d => (toString d, f d)) = fun d : Int => decide (d = n) := by
    funext d
    simp only [Function.comp, decide_eq_decide]
    exact ⟨fun h => eq_of_toString_eq h, fun h => h ▸ rfl⟩
  rw [hkey]
  split
  · next hmem =>
    have hsome : (ds.find? fun d => decide (d = (n : Int))).isSome = true :=
      List.find?_isSome.mpr ⟨n, hmem, by simp⟩
    obtain ⟨d, hd⟩ := Option.isSome_iff_exists.mp hsome
    have heq : d = n := by simpa using List.find?_some hd
    rw [hd, heq]
    rfl
  · next hmem =>
    have hnone : ds.find? (fun d => decide (d = (n : Int))) = none := by
      rw [List.find?_eq_none]
      intro d hd heq
      exact hmem (of_decide_eq_true heq ▸ hd)
    rw [hnone]
    rfl

theorem readField_probeAge (s : SwitchLiveness) (now d : Int) :
    readField (s.switchState now d) "probe_age_s" =
      match s.lastProbe.lookup d with
      | none => .absent
      | some p => .value (decimalExceeds (SwitchLiveness.roundMillis (now - p.at)) (-3)) := by
  cases h : s.lastProbe.lookup d with
  | none => simp [readField, SwitchLiveness.switchState, Json.field?, h, SwitchLiveness.age]
  | some p => simp [readField, SwitchLiveness.switchState, Json.field?, h, SwitchLiveness.age]

theorem readField_lldpAge (s : SwitchLiveness) (now d : Int) :
    readField (s.switchState now d) "last_lldp_age_s" =
      match s.lastLldpFrom.lookup d with
      | none => .absent
      | some t => .value (decimalExceeds (SwitchLiveness.roundMillis (now - t)) (-3)) := by
  cases h : s.lastLldpFrom.lookup d with
  | none => simp [readField, SwitchLiveness.switchState, Json.field?, h, SwitchLiveness.age]
  | some t => simp [readField, SwitchLiveness.switchState, Json.field?, h, SwitchLiveness.age]

theorem decimalExceeds_millis (ms : Int) (bound : Nat) :
    decimalExceeds ms (-3) bound = decide ((bound : Int) * 1000 < ms) := by
  simp [decimalExceeds]

/-- The verdict on a failed probe, as the fields of the reply tell it. -/
theorem failedProbeVerdict_switchState {proxy : SwitchLiveness} {m : Moment}
    (h : LastKnown proxy m) {d : Int} {probe : Probe} (hprobe : proxy.lastProbe.lookup d = some probe)
    (hok : probe.ok = false) :
    failedProbeVerdict (proxy.switchState m.now d) = verdictAt m d := by
  have hlast : lastProbeOf m d = some (false, probe.at) := by
    rw [← h.probe d, hprobe, ← hok]
    rfl
  unfold failedProbeVerdict verdictAt
  rw [readField_probeAge, readField_lldpAge, hprobe, hlast, h.beacon d]
  simp only [decimalExceeds_millis, kProbeStaleSeconds, kLldpFreshSeconds]
  cases lastBeaconOf m d with
  | none => simp
  | some t => simp [decimalExceeds_millis]

/-- The verdict on a reply is the verdict on what the proxy had seen when it made it. -/
theorem p4LivenessFor_reply {proxy : SwitchLiveness} {m : Moment} (h : LastKnown proxy m)
    (links : Json) (dpid : UInt64) :
    p4LivenessFor dpid (some (proxy.switchLiveness m.now links)) = verdictAt m dpid.toNat := by
  have hswitches : (proxy.switchLiveness m.now links).field? "switches" =
      some (.obj (proxy.reportedDpids.map fun d => (toString d, proxy.switchState m.now d))) := by
    simp [SwitchLiveness.switchLiveness, Json.field?]
  unfold p4LivenessFor
  rw [Option.bind_some, hswitches]
  simp only
  rw [field?_switches]
  have hlast := h.probe dpid.toNat
  cases hprobe : proxy.lastProbe.lookup (dpid.toNat : Int) with
  | none =>
    -- a switch that was never probed is not reported, or reported with a null
    have hunknown : verdictAt m dpid.toNat = .unknown := by
      rw [hprobe] at hlast
      rw [verdictAt, ← hlast]
      rfl
    rw [hunknown]
    by_cases hmem : (dpid.toNat : Int) ∈ proxy.reportedDpids
    · rw [if_pos hmem]
      simp [SwitchLiveness.switchState, Json.field?, hprobe]
    · rw [if_neg hmem]
  | some probe =>
    have hmem : (dpid.toNat : Int) ∈ proxy.reportedDpids := by
      simp only [SwitchLiveness.reportedDpids, List.mem_insertionSort, List.mem_dedup,
        List.mem_append]
      exact .inl (.inr (AssocMap.mem_of_lookup hprobe))
    rw [if_pos hmem]
    have hfield : (proxy.switchState m.now dpid.toNat).field? "probe_ok" =
        some (.bool probe.ok) := by
      simp [SwitchLiveness.switchState, Json.field?, hprobe]
    -- the entry is an object, whose fields are then read
    have hentry : ∃ fields, proxy.switchState m.now dpid.toNat = .obj fields := ⟨_, rfl⟩
    obtain ⟨fields, hobj⟩ := hentry
    rw [hobj] at hfield ⊢
    simp only [hfield]
    cases hok : probe.ok with
    | true =>
      rw [hprobe] at hlast
      rw [verdictAt, ← hlast]
      simp [hok]
    | false =>
      rw [← hobj]
      exact failedProbeVerdict_switchState h hprobe hok

/-! ### How the reply is read -/

/-- What curl prints is read as a body and, behind its last line break, the status. -/
theorem fetchP4SwitchState_append (parse : List Char → Option Json) (body : List Char)
    {status : List Char} (h : '\n' ∉ status) :
    fetchP4SwitchState parse (some (body ++ '\n' :: status)) =
      if status = "200".toList then parse body else none := by
  have hstatus : ((body ++ '\n' :: status).reverse.takeWhile (· ≠ '\n')).reverse = status := by
    have hline : ∀ c ∈ status.reverse, decide (c ≠ '\n') = true := by
      intro c hc
      exact decide_eq_true fun heq => h (heq ▸ List.mem_reverse.mp hc)
    rw [List.reverse_append, List.reverse_cons, List.append_assoc,
      List.takeWhile_append_of_pos hline]
    simp
  have hbody : (body ++ '\n' :: status).take
      ((body ++ '\n' :: status).length - status.length - 1) = body := by
    apply List.take_left'
    simp only [List.length_append, List.length_cons]
    omega
  simp only [fetchP4SwitchState, hstatus, hbody]
  by_cases hok : status = "200".toList
  · simp [hok]
  · rw [if_neg hok, if_pos hok, ite_self]

/-- A reply is read when it comes with the status 200 and can be parsed. -/
theorem fetchP4SwitchState_eq_some_iff (parse : List Char → Option Json)
    (response : Option (List Char)) (j : Json) :
    fetchP4SwitchState parse response = some j ↔
      ∃ body, response = some (body ++ '\n' :: "200".toList) ∧ parse body = some j := by
  constructor
  · intro h
    cases response with
    | none => cases h
    | some text =>
      by_cases hline : '\n' ∈ text
      · obtain ⟨status, rest, hrev, hstatus⟩ :=
          List.eq_append_cons_of_mem (List.mem_reverse.mpr hline)
        have htext : text = rest.reverse ++ '\n' :: status.reverse := by
          rw [← List.reverse_reverse text, hrev]
          simp
        rw [htext, fetchP4SwitchState_append parse _ (by simpa using hstatus)] at h
        split at h
        · next hok => exact ⟨rest.reverse, by rw [htext, hok], h⟩
        · cases h
      · simp [fetchP4SwitchState, hline] at h
  · rintro ⟨body, rfl, h⟩
    rw [fetchP4SwitchState_append parse body (by decide), if_pos rfl, h]

/-- A fetch of the twin is what the kernel reads, when the proxy answers a 200 with its own
    reply. -/
theorem p4SwitchState_fetch (switch : Nat → MininetSwitch) (s : P4Twin)
    {parse : List Char → Option Json} {response : Option (List Char)} {links : Json}
    (hreply : ∀ body, response = some (body ++ '\n' :: "200".toList) → ∀ j, parse body = some j →
      j = s.proxy.switchLiveness s.now links) :
    (P4Twin.step switch s
      (.fetch (fetchP4SwitchState parse response).isSome links)).p4SwitchState =
        fetchP4SwitchState parse response := by
  cases hread : fetchP4SwitchState parse response with
  | none => rfl
  | some j =>
    obtain ⟨body, hbody, hj⟩ := (fetchP4SwitchState_eq_some_iff parse response j).mp hread
    rw [hreply body hbody j hj]
    rfl

/-! ## When a verdict is given -/

theorem roundMillis_mono {a b : Int} (h : a ≤ b) :
    SwitchLiveness.roundMillis a ≤ SwitchLiveness.roundMillis b := by
  unfold SwitchLiveness.roundMillis
  dsimp only
  split_ifs <;> omega

/-- The last probe failed, not more than 15 seconds ago, and every beacon that was ever heard is
    more than 12 seconds old. -/
def Dead (m : Moment) (d : Int) : Prop :=
  (∃ t, lastProbeOf m d = some (false, t) ∧ SwitchLiveness.roundMillis (m.now - t) ≤ 15000) ∧
    ∀ b ∈ m.beacons, b.1 = d → 12000 < SwitchLiveness.roundMillis (m.now - b.2)

/-- The last probe did not fail, if there was one. -/
def NotFailed (m : Moment) (d : Int) : Prop := (lastProbeOf m d).map Prod.fst ≠ some false

/-- Of a list in the order of time, no element of a kind is younger than the last one. -/
theorem le_getLast?_filter {l : List (Int × Int)} (hsorted : l.Pairwise fun a b => a.2 ≤ b.2)
    {d : Int} {last : Int × Int} (hlast : (l.filter (·.1 = d)).getLast? = some last)
    {b : Int × Int} (hb : b ∈ l) (hbd : b.1 = d) : b.2 ≤ last.2 := by
  have hfilter : (l.filter (·.1 = d)).Pairwise fun a b => a.2 ≤ b.2 := hsorted.filter _
  have hmem : b ∈ l.filter (·.1 = d) := List.mem_filter.mpr ⟨hb, decide_eq_true hbd⟩
  obtain ⟨init, hinit⟩ := List.getLast?_eq_some_iff.mp hlast
  rw [hinit] at hfilter hmem
  rcases List.mem_append.mp hmem with hmem | hmem
  · exact (List.pairwise_append.mp hfilter).2.2 b hmem last (List.mem_singleton.mpr rfl)
  · rw [List.mem_singleton.mp hmem]

theorem verdictAt_eq_down_iff {m : Moment} (hsorted : m.beacons.Pairwise fun a b => a.2 ≤ b.2)
    (d : Int) : verdictAt m d = .down ↔ Dead m d := by
  -- the youngest beacon decides for all of them
  have hbeacons : (∀ b ∈ m.beacons, b.1 = d → 12000 < SwitchLiveness.roundMillis (m.now - b.2)) ↔
      ∀ t, lastBeaconOf m d = some t → 12000 < SwitchLiveness.roundMillis (m.now - t) := by
    constructor
    · intro h t ht
      obtain ⟨last, hlast, rfl⟩ := Option.map_eq_some_iff.mp ht
      have hmem := List.mem_filter.mp (List.mem_of_getLast? hlast)
      exact h last hmem.1 (of_decide_eq_true hmem.2)
    · intro h b hb hbd
      have hmem : b ∈ m.beacons.filter (·.1 = d) := List.mem_filter.mpr ⟨hb, decide_eq_true hbd⟩
      obtain ⟨last, hlast⟩ := Option.isSome_iff_exists.mp
        (List.getLast?_isSome.mpr (List.ne_nil_of_mem hmem))
      have hle := le_getLast?_filter hsorted hlast hb hbd
      have hold := h last.2 (by rw [lastBeaconOf, hlast]; rfl)
      have hround := roundMillis_mono (show m.now - last.2 ≤ m.now - b.2 by omega)
      omega
  unfold Dead verdictAt
  rw [hbeacons]
  cases hprobe : lastProbeOf m d with
  | none => simp
  | some p =>
    obtain ⟨ok, t⟩ := p
    cases ok with
    | true => simp
    | false =>
      by_cases hstale : 15000 < SwitchLiveness.roundMillis (m.now - t)
      · simp [hstale]
      · cases hbeacon : lastBeaconOf m d with
        | none => simp [hstale, not_lt.mp hstale]
        | some b => simp [hstale, not_lt.mp hstale]

theorem verdictAt_eq_up_iff (m : Moment) (d : Int) :
    verdictAt m d = .up ↔ (lastProbeOf m d).map Prod.fst = some true := by
  unfold verdictAt
  cases lastProbeOf m d with
  | none => simp
  | some p =>
    obtain ⟨ok, t⟩ := p
    cases ok with
    | true => simp
    | false =>
      simp only [Option.map_some, Option.some.injEq, Bool.false_eq_true, iff_false]
      split
      · exact nofun
      · cases lastBeaconOf m d with
        | none => exact nofun
        | some b =>
          simp only
          split <;> exact nofun

/-! ## What the steps record -/

theorem getLast?_filter_concat {α : Type} (p : α → Bool) (l : List α) (x : α) :
    ((l ++ [x]).filter p).getLast? = if p x then some x else (l.filter p).getLast? := by
  rw [List.filter_append]
  cases hx : p x with
  | true => simp [hx]
  | false => simp [hx]

theorem lastKnown_probe {proxy : SwitchLiveness} {m : Moment} (h : LastKnown proxy m) (d : Int)
    (ok : Bool) (detail : String) :
    LastKnown (proxy.recordProbe m.now d ok detail)
      { m with probes := m.probes ++ [(d, ok, m.now)] } where
  probe d' := by
    simp only [SwitchLiveness.recordProbe, lastProbeOf]
    rw [AssocMap.lookup_insert_eq, getLast?_filter_concat]
    by_cases hd : d' = d
    · subst hd
      simp
    · rw [if_neg hd, if_neg (by simpa using Ne.symm hd)]
      exact h.probe d'
  beacon := h.beacon

theorem lastKnown_packetIn {proxy : SwitchLiveness} {m : Moment} (h : LastKnown proxy m)
    (deviceId : Int) (lldpInfo : Option (Int × Int)) :
    LastKnown (proxy.recordPacketIn m.now deviceId lldpInfo)
      { m with beacons := m.beacons ++ (lldpInfo.map fun b => (b.1, m.now)).toList } where
  probe := h.probe
  beacon d := by
    cases lldpInfo with
    | none =>
      show proxy.lastLldpFrom.lookup d = lastBeaconOf { m with beacons := m.beacons ++ [] } d
      rw [List.append_nil]
      exact h.beacon d
    | some b =>
      show (proxy.lastLldpFrom.insert b.1 m.now).lookup d = _
      simp only [lastBeaconOf, Option.map_some, Option.toList_some]
      rw [AssocMap.lookup_insert_eq, getLast?_filter_concat]
      by_cases hd : d = b.1
      · subst hd
        simp
      · rw [if_neg hd, if_neg (by simpa using Ne.symm hd)]
        exact h.beacon d

/-- The switches of a list are those whose last probe did not fail. -/
theorem notFailed_of_mem_connected {proxy : SwitchLiveness} {m : Moment} (h : LastKnown proxy m)
    {d : Int} (hd : d ∈ proxy.connectedSwitchDpids) :
    d ∈ proxy.switches ∧ NotFailed m d := by
  obtain ⟨hkey, hprobe⟩ := List.mem_filter.mp hd
  constructor
  · exact (List.mem_insertionSort (· ≤ ·)).mp hkey
  · unfold NotFailed
    rw [← h.probe d, Option.map_map]
    simpa using of_decide_eq_true hprobe

/-! ## What a list marks -/

theorem getElem?_writeAll (marks : List Mark) (g : Graph) (v : Nat) :
    (writeAll marks g).vertices[v]? =
      (g.vertices[v]?).map fun p =>
        if .vertex v ∈ marks then TopologyMonitor.seenVertex p else p := by
  unfold writeAll
  induction marks generalizing g with
  | nil => simp
  | cons mark marks ih =>
    rw [List.foldl_cons, ih]
    cases mark with
    | edge e =>
      show (g.vertices[v]?).map _ = _
      simp
    | vertex w =>
      rw [Mark.write, Graph.getElem?_updateVertex, Option.map_map]
      congr 1
      funext p
      by_cases hvw : v = w
      · subst hvw
        simp [TopologyMonitor.seenVertex]
      · simp [hvw]

/-- A list of switches marks the first vertex of each of them, and nothing else. -/
theorem updateSwitches_renderSwitches {ds : List Int}
    (hrange : ∀ d ∈ ds, ∃ k : UInt64, d = k.toNat) (g : Graph) :
    ∃ marks, TopologyMonitor.updateSwitches (.parsed (renderSwitches ds)) g = writeAll marks g ∧
      ∀ mark, mark ∈ marks ↔
        ∃ k : UInt64, (k.toNat : Int) ∈ ds ∧ ∃ v, g.findSwitchByDpid k = some v ∧
          mark = .vertex v := by
  let entry : Int → Json := fun d => .obj [("dpid", .str (hexText 16 d)), ("ports", .arr [])]
  have hplan : ∀ k : UInt64, switchPlan (entry k.toNat) =
      { searches := [fun g => (g.findSwitchByDpid k).map .vertex] } := by
    intro k
    have hk : (k.toNat : Int) < 2 ^ 64 := by exact_mod_cast k.toNat_lt
    have hread : Utils.tryParseHexUint64 (hexText 16 (k.toNat : Int)) = some k := by
      rw [tryParseHexUint64_hexText ⟨by omega, hk⟩]
      congr 1
      apply UInt64.toNat_inj.mp
      simp only [UInt64.ofInt, UInt64.toNat_ofNat']
      omega
    simp [switchPlan, entry, Json.valueString, Json.field?, hread]
  have hmem : ∀ d, d ∈ ds.insertionSort (· ≤ ·) ↔ d ∈ ds := fun d => List.mem_insertionSort _
  have hthrows : ∀ e ∈ (ds.insertionSort (· ≤ ·)).map entry, (switchPlan e).throws = false := by
    intro e he
    obtain ⟨d, hd, rfl⟩ := List.mem_map.mp he
    obtain ⟨k, rfl⟩ := hrange d ((hmem d).mp hd)
    rw [hplan]
  have hok : ∀ e ∈ (ds.insertionSort (· ≤ ·)).map entry, ∀ s,
      EState.isOk (Endpoint.switches.entry e s) = true := by
    intro e he s
    rw [(realises_entry .switches e).throws]
    show (!(switchPlan e).throws) = true
    rw [hthrows e he]
    rfl
  refine ⟨((ds.insertionSort (· ≤ ·)).map entry).flatMap fun e =>
    (Endpoint.switches.plan e).marks g, ?_, fun mark => ?_⟩
  · show Endpoint.switches.update (.parsed (.arr _)) g = _
    rw [update_arr, EState.finalState_forM_of_ok hok, foldl_entries]
  · rw [List.mem_flatMap]
    constructor
    · rintro ⟨e, he, hmark⟩
      obtain ⟨d, hd, rfl⟩ := List.mem_map.mp he
      obtain ⟨k, rfl⟩ := hrange d ((hmem d).mp hd)
      have hmarks : (Endpoint.switches.plan (entry k.toNat)) = switchPlan (entry k.toNat) := rfl
      rw [hmarks, hplan] at hmark
      simp only [EntryPlan.marks, List.filterMap_cons, List.filterMap_nil] at hmark
      cases hfind : g.findSwitchByDpid k with
      | none => simp [hfind] at hmark
      | some v =>
        simp only [hfind, Option.map_some, List.mem_singleton] at hmark
        exact ⟨k, (hmem _).mp hd, v, hfind, hmark⟩
    · rintro ⟨k, hk, v, hfind, rfl⟩
      refine ⟨entry k.toNat, List.mem_map_of_mem ((hmem _).mpr hk), ?_⟩
      show _ ∈ (switchPlan (entry k.toNat)).marks g
      rw [hplan]
      simp [EntryPlan.marks, hfind]

/-! ## The invariant -/

/-- What a vertex is, which no step changes. -/
def identity (g : Graph) (v : Nat) : Option (VertexType × UInt64) :=
  (g.vertices[v]?).map fun p => (p.vertexType, p.dpid)

/-- The moment is one of the past: what had been seen by then has been seen by now. -/
structure IsPast (m : Moment) (s : P4Twin) : Prop where
  now : m.now ≤ s.now
  probes : m.probes <+: s.probes
  beacons : m.beacons <+: s.beacons

/-- What the records of the two processes say, at every time. -/
structure P4Inv (g : Graph) (s : P4Twin) : Prop where
  recorded : LastKnown s.proxy s.moment
  clients : ∀ d ∈ s.proxy.switches, ∃ k : UInt64, d = k.toNat
  ordered : s.beacons.Pairwise fun a b => a.2 ≤ b.2
  heard : ∀ b ∈ s.beacons, b.2 ≤ s.now
  past : ∀ m ∈ s.moments, IsPast m s
  reply : ∀ dpid, p4LivenessFor dpid s.p4SwitchState =
    (s.fetchedAt.map fun m => verdictAt m dpid.toNat).getD .unknown
  fetched : ∀ m ∈ s.fetchedAt, m ∈ s.moments
  lists : ∀ l ∈ s.lists, l.made ∈ s.moments ∧ ∀ d ∈ l.dpids,
    (∃ k : UInt64, d = k.toNat) ∧ NotFailed l.made d
  same : ∀ v, identity s.graph v = identity g v

theorem P4Inv.start (g : Graph) : P4Inv g (P4Twin.start g) where
  recorded := ⟨fun _ => rfl, fun _ => rfl⟩
  clients d hd := absurd hd (AList.notMem_empty d)
  ordered := .nil
  heard _ h := absurd h List.not_mem_nil
  past _ h := absurd h List.not_mem_nil
  reply _ := rfl
  fetched _ h := nomatch h
  lists _ h := absurd h List.not_mem_nil
  same _ := rfl

theorem IsPast.refl (s : P4Twin) : IsPast s.moment s where
  now := le_refl _
  probes := List.prefix_refl _
  beacons := List.prefix_refl _

theorem IsPast.mono {m : Moment} {s s' : P4Twin} (h : IsPast m s) (hnow : s.now ≤ s'.now)
    (hprobes : s.probes <+: s'.probes) (hbeacons : s.beacons <+: s'.beacons) : IsPast m s' where
  now := h.now.trans hnow
  probes := h.probes.trans hprobes
  beacons := h.beacons.trans hbeacons

/-- The beacons of a past moment are in the order of time. -/
theorem P4Inv.ordered_of_mem {g : Graph} {s : P4Twin} (h : P4Inv g s) {m : Moment}
    (hm : m ∈ s.moments) : m.beacons.Pairwise fun a b => a.2 ≤ b.2 :=
  h.ordered.sublist (h.past m hm).beacons.sublist

theorem identity_applyLiveness (live : Graph) (v i : Nat) (verdict : OvsLiveness) :
    identity (applyLiveness live v verdict) i = identity live i := by
  unfold identity
  cases verdict with
  | unknown => rfl
  | up =>
    simp only [applyLiveness, TopologyMonitor.setVertexUp, Graph.getElem?_updateVertex,
      Option.map_map]
    congr 1
    funext p
    simp only [Function.comp]
    split <;> rfl
  | down =>
    simp only [applyLiveness, TopologyMonitor.setVertexDown, Graph.getElem?_updateVertex,
      Option.map_map]
    congr 1
    funext p
    simp only [Function.comp]
    split <;> rfl

theorem identity_writeAll (marks : List Mark) (g : Graph) (v : Nat) :
    identity (writeAll marks g) v = identity g v := by
  unfold identity
  rw [getElem?_writeAll, Option.map_map]
  congr 1
  funext p
  simp only [Function.comp]
  split <;> rfl

/-- The moments that are kept are past as well, the present one among them. -/
theorem P4Inv.past_moment {g : Graph} {s s' : P4Twin} (h : P4Inv g s) (hnow : s.now = s'.now)
    (hprobes : s.probes = s'.probes) (hbeacons : s.beacons = s'.beacons) :
    ∀ m ∈ s.moments ++ [s.moment], IsPast m s' := by
  intro m hm
  have hpast : IsPast m s := by
    rcases List.mem_append.mp hm with hm | hm
    · exact h.past m hm
    · exact List.mem_singleton.mp hm ▸ .refl s
  exact hpast.mono hnow.le (hprobes ▸ List.prefix_refl _) (hbeacons ▸ List.prefix_refl _)

section
variable (switch : Nat → MininetSwitch)

theorem identity_judge (bridges : Option (List (List Char))) (reply : Option Json) (live : Graph)
    (vertex : VertexProperties × Nat) (i : Nat) :
    identity (judgeVertex switch bridges reply live vertex) i = identity live i := by
  unfold judgeVertex
  split
  · cases (switch vertex.2).switchKind <;> exact identity_applyLiveness live _ i _
  · rfl

/-- What every step of the two processes keeps. -/
theorem P4Inv.step {g : Graph} {s : P4Twin} (h : P4Inv g s) (e : P4Twin.Event) :
    P4Inv g (P4Twin.step switch s e) := by
  have hstay : ∀ {s' : P4Twin}, s.now ≤ s'.now → s.probes <+: s'.probes →
      s.beacons <+: s'.beacons → ∀ m ∈ s.moments, IsPast m s' :=
    fun hnow hprobes hbeacons m hm => (h.past m hm).mono hnow hprobes hbeacons
  cases e with
  | tick elapsed =>
    have hnow : s.now ≤ s.now + elapsed := by omega
    exact { h with
      recorded := ⟨h.recorded.probe, h.recorded.beacon⟩
      heard := fun b hb => (h.heard b hb).trans hnow
      past := hstay hnow (List.prefix_refl _) (List.prefix_refl _) }
  | addSwitch dpid client =>
    exact { h with
      recorded := ⟨h.recorded.probe, h.recorded.beacon⟩
      clients := fun d hd => by
        rcases AList.mem_insert _ |>.mp hd with rfl | hd
        · exact ⟨dpid, rfl⟩
        · exact h.clients d hd
      past := hstay (le_refl _) (List.prefix_refl _) (List.prefix_refl _) }
  | packetIn deviceId lldpInfo =>
    have hnew : ∀ b ∈ (lldpInfo.map fun b => (b.1, s.now)).toList, b.2 = s.now := by
      intro b hb
      obtain ⟨b', -, rfl⟩ := Option.map_eq_some_iff.mp (Option.mem_toList.mp hb)
      rfl
    exact { h with
      recorded := lastKnown_packetIn h.recorded deviceId lldpInfo
      ordered := by
        refine List.pairwise_append.mpr ⟨h.ordered, ?_, fun a ha b hb => ?_⟩
        · cases lldpInfo <;> simp
        · rw [hnew b hb]
          exact h.heard a ha
      heard := fun b hb => by
        rcases List.mem_append.mp hb with hb | hb
        · exact h.heard b hb
        · exact (hnew b hb).le
      past := hstay (le_refl _) (List.prefix_refl _) (List.prefix_append _ _) }
  | probe dpid ok detail =>
    exact { h with
      recorded := lastKnown_probe h.recorded dpid.toNat ok detail
      past := hstay (le_refl _) (List.prefix_append _ _) (List.prefix_refl _) }
  | fetch reached links =>
    cases reached with
    | false =>
      exact { h with
        recorded := ⟨h.recorded.probe, h.recorded.beacon⟩
        past := hstay (le_refl _) (List.prefix_refl _) (List.prefix_refl _)
        reply := fun _ => rfl
        fetched := fun _ hm => nomatch hm }
    | true =>
      exact { h with
        recorded := ⟨h.recorded.probe, h.recorded.beacon⟩
        past := h.past_moment rfl rfl rfl
        reply := fun dpid => p4LivenessFor_reply h.recorded links dpid
        fetched := fun m hm => by
          rw [← Option.some.inj hm]
          exact List.mem_append_right _ (List.mem_singleton.mpr rfl)
        lists := fun l hl => (h.lists l hl).imp_left (List.mem_append_left _) }
  | judge v bridges =>
    simp only [P4Twin.step]
    cases s.graph.vertices[v]? with
    | none => exact h
    | some vertex =>
      exact { h with
        recorded := ⟨h.recorded.probe, h.recorded.beacon⟩
        past := hstay (le_refl _) (List.prefix_refl _) (List.prefix_refl _)
        same := fun i => (identity_judge switch _ _ _ _ i).trans (h.same i) }
  | list =>
    exact { h with
      recorded := ⟨h.recorded.probe, h.recorded.beacon⟩
      past := h.past_moment rfl rfl rfl
      fetched := fun m hm => List.mem_append_left _ (h.fetched m hm)
      lists := fun l hl => by
        rcases List.mem_append.mp hl with hl | hl
        · exact (h.lists l hl).imp_left (List.mem_append_left _)
        · rw [List.mem_singleton.mp hl]
          refine ⟨List.mem_append_right _ (List.mem_singleton.mpr rfl), fun d hd => ?_⟩
          obtain ⟨hclient, hprobe⟩ := notFailed_of_mem_connected h.recorded hd
          exact ⟨h.clients d hclient, hprobe⟩ }
  | applyList =>
    simp only [P4Twin.step]
    cases hlists : s.lists with
    | nil => exact h
    | cons l rest =>
      have hsub : ∀ l' ∈ l :: rest, l' ∈ s.lists := fun l' hl' => hlists ▸ hl'
      obtain ⟨-, hdpids⟩ := h.lists l (hsub l List.mem_cons_self)
      obtain ⟨marks, hwrite, -⟩ :=
        updateSwitches_renderSwitches (fun d hd => (hdpids d hd).1) s.graph
      exact { h with
        recorded := ⟨h.recorded.probe, h.recorded.beacon⟩
        past := hstay (le_refl _) (List.prefix_refl _) (List.prefix_refl _)
        lists := fun l' hl' => h.lists l' (hsub l' (List.mem_cons_of_mem _ hl'))
        same := fun i => by
          show identity (TopologyMonitor.updateSwitches _ s.graph) i = _
          rw [hwrite, identity_writeAll]
          exact h.same i }

theorem P4Inv.run (g : Graph) (es : List P4Twin.Event) :
    P4Inv g (GuardedRun.run (P4Twin.step switch) (P4Twin.start g) es) :=
  run_of_step (P4Inv g) (fun _ e h => h.step switch e) (P4Inv.start g) es

/-! ## Flags -/

theorem upOf_applyLiveness (live : Graph) (v i : Nat) (verdict : OvsLiveness) :
    ((applyLiveness live v verdict).vertices[i]?).map VertexProperties.isUp =
      ((live.vertices[i]?).map VertexProperties.isUp).map fun up =>
        if i = v then
          match verdict with
          | .up => true
          | .down => false
          | .unknown => up
        else up := by
  cases verdict with
  | unknown =>
    simp only [applyLiveness, ite_self]
    exact Option.map_id'.symm
  | up =>
    simp only [applyLiveness, TopologyMonitor.setVertexUp, Graph.getElem?_updateVertex,
      Option.map_map]
    congr 1
    funext p
    simp only [Function.comp]
    split <;> rfl
  | down =>
    simp only [applyLiveness, TopologyMonitor.setVertexDown, Graph.getElem?_updateVertex,
      Option.map_map]
    congr 1
    funext p
    simp only [Function.comp]
    split <;> rfl

theorem upOf_writeAll (marks : List Mark) (g : Graph) (v : Nat) :
    ((writeAll marks g).vertices[v]?).map VertexProperties.isUp =
      ((g.vertices[v]?).map VertexProperties.isUp).map fun up =>
        if .vertex v ∈ marks then true else up := by
  rw [getElem?_writeAll, Option.map_map, Option.map_map]
  congr 1
  funext p
  simp only [Function.comp]
  split <;> rfl

/-- A judgement writes the flag of its own vertex only, and by the reply of the pass. -/
theorem upOf_judge {g : Graph} {s : P4Twin} (h : P4Inv g s) (v w : Nat)
    (bridges : Option (List (List Char))) {dpid : UInt64}
    (hv : identity g v = some (.switch, dpid)) (hkind : (switch v).switchKind = .bmv2) :
    (P4Twin.step switch s (.judge w bridges)).upOf v =
      (s.upOf v).map fun up =>
        if v = w then
          match (s.fetchedAt.map fun m => verdictAt m dpid.toNat).getD .unknown with
          | .up => true
          | .down => false
          | .unknown => up
        else up := by
  have hid := (h.same v).trans hv
  unfold identity at hid
  obtain ⟨p, hp, hpv⟩ := Option.map_eq_some_iff.mp hid
  obtain ⟨htype, hdpid⟩ := Prod.mk.inj hpv
  unfold P4Twin.upOf
  simp only [P4Twin.step]
  by_cases hvw : v = w
  · subst hvw
    rw [hp]
    simp only [judgeVertex]
    rw [if_pos htype, hkind]
    simp only
    rw [upOf_applyLiveness, h.reply, hdpid, hp]
    simp
  · simp only [if_neg hvw]
    rw [Option.map_id']
    cases hw : s.graph.vertices[w]? with
    | none => rfl
    | some q =>
      simp only [judgeVertex]
      split
      · cases (switch w).switchKind <;> simp only [upOf_applyLiveness, if_neg hvw, Option.map_id']
      · rfl

/-- The list that is applied names the switch, and its last probe had not failed when the list
    was made, if there was one by then. -/
structure ListedBy (s : P4Twin) (l : SwitchList) (d : Int) : Prop where
  oldest : s.lists.head? = some l
  named : d ∈ l.dpids
  notFailed : NotFailed l.made d

/-- A list raises the switches that it names, and lowers none. -/
theorem upOf_applyList {g : Graph} {s : P4Twin} (h : P4Inv g s) (v : Nat) {dpid : UInt64}
    (hv : identity g v = some (.switch, dpid)) :
    (P4Twin.step switch s .applyList).upOf v = s.upOf v ∨
      (P4Twin.step switch s .applyList).upOf v = (s.upOf v).map (fun _ => true) ∧
        ∃ l, ListedBy s l dpid.toNat := by
  simp only [P4Twin.step]
  cases hlists : s.lists with
  | nil => exact .inl rfl
  | cons l rest =>
    obtain ⟨-, hdpids⟩ := h.lists l (hlists ▸ List.mem_cons_self)
    obtain ⟨marks, hwrite, hmarks⟩ :=
      updateSwitches_renderSwitches (fun d hd => (hdpids d hd).1) s.graph
    unfold P4Twin.upOf
    dsimp only
    rw [hwrite, upOf_writeAll]
    by_cases hmark : Mark.vertex v ∈ marks
    · refine .inr ⟨by simp [hmark], l, ?_⟩
      obtain ⟨k, hk, w, hfind, hvw⟩ := (hmarks _).mp hmark
      obtain rfl : v = w := Mark.vertex.inj hvw
      -- the vertex that a datapath id finds has it
      have hid := (h.same v).trans hv
      have hfound : (s.graph.vertices[v]?).map VertexProperties.dpid = some k := by
        obtain ⟨hlt, htest, -⟩ := List.findIdx?_eq_some_iff_getElem.mp hfind
        rw [List.getElem?_eq_getElem hlt]
        exact congrArg some (of_decide_eq_true htest).2
      have hdpid : (s.graph.vertices[v]?).map VertexProperties.dpid = some dpid := by
        unfold identity at hid
        obtain ⟨p, hp, hpv⟩ := Option.map_eq_some_iff.mp hid
        rw [hp]
        exact congrArg some (Prod.mk.inj hpv).2
      rw [hdpid] at hfound
      rw [Option.some.inj hfound]
      exact ⟨by rw [hlists, List.head?_cons], hk, (hdpids _ hk).2⟩
    · exact .inl (by simp only [if_neg hmark, Option.map_id'])

/-- A list that names a switch raises the vertex that is found for it. -/
theorem upOf_applyList_of_named {g : Graph} {s : P4Twin} (h : P4Inv g s) {l : SwitchList}
    (hl : s.lists.head? = some l) {dpid : UInt64} (hd : (dpid.toNat : Int) ∈ l.dpids) {v : Nat}
    (hfind : s.graph.findSwitchByDpid dpid = some v) :
    (P4Twin.step switch s .applyList).upOf v = some true := by
  obtain ⟨rest, hlists⟩ := List.head?_eq_some_iff.mp hl
  obtain ⟨-, hdpids⟩ := h.lists l (hlists ▸ List.mem_cons_self)
  obtain ⟨marks, hwrite, hmarks⟩ :=
    updateSwitches_renderSwitches (fun d hd => (hdpids d hd).1) s.graph
  have hmark : Mark.vertex v ∈ marks := (hmarks _).mpr ⟨dpid, hd, v, hfind, rfl⟩
  obtain ⟨hlt, -⟩ := List.findIdx?_eq_some_iff_getElem.mp hfind
  unfold P4Twin.upOf
  simp only [P4Twin.step, hlists]
  rw [hwrite, upOf_writeAll, List.getElem?_eq_getElem hlt]
  simp [hmark]

/-- Judgements and lists write flags; the other steps do not. -/
theorem writer_cases (s : P4Twin) (e : P4Twin.Event) :
    (∃ w bridges, e = .judge w bridges) ∨ e = .applyList ∨
      ∀ v, (P4Twin.step switch s e).upOf v = s.upOf v := by
  cases e with
  | judge w bridges => exact .inl ⟨w, bridges, rfl⟩
  | applyList => exact .inr (.inl rfl)
  | fetch reached links => cases reached <;> exact .inr (.inr fun _ => rfl)
  | _ => exact .inr (.inr fun _ => rfl)

/-- A step that lowers the flag of a bmv2 switch judges it by a reply that found it dead. -/
theorem lowered_step {g : Graph} {s : P4Twin} (h : P4Inv g s) (e : P4Twin.Event) {v : Nat}
    {dpid : UInt64} (hv : identity g v = some (.switch, dpid))
    (hkind : (switch v).switchKind = .bmv2) (hwas : s.upOf v = some true)
    (his : (P4Twin.step switch s e).upOf v = some false) :
    ∃ bridges m, e = .judge v bridges ∧ s.fetchedAt = some m ∧ Dead m dpid.toNat := by
  rcases writer_cases switch s e with ⟨w, bridges, rfl⟩ | rfl | hsame
  · rw [upOf_judge switch h v w bridges hv hkind, hwas] at his
    by_cases hvw : v = w
    · subst hvw
      cases hfetched : s.fetchedAt with
      | none => simp [hfetched] at his
      | some m =>
        have hordered := h.ordered_of_mem (h.fetched m hfetched)
        refine ⟨bridges, m, rfl, rfl, (verdictAt_eq_down_iff hordered _).mp ?_⟩
        cases hverdict : verdictAt m dpid.toNat with
        | down => rfl
        | up => simp [hfetched, hverdict] at his
        | unknown => simp [hfetched, hverdict] at his
    · simp [hvw] at his
  · rcases upOf_applyList switch h v hv with hsame | ⟨hup, -⟩
    · rw [hsame, hwas] at his
      exact absurd his (by decide)
    · rw [hup, hwas] at his
      exact absurd his (by decide)
  · rw [hsame, hwas] at his
    exact absurd his (by decide)

/-- A step that raises it judges it by a reply that found the last probe answered, or applies a
    list that names it, made when the last probe had not failed. -/
theorem raised_step {g : Graph} {s : P4Twin} (h : P4Inv g s) (e : P4Twin.Event) {v : Nat}
    {dpid : UInt64} (hv : identity g v = some (.switch, dpid))
    (hkind : (switch v).switchKind = .bmv2) (hwas : s.upOf v = some false)
    (his : (P4Twin.step switch s e).upOf v = some true) :
    (∃ bridges m, e = .judge v bridges ∧ s.fetchedAt = some m ∧
        (lastProbeOf m dpid.toNat).map Prod.fst = some true) ∨
      e = .applyList ∧ ∃ l, ListedBy s l dpid.toNat := by
  rcases writer_cases switch s e with ⟨w, bridges, rfl⟩ | rfl | hsame
  · rw [upOf_judge switch h v w bridges hv hkind, hwas] at his
    by_cases hvw : v = w
    · subst hvw
      cases hfetched : s.fetchedAt with
      | none => simp [hfetched] at his
      | some m =>
        refine .inl ⟨bridges, m, rfl, rfl, (verdictAt_eq_up_iff m _).mp ?_⟩
        cases hverdict : verdictAt m dpid.toNat with
        | up => rfl
        | down => simp [hfetched, hverdict] at his
        | unknown => simp [hfetched, hverdict] at his
    · simp [hvw] at his
  · rcases upOf_applyList switch h v hv with hsame | ⟨-, hlisted⟩
    · rw [hsame, hwas] at his
      exact absurd his (by decide)
    · exact .inr ⟨rfl, hlisted⟩
  · rw [hsame, hwas] at his
    exact absurd his (by decide)

end

/-! ## Every run -/

/-- What the evidence is when a step changes the flag of a switch, and what a judgement and a list
    do on which evidence. -/
structure Justified (switch : Nat → MininetSwitch) (s : P4Twin) (e : P4Twin.Event) (v : Nat)
    (dpid : UInt64) : Prop where
  lowered : s.upOf v = some true → (P4Twin.step switch s e).upOf v = some false →
    ∃ bridges m, e = .judge v bridges ∧ s.fetchedAt = some m ∧ Dead m dpid.toNat
  raised : s.upOf v = some false → (P4Twin.step switch s e).upOf v = some true →
    (∃ bridges m, e = .judge v bridges ∧ s.fetchedAt = some m ∧
        (lastProbeOf m dpid.toNat).map Prod.fst = some true) ∨
      e = .applyList ∧ ∃ l, ListedBy s l dpid.toNat
  dead : ∀ bridges m, e = .judge v bridges → s.fetchedAt = some m → Dead m dpid.toNat →
    (P4Twin.step switch s e).upOf v = some false
  alive : ∀ bridges m, e = .judge v bridges → s.fetchedAt = some m →
    (lastProbeOf m dpid.toNat).map Prod.fst = some true →
    (P4Twin.step switch s e).upOf v = some true
  listed : ∀ l, e = .applyList → s.lists.head? = some l → (dpid.toNat : Int) ∈ l.dpids →
    s.graph.findSwitchByDpid dpid = some v → (P4Twin.step switch s e).upOf v = some true

theorem P4Inv.justified (switch : Nat → MininetSwitch) {g : Graph} {s : P4Twin} (h : P4Inv g s)
    (e : P4Twin.Event) {v : Nat} {dpid : UInt64} (hv : identity g v = some (.switch, dpid))
    (hkind : (switch v).switchKind = .bmv2) : Justified switch s e v dpid where
  lowered := lowered_step switch h e hv hkind
  raised := raised_step switch h e hv hkind
  dead bridges m he hm hdead := by
    subst he
    have hdown := (verdictAt_eq_down_iff (h.ordered_of_mem (h.fetched m hm)) _).mpr hdead
    have hid := (h.same v).trans hv
    obtain ⟨p, hp, -⟩ := Option.map_eq_some_iff.mp hid
    rw [upOf_judge switch h v v bridges hv hkind, hm]
    simp [hdown, P4Twin.upOf, hp]
  alive bridges m he hm hok := by
    subst he
    have hup := (verdictAt_eq_up_iff m _).mpr hok
    have hid := (h.same v).trans hv
    obtain ⟨p, hp, -⟩ := Option.map_eq_some_iff.mp hid
    rw [upOf_judge switch h v v bridges hv hkind, hm]
    simp [hup, P4Twin.upOf, hp]
  listed l he hl hd hfind := by
    subst he
    exact upOf_applyList_of_named switch h hl hd hfind

/-- A switch that was up from the start and is down was found dead once. -/
theorem found_dead (switch : Nat → MininetSwitch) {g : Graph} {v : Nat} {dpid : UInt64}
    (hv : identity g v = some (.switch, dpid)) (hkind : (switch v).switchKind = .bmv2)
    (hstart : (P4Twin.start g).upOf v = some true) (es : List P4Twin.Event) :
    let s := GuardedRun.run (P4Twin.step switch) (P4Twin.start g) es
    s.upOf v = some true ∨ ∃ m ∈ s.moments, Dead m dpid.toNat := by
  have hkept : ∀ s e, (P4Inv g s ∧ (s.upOf v = some true ∨ ∃ m ∈ s.moments, Dead m dpid.toNat)) →
      P4Inv g (P4Twin.step switch s e) ∧ ((P4Twin.step switch s e).upOf v = some true ∨
        ∃ m ∈ (P4Twin.step switch s e).moments, Dead m dpid.toNat) := by
    rintro s e ⟨h, hs⟩
    have hmoments : ∀ m ∈ s.moments, m ∈ (P4Twin.step switch s e).moments := by
      intro m hm
      cases e with
      | fetch reached links =>
        cases reached with
        | true => exact List.mem_append_left _ hm
        | false => exact hm
      | list => exact List.mem_append_left _ hm
      | judge w bridges =>
        simp only [P4Twin.step]
        split <;> exact hm
      | applyList =>
        simp only [P4Twin.step]
        split <;> exact hm
      | _ => exact hm
    refine ⟨h.step switch e, ?_⟩
    rcases hs with hup | ⟨m, hm, hdead⟩
    · cases hnow : (P4Twin.step switch s e).upOf v with
      | none =>
        -- no step removes a vertex
        have hid := ((h.step switch e).same v).trans hv
        obtain ⟨p, hp, -⟩ := Option.map_eq_some_iff.mp hid
        simp [P4Twin.upOf, hp] at hnow
      | some up =>
        cases up with
        | true => exact .inl rfl
        | false =>
          obtain ⟨_, m, -, hm, hdead⟩ := lowered_step switch h e hv hkind hup hnow
          exact .inr ⟨m, hmoments m (h.fetched m hm), hdead⟩
    · exact .inr ⟨m, hmoments m hm, hdead⟩
  exact (run_of_step _ hkept ⟨P4Inv.start g, .inl hstart⟩ es).2

/-- In every run, whatever the order of probes, beacons, polls and judgements: a bmv2 switch is
    marked down and up on evidence only, the evidence is of the past, and a switch that was up is
    still up unless it was found dead. -/
theorem p4_liveness_justified (switch : Nat → MininetSwitch) {g : Graph} {v : Nat} {dpid : UInt64}
    (hv : identity g v = some (.switch, dpid)) (hkind : (switch v).switchKind = .bmv2)
    (es : List P4Twin.Event) (e : P4Twin.Event) :
    let s := GuardedRun.run (P4Twin.step switch) (P4Twin.start g) es
    Justified switch s e v dpid ∧ (∀ m ∈ s.moments, IsPast m s) ∧
      (∀ m ∈ s.fetchedAt, m ∈ s.moments) ∧ (∀ l ∈ s.lists, l.made ∈ s.moments) ∧
      ((P4Twin.start g).upOf v = some true →
        s.upOf v = some true ∨ ∃ m ∈ s.moments, Dead m dpid.toNat) := by
  intro s
  have h : P4Inv g s := P4Inv.run switch g es
  exact ⟨h.justified switch e hv hkind, h.past, h.fetched, fun l hl => (h.lists l hl).1,
    fun hstart => found_dead switch hv hkind hstart es⟩

def oneBmv2 : Graph := .edgeless [{ vertexType := .switch, ip := [1], dpid := 1 }]

def allBmv2 (_ : Nat) : MininetSwitch := { switchKind := .bmv2, bridgeNameForMininet := [] }

/-- A beacon of switch 1, thirteen seconds of silence, and a probe that fails. -/
def silentRun : List P4Twin.Event :=
  [.addSwitch 1 { streamAlive := true, grpcAddr := .null }, .packetIn 2 (some (1, 1)),
    .tick 13000000000, .probe 1 false "timeout", .fetch true .null]

theorem silentRun_lowered :
    let s := GuardedRun.run (P4Twin.step allBmv2) (P4Twin.start oneBmv2) silentRun
    s.upOf 0 = some true ∧ (P4Twin.step allBmv2 s (.judge 0 none)).upOf 0 = some false :=
  ⟨rfl, (p4_liveness_justified allBmv2 rfl rfl silentRun (.judge 0 none)).1.dead none _ rfl rfl
    ⟨⟨13000000000, by decide, by decide⟩, by decide⟩⟩

end Ndtwin.Spec

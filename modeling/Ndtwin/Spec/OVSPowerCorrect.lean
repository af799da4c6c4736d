import Ndtwin.ForStd.Run
import Ndtwin.Kernel.OVSPowerStrategy

/-!
# Ports across power off and power on

The only records of a switch's ports are its bridge and the list that `powerOff` saves in the
graph. `powerOff` overwrites that list with whatever the bridge holds at the time, and it runs
whenever the vertex is up. After a `powerOn` that attached only some of the ports the vertex is
left down, but the bridge is there, so the next pass of `pingWorker` marks it up; a `powerOff`
then saves the incomplete list over the complete one and deletes the bridge.

## Key results

- `executeListPorts_eq`: the ports read back from `list-ports` are the ports of the bridge
- `runCommands_invariant`: what every command of a call keeps, the call keeps
- `mem_of_runCommands_ok`: a call whose commands all succeeded attached its ports
- `no_port_forgotten_iff`: no port is forgotten in a run exactly when every `powerOff` that gets
  to read the ports finds all of them on the bridge
-/

namespace Ndtwin.Spec

open Ndtwin.Kernel GuardedRun
open Ndtwin.Kernel.OvsSwitch

/-! ## Reading the ports -/

theorem fgets_line {room : Nat} {name rest : List Char} (hname : ∀ c ∈ name, c ≠ '\n')
    (hroom : name.length < room) : fgets room (name ++ '\n' :: rest) = (name ++ ['\n'], rest) := by
  induction name generalizing room with
  | nil =>
    obtain ⟨room, rfl⟩ : ∃ r, room = r + 1 := ⟨room - 1, by simp at hroom; omega⟩
    simp [fgets]
  | cons c name ih =>
    obtain ⟨room, rfl⟩ : ∃ r, room = r + 1 := ⟨room - 1, by simp at hroom; omega⟩
    have hc : c ≠ '\n' := hname c List.mem_cons_self
    have hrest : fgets room (name ++ '\n' :: rest) = (name ++ ['\n'], rest) := by
      apply ih
      · intro d hd
        exact hname d (List.mem_cons_of_mem c hd)
      · rw [List.length_cons] at hroom
        omega
    rw [List.cons_append, fgets, if_neg hc, hrest]
    rfl

theorem trimEnd_line {name : List Char} (hname : ∀ c ∈ name, isTrimmed c = false) :
    trimEnd (name ++ ['\n']) = name := by
  have hkeep : name.reverse.dropWhile isTrimmed = name.reverse := by
    cases hrev : name.reverse with
    | nil => rfl
    | cons c cs =>
      have hmem : c ∈ name := List.mem_reverse.mp (hrev ▸ List.mem_cons_self)
      rw [List.dropWhile_cons_of_neg]
      rw [hname c hmem]
      exact Bool.false_ne_true
  rw [trimEnd, List.reverse_append, List.reverse_singleton, List.singleton_append,
    List.dropWhile_cons_of_pos (by decide), hkeep, List.reverse_reverse]

theorem portName_noNewline (p : PortName) : ∀ c ∈ p.chars, c ≠ '\n' := by
  rintro c hc rfl
  have := p.noSpace '\n' hc
  exact nomatch this

/-- One turn of the loop takes one port. -/
theorem readLines_port (turns : Nat) (p : PortName) (rest : List Char) :
    readLines (turns + 1) (p.chars ++ '\n' :: rest) = p.chars :: readLines turns rest := by
  have hline : fgets 127 (p.chars ++ '\n' :: rest) = (p.chars ++ ['\n'], rest) := by
    apply fgets_line (portName_noNewline p)
    have := p.short
    omega
  cases htext : p.chars ++ '\n' :: rest with
  | nil => simp at htext
  | cons c text =>
    rw [htext] at hline
    simp only [readLines, hline, trimEnd_line p.noSpace, if_neg p.nonempty]

theorem readLines_ports (ports : List PortName) {turns : Nat} (hturns : ports.length ≤ turns) :
    readLines turns (ports.flatMap fun p => p.chars ++ ['\n']) = ports.map PortName.chars := by
  induction ports generalizing turns with
  | nil => cases turns <;> rfl
  | cons p ports ih =>
    obtain ⟨turns, rfl⟩ : ∃ t, turns = t + 1 := ⟨turns - 1, by simp at hturns; omega⟩
    have hrest : readLines turns (ports.flatMap fun p => p.chars ++ ['\n']) =
        ports.map PortName.chars := ih (by simpa using hturns)
    rw [List.flatMap_cons, List.append_assoc, List.singleton_append, readLines_port, hrest]
    rfl

theorem length_le_portLines (ports : List PortName) :
    ports.length ≤ (ports.flatMap fun p => p.chars ++ ['\n']).length := by
  induction ports with
  | nil => exact Nat.le_refl 0
  | cons p ports ih =>
    rw [List.flatMap_cons, List.length_append, List.length_append, List.length_cons]
    simp only [List.length_cons, List.length_nil]
    omega

/-- The listing of a bridge, read back. -/
theorem executeListPorts_eq (reaches : Bool) (bridge : Bridge) :
    executeListPorts reaches bridge =
      if reaches = true ∧ bridge.isSome then some (bridge.ports.map PortName.chars) else none := by
  cases bridge with
  | none => simp [executeListPorts, listPortsOutput, linesOf]
  | some ports =>
    cases reaches with
    | false => simp [executeListPorts, listPortsOutput, linesOf]
    | true =>
      have hread := readLines_ports ports (length_le_portLines ports)
      simp only [executeListPorts, listPortsOutput, linesOf, Bridge.ports, hread, if_true,
        ne_eq, not_true_eq_false, if_false, Option.isSome_some, and_self, Option.getD_some]

/-! ## The commands of a call -/

/-- What every command of a line keeps, the line keeps, wherever it ends. -/
theorem executeSystemCommand_invariant {Inv : Bridge → Prop} {reaches : Nat → Bool}
    {line : List OvsCommand} {host : Host}
    (hexec : ∀ c ∈ line, ∀ b b', Inv b → c.exec b = some b' → Inv b') (h0 : Inv host.bridge) :
    Inv (executeSystemCommand reaches line host).2.bridge := by
  induction line generalizing host with
  | nil => exact h0
  | cons c cs ih =>
    rw [executeSystemCommand]
    split
    · rename_i b hb
      apply ih fun d hd => hexec d (List.mem_cons_of_mem c hd)
      -- the command ran, so it reached Open vSwitch
      split at hb
      · exact hexec c List.mem_cons_self _ _ h0 hb
      · exact nomatch hb
    · exact h0

/-- What every command of a call keeps, the call keeps. -/
theorem runCommands_invariant (Inv : Bridge → Prop) {reaches : Nat → Bool}
    {lines : List (List OvsCommand)} {host : Host}
    (hexec : ∀ line ∈ lines, ∀ c ∈ line, ∀ b b', Inv b → c.exec b = some b' → Inv b')
    (h0 : Inv host.bridge) : Inv (runCommands reaches lines host).2.bridge := by
  induction lines generalizing host with
  | nil => exact h0
  | cons line lines ih =>
    rw [runCommands]
    apply ih fun l hl => hexec l (List.mem_cons_of_mem line hl)
    exact executeSystemCommand_invariant (hexec line List.mem_cons_self) h0

/-- A command other than `del-br` takes no port off the bridge. -/
theorem ports_subset_of_exec {c : OvsCommand} (hc : c ≠ .delBr) {b b' : Bridge}
    (h : c.exec b = some b') : b.ports ⊆ b'.ports := by
  cases c with
  | delBr => exact absurd rfl hc
  | ifconfigUp port | ifconfigDown port =>
    rw [← Option.some.inj h]
    exact List.Subset.refl _
  -- `add-br` needs that there is no bridge, every command below needs one.
  | addBr =>
    cases b with
    | none => exact List.nil_subset _
    | some ports => exact nomatch h
  | setDatapathId | setController =>
    cases b with
    | none => exact nomatch h
    | some ports =>
      rw [← Option.some.inj h]
      exact List.Subset.refl _
  | addPort port =>
    cases b with
    | none => exact nomatch h
    | some ports =>
      simp only [OvsCommand.exec] at h
      split at h
      · split at h
        · exact nomatch h
        · rw [← Option.some.inj h]
          exact List.subset_append_left ports _
      · exact nomatch h

/-- Lines without `del-br` take no port off the bridge. -/
theorem runCommands_ports_subset {reaches : Nat → Bool} {lines : List (List OvsCommand)}
    {host : Host} (hlines : ∀ line ∈ lines, .delBr ∉ line) :
    host.bridge.ports ⊆ (runCommands reaches lines host).2.bridge.ports := by
  apply runCommands_invariant fun b => host.bridge.ports ⊆ b.ports
  · intro line hline c hc b b' hb h
    have hne : c ≠ .delBr := by
      rintro rfl
      exact hlines line hline hc
    exact List.Subset.trans hb (ports_subset_of_exec hne h)
  · exact List.Subset.refl _

theorem mem_of_addPort {port : List Char} {b b' : Bridge}
    (h : (OvsCommand.addPort port).exec b = some b') : port ∈ b'.ports.map PortName.chars := by
  cases b with
  | none => exact nomatch h
  | some ports =>
    simp only [OvsCommand.exec] at h
    split at h
    · split at h
      · exact nomatch h
      · rw [← Option.some.inj h]
        simp [Bridge.ports]
    · exact nomatch h

theorem executeSystemCommand_singleton {reaches : Nat → Bool} {c : OvsCommand} {host : Host}
    (h : (executeSystemCommand reaches [c] host).1 = true) :
    c.exec host.bridge = some (executeSystemCommand reaches [c] host).2.bridge := by
  simp only [executeSystemCommand] at h ⊢
  split at h
  · rename_i b hb
    split at hb
    · exact hb
    · exact nomatch hb
  · exact nomatch h

/-- When every line succeeds and none deletes the bridge, each port is attached at the end. -/
theorem mem_of_runCommands_ok {reaches : Nat → Bool} {lines : List (List OvsCommand)}
    {host : Host} {port : List Char} (hok : (runCommands reaches lines host).1 = true)
    (hlines : ∀ line ∈ lines, .delBr ∉ line) (hport : [.addPort port] ∈ lines) :
    port ∈ (runCommands reaches lines host).2.bridge.ports.map PortName.chars := by
  induction lines generalizing host with
  | nil => exact absurd hport List.not_mem_nil
  | cons line lines ih =>
    simp only [runCommands, Bool.and_eq_true] at hok ⊢
    have hlines' : ∀ l ∈ lines, .delBr ∉ l := fun l hl => hlines l (List.mem_cons_of_mem line hl)
    rcases List.mem_cons.mp hport with rfl | hmem
    · -- attached by this line, and kept by the others
      have hnow := mem_of_addPort (executeSystemCommand_singleton hok.1)
      obtain ⟨p, hp, hchars⟩ := List.mem_map.mp hnow
      exact List.mem_map.mpr ⟨p, runCommands_ports_subset hlines' hp, hchars⟩
    · exact ih hok.2 hlines' hmem

/-- `add-br` succeeds only when the bridge is not there. -/
theorem bridge_none_of_addBr {reaches : Nat → Bool} {cs : List OvsCommand} {host : Host}
    (h : (executeSystemCommand reaches (.addBr :: cs) host).1 = true) : host.bridge = none := by
  rw [executeSystemCommand] at h
  split at h
  · rename_i b hb
    split at hb
    · cases hbridge : host.bridge with
      | none => rfl
      | some ports =>
        rw [hbridge] at hb
        exact nomatch hb
    · exact nomatch hb
  · exact nomatch h

/-! ## What a call does -/

theorem delBr_notMem_powerOnCommands (ports : List (List Char)) :
    ∀ line ∈ powerOnCommands ports, OvsCommand.delBr ∉ line := by
  intro line hline
  simp only [powerOnCommands, List.cons_append, List.mem_cons, List.mem_append, List.mem_flatMap,
    List.not_mem_nil, or_false] at hline
  rcases hline with rfl | ⟨port, -, rfl | rfl⟩ | rfl <;> simp

/-- `powerOn` keeps the saved list and every attached port. -/
theorem powerOn_keeps (swName : String) (reaches : Nat → Bool) (s : OvsSwitch) :
    (s.powerOn swName reaches).2.savedPorts = s.savedPorts ∧
      s.bridge.ports ⊆ (s.powerOn swName reaches).2.bridge.ports := by
  have hports := @runCommands_ports_subset reaches (powerOnCommands s.savedPorts) ⟨s.bridge, 0⟩
    (delBr_notMem_powerOnCommands s.savedPorts)
  unfold powerOn
  split
  · exact ⟨rfl, List.Subset.refl _⟩
  · dsimp only
    split
    · exact ⟨rfl, hports⟩
    · exact ⟨rfl, hports⟩

/-- A `powerOn` that ran its commands and succeeded started without a bridge, and has attached
    every port of the saved list. -/
theorem powerOn_success {swName : String} {reaches : Nat → Bool} {s : OvsSwitch}
    (hdown : s.isUp = false) (h : (s.powerOn swName reaches).1 = .success) :
    s.bridge = none ∧ ∀ port ∈ s.savedPorts,
      port ∈ (s.powerOn swName reaches).2.bridge.ports.map PortName.chars := by
  have hallOk : (runCommands reaches (powerOnCommands s.savedPorts) ⟨s.bridge, 0⟩).1 = true := by
    by_contra hnot
    have hfalse := Bool.eq_false_iff.mpr hnot
    simp [powerOn, hdown, hfalse] at h
  have hbridge : (s.powerOn swName reaches).2.bridge =
      (runCommands reaches (powerOnCommands s.savedPorts) ⟨s.bridge, 0⟩).2.bridge := by
    simp [powerOn, hdown, hallOk]
  constructor
  · have hfirst := hallOk
    simp only [powerOnCommands, List.cons_append, runCommands, Bool.and_eq_true] at hfirst
    exact bridge_none_of_addBr hfirst.1
  · intro port hport
    rw [hbridge]
    apply mem_of_runCommands_ok hallOk (delBr_notMem_powerOnCommands s.savedPorts)
    apply List.mem_append_left
    apply List.mem_cons_of_mem
    exact List.mem_flatMap.mpr ⟨port, hport, List.mem_cons_self⟩

/-- The call reads the ports of the bridge. -/
def ReadsPorts (s : OvsSwitch) (reaches : Nat → Bool) : Prop :=
  s.isUp = true ∧ reaches 0 = true ∧ s.bridge.isSome = true

instance (s : OvsSwitch) (reaches : Nat → Bool) : Decidable (ReadsPorts s reaches) :=
  inferInstanceAs (Decidable (_ ∧ _))

theorem powerOff_of_not_reads {swName : String} {reaches : Nat → Bool} {s : OvsSwitch}
    (h : ¬ReadsPorts s reaches) : (s.powerOff swName reaches).2 = s := by
  unfold powerOff
  split
  · rfl
  · rename_i hup
    have hup' : s.isUp = true := by simpa using hup
    have hnone : executeListPorts (reaches 0) s.bridge = none := by
      rw [executeListPorts_eq, if_neg]
      intro hreads
      exact h ⟨hup', hreads⟩
    rw [hnone]

/-- A `powerOff` that reads the ports saves what the bridge holds, and attaches nothing. -/
theorem powerOff_of_reads {swName : String} {reaches : Nat → Bool} {s : OvsSwitch}
    (h : ReadsPorts s reaches) :
    (s.powerOff swName reaches).2.savedPorts = s.bridge.ports.map PortName.chars ∧
      (s.powerOff swName reaches).2.bridge.ports ⊆ s.bridge.ports := by
  obtain ⟨hup, hreads⟩ := h
  have hsome : executeListPorts (reaches 0) s.bridge =
      some (s.bridge.ports.map PortName.chars) := by
    rw [executeListPorts_eq, if_pos hreads]
  -- `ifconfig` leaves the bridge, `del-br` takes it away
  have hbridge : ∀ ports, (runCommands reaches (powerOffCommands ports)
      ⟨s.bridge, 1⟩).2.bridge.ports ⊆ s.bridge.ports := by
    intro ports
    apply runCommands_invariant fun b => b.ports ⊆ s.bridge.ports
    · intro line hline c hc b b' hb hexec
      simp only [powerOffCommands, List.mem_append, List.mem_map, List.mem_singleton] at hline
      rcases hline with ⟨port, -, rfl⟩ | rfl
      · rw [List.mem_singleton.mp hc] at hexec
        rwa [← Option.some.inj hexec]
      · rw [List.mem_singleton.mp hc] at hexec
        cases b with
        | none => exact nomatch hexec
        | some _ =>
          rw [← Option.some.inj hexec]
          exact List.nil_subset _
    · exact List.Subset.refl _
  simp only [powerOff, hup, hsome]
  split
  · contradiction
  · split
    · exact ⟨rfl, hbridge _⟩
    · exact ⟨rfl, hbridge _⟩

theorem livenessPass_keeps (swName : String) (listBr : Option PipeOutput) (s : OvsSwitch) :
    (s.livenessPass swName listBr).savedPorts = s.savedPorts ∧
      (s.livenessPass swName listBr).bridge = s.bridge := by
  unfold livenessPass
  split
  · exact ⟨rfl, rfl⟩
  · exact ⟨rfl, rfl⟩
  · exact ⟨rfl, rfl⟩

/-! ## No port is forgotten -/

/-- Each of the ports is attached to the bridge or in the saved list. -/
def PortsRecorded (P : List PortName) (s : OvsSwitch) : Prop :=
  ∀ p ∈ P, p ∈ s.bridge.ports ∨ p.chars ∈ s.savedPorts

/-- A `powerOff` that gets to read the ports finds all of them attached. -/
def FindsAllPorts (P : List PortName) (s : OvsSwitch) : Event → Prop
  | .powerOff reaches => ReadsPorts s reaches → ∀ p ∈ P, p ∈ s.bridge.ports
  | .powerOn _ | .livenessPass _ => True

/-- In every state of the run each port is recorded, and after a `powerOn` that ran its commands
    and returned success the bridge has them all. -/
def NoPortForgotten (swName : String) (P : List PortName) (s : OvsSwitch) (es : List Event) :
    Prop :=
  (∀ pre, pre <+: es → PortsRecorded P (run (step swName) s pre)) ∧
  ∀ pre reaches, pre ++ [.powerOn reaches] <+: es → (run (step swName) s pre).isUp = false →
    ((run (step swName) s pre).powerOn swName reaches).1 = .success →
    ∀ p ∈ P, p ∈ ((run (step swName) s pre).powerOn swName reaches).2.bridge.ports

theorem portsRecorded_mono {P : List PortName} {s s' : OvsSwitch} (h : PortsRecorded P s)
    (hsaved : s'.savedPorts = s.savedPorts) (hports : s.bridge.ports ⊆ s'.bridge.ports) :
    PortsRecorded P s' := by
  intro p hp
  rcases h p hp with hattached | hsaved'
  · exact Or.inl (hports hattached)
  · exact Or.inr (hsaved ▸ hsaved')

theorem portsRecorded_step {swName : String} {P : List PortName} {s : OvsSwitch} {e : Event}
    (h : PortsRecorded P s) (hok : FindsAllPorts P s e) : PortsRecorded P (s.step swName e) := by
  cases e with
  | powerOn reaches =>
    obtain ⟨hsaved, hports⟩ := powerOn_keeps swName reaches s
    exact portsRecorded_mono h hsaved hports
  | livenessPass listBr =>
    obtain ⟨hsaved, hbridge⟩ := livenessPass_keeps swName listBr s
    apply portsRecorded_mono h hsaved
    show s.bridge.ports ⊆ (s.livenessPass swName listBr).bridge.ports
    rw [hbridge]
    exact List.Subset.refl _
  | powerOff reaches =>
    by_cases hreads : ReadsPorts s reaches
    · intro p hp
      right
      rw [step, (powerOff_of_reads hreads).1]
      exact List.mem_map_of_mem (hok hreads p hp)
    · rw [step, powerOff_of_not_reads hreads]
      exact h

theorem portName_eq_of_chars {p q : PortName} (h : p.chars = q.chars) : p = q := by
  cases p
  cases q
  cases h
  rfl

/-- A `powerOff` that reads the ports while one of them is off the bridge forgets it. -/
theorem not_portsRecorded_step {swName : String} {P : List PortName} {s : OvsSwitch} {e : Event}
    (hbad : ¬FindsAllPorts P s e) : ¬PortsRecorded P (s.step swName e) := by
  cases e with
  | powerOn reaches => exact absurd trivial hbad
  | livenessPass listBr => exact absurd trivial hbad
  | powerOff reaches =>
    simp only [FindsAllPorts, not_forall] at hbad
    obtain ⟨hreads, p, hp, hoff⟩ := hbad
    obtain ⟨hsaved, hports⟩ := @powerOff_of_reads swName reaches s hreads
    intro hrecorded
    rcases hrecorded p hp with hattached | hlisted
    · exact hoff (hports hattached)
    · rw [step, hsaved] at hlisted
      obtain ⟨q, hq, hchars⟩ := List.mem_map.mp hlisted
      rw [portName_eq_of_chars hchars] at hq
      exact hoff hq

/-- A recorded port is on the bridge after a `powerOn` that ran its commands and succeeded. -/
theorem attached_of_powerOn {swName : String} {P : List PortName} {reaches : Nat → Bool}
    {s : OvsSwitch} (h : PortsRecorded P s) (hdown : s.isUp = false)
    (hok : (s.powerOn swName reaches).1 = .success) :
    ∀ p ∈ P, p ∈ (s.powerOn swName reaches).2.bridge.ports := by
  obtain ⟨hnone, hattached⟩ := powerOn_success hdown hok
  intro p hp
  rcases h p hp with hon | hsaved
  · rw [hnone] at hon
    exact absurd hon List.not_mem_nil
  · obtain ⟨q, hq, hchars⟩ := List.mem_map.mp (hattached p.chars hsaved)
    rwa [portName_eq_of_chars hchars] at hq

/-- The switch at the start: up, with the ports on its bridge. -/
def poweredSwitch (P : List PortName) (saved : List (List Char)) : OvsSwitch := ⟨true, saved, some P⟩

/-- No port is forgotten in a run exactly when every `powerOff` that gets to read the ports finds
    all of them on the bridge. -/
theorem no_port_forgotten_iff (swName : String) (P : List PortName) (saved : List (List Char))
    (es : List Event) :
    NoPortForgotten swName P (poweredSwitch P saved) es ↔
      Guarded (step swName) (FindsAllPorts P) (poweredSwitch P saved) es := by
  have hstart : PortsRecorded P (poweredSwitch P saved) := fun p hp => Or.inl hp
  have halong : (∀ pre, pre <+: es → PortsRecorded P (run (step swName) (poweredSwitch P saved) pre)) ↔
      Guarded (step swName) (FindsAllPorts P) (poweredSwitch P saved) es := by
    apply forall_prefix_iff_guarded (PortsRecorded P)
    · exact fun s e h (_ : True) hok => portsRecorded_step h hok
    · exact fun s h => h
    · exact fun s e _ _ hbad => not_portsRecorded_step hbad
    · exact hstart
    · exact guarded_true _ _ _
  constructor
  · intro h
    exact halong.mp h.1
  · intro hguard
    have hrecorded := halong.mpr hguard
    refine ⟨hrecorded, fun pre reaches hpre hdown hok => ?_⟩
    have hbefore := hrecorded pre ((List.prefix_append pre _).trans hpre)
    exact attached_of_powerOn hbefore hdown hok

/-- A port of a switch in Mininet. -/
def s1eth1 : PortName :=
  ⟨"s1-eth1".toList, by decide, by simp [isTrimmed], by decide⟩

def s1eth2 : PortName :=
  ⟨"s1-eth2".toList, by decide, by simp [isTrimmed], by decide⟩

/-- The bridge is rebuilt with one port of two, marked up by the liveness pass, and powered off:
    the other port is forgotten. -/
theorem partial_powerOn_forgets :
    ¬NoPortForgotten "s1" [s1eth1, s1eth2] (poweredSwitch [s1eth1, s1eth2] [])
      [.powerOff fun _ => true,
        -- the second `add-port` fails
        .powerOn fun n => n ≠ 4,
        .livenessPass (some ⟨"s1\n".toList, 0⟩),
        .powerOff fun _ => true] := by
  intro h
  have hlost := h.1 _ (List.prefix_refl _) s1eth2 (by simp)
  revert hlost
  decide +kernel

end Ndtwin.Spec

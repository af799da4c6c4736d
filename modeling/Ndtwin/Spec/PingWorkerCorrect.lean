import Ndtwin.ForStd.List
import Ndtwin.Kernel.PingWorker

/-!
# The flags of a switch after a ping pass

Every address of a switch overwrites its flags: the up flag is what the last address said,
and the enabled flag is cleared by any address that does not answer. The enabled flag is thus
independent of the order of the addresses; the up flag is so only when all of them agree.

Key results:
- `foldl_probe`: the flags after all addresses of a switch
- `flags_pingPass`: a pass over the whole graph, read at one switch
- `pingPass_order_iff`: the switches whose flags do not depend on the order
-/

namespace Ndtwin.Kernel

namespace DeviceConfigurationAndPowerManager

open TopologyMonitor

variable {pingSwitch : String → Bool}

/-- The up flag and the enabled flag of a vertex. -/
def flags (g : Graph) (v : Nat) : Option (Bool × Bool) :=
  (g.vertices[v]?).map fun props => (props.isUp, props.isEnabled)

/-- What the answer of one address does to the two flags. -/
def probe (flags : Bool × Bool) (alive : Bool) : Bool × Bool :=
  if alive then (true, flags.2) else (false, false)

/-- What the addresses of a switch answer, in their order. -/
def answers (pingSwitch : String → Bool) (ips : List UInt32) : List Bool :=
  ips.map fun ip => pingSwitch (Utils.ipToString ip)

/-- The last answer is the up flag; every answer counts for the enabled flag. -/
theorem foldl_probe (outcomes : List Bool) (before : Bool × Bool) :
    outcomes.foldl probe before =
      (outcomes.getLast?.getD before.1, before.2 && outcomes.all id) := by
  -- by induction on the answers: the flags before are what the earlier addresses left
  induction outcomes generalizing before with
  | nil => simp
  | cons alive outcomes ih =>
    rw [List.foldl_cons, ih, List.getLast?_cons]
    cases alive <;> simp [probe]

/-- An address of one switch leaves the flags of the others. -/
theorem flags_pingAddress (v i : Nat) (live : Graph) (ip : UInt32) :
    flags (pingAddress pingSwitch v live ip) i =
      if i = v then (flags live i).map (probe · (pingSwitch (Utils.ipToString ip)))
      else flags live i := by
  unfold pingAddress flags setVertexDisable setVertexDown setVertexUp
  cases pingSwitch (Utils.ipToString ip) <;> by_cases hi : i = v <;>
    simp [Graph.getElem?_updateVertex, hi, probe, Function.comp_def]

theorem flags_foldl_pingAddress (v i : Nat) (ips : List UInt32) (live : Graph) :
    flags (ips.foldl (pingAddress pingSwitch v) live) i =
      if i = v then (flags live i).map ((answers pingSwitch ips).foldl probe ·)
      else flags live i := by
  induction ips generalizing live with
  | nil => simp [answers]
  | cons ip ips ih =>
    rw [List.foldl_cons, ih, flags_pingAddress]
    by_cases hi : i = v <;> simp [hi, answers, Function.comp_def]

theorem flags_pingVertex (i : Nat) (live : Graph) (vertex : VertexProperties × Nat)
    (hi : vertex.2 ≠ i) : flags (pingVertex pingSwitch live vertex) i = flags live i := by
  unfold pingVertex
  split
  · rw [flags_foldl_pingAddress, if_neg hi.symm]
  · rfl

/-- A pass changes the flags of a switch once, by the answers of its own addresses. -/
theorem flags_pingPass {graph : Graph} (live : Graph) {v : Nat} {props : VertexProperties}
    (hv : graph.vertices[v]? = some props) (hswitch : props.vertexType = .switch) :
    flags (pingPass pingSwitch graph live) v =
      (flags live v).map ((answers pingSwitch props.ip).foldl probe ·) := by
  -- every index occurs once, so the switch is visited once, with its own addresses
  have hmem : (props, v) ∈ graph.vertices.zipIdx := by
    rw [List.mem_zipIdx_iff_getElem?]
    exact hv
  have hnodup : (graph.vertices.zipIdx.map Prod.snd).Nodup := by
    rw [List.zipIdx_map_snd]
    exact List.nodup_range'
  obtain ⟨s, hs, hpass⟩ : ∃ s, flags s v = flags live v ∧
      flags (pingPass pingSwitch graph live) v =
        flags (pingVertex pingSwitch s (props, v)) v :=
    List.foldl_proj_of_mem (flags_pingVertex v) graph.vertices.zipIdx hnodup hmem rfl live
  rw [hpass, pingVertex, if_pos hswitch, flags_foldl_pingAddress, if_pos rfl, hs]

/-- The graph with the addresses of a switch listed in another order. -/
def relisted (g : Graph) (v : Nat) (ips : List UInt32) : Graph :=
  g.updateVertex v ({ · with ip := ips })

/-- The flags of the switch after a pass do not depend on the order of its addresses. -/
def OrderIndependent (pingSwitch : String → Bool) (graph live : Graph) (v : Nat)
    (ips : List UInt32) : Prop :=
  ∀ ips', ips'.Perm ips →
    flags (pingPass pingSwitch (relisted graph v ips') live) v =
      flags (pingPass pingSwitch graph live) v

/-- Any element of a list can be listed last. -/
private theorem exists_perm_getLast? {α : Type} {l : List α} {a : α} (ha : a ∈ l) :
    ∃ l' : List α, l'.Perm l ∧ l'.getLast? = some a := by
  obtain ⟨before, after, rfl⟩ := List.append_of_mem ha
  refine ⟨before ++ after ++ [a], ?_, by simp⟩
  rw [List.append_assoc]
  exact List.Perm.append_left before (List.perm_append_singleton a after)

/-- The order of the addresses is immaterial exactly when all of them answer or none does. -/
theorem pingPass_order_iff {graph live : Graph} {v : Nat} {props before : VertexProperties}
    (hv : graph.vertices[v]? = some props) (hswitch : props.vertexType = .switch)
    (hlive : live.vertices[v]? = some before) :
    OrderIndependent pingSwitch graph live v props.ip ↔
      ∀ a ∈ answers pingSwitch props.ip, ∀ b ∈ answers pingSwitch props.ip, a = b := by
  have hflags : flags live v = some (before.isUp, before.isEnabled) := by simp [flags, hlive]
  have hrelisted : ∀ ips, flags (pingPass pingSwitch (relisted graph v ips) live) v =
      some ((answers pingSwitch ips).foldl probe (before.isUp, before.isEnabled)) := by
    intro ips
    have hv' : (relisted graph v ips).vertices[v]? = some { props with ip := ips } := by
      simp [relisted, Graph.getElem?_updateVertex, hv]
    rw [flags_pingPass live hv' hswitch, hflags, Option.map_some]
  have hgraph : flags (pingPass pingSwitch graph live) v =
      some ((answers pingSwitch props.ip).foldl probe (before.isUp, before.isEnabled)) := by
    rw [flags_pingPass live hv hswitch, hflags, Option.map_some]
  constructor
  · -- list the address of `a` last, then the one of `b`
    intro hindep
    have hlast : ∀ a ∈ answers pingSwitch props.ip,
        a = ((answers pingSwitch props.ip).foldl probe (before.isUp, before.isEnabled)).1 := by
      intro a ha
      obtain ⟨ip, hip, rfl⟩ := List.mem_map.mp ha
      obtain ⟨ips', hperm, hips'⟩ := exists_perm_getLast? hip
      have hsame := hindep ips' hperm
      rw [hrelisted, hgraph, Option.some.injEq] at hsame
      rw [← hsame, foldl_probe, answers, List.getLast?_map, hips']
      rfl
    intro a ha b hb
    rw [hlast a ha, hlast b hb]
  · -- equal answers commute, so the fold is that of the other order
    intro hagree ips' hperm
    have hanswers : (answers pingSwitch ips').Perm (answers pingSwitch props.ip) := hperm.map _
    rw [hrelisted, hgraph, hanswers.foldl_eq' fun a ha b hb flags => ?_]
    rw [hagree a (hanswers.mem_iff.mp ha) b (hanswers.mem_iff.mp hb)]

/-- A graph of one switch with the given addresses. -/
def oneSwitch (ips : List UInt32) : Graph :=
  .edgeless [{ vertexType := .switch, ip := ips, dpid := 1 }]

/-- A network in which only 10.0.0.1 answers. -/
def onlyFirst (ip : String) : Bool := ip = "10.0.0.1"

/-- The switch 10.0.0.1 and 10.0.0.2 ends down, the switch 10.0.0.2 and 10.0.0.1 ends up. -/
theorem oneAnswer_order :
    let graph := oneSwitch [0x0100000A, 0x0200000A]
    flags (pingPass onlyFirst graph graph) 0 = some (false, false) ∧
      flags (pingPass onlyFirst (relisted graph 0 [0x0200000A, 0x0100000A]) graph) 0 =
        some (true, false) ∧
      ¬ OrderIndependent onlyFirst graph graph 0 [0x0100000A, 0x0200000A] := by
  refine ⟨by decide, by decide, fun h => ?_⟩
  exact absurd (h [0x0200000A, 0x0100000A] (.swap ..)) (by decide)

theorem sameAnswer_order :
    OrderIndependent (fun _ => true) (oneSwitch [0x0100000A, 0x0200000A])
      (oneSwitch [0x0100000A, 0x0200000A]) 0 [0x0100000A, 0x0200000A] := by
  have hv : (oneSwitch [0x0100000A, 0x0200000A]).vertices[0]? =
      some { vertexType := .switch, ip := [0x0100000A, 0x0200000A], dpid := 1 } := rfl
  exact (pingPass_order_iff hv rfl hv).mpr (by decide)

end DeviceConfigurationAndPowerManager

end Ndtwin.Kernel

import Ndtwin.Proxy.Fabric

/-!
# The TTL Bound

`ipv4_forward` takes one from a TTL that is not 0 and forwards the packet either way, so the TTL
bounds the number of hops only as long as no switch forwards a packet that arrives with TTL 0.
From the first such hop on the packet is forwarded more often than its TTL allows, and in a loop
without end.

## Key results

- `hop_ttl`: the TTL after one hop
- `forwards_le_ttl_iff`: when the number of forwards stays within the TTL
-/

namespace Ndtwin.Proxy.Fabric

variable {ι : Type} {f : Fabric ι}

/-- `ipv4_forward` takes one from the TTL, down to 0. -/
theorem toNat_ttl_decrement (ttl : UInt8) :
    (if 0 < ttl then ttl - 1 else ttl).toNat = ttl.toNat - 1 := by
  split
  · next h =>
    have hpos : 1 ≤ ttl := by
      rw [UInt8.le_iff_toNat_le]
      rw [UInt8.lt_iff_toNat_lt] at h
      exact h
    rw [UInt8.toNat_sub_of_le _ _ hpos]
    rfl
  · next h =>
    rw [UInt8.lt_iff_toNat_lt, UInt8.toNat_zero] at h
    omega

/-- A hop takes one from the TTL when it is a forward, and nothing otherwise. -/
theorem hop_ttl {a a' : Arrival ι} (h : f.hop a = some a') :
    a'.packet.ttl.toNat =
      a.packet.ttl.toNat - if (f.actionAt a).forwardsOut = true then 1 else 0 := by
  simp only [hop] at h
  split at h
  · exact nomatch h
  · next hegress =>
    obtain ⟨link, -, rfl⟩ := Option.map_eq_some_iff.mp h
    dsimp only
    cases haction : f.actionAt a with
    | ipv4Forward dstAddr port =>
      rw [haction] at hegress
      have hout : (IngressAction.ipv4Forward dstAddr port).forwardsOut = true := by
        simpa [IngressAction.forwardsOut, IngressAction.egressSpec, not_or] using hegress
      rw [if_pos hout]
      exact toNat_ttl_decrement a.packet.ttl
    | drop => rfl
    | sendToCpu => rfl
    | noAction => rfl

/-- The first switch counts by itself, and the others from the packet it sends on. -/
theorem forwards_succ (n : Nat) (a : Arrival ι) :
    f.forwards (n + 1) a = (if (f.actionAt a).forwardsOut = true then 1 else 0) +
      match f.hop a with
      | none => 0
      | some a' => f.forwards n a' := by
  unfold forwards
  rw [visits, List.countP_cons, Nat.add_comm]
  congr 1
  cases f.hop a with
  | none => rfl
  | some a' => rfl

theorem mem_visits_succ {n : Nat} {a v : Arrival ι} :
    v ∈ f.visits (n + 1) a ↔ v = a ∨ ∃ a', f.hop a = some a' ∧ v ∈ f.visits n a' := by
  rw [visits, List.mem_cons]
  cases f.hop a with
  | none => simp
  | some a' => simp

/-- No switch on the way forwards a packet that arrives with TTL 0. -/
def StopsAtZero (f : Fabric ι) (n : Nat) (a : Arrival ι) : Prop :=
  ∀ v ∈ f.visits n a, v.packet.ttl = 0 → (f.actionAt v).forwardsOut = false

theorem stopsAtZero_succ {n : Nat} {a : Arrival ι} :
    f.StopsAtZero (n + 1) a ↔ (a.packet.ttl = 0 → (f.actionAt a).forwardsOut = false) ∧
      ∀ a', f.hop a = some a' → f.StopsAtZero n a' := by
  unfold StopsAtZero
  simp only [mem_visits_succ]
  constructor
  · intro h
    exact ⟨h a (Or.inl rfl), fun a' ha' v hv => h v (Or.inr ⟨a', ha', hv⟩)⟩
  · rintro ⟨hfirst, hrest⟩ v (rfl | ⟨a', ha', hv⟩)
    · exact hfirst
    · exact hrest a' ha' v hv

end Ndtwin.Proxy.Fabric

namespace Ndtwin.Spec

open Ndtwin.Proxy

/-- Among the first `n` switches that process a packet, `ipv4_forward` sends it out of a port at
    most as often as its TTL says, exactly when none of them forwards it after it has arrived
    with TTL 0. -/
theorem forwards_le_ttl_iff {ι : Type} (f : Fabric ι) (a : Arrival ι) (n : Nat) :
    f.forwards n a ≤ a.packet.ttl.toNat ↔ f.StopsAtZero n a := by
  have hzero : a.packet.ttl = 0 ↔ a.packet.ttl.toNat = 0 := by
    rw [← UInt8.toNat_inj, UInt8.toNat_zero]
  induction n generalizing a with
  | zero =>
    refine iff_of_true (Nat.zero_le _) ?_
    intro v hv
    exact absurd hv List.not_mem_nil
  | succ n ih =>
    rw [Fabric.forwards_succ, Fabric.stopsAtZero_succ, hzero]
    cases hhop : f.hop a with
    | none =>
      cases hout : (f.actionAt a).forwardsOut with
      | false => simp
      | true => simp; omega
    | some a' =>
      have hrest := ih a' (by rw [← UInt8.toNat_inj, UInt8.toNat_zero])
      have httl := Fabric.hop_ttl hhop
      simp only [Option.some.injEq, forall_eq', ← hrest, httl]
      cases hout : (f.actionAt a).forwardsOut with
      | false => simp
      | true =>
        -- a forward at TTL 0 is one too many already, whatever comes after it
        simp only [if_true, Bool.true_eq_false, imp_false]
        omega

/-- Two switches that forward every packet to each other. -/
def loopedFabric : Fabric Bool where
  tables _ := { flow5tuple := fun _ => none, ipv4Lpm := fun _ => some (.ipv4Forward 0 1) }
  links i _ := some (!i, 1)
  links_data i port j port' h := by
    cases h
    decide

/-- A packet that enters at one of them with TTL 1. -/
def enteringPacket : Arrival Bool where
  switch := false
  packet :=
    { keys := { value := fun _ => 0, value_lt := fun _ => Nat.two_pow_pos _ }
      ttl := 1
      srcMac := 0
      dstMac := 0 }

theorem loopedFabric_outlives_ttl :
    ¬ ∀ (f : Fabric Bool) (a : Arrival Bool) (n : Nat), f.forwards n a ≤ a.packet.ttl.toNat := by
  intro h
  have hfour := h loopedFabric enteringPacket 4
  have hmany : loopedFabric.forwards 4 enteringPacket = 4 := by decide +kernel
  rw [hmany] at hfour
  exact absurd hfour (by decide)

end Ndtwin.Spec

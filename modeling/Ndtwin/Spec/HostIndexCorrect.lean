import Mathlib.Data.List.Find
import Mathlib.Data.List.TakeWhile
import Ndtwin.ForStd.Run
import Ndtwin.Router.HostNet

/-!
# The index by address

`find_host_by_ip` answers from an index that it makes again for another graph or another number
of nodes. A list of addresses that changes in place is not seen, so the answers are those of the
linear scan exactly as long as no such change matters to the index in use.

## Key results

- `lookup_buildIndex`: a new index answers like the scan
- `scan_eq_iff`: which change of a list the scan shows
- `find_host_by_ip_iff`: which runs keep the answers of the index right
-/

namespace Ndtwin.Router

namespace HostNet

variable {net net' : HostNet}

theorem lookup_setdefaults (index : AssocMap String RouterNode) (v : RouterNode)
    (ips : List String) (ip : String) :
    (ips.foldl (fun index ip => if ip ∈ index then index else index.insert ip v) index).lookup ip =
      (index.lookup ip).or (if ip ∈ ips then some v else none) := by
  induction ips generalizing index with
  | nil => simp
  | cons ip' ips ih =>
    rw [List.foldl_cons, ih]
    by_cases hmem : ip' ∈ index
    · rw [if_pos hmem]
      by_cases heq : ip = ip'
      · subst heq
        obtain ⟨w, hw⟩ := AssocMap.exists_of_mem hmem
        rw [hw, Option.some_or, Option.some_or]
      · simp [heq]
    · rw [if_neg hmem, AssocMap.lookup_insert_eq]
      by_cases heq : ip = ip'
      · subst heq
        rw [AList.lookup_eq_none.mpr hmem]
        simp
      · simp [heq]

/-- A new index answers like the scan. -/
theorem lookup_buildIndex (net : HostNet) (ip : String) :
    net.buildIndex.lookup ip = net.scan ip := by
  have hfold : ∀ (nodes : List RouterNode) (index : AssocMap String RouterNode),
      (nodes.foldl (fun index v => (net.ipList v).foldl
        (fun index ip => if ip ∈ index then index else index.insert ip v) index) index).lookup ip =
        (index.lookup ip).or (nodes.find? fun v => ip ∈ net.ipList v) := by
    intro nodes
    induction nodes with
    | nil => intro index; simp
    | cons v nodes ih =>
      intro index
      rw [List.foldl_cons, ih, lookup_setdefaults, Option.or_assoc, List.find?_cons]
      by_cases hmem : ip ∈ net.ipList v
      · simp [hmem]
      · simp [hmem]
  rw [buildIndex, hfold, scan]
  rfl

/-- A node before `v` has the address. -/
def OwnedBefore (net : HostNet) (v : RouterNode) (ip : String) : Prop :=
  ∃ w ∈ net.nodes.takeWhile (· ≠ v), ip ∈ net.ipList w

/-- The list of one node has other addresses, and nothing else matters to a scan. -/
structure Relists (net net' : HostNet) (v : RouterNode) (ips : List String) : Prop where
  mem : v ∈ net.nodes
  nodes : net'.nodes = net.nodes
  list : ∀ ip, ip ∈ net'.ipList v ↔ ip ∈ ips
  others : ∀ w, w ≠ v → net'.ipList w = net.ipList w

/-- The scan shows a change of a list, unless an earlier node has the address. -/
theorem scan_eq_iff {v : RouterNode} {ips : List String} (h : Relists net net' v ips)
    (ip : String) :
    net'.scan ip = net.scan ip ↔ (ip ∈ net.ipList v ↔ ip ∈ ips) ∨ net.OwnedBefore v ip := by
  obtain ⟨post, hsplit⟩ : ∃ post, net.nodes = net.nodes.takeWhile (· ≠ v) ++ v :: post := by
    cases hdrop : net.nodes.dropWhile (· ≠ v) with
    | nil =>
      have hall := List.dropWhile_eq_nil_iff.mp hdrop v h.mem
      simp at hall
    | cons w post =>
      have hw : w = v := by
        have hhead := List.head?_dropWhile_not (· ≠ v) net.nodes
        rw [hdrop] at hhead
        simpa using hhead
      refine ⟨post, ?_⟩
      rw [← hw, ← hdrop, hw, List.takeWhile_append_dropWhile]
  have hbefore : ∀ w ∈ net.nodes.takeWhile (· ≠ v), w ≠ v := fun w hw => by
    simpa using List.mem_takeWhile_imp hw
  have hscan : ∀ m : HostNet, m.nodes = net.nodes → m.scan ip =
      ((net.nodes.takeWhile (· ≠ v)).find? fun w => ip ∈ m.ipList w).or
        (if ip ∈ m.ipList v then some v else post.find? fun w => ip ∈ m.ipList w) := by
    intro m hm
    rw [scan, hm]
    conv_lhs => rw [hsplit]
    rw [List.find?_append, List.find?_cons]
    by_cases hmem : ip ∈ m.ipList v
    · simp [hmem]
    · simp [hmem]
  have hsame : (net.nodes.takeWhile (· ≠ v)).find? (fun w => ip ∈ net'.ipList w) =
      (net.nodes.takeWhile (· ≠ v)).find? (fun w => ip ∈ net.ipList w) :=
    List.find?_congr fun w hw => by rw [h.others w (hbefore w hw)]
  rw [hscan net' h.nodes, hscan net rfl, hsame]
  cases hfind : (net.nodes.takeWhile (· ≠ v)).find? (fun w => ip ∈ net.ipList w) with
  | some w =>
    have howned : net.OwnedBefore v ip :=
      ⟨w, List.mem_of_find?_eq_some hfind, by simpa using List.find?_some hfind⟩
    simp [howned]
  | none =>
    have hnot : ¬net.OwnedBefore v ip := by
      rintro ⟨w, hw, hip⟩
      exact absurd hip (by simpa using List.find?_eq_none.mp hfind w hw)
    -- what is found behind `v` is not `v` when `v` does not have the address
    have hpost : ∀ m : HostNet, ip ∉ m.ipList v →
        (post.find? fun w => decide (ip ∈ m.ipList w)) ≠ some v := by
      intro m hm hsome
      exact hm (by simpa using List.find?_some hsome)
    simp only [Option.none_or, hnot, or_false, h.list]
    by_cases hold : ip ∈ net.ipList v
    · by_cases hnew : ip ∈ ips
      · simp [hold, hnew]
      · have hnew' : ip ∉ net'.ipList v := fun hmem => hnew ((h.list ip).mp hmem)
        simp [hold, hnew, hpost net' hnew']
    · by_cases hnew : ip ∈ ips
      · simp [hold, hnew, (hpost net hold).symm]
      · have hrest : (post.find? fun w => decide (ip ∈ net'.ipList w)) =
            post.find? fun w => decide (ip ∈ net.ipList w) := by
          refine List.find?_congr fun w _ => ?_
          by_cases hw : w = v
          · subst hw
            simp [hold, hnew, h.list]
          · rw [h.others w hw]
        simp [hold, hnew, hrest]

end HostNet

namespace RouterNets

/-! ## Steps -/

variable {s : RouterNets} {e : NetEvent} {id : NetId} {v : RouterNode} {ips : List String}

/-- The index is for the graph as it is, as far as the token tells. -/
def Current (s : RouterNets) (id : NetId) : Prop :=
  s.hostIp.token = some (id, (s.net id).nodes.length)

/-- Every look-up would be answered like a scan. -/
def Answers (s : RouterNets) : Prop :=
  ∀ id ip, (s.hostIp.findHostByIp id (s.net id) ip).1 = (s.net id).scan ip

/-- The list that a step writes to a node that is there. -/
def relisted (s : RouterNets) : NetEvent → Option (NetId × RouterNode × List String)
  | .addHost id v ips => if v ∈ (s.net id).nodes then some (id, v, ips) else none
  | .packetIn p =>
    match p.learned with
    | none => none
    | some (hostId, ipSrc) =>
      if s.isDynamicallyDetectTopo ∧ hostId ∈ s.dynamicNet.nodes ∧
          hostId ∈ s.dynamicNet.ipLists then
        some (.dynamic, hostId, s.dynamicNet.ipList hostId ++ [ipSrc])
      else none
  | _ => none

/-- A step that writes a list to a node, and adds no node, finds the index not current, or
    changes the list only by addresses that an earlier node has. -/
def KeepsIndex (s : RouterNets) (e : NetEvent) : Prop :=
  ∀ id v ips, s.relisted e = some (id, v, ips) → s.Current id →
    ((s.step e).net id).nodes = (s.net id).nodes →
    ∀ ip, (ip ∈ (s.net id).ipList v ↔ ip ∈ ips) ∨ (s.net id).OwnedBefore v ip

theorem findHostByIp_fst (r : HostIpIndex) (id : NetId) (net : HostNet) (ip : String) :
    (r.findHostByIp id net ip).1 =
      if r.token = some (id, net.nodes.length) then r.index.lookup ip else net.scan ip := by
  rw [HostIpIndex.findHostByIp, HostIpIndex.refresh]
  by_cases htoken : r.token = some (id, net.nodes.length)
  · rw [if_pos htoken, if_pos htoken]
  · rw [if_neg htoken, if_neg htoken]
    exact net.lookup_buildIndex ip

@[simp] theorem net_update (s : RouterNets) (id id' : NetId) (f : HostNet → HostNet) :
    (s.update id f).net id' = if id' = id then f (s.net id) else s.net id' := by
  cases id <;> cases id' <;> rfl

@[simp] theorem hostIp_update (s : RouterNets) (id : NetId) (f : HostNet → HostNet) :
    (s.update id f).hostIp = s.hostIp := by
  cases id <;> rfl

/-- Only a look-up touches the index. -/
theorem hostIp_step (s : RouterNets) (e : NetEvent) (h : ∀ id ip, e ≠ .lookup id ip) :
    (s.step e).hostIp = s.hostIp := by
  cases e with
  | lookup id ip => exact absurd rfl (h id ip)
  | packetIn p =>
    rw [step, packetInHandler]
    split
    · rfl
    · split
      · split <;> rfl
      · rfl
  | _ => simp [step]

theorem nodes_prefix_linkOnce (net : HostNet) (u v : RouterNode) (port : Int) :
    net.nodes <+: (linkOnce net u v port).nodes := by
  unfold linkOnce
  split
  · exact List.prefix_rfl
  · exact net.toDiGraph.nodes_prefix_addEdge u v port

theorem ipLists_linkOnce (net : HostNet) (u v : RouterNode) (port : Int) :
    (linkOnce net u v port).ipLists = net.ipLists := by
  unfold linkOnce
  split <;> rfl

theorem nodes_appendIp (net : HostNet) (v : RouterNode) (ipSrc : String) (l : List String) :
    (net.appendIp v ipSrc l).nodes = net.nodes := by
  unfold HostNet.appendIp
  split <;> rfl

theorem mem_ipList_appendIp {net : HostNet} {l : List String} (h : net.ipLists.lookup v = some l)
    {ipSrc ip : String} : ip ∈ (net.appendIp v ipSrc l).ipList v ↔ ip ∈ l ++ [ipSrc] := by
  rw [HostNet.appendIp]
  split
  · next hip =>
    rw [HostNet.ipList, h, Option.getD_some, List.mem_append, List.mem_singleton]
    exact ⟨Or.inl, fun hor => hor.elim (fun hmem => hmem) fun heq => heq ▸ hip⟩
  · rw [HostNet.ipList, HostNet.setIpList, AssocMap.lookup_insert_eq, if_pos rfl, Option.getD_some]

theorem ipList_appendIp_of_ne (net : HostNet) (ipSrc : String) (l : List String) {w : RouterNode}
    (hw : w ≠ v) : (net.appendIp v ipSrc l).ipList w = net.ipList w := by
  rw [HostNet.appendIp]
  split
  · rfl
  · rw [HostNet.ipList, HostNet.setIpList, AssocMap.lookup_insert_eq, if_neg hw, HostNet.ipList]

/-- The host is new, or its list is the old one with the address, or it has no list. -/
theorem learn_cases (net : HostNet) (dpid inPort : Int) (hostId : RouterNode) (ipSrc : String) :
    (hostId ∉ net.nodes ∧ ∃ net', learn net dpid inPort hostId ipSrc = some net' ∧
      net.nodes ++ [hostId] <+: net'.nodes) ∨
    (hostId ∈ net.nodes ∧ hostId ∉ net.ipLists ∧ learn net dpid inPort hostId ipSrc = none) ∨
    (hostId ∈ net.nodes ∧ hostId ∈ net.ipLists ∧
      ∃ net', learn net dpid inPort hostId ipSrc = some net' ∧ net.nodes <+: net'.nodes ∧
        (∀ ip, ip ∈ net'.ipList hostId ↔ ip ∈ net.ipList hostId ++ [ipSrc]) ∧
        ∀ w, w ≠ hostId → net'.ipList w = net.ipList w) := by
  have hlinks : ∀ m : HostNet, m.nodes <+:
      (linkOnce (linkOnce m (.dpid dpid) hostId inPort) hostId (.dpid dpid) 0).nodes := fun m =>
    (nodes_prefix_linkOnce m _ _ _).trans (nodes_prefix_linkOnce _ _ _ _)
  have hlists : ∀ m : HostNet,
      (linkOnce (linkOnce m (.dpid dpid) hostId inPort) hostId (.dpid dpid) 0).ipLists =
        m.ipLists := fun m => by rw [ipLists_linkOnce, ipLists_linkOnce]
  by_cases hmem : hostId ∈ net.nodes
  · right
    -- A host that is there has no list when a link brought its node in.
    by_cases hlist : hostId ∈ net.ipLists
    · right
      obtain ⟨l, hl⟩ := AssocMap.exists_of_mem hlist
      have hold : net.ipList hostId = l := by rw [HostNet.ipList, hl, Option.getD_some]
      refine ⟨hmem, hlist, _, by rw [learn, if_pos hmem, hl]; rfl, ?_, ?_, ?_⟩
      · rw [← nodes_appendIp net hostId ipSrc l]
        exact hlinks _
      · intro ip
        rw [HostNet.ipList, hlists, hold, ← HostNet.ipList, mem_ipList_appendIp hl]
      · intro w hw
        rw [HostNet.ipList, hlists, ← HostNet.ipList, ipList_appendIp_of_ne net ipSrc l hw]
    · left
      refine ⟨hmem, hlist, ?_⟩
      rw [learn, if_pos hmem, AList.lookup_eq_none.mpr hlist]
      rfl
  · left
    refine ⟨hmem, _, by rw [learn, if_neg hmem]; rfl, ?_⟩
    have hnew : (net.addHost hostId [ipSrc]).nodes = net.nodes ++ [hostId] :=
      DiGraph.nodes_addNode_of_not_mem hmem
    rw [← hnew]
    exact hlinks _

/-- Nodes are added behind the others. -/
theorem nodes_prefix_step (s : RouterNets) (e : NetEvent) (id : NetId) :
    (s.net id).nodes <+: ((s.step e).net id).nodes := by
  cases e with
  | addNode id' v =>
    rw [step, net_update]
    split
    · next heq => exact heq ▸ (s.net id').toDiGraph.nodes_prefix_addNode v
    · exact List.prefix_rfl
  | addHost id' v ips =>
    rw [step, net_update]
    split
    · next heq => exact heq ▸ (s.net id').toDiGraph.nodes_prefix_addNode v
    · exact List.prefix_rfl
  | addEdge id' u v port =>
    rw [step, net_update]
    split
    · next heq => exact heq ▸ (s.net id').toDiGraph.nodes_prefix_addEdge u v port
    · exact List.prefix_rfl
  | removeEdge id' u v =>
    rw [step, net_update]
    split
    · next heq => exact heq ▸ List.prefix_rfl
    · exact List.prefix_rfl
  | fallBackToDynamic => cases id <;> exact List.prefix_rfl
  | lookup _ _ => cases id <;> exact List.prefix_rfl
  | packetIn p =>
    rw [step, packetInHandler]
    split
    · exact List.prefix_rfl
    · next hostId ipSrc _ =>
      -- Only a dynamic topology learns, so the static one is left as it is.
      split
      · rcases learn_cases s.dynamicNet p.dpid p.inPort hostId ipSrc with
          ⟨_, net', hlearn, hpre⟩ | ⟨_, _, hlearn⟩ | ⟨_, _, net', hlearn, hpre, _⟩
        · rw [hlearn]
          cases id with
          | static => exact List.prefix_rfl
          | dynamic => exact (List.prefix_append _ _).trans hpre
        · rw [hlearn]
        · rw [hlearn]
          cases id with
          | static => exact List.prefix_rfl
          | dynamic => exact hpre
      · exact List.prefix_rfl

/-- What a step does that writes a list to a node that is there. -/
theorem relists_of_relisted (h : s.relisted e = some (id, v, ips))
    (hnodes : ((s.step e).net id).nodes = (s.net id).nodes) :
    HostNet.Relists (s.net id) ((s.step e).net id) v ips := by
  cases e with
  | addHost id' v' ips' =>
    simp only [relisted, Option.ite_none_right_eq_some, Option.some.injEq, Prod.mk.injEq] at h
    obtain ⟨hmem, rfl, rfl, rfl⟩ := h
    have hnet : (s.step (.addHost id' v' ips')).net id' = (s.net id').addHost v' ips' := by
      rw [step, net_update, if_pos rfl]
    have hlist : ∀ w, ((s.net id').addHost v' ips').ipList w =
        if w = v' then ips' else (s.net id').ipList w := by
      intro w
      rw [HostNet.ipList, HostNet.addHost, HostNet.setIpList, AssocMap.lookup_insert_eq]
      split <;> rfl
    -- `add_node` with a list replaces the list of a node that is there.
    refine ⟨hmem, hnodes, fun ip => ?_, fun w hw => ?_⟩
    · rw [hnet, hlist, if_pos rfl]
    · rw [hnet, hlist, if_neg hw]
  -- A packet lists its address only behind a list that is there.
  | packetIn p =>
    simp only [relisted] at h
    split at h
    · cases h
    · next hostId ipSrc hlearned =>
      simp only [Option.ite_none_right_eq_some, Option.some.injEq, Prod.mk.injEq] at h
      obtain ⟨⟨hdynamic, hmem, hlist⟩, rfl, rfl, rfl⟩ := h
      rcases learn_cases s.dynamicNet p.dpid p.inPort hostId ipSrc with
        ⟨hnew, _⟩ | ⟨_, hnone, _⟩ | ⟨_, _, net', hlearn, _, hips, hothers⟩
      · exact absurd hmem hnew
      · exact absurd hlist hnone
      · have hnet : (s.step (.packetIn p)).net .dynamic = net' := by
          rw [step, packetInHandler, hlearned]
          simp only [if_pos hdynamic, hlearn]
          rfl
        rw [hnet] at hnodes ⊢
        exact ⟨hmem, hnodes, hips, hothers⟩
  | _ => cases h

/-- A step that neither adds a node nor writes such a list leaves the lists alone. -/
theorem ipList_of_not_relisted (h : ∀ v ips, s.relisted e ≠ some (id, v, ips))
    (hnodes : ((s.step e).net id).nodes = (s.net id).nodes) (w : RouterNode) :
    ((s.step e).net id).ipList w = (s.net id).ipList w := by
  cases e with
  | addNode id' v =>
    rw [step, net_update]
    split
    · next heq => rw [heq]; rfl
    · rfl
  | addHost id' v ips =>
    rw [step, net_update] at hnodes ⊢
    split at hnodes
    · next heq =>
      subst heq
      by_cases hmem : v ∈ (s.net id).nodes
      · -- A node that is there would be listed again, and one that is not would be added.
        exact absurd (by rw [relisted, if_pos hmem]) (h v ips)
      · have hnew : ((s.net id).addHost v ips).nodes = (s.net id).nodes ++ [v] :=
          DiGraph.nodes_addNode_of_not_mem hmem
        rw [hnew] at hnodes
        exact absurd (List.append_right_eq_self.mp hnodes) (List.cons_ne_nil v [])
    · next hne => rw [if_neg hne]
  | addEdge id' u v port =>
    rw [step, net_update]
    split
    · next heq => rw [heq]; rfl
    · rfl
  | removeEdge id' u v =>
    rw [step, net_update]
    split
    · next heq => rw [heq]; rfl
    · rfl
  | fallBackToDynamic => cases id <;> rfl
  | lookup _ _ => cases id <;> rfl
  | packetIn p =>
    cases hlearned : p.learned with
    | none => rw [step, packetInHandler, hlearned]
    | some found =>
      obtain ⟨hostId, ipSrc⟩ := found
      by_cases hdynamic : s.isDynamicallyDetectTopo = true
      · have hsome : ∀ net', learn s.dynamicNet p.dpid p.inPort hostId ipSrc = some net' →
            s.step (.packetIn p) = { s with dynamicNet := net' } := by
          intro net' hlearn
          rw [step, packetInHandler, hlearned]
          simp only [if_pos hdynamic, hlearn]
        have hnone : learn s.dynamicNet p.dpid p.inPort hostId ipSrc = none →
            s.step (.packetIn p) = s := by
          intro hlearn
          rw [step, packetInHandler, hlearned]
          simp only [if_pos hdynamic, hlearn]
        rcases learn_cases s.dynamicNet p.dpid p.inPort hostId ipSrc with
          ⟨_, net', hlearn, hpre⟩ | ⟨_, _, hlearn⟩ | ⟨hmem, hlist, net', hlearn, _⟩
        · rw [hsome net' hlearn] at hnodes ⊢
          cases id with
          | static => rfl
          | dynamic =>
            -- A new host is one node more.
            have hsame : net'.nodes = s.dynamicNet.nodes := hnodes
            have hlen := hpre.length_le
            rw [hsame, List.length_append, List.length_singleton] at hlen
            omega
        · rw [hnone hlearn]
        · rw [hsome net' hlearn]
          cases id with
          | static => rfl
          | dynamic =>
            refine absurd ?_ (h hostId (s.dynamicNet.ipList hostId ++ [ipSrc]))
            rw [relisted, hlearned]
            exact if_pos ⟨hdynamic, hmem, hlist⟩
      · rw [step, packetInHandler, hlearned]
        simp only [if_neg hdynamic]

theorem scan_congr {net net' : HostNet} (hnodes : net'.nodes = net.nodes)
    (hlists : ∀ w, net'.ipList w = net.ipList w) (ip : String) : net'.scan ip = net.scan ip := by
  rw [HostNet.scan, hnodes]
  exact List.find?_congr fun w _ => by rw [hlists]

/-! ## Runs -/

/-- The token is not ahead of its graph, and an index whose token is up to date is right. -/
def Inv (s : RouterNets) : Prop :=
  ∀ id n, s.hostIp.token = some (id, n) → n ≤ (s.net id).nodes.length ∧
    (n = (s.net id).nodes.length → ∀ ip, s.hostIp.index.lookup ip = (s.net id).scan ip)

theorem Inv.answers (h : s.Inv) : s.Answers := by
  intro id ip
  rw [findHostByIp_fst]
  split
  · next htoken => exact (h id _ htoken).2 rfl ip
  · rfl

/-- A look-up leaves an index that is right. -/
theorem Inv.refresh (h : s.Inv) (id : NetId) :
    Inv { s with hostIp := s.hostIp.refresh id (s.net id) } := by
  intro id' n htoken
  have hnet : ∀ r : HostIpIndex, ({ s with hostIp := r } : RouterNets).net id' = s.net id' := by
    intro r
    cases id' <;> rfl
  rw [hnet]
  by_cases hcurrent : s.hostIp.token = some (id, (s.net id).nodes.length)
  · rw [HostIpIndex.refresh, if_pos hcurrent] at htoken ⊢
    exact h id' n htoken
  · rw [HostIpIndex.refresh, if_neg hcurrent] at htoken ⊢
    obtain ⟨rfl, rfl⟩ := Prod.mk.inj (Option.some.inj htoken)
    exact ⟨le_rfl, fun _ ip => (s.net id).lookup_buildIndex ip⟩

/-- What a step does to the scan of a graph whose index is current. -/
theorem scan_step (hkeeps : s.KeepsIndex e) (hcurrent : s.Current id)
    (hnodes : ((s.step e).net id).nodes = (s.net id).nodes) (ip : String) :
    ((s.step e).net id).scan ip = (s.net id).scan ip := by
  by_cases hrelisted : ∃ v ips, s.relisted e = some (id, v, ips)
  · obtain ⟨v, ips, hrelisted⟩ := hrelisted
    rw [HostNet.scan_eq_iff (relists_of_relisted hrelisted hnodes)]
    exact hkeeps id v ips hrelisted hcurrent hnodes ip
  · have hnot : ∀ v ips, s.relisted e ≠ some (id, v, ips) := fun v ips heq =>
      hrelisted ⟨v, ips, heq⟩
    exact scan_congr hnodes (ipList_of_not_relisted hnot hnodes) ip

theorem Inv.step (h : s.Inv) (hkeeps : s.KeepsIndex e) : (s.step e).Inv := by
  by_cases hlookup : ∃ id ip, e = .lookup id ip
  · obtain ⟨id, ip, rfl⟩ := hlookup
    exact h.refresh id
  · intro id n htoken
    rw [hostIp_step s e fun id ip heq => hlookup ⟨id, ip, heq⟩] at htoken ⊢
    obtain ⟨hle, hright⟩ := h id n htoken
    have hpre := nodes_prefix_step s e id
    refine ⟨hle.trans hpre.length_le, fun hn ip => ?_⟩
    -- the token was up to date before the step, and no node was added
    have hlen : (s.net id).nodes.length = ((s.step e).net id).nodes.length :=
      Nat.le_antisymm hpre.length_le (hn ▸ hle)
    have hnodes : ((s.step e).net id).nodes = (s.net id).nodes := (hpre.eq_of_length hlen).symm
    obtain rfl : n = (s.net id).nodes.length := hn.trans hlen.symm
    rw [hright rfl ip, scan_step hkeeps htoken hnodes]

/-- After a step that changes what the scan shows, the index answers as before. -/
theorem not_answers_of_not_keepsIndex (h : s.Inv) (hnot : ¬s.KeepsIndex e) :
    ¬(s.step e).Answers := by
  simp only [KeepsIndex, not_forall] at hnot
  obtain ⟨id, v, ips, hrelisted, hcurrent, hnodes, ip, hchange⟩ := hnot
  intro hanswers
  have hlookup : ∀ id ip, e ≠ .lookup id ip := by
    rintro id ip rfl
    cases hrelisted
  have htoken : s.hostIp.token = some (id, (s.net id).nodes.length) := hcurrent
  have hanswer := hanswers id ip
  rw [findHostByIp_fst, hostIp_step s e hlookup, hnodes, if_pos htoken,
    (h id _ htoken).2 rfl ip] at hanswer
  rw [← HostNet.scan_eq_iff (relists_of_relisted hrelisted hnodes)] at hchange
  exact hchange hanswer.symm

/-- Through a run from the start, `find_host_by_ip` would answer like the scan at every moment,
    exactly when no step writes a list of addresses behind the back of the index. -/
theorem find_host_by_ip_iff (events : List NetEvent) :
    (∀ pre, pre <+: events → (GuardedRun.run step {} pre).Answers) ↔
      GuardedRun.Guarded step KeepsIndex {} events := by
  refine GuardedRun.forall_prefix_iff_guarded Inv (fun s e h _ hok => h.step hok)
    (fun s h => h.answers) (fun s e h _ hnot => not_answers_of_not_keepsIndex h hnot) ?_
    (GuardedRun.guarded_true step {} events)
  rintro id n ⟨⟩

/-! ## A second address -/

/-- A host pings from an address. -/
def pingFrom (ipSrc : String) : NetEvent :=
  .packetIn { dpid := 1, inPort := 3, ethSrc := "00:00:00:00:00:01", ethertype := ethTypeIp,
              ipv4 := some (ipSrc, "10.0.0.9"), icmp := true }

/-- A host is found by its address, then pings from a second one. -/
def secondAddress : List NetEvent :=
  [.fallBackToDynamic, pingFrom "10.0.0.1", .lookup .dynamic "10.0.0.1", pingFrom "10.0.0.2"]

/-- The index does not know the second address. -/
theorem secondAddress_not_found :
    ¬∀ pre, pre <+: secondAddress → (GuardedRun.run step {} pre).Answers := by
  intro h
  have hanswer := h secondAddress List.prefix_rfl .dynamic "10.0.0.2"
  exact absurd hanswer (by decide)

end RouterNets

end Ndtwin.Router

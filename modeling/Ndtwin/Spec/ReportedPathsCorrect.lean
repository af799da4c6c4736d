import Ndtwin.ForStd.List
import Ndtwin.Spec.AllPairWalkCorrect

/-!
# The rules behind the reported paths

Every hop of a reported path is meant to be a rule that the walk sent. A switch that is not
connected is sent nothing, but it is in `parent_hash` by then. Only the switch of the destination
can be such a one, and the only path that passes it comes from another address at this switch.

## Key results

- `rule_of_hop`: the hops whose rules were sent
- `reported_hops_sent_iff`: when this is every hop of every path
-/

namespace Ndtwin.Router

namespace WalkEnv

variable {env : WalkEnv} {dstIp : String} {host dstSwitch : RouterNode} {port : Int}
  {b : Bfs.State RouterNode}

/-- A path for an address, all of whose hops at switches are rules that were sent. -/
def HopsSent (rules : List SentRule) (path : ReportedPath) : Prop :=
  ∃ dstIp, path.getLast? = some (.ip dstIp, 0) ∧
    ∀ d port, (.node (.dpid d), port) ∈ path → (⟨d, dstIp, port⟩ : SentRule) ∈ rules

/-- Two addresses that hang at one switch hang at a connected one. -/
def SharedConnected (env : WalkEnv) : Prop :=
  ∀ dstIp ∈ env.net.allHostsIpList, ∀ srcIp ∈ env.net.allHostsIpList, srcIp ≠ dstIp →
    ∀ d, (∃ host port, env.HangsAt dstIp host (.dpid d) port) →
      (∃ host port, env.HangsAt srcIp host (.dpid d) port) → d ∈ env.switches

/-- A search that got to a second switch started at a connected one. -/
theorem Ended.isSwitch_root (h : env.Ended dstIp dstSwitch b) {v : RouterNode} (hv : v ∈ b.done)
    (hne : v ≠ dstSwitch) : env.isSwitch dstSwitch = true := by
  obtain ⟨n, hreaches⟩ := (h.inv.done_iff h.queue).mp hv
  clear hv
  induction hreaches with
  | root => exact absurd rfl hne
  | @step n u w _ hw ih =>
    by_cases hu : u = dstSwitch
    · exact hu ▸ (mem_linked.mp hw).1
    · exact ih hu

/-- The rule of a visited switch that is connected. -/
theorem Ended.rule_mem (h : env.Ended dstIp dstSwitch b)
    (hhangs : env.HangsAt dstIp host dstSwitch port) {d : Int} (hd : .dpid d ∈ b.done)
    (hconnected : d ∈ env.switches) :
    (⟨d, dstIp, (env.portOf host (.dpid d) (b.parent (.dpid d))).getD 0⟩ : SentRule) ∈
      b.done.filterMap fun v => env.ruleOf dstIp host v (b.parent v) := by
  obtain ⟨port', hport'⟩ := h.portOf hhangs.port hd
  refine List.mem_filterMap.mpr ⟨.dpid d, hd, ?_⟩
  rw [ruleOf, datapath_eq_some.mpr ⟨rfl, hconnected⟩, hport']
  rfl

/-- A hop at a switch is a rule that was sent, unless the switch is the one of the destination,
    not connected, and the one of the source too. -/
theorem Ended.rule_of_hop (h : env.Ended dstIp dstSwitch b)
    (hhangs : env.HangsAt dstIp host dstSwitch port) {v : RouterNode} (hv : v ∈ b.done)
    {d port' : Int}
    (hhop : (.node (.dpid d), port') ∈ env.pathOf dstIp host dstSwitch b v)
    (hconnected : v = .dpid d → dstSwitch = .dpid d → d ∈ env.switches) :
    (⟨d, dstIp, port'⟩ : SentRule) ∈
      b.done.filterMap fun v => env.ruleOf dstIp host v (b.parent v) := by
  rcases mem_pathOf.mp hhop with ⟨u, hu, heq⟩ | heq
  · obtain ⟨hnode, rfl⟩ := Prod.mk.inj heq
    obtain rfl : .dpid d = u := PathNode.node.inj hnode
    have hdone : .dpid d ∈ b.done := h.mem_of_route (h.route hv).1 _ hu
    refine h.rule_mem hhangs hdone ?_
    have hswitch : ∀ w : RouterNode, w = .dpid d → env.isSwitch w = true → d ∈ env.switches := by
      rintro w rfl hw
      simpa [isSwitch] using hw
    -- The destination switch has no parent: it is one the walk came through, or the source itself.
    by_cases hroot : dstSwitch = .dpid d
    · by_cases hsame : v = dstSwitch
      · exact hconnected (hsame.trans hroot) hroot
      · exact hswitch dstSwitch hroot (h.isSwitch_root hv hsame)
    · have hparent : ∃ w, b.parent (.dpid d) = some w := by
        rw [← Option.ne_none_iff_exists']
        intro hnone
        exact hroot (h.eq_root hdone hnone).symm
      obtain ⟨w, hw⟩ := hparent
      exact hswitch _ rfl (h.parent hdone hw).2.1
  · cases heq

/-- Only connected switches are sent rules. -/
theorem connected_of_rule {parts : List (List ReportedPath × List SentRule)}
    (hparts : List.Forall₂ env.IsPart env.net.allHostsIpList parts) {rule : SentRule}
    (hrule : rule ∈ parts.flatMap Prod.snd) : rule.dpid ∈ env.switches := by
  obtain ⟨part, hpart, hrule⟩ := List.mem_flatMap.mp hrule
  obtain ⟨_, _, _, _, _, _, _, _, _, hsent⟩ := List.exists_left_of_forall₂ hparts hpart
  rw [hsent, List.mem_filterMap] at hrule
  obtain ⟨v, _, hrule⟩ := hrule
  obtain ⟨d, hd, hport⟩ := Option.bind_eq_some_iff.mp hrule
  obtain ⟨port, _, rfl⟩ := Option.map_eq_some_iff.mp hport
  exact (datapath_eq_some.mp hd).2

/-- The paths of one address, when no other address shares its switch. -/
theorem hopsSent_of_part {part : List ReportedPath × List SentRule} (hattached : env.Attached)
    (hshared : env.SharedConnected) (hdst : dstIp ∈ env.net.allHostsIpList)
    (hpart : env.IsPart dstIp part) {rules : List SentRule} (hsub : part.2 ⊆ rules) :
    ∀ path ∈ part.1, HopsSent rules path := by
  obtain ⟨host, dstSwitch, port, b, hhangs, h, hpaths, hrules⟩ := hpart
  intro path hpath
  rw [hpaths, List.mem_flatMap] at hpath
  obtain ⟨v, hv, hpath⟩ := hpath
  obtain ⟨srcIp, hsrc, hne, srcHost, srcPort, hsrcHangs, rfl⟩ := (mem_reportsAt hattached).mp hpath
  refine ⟨dstIp, getLast?_cons_pathOf _ v, fun d port' hmem => hsub ?_⟩
  rw [hrules]
  rcases List.mem_cons.mp hmem with heq | hmem
  · cases heq
  · refine h.rule_of_hop hhangs hv hmem ?_
    rintro rfl rfl
    exact hshared dstIp hdst srcIp hsrc hne d ⟨_, _, hhangs⟩ ⟨_, _, hsrcHangs⟩

/-- The path between two addresses at one switch. -/
theorem exists_path_of_shared {parts : List (List ReportedPath × List SentRule)}
    (hattached : env.Attached)
    (hparts : List.Forall₂ env.IsPart env.net.allHostsIpList parts)
    (hdst : dstIp ∈ env.net.allHostsIpList) (hhangs : env.HangsAt dstIp host dstSwitch port)
    {srcIp : String} (hsrc : srcIp ∈ env.net.allHostsIpList) (hne : srcIp ≠ dstIp)
    {srcHost : RouterNode} {srcPort : Int}
    (hsrcHangs : env.HangsAt srcIp srcHost dstSwitch srcPort) :
    ∃ path ∈ parts.flatMap Prod.fst, (.node dstSwitch, port) ∈ path := by
  obtain ⟨part, hmem, host', dstSwitch', port', b, hhangs', h, hpaths, _⟩ :=
    List.exists_right_of_forall₂ hparts hdst
  obtain ⟨rfl, rfl, rfl⟩ := hhangs.unique hhangs'
  have hroot : dstSwitch' ∈ b.done := h.seen_eq ▸ h.inv.root_seen
  have hreport : (.ip srcIp, srcPort) :: env.pathOf dstIp host' dstSwitch' b dstSwitch' ∈
      env.reportsAt dstIp host' dstSwitch' b dstSwitch' :=
    (mem_reportsAt hattached).mpr ⟨srcIp, hsrc, hne, srcHost, srcPort, hsrcHangs, rfl⟩
  have hmem' : (.ip srcIp, srcPort) :: env.pathOf dstIp host' dstSwitch' b dstSwitch' ∈ part.1 := by
    rw [hpaths]
    exact List.mem_flatMap.mpr ⟨dstSwitch', hroot, hreport⟩
  have hhop : (.node dstSwitch', port') ∈ env.pathOf dstIp host' dstSwitch' b dstSwitch' := by
    refine mem_pathOf.mpr (.inl ⟨dstSwitch', (h.route hroot).1.target_mem, ?_⟩)
    rw [hopOf, h.inv.root_parent, portOf, Option.getD_none, hhangs'.port]
    rfl
  exact ⟨_, List.mem_flatMap.mpr ⟨part, hmem, hmem'⟩, List.mem_cons_of_mem _ hhop⟩

/-- Every hop of every reported path is a rule that was sent, exactly if no two addresses share
    a switch that is not connected. -/
theorem reported_hops_sent_iff (env : WalkEnv) :
    (∀ paths rules, env.installAllPairPaths [] = .ok paths rules →
      ∀ path ∈ paths, HopsSent rules path) ↔ (env.Attached → env.SharedConnected) := by
  constructor
  · rintro h hattached dstIp hdst srcIp hsrc hne d ⟨host, port, hhangs⟩ ⟨srcHost, srcPort, hsrcHangs⟩
    obtain ⟨parts, hparts, hrun⟩ := installAllPairPaths_spec hattached
    obtain ⟨path, hpath, hhop⟩ :=
      exists_path_of_shared hattached hparts hdst hhangs hsrc hne hsrcHangs
    obtain ⟨dstIp', _, hrules⟩ := h _ _ hrun path hpath
    exact connected_of_rule hparts (hrules d port hhop)
  · intro h paths rules hrun path hpath
    have hattached := attached_of_installAllPairPaths hrun
    obtain ⟨parts, hparts, hrun'⟩ := installAllPairPaths_spec hattached
    cases hrun.symm.trans hrun'
    obtain ⟨part, hpart, hpath⟩ := List.mem_flatMap.mp hpath
    obtain ⟨dstIp, hdst, his⟩ := List.exists_left_of_forall₂ hparts hpart
    refine hopsSent_of_part hattached (h hattached) hdst his (fun rule hrule => ?_) path hpath
    exact List.mem_flatMap.mpr ⟨part, hpart, hrule⟩

/-- Two hosts at one switch. -/
def twoHosts : HostNet :=
  let net : HostNet := {}
  let net := (net.addHost (.mac "a") ["10.0.0.1"]).addHost (.mac "b") ["10.0.0.2"]
  let net := (net.addEdge (.dpid 1) (.mac "a") 1).addEdge (.mac "a") (.dpid 1) 0
  (net.addEdge (.dpid 1) (.mac "b") 2).addEdge (.mac "b") (.dpid 1) 0

/-- The switch has left. -/
def twoHostsLeft : WalkEnv where
  net := twoHosts
  switches := []
  findHostByIp := twoHosts.scan
  hashDstIp _ := 0

theorem hop_not_sent_twoHostsLeft :
    ¬∀ paths rules, twoHostsLeft.installAllPairPaths [] = .ok paths rules →
      ∀ path ∈ paths, HopsSent rules path := by
  intro h
  have hrun : twoHostsLeft.installAllPairPaths [] =
      .ok [[(.ip "10.0.0.2", 2), (.node (.dpid 1), 1), (.ip "10.0.0.1", 0)],
        [(.ip "10.0.0.1", 1), (.node (.dpid 1), 2), (.ip "10.0.0.2", 0)]] [] := by
    rfl
  obtain ⟨dstIp, _, hrules⟩ := h _ _ hrun _ List.mem_cons_self
  exact List.not_mem_nil (hrules 1 1 (by decide))

end WalkEnv

end Ndtwin.Router

import Hermes.Lib.History
import Hermes.Spec.Cluster

/-!
# The leader of a cluster

* `WellLed`: the leader of a topology is one of its nodes, and there is none only
  without nodes.
* `wellLed_elected`: an election makes a topology well led.
* `wellLed_apply`: every operation keeps it.
* `keepsLeader`: no operation but an election replaces a leader that stays.
* `leader_invariant`: both, along every sequence of operations.
-/

namespace Hermes

open History

/-- The leader is a node of the topology, and there is none exactly when there is no node. -/
def ClusterTopology.WellLed (t : ClusterTopology) : Prop :=
  (t.nodes.keys = [] → t.leaderId = none) ∧
    (t.nodes.keys ≠ [] → ∃ a ∈ t.nodes.keys, t.leaderId = some a)

/-- A leader that is a node before and after the operation leads after it, unless the operation is
an election. -/
def KeepsLeader (c : ClusterManager) (op : ClusterOp) : Prop :=
  op ≠ .elect → ∀ a, c.getTopology.leaderId = some a → a ∈ (c.apply op).getTopology.nodes.keys →
    (c.apply op).getTopology.leaderId = some a

theorem ClusterTopology.wellLed_iff {t : ClusterTopology} : t.WellLed ↔
    (∀ a, t.leaderId = some a → a ∈ t.nodes.keys) ∧ (t.leaderId = none → t.nodes.keys = []) := by
  unfold WellLed
  constructor
  · rintro ⟨hempty, hsome⟩
    refine ⟨fun a ha => ?_, fun hnone => ?_⟩
    · have hne : t.nodes.keys ≠ [] := by
        intro h
        rw [hempty h] at ha
        cases ha
      obtain ⟨b, hb, hl⟩ := hsome hne
      have hab : a = b := Option.some.inj (ha.symm.trans hl)
      rwa [hab]
    · by_contra hne
      obtain ⟨b, -, hl⟩ := hsome hne
      rw [hnone] at hl
      cases hl
  · rintro ⟨hmem, hnone⟩
    refine ⟨fun hempty => ?_, fun hne => ?_⟩
    · rw [Option.eq_none_iff_forall_ne_some]
      intro a ha
      have ha' := hmem a ha
      rw [hempty] at ha'
      cases ha'
    · obtain ⟨a, ha⟩ := Option.ne_none_iff_exists'.1 fun h => hne (hnone h)
      exact ⟨a, hmem a ha, ha⟩

namespace ClusterManager

variable {c : ClusterManager}

/-! ## Elections -/

/-- **An election** makes the topology well led. -/
theorem wellLed_elected (c : ClusterManager) : c.electLeader.2.getTopology.WellLed := by
  rw [ClusterTopology.wellLed_iff]
  have hkeys : c.nodes.keys = c.nodes.values.map (·.nodeId) := Index.keys_eq _
  constructor
  · intro a ha
    obtain ⟨n, hn, rfl⟩ := Option.map_eq_some_iff.1 ha
    have hmem : n ∈ c.nodes.values := List.argmin_mem hn
    show n.nodeId ∈ c.nodes.keys
    rw [hkeys]
    exact List.mem_map_of_mem hmem
  · intro hnone
    have hvalues : c.nodes.values = [] := List.argmin_eq_none.1 (Option.map_eq_none_iff.1 hnone)
    show c.nodes.keys = []
    rw [hkeys, hvalues, List.map_nil]

/-- A leader that is still among the nodes makes a topology well led. -/
theorem wellLed_of_leader {t : ClusterTopology} {a : String} (hl : t.leaderId = some a)
    (ha : a ∈ t.nodes.keys) : t.WellLed := by
  refine ⟨fun hempty => ?_, fun _ => ⟨a, ha, hl⟩⟩
  rw [hempty] at ha
  cases ha

/-- No node is left where there was none before. -/
theorem keys_eq_nil_of_subset {x y : Index NodeInfo.nodeId}
    (hsub : ∀ k, (x.get? k).isSome → (y.get? k).isSome) (hy : y.keys = []) : x.keys = [] := by
  rw [List.eq_nil_iff_forall_not_mem]
  intro k hk
  have hk' : k ∈ y.keys := Index.mem_keys.2 (hsub k (Index.mem_keys.1 hk))
  rw [hy] at hk'
  cases hk'

/-! ## One operation -/

theorem wellLed_joinCluster (h : c.getTopology.WellLed) (nodeId address : String)
    (capabilities : List String) (now : ℚ) :
    (c.joinCluster nodeId address capabilities now).2.getTopology.WellLed := by
  unfold joinCluster
  simp only
  split
  · exact wellLed_elected _
  · rename_i hleader
    obtain ⟨a, ha⟩ := Option.ne_none_iff_exists'.1 hleader
    have hmem : a ∈ c.nodes.keys := (ClusterTopology.wellLed_iff.1 h).1 a ha
    refine wellLed_of_leader ha (Index.mem_keys.2 ?_)
    show (Index.get? (Index.put _ _) a).isSome = true
    rw [Index.get?_put]
    split
    · rfl
    · exact Index.mem_keys.1 hmem

theorem wellLed_leaveCluster (h : c.getTopology.WellLed) (nodeId reason : String) :
    (c.leaveCluster nodeId reason).2.getTopology.WellLed := by
  obtain ⟨hmem, hnone⟩ := ClusterTopology.wellLed_iff.1 h
  have hget : ∀ k, (c.nodes.erase nodeId).get? k = if k = nodeId then none else c.nodes.get? k :=
    Index.get?_erase _ _
  unfold leaveCluster
  split
  · exact h
  · simp only
    split
    · exact wellLed_elected _
    · rename_i hother
      refine ClusterTopology.wellLed_iff.2 ⟨fun a ha => Index.mem_keys.2 ?_, fun hl => ?_⟩
      · have hne : a ≠ nodeId := by
          rintro rfl
          exact hother ha
        show ((c.nodes.erase nodeId).get? a).isSome = true
        rw [hget, if_neg hne]
        exact Index.mem_keys.1 (hmem a ha)
      · refine keys_eq_nil_of_subset (fun k hk => ?_) (hnone hl)
        have hk' : ((c.nodes.erase nodeId).get? k).isSome = true := hk
        rw [hget] at hk'
        split at hk'
        · cases hk'
        · exact hk'

theorem mem_keys_heartbeat (c : ClusterManager) (nodeId : String) (now : ℚ) (k : String) :
    k ∈ (c.heartbeat nodeId now).nodes.keys ↔ k ∈ c.nodes.keys := by
  unfold heartbeat
  split
  · rfl
  · rename_i node hnode
    have hkey : node.nodeId = nodeId := Index.key_of_get? hnode
    rw [Index.mem_keys, Index.mem_keys, Index.get?_put]
    split
    · rename_i hk
      have hself : k = nodeId := hk.trans hkey
      rw [hself, hnode]
      exact iff_of_true rfl rfl
    · rfl

theorem leader_heartbeat (c : ClusterManager) (nodeId : String) (now : ℚ) :
    (c.heartbeat nodeId now).leader = c.leader := by
  unfold heartbeat
  split
  · rfl
  · rfl

theorem wellLed_heartbeat (h : c.getTopology.WellLed) (nodeId : String) (now : ℚ) :
    (c.heartbeat nodeId now).getTopology.WellLed := by
  obtain ⟨hmem, hnone⟩ := ClusterTopology.wellLed_iff.1 h
  refine ClusterTopology.wellLed_iff.2 ⟨fun a ha => ?_, fun hl => ?_⟩
  · have ha' : c.leader = some a := (leader_heartbeat c nodeId now).symm.trans ha
    exact (mem_keys_heartbeat c nodeId now a).2 (hmem a ha')
  · have hl' : c.leader = none := (leader_heartbeat c nodeId now).symm.trans hl
    refine keys_eq_nil_of_subset (fun k hk => ?_) (hnone hl')
    exact Index.mem_keys.1 ((mem_keys_heartbeat c nodeId now k).1 (Index.mem_keys.2 hk))

/-- The nodes that a prune leaves. -/
theorem get?_pruned (c : ClusterManager) (now : ℚ) (k : String) :
    (c.pruneTimedOut now).2.nodes.get? k =
      if k ∈ (c.pruneTimedOut now).1 then none else c.nodes.get? k := by
  unfold pruneTimedOut
  simp only
  split
  · exact Index.get?_foldl_erase _ _ _
  · exact Index.get?_foldl_erase _ _ _

theorem wellLed_pruneTimedOut (h : c.getTopology.WellLed) (now : ℚ) :
    (c.pruneTimedOut now).2.getTopology.WellLed := by
  obtain ⟨hmem, hnone⟩ := ClusterTopology.wellLed_iff.1 h
  have hget := get?_pruned c now
  unfold pruneTimedOut at hget ⊢
  simp only at hget ⊢
  split
  · exact wellLed_elected _
  · rename_i hstays
    rw [if_neg hstays] at hget
    refine ClusterTopology.wellLed_iff.2 ⟨fun a ha => Index.mem_keys.2 ?_, fun hl => ?_⟩
    · have hleader : c.leader = some a := ha
      rw [hleader, Option.any_some, decide_eq_true_eq] at hstays
      refine (congrArg Option.isSome (hget a)).trans ?_
      rw [if_neg hstays]
      exact Index.mem_keys.1 (hmem a hleader)
    · refine keys_eq_nil_of_subset (fun k hk => ?_) (hnone hl)
      have hk' := (congrArg Option.isSome (hget k)).symm.trans hk
      split at hk'
      · cases hk'
      · exact hk'

/-- **Every operation** keeps a cluster well led. -/
theorem wellLed_apply (h : c.getTopology.WellLed) (op : ClusterOp) :
    (c.apply op).getTopology.WellLed := by
  cases op with
  | join nodeId address capabilities now => exact wellLed_joinCluster h nodeId address capabilities now
  | leave nodeId reason => exact wellLed_leaveCluster h nodeId reason
  | heartbeat nodeId now => exact wellLed_heartbeat h nodeId now
  | prune now => exact wellLed_pruneTimedOut h now
  | elect => exact wellLed_elected c

/-- **A leader that stays** is replaced by elections only. -/
theorem keepsLeader (c : ClusterManager) (op : ClusterOp) : KeepsLeader c op := by
  intro hop a ha hstay
  have hleader : c.leader = some a := ha
  cases op with
  | join nodeId address capabilities now =>
    show (c.joinCluster nodeId address capabilities now).2.leader = some a
    unfold joinCluster
    simp only
    rw [if_neg (by rw [show c.leader = some a from ha]; exact Option.some_ne_none a)]
    exact hleader
  | leave nodeId reason =>
    have hstay' : a ∈ (c.leaveCluster nodeId reason).2.nodes.keys := hstay
    show (c.leaveCluster nodeId reason).2.leader = some a
    unfold leaveCluster at hstay' ⊢
    split
    · exact hleader
    · rename_i node hnode
      simp only [hnode] at hstay' ⊢
      split
      · -- the leader itself leaves
        rename_i hself
        rw [if_pos hself] at hstay'
        have hsome : (((c.nodes.erase nodeId)).get? a).isSome = true := Index.mem_keys.1 hstay'
        have heq : a = nodeId := Option.some.inj (hleader.symm.trans hself)
        rw [Index.get?_erase, if_pos heq] at hsome
        cases hsome
      · exact hleader
  | heartbeat nodeId now => exact (leader_heartbeat c nodeId now).trans hleader
  | prune now =>
    have hstay' : ((c.pruneTimedOut now).2.nodes.get? a).isSome = true := Index.mem_keys.1 hstay
    have hkept : a ∉ (c.pruneTimedOut now).1 := by
      intro hdropped
      rw [get?_pruned, if_pos hdropped] at hstay'
      cases hstay'
    show (c.pruneTimedOut now).2.leader = some a
    unfold pruneTimedOut at hkept ⊢
    simp only at hkept ⊢
    rw [if_neg]
    · exact hleader
    · rw [hleader, Option.any_some, decide_eq_true_eq]
      exact hkept
  | elect => exact absurd rfl hop

end ClusterManager

/-- **Leadership of a cluster.** After every operation the leader is a current node, or there is
none because there are no nodes; and it changes only by an election or when it is removed. -/
theorem leader_invariant (clusterId : String) (nodeTimeout : ℚ) (ops : List ClusterOp) :
    Throughout ClusterManager.apply (fun c => c.getTopology.WellLed) { clusterId, nodeTimeout } ops ∧
      EachStep ClusterManager.apply KeepsLeader { clusterId, nodeTimeout } ops := by
  constructor
  · refine throughout_of_invariant (fun c op h => ClusterManager.wellLed_apply h op) ops _ ?_
    exact ⟨fun _ => rfl, fun hne => absurd rfl hne⟩
  · exact eachStep_of_mem (fun c op _ => ClusterManager.keepsLeader c op) _

/-!
## Membership and its journal

* `members`: the membership that an observer reads off the emitted events.
* `journaled_apply_iff`: an operation keeps it in step with the node map exactly when
  it is no prune that drops a node.
* `membership_iff`: the sequences of operations that an observer can follow.
-/

/-- What an event says of the membership. -/
def observe (s : Finset String) : NodeEvent → Finset String
  | .joined nodeId _ _ _ => insert nodeId s
  | .left nodeId _ _ => s.erase nodeId

/-- The membership that a history of events tells. -/
def members (events : List NodeEvent) : Finset String := events.foldl observe ∅

/-- The node ids of the topology are those that the emitted events tell. -/
def Journaled (c : ClusterManager) : Prop :=
  c.getTopology.nodes.keys.toFinset = members c.events

instance (c : ClusterManager) : Decidable (Journaled c) :=
  inferInstanceAs (Decidable (_ = _))

/-- A prune finds no node that timed out. -/
def NobodyTimedOut (c : ClusterManager) : ClusterOp → Prop
  | .prune now => ∀ n ∈ c.nodes.values, ¬c.nodeTimeout < now - n.lastHeartbeat
  | _ => True

theorem members_snoc (es : List NodeEvent) (e : NodeEvent) :
    members (es ++ [e]) = observe (members es) e := by
  unfold members
  rw [List.foldl_append, List.foldl_cons, List.foldl_nil]

namespace ClusterManager

variable {c : ClusterManager}

theorem mem_members (h : Journaled c) (k : String) :
    k ∈ members c.events ↔ (c.nodes.get? k).isSome := by
  unfold Journaled at h
  rw [← h, List.mem_toFinset]
  exact Index.mem_keys

/-- The journal is in step with the nodes, look-up by look-up. -/
theorem journaled_iff : Journaled c ↔ ∀ k, (c.nodes.get? k).isSome ↔ k ∈ members c.events := by
  constructor
  · intro h k
    exact (mem_members h k).symm
  · intro h
    unfold Journaled
    ext k
    rw [List.mem_toFinset]
    exact Index.mem_keys.trans (h k)

theorem journaled_electLeader (h : Journaled c) : Journaled c.electLeader.2 := h

/-- An election, or none, before an event. -/
theorem journaled_emit {d : ClusterManager} {e : NodeEvent} {p : Prop} [Decidable p]
    (hd : ∀ k, (d.nodes.get? k).isSome ↔ k ∈ observe (members d.events) e) :
    Journaled ((if p then d.electLeader.2 else d).emit e) := by
  have hsame : ∀ {d' : ClusterManager}, d'.nodes = d.nodes → d'.events = d.events →
      Journaled (d'.emit e) := by
    intro d' hnodes hevents
    refine journaled_iff.2 fun k => ?_
    show (d'.nodes.get? k).isSome ↔ k ∈ members (d'.events ++ [e])
    rw [members_snoc, hnodes, hevents]
    exact hd k
  split
  · exact hsame rfl rfl
  · exact hsame rfl rfl

theorem journaled_joinCluster (h : Journaled c) (nodeId address : String)
    (capabilities : List String) (now : ℚ) :
    Journaled (c.joinCluster nodeId address capabilities now).2 := by
  refine journaled_emit fun k => ?_
  have hmem := mem_members h k
  show (Index.get? (Index.put _ _) k).isSome ↔ k ∈ insert nodeId (members c.events)
  rw [Index.get?_put, Finset.mem_insert, hmem]
  by_cases hk : k = nodeId
  · simp [hk]
  · simp [hk]

theorem journaled_leaveCluster (h : Journaled c) (nodeId reason : String) :
    Journaled (c.leaveCluster nodeId reason).2 := by
  unfold leaveCluster
  split
  · exact h
  · refine journaled_emit fun k => ?_
    have hmem := mem_members h k
    show (Index.get? (Index.erase _ _) k).isSome ↔ k ∈ (members c.events).erase nodeId
    rw [Index.get?_erase, Finset.mem_erase, hmem]
    by_cases hk : k = nodeId
    · simp [hk]
    · simp [hk]

theorem events_heartbeat (c : ClusterManager) (nodeId : String) (now : ℚ) :
    (c.heartbeat nodeId now).events = c.events := by
  unfold heartbeat
  split
  · rfl
  · rfl

theorem journaled_heartbeat (h : Journaled c) (nodeId : String) (now : ℚ) :
    Journaled (c.heartbeat nodeId now) := by
  refine journaled_iff.2 fun k => ?_
  rw [events_heartbeat, mem_members h k, ← Index.mem_keys, ← Index.mem_keys]
  exact mem_keys_heartbeat c nodeId now k

theorem events_pruneTimedOut (c : ClusterManager) (now : ℚ) :
    (c.pruneTimedOut now).2.events = c.events := by
  unfold pruneTimedOut
  simp only
  split
  · rfl
  · rfl

theorem mem_dropped {now : ℚ} {k : String} : k ∈ (c.pruneTimedOut now).1 ↔
    ∃ n ∈ c.nodes.values, c.nodeTimeout < now - n.lastHeartbeat ∧ n.nodeId = k := by
  show k ∈ (c.nodes.values.filter (c.timedOut now)).map (·.nodeId) ↔ _
  rw [List.mem_map]
  simp only [List.mem_filter, timedOut, decide_eq_true_eq, and_assoc]

/-- **A prune** keeps the journal in step exactly when it drops nobody: it emits nothing. -/
theorem journaled_prune_iff (h : Journaled c) (now : ℚ) :
    Journaled (c.pruneTimedOut now).2 ↔ NobodyTimedOut c (.prune now) := by
  rw [journaled_iff, events_pruneTimedOut]
  constructor
  · intro hpruned n hn hlate
    have hdropped : n.nodeId ∈ (c.pruneTimedOut now).1 := mem_dropped.2 ⟨n, hn, hlate, rfl⟩
    have hbefore : (c.nodes.get? n.nodeId).isSome = true := by
      rw [Index.mem_values.1 hn]
      rfl
    have hafter := (hpruned n.nodeId).2 ((mem_members h _).2 hbefore)
    rw [get?_pruned, if_pos hdropped] at hafter
    cases hafter
  · intro hnobody k
    have hkept : k ∉ (c.pruneTimedOut now).1 := by
      intro hk
      obtain ⟨n, hn, hlate, -⟩ := mem_dropped.1 hk
      exact hnobody n hn hlate
    rw [get?_pruned, if_neg hkept]
    exact (mem_members h k).symm

/-- **One operation** keeps the journal in step exactly when it drops nobody. -/
theorem journaled_apply_iff (h : Journaled c) (op : ClusterOp) :
    Journaled (c.apply op) ↔ NobodyTimedOut c op := by
  cases op with
  | join nodeId address capabilities now =>
    exact iff_of_true (journaled_joinCluster h nodeId address capabilities now) trivial
  | leave nodeId reason => exact iff_of_true (journaled_leaveCluster h nodeId reason) trivial
  | heartbeat nodeId now => exact iff_of_true (journaled_heartbeat h nodeId now) trivial
  | prune now => exact journaled_prune_iff h now
  | elect => exact iff_of_true (journaled_electLeader h) trivial

end ClusterManager

/-- **Membership is its event history**, after every operation, exactly when no prune finds a node
that timed out. -/
theorem membership_iff (clusterId : String) (nodeTimeout : ℚ) (ops : List ClusterOp) :
    Throughout ClusterManager.apply Journaled { clusterId, nodeTimeout } ops ↔
      EachStep ClusterManager.apply NobodyTimedOut { clusterId, nodeTimeout } ops :=
  throughout_iff (A := fun _ => True) (I := fun _ => True) (fun _ _ _ _ => trivial)
    (fun _ op _ _ h => ClusterManager.journaled_apply_iff h op) ops _ (fun _ _ => trivial) trivial rfl

/-- A node joins and is not heard of for a minute. -/
def silentNode : List ClusterOp := [.join "n1" "a1" [] 0, .prune 60]

theorem not_journaled : ¬Throughout ClusterManager.apply Journaled {} silentNode := by
  decide +kernel

end Hermes

import Hermes.Lib.History
import Hermes.Proof.SwarmSteps

/-!
# Leaders of swarms

* `Led`: the leader of a leader-worker swarm is a member that is not unhealthy, and
  there is one as soon as a member is healthy.
* `led_elected`: an election makes a swarm led.
* `led_beat_iff`: a heartbeat of a member breaks it where there is no leader, since no
  election follows.
* `leadership_iff`: the sequences of operations in which every swarm stays led.
-/

namespace Hermes

open History

/-- The leader of a leader-worker swarm is a member that is not unhealthy, and only a swarm
without a healthy member has none. -/
def Led (s : Swarm) : Prop :=
  s.topology = .leaderWorker →
    (∀ a, s.leaderId = some a → ∃ m, s.members.get? a = some m ∧ m.health ≠ .unhealthy) ∧
    (s.leaderId = none → ∀ a m, s.members.get? a = some m → m.health ≠ .healthy)

/-- Every swarm in the store is led. -/
def Coordinator.AllLed (c : Coordinator) : Prop := ∀ i s, c.getSwarm i = some s → Led s

/-- A heartbeat of this agent on this node is one of a member of this swarm. -/
def Reaches (nodeId agentId : String) (s : Swarm) : Prop :=
  ∃ m, s.members.get? agentId = some m ∧ m.nodeId = nodeId

/-- A heartbeat does not come from a member of a leader-worker swarm without a leader. -/
def LeaderFirst (c : Coordinator) : SwarmOp → Prop
  | .heartbeat nodeId agentId _ _ => ∀ i s, c.getSwarm i = some s → s.topology = .leaderWorker →
      s.leaderId = none → ¬Reaches nodeId agentId s
  | _ => True

namespace Coordinator

variable {c : Coordinator} {s : Swarm}

/-! ## One swarm -/

/-- **An election** makes a swarm led. -/
theorem led_elected (h : s.leaderId = bully s) : Led s := by
  intro _
  rw [h]
  refine ⟨fun a ha => ?_, fun hnone a m hm => bully_none hnone hm⟩
  obtain ⟨m, hm, hhealthy⟩ := bully_some ha
  refine ⟨m, hm, ?_⟩
  rw [hhealthy]
  decide

theorem led_empty (address : ℕ) (i : String) (topology : SwarmTopology) :
    Led { address, swarmId := i, topology } := by
  intro _
  constructor
  · intro a ha
    cases ha
  · intro _ a m hm
    cases hm

/-- A healthy member may come in, or back, where there is a leader. -/
theorem led_withMember (h : Led s) {m : SwarmMember} (hm : m.health ≠ .unhealthy)
    (hl : s.topology = .leaderWorker → s.leaderId ≠ none) : Led (withMember s m) := by
  intro htop
  refine ⟨fun a ha => ?_, fun hnone => absurd hnone (hl htop)⟩
  obtain ⟨m', hm', hnot⟩ := (h htop).1 a ha
  have hget : (withMember s m).members.get? a =
      if a = m.agentId then some m else s.members.get? a := Index.get?_put _ _ _
  rw [hget]
  split
  · exact ⟨m, rfl, hm⟩
  · exact ⟨m', hm', hnot⟩

theorem led_without (agentId : String) (h : Led s) : Led (without agentId s) := by
  have hget : ∀ a, (s.members.erase agentId).get? a =
      if a = agentId then none else s.members.get? a := Index.get?_erase _ _
  unfold without
  simp only
  split
  · exact led_elected rfl
  · rename_i hother
    intro htop
    obtain ⟨hleader, hnone⟩ := h htop
    simp only [hget]
    constructor
    · intro a ha
      obtain ⟨m, hm, hnot⟩ := hleader a ha
      have hne : a ≠ agentId := by
        rintro rfl
        exact hother ha
      rw [if_neg hne]
      exact ⟨m, hm, hnot⟩
    · intro hl a m hm
      split at hm
      · cases hm
      · exact hnone hl a m hm

/-- A member whose health gets worse, and is not unhealthy if it leads. -/
theorem led_setHealth (h : Led s) {a : String} {m : SwarmMember} (hm : s.members.get? a = some m)
    {health : Health} (hne : health ≠ .healthy) (hleader : s.leaderId = some a → health ≠ .unhealthy) :
    Led (setHealth s m health) := by
  obtain rfl := Index.key_of_get? hm
  intro htop
  obtain ⟨hled, hnone⟩ := h htop
  simp only [members_setHealth]
  constructor
  · intro b hb
    by_cases hbm : b = m.agentId
    · rw [if_pos hbm]
      exact ⟨_, rfl, hleader (hbm ▸ hb)⟩
    · rw [if_neg hbm]
      exact hled b hb
  · intro hl b m' hm'
    split at hm'
    · cases hm'
      exact hne
    · exact hnone hl b m' hm'

theorem led_checked (now : ℚ) (agentId : String) (h : Led s) : Led (c.checked now agentId s) := by
  unfold checked
  cases hm : s.members.get? agentId with
  | none => exact h
  | some m =>
    simp only
    split
    · split
      · exact led_elected rfl
      · rename_i hother
        exact led_setHealth h hm (by decide) fun hl => absurd hl hother
    · split
      · exact led_setHealth h hm (by decide) fun _ => by decide
      · exact h

/-- **A heartbeat** keeps a swarm led exactly when it is not of a member of a swarm without a
leader. -/
theorem led_beat_iff (nodeId agentId : String) (h : Led s) :
    Led (beat nodeId agentId s) ↔
      (s.topology = .leaderWorker → s.leaderId = none → ¬Reaches nodeId agentId s) := by
  unfold beat Reaches
  cases hm : s.members.get? agentId with
  | none =>
    refine iff_of_true h fun _ _ => ?_
    rintro ⟨m, hm', -⟩
    cases hm'
  | some m =>
    simp only
    split
    · rename_i hnode
      obtain rfl := Index.key_of_get? hm
      -- the member is healthy from now on
      have hback : ({ s with members := s.members.put { m with health := .healthy } } : Swarm) =
          withMember s { m with health := .healthy } := rfl
      rw [hback]
      constructor
      · intro hled htop hl
        refine absurd rfl ((hled htop).2 hl m.agentId { m with health := .healthy } ?_)
        exact (Index.get?_put _ _ _).trans (if_pos rfl)
      · intro hcond
        refine led_withMember h (show Health.healthy ≠ .unhealthy by decide) fun htop hl => ?_
        exact hcond htop hl ⟨m, rfl, hnode⟩
    · rename_i hnode
      refine iff_of_true h fun _ _ => ?_
      rintro ⟨m', hm', hnode'⟩
      cases hm'
      exact hnode hnode'

/-! ## One operation -/

theorem allLed_createSwarm (h : c.AllLed) (i : String) (topology : SwarmTopology) :
    (c.createSwarm i topology).2.AllLed := by
  refine forall_swarms_of_update h (getSwarm_createSwarm c i topology) fun s hs => ?_
  cases hs
  exact led_empty _ _ _

theorem led_joined (h : c.AllLed) (i : String) : Led (c.joined i) := by
  unfold joined
  cases hi : c.getSwarm i with
  | none => exact led_empty _ _ _
  | some s => exact h i s hi

theorem allLed_joinSwarm (h : c.AllLed) (i agentId nodeId role : String) (capabilities : List String)
    (now : ℚ) : (c.joinSwarm i agentId nodeId role capabilities now).2.AllLed := by
  refine forall_swarms_of_update h (getSwarm_joinSwarm c i agentId nodeId role capabilities now) fun s hs => ?_
  simp only [Option.some.injEq] at hs
  subst hs
  split
  · exact led_elected rfl
  · rename_i hcond
    exact led_withMember (led_joined h i) (show Health.healthy ≠ .unhealthy by decide)
      fun htop hl => hcond ⟨htop, hl⟩

theorem allLed_leaveSwarm (h : c.AllLed) (i agentId reason : String) :
    (c.leaveSwarm i agentId reason).AllLed := by
  refine forall_swarms_of_update h (getSwarm_leaveSwarm c i agentId reason) fun s hs => ?_
  obtain ⟨s', hs', rfl⟩ := Option.map_eq_some_iff.1 hs
  split
  · exact led_without _ (h i s' hs')
  · exact h i s' hs'

theorem allLed_checkPartitions (h : c.AllLed) (now : ℚ) : (c.checkPartitions now).2.AllLed := by
  refine checkPartitions_keeps (fun i agentId c h => ?_) h
  refine forall_swarms_of_update h (getSwarm_checkMember c now i agentId) fun s hs => ?_
  obtain ⟨s', hs', rfl⟩ := Option.map_eq_some_iff.1 hs
  exact led_checked _ _ (h i s' hs')

theorem allLed_heartbeat_iff (h : c.AllLed) (nodeId agentId : String) (loadScore now : ℚ) :
    (c.handleHeartbeat nodeId agentId loadScore now).AllLed ↔
      LeaderFirst c (.heartbeat nodeId agentId loadScore now) := by
  constructor
  · intro hall i s hs
    refine (led_beat_iff nodeId agentId (h i s hs)).1 (hall i _ ?_)
    rw [getSwarm_heartbeat, hs]
    rfl
  · intro hcond i s hs
    rw [getSwarm_heartbeat] at hs
    obtain ⟨s', hs', rfl⟩ := Option.map_eq_some_iff.1 hs
    exact (led_beat_iff nodeId agentId (h i s' hs')).2 (hcond i s' hs')

/-- **One operation** keeps every swarm led exactly when it meets the condition. -/
theorem allLed_apply_iff (h : c.AllLed) (op : SwarmOp) : (c.apply op).AllLed ↔ LeaderFirst c op := by
  cases op with
  | create i topology => exact iff_of_true (allLed_createSwarm h i topology) trivial
  | join i agentId nodeId role capabilities now =>
    exact iff_of_true (allLed_joinSwarm h i agentId nodeId role capabilities now) trivial
  | leave i agentId reason => exact iff_of_true (allLed_leaveSwarm h i agentId reason) trivial
  | heartbeat nodeId agentId loadScore now => exact allLed_heartbeat_iff h nodeId agentId loadScore now
  | check now => exact iff_of_true (allLed_checkPartitions h now) trivial
  | delegate i task fromAgent delegationId =>
    refine iff_of_true (fun j s hs => ?_) trivial
    exact h j s ((getSwarm_delegateTask c i task fromAgent delegationId j).symm.trans hs)
  | complete delegationId resultSummary =>
    refine iff_of_true (fun j s hs => ?_) trivial
    exact h j s ((getSwarm_completeDelegation c delegationId resultSummary j).symm.trans hs)

end Coordinator

/-! ## Sequences of operations -/

/-- **Every swarm is led after each operation** exactly when no heartbeat comes from a member of
a leader-worker swarm that has no leader. -/
theorem leadership_iff (suspicionMs failureMs : ℤ) (ops : List SwarmOp) :
    Throughout Coordinator.apply Coordinator.AllLed { suspicionMs, failureMs } ops ↔
      EachStep Coordinator.apply LeaderFirst { suspicionMs, failureMs } ops := by
  refine throughout_iff (A := fun _ => True) (I := fun _ => True) (fun _ _ _ _ => trivial)
    (fun c op _ _ h => Coordinator.allLed_apply_iff h op) ops _ (fun _ _ => trivial) trivial ?_
  intro i s hs
  cases hs

/-- The leader leaves while the others are suspected, and then one of them comes back. -/
def leaderless : List SwarmOp :=
  [.join "s" "a" "n1" "worker" [] 0, .join "s" "b" "n2" "worker" [] 0, .check 5,
    .leave "s" "a" "graceful", .heartbeat "n2" "b" 0 6]

theorem not_led : ¬Throughout Coordinator.apply Coordinator.AllLed {} leaderless := by
  rintro ⟨-, -, -, -, -, hled⟩
  obtain ⟨s, hs, htop, hl, m, hm, hhealthy⟩ :
      ∃ s ∈ (leaderless.foldl Coordinator.apply {}).getSwarm "s", s.topology = .leaderWorker ∧
        s.leaderId = none ∧ ∃ m ∈ s.members.get? "b", m.health = .healthy := by decide +kernel
  exact (hled "s" s hs htop).2 hl "b" m hm hhealthy

end Hermes

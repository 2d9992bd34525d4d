import Hermes.Lib.History
import Hermes.Proof.MemberSteps
import Hermes.Spec.Team

/-!
# Creating a swarm that exists

`create_swarm` looks for the id of the swarm among the swarms themselves, where it
never is, so that every creation makes a new swarm in the place of the old one.

* `Numbered`: the swarms in the store were made before.
* `numbered_apply`: all operations of coordinator and team manager keep it.
* `create_replaces`: a creation never returns the swarm that exists, and leaves
  members, leader and topology only if there are none to lose.
-/

namespace Hermes

/-- `create_swarm` returns the swarm that exists. -/
def ReturnsExisting (c : Coordinator) (i : String) (topology : SwarmTopology) (s : Swarm) : Prop :=
  (c.createSwarm i topology).1.address = s.address

/-- `create_swarm` leaves members, leader and topology of the swarm that exists. -/
def LeavesUnchanged (c : Coordinator) (i : String) (topology : SwarmTopology) (s : Swarm) : Prop :=
  ∃ s', (c.createSwarm i topology).2.getSwarm i = some s' ∧
    s'.members = s.members ∧ s'.leaderId = s.leaderId ∧ s'.topology = s.topology

/-- The addresses in the store are those of swarms that were made. -/
def Coordinator.Numbered (c : Coordinator) : Prop := ∀ i s, c.getSwarm i = some s → s.address < c.made

namespace Coordinator

variable {c c' : Coordinator} {i : String}

/-! ## The coordinator -/

/-- An operation that touches one swarm. -/
theorem numbered_of_update (h : c.Numbered) (hmade : c.made ≤ c'.made) {r : Option Swarm}
    (hget : ∀ j, c'.getSwarm j = if j = i then r else c.getSwarm j)
    (hr : ∀ s, r = some s → s.address < c'.made) : c'.Numbered :=
  forall_swarms_of_update (fun j s hs => (h j s hs).trans_le hmade) hget hr

/-- An operation that changes one swarm in its place. -/
theorem numbered_of_map (h : c.Numbered) (hmade : c.made ≤ c'.made) {f : Swarm → Swarm}
    (hget : ∀ j, c'.getSwarm j = if j = i then (c.getSwarm i).map f else c.getSwarm j)
    (hf : ∀ s, (f s).address = s.address) : c'.Numbered := by
  refine numbered_of_update h hmade hget fun s hs => ?_
  obtain ⟨s', hs', rfl⟩ := Option.map_eq_some_iff.1 hs
  rw [hf]
  exact (h i s' hs').trans_le hmade

theorem numbered_createSwarm (h : c.Numbered) (i : String) (topology : SwarmTopology) :
    (c.createSwarm i topology).2.Numbered := by
  have hmade : (c.createSwarm i topology).2.made = c.made + 1 := by
    rw [createSwarm_eq]
    rfl
  refine numbered_of_update h ?_ (getSwarm_createSwarm c i topology) fun s hs => ?_
  · rw [hmade]
    exact Nat.le_succ _
  · cases hs
    rw [hmade]
    exact Nat.lt_succ_self _

theorem numbered_joinSwarm (h : c.Numbered) (i agentId nodeId role : String)
    (capabilities : List String) (now : ℚ) :
    (c.joinSwarm i agentId nodeId role capabilities now).2.Numbered := by
  have hmade : (c.ensureSwarm i).2.made ≤ (c.joinSwarm i agentId nodeId role capabilities now).2.made :=
    (steady_joinSwarm c i agentId nodeId role capabilities now).made
  have hjoined : (c.joined i).address < (c.ensureSwarm i).2.made := by
    unfold joined ensureSwarm
    cases hi : c.getSwarm i with
    | none =>
      rw [createSwarm_eq]
      exact Nat.lt_succ_self _
    | some s => exact h i s hi
  refine numbered_of_update h ((steady_ensureSwarm c i).made.trans hmade)
    (getSwarm_joinSwarm c i agentId nodeId role capabilities now) fun s hs => ?_
  simp only [Option.some.injEq] at hs
  subst hs
  split
  · exact hjoined.trans_le hmade
  · exact hjoined.trans_le hmade

theorem numbered_leaveSwarm (h : c.Numbered) (i agentId reason : String) :
    (c.leaveSwarm i agentId reason).Numbered := by
  refine numbered_of_map h (steady_leaveSwarm c i agentId reason).made
    (getSwarm_leaveSwarm c i agentId reason) fun s => ?_
  split
  · unfold without
    split
    · rfl
    · rfl
  · rfl

theorem numbered_heartbeat (h : c.Numbered) (nodeId agentId : String) (loadScore now : ℚ) :
    (c.handleHeartbeat nodeId agentId loadScore now).Numbered := by
  intro j s hs
  rw [getSwarm_heartbeat] at hs
  obtain ⟨s', hs', rfl⟩ := Option.map_eq_some_iff.1 hs
  have haddress : (beat nodeId agentId s').address = s'.address := by
    unfold beat
    split
    · split
      · rfl
      · rfl
    · rfl
  rw [haddress]
  exact h j s' hs'

theorem numbered_checkPartitions (h : c.Numbered) (now : ℚ) : (c.checkPartitions now).2.Numbered := by
  refine checkPartitions_keeps (fun i agentId c h => ?_) h
  refine numbered_of_map h (steady_checkMember c now i agentId).made
    (getSwarm_checkMember c now i agentId) fun s => ?_
  unfold checked
  split
  · rfl
  · split
    · simp only
      split
      · rfl
      · rfl
    · split
      · rfl
      · rfl

theorem numbered_apply (h : c.Numbered) (op : SwarmOp) : (c.apply op).Numbered := by
  cases op with
  | create i topology => exact numbered_createSwarm h i topology
  | join i agentId nodeId role capabilities now =>
    exact numbered_joinSwarm h i agentId nodeId role capabilities now
  | leave i agentId reason => exact numbered_leaveSwarm h i agentId reason
  | heartbeat nodeId agentId loadScore now => exact numbered_heartbeat h nodeId agentId loadScore now
  | check now => exact numbered_checkPartitions h now
  | delegate i task fromAgent delegationId =>
    intro j s hs
    rw [apply, getSwarm_delegateTask] at hs
    obtain ⟨rr, hsteady, -⟩ := steady_delegateTask c i task fromAgent delegationId
    exact (h j s hs).trans_le hsteady.made
  | complete delegationId resultSummary =>
    intro j s hs
    rw [apply, getSwarm_completeDelegation] at hs
    exact (h j s hs).trans_le (steady_completeDelegation c delegationId resultSummary).made

/-! ## The team manager -/

theorem numbered_persistSwarm (h : c.Numbered) {s : Swarm} (hs : s.address < c.made) :
    (c.persistSwarm s).Numbered := by
  refine numbered_of_update h le_rfl (fun j => getSwarm_persist c s j) fun s' hs' => ?_
  cases hs'
  exact hs

theorem numbered_deleteSwarm (h : c.Numbered) (i : String) : (c.deleteSwarm i).Numbered := by
  intro j s hs
  have hget : (c.deleteSwarm i).getSwarm j = if j = i then none else c.getSwarm j :=
    Index.get?_erase _ _ _
  rw [hget] at hs
  split at hs
  · cases hs
  · exact h j s hs

theorem numbered_joinAll (swarmId : String) (clock : ℕ → ℚ) (ps : List (String × String)) :
    ∀ k c, Numbered c → (TeamManager.joinAll swarmId clock k ps c).Numbered := by
  induction ps with
  | nil => intro k c h; exact h
  | cons p ps ih => intro k c h; exact ih _ _ (numbered_joinSwarm h _ _ _ _ _ _)

end Coordinator

namespace TeamManager

variable {t : TeamManager}

theorem made_joinAll (swarmId : String) (clock : ℕ → ℚ) (ps : List (String × String)) :
    ∀ k c, c.made ≤ (joinAll swarmId clock k ps c).made := by
  induction ps with
  | nil => intro k c; exact le_rfl
  | cons p ps ih =>
    intro k c
    have hensure := (Coordinator.steady_ensureSwarm c swarmId).made
    have hjoin := (Coordinator.steady_joinSwarm c swarmId p.1 p.2 "worker" [] (clock k)).made
    exact (hensure.trans hjoin).trans (ih _ _)

theorem numbered_createTeam (h : t.coord.Numbered) (name : String) (topology : SwarmTopology)
    (agentIds : List String) (nodeIds : Option (List String)) (clock : ℕ → ℚ) :
    (t.createTeam name topology agentIds nodeIds clock).2.coord.Numbered := by
  have hcreated := Coordinator.numbered_createSwarm h name topology
  have hall := Coordinator.numbered_joinAll name clock (placements agentIds nodeIds) 0 _ hcreated
  have hmade := made_joinAll name clock (placements agentIds nodeIds) 0
    (t.coord.createSwarm name topology).2
  unfold createTeam
  rw [Coordinator.createSwarm_eq] at hall hmade ⊢
  simp only
  split
  · refine Coordinator.numbered_persistSwarm hall ?_
    cases hget : (joinAll name clock 0 (placements agentIds nodeIds) _).getSwarm name with
    | none => exact (Nat.lt_succ_self t.coord.made).trans_le hmade
    | some s => exact hall name s hget
  · exact hall

theorem numbered_assignRole (h : t.coord.Numbered) (i agentId role : String) :
    (t.assignRole i agentId role).2.coord.Numbered := by
  unfold assignRole
  cases hi : t.coord.getSwarm i with
  | none => exact h
  | some s =>
    simp only
    split
    · exact h
    · split
      · exact h
      · exact Coordinator.numbered_persistSwarm h (h i s hi)

theorem numbered_disbandTeam (h : t.coord.Numbered) (i : String) :
    (t.disbandTeam i).coord.Numbered := by
  unfold disbandTeam
  split
  · exact h
  · rename_i s _
    have hleft := History.run_invariant (fun c agentId => Coordinator.leaveSwarm c i agentId "disband")
      Coordinator.Numbered (fun c agentId hc => Coordinator.numbered_leaveSwarm hc i agentId "disband")
      s.members.keys t.coord h
    simp only
    split
    · exact Coordinator.numbered_deleteSwarm hleft i
    · exact hleft

theorem numbered_apply (h : t.coord.Numbered) (op : TeamOp) : (t.apply op).coord.Numbered := by
  cases op with
  | swarm op => exact Coordinator.numbered_apply h op
  | createTeam name topology agentIds nodeIds clock =>
    exact numbered_createTeam h name topology agentIds nodeIds clock
  | assignRole i agentId role => exact numbered_assignRole h i agentId role
  | disbandTeam i => exact numbered_disbandTeam h i

/-- A team manager on a new coordinator, after some operations. -/
def after (suspicionMs failureMs : ℤ) (sharesStore : Bool) (ops : List TeamOp) : TeamManager :=
  ops.foldl apply { coord := { suspicionMs, failureMs }, sharesStore }

end TeamManager

/-- **A creation of a swarm that exists**, after any operations, returns another swarm, and leaves
members, leader and topology exactly when there is no member, no leader and the same topology. -/
theorem create_replaces {suspicionMs failureMs : ℤ} {sharesStore : Bool} {ops : List TeamOp}
    {c : Coordinator} (hc : (TeamManager.after suspicionMs failureMs sharesStore ops).coord = c)
    {i : String} (topology : SwarmTopology) {s : Swarm} (hs : c.getSwarm i = some s) :
    ¬ReturnsExisting c i topology s ∧ (LeavesUnchanged c i topology s ↔
      s.members = ∅ ∧ s.leaderId = none ∧ topology = s.topology) := by
  have hnumbered : c.Numbered := by
    rw [← hc]
    refine History.run_invariant TeamManager.apply (fun t => t.coord.Numbered)
      (fun t op h => TeamManager.numbered_apply h op) ops _ ?_
    intro j s hs
    cases hs
  unfold ReturnsExisting LeavesUnchanged
  constructor
  · rw [Coordinator.createSwarm_eq]
    exact (hnumbered i s hs).ne'
  · rw [Coordinator.getSwarm_createSwarm, if_pos rfl]
    constructor
    · rintro ⟨s', hs', hmembers, hleader, htopology⟩
      cases hs'
      exact ⟨hmembers.symm, hleader.symm, htopology⟩
    · rintro ⟨hmembers, hleader, htopology⟩
      exact ⟨_, rfl, hmembers.symm, hleader.symm, htopology⟩

/-- A team of two. -/
def teamOfTwo : Coordinator :=
  (TeamManager.after 3000 10000 false
    [.createTeam "team" .leaderWorker ["a", "b"] none fun _ => 0]).coord

theorem create_replaces_team : ∃ s, teamOfTwo.getSwarm "team" = some s ∧
    ¬ReturnsExisting teamOfTwo "team" .leaderWorker s := by
  have hsome : (teamOfTwo.getSwarm "team").isSome := by decide +kernel
  obtain ⟨s, hs⟩ := Option.isSome_iff_exists.1 hsome
  exact ⟨s, hs, (create_replaces rfl .leaderWorker hs).1⟩

theorem team_lost : ∃ s, teamOfTwo.getSwarm "team" = some s ∧
    ¬ReturnsExisting teamOfTwo "team" .leaderWorker s ∧
    ¬LeavesUnchanged teamOfTwo "team" .leaderWorker s := by
  obtain ⟨s, hs, haddress, hleader⟩ : ∃ s ∈ teamOfTwo.getSwarm "team",
      s.address ≠ (teamOfTwo.createSwarm "team" .leaderWorker).1.address ∧ s.leaderId = some "a" := by
    decide +kernel
  refine ⟨s, hs, haddress.symm, ?_⟩
  rintro ⟨s', hs', -, hsame, -⟩
  have hnone : ((teamOfTwo.createSwarm "team" .leaderWorker).2.getSwarm "team").map (·.leaderId) =
      some none := by decide +kernel
  rw [hs', Option.map_some, hsame, hleader] at hnone
  cases hnone

end Hermes

import Hermes.Proof.SwarmSteps

/-!
# Members of swarms, operation by operation

* `memberOf`: the member of a swarm in the store with a given agent id.
* `Health` is ordered by how bad it is, and `due` is the health that an age calls for.
* `memberOf_createSwarm`, `memberOf_joinSwarm`, `memberOf_leaveSwarm`,
  `memberOf_heartbeat`, `memberOf_checkMember`: the members after each operation.
* `check_returns_iff`, `memberOf_check`: when a check of all members returns, and the
  members after it.
-/

namespace Hermes

open Loops

/-! ## Health -/

/-- How bad a health is. -/
def Health.rank : Health → ℕ
  | .healthy => 0
  | .suspected => 1
  | .unhealthy => 2

instance : LinearOrder Health := LinearOrder.lift' Health.rank fun a b h => by
  cases a <;> cases b <;> first | rfl | cases h

theorem Health.healthy_le (h : Health) : Health.healthy ≤ h := Nat.zero_le _

theorem Health.le_unhealthy (h : Health) : h ≤ Health.unhealthy := by
  cases h <;> decide

/-- The health that an age calls for. -/
def due (suspicionMs failureMs : ℤ) (age : ℚ) : Health :=
  if (failureMs : ℚ) ≤ age then .unhealthy
  else if (suspicionMs : ℚ) ≤ age then .suspected
  else .healthy

theorem due_mono {suspicionMs failureMs : ℤ} {x y : ℚ} (h : x ≤ y) :
    due suspicionMs failureMs x ≤ due suspicionMs failureMs y := by
  unfold due
  by_cases hfail : (failureMs : ℚ) ≤ y
  · rw [if_pos hfail]
    split
    · exact le_rfl
    · split
      · decide
      · decide
  · rw [if_neg hfail, if_neg fun hx => hfail (hx.trans h)]
    by_cases hsus : (suspicionMs : ℚ) ≤ x
    · rw [if_pos hsus, if_pos (hsus.trans h)]
    · rw [if_neg hsus]
      exact Health.healthy_le _

namespace Coordinator

variable {c : Coordinator} {s : Swarm} {i j a b : String} {m : SwarmMember}

/-- The member of a swarm with a given agent id. -/
def memberOf (c : Coordinator) (i a : String) : Option SwarmMember :=
  (c.getSwarm i).bind fun s => s.members.get? a

theorem agentId_of_memberOf (h : c.memberOf i a = some m) : m.agentId = a := by
  obtain ⟨s, -, hm⟩ := Option.bind_eq_some_iff.1 h
  exact Index.key_of_get? hm

/-! ## One operation -/

theorem memberOf_createSwarm (c : Coordinator) (i : String) (topology : SwarmTopology) (j b : String) :
    (c.createSwarm i topology).2.memberOf j b = if j = i then none else c.memberOf j b := by
  unfold memberOf
  rw [getSwarm_createSwarm]
  split
  · rfl
  · rfl

theorem memberOf_joinSwarm (c : Coordinator) (i agentId nodeId role : String)
    (capabilities : List String) (now : ℚ) (j b : String) :
    (c.joinSwarm i agentId nodeId role capabilities now).2.memberOf j b =
      if j = i ∧ b = agentId then some { agentId, nodeId, role, health := .healthy, capabilities }
      else c.memberOf j b := by
  unfold memberOf
  rw [getSwarm_joinSwarm]
  by_cases hj : j = i
  · subst hj
    have hjoined : (c.joined j).members.get? b = (c.getSwarm j).bind fun s => s.members.get? b := by
      unfold joined
      cases c.getSwarm j with
      | none => rfl
      | some s => rfl
    have hput : ∀ m : SwarmMember, (withMember (c.joined j) m).members.get? b =
        if b = m.agentId then some m else (c.joined j).members.get? b := fun m => Index.get?_put _ _ _
    simp only [true_and, if_true]
    rw [← hjoined, Option.bind_some]
    split
    · exact hput _
    · exact hput _
  · rw [if_neg hj, if_neg fun h => hj h.1]

theorem memberOf_leaveSwarm (c : Coordinator) (i agentId reason j b : String) :
    (c.leaveSwarm i agentId reason).memberOf j b =
      if j = i ∧ b = agentId then none else c.memberOf j b := by
  unfold memberOf
  rw [getSwarm_leaveSwarm]
  by_cases hj : j = i
  · subst hj
    simp only [true_and, if_true]
    cases c.getSwarm j with
    | none => exact (ite_self _).symm
    | some s =>
      have herase : (without agentId s).members = s.members.erase agentId := by
        unfold without
        split
        · rfl
        · rfl
      rw [Option.map_some, Option.bind_some, Option.bind_some]
      split
      · rw [herase]
        exact Index.get?_erase _ _ _
      · rename_i habsent
        split
        · rename_i hb
          rw [hb, ← Option.not_isSome_iff_eq_none, ← Index.mem_keys]
          exact habsent
        · rfl
  · rw [if_neg hj, if_neg fun h => hj h.1]

/-- A member after a heartbeat of its agent on some node. -/
def beatMember (nodeId : String) (m : SwarmMember) : SwarmMember :=
  if m.nodeId = nodeId then { m with health := .healthy } else m

theorem memberOf_heartbeat (c : Coordinator) (nodeId agentId : String) (loadScore now : ℚ) (j b : String) :
    (c.handleHeartbeat nodeId agentId loadScore now).memberOf j b =
      if b = agentId then (c.memberOf j b).map (beatMember nodeId) else c.memberOf j b := by
  unfold memberOf
  rw [getSwarm_heartbeat]
  cases c.getSwarm j with
  | none => exact (ite_self _).symm
  | some s =>
    rw [Option.map_some, Option.bind_some, Option.bind_some]
    unfold beat
    cases hm : s.members.get? agentId with
    | none =>
      simp only
      split
      · rename_i hb
        rw [hb, hm]
        rfl
      · rfl
    | some m =>
      obtain rfl := Index.key_of_get? hm
      simp only
      by_cases hb : b = m.agentId
      · rw [if_pos hb, hb, hm, Option.map_some]
        unfold beatMember
        split
        · exact (Index.get?_put _ _ _).trans (if_pos rfl)
        · exact hm
      · rw [if_neg hb]
        split
        · exact (Index.get?_put _ _ _).trans (if_neg hb)
        · rfl

theorem memberOf_delegateTask (c : Coordinator) (i : String) (task : Task)
    (fromAgent delegationId j b : String) :
    (c.delegateTask i task fromAgent delegationId).2.memberOf j b = c.memberOf j b := by
  unfold memberOf
  rw [getSwarm_delegateTask]

theorem memberOf_completeDelegation (c : Coordinator) (delegationId resultSummary j b : String) :
    (c.completeDelegation delegationId resultSummary).2.memberOf j b = c.memberOf j b := by
  unfold memberOf
  rw [getSwarm_completeDelegation]

/-! ## The check of one member -/

/-- A member after its check. -/
def watched (c : Coordinator) (now : ℚ) (m : SwarmMember) : SwarmMember :=
  { m with health := m.health ⊔ due c.suspicionMs c.failureMs (c.age now m.agentId) }

/-- The check of a member divides by a suspicion timeout of zero. -/
def Raises (c : Coordinator) (now : ℚ) (m : SwarmMember) : Prop :=
  c.suspicionMs = 0 ∧ m.health = .healthy ∧ 0 ≤ c.age now m.agentId ∧
    c.age now m.agentId < (c.failureMs : ℚ)

theorem watched_watched (c : Coordinator) (now : ℚ) (m : SwarmMember) :
    c.watched now (c.watched now m) = c.watched now m := by
  unfold watched
  simp only [sup_assoc, sup_idem]

theorem Raises.of_watched {now : ℚ} (h : c.Raises now (c.watched now m)) : c.Raises now m := by
  obtain ⟨hzero, hhealthy, hage⟩ := h
  refine ⟨hzero, ?_, hage⟩
  have hle : m.health ≤ (c.watched now m).health := le_sup_left
  rw [hhealthy] at hle
  exact le_antisymm hle (Health.healthy_le _)

theorem Steady.watched {c' : Coordinator} (h : Steady c c') (now : ℚ) :
    c'.watched now = c.watched now := by
  funext m
  unfold Coordinator.watched
  rw [h.age, h.suspicionMs, h.failureMs]

theorem Steady.raises {c' : Coordinator} (h : Steady c c') (now : ℚ) :
    c'.Raises now = c.Raises now := by
  funext m
  unfold Coordinator.Raises
  rw [h.age, h.suspicionMs, h.failureMs]

theorem watched_of_due_le {now : ℚ} {m : SwarmMember}
    (h : due c.suspicionMs c.failureMs (c.age now m.agentId) ≤ m.health) : c.watched now m = m := by
  unfold watched
  rw [sup_eq_left.2 h]

/-- **A check** of a member makes its health what the age of its agent calls for, unless it is
worse already. -/
theorem members_checked (c : Coordinator) (now : ℚ) (a : String) (s : Swarm) (b : String) :
    (c.checked now a s).members.get? b =
      if b = a then (s.members.get? b).map (c.watched now) else s.members.get? b := by
  unfold checked
  cases hm : s.members.get? a with
  | none =>
    simp only
    split
    · rename_i hb
      rw [hb, hm]
      rfl
    · rfl
  | some m =>
    obtain rfl := Index.key_of_get? hm
    -- the swarm with another health of the member, and perhaps another leader
    have hset : ∀ {health : Health}, (c.watched now m).health = health →
        (setHealth s m health).members.get? b =
          if b = m.agentId then (s.members.get? b).map (c.watched now) else s.members.get? b := by
      rintro _ rfl
      rw [members_setHealth]
      split
      · rename_i hb
        rw [hb, hm]
        rfl
      · rfl
    have hage : (c.watched now m).health =
        m.health ⊔ due c.suspicionMs c.failureMs (c.age now m.agentId) := rfl
    simp only
    split
    · rename_i hfail
      have hdue : due c.suspicionMs c.failureMs (c.age now m.agentId) = .unhealthy := if_pos hfail.1
      rw [hdue, sup_eq_right.2 m.health.le_unhealthy] at hage
      split
      · exact hset hage
      · exact hset hage
    · rename_i hnot
      split
      · rename_i hsus
        have hfail : ¬(c.failureMs : ℚ) ≤ c.age now m.agentId := by
          intro hfail
          refine hnot ⟨hfail, ?_⟩
          rw [hsus.2]
          decide
        have hdue : due c.suspicionMs c.failureMs (c.age now m.agentId) = .suspected :=
          (if_neg hfail).trans (if_pos hsus.1)
        rw [hdue, hsus.2, sup_eq_right.2 (Health.healthy_le _)] at hage
        exact hset hage
      · rename_i hfine
        have hle : due c.suspicionMs c.failureMs (c.age now m.agentId) ≤ m.health := by
          unfold due
          split
          · rename_i hfail
            rw [not_not.1 fun hne => hnot ⟨hfail, hne⟩]
          · split
            · rename_i hsus
              cases hhealth : m.health with
              | healthy => exact absurd ⟨hsus, hhealth⟩ hfine
              | suspected => exact le_rfl
              | unhealthy => decide
            · exact Health.healthy_le _
        split
        · rename_i hb
          rw [hb, hm, Option.map_some, watched_of_due_le hle]
        · rfl

theorem memberOf_checkMember (c : Coordinator) (now : ℚ) (i a j b : String) :
    (checkMember now i a c).2.memberOf j b =
      if j = i ∧ b = a then (c.memberOf j b).map (c.watched now) else c.memberOf j b := by
  unfold memberOf
  rw [getSwarm_checkMember]
  by_cases hj : j = i
  · subst hj
    simp only [true_and, if_true]
    cases c.getSwarm j with
    | none => exact (ite_self _).symm
    | some s => exact members_checked c now a s b
  · rw [if_neg hj, if_neg fun h => hj h.1]

/-- **When the check of a member returns.** -/
theorem checkMember_returns_iff (c : Coordinator) (now : ℚ) (i a : String) :
    (∃ xs, (checkMember now i a c).1 = .ok xs) ↔ ∀ m, c.memberOf i a = some m → ¬c.Raises now m := by
  unfold checkMember memberOf
  cases c.getSwarm i with
  | none => exact iff_of_true ⟨_, rfl⟩ (by simp)
  | some s =>
    simp only [Option.bind_some]
    cases hm : s.members.get? a with
    | none => exact iff_of_true ⟨_, rfl⟩ (by simp)
    | some m =>
      obtain rfl := Index.key_of_get? hm
      simp only [Option.some.injEq, forall_eq']
      split
      · -- a failure is published without a division
        rename_i hfail
        have hfine : ¬c.Raises now m := fun h => not_lt.2 hfail.1 h.2.2.2
        split
        · exact iff_of_true ⟨_, rfl⟩ hfine
        · exact iff_of_true ⟨_, rfl⟩ hfine
      · rename_i hnot
        split
        · rename_i hsus
          split
          · -- `age // 0`
            rename_i hzero
            refine iff_of_false (fun h => ?_) (not_not.2 ⟨hzero, hsus.2, ?_, ?_⟩)
            · obtain ⟨xs, hxs⟩ := h
              cases hxs
            · have hle := hsus.1
              rwa [show c.suspicionMs = 0 from hzero, Int.cast_zero] at hle
            · refine not_le.1 fun hfail => hnot ⟨hfail, ?_⟩
              rw [hsus.2]
              decide
          · rename_i hpos
            exact iff_of_true ⟨_, rfl⟩ fun h => hpos h.1
        · rename_i hfine
          refine iff_of_true ⟨_, rfl⟩ fun h => hfine ⟨?_, h.2.1⟩
          rw [h.1, Int.cast_zero]
          exact h.2.2.1

/-! ## The check of all members -/

/-- The check of one member after the other. -/
def checkEach (now : ℚ) : List (String × String) → Coordinator →
    Except Exc (List String) × Coordinator := forEach fun p => checkMember now p.1 p.2

/-- The members that a check goes over. -/
def watchList (c : Coordinator) : List (String × String) :=
  c.listSwarms.flatMap fun s => s.members.keys.map fun a => (s.swarmId, a)

theorem checkPartitions_eq (c : Coordinator) (now : ℚ) :
    c.checkPartitions now = checkEach now c.watchList c := by
  have hids : c.watchList = (c.listSwarms.flatMap fun s => s.members.keys.map fun a => (s, a)).map
      fun p => (p.1.swarmId, p.2) := by
    unfold watchList
    rw [List.map_flatMap]
    simp only [List.map_map, Function.comp_def]
  unfold checkPartitions checkEach
  rw [hids, forEach_map]
  exact forEach_nested (fun (s : Swarm) a => checkMember now s.swarmId a) (fun s => s.members.keys)
    c.listSwarms c

theorem mem_watchList : (i, a) ∈ c.watchList ↔ ∃ m, c.memberOf i a = some m := by
  unfold watchList memberOf
  rw [List.mem_flatMap]
  constructor
  · rintro ⟨s, hs, hmem⟩
    obtain ⟨a', ha', heq⟩ := List.mem_map.1 hmem
    cases heq
    have hget : c.getSwarm s.swarmId = some s := Index.mem_values.1 hs
    obtain ⟨m, hm⟩ := Option.isSome_iff_exists.1 (Index.mem_keys.1 ha')
    exact ⟨m, by rw [hget, Option.bind_some, hm]⟩
  · rintro ⟨m, hm⟩
    obtain ⟨s, hs, hget⟩ := Option.bind_eq_some_iff.1 hm
    obtain rfl := swarmId_of_get hs
    have hkey : a ∈ s.members.keys := Index.mem_keys.2 (Option.isSome_iff_exists.2 ⟨m, hget⟩)
    exact ⟨s, Index.mem_values.2 hs, List.mem_map_of_mem hkey⟩

theorem checkEach_cons (now : ℚ) (p : String × String) (ps : List (String × String)) (c : Coordinator) :
    checkEach now (p :: ps) c = andThen (checkMember now p.1 p.2 c) (checkEach now ps) :=
  forEach_cons _ _ _ _

/-- **What a loop over members leaves**, if it returns. -/
theorem memberOf_checkEach (now : ℚ) (ps : List (String × String)) :
    ∀ c : Coordinator, (∃ xs, (checkEach now ps c).1 = .ok xs) →
      Steady c (checkEach now ps c).2 ∧ ∀ j b, (checkEach now ps c).2.memberOf j b =
        if (j, b) ∈ ps then (c.memberOf j b).map (c.watched now) else c.memberOf j b := by
  induction ps with
  | nil =>
    intro c _
    exact ⟨.rfl, fun j b => rfl⟩
  | cons p ps ih =>
    intro c hreturns
    rw [checkEach_cons, andThen_returns_iff] at hreturns
    obtain ⟨hfirst, hrest⟩ := hreturns
    have hsteady := steady_checkMember c now p.1 p.2
    obtain ⟨hsteady', hmember⟩ := ih _ hrest
    rw [checkEach_cons, andThen_snd hfirst]
    refine ⟨hsteady.trans hsteady', fun j b => ?_⟩
    rw [hmember, hsteady.watched, memberOf_checkMember]
    by_cases hjb : (j, b) = p
    · -- a second check of a member changes nothing
      subst hjb
      simp only [and_self, if_true, List.mem_cons_self]
      split
      · rw [Option.map_map]
        refine congrArg (fun f => (c.memberOf j b).map f) (funext fun m => ?_)
        exact watched_watched c now m
      · rfl
    · have hne : ¬(j = p.1 ∧ b = p.2) := fun h => hjb (Prod.ext h.1 h.2)
      rw [if_neg hne]
      simp only [List.mem_cons, hjb, false_or]

/-- **When a loop over members returns.** -/
theorem checkEach_returns_iff (now : ℚ) (ps : List (String × String)) :
    ∀ c : Coordinator, (∃ xs, (checkEach now ps c).1 = .ok xs) ↔
      ∀ p ∈ ps, ∀ m, c.memberOf p.1 p.2 = some m → ¬c.Raises now m := by
  induction ps with
  | nil => intro c; exact iff_of_true ⟨[], rfl⟩ (by simp)
  | cons p ps ih =>
    intro c
    rw [checkEach_cons, andThen_returns_iff, List.forall_mem_cons, checkMember_returns_iff, ih]
    refine and_congr_right fun hfine => forall₂_congr fun q _ => ?_
    rw [(steady_checkMember c now p.1 p.2).raises, memberOf_checkMember]
    -- no member gets dangerous by the check of another one
    by_cases hq : q.1 = p.1 ∧ q.2 = p.2
    · rw [if_pos hq, hq.1, hq.2]
      refine iff_of_true (fun m hm hraises => ?_) hfine
      obtain ⟨m', hm', rfl⟩ := Option.map_eq_some_iff.1 hm
      exact hfine m' hm' hraises.of_watched
    · rw [if_neg hq]

/-- **When a check of all members returns.** -/
theorem check_returns_iff (c : Coordinator) (now : ℚ) :
    (∃ xs, (c.checkPartitions now).1 = .ok xs) ↔
      ∀ i a m, c.memberOf i a = some m → ¬c.Raises now m := by
  rw [checkPartitions_eq, checkEach_returns_iff]
  constructor
  · intro h i a m hm
    exact h (i, a) (mem_watchList.2 ⟨m, hm⟩) m hm
  · intro h p _ m hm
    exact h p.1 p.2 m hm

theorem steady_check {now : ℚ} (h : ∃ xs, (c.checkPartitions now).1 = .ok xs) :
    Steady c (c.checkPartitions now).2 := by
  rw [checkPartitions_eq] at h ⊢
  exact (memberOf_checkEach now c.watchList c h).1

/-- **The members after a check** that returns. -/
theorem memberOf_check {now : ℚ} (h : ∃ xs, (c.checkPartitions now).1 = .ok xs) (j b : String) :
    (c.checkPartitions now).2.memberOf j b = (c.memberOf j b).map (c.watched now) := by
  rw [checkPartitions_eq] at h ⊢
  rw [(memberOf_checkEach now c.watchList c h).2]
  split
  · rfl
  · rename_i habsent
    have hnone : c.memberOf j b = none := by
      rw [Option.eq_none_iff_forall_not_mem]
      intro m hm
      exact habsent (mem_watchList.2 ⟨m, hm⟩)
    rw [hnone]
    rfl

end Coordinator

end Hermes

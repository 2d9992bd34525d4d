import Hermes.Spec.Swarm

/-!
# What the operations of swarms leave in the store

* `getSwarm_runElection`, `getSwarm_joinSwarm`, `getSwarm_leaveSwarm`,
  `getSwarm_heartbeat`, `getSwarm_checkMember`: the swarms after each operation, by
  the swarms before it.
* `bully_some`, `bully_none`: whom an election chooses.
* `checkPartitions_keeps`: an invariant of the check of one member is one of the
  whole check.
-/

namespace Hermes

namespace Coordinator

variable {c : Coordinator} {s : Swarm} {i j : String}

/-! ## What the operations leave in the store -/

theorem getSwarm_persist (c : Coordinator) (s : Swarm) (j : String) :
    (c.persistSwarm s).getSwarm j = if j = s.swarmId then some s else c.getSwarm j :=
  Index.get?_put _ _ _

theorem swarmId_of_get (h : c.getSwarm i = some s) : s.swarmId = i := Index.key_of_get? h

/-- `create_swarm` makes a new swarm, whether there is one or not. -/
theorem createSwarm_eq (c : Coordinator) (i : String) (topology : SwarmTopology) :
    c.createSwarm i topology =
      ({ address := c.made, swarmId := i, topology },
        { c with made := c.made + 1 }.persistSwarm { address := c.made, swarmId := i, topology }) := by
  have hno : c.listSwarms.any (textIsSwarm i) = false := List.any_eq_false.2 fun s _ => by
    unfold textIsSwarm
    decide
  unfold createSwarm
  simp only [hno, Bool.false_eq_true, if_false]

theorem getSwarm_createSwarm (c : Coordinator) (i : String) (topology : SwarmTopology) (j : String) :
    (c.createSwarm i topology).2.getSwarm j =
      if j = i then some { address := c.made, swarmId := i, topology } else c.getSwarm j := by
  rw [createSwarm_eq]
  exact getSwarm_persist _ _ _

/-- **After an election** the swarm has the leader that was elected. -/
theorem getSwarm_runElection (c : Coordinator) (i j : String) :
    (c.runElection i).2.getSwarm j =
      if j = i then (c.getSwarm i).map fun s => { s with leaderId := bully s } else c.getSwarm j := by
  unfold runElection
  cases hi : c.getSwarm i with
  | none =>
    by_cases hj : j = i
    · rw [if_pos hj, hj]
      exact hi
    · rw [if_neg hj]
  | some s =>
    obtain rfl := swarmId_of_get hi
    simp only
    split
    · exact getSwarm_persist _ _ _
    · rename_i hsame
      have hleader : bully s = s.leaderId := not_not.1 hsame
      refine (getSwarm_persist _ _ _).trans ?_
      rw [Option.map_some, hleader]

/-- What `bully` chooses. -/
theorem bully_some {a : String} (h : bully s = some a) :
    ∃ m, s.members.get? a = some m ∧ m.health = .healthy := by
  unfold bully at h
  obtain ⟨m, hm, rfl⟩ := Option.map_eq_some_iff.1 h
  have hmem : m ∈ candidates s := (List.perm_insertionSort _ _).subset (List.mem_of_getLast? hm)
  unfold candidates at hmem
  rw [List.mem_filter] at hmem
  exact ⟨m, Index.mem_values.1 hmem.1, by simpa using hmem.2⟩

theorem bully_none (h : bully s = none) {a : String} {m : SwarmMember}
    (hm : s.members.get? a = some m) : m.health ≠ .healthy := by
  intro hhealthy
  have hkey := Index.key_of_get? hm
  have hmem : m ∈ candidates s :=
    List.mem_filter.2 ⟨Index.mem_values.2 (hkey ▸ hm), by simpa using hhealthy⟩
  unfold bully at h
  rw [Option.map_eq_none_iff, List.getLast?_eq_none_iff] at h
  have hperm := List.perm_insertionSort (fun a b : SwarmMember => a.agentId ≤ b.agentId) (candidates s)
  rw [h] at hperm
  rw [List.nil_perm.1 hperm] at hmem
  cases hmem

/-- The swarm that a join goes to. -/
def joined (c : Coordinator) (i : String) : Swarm :=
  (c.getSwarm i).getD { address := c.made, swarmId := i }

theorem swarmId_joined (c : Coordinator) (i : String) : (c.joined i).swarmId = i := by
  unfold joined
  cases hi : c.getSwarm i with
  | none => rfl
  | some s => exact swarmId_of_get hi

theorem ensureSwarm_eq (c : Coordinator) (i : String) :
    ∃ c', c.ensureSwarm i = (c.joined i, c') ∧ ∀ j, j ≠ i → c'.getSwarm j = c.getSwarm j := by
  unfold ensureSwarm joined
  cases hi : c.getSwarm i with
  | some s => exact ⟨c, rfl, fun _ _ => rfl⟩
  | none =>
    rw [createSwarm_eq]
    refine ⟨_, rfl, fun j hj => ?_⟩
    refine (getSwarm_persist _ _ _).trans ?_
    rw [if_neg hj]
    rfl

/-- The swarm after an agent joined, before any election. -/
def withMember (s : Swarm) (m : SwarmMember) : Swarm := { s with members := s.members.put m }

theorem getSwarm_joinSwarm (c : Coordinator) (i agentId nodeId role : String)
    (capabilities : List String) (now : ℚ) (j : String) :
    (c.joinSwarm i agentId nodeId role capabilities now).2.getSwarm j =
      if j = i then
        let s := withMember (c.joined i) { agentId, nodeId, role, health := .healthy, capabilities }
        some (if s.topology = .leaderWorker ∧ s.leaderId = none then { s with leaderId := bully s } else s)
      else c.getSwarm j := by
  obtain ⟨c', hc', hother⟩ := ensureSwarm_eq c i
  have hid := swarmId_joined c i
  set m : SwarmMember := { agentId, nodeId, role, health := .healthy, capabilities }
  have hput : ∀ (beats : Dict String ℚ) (e : SwarmEvent) (j : String),
      ((({ c' with lastBeat := beats } : Coordinator).persistSwarm (withMember (c.joined i) m)).publish
        e).getSwarm j = if j = i then some (withMember (c.joined i) m) else c.getSwarm j := by
    intro beats e j
    refine (getSwarm_persist _ _ _).trans ?_
    rw [show (withMember (c.joined i) m).swarmId = i from hid]
    by_cases hj : j = i
    · rw [if_pos hj, if_pos hj]
    · rw [if_neg hj, if_neg hj]
      exact hother j hj
  unfold joinSwarm
  simp only [hc']
  -- the election reads the swarm that was just put
  by_cases hj : j = i
  · rw [if_pos hj, hj]
    split
    · rename_i hcond
      rw [getSwarm_runElection, if_pos rfl]
      refine (congrArg _ (hput _ _ i)).trans ?_
      rw [if_pos rfl]
      exact congrArg some (if_pos hcond).symm
    · rename_i hcond
      refine (hput _ _ i).trans ?_
      rw [if_pos rfl]
      exact congrArg some (if_neg hcond).symm
  · rw [if_neg hj]
    split
    · rw [getSwarm_runElection, if_neg hj]
      exact (hput _ _ j).trans (if_neg hj)
    · exact (hput _ _ j).trans (if_neg hj)

/-- The swarm after an agent left. -/
def without (agentId : String) (s : Swarm) : Swarm :=
  let s' := { s with members := s.members.erase agentId }
  if s.leaderId = some agentId then { s' with leaderId := bully s' } else s'

theorem getSwarm_leaveSwarm (c : Coordinator) (i agentId reason j : String) :
    (c.leaveSwarm i agentId reason).getSwarm j =
      if j = i then (c.getSwarm i).map fun s =>
        if agentId ∈ s.members.keys then without agentId s else s
      else c.getSwarm j := by
  unfold leaveSwarm
  cases hi : c.getSwarm i with
  | none =>
    by_cases hj : j = i
    · rw [if_pos hj, hj]
      exact hi
    · rw [if_neg hj]
  | some s =>
    obtain rfl := swarmId_of_get hi
    simp only [Option.map_some]
    by_cases hmem : agentId ∈ s.members.keys
    · -- only the leave of a leader is followed by an election
      rw [if_pos hmem, if_pos hmem]
      unfold without
      simp only
      by_cases hl : s.leaderId = some agentId
      · rw [if_pos hl, if_pos hl, getSwarm_runElection, getSwarm_persist, getSwarm_persist]
        simp only [if_true, Option.map_some]
        split
        · rfl
        · rfl
      · rw [if_neg hl, if_neg hl]
        exact getSwarm_persist _ _ _
    · rw [if_neg hmem, if_neg hmem]
      split
      · rename_i hj
        rw [hj, hi]
      · rfl

theorem getSwarm_heartbeat (c : Coordinator) (nodeId agentId : String) (loadScore now : ℚ) (j : String) :
    (c.handleHeartbeat nodeId agentId loadScore now).getSwarm j =
      (c.getSwarm j).map (beat nodeId agentId) :=
  Index.get?_map _ _ (swarmId_beat nodeId agentId) _

/-- What a check of a member does to its swarm. -/
def checked (c : Coordinator) (now : ℚ) (agentId : String) (s : Swarm) : Swarm :=
  match s.members.get? agentId with
  | none => s
  | some m =>
    if (c.failureMs : ℚ) ≤ c.age now agentId ∧ m.health ≠ .unhealthy then
      let s' := setHealth s m .unhealthy
      if s.leaderId = some agentId then { s' with leaderId := bully s' } else s'
    else if (c.suspicionMs : ℚ) ≤ c.age now agentId ∧ m.health = .healthy then setHealth s m .suspected
    else s

theorem members_setHealth (s : Swarm) (m : SwarmMember) (health : Health) (b : String) :
    (setHealth s m health).members.get? b =
      if b = m.agentId then some { m with health } else s.members.get? b := Index.get?_put _ _ _

theorem getSwarm_checkMember (c : Coordinator) (now : ℚ) (i agentId j : String) :
    (checkMember now i agentId c).2.getSwarm j =
      if j = i then (c.getSwarm i).map (c.checked now agentId) else c.getSwarm j := by
  have hsame : c.getSwarm j = if j = i then c.getSwarm i else c.getSwarm j := by
    split
    · rename_i hj
      rw [hj]
    · rfl
  unfold checkMember
  cases hi : c.getSwarm i with
  | none => rwa [hi] at hsame
  | some s =>
    obtain rfl := swarmId_of_get hi
    rw [hi] at hsame
    simp only [Option.map_some]
    unfold checked
    cases hm : s.members.get? agentId with
    | none => exact hsame
    | some m =>
      simp only
      -- only the failure of a leader is followed by an election
      split
      · by_cases hl : s.leaderId = some agentId
        · rw [if_pos hl, if_pos (show (setHealth s m .unhealthy).leaderId = some agentId from hl),
            getSwarm_runElection, getSwarm_persist, getSwarm_persist]
          by_cases hj : j = s.swarmId
          · rw [if_pos hj, if_pos hj,
              if_pos (show s.swarmId = (setHealth s m .unhealthy).swarmId from rfl)]
            rfl
          · rw [if_neg hj, if_neg hj]
            exact if_neg hj
        · rw [if_neg hl, if_neg (show ¬(setHealth s m .unhealthy).leaderId = some agentId from hl)]
          exact getSwarm_persist _ _ _
      · split
        · split
          · exact getSwarm_persist _ _ _
          · exact getSwarm_persist _ _ _
        · exact hsame

theorem getSwarm_delegateTask (c : Coordinator) (i : String) (task : Task) (fromAgent delegationId j : String) :
    (c.delegateTask i task fromAgent delegationId).2.getSwarm j = c.getSwarm j := by
  unfold delegateTask
  split
  · rfl
  · simp only
    split
    · rfl
    · rfl

theorem getSwarm_completeDelegation (c : Coordinator) (delegationId resultSummary j : String) :
    (c.completeDelegation delegationId resultSummary).2.getSwarm j = c.getSwarm j := by
  unfold completeDelegation
  split
  · rfl
  · rfl

/-! ## What they leave as it is -/

/-- Two coordinators have the same timeouts, last heartbeats and last choices, and no swarm is
unmade. -/
structure Steady (c c' : Coordinator) : Prop where
  suspicionMs : c'.suspicionMs = c.suspicionMs
  failureMs : c'.failureMs = c.failureMs
  lastBeat : c'.lastBeat = c.lastBeat
  rr : c'.rr = c.rr
  made : c.made ≤ c'.made

theorem Steady.rfl : Steady c c := ⟨Eq.refl _, Eq.refl _, Eq.refl _, Eq.refl _, le_rfl⟩

theorem Steady.trans {c c' c'' : Coordinator} (h : Steady c c') (h' : Steady c' c'') : Steady c c'' :=
  ⟨h'.suspicionMs.trans h.suspicionMs, h'.failureMs.trans h.failureMs, h'.lastBeat.trans h.lastBeat,
    h'.rr.trans h.rr, h.made.trans h'.made⟩

theorem Steady.age {c' : Coordinator} (h : Steady c c') (now : ℚ) (a : String) :
    c'.age now a = c.age now a := by
  unfold Coordinator.age
  rw [h.lastBeat]

theorem steady_runElection (c : Coordinator) (i : String) : Steady c (c.runElection i).2 := by
  unfold runElection
  split
  · exact .rfl
  · simp only
    split
    · exact ⟨rfl, rfl, rfl, rfl, le_rfl⟩
    · exact ⟨rfl, rfl, rfl, rfl, le_rfl⟩

theorem steady_createSwarm (c : Coordinator) (i : String) (topology : SwarmTopology) :
    Steady c (c.createSwarm i topology).2 := by
  rw [createSwarm_eq]
  exact ⟨rfl, rfl, rfl, rfl, Nat.le_succ _⟩

theorem steady_ensureSwarm (c : Coordinator) (i : String) : Steady c (c.ensureSwarm i).2 := by
  unfold ensureSwarm
  split
  · exact .rfl
  · exact steady_createSwarm _ _ _

/-- A join renews the last heartbeat of its agent, once there is a swarm. -/
theorem steady_joinSwarm (c : Coordinator) (i agentId nodeId role : String) (capabilities : List String)
    (now : ℚ) : Steady
      { (c.ensureSwarm i).2 with lastBeat := (c.ensureSwarm i).2.lastBeat.insert agentId now }
      (c.joinSwarm i agentId nodeId role capabilities now).2 := by
  unfold joinSwarm
  simp only
  split
  · refine Steady.trans ?_ (steady_runElection _ _)
    exact ⟨rfl, rfl, rfl, rfl, le_rfl⟩
  · exact ⟨rfl, rfl, rfl, rfl, le_rfl⟩

theorem steady_leaveSwarm (c : Coordinator) (i agentId reason : String) :
    Steady c (c.leaveSwarm i agentId reason) := by
  unfold leaveSwarm
  split
  · exact .rfl
  · split
    · simp only
      split
      · refine Steady.trans ?_ (steady_runElection _ _)
        exact ⟨rfl, rfl, rfl, rfl, le_rfl⟩
      · exact ⟨rfl, rfl, rfl, rfl, le_rfl⟩
    · exact .rfl

/-- A delegation is a new last choice. -/
theorem steady_delegateTask (c : Coordinator) (i : String) (task : Task) (fromAgent delegationId : String) :
    ∃ rr, Steady { c with rr } (c.delegateTask i task fromAgent delegationId).2 ∧
      ∀ j, j ≠ i → rr.get? j = c.rr.get? j := by
  unfold delegateTask
  split
  · exact ⟨c.rr, .rfl, fun _ _ => rfl⟩
  · simp only
    split
    · exact ⟨c.rr, .rfl, fun _ _ => rfl⟩
    · exact ⟨_, ⟨rfl, rfl, rfl, rfl, le_rfl⟩, fun j hj => Dict.get?_insert_of_ne _ hj _⟩

theorem steady_completeDelegation (c : Coordinator) (delegationId resultSummary : String) :
    Steady c (c.completeDelegation delegationId resultSummary).2 := by
  unfold completeDelegation
  split
  · exact .rfl
  · exact ⟨rfl, rfl, rfl, rfl, le_rfl⟩

theorem steady_checkMember (c : Coordinator) (now : ℚ) (i a : String) :
    Steady c (checkMember now i a c).2 := by
  unfold checkMember
  split
  · exact .rfl
  · split
    · exact .rfl
    · simp only
      split
      · split
        · refine Steady.trans ?_ (steady_runElection _ i)
          exact ⟨rfl, rfl, rfl, rfl, le_rfl⟩
        · exact ⟨rfl, rfl, rfl, rfl, le_rfl⟩
      · split
        · split
          · exact ⟨rfl, rfl, rfl, rfl, le_rfl⟩
          · exact ⟨rfl, rfl, rfl, rfl, le_rfl⟩
        · exact .rfl

/-- What holds of every swarm in the store still does when one of them is replaced. -/
theorem forall_swarms_of_update {P : Swarm → Prop} {c' : Coordinator} {r : Option Swarm}
    (h : ∀ j s, c.getSwarm j = some s → P s)
    (hget : ∀ j, c'.getSwarm j = if j = i then r else c.getSwarm j) (hr : ∀ s, r = some s → P s) :
    ∀ j s, c'.getSwarm j = some s → P s := by
  intro j s hs
  rw [hget] at hs
  split at hs
  · exact hr s hs
  · exact h j s hs

/-- What every check of a member keeps, a check of all members keeps. -/
theorem checkPartitions_keeps {I : Coordinator → Prop} {now : ℚ}
    (hI : ∀ i agentId c, I c → I (checkMember now i agentId c).2) (h : I c) :
    I (c.checkPartitions now).2 :=
  Loops.forEach_keeps (I := I) (fun s _ hs => Loops.forEach_keeps (I := I) (hI s.swarmId) _ _ hs) _ _ h

end Coordinator

end Hermes

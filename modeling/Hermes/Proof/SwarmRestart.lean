import Hermes.Spec.SwarmDatabase
import Hermes.Proof.SwarmSteps

/-!
# The operations with and without the database

With the tables left aside, each operation is that of the coordinator: what an operation changes in
place and then puts is what the coordinator has after it.

* `coord_runElection`, `coord_joinSwarm`, …: one lemma for each operation.
* `coord_applyOp`, `coord_assignRole`: the coordinator after an operation.
-/

namespace Hermes

namespace SwarmDb

open Coordinator

variable {δ : Type} (C : SwarmCodec δ) (d : SwarmDb δ)

/-- A swarm that is put where it was changed in place. -/
theorem persist_persist (c : Coordinator) {s s' : Swarm} (h : s.swarmId = s'.swarmId) :
    (c.persistSwarm s).persistSwarm s' = c.persistSwarm s' := by
  unfold Coordinator.persistSwarm
  simp only
  rw [Index.put_put h]

theorem coord_createSwarm (swarmId : String) (topology : SwarmTopology) :
    (d.createSwarm C swarmId topology).1 = (d.coord.createSwarm swarmId topology).1 ∧
      (d.createSwarm C swarmId topology).2.coord = (d.coord.createSwarm swarmId topology).2 := by
  unfold createSwarm Coordinator.createSwarm
  cases (if d.coord.listSwarms.any (textIsSwarm swarmId) then d.coord.getSwarm swarmId else none) with
  | none => exact ⟨rfl, rfl⟩
  | some s => exact ⟨rfl, rfl⟩

theorem coord_runElection (swarmId : String) :
    (d.runElection C swarmId).1 = (d.coord.runElection swarmId).1 ∧
      (d.runElection C swarmId).2.coord = (d.coord.runElection swarmId).2 := by
  unfold runElection Coordinator.runElection
  cases d.coord.getSwarm swarmId with
  | none => exact ⟨rfl, rfl⟩
  | some s =>
    simp only
    split
    · exact ⟨rfl, rfl⟩
    · exact ⟨rfl, rfl⟩

theorem coord_ensureSwarm (swarmId : String) :
    (d.ensureSwarm C swarmId).1 = (d.coord.ensureSwarm swarmId).1 ∧
      (d.ensureSwarm C swarmId).2.coord = (d.coord.ensureSwarm swarmId).2 := by
  unfold ensureSwarm Coordinator.ensureSwarm
  cases d.coord.getSwarm swarmId with
  | none => exact coord_createSwarm C d swarmId _
  | some s => exact ⟨rfl, rfl⟩

theorem coord_joinSwarm (swarmId agentId nodeId role : String) (capabilities : List String) (now : ℚ) :
    (d.joinSwarm C swarmId agentId nodeId role capabilities now).2.coord =
      (d.coord.joinSwarm swarmId agentId nodeId role capabilities now).2 := by
  obtain ⟨hs, hc⟩ := coord_ensureSwarm C d swarmId
  unfold joinSwarm Coordinator.joinSwarm
  simp only [← hs, ← hc]
  set s : Swarm := { (d.ensureSwarm C swarmId).1 with
    members := (d.ensureSwarm C swarmId).1.members.put
      { agentId, nodeId, role, health := .healthy, capabilities } }
  have hput : ∀ (lastBeat : Dict String ℚ) (e : SwarmEvent),
      (((((d.ensureSwarm C swarmId).2.mutate s).update fun c => { c with lastBeat }).persistSwarm C
        s).publish e).coord =
        ({ (d.ensureSwarm C swarmId).2.coord with lastBeat }.persistSwarm s).publish e := by
    intro lastBeat e
    have hsame := persist_persist { (d.ensureSwarm C swarmId).2.coord with lastBeat }
      (show s.swarmId = s.swarmId from rfl)
    exact congrArg (fun c => c.publish e) hsame
  split
  · rw [(coord_runElection C _ swarmId).2]
    exact congrArg (fun c => (c.runElection swarmId).2) (hput _ _)
  · exact hput _ _

/-- What is changed in place, published and put. -/
theorem coord_publish_put {s s' : Swarm} (h : s.swarmId = s'.swarmId) (e : SwarmEvent) :
    (((d.mutate s).publish e).persistSwarm C s').coord = (d.coord.publish e).persistSwarm s' :=
  persist_persist (d.coord.publish e) h

theorem coord_publish_elect {s s' : Swarm} (h : s.swarmId = s'.swarmId) (e : SwarmEvent)
    (swarmId : String) :
    ((((d.mutate s).publish e).mutate s').runElection C swarmId).2.coord =
      (((d.coord.publish e).persistSwarm s').runElection swarmId).2 := by
  rw [(coord_runElection C _ swarmId).2]
  exact congrArg (fun c => (c.runElection swarmId).2) (persist_persist (d.coord.publish e) h)

theorem coord_leaveSwarm (swarmId agentId reason : String) :
    (d.leaveSwarm C swarmId agentId reason).coord = d.coord.leaveSwarm swarmId agentId reason := by
  unfold leaveSwarm Coordinator.leaveSwarm
  cases d.coord.getSwarm swarmId with
  | none => rfl
  | some s =>
    simp only
    split
    · split
      · refine coord_publish_elect C d ?_ _ swarmId
        rfl
      · refine coord_publish_put C d ?_ _
        rfl
    · rfl

theorem coord_beats (nodeId agentId : String) (swarms : List Swarm) :
    ∀ d : SwarmDb δ, (swarms.foldl (beatSwarm C nodeId agentId) d).coord =
      { d.coord with
        store := { d.coord.store with
          mem := swarms.foldl (fun mem s => match s.members.get? agentId with
            | some m => if m.nodeId = nodeId then
                mem.put { s with members := s.members.put { m with health := .healthy } } else mem
            | none => mem) d.coord.store.mem } } := by
  induction swarms with
  | nil => intro d; rfl
  | cons s swarms ih =>
    intro d
    rw [List.foldl_cons, List.foldl_cons, ih]
    unfold beatSwarm
    cases s.members.get? agentId with
    | none => rfl
    | some m =>
      simp only
      split
      · rfl
      · rfl

theorem coord_handleHeartbeat (nodeId agentId : String) (loadScore now : ℚ) :
    (d.handleHeartbeat C nodeId agentId loadScore now).coord =
      d.coord.handleHeartbeat nodeId agentId loadScore now := by
  unfold handleHeartbeat Coordinator.handleHeartbeat
  simp only
  show Coordinator.publish { (d.coord.listSwarms.foldl (beatSwarm C nodeId agentId) d).coord with
    load := _, lastBeat := _ } _ = _
  rw [coord_beats]
  have hmem : d.coord.store.mem.values.foldl (fun mem s => match s.members.get? agentId with
      | some m => if m.nodeId = nodeId then
          mem.put { s with members := s.members.put { m with health := .healthy } } else mem
      | none => mem) d.coord.store.mem =
        d.coord.store.mem.map (beat nodeId agentId) (swarmId_beat nodeId agentId) := by
    refine Index.foldl_put_map _ _ _ fun mem s hs => ?_
    unfold beat
    cases s.members.get? agentId with
    | none => exact (Index.put_self hs).symm
    | some m =>
      simp only
      split
      · rfl
      · exact (Index.put_self hs).symm
  unfold listSwarms
  rw [hmem]

theorem coord_checkMember (now : ℚ) (swarmId agentId : String) :
    (checkMember C now swarmId agentId d).1 =
        (Coordinator.checkMember now swarmId agentId d.coord).1 ∧
      (checkMember C now swarmId agentId d).2.coord =
        (Coordinator.checkMember now swarmId agentId d.coord).2 := by
  unfold checkMember Coordinator.checkMember
  cases d.coord.getSwarm swarmId with
  | none => exact ⟨rfl, rfl⟩
  | some s =>
    simp only
    cases s.members.get? agentId with
    | none => exact ⟨rfl, rfl⟩
    | some m =>
      simp only
      split
      · split
        · refine ⟨rfl, coord_publish_elect C d ?_ _ swarmId⟩
          rfl
        · refine ⟨rfl, coord_publish_put C d ?_ _⟩
          rfl
      · split
        · by_cases hzero : d.coord.suspicionMs = 0
          · rw [if_pos (show (d.mutate _).coord.suspicionMs = 0 from hzero),
              if_pos (show (d.coord.persistSwarm _).suspicionMs = 0 from hzero)]
            exact ⟨rfl, rfl⟩
          · rw [if_neg (show ¬(d.mutate _).coord.suspicionMs = 0 from hzero),
              if_neg (show ¬(d.coord.persistSwarm _).suspicionMs = 0 from hzero)]
            refine ⟨rfl, coord_publish_put C d ?_ _⟩
            rfl
        · exact ⟨rfl, rfl⟩

theorem coord_checkPartitions (now : ℚ) :
    (d.checkPartitions C now).1 = (d.coord.checkPartitions now).1 ∧
      (d.checkPartitions C now).2.coord = (d.coord.checkPartitions now).2 := by
  unfold checkPartitions Coordinator.checkPartitions
  refine Loops.forEach_proj (π := SwarmDb.coord) (fun s d => ?_) _ d
  exact Loops.forEach_proj (π := SwarmDb.coord)
    (fun agentId d => coord_checkMember C d now s.swarmId agentId) _ d

theorem coord_delegateTask (swarmId : String) (task : Task) (fromAgent delegationId : String) :
    (d.delegateTask C swarmId task fromAgent delegationId).1 =
        (d.coord.delegateTask swarmId task fromAgent delegationId).1 ∧
      (d.delegateTask C swarmId task fromAgent delegationId).2.coord =
        (d.coord.delegateTask swarmId task fromAgent delegationId).2 := by
  unfold delegateTask Coordinator.delegateTask
  cases d.coord.getSwarm swarmId with
  | none => exact ⟨rfl, rfl⟩
  | some s =>
    simp only
    cases ((eligible s task.capability fromAgent).insertionSort fun a b =>
        keyLe (d.coord.sortKey swarmId a) (d.coord.sortKey swarmId b)).head? with
    | none => exact ⟨rfl, rfl⟩
    | some chosen => exact ⟨rfl, rfl⟩

theorem coord_completeDelegation (delegationId resultSummary : String) :
    (d.completeDelegation C delegationId resultSummary).1 =
        (d.coord.completeDelegation delegationId resultSummary).1 ∧
      (d.completeDelegation C delegationId resultSummary).2.coord =
        (d.coord.completeDelegation delegationId resultSummary).2 := by
  unfold completeDelegation Coordinator.completeDelegation
  cases d.coord.delegations.get? delegationId with
  | none => exact ⟨rfl, rfl⟩
  | some x => exact ⟨rfl, rfl⟩

/-- **The coordinator** after an operation is what it is without a database. -/
theorem coord_applyOp (op : SwarmOp) : (d.applyOp C op).2.coord = d.coord.apply op := by
  cases op with
  | create swarmId topology => exact (coord_createSwarm C d swarmId topology).2
  | join swarmId agentId nodeId role capabilities now => exact coord_joinSwarm C d _ _ _ _ _ now
  | leave swarmId agentId reason => exact coord_leaveSwarm C d swarmId agentId reason
  | heartbeat nodeId agentId loadScore now => exact coord_handleHeartbeat C d _ _ loadScore now
  | check now => exact (coord_checkPartitions C d now).2
  | delegate swarmId task fromAgent delegationId => exact (coord_delegateTask C d _ task _ _).2
  | complete delegationId resultSummary => exact (coord_completeDelegation C d _ _).2

theorem coord_assignRole (swarmId agentId role : String) :
    (d.assignRole C swarmId agentId role).1 =
        (TeamManager.assignRole { coord := d.coord } swarmId agentId role).1 ∧
      (d.assignRole C swarmId agentId role).2.coord =
        (TeamManager.assignRole { coord := d.coord } swarmId agentId role).2.coord := by
  unfold assignRole TeamManager.assignRole
  simp only
  cases d.coord.getSwarm swarmId with
  | none => exact ⟨rfl, rfl⟩
  | some s =>
    simp only
    cases s.members.get? agentId with
    | none => exact ⟨rfl, rfl⟩
    | some m =>
      simp only
      split
      · exact ⟨rfl, rfl⟩
      · exact ⟨rfl, persist_persist d.coord rfl⟩

end SwarmDb

/-!
## Swarms that survive a restart

An operation changes a swarm in place, may publish, and puts the swarm at its end, by itself or by
an election. So at the end of each operation the rows are those of the objects, and between the
two only the row of that swarm may be old (`SavedBut`).

* `saved_applyOp`, `saved_assignRole`: an operation that returns leaves the rows of the objects.
* `Saved.loads`: then the rows are read back as the swarms and delegations in memory.
* `swarms_survive`: so after every sequence of operations that return, with restarts among them.
-/

namespace SwarmDb

open Coordinator WriteThrough

variable {δ : Type} {C : SwarmCodec δ} {d : SwarmDb δ} {k : String} {s : Swarm}

/-- A swarm in memory, as JSON has it. -/
def live (d : SwarmDb δ) (swarmId : String) : Option SwarmData :=
  (d.coord.getSwarm swarmId).map Swarm.data

/-- The row of a delegation. -/
def delegationRow (C : SwarmCodec δ) (x : TaskDelegation) : String × δ :=
  (x.swarmId, C.dumpDelegation x)

/-- The tables hold the rows of the swarms and delegations in memory. -/
structure Saved (C : SwarmCodec δ) (d : SwarmDb δ) : Prop where
  swarms : Mirrors C.dumpSwarm d.swarms d.live
  delegations : Mirrors (delegationRow C) d.delegations d.coord.store.delegations.get?

/-- The row of one swarm may be old. -/
structure SavedBut (k : String) (C : SwarmCodec δ) (d : SwarmDb δ) : Prop where
  swarms : MirrorsBut k C.dumpSwarm d.swarms d.live
  delegations : Mirrors (delegationRow C) d.delegations d.coord.store.delegations.get?

theorem Saved.but (h : Saved C d) (k : String) : SavedBut k C d := ⟨h.swarms.but k, h.delegations⟩

/-! ## The store -/

theorem live_mutate (s : Swarm) (j : String) :
    (d.mutate s).live j = if j = s.swarmId then some s.data else d.live j := by
  unfold live mutate
  rw [getSwarm_persist]
  split
  · rfl
  · rfl

theorem SavedBut.mutate (h : SavedBut k C d) (hs : s.swarmId = k) : SavedBut k C (d.mutate s) where
  swarms := h.swarms.change fun j hj => by
    rw [live_mutate, if_neg (hs.symm ▸ hj)]
  delegations := h.delegations

/-- **The swarm is put**: all rows are those of the objects. -/
theorem SavedBut.persist (h : SavedBut k C d) (hs : s.swarmId = k) : Saved C (d.persistSwarm C s) := by
  subst hs
  have hlive : ∀ j, (d.persistSwarm C s).live j = (d.mutate s).live j := fun _ => rfl
  refine ⟨h.swarms.write ?_ fun j hj => ?_, h.delegations⟩
  · rw [hlive, live_mutate, if_pos rfl]
  · rw [hlive, live_mutate, if_neg hj]

/-- What leaves the swarms and delegations of the store leaves the rows. -/
theorem Saved.update (h : Saved C d) {f : Coordinator → Coordinator}
    (hf : (f d.coord).store = d.coord.store) : Saved C (d.update f) := by
  have hlive : (d.update f).live = d.live := by
    funext j
    unfold live getSwarm SwarmDb.update
    simp only
    rw [hf]
  refine ⟨?_, ?_⟩
  · rw [hlive]
    exact h.swarms
  · show Mirrors (delegationRow C) d.delegations (f d.coord).store.delegations.get?
    rw [hf]
    exact h.delegations

theorem SavedBut.publish (h : SavedBut k C d) (e : SwarmEvent) : SavedBut k C (d.publish e) :=
  ⟨h.swarms, h.delegations⟩

theorem Saved.publish (h : Saved C d) (e : SwarmEvent) : Saved C (d.publish e) :=
  ⟨h.swarms, h.delegations⟩

theorem Saved.putDelegation (h : Saved C d) (x : TaskDelegation) : Saved C (d.putDelegation C x) where
  swarms := h.swarms
  delegations := by
    have hget : ∀ j, (d.coord.store.delegations.put x).get? j =
        if j = x.delegationId then some x else d.coord.store.delegations.get? j :=
      Index.get?_put _ _
    refine (h.delegations.but x.delegationId).write (v := x) ?_ fun j hj => ?_
    · exact (hget _).trans (if_pos rfl)
    · exact (hget j).trans (if_neg hj)

/-! ## The operations -/

theorem saved_createSwarm (h : Saved C d) (swarmId : String) (topology : SwarmTopology) :
    Saved C (d.createSwarm C swarmId topology).2 := by
  unfold createSwarm
  cases (if d.coord.listSwarms.any (textIsSwarm swarmId) then d.coord.getSwarm swarmId else none) with
  | some s => exact h
  | none => exact ((h.update (f := fun c => { c with made := c.made + 1 }) rfl).but swarmId).persist rfl

/-- **An election** puts the swarm, whoever is elected. -/
theorem saved_runElection (h : SavedBut k C d) (hk : (d.coord.getSwarm k).isSome) :
    Saved C (d.runElection C k).2 := by
  obtain ⟨s, hs⟩ := Option.isSome_iff_exists.1 hk
  have hid := swarmId_of_get hs
  unfold runElection
  rw [hs]
  simp only
  split
  · exact (h.persist (s := { s with leaderId := bully s }) hid).publish _
  · exact h.persist hid

theorem Saved.runElection (h : Saved C d) (swarmId : String) :
    Saved C (d.runElection C swarmId).2 := by
  cases hs : d.coord.getSwarm swarmId with
  | some s => exact saved_runElection (h.but swarmId) (by rw [hs]; rfl)
  | none =>
    unfold SwarmDb.runElection
    rw [hs]
    exact h

theorem saved_ensureSwarm (h : Saved C d) (swarmId : String) :
    Saved C (d.ensureSwarm C swarmId).2 := by
  unfold ensureSwarm
  cases d.coord.getSwarm swarmId with
  | some s => exact h
  | none => exact saved_createSwarm h swarmId _

theorem saved_joinSwarm (h : Saved C d) (swarmId agentId nodeId role : String)
    (capabilities : List String) (now : ℚ) :
    Saved C (d.joinSwarm C swarmId agentId nodeId role capabilities now).2 := by
  have hensured := saved_ensureSwarm h swarmId
  unfold joinSwarm
  simp only
  set s : Swarm := { (d.ensureSwarm C swarmId).1 with
    members := (d.ensureSwarm C swarmId).1.members.put
      { agentId, nodeId, role, health := .healthy, capabilities } }
  have hchanged : SavedBut s.swarmId C (((d.ensureSwarm C swarmId).2.mutate s).update fun c =>
      { c with lastBeat := c.lastBeat.insert agentId now }) := by
    have hmutated := (hensured.but s.swarmId).mutate (s := s) rfl
    exact ⟨hmutated.swarms, hmutated.delegations⟩
  have hput := (hchanged.persist (s := s) rfl).publish
    (.joined swarmId agentId nodeId role capabilities)
  split
  · exact hput.runElection swarmId
  · exact hput

/-- An election after the swarm was changed in place. -/
theorem saved_elect (h : Saved C d) {s' : Swarm} (hs : s.swarmId = k) (hs' : s'.swarmId = k)
    (e : SwarmEvent) : Saved C ((((d.mutate s).publish e).mutate s').runElection C k).2 := by
  have hchanged := (((h.but k).mutate hs).publish e).mutate hs'
  refine saved_runElection hchanged ?_
  have hget : (((d.mutate s).publish e).mutate s').coord.getSwarm k = some s' := by
    subst hs'
    exact (getSwarm_persist _ _ _).trans (if_pos rfl)
  rw [hget]
  rfl

/-- The swarm is put after it was changed in place. -/
theorem saved_put (h : Saved C d) (e : SwarmEvent) :
    Saved C (((d.mutate s).publish e).persistSwarm C s) :=
  (((h.but s.swarmId).mutate rfl).publish e).persist rfl

theorem saved_leaveSwarm (h : Saved C d) (swarmId agentId reason : String) :
    Saved C (d.leaveSwarm C swarmId agentId reason) := by
  unfold leaveSwarm
  cases hs : d.coord.getSwarm swarmId with
  | none => exact h
  | some s =>
    have hid := swarmId_of_get hs
    simp only
    split
    · split
      · refine saved_elect h ?_ ?_ _
        · exact hid
        · exact hid
      · exact saved_put h _
    · exact h

theorem saved_beats (nodeId agentId : String) (swarms : List Swarm) :
    ∀ d : SwarmDb δ, Saved C d → Saved C (swarms.foldl (beatSwarm C nodeId agentId) d) := by
  induction swarms with
  | nil => exact fun _ h => h
  | cons s swarms ih =>
    intro d h
    refine ih _ ?_
    unfold beatSwarm
    split
    · split
      · exact (h.but s.swarmId).persist rfl
      · exact h
    · exact h

theorem saved_handleHeartbeat (h : Saved C d) (nodeId agentId : String) (loadScore now : ℚ) :
    Saved C (d.handleHeartbeat C nodeId agentId loadScore now) := by
  have hbeats := saved_beats nodeId agentId d.coord.listSwarms d h
  exact (hbeats.update (f := fun c => { c with
    load := c.load.insert agentId loadScore
    lastBeat := c.lastBeat.insert agentId now }) rfl).publish _

/-- **The check of a member** puts its swarm if it returns. -/
theorem saved_checkMember (now : ℚ) (swarmId agentId : String) (d : SwarmDb δ) (h : Saved C d)
    (hok : ∃ xs, (checkMember C now swarmId agentId d).1 = .ok xs) :
    Saved C (checkMember C now swarmId agentId d).2 := by
  unfold checkMember at hok ⊢
  cases hs : d.coord.getSwarm swarmId with
  | none => exact h
  | some s =>
    have hid := swarmId_of_get hs
    rw [hs] at hok
    simp only at hok ⊢
    cases hm : s.members.get? agentId with
    | none => exact h
    | some m =>
      rw [hm] at hok
      simp only at hok ⊢
      by_cases hfailed : (d.coord.failureMs : ℚ) ≤ d.coord.age now agentId ∧ m.health ≠ .unhealthy
      · rw [if_pos hfailed]
        split
        · refine saved_elect h ?_ ?_ _
          · exact hid
          · exact hid
        · exact saved_put h _
      · rw [if_neg hfailed] at hok ⊢
        by_cases hsuspected : (d.coord.suspicionMs : ℚ) ≤ d.coord.age now agentId ∧
            m.health = .healthy
        · rw [if_pos hsuspected] at hok ⊢
          split at hok
          · obtain ⟨xs, hxs⟩ := hok
            cases hxs
          · rename_i hnonzero
            rw [if_neg hnonzero]
            exact saved_put h _
        · rw [if_neg hsuspected]
          exact h

theorem saved_checkPartitions (h : Saved C d) (now : ℚ)
    (hok : ∃ xs, (d.checkPartitions C now).1 = .ok xs) : Saved C (d.checkPartitions C now).2 := by
  refine Loops.forEach_keeps_of_returns (I := Saved C) (fun s d h hok => ?_) _ d h hok
  exact Loops.forEach_keeps_of_returns (I := Saved C)
    (fun agentId d h hok => saved_checkMember now s.swarmId agentId d h hok) _ d h hok

theorem saved_delegateTask (h : Saved C d) (swarmId : String) (task : Task)
    (fromAgent delegationId : String) :
    Saved C (d.delegateTask C swarmId task fromAgent delegationId).2 := by
  unfold delegateTask
  split
  · exact h
  · simp only
    split
    · exact h
    · rename_i s _ chosen _
      have hchosen := h.update (f := fun c => { c with
        rr := c.rr.insert swarmId chosen.agentId
        delegations := c.delegations.put
          { delegationId, taskId := task.id, fromAgent, toAgent := chosen.agentId, swarmId } }) rfl
      exact (hchosen.putDelegation _).publish _

theorem saved_completeDelegation (h : Saved C d) (delegationId resultSummary : String) :
    Saved C (d.completeDelegation C delegationId resultSummary).2 := by
  unfold completeDelegation
  split
  · exact h
  · rename_i x _
    have hdone := h.update (f := fun c => { c with
      delegations := c.delegations.put { x with status := "completed" } }) rfl
    exact (hdone.putDelegation _).publish _

/-- **An operation that returns** leaves the rows of the objects. -/
theorem saved_applyOp (h : Saved C d) (op : SwarmOp) (hok : (d.applyOp C op).1 = .ok ()) :
    Saved C (d.applyOp C op).2 := by
  cases op with
  | create swarmId topology => exact saved_createSwarm h swarmId topology
  | join swarmId agentId nodeId role capabilities now => exact saved_joinSwarm h _ _ _ _ _ now
  | leave swarmId agentId reason => exact saved_leaveSwarm h swarmId agentId reason
  | heartbeat nodeId agentId loadScore now => exact saved_handleHeartbeat h _ _ loadScore now
  | check now =>
    refine saved_checkPartitions h now ?_
    have hreturns : (d.checkPartitions C now).1.map (fun _ => ()) = .ok () := hok
    cases hxs : (d.checkPartitions C now).1 with
    | error e =>
      rw [hxs] at hreturns
      cases hreturns
    | ok xs => exact ⟨xs, rfl⟩
  | delegate swarmId task fromAgent delegationId => exact saved_delegateTask h _ task _ _
  | complete delegationId resultSummary => exact saved_completeDelegation h _ _

theorem saved_assignRole (h : Saved C d) (swarmId agentId role : String) :
    Saved C (d.assignRole C swarmId agentId role).2 := by
  unfold assignRole
  simp only
  split
  · exact h
  · split
    · exact h
    · split
      · exact h
      · exact ((h.but _).mutate rfl).persist rfl

/-! ## A restart -/

/-- A store that is opened on the database has the swarms and delegations of this one. -/
def SurvivesRestart (C : SwarmCodec δ) (d : SwarmDb δ) : Prop :=
  ∃ swarms delegations, d.loadSwarms C = .ok swarms ∧ d.loadDelegations C = .ok delegations ∧
    (∀ swarmId, swarms.get? swarmId = d.live swarmId) ∧
      ∀ id, delegations.get? id = d.coord.store.delegations.get? id

theorem swarmId_live {x : SwarmData} (h : d.live k = some x) : x.swarmId = k := by
  obtain ⟨s, hs, rfl⟩ := Option.map_eq_some_iff.1 h
  exact swarmId_of_get hs

/-- **The rows are read back** as what is in memory. -/
theorem Saved.loads (hC : C.RoundTrips) (h : Saved C d) : SurvivesRestart C d := by
  obtain ⟨swarms, hswarms, hlive⟩ := h.swarms.load (fun swarmId _ => swarmId) C.parseSwarm hC.swarm
    fun _ _ _ => rfl
  have hids : ∀ id x, d.coord.store.delegations.get? id = some x → x.delegationId = id :=
    fun _ _ hx => Index.key_of_get? hx
  obtain ⟨delegations, hdelegations, hget⟩ := h.delegations.load (fun _ x => x.delegationId)
    (fun row => C.parseDelegation row.2) hC.delegation hids
  exact ⟨swarms, delegations, hswarms, hdelegations, hlive, hget⟩

/-- The values of a dictionary, put under their own keys. -/
theorem get?_foldl_put {ν μ : Type} (key : ν → String) {key' : μ → String} (x : Dict String μ)
    (hown : ∀ j v, x.get? j = some v → key' v = j) {f : μ → ν} (hf : ∀ v, key (f v) = key' v)
    (j : String) :
    (x.values.foldl (fun t v => t.put (f v)) (∅ : Index key)).get? j = (x.get? j).map f := by
  let y : Index key' :=
    { dict := x
      own := fun e he => hown e.1 e.2 (Dict.get?_of_mem he) }
  have hput := Index.get?_foldl y hf Index.get?_put (∅ : Index key) j
  rw [Index.get?_empty, Option.or_none] at hput
  exact hput

/-- **A store that is opened** on the rows has the objects of these rows. -/
theorem Saved.reopen (hC : C.RoundTrips) (h : Saved C d) (suspicionMs failureMs : ℤ) :
    ∃ d', d.reopen C suspicionMs failureMs = .ok d' ∧ Saved C d' := by
  obtain ⟨swarms, delegations, hswarms, hdelegations, hlive, hget⟩ := h.loads hC
  have hreopen : d.reopen C suspicionMs failureMs = .ok
      { d with coord :=
        { store :=
            { mem := swarms.values.foldl (fun mem x =>
                mem.put (x.object (swarms.keys.idxOf x.swarmId))) ∅
              delegations := delegations.values.foldl Index.put ∅ }
          suspicionMs, failureMs, made := swarms.values.length } } := by
    unfold SwarmDb.reopen
    rw [hswarms, hdelegations]
    rfl
  refine ⟨_, hreopen, ?_, ?_⟩
  · intro j
    have hobjects := get?_foldl_put Swarm.swarmId swarms
      (fun j v hv => swarmId_live ((hlive j).symm.trans hv))
      (f := fun x => x.object (swarms.keys.idxOf x.swarmId)) (fun _ => rfl) j
    have hsame : (d.live j).map C.dumpSwarm =
        ((swarms.get? j).map fun x => x.object (swarms.keys.idxOf x.swarmId)).map
          (C.dumpSwarm ∘ Swarm.data) := by
      rw [hlive, Option.map_map]
      rfl
    rw [h.swarms j, hsame, ← hobjects, ← Option.map_map]
    rfl
  · intro j
    have hobjects := get?_foldl_put TaskDelegation.delegationId delegations
      (fun j v hv => Index.key_of_get? ((hget j).symm.trans hv)) (f := id) (fun _ => rfl) j
    rw [Option.map_id, id, hget] at hobjects
    rw [h.delegations j, ← hobjects]
    rfl

theorem saved_complete (hC : C.RoundTrips) (h : Saved C d) {op : SwarmDbOp} {d' : SwarmDb δ}
    (hop : op.complete C d = .ok d') : Saved C d' := by
  cases op with
  | swarm op =>
    have hmap : (d.applyOp C op).1.map (fun _ => (d.applyOp C op).2) = .ok d' := hop
    cases hok : (d.applyOp C op).1 with
    | error e =>
      rw [hok] at hmap
      cases hmap
    | ok u =>
      rw [hok] at hmap
      obtain rfl := Except.ok.inj hmap
      exact saved_applyOp h op hok
  | assignRole swarmId agentId role =>
    have hmap : (d.assignRole C swarmId agentId role).1.map
      (fun _ => (d.assignRole C swarmId agentId role).2) = .ok d' := hop
    cases hok : (d.assignRole C swarmId agentId role).1 with
    | error e =>
      rw [hok] at hmap
      cases hmap
    | ok u =>
      rw [hok] at hmap
      obtain rfl := Except.ok.inj hmap
      exact saved_assignRole h swarmId agentId role
  | reopen suspicionMs failureMs =>
    obtain ⟨d'', hd'', hsaved⟩ := h.reopen hC suspicionMs failureMs
    obtain rfl := Except.ok.inj (hd''.symm.trans hop)
    exact hsaved

/-- A coordinator with a store on a new database. -/
def fresh (suspicionMs failureMs : ℤ) : SwarmDb δ := { coord := { suspicionMs, failureMs } }

theorem saved_fresh (suspicionMs failureMs : ℤ) :
    Saved C (fresh suspicionMs failureMs : SwarmDb δ) where
  swarms _ := rfl
  delegations _ := rfl

/-- **Swarm state survives a restart** after every sequence of operations that return. -/
theorem swarms_survive (hC : C.RoundTrips) (suspicionMs failureMs : ℤ) (ops : List SwarmDbOp)
    (hops : ops.foldlM (SwarmDbOp.complete C) (fresh suspicionMs failureMs) = .ok d) :
    SurvivesRestart C d := by
  have hrun : ∀ (ops : List SwarmDbOp) (d₀ : SwarmDb δ), Saved C d₀ →
      ops.foldlM (SwarmDbOp.complete C) d₀ = .ok d → Saved C d := by
    intro ops
    induction ops with
    | nil =>
      intro d₀ h hd
      obtain rfl := Except.ok.inj hd
      exact h
    | cons op ops ih =>
      intro d₀ h hd
      rw [List.foldlM_cons] at hd
      cases hop : op.complete C d₀ with
      | error e =>
        rw [hop] at hd
        cases hd
      | ok d₁ =>
        rw [hop] at hd
        exact ih d₁ (saved_complete hC h hop) hd
  exact (hrun ops _ (saved_fresh suspicionMs failureMs) hops).loads hC

/-- A model is its own text. -/
def plainSwarmCodec : SwarmCodec (SwarmData ⊕ TaskDelegation) where
  dumpSwarm := .inl
  parseSwarm
    | .inl x => .ok x
    | .inr _ => .error ⟨.valueError, "no swarm"⟩
  dumpDelegation := .inr
  parseDelegation
    | .inr x => .ok x
    | .inl _ => .error ⟨.valueError, "no delegation"⟩

theorem plainSwarmCodec_roundTrips : plainSwarmCodec.RoundTrips := ⟨fun _ => rfl, fun _ => rfl⟩

/-- The leader of a swarm of two leaves, after a restart. -/
theorem swarms_survive_leave : ∃ d,
    [.swarm (.join "s1" "a1" "n1" "worker" [] 0), .swarm (.join "s1" "a2" "n2" "worker" [] 1),
      .assignRole "s1" "a2" "leader", .reopen 3000 10000,
      .swarm (.leave "s1" "a2" "graceful")].foldlM
        (SwarmDbOp.complete plainSwarmCodec) (fresh 3000 10000) = .ok d ∧
      SurvivesRestart plainSwarmCodec d :=
  ⟨_, rfl, swarms_survive plainSwarmCodec_roundTrips 3000 10000
    [.swarm (.join "s1" "a1" "n1" "worker" [] 0), .swarm (.join "s1" "a2" "n2" "worker" [] 1),
      .assignRole "s1" "a2" "leader", .reopen 3000 10000,
      .swarm (.leave "s1" "a2" "graceful")] rfl⟩

end SwarmDb

end Hermes

import Hermes.Lib.Variance
import Hermes.Spec.Replan
import Hermes.Proof.RoundRobin
import Hermes.Spec.Team

/-!
# When loads are rebalanced

The loads of members lie between 0 and 1, so that their variance is at most a quarter, and a trigger
needs more than a half.

* `rebalanceLoad_spec`: what a trigger says, and the variance that it takes.
* `rebalance_never`: no loads in the range make a trigger; one that is made is from a member with the
  highest load to one with the lowest.
-/

namespace Hermes

namespace Coordinator

variable {c : Coordinator} {s : Swarm} {swarmId triggerId : String}

/-- The trigger is from a member with the highest load to one with the lowest. -/
structure Levels (c : Coordinator) (s : Swarm) (t : Trigger) (hi lo : SwarmMember) : Prop where
  source : hi ∈ balanced s ∧ t.context.get? "from_agent" = some hi.agentId
  target : lo ∈ balanced s ∧ t.context.get? "to_agent" = some lo.agentId
  highest : ∀ m ∈ balanced s, c.loadScore m ≤ c.loadScore hi
  lowest : ∀ m ∈ balanced s, c.loadScore lo ≤ c.loadScore m

/-- **What a trigger takes**, and what it says. -/
theorem rebalanceLoad_spec {t : Trigger} (h : c.rebalanceLoad swarmId triggerId = .ok (some t)) :
    ∃ s, c.getSwarm swarmId = some s ∧ 1 / 2 < Variance.variance ((balanced s).map c.loadScore) ∧
      ∃ hi lo, Levels c s t hi lo := by
  unfold rebalanceLoad at h
  cases hs : c.getSwarm swarmId with
  | none =>
    rw [hs] at h
    cases h
  | some s =>
    rw [hs] at h
    simp only at h
    split at h
    · cases h
    · split at h
      · cases h
      · rename_i hspread
        split at h
        · rename_i hi lo hhi hlo
          split at h
          · cases h
          · cases h
            refine ⟨s, rfl, not_le.1 hspread, hi, lo, ⟨List.argmax_mem hhi, ?_⟩,
              ⟨List.argmin_mem hlo, Dict.get?_insert_self _ _ _⟩,
              fun m hm => List.le_of_mem_argmax hm hhi, fun m hm => List.le_of_mem_argmin hm hlo⟩
            rw [Dict.get?_insert, if_neg (by decide)]
            exact Dict.get?_insert_self _ _ _
        · cases h

/-- There are `n` healthy members with loads in the range, and a trigger. -/
def CanFire (n : ℕ) : Prop :=
  ∃ (c : Coordinator) (swarmId triggerId : String), ∃ s ∈ c.getSwarm swarmId,
    (balanced s).length = n ∧ (∀ m ∈ balanced s, 0 ≤ c.loadScore m ∧ c.loadScore m ≤ 1) ∧
      ∃ t, c.rebalanceLoad swarmId triggerId = .ok (some t)

/-- The variance of loads in the range is at most a quarter. -/
theorem not_canFire (n : ℕ) : ¬ CanFire n := by
  rintro ⟨c, swarmId, triggerId, s, hs, -, hrange, t, ht⟩
  obtain ⟨s', hs', hspread, -⟩ := rebalanceLoad_spec ht
  obtain rfl : s = s' := Option.some.inj ((Option.mem_def.1 hs).symm.trans hs')
  have hloads : ∀ x ∈ (balanced s).map c.loadScore, (0 : ℚ) ≤ x ∧ x ≤ 1 := by
    intro x hx
    obtain ⟨m, hm, rfl⟩ := List.mem_map.1 hx
    exact hrange m hm
  have hquarter := Variance.variance_le hloads
  norm_num at hquarter hspread
  linarith

/-- **Rebalancing** does not fire for any number of members; a trigger that loads out of the range
make is from a member with the highest load to one with the lowest. -/
theorem rebalance_never (n : ℕ) (c : Coordinator) (swarmId triggerId : String) :
    ¬ CanFire n ∧
      ∀ t : Trigger, c.rebalanceLoad swarmId triggerId = .ok (some t) →
        ∃ s ∈ c.getSwarm swarmId, ∃ hi lo, Levels c s t hi lo := by
  refine ⟨not_canFire n, fun t ht => ?_⟩
  obtain ⟨s, hs, -, hlevels⟩ := rebalanceLoad_spec ht
  exact ⟨s, hs, hlevels⟩

theorem not_canFire_two : ¬ ∀ n, 2 ≤ n → CanFire n := fun h => not_canFire 2 (h 2 le_rfl)

/-- Two members, one of them with ten times the load that there may be. -/
def overloaded : Coordinator :=
  let c := (({} : Coordinator).joinSwarm "s1" "hi" "n1" "worker" [] 0).2
  let c := (c.joinSwarm "s1" "lo" "n2" "worker" [] 0).2
  (c.handleHeartbeat "n1" "hi" 10 0).handleHeartbeat "n2" "lo" 0 0

theorem rebalance_overloaded : ¬ CanFire 2 ∧
    ∃ t, overloaded.rebalanceLoad "s1" "t" = .ok (some t) ∧
      ∃ s ∈ overloaded.getSwarm "s1", ∃ hi lo, Levels overloaded s t hi lo := by
  have hfires : (overloaded.rebalanceLoad "s1" "t").toOption.join.isSome := by decide +kernel
  cases hrun : overloaded.rebalanceLoad "s1" "t" with
  | error e =>
    rw [hrun] at hfires
    cases hfires
  | ok found =>
    rw [hrun] at hfires
    obtain ⟨t, rfl⟩ := Option.isSome_iff_exists.1 hfires
    have hnever := rebalance_never 2 overloaded "s1" "t"
    exact ⟨hnever.1, t, rfl, hnever.2 t hrun⟩

end Coordinator

/-!
## What distributed execution returns

* `Answers`: the artifact of a task names the member that it was delegated to, or says that there is
  none, and there is none.
* `executeTask_answers`, `executeTask_raises`: the round of a task whose `swarm_id` can be looked up, and
  of any other.
* `executeDistributed_total_iff`: each task has its artifact, in their order, just when every `swarm_id`
  can be looked up.
-/

namespace SwarmIdAttr

/-- The attribute is there, and what it gives can be looked up. -/
def Usable (a : SwarmIdAttr) : Prop := a ≠ .missing ∧ a ≠ .unhashable

instance (a : SwarmIdAttr) : Decidable a.Usable := inferInstanceAs (Decidable (_ ∧ _))

end SwarmIdAttr

namespace Coordinator

/-- **What a delegation does**: it fails when there is no member for the task, and else it is recorded,
for one of them. -/
theorem delegateTask_cases (c : Coordinator) (i : String) (task : Task) (fromAgent delegationId : String) :
    (((c.getSwarm i).elim [] fun s => eligible s task.capability fromAgent) = [] ∧
      ∃ e, (e.kind = .keyError ∨ e.kind = .valueError) ∧
        c.delegateTask i task fromAgent delegationId = (.error e, c)) ∨
    ∃ m ∈ (c.getSwarm i).elim [] fun s => eligible s task.capability fromAgent,
      ∃ d c', c.delegateTask i task fromAgent delegationId =
          (.ok (d, { task with assignedTo := some m.agentId }), c') ∧
        d.delegationId = delegationId ∧ d.taskId = task.id ∧ d.toAgent = m.agentId ∧
        c'.delegations = c.delegations.put d := by
  unfold delegateTask
  cases hs : c.getSwarm i with
  | none => exact .inl ⟨rfl, _, .inl rfl, rfl⟩
  | some s =>
    have hperm := List.perm_insertionSort
      (fun a b : SwarmMember => keyLe (c.sortKey i a) (c.sortKey i b))
      (eligible s task.capability fromAgent)
    simp only [Option.elim_some]
    cases hsort : (eligible s task.capability fromAgent).insertionSort
        fun a b => keyLe (c.sortKey i a) (c.sortKey i b) with
    | nil =>
      rw [hsort] at hperm
      exact .inl ⟨hperm.symm.eq_nil, _, .inr rfl, rfl⟩
    | cons m ms =>
      rw [hsort] at hperm
      exact .inr ⟨m, hperm.subset List.mem_cons_self, _, _, rfl, rfl, rfl, rfl, rfl⟩

/-- A delegation that is recorded can be completed. -/
theorem completeDelegation_ok {c : Coordinator} {d : TaskDelegation} (resultSummary : String)
    (hd : c.delegations.get? d.delegationId = some d) :
    ∃ c', c.completeDelegation d.delegationId resultSummary =
        (.ok { d with status := "completed" }, c') ∧
      { d with status := "completed" } ∈ c'.delegations.values := by
  unfold completeDelegation
  rw [hd]
  exact ⟨_, rfl, Index.mem_values_put.2 (.inl rfl)⟩

end Coordinator

namespace TeamRun

variable {ids : IdSource String} {workflowId : String} {s : TeamRun} {ref : ℕ}

/-- The swarm of a task: that of its `swarm_id`, or else of the workflow. -/
def swarmOf (workflowId : String) (s : TeamRun) (ref : ℕ) : Option Swarm :=
  match (s.tasks ref).swarmId with
  | .text swarmId => s.manager.coord.getSwarm (if swarmId = "" then workflowId else swarmId)
  | .falsy => s.manager.coord.getSwarm workflowId
  | _ => none

/-- The members that may get a task. -/
def membersFor (workflowId : String) (s : TeamRun) (ref : ℕ) : List SwarmMember :=
  let task := (s.tasks ref).task
  (swarmOf workflowId s ref).elim [] fun swarm =>
    Coordinator.eligible swarm task.capability (orElse task.assignedTo "team-manager")

/-- The artifact of a task, between the states before it and after it: it names a member that may get
the task, and there is such a delegation, which is completed; or it says that there is no such member,
and there is none. -/
def Answers (workflowId : String) (ref : ℕ) (s : TeamRun) (a : Artifact) (s' : TeamRun) : Prop :=
  let taskId := (s.tasks ref).task.id
  a.type = "task" ∧
    ((∃ m ∈ membersFor workflowId s ref,
        a.content = .dict [("delegated_to", .str m.agentId), ("task_id", .str taskId)] ∧
        (s'.tasks ref).task.assignedTo = some m.agentId ∧
        ∃ d ∈ s'.manager.coord.delegations.values,
          d.taskId = taskId ∧ d.toAgent = m.agentId ∧ d.status = "completed") ∨
      membersFor workflowId s ref = [] ∧
        a.content = .dict [("error", .str "no eligible member"), ("task_id", .str taskId)])

/-! ## One task -/

/-- The `swarm_id` of a task is as it was. -/
def SameIds (s s' : TeamRun) : Prop := ∀ ref, (s'.tasks ref).swarmId = (s.tasks ref).swarmId

theorem sameIds_setTask {s s' : TeamRun} (h : SameIds s s') (ref : ℕ) {task : DistributedTask}
    (htask : task.swarmId = (s.tasks ref).swarmId) : SameIds s (s'.setTask ref task) := by
  intro other
  unfold setTask
  simp only
  by_cases hother : other = ref
  · rw [hother, Function.update_self, htask]
  · rw [Function.update_of_ne hother, h other]

/-- A task is given the id of its workflow. -/
theorem sameIds_named (workflowId : String) (s : TeamRun) (ref : ℕ) :
    SameIds s (s.setTask ref { s.tasks ref with workflowId := some workflowId }) :=
  sameIds_setTask (fun _ => rfl) ref rfl

/-- A task is not delegated where nobody may get it. -/
theorem noMember_answers {s' : TeamRun} (hnone : membersFor workflowId s ref = []) :
    ∃ a, (s'.noMember ids (s.tasks ref).task.id).1 = .ok [a] ∧
      Answers workflowId ref s a (s'.noMember ids (s.tasks ref).task.id).2 :=
  ⟨_, rfl, rfl, .inr ⟨hnone, rfl⟩⟩

/-- **The round of a task** whose `swarm_id` gives a text to look up. -/
theorem executeTask_text (swarmId : String)
    (hkey : (s.tasks ref).swarmId.key workflowId = .ok (some swarmId))
    (hswarm : swarmOf workflowId s ref = s.manager.coord.getSwarm swarmId) :
    (∃ a, (executeTask ids workflowId ref s).1 = .ok [a] ∧
        Answers workflowId ref s a (executeTask ids workflowId ref s).2) ∧
      SameIds s (executeTask ids workflowId ref s).2 := by
  have hfirst := sameIds_named workflowId s ref
  have hmembers : membersFor workflowId s ref = (s.manager.coord.getSwarm swarmId).elim [] fun swarm =>
      Coordinator.eligible swarm (s.tasks ref).task.capability
        (orElse (s.tasks ref).task.assignedTo "team-manager") := by
    unfold membersFor
    rw [hswarm]
  unfold executeTask
  simp only [hkey]
  rcases Coordinator.delegateTask_cases s.manager.coord swarmId (s.tasks ref).task
    (orElse (s.tasks ref).task.assignedTo "team-manager") (ids.next s.issued) with
    ⟨hnone, e, hkind, herror⟩ | ⟨m, hm, d, c', hok, hid, htask, hto, hrecord⟩
  · have hdelegate : (s.setTask ref
        { s.tasks ref with workflowId := some workflowId }).manager.coord.delegateTask swarmId
        (s.tasks ref).task (orElse (s.tasks ref).task.assignedTo "team-manager")
        ((s.setTask ref { s.tasks ref with workflowId := some workflowId }).newId ids).1 =
          (.error e, s.manager.coord) := herror
    simp only [hdelegate, if_pos hkind]
    exact ⟨noMember_answers (hmembers.trans hnone), fun other => hfirst other⟩
  · have hdelegate : (s.setTask ref
        { s.tasks ref with workflowId := some workflowId }).manager.coord.delegateTask swarmId
        (s.tasks ref).task (orElse (s.tasks ref).task.assignedTo "team-manager")
        ((s.setTask ref { s.tasks ref with workflowId := some workflowId }).newId ids).1 =
          (.ok (d, { (s.tasks ref).task with assignedTo := some m.agentId }), c') := hok
    simp only [hdelegate]
    have hfound : c'.delegations.get? d.delegationId = some d := by
      rw [hrecord, Index.get?_put, if_pos rfl]
    obtain ⟨c'', hcomplete, hdone⟩ :=
      Coordinator.completeDelegation_ok ("ran on " ++ d.toAgent) hfound
    simp only [newId, taskArtifact, setCoord, setTask, hcomplete]
    refine ⟨⟨_, rfl, rfl, .inl ⟨m, hmembers ▸ hm, ?_, ?_, _, hdone, htask, hto, rfl⟩⟩, ?_⟩
    · rw [hto]
    · simp only [Function.update_self]
    · exact sameIds_setTask hfirst ref rfl

/-- **The round of a task** whose `swarm_id` can be looked up. -/
theorem executeTask_answers (h : (s.tasks ref).swarmId.Usable) :
    (∃ a, (executeTask ids workflowId ref s).1 = .ok [a] ∧
        Answers workflowId ref s a (executeTask ids workflowId ref s).2) ∧
      SameIds s (executeTask ids workflowId ref s).2 := by
  have hfirst := sameIds_named workflowId s ref
  cases hattr : (s.tasks ref).swarmId with
  | missing => exact absurd hattr h.1
  | unhashable => exact absurd hattr h.2
  | text swarmId =>
    refine executeTask_text (if swarmId = "" then workflowId else swarmId) ?_ ?_
    · rw [hattr]
      rfl
    · unfold swarmOf
      rw [hattr]
  | falsy =>
    refine executeTask_text workflowId ?_ ?_
    · rw [hattr]
      rfl
    · unfold swarmOf
      rw [hattr]
  | hashable =>
    have hkey : (s.tasks ref).swarmId.key workflowId = .ok none := by
      rw [hattr]
      rfl
    have hnone : membersFor workflowId s ref = [] := by
      unfold membersFor swarmOf
      rw [hattr]
      rfl
    unfold executeTask
    simp only [hkey]
    exact ⟨noMember_answers hnone, fun other => hfirst other⟩

/-- The round of any other task raises. -/
theorem executeTask_raises (h : ¬ (s.tasks ref).swarmId.Usable) :
    (∃ e, (executeTask ids workflowId ref s).1 = .error e) ∧
      SameIds s (executeTask ids workflowId ref s).2 := by
  have hfirst := sameIds_named workflowId s ref
  have herror : ∃ e, (s.tasks ref).swarmId.key workflowId = .error e := by
    unfold SwarmIdAttr.Usable at h
    cases hattr : (s.tasks ref).swarmId with
    | missing => exact ⟨_, rfl⟩
    | unhashable => exact ⟨_, rfl⟩
    | text swarmId => simp [hattr] at h
    | falsy => simp [hattr] at h
    | hashable => simp [hattr] at h
  obtain ⟨e, hkey⟩ := herror
  unfold executeTask
  simp only [hkey]
  exact ⟨⟨e, rfl⟩, hfirst⟩

theorem sameIds_executeTask (ref : ℕ) (s : TeamRun) :
    SameIds s (executeTask ids workflowId ref s).2 := by
  by_cases h : (s.tasks ref).swarmId.Usable
  · exact (executeTask_answers h).2
  · exact (executeTask_raises h).2

/-! ## All tasks -/

/-- **Distributed execution**: each task has its answer, in the order of the tasks. -/
theorem executeDistributed_total_iff (ids : IdSource String) (workflowId : String) (refs : List ℕ)
    (s : TeamRun) :
    (∃ artifacts, (executeDistributed ids workflowId refs s).1 = .ok artifacts ∧
        Loops.Yields (executeTask ids workflowId) (Answers workflowId) refs s artifacts) ↔
      ∀ ref ∈ refs, (s.tasks ref).swarmId.Usable := by
  refine Loops.forEach_yields_iff (C := fun ref s => (s.tasks ref).swarmId.Usable) ?_ ?_ ?_ refs s
  · exact fun ref s h => (executeTask_answers h).1
  · exact fun ref s h => (executeTask_raises h).1
  · intro ref other s
    rw [sameIds_executeTask ref s other]

/-- A worker of a swarm that has the name of the workflow, and a task with the declared fields only. -/
def plainTask : TeamRun where
  manager := { coord := ({} : Coordinator).joinSwarm "wf" "a" "n" "worker" ["cap"] 0 |>.2 }
  tasks _ := { task := { id := "t", capability := some "cap" } }

theorem not_total_plainTask :
    ¬ ∃ artifacts, (executeDistributed IdSource.longer "wf" [0] plainTask).1 = .ok artifacts ∧
        Loops.Yields (executeTask IdSource.longer "wf") (Answers "wf") [0] plainTask artifacts := by
  rintro ⟨artifacts, hok, -⟩
  have hraise : (executeDistributed IdSource.longer "wf" [0] plainTask).1 =
      .error ⟨.attributeError, "'Task' object has no attribute 'swarm_id'"⟩ := rfl
  rw [hraise] at hok
  cases hok

end TeamRun

end Hermes

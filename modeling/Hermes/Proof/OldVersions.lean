import Hermes.Proof.ReplanSteps

/-!
# A replan and the version before it

* `KeepsOld`: the adapted plan is a new one, one version later, and the plan that it was
  made from reads as before.
* `candidate_spec`: the agent that takes over is another one, if there is one.
* `Sweeps.back`: repeating a rule does not undo it.
* `keepsOld_iff`: the old version is kept exactly when the rule finds nothing to assign,
  the LLM answers, or the failed step is split.
* `old_versions_iff`: so in every run.
-/

namespace Hermes

open History

namespace PlanMemory

variable {P : ReplanEnv} {m : PlanMemory} {plan : PlanObject} {t : Trigger}

/-- **A replan keeps the version before it.** -/
structure KeepsOld (P : ReplanEnv) (m : PlanMemory) (plan : PlanObject) (t : Trigger) : Prop where
  fresh : m.plans.get? (m.replan P plan t).1.planId = none
  added : (m.replan P plan t).2.plans.get? (m.replan P plan t).1.planId = some (m.replan P plan t).1
  version : (m.replan P plan t).1.version = plan.version + 1
  stored : (m.replan P plan t).2.plans.get? plan.planId = some plan
  steps : (m.replan P plan t).2.stepsOf plan = m.stepsOf plan

/-- There is an agent to take over from the failed step's. -/
def Replaceable (P : ReplanEnv) (m : PlanMemory) (plan : PlanObject) (t : Trigger) : Prop :=
  m.eligibleMembers P plan (m.failedAgent plan t) ≠ [] ∨
    m.mentionedAgents plan (m.failedAgent plan t) ≠ []

instance : Decidable (Replaceable P m plan t) :=
  inferInstanceAs (Decidable (_ ∨ _))

/-- The rules find nothing to assign to the steps of the plan. -/
structure NothingToAssign (P : ReplanEnv) (m : PlanMemory) (plan : PlanObject) (t : Trigger) :
    Prop where
  capabilityMissing : t.reason = "capability_missing" →
    ∀ s ∈ m.stepsOf plan, s.agentId = none ∧ s.risk = .high
  agentUnhealthy : t.reason = "agent_unhealthy" → ∀ s ∈ m.stepsOf plan,
    if Replaceable P m plan t then
      some s.stepId ≠ t.context.get? "step_id" ∧ s.agentId ≠ none
    else some s.stepId = t.context.get? "step_id" → s.agentId = none
  riskEscalation : t.reason = "risk_escalation" →
    ∀ s ∈ m.stepsOf plan, some s.stepId ≠ t.context.get? "step_id"
  swarmRebalance : t.reason = "swarm_rebalance" → ∀ fromId toId,
    t.context.get? "from_agent" = some fromId → t.context.get? "to_agent" = some toId →
      fromId ≠ toId → ∀ s ∈ m.stepsOf plan, s.agentId ≠ some fromId

/-! ## The agent that takes over -/

theorem choice_mem (P : ReplanEnv) (m : PlanMemory) {agents : List String} (h : agents ≠ []) :
    ∃ a ∈ agents, (m.choice P agents).1 = some a := by
  have hlt : P.rng m.turn % agents.length < agents.length :=
    Nat.mod_lt _ (List.length_pos_iff.2 h)
  exact ⟨_, List.getElem_mem hlt, List.getElem?_eq_getElem hlt⟩

theorem ne_of_mem_eligibleMembers {exclude : Option String} {a : String}
    (ha : a ∈ m.eligibleMembers P plan exclude) : some a ≠ exclude := by
  unfold eligibleMembers at ha
  split at ha
  · cases ha
  · obtain ⟨x, hx, rfl⟩ := List.mem_map.1 ha
    have hne := List.of_mem_filter hx
    simp only [decide_eq_true_eq] at hne
    exact hne.2

theorem ne_of_mem_mentionedAgents {exclude : Option String} {a : String}
    (ha : a ∈ m.mentionedAgents plan exclude) : some a ≠ exclude := by
  have hne := List.of_mem_filter ha
  simpa using hne

/-- **The agent that takes over is another one**, if there is one. -/
theorem candidate_spec (P : ReplanEnv) (m : PlanMemory) (plan : PlanObject) (t : Trigger) :
    if Replaceable P m plan t then
      ∃ a, m.candidate P plan t = some a ∧ some a ≠ m.failedAgent plan t
    else m.candidate P plan t = none := by
  unfold candidate nextEligibleAgent Replaceable
  simp only
  by_cases hmember : m.eligibleMembers P plan (m.failedAgent plan t) = []
  · simp only [hmember, ne_eq, not_true_eq_false, false_or, if_false]
    by_cases hmention : m.mentionedAgents plan (m.failedAgent plan t) = []
    · simp only [hmention, not_true_eq_false, if_false]
    · simp only [hmention, not_false_eq_true, if_true]
      obtain ⟨a, ha, hchoice⟩ := choice_mem P m hmention
      exact ⟨a, hchoice, ne_of_mem_mentionedAgents ha⟩
  · simp only [hmember, ne_eq, not_false_eq_true, true_or, if_true]
    obtain ⟨a, ha, hchoice⟩ := choice_mem P m hmember
    exact ⟨a, hchoice, ne_of_mem_eligibleMembers ha⟩

/-! ## What a rule assigns -/

theorem reassign_eq_self_iff {failed cand : Option String} {s : PlanStep} :
    (reassign failed cand s).1 = s ↔
      (some s.stepId = failed ∨ s.agentId = none → s.agentId = cand) := by
  unfold reassign
  split
  · rename_i h
    constructor
    · intro heq _
      exact (congrArg PlanStep.agentId heq).symm
    · intro himp
      simp only [← himp h]
  · rename_i h
    exact iff_of_true rfl fun h' => absurd h' h

theorem iterate_escalate_retryBudget {failed : Option String} {s : PlanStep}
    (h : some s.stepId = failed) (n : ℕ) :
    some ((fun s => (escalate failed s).1)^[n] s).stepId = failed ∧
      ((fun s => (escalate failed s).1)^[n] s).retryBudget = s.retryBudget + n := by
  induction n with
  | zero => exact ⟨h, (add_zero _).symm⟩
  | succ n ih =>
    obtain ⟨hid, hbudget⟩ := ih
    rw [Function.iterate_succ_apply']
    generalize (fun s => (escalate failed s).1)^[n] s = x at hid hbudget ⊢
    unfold escalate
    rw [if_pos hid]
    refine ⟨hid, ?_⟩
    show x.retryBudget + 1 = _
    rw [hbudget]
    push_cast
    ring

/-- **Repeating a rule does not undo it.** -/
theorem Sweeps.back {rule : PlanStep → PlanStep × List String} (h : Sweeps P m plan t rule) (n : ℕ)
    (s : PlanStep) (hs : (fun s => (rule s).1)^[n + 1] s = s) : (rule s).1 = s := by
  have hidem : (∀ s, (rule (rule s).1).1 = (rule s).1) → (rule s).1 = s := by
    intro hidem
    rwa [Heap.iterate_succ_of_idem (f := fun s => (rule s).1) hidem] at hs
  cases h with
  | capabilityMissing => exact hidem fun s => rfl
  | agentUnhealthy =>
    refine hidem fun s => reassign_eq_self_iff.2 ?_
    unfold reassign
    simp only
    split
    · exact fun _ => rfl
    · rename_i h
      exact fun h' => absurd h' h
  | riskEscalation =>
    unfold escalate
    split
    · -- the budget has grown
      rename_i h
      obtain ⟨-, hbudget⟩ := iterate_escalate_retryBudget h (n + 1)
      rw [hs] at hbudget
      omega
    · rfl
  | swarmRebalance =>
    refine hidem fun s => ?_
    unfold rebalance
    split
    · simp only
      split
      · rfl
      · rfl
    · rename_i h
      rfl

theorem markHigh_eq_self_iff {s : PlanStep} :
    (markHigh s).1 = s ↔ s.agentId = none ∧ s.risk = .high := by
  constructor
  · intro heq
    exact ⟨(congrArg PlanStep.agentId heq).symm, (congrArg PlanStep.risk heq).symm⟩
  · rintro ⟨hagent, hrisk⟩
    unfold markHigh
    simp only [← hagent, ← hrisk]

theorem escalate_eq_self_iff {failed : Option String} {s : PlanStep} :
    (escalate failed s).1 = s ↔ some s.stepId ≠ failed := by
  unfold escalate
  split
  · rename_i h
    refine iff_of_false (fun heq => ?_) (fun hne => hne h)
    have hbudget := congrArg PlanStep.retryBudget heq
    simp at hbudget
  · rename_i h
    exact iff_of_true rfl h

theorem rebalance_eq_self_iff {fromId toId : String} {s : PlanStep} :
    (rebalance fromId toId s).1 = s ↔ (fromId ≠ toId → s.agentId ≠ some fromId) := by
  unfold rebalance
  split
  · rename_i h
    constructor
    · intro heq hne
      have hagent := congrArg PlanStep.agentId heq
      rw [h] at hagent
      exact absurd (Option.some.inj hagent).symm hne
    · intro himp
      have hsame : fromId = toId := by
        by_contra hne
        exact himp hne h
      simp only [← hsame, ← h]
  · rename_i h
    exact iff_of_true rfl fun _ => h

/-- The first step under the failed id has the failed agent. -/
theorem exists_failedAgent {s : PlanStep} (hs : s ∈ m.stepsOf plan)
    (hid : some s.stepId = t.context.get? "step_id") :
    ∃ s₀ ∈ m.stepsOf plan, some s₀.stepId = t.context.get? "step_id" ∧
      m.failedAgent plan t = s₀.agentId := by
  unfold failedAgent stepById
  cases hfind : (m.stepsOf plan).find? fun s => some s.stepId = t.context.get? "step_id" with
  | none =>
    have hnot := List.find?_eq_none.1 hfind s hs
    exact absurd hid (by simpa using hnot)
  | some s₀ =>
    have hid₀ := List.find?_some hfind
    exact ⟨s₀, List.mem_of_find?_eq_some hfind, by simpa using hid₀, rfl⟩

/-- **A new agent**: only the steps of another agent than the failed one stay as they are. -/
theorem reassign_nothing_iff :
    (∀ s ∈ m.stepsOf plan,
      (reassign (t.context.get? "step_id") (m.candidate P plan t) s).1 = s) ↔
    ∀ s ∈ m.stepsOf plan,
      if Replaceable P m plan t then
        some s.stepId ≠ t.context.get? "step_id" ∧ s.agentId ≠ none
      else some s.stepId = t.context.get? "step_id" → s.agentId = none := by
  have hcand := candidate_spec P m plan t
  simp only [reassign_eq_self_iff]
  by_cases hr : Replaceable P m plan t
  · simp only [hr, if_true] at hcand ⊢
    obtain ⟨a, ha, hne⟩ := hcand
    rw [ha]
    constructor
    · intro hall s hs
      constructor
      · -- the first such step would have to have the new agent already
        intro hid
        obtain ⟨s₀, hs₀, hid₀, hfailed⟩ := exists_failedAgent hs hid
        have hagent := hall s₀ hs₀ (.inl hid₀)
        rw [hfailed, hagent] at hne
        exact hne rfl
      · intro hnone
        have hagent := hall s hs (.inr hnone)
        rw [hnone] at hagent
        cases hagent
    · rintro hall s hs (hid | hnone)
      · exact absurd hid (hall s hs).1
      · exact absurd hnone (hall s hs).2
  · simp only [hr, if_false] at hcand ⊢
    rw [hcand]
    constructor
    · intro hall s hs hid
      exact hall s hs (.inl hid)
    · rintro hall s hs (hid | hnone)
      · exact hall s hs hid
      · exact hnone

/-- **A rule has nothing to assign** in the cases that are listed. -/
theorem Sweeps.nothing_iff {rule : PlanStep → PlanStep × List String}
    (h : Sweeps P m plan t rule) :
    (∀ s ∈ m.stepsOf plan, (rule s).1 = s) ↔ NothingToAssign P m plan t := by
  have hother : ∀ {r r' : String}, t.reason = r → t.reason = r' → r ≠ r' → False := by
    intro r r' h h' hne
    exact hne (h.symm.trans h')
  cases h with
  | capabilityMissing h =>
    simp only [markHigh_eq_self_iff]
    constructor
    · intro hall
      exact ⟨fun _ => hall, fun h' => (hother h h' (by decide)).elim,
        fun h' => (hother h h' (by decide)).elim, fun h' => (hother h h' (by decide)).elim⟩
    · exact fun hn => hn.capabilityMissing h
  | agentUnhealthy h =>
    rw [reassign_nothing_iff]
    constructor
    · intro hall
      exact ⟨fun h' => (hother h h' (by decide)).elim, fun _ => hall,
        fun h' => (hother h h' (by decide)).elim, fun h' => (hother h h' (by decide)).elim⟩
    · exact fun hn => hn.agentUnhealthy h
  | riskEscalation h =>
    simp only [escalate_eq_self_iff]
    constructor
    · intro hall
      exact ⟨fun h' => (hother h h' (by decide)).elim, fun h' => (hother h h' (by decide)).elim,
        fun _ => hall, fun h' => (hother h h' (by decide)).elim⟩
    · exact fun hn => hn.riskEscalation h
  | @swarmRebalance h fromId toId hfrom hto =>
    simp only [rebalance_eq_self_iff]
    constructor
    · intro hall
      refine ⟨fun h' => (hother h h' (by decide)).elim, fun h' => (hother h h' (by decide)).elim,
        fun h' => (hother h h' (by decide)).elim, fun _ a b ha hb hne s hs => ?_⟩
      rw [hfrom] at ha
      rw [hto] at hb
      cases ha
      cases hb
      exact hall s hs hne
    · exact fun hn s hs hne => hn.swarmRebalance h fromId toId hfrom hto hne s hs

/-- A trigger that no rule is for has nothing to assign. -/
theorem nothingToAssign_of_not_mem
    (hreason : t.reason ∉ ["capability_missing", "agent_unhealthy", "risk_escalation"])
    (hagents : t.reason = "swarm_rebalance" →
      t.context.get? "from_agent" = none ∨ t.context.get? "to_agent" = none) :
    NothingToAssign P m plan t where
  capabilityMissing h := absurd (by simp [h]) hreason
  agentUnhealthy h := absurd (by simp [h]) hreason
  riskEscalation h := absurd (by simp [h]) hreason
  swarmRebalance h fromId toId hfrom hto := by
    rcases hagents h with hnone | hnone
    · rw [hfrom] at hnone
      cases hnone
    · rw [hto] at hnone
      cases hnone

/-! ## The version before -/

/-- **What the plan before reads** after a replan. -/
theorem stepsOf_replan_iff (hv : Heap.Valid m.objects plan.steps) :
    (m.replan P plan t).2.stepsOf plan = m.stepsOf plan ↔
      (m.replanViaLlm P plan t).isSome ∨ NothingToAssign P (m.asked P) plan t := by
  have hspec := replan_spec P m plan t
  unfold stepsOf
  generalize (m.replan P plan t).1.steps = steps at hspec
  generalize (m.replan P plan t).2.objects = objects at hspec ⊢
  cases hspec with
  | answered h =>
    rw [h]
    exact iff_of_true (Heap.read_of_grows (List.prefix_append _ _) hv) (.inl rfl)
  | @swept h rule hrule =>
    rw [h, ← hrule.nothing_iff, Heap.read_sweep_iff (h := (m.objects, [])) hv hrule.back]
    simp only [Option.isSome_none, Bool.false_eq_true, false_or]
    rfl
  | split h hreason =>
    -- the halves are new objects
    refine iff_of_true (Heap.read_of_grows (Heap.rebuild_spec _ hv).grows hv) (.inr ?_)
    exact nothingToAssign_of_not_mem (by rw [hreason]; decide)
      (fun h' => absurd (hreason.symm.trans h') (by decide))
  | nothing h hreason hagents =>
    refine iff_of_true rfl (.inr (nothingToAssign_of_not_mem (fun hmem => hreason ?_) hagents))
    simp only [List.mem_cons, List.not_mem_nil, or_false] at hmem ⊢
    tauto

/-- **One replan** keeps the version before it exactly when the LLM answers or the rules find
nothing to assign. -/
theorem keepsOld_iff (hv : Heap.Valid m.objects plan.steps)
    (hplan : m.plans.get? plan.planId = some plan) :
    KeepsOld P m plan t ↔
      (m.replanViaLlm P plan t).isSome ∨ NothingToAssign P (m.asked P) plan t := by
  rw [← stepsOf_replan_iff hv]
  refine ⟨fun h => h.steps, fun h => ⟨replan_fresh P m plan t, ?_, ?_, ?_, h⟩⟩
  · rw [replan_plans, Index.get?_put, if_pos rfl]
  · rw [replan_fst]
  · have hne : plan.planId ≠ (m.replan P plan t).1.planId := by
      intro heq
      have hnone := replan_fresh P m plan t
      rw [← heq, hplan] at hnone
      cases hnone
    rw [replan_plans, Index.get?_put, if_neg hne, hplan]

end PlanMemory

/-! ## Runs -/

/-- Replanning keeps the version before. -/
def PlanningOp.KeepsOld (P : ReplanEnv) (m : PlanMemory) : PlanningOp → Prop
  | .replan planId t => ∀ plan, m.plans.get? planId = some plan → m.KeepsOld P plan t
  | _ => True

/-- The LLM answers, or the rules find nothing to assign to the steps of the plan. -/
def PlanningOp.LeavesSteps (P : ReplanEnv) (m : PlanMemory) : PlanningOp → Prop
  | .replan planId t => ∀ plan, m.plans.get? planId = some plan →
      (m.replanViaLlm P plan t).isSome ∨ (m.asked P).NothingToAssign P plan t
  | _ => True

/-- **Old versions are kept** along a run exactly when each of its replans leaves the steps of its
plan alone. -/
theorem old_versions_iff (P : ReplanEnv) (ops : List PlanningOp) :
    EachStep (PlanningOp.run P) (fun m op => op.KeepsOld P m) {} ops ↔
      EachStep (PlanningOp.run P) (fun m op => op.LeavesSteps P m) {} ops := by
  refine eachStep_iff (A := fun _ _ => True) (I := PlanMemory.Allocated)
    (fun m op _ hm _ => PlanMemory.allocated_run P m op hm) (fun m op _ hm => ?_) ops {}
    PlanMemory.allocated_empty (eachStep_of_mem (fun _ _ _ => trivial) _)
  cases op with
  | replan planId t =>
    refine forall₂_congr fun plan hplan => ?_
    have hid : plan.planId = planId := Index.key_of_get? hplan
    exact PlanMemory.keepsOld_iff (hm planId plan hplan) (hid ▸ hplan)
  | newStep s => exact Iff.rfl
  | createPlan workflowId steps => exact Iff.rfl
  | loadPlan plan => exact Iff.rfl
  | riskAssess planId history => exact Iff.rfl

/-- A plan of one step, for which a capability is missing. -/
def missingCapability : List PlanningOp :=
  [.newStep { stepId := "s", capability := "c", agentId := some "a1" },
    .createPlan "w" [0],
    .replan "" { triggerId := "t", planId := "", reason := "capability_missing" }]

/-- The step of the first version has lost its agent. -/
theorem first_version_unassigned : ¬EachStep (PlanningOp.run .plain)
    (fun m op => op.KeepsOld .plain m) {} missingCapability := by
  rintro ⟨-, -, hlast, -⟩
  have hkept := hlast
    { planId := "", workflowId := "w", status := .draft, steps := [0], version := 1 }
    (by decide +kernel)
  exact absurd hkept.steps (by decide +kernel)

end Hermes

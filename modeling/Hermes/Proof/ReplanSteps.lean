import Hermes.Spec.Replan

/-!
# What replanning does to the objects

* `Sweeps`: the rule by which a reason assigns to the steps of a plan.
* `replanSteps_spec`: a replan sweeps over the steps, or makes new ones, or leaves
  everything alone; it says which.
* `replan_fst`, `replan_plans`: the adapted plan and the plans after it.
* `stepsOf_split`: what a split gives is what execution has for it, with steps as
  values.
* `allocated_run`: the plans refer to objects that there are.
-/

namespace Hermes

namespace PlanMemory

variable {P : ReplanEnv} {m : PlanMemory} {plan : PlanObject} {t : Trigger}

/-! ## What one replan does -/

/-- The agent that the failed step of a plan has. -/
def failedAgent (m : PlanMemory) (plan : PlanObject) (t : Trigger) : Option String :=
  (m.stepById plan (t.context.get? "step_id")).bind (·.agentId)

/-- The agent that takes over from the failed step's. -/
def candidate (P : ReplanEnv) (m : PlanMemory) (plan : PlanObject) (t : Trigger) : Option String :=
  (m.nextEligibleAgent P plan (m.failedAgent plan t)).1

/-- The rule by which a trigger makes `_replan` assign to the steps of a plan. -/
inductive Sweeps (P : ReplanEnv) (m : PlanMemory) (plan : PlanObject) (t : Trigger) :
    (PlanStep → PlanStep × List String) → Prop where
  | capabilityMissing (h : t.reason = "capability_missing") : Sweeps P m plan t markHigh
  | agentUnhealthy (h : t.reason = "agent_unhealthy") :
      Sweeps P m plan t (reassign (t.context.get? "step_id") (m.candidate P plan t))
  | riskEscalation (h : t.reason = "risk_escalation") :
      Sweeps P m plan t (escalate (t.context.get? "step_id"))
  | swarmRebalance (h : t.reason = "swarm_rebalance") {fromId toId : String}
      (hfrom : t.context.get? "from_agent" = some fromId)
      (hto : t.context.get? "to_agent" = some toId) : Sweeps P m plan t (rebalance fromId toId)

/-- **One replan**: the references of the adapted plan, and the objects after it. -/
inductive Replanned (P : ReplanEnv) (m : PlanMemory) (plan : PlanObject) (t : Trigger) :
    List ℕ → List PlanStep → Prop where
  | answered {parsed : List PlanStep} (h : m.replanViaLlm P plan t = some parsed) :
      Replanned P m plan t (List.range' m.objects.length parsed.length) (m.objects ++ parsed)
  | swept (h : m.replanViaLlm P plan t = none) {rule : PlanStep → PlanStep × List String}
      (hrule : Sweeps P (m.asked P) plan t rule) :
      Replanned P m plan t plan.steps (Heap.sweep rule plan.steps (m.objects, [])).1
  | split (h : m.replanViaLlm P plan t = none) (hreason : t.reason = "step_failed") :
      Replanned P m plan t (Heap.rebuild (halves (t.context.get? "step_id")) plan.steps m.objects).2
        (Heap.rebuild (halves (t.context.get? "step_id")) plan.steps m.objects).1
  | nothing (h : m.replanViaLlm P plan t = none)
      (hreason : t.reason ∉ ["capability_missing", "agent_unhealthy", "step_failed",
        "risk_escalation"])
      (hagents : t.reason = "swarm_rebalance" →
        t.context.get? "from_agent" = none ∨ t.context.get? "to_agent" = none) :
      Replanned P m plan t plan.steps m.objects

theorem nextEligibleAgent_frame (P : ReplanEnv) (m : PlanMemory) (plan : PlanObject)
    (exclude : Option String) :
    (m.nextEligibleAgent P plan exclude).2.objects = m.objects ∧
      (m.nextEligibleAgent P plan exclude).2.plans = m.plans := by
  unfold nextEligibleAgent
  simp only
  split
  · exact ⟨rfl, rfl⟩
  · split
    · exact ⟨rfl, rfl⟩
    · exact ⟨rfl, rfl⟩

/-- **The rules**, when the LLM has not answered. -/
theorem replanRuleBased_spec (h : m.replanViaLlm P plan t = none) :
    Replanned P m plan t ((m.asked P).replanRuleBased P plan t).1
        ((m.asked P).replanRuleBased P plan t).2.2.objects ∧
      ((m.asked P).replanRuleBased P plan t).2.2.plans = m.plans := by
  obtain ⟨hobjects, hplans⟩ :=
    nextEligibleAgent_frame P (m.asked P) plan ((m.asked P).failedAgent plan t)
  unfold replanRuleBased
  by_cases hcap : t.reason = "capability_missing"
  · simp only [hcap, if_true]
    exact ⟨.swept h (.capabilityMissing hcap), rfl⟩
  by_cases hagent : t.reason = "agent_unhealthy"
  · have hne : "agent_unhealthy" ≠ "capability_missing" := by decide
    simp only [hagent, hne, if_false, if_true]
    refine ⟨?_, hplans⟩
    have hswept : Replanned P m plan t _ _ := .swept h (.agentUnhealthy hagent)
    have hsame : (m.asked P).objects = m.objects := rfl
    rw [hsame] at hobjects
    rw [← hobjects] at hswept
    exact hswept
  by_cases hfail : t.reason = "step_failed"
  · have hne : "step_failed" ≠ "capability_missing" ∧ "step_failed" ≠ "agent_unhealthy" := by
      decide
    simp only [hfail, hne.1, hne.2, if_false, if_true]
    exact ⟨.split h hfail, rfl⟩
  by_cases hrisk : t.reason = "risk_escalation"
  · rw [if_neg hcap, if_neg hagent, if_neg hfail, if_pos hrisk]
    exact ⟨.swept h (.riskEscalation hrisk), rfl⟩
  have hothers : t.reason ∉ ["capability_missing", "agent_unhealthy", "step_failed",
      "risk_escalation"] := by
    simp only [List.mem_cons, List.not_mem_nil, or_false, hcap, hagent, hfail, hrisk,
      not_false_eq_true]
  rw [if_neg hcap, if_neg hagent, if_neg hfail, if_neg hrisk]
  by_cases hswarm : t.reason = "swarm_rebalance"
  · -- without both agents in the context the reason is left unhandled
    rw [if_pos hswarm]
    cases hfrom : t.context.get? "from_agent" with
    | none => exact ⟨.nothing h hothers fun _ => .inl hfrom, rfl⟩
    | some fromId =>
      cases hto : t.context.get? "to_agent" with
      | none => exact ⟨.nothing h hothers fun _ => .inr hto, rfl⟩
      | some toId => exact ⟨.swept h (.swarmRebalance hswarm hfrom hto), rfl⟩
  · rw [if_neg hswarm]
    exact ⟨.nothing h hothers fun hs => absurd hs hswarm, rfl⟩

/-- **The steps of a replan**, by what it does. -/
theorem replanSteps_spec (P : ReplanEnv) (m : PlanMemory) (plan : PlanObject) (t : Trigger) :
    Replanned P m plan t (m.replanSteps P plan t).1 (m.replanSteps P plan t).2.2.objects ∧
      (m.replanSteps P plan t).2.2.plans = m.plans := by
  unfold replanSteps
  cases h : m.replanViaLlm P plan t with
  | none => exact replanRuleBased_spec h
  | some parsed => exact ⟨.answered h, rfl⟩

/-! ## The adapted plan -/

theorem replan_fst (P : ReplanEnv) (m : PlanMemory) (plan : PlanObject) (t : Trigger) :
    (m.replan P plan t).1 =
      { planId := P.uuid.next m.plans.keys
        workflowId := plan.workflowId
        status := .adapted
        steps := (m.replanSteps P plan t).1
        version := plan.version + 1 } := by
  obtain ⟨-, hplans⟩ := replanSteps_spec P m plan t
  rw [← hplans]
  rfl

theorem replan_plans (P : ReplanEnv) (m : PlanMemory) (plan : PlanObject) (t : Trigger) :
    (m.replan P plan t).2.plans = m.plans.put (m.replan P plan t).1 := by
  obtain ⟨-, hplans⟩ := replanSteps_spec P m plan t
  rw [← hplans]
  rfl

theorem replan_spec (P : ReplanEnv) (m : PlanMemory) (plan : PlanObject) (t : Trigger) :
    Replanned P m plan t (m.replan P plan t).1.steps (m.replan P plan t).2.objects :=
  (replanSteps_spec P m plan t).1

/-- The id of the adapted plan is new. -/
theorem replan_fresh (P : ReplanEnv) (m : PlanMemory) (plan : PlanObject) (t : Trigger) :
    m.plans.get? (m.replan P plan t).1.planId = none := by
  have hnew : (m.replan P plan t).1.planId ∉ m.plans.keys := by
    rw [replan_fst]
    exact P.uuid.not_mem _
  rw [Index.mem_keys, Option.not_isSome_iff_eq_none] at hnew
  exact hnew

/-- **A split** of shared steps is the one of `execute_plan`, on the steps as they are. -/
theorem stepsOf_split {m' : PlanMemory} {new : PlanObject} {f : String}
    (hv : Heap.Valid m.objects plan.steps)
    (hsteps : new.steps = (Heap.rebuild (halves (some f)) plan.steps m.objects).2)
    (hobjects : m'.objects = (Heap.rebuild (halves (some f)) plan.steps m.objects).1) :
    m'.stepsOf new = (Hermes.replanRuleBased (m.stepsOf plan) f).1 := by
  have hread := (Heap.rebuild_spec (halves (some f)) hv).read_eq
  rw [← hsteps, ← hobjects] at hread
  refine hread.trans (List.flatMap_congr fun s _ => ?_)
  unfold halves
  by_cases hid : s.stepId = f
  · rw [if_pos hid, if_pos (congrArg some hid)]
    rfl
  · have hne : some s.stepId ≠ some f := fun h => hid (Option.some.inj h)
    rw [if_neg hid, if_neg hne]
    rfl

/-! ## Objects that there are -/

/-- The plans refer to objects that there are. -/
def Allocated (m : PlanMemory) : Prop :=
  ∀ k plan, m.plans.get? k = some plan → Heap.Valid m.objects plan.steps

theorem allocated_empty : Allocated {} := by
  intro k plan hplan
  cases hplan

theorem Allocated.grow {m' : PlanMemory} (hm : m.Allocated) (hplans : m'.plans = m.plans)
    (hlen : m.objects.length ≤ m'.objects.length) : m'.Allocated := by
  intro k plan hplan
  rw [hplans] at hplan
  exact (hm k plan hplan).mono hlen

theorem Allocated.put {m' : PlanMemory} (hm : m.Allocated) {new : PlanObject}
    (hplans : m'.plans = m.plans.put new) (hlen : m.objects.length ≤ m'.objects.length)
    (hnew : Heap.Valid m'.objects new.steps) : m'.Allocated := by
  intro k plan hplan
  rw [hplans, Index.get?_put] at hplan
  split at hplan
  · cases hplan
    exact hnew
  · exact (hm k plan hplan).mono hlen

theorem Replanned.valid {steps : List ℕ} {objects : List PlanStep}
    (h : Replanned P m plan t steps objects) (hv : Heap.Valid m.objects plan.steps) :
    m.objects.length ≤ objects.length ∧ Heap.Valid objects steps := by
  cases h with
  | answered h =>
    refine ⟨by rw [List.length_append]; omega, fun a ha => ?_⟩
    have hlt := List.mem_range'_1.1 ha
    rw [List.length_append]
    exact hlt.2
  | @swept _ rule _ =>
    have hlen := Heap.length_sweep rule plan.steps (m.objects, [])
    exact ⟨hlen.ge, hv.mono hlen.ge⟩
  | split h hreason =>
    have hr := Heap.rebuild_spec (halves (t.context.get? "step_id")) hv
    exact ⟨hr.grows.length_le, hr.valid⟩
  | nothing => exact ⟨le_rfl, hv⟩

theorem riskAssess_spec (m : PlanMemory) (plan : PlanObject) (history : List ExecutionOutcome) :
    (m.riskAssess plan history).objects =
        (Heap.sweep (assess plan.planId (unhealthySteps history)
          (failuresByCap (m.stepsOf plan) history)) plan.steps (m.objects, [])).1 ∧
      (m.riskAssess plan history).plans = m.plans := by
  unfold riskAssess
  simp only
  split
  · exact ⟨rfl, rfl⟩
  · exact ⟨rfl, rfl⟩

theorem foldl_emit_frame {β : Type*} (f : β → PlanningEvent) (bs : List β) :
    (bs.foldl (fun m b => m.emit (f b)) m).objects = m.objects ∧
      (bs.foldl (fun m b => m.emit (f b)) m).plans = m.plans :=
  History.run_invariant (fun (m' : PlanMemory) b => m'.emit (f b))
    (fun m' => m'.objects = m.objects ∧ m'.plans = m.plans) (fun _ _ h => h) bs m ⟨rfl, rfl⟩

theorem createPlan_spec (P : ReplanEnv) (m : PlanMemory) (workflowId : String) (steps : List ℕ) :
    (m.createPlan P workflowId steps).2.objects = m.objects ∧
      (m.createPlan P workflowId steps).2.plans =
        m.plans.put (m.createPlan P workflowId steps).1 := by
  unfold createPlan
  simp only
  exact foldl_emit_frame _ _

theorem createPlan_valid (P : ReplanEnv) (m : PlanMemory) (workflowId : String)
    (steps : List ℕ) : Heap.Valid m.objects (m.createPlan P workflowId steps).1.steps := by
  intro a ha
  simpa using List.of_mem_filter ha

/-- **The plans refer to objects that there are**, after every operation. -/
theorem allocated_run (P : ReplanEnv) (m : PlanMemory) (op : PlanningOp) (hm : m.Allocated) :
    (op.run P m).Allocated := by
  cases op with
  | newStep s =>
    refine hm.grow rfl ?_
    rw [PlanningOp.run, List.length_append]
    omega
  | createPlan workflowId steps =>
    obtain ⟨hobjects, hplans⟩ := createPlan_spec P m workflowId steps
    refine hm.put hplans (hobjects ▸ le_rfl) ?_
    show Heap.Valid (m.createPlan P workflowId steps).2.objects _
    rw [hobjects]
    exact createPlan_valid P m workflowId steps
  | loadPlan plan =>
    unfold PlanningOp.run loadPlan
    simp only
    split
    · exact hm
    · refine hm.put rfl ?_ fun a ha => ?_
      · rw [List.length_append]
        omega
      · rw [List.length_append]
        exact (List.mem_range'_1.1 ha).2
  | replan planId t =>
    cases hplan : m.plans.get? planId with
    | none =>
      simp only [PlanningOp.run, hplan]
      exact hm
    | some plan =>
      simp only [PlanningOp.run, hplan]
      obtain ⟨hlen, hvalid⟩ := (replan_spec P m plan t).valid (hm planId plan hplan)
      exact hm.put (replan_plans P m plan t) hlen hvalid
  | riskAssess planId history =>
    cases hplan : m.plans.get? planId with
    | none =>
      simp only [PlanningOp.run, hplan]
      exact hm
    | some plan =>
      simp only [PlanningOp.run, hplan]
      obtain ⟨hobjects, hplans⟩ := riskAssess_spec m plan history
      refine hm.grow hplans ?_
      rw [hobjects]
      exact (Heap.length_sweep _ plan.steps (m.objects, [])).ge

end PlanMemory

end Hermes

import Hermes.Proof.ReplanSteps

/-!
# Risk levels over time

* `le_bumpRisk`, `Sweeps.risk_le`: what the rules do to the level of a step; only a
  missing capability can lower one.
* `raises_replan_iff`: a replan lowers no level exactly when it is not for a missing
  capability of a plan with a critical step.
* `raises_riskAssess_iff`: an assessment lowers none exactly when it does not find a
  critical step to be of high risk.
* `risk_levels_iff`: so in every run.
-/

namespace Hermes

open History

example : RiskLevel.low < .medium ∧ RiskLevel.medium < .high ∧ RiskLevel.high < .critical := by
  decide

theorem le_bumpRisk (risk : RiskLevel) : risk ≤ bumpRisk risk 1 := by
  cases risk <;> decide

theorem le_high_iff {risk : RiskLevel} : risk ≤ .high ↔ risk ≠ .critical := by
  cases risk <;> decide

namespace PlanMemory

variable {P : ReplanEnv} {m m' : PlanMemory} {plan new : PlanObject} {t : Trigger}

/-- No step has a lower risk than before. -/
def RiskKept (m m' : PlanMemory) : Prop :=
  Heap.Later (fun x y : PlanStep => x.risk ≤ y.risk) m.objects m'.objects

/-- Each step of the new plan has at least the risk of the step that it came from: of the same
step, or of the one that it is a half of. -/
def RiskCarried (m m' : PlanMemory) (plan new : PlanObject) : Prop :=
  ∀ b ∈ new.steps, ∃ a ∈ plan.steps,
    Heap.Origin (fun s => some (splitStep s)) m.objects m'.objects a b ∧
      ∃ x y, m.objects[a]? = some x ∧ m'.objects[b]? = some y ∧ x.risk ≤ y.risk

theorem riskCarried_of_kept (hv : Heap.Valid m.objects plan.steps) (hsteps : new.steps = plan.steps)
    (hkept : RiskKept m m') : RiskCarried m m' plan new := by
  intro b hb
  rw [hsteps] at hb
  have hx := List.getElem?_eq_getElem (hv b hb)
  obtain ⟨y, hy, hle⟩ := hkept b _ hx
  exact ⟨b, hb, .same rfl, _, y, hx, hy, hle⟩

theorem riskKept_of_grows (h : m.objects <+: m'.objects) : RiskKept m m' :=
  Heap.later_of_grows (fun x => le_refl x.risk) h

/-! ## Replanning -/

/-- **The other rules** lower no level. -/
theorem Sweeps.risk_le {rule : PlanStep → PlanStep × List String} (h : Sweeps P m plan t rule)
    (hreason : t.reason ≠ "capability_missing") (s : PlanStep) : s.risk ≤ (rule s).1.risk := by
  cases h with
  | capabilityMissing h => exact absurd h hreason
  | agentUnhealthy =>
    unfold reassign
    split
    · exact le_rfl
    · exact le_rfl
  | riskEscalation =>
    unfold escalate
    split
    · exact le_bumpRisk s.risk
    · exact le_rfl
  | swarmRebalance =>
    unfold rebalance
    split
    · exact le_rfl
    · exact le_rfl

theorem Sweeps.eq_markHigh {rule : PlanStep → PlanStep × List String}
    (h : Sweeps P m plan t rule) (hreason : t.reason = "capability_missing") : rule = markHigh := by
  cases h with
  | capabilityMissing => rfl
  | agentUnhealthy h => exact absurd (h.symm.trans hreason) (by decide)
  | riskEscalation h => exact absurd (h.symm.trans hreason) (by decide)
  | swarmRebalance h => exact absurd (h.symm.trans hreason) (by decide)

/-- **A missing capability** makes the risk of each step high. -/
theorem riskKept_markHigh_iff (hobjects : m'.objects =
    (Heap.sweep markHigh plan.steps (m.objects, [])).1) :
    RiskKept m m' ↔ ∀ s ∈ m.stepsOf plan, s.risk ≠ .critical := by
  unfold RiskKept
  rw [hobjects,
    Heap.later_sweep_iff (h := (m.objects, [])) (fun x => le_refl x.risk) (fun x => rfl)]
  exact forall₂_congr fun s _ => le_high_iff

/-- **A split** carries the risk of the failed step over to its halves. -/
theorem riskCarried_of_split {failed : Option String} (hv : Heap.Valid m.objects plan.steps)
    (hsteps : new.steps = (Heap.rebuild (halves failed) plan.steps m.objects).2)
    (hobjects : m'.objects = (Heap.rebuild (halves failed) plan.steps m.objects).1) :
    RiskCarried m m' plan new := by
  have hr := Heap.rebuild_spec (halves failed) hv
  rw [← hsteps, ← hobjects] at hr
  intro b hb
  obtain ⟨a, ha, ho⟩ := hr.origin b hb
  refine ⟨a, ha, ?_⟩
  cases ho with
  | same hab =>
    subst hab
    have hx := List.getElem?_eq_getElem (hv b ha)
    refine ⟨.same rfl, _, _, hx, ?_, le_rfl⟩
    rw [Heap.getElem?_of_grows hr.grows (hv b ha), hx]
  | @part x y ys hx hys hy hnew hcell =>
    -- the parts of a step are its halves, which copy its risk
    have hparts : ys = splitStep x := by
      unfold halves at hys
      split at hys
      · exact (Option.some.inj hys).symm
      · cases hys
    subst hparts
    refine ⟨.part hx rfl hy hnew hcell, x, y, hx, hcell, ?_⟩
    simp only [splitStep, List.mem_cons, List.not_mem_nil, or_false] at hy
    rcases hy with rfl | rfl
    · exact le_rfl
    · exact le_rfl

/-- **One replan by the rules.** -/
theorem raises_replan_iff (hv : Heap.Valid m.objects plan.steps)
    (hllm : m.replanViaLlm P plan t = none) :
    RiskKept m (m.replan P plan t).2 ∧
        RiskCarried m (m.replan P plan t).2 plan (m.replan P plan t).1 ↔
      (t.reason = "capability_missing" → ∀ s ∈ m.stepsOf plan, s.risk ≠ .critical) := by
  have hspec := replan_spec P m plan t
  generalize hnew : (m.replan P plan t).1 = new at hspec ⊢
  generalize hafter : (m.replan P plan t).2 = m' at hspec ⊢
  generalize hsteps : new.steps = steps at hspec
  generalize hobjects : m'.objects = objects at hspec
  cases hspec with
  | answered h =>
    rw [hllm] at h
    cases h
  | @swept h rule hrule =>
    by_cases hreason : t.reason = "capability_missing"
    · -- the only rule that sets a level without looking at the order
      obtain rfl : rule = markHigh := hrule.eq_markHigh hreason
      have hkept : RiskKept m m' ↔ ∀ s ∈ m.stepsOf plan, s.risk ≠ .critical :=
        riskKept_markHigh_iff hobjects
      constructor
      · rintro ⟨hk, -⟩ -
        exact hkept.1 hk
      · intro hall
        have hk := hkept.2 (hall hreason)
        exact ⟨hk, riskCarried_of_kept hv hsteps hk⟩
    · refine iff_of_true ?_ fun h' => absurd h' hreason
      have hkept : RiskKept m m' := by
        unfold RiskKept
        rw [hobjects]
        exact Heap.later_sweep (R := fun x y : PlanStep => x.risk ≤ y.risk) (h := (m.objects, []))
          (fun x => le_refl x.risk)
          (fun x y z hxy hyz => le_trans hxy hyz) (hrule.risk_le hreason) plan.steps
      exact ⟨hkept, riskCarried_of_kept hv hsteps hkept⟩
  | split h hreason =>
    refine iff_of_true ⟨riskKept_of_grows ?_, riskCarried_of_split hv hsteps hobjects⟩
      fun h' => absurd (hreason.symm.trans h') (by decide)
    rw [hobjects]
    exact (Heap.rebuild_spec _ hv).grows
  | nothing h hreason =>
    have hkept : RiskKept m m' := riskKept_of_grows (hobjects ▸ List.prefix_rfl)
    refine iff_of_true ⟨hkept, riskCarried_of_kept hv hsteps hkept⟩ fun h' => ?_
    exact absurd (by simp [h']) hreason

/-! ## Assessments -/

theorem risk_le_assessed_iff {unhealthy : List String} {failures : Dict String ℕ} {s : PlanStep} :
    s.risk ≤ assessedRisk unhealthy failures s ↔
      (s.risk = .critical → s.stepId ∈ unhealthy ∨ (failures.get? s.capability).getD 0 ≤ 2) := by
  unfold assessedRisk
  by_cases hun : s.stepId ∈ unhealthy
  · rw [if_pos hun]
    refine iff_of_true ?_ fun _ => .inl hun
    cases s.risk with
    | low => decide
    | medium => decide
    | high => decide
    | critical => decide
  · rw [if_neg hun]
    by_cases hmany : 2 < (failures.get? s.capability).getD 0
    · rw [if_pos hmany, le_high_iff]
      have hnot : ¬(s.stepId ∈ unhealthy ∨ (failures.get? s.capability).getD 0 ≤ 2) := by
        rintro (h | h)
        · exact hun h
        · omega
      exact ⟨fun hne heq => absurd heq hne, fun himp heq => hnot (himp heq)⟩
    · rw [if_neg hmany]
      exact iff_of_true le_rfl fun _ => .inr (by omega)

/-- **One assessment.** -/
theorem raises_riskAssess_iff {history : List ExecutionOutcome} :
    RiskKept m (m.riskAssess plan history) ↔
      ∀ s ∈ m.stepsOf plan, s.risk = .critical → s.stepId ∈ unhealthySteps history ∨
        ((failuresByCap (m.stepsOf plan) history).get? s.capability).getD 0 ≤ 2 := by
  obtain ⟨hobjects, -⟩ := riskAssess_spec m plan history
  unfold RiskKept
  rw [hobjects, Heap.later_sweep_iff (h := (m.objects, [])) (fun x => le_refl x.risk) ?_]
  · exact forall₂_congr fun s _ => risk_le_assessed_iff
  · -- the level depends on the id and the capability only
    intro s
    unfold assess assessedRisk
    simp only
    split
    · rfl
    · split
      · rfl
      · rfl

end PlanMemory

/-! ## Runs -/

/-- No step's risk is lowered, and the steps of an adapted plan have at least the risk of those they
came from. A replan that the LLM answers is not one by the rules. -/
def PlanningOp.RaisesRisk (P : ReplanEnv) (m : PlanMemory) : PlanningOp → Prop
  | .replan planId t => ∀ plan, m.plans.get? planId = some plan →
      m.replanViaLlm P plan t = none → m.RiskKept (m.replan P plan t).2 ∧
        m.RiskCarried (m.replan P plan t).2 plan (m.replan P plan t).1
  | op => m.RiskKept (op.run P m)

/-- No rule for a missing capability meets a critical step, and no assessment counts more than two
failures for the capability of a critical step whose agent is not reported unhealthy. -/
def PlanningOp.SparesCritical (P : ReplanEnv) (m : PlanMemory) : PlanningOp → Prop
  | .replan planId t => ∀ plan, m.plans.get? planId = some plan →
      m.replanViaLlm P plan t = none → t.reason = "capability_missing" →
        ∀ s ∈ m.stepsOf plan, s.risk ≠ .critical
  | .riskAssess planId history => ∀ plan, m.plans.get? planId = some plan →
      ∀ s ∈ m.stepsOf plan, s.risk = .critical → s.stepId ∈ unhealthySteps history ∨
        ((failuresByCap (m.stepsOf plan) history).get? s.capability).getD 0 ≤ 2
  | _ => True

/-- **Risk never goes down** along a run exactly when its steps spare the critical steps. -/
theorem risk_levels_iff (P : ReplanEnv) (ops : List PlanningOp) :
    EachStep (PlanningOp.run P) (fun m op => op.RaisesRisk P m) {} ops ↔
      EachStep (PlanningOp.run P) (fun m op => op.SparesCritical P m) {} ops := by
  refine eachStep_iff (A := fun _ _ => True) (I := PlanMemory.Allocated)
    (fun m op _ hm _ => PlanMemory.allocated_run P m op hm) (fun m op _ hm => ?_) ops {}
    PlanMemory.allocated_empty (eachStep_of_mem (fun _ _ _ => trivial) _)
  cases op with
  | newStep s => exact iff_of_true (PlanMemory.riskKept_of_grows (List.prefix_append _ _)) trivial
  | createPlan workflowId steps =>
    obtain ⟨hobjects, -⟩ := PlanMemory.createPlan_spec P m workflowId steps
    refine iff_of_true (PlanMemory.riskKept_of_grows ?_) trivial
    exact hobjects ▸ List.prefix_rfl
  | loadPlan plan =>
    refine iff_of_true (PlanMemory.riskKept_of_grows ?_) trivial
    unfold PlanningOp.run PlanMemory.loadPlan
    simp only
    split
    · exact List.prefix_rfl
    · exact List.prefix_append _ _
  | replan planId t =>
    refine forall₂_congr fun plan hplan => forall_congr' fun hllm => ?_
    exact PlanMemory.raises_replan_iff (hm planId plan hplan) hllm
  | riskAssess planId history =>
    unfold PlanningOp.RaisesRisk PlanningOp.SparesCritical
    cases hplan : m.plans.get? planId with
    | none =>
      simp only [PlanningOp.run, hplan]
      refine iff_of_true (PlanMemory.riskKept_of_grows List.prefix_rfl) ?_
      exact fun plan h => absurd h (by simp)
    | some plan =>
      simp only [PlanningOp.run, hplan, PlanMemory.raises_riskAssess_iff, Option.some.injEq,
        forall_eq']

/-- A plan with a critical step, for which a capability is missing. -/
def criticalStep : List PlanningOp :=
  [.newStep { stepId := "s", capability := "c", risk := .critical },
    .createPlan "w" [0],
    .replan "" { triggerId := "t", planId := "", reason := "capability_missing" }]

/-- The risk of the critical step is lowered. -/
theorem critical_step_lowered : ¬EachStep (PlanningOp.run .plain)
    (fun m op => op.RaisesRisk .plain m) {} criticalStep := by
  rintro ⟨-, -, hlast, -⟩
  obtain ⟨hkept, -⟩ := hlast
    { planId := "", workflowId := "w", status := .draft, steps := [0], version := 1 }
    (by decide +kernel) rfl
  obtain ⟨y, hy, hle⟩ := hkept 0 { stepId := "s", capability := "c", risk := .critical }
    (by decide +kernel)
  have hhigh : some y = some { stepId := "s", capability := "c", risk := .high } := by
    rw [← hy]
    decide +kernel
  cases hhigh
  exact absurd hle (by decide)

end Hermes

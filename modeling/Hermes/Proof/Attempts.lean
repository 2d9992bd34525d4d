import Hermes.Lib.Course
import Hermes.Proof.EngineLife
import Hermes.Proof.PlanHosts
import Hermes.Spec.Attempts

/-!
# A run is a course through its attempts

* `executeStepFrom_eq`: a call of `execute_step` is one attempt, and the rest.
* `executeStepFrom_rule`: induction on the attempts of a call.
* `Quiet`: what the engine does between two points.
* `World.run_through`: every run is a course through its points.
-/

namespace Hermes

open History World

variable {E : Env} {i : String} {w w' : World}

/-- **One attempt, and the rest** of a call. -/
theorem executeStepFrom_eq (agent : Option String) (retries : ℕ) (policy : Option SandboxPolicy)
    (w : World) : executeStepFrom E i agent retries policy w =
      match attemptStep E i agent retries policy w with
      | (some r, w') => (r, w')
      | (none, w') => executeStepFrom E i agent (retries - 1) none w' := by
  cases retries with
  | zero =>
    unfold executeStepFrom attemptStep
    cases w.instances.get? i with
    | none => rfl
    | some inst =>
      simp only
      generalize passStep E w i inst agent policy = R
      obtain ⟨pass, w₁⟩ := R
      cases pass <;> rfl
  | succ retries =>
    rw [executeStepFrom]
    unfold attemptStep
    cases w.instances.get? i with
    | none => rfl
    | some inst =>
      simp only
      generalize passStep E w i inst agent policy = R
      obtain ⟨pass, w₁⟩ := R
      cases pass <;> rfl

/-- The last attempt ends the call. -/
theorem attemptStep_zero (agent : Option String) (policy : Option SandboxPolicy) (w : World) :
    ∃ r, (attemptStep E i agent 0 policy w).1 = some r := by
  unfold attemptStep
  cases w.instances.get? i with
  | none => exact ⟨_, rfl⟩
  | some inst =>
    simp only
    generalize passStep E w i inst agent policy = R
    obtain ⟨pass, w₁⟩ := R
    cases pass with
    | done r => exact ⟨r, rfl⟩
    | raised => exact ⟨_, rfl⟩

/-- **Induction on the attempts of a call**: an attempt ends the call, or the call goes on after
it. -/
theorem executeStepFrom_rule {agent : Option String}
    {M : ℕ → Option SandboxPolicy → World → Except Exc Artifact × World → Prop}
    (hlast : ∀ retries policy w r w', attemptStep E i agent retries policy w = (some r, w') →
      M retries policy w (r, w'))
    (hagain : ∀ retries policy w w', attemptStep E i agent (retries + 1) policy w = (none, w') →
      M retries none w' (executeStepFrom E i agent retries none w') →
      M (retries + 1) policy w (executeStepFrom E i agent retries none w')) :
    ∀ retries policy w, M retries policy w (executeStepFrom E i agent retries policy w) := by
  intro retries
  induction retries with
  | zero =>
    intro policy w
    obtain ⟨r, hr⟩ := attemptStep_zero (E := E) (i := i) agent policy w
    have hone := hlast 0 policy w r (attemptStep E i agent 0 policy w).2 (Prod.ext hr rfl)
    rw [executeStepFrom_eq]
    generalize attemptStep E i agent 0 policy w = R at hr hone ⊢
    obtain ⟨o, w'⟩ := R
    cases hr
    exact hone
  | succ retries ih =>
    intro policy w
    rw [executeStepFrom_eq]
    cases hR : attemptStep E i agent (retries + 1) policy w with
    | mk o w' =>
      cases o with
      | some r => exact hlast _ _ _ _ _ hR
      | none => exact hagain _ _ _ _ hR (ih none w')

theorem attemptsFrom_eq (agent : Option String) (called : Option SandboxPolicy) (retries : ℕ)
    (policy : Option SandboxPolicy) (w : World) : attemptsFrom E i agent called retries policy w =
      .attempt i agent called policy retries w ::
        match attemptStep E i agent retries policy w with
        | (some _, _) => []
        | (none, w') => attemptsFrom E i agent called (retries - 1) none w' := by
  cases retries with
  | succ retries => rfl
  | zero =>
    obtain ⟨r, hr⟩ := attemptStep_zero (E := E) (i := i) agent policy w
    unfold attemptsFrom
    generalize attemptStep E i agent 0 policy w = R at hr ⊢
    obtain ⟨o, w'⟩ := R
    cases hr
    rfl

/-! ## Between the points -/

/-- An action of a caller. -/
def Action.outer : Action → Bool
  | .enter _ => true
  | .leave _ => true
  | .approve _ _ _ => true
  | _ => false

/-- **What the engine does between two points**: collaborators, clocks and the planner go on, a
call is entered or left, a status is assigned, a workflow is started. -/
inductive Quiet (E : Env) : World → World → Prop where
  | frame {w w' : World} : w'.trace = w.trace → w'.instances = w.instances → Quiet E w w'
  | outer {w : World} {a : Action} : a.outer → Quiet E w (w.record a)
  | status {w : World} {i : String} {s : WorkflowStatus} : Quiet E w (w.setStatus i s)
  | start {w : World} {workflow : Workflow} : Quiet E w (start E workflow w).2

/-- From one world to another through the points `ps`. -/
abbrev Through (E : Env) (w : World) (ps : List Point) (w' : World) : Prop :=
  Course (Quiet E) Point.before (Point.after E) w ps w'

theorem Through.refl (w : World) : Through E w [] w := .quiet (.frame rfl rfl)

theorem start_trace (workflow : Workflow) (w : World) :
    (start E workflow w).2.trace = w.trace ++ [.start (E.uuid w.tick) workflow] := by
  unfold start
  simp only
  split <;> rfl

theorem start_instances (workflow : Workflow) (w : World) :
    (start E workflow w).2.instances = w.instances.insert (E.uuid w.tick)
      { workflow, status := .running, currentStepId := workflow.steps.head?.map (·.id)
        startedAt := w.tick } := by
  unfold start
  simp only
  split <;> rfl

/-! ## Calls -/

theorem executeStepFrom_through (agent : Option String) (called : Option SandboxPolicy) :
    ∀ retries policy w, Through E w (attemptsFrom E i agent called retries policy w)
      (executeStepFrom E i agent retries policy w).2 := by
  have hone : ∀ retries policy w, Through E w [.attempt i agent called policy retries w]
      (attemptStep E i agent retries policy w).2 :=
    fun retries policy w => Course.point (Point.attempt i agent called policy retries w)
  refine executeStepFrom_rule (M := fun retries policy w R =>
    Through E w (attemptsFrom E i agent called retries policy w) R.2) ?_ ?_
  · intro retries policy w r w' hR
    have hpoint := hone retries policy w
    rw [hR] at hpoint
    rw [attemptsFrom_eq, hR]
    exact hpoint
  · intro retries policy w w' hR hrest
    have hpoint := hone (retries + 1) policy w
    rw [hR] at hpoint
    rw [attemptsFrom_eq, hR]
    exact hpoint.trans hrest

/-- **A call of `execute_step`.** -/
theorem executeStep_through (i : String) (agent : Option String) (policy : Option SandboxPolicy)
    (w : World) : Through E w (callPoints E i agent policy w) (executeStep E i agent policy w).2 := by
  unfold executeStep callPoints
  cases w.instances.get? i with
  | none => exact .refl w
  | some inst =>
    simp only
    have hcall := executeStepFrom_through (E := E) (i := i) agent policy inst.retries policy
      (w.record (.enter i))
    exact (hcall.wake (.outer rfl)).hush (.outer rfl)

theorem runLoop_through (i : String) :
    ∀ fuel w, Through E w (loopPoints E i fuel w) (runLoop E i fuel w).2 := by
  intro fuel
  induction fuel with
  | zero => intro w; exact .refl w
  | succ fuel ih =>
    intro w
    unfold runLoop loopPoints
    cases w.instances.get? i with
    | none => exact .refl w
    | some inst =>
      simp only
      split
      · have hstep := executeStep_through (E := E) i none none w
        generalize executeStep E i none none w = R at hstep ⊢
        obtain ⟨r, w₁⟩ := R
        cases r with
        | error e =>
          simp only [List.append_nil]
          exact hstep
        | ok artifact =>
          have hloop := hstep.trans (ih w₁)
          simp only
          generalize runLoop E i fuel w₁ = R at hloop ⊢
          obtain ⟨r, w₂⟩ := R
          cases r <;> exact hloop
      · exact .refl w

theorem approve_through (i stepId : String) (approved : Bool) (fuel : ℕ) (w : World) :
    Through E w (approvePoints E i stepId approved fuel w)
      (approve E i stepId approved fuel w).2 := by
  unfold approve approvePoints
  cases w.instances.get? i with
  | none => exact .refl w
  | some inst =>
    simp only
    split
    · have hverdict : Quiet E w (w.record (.approve i stepId approved)) := .outer rfl
      cases approved with
      | true =>
        have hloop := runLoop_through (E := E) i fuel
          ((w.record (.approve i stepId true)).setStatus i .running)
        have hall := (hloop.wake .status).wake hverdict
        simp only [if_true]
        generalize runLoop E i fuel _ = R at hall ⊢
        obtain ⟨r, w₁⟩ := R
        cases r <;> exact hall
      | false =>
        simp only [Bool.false_eq_true, if_false]
        set w₁ := w.record (.approve i stepId false)
        have hback : Through E w₁ [.rejection i stepId w₁] (compensate E w₁ i stepId) :=
          Course.point (Point.rejection i stepId w₁)
        have hfail : Through E w₁ [] (w₁.setStatus i .failed) := .quiet .status
        cases (stepById inst.workflow.steps stepId).bind fun step => truthy step.compensation with
        | some c => exact hback.wake hverdict
        | none => exact hfail.wake hverdict
    · exact .refl w

/-! ## The planner -/

theorem executor_through (i planId : String) (step : PlanStep) (w : World) :
    Through E w (callPoints E i none none w) (executor E i planId step w).2 := by
  unfold executor
  have hstep := executeStep_through (E := E) i none none w
  generalize executeStep E i none none w = R at hstep ⊢
  obtain ⟨r, w₁⟩ := R
  cases r with
  | error e => exact hstep
  | ok artifact => exact hstep.hush (.frame rfl rfl)

theorem logPoints_append (log log' : List (LogEntry World)) :
    logPoints E i (log ++ log') = logPoints E i log ++ logPoints E i log' :=
  List.flatMap_append

/-- The planner's calls follow one another. -/
theorem executePlanned_through (inst : WorkflowInstance) (p : Planner) (w : World) :
    Through E w (logPoints E i (executePlanned E i inst p w).2.log)
      (executePlanned E i inst p w).2.host := by
  unfold executePlanned
  simp only
  set planId := (createPlan E.planner inst.workflow.id (planSteps inst.workflow) p).1.planId
  refine executePlan_inv (P := fun s => Through E w (logPoints E i s.log) s.host) ?_
    E.planner _ _ w fun _ => .refl w
  refine ⟨?_, ?_, fun _ _ h => h⟩
  · intro plan phase ahead step s h
    have hcall := h.trans (executor_through (E := E) i planId step s.host)
    unfold callExecutor
    simp only
    rw [logPoints_append]
    simpa [logPoints] using hcall
  · intro s e he h
    have hnone : logPoints E i [e] = [] := by
      cases e with
      | call c => exact absurd rfl (he c)
      | _ => rfl
    rw [logPoints_append, hnone, List.append_nil]
    exact h

theorem executeAdaptive_through (i : String) (fuel : ℕ) (w : World) :
    Through E w (adaptivePoints E i fuel w) (executeAdaptive E i fuel w).2 := by
  unfold executeAdaptive adaptivePoints
  cases w.instances.get? i with
  | none => exact .refl w
  | some inst =>
    simp only
    cases w.planner with
    | none => exact runLoop_through i fuel w
    | some p =>
      have hplan := executePlanned_through (E := E) (i := i) inst p w
      simp only
      generalize executePlanned E i inst p w = R at hplan ⊢
      obtain ⟨r, s⟩ := R
      cases r with
      | error e => exact hplan.hush (.frame rfl rfl)
      | ok plan => exact hplan.hush (.frame rfl rfl)

/-! ## Runs -/

theorem World.step_through (w : World) (op : EngineOp) :
    Through E w (w.points E op) (w.step E op) := by
  cases op with
  | start workflow => exact .quiet .start
  | executeStep i agent policy => exact executeStep_through i agent policy w
  | approve i stepId approved fuel => exact approve_through i stepId approved fuel w
  | executeAdaptive i fuel => exact executeAdaptive_through i fuel w
  | setPlanner p => exact .quiet (.frame rfl rfl)
  | arrange parts => exact .quiet (.frame rfl rfl)

theorem pointsFrom_through (ops : List EngineOp) :
    ∀ w, Through E w (pointsFrom E w ops) (ops.foldl (World.step E) w) := by
  induction ops with
  | nil => intro w; exact .refl w
  | cons op ops ih => intro w; exact (w.step_through op).trans (ih _)

/-- **Every run is a course through its points.** -/
theorem World.run_through (E : Env) (ops : List EngineOp) :
    Through E {} (runPoints E ops) (World.run E ops) :=
  pointsFrom_through ops {}

/-! ## Every point of a run -/

section Points

variable {P : Point → Prop}
  (hcall : ∀ i agent policy w, ∀ p ∈ callPoints E i agent policy w, P p)
include hcall

theorem forall_loopPoints (i : String) : ∀ fuel w, ∀ p ∈ loopPoints E i fuel w, P p := by
  intro fuel
  induction fuel with
  | zero => intro w p hp; cases hp
  | succ fuel ih =>
    intro w p hp
    unfold loopPoints at hp
    cases hi : w.instances.get? i with
    | none => rw [hi] at hp; cases hp
    | some inst =>
      simp only [hi] at hp
      split at hp
      · rcases List.mem_append.1 hp with hp | hp
        · exact hcall _ _ _ _ p hp
        · generalize executeStep E i none none w = R at hp
          obtain ⟨r, w₁⟩ := R
          cases r with
          | error e => cases hp
          | ok artifact => exact ih w₁ p hp
      · cases hp

/-- **What holds of the attempts of each call**, and of rejections, holds at every point of a
run. -/
theorem forall_runPoints (hback : ∀ i stepId w, P (.rejection i stepId w)) (ops : List EngineOp) :
    ∀ p ∈ runPoints E ops, P p := by
  have hop : ∀ (w : World) op, ∀ p ∈ w.points E op, P p := by
    intro w op p hp
    cases op with
    | start | setPlanner | arrange => cases hp
    | executeStep i agent policy => exact hcall _ _ _ _ p hp
    | approve i stepId approved fuel =>
      unfold World.points approvePoints at hp
      cases hi : w.instances.get? i with
      | none => simp only [hi] at hp; cases hp
      | some inst =>
        simp only [hi] at hp
        split at hp
        · split at hp
          · exact forall_loopPoints hcall i fuel _ p hp
          · split at hp
            · rw [List.mem_singleton.1 hp]
              exact hback i stepId _
            · cases hp
        · cases hp
    | executeAdaptive i fuel =>
      unfold World.points adaptivePoints at hp
      cases hi : w.instances.get? i with
      | none => simp only [hi] at hp; cases hp
      | some inst =>
        simp only [hi] at hp
        split at hp
        · exact forall_loopPoints hcall i fuel _ p hp
        · obtain ⟨e, -, he⟩ := List.mem_flatMap.1 hp
          cases e with
          | call c => exact hcall _ _ _ _ p he
          | _ => cases he
  have hall : ∀ (ops : List EngineOp) w, ∀ p ∈ pointsFrom E w ops, P p := by
    intro ops
    induction ops with
    | nil => intro w p hp; cases hp
    | cons op ops ih =>
      intro w p hp
      rcases List.mem_append.1 hp with hp | hp
      · exact hop w op p hp
      · exact ih _ p hp
  exact hall ops {}

end Points

end Hermes

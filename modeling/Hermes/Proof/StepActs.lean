import Hermes.Proof.Journal

/-!
# What is done for a step

* `StepAct`, `World.acts`: bodies of a step run, failures announced, seconds waited.
* `attemptRan`: how the body of an attempt ends, when the attempt comes to run it.
* `attemptStep_acts`: what is done in an attempt, and whether another follows it.
* `executeStepFrom_acts`: what is done in the attempts of a call.
* `runAt_bare`: a body with nothing in its way is run in every attempt.
-/

namespace Hermes

open World

variable {E : Env} {i j k : String} {w w' : World}

/-! ## What a step does -/

inductive StepAct where
  | ran (result : Except Exc Artifact)
  | failed (willRetry : Bool)
  | waited (seconds : ℚ)

/-- What an action is for the step `k` of the instance `i`. -/
def Action.stepAct (i k : String) : Action → Option StepAct
  | .body b =>
    if b.inst = i ∧ b.call.kind = .forward ∧ b.call.step.id = k then some (.ran b.result) else none
  | .event (.stepFailed j s _ _ willRetry) =>
    if j = i ∧ s = k then some (.failed willRetry) else none
  | .sleep seconds => some (.waited seconds)
  | _ => none

/-- What was done for the step `k` of the instance `i`. -/
def World.acts (w : World) (i k : String) : List StepAct := w.trace.filterMap (Action.stepAct i k)

theorem acts_of_trace {t : List Action} (h : w'.trace = w.trace ++ t) :
    w'.acts i k = w.acts i k ++ t.filterMap (Action.stepAct i k) := by
  unfold World.acts
  rw [h, List.filterMap_append]

theorem acts_record (w : World) (a : Action) :
    (w.record a).acts i k = w.acts i k ++ (a.stepAct i k).toList := by
  rw [acts_of_trace (record_trace w a)]
  cases ha : a.stepAct i k <;> simp [ha]

/-- An action that does nothing for the step. -/
theorem acts_quiet (w : World) {a : Action} (ha : a.stepAct i k = none) :
    (w.record a).acts i k = w.acts i k := by
  rw [acts_record, ha]
  exact List.append_nil _

theorem acts_same (h : w'.trace = w.trace) : w'.acts i k = w.acts i k :=
  congrArg (List.filterMap (Action.stepAct i k)) h

/-- An update runs no body. -/
theorem update_bodies (w : World) (f : WorkflowInstance → WorkflowInstance) :
    (w.update j f).bodies = w.bodies := by
  unfold World.update
  split
  · rfl
  · rfl

theorem acts_update (w : World) (f : WorkflowInstance → WorkflowInstance) :
    (w.update j f).acts i k = w.acts i k :=
  acts_same (update_trace w j f)

theorem acts_setStatus (w : World) (s : WorkflowStatus) :
    (w.setStatus j s).acts i k = w.acts i k :=
  (acts_quiet _ rfl).trans (acts_update w _)

theorem acts_setCompleted (w : World) : (w.setCompleted j).acts i k = w.acts i k :=
  (acts_quiet { w.update j _ with tick := _ } rfl).trans (acts_update w _)

/-! ## Rollbacks and ends -/

/-- A compensation is not a run of the step. -/
theorem stepAct_compensation {b : BodyRun} (hb : b.call.kind = .compensation) :
    (Action.body b).stepAct i k = none := by
  refine if_neg ?_
  rintro ⟨-, hforward, -⟩
  rw [hb] at hforward
  cases hforward

theorem runStep_acts {p : BodyPlan} (hp : p.call.kind = .compensation) (cut : Bool) :
    (runStep E w p cut).2.acts i k = w.acts i k := by
  have hinner : ∀ w, (runStepInner E w p cut).2.acts i k = w.acts i k := by
    intro w
    unfold runStepInner
    exact (acts_quiet _ (stepAct_compensation hp)).trans (acts_same rfl)
  unfold runStep
  cases w.parts.resilience with
  | none => exact hinner w
  | some r =>
    simp only
    generalize r.enter _ _ = R
    obtain ⟨result, r'⟩ := R
    cases result with
    | error e => exact acts_same rfl
    | ok u => exact (acts_same rfl).trans ((hinner _).trans (acts_same rfl))

theorem compensateFor_acts (failedStep : String) (w : World) (step : WorkflowStep) :
    (compensateFor E j failedStep w step).acts i k = w.acts i k := by
  unfold compensateFor
  cases truthy step.compensation with
  | none => rfl
  | some c =>
    unfold runCompensation
    simp only
    cases w.instances.get? j with
    | none => rfl
    | some inst =>
      simp only
      cases stepById inst.workflow.steps c with
      | none => rfl
      | some comp =>
        simp only
        have hran := runStep_acts (E := E) (i := i) (k := k)
          (w := w.emit (.compensating j failedStep c))
          (p := ⟨j, "unknown", ⟨.compensation, none, comp, resolveInputs comp inst, none⟩, none, none⟩)
          rfl false
        have hemit : (w.emit (.compensating j failedStep c)).acts i k = w.acts i k := acts_quiet w rfl
        generalize runStep E _ _ false = R at hran ⊢
        obtain ⟨result, w₁⟩ := R
        cases result with
        | ok a => exact (acts_update w₁ _).trans (hran.trans hemit)
        | error e => exact hran.trans hemit

theorem compensate_acts (w : World) (failedStep : String) :
    (compensate E w j failedStep).acts i k = w.acts i k := by
  cases hj : w.instances.get? j with
  | none => rw [compensate_none hj]
  | some inst =>
    have hfold : ∀ (steps : List WorkflowStep) (w : World),
        (steps.foldl (compensateFor E j failedStep) w).acts i k = w.acts i k := by
      intro steps
      induction steps with
      | nil => intro w; rfl
      | cons step steps ih => intro w; exact (ih _).trans (compensateFor_acts failedStep w step)
    rw [compensate_eq hj]
    exact (acts_setStatus _ _).trans ((hfold _ _).trans (acts_setStatus _ _))

/-- **When the retries are used up** nothing more is done for the step. -/
theorem exhaustStep_acts (w : World) (inst : WorkflowInstance) (step : WorkflowStep)
    (params : List (String × Value)) (secret : Bool) (n : ℕ) (e : Exc) :
    (exhaustStep E w j inst step params secret n e).2.acts i k = w.acts i k := by
  have hparked : (w.parked j inst step params secret n e).acts i k = w.acts i k :=
    parked_rule (I := fun w' => w'.acts i k = w.acts i k) secret rfl
      (fun entry w' h => (acts_quiet w' rfl).trans h) (fun entry w' h => (acts_quiet w' rfl).trans h)
      inst step params n e
  have hstalled : ((w.parked j inst step params secret n e).emit (.stalled j step.id e.text)).acts i k =
      w.acts i k := (acts_quiet _ rfl).trans hparked
  rw [exhaustStep_eq]
  simp only
  split
  · exact (acts_same rfl).trans ((compensate_acts _ _).trans hstalled)
  · exact (acts_same rfl).trans ((acts_setStatus _ _).trans hstalled)

theorem completeStep_acts (w : World) (step : WorkflowStep) (artifact : Artifact) :
    (completeStep w j step artifact).acts i k = w.acts i k := by
  unfold completeStep
  simp only
  set w₁ := (w.update j fun inst =>
    { inst with
      stepResults := inst.stepResults.insert step.id (.str artifact.id)
      eventLog := inst.eventLog ++ [artifact.id] }).emit (.stepCompleted j step.id artifact.id) with hw₁
  have hdone : w₁.acts i k = w.acts i k := (acts_quiet _ rfl).trans (acts_update w _)
  cases w₁.instances.get? j with
  | none => exact hdone
  | some inst =>
    simp only
    set w₂ := (w₁.update j fun cur => { cur with currentStepId := inst.next }).record
      (.advance j inst.next) with hw₂
    have hmoved : w₂.acts i k = w.acts i k := (acts_quiet _ rfl).trans ((acts_update w₁ _).trans hdone)
    split
    · exact (acts_setCompleted w₂).trans hmoved
    · exact hmoved

/-- **A refusal** is announced as a failure that is not retried. -/
theorem denyStep_acts (w : World) (step : WorkflowStep) (packageId : Option String) :
    (denyStep E w i step packageId).2.acts i step.id = w.acts i step.id ++ [.failed false] := by
  have hstatus : ∀ f, ((w.update i f).setStatus i .failed).acts i step.id = w.acts i step.id :=
    fun f => (acts_setStatus _ _).trans (acts_update w f)
  unfold denyStep
  simp only
  refine (acts_same rfl).trans ((acts_record _ _).trans ?_)
  rw [hstatus]
  simp [Action.stepAct]

/-! ## Bodies -/

theorem breach_acts (w : World) (violation : String) :
    (breach E w j violation).2.acts i k = w.acts i k := by
  have hrolled : ∀ w, (compensateOnBreach E w j).acts i k = w.acts i k := by
    intro w
    unfold compensateOnBreach
    cases (w.instances.get? j).bind (·.currentStep) with
    | none => rfl
    | some step =>
      simp only
      split
      · exact compensate_acts w step.id
      · rfl
  unfold breach
  exact (acts_quiet _ rfl).trans ((hrolled _).trans (acts_quiet w rfl))

/-- How a body ends that its circuit lets through. -/
def stepRan (E : Env) (w : World) (p : BodyPlan) (timedOut : Bool) : Option (Except Exc Artifact) :=
  let result := if timedOut then .error ⟨.cancelled, ""⟩ else E.body w.bodies p.call
  match w.parts.resilience with
  | none => some result
  | some r =>
    match (r.enter ("wf:" ++ p.circuitScope ++ ":" ++ p.call.step.capability) (E.clock w.tick)).1 with
    | .error _ => none
    | .ok () => some result

/-- How a body ends that comes to be run. -/
def bodyRan (E : Env) (w : World) (p : BodyPlan) (guarded : Option String) :
    Option (Except Exc Artifact) :=
  match w.parts.guard, guarded with
  | some g, some packageId =>
    match g.pre packageId "execute" ("capability:" ++ p.call.step.capability) with
    | .error _ => none
    | .ok () => stepRan E { w with tick := w.tick + 1 } p false
  | _, _ => stepRan E w p (w.parts.sandbox && (E.monitor w.bodies).timedOut)

/-- **How the body of an attempt ends**, when the attempt comes to run it: its inputs are resolved, an
MCP tool has its gateway, and the guard and the circuit let the body through. -/
def attemptRan (E : Env) (i : String) (agent : Option String) (w : World) :
    Option (Except Exc Artifact) :=
  match attemptInputs E i w with
  | some (inst, step, .ok params, _, w) =>
    if isMcp step ∧ w.parts.mcp = false then none
    else bodyRan E w ⟨i, inst.workflow.id, ⟨.forward, some i, step, params, agent⟩, none, none⟩
      (guardedPackage w step)
  | _ => none

/-- The act of a body that was run. -/
def ranActs (ran : Option (Except Exc Artifact)) : List StepAct := (ran.map .ran).toList

/-- The step is run in a sandbox. -/
def World.boxes (w : World) (step : WorkflowStep) : Bool :=
  w.parts.sandbox && (guardedPackage w step).isNone

/-- **What comes back** from a body that ended so. A sandbox hands on what succeeded, or its own
exception. -/
inductive Back (boxed : Bool) : Option (Except Exc Artifact) → Except Exc Artifact → Prop where
  | refused (e : Exc) : Back boxed none (.error e)
  | ran (r : Except Exc Artifact) :
    (boxed = true → ∀ e, r = .error e → e.kind = .sandboxError) → Back boxed (some r) r
  | broken (ran : Option (Except Exc Artifact)) (e : Exc) : boxed = true → e.kind = .sandboxError →
    Back boxed ran (.error e)

/-- A body of the step `k` of the instance `i`. -/
structure BodyOf (i k : String) (p : BodyPlan) : Prop where
  inst : p.inst = i
  forward : p.call.kind = .forward
  step : p.call.step.id = k

theorem runStepInner_acts {p : BodyPlan} (hp : BodyOf i k p) (w : World) (cut : Bool) :
    (runStepInner E w p cut).2.acts i k = w.acts i k ++ [.ran (runStepInner E w p cut).1] := by
  unfold runStepInner
  refine (acts_record _ _).trans ?_
  have hran : ∀ run : BodyRun, run.inst = p.inst → run.call = p.call →
      (Action.body run).stepAct i k = some (.ran run.result) := by
    intro run hinst hcall
    refine if_pos ⟨hinst.trans hp.inst, ?_, ?_⟩
    · rw [hcall]
      exact hp.forward
    · rw [hcall]
      exact hp.step
  rw [hran _ rfl rfl]
  rfl

/-- **A body in its circuit.** -/
theorem runStep_ran {p : BodyPlan} (hp : BodyOf i k p) (w : World) (cut : Bool) :
    Back false (stepRan E w p cut) (runStep E w p cut).1 ∧
      (runStep E w p cut).2.acts i k = w.acts i k ++ ranActs (stepRan E w p cut) := by
  unfold stepRan runStep
  cases w.parts.resilience with
  | none => exact ⟨.ran _ (nomatch ·), runStepInner_acts hp w cut⟩
  | some r =>
    simp only
    generalize r.enter _ _ = R
    obtain ⟨result, r'⟩ := R
    cases result with
    | error e => exact ⟨.refused e, ((acts_same rfl).trans (List.append_nil _).symm)⟩
    | ok u =>
      exact ⟨.ran _ (nomatch ·), (acts_same rfl).trans ((runStepInner_acts hp _ cut).trans rfl)⟩

/-- Without a sandbox, what comes back is what the body did. -/
theorem Back.mono {ran : Option (Except Exc Artifact)} {r : Except Exc Artifact} {boxed : Bool}
    (h : Back false ran r) (hb : boxed = true → ∀ e, r = .error e → e.kind = .sandboxError) :
    Back boxed ran r := by
  cases h with
  | refused e => exact .refused e
  | ran => exact .ran r hb
  | broken _ _ hf => cases hf

theorem runGuarded_ran {p : BodyPlan} (hp : BodyOf i k p) (w : World) {g : Guard}
    (hg : w.parts.guard = some g) (packageId : String) :
    Back false (bodyRan E w p (some packageId)) (runGuarded E w g packageId p).1 ∧
      (runGuarded E w g packageId p).2.acts i k =
        w.acts i k ++ ranActs (bodyRan E w p (some packageId)) := by
  unfold bodyRan runGuarded
  rw [hg]
  simp only
  cases g.pre packageId "execute" ("capability:" ++ p.call.step.capability) with
  | error refusal =>
    obtain ⟨outcome, e⟩ := refusal
    exact ⟨.refused e, (acts_quiet w rfl).trans (List.append_nil _).symm⟩
  | ok u =>
    obtain ⟨hback, hacts⟩ := runStep_ran (E := E) hp { w with tick := w.tick + 1 } false
    exact ⟨hback, (acts_quiet _ rfl).trans ((acts_same rfl).trans (hacts.trans rfl))⟩

theorem runSandboxed_ran {p : BodyPlan} (hp : BodyOf i k p) (w : World) :
    Back true (stepRan E w p (E.monitor w.bodies).timedOut) (runSandboxed E w p).1 ∧
      (runSandboxed E w p).2.acts i k =
        w.acts i k ++ ranActs (stepRan E w p (E.monitor w.bodies).timedOut) := by
  obtain ⟨hback, hacts⟩ := runStep_ran (E := E) hp w (E.monitor w.bodies).timedOut
  unfold runSandboxed
  simp only
  generalize runStep E w p _ = R at hback hacts ⊢
  obtain ⟨r, w₁⟩ := R
  simp only at hback hacts
  have hbreach : ∀ violation,
      Back true (stepRan E w p (E.monitor w.bodies).timedOut) (breach E w₁ p.inst violation).1 ∧
        (breach E w₁ p.inst violation).2.acts i k =
          w.acts i k ++ ranActs (stepRan E w p (E.monitor w.bodies).timedOut) := fun violation =>
    ⟨.broken _ _ rfl rfl, (breach_acts w₁ violation).trans hacts⟩
  cases r with
  | ok artifact =>
    simp only
    split
    · refine ⟨hback.mono fun _ e he => ?_, hacts⟩
      cases he
    · exact hbreach _
  | error e =>
    simp only
    split
    · exact hbreach _
    · exact hbreach _
    · rename_i hk
      refine ⟨hback.mono fun _ e' he => ?_, hacts⟩
      cases he
      exact hk
    · exact hbreach _

/-- **The body of a step**, as the engine is wired. -/
theorem runBody_ran {p : BodyPlan} (hp : BodyOf i k p) (w : World) (step : WorkflowStep)
    (policy : SandboxPolicy) :
    Back (w.boxes step) (bodyRan E w p (guardedPackage w step))
        (runBody E w p (guardedPackage w step) policy).1 ∧
      (runBody E w p (guardedPackage w step) policy).2.acts i k =
        w.acts i k ++ ranActs (bodyRan E w p (guardedPackage w step)) := by
  cases hpackage : guardedPackage w step with
  | some packageId =>
    have hwired : w.parts.guard.isSome = true := by
      by_contra hnone
      unfold guardedPackage at hpackage
      rw [if_neg fun h => hnone h.1] at hpackage
      cases hpackage
    obtain ⟨g, hg⟩ := Option.isSome_iff_exists.1 hwired
    have hbare : w.boxes step = false := by
      unfold World.boxes
      rw [hpackage]
      exact Bool.and_false _
    rw [hbare]
    unfold runBody
    rw [hg]
    exact runGuarded_ran (p := { p with guarded := some packageId })
      ⟨hp.inst, hp.forward, hp.step⟩ w hg packageId
  | none =>
    have hboxes : w.boxes step = w.parts.sandbox := by
      unfold World.boxes
      rw [hpackage]
      exact Bool.and_true _
    have hran : bodyRan E w p none = stepRan E w p (w.parts.sandbox && (E.monitor w.bodies).timedOut) := by
      unfold bodyRan
      cases w.parts.guard <;> rfl
    have hrun : runBody E w p none policy =
        if w.parts.sandbox then runSandboxed E w { p with sandboxed := some policy }
        else runStep E w p false := by
      unfold runBody
      cases w.parts.guard <;> rfl
    rw [hboxes, hran, hrun]
    cases w.parts.sandbox with
    | true =>
      exact runSandboxed_ran (p := { p with sandboxed := some policy })
        ⟨hp.inst, hp.forward, hp.step⟩ w
    | false => exact runStep_ran hp w false

/-! ## Attempts -/

/-- The guard refused what the body did. -/
def Exc.IsDenial (e : Exc) : Prop := e.kind = .permissionDenied ∨ e.kind = .resourceLimitExceeded

/-- The exception is retried: it is not one of the guard or of a sandbox. -/
def Exc.IsOrdinary (e : Exc) : Prop := ¬ e.IsDenial ∧ e.kind ≠ .sandboxError

/-- A run of the body that no other follows, whatever the policy. -/
def EndsStep (boxed : Bool) : Except Exc Artifact → Prop
  | .ok _ => True
  | .error e => boxed = true ∨ ¬ e.IsOrdinary

/-- A run that is retried raises an ordinary exception, outside of a sandbox. -/
theorem not_endsStep {boxed : Bool} {r : Except Exc Artifact} (h : ¬ EndsStep boxed r) :
    ∃ e, r = .error e ∧ boxed = false ∧ e.IsOrdinary := by
  cases r with
  | ok artifact => exact absurd trivial h
  | error e =>
    obtain ⟨hboxed, hordinary⟩ := not_or.1 h
    exact ⟨e, rfl, Bool.eq_false_iff.2 hboxed, not_not.1 hordinary⟩

/-- What follows the last run of the body. -/
def lastActs (boxed : Bool) : Except Exc Artifact → List StepAct
  | .ok _ => []
  | .error e => if boxed = true ∨ e.kind = .sandboxError then [] else [.failed false]

/-- **What follows the last attempt.** -/
inductive Closes (boxed : Bool) : Option (Except Exc Artifact) → List StepAct → Prop where
  | silent : Closes boxed none []
  | refused : Closes boxed none [.failed false]
  | ran (r : Except Exc Artifact) : Closes boxed (some r) (lastActs boxed r)

/-- A pass through a step that started in `w`, and came to a body that ended so. -/
inductive PassActs (i : String) (inst : WorkflowInstance) (step : WorkflowStep) (n : ℕ) (boxed : Bool)
    (w : World) (ran : Option (Except Exc Artifact)) : Pass × World → Prop where
  | done {r : Except Exc Artifact} {w' : World} (last : List StepAct) :
    (∀ r, ran = some r → EndsStep boxed r) → Closes boxed ran last →
    w'.acts i step.id = w.acts i step.id ++ ranActs ran ++ last →
    PassActs i inst step n boxed w ran (.done r, w')
  | raised {params : List (String × Value)} {secret : Bool} {e : Exc} {w' : World} :
    e.IsOrdinary → (∀ r, ran = some r → r = .error e ∧ boxed = false) →
    w'.acts i step.id = w.acts i step.id ++ ranActs ran →
    PassActs i inst step n boxed w ran (.raised inst step params secret n e, w')

section

variable {inst : WorkflowInstance} {step : WorkflowStep} {params : List (String × Value)} {secret : Bool}
  {n : ℕ} {agent : Option String} {policy : Option SandboxPolicy}

/-- **The handlers** of what comes back from the body. -/
theorem tryBody_acts (w : World) :
    PassActs i inst step n (w.boxes step) w
      (bodyRan E w ⟨i, inst.workflow.id, ⟨.forward, some i, step, params, agent⟩, none, none⟩
        (guardedPackage w step))
      (tryBody E w i inst step params secret n agent policy) := by
  obtain ⟨hback, hacts⟩ := runBody_ran (E := E) (i := i) (k := step.id)
    (p := ⟨i, inst.workflow.id, ⟨.forward, some i, step, params, agent⟩, none, none⟩)
    ⟨rfl, rfl, rfl⟩ w step (policy.getD (resolvePolicy step inst.workflow))
  unfold tryBody
  simp only
  generalize bodyRan E w _ _ = ran at hback hacts ⊢
  generalize runBody E w _ _ _ = R at hback hacts ⊢
  obtain ⟨r, w₁⟩ := R
  simp only at hback hacts
  cases r with
  | ok artifact =>
    cases hback with
    | ran =>
      refine .done [] (fun r hr => ?_) (.ran (.ok artifact)) ?_
      · cases hr
        trivial
      · rw [completeStep_acts, hacts, List.append_nil]
  | error e =>
    -- what the exception says of the body, if it is not one of a sandbox
    have hplain : e.kind ≠ .sandboxError → ∀ r, ran = some r → r = .error e ∧ w.boxes step = false := by
      intro hk r hr
      cases hback with
      | refused => cases hr
      | ran _ hboxed =>
        cases hr
        exact ⟨rfl, Bool.eq_false_iff.2 fun hb => hk (hboxed hb e rfl)⟩
      | broken _ _ _ hbroken => exact absurd hbroken hk
    have hdenied : e.IsDenial → PassActs i inst step n (w.boxes step) w ran
        (.done (denyStep E w₁ i step (guardedPackage w step)).1,
          (denyStep E w₁ i step (guardedPackage w step)).2) := by
      intro hdenial
      have hk : e.kind ≠ .sandboxError := by
        rcases hdenial with hk | hk
        · rw [hk]
          decide
        · rw [hk]
          decide
      refine .done [.failed false] (fun r hr => ?_) ?_ ?_
      · obtain ⟨rfl, -⟩ := hplain hk r hr
        exact .inr fun hordinary => hordinary.1 hdenial
      · cases hran : ran with
        | none => exact .refused
        | some r =>
          obtain ⟨rfl, hbare⟩ := hplain hk r hran
          have hlast : lastActs (w.boxes step) (.error e) = [.failed false] := by
            refine if_neg ?_
            rintro (hb | hs)
            · rw [hbare] at hb
              cases hb
            · exact hk hs
          rw [← hlast]
          exact .ran _
      · rw [denyStep_acts, hacts]
    simp only
    split
    · rename_i hk
      exact hdenied (.inl hk)
    · rename_i hk
      exact hdenied (.inr hk)
    · rename_i hk
      refine .done [] (fun r hr => ?_) ?_ (hacts.trans (List.append_nil _).symm)
      · cases hback with
        | refused => cases hr
        | ran =>
          cases hr
          exact .inr fun hordinary => hordinary.2 hk
        | broken _ _ hb =>
          cases r with
          | ok artifact => trivial
          | error e' => exact .inl hb
      · cases hran : ran with
        | none => exact .silent
        | some r =>
          have hlast : lastActs (w.boxes step) r = [] := by
            cases r with
            | ok artifact => rfl
            | error e' =>
              refine if_pos ?_
              rw [hran] at hback
              cases hback with
              | ran => exact .inr hk
              | broken _ _ hb => exact .inl hb
          rw [← hlast]
          exact .ran r
    · rename_i hnotDenied hnotLimited hnotSandbox
      exact .raised ⟨fun hdenial => hdenial.elim hnotDenied hnotLimited, hnotSandbox⟩
        (hplain hnotSandbox) hacts

theorem PassActs.of_acts {boxed : Bool} {ran : Option (Except Exc Artifact)} {R : Pass × World}
    (h : PassActs i inst step n boxed w' ran R) (hacts : w'.acts i step.id = w.acts i step.id) :
    PassActs i inst step n boxed w ran R := by
  cases h with
  | done last hends hcloses h => exact .done last hends hcloses (hacts ▸ h)
  | raised hordinary hran h => exact .raised hordinary hran (hacts ▸ h)

theorem boxes_congr (h : w'.parts.wiring = w.parts.wiring) (step : WorkflowStep) :
    w'.boxes step = w.boxes step := by
  have hsandbox : w'.parts.sandbox = w.parts.sandbox := congrArg Wiring.sandbox h
  unfold World.boxes
  rw [hsandbox, guardedPackage_congr h]

/-- The step is the current one, attempted `a` times before and past its gate. -/
structure Poised (i : String) (step : WorkflowStep) (a : ℕ) (w : World) : Prop where
  current : ∃ inst, w.instances.get? i = some inst ∧ inst.currentStep = some step ∧
    inst.attempts step.id = a
  passed : step.requiresApproval = true → a ≠ 0

/-- A poised step does not stop at its gate. -/
theorem Poised.ungated {a : ℕ} (h : Poised i step a w) :
    ¬ (step.requiresApproval = true ∧ a + 1 = 1) := by
  rintro ⟨hgated, hfirst⟩
  exact h.passed hgated (by omega)

/-- **A pass** through a step past its gate. -/
theorem passStep_acts {a : ℕ} (h : Poised i step a w) (hi : w.instances.get? i = some inst)
    (agent : Option String) (policy : Option SandboxPolicy) :
    PassActs i inst step (a + 1) (w.boxes step) w (attemptRan E i agent w)
      (passStep E w i inst agent policy) := by
  obtain ⟨inst', hi', hcurrent, hattempts⟩ := h.current
  obtain rfl : inst' = inst := Option.some.inj (hi'.symm.trans hi)
  have hgate : ¬ (step.requiresApproval = true ∧ inst'.attempts step.id + 1 = 1) := by
    rw [hattempts]
    exact h.ungated
  set w₁ := ((w.update i fun cur =>
    { cur with stepAttempts := cur.stepAttempts.insert step.id (inst'.attempts step.id + 1) }).record
    (.attempt i step.id (inst'.attempts step.id + 1))).emit (.stepStarted i step.id step.capability) with hw₁
  have hstarted : Writes i w w₁ [Note.started i step.id] (inst'.counted step) :=
    (counted_writes hi step).record _
  have hsupplied := interpolateParams_writes (E := E) hstarted (resolveInputs step inst')
  have hacts : (interpolateParams E w₁ i (resolveInputs step inst')).2.2.acts i step.id =
      w.acts i step.id := by
    have hsame : (interpolateParams E w₁ i (resolveInputs step inst')).2.2.acts i step.id =
        w₁.acts i step.id := by
      unfold interpolateParams
      cases w₁.parts.vault <;> rfl
    exact hsame.trans ((acts_quiet _ rfl).trans ((acts_quiet _ rfl).trans (acts_update w _)))
  have hinputs : attemptInputs E i w =
      some (inst', step, interpolateParams E w₁ i (resolveInputs step inst')) := by
    unfold attemptInputs
    simp only [hi, hcurrent]
    rw [if_neg hgate]
  unfold passStep attemptRan
  rw [hinputs, hcurrent]
  simp only
  rw [if_neg hgate]
  unfold startStep
  simp only
  rw [← hw₁]
  generalize interpolateParams E w₁ i (resolveInputs step inst') = R at hsupplied hacts ⊢
  obtain ⟨r, secret, w₂⟩ := R
  simp only at hsupplied hacts
  cases r with
  | error e =>
    exact .done [] (fun r hr => by cases hr) .silent (hacts.trans (by simp [ranActs]))
  | ok params =>
    simp only
    split
    · refine .done [.failed false] (fun r hr => by cases hr) .refused ?_
      refine (acts_same rfl).trans ((acts_record _ _).trans ?_)
      rw [acts_setStatus, hacts]
      simp [ranActs, Action.stepAct]
    · rw [hattempts, ← boxes_congr hsupplied.wiring]
      exact (tryBody_acts w₂).of_acts hacts

/-- **An attempt** at a step, with `retries` left: what is done for the step, and where it leads. -/
inductive AttemptActs (E : Env) (i : String) (agent : Option String) (step : WorkflowStep) (a : ℕ)
    (w : World) : ℕ → Option (Except Exc Artifact) × World → Prop where
  | last {retries : ℕ} {r : Except Exc Artifact} {w' : World} (last : List StepAct) :
    (retries = 0 ∨ ∀ r, attemptRan E i agent w = some r → EndsStep (w.boxes step) r) →
    Closes (w.boxes step) (attemptRan E i agent w) last →
    w'.acts i step.id = w.acts i step.id ++ ranActs (attemptRan E i agent w) ++ last →
    AttemptActs E i agent step a w retries (some r, w')
  | again {retries : ℕ} {w' : World} :
    (∀ r, attemptRan E i agent w = some r → ¬ EndsStep (w.boxes step) r) →
    Poised i step (a + 1) w' → w'.boxes step = w.boxes step →
    w'.acts i step.id = w.acts i step.id ++ ranActs (attemptRan E i agent w) ++
      [.failed true, .waited (step.retryPolicy.backoff (a + 1))] →
    AttemptActs E i agent step a w (retries + 1) (none, w')

theorem attemptStep_acts {a : ℕ} (h : Poised i step a w) (agent : Option String) (retries : ℕ)
    (policy : Option SandboxPolicy) :
    AttemptActs E i agent step a w retries (attemptStep E i agent retries policy w) := by
  obtain ⟨inst, hi, hcurrent, hattempts⟩ := h.current
  have hpass := passStep_acts (E := E) h hi agent policy
  have hdone := attemptStep_done (E := E) hi hcurrent agent retries policy
  unfold attemptStep at hdone ⊢
  rw [hi] at hdone ⊢
  simp only at hdone ⊢
  generalize passStep E w i inst agent policy = R at hpass hdone ⊢
  cases hpass with
  | done last hends hcloses hacts => exact .last last (.inr hends) hcloses hacts
  | @raised params secret e w₁ hordinary hran hacts =>
    have hfailed : ∀ willRetry,
        (w₁.emit (.stepFailed i step.id e.text (a + 1) willRetry)).acts i step.id =
          w.acts i step.id ++ ranActs (attemptRan E i agent w) ++ [.failed willRetry] := by
      intro willRetry
      refine (acts_record _ _).trans ?_
      rw [hacts]
      simp [Action.stepAct]
    have hopen : ∀ r, attemptRan E i agent w = some r → ¬ EndsStep (w.boxes step) r := by
      intro r hr
      obtain ⟨rfl, hbare⟩ := hran r hr
      rintro (hboxed | hends)
      · rw [hbare] at hboxed
        cases hboxed
      · exact hends hordinary
    unfold afterPass at hdone ⊢
    cases retries with
    | zero =>
      simp only
      refine .last [.failed false] (.inl rfl) ?_ ?_
      · cases hcame : attemptRan E i agent w with
        | none => exact .refused
        | some r =>
          obtain ⟨rfl, hbare⟩ := hran r hcame
          have hlast : lastActs (w.boxes step) (.error e) = [.failed false] := by
            refine if_neg ?_
            rintro (hboxed | hs)
            · rw [hbare] at hboxed
              cases hboxed
            · exact hordinary.2 hs
          rw [← hlast]
          exact .ran _
      · rw [exhaustStep_acts]
        exact hfailed false
    | succ retries =>
      simp only at hdone ⊢
      cases hdone with
      | again _ _ hw =>
        refine .again hopen ⟨?_, fun _ => Nat.succ_ne_zero a⟩ (boxes_congr hw.wiring step) ?_
        · obtain ⟨inst', hi', hstanding⟩ := hw.inst
          have hplace : inst'.place = (inst.counted step).place := congrArg Standing.place hstanding
          have hworkflow : inst'.workflow = inst.workflow := congrArg Place.workflow hplace
          have hcursor : inst'.currentStepId = inst.currentStepId := congrArg Place.cursor hplace
          have hcount : inst'.stepAttempts =
              inst.stepAttempts.insert step.id (inst.attempts step.id + 1) :=
            congrArg Place.attempts hplace
          refine ⟨inst', hi', (currentStep_congr hworkflow hcursor).trans hcurrent, ?_⟩
          unfold WorkflowInstance.attempts
          rw [hcount, Dict.get?_insert_self, hattempts]
          rfl
        · refine (acts_record _ _).trans ?_
          rw [decide_eq_true (Nat.succ_pos retries), hfailed true]
          simp [Action.stepAct]

end

/-! ## Calls -/

/-- The world in which the `k + 1`-th attempt of a call begins, if the attempts before it are
retried. -/
def attemptWorld (E : Env) (i : String) (agent : Option String) : Option SandboxPolicy → World → ℕ → World
  | _, w, 0 => w
  | policy, w, k + 1 => attemptWorld E i agent none (attemptStep E i agent 1 policy w).2 k

/-- How the body of the `k + 1`-th attempt of a call ends, when the attempt comes to run it. -/
def runAt (E : Env) (i : String) (agent : Option String) (policy : Option SandboxPolicy) (w : World)
    (k : ℕ) : Option (Except Exc Artifact) :=
  attemptRan E i agent (attemptWorld E i agent policy w k)

/-- An attempt that is retried does the same, however many may follow it. -/
theorem attemptStep_again {agent : Option String} {policy : Option SandboxPolicy} {retries : ℕ}
    (h : attemptStep E i agent (retries + 1) policy w = (none, w')) :
    attemptStep E i agent 1 policy w = (none, w') := by
  unfold attemptStep at h ⊢
  cases hi : w.instances.get? i with
  | none =>
    rw [hi] at h
    cases h
  | some inst =>
    rw [hi] at h
    simp only at h ⊢
    generalize passStep E w i inst agent policy = R at h ⊢
    obtain ⟨pass, w₁⟩ := R
    cases pass with
    | done r => cases h
    | raised => exact h

section

variable {step : WorkflowStep}

/-- An attempt that is retried, the `k + 1`-th after `a` others. -/
def triedAt (step : WorkflowStep) (ran : ℕ → Option (Except Exc Artifact)) (a k : ℕ) : List StepAct :=
  ranActs (ran k) ++ [.failed true, .waited (step.retryPolicy.backoff (a + k + 1))]

/-- **What a call does** in `m + 1` attempts, of which the first comes after `a` others. -/
structure CallActs (step : WorkflowStep) (boxed : Bool) (ran : ℕ → Option (Except Exc Artifact))
    (a retries m : ℕ) (acts : List StepAct) : Prop where
  le : m ≤ retries
  retried : ∀ k < m, ∀ r, ran k = some r → ¬ EndsStep boxed r
  ends : m = retries ∨ ∀ r, ran m = some r → EndsStep boxed r
  acts : ∃ last, Closes boxed (ran m) last ∧
    acts = (List.range m).flatMap (triedAt step ran a) ++ (ranActs (ran m) ++ last)

/-- **The attempts of a call.** -/
theorem executeStepFrom_acts {a : ℕ} (agent : Option String) (retries : ℕ)
    (policy : Option SandboxPolicy) (h : Poised i step a w) : ∃ m acts,
      CallActs step (w.boxes step) (runAt E i agent policy w) a retries m acts ∧
      (executeStepFrom E i agent retries policy w).2.acts i step.id = w.acts i step.id ++ acts := by
  induction retries generalizing policy a w with
  | zero =>
    have hattempt := attemptStep_acts (E := E) h agent 0 policy
    rw [executeStepFrom_eq]
    generalize attemptStep E i agent 0 policy w = R at hattempt ⊢
    cases hattempt with
    | last last hends hcloses hacts =>
      refine ⟨0, _, ⟨le_rfl, fun k hk => absurd hk (Nat.not_lt_zero k), .inl rfl, _, hcloses, rfl⟩, ?_⟩
      rw [List.append_assoc] at hacts
      exact hacts
  | succ retries ih =>
    have hattempt := attemptStep_acts (E := E) h agent (retries + 1) policy
    rw [executeStepFrom_eq]
    generalize hR : attemptStep E i agent (retries + 1) policy w = R at hattempt ⊢
    cases hattempt with
    | last last hends hcloses hacts =>
      refine ⟨0, _, ⟨Nat.zero_le _, fun k hk => absurd hk (Nat.not_lt_zero k),
        .inr (hends.resolve_left (Nat.succ_ne_zero retries)), _, hcloses, rfl⟩, ?_⟩
      rw [List.append_assoc] at hacts
      exact hacts
    | @again _ w₁ hopen hpoised hboxes hacts =>
      obtain ⟨m, acts, ⟨hle, hretried, hends, last, hcloses, rfl⟩, hrest⟩ := ih none hpoised
      rw [hboxes] at hretried hends hcloses
      have hnext : ∀ k, runAt E i agent policy w (k + 1) = runAt E i agent none w₁ k := by
        intro k
        have hworld : (attemptStep E i agent 1 policy w).2 = w₁ := by
          rw [attemptStep_again hR]
        unfold runAt
        rw [attemptWorld, hworld]
      have hshift : ∀ k, triedAt step (runAt E i agent policy w) a (k + 1) =
          triedAt step (runAt E i agent none w₁) (a + 1) k := by
        intro k
        have hcount : a + (k + 1) + 1 = a + 1 + k + 1 := by omega
        unfold triedAt
        rw [hnext, hcount]
      have hfirst : triedAt step (runAt E i agent policy w) a 0 =
          ranActs (attemptRan E i agent w) ++
            [.failed true, .waited (step.retryPolicy.backoff (a + 1))] := rfl
      refine ⟨m + 1, _, ⟨Nat.succ_le_succ hle, ?_, ?_, last, ?_, rfl⟩, ?_⟩
      · intro k hk
        cases k with
        | zero => exact hopen
        | succ k =>
          rw [hnext]
          exact hretried k (by omega)
      · rw [hnext]
        exact hends.imp_left (congrArg (· + 1))
      · rw [hnext]
        exact hcloses
      · simp only [Nat.add_sub_cancel]
        rw [hrest, hacts, List.range_succ_eq_map, List.flatMap_cons, List.flatMap_map, hnext]
        simp only [Nat.succ_eq_add_one, hshift, hfirst, List.append_assoc]

end

/-! ## Bodies that are run as they are -/

section

variable {step : WorkflowStep} {a : ℕ} {inst : WorkflowInstance} {agent : Option String}
  {policy : Option SandboxPolicy}

/-- The body of a step is run as it is: no package under a guard backs it, and neither a sandbox nor
a circuit nor a vault is wired. An MCP tool has its gateway. -/
structure Bare (w : World) (step : WorkflowStep) : Prop where
  unguarded : guardedPackage w step = none
  unsandboxed : w.parts.sandbox = false
  uncircuited : w.parts.resilience = none
  unkeyed : w.parts.vault = none
  served : isMcp step = true → w.parts.mcp = true

theorem Bare.congr (h : Bare w step) (hparts : w'.parts = w.parts) : Bare w' step where
  unguarded := (guardedPackage_congr (congrArg Parts.wiring hparts) step).trans h.unguarded
  unsandboxed := hparts ▸ h.unsandboxed
  uncircuited := hparts ▸ h.uncircuited
  unkeyed := hparts ▸ h.unkeyed
  served := hparts ▸ h.served

theorem Bare.wired (h : Bare w step) : ¬ (isMcp step = true ∧ w.parts.mcp = false) := by
  rintro ⟨hmcp, hnone⟩
  rw [h.served hmcp] at hnone
  cases hnone

/-- The outcome of the `k`-th run of the body from a world on. -/
def bodyAt (E : Env) (i : String) (step : WorkflowStep) (params : List (String × Value))
    (agent : Option String) (w : World) (k : ℕ) : Except Exc Artifact :=
  E.body (w.bodies + k) ⟨.forward, some i, step, params, agent⟩

/-- The world in which the body of an attempt at `step` is run. -/
def startedWorld (i : String) (step : WorkflowStep) (n : ℕ) (w : World) : World :=
  ((w.update i fun cur => { cur with stepAttempts := cur.stepAttempts.insert step.id n }).record
    (.attempt i step.id n)).emit (.stepStarted i step.id step.capability)

/-- **A bare attempt** runs the body at once. -/
theorem attemptRan_bare (h : Poised i step a w) (hbare : Bare w step)
    (hi : w.instances.get? i = some inst) :
    attemptRan E i agent w = some (bodyAt E i step (resolveInputs step inst) agent w 0) := by
  obtain ⟨inst', hi', hcurrent, hattempts⟩ := h.current
  obtain rfl : inst' = inst := Option.some.inj (hi'.symm.trans hi)
  have hgate : ¬ (step.requiresApproval = true ∧ inst'.attempts step.id + 1 = 1) := by
    rw [hattempts]
    exact h.ungated
  set w₁ := startedWorld i step (inst'.attempts step.id + 1) w with hw₁
  have hbare₁ : Bare w₁ step := hbare.congr (update_parts w i _)
  have hbodies : w₁.bodies = w.bodies := update_bodies w _
  have hinputs : attemptInputs E i w = some (inst', step, .ok (resolveInputs step inst'), false, w₁) := by
    unfold attemptInputs
    simp only [hi, hcurrent]
    rw [if_neg hgate]
    exact congrArg (fun R => some (inst', step, R)) (interpolateParams_bare hbare₁.unkeyed _)
  unfold attemptRan
  rw [hinputs]
  simp only
  rw [if_neg hbare₁.wired, hbare₁.unguarded]
  have hopen : ∀ p, bodyRan E w₁ p none = some (E.body w₁.bodies p.call) := by
    intro p
    have hstep : bodyRan E w₁ p none = stepRan E w₁ p false := by
      unfold bodyRan
      rw [hbare₁.unsandboxed]
      cases w₁.parts.guard <;> rfl
    rw [hstep]
    unfold stepRan
    rw [hbare₁.uncircuited]
    rfl
  rw [hopen, hbodies]
  rfl

/-- A bare body is run inside nothing. -/
theorem Bare.runBody_eq (h : Bare w step) (plan : BodyPlan) (p : SandboxPolicy) :
    runBody E w plan none p = runStepInner E w plan false := by
  unfold runBody runStep
  rw [h.unsandboxed, h.uncircuited]
  cases w.parts.guard <;> rfl

/-- **A bare body that raises** an ordinary exception. -/
theorem Bare.tryBody_raised (h : Bare w step) {params : List (String × Value)} {e : Exc}
    (hraised : E.body w.bodies ⟨.forward, some i, step, params, agent⟩ = .error e)
    (hordinary : e.IsOrdinary) (n : ℕ) :
    tryBody E w i inst step params false n agent policy =
      (.raised inst step params false n e,
        (runStepInner E w ⟨i, inst.workflow.id, ⟨.forward, some i, step, params, agent⟩, none, none⟩
          false).2) := by
  have hrun : ∀ p, runBody E w ⟨i, inst.workflow.id, ⟨.forward, some i, step, params, agent⟩, none, none⟩
      none p = (.error e, (runStepInner E w
        ⟨i, inst.workflow.id, ⟨.forward, some i, step, params, agent⟩, none, none⟩ false).2) := by
    intro p
    rw [h.runBody_eq]
    exact Prod.ext hraised rfl
  unfold tryBody
  simp only
  rw [h.unguarded, hrun]
  simp only
  split
  · rename_i hk
    exact absurd (.inl hk) hordinary.1
  · rename_i hk
    exact absurd (.inr hk) hordinary.1
  · rename_i hk
    exact absurd hk hordinary.2
  · rfl

variable (policy) in
/-- **A bare attempt that is retried** leaves the step as it was, but for one more attempt, and one more
body that was run. -/
theorem attemptStep_bare (h : Poised i step a w) (hbare : Bare w step)
    (hi : w.instances.get? i = some inst)
    (hopen : ¬ EndsStep false (bodyAt E i step (resolveInputs step inst) agent w 0)) :
    ∃ w' inst', attemptStep E i agent 1 policy w = (none, w') ∧ Poised i step (a + 1) w' ∧
      Bare w' step ∧ w'.bodies = w.bodies + 1 ∧ w'.instances.get? i = some inst' ∧
      resolveInputs step inst' = resolveInputs step inst := by
  obtain ⟨inst', hi', hcurrent, hattempts⟩ := h.current
  obtain rfl : inst' = inst := Option.some.inj (hi'.symm.trans hi)
  obtain ⟨e, hraised, -, hordinary⟩ := not_endsStep hopen
  set count : WorkflowInstance → WorkflowInstance := fun cur =>
    { cur with stepAttempts := cur.stepAttempts.insert step.id (a + 1) } with hcount
  set w₁ := startedWorld i step (a + 1) w with hw₁
  have hparts : w₁.parts = w.parts := update_parts w i count
  have hbare₁ : Bare w₁ step := hbare.congr hparts
  have hbodies : w₁.bodies = w.bodies := update_bodies w count
  have hinst : w₁.instances.get? i = some (count inst') := update_get? count hi
  set plan : BodyPlan :=
    ⟨i, inst'.workflow.id, ⟨.forward, some i, step, resolveInputs step inst', agent⟩, none, none⟩ with hplan
  set w₂ := (runStepInner E w₁ plan false).2 with hw₂
  have htry : tryBody E w₁ i inst' step (resolveInputs step inst') false (a + 1) agent policy =
      (.raised inst' step (resolveInputs step inst') false (a + 1) e, w₂) := by
    refine hbare₁.tryBody_raised ?_ hordinary (a + 1)
    rw [hbodies]
    exact hraised
  have hpass : passStep E w i inst' agent policy =
      (.raised inst' step (resolveInputs step inst') false (a + 1) e, w₂) := by
    unfold passStep
    rw [hcurrent]
    simp only
    rw [hattempts, if_neg h.ungated]
    unfold startStep
    simp only
    have hparams := interpolateParams_bare (E := E) (i := i) hbare₁.unkeyed (resolveInputs step inst')
    rw [hw₁, startedWorld] at hparams
    simp only [hparams]
    exact (if_neg hbare₁.wired).trans htry
  have hattempt : attemptStep E i agent 1 policy w = (none,
      (w₂.emit (.stepFailed i step.id e.text (a + 1) true)).record
        (.sleep (step.retryPolicy.backoff (a + 1)))) := by
    unfold attemptStep
    rw [hi]
    simp only
    rw [hpass]
    rfl
  have hacts := attemptStep_acts (E := E) h agent 1 policy
  rw [hattempt] at hacts
  cases hacts with
  | again _ hpoised _ _ =>
    exact ⟨_, count inst', hattempt, hpoised, hbare₁.congr rfl, congrArg (· + 1) hbodies, hinst, rfl⟩

variable (agent policy) in
/-- **The runs of a bare step** are its bodies, one after the other, as long as they are retried. -/
theorem runAt_bare (h : Poised i step a w) (hbare : Bare w step) (hi : w.instances.get? i = some inst)
    (k : ℕ) (hopen : ∀ j < k, ¬ EndsStep false (bodyAt E i step (resolveInputs step inst) agent w j)) :
    runAt E i agent policy w k = some (bodyAt E i step (resolveInputs step inst) agent w k) := by
  induction k generalizing a w inst policy with
  | zero => exact attemptRan_bare h hbare hi
  | succ k ih =>
    obtain ⟨w', inst', hattempt, hpoised, hbare', hbodies, hi', hinputs⟩ :=
      attemptStep_bare policy h hbare hi (hopen 0 (Nat.succ_pos k))
    have hnext : ∀ j, bodyAt E i step (resolveInputs step inst') agent w' j =
        bodyAt E i step (resolveInputs step inst) agent w (j + 1) := by
      intro j
      have hindex : w.bodies + 1 + j = w.bodies + (j + 1) := by omega
      unfold bodyAt
      rw [hinputs, hbodies, hindex]
    have hlater := ih none hpoised hbare' hi' fun j hj => by
      rw [hnext]
      exact hopen (j + 1) (Nat.succ_lt_succ hj)
    have hworld : (attemptStep E i agent 1 policy w).2 = w' := by
      rw [hattempt]
    rw [hnext] at hlater
    unfold runAt at hlater ⊢
    rw [attemptWorld, hworld]
    exact hlater

end

end Hermes

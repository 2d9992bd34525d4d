import Hermes.Spec.Workflow

/-!
# The workflow engine (`kernel/workflow.py`)

`execute_step` with its approval gate, interpolation, guard, sandbox, retries and
compensation; `approve`; and `execute_adaptive` with and without a planner. The
functions of the source that mutate an instance take the world and the instance's
id here.

Left out are the spans and metrics (`observability`), swarms, knowledge graphs and
`replan_step`, which no other operation calls, and cancellation from outside.
-/

namespace Hermes

open World

/-! ## Running a body -/

/-- A body about to be run for an instance, under which workflow id its circuit stands,
and under which guard or sandbox. -/
structure BodyPlan where
  inst : String
  circuitScope : String
  call : BodyCall
  guarded : Option String := none
  sandboxed : Option SandboxPolicy := none

/-- `_run_step_inner`. When a sandbox cuts it off, the body sees a cancellation. -/
def runStepInner (E : Env) (w : World) (p : BodyPlan) (timedOut : Bool) :
    Except Exc Artifact × World :=
  let result := if timedOut then .error ⟨.cancelled, ""⟩ else E.body w.bodies p.call
  let status := match w.instances.get? p.inst with
    | some inst => inst.status
    | none => .draft
  let run : BodyRun := ⟨p.inst, status, p.call, p.guarded, p.sandboxed, result⟩
  (result, { w with bodies := w.bodies + 1 }.record (.body run))

/-- `_run_step`: in the circuit of the workflow and capability when a resilience engine is
wired. -/
def runStep (E : Env) (w : World) (p : BodyPlan) (timedOut : Bool) : Except Exc Artifact × World :=
  match w.parts.resilience with
  | none => runStepInner E w p timedOut
  | some r =>
    let circuit := "wf:" ++ p.circuitScope ++ ":" ++ p.call.step.capability
    match r.enter circuit (E.clock w.tick) with
    | (.error e, r) => (.error e, w.setResilience r)
    | (.ok (), r) =>
      let (result, w) := runStepInner E (w.setResilience r) p timedOut
      (result, w.setResilience (r.leave circuit (E.clock w.tick) result))

/-- `async with self._guard.wrap(...)` around the body. -/
def runGuarded (E : Env) (w : World) (g : Guard) (packageId : String) (p : BodyPlan) :
    Except Exc Artifact × World :=
  let resource := "capability:" ++ p.call.step.capability
  match g.pre packageId "execute" resource with
  | .error (outcome, e) => (.error e, w.record (.audit packageId "execute" resource outcome))
  | .ok () =>
    let start := E.clock w.tick
    let (result, w) := runStep E { w with tick := w.tick + 1 } p false
    let w := w.setGuard (g.accrue packageId (max 0 (E.clock w.tick - start)))
    let outcome := match result with
      | .ok _ => "allowed"
      | .error _ => "error"
    (result, w.record (.audit packageId "execute" resource outcome))

/-! ## Compensation -/

/-- `_run_compensation`. What the body raises is only logged. -/
def runCompensation (E : Env) (i failedStep compStepId : String) (w : World) : World :=
  match w.instances.get? i with
  | none => w
  | some inst =>
    match stepById inst.workflow.steps compStepId with
    | none => w
    | some comp =>
      let w := w.emit (.compensating i failedStep compStepId)
      let call : BodyCall := ⟨.compensation, none, comp, resolveInputs comp inst, none⟩
      match runStep E w ⟨i, "unknown", call, none, none⟩ false with
      | (.ok _, w) => w.update i fun inst =>
          { inst with stepResults := inst.stepResults.insert compStepId (.str compStepId) }
      | (.error _, w) => w

/-- The compensation declared by one step, if any. -/
def compensateFor (E : Env) (i failedStep : String) (w : World) (step : WorkflowStep) : World :=
  match truthy step.compensation with
  | some c => runCompensation E i failedStep c w
  | none => w

/-- `compensate`: the steps before the failed one, last first, then the failed one. -/
def compensate (E : Env) (w : World) (i failedStep : String) : World :=
  match w.instances.get? i with
  | none => w
  | some inst =>
    let steps := inst.workflow.steps
    let earlier := match stepIndex steps failedStep with
      | some idx => (steps.take idx).reverse
      | none => []
    let w := w.setStatus i .compensating
    let w := earlier.foldl (compensateFor E i failedStep) w
    let w := (stepById steps failedStep).elim w (compensateFor E i failedStep w)
    w.setStatus i .failed

/-- `_compensate_on_breach`. -/
def compensateOnBreach (E : Env) (w : World) (i : String) : World :=
  match (w.instances.get? i).bind (·.currentStep) with
  | some step => if (truthy step.compensation).isSome then compensate E w i step.id else w
  | none => w

/-! ## The sandbox -/

/-- `_resolve_policy`. -/
def resolvePolicy (step : WorkflowStep) (workflow : Workflow) : SandboxPolicy :=
  if step.timeoutSeconds ≠ 0 ∧ step.timeoutSeconds < 30 then
    { timeoutSeconds := step.timeoutSeconds }
  else workflow.sandboxPolicy.getD {}

/-- `Sandbox._breach`, with the compensation of the current step as its cleanup. -/
def breach (E : Env) (w : World) (i violation : String) : Except Exc Artifact × World :=
  let w := w.emit (.sandboxViolation i violation)
  let w := compensateOnBreach E w i
  (.error ⟨.sandboxError, "Sandbox " ++ violation⟩, w.emit (.sandboxCleanupCompleted i true))

/-- `Sandbox.run`. -/
def runSandboxed (E : Env) (w : World) (p : BodyPlan) : Except Exc Artifact × World :=
  let monitor := E.monitor w.bodies
  match runStep E w p monitor.timedOut with
  | (.ok artifact, w) =>
    match monitor.violation with
    | none => (.ok artifact, w)
    | some v => breach E w p.inst v
  | (.error e, w) =>
    match e.kind with
    | .cancelled | .timeoutError => breach E w p.inst "timeout"
    | .sandboxError => (.error e, w)
    | _ => breach E w p.inst "error"

/-! ## One pass through a step -/

/-- `_interpolate_value` on the resolved inputs, and whether a secret was read. -/
def interpolateParams (E : Env) (w : World) (i : String) (params : List (String × Value)) :
    Except Exc (List (String × Value)) × Bool × World :=
  match w.parts.vault with
  | none => (.ok params, false, w)
  | some v =>
    let L : Lookup := ⟨E.vault, .workflow, some i, "workflow:" ++ i⟩
    let (result, s) := interpolateDict L params ⟨v, w.tick, false⟩
    (result, s.secret, w.setVault s.vault s.tick)

/-- A body has returned: record the result, move the cursor on, complete the instance when
there is no next step. -/
def completeStep (w : World) (i : String) (step : WorkflowStep) (artifact : Artifact) : World :=
  let w := w.update i fun inst =>
    { inst with
      stepResults := inst.stepResults.insert step.id (.str artifact.id)
      eventLog := inst.eventLog ++ [artifact.id] }
  let w := w.emit (.stepCompleted i step.id artifact.id)
  match w.instances.get? i with
  | none => w
  | some inst =>
    let next := inst.next
    let w := (w.update i fun inst => { inst with currentStepId := next }).record (.advance i next)
    if next = none then w.setCompleted i else w

/-- The guard has refused, or a body raised one of its exceptions. -/
def denyStep (E : Env) (w : World) (i : String) (step : WorkflowStep) (packageId : Option String) :
    Except Exc Artifact × World :=
  let w := w.update i fun inst =>
    { inst with
      permissionDenied := inst.permissionDenied ++ [⟨step.id, step.capability, packageId⟩] }
  let w := w.setStatus i .failed
  let w := w.emit (.stepFailed i step.id ("guard denied: " ++ step.capability) 1 false)
  w.reply E "error"
    [("reason", .str "permission_denied"), ("capability", .str step.capability),
      ("package_id", (packageId.map Value.str).getD .none)]
    (some ("guard:" ++ packageId.getD "None"))

/-- How `execute_step` passes through a step: to its end, or to the handler of an exception
from the body. -/
inductive Pass where
  | done (result : Except Exc Artifact)
  | raised (inst : WorkflowInstance) (step : WorkflowStep) (params : List (String × Value))
      (secret : Bool) (attempt : ℕ) (e : Exc)

/-- The package whose guard a step runs under. -/
def guardedPackage (w : World) (step : WorkflowStep) : Option String :=
  if w.parts.guard.isSome ∧ step.capability ≠ "" then
    w.parts.installed.bind (stepPackageId · step.capability)
  else none

/-- The body of a step, under the guard of its package, in the sandbox, or as it is. -/
def runBody (E : Env) (w : World) (p : BodyPlan) (guarded : Option String) (policy : SandboxPolicy) :
    Except Exc Artifact × World :=
  match w.parts.guard, guarded with
  | some g, some packageId => runGuarded E w g packageId { p with guarded := some packageId }
  | _, _ =>
    if w.parts.sandbox then runSandboxed E w { p with sandboxed := some policy }
    else runStep E w p false

/-- The `try` of `execute_step`. -/
def tryBody (E : Env) (w : World) (i : String) (inst : WorkflowInstance) (step : WorkflowStep)
    (params : List (String × Value)) (secret : Bool) (n : ℕ) (agent : Option String)
    (policy : Option SandboxPolicy) : Pass × World :=
  let plan : BodyPlan := ⟨i, inst.workflow.id, ⟨.forward, some i, step, params, agent⟩, none, none⟩
  let guarded := guardedPackage w step
  match runBody E w plan guarded (policy.getD (resolvePolicy step inst.workflow)) with
  | (.ok artifact, w) => (.done (.ok artifact), completeStep w i step artifact)
  | (.error e, w) =>
    match e.kind with
    | .permissionDenied | .resourceLimitExceeded =>
      let (r, w) := denyStep E w i step guarded
      (.done r, w)
    | .sandboxError => (.done (.error e), w)
    | _ => (.raised inst step params secret n e, w)

/-- `execute_step` past the approval gate. -/
def startStep (E : Env) (w : World) (i : String) (inst : WorkflowInstance) (step : WorkflowStep)
    (n : ℕ) (agent : Option String) (policy : Option SandboxPolicy) : Pass × World :=
  let w := w.emit (.stepStarted i step.id step.capability)
  match interpolateParams E w i (resolveInputs step inst) with
  | (.error e, _, w) => (.done (.error e), w)
  | (.ok params, secret, w) =>
    if isMcp step ∧ w.parts.mcp = false then
      let w := w.setStatus i .failed
      let w := w.emit (.stepFailed i step.id "mcp_not_wired" n false)
      let (r, w) := w.reply E "error"
        [("reason", .str "mcp_not_wired"), ("capability", .str step.capability)] none
      (.done r, w)
    else tryBody E w i inst step params secret n agent policy

/-- `execute_step` up to the handler of a raised exception. -/
def passStep (E : Env) (w : World) (i : String) (inst : WorkflowInstance) (agent : Option String)
    (policy : Option SandboxPolicy) : Pass × World :=
  match inst.currentStep with
  | none =>
    let (r, w) := (w.setCompleted i).reply E "workflow" [("status", .str "completed")] none
    (.done r, w)
  | some step =>
    let n := inst.attempts step.id + 1
    let w := (w.update i fun inst =>
      { inst with stepAttempts := inst.stepAttempts.insert step.id n }).record (.attempt i step.id n)
    if step.requiresApproval ∧ n = 1 then
      let w := w.setStatus i .paused
      let w := w.emit (.stepAwaitingApproval i step.id "requires_approval")
      let (r, w) := w.reply E "approval_required" [("step_id", .str step.id)] none
      (.done r, w)
    else startStep E w i inst step n agent policy

/-! ## Retries -/

/-- The retries are used up: dead letters, then compensation or failure. -/
def exhaustStep (E : Env) (w : World) (i : String) (inst : WorkflowInstance) (step : WorkflowStep)
    (params : List (String × Value)) (secret : Bool) (n : ℕ) (e : Exc) :
    Except Exc Artifact × World :=
  let w := if w.parts.deadLetter then
      w.record (.deadLetter
        { entryId := i ++ ":" ++ step.id ++ ":" ++ toString n, componentId := i, error := e.text
          stepId := step.id, capability := step.capability, params, attempt := n } secret)
    else w
  let w := if w.parts.resilience.isSome then
      w.record (.resilienceDeadLetter
        { entryId := "res:" ++ i ++ ":" ++ step.id, error := e.text, attempts := n
          workflowId := inst.workflow.id, instanceId := i, stepId := step.id
          capability := step.capability, params } secret)
    else w
  let w := w.emit (.stalled i step.id e.text)
  let w := if (truthy step.compensation).isSome then compensate E w i step.id
    else w.setStatus i .failed
  w.reply E "error" [("error", .str e.text)] none

/-- The backoff after attempt `n`. -/
def RetryPolicy.backoff (p : RetryPolicy) (n : ℕ) : ℚ :=
  if p.exponential then p.backoffSeconds * 2 ^ (n - 1) else p.backoffSeconds

/-- `execute_step` calling itself again: `retries` is `max_attempts - attempt`, so that
`attempt < max_attempts` reads `0 < retries`. -/
def executeStepFrom (E : Env) (i : String) (agent : Option String) :
    ℕ → Option SandboxPolicy → World → Except Exc Artifact × World
  | retries, policy, w =>
    match w.instances.get? i with
    | none => (.error ⟨.keyError, "workflow instance '" ++ i ++ "' not found"⟩, w)
    | some inst =>
      match passStep E w i inst agent policy with
      | (.done r, w) => (r, w)
      | (.raised inst step params secret n e, w) =>
        let w := w.emit (.stepFailed i step.id e.text n (0 < retries))
        match retries with
        | 0 => exhaustStep E w i inst step params secret n e
        | retries + 1 =>
          -- the recursive call drops the sandbox policy
          executeStepFrom E i agent retries none (w.record (.sleep (step.retryPolicy.backoff n)))

/-- The retries that are left when the current step is attempted next. -/
def WorkflowInstance.retries (inst : WorkflowInstance) : ℕ :=
  match inst.currentStep with
  | none => 0
  | some step => (step.retryPolicy.maxAttempts - (inst.attempts step.id + 1)).toNat

/-- `execute_step`. -/
def executeStep (E : Env) (i : String) (agent : Option String) (policy : Option SandboxPolicy)
    (w : World) : Except Exc Artifact × World :=
  match w.instances.get? i with
  | none => (.error ⟨.keyError, "workflow instance '" ++ i ++ "' not found"⟩, w)
  | some inst =>
    let (r, w) := executeStepFrom E i agent inst.retries policy (w.record (.enter i))
    (r, w.record (.leave i))

/-! ## Operations -/

/-- `start`. -/
def start (E : Env) (workflow : Workflow) (w : World) : String × World :=
  let i := E.uuid w.tick
  let inst : WorkflowInstance :=
    { workflow, status := .running, currentStepId := workflow.steps.head?.map (·.id)
      startedAt := w.tick }
  let w := { w with instances := w.instances.insert i inst, tick := w.tick + 1 }.record
    (.start i workflow)
  match w.parts.vault with
  | none => (i, w)
  | some v =>
    let (v, tick) := workflow.defaults.foldl (fun (v, tick) (key, value) =>
      ((v.set tick ⟨.workflow, some i, key⟩ value ("workflow:" ++ workflow.id)).2, tick + 1))
      (v, w.tick)
    (i, w.setVault v tick)

/-- The loop `while status == RUNNING and current_step_id is not None`, for at most
`fuel` rounds. -/
def runLoop (E : Env) (i : String) : ℕ → World → Except Exc (List Artifact) × World
  | 0, w => (.ok [], w)
  | fuel + 1, w =>
    match w.instances.get? i with
    | none => (.error ⟨.keyError, "workflow instance '" ++ i ++ "' not found"⟩, w)
    | some inst =>
      if inst.status = .running ∧ inst.currentStepId ≠ none then
        match executeStep E i none none w with
        | (.error e, w) => (.error e, w)
        | (.ok artifact, w) =>
          match runLoop E i fuel w with
          | (.error e, w) => (.error e, w)
          | (.ok artifacts, w) => (.ok (artifact :: artifacts), w)
      else (.ok [], w)

/-- `approve`. -/
def approve (E : Env) (i stepId : String) (approved : Bool) (fuel : ℕ) (w : World) :
    Except Exc Unit × World :=
  match w.instances.get? i with
  | none => (.error ⟨.keyError, "workflow instance '" ++ i ++ "' not found"⟩, w)
  | some inst =>
    if inst.status = .paused then
      let w := w.record (.approve i stepId approved)
      if approved then
        match runLoop E i fuel (w.setStatus i .running) with
        | (.error e, w) => (.error e, w)
        | (.ok _, w) => (.ok (), w)
      else
        match (stepById inst.workflow.steps stepId).bind fun step => truthy step.compensation with
        | some _ => (.ok (), compensate E w i stepId)
        | none => (.ok (), w.setStatus i .failed)
    else (.error ⟨.runtimeError, "instance " ++ i ++ " is not paused"⟩, w)

/-- How an artifact's type is read as the outcome of a plan step. -/
def outcomeStatus (type : String) : OutcomeStatus :=
  if type = "approval_required" then .cancelled
  else if type = "error" then .failure
  else .success

/-- `make_executor`: the plan step is only a label of the outcome. -/
def executor (E : Env) (i planId : String) : Executor World := fun step w =>
  match executeStep E i none none w with
  | (.error e, w) => (.error e, w)
  | (.ok artifact, w) =>
    (.ok
      { outcomeId := E.uuid w.tick, planId, stepId := step.stepId
        status := outcomeStatus artifact.type, durationMs := 1 },
      { w with tick := w.tick + 1 })

/-- The plan steps made of a workflow's steps. -/
def planSteps (workflow : Workflow) : List PlanStep :=
  workflow.steps.map fun s =>
    { stepId := s.id, capability := s.capability, agentId := none, dependencies := []
      estimatedDurationMs := 1000, risk := .low, retryBudget := 3 }

def PlanStatus.value : PlanStatus → String
  | .draft => "draft"
  | .active => "active"
  | .failed => "failed"
  | .completed => "completed"
  | .adapted => "adapted"

/-- The planner's part of `execute_adaptive`: the plan it creates, and its execution. -/
def executePlanned (E : Env) (i : String) (inst : WorkflowInstance) (p : Planner) (w : World) :
    Except Exc Plan × Session World :=
  let (plan, p) := createPlan E.planner inst.workflow.id (planSteps inst.workflow) p
  executePlan E.planner (executor E i plan.planId) plan.planId p w

/-- `execute_adaptive`. -/
def executeAdaptive (E : Env) (i : String) (fuel : ℕ) (w : World) :
    Except Exc (List Artifact) × World :=
  match w.instances.get? i with
  | none => (.error ⟨.keyError, "workflow instance '" ++ i ++ "' not found"⟩, w)
  | some inst =>
    match w.planner with
    | none => runLoop E i fuel w
    | some p =>
      let (r, s) := executePlanned E i inst p w
      let w := { s.host with planner := some s.planner }
      match r with
      | .error e => (.error e, w)
      | .ok plan =>
        let (r, w) := w.reply E "plan_executed"
          [("plan_id", .str plan.planId), ("status", .str plan.status.value)] none
        (r.map ([·]), w)

/-! ## Runs -/

/-- What is done with an engine. `arrange` stands for all that happens to the collaborators
between the calls: policies, packages, secrets, circuits. -/
inductive EngineOp where
  | start (workflow : Workflow)
  | executeStep (inst : String) (agent : Option String) (policy : Option SandboxPolicy)
  | approve (inst stepId : String) (approved : Bool) (fuel : ℕ)
  | executeAdaptive (inst : String) (fuel : ℕ)
  | setPlanner (planner : Option Planner)
  | arrange (parts : Parts)

def World.step (E : Env) (w : World) : EngineOp → World
  | .start workflow => (Hermes.start E workflow w).2
  | .executeStep i agent policy => (Hermes.executeStep E i agent policy w).2
  | .approve i stepId approved fuel => (Hermes.approve E i stepId approved fuel w).2
  | .executeAdaptive i fuel => (Hermes.executeAdaptive E i fuel w).2
  | .setPlanner p => { w with planner := p }
  | .arrange parts => { w with parts }

/-- The world after a list of operations on a new engine. -/
def World.run (E : Env) (ops : List EngineOp) : World := ops.foldl (World.step E) {}

/-- A surrounding for runs on concrete inputs: the `n`-th body returns an artifact or raises,
whatever it is called with. -/
def Env.scripted (returns : ℕ → Bool) : Env where
  uuid n := String.ofList (List.replicate n '-')
  uuid_injective := by
    intro n m h
    simpa using congrArg String.length h
  clock n := n
  body n c := if returns n then .ok ⟨"artifact", "task", .none, some c.step.id⟩
    else .error ⟨.runtimeError, "boom"⟩
  body_not_cancelled := by
    intro n c e h
    split at h
    · cases h
    · cases h; decide
  planner := { uuid := fun n => toString n }

end Hermes

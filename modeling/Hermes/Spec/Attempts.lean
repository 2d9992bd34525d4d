import Hermes.Spec.Engine

/-!
# The attempts of a run

Between the attempts at steps, and the rollbacks that follow a rejection, the engine
only moves statuses and clocks. Here a run is read as the list of these points, each
with the world in which it begins.

* `attemptStep`: `execute_step` without its recursive call.
* `attemptInputs`, `attemptBody`: what an attempt gets from the vault and from its body.
* `World.points`: the points of an operation, in order.
-/

namespace Hermes

open World

/-- What follows a pass: the call returns or raises, unless an exception is retried. -/
def afterPass (E : Env) (i : String) (retries : ℕ) :
    Pass × World → Option (Except Exc Artifact) × World
  | (.done r, w) => (some r, w)
  | (.raised inst step params secret n e, w) =>
    let w := w.emit (.stepFailed i step.id e.text n (0 < retries))
    match retries with
    | 0 =>
      let (r, w) := exhaustStep E w i inst step params secret n e
      (some r, w)
    | _ + 1 => (none, w.record (.sleep (step.retryPolicy.backoff n)))

/-- One attempt in `execute_step`: what the call returns or raises, unless it goes on with
another attempt. -/
def attemptStep (E : Env) (i : String) (agent : Option String) (retries : ℕ)
    (policy : Option SandboxPolicy) (w : World) : Option (Except Exc Artifact) × World :=
  match w.instances.get? i with
  | none => (some (.error ⟨.keyError, "workflow instance '" ++ i ++ "' not found"⟩), w)
  | some inst => afterPass E i retries (passStep E w i inst agent policy)

/-- The instance and the step of an attempt that gets past the gate, and the interpolation of
the step's inputs. -/
def attemptInputs (E : Env) (i : String) (w : World) :
    Option (WorkflowInstance × WorkflowStep × Except Exc (List (String × Value)) × Bool × World) :=
  match w.instances.get? i with
  | none => none
  | some inst =>
    match inst.currentStep with
    | none => none
    | some step =>
      let n := inst.attempts step.id + 1
      let w := (w.update i fun inst =>
        { inst with stepAttempts := inst.stepAttempts.insert step.id n }).record (.attempt i step.id n)
      if step.requiresApproval ∧ n = 1 then none
      else some (inst, step, interpolateParams E (w.emit (.stepStarted i step.id step.capability)) i
        (resolveInputs step inst))

/-- What comes back from the body of an attempt, through its guard, sandbox or circuit, when the
attempt gets that far. -/
def attemptBody (E : Env) (i : String) (agent : Option String) (policy : Option SandboxPolicy)
    (w : World) : Option (Except Exc Artifact) :=
  match attemptInputs E i w with
  | some (inst, step, .ok params, _, w) =>
    if isMcp step ∧ w.parts.mcp = false then none
    else some (runBody E w
      ⟨i, inst.workflow.id, ⟨.forward, some i, step, params, agent⟩, none, none⟩
      (guardedPackage w step) (policy.getD (resolvePolicy step inst.workflow))).1
  | _ => none

/-- A point of a run. -/
inductive Point where
  /-- An attempt, with the policy that the call of `execute_step` was given and the one that the
  attempt is given. -/
  | attempt (inst : String) (agent : Option String) (called policy : Option SandboxPolicy)
      (retries : ℕ) (world : World)
  /-- The rollback after a rejection. -/
  | rejection (inst stepId : String) (world : World)

def Point.inst : Point → String
  | .attempt i _ _ _ _ _ => i
  | .rejection i _ _ => i

/-- The world in which the point begins. -/
def Point.before : Point → World
  | .attempt _ _ _ _ _ w => w
  | .rejection _ _ w => w

def Point.after (E : Env) : Point → World
  | .attempt i agent _ policy retries w => (attemptStep E i agent retries policy w).2
  | .rejection i stepId w => compensate E w i stepId

/-- The actions that the point adds to the trace. -/
def Point.actions (E : Env) (p : Point) : List Action :=
  (p.after E).trace.drop p.before.trace.length

/-! ## The points of an operation -/

/-- The attempts of `executeStepFrom`. -/
def attemptsFrom (E : Env) (i : String) (agent : Option String) (called : Option SandboxPolicy) :
    ℕ → Option SandboxPolicy → World → List Point
  | 0, policy, w => [.attempt i agent called policy 0 w]
  | retries + 1, policy, w =>
    .attempt i agent called policy (retries + 1) w ::
      match attemptStep E i agent (retries + 1) policy w with
      | (some _, _) => []
      | (none, w) => attemptsFrom E i agent called retries none w

/-- The attempts of a call of `execute_step`. -/
def callPoints (E : Env) (i : String) (agent : Option String) (policy : Option SandboxPolicy)
    (w : World) : List Point :=
  match w.instances.get? i with
  | none => []
  | some inst => attemptsFrom E i agent policy inst.retries policy (w.record (.enter i))

/-- The points of `runLoop`. -/
def loopPoints (E : Env) (i : String) : ℕ → World → List Point
  | 0, _ => []
  | fuel + 1, w =>
    match w.instances.get? i with
    | none => []
    | some inst =>
      if inst.status = .running ∧ inst.currentStepId ≠ none then
        callPoints E i none none w ++
          match executeStep E i none none w with
          | (.error _, _) => []
          | (.ok _, w) => loopPoints E i fuel w
      else []

/-- The points of `approve`. -/
def approvePoints (E : Env) (i stepId : String) (approved : Bool) (fuel : ℕ) (w : World) :
    List Point :=
  match w.instances.get? i with
  | none => []
  | some inst =>
    if inst.status = .paused then
      let w := w.record (.approve i stepId approved)
      if approved then loopPoints E i fuel (w.setStatus i .running)
      else
        match (stepById inst.workflow.steps stepId).bind fun step => truthy step.compensation with
        | some _ => [.rejection i stepId w]
        | none => []
    else []

/-- The points of the planner's calls. -/
def logPoints (E : Env) (i : String) (log : List (LogEntry World)) : List Point :=
  log.flatMap fun
    | .call c => callPoints E i none none c.before
    | _ => []

/-- The points of `execute_adaptive`. -/
def adaptivePoints (E : Env) (i : String) (fuel : ℕ) (w : World) : List Point :=
  match w.instances.get? i with
  | none => []
  | some inst =>
    match w.planner with
    | none => loopPoints E i fuel w
    | some p => logPoints E i (executePlanned E i inst p w).2.log

def World.points (E : Env) (w : World) : EngineOp → List Point
  | .executeStep i agent policy => callPoints E i agent policy w
  | .approve i stepId approved fuel => approvePoints E i stepId approved fuel w
  | .executeAdaptive i fuel => adaptivePoints E i fuel w
  | _ => []

/-- The points of a list of operations. -/
def pointsFrom (E : Env) : World → List EngineOp → List Point
  | _, [] => []
  | w, op :: ops => w.points E op ++ pointsFrom E (w.step E op) ops

/-- **The points of a run** of a new engine. -/
def runPoints (E : Env) (ops : List EngineOp) : List Point := pointsFrom E {} ops

end Hermes

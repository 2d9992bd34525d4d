import Hermes.Spec.Guard
import Hermes.Spec.Interpolate
import Hermes.Spec.Planner
import Hermes.Spec.Resilience

/-!
# Workflows and the engine's world (`kernel/domain.py`, `kernel/workflow.py`)

The data of the workflow engine, and a `World`: the instances, the collaborators
wired into the engine, the planner, and the trace of everything the engine has
done. The trace holds the published events, the bodies that were run and the dead
letters, and marks where an instance's cursor, attempts and status change.
-/

namespace Hermes

/-! ## Domain -/

inductive WorkflowStatus where
  | draft | pending | running | paused | completed | failed | compensating
  deriving DecidableEq, Repr

structure RetryPolicy where
  maxAttempts : ℤ := 3
  backoffSeconds : ℚ := 1
  exponential : Bool := true
  deriving DecidableEq, Repr

structure WorkflowStep where
  id : String
  name : String := ""
  capability : String
  inputMapping : List (String × String) := []
  retryPolicy : RetryPolicy := {}
  compensation : Option String := none
  requiresApproval : Bool := false
  timeoutSeconds : ℚ := 30
  deriving DecidableEq, Repr

/-- The ADR-020 policy, with the limits that a sandbox run enforces. -/
structure SandboxPolicy where
  maxCpuTimeMs : ℤ := 30000
  maxMemoryMb : ℤ := 512
  maxFilesOpen : ℤ := 64
  timeoutSeconds : ℚ := 30
  deriving DecidableEq, Repr

/-- A workflow: its steps, the sandbox policy of its context, and the `defaults` that a
vault is seeded with. -/
structure Workflow where
  id : String
  steps : List WorkflowStep
  sandboxPolicy : Option SandboxPolicy := none
  defaults : List (String × String) := []
  deriving DecidableEq, Repr

structure Artifact where
  id : String
  type : String
  content : Value
  source : Option String := none

structure PermissionDenial where
  stepId : String
  capability : String
  packageId : Option String
  deriving DecidableEq, Repr

/-- A running instance. It holds the workflow that it was started with: callers pass that
workflow along with the instance. -/
structure WorkflowInstance where
  workflow : Workflow
  status : WorkflowStatus
  currentStepId : Option String := none
  stepResults : Dict String Value := ∅
  stepAttempts : Dict String ℕ := ∅
  eventLog : List String := []
  permissionDenied : List PermissionDenial := []
  startedAt : ℕ
  completedAt : Option ℕ := none

/-! ## What the engine does -/

inductive BodyKind where
  | forward | compensation
  deriving DecidableEq, Repr

/-- What a step body is called with. A compensation is run without instance and agent. -/
structure BodyCall where
  kind : BodyKind
  instanceId : Option String
  step : WorkflowStep
  params : List (String × Value)
  agent : Option String

/-- A body that was run: for which instance, in which status of it, and how. -/
structure BodyRun where
  inst : String
  status : WorkflowStatus
  call : BodyCall
  guarded : Option String := none
  sandboxed : Option SandboxPolicy := none
  result : Except Exc Artifact

inductive WorkflowEvent where
  | stepStarted (inst stepId capability : String)
  | stepCompleted (inst stepId artifactId : String)
  | stepFailed (inst stepId error : String) (attempt : ℕ) (willRetry : Bool)
  | stepAwaitingApproval (inst stepId reason : String)
  | compensating (inst failedStep compensationStep : String)
  | stalled (inst failedStep error : String)
  | sandboxViolation (aggregate violation : String)
  | sandboxCleanupCompleted (aggregate : String) (success : Bool)
  deriving DecidableEq, Repr

/-- An entry of the ADR-021 queue; its payload is the last four fields. -/
structure DeadLetterEntry where
  entryId : String
  componentId : String
  entryType : String := "workflow_step"
  error : String
  stepId : String
  capability : String
  params : List (String × Value)
  attempt : ℕ

/-- An entry of the resilience queue; its task is the last five fields. -/
structure ResilienceDeadLetterEntry where
  entryId : String
  error : String
  attempts : ℕ
  workflowId : String
  instanceId : String
  stepId : String
  capability : String
  params : List (String × Value)

inductive Action where
  /-- An instance was created. -/
  | start (inst : String) (workflow : Workflow)
  /-- A call of `execute_step` by a caller, a loop or the planner begins, and ends. -/
  | enter (inst : String)
  | leave (inst : String)
  /-- The current step's attempts were counted up to `n`. -/
  | attempt (inst stepId : String) (n : ℕ)
  /-- The cursor was moved on. -/
  | advance (inst : String) (next : Option String)
  | status (inst : String) (status : WorkflowStatus)
  /-- A call of `approve` on a paused instance. -/
  | approve (inst stepId : String) (approved : Bool)
  | event (e : WorkflowEvent)
  | body (run : BodyRun)
  | audit (packageId action resource result : String)
  | sleep (seconds : ℚ)
  /-- A dead letter, and whether its parameters were made by reading a secret. -/
  | deadLetter (entry : DeadLetterEntry) (secret : Bool)
  | resilienceDeadLetter (entry : ResilienceDeadLetterEntry) (secret : Bool)

/-! ## World -/

/-- The collaborators wired into the engine, with their own state. -/
structure Parts where
  guard : Option Guard := none
  /-- The packages that the marketplace lists as installed, when one is wired. -/
  installed : Option (List PluginPackage) := none
  resilience : Option Resilience := none
  vault : Option Vault := none
  sandbox : Bool := false
  mcp : Bool := false
  deadLetter : Bool := false

structure World where
  instances : Dict String WorkflowInstance := ∅
  parts : Parts := {}
  planner : Option Planner := none
  /-- Clock readings taken and ids drawn so far. -/
  tick : ℕ := 0
  /-- Bodies run so far. -/
  bodies : ℕ := 0
  trace : List Action := []

/-- How a sandbox sees a body: whether its time ran out, and which limit was found broken
after it returned. -/
structure Monitor where
  timedOut : Bool := false
  violation : Option String := none
  deriving DecidableEq, Repr

/-- What surrounds the engine. A body is an agent's task, a capability or an MCP tool; the
`n`-th body run may return or raise anything but a cancellation. -/
structure Env where
  uuid : ℕ → String
  uuid_injective : Function.Injective uuid
  clock : ℕ → ℤ
  body : ℕ → BodyCall → Except Exc Artifact
  body_not_cancelled : ∀ n c e, body n c = .error e → e.kind ≠ .cancelled
  monitor : ℕ → Monitor := fun _ => {}
  vault : VaultEnv := { cipher := none }
  planner : PlannerEnv

namespace World

/-! ## Small updates -/

def record (w : World) (a : Action) : World := { w with trace := w.trace ++ [a] }

def emit (w : World) (e : WorkflowEvent) : World := w.record (.event e)

/-- Assign fields of the instance `i`. -/
def update (w : World) (i : String) (f : WorkflowInstance → WorkflowInstance) : World :=
  match w.instances.get? i with
  | some inst => { w with instances := w.instances.insert i (f inst) }
  | none => w

def setStatus (w : World) (i : String) (s : WorkflowStatus) : World :=
  (w.update i fun inst => { inst with status := s }).record (.status i s)

/-- `COMPLETED`, with the time. -/
def setCompleted (w : World) (i : String) : World :=
  let w := w.update i fun inst =>
    { inst with status := .completed, completedAt := some w.tick }
  { w with tick := w.tick + 1 }.record (.status i .completed)

/-- An artifact made by the engine itself. -/
def reply (E : Env) (w : World) (type : String) (content : List (String × Value))
    (source : Option String) : Except Exc Artifact × World :=
  (.ok ⟨E.uuid w.tick, type, .dict content, source⟩, { w with tick := w.tick + 1 })

def setResilience (w : World) (r : Resilience) : World :=
  { w with parts := { w.parts with resilience := some r }, tick := w.tick + 1 }

def setGuard (w : World) (g : Guard) : World :=
  { w with parts := { w.parts with guard := some g }, tick := w.tick + 1 }

def setVault (w : World) (v : Vault) (tick : ℕ) : World :=
  { w with parts := { w.parts with vault := some v }, tick }

end World

/-! ## Steps of a workflow -/

/-- `_step_by_id`. -/
def stepById (steps : List WorkflowStep) (k : String) : Option WorkflowStep :=
  steps.find? (·.id = k)

/-- `_step_index`; `-1` is `none`. -/
def stepIndex (steps : List WorkflowStep) (k : String) : Option ℕ :=
  steps.findIdx? (·.id = k)

/-- `_current_step`. -/
def WorkflowInstance.currentStep (inst : WorkflowInstance) : Option WorkflowStep :=
  inst.currentStepId.bind (stepById inst.workflow.steps)

/-- Where `_advance` moves the cursor. -/
def WorkflowInstance.next (inst : WorkflowInstance) : Option String :=
  inst.currentStepId.bind fun k =>
    (stepIndex inst.workflow.steps k).bind fun idx => (inst.workflow.steps[idx + 1]?).map (·.id)

/-- The attempts made of a step. -/
def WorkflowInstance.attempts (inst : WorkflowInstance) (k : String) : ℕ :=
  (inst.stepAttempts.get? k).getD 0

/-- `str.split(".")`. -/
def splitDots : List Char → List (List Char)
  | [] => [[]]
  | c :: cs =>
    if c = '.' then [] :: splitDots cs
    else match splitDots cs with
      | [] => [[c]]
      | p :: ps => (c :: p) :: ps

/-- `_resolve_inputs` of one reference. -/
def resolveRef (results : Dict String Value) (ref : String) : Value :=
  match splitDots ref.toList with
  | src :: mid :: field :: _ =>
    if mid = "output".toList then
      match results.get? (String.ofList src) with
      | some (.dict kvs) => ((kvs.find? (·.1.toList = field)).map (·.2)).getD .none
      | _ => .none
    else .str ref
  | _ => .str ref

/-- `_resolve_inputs`. -/
def resolveInputs (step : WorkflowStep) (inst : WorkflowInstance) : List (String × Value) :=
  step.inputMapping.map fun (k, ref) => (k, resolveRef inst.stepResults ref)

/-- `capability.startswith("mcp:")`. -/
def isMcp (step : WorkflowStep) : Bool := "mcp:".toList.isPrefixOf step.capability.toList

end Hermes

import Hermes.Lib.Dict
import Hermes.Lib.Toposort
import Hermes.Spec.Base

/-!
# The dynamic planner (`kernel/dynamic_planner.py`)

Plans, the topological walk over a plan, the retry loop of a step, replanning
after a failed step, and the recovery loop over the adapted plan.

The executor is a function on a state `σ` of its own: an executor that keeps a
counter, or the workflow engine. Each call of it is recorded in `log` together
with the state before and after. `replan_step` and the trigger reasons other
than `step_failed` are not reached from `execute_plan`.
-/

namespace Hermes

/-! ## Plans -/

inductive PlanStatus where
  | draft | active | failed | completed | adapted
  deriving DecidableEq, Repr

inductive RiskLevel where
  | low | medium | high | critical
  deriving DecidableEq, Repr

structure PlanStep where
  stepId : String
  capability : String
  agentId : Option String := none
  dependencies : List String := []
  estimatedDurationMs : ℤ := 1000
  risk : RiskLevel := .low
  retryBudget : ℤ := 3
  deriving DecidableEq, Repr

structure Plan where
  planId : String
  workflowId : String
  status : PlanStatus
  steps : List PlanStep
  version : ℤ := 1
  deriving DecidableEq, Repr

inductive OutcomeStatus where
  | success | failure | timeout | cancelled
  deriving DecidableEq, Repr

structure ExecutionOutcome where
  outcomeId : String
  planId : String
  stepId : String
  status : OutcomeStatus
  durationMs : ℤ
  errorType : Option String := none
  retryCount : ℕ := 0
  deriving DecidableEq, Repr

/-- A replan trigger. `execute_plan` only makes triggers of reason `step_failed`,
with the failed step and its last status as context. -/
structure ReplanTrigger where
  triggerId : String
  planId : String
  reason : String
  stepId : String
  status : OutcomeStatus
  deriving DecidableEq, Repr

/-! ## State -/

/-- What the planner emits or waits for. -/
inductive PlannerEvent where
  | planCreated (planId workflowId : String) (stepCount : ℕ) (version : ℤ)
  | stepPlanned (planId stepId capability : String) (agentId : Option String) (risk : RiskLevel)
  | stepExecuted (planId stepId : String) (status : OutcomeStatus) (durationMs : ℤ)
      (retryCount : ℕ)
  | replanTriggered (triggerId planId reason stepId : String)
  | planAdapted (planId : String) (oldVersion newVersion : ℤ) (changes : String)
  | sleep (seconds : ℕ)
  deriving DecidableEq, Repr

/-- The planner's maps. `persist` is the plan store's content when one is wired,
`fresh` counts the ids drawn so far. -/
structure Planner where
  plans : Dict String Plan := ∅
  outcomes : Dict String ExecutionOutcome := ∅
  replans : Dict String ReplanTrigger := ∅
  persist : Option (Dict String Plan × Dict String ExecutionOutcome) := none
  fresh : ℕ := 0
  events : List PlannerEvent := []

/-- What surrounds the planner: the ids it draws, and the answer of the LLM to the
`n`-th replan request when one is wired (parsed steps, or any exception). -/
structure PlannerEnv where
  uuid : ℕ → String
  llm : Option (ℕ → Plan → ReplanTrigger → Except Exc (List PlanStep)) := none

/-- Which loop handed a step to the executor. -/
inductive Phase where
  | ordered | recovery
  deriving DecidableEq, Repr

/-- One call of the executor. -/
structure Call (σ : Type) where
  /-- The plan being walked. -/
  plan : Plan
  step : PlanStep
  phase : Phase
  /-- The steps of the ordered walk whose turn is still to come. -/
  ahead : List String
  before : σ
  result : Except Exc ExecutionOutcome
  after : σ

/-- The executor reported a success. -/
def Call.succeeded {σ : Type} (c : Call σ) : Bool :=
  match c.result with
  | .ok o => o.status = .success
  | .error _ => false

/-- The record of one `execute_plan` call. -/
inductive LogEntry (σ : Type) where
  | call (c : Call σ)
  /-- A replan was made after `failed` ran out of retries. -/
  | replan (failed : PlanStep) (adapted : Plan)
  /-- The recovery loop passed over a step because of outcome `o`. -/
  | skip (plan : Plan) (step : PlanStep) (o : ExecutionOutcome)

/-- The step id of a call that succeeded. -/
def LogEntry.success? {σ : Type} : LogEntry σ → Option String
  | .call c => if c.succeeded then some c.step.stepId else none
  | _ => none

/-- The entry is a call of the ordered walk for step id `d`. -/
def LogEntry.isOrdered {σ : Type} (d : String) : LogEntry σ → Bool
  | .call c => c.phase = .ordered ∧ c.step.stepId = d
  | _ => false

/-- The state of a running `execute_plan`: planner, executor, record. -/
structure Session (σ : Type) where
  planner : Planner
  host : σ
  log : List (LogEntry σ) := []

variable {σ : Type}

/-- An executor: an async function from steps to outcomes, on its own state. -/
abbrev Executor (σ : Type) := PlanStep → σ → Except Exc ExecutionOutcome × σ

/-! ## Small updates -/

def Planner.emit (p : Planner) (e : PlannerEvent) : Planner := { p with events := p.events ++ [e] }

/-- `_persist_plan`. -/
def Planner.persistPlan (p : Planner) (plan : Plan) : Planner :=
  { p with persist := p.persist.map fun (ps, os) => (ps.insert plan.planId plan, os) }

/-- `_record_outcome`. -/
def Planner.recordOutcome (p : Planner) (o : ExecutionOutcome) : Planner :=
  { p with
    outcomes := p.outcomes.insert o.outcomeId o
    persist := p.persist.map fun (ps, os) => (ps, os.insert o.outcomeId o) }

/-- `get_plan`. -/
def Planner.getPlan (p : Planner) (planId : String) : Option Plan :=
  (p.plans.get? planId).or (p.persist.bind fun (ps, _) => ps.get? planId)

/-- A field of a stored plan object is assigned: the object in the map changes. -/
def Planner.setPlan (p : Planner) (plan : Plan) : Planner :=
  if (p.plans.get? plan.planId).isSome then { p with plans := p.plans.insert plan.planId plan }
  else p

def Session.emit (s : Session σ) (e : PlannerEvent) : Session σ :=
  { s with planner := s.planner.emit e }

/-! ## Lookups -/

/-- The step that `{s.step_id: s for s in steps}` holds for an id: the last one. -/
def byId (steps : List PlanStep) (k : String) : Option PlanStep :=
  steps.reverse.find? (·.stepId = k)

/-- `_already_succeeded`, with the outcome that says so. -/
def Planner.alreadySucceeded (p : Planner) (plan : Plan) (step : PlanStep) :
    Option ExecutionOutcome :=
  p.outcomes.values.find? fun o =>
    o.planId = plan.planId ∧ o.stepId = step.stepId ∧ o.status = .success

/-- `_last_outcome`: the last outcome recorded for the step with the most retries. -/
def Planner.lastOutcome (p : Planner) (stepId : String) : Option ExecutionOutcome :=
  p.outcomes.values.foldl (fun last o =>
    if o.stepId = stepId then
      match last with
      | none => some o
      | some l => if l.retryCount ≤ o.retryCount then some o else some l
    else last) none

/-- `_toposort`. -/
def toposort (plan : Plan) : Except Exc (List PlanStep) :=
  match Toposort.sort (fun k => (byId plan.steps k).map (·.dependencies))
      (plan.steps.map (·.stepId)) with
  | .ok order => .ok (order.filterMap (byId plan.steps))
  | .error k => .error ⟨.valueError, "dependency cycle detected at step '" ++ k ++ "'"⟩

/-! ## Replanning after a failed step -/

/-- The two halves of a failed step. -/
def splitStep (s : PlanStep) : List PlanStep :=
  let a : PlanStep :=
    { stepId := s.stepId ++ "-a"
      capability := s.capability
      agentId := s.agentId
      dependencies := s.dependencies
      estimatedDurationMs := max 1 (s.estimatedDurationMs / 2)
      risk := s.risk
      retryBudget := s.retryBudget }
  let b : PlanStep :=
    { stepId := s.stepId ++ "-b"
      capability := s.capability
      agentId := s.agentId
      dependencies := s.dependencies ++ [a.stepId]
      estimatedDurationMs := max 1 (s.estimatedDurationMs / 2)
      risk := s.risk
      retryBudget := s.retryBudget }
  [a, b]

/-- `_replan_rule_based` for the reason `step_failed`: the new step list and the
summary of changes. The steps that did not fail are the old objects, unchanged. -/
def replanRuleBased (steps : List PlanStep) (failed : String) : List PlanStep × List String :=
  (steps.flatMap fun s => if s.stepId = failed then splitStep s else [s],
   (steps.filter (·.stepId = failed)).map fun s =>
     "step_failed:split->" ++ s.stepId ++ "-a/-b")

/-- The adapted steps: the LLM's when it gives any, else those of the rules. -/
def replanSteps (P : PlannerEnv) (n : ℕ) (plan : Plan) (t : ReplanTrigger) :
    List PlanStep × List String :=
  match P.llm with
  | some ask =>
    match ask n plan t with
    | .ok (s :: ss) => (s :: ss, ["llm_replan"])
    | _ => replanRuleBased plan.steps t.stepId
  | none => replanRuleBased plan.steps t.stepId

/-- `_replan`. -/
def replan (P : PlannerEnv) (plan : Plan) (t : ReplanTrigger) (p : Planner) : Plan × Planner :=
  let (steps, changes) := replanSteps P p.fresh plan t
  let new : Plan :=
    { planId := P.uuid p.fresh
      workflowId := plan.workflowId
      status := .adapted
      steps := steps
      version := plan.version + 1 }
  let p := { p with plans := p.plans.insert new.planId new, fresh := p.fresh + 1 }
  let p := p.persistPlan new
  (new, p.emit (.planAdapted new.planId plan.version new.version ("; ".intercalate changes)))

/-! ## Execution -/

/-- `create_plan`. -/
def createPlan (P : PlannerEnv) (workflowId : String) (steps : List PlanStep) (p : Planner) :
    Plan × Planner :=
  let plan : Plan := { planId := P.uuid p.fresh, workflowId, status := .draft, steps }
  let p := { p with plans := p.plans.insert plan.planId plan, fresh := p.fresh + 1 }
  let p := (p.persistPlan plan).emit
    (.planCreated plan.planId workflowId steps.length plan.version)
  (plan, steps.foldl (fun p s =>
    p.emit (.stepPlanned plan.planId s.stepId s.capability s.agentId s.risk)) p)

/-- One `await executor(step)`. -/
def callExecutor (exec : Executor σ) (plan : Plan) (phase : Phase) (ahead : List String)
    (step : PlanStep) (s : Session σ) : Except Exc ExecutionOutcome × Session σ :=
  let (r, x) := exec step s.host
  (r, { s with host := x, log := s.log ++ [.call ⟨plan, step, phase, ahead, s.host, r, x⟩] })

/-- The retry loop of `_execute_step_with_retry` with `budget` retries left: the last
outcome, or the exception of the executor. -/
def retryLoop (exec : Executor σ) (plan : Plan) (ahead : List String) (step : PlanStep) :
    (budget retry : ℕ) → Session σ → Except Exc ExecutionOutcome × Session σ
  | budget, retry, s =>
    match callExecutor exec plan .ordered ahead step s with
    | (.error e, s) => (.error e, s)
    | (.ok o, s) =>
      let o := { o with retryCount := retry }
      let s := { s with planner := s.planner.recordOutcome o }
      if o.status = .success then
        (.ok o, s.emit (.stepExecuted plan.planId step.stepId .success o.durationMs retry))
      else match budget with
        | 0 => (.ok o, s)
        | budget + 1 =>
          let s := s.emit (.stepExecuted plan.planId step.stepId o.status o.durationMs (retry + 1))
          retryLoop exec plan ahead step budget (retry + 1) (s.emit (.sleep (2 ^ retry)))

/-- The recovery loop over the sorted steps of the adapted plan. -/
def recoveryLoop (exec : Executor σ) (adapted : Plan) (ahead : List String) :
    List PlanStep → Session σ → Except Exc Unit × Session σ
  | [], s => (.ok (), s)
  | step :: steps, s =>
    match s.planner.alreadySucceeded adapted step with
    | some o =>
      recoveryLoop exec adapted ahead steps { s with log := s.log ++ [.skip adapted step o] }
    | none =>
      match callExecutor exec adapted .recovery ahead step s with
      | (.error e, s) => (.error e, s)
      | (.ok o, s) =>
        let o := { o with retryCount := 0 }
        let s := { s with planner := s.planner.recordOutcome o }
        recoveryLoop exec adapted ahead steps
          (s.emit (.stepExecuted adapted.planId step.stepId o.status o.durationMs 0))

/-- What `_execute_step_with_retry` does once the retries are exhausted: trigger,
replan, walk the adapted plan. -/
def recover (P : PlannerEnv) (exec : Executor σ) (plan : Plan) (ahead : List String)
    (step : PlanStep) (status : OutcomeStatus) (s : Session σ) : Except Exc Unit × Session σ :=
  let p := s.planner
  let t : ReplanTrigger :=
    { triggerId := P.uuid p.fresh, planId := plan.planId, reason := "step_failed",
      stepId := step.stepId, status }
  let p := { p with replans := p.replans.insert t.triggerId t, fresh := p.fresh + 1 }
  let p := p.emit (.replanTriggered t.triggerId plan.planId "step_failed" step.stepId)
  let (adapted, p) := replan P plan t p
  let p := p.setPlan { plan with status := .adapted }
  let s := { s with planner := p, log := s.log ++ [.replan step adapted] }
  match toposort adapted with
  | .error e => (.error e, s)
  | .ok steps => recoveryLoop exec adapted ahead steps s

/-- `_execute_step_with_retry`: its outcome, and the plan object, whose status a replan
has set to `adapted`. -/
def executeStepWithRetry (P : PlannerEnv) (exec : Executor σ) (plan : Plan) (ahead : List String)
    (step : PlanStep) (s : Session σ) : Except Exc (ExecutionOutcome × Plan) × Session σ :=
  match retryLoop exec plan ahead step step.retryBudget.toNat 0 s with
  | (.error e, s) => (.error e, s)
  | (.ok o, s) =>
    if o.status = .success then (.ok (o, plan), s)
    else match recover P exec plan ahead step o.status s with
      | (.error e, s) => (.error e, s)
      | (.ok (), s) =>
        (.ok ((s.planner.lastOutcome step.stepId).getD o, { plan with status := .adapted }), s)

/-- The walk over the sorted steps in `execute_plan`. -/
def orderedLoop (P : PlannerEnv) (exec : Executor σ) :
    Plan → List PlanStep → Session σ → Except Exc Plan × Session σ
  | plan, [], s => (.ok plan, s)
  | plan, step :: steps, s =>
    match executeStepWithRetry P exec plan (steps.map (·.stepId)) step s with
    | (.error e, s) => (.error e, s)
    | (.ok (_, plan), s) => orderedLoop P exec plan steps s

/-- `all(self._last_outcome(step.step_id).status == "success" for step in plan.steps)`:
a step without any outcome makes it raise. -/
def allSucceeded (p : Planner) : List PlanStep → Except Exc Bool
  | [] => .ok true
  | step :: steps =>
    match p.lastOutcome step.stepId with
    | none => .error ⟨.attributeError, "'NoneType' object has no attribute 'status'"⟩
    | some o => if o.status = .success then allSucceeded p steps else .ok false

/-- `execute_plan`. -/
def executePlan (P : PlannerEnv) (exec : Executor σ) (planId : String) (p : Planner) (x : σ) :
    Except Exc Plan × Session σ :=
  match p.getPlan planId with
  | none => (.error ⟨.keyError, "plan '" ++ planId ++ "' not found"⟩, ⟨p, x, []⟩)
  | some plan =>
    let plan := { plan with status := .active }
    let s : Session σ := ⟨(p.setPlan plan).persistPlan plan, x, []⟩
    match toposort plan with
    | .error e => (.error e, s)
    | .ok ordered =>
      match orderedLoop P exec plan ordered s with
      | (.error e, s) => (.error e, s)
      | (.ok plan, s) =>
        match allSucceeded s.planner plan.steps with
        | .error e => (.error e, s)
        | .ok done =>
          let plan := { plan with status := if done then .completed else .adapted }
          (.ok plan, { s with planner := (s.planner.setPlan plan).persistPlan plan })

/-! ## Calls in sequence -/

inductive PlannerOp (σ : Type) where
  | create (workflowId : String) (steps : List PlanStep)
  | execute (planId : String) (exec : Executor σ)

/-- The planner and the state that the executors share. -/
def PlannerOp.run (P : PlannerEnv) : Planner × σ → PlannerOp σ → Planner × σ
  | (p, x), .create workflowId steps => ((createPlan P workflowId steps p).2, x)
  | (p, x), .execute planId exec =>
    let (_, s) := executePlan P exec planId p x
    (s.planner, s.host)

end Hermes

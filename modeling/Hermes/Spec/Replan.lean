import Hermes.Lib.Fresh
import Hermes.Lib.Heap
import Hermes.Lib.Index
import Hermes.Spec.Planner
import Hermes.Spec.Swarm

/-!
# Replanning over shared steps (`kernel/dynamic_planner.py`)

A step is a mutable object and a plan holds a list of references, so plans can share
steps, and a rule that assigns to the fields of a step changes it in all of them.
Here are the five rules of `_replan`, the LLM that is asked before them, and
`risk_assess`. Execution, in which `_replan` only sees the reason `step_failed`, is in
`Spec/Planner.lean`, with steps as values.
-/

namespace Hermes

/-! ## Risk -/

/-- `_RISK_ORDER`. -/
def riskOrder : List RiskLevel := [.low, .medium, .high, .critical]

/-- The order of the levels is that of the list. -/
instance : LinearOrder RiskLevel :=
  LinearOrder.lift' riskOrder.idxOf (fun a b h => by cases a <;> cases b <;> simp_all [riskOrder])

/-- `_bump_risk`. -/
def bumpRisk (risk : RiskLevel) (levels : ℕ) : RiskLevel :=
  riskOrder.getD (min (riskOrder.idxOf risk + levels) (riskOrder.length - 1)) .critical

/-- The value of a risk level. -/
def RiskLevel.value : RiskLevel → String
  | .low => "low"
  | .medium => "medium"
  | .high => "high"
  | .critical => "critical"

/-! ## Plans that share steps -/

/-- A plan object. Its steps are references to step objects. -/
structure PlanObject where
  planId : String
  workflowId : String
  status : PlanStatus
  steps : List ℕ
  version : ℤ := 1
  deriving DecidableEq, Repr

/-- A replan trigger with any reason. A key that is missing in the context, or holds
`None`, is not in it. -/
structure Trigger where
  triggerId : String
  planId : String
  reason : String
  context : Dict String String := ∅

inductive PlanningEvent where
  | planCreated (planId workflowId : String) (stepCount : ℕ) (version : ℤ)
  | stepPlanned (planId stepId capability : String) (agentId : Option String) (risk : RiskLevel)
  | planAdapted (planId : String) (oldVersion newVersion : ℤ) (changes : String)
  | riskEscalated (planId stepId : String) (old new : RiskLevel) (reason : String)
  deriving DecidableEq, Repr

/-- What surrounds the planner. The answer of the LLM to the request of a turn is what
`json.loads` makes of it, with whole numbers, or an exception of either. -/
structure ReplanEnv where
  uuid : IdSource String
  rng : ℕ → ℕ := fun _ => 0
  llm : Option (ℕ → Plan → Trigger → Except Exc Value) := none
  swarm : Option (ℕ → Coordinator) := none

/-- No LLM and no swarm. -/
def ReplanEnv.plain : ReplanEnv := { uuid := IdSource.longer }

/-- The objects of a planner: the steps by their addresses, and the plans, also those that
its store has. `persist` holds the rows of the store when one is wired, `turn` counts the
requests and the random draws. -/
structure PlanMemory where
  objects : List PlanStep := []
  plans : Index PlanObject.planId := ∅
  persist : Option (Dict String Plan) := none
  turn : ℕ := 0
  events : List PlanningEvent := []

/-! ## The answer of the LLM -/

/-- The value of the digits that follow, with single underscores between them. -/
def digitsFrom (n : ℕ) : List Char → Option ℕ
  | [] => some n
  | '_' :: c :: cs => if c.isDigit then digitsFrom (10 * n + (c.toNat - 48)) cs else none
  | c :: cs => if c.isDigit then digitsFrom (10 * n + (c.toNat - 48)) cs else none

def natOfDigits : List Char → Option ℕ
  | [] => none
  | c :: cs => if c.isDigit then digitsFrom 0 (c :: cs) else none

/-- `int` of a text in ASCII. -/
def intOfText (s : String) : Option ℤ :=
  let cs := s.toList.dropWhile (·.isWhitespace)
  match (cs.reverse.dropWhile (·.isWhitespace)).reverse with
  | '-' :: cs => (natOfDigits cs).map fun n => -(n : ℤ)
  | '+' :: cs => (natOfDigits cs).map fun n => (n : ℤ)
  | cs => (natOfDigits cs).map fun n => (n : ℤ)

/-- `int`, or none when it raises. -/
def intOf : Value → Option ℤ
  | .int n => some n
  | .bool b => some (if b then 1 else 0)
  | .str s => intOfText s
  | _ => none

def textOf : Value → Option String
  | .str s => some s
  | _ => none

def optionalTextOf : Value → Option (Option String)
  | .none => some none
  | .str s => some (some s)
  | _ => none

def textsOf : Value → Option (List String)
  | .list xs => xs.mapM textOf
  | _ => none

/-- `RiskLevel(…)`. -/
def riskOf (v : Value) : Option RiskLevel :=
  (textOf v).bind fun s => riskOrder.find? (·.value = s)

/-- The step that an entry of the answer describes, or none when a field is missing or is not of
its type. -/
def stepOfAnswer : Value → Option PlanStep
  | .dict d => do
    let stepId ← (d.lookup "step_id").bind textOf
    let capability ← (d.lookup "capability").bind textOf
    let agentId ← optionalTextOf ((d.lookup "agent_id").getD .none)
    let dependencies ← textsOf ((d.lookup "dependencies").getD (.list []))
    let estimatedDurationMs ← intOf ((d.lookup "estimated_duration_ms").getD (.int 1000))
    let risk ← riskOf ((d.lookup "risk").getD (.str "low"))
    let retryBudget ← intOf ((d.lookup "retry_budget").getD (.int 3))
    some { stepId, capability, agentId, dependencies, estimatedDurationMs, risk, retryBudget }
  | _ => none

/-- The steps of an answer. Anything but a list of steps raises: it cannot be iterated, is
empty, or its items have no fields. -/
def stepsOfAnswer : Value → Option (List PlanStep)
  | .dict data =>
    match (data.lookup "steps").getD (.list []) with
    | .list ds =>
      match ds.mapM stepOfAnswer with
      | some (s :: ss) => some (s :: ss)
      | _ => none
    | _ => none
  | _ => none

/-! ## The rules, step by step -/

/-- `capability_missing`. -/
def markHigh (s : PlanStep) : PlanStep × List String :=
  ({ s with agentId := none, risk := .high },
    if s.risk ≠ .high then [s.stepId ++ ":mark_high"] else [])

/-- `agent_unhealthy`. -/
def reassign (failed cand : Option String) (s : PlanStep) : PlanStep × List String :=
  (if some s.stepId = failed ∨ s.agentId = none then { s with agentId := cand } else s, [])

/-- `step_failed`: the new steps in the place of a step. -/
def halves (failed : Option String) (s : PlanStep) : Option (List PlanStep) :=
  if some s.stepId = failed then some (splitStep s) else none

/-- `risk_escalation`. -/
def escalate (failed : Option String) (s : PlanStep) : PlanStep × List String :=
  if some s.stepId = failed then
    let risk := bumpRisk s.risk 1
    ({ s with risk, retryBudget := s.retryBudget + 1 },
      ["risk_escalation:" ++ s.stepId ++ "->" ++ risk.value])
  else (s, [])

/-- `swarm_rebalance`. -/
def rebalance (fromId toId : String) (s : PlanStep) : PlanStep × List String :=
  (if s.agentId = some fromId then { s with agentId := some toId } else s, [])

/-! ## Risk assessment, step by step -/

/-- The failures in a history, by the capability of the step. -/
def failuresByCap (steps : List PlanStep) (history : List ExecutionOutcome) : Dict String ℕ :=
  history.foldl (fun d o =>
    if o.status = .failure ∨ o.status = .timeout then
      match steps.find? (·.stepId = o.stepId) with
      | some s => d.insert s.capability ((d.get? s.capability).getD 0 + 1)
      | none => d
    else d) ∅

def unhealthySteps (history : List ExecutionOutcome) : List String :=
  (history.filter (·.errorType = some "agent_unhealthy")).map (·.stepId)

/-- The risk that `risk_assess` gives a step. -/
def assessedRisk (unhealthy : List String) (failures : Dict String ℕ) (s : PlanStep) : RiskLevel :=
  if s.stepId ∈ unhealthy then .critical
  else if 2 < (failures.get? s.capability).getD 0 then .high
  else s.risk

def assess (planId : String) (unhealthy : List String) (failures : Dict String ℕ) (s : PlanStep) :
    PlanStep × List PlanningEvent :=
  let risk := assessedRisk unhealthy failures s
  ({ s with risk },
    if risk ≠ s.risk then [.riskEscalated planId s.stepId s.risk risk "risk_assessment"] else [])

namespace PlanMemory

variable (P : ReplanEnv) (m : PlanMemory)

/-! ## Small updates and look-ups -/

def emit (e : PlanningEvent) : PlanMemory := { m with events := m.events ++ [e] }

/-- The steps of a plan as they are now. -/
def stepsOf (plan : PlanObject) : List PlanStep := Heap.read m.objects plan.steps

/-- `plan.model_dump`. -/
def dump (plan : PlanObject) : Plan :=
  { planId := plan.planId
    workflowId := plan.workflowId
    status := plan.status
    steps := m.stepsOf plan
    version := plan.version }

/-- `_persist_plan`. -/
def persistPlan (plan : PlanObject) : PlanMemory :=
  { m with persist := m.persist.map fun rows => rows.insert plan.planId (m.dump plan) }

/-- `_step_by_id`. -/
def stepById (plan : PlanObject) (stepId : Option String) : Option PlanStep :=
  (m.stepsOf plan).find? fun s => some s.stepId = stepId

/-- `self._rng.choice`. -/
def choice (agents : List String) : Option String × PlanMemory :=
  (agents[P.rng m.turn % agents.length]?, { m with turn := m.turn + 1 })

/-- The members of the plan's swarm that can take over, if a coordinator is wired and has it. -/
def eligibleMembers (plan : PlanObject) (exclude : Option String) : List String :=
  match P.swarm.bind fun swarm => (swarm m.turn).getSwarm plan.planId with
  | none => []
  | some s =>
    (s.members.values.filter fun x =>
      (x.health = .healthy ∨ x.health = .suspected) ∧ some x.agentId ≠ exclude).map (·.agentId)

/-- The agents that a plan mentions, without the excluded one. -/
def mentionedAgents (plan : PlanObject) (exclude : Option String) : List String :=
  ((m.stepsOf plan).filterMap fun s => truthy s.agentId).dedup.filter fun a => some a ≠ exclude

/-- `_next_eligible_agent`. -/
def nextEligibleAgent (plan : PlanObject) (exclude : Option String) :
    Option String × PlanMemory :=
  let healthy := m.eligibleMembers P plan exclude
  if healthy ≠ [] then m.choice P healthy
  else
    let agents := m.mentionedAgents plan exclude
    if agents ≠ [] then m.choice P agents else (none, m)

/-! ## Replanning -/

/-- `_replan_rule_based`: the steps of the adapted plan, and the changes. -/
def replanRuleBased (plan : PlanObject) (t : Trigger) : List ℕ × List String × PlanMemory :=
  let failed := t.context.get? "step_id"
  if t.reason = "capability_missing" then
    let (objects, changes) := Heap.sweep markHigh plan.steps (m.objects, [])
    (plan.steps, changes ++ ["capability_missing:unassign"], { m with objects })
  else if t.reason = "agent_unhealthy" then
    let failedAgent := (m.stepById plan failed).bind (·.agentId)
    let (cand, m) := m.nextEligibleAgent P plan failedAgent
    let (objects, changes) := Heap.sweep (reassign failed cand) plan.steps (m.objects, [])
    (plan.steps, changes ++ ["agent_unhealthy:reassign->" ++ cand.getD "None"], { m with objects })
  else if t.reason = "step_failed" then
    let changes := ((m.stepsOf plan).filter (some ·.stepId = failed)).map fun s =>
      "step_failed:split->" ++ s.stepId ++ "-a/-b"
    let (objects, steps) := Heap.rebuild (halves failed) plan.steps m.objects
    (steps, changes, { m with objects })
  else if t.reason = "risk_escalation" then
    let (objects, changes) := Heap.sweep (escalate failed) plan.steps (m.objects, [])
    (plan.steps, changes, { m with objects })
  else if t.reason = "swarm_rebalance" then
    match t.context.get? "from_agent", t.context.get? "to_agent" with
    | some fromId, some toId =>
      let (objects, changes) := Heap.sweep (rebalance fromId toId) plan.steps (m.objects, [])
      (plan.steps, changes ++ ["swarm_rebalance:" ++ fromId ++ "->" ++ toId], { m with objects })
    | _, _ => (plan.steps, [], m)
  else (plan.steps, [], m)

/-- `_replan_via_llm`, or none when no LLM is wired or anything raises. -/
def replanViaLlm (plan : PlanObject) (t : Trigger) : Option (List PlanStep) :=
  match P.llm with
  | none => none
  | some ask =>
    match ask m.turn (m.dump plan) t with
    | .error _ => none
    | .ok data => stepsOfAnswer data

/-- A turn is over when the LLM was asked. -/
def asked : PlanMemory := { m with turn := m.turn + if P.llm.isSome then 1 else 0 }

/-- The steps that `_replan` gives the adapted plan: new objects from the LLM, or what the rules
make of the old ones. -/
def replanSteps (plan : PlanObject) (t : Trigger) : List ℕ × List String × PlanMemory :=
  match m.replanViaLlm P plan t with
  | some parsed =>
    (List.range' m.objects.length parsed.length, ["llm_replan"],
      { m.asked P with objects := m.objects ++ parsed })
  | none => (m.asked P).replanRuleBased P plan t

/-- `_replan`. -/
def replan (plan : PlanObject) (t : Trigger) : PlanObject × PlanMemory :=
  let (steps, changes, m) := m.replanSteps P plan t
  let new : PlanObject :=
    { planId := P.uuid.next m.plans.keys
      workflowId := plan.workflowId
      status := .adapted
      steps
      version := plan.version + 1 }
  let m := { m with plans := m.plans.put new }.persistPlan new
  (new, m.emit (.planAdapted new.planId plan.version new.version ("; ".intercalate changes)))

/-- `risk_assess`. -/
def riskAssess (plan : PlanObject) (history : List ExecutionOutcome) : PlanMemory :=
  let failures := failuresByCap (m.stepsOf plan) history
  let (objects, escalated) :=
    Heap.sweep (assess plan.planId (unhealthySteps history) failures) plan.steps (m.objects, [])
  let m := { m with objects, events := m.events ++ escalated }
  if escalated ≠ [] then m.persistPlan plan else m

/-! ## Making plans -/

/-- `create_plan`, over step objects that there are. -/
def createPlan (workflowId : String) (steps : List ℕ) : PlanObject × PlanMemory :=
  let plan : PlanObject :=
    { planId := P.uuid.next m.plans.keys
      workflowId
      status := .draft
      steps := steps.filter (· < m.objects.length) }
  let m := { m with plans := m.plans.put plan }.persistPlan plan
  let m := m.emit (.planCreated plan.planId workflowId plan.steps.length plan.version)
  (plan, (m.stepsOf plan).foldl (fun m s =>
    m.emit (.stepPlanned plan.planId s.stepId s.capability s.agentId s.risk)) m)

/-- A plan under an id of its own, with new step objects, as the store makes it from a row. -/
def loadPlan (plan : Plan) : PlanMemory :=
  if plan.planId ∈ m.plans.keys then m
  else
    { m with
      objects := m.objects ++ plan.steps
      plans := m.plans.put
        { planId := plan.planId
          workflowId := plan.workflowId
          status := plan.status
          steps := List.range' m.objects.length plan.steps.length
          version := plan.version } }

end PlanMemory

/-! ## Operations in sequence -/

inductive PlanningOp where
  | newStep (s : PlanStep)
  | createPlan (workflowId : String) (steps : List ℕ)
  | loadPlan (plan : Plan)
  | replan (planId : String) (t : Trigger)
  | riskAssess (planId : String) (history : List ExecutionOutcome)

/-- One operation. Replanning and risk assessment are for plans that there are. -/
def PlanningOp.run (P : ReplanEnv) (m : PlanMemory) : PlanningOp → PlanMemory
  | .newStep s => { m with objects := m.objects ++ [s] }
  | .createPlan workflowId steps => (m.createPlan P workflowId steps).2
  | .loadPlan plan => m.loadPlan plan
  | .replan planId t =>
    match m.plans.get? planId with
    | none => m
    | some plan => (m.replan P plan t).2
  | .riskAssess planId history =>
    match m.plans.get? planId with
    | none => m
    | some plan => m.riskAssess plan history

/-! ## Rebalancing (`rebalance_load` of `kernel/swarm.py`) -/

namespace Coordinator

/-- The members whose loads are compared. -/
def balanced (s : Swarm) : List SwarmMember := s.members.values.filter (·.health ≠ .unhealthy)

def loadScore (c : Coordinator) (m : SwarmMember) : ℚ := (c.load.get? m.agentId).getD 0

/-- `rebalance_load`, with the id that it makes up for the trigger. -/
def rebalanceLoad (c : Coordinator) (swarmId triggerId : String) : Except Exc (Option Trigger) :=
  match c.getSwarm swarmId with
  | none => .error ⟨.keyError, "swarm '" ++ swarmId ++ "' not found"⟩
  | some s =>
    let healthy := balanced s
    if healthy.length < 2 then .ok none
    else
      let loads := healthy.map c.loadScore
      let mean : ℚ := loads.sum / loads.length
      let variance : ℚ := (loads.map fun x => (x - mean) ^ 2).sum / loads.length
      if variance ≤ 1 / 2 then .ok none
      else match healthy.argmax c.loadScore, healthy.argmin c.loadScore with
        | some hi, some lo =>
          if hi.agentId = lo.agentId then .ok none
          else
            let context := ((∅ : Dict String String).insert "from_agent" hi.agentId).insert
              "to_agent" lo.agentId
            .ok (some { triggerId, planId := swarmId, reason := "swarm_rebalance", context })
        | _, _ => .ok none

end Coordinator

end Hermes

import Hermes.Spec.EventStore
import Hermes.Spec.HealthMonitor
import Mathlib.Data.Nat.Cast.Defs
import Hermes.Spec.Guard
import Hermes.Spec.Observability
import Hermes.Spec.Resilience
import Hermes.Spec.Swarm

/-!
# Agents that come and go (`AgentRuntime` of `kernel/agent.py`)

`start` and `stop`, with the health monitor, the journal and the bus that may be wired. Both wait for
the agent itself, and what follows runs without a wait; any number of them are under way, and others write to
the same journal. Left out: logging, the observability engine, and what an agent does.
-/

namespace Hermes

/-- A `BaseAgent`: an object, with `agent.__class__.__name__`. -/
structure LiveAgent where
  object : ℕ
  className : String
  deriving DecidableEq, Repr

/-- The payload of the events of a runtime. -/
abbrev LifePayload := List (String × String)

/-- The events that only a runtime writes. -/
def lifecycleTypes : List String := ["agent.started", "agent.stopped"]

/-- An `AgentRuntime`: the agents that run, and what is wired. -/
structure AgentLife (τ : Type) where
  agents : Dict String LiveAgent := ∅
  health : Option HealthMonitor := none
  store : Option (EventStore LifePayload τ) := none
  /-- The calls of `stop` that wait for their agent. -/
  stopping : List String := []
  /-- What has been published on the bus. -/
  published : List (DomainEvent LifePayload τ) := []

/-- What may happen. The ids of events are any texts. -/
inductive LifeStep (τ : Type) where
  /-- `agent.start()` returns. -/
  | started (agent : LiveAgent) (agentId eventId : String) (now : τ)
  /-- `stop`, up to its await. -/
  | stop (agentId : String)
  /-- `agent.stop(agent_id)` returns, or raises, for one of the calls that wait. -/
  | stopped (n : ℕ) (eventId : String) (now : τ)
  | stopFailed (n : ℕ)
  /-- A probe of the monitor ends. -/
  | probed (a : ℕ) (outcome : ProbeOutcome)
  /-- Somebody else publishes an event, as `CommandBus.publish_event` does. -/
  | other (e : { e : DomainEvent LifePayload τ // e.type ∉ lifecycleTypes })

namespace AgentLife

variable {τ : Type} (codec : EventCodec LifePayload τ)

/-- A new runtime. A journal is given by its database, if it has one. -/
def new (health : Bool) (journal : Option (Option (Index EventRow.id))) : AgentLife τ where
  health := if health then some {} else none
  store := journal.map fun db => { db }

/-- `_publish`: the journal first. If `append` raises, nothing is published. -/
def publish (s : AgentLife τ) (e : DomainEvent LifePayload τ) : AgentLife τ :=
  match s.store with
  | none => { s with published := s.published ++ [e] }
  | some store =>
    match store.append codec (.event e) with
    | (.error _, store) => { s with store := some store }
    | (.ok (), store) => { s with store := some store, published := s.published ++ [e] }

/-- The rest of `start`. -/
def started (s : AgentLife τ) (agent : LiveAgent) (agentId eventId : String) (now : τ) : AgentLife τ :=
  { s with
    agents := s.agents.insert agentId agent
    health := s.health.map fun m : HealthMonitor => m.register agentId "agent" {} }.publish codec
    { id := eventId, aggregateId := agentId, type := "agent.started",
      payload := [("agent_type", agent.className)], timestamp := now }

/-- The rest of `stop`. -/
def stopped (s : AgentLife τ) (agentId eventId : String) (now : τ) : AgentLife τ :=
  { s with
    agents := s.agents.erase agentId
    health := s.health.map fun m : HealthMonitor => m.unregister agentId }.publish codec
    { id := eventId, aggregateId := agentId, type := "agent.stopped",
      payload := [("reason", "explicit_stop")], timestamp := now }

/-- The `n`-th call of `stop` that waits goes on. -/
def stopReturns (s : AgentLife τ) (n : ℕ) (eventId : String) (now : τ) : AgentLife τ :=
  match s.stopping[n]? with
  | none => s
  | some agentId => { s with stopping := s.stopping.eraseIdx n }.stopped codec agentId eventId now

def step (s : AgentLife τ) : LifeStep τ → AgentLife τ
  | .started agent agentId eventId now => s.started codec agent agentId eventId now
  | .stop agentId =>
    if (s.agents.get? agentId).isSome then { s with stopping := s.stopping ++ [agentId] } else s
  | .stopped n eventId now => s.stopReturns codec n eventId now
  | .stopFailed n => { s with stopping := s.stopping.eraseIdx n }
  | .probed a outcome => { s with health := s.health.map fun m => m.probed a outcome }
  | .other e => s.publish codec e.1

/-- A runtime, and what happens to it. -/
def run (health : Bool) (journal : Option (Option (Index EventRow.id))) (steps : List (LifeStep τ)) :
    AgentLife τ := steps.foldl (step codec) (new health journal)

/-- `list`. -/
def list (s : AgentLife τ) : List String := s.agents.keys

end AgentLife

/-! ## What a journal says -/

/-- A projection of the journal: the class of each agent that has been started, and not stopped since. -/
def replayAgents {τ : Type} (events : List (DomainEvent LifePayload τ)) (agentId : String) : Option String :=
  events.foldl (fun running e =>
    if e.aggregateId = agentId then
      if e.type = "agent.started" then e.payload.lookup "agent_type"
      else if e.type = "agent.stopped" then none
      else running
    else running) none

/-!
## Executions of agents (`AgentRuntime.execute` of `kernel/agent.py`)

Executions are under way together. Each goes from one wait to the next: it waits for the agent, for a tool,
or for the pause before another attempt. The runtime has an observability engine; a gateway, a swarm
coordinator, a guard with a marketplace, a sandbox and a resilience engine may be wired. Left out: the
interpolation of parameters, what a tool call returns, and what a sandbox does besides raising.
-/

open Observability

/-- An agent that runs, with its `capabilities`. -/
structure RunnableAgent where
  object : ℕ
  capabilities : List String := []
  deriving DecidableEq, Repr

/-- How an execution ends. -/
inductive ExecResult where
  | returned
  | delegated (toAgent : String)
  /-- It raises an `Exception` with this `str`, or another `BaseException`. -/
  | raised (text : Option String)
  deriving DecidableEq, Repr

/-- Where an execution waits. -/
inductive ExecPhase where
  /-- For the tool of an `mcp:` capability. -/
  | mcp
  /-- For the agent, in the context of the guard. -/
  | guarded (packageId : String)
  /-- For the agent, in so many attempts. -/
  | attempt (n : ℕ)
  /-- Before the next attempt. -/
  | backOff (n : ℕ)
  | ended (result : ExecResult)
  deriving DecidableEq, Repr

structure Execution where
  agentId : String
  agent : RunnableAgent
  taskId : String
  capability : Option String
  /-- `workflow_id or agent_id`. -/
  corr : String
  /-- Its span, if it has come so far. -/
  spanId : Option String := none
  /-- The package that the guard was asked about. -/
  package : Option String := none
  phase : ExecPhase
  /-- The calls of `agent.execute`. -/
  bodies : ℕ := 0
  deriving DecidableEq, Repr

/-- How a wait for an agent ends. -/
inductive BodyEnd where
  | returned
  | raised (e : PyExc)
  /-- The sandbox cancels it, or finds a breach when it has returned. -/
  | breach
  deriving DecidableEq, Repr

/-- An `AgentRuntime` that executes. -/
structure AgentExecutions (V τ : Type) where
  agents : Dict String RunnableAgent := ∅
  swarmIds : Dict String String := ∅
  mcp : Bool := false
  swarm : Option Coordinator := none
  guard : Option Guard := none
  /-- The packages of the marketplace, if one is wired. -/
  installed : Option (List PluginPackage) := none
  sandbox : Bool := false
  resilience : Bool := false
  obs : Observed V τ := {}
  executions : List Execution := []

/-- What may happen. `sandboxText` is the `str` of what a sandbox raises, if it has to. -/
inductive ExecStep (V τ : Type) where
  | execute (agentId : String) (task : Task) (workflowId : Option String) (delegationId : String) (now : τ)
  /-- `agent.execute` ends, for one of the executions. -/
  | bodyEnds (x : ℕ) (how : BodyEnd) (sandboxText : String) (ms : ℤ) (now : τ)
  /-- The tool call ends. -/
  | toolEnds (x : ℕ) (result : Except (Option String) Unit)
  /-- The pause before the next attempt is over. -/
  | wake (x : ℕ)
  /-- An execution is cancelled where it waits. -/
  | cancel (x : ℕ) (ms : ℤ) (now : τ)
  /-- Agents are started and stopped, join swarms and leave them. -/
  | change (agents : Dict String RunnableAgent) (swarmIds : Dict String String)
  /-- Something else is observed. -/
  | observed (call : ObservedCall V τ)

namespace AgentExecutions

variable {V τ : Type} [AddMonoidWithOne V] [LinearOrder τ] (ids : IdSource String)

/-- The metric of an execution. -/
def executionMetric (x : Execution) (now : τ) : ObservedCall V τ :=
  .recordMetric "agent.executions" 1
    (some [("agent_id", x.agentId), ("capability", x.capability.getD "")]) .counter now

/-- The span of an execution begins, and it is logged. -/
def observeStart (x : Execution) (now : τ) (obs : Observed V τ) : Observed V τ :=
  let obs := (obs.call ids (.startSpan x.corr "agent.execute" none (some x.corr) now)).2
  (obs.call ids (.log "debug"
    ("agent execute: " ++ x.agentId ++ " cap=" ++ x.capability.getD "None") (some x.corr)
    (some [("capability", x.capability.elim .none .str)]) now)).2

/-- What is observed of a result, and then the end of the span. -/
def observeEnd (x : Execution) (result : ExecResult) (now : τ) (obs : Observed V τ) : Observed V τ :=
  let obs := match result with
    | .returned => (obs.call ids (executionMetric x now)).2
    | .raised (some text) => (obs.call ids (.log "error" ("agent execution failed: " ++ text) (some x.corr)
        (some [("agent_id", .str x.agentId)]) now)).2
    | _ => obs
  match x.spanId with
  | none => obs
  | some spanId => { obs with engine := (obs.engine.finishSpan spanId "ok" now).2 }

/-- An execution is as given from now on. -/
def setExecution (s : AgentExecutions V τ) (n : ℕ) (x : Execution) : AgentExecutions V τ :=
  { s with executions := s.executions.set n x }

/-- An execution ends in its `try`. -/
def settle (s : AgentExecutions V τ) (n : ℕ) (x : Execution) (result : ExecResult) (now : τ) :
    AgentExecutions V τ :=
  { s with obs := observeEnd ids x result now s.obs }.setExecution n { x with phase := .ended result }

/-- An execution that never comes to its `try`. -/
def addExecution (s : AgentExecutions V τ) (x : Execution) : AgentExecutions V τ :=
  { s with executions := s.executions ++ [x] }

/-- `task.capability.startswith("mcp:")`. -/
def isMcp (capability : Option String) : Bool :=
  capability.elim false fun capability => "mcp:".toList.isPrefixOf capability.toList

/-- The task is handed to a member of the swarm, if the agent lacks the capability and there is one. -/
def delegate (s : AgentExecutions V τ) (agentId : String) (agent : RunnableAgent) (task : Task)
    (delegationId : String) : Option String × Option Coordinator :=
  match s.swarm, task.capability, s.swarmIds.get? agentId with
  | some c, some capability, some swarmId =>
    if capability ∈ agent.capabilities then (none, s.swarm)
    else match c.delegateTask swarmId task agentId delegationId with
      | (.error _, c) => (none, some c)
      | (.ok (delegation, _), c) =>
        match (c.getSwarm swarmId).bind (·.members.get? delegation.toAgent) with
        | none => (none, some c)
        | some _ =>
          match c.completeDelegation delegation.delegationId ("delegated from " ++ agentId) with
          | (.error _, c) => (none, some c)
          | (.ok _, c) => (some delegation.toAgent, some c)
  | _, _, _ => (none, s.swarm)

/-- The guard, and `_capability_package_id`, if the execution is to be guarded. -/
def guardFor (s : AgentExecutions V τ) (capability : Option String) : Option (Guard × String × String) :=
  match s.guard, truthy capability, s.installed with
  | some guard, some capability, some installed =>
    (stepPackageId installed capability).map fun packageId => (guard, packageId, capability)
  | _, _, _ => none

/-- `execute` from its span on, up to the first wait. -/
def executeLocal (s : AgentExecutions V τ) (x : Execution) (now : τ) : AgentExecutions V τ :=
  -- the id that the span gets
  let x := { x with spanId := some (ids.next s.obs.issued) }
  let n := s.executions.length
  let s := { s with obs := observeStart ids x now s.obs }.addExecution x
  match s.guardFor x.capability with
  | none => s.setExecution n { x with phase := .attempt 1, bodies := 1 }
  | some (guard, packageId, capability) =>
    match guard.pre packageId "execute" ("capability:" ++ capability) with
    | .error (_, e) => s.settle ids n { x with package := some packageId } (.raised (some e.text)) now
    | .ok () => s.setExecution n
        { x with package := some packageId, phase := .guarded packageId, bodies := 1 }

/-- `execute`, up to its first wait. Without the agent it raises `KeyError`. -/
def execute (s : AgentExecutions V τ) (agentId : String) (task : Task) (workflowId : Option String)
    (delegationId : String) (now : τ) : AgentExecutions V τ :=
  match s.agents.get? agentId with
  | none => s
  | some agent =>
    let x : Execution :=
      { agentId, agent, taskId := task.id, capability := task.capability,
        corr := orElse workflowId agentId, phase := .mcp }
    if isMcp task.capability then
      if s.mcp then s.addExecution x
      else s.addExecution { x with phase := .ended (.raised (some "MCP gateway not wired")) }
    else match s.delegate agentId agent task delegationId with
      | (some toAgent, swarm) =>
        { s with swarm }.addExecution { x with phase := .ended (.delegated toAgent) }
      | (none, swarm) => { s with swarm }.executeLocal ids x now

/-- What an execution raises for an exception of its agent. -/
def raisedBy (s : AgentExecutions V τ) (x : Execution) (n : ℕ) (sandboxText : String) (e : PyExc) :
    ExecResult :=
  let e' := if s.resilience then
      retryExhaustedError (some (x.agentId ++ ":" ++ x.taskId)) n (e.name ++ ": " ++ e.text)
    else e
  .raised (some (if s.sandbox then sandboxText else e'.text))

/-- The attempts are over: there is no retry, or it gives up. -/
def attemptsOver (s : AgentExecutions V τ) (n : ℕ) (e : PyExc) : Bool :=
  let policy : ResilienceRetryPolicy := {}
  !s.resilience || !policy.isRetryable e || decide (policy.maxAttempts ≤ n)

/-- The context of the guard is left. -/
def leaveGuard (s : AgentExecutions V τ) (packageId : String) (ms : ℤ) : AgentExecutions V τ :=
  { s with guard := s.guard.map fun guard => guard.accrue packageId (max 0 ms) }

def bodyEnds (s : AgentExecutions V τ) (n : ℕ) (how : BodyEnd) (sandboxText : String) (ms : ℤ) (now : τ) :
    AgentExecutions V τ :=
  match s.executions[n]? with
  | none => s
  | some x => match x.phase, how with
    | .guarded packageId, .returned => (s.leaveGuard packageId ms).settle ids n x .returned now
    | .guarded packageId, .raised e =>
      (s.leaveGuard packageId ms).settle ids n x (.raised (if e.isException then some e.text else none)) now
    | .attempt _, .returned => s.settle ids n x .returned now
    | .attempt k, .raised e =>
      if e.isException = false then s.settle ids n x (.raised none) now
      else if s.attemptsOver k e then s.settle ids n x (s.raisedBy x k sandboxText e) now
      else s.setExecution n { x with phase := .backOff k }
    | .attempt _, .breach => if s.sandbox then s.settle ids n x (.raised (some sandboxText)) now else s
    | .backOff _, .breach => if s.sandbox then s.settle ids n x (.raised (some sandboxText)) now else s
    | _, _ => s

def toolEnds (s : AgentExecutions V τ) (n : ℕ) (result : Except (Option String) Unit) :
    AgentExecutions V τ :=
  match s.executions[n]? with
  | none => s
  | some x => match x.phase, result with
    | .mcp, .ok () => s.setExecution n { x with phase := .ended .returned }
    | .mcp, .error text => s.setExecution n { x with phase := .ended (.raised text) }
    | _, _ => s

def wake (s : AgentExecutions V τ) (n : ℕ) : AgentExecutions V τ :=
  match s.executions[n]? with
  | none => s
  | some x => match x.phase with
    | .backOff k => s.setExecution n { x with phase := .attempt (k + 1), bodies := x.bodies + 1 }
    | _ => s

def cancel (s : AgentExecutions V τ) (n : ℕ) (ms : ℤ) (now : τ) : AgentExecutions V τ :=
  match s.executions[n]? with
  | none => s
  | some x => match x.phase with
    | .mcp => s.setExecution n { x with phase := .ended (.raised none) }
    | .guarded packageId => (s.leaveGuard packageId ms).settle ids n x (.raised none) now
    | .ended _ => s
    | _ => s.settle ids n x (.raised none) now

/-- Nothing that an execution observes: no error, and not its metric. -/
def foreign : ObservedCall V τ → Bool
  | .recordMetric name _ _ _ _ => name ≠ "agent.executions"
  | .log level _ _ _ _ => level ≠ "error"
  | _ => true

def step (s : AgentExecutions V τ) : ExecStep V τ → AgentExecutions V τ
  | .execute agentId task workflowId delegationId now =>
    s.execute ids agentId task workflowId delegationId now
  | .bodyEnds n how sandboxText ms now => s.bodyEnds ids n how sandboxText ms now
  | .toolEnds n result => s.toolEnds n result
  | .wake n => s.wake n
  | .cancel n ms now => s.cancel ids n ms now
  | .change agents swarmIds => { s with agents, swarmIds }
  | .observed call => if foreign call then { s with obs := (s.obs.call ids call).2 } else s

/-- What happens to a runtime from the time on when it has a new engine and has executed nothing. -/
def run (s : AgentExecutions V τ) (metricsLimit logsLimit spansLimit auditLimit : ℕ)
    (steps : List (ExecStep V τ)) : AgentExecutions V τ :=
  steps.foldl (step ids)
    { s with obs := .withLimits metricsLimit logsLimit spansLimit auditLimit, executions := [] }

end AgentExecutions

namespace Execution

variable (x : Execution)

/-- It has not ended. -/
def underWay : Bool := match x.phase with
  | .ended _ => false
  | _ => true

/-- It has come to its `try`, and returned. -/
def succeeded : Bool := x.spanId.isSome && (x.phase = .ended .returned : Bool)

/-- It has come to its `try`, and raised an `Exception`. -/
def failed : Bool := x.spanId.isSome && match x.phase with
  | .ended (.raised (some _)) => true
  | _ => false

/-- The guard let it through for this package, and it has left it. -/
def leftGuard (packageId : String) : Bool := x.package = some packageId ∧ x.bodies ≠ 0 ∧ x.underWay = false

end Execution

end Hermes

import Hermes.Lib.Flight
import Hermes.Spec.Base
import Hermes.Spec.HealthMonitor

/-!
# Recovery (`RecoveryEngine` of `kernel/health.py`)

A call of `on_unhealthy` is cut at the awaits of `stop` and `start` of the agent runtime; calls
overlap in any way. All else runs without a wait: the event store takes what it is given, and so
does the dead-letter queue. Left out: logging.
-/

namespace Hermes

open Flight

/-- A `DeadLetterEntry`. Its `payload` is one key with its value. -/
structure DeadLetter where
  componentId : String
  entryType : String
  payload : String × String
  error : String
  retryCount : ℕ := 0
  deriving DecidableEq, Repr

/-- What `get` of the agent runtime, or `get_instance` of the workflow engine, does. -/
inductive RecoveryLookup where
  | found
  | missing
  | raised
  deriving DecidableEq, Repr

inductive RecoveryPhase where
  /-- `await self._agents.stop(agent_id)`. -/
  | stopping
  /-- `await self._agents.start(agent)`. -/
  | starting
  | over
  deriving DecidableEq, Repr

/-- A call of `on_unhealthy`. -/
structure RecoveryCall where
  componentId : String
  componentType : String
  /-- What it read from `_restart_counts`. -/
  restarts : ℕ
  /-- How many restarts, of any component, had succeeded when it began. -/
  begun : ℕ
  phase : RecoveryPhase
  deriving DecidableEq, Repr

/-- A `RecoveryEngine`: `recovered` are the `AgentRecovered` events, each with its component and its
count, one for each restart that succeeded. -/
structure RecoveryEngine where
  maxRestarts : ℤ := 3
  restartCounts : Dict String ℕ := ∅
  dlq : List DeadLetter := []
  recovered : List (String × ℕ) := []
  calls : List RecoveryCall := []

/-- What happens: a call begins, or the `n`-th call goes on. `lastError` is that of the record that
was passed, as it then is. -/
inductive RecoveryStep where
  | unhealthy (componentId componentType : String) (lookup : RecoveryLookup) (lastError : Option String)
  | stopped (n : ℕ) (how : Ending) (lastError : Option String)
  | started (n : ℕ) (how : Ending) (lastError : Option String)
  deriving DecidableEq, Repr

namespace RecoveryEngine

variable (s : RecoveryEngine)

/-- `restart_count`. -/
def restartCount (componentId : String) : ℕ := (s.restartCounts.get? componentId).getD 0

/-- `_escalate`. -/
def escalate (componentId componentType : String) (lastError : Option String) : RecoveryEngine :=
  { s with dlq := s.dlq ++
      [{ componentId
         entryType := if componentType = "agent" then "task" else "workflow_step"
         payload := ("component_type", componentType)
         error := orElse lastError "max restarts exceeded"
         retryCount := s.restartCount componentId }] }

/-- What follows a restart that succeeded. -/
def restarted (componentId : String) (restarts : ℕ) : RecoveryEngine :=
  { s with
    restartCounts := s.restartCounts.insert componentId (restarts + 1)
    recovered := s.recovered ++ [(componentId, restarts + 1)] }

/-- A call is where its next await is. -/
def await (call : RecoveryCall) : RecoveryEngine := { s with calls := s.calls ++ [call] }

/-- The `n`-th call is there now. -/
def goOn (n : ℕ) (call : RecoveryCall) (phase : RecoveryPhase) : RecoveryEngine :=
  { s with calls := s.calls.set n { call with phase } }

/-- `on_unhealthy` up to its first await. -/
def unhealthy (componentId componentType : String) (lookup : RecoveryLookup) (lastError : Option String) :
    RecoveryEngine :=
  let restarts := s.restartCount componentId
  let call (phase : RecoveryPhase) : RecoveryCall :=
    { componentId, componentType, restarts, begun := s.recovered.length, phase }
  if s.maxRestarts ≤ restarts then
    (s.escalate componentId componentType lastError).await (call .over)
  else if componentType = "workflow" then
    -- `_recover_workflow`: the stalled workflow is a dead letter
    match lookup with
    | .raised => (s.escalate componentId componentType lastError).await (call .over)
    | _ =>
      let entry : DeadLetter :=
        { componentId
          entryType := "workflow_step"
          payload := ("instance_id", componentId)
          error := orElse lastError "workflow stalled" }
      let s : RecoveryEngine := { s with dlq := s.dlq ++ [entry] }
      (s.restarted componentId restarts).await (call .over)
  else
    match lookup with
    | .found => s.await (call .stopping)
    | _ => (s.escalate componentId componentType lastError).await (call .over)

/-- `_on_unhealthy_event`: the type and the error are those of the record. -/
def onUnhealthyEvent (record : Option HealthRecord) (componentId : String) (lookup : RecoveryLookup) :
    RecoveryEngine :=
  let componentType := (record.map HealthRecord.componentType).getD "agent"
  s.unhealthy componentId componentType lookup (record.bind HealthRecord.lastError)

def step (s : RecoveryEngine) : RecoveryStep → RecoveryEngine
  | .unhealthy componentId componentType lookup lastError =>
    s.unhealthy componentId componentType lookup lastError
  | .stopped n how lastError =>
    match s.calls[n]? with
    | some call =>
      if call.phase = .stopping then
        match how with
        | .returned => s.goOn n call .starting
        | .raised => (s.escalate call.componentId call.componentType lastError).goOn n call .over
        | .cancelled => s.goOn n call .over
      else s
    | none => s
  | .started n how lastError =>
    match s.calls[n]? with
    | some call =>
      if call.phase = .starting then
        match how with
        | .returned => (s.restarted call.componentId call.restarts).goOn n call .over
        | .raised => (s.escalate call.componentId call.componentType lastError).goOn n call .over
        | .cancelled => s.goOn n call .over
      else s
    | none => s

/-- The components that were restarted, one by one. -/
def restarts : List String := s.recovered.map Prod.fst

/-- The count of each component is that of its restarts, which are no more than the limit allows. -/
structure WithinBudget : Prop where
  counted : ∀ componentId, s.restartCount componentId = s.restarts.count componentId
  bounded : ∀ componentId, (s.restarts.count componentId : ℤ) ≤ max s.maxRestarts 0

/-- A call that begins when the component has been restarted as often as the limit allows: it leaves
a dead letter, and does nothing else. -/
def EscalatesAtLimit (s : RecoveryEngine) : RecoveryStep → Prop
  | .unhealthy componentId componentType lookup lastError =>
    s.maxRestarts ≤ s.restarts.count componentId →
      ∃ entry call, entry.componentId = componentId ∧ call.phase = .over ∧
        s.step (.unhealthy componentId componentType lookup lastError) =
          { s with dlq := s.dlq ++ [entry], calls := s.calls ++ [call] }
  | _ => True

end RecoveryEngine

end Hermes

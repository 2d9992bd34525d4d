import Hermes.Lib.Dict
import Hermes.Lib.History

/-!
# The health monitor (`HealthMonitor` of `kernel/health.py`)

A registration is an object that `_registry` and the probes under way hold by its address. A probe
that `check_now` or a probe loop awaits ends for the registration that it was started for; what
follows on that runs without a wait. The event store takes what it is given. Left out: the tasks and
their intervals, the time of the last probe, logging.
-/

namespace Hermes

inductive HealthStatus where
  | healthy
  | degraded
  | unhealthy
  | unknown
  deriving DecidableEq, Repr

structure HealthCheck where
  failureThreshold : ℤ := 3
  successThreshold : ℤ := 1
  deriving DecidableEq, Repr

structure HealthRecord where
  componentId : String
  componentType : String
  status : HealthStatus := .unknown
  consecutiveFailures : ℕ := 0
  consecutiveSuccesses : ℕ := 0
  lastError : Option String := none
  deriving DecidableEq, Repr

/-- How a probe ends. -/
inductive ProbeOutcome where
  | returned (healthy : Bool)
  /-- It raises, or times out: `str` of the exception, and the name of its class. -/
  | raised (text className : String)
  deriving DecidableEq, Repr

/-- What the monitor publishes about a component. -/
inductive HealthEvent where
  | agentUnhealthy (componentId : String) (lastError : Option String) (consecutiveFailures : ℕ)
  | agentRecovered (componentId : String) (restartCount : ℕ)
  deriving DecidableEq, Repr

/-- A `_Registration`. -/
structure Registration where
  check : HealthCheck
  record : HealthRecord
  deriving DecidableEq, Repr

namespace HealthRecord

/-- `_apply_result` up to the transition. -/
def applyResult (rec : HealthRecord) (check : HealthCheck) : Bool → HealthRecord
  | true =>
    let successes := rec.consecutiveSuccesses + 1
    let rec' := { rec with consecutiveSuccesses := successes, consecutiveFailures := 0 }
    if check.successThreshold ≤ successes then
      { rec' with
        status := .healthy
        lastError := if rec.status = .healthy then rec.lastError else none }
    else rec'
  | false =>
    let failures := rec.consecutiveFailures + 1
    let rec' := { rec with consecutiveFailures := failures, consecutiveSuccesses := 0 }
    if check.failureThreshold ≤ failures then { rec' with status := .unhealthy }
    else if rec.status = .healthy ∨ rec.status = .unknown then { rec' with status := .degraded }
    else rec'

/-- `_emit_transition`, if the status is another one than before. -/
def transition (rec : HealthRecord) (prev : HealthStatus) : List HealthEvent :=
  if rec.status = prev then []
  else match rec.status with
    | .unhealthy => [.agentUnhealthy rec.componentId rec.lastError rec.consecutiveFailures]
    | .healthy => if prev = .unhealthy then [.agentRecovered rec.componentId 0] else []
    | _ => []

end HealthRecord

namespace ProbeOutcome

/-- The result that `_run_probe` returns. -/
def healthy : ProbeOutcome → Bool
  | returned healthy => healthy
  | raised _ _ => false

/-- What `_run_probe` notes in the record. -/
def note (rec : HealthRecord) : ProbeOutcome → HealthRecord
  | returned _ => rec
  | raised text className =>
    { rec with lastError := some (if text = "" then className else text) }

end ProbeOutcome

/-- A `HealthMonitor`: the registrations by address, `_registry`, and the events, each with the
registration whose probe led to it. -/
structure HealthMonitor where
  objects : List Registration := []
  registry : Dict String ℕ := ∅
  published : List (ℕ × HealthEvent) := []

/-- What happens to a monitor. -/
inductive MonitorStep where
  | register (componentId componentType : String) (check : HealthCheck)
  | unregister (componentId : String)
  /-- A probe of the registration at that address ends. -/
  | probed (a : ℕ) (outcome : ProbeOutcome)

namespace HealthMonitor

variable (m : HealthMonitor)

def register (componentId componentType : String) (check : HealthCheck) : HealthMonitor :=
  { m with
    objects := m.objects ++ [{ check, record := { componentId, componentType } }]
    registry := m.registry.insert componentId m.objects.length }

def unregister (componentId : String) : HealthMonitor :=
  { m with registry := m.registry.erase componentId }

/-- `_run_probe` and `_apply_result`, once the probe has ended. -/
def probed (a : ℕ) (outcome : ProbeOutcome) : HealthMonitor :=
  match m.objects[a]? with
  | none => m
  | some reg =>
    let rec' := (outcome.note reg.record).applyResult reg.check outcome.healthy
    { m with
      objects := m.objects.set a { reg with record := rec' }
      published := m.published ++ (rec'.transition reg.record.status).map (a, ·) }

def step (m : HealthMonitor) : MonitorStep → HealthMonitor
  | .register componentId componentType check => m.register componentId componentType check
  | .unregister componentId => m.unregister componentId
  | .probed a outcome => m.probed a outcome

/-- The record of a registration. -/
def recordAt (a : ℕ) : Option HealthRecord := (m.objects[a]?).map Registration.record

/-- `get_record`. -/
def getRecord (componentId : String) : Option HealthRecord :=
  (m.registry.get? componentId).bind m.recordAt

/-- `get_status`. -/
def getStatus (componentId : String) : HealthStatus :=
  ((m.getRecord componentId).map HealthRecord.status).getD .unknown

/-- `list_unhealthy`. -/
def listUnhealthy : List String :=
  m.registry.keys.filter fun componentId => m.getStatus componentId = .unhealthy

/-- The events that the probes of a registration led to. -/
def eventsOf (a : ℕ) : List HealthEvent :=
  m.published.filterMap fun e => if e.1 = a then some e.2 else none

end HealthMonitor

/-- The results of the probes of a registration, in a run. -/
def MonitorStep.results (a : ℕ) (steps : List MonitorStep) : List Bool :=
  steps.filterMap fun
    | .probed b outcome => if b = a then some outcome.healthy else none
    | _ => none

/-- An `AgentRecovered`. -/
def HealthEvent.recovery : HealthEvent → Bool
  | .agentRecovered _ _ => true
  | .agentUnhealthy _ _ _ => false

/-- The events alternate: each `AgentRecovered` is behind an odd number of events, and each
`AgentUnhealthy` behind an even one. -/
def Alternating (events : List HealthEvent) : Prop :=
  History.Always (fun before e => e.recovery = true ↔ before.length % 2 = 1) events

end Hermes

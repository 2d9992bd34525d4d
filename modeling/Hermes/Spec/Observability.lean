import Mathlib.Data.List.DropRight
import Mathlib.Data.List.MinMax
import Hermes.Lib.Fresh
import Hermes.Lib.Index
import Hermes.Spec.Base

/-!
# Ring buffers (`kernel/observability.py`, `kernel/capability_guard.py`)

The buffers of an `ObservabilityEngine`, and the audit log of a `CapabilityGuard`. The values of metrics
are of any type with an addition, such as the floats, and times of any linear order. `finish_span` and what is
read back come last. Left out: the store of an engine, and events.
-/

namespace Hermes

namespace Observability

/-- `xs[start:]`. -/
def sliceFrom {α : Type} (start : ℤ) (xs : List α) : List α :=
  xs.drop (if start < 0 then xs.length + start else start).toNat

/-- `xs.append(x)`, and `xs = xs[-limit:]` when there are more than that. -/
def appendTo {α : Type} (limit : ℕ) (xs : List α) (x : α) : List α :=
  let xs := xs ++ [x]
  if limit < xs.length then sliceFrom (-limit) xs else xs

/-! ## Records -/

inductive MetricType where
  | counter | histogram | gauge
  deriving DecidableEq, Repr

structure MetricRecord (V τ : Type) where
  metricId : String
  name : String
  value : V
  type : MetricType
  labels : List (String × String) := []
  timestamp : τ
  deriving DecidableEq, Repr

structure TraceSpan (τ : Type) where
  spanId : String
  traceId : String
  spanName : String
  parentId : Option String := none
  startTime : τ
  endTime : Option τ := none
  status : String := "ok"
  correlationId : Option String := none
  deriving DecidableEq, Repr

structure LogEntry (τ : Type) where
  logId : String
  level : String
  message : String
  correlationId : Option String := none
  context : List (String × Value) := []
  timestamp : τ

/-- The `AuditEntry` of a guard. -/
structure AuditEntry (τ : Type) where
  entryId : String
  who : String
  action : String
  resource : String
  result : String
  timestamp : τ
  detail : String := ""
  deriving DecidableEq, Repr

/-- What a call records. -/
inductive Record (V τ : Type) where
  | metric (r : MetricRecord V τ)
  | log (r : LogEntry τ)
  | span (r : TraceSpan τ)
  | audit (r : AuditEntry τ)

namespace Record

variable {V τ : Type}

def metric? : Record V τ → Option (MetricRecord V τ)
  | .metric r => some r
  | _ => none

def log? : Record V τ → Option (LogEntry τ)
  | .log r => some r
  | _ => none

def span? : Record V τ → Option (TraceSpan τ)
  | .span r => some r
  | _ => none

def audit? : Record V τ → Option (AuditEntry τ)
  | .audit r => some r
  | _ => none

end Record

end Observability

open Observability

/-- An `ObservabilityEngine`. -/
structure ObservabilityEngine (V τ : Type) where
  metricsLimit : ℕ := 1000
  logsLimit : ℕ := 1000
  spansLimit : ℕ := 1000
  metrics : List (MetricRecord V τ) := []
  logs : List (LogEntry τ) := []
  spans : Index (TraceSpan.spanId (τ := τ)) := ∅
  counters : Dict String V := ∅
  lastError : Option String := none
  errorCount : ℕ := 0

/-- The audit log of a `CapabilityGuard`. -/
structure GuardAudit (τ : Type) where
  auditLimit : ℕ := 1000
  audit : List (Observability.AuditEntry τ) := []

namespace ObservabilityEngine

variable {V τ : Type} (e : ObservabilityEngine V τ)

/-- The counter of a metric counts it. -/
def count [Zero V] [Add V] (counters : Dict String V) (r : MetricRecord V τ) : Dict String V :=
  if r.type = .counter then counters.insert r.name ((counters.get? r.name).getD 0 + r.value)
  else counters

/-- `record_metric`, for the record that it makes. -/
def recordMetric [Zero V] [Add V] (r : MetricRecord V τ) : ObservabilityEngine V τ :=
  { e with metrics := appendTo e.metricsLimit e.metrics r, counters := count e.counters r }

/-- `log`, for the entry that it makes. -/
def log (r : LogEntry τ) : ObservabilityEngine V τ :=
  let e := { e with logs := appendTo e.logsLimit e.logs r }
  if r.level = "error" then { e with lastError := some r.message, errorCount := e.errorCount + 1 } else e

/-- `start_span`, for the span that it makes. -/
def startSpan [LinearOrder τ] (r : TraceSpan τ) : ObservabilityEngine V τ :=
  let spans := e.spans.put r
  { e with
    spans :=
      if e.spansLimit < spans.values.length then
        match spans.values.argmin TraceSpan.startTime with
        | some oldest => spans.erase oldest.spanId
        | none => spans
      else spans }

end ObservabilityEngine

/-- `_audit_record`, for the entry that it makes. -/
def GuardAudit.auditRecord {τ : Type} (g : GuardAudit τ) (r : Observability.AuditEntry τ) : GuardAudit τ :=
  { g with audit := appendTo g.auditLimit g.audit r }

/-! ## Calls, one after the other -/

/-- A call, with the time that it reads. -/
inductive ObservedCall (V τ : Type) where
  | recordMetric (name : String) (value : V) (labels : Option (List (String × String)))
      (mtype : MetricType) (now : τ)
  | log (level message : String) (correlationId : Option String)
      (context : Option (List (String × Value))) (now : τ)
  | startSpan (traceId spanName : String) (parentId correlationId : Option String) (now : τ)
  | auditRecord (who action resource result detail : String) (now : τ)

/-- An engine and a guard, with the ids that `uuid4` has given. -/
structure Observed (V τ : Type) where
  engine : ObservabilityEngine V τ := {}
  guard : GuardAudit τ := {}
  issued : List String := []

namespace Observed

variable {V τ : Type} (ids : IdSource String)

/-- A new engine and a new guard. -/
def withLimits (metricsLimit logsLimit spansLimit auditLimit : ℕ) : Observed V τ where
  engine := { metricsLimit, logsLimit, spansLimit }
  guard := { auditLimit }

/-- The record of a call, with a new id. -/
def record (id : String) : ObservedCall V τ → Record V τ
  | .recordMetric name value labels mtype now =>
    .metric { metricId := id, name, value, type := mtype, labels := labels.getD [], timestamp := now }
  | .log level message correlationId context now =>
    .log { logId := id, level, message, correlationId, context := context.getD [], timestamp := now }
  | .startSpan traceId spanName parentId correlationId now =>
    .span { spanId := id, traceId, spanName, parentId, startTime := now, correlationId }
  | .auditRecord who action resource result detail now =>
    .audit { entryId := id, who, action, resource, result, timestamp := now, detail }

variable [Zero V] [Add V] [LinearOrder τ]

/-- A record is taken in. -/
def take (s : Observed V τ) : Record V τ → Observed V τ
  | .metric r => { s with engine := s.engine.recordMetric r }
  | .log r => { s with engine := s.engine.log r }
  | .span r => { s with engine := s.engine.startSpan r }
  | .audit r => { s with guard := s.guard.auditRecord r }

/-- A call: what it records, and the state after it. -/
def call (c : ObservedCall V τ) (s : Observed V τ) : Record V τ × Observed V τ :=
  let id := ids.next s.issued
  let r := record id c
  (r, { s.take r with issued := id :: s.issued })

/-- Calls one after the other: what they record, and the state after them. -/
def callAll : List (ObservedCall V τ) → Observed V τ → List (Record V τ) × Observed V τ
  | [], s => ([], s)
  | c :: calls, s =>
    let (r, s) := s.call ids c
    let (rs, s) := callAll calls s
    (r :: rs, s)

end Observed

/-! ## Spans that end, and what is read back -/

namespace ObservabilityEngine

variable {V τ : Type} (e : ObservabilityEngine V τ)

/-- `finish_span`: the span, if it is kept, and the engine after it. -/
def finishSpan (spanId status : String) (now : τ) : Option (TraceSpan τ) × ObservabilityEngine V τ :=
  match e.spans.get? spanId with
  | none => (none, e)
  | some span =>
    let span := { span with endTime := some now, status }
    let e := { e with spans := e.spans.put span }
    (some span,
      if status = "error" then
        { e with lastError := some (span.traceId ++ "/" ++ span.spanName), errorCount := e.errorCount + 1 }
      else e)

/-- `get_trace`. -/
def getTrace [LinearOrder τ] (traceId : String) : List (TraceSpan τ) :=
  (e.spans.values.filter (·.traceId = traceId)).insertionSort fun a b => a.startTime ≤ b.startTime

/-- `_LEVEL_RANK.get(level, 0)`. -/
def levelRank (level : String) : ℕ :=
  if level = "error" then 3 else if level = "warn" then 2 else if level = "info" then 1 else 0

/-- `get_logs`. -/
def getLogs (correlationId : Option String) (levelMin : String) : List (LogEntry τ) :=
  e.logs.filter fun entry => (correlationId = none ∨ entry.correlationId = correlationId) ∧
    levelRank levelMin ≤ levelRank entry.level

/-- `spans_active` of `get_health_snapshot`; its other entries are fields of the engine, or lengths. -/
def spansActive : ℕ := (e.spans.values.filter fun span => span.endTime.isNone).length

end ObservabilityEngine

end Hermes

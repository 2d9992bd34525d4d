import Hermes.Spec.Workflow

/-!
# The sandbox (`kernel/sandbox.py`)

One call of `Sandbox.run`, with what `asyncio.wait_for` gives for its coroutine, what the
`ResourceMonitor` reads, and how the cleanup hook ends. The bus and the store take every event. Of a
policy, the limits that a run enforces. Left out: logging, and the texts of `SandboxError`s.
-/

namespace Hermes

namespace Sandbox

/-- A value in the details of a violation. -/
inductive Detail where
  | number (q : ℚ)
  | text (s : String)
  deriving DecidableEq, Repr

/-- A `SandboxViolation`. -/
structure Violation where
  policy : SandboxPolicy
  violationType : String
  details : List (String × Detail)
  deriving DecidableEq, Repr

/-- What is raised, by the `except` clause that it comes to, with its `str`. -/
inductive Raised where
  /-- `asyncio.TimeoutError` or `TimeoutError`. -/
  | timeout (text : String)
  /-- A `SandboxError` of this or of another run: a `SandboxTimeoutError`, or not. -/
  | sandboxError (timeout : Bool) (policy : SandboxPolicy) (violation : Option Violation)
  /-- Any other `Exception`. -/
  | exception (text : String)
  /-- A `BaseException` that is no `Exception`, such as `CancelledError`. -/
  | base (text : String)
  deriving DecidableEq, Repr

/-- What a run does besides its coroutine. -/
inductive Action where
  | violationEvent (aggregateId violationType : String) (policy : SandboxPolicy)
      (details : List (String × Detail))
  | cleanup
  | cleanupCompleted (aggregateId : String) (success : Bool) (error : Option String)
  deriving DecidableEq, Repr

/-- What a `ResourceMonitor` reads. `elapsed_ms` is read a second time for the details. -/
structure Readings where
  elapsedMs : ℚ := 0
  elapsedMsAgain : ℚ := 0
  psutil : Bool := false
  startMemoryMb : ℚ := 0
  memoryMb : ℚ := 0
  openFds : ℤ := 0
  deriving DecidableEq, Repr

/-- `ResourceMonitor.check`. -/
def Readings.check (m : Readings) (policy : SandboxPolicy) : List Violation :=
  let cpu : List Violation :=
    if policy.maxCpuTimeMs < m.elapsedMs then
      [⟨policy, "cpu",
        [("elapsed_ms", .number m.elapsedMsAgain), ("limit_ms", .number policy.maxCpuTimeMs)]⟩]
    else []
  let peakMemoryMb := max m.startMemoryMb m.memoryMb
  let memory : List Violation :=
    if m.psutil ∧ policy.maxMemoryMb < peakMemoryMb then
      [⟨policy, "memory",
        [("peak_mb", .number peakMemoryMb), ("limit_mb", .number policy.maxMemoryMb)]⟩]
    else []
  let file : List Violation :=
    if policy.maxFilesOpen < m.openFds then
      [⟨policy, "file", [("open_fds", .number m.openFds), ("limit", .number policy.maxFilesOpen)]⟩]
    else []
  cpu ++ memory ++ file

/-- `str(exc)`, where there is a text. -/
def Raised.text : Raised → String
  | timeout text => text
  | sandboxError _ _ _ => ""
  | exception text => text
  | base text => text

/-- The `aggregate_id` of the events of a run. -/
def aggregateId (context : List (String × String)) : String :=
  let key (name : String) := truthy (context.lookup name)
  (((key "aggregate_id").or (key "agent_id")).or (key "workflow_id")).getD "sandbox"

variable {α : Type}

/-- `_breach`, for a cleanup hook that ends so, if there is one. -/
def breach (violation : Violation) (cleanup : Option (Except Raised Unit)) (aggregateId : String) :
    Except Raised α × List Action :=
  let emitted : Action :=
    .violationEvent aggregateId violation.violationType violation.policy violation.details
  let raised : Except Raised α :=
    .error (.sandboxError (violation.violationType = "timeout") violation.policy (some violation))
  match cleanup with
  | none => (raised, [emitted, .cleanupCompleted aggregateId true none])
  | some (.ok ()) => (raised, [emitted, .cleanup, .cleanupCompleted aggregateId true none])
  | some (.error (.base text)) => (.error (.base text), [emitted, .cleanup])
  | some (.error exc) =>
    (raised, [emitted, .cleanup, .cleanupCompleted aggregateId false (some exc.text)])

/-- The `except` clauses of `run`. -/
def handle (policy : SandboxPolicy) (cleanup : Option (Except Raised Unit)) (aggregateId : String)
    (exc : Raised) : Except Raised α × List Action :=
  match exc with
  | .timeout _ =>
    breach ⟨policy, "timeout", [("timeout_seconds", .number policy.timeoutSeconds)]⟩ cleanup aggregateId
  | .sandboxError timeout policy violation => (.error (.sandboxError timeout policy violation), [])
  | .exception text => breach ⟨policy, "error", [("error", .text text)]⟩ cleanup aggregateId
  | .base text => (.error (.base text), [])

/-- `run`, for a coroutine that `asyncio.wait_for` gives `ends` for. -/
def run (ends : Except Raised α) (policy : SandboxPolicy) (m : Readings)
    (cleanup : Option (Except Raised Unit)) (context : List (String × String)) :
    Except Raised α × List Action :=
  let tried : Except Raised α × List Action := match ends with
    | .error exc => (.error exc, [])
    | .ok result => match (m.check policy).head? with
      | some violation => breach violation cleanup (aggregateId context)
      | none => (.ok result, [])
  match tried with
  | (.ok result, made) => (.ok result, made)
  | (.error exc, made) =>
    let (result, more) := handle policy cleanup (aggregateId context) exc
    (result, made ++ more)

/-- A breach has come off: one violation event, one call of the cleanup hook if there is one, and
then one event for its end. -/
def BreachedOnce (cleanup : Option (Except Raised Unit)) (made : List Action) : Prop :=
  ∃ id type policy details success error,
    made = .violationEvent id type policy details ::
      ((if cleanup.isSome then [.cleanup] else []) ++ [.cleanupCompleted id success error])

/-- A run that raises a `SandboxError` has done what a breach takes, and one that returns none of
it. -/
def FollowsProtocol (ends : Except Raised α) (policy : SandboxPolicy) (m : Readings)
    (cleanup : Option (Except Raised Unit)) (context : List (String × String)) : Prop :=
  match run ends policy m cleanup context with
  | (.error (.sandboxError _ _ _), made) => BreachedOnce cleanup made
  | (.ok _, made) => made = []
  | (.error _, _) => True

end Sandbox

end Hermes

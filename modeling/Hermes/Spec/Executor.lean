import Hermes.Lib.Index
import Hermes.Spec.AgentRuntime

/-!
# The executor (`kernel/executor.py`)

One call of `submit`: what becomes of the task, what is published, and how the call ends. A handler
is any function of the task and of the context that it is given; the task is as the executor left
it when the handler returns. Left out: logging, and the lock around each change of the status.
-/

namespace Hermes

/-! ## Registries -/

/-- A `Tool`. -/
structure KernelTool where
  id : String
  name : String
  capability : String
  deriving DecidableEq

structure ToolRegistry where
  tools : Index KernelTool.id := ∅

/-- `get_by_name`. -/
def ToolRegistry.getByName (r : ToolRegistry) (name : String) : Option KernelTool :=
  r.tools.values.find? fun tool => tool.name = name

/-- A `CapabilityRegistry` with its tool registry. -/
structure CapabilityLookup where
  caps : CapabilityRegistry := {}
  tools : ToolRegistry := {}

namespace CapabilityLookup

variable (r : CapabilityLookup)

/-- `get_by_name`. -/
def getByName (name : String) : Option Capability := r.caps.caps.find? fun cap => cap.name = name

/-- `resolve_tools`: the tools that are missing are skipped. -/
def resolveTools (cap : Capability) : List KernelTool := cap.tools.filterMap r.tools.getByName

/-- `resolve_tools_by_name`: the id of the capability finds that capability again. -/
def resolveToolsByName (name : String) : List KernelTool :=
  match r.getByName name with
  | none => []
  | some cap => r.resolveTools cap

end CapabilityLookup

/-! ## Tasks and events -/

inductive TaskStatus where
  | pending
  | queued
  | running
  | completed
  | failed
  deriving DecidableEq

/-- A `Task`. -/
structure KernelTask where
  id : String
  name : String
  capability : Option String := none
  status : TaskStatus := .pending
  deriving DecidableEq

/-- What an event of the executor carries besides the id of the task. -/
inductive TaskOutput (ρ : Type) where
  | nothing
  | result (r : ρ)
  | error (text : String)
  deriving DecidableEq

/-- An event with `source="executor"`. -/
structure TaskEvent (ρ : Type) where
  type : String
  taskId : String
  output : TaskOutput ρ := .nothing
  deriving DecidableEq

def eventTaskQueued : String := "task.queued"
def eventTaskStarted : String := "task.started"
def eventTaskCompleted : String := "task.completed"
def eventTaskFailed : String := "task.failed"

/-! ## Handlers -/

/-- The context of a handler: what `submit` was given, and `ctx["capability"]` and `ctx["tools"]`. -/
structure TaskContext (κ : Type) where
  given : Dict String κ
  capability : Option Capability
  tools : List KernelTool

/-- A raised `Exception`, with what its `repr` gives. -/
structure TaskFailure where
  exc : Exc
  repr : Except Exc String
  deriving DecidableEq

/-- How a handler ends. -/
inductive HandlerOutcome (ρ : Type) where
  | returns (result : ρ)
  | raises (failure : TaskFailure)
  /-- What it raises is no `Exception`: it is cancelled, say. -/
  | interrupted
  deriving DecidableEq

abbrev TaskHandler (κ ρ : Type) := KernelTask → TaskContext κ → HandlerOutcome ρ

/-! ## The executor -/

structure TaskExecutor (κ ρ : Type) where
  caps : Option CapabilityLookup := none
  handlers : Dict String (TaskHandler κ ρ) := ∅

/-- How a call ends. -/
inductive SubmitEnd (ρ : Type) where
  | returned (result : ρ)
  | raised (exc : Exc)
  | interrupted
  deriving DecidableEq

/-- A call: the task after it, what was published, and how it ended. -/
structure Submission (ρ : Type) where
  task : KernelTask
  published : List (TaskEvent ρ)
  ended : SubmitEnd ρ
  deriving DecidableEq

/-- `KeyError(text)`. -/
def TaskFailure.keyError (text : String) : TaskFailure where
  exc := ⟨.keyError, text⟩
  repr := .ok ("KeyError(" ++ pyRepr text ++ ")")

namespace TaskExecutor

variable {κ ρ : Type} (ex : TaskExecutor κ ρ)

/-- `register_handler`. -/
def registerHandler (capability : String) (handler : TaskHandler κ ρ) : TaskExecutor κ ρ :=
  { ex with handlers := ex.handlers.insert capability handler }

/-- `resolve_capability`. -/
def resolveCapability (task : KernelTask) : Option Capability :=
  match truthy task.capability, ex.caps with
  | some name, some caps => caps.getByName name
  | _, _ => none

/-- `resolve_tools`. -/
def resolveTools (task : KernelTask) : List KernelTool :=
  match truthy task.capability, ex.caps with
  | some name, some caps => caps.resolveToolsByName name
  | _, _ => []

/-- The handler that is looked up within the `try`. -/
def handlerOf (task : KernelTask) : Option (TaskHandler κ ρ) :=
  match truthy task.capability with
  | some name => ex.handlers.get? name
  | none => ex.handlers.get? "__default__"

/-- The context that a handler of the task is given. -/
def contextOf (task : KernelTask) (ctx : Dict String κ) : TaskContext κ where
  given := ctx
  capability := ex.resolveCapability task
  tools := ex.resolveTools task

/-- The body of the `try`. -/
def attempt (task : KernelTask) (ctx : Dict String κ) : HandlerOutcome ρ :=
  match ex.handlerOf task with
  | some handler => handler task (ex.contextOf task ctx)
  | none =>
    match truthy task.capability with
    | some name => .raises (.keyError name)
    | none => .raises (.keyError "Task has no capability and no __default__ handler")

/-- `run`, after what has been published. -/
def run (task : KernelTask) (ctx : Dict String κ) (published : List (TaskEvent ρ)) : Submission ρ :=
  let unhandled := (truthy task.capability).filter fun name => name ∉ ex.handlers.keys
  match unhandled with
  | some name =>
    let text := "No handler registered for capability " ++ pyRepr name
    { task, published, ended := .raised ⟨.keyError, text⟩ }
  | none =>
    let task := { task with status := .running }
    let published := published ++ [{ type := eventTaskStarted, taskId := task.id }]
    match ex.attempt task ctx with
    | .interrupted => { task, published, ended := .interrupted }
    | .raises failure =>
      let task := { task with status := .failed }
      -- `repr(exc)` is taken for the event, in the `except` clause
      match failure.repr with
      | .error exc => { task, published, ended := .raised exc }
      | .ok text =>
        let failed := { type := eventTaskFailed, taskId := task.id, output := .error text }
        { task, published := published ++ [failed], ended := .raised failure.exc }
    | .returns result =>
      let task := { task with status := .completed }
      let completed := { type := eventTaskCompleted, taskId := task.id, output := .result result }
      { task, published := published ++ [completed], ended := .returned result }

/-- `submit`. -/
def submit (task : KernelTask) (ctx : Dict String κ) : Submission ρ :=
  let task := { task with status := .queued }
  ex.run task ctx [{ type := eventTaskQueued, taskId := task.id }]

end TaskExecutor

namespace Submission

variable {ρ : Type}

/-- An event that ends the task. -/
def terminal (id : String) (e : TaskEvent ρ) : Bool :=
  (e.type = eventTaskCompleted ∨ e.type = eventTaskFailed) ∧ e.taskId = id

/-- What a call that returns, or raises an `Exception`, should leave: a task that has ended, and one
event that says so after the one that says that it was queued. -/
def Closed (id : String) (s : Submission ρ) : Prop :=
  s.ended ≠ .interrupted →
    (s.task.status = .completed ∨ s.task.status = .failed) ∧
      ∃ later, s.published = { type := eventTaskQueued, taskId := id } :: later ∧
        (later.filter (terminal id)).length = 1

end Submission

end Hermes

import Hermes.Lib.Dict
import Hermes.Lib.Flight
import Hermes.Spec.Base
import Mathlib.Data.Rat.Defs
import Hermes.Spec.ResilienceStore

/-!
# Circuits of the resilience engine (`kernel/resilience.py`)

`call_with_circuit` is cut at its `yield`: `enter` before it, `onSuccess` or
`onFailure` after it. A call that is cancelled does neither. Clock readings are in
milliseconds, with their fractions.
-/

namespace Hermes

inductive CircuitState where
  | closed | opened | halfOpen
  deriving DecidableEq, Repr

def CircuitState.value : CircuitState → String
  | .closed => "closed"
  | .opened => "open"
  | .halfOpen => "half_open"

structure CircuitConfig where
  failureThreshold : ℤ := 5
  recoveryTimeoutMs : ℤ := 60000
  halfOpenMaxCalls : ℤ := 1
  deriving DecidableEq, Repr

structure Circuit where
  config : CircuitConfig := {}
  state : CircuitState := .closed
  failureCount : ℤ := 0
  lastFailure : Option ℚ := none
  halfOpenCalls : ℤ := 0
  deriving DecidableEq, Repr

/-- `_maybe_recover`. -/
def Circuit.maybeRecover (c : Circuit) (now : ℚ) : Circuit :=
  match c.state, c.lastFailure with
  | .opened, some t =>
    if (c.config.recoveryTimeoutMs : ℚ) ≤ now - t then { c with state := .halfOpen, halfOpenCalls := 0 }
    else c
  | _, _ => c

/-- `_on_success`. -/
def Circuit.onSuccess (c : Circuit) : Circuit :=
  match c.state with
  | .halfOpen => { c with state := .closed, failureCount := 0, halfOpenCalls := 0 }
  | _ => { c with failureCount := 0 }

/-- `_on_failure`. -/
def Circuit.onFailure (c : Circuit) (now : ℚ) : Circuit :=
  match c.state with
  | .halfOpen => { c with lastFailure := some now, state := .opened, halfOpenCalls := 0 }
  | _ =>
    let c := { c with lastFailure := some now, failureCount := c.failureCount + 1 }
    if c.config.failureThreshold ≤ c.failureCount ∧ c.state = .closed then
      { c with state := .opened }
    else c

/-- A circuit as a gate for the calls of `call_with_circuit`. -/
def Circuit.gate : Flight.Gate Circuit ℚ where
  look now c := c.maybeRecover now
  admits c := match c.state with
    | .closed => true
    | .opened => false
    | .halfOpen => c.halfOpenCalls < c.config.halfOpenMaxCalls
  entered c := match c.state with
    | .halfOpen => { c with halfOpenCalls := c.halfOpenCalls + 1 }
    | _ => c
  leave now how c := match how with
    | .returned => c.onSuccess
    | .raised => c.onFailure now
    | .cancelled => c
  probing c := c.state = .halfOpen

structure Resilience where
  circuits : Dict String Circuit := ∅

namespace Resilience

/-- `CircuitBreakerOpenError(name)`. -/
def openError (name : String) : Exc :=
  ⟨.circuitBreakerOpen, "circuit breaker open: " ++ name⟩

/-- Up to the `yield`: the call is admitted, or refused. -/
def enter (r : Resilience) (name : String) (now : ℚ) : Except Exc Unit × Resilience :=
  let c := ((r.circuits.get? name).getD {}).maybeRecover now
  let put (c : Circuit) : Resilience := { r with circuits := r.circuits.insert name c }
  match c.state with
  | .closed => (.ok (), put c)
  | .opened => (.error (openError name), put c)
  | .halfOpen =>
    if c.config.halfOpenMaxCalls ≤ c.halfOpenCalls then (.error (openError name), put c)
    else (.ok (), put { c with halfOpenCalls := c.halfOpenCalls + 1 })

/-- After the `yield`: the call returned, raised, or was cancelled. -/
def leave {α : Type} (r : Resilience) (name : String) (now : ℚ) (result : Except Exc α) :
    Resilience :=
  let c := (r.circuits.get? name).getD {}
  match result with
  | .ok _ => { r with circuits := r.circuits.insert name c.onSuccess }
  | .error e =>
    if e.kind = .cancelled then r
    else { r with circuits := r.circuits.insert name (c.onFailure now) }

end Resilience

/-!
## Retrying a call (`kernel/resilience.py`, `kernel/resilience_domain.py`)

`ResilienceEngine.retry` over any coroutine and any state that it runs in: what it
emits, journals and sleeps is done by `act`, and other tasks run meanwhile.
-/

/-- A raised exception: the names in its `__mro__`, and its text. -/
structure PyExc where
  mro : List String
  text : String
  deriving DecidableEq, Repr

/-- `type(exc).__name__`. -/
def PyExc.name (e : PyExc) : String := e.mro.headD ""

/-- What `except Exception` catches. -/
def PyExc.isException (e : PyExc) : Bool := "Exception" ∈ e.mro

/-- An instance of a subclass of `RuntimeError`. -/
def runtimeSubclass (name text : String) : PyExc :=
  ⟨[name, "RuntimeError", "Exception", "BaseException", "object"], text⟩

/-- `CircuitBreakerOpenError(circuit_name)`. -/
def circuitBreakerOpenError (name : String) : PyExc :=
  runtimeSubclass "CircuitBreakerOpenError" ("circuit breaker open: " ++ name)

/-- `RetryExhaustedError(task_id, total_attempts, last_error)`. -/
def retryExhaustedError (taskId : Option String) (attempts : ℤ) (lastError : String) : PyExc :=
  runtimeSubclass "RetryExhaustedError" ("retry exhausted after " ++ toString attempts ++ " attempts" ++
    ((truthy taskId).elim "" fun t => " for " ++ t) ++ ": " ++ lastError)

structure ResilienceRetryPolicy where
  maxAttempts : ℤ := 3
  backoffBaseMs : ℤ := 100
  maxBackoffMs : ℤ := 10000
  retryableExceptions : List String := []
  deriving DecidableEq, Repr

namespace ResilienceRetryPolicy

/-- `backoff_for`, in milliseconds. -/
def backoffFor (p : ResilienceRetryPolicy) (attempt : ℕ) : ℤ :=
  let attempt := if attempt < 1 then 1 else attempt
  min (p.backoffBaseMs * 2 ^ (attempt - 1)) p.maxBackoffMs

/-- `is_retryable`. -/
def isRetryable (p : ResilienceRetryPolicy) (e : PyExc) : Bool :=
  p.retryableExceptions = [] ∨ e.mro.any (· ∈ p.retryableExceptions)

end ResilienceRetryPolicy

/-- What `retry` does besides awaiting its coroutine. What is not wired does nothing. -/
inductive RetryEffect where
  | attempted (taskId : String) (attempt : ℕ) (backoffMs : ℤ) (lastError : String)
  | exhausted (taskId : String) (attempts : ℕ) (lastError : String)
  | metric (name : String)
  | putRetry (taskId : String) (attempt : ℕ) (backoffMs : ℤ) (lastError : String)
  | sleep (seconds : ℚ)
  deriving DecidableEq, Repr

section Retry

variable {σ α : Type} (act : RetryEffect → σ → σ) (pol : ResilienceRetryPolicy)
  (taskId : Option String) (tid : String) (body : σ → Except PyExc α × σ)

/-- What is done between an attempt that failed and the next one. -/
def backOff (attempt : ℕ) (lastError : String) (s : σ) : σ :=
  let backoffMs := pol.backoffFor attempt
  let s := act (.attempted tid attempt backoffMs lastError) s
  let s := act (.metric "res.retry_attempted") s
  let s := act (.putRetry tid attempt backoffMs lastError) s
  act (.sleep (backoffMs / 1000)) s

/-- The loop of `retry` from an attempt on, with the attempts that are left. -/
def retryFrom : ℕ → ℕ → String → σ → Except PyExc α × σ
  | _, 0, lastError, s => (.error (retryExhaustedError taskId pol.maxAttempts lastError), s)
  | attempt, left + 1, _, s =>
    match body s with
    | (.ok result, s) => (.ok result, s)
    | (.error e, s) =>
      if e.isException then
        let lastError := e.name ++ ": " ++ e.text
        if pol.isRetryable e = false ∨ pol.maxAttempts ≤ attempt then
          let s := act (.exhausted tid attempt lastError) s
          let s := act (.metric "res.retry_exhausted") s
          (.error (retryExhaustedError taskId attempt lastError), s)
        else retryFrom (attempt + 1) left lastError (backOff act pol tid attempt lastError s)
      else (.error e, s)

/-- `retry`, with the id that it makes up for a call without `task_id`. -/
def retry (policy : Option ResilienceRetryPolicy) (uuid : String) (s : σ) : Except PyExc α × σ :=
  let pol := policy.getD {}
  retryFrom act pol taskId (orElse taskId uuid) body 1 pol.maxAttempts.toNat "" s

end Retry

/-!
## Dead letters of the resilience engine (`kernel/resilience.py`)

An entry is a mutable object that `_dlq` and the replays under way hold by its address;
what is read from the store is a new object. `replay_dead_letter` is cut at the `await`
of its handler: `replayBegin` before it, `replayEnd` after it.
-/

open Flight

/-- The part of a `ResilienceEngine` that its dead letters are in. -/
structure DeadLetters where
  /-- The entry objects, by address. -/
  objects : List ResilienceDeadLetter := []
  dlq : Dict String ℕ := ∅
  store : Option ResilienceStore := none

namespace DeadLetters

variable (py : Stdlib) (d : DeadLetters)

/-- Assign to fields of the object at an address. -/
def assign (a : ℕ) (f : ResilienceDeadLetter → ResilienceDeadLetter) : DeadLetters :=
  { d with objects := d.objects.modify a f }

/-- `self._dlq[entry_id] = entry`. -/
def hold (entryId : String) (a : ℕ) : DeadLetters := { d with dlq := d.dlq.insert entryId a }

/-- `put_dead_letter`, if there is a store. -/
def storePut (entry : ResilienceDeadLetter) : Except Exc Unit × DeadLetters :=
  match d.store with
  | none => (.ok (), d)
  | some s => match s.putDeadLetter py entry with
    | .ok s' => (.ok (), { d with store := some s' })
    | .error e => (.error e, d)

/-- `update_dead_letter_status`, if there is a store. -/
def storeUpdate (entryId status : String) (lastAttempt : Option DateTime) : DeadLetters :=
  { d with store := d.store.map fun s => s.updateDeadLetterStatus entryId status lastAttempt }

/-- `enqueue_dead_letter`. -/
def enqueue (task : Dict String Value) (error : String) (attempts : ℤ) (entryId : String)
    (now : DateTime) : Except Exc ResilienceDeadLetter × DeadLetters :=
  let entry := { entryId, originalTask := task, error, attempts, enqueuedAt := now }
  let d := { d with objects := d.objects ++ [entry], dlq := d.dlq.insert entryId d.objects.length }
  match d.storePut py entry with
  | (.ok (), d) => (.ok entry, d)
  | (.error e, d) => (.error e, d)

/-- `self._dlq.get(entry_id)`, else an object for the entry in the store. -/
def find (entryId : String) : Option (ℕ × DeadLetters) :=
  match d.dlq.get? entryId with
  | some a => some (a, d)
  | none => match d.store.bind (·.getDeadLetter py entryId) with
    | some e => some (d.objects.length, { d with objects := d.objects ++ [e] })
    | none => none

/-- `replay_dead_letter` up to its handler, which is started with the task of the entry. -/
def replayBegin (entryId : String) (now : DateTime) : Except Exc ℕ × DeadLetters :=
  match d.find py entryId with
  | none => (.error ⟨.keyError, "dead-letter entry not found: " ++ entryId⟩, d)
  | some (a, d) => (.ok a, d.assign a fun e => { e with lastAttempt := some now })

/-- `replay_dead_letter` after its handler. -/
def replayEnd (entryId : String) (a : ℕ) (how : Ending) : DeadLetters :=
  match how with
  | .raised =>
    let d := (d.assign a fun e => { e with attempts := e.attempts + 1 }).hold entryId a
    match d.objects[a]? with
    | none => d
    | some entry => ((d.storeUpdate entryId "pending" entry.lastAttempt).storePut py entry).2
  | .returned =>
    let d := (d.assign a fun e => { e with status := "replayed" }).hold entryId a
    match d.objects[a]? with
    | none => d
    | some entry => d.storeUpdate entryId "replayed" entry.lastAttempt
  | .cancelled => d

/-- `discard_dead_letter`. -/
def discard (entryId : String) (now : DateTime) : Bool × DeadLetters :=
  match d.find py entryId with
  | none => (false, d)
  | some (a, d) =>
    let d := (d.assign a fun e => { e with status := "discarded" }).hold entryId a
    (true, d.storeUpdate entryId "discarded" now)

end DeadLetters

/-! ## Interleaved operations -/

/-- What happens to the dead letters: an operation that runs at once, or a replay that begins, or
the `n`-th replay under way that ends. -/
inductive DlqEvent where
  | enqueue (task : Dict String Value) (error : String) (attempts : ℤ) (entryId : String)
      (now : DateTime)
  | replay (entryId : String) (now : DateTime)
  | finish (n : ℕ) (how : Ending)
  | discard (entryId : String) (now : DateTime)

/-- The dead letters, the replays whose handlers are running, and the entries whose handlers
returned so far. -/
structure DlqRun where
  letters : DeadLetters
  running : List (String × ℕ) := []
  succeeded : List String := []

def DlqRun.step (py : Stdlib) (s : DlqRun) : DlqEvent → DlqRun
  | .enqueue task error attempts entryId now =>
    { s with letters := (s.letters.enqueue py task error attempts entryId now).2 }
  | .replay entryId now => match s.letters.replayBegin py entryId now with
    | (.ok a, d) => { s with letters := d, running := s.running ++ [(entryId, a)] }
    | (.error _, d) => { s with letters := d }
  | .finish n how => match s.running[n]? with
    | none => s
    | some (entryId, a) =>
      { letters := s.letters.replayEnd py entryId a how
        running := s.running.eraseIdx n
        succeeded := if how = .returned then s.succeeded ++ [entryId] else s.succeeded }
  | .discard entryId now => { s with letters := (s.letters.discard py entryId now).2 }

end Hermes

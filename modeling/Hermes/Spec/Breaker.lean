import Hermes.Lib.Dict
import Hermes.Lib.Flight
import Hermes.Spec.Base
import Mathlib.Data.Rat.Defs

/-!
# The circuit breaker of the capabilities (`kernel/health.py`, `CircuitBreaker`)

`call` is cut at its `await`: the breaker as a gate before it, `onSuccess` or
`onFailure` after it. A coroutine that is cancelled does neither. The events
published by `_transition` are left out: nothing reads them back.
-/

namespace Hermes

inductive BreakerState where
  | closed | opened | halfOpen
  deriving DecidableEq, Repr

def BreakerState.value : BreakerState → String
  | .closed => "closed"
  | .opened => "open"
  | .halfOpen => "half_open"

structure BreakerPolicy where
  failureThreshold : ℤ := 5
  recoveryTimeoutSeconds : ℚ := 60
  successThreshold : ℤ := 2
  deriving DecidableEq, Repr

/-- `_BreakerState`, with the policy of its breaker. -/
structure Breaker where
  policy : BreakerPolicy := {}
  state : BreakerState := .closed
  failureCount : ℤ := 0
  successCount : ℤ := 0
  openedAt : Option ℚ := none
  halfOpenInflight : Bool := false
  deriving DecidableEq, Repr

namespace Breaker

/-- `_maybe_half_open`. -/
def maybeHalfOpen (b : Breaker) (now : ℚ) : Breaker :=
  match b.state, b.openedAt with
  | .opened, some t =>
    if b.policy.recoveryTimeoutSeconds ≤ now - t then
      { b with state := .halfOpen, successCount := 0, halfOpenInflight := false }
    else b
  | _, _ => b

/-- `_transition`. -/
def transition (b : Breaker) (now : ℚ) : BreakerState → Breaker
  | .opened => { b with state := .opened, openedAt := some now, successCount := 0 }
  | .closed => { b with state := .closed, failureCount := 0, successCount := 0, openedAt := none }
  | .halfOpen => { b with state := .halfOpen }

/-- `_on_success`. -/
def onSuccess (b : Breaker) (now : ℚ) : Breaker :=
  match b.state with
  | .halfOpen =>
    let b := { b with halfOpenInflight := false, successCount := b.successCount + 1 }
    if b.policy.successThreshold ≤ b.successCount then b.transition now .closed else b
  | _ => { b with failureCount := 0 }

/-- `_on_failure`. -/
def onFailure (b : Breaker) (now : ℚ) : Breaker :=
  match b.state with
  | .halfOpen => { b with halfOpenInflight := false }.transition now .opened
  | _ =>
    let b := { b with failureCount := b.failureCount + 1 }
    if b.policy.failureThreshold ≤ b.failureCount then b.transition now .opened else b

/-- A breaker as a gate for the calls of `call`. -/
def gate : Flight.Gate Breaker ℚ where
  look now b := b.maybeHalfOpen now
  admits b := match b.state with
    | .closed => true
    | .opened => false
    | .halfOpen => !b.halfOpenInflight
  entered b := match b.state with
    | .halfOpen => { b with halfOpenInflight := true }
    | _ => b
  leave now how b := match how with
    | .returned => b.onSuccess now
    | .raised => b.onFailure now
    | .cancelled => b
  probing b := b.state = .halfOpen

end Breaker

/-! ## The breaker of all capabilities -/

/-- A `CircuitBreaker`, with a `_BreakerState` for each capability that it was called on. -/
structure CircuitBreaker where
  policy : BreakerPolicy := {}
  states : Dict String Breaker := ∅

namespace CircuitBreaker

variable (cb : CircuitBreaker) (capability : String)

/-- `_get`; the new state is stored by the caller. -/
def getState : Breaker := (cb.states.get? capability).getD { policy := cb.policy }

def put (b : Breaker) : CircuitBreaker := { cb with states := cb.states.insert capability b }

/-- `state`. -/
def state (now : ℚ) : BreakerState × CircuitBreaker :=
  match cb.states.get? capability with
  | none => (.closed, cb)
  | some b => ((b.maybeHalfOpen now).state, cb.put capability (b.maybeHalfOpen now))

/-- `CircuitBreakerOpen(capability)`. -/
def openError : Exc :=
  ⟨.circuitBreakerOpen, "circuit breaker OPEN for capability '" ++ capability ++ "'"⟩

/-- `call` up to its `await`: the coroutine is admitted, or closed. -/
def enter (now : ℚ) : Except Exc Unit × CircuitBreaker :=
  let b := (cb.getState capability).maybeHalfOpen now
  match b.state with
  | .closed => (.ok (), cb.put capability b)
  | .opened => (.error (openError capability), cb.put capability b)
  | .halfOpen =>
    if b.halfOpenInflight then (.error (openError capability), cb.put capability b)
    else (.ok (), cb.put capability { b with halfOpenInflight := true })

/-- `call` after its `await`. -/
def leave {α : Type} (now : ℚ) (result : Except Exc α) : CircuitBreaker :=
  let b := cb.getState capability
  match result with
  | .ok _ => cb.put capability (b.onSuccess now)
  | .error e => if e.kind = .cancelled then cb else cb.put capability (b.onFailure now)

/-- `call` of a coroutine that is awaited from `start` to `finish`. -/
def call {α : Type} (start finish : ℚ) (result : Except Exc α) : Except Exc α × CircuitBreaker :=
  match cb.enter capability start with
  | (.error e, cb) => (.error e, cb)
  | (.ok (), cb) => (result, cb.leave capability finish result)

end CircuitBreaker

end Hermes

import Hermes.Lib.Dict
import Hermes.Lib.Fresh

/-!
# The event bus (`kernel/bus.py`)

The subscriptions, the waiters and the dispatches of an `EventBus`. A dispatch goes from one await of
a handler to the next without anything in between; while a handler is awaited, anything may happen,
and what the handler itself does to the bus is among it. An event stays as it was published. Left out:
logging.
-/

namespace Hermes

/-- A future of `wait_for`. -/
inductive WaitState (ε : Type) where
  | pending
  | resolved (event : ε)
  | timedOut
  | cancelled
  deriving DecidableEq

/-- Where a dispatch is. -/
inductive DispatchPhase (η : Type) where
  | scheduled
  /-- A handler is awaited, and these come after it. -/
  | running (later : List η)
  | done
  | cancelled
  deriving DecidableEq

structure Dispatch (ε η : Type) where
  event : ε
  phase : DispatchPhase η := .scheduled
  deriving DecidableEq

/-- An `EventBus` for events `ε` and handlers `η`. Futures and dispatches are named by their places
among those created; `calls` are the calls of handlers, each by a dispatch. -/
structure EventBus (ε η : Type) where
  subs : Dict String (Dict String η) := ∅
  waiters : List (List String × ℕ) := []
  futures : List (WaitState ε) := []
  dispatches : List (Dispatch ε η) := []
  calls : List (ℕ × η) := []

/-- What may happen. -/
inductive BusStep (ε η : Type) where
  | subscribe (eventType : String) (handler : η)
  | unsubscribe (subscriptionId : String)
  | publish (event : ε)
  | waitFor (eventTypes : List String)
  /-- `_on_timeout` of a future. -/
  | timeout (fut : ℕ)
  /-- The caller of `wait_for` cancels the future. -/
  | cancelFuture (fut : ℕ)
  /-- A dispatch begins. -/
  | start (dispatch : ℕ)
  /-- The handler that a dispatch awaits returns, or raises an `Exception`. -/
  | finish (dispatch : ℕ) (raised : Bool)
  /-- A dispatch is cancelled, or its handler raises what is no `Exception`. -/
  | abort (dispatch : ℕ)
  /-- `clear`, or `close`. -/
  | clear

namespace EventBus

variable {ε η : Type} (ids : IdSource String) (typeOf : ε → String)

/-- The subscription ids in use. -/
def subscriptionIds (s : EventBus ε η) : List String := s.subs.values.flatMap Dict.keys

def subscribe (s : EventBus ε η) (eventType : String) (handler : η) : EventBus ε η :=
  let subId := ids.next s.subscriptionIds
  let handlers := (s.subs.get? eventType).getD ∅
  { s with subs := s.subs.insert eventType (handlers.insert subId handler) }

def unsubscribe (s : EventBus ε η) (subscriptionId : String) : EventBus ε η :=
  match s.subs.entries.find? fun kv => (kv.2.get? subscriptionId).isSome with
  | some (eventType, handlers) =>
    { s with subs := s.subs.insert eventType (handlers.erase subscriptionId) }
  | none => s

/-- The handlers that are subscribed to a type. -/
def handlersOf (s : EventBus ε η) (eventType : String) : List η :=
  ((s.subs.get? eventType).getD ∅).values

/-- The loop of `_dispatch` over the waiters: those that still wait, and the futures. -/
def resolveWaiters (event : ε) :
    List (List String × ℕ) → List (WaitState ε) → List (List String × ℕ) × List (WaitState ε)
  | [], futures => ([], futures)
  | (types, fut) :: waiters, futures =>
    match futures[fut]? with
    | some .pending =>
      if typeOf event ∈ types then resolveWaiters event waiters (futures.set fut (.resolved event))
      else
        let (stillWaiting, futures) := resolveWaiters event waiters futures
        ((types, fut) :: stillWaiting, futures)
    | _ => resolveWaiters event waiters futures

/-- A dispatch calls its next handler, or resolves the waiters and ends. -/
def advance (s : EventBus ε η) (d : ℕ) (event : ε) : List η → EventBus ε η
  | [] =>
    let (stillWaiting, futures) := resolveWaiters typeOf event s.waiters s.futures
    { s with
      waiters := stillWaiting
      futures
      dispatches := s.dispatches.set d { event, phase := .done } }
  | handler :: later =>
    { s with
      calls := s.calls ++ [(d, handler)]
      dispatches := s.dispatches.set d { event, phase := .running later } }

/-- `fut.cancel()`, and what `_on_timeout` does: a future that is done stays as it is. -/
def settle (s : EventBus ε η) (fut : ℕ) (state : WaitState ε) : EventBus ε η :=
  match s.futures[fut]? with
  | some .pending => { s with futures := s.futures.set fut state }
  | _ => s

/-- One step. What cannot happen changes nothing. -/
def step (s : EventBus ε η) : BusStep ε η → EventBus ε η
  | .subscribe eventType handler => s.subscribe ids eventType handler
  | .unsubscribe subscriptionId => s.unsubscribe subscriptionId
  | .publish event => { s with dispatches := s.dispatches ++ [{ event }] }
  | .waitFor types =>
    { s with
      waiters := s.waiters ++ [(types, s.futures.length)]
      futures := s.futures ++ [.pending] }
  | .timeout fut => s.settle fut .timedOut
  | .cancelFuture fut => s.settle fut .cancelled
  | .start d => match s.dispatches[d]? with
    | some { event, phase := .scheduled } => s.advance typeOf d event (s.handlersOf (typeOf event))
    | _ => s
  | .finish d _ => match s.dispatches[d]? with
    | some { event, phase := .running later } => s.advance typeOf d event later
    | _ => s
  | .abort d => match s.dispatches[d]? with
    | some { event, phase := .scheduled } | some { event, phase := .running _ } =>
      { s with dispatches := s.dispatches.set d { event, phase := .cancelled } }
    | _ => s
  | .clear =>
    let s := s.waiters.foldl (fun s waiter => s.settle waiter.2 .cancelled) s
    { s with subs := ∅, waiters := [] }

end EventBus

end Hermes

import Hermes.Spec.EventBus
import Hermes.Spec.EventStore

/-!
# The event platform (`kernel/events.py`, `kernel/bus.py`)

A `CommandBus` with its store and its bus. Its `publish_event` appends to the journal and publishes
in one go. A read model that is started folds the journal, subscribes to the types that it is about,
and folds what the bus calls it with. Left out: `send` and the `QueryBus`, which look up a handler
and await it.
-/

namespace Hermes

/-- The store and the bus of a `CommandBus`. -/
structure EventPlatform (π τ η : Type) where
  store : EventStore π τ := {}
  bus : EventBus (DomainEvent π τ) η := {}

/-- What may happen. Others append to the store and use the bus as well. -/
inductive PlatformStep (π τ η : Type) where
  | publishEvent (event : DomainEvent π τ)
  | append (a : Appended π τ)
  | bus (b : BusStep (DomainEvent π τ) η)

namespace EventPlatform

variable {π τ η : Type} (codec : EventCodec π τ) (ids : IdSource String)

/-- A step of the bus. -/
def busStep (s : EventPlatform π τ η) (b : BusStep (DomainEvent π τ) η) : EventPlatform π τ η :=
  { s with bus := s.bus.step ids DomainEvent.type b }

/-- `publish_event`: nothing is published when `append` raises. -/
def publishEvent (event : DomainEvent π τ) (s : EventPlatform π τ η) :
    Except AppendError Unit × EventPlatform π τ η :=
  match s.store.append codec (.event event) with
  | (.error err, store) => (.error err, { s with store })
  | (.ok _, store) => (.ok (), busStep ids { s with store } (.publish event))

def step (s : EventPlatform π τ η) : PlatformStep π τ η → EventPlatform π τ η
  | .publishEvent event => (s.publishEvent codec ids event).2
  | .append a => { s with store := s.store.step codec a }
  | .bus b => s.busStep ids b

/-! ## Read models -/

/-- The handler of a read model is subscribed to its types. -/
def subscribeAll (types : List String) (h : η) (s : EventPlatform π τ η) : EventPlatform π τ η :=
  types.foldl (fun s eventType => s.busStep ids (.subscribe eventType h)) s

/-- The events of these types in the journal, which a read model that is started folds. -/
def journal (types : List String) (s : EventPlatform π τ η) : List (DomainEvent π τ) :=
  s.store.events.filter fun e => e.type ∈ types

/-- The event of a dispatch. -/
def eventAt (s : EventPlatform π τ η) (d : ℕ) : Option (DomainEvent π τ) :=
  (s.bus.dispatches[d]?).map Dispatch.event

/-- The events that a handler was called with. -/
def handled [DecidableEq η] (h : η) (s : EventPlatform π τ η) : List (DomainEvent π τ) :=
  ((s.bus.calls.filter fun call => call.2 = h).map Prod.fst).filterMap s.eventAt

/-- The events of these types that were published and whose dispatch has not begun. -/
def inFlight (types : List String) (s : EventPlatform π τ η) : List (DomainEvent π τ) :=
  s.bus.dispatches.filterMap fun x => match x with
    | { event, phase := .scheduled } => if event.type ∈ types then some event else none
    | _ => none

end EventPlatform

end Hermes

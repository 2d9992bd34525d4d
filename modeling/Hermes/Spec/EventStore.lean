import Hermes.Lib.Index
import Hermes.Lib.History

/-!
# The event store (`kernel/events.py`)

The journal in memory and the table `events`, which `append` writes one after the other. What the
store opens is any database in which nobody else writes; its rows are not read back.
-/

namespace Hermes

/-- A `DomainEvent`: the fields that the store reads. -/
structure DomainEvent (π τ : Type) where
  id : String
  aggregateId : String := ""
  type : String
  payload : π
  timestamp : τ
  version : ℤ := 1
  deriving DecidableEq

/-- A row of the table. -/
structure EventRow where
  id : String
  aggregateId : String
  eventType : String
  payloadJson : String
  timestamp : String
  version : ℤ
  deriving DecidableEq

/-- What `append` raises. -/
inductive AppendError where
  | typeError (text : String)
  /-- `json.dumps` raises. -/
  | notSerializable (text : String)
  /-- The version is no 64-bit integer. -/
  | overflowError
  /-- The id is in the table. -/
  | integrityError
  deriving DecidableEq

/-- What the store is given to append. -/
inductive Appended (π τ : Type) where
  | event (e : DomainEvent π τ)
  /-- Something else, of that type. -/
  | other (typeName : String)

namespace Appended

variable {π τ : Type}

def event? : Appended π τ → Option (DomainEvent π τ)
  | .event e => some e
  | .other _ => none

end Appended

/-- How an event is written into its row: `json.dumps`, or its error, and `isoformat`. -/
structure EventCodec (π τ : Type) where
  dumps : π → Except String String
  isoformat : τ → String

/-- The integers that SQLite takes. -/
def sqliteInteger (n : ℤ) : Prop := -2 ^ 63 ≤ n ∧ n < 2 ^ 63

instance (n : ℤ) : Decidable (sqliteInteger n) :=
  inferInstanceAs (Decidable (_ ∧ _))

namespace EventCodec

variable {π τ : Type} (codec : EventCodec π τ)

/-- The parameters of the `INSERT`, as SQLite takes them. -/
def row (e : DomainEvent π τ) : Except AppendError EventRow :=
  match codec.dumps e.payload with
  | .error text => .error (.notSerializable text)
  | .ok json =>
    if sqliteInteger e.version then
      .ok
        { id := e.id
          aggregateId := e.aggregateId
          eventType := e.type
          payloadJson := json
          timestamp := codec.isoformat e.timestamp
          version := e.version }
    else .error .overflowError

end EventCodec

/-- An `EventStore`: `_events`, and the table `events` if the store has a database. -/
structure EventStore (π τ : Type) where
  events : List (DomainEvent π τ) := []
  db : Option (Index EventRow.id) := none

namespace EventStore

variable {π τ : Type} (codec : EventCodec π τ)

/-- `EventStore(sqlite_path)`, for a database with that table. -/
def onDatabase (table : Index EventRow.id) : EventStore π τ where
  db := some table

/-- `append`: what it raises, and the store after it. -/
def append (s : EventStore π τ) : Appended π τ → Except AppendError Unit × EventStore π τ
  | .other typeName =>
    (.error (.typeError ("EventStore.append expects DomainEvent, got " ++ typeName)), s)
  | .event e =>
    let s := { s with events := s.events ++ [e] }
    match s.db with
    | none => (.ok (), s)
    | some table =>
      match codec.row e with
      | .error err => (.error err, s)
      | .ok row =>
        if (table.get? row.id).isSome then (.error .integrityError, s)
        else (.ok (), { s with db := some (table.put row) })

/-- A call of `append`, whatever it raises. -/
def step (s : EventStore π τ) (a : Appended π τ) : EventStore π τ := (s.append codec a).2

/-- `read_stream`. -/
def readStream (s : EventStore π τ) (aggregateId : String) : List (DomainEvent π τ) :=
  s.events.filter fun e => e.aggregateId = aggregateId

/-- `read_all`. -/
def readAll [LE τ] [DecidableLE τ] (s : EventStore π τ) : Option τ → List (DomainEvent π τ)
  | none => s.events
  | some since => s.events.filter fun e => since ≤ e.timestamp

def count (s : EventStore π τ) : ℕ := s.events.length

/-- The journal and the table hold the same events in the same order. -/
def Agrees (s : EventStore π τ) : Prop :=
  ∀ table, s.db = some table →
    List.Forall₂ (fun e row => codec.row e = .ok row) s.events table.values

/-- What a call of `append` should do: the journals agree after it, and if it raises, both are as
they were. -/
def Atomic (s : EventStore π τ) (a : Appended π τ) : Prop :=
  (s.step codec a).Agrees codec ∧
    ∀ err, (s.append codec a).1 = .error err → s.step codec a = s

end EventStore

end Hermes

import Hermes.Lib.Dict
import Hermes.Spec.Base

/-!
# The resilience store (`kernel/resilience_store.py`)

Circuits, retries and dead letters, in memory or in SQLite. A SQLite table with a
primary key is a `Dict`: its rows by key, in the order of their `rowid`. An upsert
or an update of a row leaves it in its place.
-/

namespace Hermes

/-! ## Data -/

/-- A datetime by its `isoformat()`, which `datetime.fromisoformat` reads back. -/
structure DateTime where
  iso : String
  nonempty : iso ≠ ""
  deriving DecidableEq, Repr

/-- `_parse_dt`. -/
def parseDt : Option String → Option DateTime
  | some s => if h : s = "" then none else some ⟨s, h⟩
  | none => none

/-- `ResilienceDeadLetterEntry`, with all its fields. -/
structure ResilienceDeadLetter where
  entryId : String
  originalTask : Dict String Value
  error : String
  attempts : ℤ := 0
  enqueuedAt : DateTime
  lastAttempt : Option DateTime := none
  status : String := "pending"

structure CircuitRow where
  name : String
  state : String
  failureCount : ℤ
  lastFailure : Option String
  configJson : String
  deriving DecidableEq, Repr

/-- A row of the retry journal, without its surrogate id. -/
structure RetryRow where
  taskId : String
  attempt : ℤ
  backoffMs : ℤ
  error : String
  timestamp : String
  deriving DecidableEq, Repr

structure DeadLetterRow where
  entryId : String
  originalTaskJson : String
  error : String
  attempts : ℤ
  enqueuedAt : String
  lastAttempt : Option String
  status : String
  deriving DecidableEq, Repr

/-- What the store uses of the standard library: `json.dumps` and `json.loads` on tasks, and
`datetime.now(timezone.utc)` for a row without a readable `enqueued_at`. -/
structure Stdlib where
  dumps : Dict String Value → String
  loads : String → Dict String Value
  now : DateTime

/-! ## Calls -/

inductive StoreCall where
  | putCircuit (name state : String) (failureCount : ℤ) (lastFailure : Option DateTime)
      (configJson : String)
  | getCircuit (name : String)
  | putRetry (taskId : String) (attempt backoffMs : ℤ) (error : String) (timestamp : DateTime)
  | listRetries (taskId : Option String)
  | putDeadLetter (entry : ResilienceDeadLetter)
  | getDeadLetter (entryId : String)
  | updateDeadLetterStatus (entryId status : String) (lastAttempt : Option DateTime)
  | listDeadLetter (status : Option String)

inductive StoreReply where
  | done
  | raised (e : Exc)
  | circuit (row : Option CircuitRow)
  | retries (rows : List RetryRow)
  | deadLetter (entry : Option ResilienceDeadLetter)
  | deadLetters (entries : List ResilienceDeadLetter)
  | updated (found : Bool)

/-- `status is None or e.status == status`. -/
def wanted (status : Option String) (s : String) : Bool :=
  match status with
  | some t => s = t
  | none => true

/-! ## In memory -/

structure MemoryStore where
  circuits : Dict String CircuitRow := ∅
  retries : List RetryRow := []
  deadLetter : Dict String ResilienceDeadLetter := ∅

namespace MemoryStore

variable (s : MemoryStore)

def putDeadLetter (entry : ResilienceDeadLetter) : MemoryStore :=
  { s with deadLetter := s.deadLetter.insert entry.entryId entry }

def getDeadLetter (entryId : String) : Option ResilienceDeadLetter := s.deadLetter.get? entryId

def listDeadLetter (status : Option String) : List ResilienceDeadLetter :=
  s.deadLetter.values.filter fun e => wanted status e.status

def updateDeadLetterStatus (entryId status : String) (lastAttempt : Option DateTime) :
    Bool × MemoryStore :=
  match s.deadLetter.get? entryId with
  | none => (false, s)
  | some e =>
    let e := { e with status, lastAttempt := lastAttempt.or e.lastAttempt }
    (true, { s with deadLetter := s.deadLetter.insert entryId e })

def call : StoreCall → StoreReply × MemoryStore
  | .putCircuit name state failureCount lastFailure configJson =>
    let row := ⟨name, state, failureCount, lastFailure.map (·.iso), configJson⟩
    (.done, { s with circuits := s.circuits.insert name row })
  | .getCircuit name => (.circuit (s.circuits.get? name), s)
  | .putRetry taskId attempt backoffMs error timestamp =>
    (.done, { s with retries := s.retries ++ [⟨taskId, attempt, backoffMs, error, timestamp.iso⟩] })
  | .listRetries taskId => (.retries (s.retries.filter fun r => wanted taskId r.taskId), s)
  | .putDeadLetter entry => (.done, s.putDeadLetter entry)
  | .getDeadLetter entryId => (.deadLetter (s.getDeadLetter entryId), s)
  | .updateDeadLetterStatus entryId status lastAttempt =>
    let (found, s') := s.updateDeadLetterStatus entryId status lastAttempt
    (.updated found, s')
  | .listDeadLetter status => (.deadLetters (s.listDeadLetter status), s)

end MemoryStore

/-! ## In SQLite -/

/-- An integer that `sqlite3` binds: 64 bits, signed. -/
def fits (n : ℤ) : Bool := -2 ^ 63 ≤ n ∧ n < 2 ^ 63

/-- What binding any other integer raises. -/
def overflowError : Exc := ⟨.other, "Python int too large to convert to SQLite INTEGER"⟩

/-- `ORDER BY` a text column: rows with equal texts stay in the order of the scan. -/
def orderBy {α : Type} (key : α → String) (rows : List α) : List α :=
  rows.mergeSort fun a b => key a ≤ key b

structure SqliteStore where
  circuits : Dict String CircuitRow := ∅
  /-- Rows by their `AUTOINCREMENT` id. -/
  retries : List (ℕ × RetryRow) := []
  nextId : ℕ := 1
  deadLetter : Dict String DeadLetterRow := ∅

namespace SqliteStore

variable (py : Stdlib) (s : SqliteStore)

/-- `_row_to_dle`. -/
def rowToDle (row : DeadLetterRow) : ResilienceDeadLetter where
  entryId := row.entryId
  originalTask := py.loads row.originalTaskJson
  error := row.error
  attempts := row.attempts
  enqueuedAt := (parseDt (some row.enqueuedAt)).getD py.now
  lastAttempt := parseDt row.lastAttempt
  status := row.status

/-- The values that `put_dead_letter` inserts. -/
def rowOf (entry : ResilienceDeadLetter) : DeadLetterRow where
  entryId := entry.entryId
  originalTaskJson := py.dumps entry.originalTask
  error := entry.error
  attempts := entry.attempts
  enqueuedAt := entry.enqueuedAt.iso
  lastAttempt := entry.lastAttempt.map (·.iso)
  status := entry.status

/-- `ON CONFLICT(entry_id) DO UPDATE SET` four of the columns. -/
def putDeadLetter (entry : ResilienceDeadLetter) : Except Exc SqliteStore :=
  let new := rowOf py entry
  let row := match s.deadLetter.get? entry.entryId with
    | none => new
    | some old => { old with error := new.error, attempts := new.attempts
                             lastAttempt := new.lastAttempt, status := new.status }
  if fits entry.attempts then .ok { s with deadLetter := s.deadLetter.insert entry.entryId row }
  else .error overflowError

def getDeadLetter (entryId : String) : Option ResilienceDeadLetter :=
  (s.deadLetter.get? entryId).map (rowToDle py)

def listDeadLetter (status : Option String) : List ResilienceDeadLetter :=
  let rows := s.deadLetter.values.filter fun r => wanted status r.status
  (orderBy (·.enqueuedAt) rows).map (rowToDle py)

/-- `SET status = ?, last_attempt = COALESCE(?, last_attempt)`. -/
def updateDeadLetterStatus (entryId status : String) (lastAttempt : Option DateTime) :
    Bool × SqliteStore :=
  match s.deadLetter.get? entryId with
  | none => (false, s)
  | some r =>
    let r := { r with status, lastAttempt := (lastAttempt.map (·.iso)).or r.lastAttempt }
    (true, { s with deadLetter := s.deadLetter.insert entryId r })

def call : StoreCall → StoreReply × SqliteStore
  | .putCircuit name state failureCount lastFailure configJson =>
    let row := ⟨name, state, failureCount, lastFailure.map (·.iso), configJson⟩
    if fits failureCount then (.done, { s with circuits := s.circuits.insert name row })
    else (.raised overflowError, s)
  | .getCircuit name => (.circuit (s.circuits.get? name), s)
  | .putRetry taskId attempt backoffMs error timestamp =>
    let row := ⟨taskId, attempt, backoffMs, error, timestamp.iso⟩
    if fits attempt ∧ fits backoffMs then
      (.done, { s with retries := s.retries ++ [(s.nextId, row)], nextId := s.nextId + 1 })
    else (.raised overflowError, s)
  | .listRetries taskId =>
    let rows := s.retries.filter fun r => wanted taskId r.2.taskId
    (.retries ((rows.mergeSort fun a b => a.1 ≤ b.1).map Prod.snd), s)
  | .putDeadLetter entry =>
    match s.putDeadLetter py entry with
    | .ok s' => (.done, s')
    | .error e => (.raised e, s)
  | .getDeadLetter entryId => (.deadLetter (s.getDeadLetter py entryId), s)
  | .updateDeadLetterStatus entryId status lastAttempt =>
    let (found, s') := s.updateDeadLetterStatus entryId status lastAttempt
    (.updated found, s')
  | .listDeadLetter status => (.deadLetters (s.listDeadLetter py status), s)

end SqliteStore

/-- A `ResilienceStore`, by whether it was given a `db_path`. -/
inductive ResilienceStore where
  | memory (s : MemoryStore)
  | sqlite (s : SqliteStore)

namespace ResilienceStore

variable (py : Stdlib)

def putDeadLetter (entry : ResilienceDeadLetter) : ResilienceStore → Except Exc ResilienceStore
  | .memory s => .ok (.memory (s.putDeadLetter entry))
  | .sqlite s => (s.putDeadLetter py entry).map .sqlite

def getDeadLetter (entryId : String) : ResilienceStore → Option ResilienceDeadLetter
  | .memory s => s.getDeadLetter entryId
  | .sqlite s => s.getDeadLetter py entryId

def updateDeadLetterStatus (entryId status : String) (lastAttempt : Option DateTime) :
    ResilienceStore → ResilienceStore
  | .memory s => .memory (s.updateDeadLetterStatus entryId status lastAttempt).2
  | .sqlite s => .sqlite (s.updateDeadLetterStatus entryId status lastAttempt).2

end ResilienceStore

end Hermes

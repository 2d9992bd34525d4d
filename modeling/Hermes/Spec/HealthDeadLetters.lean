import Mathlib.Data.List.Basic
import Hermes.Spec.Base

/-!
# The dead-letter queue (`DeadLetterQueue`, `on_dead_letter` of `kernel/health.py`)

Entries are mutable objects, held by their addresses. A call of `replay` is cut at the awaits of its
handler and of `recover`, whose event a store takes; calls overlap in any way. Times are of any type.
Left out: `list` and `count`.
-/

namespace Hermes

namespace DeadLetterQueue

/-- A `DeadLetterEntry`: the fields that are read. -/
structure Entry (τ : Type) where
  entryId : String
  componentId : String
  entryType : String := "task"
  retryCount : ℤ := 0
  maxRetries : ℤ := 3
  recoveredAt : Option τ := none

/-- What `on_dead_letter` decides. -/
inductive Fate where
  | retry | escalate | archive
  deriving DecidableEq, Repr

/-- `RecoveryEngine.on_dead_letter`. -/
def Entry.onDeadLetter {τ : Type} (entry : Entry τ) : Fate :=
  if entry.recoveredAt.isSome then .archive
  else if entry.retryCount < entry.maxRetries then .retry
  else .escalate

/-- The events of the queue. -/
inductive Emitted where
  | deadLetterAppended (entryId componentId entryType : String) (retryCount : ℤ)
  | deadLetterRecovered (entryId componentId : String)
  deriving DecidableEq, Repr

/-- Where a replay is. -/
inductive Phase where
  /-- `await handler(entry)`, for the entry at `a`; there were `begun` moves before the call. -/
  | handling (a begun : ℕ)
  /-- `await self.recover(entry.entry_id)`, when the entry has been marked. -/
  | recovering
  | over
  deriving DecidableEq, Repr

/-- A call of `replay`. -/
structure Replay where
  componentId : String
  /-- What is left of its copy of the entries. -/
  remaining : List ℕ
  phase : Phase := .over
  recovered : ℕ := 0
  deriving DecidableEq, Repr

/-- What happens at the handlers: one is called with an entry, or returns `True` for it. -/
inductive Move where
  | called (a : ℕ)
  | handled (a : ℕ)
  deriving DecidableEq, Repr

/-- How a call of a handler ends. A replay that is cancelled ends as one whose handler raises. -/
inductive HandlerEnding where
  | returned (ok : Bool)
  | raised
  deriving DecidableEq, Repr

/-- What happens: an entry is made, one is appended, a call of `recover` or of `replay` begins, or the
`n`-th replay goes on. -/
inductive Step (τ : Type) where
  | create (entry : Entry τ)
  | append (a : ℕ)
  | recover (entryId : String) (now : τ)
  | replay (componentId : String)
  | handlerEnds (n : ℕ) (how : HandlerEnding) (now : τ)
  /-- The event of `recover` is taken, or taking it raises. -/
  | recoverEnds (n : ℕ) (taken : Bool)

end DeadLetterQueue

open DeadLetterQueue

/-- A `DeadLetterQueue` with its replays. -/
structure DeadLetterQueue (τ : Type) where
  /-- The entry objects, by address. -/
  objects : List (Entry τ) := []
  entries : List ℕ := []
  emitted : List Emitted := []
  replays : List Replay := []
  moves : List Move := []

namespace DeadLetterQueue

variable {τ : Type} (q : DeadLetterQueue τ)

/-- The id of the entry at an address. -/
def idAt (a : ℕ) : Option String := q.objects[a]?.map Entry.entryId

/-- `append`. -/
def append (a : ℕ) : DeadLetterQueue τ :=
  match q.objects[a]? with
  | none => q
  | some e =>
    { q with
      entries := q.entries ++ [a]
      emitted := q.emitted ++
        [.deadLetterAppended e.entryId e.componentId e.entryType e.retryCount] }

/-- `get`. -/
def get (entryId : String) : Option ℕ := q.entries.find? fun a => q.idAt a = some entryId

/-- `recover`, with what it returns. -/
def recover (entryId : String) (now : τ) : Option ℕ × DeadLetterQueue τ :=
  match q.get entryId with
  | none => (none, q)
  | some a =>
    (some a,
      { q with
        objects := q.objects.modify a fun e => { e with recoveredAt := some now }
        emitted := q.emitted ++
          (q.objects[a]?.map fun e => .deadLetterRecovered e.entryId e.componentId).toList })

/-- `replay` does not call its handler with the entry at an address. -/
def skips (componentId : String) (a : ℕ) : Bool :=
  match q.objects[a]? with
  | none => true
  | some e => e.componentId ≠ componentId || e.recoveredAt.isSome

/-- The entry that the loop of `replay` comes to next, and what is left after it. -/
def reach (componentId : String) : List ℕ → Option (ℕ × List ℕ)
  | [] => none
  | a :: rest => if q.skips componentId a then reach componentId rest else some (a, rest)

/-- A replay goes on to its next entry: the replay there, and the call that it makes. -/
def goOn (r : Replay) : Replay × List Move :=
  match q.reach r.componentId r.remaining with
  | none => ({ r with remaining := [], phase := .over }, [])
  | some (a, rest) =>
    ({ r with remaining := rest, phase := .handling a q.moves.length }, [.called a])

/-- The `n`-th replay is `r` now. -/
def set (n : ℕ) (r : Replay) : DeadLetterQueue τ := { q with replays := q.replays.set n r }

/-- The `n`-th replay goes on. -/
def proceed (n : ℕ) (r : Replay) : DeadLetterQueue τ :=
  let (r, made) := q.goOn r
  { q with replays := q.replays.set n r, moves := q.moves ++ made }

/-- `replay` up to its first await. -/
def replay (componentId : String) : DeadLetterQueue τ :=
  let (r, made) := q.goOn { componentId, remaining := q.entries }
  { q with replays := q.replays ++ [r], moves := q.moves ++ made }

/-- A handler returns `True` for the entry at an address, which is recovered by its id. -/
def succeed (n : ℕ) (r : Replay) (a : ℕ) (now : τ) : DeadLetterQueue τ :=
  let q : DeadLetterQueue τ := { q with moves := q.moves ++ [.handled a] }
  let q := match q.idAt a with
    | some entryId => (q.recover entryId now).2
    | none => q
  q.set n { r with phase := .recovering }

def step (q : DeadLetterQueue τ) : Step τ → DeadLetterQueue τ
  | .create entry => { q with objects := q.objects ++ [entry] }
  | .append a => q.append a
  | .recover entryId now => (q.recover entryId now).2
  | .replay componentId => q.replay componentId
  | .handlerEnds n how now =>
    match q.replays[n]? with
    | none => q
    | some r =>
      match r.phase, how with
      | .handling a _, .returned true => q.succeed n r a now
      | .handling _ _, .returned false => q.proceed n r
      | .handling _ _, .raised => q.set n { r with phase := .over }
      | _, _ => q
  | .recoverEnds n taken =>
    match q.replays[n]? with
    | none => q
    | some r =>
      match r.phase, taken with
      | .recovering, true => q.proceed n { r with recovered := r.recovered + 1 }
      | .recovering, false => q.set n { r with phase := .over }
      | _, _ => q

/-- For each entry, a handler returns `True` at most once, and none is called with it after that. -/
structure HandledOnce : Prop where
  returnsOnce : ∀ a, q.moves.count (.handled a) ≤ 1
  notAgain : ∀ before a after, q.moves = before ++ .called a :: after → .handled a ∉ before

/-- An entry for which a handler has returned `True` stands behind another of the same id. -/
def Shadowed (a : ℕ) : Prop :=
  Move.handled a ∈ q.moves ∧ ∀ entryId ∈ q.idAt a, q.get entryId ≠ some a

instance (a : ℕ) : Decidable (q.Shadowed a) := by
  unfold Shadowed
  exact inferInstance

/-- A replay that goes on does not come to a shadowed entry. -/
def Clear (componentId : String) (remaining : List ℕ) : Prop :=
  ∀ next ∈ q.reach componentId remaining, ¬ q.Shadowed next.1

instance (componentId : String) (remaining : List ℕ) : Decidable (q.Clear componentId remaining) := by
  unfold Clear
  exact inferInstance

/-- No two calls of handlers with one entry overlap and both return `True`, and no replay comes to a
shadowed entry. -/
def Unrepeated (q : DeadLetterQueue τ) : Step τ → Prop
  | .replay componentId => q.Clear componentId q.entries
  | .handlerEnds n how _ => ∀ r ∈ q.replays[n]?,
    match r.phase, how with
    | .handling a begun, .returned true => .handled a ∉ q.moves.drop begun
    | .handling _ _, .returned false => q.Clear r.componentId r.remaining
    | _, _ => True
  | .recoverEnds n taken => ∀ r ∈ q.replays[n]?,
    r.phase = .recovering → taken = true → q.Clear r.componentId r.remaining
  | _ => True

end DeadLetterQueue

end Hermes

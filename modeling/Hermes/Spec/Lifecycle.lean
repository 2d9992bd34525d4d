import Hermes.Lib.History
import Hermes.Spec.Workflow

/-!
# The life of an instance

What the engine is allowed to do to an instance, read off its trace: an abstract
machine on the actions, with a cursor, a status and counted attempts, and a mode
that says where in `execute_step` the engine stands.

* `lifeOf`: the state that a trace leaves an instance in.
* `Allowed`: which actions may come next.
-/

namespace Hermes

/-- Where the engine stands with an instance: outside `execute_step`, in it, at a gate,
between the pause and its announcement, between an approval or a rejection and what
follows from it, rolling back, or past the last action of a pass. -/
inductive Mode where
  | idle | active | gate | announce | approved | rejected | rollback | done
  deriving DecidableEq, Repr

structure Life where
  workflow : Workflow
  status : WorkflowStatus := .running
  current : Option String
  attempts : String → ℕ := fun _ => 0
  mode : Mode := .idle

/-- The step that the cursor is on. -/
def Life.step (l : Life) : Option WorkflowStep := l.current.bind (stepById l.workflow.steps)

/-- A step with this id stops at the approval gate. -/
def Workflow.gated (wf : Workflow) (k : String) : Bool :=
  match stepById wf.steps k with
  | some step => step.requiresApproval
  | none => false

/-- The mode that a new status leads to. -/
def modeAfter : WorkflowStatus → Mode
  | .paused => .announce
  | .compensating => .rollback
  | _ => .idle

/-- What an action does to the life of `i`. -/
def Life.apply (i : String) (l : Option Life) : Action → Option Life
  | .start j wf => if j = i then some { workflow := wf, current := wf.steps.head?.map (·.id) } else l
  | .enter j => if j = i then l.map ({ · with mode := .active }) else l
  | .leave j => if j = i then l.map ({ · with mode := .idle }) else l
  | .attempt j k n =>
    if j = i then l.map fun l =>
      { l with
        attempts := Function.update l.attempts k n
        mode := if l.workflow.gated k ∧ n = 1 then .gate else .active }
    else l
  | .advance j next => if j = i then l.map ({ · with current := next, mode := .done }) else l
  | .status j s => if j = i then l.map ({ · with status := s, mode := modeAfter s }) else l
  | .approve j _ ok =>
    if j = i then l.map ({ · with mode := if ok then .approved else .rejected }) else l
  | .event (.stepAwaitingApproval j _ _) => if j = i then l.map ({ · with mode := .idle }) else l
  | _ => l

def lifeOf (h : List Action) (i : String) : Option Life := h.foldl (Life.apply i) none

/-- `P` holds of the life of `i`. -/
def Living (h : List Action) (i : String) (P : Life → Prop) : Prop :=
  ∃ l, lifeOf h i = some l ∧ P l

/-- The status changes that the engine makes. -/
def Life.mayBecome (l : Life) : WorkflowStatus → Prop
  | .running => l.mode = .approved
  | .paused => l.mode = .gate
  | .completed => l.step = none ∧ (l.mode = .active ∨ l.mode = .done)
  | .compensating => (l.mode = .active ∧ l.step ≠ none) ∨ l.mode = .rejected
  | .failed => (l.mode = .active ∧ l.step ≠ none) ∨ l.mode = .rejected ∨ l.mode = .rollback
  | _ => False

/-- A body may be called: forward in a pass over the current step, past its gate, or as a
compensation in a rollback. -/
def Life.mayCall (l : Life) (c : BodyCall) : Prop :=
  match c.kind with
  | .forward => l.mode = .active ∧ l.step = some c.step ∧
      (c.step.requiresApproval → 2 ≤ l.attempts c.step.id)
  | .compensation => l.mode = .rollback

/-- A step of `i` has failed for good: its retries were used up, its sandbox was breached,
or its approval was rejected. -/
def Action.isFailure (i : String) : Action → Bool
  | .event (.stalled j _ _) => j = i
  | .event (.sandboxViolation j _) => j = i
  | .approve j _ ok => j = i ∧ ok = false
  | _ => false

/-- **What the engine does next** after the history `h`. -/
def Allowed (h : List Action) : Action → Prop
  | .start i _ => lifeOf h i = none
  | .enter i => Living h i fun l => l.mode = .idle
  | .leave i => Living h i fun l => l.mode = .idle ∨ l.mode = .active ∨ l.mode = .done
  | .attempt i k n => Living h i fun l =>
      l.mode = .active ∧ l.current = some k ∧ l.step ≠ none ∧ n = l.attempts k + 1
  | .advance i _ => Living h i fun l => l.mode = .active ∧ l.step ≠ none
  | .status i s => (Living h i fun l => l.mayBecome s) ∧
      (s = .compensating → ∃ a ∈ h, a.isFailure i)
  | .approve i _ _ => Living h i fun l => l.status = .paused ∧ l.mode = .idle
  | .event (.stepAwaitingApproval i k _) => Living h i fun l =>
      l.mode = .announce ∧ l.current = some k
  | .body b => Living h b.inst fun l => b.status = l.status ∧ l.mayCall b.call
  | _ => True

/-- The status of an instance. -/
def statusOf (h : List Action) (i : String) : Option WorkflowStatus := (lifeOf h i).map (·.status)

@[simp] theorem lifeOf_snoc (h : List Action) (a : Action) (i : String) :
    lifeOf (h ++ [a]) i = Life.apply i (lifeOf h i) a := by
  unfold lifeOf
  rw [List.foldl_append]
  rfl

@[simp] theorem lifeOf_nil (i : String) : lifeOf [] i = none := rfl

end Hermes

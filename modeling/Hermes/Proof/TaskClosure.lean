import Hermes.Spec.Executor

/-!
# How a submitted task ends

`run` looks for the handler of a capability before it publishes that the task has started, and
outside the `try`: a capability without a handler leaves the task queued for good. Within the `try`
every `Exception` is answered with one event, unless its own `repr` raises.

* `submit_unhandled`: a capability without a handler.
* `submit_handled`: a task that is run, by the outcome of the attempt.
* `submit_closed_iff`: when the task is ended, with one event.
-/

namespace Hermes

namespace TaskExecutor

variable {κ ρ : Type} {ex : TaskExecutor κ ρ} {task : KernelTask} {ctx : Dict String κ}

/-- The task while it is run. -/
def running (task : KernelTask) : KernelTask := { task with status := .running }

/-- The capability of the task, if it names one, has a handler. -/
def Handled (ex : TaskExecutor κ ρ) (task : KernelTask) : Prop :=
  ∀ name, truthy task.capability = some name → name ∈ ex.handlers.keys

/-- What the handler raises has a `repr`. -/
def Described (ex : TaskExecutor κ ρ) (task : KernelTask) (ctx : Dict String κ) : Prop :=
  ∀ handler, ex.handlerOf task = some handler → ∀ failure,
    handler (running task) (ex.contextOf task ctx) = .raises failure →
      ∃ text, failure.repr = .ok text

/-! ## What a call leaves -/

/-- The events of a task that is run. -/
def started (task : KernelTask) : List (TaskEvent ρ) :=
  [{ type := eventTaskQueued, taskId := task.id }, { type := eventTaskStarted, taskId := task.id }]

/-- **No handler**: the task stays queued. -/
theorem submit_unhandled (ctx : Dict String κ) {name : String} (hname : truthy task.capability = some name)
    (hnone : name ∉ ex.handlers.keys) :
    ∃ exc, ex.submit task ctx =
      { task := { task with status := .queued }
        published := [{ type := eventTaskQueued, taskId := task.id }]
        ended := .raised exc } := by
  unfold submit run
  simp only [hname, Option.filter_some, hnone, not_false_eq_true, decide_true, if_true]
  exact ⟨_, rfl⟩

/-- **A task that is run**, by what the attempt comes to. -/
theorem submit_handled (h : Handled ex task) :
    ex.submit task ctx =
      match ex.attempt (running task) ctx with
      | .interrupted => { task := running task, published := started task, ended := .interrupted }
      | .raises failure =>
        match failure.repr with
        | .error exc =>
          { task := { task with status := .failed }, published := started task, ended := .raised exc }
        | .ok text =>
          { task := { task with status := .failed }
            published := started task ++
              [{ type := eventTaskFailed, taskId := task.id, output := .error text }]
            ended := .raised failure.exc }
      | .returns result =>
        { task := { task with status := .completed }
          published := started task ++
            [{ type := eventTaskCompleted, taskId := task.id, output := .result result }]
          ended := .returned result } := by
  have hfound : (truthy task.capability).filter (fun name => decide (name ∉ ex.handlers.keys)) = none := by
    rw [Option.filter_eq_none_iff]
    intro name hname hnot
    exact of_decide_eq_true hnot (h name hname)
  unfold submit run
  simp only [hfound]
  rfl

/-- What a task raises when no handler is found can be described. -/
theorem attempt_described (h : Described ex task ctx) {failure : TaskFailure}
    (hraises : ex.attempt (running task) ctx = .raises failure) : ∃ text, failure.repr = .ok text := by
  have hhandler : ex.handlerOf (running task) = ex.handlerOf task := rfl
  unfold attempt at hraises
  rw [hhandler] at hraises
  cases hof : ex.handlerOf task with
  | some handler =>
    rw [hof] at hraises
    exact h handler hof failure hraises
  | none =>
    rw [hof] at hraises
    cases hname : truthy (running task).capability with
    | some name =>
      simp only [hname] at hraises
      cases hraises
      exact ⟨_, rfl⟩
    | none =>
      simp only [hname] at hraises
      cases hraises
      exact ⟨_, rfl⟩

/-! ## The end of a task -/

/-- No event of a task that is only started ends it. -/
theorem started_not_terminal (id : String) (task : KernelTask) :
    ((started task : List (TaskEvent ρ)).tail.filter (Submission.terminal id)) = [] := by
  simp [started, Submission.terminal, eventTaskStarted, eventTaskCompleted, eventTaskFailed]

/-- A task with one more event behind those of its start. -/
theorem filter_terminal (task : KernelTask) (e : TaskEvent ρ) (hid : e.taskId = task.id)
    (htype : e.type = eventTaskCompleted ∨ e.type = eventTaskFailed) :
    (((started task).tail ++ [e]).filter (Submission.terminal task.id)).length = 1 := by
  have hterminal : Submission.terminal task.id e = true := by
    simp [Submission.terminal, hid, htype]
  rw [List.filter_append, started_not_terminal, List.filter_singleton, hterminal]
  rfl

/-- **The lifecycle of a task is closed** exactly when its capability has a handler, and what the
handler raises has a `repr`. -/
theorem submit_closed_iff (ex : TaskExecutor κ ρ) (task : KernelTask) (ctx : Dict String κ) :
    (ex.submit task ctx).Closed task.id ↔ Handled ex task ∧ Described ex task ctx := by
  by_cases hhandled : Handled ex task
  · rw [submit_handled hhandled]
    constructor
    · intro hclosed
      refine ⟨hhandled, fun handler hof failure hraises => ?_⟩
      have hattempt : ex.attempt (running task) ctx = .raises failure := by
        have hsame : ex.handlerOf (running task) = some handler := hof
        unfold attempt
        rw [hsame]
        exact hraises
      cases hrepr : failure.repr with
      | ok text => exact ⟨text, rfl⟩
      | error exc =>
        -- nothing is published after the start
        rw [hattempt] at hclosed
        simp only [hrepr] at hclosed
        obtain ⟨-, later, hpublished, hone⟩ := hclosed nofun
        have hlater := (List.cons.inj hpublished).2
        have hnil := started_not_terminal (ρ := ρ) task.id task
        rw [← hlater] at hone
        simp only [started, List.tail_cons] at hnil
        rw [hnil] at hone
        cases hone
    · rintro ⟨-, hdescribed⟩
      cases hattempt : ex.attempt (running task) ctx with
      | interrupted => exact fun hnot => absurd rfl hnot
      | returns result =>
        intro _
        refine ⟨.inl rfl, _, rfl, ?_⟩
        exact filter_terminal task _ rfl (.inl rfl)
      | raises failure =>
        obtain ⟨text, htext⟩ := attempt_described hdescribed hattempt
        simp only [htext]
        intro _
        refine ⟨.inr rfl, _, rfl, ?_⟩
        exact filter_terminal task _ rfl (.inr rfl)
  · refine iff_of_false (fun hclosed => ?_) fun h => hhandled h.1
    unfold Handled at hhandled
    push Not at hhandled
    obtain ⟨name, hname, hnone⟩ := hhandled
    obtain ⟨exc, hsubmit⟩ := submit_unhandled ctx hname hnone
    rw [hsubmit] at hclosed
    obtain ⟨hstatus, -⟩ := hclosed nofun
    rcases hstatus with h | h
    · cases h
    · cases h

/-- A task whose capability has no handler. -/
theorem unhandled_stays_queued :
    ¬ (((⟨none, ∅⟩ : TaskExecutor String String).submit
        { id := "t1", name := "search", capability := some "hermes.search" } ∅).Closed "t1") := by
  intro hclosed
  have hended := (hclosed (by decide)).1
  revert hended
  decide

end TaskExecutor

end Hermes

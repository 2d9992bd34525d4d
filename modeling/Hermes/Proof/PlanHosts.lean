import Hermes.Spec.Planner
import Mathlib.Data.List.Forall2

/-!
# The planner and the state of its executor

The planner sees its executor only through the outcomes that it returns. Two
executors that agree on these, on states in a relation `R`, are told apart by no
plan.

* `executePlan_agree`: the results, the planners and the records of the two calls
  agree.
* `executePlan_host`: an invariant of the executor's state, kept by each of its
  calls, is kept by `execute_plan`.
* `executePlan_truthful`: each call of the record starts where the one before it has
  left the executor.
-/

namespace Hermes

open History

variable {σ τ : Type} {R : σ → τ → Prop} {ex : Executor σ} {ey : Executor τ}

/-- Two executors that cannot be told apart by their outcomes. -/
def Agree (R : σ → τ → Prop) (ex : Executor σ) (ey : Executor τ) : Prop :=
  ∀ step x y, R x y → (ex step x).1 = (ey step y).1 ∧ R (ex step x).2 (ey step y).2

/-- Entries of two records at the same place. -/
inductive LogEntry.Twin (R : σ → τ → Prop) (ex : Executor σ) (ey : Executor τ) :
    LogEntry σ → LogEntry τ → Prop where
  | call {plan step phase ahead x y} : R x y →
    Twin R ex ey (.call ⟨plan, step, phase, ahead, x, (ex step x).1, (ex step x).2⟩)
      (.call ⟨plan, step, phase, ahead, y, (ey step y).1, (ey step y).2⟩)
  | replan {failed adapted} : Twin R ex ey (.replan failed adapted) (.replan failed adapted)
  | skip {plan step o} : Twin R ex ey (.skip plan step o) (.skip plan step o)

/-- Two sessions of the same plan. -/
structure Session.Twin (R : σ → τ → Prop) (ex : Executor σ) (ey : Executor τ) (s : Session σ)
    (t : Session τ) : Prop where
  planner : s.planner = t.planner
  host : R s.host t.host
  log : List.Forall₂ (LogEntry.Twin R ex ey) s.log t.log

/-- The same result, in twin sessions. -/
def TwinRun (R : σ → τ → Prop) (ex : Executor σ) (ey : Executor τ) {α : Type}
    (a : α × Session σ) (b : α × Session τ) : Prop :=
  a.1 = b.1 ∧ a.2.Twin R ex ey b.2

namespace Session.Twin

variable {s : Session σ} {t : Session τ}

/-- The planner goes on in the same way. -/
theorem plan (h : s.Twin R ex ey t) (f : Planner → Planner) :
    Session.Twin R ex ey { s with planner := f s.planner } { t with planner := f t.planner } :=
  ⟨congrArg f h.planner, h.host, h.log⟩

theorem emit (h : s.Twin R ex ey t) (e : PlannerEvent) : (s.emit e).Twin R ex ey (t.emit e) :=
  h.plan (·.emit e)

theorem note (h : s.Twin R ex ey t) {a : LogEntry σ} {b : LogEntry τ}
    (hab : LogEntry.Twin R ex ey a b) :
    Session.Twin R ex ey { s with log := s.log ++ [a] } { t with log := t.log ++ [b] } :=
  ⟨h.planner, h.host, List.rel_append h.log (.cons hab .nil)⟩

end Session.Twin

/-! ## The loops -/

section Loops

variable (hR : Agree R ex ey)
include hR

theorem callExecutor_agree (plan : Plan) (phase : Phase) (ahead : List String) (step : PlanStep)
    {s : Session σ} {t : Session τ} (h : s.Twin R ex ey t) :
    TwinRun R ex ey (callExecutor ex plan phase ahead step s)
      (callExecutor ey plan phase ahead step t) := by
  obtain ⟨hr, hx⟩ := hR step _ _ h.host
  exact ⟨hr, h.planner, hx, List.rel_append h.log (.cons (.call h.host) .nil)⟩

theorem retryLoop_agree (plan : Plan) (ahead : List String) (step : PlanStep) (budget retry : ℕ)
    {s : Session σ} {t : Session τ} (h : s.Twin R ex ey t) :
    TwinRun R ex ey (retryLoop ex plan ahead step budget retry s)
      (retryLoop ey plan ahead step budget retry t) := by
  have hcalled : ∀ {s s₁ : Session σ} {t : Session τ} {r : Except Exc ExecutionOutcome},
      s.Twin R ex ey t → callExecutor ex plan .ordered ahead step s = (r, s₁) →
      ∃ t₁, callExecutor ey plan .ordered ahead step t = (r, t₁) ∧ s₁.Twin R ex ey t₁ := by
    intro s s₁ t r h hr
    obtain ⟨heq, ht⟩ := callExecutor_agree hR plan .ordered ahead step h
    rw [hr] at heq ht
    exact ⟨_, Prod.ext heq.symm rfl, ht⟩
  -- a call that raises, a success, a last failure, a failure before another round
  fun_induction retryLoop ex plan ahead step budget retry s generalizing t with
  | case1 _ _ _ _ _ hr =>
    obtain ⟨t₁, hr', ht⟩ := hcalled h hr
    rw [retryLoop.eq_def ey]
    simp only [hr']
    exact ⟨rfl, ht⟩
  | case2 _ retry _ o _ hr _ _ =>
    rename_i hs
    obtain ⟨t₁, hr', ht⟩ := hcalled h hr
    have hrec := ht.plan (·.recordOutcome { o with retryCount := retry })
    rw [retryLoop.eq_def ey]
    simp only [hr']
    rw [if_pos hs]
    exact ⟨rfl, hrec.emit _⟩
  | case3 retry _ o _ hr _ _ =>
    rename_i hs
    obtain ⟨t₁, hr', ht⟩ := hcalled h hr
    have hrec := ht.plan (·.recordOutcome { o with retryCount := retry })
    rw [retryLoop.eq_def ey]
    simp only [hr']
    rw [if_neg hs]
    exact ⟨rfl, hrec⟩
  | case4 retry _ o _ hr _ _ hs _ _ =>
    rename_i ih
    obtain ⟨t₁, hr', ht⟩ := hcalled h hr
    have hrec := ht.plan (·.recordOutcome { o with retryCount := retry })
    rw [retryLoop.eq_def ey]
    simp only [hr']
    rw [if_neg hs]
    exact ih ((hrec.emit _).emit _)

theorem recoveryLoop_agree (adapted : Plan) (ahead : List String) :
    ∀ steps {s : Session σ} {t : Session τ}, s.Twin R ex ey t →
      TwinRun R ex ey (recoveryLoop ex adapted ahead steps s)
        (recoveryLoop ey adapted ahead steps t) := by
  intro steps
  induction steps with
  | nil => intro s t h; exact ⟨rfl, h⟩
  | cons step steps ih =>
    intro s t h
    unfold recoveryLoop
    have hdone : s.planner.alreadySucceeded adapted step =
        t.planner.alreadySucceeded adapted step := by rw [h.planner]
    rw [hdone]
    cases t.planner.alreadySucceeded adapted step with
    | some o => exact ih (h.note .skip)
    | none =>
      simp only
      have hcall := callExecutor_agree hR adapted .recovery ahead step h
      generalize callExecutor ex adapted .recovery ahead step s = A at hcall ⊢
      generalize callExecutor ey adapted .recovery ahead step t = B at hcall ⊢
      obtain ⟨r, s₁⟩ := A
      obtain ⟨_, t₁⟩ := B
      obtain ⟨rfl, ht⟩ := hcall
      simp only at ht
      cases r with
      | error e => exact ⟨rfl, ht⟩
      | ok o => exact ih ((ht.plan (·.recordOutcome { o with retryCount := 0 })).emit _)

theorem recover_agree (P : PlannerEnv) (plan : Plan) (ahead : List String) (step : PlanStep)
    (status : OutcomeStatus) {s : Session σ} {t : Session τ} (h : s.Twin R ex ey t) :
    TwinRun R ex ey (recover P ex plan ahead step status s)
      (recover P ey plan ahead step status t) := by
  unfold recover
  simp only [h.planner]
  split
  · exact ⟨rfl, rfl, h.host, List.rel_append h.log (.cons .replan .nil)⟩
  · apply recoveryLoop_agree hR
    exact ⟨rfl, h.host, List.rel_append h.log (.cons .replan .nil)⟩

theorem executeStepWithRetry_agree (P : PlannerEnv) (plan : Plan) (ahead : List String)
    (step : PlanStep) {s : Session σ} {t : Session τ} (h : s.Twin R ex ey t) :
    TwinRun R ex ey (executeStepWithRetry P ex plan ahead step s)
      (executeStepWithRetry P ey plan ahead step t) := by
  unfold executeStepWithRetry
  have hretry := retryLoop_agree hR plan ahead step step.retryBudget.toNat 0 h
  generalize retryLoop ex plan ahead step _ 0 s = A at hretry ⊢
  generalize retryLoop ey plan ahead step _ 0 t = B at hretry ⊢
  obtain ⟨r, s₁⟩ := A
  obtain ⟨_, t₁⟩ := B
  obtain ⟨rfl, ht⟩ := hretry
  simp only at ht
  cases r with
  | error e => exact ⟨rfl, ht⟩
  | ok o =>
    simp only
    split
    · exact ⟨rfl, ht⟩
    · have hrec := recover_agree hR P plan ahead step o.status ht
      generalize recover P ex plan ahead step o.status s₁ = A at hrec ⊢
      generalize recover P ey plan ahead step o.status t₁ = B at hrec ⊢
      obtain ⟨r, s₂⟩ := A
      obtain ⟨_, t₂⟩ := B
      obtain ⟨rfl, ht₂⟩ := hrec
      simp only at ht₂
      cases r with
      | error e => exact ⟨rfl, ht₂⟩
      | ok _ => exact ⟨by simp only [ht₂.planner], ht₂⟩

theorem orderedLoop_agree (P : PlannerEnv) :
    ∀ steps plan {s : Session σ} {t : Session τ}, s.Twin R ex ey t →
      TwinRun R ex ey (orderedLoop P ex plan steps s) (orderedLoop P ey plan steps t) := by
  intro steps
  induction steps with
  | nil => intro plan s t h; exact ⟨rfl, h⟩
  | cons step steps ih =>
    intro plan s t h
    unfold orderedLoop
    have hstep := executeStepWithRetry_agree hR P plan (steps.map (·.stepId)) step h
    generalize executeStepWithRetry P ex plan _ step s = A at hstep ⊢
    generalize executeStepWithRetry P ey plan _ step t = B at hstep ⊢
    obtain ⟨r, s₁⟩ := A
    obtain ⟨_, t₁⟩ := B
    obtain ⟨rfl, ht⟩ := hstep
    simp only at ht
    cases r with
    | error e => exact ⟨rfl, ht⟩
    | ok x => exact ih _ ht

/-- **Executors that agree are told apart by no plan.** -/
theorem executePlan_agree (P : PlannerEnv) (planId : String) (p : Planner) {x : σ} {y : τ}
    (h : R x y) :
    TwinRun R ex ey (executePlan P ex planId p x) (executePlan P ey planId p y) := by
  unfold executePlan
  cases p.getPlan planId with
  | none => exact ⟨rfl, rfl, h, .nil⟩
  | some plan =>
    simp only
    split
    · exact ⟨rfl, rfl, h, .nil⟩
    · rename_i ordered _
      have hloop := orderedLoop_agree hR P ordered { plan with status := .active }
        (s := ⟨(p.setPlan { plan with status := .active }).persistPlan
          { plan with status := .active }, x, []⟩)
        (t := ⟨_, y, []⟩) ⟨rfl, h, .nil⟩
      generalize orderedLoop P ex _ ordered _ = A at hloop ⊢
      generalize orderedLoop P ey _ ordered _ = B at hloop ⊢
      obtain ⟨r, s₁⟩ := A
      obtain ⟨_, t₁⟩ := B
      obtain ⟨rfl, ht⟩ := hloop
      simp only at ht
      cases r with
      | error e => exact ⟨rfl, ht⟩
      | ok plan' =>
        simp only [ht.planner]
        split
        · exact ⟨rfl, ht⟩
        · exact ⟨rfl, rfl, ht.host, ht.log⟩

end Loops

/-! ## Invariants of a session -/

/-- What the loops may do to a session: call the executor, note something else in the record,
and change the planner. -/
structure SessionInv (ex : Executor σ) (P : Session σ → Prop) : Prop where
  call : ∀ plan phase ahead step s, P s → P (callExecutor ex plan phase ahead step s).2
  note : ∀ s e, (∀ c, e ≠ .call c) → P s → P { s with log := s.log ++ [e] }
  plan : ∀ s p, P s → P { s with planner := p }

section Invariants

variable {P : Session σ → Prop} (hP : SessionInv ex P)
include hP

theorem retryLoop_inv (plan : Plan) (ahead : List String) (step : PlanStep) (budget retry : ℕ)
    (s : Session σ) (h : P s) : P (retryLoop ex plan ahead step budget retry s).2 := by
  have hcalled : ∀ {s s₁ : Session σ} {r : Except Exc ExecutionOutcome}, P s →
      callExecutor ex plan .ordered ahead step s = (r, s₁) → P s₁ := by
    intro s s₁ r h hr
    have hcall := hP.call plan .ordered ahead step s h
    rw [hr] at hcall
    exact hcall
  fun_induction retryLoop ex plan ahead step budget retry s with
  | case1 _ _ _ _ _ hr => exact hcalled h hr
  | case2 _ _ _ _ _ hr => exact hP.plan _ _ (hP.plan _ _ (hcalled h hr))
  | case3 _ _ _ _ hr => exact hP.plan _ _ (hcalled h hr)
  | case4 _ _ _ _ hr _ _ _ _ _ ih =>
    exact ih (hP.plan _ _ (hP.plan _ _ (hP.plan _ _ (hcalled h hr))))

theorem recoveryLoop_inv (adapted : Plan) (ahead : List String) :
    ∀ steps s, P s → P (recoveryLoop ex adapted ahead steps s).2 := by
  intro steps
  induction steps with
  | nil => intro s h; exact h
  | cons step steps ih =>
    intro s h
    unfold recoveryLoop
    cases s.planner.alreadySucceeded adapted step with
    | some o => exact ih _ (hP.note s _ (by simp) h)
    | none =>
      have hcall := hP.call adapted .recovery ahead step s h
      simp only
      generalize callExecutor ex adapted .recovery ahead step s = A at hcall ⊢
      obtain ⟨r, s₁⟩ := A
      cases r with
      | error e => exact hcall
      | ok o => exact ih _ (hP.plan _ _ (hP.plan _ _ hcall))

theorem executeStepWithRetry_inv (E : PlannerEnv) (plan : Plan) (ahead : List String)
    (step : PlanStep) (s : Session σ) (h : P s) :
    P (executeStepWithRetry E ex plan ahead step s).2 := by
  unfold executeStepWithRetry
  have hretry := retryLoop_inv hP plan ahead step step.retryBudget.toNat 0 s h
  generalize retryLoop ex plan ahead step _ 0 s = A at hretry ⊢
  obtain ⟨r, s₁⟩ := A
  cases r with
  | error e => exact hretry
  | ok o =>
    simp only
    split
    · exact hretry
    · have hrec : P (recover E ex plan ahead step o.status s₁).2 := by
        unfold recover
        simp only
        split
        · exact hP.note _ _ (by simp) (hP.plan s₁ _ hretry)
        · exact recoveryLoop_inv hP _ ahead _ _ (hP.note _ _ (by simp) (hP.plan s₁ _ hretry))
      generalize recover E ex plan ahead step o.status s₁ = A at hrec ⊢
      obtain ⟨r, s₂⟩ := A
      cases r <;> exact hrec

theorem orderedLoop_inv (E : PlannerEnv) :
    ∀ steps plan s, P s → P (orderedLoop E ex plan steps s).2 := by
  intro steps
  induction steps with
  | nil => intro plan s h; exact h
  | cons step steps ih =>
    intro plan s h
    unfold orderedLoop
    have hstep := executeStepWithRetry_inv hP E plan (steps.map (·.stepId)) step s h
    generalize executeStepWithRetry E ex plan _ step s = A at hstep ⊢
    obtain ⟨r, s₁⟩ := A
    cases r with
    | error e => exact hstep
    | ok x => exact ih _ _ hstep

/-- **Invariants of a session** are kept by `execute_plan`. -/
theorem executePlan_inv (E : PlannerEnv) (planId : String) (p : Planner) (x : σ)
    (h : ∀ p, P ⟨p, x, []⟩) : P (executePlan E ex planId p x).2 := by
  unfold executePlan
  cases p.getPlan planId with
  | none => exact h _
  | some plan =>
    simp only
    split
    · exact h _
    · rename_i ordered _
      have hloop := orderedLoop_inv hP E ordered { plan with status := .active } _
        (h ((p.setPlan { plan with status := .active }).persistPlan { plan with status := .active }))
      generalize orderedLoop E ex _ ordered _ = A at hloop ⊢
      obtain ⟨r, s₁⟩ := A
      cases r with
      | error e => exact hloop
      | ok plan' =>
        simp only
        split
        · exact hloop
        · exact hP.plan _ _ hloop

end Invariants

/-- **An invariant of the executor's state**, kept by each of its calls, is kept by
`execute_plan`. -/
theorem executePlan_host {I : σ → Prop} (hI : ∀ step x, I x → I (ex step x).2) (E : PlannerEnv)
    (planId : String) (p : Planner) {x : σ} (h : I x) :
    I (executePlan E ex planId p x).2.host :=
  executePlan_inv (P := fun s => I s.host)
    ⟨fun _ _ _ step s => hI step s.host, fun _ _ _ h => h, fun _ _ h => h⟩ E planId p x fun _ => h

/-- The state of the executor after the calls of a record that began in state `x`. -/
def hostAfter (x : σ) (h : List (LogEntry σ)) : σ :=
  h.foldl (fun x e => match e with
    | .call c => c.after
    | _ => x) x

theorem hostAfter_snoc (x : σ) (h : List (LogEntry σ)) (e : LogEntry σ) :
    hostAfter x (h ++ [e]) = match e with
      | .call c => c.after
      | _ => hostAfter x h := by
  unfold hostAfter
  rw [List.foldl_append]
  rfl

/-- A call starts where the call before it has left the executor, and is one of the executor. -/
def Truthful (ex : Executor σ) (x : σ) (h : List (LogEntry σ)) : LogEntry σ → Prop
  | .call c => c.before = hostAfter x h ∧ ex c.step c.before = (c.result, c.after)
  | _ => True

/-- **The record tells the truth** about the calls of the executor. -/
theorem executePlan_truthful (E : PlannerEnv) (ex : Executor σ) (planId : String) (p : Planner)
    (x : σ) : Always (Truthful ex x) (executePlan E ex planId p x).2.log := by
  have hP : SessionInv ex fun s => s.host = hostAfter x s.log ∧ Always (Truthful ex x) s.log := by
    refine ⟨?_, ?_, fun _ _ h => h⟩
    · rintro plan phase ahead step s ⟨hhost, hlog⟩
      refine ⟨?_, always_snoc.2 ⟨hlog, hhost, rfl⟩⟩
      unfold callExecutor
      simp only [hostAfter_snoc]
    · rintro s e he ⟨hhost, hlog⟩
      refine ⟨?_, always_snoc.2 ⟨hlog, ?_⟩⟩
      · rw [hostAfter_snoc]
        cases e with
        | call c => exact absurd rfl (he c)
        | _ => exact hhost
      · cases e with
        | call c => exact absurd rfl (he c)
        | _ => trivial
  exact (executePlan_inv hP E planId p x fun _ => ⟨rfl, always_nil⟩).2

end Hermes

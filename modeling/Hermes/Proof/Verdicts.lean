import Hermes.Proof.PlanOrder

/-!
# The verdict on a plan

* `onRecord`: the outcomes that a call of `execute_plan` leaves on record, read off the
  outcomes from before and the answers of the executor.
* `walkPlan_tallied`: the planner has these when the last step was executed.
* `allSucceeded_eq`: the final status looks at the first step that has no success on
  record.
* `verdicts_iff`: so the verdict is that of the last answer for each step, unless a step
  is outvoted by another outcome under its id.
-/

namespace Hermes

open History

variable {σ : Type}

/-! ## The outcomes on record -/

/-- How often the ordered walk has handed out a step. -/
def tries (k : String) (h : List (LogEntry σ)) : ℕ := (h.filter (·.isOrdered k)).length

/-- The retries before a call after the history `h`. -/
def retriesOf (h : List (LogEntry σ)) (k : String) : Phase → ℕ
  | .ordered => tries k h
  | .recovery => 0

/-- The outcome that is put on record for an entry after the history `h`. -/
def LogEntry.recorded? (h : List (LogEntry σ)) : LogEntry σ → Option ExecutionOutcome
  | .call c =>
    match c.result with
    | .ok o => some { o with retryCount := retriesOf h c.step.stepId c.phase }
    | .error _ => none
  | _ => none

/-- The outcomes on record, one entry later. -/
def noteOutcome (s : List (LogEntry σ) × Dict String ExecutionOutcome) (e : LogEntry σ) :
    List (LogEntry σ) × Dict String ExecutionOutcome :=
  (s.1 ++ [e],
    match e.recorded? s.1 with
    | none => s.2
    | some o => s.2.insert o.outcomeId o)

/-- The outcomes on record after a call, over those from before. -/
def onRecord (before : Dict String ExecutionOutcome) (log : List (LogEntry σ)) :
    Dict String ExecutionOutcome :=
  (log.foldl noteOutcome ([], before)).2

theorem foldl_noteOutcome_fst (before : Dict String ExecutionOutcome) (log : List (LogEntry σ)) :
    (log.foldl noteOutcome ([], before)).1 = log := by
  induction log using List.reverseRecOn with
  | nil => rfl
  | append_singleton log e ih =>
    have hlast : (noteOutcome (log.foldl noteOutcome ([], before)) e).1 =
        (log.foldl noteOutcome ([], before)).1 ++ [e] := rfl
    rw [List.foldl_append, List.foldl_cons, List.foldl_nil, hlast, ih]

/-- **One entry more.** -/
theorem onRecord_snoc (before : Dict String ExecutionOutcome) (log : List (LogEntry σ))
    (e : LogEntry σ) : onRecord before (log ++ [e]) =
      match e.recorded? log with
      | none => onRecord before log
      | some o => (onRecord before log).insert o.outcomeId o := by
  unfold onRecord
  have hfst := foldl_noteOutcome_fst before log
  rw [List.foldl_append, List.foldl_cons, List.foldl_nil]
  generalize log.foldl noteOutcome ([], before) = s at hfst ⊢
  obtain ⟨h, d⟩ := s
  obtain rfl : h = log := hfst
  rfl

theorem tries_append (k : String) (h h' : List (LogEntry σ)) :
    tries k (h ++ h') = tries k h + tries k h' := by
  unfold tries
  rw [List.filter_append, List.length_append]

theorem tries_eq_zero {k : String} {h : List (LogEntry σ)} (hh : ∀ e ∈ h, e.isOrdered k = false) :
    tries k h = 0 := by
  have hnil : h.filter (·.isOrdered k) = [] := by
    rw [List.filter_eq_nil_iff]
    intro e he
    rw [hh e he]
    exact Bool.false_ne_true
  unfold tries
  rw [hnil]
  rfl

/-! ## The planner keeps the record -/

/-- The outcomes of the planner are those that the record tells. -/
def Tallied (before : Dict String ExecutionOutcome) (s : Session σ) : Prop :=
  s.planner.outcomes = onRecord before s.log

variable {exec : Executor σ} {before : Dict String ExecutionOutcome}

theorem tallied_error {plan : Plan} {phase : Phase} {ahead : List String} {step : PlanStep}
    {s s₁ : Session σ} {e : Exc} (hs : Tallied before s)
    (hr : callExecutor exec plan phase ahead step s = (.error e, s₁)) : Tallied before s₁ := by
  rw [callExecutor_eq] at hr
  obtain ⟨hres, rfl⟩ := Prod.mk.inj hr
  unfold Tallied
  simp only [onRecord_snoc, LogEntry.recorded?, hres]
  exact hs

theorem tallied_ok {plan : Plan} {phase : Phase} {ahead : List String} {step : PlanStep}
    {s s₁ : Session σ} {o : ExecutionOutcome} {n : ℕ} (hs : Tallied before s)
    (hr : callExecutor exec plan phase ahead step s = (.ok o, s₁))
    (hn : n = retriesOf s.log step.stepId phase) :
    Tallied before { s₁ with planner := s₁.planner.recordOutcome { o with retryCount := n } } := by
  rw [callExecutor_eq] at hr
  obtain ⟨hres, rfl⟩ := Prod.mk.inj hr
  unfold Tallied Planner.recordOutcome
  simp only [onRecord_snoc, LogEntry.recorded?, hres]
  rw [hs, hn]

theorem tallied_emit {s : Session σ} (hs : Tallied before s) (e : PlannerEvent) :
    Tallied before (s.emit e) := hs

theorem tries_call {plan : Plan} {ahead : List String} {step : PlanStep} {s s₁ : Session σ}
    {r : Except Exc ExecutionOutcome}
    (hr : callExecutor exec plan .ordered ahead step s = (r, s₁)) :
    tries step.stepId s₁.log = tries step.stepId s.log + 1 := by
  rw [callExecutor_eq] at hr
  obtain ⟨-, rfl⟩ := Prod.mk.inj hr
  rw [tries_append]
  unfold tries
  simp [LogEntry.isOrdered]

/-- **The retry loop** counts its tries. -/
theorem retryLoop_tallied (exec : Executor σ) (plan : Plan) (ahead : List String)
    (step : PlanStep) (budget retry : ℕ) (s : Session σ) (hs : Tallied before s)
    (hn : tries step.stepId s.log = retry) :
    Tallied before (retryLoop exec plan ahead step budget retry s).2 := by
  fun_induction retryLoop exec plan ahead step budget retry s with
  | case1 _ _ _ _ _ hr => exact tallied_error hs hr
  | case2 _ _ _ _ _ hr => exact tallied_emit (tallied_ok hs hr hn.symm) _
  | case3 _ _ _ _ hr => exact tallied_ok hs hr hn.symm
  | case4 _ _ _ _ hr _ _ _ _ _ ih =>
    refine ih (tallied_emit (tallied_emit (tallied_ok hs hr hn.symm) _) _) ?_
    have hone := tries_call hr
    rw [hn] at hone
    exact hone

/-- **The recovery loop** does not count. -/
theorem recoveryLoop_tallied (adapted : Plan) (ahead : List String) :
    ∀ steps (s : Session σ), Tallied before s →
      Tallied before (recoveryLoop exec adapted ahead steps s).2 := by
  intro steps
  induction steps with
  | nil => intro s hs; exact hs
  | cons step steps ih =>
    intro s hs
    unfold recoveryLoop
    cases s.planner.alreadySucceeded adapted step with
    | some o =>
      refine ih _ ?_
      unfold Tallied
      simp only [onRecord_snoc, LogEntry.recorded?]
      exact hs
    | none =>
      simp only
      generalize hr : callExecutor exec adapted .recovery ahead step s = R
      obtain ⟨r, s₁⟩ := R
      cases r with
      | error e => exact tallied_error hs hr
      | ok o => exact ih _ (tallied_emit (tallied_ok hs hr rfl) _)

theorem setPlan_outcomes (p : Planner) (plan : Plan) : (p.setPlan plan).outcomes = p.outcomes := by
  unfold Planner.setPlan
  split
  · rfl
  · rfl

theorem recover_tallied (P : PlannerEnv) (exec : Executor σ) (plan : Plan)
    (ahead : List String) (step : PlanStep) (status : OutcomeStatus) (s : Session σ)
    (hs : Tallied before s) :
    Tallied before (recover P exec plan ahead step status s).2 := by
  have hnote : ∀ (p : Planner) (adapted : Plan), p.outcomes = s.planner.outcomes →
      Tallied before { s with planner := p, log := s.log ++ [.replan step adapted] } := by
    intro p adapted hp
    unfold Tallied
    simp only [onRecord_snoc, LogEntry.recorded?]
    exact hp.trans hs
  unfold recover
  simp only
  split
  · exact hnote _ _ (setPlan_outcomes _ _)
  · exact recoveryLoop_tallied _ ahead _ _ (hnote _ _ (setPlan_outcomes _ _))

theorem executeStepWithRetry_tallied (P : PlannerEnv) (exec : Executor σ) (plan : Plan)
    (ahead : List String) (step : PlanStep) (s : Session σ) (hs : Tallied before s)
    (hn : tries step.stepId s.log = 0) :
    Tallied before (executeStepWithRetry P exec plan ahead step s).2 := by
  have hretry := retryLoop_tallied exec plan ahead step step.retryBudget.toNat 0 s hs hn
  unfold executeStepWithRetry
  generalize retryLoop exec plan ahead step step.retryBudget.toNat 0 s = R at hretry ⊢
  obtain ⟨r, s₁⟩ := R
  cases r with
  | error e => exact hretry
  | ok o =>
    simp only
    split
    · exact hretry
    · have hrec := recover_tallied P exec plan ahead step o.status s₁ hretry
      generalize recover P exec plan ahead step o.status s₁ = R at hrec ⊢
      obtain ⟨r, s₂⟩ := R
      cases r with
      | error e => exact hrec
      | ok _ => exact hrec

/-- A step of the ordered walk tries no other step. -/
theorem StepRun.tries_eq {plan : Plan} {ahead : List String} {step : PlanStep}
    {new : List (LogEntry σ)} {r : Except Exc (ExecutionOutcome × Plan)}
    (h : StepRun plan ahead step new r) {k : String} (hk : k ≠ step.stepId) : tries k new = 0 := by
  have hcalls : ∀ {n : ℕ} {r : Except Exc ExecutionOutcome} {cs : List (Call σ)},
      RetryCalls plan ahead step n r cs → ∀ e ∈ cs.map LogEntry.call, e.isOrdered k = false := by
    intro n r cs hcs e he
    obtain ⟨c, hc, rfl⟩ := List.mem_map.1 he
    obtain ⟨-, hstep, -⟩ := hcs.call c hc
    simp [LogEntry.isOrdered, hstep, Ne.symm hk]
  rcases h with ⟨hcs⟩ | ⟨hcs, -⟩ | ⟨hcs, -, -, -, hes, -⟩
  · exact tries_eq_zero (hcalls hcs)
  · exact tries_eq_zero (hcalls hcs)
  · rename_i cs o adapted es pre
    refine tries_eq_zero fun e he => ?_
    rcases List.mem_append.1 he with he | he
    · exact hcalls hcs e he
    · rcases List.mem_cons.1 he with rfl | he
      · rfl
      · -- a recovery call is not one of the ordered walk
        obtain ⟨hlen, hget⟩ := List.forall₂_iff_get.1 hes
        obtain ⟨n, hn, rfl⟩ := List.getElem_of_mem he
        rcases hget n hn (hlen ▸ hn) with ⟨c, heq, -, -, hphase, -⟩ | ⟨o, heq, -⟩
        all_goals rw [List.get_eq_getElem] at heq; rw [heq]
        · simp [LogEntry.isOrdered, hphase]
        · rfl

/-- **The ordered walk** hands out each step once, with its retries. -/
theorem orderedLoop_tallied (P : PlannerEnv) :
    ∀ (steps : List PlanStep) (plan : Plan) (s : Session σ), Tallied before s →
      (steps.map (·.stepId)).Nodup → (∀ step ∈ steps, tries step.stepId s.log = 0) →
      Tallied before (orderedLoop P exec plan steps s).2 := by
  intro steps
  induction steps with
  | nil => intro plan s hs _ _; exact hs
  | cons step steps ih =>
    intro plan s hs hnodup hzero
    rw [List.map_cons, List.nodup_cons] at hnodup
    have htallied := executeStepWithRetry_tallied P exec plan (steps.map (·.stepId)) step s hs
      (hzero step List.mem_cons_self)
    obtain ⟨new, hlog, hrun⟩ :=
      executeStepWithRetry_run P exec plan (steps.map (·.stepId)) step s
    unfold orderedLoop
    generalize executeStepWithRetry P exec plan (steps.map (·.stepId)) step s = R
      at htallied hlog hrun ⊢
    obtain ⟨r, s₁⟩ := R
    cases r with
    | error e => exact htallied
    | ok x =>
      obtain ⟨o, plan'⟩ := x
      refine ih plan' s₁ htallied hnodup.2 fun t ht => ?_
      have hne : t.stepId ≠ step.stepId := by
        intro heq
        exact hnodup.1 (heq ▸ List.mem_map_of_mem ht)
      simp only at hlog
      rw [hlog, tries_append, hzero t (List.mem_cons_of_mem _ ht), hrun.tries_eq hne]

/-! ## The verdict -/

/-- `execute_plan` until the last step was executed. -/
def walkPlan (P : PlannerEnv) (exec : Executor σ) (planId : String) (p : Planner) (x : σ) :
    Except Exc Plan × Session σ :=
  match p.getPlan planId with
  | none => (.error ⟨.keyError, "plan '" ++ planId ++ "' not found"⟩, ⟨p, x, []⟩)
  | some plan =>
    let plan := { plan with status := .active }
    let s : Session σ := ⟨(p.setPlan plan).persistPlan plan, x, []⟩
    match toposort plan with
    | .error e => (.error e, s)
    | .ok ordered => orderedLoop P exec plan ordered s

/-- **After the walk**, the final status is settled by what is on record. -/
theorem executePlan_fst (P : PlannerEnv) (exec : Executor σ) (planId : String) (p : Planner)
    (x : σ) :
    (executePlan P exec planId p x).1 =
      match walkPlan P exec planId p x with
      | (.error e, _) => .error e
      | (.ok plan, s) =>
        match allSucceeded s.planner plan.steps with
        | .error e => .error e
        | .ok done => .ok { plan with status := if done then .completed else .adapted } := by
  unfold executePlan walkPlan
  cases p.getPlan planId with
  | none => rfl
  | some plan =>
    simp only
    cases toposort { plan with status := .active } with
    | error e => rfl
    | ok ordered =>
      simp only
      generalize orderedLoop P exec _ ordered _ = R
      obtain ⟨r, s⟩ := R
      cases r with
      | error e => rfl
      | ok plan' =>
        simp only
        cases allSucceeded s.planner plan'.steps with
        | error e => rfl
        | ok done => rfl

theorem walkPlan_tallied (P : PlannerEnv) (exec : Executor σ) (planId : String) (p : Planner)
    (x : σ) :
    Tallied p.outcomes (walkPlan P exec planId p x).2 := by
  unfold walkPlan
  cases p.getPlan planId with
  | none => rfl
  | some plan =>
    simp only
    split
    · exact setPlan_outcomes p _
    · rename_i ordered hsort
      refine orderedLoop_tallied P ordered _ _ (setPlan_outcomes p _) (toposort_walk hsort).nodup ?_
      intro step _
      rfl

/-- Whether the outcome with the most retries for a step is a success, if there is one. -/
def standing (outcomes : Dict String ExecutionOutcome) (k : String) : Option Bool :=
  (({ outcomes } : Planner).lastOutcome k).map (·.status = .success)

/-- **`all(…)`** stops at the first step that has no success on record. -/
theorem allSucceeded_eq (p : Planner) (steps : List PlanStep) : allSucceeded p steps =
    match steps.find? fun step => standing p.outcomes step.stepId ≠ some true with
    | none => .ok true
    | some step =>
      match standing p.outcomes step.stepId with
      | none => .error ⟨.attributeError, "'NoneType' object has no attribute 'status'"⟩
      | some _ => .ok false := by
  induction steps with
  | nil => rfl
  | cons step steps ih =>
    have hlast : p.lastOutcome step.stepId =
        ({ outcomes := p.outcomes } : Planner).lastOutcome step.stepId := rfl
    unfold allSucceeded
    cases ho : p.lastOutcome step.stepId with
    | none =>
      have hstanding : standing p.outcomes step.stepId = none := by
        unfold standing
        rw [← hlast, ho]
        rfl
      simp [hstanding]
    | some o =>
      have hstanding : standing p.outcomes step.stepId = some (decide (o.status = .success)) := by
        unfold standing
        rw [← hlast, ho]
        rfl
      by_cases hsucc : o.status = .success
      · simp only [hstanding, hsucc, if_true, decide_true, List.find?_cons, ne_eq, not_true,
          decide_false]
        exact ih
      · simp [hstanding, hsucc]

/-- The entry is a call for the step. -/
def LogEntry.isCallOf (k : String) : LogEntry σ → Bool
  | .call c => c.step.stepId = k
  | _ => false

/-- The last answer of the executor for a step was a success. -/
def lastSucceeded (log : List (LogEntry σ)) (k : String) : Bool :=
  match lastOf (·.isCallOf k) log with
  | some (.call c) => c.succeeded
  | _ => false

/-- A plan that was walked to its end is completed if the last answer of this call for each of its
steps was a success, and adapted if not. -/
def RightVerdict (P : PlannerEnv) (exec : Executor σ) (planId : String) (p : Planner) (x : σ) :
    Prop :=
  ∀ plan, (walkPlan P exec planId p x).1 = .ok plan →
    (executePlan P exec planId p x).1 = .ok { plan with
      status :=
        if ∀ step ∈ plan.steps, lastSucceeded (walkPlan P exec planId p x).2.log step.stepId then
          .completed
        else .adapted }

/-- The outcome with the most retries for a step is not the last answer for it. -/
def Outvoted (outcomes : Dict String ExecutionOutcome) (log : List (LogEntry σ)) (k : String) :
    Prop :=
  standing outcomes k ≠ some (lastSucceeded log k)

/-- No step is outvoted; or a step failed last, and the first step that has no success on record has
a failure there. -/
def Fair (outcomes : Dict String ExecutionOutcome) (log : List (LogEntry σ))
    (steps : List PlanStep) : Prop :=
  (∀ step ∈ steps, ¬Outvoted outcomes log step.stepId) ∨
    (∃ step ∈ steps, lastSucceeded log step.stepId = false) ∧
      (steps.find? fun step => standing outcomes step.stepId ≠ some true).any
        fun step => standing outcomes step.stepId = some false

/-- What is on record after the call is fair. -/
def FairRecord (P : PlannerEnv) (exec : Executor σ) (planId : String) (p : Planner) (x : σ) :
    Prop :=
  ∀ plan, (walkPlan P exec planId p x).1 = .ok plan →
    Fair (onRecord p.outcomes (walkPlan P exec planId p x).2.log)
      (walkPlan P exec planId p x).2.log plan.steps

/-- **One call** of `execute_plan` gives the right verdict exactly when the record is fair. -/
theorem rightVerdict_iff (P : PlannerEnv) (exec : Executor σ) (planId : String) (p : Planner)
    (x : σ) :
    RightVerdict P exec planId p x ↔ FairRecord P exec planId p x := by
  have htallied := walkPlan_tallied P exec planId p x
  unfold RightVerdict FairRecord
  rw [executePlan_fst]
  generalize walkPlan P exec planId p x = R at htallied ⊢
  obtain ⟨r, s⟩ := R
  cases r with
  | error e => exact iff_of_true nofun nofun
  | ok plan =>
    replace htallied : s.planner.outcomes = onRecord p.outcomes s.log := htallied
    simp only [Except.ok.injEq, forall_eq']
    rw [allSucceeded_eq, htallied]
    unfold Fair Outvoted
    cases hfind : plan.steps.find? fun step =>
        standing (onRecord p.outcomes s.log) step.stepId ≠ some true with
    | none =>
      -- every step has a success on record
      have hall : ∀ step ∈ plan.steps,
          standing (onRecord p.outcomes s.log) step.stepId = some true := by
        intro step hstep
        simpa using List.find?_eq_none.1 hfind step hstep
      have hfair : (∀ step ∈ plan.steps, ¬standing (onRecord p.outcomes s.log) step.stepId ≠
          some (lastSucceeded s.log step.stepId)) ↔
          ∀ step ∈ plan.steps, lastSucceeded s.log step.stepId := by
        refine forall₂_congr fun step hstep => ?_
        rw [not_not, hall step hstep, Option.some.injEq]
        exact eq_comm
      simp only [Option.any_none, Bool.false_eq_true, and_false, or_false, hfair]
      simp
    | some step =>
      have hstep : step ∈ plan.steps := List.mem_of_find?_eq_some hfind
      have hnot : standing (onRecord p.outcomes s.log) step.stepId ≠ some true := by
        simpa using List.find?_some hfind
      cases hstand : standing (onRecord p.outcomes s.log) step.stepId with
      | none =>
        refine iff_of_false (by simp [hstand]) ?_
        rintro (hnone | ⟨-, hany⟩)
        · exact hnone step hstep (by rw [hstand]; exact nofun)
        · simp [hstand] at hany
      | some b =>
        obtain rfl : b = false := by
          cases b with
          | false => rfl
          | true => exact absurd hstand hnot
        have hfails : (∃ step ∈ plan.steps, lastSucceeded s.log step.stepId = false) ↔
            ¬∀ step ∈ plan.steps, lastSucceeded s.log step.stepId := by
          simp
        have hright : ((∀ step ∈ plan.steps, ¬standing (onRecord p.outcomes s.log) step.stepId ≠
            some (lastSucceeded s.log step.stepId)) ∨
            ∃ step ∈ plan.steps, lastSucceeded s.log step.stepId = false) ↔
            ¬∀ step ∈ plan.steps, lastSucceeded s.log step.stepId := by
          rw [hfails, or_iff_right_iff_imp]
          intro hnone hlast
          have hsame := not_not.1 (hnone step hstep)
          rw [hstand, hlast step hstep] at hsame
          cases hsame
        simp only [Option.any_some, hstand, decide_true, and_true, hright]
        simp

/-! ## Calls in sequence -/

/-- The calls give right verdicts. -/
def PlannerOp.Right (P : PlannerEnv) (s : Planner × σ) : PlannerOp σ → Prop
  | .create _ _ => True
  | .execute planId exec => RightVerdict P exec planId s.1 s.2

/-- The calls leave fair records. -/
def PlannerOp.Fair (P : PlannerEnv) (s : Planner × σ) : PlannerOp σ → Prop
  | .create _ _ => True
  | .execute planId exec => FairRecord P exec planId s.1 s.2

/-- **Verdicts are right** along a run of calls, with any plans and any executors, exactly when the
record of each call is fair. -/
theorem verdicts_iff (P : PlannerEnv) (ops : List (PlannerOp σ)) (p : Planner) (x : σ) :
    EachStep (PlannerOp.run P) (fun s op => op.Right P s) (p, x) ops ↔
      EachStep (PlannerOp.run P) (fun s op => op.Fair P s) (p, x) ops := by
  refine eachStep_congr (fun s op => ?_) (p, x) ops
  cases op with
  | create workflowId steps => exact Iff.rfl
  | execute planId exec => exact rightVerdict_iff P exec planId s.1 s.2

/-- An executor with prepared answers, the last of which it repeats. -/
def answering : Executor (List OutcomeStatus) := fun step x =>
  (.ok ⟨"o" ++ toString x.length, "", step.stepId, x.headD .success, 1, none, 0⟩, x.tail)

/-- Two plans with a step `a`. In the first one it succeeds at the second try, in the second one it
fails, and only its halves succeed. -/
def sameStep : List (PlannerOp (List OutcomeStatus)) :=
  [.create "v" [{ stepId := "a", capability := "c", retryBudget := 1 }],
    .create "w" [{ stepId := "a", capability := "c", retryBudget := 0 }],
    .execute "0" answering, .execute "1" answering]

/-- The second plan is completed, by the outcome of the first one. -/
theorem same_step_completed :
    ¬EachStep (PlannerOp.run decimalIds) (fun s op => op.Right decimalIds s)
      ({}, [.failure, .success, .failure, .success, .success]) sameStep := by
  rintro ⟨-, -, -, hlast, -⟩
  have hverdict := hlast
    { planId := "1", workflowId := "w", status := .adapted,
      steps := [{ stepId := "a", capability := "c", retryBudget := 0 }] } (by decide +kernel)
  exact absurd hverdict (by decide +kernel)

end Hermes

import Hermes.Spec.Planner

/-!
# Runs of a plan

What the record of one `execute_plan` call looks like, for every plan, every
executor and every replan.

* `toposort_walk`: the steps of a plan are walked dependencies first, each id
  once.
* `retryLoop_spec`, `recoveryLoop_spec`, `recover_spec`: the entries that each
  loop adds to the record.
-/

namespace Hermes

open History

variable {σ : Type}

/-! ## The order of the walk -/

theorem byId_stepId {steps : List PlanStep} {k : String} {s : PlanStep} (h : byId steps k = some s) :
    s.stepId = k := by simpa using List.find?_some h

theorem byId_mem {steps : List PlanStep} {k : String} {s : PlanStep} (h : byId steps k = some s) :
    s ∈ steps := List.mem_reverse.1 (List.mem_of_find?_eq_some h)

theorem byId_isSome {steps : List PlanStep} {k : String} :
    (byId steps k).isSome ↔ ∃ s ∈ steps, s.stepId = k := by
  unfold byId
  rw [List.find?_isSome]
  simp

/-- `d` is the id of a step of the plan. -/
def Plan.Has (plan : Plan) (d : String) : Prop := ∃ t ∈ plan.steps, t.stepId = d

/-- A walk over the steps of a plan: each id once, dependencies of the plan first. -/
structure Walk (plan : Plan) (steps : List PlanStep) : Prop where
  sorted : Always (fun h s => s ∈ plan.steps ∧ s.stepId ∉ h.map (·.stepId) ∧
    ∀ d ∈ s.dependencies, plan.Has d → d ∈ h.map (·.stepId)) steps
  all : ∀ d, plan.Has d → d ∈ steps.map (·.stepId)

theorem map_stepId_filterMap {steps : List PlanStep} {order : List String}
    (h : ∀ k ∈ order, (byId steps k).isSome) :
    (order.filterMap (byId steps)).map (·.stepId) = order := by
  induction order with
  | nil => rfl
  | cons k ks ih =>
    obtain ⟨s, hs⟩ := Option.isSome_iff_exists.1 (h k List.mem_cons_self)
    rw [List.filterMap_cons_some hs, List.map_cons, byId_stepId hs,
      ih fun k hk => h k (List.mem_cons_of_mem _ hk)]

/-- **The sorted steps of a plan.** -/
theorem toposort_walk {plan : Plan} {steps : List PlanStep} (h : toposort plan = .ok steps) :
    Walk plan steps := by
  unfold toposort at h
  split at h
  · rename_i order ho
    cases h
    have hs := Toposort.sort_sorted ho
    have hsome : ∀ k ∈ order, (byId plan.steps k).isSome := by
      intro k hk; simpa using hs.isSome hk
    refine ⟨?_, ?_⟩
    · rw [always_iff_split]
      intro l s u hl
      have hids := map_stepId_filterMap hsome
      rw [hl, List.map_append, List.map_cons] at hids
      obtain ⟨hnew, ds, hds, hdep⟩ := always_iff_split.1 hs _ _ _ hids.symm
      have hmem : s ∈ order.filterMap (byId plan.steps) := by rw [hl]; simp
      obtain ⟨k, -, hk⟩ := List.mem_filterMap.1 hmem
      have hsk : byId plan.steps s.stepId = some s := by rw [byId_stepId hk]; exact hk
      simp only [hsk, Option.map_some, Option.some.injEq] at hds
      subst hds
      refine ⟨byId_mem hk, hnew, fun d hd hp => hdep d hd ?_⟩
      simpa using byId_isSome.2 hp
    · rintro d ⟨t, ht, rfl⟩
      rw [map_stepId_filterMap hsome]
      apply Toposort.mem_sort ho (List.mem_map_of_mem ht)
      simpa using byId_isSome.2 ⟨t, ht, rfl⟩
  · cases h

theorem Walk.nodup {plan : Plan} {steps : List PlanStep} (h : Walk plan steps) :
    (steps.map (·.stepId)).Nodup := by
  have key : ∀ l, Always (fun h (s : PlanStep) => s.stepId ∉ h.map (·.stepId)) l →
      (l.map (·.stepId)).Nodup := by
    intro l
    induction l using List.reverseRecOn with
    | nil => intro _; simp
    | append_singleton l s ih =>
      intro hl
      obtain ⟨h₁, h₂⟩ := always_snoc.1 hl
      rw [List.map_append]
      exact List.Nodup.append (ih h₁) (List.nodup_singleton _) (by simpa using h₂)
  exact key _ (h.sorted.mono fun _ _ h => h.2.1)

theorem Walk.mem {plan : Plan} {steps : List PlanStep} (h : Walk plan steps) {s : PlanStep}
    (hs : s ∈ steps) : s ∈ plan.steps := by
  obtain ⟨l, u, rfl⟩ := List.append_of_mem hs
  exact (always_iff_split.1 h.sorted l s u rfl).1

theorem Walk.of_steps_eq {plan plan' : Plan} {steps : List PlanStep} (h : Walk plan steps)
    (hs : plan'.steps = plan.steps) : Walk plan' steps := by
  obtain ⟨h₁, h₂⟩ := h
  unfold Plan.Has at h₁ h₂
  rw [← hs] at h₁ h₂
  exact ⟨h₁, h₂⟩

/-! ## How the record grows -/

@[simp] theorem Session.emit_log (s : Session σ) (e : PlannerEvent) : (s.emit e).log = s.log := rfl

theorem callExecutor_eq (exec : Executor σ) (plan : Plan) (phase : Phase) (ahead : List String)
    (step : PlanStep) (s : Session σ) :
    callExecutor exec plan phase ahead step s = ((exec step s.host).1,
      { s with
        host := (exec step s.host).2
        log := s.log ++ [.call ⟨plan, step, phase, ahead, s.host, (exec step s.host).1,
          (exec step s.host).2⟩] }) := rfl

/-- The calls of one retry loop. -/
structure RetryCalls (plan : Plan) (ahead : List String) (step : PlanStep) (budget : ℕ)
    (r : Except Exc ExecutionOutcome) (cs : List (Call σ)) : Prop where
  call : ∀ c ∈ cs, c.plan = plan ∧ c.step = step ∧ c.phase = .ordered ∧ c.ahead = ahead
  /-- Only the last call can be a success. -/
  stop : Always (fun h (_ : Call σ) => ∀ c ∈ h, c.succeeded = false) cs
  success : ∀ o, r = .ok o → o.status = .success → ∃ c ∈ cs, c.succeeded = true
  exhausted : ∀ o, r = .ok o → o.status ≠ .success →
    (∀ c ∈ cs, c.succeeded = false) ∧ cs.length = budget + 1

/-- A loop that ends with its first call: it raised, it succeeded, or no retries were left. -/
theorem RetryCalls.once {plan : Plan} {ahead : List String} {step : PlanStep} {budget : ℕ}
    {r : Except Exc ExecutionOutcome} {c : Call σ}
    (hc : c.plan = plan ∧ c.step = step ∧ c.phase = .ordered ∧ c.ahead = ahead)
    (hr : ∀ o, r = .ok o → (c.succeeded = true ↔ o.status = .success))
    (hend : ∀ o, r = .ok o → o.status ≠ .success → budget = 0) :
    RetryCalls plan ahead step budget r [c] := by
  refine ⟨by simpa using hc, always_snoc (t := []).2 ⟨always_nil, by simp⟩, ?_, ?_⟩
  · intro o ho hs
    exact ⟨c, List.mem_singleton_self c, (hr o ho).2 hs⟩
  · intro o ho hs
    have hfail : c.succeeded = false := Bool.eq_false_iff.2 fun ht => hs ((hr o ho).1 ht)
    refine ⟨by simpa using hfail, ?_⟩
    rw [hend o ho hs]
    rfl

/-- A failed call before the others. -/
theorem RetryCalls.cons {plan : Plan} {ahead : List String} {step : PlanStep} {budget : ℕ}
    {r : Except Exc ExecutionOutcome} {c : Call σ} {cs : List (Call σ)}
    (h : RetryCalls plan ahead step budget r cs)
    (hc : c.plan = plan ∧ c.step = step ∧ c.phase = .ordered ∧ c.ahead = ahead)
    (hfail : c.succeeded = false) : RetryCalls plan ahead step (budget + 1) r (c :: cs) := by
  have hall : ∀ {l : List (Call σ)}, (∀ c' ∈ l, c'.succeeded = false) →
      ∀ c' ∈ c :: l, c'.succeeded = false := by
    intro l hl c' hc'
    rcases List.mem_cons.1 hc' with rfl | hc'
    · exact hfail
    · exact hl c' hc'
  refine ⟨?_, ?_, ?_, ?_⟩
  · intro c' hc'
    rcases List.mem_cons.1 hc' with rfl | hc'
    · exact hc
    · exact h.call c' hc'
  · refine always_append (t := [c]).2 ⟨always_snoc (t := []).2 ⟨always_nil, by simp⟩, ?_⟩
    exact h.stop.mono fun l _ hl => hall hl
  · intro o ho hs
    obtain ⟨c', hm, hs'⟩ := h.success o ho hs
    exact ⟨c', List.mem_cons_of_mem _ hm, hs'⟩
  · intro o ho hs
    obtain ⟨hfails, hlen⟩ := h.exhausted o ho hs
    refine ⟨hall hfails, ?_⟩
    rw [List.length_cons, hlen]

/-- **The retry loop** calls the executor until a success or `budget + 1` times. -/
theorem retryLoop_spec (exec : Executor σ) (plan : Plan) (ahead : List String) (step : PlanStep)
    (budget retry : ℕ) (s : Session σ) : ∃ cs : List (Call σ),
      (retryLoop exec plan ahead step budget retry s).2.log = s.log ++ cs.map .call ∧
      RetryCalls plan ahead step budget (retryLoop exec plan ahead step budget retry s).1 cs := by
  have hcalled : ∀ {s s₁ : Session σ} {r : Except Exc ExecutionOutcome},
      callExecutor exec plan .ordered ahead step s = (r, s₁) →
      ∃ c : Call σ, s₁.log = s.log ++ [.call c] ∧
        (c.plan = plan ∧ c.step = step ∧ c.phase = .ordered ∧ c.ahead = ahead) ∧
        ∀ o, r = .ok o → (c.succeeded = true ↔ o.status = .success) := by
    intro s s₁ r hr
    rw [callExecutor_eq] at hr
    obtain ⟨hres, hs₁⟩ := Prod.mk.inj hr
    refine ⟨⟨plan, step, .ordered, ahead, s.host, (exec step s.host).1, (exec step s.host).2⟩, ?_,
      ⟨rfl, rfl, rfl, rfl⟩, ?_⟩
    · rw [← hs₁]
    · intro o ho
      unfold Call.succeeded
      rw [hres, ho]
      simp
  fun_induction retryLoop exec plan ahead step budget retry s with
  | case1 _ _ _ _ _ hr =>
    obtain ⟨c, hlog, hc, hs⟩ := hcalled hr
    exact ⟨[c], hlog, .once hc hs (by simp)⟩
  | case2 _ _ _ _ _ hr _ _ ho =>
    obtain ⟨c, hlog, hc, hs⟩ := hcalled hr
    refine ⟨[c], hlog, .once hc ?_ ?_⟩
    · intro o' h'
      cases h'
      have hone := hs _ rfl
      exact hone
    · intro o' h' hne
      cases h'
      exact absurd ho hne
  | case3 _ _ _ _ hr =>
    obtain ⟨c, hlog, hc, hs⟩ := hcalled hr
    refine ⟨[c], hlog, .once hc ?_ fun _ _ _ => rfl⟩
    intro o' h'
    cases h'
    have hone := hs _ rfl
    exact hone
  | case4 _ _ _ _ hr _ _ ho _ _ ih =>
    -- a failure with retries left: the rest of the loop runs on the recorded session
    obtain ⟨c, hlog, hc, hs⟩ := hcalled hr
    obtain ⟨cs, hrest, hcalls⟩ := ih
    have hfail : c.succeeded = false := Bool.eq_false_iff.2 fun ht => ho ((hs _ rfl).1 ht)
    have hall := hrest.trans (congrArg (· ++ cs.map LogEntry.call) hlog)
    rw [List.append_assoc] at hall
    exact ⟨c :: cs, hall, hcalls.cons hc hfail⟩

/-- Entry `e` is what the recovery loop over `adapted` records for `step`. -/
def Recorded (adapted : Plan) (ahead : List String) (e : LogEntry σ) (step : PlanStep) : Prop :=
  (∃ c : Call σ, e = .call c ∧ c.plan = adapted ∧ c.step = step ∧ c.phase = .recovery ∧
    c.ahead = ahead) ∨
  ∃ o, e = .skip adapted step o ∧ o.planId = adapted.planId ∧ o.stepId = step.stepId ∧
    o.status = .success

theorem alreadySucceeded_some {p : Planner} {plan : Plan} {step : PlanStep} {o : ExecutionOutcome}
    (h : p.alreadySucceeded plan step = some o) :
    o.planId = plan.planId ∧ o.stepId = step.stepId ∧ o.status = .success := by
  simpa using List.find?_some h

/-- **The recovery loop** records one entry for each step, in order. -/
theorem recoveryLoop_spec (exec : Executor σ) (adapted : Plan) (ahead : List String) :
    ∀ steps (s : Session σ), ∃ es pre,
      (recoveryLoop exec adapted ahead steps s).2.log = s.log ++ es ∧ pre <+: steps ∧
      List.Forall₂ (Recorded adapted ahead) es pre := by
  intro steps
  induction steps with
  | nil => intro s; exact ⟨[], [], by simp [recoveryLoop], List.prefix_rfl, .nil⟩
  | cons step steps ih =>
    intro s
    unfold recoveryLoop
    cases hd : s.planner.alreadySucceeded adapted step with
    | some o =>
      obtain ⟨es, pre, hlog, hpre, hall⟩ := ih { s with log := s.log ++ [.skip adapted step o] }
      refine ⟨.skip adapted step o :: es, step :: pre, by simp [hlog],
        List.cons_prefix_cons.2 ⟨rfl, hpre⟩, .cons (Or.inr ⟨o, rfl, alreadySucceeded_some hd⟩) hall⟩
    | none =>
      simp only
      rw [callExecutor_eq]
      have hrec : Recorded adapted ahead (.call ⟨adapted, step, .recovery, ahead, s.host,
          (exec step s.host).1, (exec step s.host).2⟩) step := Or.inl ⟨_, rfl, rfl, rfl, rfl, rfl⟩
      cases hr : (exec step s.host).1 with
      | error e =>
        rw [hr] at hrec
        exact ⟨[_], [step], by simp, List.cons_prefix_cons.2 ⟨rfl, List.nil_prefix⟩,
          .cons hrec .nil⟩
      | ok o =>
        rw [hr] at hrec
        simp only
        obtain ⟨es, pre, hlog, hpre, hall⟩ := ih _
        exact ⟨_ :: es, step :: pre, by rw [hlog]; simp, List.cons_prefix_cons.2 ⟨rfl, hpre⟩,
          .cons hrec hall⟩

/-- **Recovery**: a replan entry, then the recovery loop's entries for the first sorted
steps of the adapted plan. -/
theorem recover_spec (P : PlannerEnv) (exec : Executor σ) (plan : Plan) (ahead : List String)
    (step : PlanStep) (status : OutcomeStatus) (s : Session σ) :
    ∃ adapted es pre,
      (recover P exec plan ahead step status s).2.log = s.log ++ .replan step adapted :: es ∧
      (∀ steps, toposort adapted = .ok steps → pre <+: steps) ∧
      (∀ e, toposort adapted = .error e → pre = []) ∧
      List.Forall₂ (Recorded adapted ahead) es pre := by
  unfold recover
  simp only
  split
  · rename_i e he
    refine ⟨_, [], [], rfl, ?_, fun _ _ => rfl, .nil⟩
    intro steps _
    exact List.nil_prefix
  · rename_i steps hsteps
    obtain ⟨es, pre, hlog, hpre, hall⟩ := recoveryLoop_spec exec _ ahead steps _
    refine ⟨_, es, pre, by rw [hlog]; simp, ?_, ?_, hall⟩
    · intro steps' h
      rw [hsteps] at h
      cases h; exact hpre
    · intro e h
      rw [hsteps] at h
      cases h

/-! ## The ordered walk -/

/-- What one step of the ordered walk adds to the record: the calls of its retry loop, and
a recovery when none of them succeeded. -/
inductive StepRun (plan : Plan) (ahead : List String) (step : PlanStep) :
    List (LogEntry σ) → Except Exc (ExecutionOutcome × Plan) → Prop where
  | raised {cs : List (Call σ)} {e : Exc} :
    RetryCalls plan ahead step step.retryBudget.toNat (.error e) cs →
    StepRun plan ahead step (cs.map .call) (.error e)
  | succeeded {cs : List (Call σ)} {o : ExecutionOutcome} :
    RetryCalls plan ahead step step.retryBudget.toNat (.ok o) cs → o.status = .success →
    StepRun plan ahead step (cs.map .call) (.ok (o, plan))
  | recovered {cs : List (Call σ)} {o : ExecutionOutcome} {adapted : Plan}
    {es : List (LogEntry σ)} {pre : List PlanStep} {r} :
    RetryCalls plan ahead step step.retryBudget.toNat (.ok o) cs → o.status ≠ .success →
    (∀ steps, toposort adapted = .ok steps → pre <+: steps) →
    (∀ e, toposort adapted = .error e → pre = []) →
    List.Forall₂ (Recorded adapted ahead) es pre →
    (∀ o' plan', r = .ok (o', plan') → plan' = { plan with status := .adapted }) →
    StepRun plan ahead step (cs.map .call ++ .replan step adapted :: es) r

theorem executeStepWithRetry_run (P : PlannerEnv) (exec : Executor σ) (plan : Plan)
    (ahead : List String) (step : PlanStep) (s : Session σ) : ∃ new,
      (executeStepWithRetry P exec plan ahead step s).2.log = s.log ++ new ∧
      StepRun plan ahead step new (executeStepWithRetry P exec plan ahead step s).1 := by
  unfold executeStepWithRetry
  obtain ⟨cs, hlog, hcs⟩ := retryLoop_spec exec plan ahead step step.retryBudget.toNat 0 s
  generalize retryLoop exec plan ahead step step.retryBudget.toNat 0 s = R at hlog hcs ⊢
  obtain ⟨r, s₁⟩ := R
  cases r with
  | error e => exact ⟨_, hlog, .raised hcs⟩
  | ok o =>
    simp only at hlog hcs ⊢
    by_cases ho : o.status = .success
    · rw [if_pos ho]
      exact ⟨_, hlog, .succeeded hcs ho⟩
    · rw [if_neg ho]
      obtain ⟨adapted, es, pre, hlog₂, hok, herr, hes⟩ :=
        recover_spec P exec plan ahead step o.status s₁
      generalize recover P exec plan ahead step o.status s₁ = R at hlog₂ ⊢
      obtain ⟨r, s₂⟩ := R
      have hlog' : s₂.log = s.log ++ (cs.map .call ++ .replan step adapted :: es) := by
        rw [hlog₂, hlog, List.append_assoc]
      cases r with
      | error e => exact ⟨_, hlog', .recovered hcs ho hok herr hes (by simp)⟩
      | ok _ =>
        refine ⟨_, hlog', .recovered hcs ho hok herr hes ?_⟩
        intro o' plan' h
        cases h; rfl

/-- What the ordered walk over `steps` adds to the record. -/
inductive WalkRun : Plan → List PlanStep → List (LogEntry σ) → Prop where
  | nil {plan : Plan} : WalkRun plan [] []
  | stop {plan : Plan} {step : PlanStep} {steps : List PlanStep} {new : List (LogEntry σ)} {e : Exc} :
    StepRun plan (steps.map (·.stepId)) step new (.error e) → WalkRun plan (step :: steps) new
  | next {plan plan' : Plan} {step : PlanStep} {steps : List PlanStep} {new more : List (LogEntry σ)}
    {o : ExecutionOutcome} : StepRun plan (steps.map (·.stepId)) step new (.ok (o, plan')) →
    WalkRun plan' steps more → WalkRun plan (step :: steps) (new ++ more)

theorem orderedLoop_run (P : PlannerEnv) (exec : Executor σ) :
    ∀ (steps : List PlanStep) (plan : Plan) (s : Session σ), ∃ new,
      (orderedLoop P exec plan steps s).2.log = s.log ++ new ∧ WalkRun plan steps new := by
  intro steps
  induction steps with
  | nil => intro plan s; exact ⟨[], by simp [orderedLoop], .nil⟩
  | cons step steps ih =>
    intro plan s
    unfold orderedLoop
    obtain ⟨new, hlog, hnew⟩ :=
      executeStepWithRetry_run P exec plan (steps.map (·.stepId)) step s
    generalize executeStepWithRetry P exec plan (steps.map (·.stepId)) step s = R at hlog hnew ⊢
    obtain ⟨r, s₁⟩ := R
    cases r with
    | error e => exact ⟨new, hlog, .stop hnew⟩
    | ok x =>
      obtain ⟨o, plan'⟩ := x
      obtain ⟨more, hlog', hmore⟩ := ih plan' s₁
      refine ⟨new ++ more, ?_, .next hnew hmore⟩
      simp only at hlog ⊢
      rw [hlog', hlog, List.append_assoc]

/-- **The record of an `execute_plan` call** is that of an ordered walk, or empty. -/
theorem executePlan_run (P : PlannerEnv) (exec : Executor σ) (planId : String) (p : Planner)
    (x : σ) : (executePlan P exec planId p x).2.log = [] ∨
      ∃ plan steps, toposort plan = .ok steps ∧ WalkRun plan steps (executePlan P exec planId p x).2.log
      := by
  unfold executePlan
  cases p.getPlan planId with
  | none => exact Or.inl rfl
  | some plan =>
    simp only
    split
    · exact Or.inl rfl
    · rename_i ordered hsort
      obtain ⟨new, hlog, hnew⟩ := orderedLoop_run P exec ordered { plan with status := .active }
        ⟨(p.setPlan { plan with status := .active }).persistPlan { plan with status := .active }, x, []⟩
      rw [List.nil_append] at hlog
      rw [← hlog] at hnew
      refine Or.inr ⟨_, ordered, hsort, ?_⟩
      generalize orderedLoop P exec _ ordered _ = R at hnew ⊢
      obtain ⟨r, s⟩ := R
      cases r with
      | error e => exact hnew
      | ok plan' =>
        simp only at hnew ⊢
        split
        · exact hnew
        · exact hnew

end Hermes

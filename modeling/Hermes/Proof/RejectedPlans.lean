import Hermes.Proof.PlanTurns

/-!
# Plans that are rejected

`execute_plan` marks a plan active, and stores it, before its steps are sorted.

* `Planner.Keyed`, `keyed_run`: each plan is under its own id.
* `Rejected`: the plan is not known, or it has a cycle, or one that it was adapted to.
* `WalkRun.call_of_replan`: a plan was adapted only after a step was executed.
* `rejected_untouched_iff`: when a plan that is rejected is as before.
-/

namespace Hermes

variable {σ : Type} {P : PlannerEnv} {exec : Executor σ} {planId : String} {p : Planner} {x : σ}

/-! ## Plans under their ids -/

/-- Each plan is under its own id, in memory and in the store. -/
structure Planner.Keyed (p : Planner) : Prop where
  plans : ∀ k plan, p.plans.get? k = some plan → plan.planId = k
  rows : ∀ rows os, p.persist = some (rows, os) → ∀ k plan, rows.get? k = some plan → plan.planId = k

theorem Planner.Keyed.emit (h : p.Keyed) (e : PlannerEvent) : (p.emit e).Keyed := ⟨h.plans, h.rows⟩

theorem Planner.Keyed.recordOutcome (h : p.Keyed) (o : ExecutionOutcome) :
    (p.recordOutcome o).Keyed where
  plans := h.plans
  rows rows os hrows := by
    obtain ⟨⟨rows', os'⟩, hpersist, heq⟩ := Option.map_eq_some_iff.1 hrows
    cases heq
    exact h.rows rows os' hpersist

theorem keyed_insert {d : Dict String Plan} (h : ∀ k plan, d.get? k = some plan → plan.planId = k)
    (new : Plan) : ∀ k plan, (d.insert new.planId new).get? k = some plan → plan.planId = k := by
  intro k plan hk
  rw [Dict.get?_insert] at hk
  split at hk
  · rename_i heq
    rw [heq, ← Option.some.inj hk]
  · exact h k plan hk

theorem Planner.Keyed.persistPlan (h : p.Keyed) (plan : Plan) : (p.persistPlan plan).Keyed where
  plans := h.plans
  rows rows os hrows := by
    obtain ⟨⟨rows', os'⟩, hpersist, heq⟩ := Option.map_eq_some_iff.1 hrows
    cases heq
    exact keyed_insert (h.rows rows' os hpersist) plan

theorem Planner.Keyed.setPlan (h : p.Keyed) (plan : Plan) : (p.setPlan plan).Keyed := by
  unfold Planner.setPlan
  split
  · exact ⟨keyed_insert h.plans plan, h.rows⟩
  · exact h

/-- A new plan. -/
theorem Planner.Keyed.add (h : p.Keyed) (plan : Plan) (fresh : ℕ) :
    Planner.Keyed { p with plans := p.plans.insert plan.planId plan, fresh } :=
  ⟨keyed_insert h.plans plan, h.rows⟩

theorem Planner.Keyed.replan (h : p.Keyed) (plan : Plan) (t : ReplanTrigger) :
    (replan P plan t p).2.Keyed :=
  ((h.add _ _).persistPlan _).emit _

variable (exec) in
theorem retryLoop_keyed (plan : Plan) (ahead : List String) (step : PlanStep) (budget retry : ℕ)
    (s : Session σ) (h : s.planner.Keyed) :
    (retryLoop exec plan ahead step budget retry s).2.planner.Keyed := by
  have hcalled : ∀ {s s₁ : Session σ} {r : Except Exc ExecutionOutcome},
      callExecutor exec plan .ordered ahead step s = (r, s₁) → s.planner.Keyed →
        s₁.planner.Keyed := by
    intro s s₁ r hr hs
    rw [callExecutor_eq] at hr
    rw [← (Prod.mk.inj hr).2]
    exact hs
  fun_induction retryLoop exec plan ahead step budget retry s with
  | case1 _ _ _ _ _ hr => exact hcalled hr h
  | case2 _ _ _ _ _ hr => exact ((hcalled hr h).recordOutcome _).emit _
  | case3 _ _ _ _ hr => exact (hcalled hr h).recordOutcome _
  | case4 _ _ _ _ hr _ _ _ _ _ ih => exact ih ((((hcalled hr h).recordOutcome _).emit _).emit _)

theorem recoveryLoop_keyed (adapted : Plan) (ahead : List String) : ∀ steps (s : Session σ),
    s.planner.Keyed → (recoveryLoop exec adapted ahead steps s).2.planner.Keyed := by
  intro steps
  induction steps with
  | nil => intro s h; exact h
  | cons step steps ih =>
    intro s h
    unfold recoveryLoop
    cases s.planner.alreadySucceeded adapted step with
    | some o => exact ih _ h
    | none =>
      simp only
      rw [callExecutor_eq]
      cases (exec step s.host).1 with
      | error e => exact h
      | ok o => exact ih _ ((h.recordOutcome _).emit _)

variable (P exec) in
theorem recover_keyed (plan : Plan) (ahead : List String) (step : PlanStep) (status : OutcomeStatus)
    (s : Session σ) (h : s.planner.Keyed) :
    (recover P exec plan ahead step status s).2.planner.Keyed := by
  have hset : ∀ (t : ReplanTrigger) (q : Planner), q.Keyed →
      ((replan P plan t q).2.setPlan { plan with status := .adapted }).Keyed :=
    fun t q hq => (hq.replan plan t).setPlan _
  unfold recover
  simp only
  split
  · exact hset _ _ ⟨h.plans, h.rows⟩
  · exact recoveryLoop_keyed _ ahead _ _ (hset _ _ ⟨h.plans, h.rows⟩)

variable (P exec) in
theorem executeStepWithRetry_keyed (plan : Plan) (ahead : List String) (step : PlanStep)
    (s : Session σ) (h : s.planner.Keyed) :
    (executeStepWithRetry P exec plan ahead step s).2.planner.Keyed := by
  unfold executeStepWithRetry
  have hloop := retryLoop_keyed exec plan ahead step step.retryBudget.toNat 0 s h
  generalize retryLoop exec plan ahead step step.retryBudget.toNat 0 s = R at hloop ⊢
  obtain ⟨r, s₁⟩ := R
  cases r with
  | error e => exact hloop
  | ok o =>
    simp only at hloop ⊢
    split
    · exact hloop
    · have hrecover := recover_keyed P exec plan ahead step o.status s₁ hloop
      generalize recover P exec plan ahead step o.status s₁ = R at hrecover ⊢
      obtain ⟨r, s₂⟩ := R
      cases r with
      | error e => exact hrecover
      | ok _ => exact hrecover

variable (P exec) in
theorem orderedLoop_keyed : ∀ (steps : List PlanStep) (plan : Plan) (s : Session σ),
    s.planner.Keyed → (orderedLoop P exec plan steps s).2.planner.Keyed := by
  intro steps
  induction steps with
  | nil => intro plan s h; exact h
  | cons step steps ih =>
    intro plan s h
    unfold orderedLoop
    have hstep := executeStepWithRetry_keyed P exec plan
      (steps.map (·.stepId)) step s h
    generalize executeStepWithRetry P exec plan (steps.map (·.stepId)) step s = R at hstep ⊢
    obtain ⟨r, s₁⟩ := R
    cases r with
    | error e => exact hstep
    | ok done => exact ih done.2 s₁ hstep

theorem executePlan_keyed (h : p.Keyed) : (executePlan P exec planId p x).2.planner.Keyed := by
  unfold executePlan
  cases p.getPlan planId with
  | none => exact h
  | some plan =>
    simp only
    have hmarked := (h.setPlan { plan with status := .active }).persistPlan
      { plan with status := .active }
    split
    · exact hmarked
    · rename_i ordered _
      have hloop := orderedLoop_keyed P exec ordered { plan with status := .active }
        ⟨(p.setPlan { plan with status := .active }).persistPlan { plan with status := .active }, x, []⟩
        hmarked
      generalize orderedLoop P exec _ ordered _ = R at hloop ⊢
      obtain ⟨r, s⟩ := R
      cases r with
      | error e => exact hloop
      | ok plan' =>
        simp only at hloop ⊢
        split
        · exact hloop
        · exact (hloop.setPlan _).persistPlan _

theorem createPlan_keyed (h : p.Keyed) (workflowId : String) (steps : List PlanStep) :
    (createPlan P workflowId steps p).2.Keyed := by
  have hemit : ∀ (planId : String) (ss : List PlanStep) (q : Planner), q.Keyed →
      (ss.foldl (fun q s => q.emit (.stepPlanned planId s.stepId s.capability s.agentId s.risk))
        q).Keyed := by
    intro planId ss
    induction ss with
    | nil => intro q hq; exact hq
    | cons s ss ih => intro q hq; exact ih _ (hq.emit _)
  exact hemit _ steps _ (((h.add _ _).persistPlan _).emit _)

/-- **A planner keeps each plan under its own id.** -/
theorem keyed_run (ops : List (PlannerOp σ)) : ∀ {p : Planner} {x : σ}, p.Keyed →
    (ops.foldl (PlannerOp.run P) (p, x)).1.Keyed := by
  induction ops with
  | nil => intro p x h; exact h
  | cons op ops ih =>
    intro p x h
    cases op with
    | create workflowId steps => exact ih (createPlan_keyed h workflowId steps)
    | execute planId exec => exact ih (executePlan_keyed h)

/-! ## Rejection -/

/-- `execute_plan` raises because the plan is not known, or has a cycle, or was adapted to a plan that
has one. -/
inductive Rejected (P : PlannerEnv) (exec : Executor σ) (planId : String) (p : Planner) (x : σ) :
    Prop where
  | unknown (hplan : p.getPlan planId = none)
  | cyclic {plan : Plan} (hplan : p.getPlan planId = some plan) {e : Exc}
      (hcycle : toposort plan = .error e)
  | adapted {before : List (LogEntry σ)} {step : PlanStep} {adapted : Plan} {e : Exc}
      (hlog : (executePlan P exec planId p x).2.log = before ++ [.replan step adapted])
      (hcycle : toposort adapted = .error e)
      (hraises : (executePlan P exec planId p x).1 = .error e)

/-- No step was executed, and the planner is as before: the plan, the maps, and the rows of the
store. -/
structure Untouched (p : Planner) (s : Session σ) : Prop where
  calls : ∀ c, .call c ∉ s.log
  planner : s.planner = p

/-- A rejected plan makes `execute_plan` raise. -/
theorem Rejected.raises (h : Rejected P exec planId p x) :
    ∃ e, (executePlan P exec planId p x).1 = .error e := by
  cases h with
  | unknown hplan =>
    unfold executePlan
    rw [hplan]
    exact ⟨_, rfl⟩
  | @cyclic plan hplan e hcycle =>
    have hsort : toposort { plan with status := .active } = .error e := hcycle
    unfold executePlan
    simp only [hplan, hsort]
    exact ⟨e, rfl⟩
  | adapted _ _ hraises => exact ⟨_, hraises⟩

theorem StepRun.call_of_replan {plan adapted : Plan} {ahead : List String} {step failed : PlanStep}
    {new : List (LogEntry σ)} {r : Except Exc (ExecutionOutcome × Plan)}
    (h : StepRun plan ahead step new r) (hmem : .replan failed adapted ∈ new) :
    ∃ c, .call c ∈ new := by
  have hcalls : ∀ cs : List (Call σ), .replan failed adapted ∉ cs.map LogEntry.call := by
    intro cs hin
    obtain ⟨c, -, heq⟩ := List.mem_map.1 hin
    cases heq
  cases h with
  | raised _ => exact absurd hmem (hcalls _)
  | succeeded _ _ => exact absurd hmem (hcalls _)
  | @recovered cs o _ _ _ _ hrun hfail _ _ _ _ =>
    -- the retries were used up, so there was a try
    obtain ⟨-, hlength⟩ := hrun.exhausted o rfl hfail
    obtain ⟨c, hc⟩ := List.exists_mem_of_length_pos (l := cs) (by omega)
    exact ⟨c, List.mem_append_left _ (List.mem_map_of_mem hc)⟩

/-- **A plan is adapted** only after a step of it was executed. -/
theorem WalkRun.call_of_replan {plan adapted : Plan} {steps : List PlanStep} {failed : PlanStep}
    {log : List (LogEntry σ)} (h : WalkRun plan steps log) (hmem : .replan failed adapted ∈ log) :
    ∃ c, .call c ∈ log := by
  induction h with
  | nil => cases hmem
  | stop hstep => exact hstep.call_of_replan hmem
  | next hstep _ ih =>
    rcases List.mem_append.1 hmem with hmem | hmem
    · obtain ⟨c, hc⟩ := hstep.call_of_replan hmem
      exact ⟨c, List.mem_append_left _ hc⟩
    · obtain ⟨c, hc⟩ := ih hmem
      exact ⟨c, List.mem_append_right _ hc⟩

theorem setPlan_eq_self_iff {plan : Plan} :
    p.setPlan plan = p ↔ ∀ found, p.plans.get? plan.planId = some found → found = plan := by
  unfold Planner.setPlan
  cases hget : p.plans.get? plan.planId with
  | none => exact iff_of_true rfl nofun
  | some found =>
    simp only [Option.isSome_some, if_true, Option.some.injEq, forall_eq']
    constructor
    · intro h
      have hplans := Dict.insert_eq_self_iff.1 (congrArg Planner.plans h)
      rw [hget] at hplans
      exact Option.some.inj hplans
    · rintro rfl
      rw [Dict.insert_eq_self_iff.2 hget]

theorem persistPlan_eq_self_iff {plan : Plan} : p.persistPlan plan = p ↔
    ∀ rows os, p.persist = some (rows, os) → rows.get? plan.planId = some plan := by
  unfold Planner.persistPlan
  constructor
  · intro h rows os hrows
    have hpersist := congrArg Planner.persist h
    simp only [hrows, Option.map_some, Option.some.injEq, Prod.mk.injEq, and_true] at hpersist
    exact Dict.insert_eq_self_iff.1 hpersist
  · intro h
    obtain ⟨plans, outcomes, replans, persist, fresh, events⟩ := p
    cases persist with
    | none => rfl
    | some stored =>
      obtain ⟨rows, os⟩ := stored
      have hrow := Dict.insert_eq_self_iff.2 (h rows os rfl)
      simp only [Option.map_some, hrow]

/-- Memory and the store are written apart. -/
theorem persistPlan_setPlan_eq_self_iff {plan : Plan} :
    (p.setPlan plan).persistPlan plan = p ↔ p.setPlan plan = p ∧ p.persistPlan plan = p := by
  constructor
  · intro h
    have hset : p.setPlan plan = p := by
      have hplans : ((p.setPlan plan).persistPlan plan).plans = p.plans := congrArg Planner.plans h
      change (p.setPlan plan).plans = p.plans at hplans
      unfold Planner.setPlan at hplans ⊢
      split at hplans
      · rename_i hmem
        rw [if_pos hmem]
        exact congrArg (fun d => { p with plans := d }) hplans
      · rename_i hmem
        rw [if_neg hmem]
    refine ⟨hset, ?_⟩
    rwa [hset] at h
  · rintro ⟨hset, hpersist⟩
    rw [hset, hpersist]

/-- **Marking a plan active**, in memory and in the store, changes nothing exactly when it is active
and the store has it so. -/
theorem marked_eq_self_iff (hkeyed : p.Keyed) {plan : Plan} (hplan : p.getPlan planId = some plan) :
    (p.setPlan { plan with status := .active }).persistPlan { plan with status := .active } = p ↔
      plan.status = .active ∧
        ∀ rows os, p.persist = some (rows, os) → rows.get? planId = some plan := by
  have hsame : ({ plan with status := .active } : Plan) = plan ↔ plan.status = .active := by
    constructor
    · intro heq
      rw [← heq]
    · intro hactive
      rw [← hactive]
  rw [persistPlan_setPlan_eq_self_iff, setPlan_eq_self_iff, persistPlan_eq_self_iff]
  unfold Planner.getPlan at hplan
  cases hmemory : p.plans.get? planId with
  | some found =>
    rw [hmemory] at hplan
    obtain rfl : found = plan := Option.some.inj hplan
    obtain rfl : found.planId = planId := hkeyed.plans planId found hmemory
    simp only [hmemory, Option.some.injEq, forall_eq']
    rw [eq_comm, hsame]
    refine and_congr_right fun hactive => ?_
    rw [hsame.2 hactive]
  | none =>
    rw [hmemory, Option.none_or] at hplan
    obtain ⟨⟨rows, os⟩, hstored, hget⟩ := Option.bind_eq_some_iff.1 hplan
    change rows.get? planId = some plan at hget
    obtain rfl : plan.planId = planId := hkeyed.rows rows os hstored planId plan hget
    simp only [hmemory, reduceCtorEq, false_implies, implies_true, true_and]
    constructor
    · intro h
      have hrow := h rows os hstored
      rw [hget] at hrow
      have hactive := hsame.1 (Option.some.inj hrow).symm
      rw [hsame.2 hactive] at h
      exact ⟨hactive, h⟩
    · rintro ⟨hactive, h⟩
      rw [hsame.2 hactive]
      exact h

/-- **A rejected plan is as before** exactly when it is not known, or has a cycle itself, was active
already, and is in the store, if there is one, as it is. -/
theorem rejected_untouched_iff (hkeyed : p.Keyed) (h : Rejected P exec planId p x) :
    Untouched p (executePlan P exec planId p x).2 ↔
      p.getPlan planId = none ∨ ∃ plan, p.getPlan planId = some plan ∧
        (∃ e, toposort plan = .error e) ∧ plan.status = .active ∧
          ∀ rows os, p.persist = some (rows, os) → rows.get? planId = some plan := by
  cases h with
  | unknown hplan =>
    unfold executePlan
    rw [hplan]
    exact iff_of_true ⟨fun _ => List.not_mem_nil, rfl⟩ (.inl rfl)
  | @cyclic plan hplan e hcycle =>
    have hsort : toposort { plan with status := .active } = .error e := hcycle
    have hmarked := marked_eq_self_iff hkeyed hplan
    unfold executePlan
    simp only [hplan, hsort, reduceCtorEq, false_or, Option.some.injEq, exists_eq_left']
    rw [← hmarked]
    exact ⟨fun huntouched => ⟨⟨e, hcycle⟩, huntouched.planner⟩,
      fun hkept => ⟨fun _ => List.not_mem_nil, hkept.2⟩⟩
  | @adapted before step adapted e hlog hcycle hraises =>
    have hmem : .replan step adapted ∈ (executePlan P exec planId p x).2.log := by
      rw [hlog]
      exact List.mem_append_right _ (List.mem_singleton_self _)
    obtain hnil | ⟨plan, steps, hsort, hrun⟩ := executePlan_run P exec planId p x
    · rw [hnil] at hmem
      cases hmem
    · obtain ⟨c, hc⟩ := hrun.call_of_replan hmem
      refine iff_of_false (fun huntouched => huntouched.calls c hc) ?_
      -- a plan that is not known, or cannot be sorted, leaves no record
      rintro (hnone | ⟨found, hfound, ⟨e', he'⟩, -⟩)
      · unfold executePlan at hc
        rw [hnone] at hc
        cases hc
      · have hfail : toposort { found with status := .active } = .error e' := he'
        unfold executePlan at hc
        simp only [hfound, hfail] at hc
        cases hc

/-- A plan with a step that depends on itself. -/
def cyclicPlan (status : PlanStatus) : Plan where
  planId := "p"
  workflowId := "w"
  status := status
  steps := [{ stepId := "a", capability := "c", dependencies := ["a"] }]

/-- It is in memory and in the store. -/
def cyclicPlanner (status : PlanStatus) : Planner where
  plans := (∅ : Dict String Plan).insert (cyclicPlan status).planId (cyclicPlan status)
  persist := some ((∅ : Dict String Plan).insert (cyclicPlan status).planId (cyclicPlan status), ∅)

theorem cyclicPlanner_keyed (status : PlanStatus) : (cyclicPlanner status).Keyed := by
  have hnone : ∀ k (plan : Plan), (∅ : Dict String Plan).get? k = some plan → plan.planId = k := by
    rintro k plan ⟨⟩
  refine ⟨keyed_insert hnone (cyclicPlan status), ?_⟩
  rintro rows os ⟨⟩
  exact keyed_insert hnone (cyclicPlan status)

/-- It is active, and stored so. -/
theorem rejected_active : Untouched (cyclicPlanner .active)
    (executePlan decimalIds (failing "a") "p" (cyclicPlanner .active) ()).2 ↔
      (cyclicPlanner .active).getPlan "p" = none ∨
        ∃ plan, (cyclicPlanner .active).getPlan "p" = some plan ∧
          (∃ e, toposort plan = .error e) ∧ plan.status = .active ∧
            ∀ rows os, (cyclicPlanner .active).persist = some (rows, os) →
              rows.get? "p" = some plan :=
  rejected_untouched_iff (cyclicPlanner_keyed .active) (.cyclic rfl rfl)

/-- **A draft with a cycle** is active after it was rejected. -/
theorem rejected_draft_marked :
    Rejected decimalIds (failing "a") "p" (cyclicPlanner .draft) () ∧
      ¬ Untouched (cyclicPlanner .draft)
        (executePlan decimalIds (failing "a") "p" (cyclicPlanner .draft) ()).2 := by
  refine ⟨.cyclic rfl rfl, fun h => ?_⟩
  have hplan := congrArg (fun q : Planner => (q.getPlan "p").map (·.status)) h.planner
  revert hplan
  decide

end Hermes

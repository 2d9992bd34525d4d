import Hermes.Proof.PlanOrder

/-!
# Success once in a plan run

* `success_repeats`: a step that succeeded is executed again when a later step
  triggers a replan.
* `executePlan_once` (every plan, executor and replan): if no replan keeps a step
  that already succeeded, and no step whose turn is still to come succeeds in a
  recovery, then the executor is never called again for a step id for which it
  returned success.
-/

namespace Hermes

open History

variable {σ : Type}

/-- The step ids for which the executor returned success. -/
def successes (h : List (LogEntry σ)) : List String := h.filterMap LogEntry.success?

/-- The executor is called for a step id that has not succeeded. -/
def NoRepeat (h : List (LogEntry σ)) : LogEntry σ → Prop
  | .call c => c.step.stepId ∉ successes h
  | _ => True

instance (h : List (LogEntry σ)) : (e : LogEntry σ) → Decidable (NoRepeat h e)
  | .call c => inferInstanceAs (Decidable (c.step.stepId ∉ successes h))
  | .replan _ _ => inferInstanceAs (Decidable True)
  | .skip _ _ _ => inferInstanceAs (Decidable True)

/-- The steps that a recovery over the plan walks: none if the walk cannot be sorted. -/
def Plan.order (plan : Plan) : List PlanStep :=
  match toposort plan with
  | .ok steps => steps
  | .error _ => []

/-- A replan keeps no step that succeeded, and a step that succeeds in a recovery is not
still to come in the ordered walk. -/
def QuietReplan (h : List (LogEntry σ)) : LogEntry σ → Prop
  | .replan _ adapted => ∀ t ∈ adapted.order, t.stepId ∉ successes h
  | .call c => c.phase = .recovery → c.succeeded = true → c.step.stepId ∉ c.ahead
  | .skip _ _ _ => True

instance (h : List (LogEntry σ)) : (e : LogEntry σ) → Decidable (QuietReplan h e)
  | .call c => inferInstanceAs (Decidable (c.phase = .recovery → c.succeeded = true →
      c.step.stepId ∉ c.ahead))
  | .replan _ adapted => inferInstanceAs (Decidable (∀ t ∈ adapted.order, t.stepId ∉ successes h))
  | .skip _ _ _ => inferInstanceAs (Decidable True)

theorem Plan.order_of_ok {plan : Plan} {steps : List PlanStep} (h : toposort plan = .ok steps) :
    plan.order = steps := by
  unfold Plan.order
  rw [h]

@[simp] theorem success?_call {c : Call σ} {k : String} :
    (LogEntry.call c).success? = some k ↔ c.succeeded = true ∧ c.step.stepId = k := by
  cases h : c.succeeded <;> simp [LogEntry.success?, h]

theorem successes_append (h h' : List (LogEntry σ)) :
    successes (h ++ h') = successes h ++ successes h' := List.filterMap_append

theorem mem_successes {h : List (LogEntry σ)} {k : String} :
    k ∈ successes h ↔ ∃ c, .call c ∈ h ∧ c.succeeded = true ∧ c.step.stepId = k := by
  unfold successes
  rw [List.mem_filterMap]
  constructor
  · rintro ⟨e, he, hk⟩
    rcases e with c | _ | _
    · exact ⟨c, he, success?_call.1 hk⟩
    · cases hk
    · cases hk
  · rintro ⟨c, he, hc⟩
    exact ⟨.call c, he, success?_call.2 hc⟩

theorem not_mem_successes_append {h h' : List (LogEntry σ)} {k : String} :
    k ∉ successes (h ++ h') ↔ k ∉ successes h ∧ k ∉ successes h' := by
  rw [successes_append, List.mem_append, not_or]

/-! ## The retry loop -/

variable {plan : Plan} {ahead : List String} {step : PlanStep} {n : ℕ}
  {r : Except Exc ExecutionOutcome} {cs : List (Call σ)}

/-- A retry loop succeeds for no step but its own. -/
theorem RetryCalls.successes_eq (hcs : RetryCalls plan ahead step n r cs) {k : String}
    (hk : k ∈ successes (cs.map LogEntry.call)) : k = step.stepId := by
  obtain ⟨c, hc, -, rfl⟩ := mem_successes.1 hk
  obtain ⟨c', hc', heq⟩ := List.mem_map.1 hc
  obtain rfl : c' = c := by simpa using heq
  obtain ⟨-, hst, -⟩ := hcs.call c' hc'
  rw [hst]

/-- An exhausted retry loop has no success. -/
theorem RetryCalls.successes_nil (hcs : RetryCalls plan ahead step n r cs)
    {o : ExecutionOutcome} (hr : r = .ok o) (ho : o.status ≠ .success) :
    successes (cs.map LogEntry.call) = [] := by
  rw [List.eq_nil_iff_forall_not_mem]
  intro k hk
  obtain ⟨c, hc, hs, -⟩ := mem_successes.1 hk
  obtain ⟨c', hc', heq⟩ := List.mem_map.1 hc
  obtain rfl : c' = c := by simpa using heq
  have := (hcs.exhausted o hr ho).1 c' hc'
  rw [hs] at this
  cases this

/-- A retry loop does not go on after a success. -/
theorem RetryCalls.noRepeat (hcs : RetryCalls plan ahead step n r cs)
    {h : List (LogEntry σ)} (H : Always NoRepeat h) (hnew : step.stepId ∉ successes h) :
    Always NoRepeat (h ++ cs.map .call) := by
  refine always_append.2 ⟨H, fun m hm => ?_⟩
  rw [List.length_map] at hm
  have hlast := hcs.stop m hm
  obtain ⟨-, hst, -⟩ := hcs.call cs[m] (List.getElem_mem hm)
  rw [List.getElem_map, ← List.map_take]
  show cs[m].step.stepId ∉ successes (h ++ (cs.take m).map .call)
  rw [hst]
  refine not_mem_successes_append.2 ⟨hnew, fun hk => ?_⟩
  obtain ⟨c, hc, hs, -⟩ := mem_successes.1 hk
  obtain ⟨c', hc', heq⟩ := List.mem_map.1 hc
  obtain rfl : c' = c := by simpa using heq
  have := hlast c' hc'
  rw [hs] at this
  cases this

/-! ## The recovery loop -/

/-- A recovery none of whose steps has succeeded before repeats nothing. -/
theorem noRepeat_recovery {adapted : Plan} {es : List (LogEntry σ)} {pre : List PlanStep}
    (hes : List.Forall₂ (Recorded adapted ahead) es pre) :
    ∀ {h : List (LogEntry σ)}, Always NoRepeat h → (pre.map (·.stepId)).Nodup →
      (∀ t ∈ pre, t.stepId ∉ successes h) → Always NoRepeat (h ++ es) := by
  induction hes with
  | nil => intro h H _ _; rwa [List.append_nil]
  | @cons e t es pre he _ ih =>
    intro h H hnd hnew
    rw [List.append_cons]
    have ht : t.stepId ∉ successes h := hnew t List.mem_cons_self
    rw [List.map_cons, List.nodup_cons] at hnd
    -- the entry is a call of `t`, or passes over it
    have hone : NoRepeat h e ∧ ∀ k ∈ successes [e], k = t.stepId := by
      rcases he with ⟨c, rfl, -, hst, -⟩ | ⟨o, rfl, -⟩
      · refine ⟨?_, fun k hk => ?_⟩
        · show c.step.stepId ∉ successes h
          rwa [hst]
        · obtain ⟨c', hc', -, rfl⟩ := mem_successes.1 hk
          obtain rfl : c' = c := by simpa using hc'
          rw [hst]
      · exact ⟨trivial, fun k hk => by simp [successes, LogEntry.success?] at hk⟩
    refine ih (always_snoc.2 ⟨H, hone.1⟩) hnd.2 fun t' ht' => ?_
    refine not_mem_successes_append.2 ⟨hnew t' (List.mem_cons_of_mem _ ht'), fun hk => ?_⟩
    exact hnd.1 (hone.2 _ hk ▸ List.mem_map_of_mem ht')

/-- Under the condition, no step still to come succeeds in a recovery. -/
theorem successes_recovery_ahead {adapted : Plan} {es : List (LogEntry σ)} {pre : List PlanStep}
    (hes : List.Forall₂ (Recorded adapted ahead) es pre) {h : List (LogEntry σ)}
    (hq : Always QuietReplan (h ++ es)) {k : String} (hk : k ∈ ahead) : k ∉ successes es := by
  intro hs
  obtain ⟨c, hc, hsucc, rfl⟩ := mem_successes.1 hs
  obtain ⟨l, u, rfl⟩ := List.append_of_mem hc
  have hcall : QuietReplan (h ++ l) (.call c) :=
    always_iff_split.1 hq (h ++ l) (.call c) u (by rw [List.append_assoc])
  obtain ⟨t, -, hrec⟩ : ∃ t ∈ pre, Recorded adapted ahead (.call c) t := by
    obtain ⟨hlen, hget⟩ := List.forall₂_iff_get.1 hes
    have hn : l.length < pre.length := by rw [← hlen]; simp
    have := hget l.length (by simp) hn
    exact ⟨pre[l.length], List.getElem_mem hn, by simpa using this⟩
  rcases hrec with ⟨c', heq, -, -, hph, hah⟩ | ⟨o, heq, -⟩
  · obtain rfl : c = c' := by simpa using heq
    exact hcall hph hsucc (by rw [hah]; exact hk)
  · cases heq

/-! ## The ordered walk -/

/-- One step of the ordered walk repeats nothing and leaves the steps to come untried. -/
theorem StepRun.noRepeat {new : List (LogEntry σ)} {r : Except Exc (ExecutionOutcome × Plan)}
    (hrun : StepRun plan ahead step new r) {h : List (LogEntry σ)} (H : Always NoRepeat h)
    (hq : Always QuietReplan (h ++ new)) (hnew : step.stepId ∉ successes h)
    (hah : step.stepId ∉ ahead) :
    Always NoRepeat (h ++ new) ∧ ∀ k ∈ ahead, k ∉ successes new := by
  rcases hrun with ⟨hcs⟩ | ⟨hcs, -⟩ | ⟨hcs, ho, hok, herr, hes, -⟩
  · refine ⟨hcs.noRepeat H hnew, fun k hk hs => hah ?_⟩
    rwa [← hcs.successes_eq hs]
  · refine ⟨hcs.noRepeat H hnew, fun k hk hs => hah ?_⟩
    rwa [← hcs.successes_eq hs]
  · -- the step failed for good: the recovery starts from the record of its calls
    rename_i cs o adapted es pre
    have hnil := hcs.successes_nil rfl ho
    have H₁ : Always NoRepeat (h ++ cs.map .call ++ [.replan step adapted]) :=
      always_snoc.2 ⟨hcs.noRepeat H hnew, trivial⟩
    have hsame : ∀ k, k ∉ successes h → k ∉ successes (h ++ cs.map .call ++ [.replan step adapted]) := by
      intro k hk
      rw [not_mem_successes_append, not_mem_successes_append, hnil]
      exact ⟨⟨hk, by simp⟩, by simp [successes, LogEntry.success?]⟩
    rw [← List.append_assoc, List.append_cons] at hq ⊢
    have hreplan : QuietReplan (h ++ cs.map .call) (.replan step adapted) :=
      (always_snoc.1 hq.left).2
    refine ⟨?_, fun k hk => ?_⟩
    · cases hsort : toposort adapted with
      | error e =>
        rw [herr e hsort] at hes
        rw [List.forall₂_nil_right_iff.1 hes, List.append_nil]
        exact H₁
      | ok steps =>
        have hpre := hok steps hsort
        refine noRepeat_recovery hes H₁ ?_ ?_
        · exact (hpre.map _).sublist.nodup (toposort_walk hsort).nodup
        · intro t ht
          have hout := hreplan t (by rw [Plan.order_of_ok hsort]; exact hpre.subset ht)
          exact hsame _ (not_mem_successes_append.1 hout).1
    · have hes' := successes_recovery_ahead hes hq hk
      rw [show ∀ l : List (LogEntry σ), l ++ .replan step adapted :: es =
        l ++ [.replan step adapted] ++ es from fun l => List.append_cons ..]
      refine not_mem_successes_append.2 ⟨?_, hes'⟩
      rw [not_mem_successes_append, hnil]
      exact ⟨by simp, by simp [successes, LogEntry.success?]⟩

theorem WalkRun.noRepeat {rest : List PlanStep} {new : List (LogEntry σ)}
    (hrun : WalkRun plan rest new) : ∀ {h : List (LogEntry σ)},
      (rest.map (·.stepId)).Nodup → Always NoRepeat h → Always QuietReplan (h ++ new) →
      (∀ t ∈ rest, t.stepId ∉ successes h) → Always NoRepeat (h ++ new) := by
  induction hrun with
  | nil => intro h _ H _ _; rwa [List.append_nil]
  | @stop plan step rest new e hstep =>
    intro h hnd H hq hnew
    rw [List.map_cons, List.nodup_cons] at hnd
    exact (hstep.noRepeat H hq (hnew step List.mem_cons_self) hnd.1).1
  | @next plan plan' step rest new more o hstep _ ih =>
    intro h hnd H hq hnew
    rw [List.map_cons, List.nodup_cons] at hnd
    rw [← List.append_assoc] at hq ⊢
    obtain ⟨H₁, hahead⟩ := hstep.noRepeat H hq.left (hnew step List.mem_cons_self) hnd.1
    refine ih hnd.2 H₁ hq fun t ht => ?_
    have hrest := hnew t (List.mem_cons_of_mem _ ht)
    exact not_mem_successes_append.2 ⟨hrest, hahead _ (List.mem_map_of_mem ht)⟩

/-- **Success once.** In every run of `execute_plan` whose replans are quiet, the executor is
never called again for a step id for which it returned success. -/
theorem executePlan_once (P : PlannerEnv) (exec : Executor σ) (planId : String) (p : Planner)
    (x : σ) (hq : Always QuietReplan (executePlan P exec planId p x).2.log) :
    Always NoRepeat (executePlan P exec planId p x).2.log := by
  rcases executePlan_run P exec planId p x with h | ⟨plan, steps, hsort, hrun⟩
  · rw [h]; exact always_nil
  · exact hrun.noRepeat (h := []) (toposort_walk hsort).nodup always_nil hq (by simp [successes])

/-- The first step of a plan fails: the replan keeps nothing that succeeded. -/
theorem executePlan_once_failing :
    Always NoRepeat (executePlan decimalIds (failing "a") "0"
      (createPlan decimalIds "w" (twoSteps.take 1) {}).2 ()).2.log := by
  exact executePlan_once _ _ _ _ _ (by decide +kernel)

/-- **A success is repeated** after a failure further down the plan. -/
theorem success_repeats :
    ¬ Always NoRepeat (executePlan decimalIds (failing "b") "0"
      (createPlan decimalIds "w" twoSteps {}).2 ()).2.log := by
  decide +kernel

end Hermes

/-!
## Turns of a plan run

Until the first replan, the steps of a plan have their turns one after another.

* `toposort_independent`: steps without dependencies are walked in the order of the plan.
* `WalkRun.inTurn`: until the first replan, a step is handed to the executor when as
  many successes have been returned as there are steps before it.
-/


namespace Hermes

open History

variable {σ : Type}

/-! ## Steps without dependencies -/

theorem byId_of_mem {steps : List PlanStep} (hd : (steps.map (·.stepId)).Nodup) {s : PlanStep}
    (hs : s ∈ steps) : byId steps s.stepId = some s := by
  obtain ⟨t, ht⟩ := Option.isSome_iff_exists.1 (byId_isSome.2 ⟨s, hs, rfl⟩)
  rw [ht, List.inj_on_of_nodup_map hd (byId_mem ht) hs (byId_stepId ht)]

/-- **Steps without dependencies** are walked in the order of the plan. -/
theorem toposort_independent {plan : Plan} (hd : (plan.steps.map (·.stepId)).Nodup)
    (hfree : ∀ s ∈ plan.steps, s.dependencies = []) : toposort plan = .ok plan.steps := by
  have hsort : Toposort.sort (fun k => (byId plan.steps k).map (·.dependencies))
      (plan.steps.map (·.stepId)) = .ok (plan.steps.map (·.stepId)) := by
    refine Toposort.sort_of_leaves (fun k hk => ?_) hd
    obtain ⟨s, hs, rfl⟩ := List.mem_map.1 hk
    rw [byId_of_mem hd hs, Option.map_some, hfree s hs]
  unfold toposort
  rw [hsort]
  simp only [List.filterMap_map, Except.ok.injEq]
  have hall : ∀ s ∈ plan.steps, (byId plan.steps ∘ fun s => s.stepId) s = some s :=
    fun s hs => byId_of_mem hd hs
  rw [List.filterMap_congr hall, List.filterMap_some]

/-! ## Turns -/

/-- A replan was made. -/
def LogEntry.isReplan : LogEntry σ → Bool
  | .replan _ _ => true
  | _ => false

/-- Until the first replan, `steps` are handed out in order, each until it succeeds. -/
def InTurn (steps : List PlanStep) (h : List (LogEntry σ)) : LogEntry σ → Prop
  | .call c => (∀ e ∈ h, e.isReplan = false) →
    steps[(successes h).length]? = some c.step ∧ c.phase = .ordered
  | _ => True

variable {plan : Plan} {ahead : List String} {step : PlanStep} {n : ℕ}
  {r : Except Exc ExecutionOutcome} {cs : List (Call σ)}

theorem successes_calls_nil {cs : List (Call σ)} (h : ∀ c ∈ cs, c.succeeded = false) :
    successes (cs.map LogEntry.call) = [] := by
  refine List.filterMap_eq_nil_iff.2 fun e he => ?_
  obtain ⟨c, hc, rfl⟩ := List.mem_map.1 he
  simp [LogEntry.success?, h c hc]

/-- A retry loop that succeeds does so once. -/
theorem RetryCalls.successes_length (hcs : RetryCalls plan ahead step n r cs)
    {o : ExecutionOutcome} (hr : r = .ok o) (ho : o.status = .success) :
    (successes (cs.map LogEntry.call)).length = 1 := by
  obtain ⟨c, hc, hsucc⟩ := hcs.success o hr ho
  obtain ⟨l, u, rfl⟩ := List.append_of_mem hc
  -- the success is the last call, and the calls before it are none
  have hu : u = [] := by
    cases u with
    | nil => rfl
    | cons d u =>
      have hstop := always_iff_split.1 hcs.stop (l ++ [c]) d u (by simp) c (by simp)
      rw [hsucc] at hstop
      cases hstop
  subst hu
  have hl := always_iff_split.1 hcs.stop l c [] rfl
  rw [List.map_append, successes_append, successes_calls_nil hl]
  simp [successes, LogEntry.success?, hsucc]

theorem RetryCalls.inTurn (hcs : RetryCalls plan ahead step n r cs) (steps : List PlanStep) :
    Always (InTurn (step :: steps)) (cs.map .call) := by
  intro m hm
  rw [List.length_map] at hm
  obtain ⟨-, hst, hph, -⟩ := hcs.call cs[m] (List.getElem_mem hm)
  rw [List.getElem_map, ← List.map_take]
  intro _
  rw [successes_calls_nil (hcs.stop m hm), hst]
  exact ⟨rfl, hph⟩

/-- After a replan no turn is promised. -/
theorem inTurn_of_replan {steps : List PlanStep} {h es : List (LogEntry σ)} {failed : PlanStep}
    {adapted : Plan} (hm : .replan failed adapted ∈ h) :
    Always (fun l a => InTurn steps (h ++ l) a) es := by
  intro m hm'
  cases es[m] with
  | call c =>
    intro hno
    have := hno _ (List.mem_append_left _ hm)
    cases this
  | _ => trivial

/-- One step of the ordered walk has its turn; it takes it with one success, or with a replan. -/
theorem StepRun.inTurn {new : List (LogEntry σ)} {r : Except Exc (ExecutionOutcome × Plan)}
    (hrun : StepRun plan ahead step new r) (steps : List PlanStep) :
    Always (InTurn (step :: steps)) new ∧ (∀ x, r = .ok x →
      (successes new).length = 1 ∨ ∃ failed adapted, .replan failed adapted ∈ new) := by
  rcases hrun with ⟨hcs⟩ | ⟨hcs, ho⟩ | ⟨hcs, -, -, -, -, -⟩
  · exact ⟨hcs.inTurn steps, by simp⟩
  · exact ⟨hcs.inTurn steps, fun _ _ => .inl (hcs.successes_length rfl ho)⟩
  · rename_i cs o adapted es pre
    have hm : LogEntry.replan step adapted ∈ cs.map LogEntry.call ++ [.replan step adapted] := by
      simp
    rw [List.append_cons]
    refine ⟨always_append.2 ⟨always_snoc.2 ⟨hcs.inTurn steps, trivial⟩, inTurn_of_replan hm⟩,
      fun _ _ => .inr ⟨step, adapted, List.mem_append_left _ hm⟩⟩

/-- **Until the first replan** the steps of the ordered walk have their turns. -/
theorem WalkRun.inTurn {rest : List PlanStep} {new : List (LogEntry σ)}
    (hrun : WalkRun plan rest new) : Always (InTurn rest) new := by
  induction hrun with
  | nil => exact always_nil
  | @stop plan step rest new e hstep => exact (hstep.inTurn rest).1
  | @next plan plan' step rest new more o hstep _ ih =>
    obtain ⟨hfirst, hok⟩ := hstep.inTurn rest
    refine always_append.2 ⟨hfirst, ?_⟩
    rcases hok _ rfl with hone | ⟨failed, adapted, hm⟩
    · refine ih.mono fun h e he => ?_
      cases e with
      | call c =>
        intro hno
        rw [successes_append, List.length_append, hone, Nat.add_comm, List.getElem?_cons_succ]
        exact he fun e hm => hno e (List.mem_append_right _ hm)
      | _ => trivial
    · exact inTurn_of_replan hm

/-!
## Sorting the steps of a plan

`_toposort` looks a dependency up among the steps of the plan and passes over one that is not there.

* `Plan.Needs`, `Plan.Cyclic`: the dependencies that there are, and their cycles.
* `Plan.Ordered`: the steps of a plan, each after those that it depends on.
* `toposort_fails_iff`: what cannot be sorted has a cycle, and only that.
* `toposort_correct`: both, for a plan whose steps have ids of their own.
-/

variable {plan : Plan}

/-- Step `k` of the plan depends on step `d` of it. -/
def Plan.Needs (plan : Plan) (k d : String) : Prop :=
  plan.Has d ∧ ∃ s ∈ plan.steps, s.stepId = k ∧ d ∈ s.dependencies

/-- A step of the plan depends on itself, directly or over others. -/
def Plan.Cyclic (plan : Plan) : Prop := ∃ k, Relation.TransGen plan.Needs k k

/-- The steps of the plan, each after those that it depends on. -/
structure Plan.Ordered (plan : Plan) (order : List PlanStep) : Prop where
  perm : order.Perm plan.steps
  after : ∀ before s later, order = before ++ s :: later →
    ∀ d ∈ s.dependencies, ∀ t ∈ plan.steps, t.stepId = d → t ∈ before

/-- What `_toposort` is told of an id. -/
def Plan.deps (plan : Plan) (k : String) : Option (List String) :=
  (byId plan.steps k).map (·.dependencies)

theorem isSome_deps {k : String} : (plan.deps k).isSome ↔ plan.Has k := by
  unfold Plan.deps
  rw [Option.isSome_map]
  exact byId_isSome

theorem needs_deps (hdistinct : (plan.steps.map (·.stepId)).Nodup) {k d : String} :
    Toposort.Needs plan.deps k d ↔ ∃ s ∈ plan.steps, s.stepId = k ∧ d ∈ s.dependencies := by
  constructor
  · rintro ⟨ds, hds, hd⟩
    obtain ⟨s, hs, rfl⟩ := Option.map_eq_some_iff.1 hds
    exact ⟨s, byId_mem hs, byId_stepId hs, hd⟩
  · rintro ⟨s, hs, rfl, hd⟩
    refine ⟨s.dependencies, ?_, hd⟩
    unfold Plan.deps
    rw [byId_of_mem hdistinct hs]
    rfl

/-- **The cycles of a plan** are those that the search meets. -/
theorem cyclic_iff (hdistinct : (plan.steps.map (·.stepId)).Nodup) :
    plan.Cyclic ↔ ¬ Toposort.Acyclic plan.deps := by
  unfold Toposort.Acyclic Plan.Cyclic
  rw [not_forall]
  simp only [not_not]
  constructor
  · rintro ⟨k, hk⟩
    exact ⟨k, Relation.TransGen.mono (fun _ _ h => (needs_deps hdistinct).2 h.2) k k hk⟩
  · rintro ⟨k, hk⟩
    -- what is on a cycle depends on something, so the plan has it
    have hpath : ∀ d, Relation.TransGen (Toposort.Needs plan.deps) k d → plan.Has d →
        Relation.TransGen plan.Needs k d := by
      intro d hkd
      induction hkd with
      | single hkd => exact fun hd => .single ⟨hd, (needs_deps hdistinct).1 hkd⟩
      | tail _ hmd ih =>
        intro hd
        obtain ⟨s, hs, hid, hdep⟩ := (needs_deps hdistinct).1 hmd
        exact (ih ⟨s, hs, hid⟩).tail ⟨hd, s, hs, hid, hdep⟩
    refine ⟨k, hpath k hk ?_⟩
    obtain ⟨d, hkd, -⟩ := (Relation.TransGen.head'_iff).1 hk
    obtain ⟨s, hs, hid, -⟩ := (needs_deps hdistinct).1 hkd
    exact ⟨s, hs, hid⟩

theorem toposort_error {e : Exc} (h : toposort plan = .error e) : e.kind = .valueError := by
  unfold toposort at h
  split at h
  · cases h
  · cases h
    rfl

/-- **What cannot be sorted** has a cycle, and only that. -/
theorem toposort_fails_iff (hdistinct : (plan.steps.map (·.stepId)).Nodup) :
    (∃ e, toposort plan = .error e) ↔ plan.Cyclic := by
  have hkeys : ∀ k, (plan.deps k).isSome → k ∈ plan.steps.map (·.stepId) := by
    intro k hk
    obtain ⟨s, hs, rfl⟩ := isSome_deps.1 hk
    exact List.mem_map_of_mem hs
  rw [cyclic_iff hdistinct, ← Toposort.sort_returns_iff hkeys]
  have hdeps : (fun k => (byId plan.steps k).map (·.dependencies)) = plan.deps := rfl
  unfold toposort
  rw [hdeps]
  cases Toposort.sort plan.deps (plan.steps.map (·.stepId)) with
  | ok order => simp
  | error k => simp

/-- A walk over steps with distinct ids takes each of them once. -/
theorem Walk.ordered (hdistinct : (plan.steps.map (·.stepId)).Nodup) {order : List PlanStep}
    (h : Walk plan order) : plan.Ordered order := by
  have hmem : ∀ {part : List PlanStep}, part ⊆ order → ∀ t ∈ plan.steps,
      t.stepId ∈ part.map (·.stepId) → t ∈ part := by
    intro part hpart t ht hid
    obtain ⟨s, hs, heq⟩ := List.mem_map.1 hid
    rwa [← List.inj_on_of_nodup_map hdistinct (h.mem (hpart hs)) ht heq]
  refine ⟨?_, ?_⟩
  · refine (List.perm_ext_iff_of_nodup h.nodup.of_map hdistinct.of_map).2 fun s => ?_
    exact ⟨h.mem, fun hs => hmem (List.Subset.refl _) s hs (h.all _ ⟨s, hs, rfl⟩)⟩
  · rintro before s later rfl d hd t ht rfl
    obtain ⟨-, -, hbefore⟩ := always_iff_split.1 h.sorted before s later rfl
    exact hmem (List.subset_append_left _ _) t ht (hbefore t.stepId hd ⟨t, ht, rfl⟩)

/-- **`_toposort` is right and complete**: it returns the steps of the plan, each after those that it
depends on, or raises `ValueError`, and raises exactly when the dependencies have a cycle. -/
theorem toposort_correct (plan : Plan) (hdistinct : (plan.steps.map (·.stepId)).Nodup) :
    (∀ order, toposort plan = .ok order → plan.Ordered order) ∧
      (∀ e, toposort plan = .error e → e.kind = .valueError) ∧
      ((∃ e, toposort plan = .error e) ↔ plan.Cyclic) :=
  ⟨fun _ h => (toposort_walk h).ordered hdistinct, fun _ => toposort_error,
    toposort_fails_iff hdistinct⟩

/-- A step that depends twice on another, on itself, and on one that is not there. -/
def selfDependent : Plan where
  planId := "p"
  workflowId := "w"
  status := .draft
  steps :=
    [{ stepId := "b", capability := "c", dependencies := ["a", "a", "x"] },
      { stepId := "a", capability := "c", dependencies := ["a"] }]

theorem toposort_selfDependent :
    (∀ order, toposort selfDependent = .ok order → selfDependent.Ordered order) ∧
      (∀ e, toposort selfDependent = .error e → e.kind = .valueError) ∧
      ((∃ e, toposort selfDependent = .error e) ↔ selfDependent.Cyclic) :=
  toposort_correct selfDependent (by decide)

end Hermes

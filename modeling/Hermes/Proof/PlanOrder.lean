import Hermes.Proof.PlanRun

/-!
# Dependencies in a plan run

* `deps_succeeded_fails`: a step can be handed to the executor after a
  dependency of it has failed.
* `executePlan_deps_first` (every plan, executor and replan): a step is handed to
  the executor only after the dependencies it has in the plan under execution
  were executed: in the ordered walk until they succeeded or used up their retry
  budget, in the recovery loop once, unless an outcome recorded under the adapted
  plan's id already called them a success.
-/

namespace Hermes

open History

variable {σ : Type}

/-- Every dependency of a step handed out has succeeded before. -/
def DepsSucceeded (h : List (LogEntry σ)) : LogEntry σ → Prop
  | .call c => ∀ d ∈ c.step.dependencies, c.plan.Has d → d ∈ h.filterMap LogEntry.success?
  | _ => True

instance (plan : Plan) (d : String) : Decidable (plan.Has d) :=
  inferInstanceAs (Decidable (∃ t ∈ plan.steps, t.stepId = d))

instance (h : List (LogEntry σ)) : (e : LogEntry σ) → Decidable (DepsSucceeded h e)
  | .call c => inferInstanceAs (Decidable (∀ d ∈ c.step.dependencies, c.plan.Has d →
      d ∈ h.filterMap LogEntry.success?))
  | .replan _ _ => inferInstanceAs (Decidable True)
  | .skip _ _ _ => inferInstanceAs (Decidable True)

/-- Step `d` of the plan was executed in the ordered walk until a success, or until its
retry budget was used up. -/
def Settled (h : List (LogEntry σ)) (plan : Plan) (d : String) : Prop :=
  (∃ c, .call c ∈ h ∧ c.phase = .ordered ∧ c.step.stepId = d ∧ c.succeeded = true) ∨
    ∃ t ∈ plan.steps, t.stepId = d ∧ t.retryBudget.toNat + 1 ≤ h.countP (LogEntry.isOrdered d)

/-- Step `d` was handed to the executor by the recovery loop over the plan, or passed over
because of a success recorded under the plan's own id. -/
def Attempted (h : List (LogEntry σ)) (plan : Plan) (d : String) : Prop :=
  (∃ c, .call c ∈ h ∧ c.phase = .recovery ∧ c.step.stepId = d) ∨
    ∃ t o, .skip plan t o ∈ h ∧ t.stepId = d ∧ o.planId = plan.planId ∧ o.stepId = d ∧
      o.status = .success

/-- The dependencies of a step handed out have been executed before. -/
def DepsFirst (h : List (LogEntry σ)) : LogEntry σ → Prop
  | .call c => ∀ d ∈ c.step.dependencies, c.plan.Has d →
      match c.phase with
      | .ordered => Settled h c.plan d
      | .recovery => Attempted h c.plan d
  | _ => True

theorem Settled.mono {h h' : List (LogEntry σ)} (hh : h <+: h') {plan : Plan} {d : String}
    (H : Settled h plan d) : Settled h' plan d := by
  rcases H with ⟨c, hc, hp⟩ | ⟨t, ht, hd, hn⟩
  · exact Or.inl ⟨c, hh.subset hc, hp⟩
  · have := hh.sublist.countP_le (p := LogEntry.isOrdered d)
    exact Or.inr ⟨t, ht, hd, by omega⟩

theorem Settled.of_steps_eq {h : List (LogEntry σ)} {plan plan' : Plan} {d : String}
    (H : Settled h plan d) (hs : plan'.steps = plan.steps) : Settled h plan' d := by
  unfold Settled
  rw [hs]; exact H

/-- The dependencies of the next step of a walk are settled when the steps before it are. -/
theorem Walk.deps_settled {plan : Plan} {done rest : List PlanStep} {step : PlanStep}
    (hw : Walk plan (done ++ step :: rest)) {h : List (LogEntry σ)}
    (hdone : ∀ t ∈ done, Settled h plan t.stepId) :
    ∀ d ∈ step.dependencies, plan.Has d → Settled h plan d := by
  intro d hd hp
  obtain ⟨-, -, hdep⟩ := always_iff_split.1 hw.sorted done step rest rfl
  obtain ⟨t, ht, rfl⟩ := List.mem_map.1 (hdep d hd hp)
  exact hdone t ht

/-- A finished retry loop settles its step. -/
theorem RetryCalls.settled {plan : Plan} {ahead : List String} {step : PlanStep}
    {r : Except Exc ExecutionOutcome} {cs : List (Call σ)}
    (hcs : RetryCalls plan ahead step step.retryBudget.toNat r cs) {o : ExecutionOutcome}
    (hr : r = .ok o) (hmem : step ∈ plan.steps) (h : List (LogEntry σ)) :
    Settled (h ++ cs.map .call) plan step.stepId := by
  by_cases ho : o.status = .success
  · obtain ⟨c, hc, hs⟩ := hcs.success o hr ho
    obtain ⟨-, hst, hph, -⟩ := hcs.call c hc
    exact Or.inl ⟨c, by simp [hc], hph, by rw [hst], hs⟩
  · obtain ⟨-, hlen⟩ := hcs.exhausted o hr ho
    refine Or.inr ⟨step, hmem, rfl, ?_⟩
    have hall : (cs.map LogEntry.call).countP (LogEntry.isOrdered step.stepId) = cs.length := by
      rw [List.countP_eq_length_filter, List.filter_eq_self.2, List.length_map]
      intro e he
      obtain ⟨c, hc, rfl⟩ := List.mem_map.1 he
      obtain ⟨-, hst, hph, -⟩ := hcs.call c hc
      simp [LogEntry.isOrdered, hst, hph]
    rw [List.countP_append, hall]
    omega

/-- The calls of a retry loop respect the dependencies of its step. -/
theorem RetryCalls.depsFirst {plan : Plan} {ahead : List String} {step : PlanStep} {n : ℕ}
    {r : Except Exc ExecutionOutcome} {cs : List (Call σ)}
    (hcs : RetryCalls plan ahead step n r cs) {h : List (LogEntry σ)} (H : Always DepsFirst h)
    (hdeps : ∀ d ∈ step.dependencies, plan.Has d → Settled h plan d) :
    Always DepsFirst (h ++ cs.map .call) := by
  refine always_append_of_forall H fun u e _ he => ?_
  obtain ⟨c, hc, rfl⟩ := List.mem_map.1 he
  obtain ⟨hpl, hst, hph, -⟩ := hcs.call c hc
  intro d hd hp
  rw [hph]
  rw [hst] at hd
  rw [hpl] at hp ⊢
  exact (hdeps d hd hp).mono (List.prefix_append _ _)

/-- The entries of the recovery loop respect the dependencies of the adapted plan. -/
theorem depsFirst_recovery {adapted : Plan} {ahead : List String} {steps pre : List PlanStep}
    (hw : Walk adapted steps) (hpre : pre <+: steps) {es : List (LogEntry σ)}
    (hes : List.Forall₂ (Recorded adapted ahead) es pre) {h : List (LogEntry σ)}
    (H : Always DepsFirst h) : Always DepsFirst (h ++ es) := by
  obtain ⟨hlen, hget⟩ := List.forall₂_iff_get.1 hes
  refine always_append.2 ⟨H, fun n hn => ?_⟩
  have hn' : n < pre.length := by omega
  have hns : n < steps.length := by have := hpre.length_le; omega
  have hstep : steps[n] = pre[n] := (hpre.getElem hn').symm
  have hrec : Recorded adapted ahead es[n] pre[n] := hget n hn hn'
  rcases hrec with ⟨c, hc, hpl, hst, hph, -⟩ | ⟨o, ho, -⟩
  · rw [hc]
    intro d hd hp
    rw [hph]
    rw [hst] at hd
    rw [hpl] at hp ⊢
    -- the dependency stands earlier in the walk, so one of the entries before is its own
    obtain ⟨-, -, hdep⟩ := hw.sorted n hns
    obtain ⟨t, ht, hdt⟩ := List.mem_map.1 (hdep d (by rwa [hstep]) hp)
    obtain ⟨k, hk, hkt⟩ := List.getElem_of_mem ht
    have hkn : k < n := by simp at hk; omega
    have hpk : pre[k] = t := by rw [← hkt, List.getElem_take, hpre.getElem]
    have hmem : es[k] ∈ h ++ es.take n :=
      List.mem_append_right _ (List.mem_take_iff_getElem.2 ⟨k, by omega, rfl⟩)
    have hrk : Recorded adapted ahead es[k] pre[k] := hget k (by omega) (by omega)
    rw [hpk] at hrk
    rcases hrk with ⟨c', hc', -, hst', hph', -⟩ | ⟨o, ho, h₁, h₂, h₃⟩
    · exact Or.inl ⟨c', hc' ▸ hmem, hph', by rw [hst', hdt]⟩
    · exact Or.inr ⟨t, o, ho ▸ hmem, hdt, h₁, by rw [h₂, hdt], h₃⟩
  · rw [ho]; trivial

/-- One step of the ordered walk respects the dependencies, and is settled if the walk
goes on. -/
theorem StepRun.depsFirst {plan : Plan} {ahead : List String} {step : PlanStep}
    {new : List (LogEntry σ)} {r : Except Exc (ExecutionOutcome × Plan)}
    (hrun : StepRun plan ahead step new r) (hmem : step ∈ plan.steps) {h : List (LogEntry σ)}
    (H : Always DepsFirst h) (hdeps : ∀ d ∈ step.dependencies, plan.Has d → Settled h plan d) :
    Always DepsFirst (h ++ new) ∧
      (∀ o plan', r = .ok (o, plan') →
        plan'.steps = plan.steps ∧ Settled (h ++ new) plan step.stepId) := by
  rcases hrun with ⟨hcs⟩ | ⟨hcs, ho⟩ | ⟨hcs, ho, hok, herr, hes, hplan⟩
  · exact ⟨hcs.depsFirst H hdeps, by simp⟩
  · refine ⟨hcs.depsFirst H hdeps, ?_⟩
    intro o' plan' h'
    cases h'
    exact ⟨rfl, hcs.settled rfl hmem h⟩
  · rename_i cs o adapted es pre
    have H₁ : Always DepsFirst (h ++ cs.map .call ++ [.replan step adapted]) :=
      always_snoc.2 ⟨hcs.depsFirst H hdeps, trivial⟩
    rw [← List.append_assoc, List.append_cons]
    refine ⟨?_, ?_⟩
    · cases hsort : toposort adapted with
      | error e =>
        rw [herr e hsort] at hes
        rw [List.forall₂_nil_right_iff.1 hes, List.append_nil]
        exact H₁
      | ok steps => exact depsFirst_recovery (toposort_walk hsort) (hok steps hsort) hes H₁
    · intro o' plan' h'
      rw [hplan o' plan' h']
      refine ⟨rfl, (hcs.settled rfl hmem h).mono ?_⟩
      rw [List.append_assoc]
      exact List.prefix_append _ _

/-- The ordered walk, with the steps `done` settled so far. -/
theorem WalkRun.depsFirst {plan : Plan} {rest : List PlanStep} {new : List (LogEntry σ)}
    (hrun : WalkRun plan rest new) : ∀ (done : List PlanStep) {h : List (LogEntry σ)},
      Walk plan (done ++ rest) → Always DepsFirst h → (∀ t ∈ done, Settled h plan t.stepId) →
      Always DepsFirst (h ++ new) := by
  induction hrun with
  | nil => intro done h _ H _; rwa [List.append_nil]
  | @stop plan step rest new e hstep =>
    intro done h hw H hdone
    exact (hstep.depsFirst (hw.mem (by simp)) H (hw.deps_settled hdone)).1
  | @next plan plan' step rest new more o hstep _ ih =>
    intro done h hw H hdone
    obtain ⟨H₁, hok⟩ := hstep.depsFirst (hw.mem (by simp)) H (hw.deps_settled hdone)
    obtain ⟨hsame, hset⟩ := hok o plan' rfl
    rw [← List.append_assoc]
    refine ih (done ++ [step]) ?_ H₁ ?_
    · rw [List.append_assoc]
      exact hw.of_steps_eq hsame
    · intro t ht
      rcases List.mem_append.1 ht with ht | ht
      · exact ((hdone t ht).mono (List.prefix_append _ _)).of_steps_eq hsame
      · rw [List.mem_singleton.1 ht]
        exact hset.of_steps_eq hsame

/-- A plan of two steps, the second after the first, without retries. -/
def twoSteps : List PlanStep :=
  [{ stepId := "a", capability := "c", retryBudget := 0 },
   { stepId := "b", capability := "c", dependencies := ["a"], retryBudget := 0 }]

/-- An executor for which the step `bad` always fails. -/
def failing (bad : String) : Executor Unit := fun step x =>
  (.ok ⟨"o-" ++ step.stepId, "p", step.stepId,
    if step.stepId = bad then .failure else .success, 1, none, 0⟩, x)

def decimalIds : PlannerEnv := { uuid := fun n => toString n }

end Hermes

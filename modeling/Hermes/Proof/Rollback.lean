import Hermes.Proof.EngineMarks

/-!
# What a rollback undoes

When a step has used up its retries, or its approval is rejected, the engine rolls
back only if that step declares a compensation itself; and it then begins with the
steps before it.

* `rollback_exact_iff`: when the compensations of the steps from the failed one
  downwards are run in exactly that order.
* `rollback_skipped`: two steps that succeeded are not undone.
-/

namespace Hermes

open World

/-- The compensations declared by the steps at positions `f`, `f - 1`, …, `0` that name a step
of the workflow. -/
def Workflow.compensations (wf : Workflow) (f : ℕ) : List String :=
  (wf.steps.take (f + 1)).reverse.filterMap wf.undoes

/-- The compensations that the engine runs when the step at position `f` fails for good. -/
def Workflow.rollback (wf : Workflow) (f : ℕ) (step : WorkflowStep) : List String :=
  if (truthy step.compensation).isSome then
    (wf.steps.take f).reverse.filterMap wf.undoes ++ (wf.undoes step).toList
  else []

/-- From `w` to `w'` the compensations `cs` of `i` are begun, one after the other, their bodies
are run where no circuit may refuse them, and `i` is `FAILED` in the end. -/
structure FailsWith (i : String) (w w' : World) (cs : List String) : Prop where
  begun : begun i (marks (w'.trace.drop w.trace.length)) = cs
  undone : w.parts.resilience = none →
    undone i (marks (w'.trace.drop w.trace.length)) = cs
  failed : ∃ inst, w'.instances.get? i = some inst ∧ inst.status = .failed

/-- **A step of `i` fails for good**: a call of `execute_step` uses up its retries, or its
approval is rejected while the instance is paused. -/
inductive FailsFor (E : Env) (i : String) (step : WorkflowStep) (w : World) : World → Prop where
  | exhausted {agent : Option String} {policy : Option SandboxPolicy} :
    step.id ∈ stalls i (marks ((executeStep E i agent policy w).2.trace.drop w.trace.length)) →
    FailsFor E i step w (executeStep E i agent policy w).2
  | rejected {inst : WorkflowInstance} {fuel : ℕ} : w.instances.get? i = some inst →
    inst.status = .paused → FailsFor E i step w (approve E i step.id false fuel w).2

/-! ## Looking steps up -/

theorem stepById_of_getElem {steps : List WorkflowStep} (hd : (steps.map (·.id)).Nodup) {f : ℕ}
    {step : WorkflowStep} (hf : steps[f]? = some step) :
    stepById steps step.id = some step ∧ stepIndex steps step.id = some f := by
  obtain ⟨hlt, rfl⟩ := List.getElem?_eq_some_iff.1 hf
  have hbefore : ∀ j (hj : j < f), ¬ (steps[j].id = steps[f].id) := by
    intro j hj he
    have hjlt : j < (steps.map (·.id)).length := by simp; omega
    have hflt : f < (steps.map (·.id)).length := by simpa using hlt
    have hids : (steps.map (·.id))[j] = (steps.map (·.id))[f] := by simpa using he
    have := hd.getElem_inj_iff.1 hids
    omega
  constructor
  · refine List.find?_eq_some_iff_getElem.2 ⟨by simp, f, hlt, rfl, fun j hj => ?_⟩
    simpa using hbefore j hj
  · refine List.findIdx?_eq_some_iff_getElem.2 ⟨hlt, by simp, fun j hj => ?_⟩
    simpa using hbefore j hj

/-! ## The order of a rollback -/

theorem append_singleton_eq_cons_iff {α : Type} {c : α} :
    ∀ {L : List α}, L ++ [c] = c :: L ↔ ∀ d ∈ L, d = c := by
  intro L
  induction L with
  | nil => simp
  | cons d L ih =>
    constructor
    · intro h
      obtain ⟨rfl, h⟩ := List.cons.inj h
      intro x hx
      rcases List.mem_cons.1 hx with rfl | hx
      · rfl
      · exact ih.1 h x hx
    · intro h
      obtain rfl := h d List.mem_cons_self
      rw [List.cons_append, ih.2 fun x hx => h x (List.mem_cons_of_mem _ hx)]

/-- The failed step declares a compensation or none before it does, and if it names a step
then no step before it names another one. -/
def Workflow.RollbackComplete (wf : Workflow) (f : ℕ) (step : WorkflowStep) : Prop :=
  ((truthy step.compensation).isSome ∨ (wf.steps.take f).filterMap wf.undoes = []) ∧
    ∀ c ∈ wf.undoes step, ∀ d ∈ (wf.steps.take f).filterMap wf.undoes, d = c

theorem rollback_eq_compensations_iff {wf : Workflow} {f : ℕ} {step : WorkflowStep}
    (hf : wf.steps[f]? = some step) :
    wf.rollback f step = wf.compensations f ↔ wf.RollbackComplete f step := by
  have hcomp : wf.compensations f =
      (wf.undoes step).toList ++ (wf.steps.take f).reverse.filterMap wf.undoes := by
    unfold Workflow.compensations
    rw [List.take_add_one, hf, Option.toList_some, List.reverse_append, List.filterMap_append]
    cases h : wf.undoes step <;> simp [h]
  unfold Workflow.rollback Workflow.RollbackComplete
  rw [hcomp]
  cases hc : truthy step.compensation with
  | none =>
    have hu : wf.undoes step = none := by simp [Workflow.undoes, hc]
    rw [hu, List.filterMap_reverse]
    constructor
    · intro h
      have hnil : ((wf.steps.take f).filterMap wf.undoes).reverse = [] := h.symm
      exact ⟨.inr (List.reverse_eq_nil_iff.1 hnil), by simp⟩
    · rintro ⟨h | h, -⟩
      · cases h
      · simp [h]
  | some c =>
    simp only [Option.isSome_some, if_true, true_or, true_and]
    cases hu : wf.undoes step with
    | none => simp
    | some c =>
      rw [Option.toList_some, List.singleton_append, append_singleton_eq_cons_iff]
      simp

/-! ## A step that has used up its retries -/

variable {E : Env} {i : String} {w : World}

theorem Trail.failsWith {w' : World} {ms : List Mark} {cs : List String} (h : Trail w w' ms)
    (hb : Hermes.begun i ms = cs) (hu : w.parts.resilience = none → Hermes.undone i ms = cs)
    (hf : ∃ inst, w'.instances.get? i = some inst ∧ inst.status = .failed) :
    FailsWith i w w' cs := by
  rw [← h.marks_drop] at hb hu
  exact ⟨hb, hu, hf⟩

/-- A rollback, or none when the failed step declares no compensation. -/
theorem compensate_or_fail {wf : Workflow} (hw : w.WorkflowOf i wf) {f : ℕ} {step : WorkflowStep}
    (hidx : stepIndex wf.steps step.id = some f) (hby : stepById wf.steps step.id = some step)
    {w' : World} (hw' : w' = if (truthy step.compensation).isSome then compensate E w i step.id
      else w.setStatus i .failed) : RolledBack i w w' (wf.rollback f step) ∧
      ∃ inst, w'.instances.get? i = some inst ∧ inst.status = .failed := by
  obtain ⟨inst, hi, rfl⟩ := hw
  unfold Workflow.rollback
  split at hw'
  · rename_i hc
    rw [if_pos hc, hw']
    exact compensate_rolled hi hidx hby
  · rename_i hc
    rw [if_neg hc, hw']
    exact ⟨⟨[], (Goes.refl i w).setStatus i _, .nil, fun _ => rfl⟩, _, setStatus_get? hi _, rfl⟩

theorem exhaustStep_fails {wf : Workflow} (hw : w.WorkflowOf i wf) (inst : WorkflowInstance)
    {f : ℕ} {step : WorkflowStep} (hidx : stepIndex wf.steps step.id = some f)
    (hby : stepById wf.steps step.id = some step) (params : List (String × Value)) (secret : Bool)
    (n : ℕ) (e : Exc) :
    ∃ ms, Goes i w (exhaustStep E w i inst step params secret n e).2 ms ∧
      stalls i ms = [step.id] ∧ forwards i ms = [] ∧ begun i ms = wf.rollback f step ∧
      (w.parts.resilience = none → undone i ms = wf.rollback f step) ∧
      ∃ inst', (exhaustStep E w i inst step params secret n e).2.instances.get? i = some inst' ∧
        inst'.status = .failed := by
  have hparked := parked_rule (i := i) (I := fun w₁ => Goes i w w₁ []) secret
    (.refl i w) (fun _ _ h => h.quiet rfl) (fun _ _ h => h.quiet rfl) inst step params n e
  rw [exhaustStep_eq]
  simp only
  generalize w.parked i inst step params secret n e = w₂ at hparked ⊢
  have hstall : Goes i w (w₂.emit (.stalled i step.id e.text)) [.stalled i step.id] :=
    hparked.record _
  generalize hw₃ : (if (truthy step.compensation).isSome then
    compensate E (w₂.emit (.stalled i step.id e.text)) i step.id
    else (w₂.emit (.stalled i step.id e.text)).setStatus i .failed) = w₃
  obtain ⟨⟨ms, hgo, hrolled, hundone⟩, hfailed⟩ :=
    compensate_or_fail (hstall.workflowOf hw) hidx hby hw₃.symm
  -- besides the stall itself all marks are those of the rollback
  refine ⟨_, (hstall.trans hgo).reply "error" [("error", .str e.text)] none, ?_, ?_, ?_, ?_,
    hfailed⟩
  · rw [stalls_append, hrolled.stalls_eq]
    simp [stalls]
  · rw [forwards_append, hrolled.forwards_eq]
    simp [forwards]
  · rw [begun_append, hrolled.begun_eq]
    simp [begun]
  · intro hnone
    rw [undone_append, hundone (hstall.bare hnone)]
    simp [undone]

/-- The marks `ms` of a call on an instance with current step `step`: if they tell of a stalled
step, it is the current one and it was rolled back. -/
def Accounted (i : String) (wf : Workflow) (current : Option WorkflowStep) (w w' : World)
    (ms : List Mark) : Prop :=
  ∀ k ∈ stalls i ms, ∃ step, current = some step ∧ step.id = k ∧
    ∀ f, stepIndex wf.steps step.id = some f → begun i ms = wf.rollback f step ∧
      (w.parts.resilience = none → undone i ms = wf.rollback f step) ∧
      ∃ inst', w'.instances.get? i = some inst' ∧ inst'.status = .failed

theorem accounted_of_stalls {wf : Workflow} {current : Option WorkflowStep} {w' : World}
    {ms : List Mark} (h : stalls i ms = []) : Accounted i wf current w w' ms := by
  intro k hk
  rw [h] at hk
  cases hk

/-- A call without a current step completes the instance. -/
theorem executeStepFrom_none {inst : WorkflowInstance} (hi : w.instances.get? i = some inst)
    (hs : inst.currentStep = none) (agent : Option String) (retries : ℕ)
    (policy : Option SandboxPolicy) :
    Trail w (executeStepFrom E i agent retries policy w).2 [] := by
  unfold executeStepFrom passStep
  simp only [hi, hs]
  have hcompleted : Trail w (w.setCompleted i) [] := by
    refine Trail.of_record (a := .status i .completed) ?_ ?_
    · unfold World.setCompleted
      simp
    · unfold World.setCompleted
      simp
  obtain ⟨⟨u, hu, hm⟩, hb⟩ := hcompleted
  exact ⟨⟨u, hu, hm⟩, hb⟩

theorem Attempt.accounted {agent : Option String} {inst : WorkflowInstance} {step : WorkflowStep}
    (hs : inst.currentStep = some step) {retries : ℕ} {R : Except Exc Artifact × World}
    (h : Attempt E i agent inst step w retries R)
    (again : ∀ n, retries = n + 1 → ∀ {w' : World} {cur : WorkflowInstance},
      w'.instances.get? i = some cur →
      ∃ ms, Trail w' (executeStepFrom E i agent n none w').2 ms ∧ Accounted i cur.workflow
        cur.currentStep w' (executeStepFrom E i agent n none w').2 ms) :
    ∃ ms, Trail w R.2 ms ∧ Accounted i inst.workflow inst.currentStep w R.2 ms := by
  obtain ⟨-, hby⟩ := bind_stepById_eq_some.1 hs
  cases h with
  | ended hfirst _ hpass =>
    obtain ⟨ms, htrail, hstalls⟩ := hpass.done
    exact ⟨_, hfirst.trans htrail, accounted_of_stalls (by simpa using hstalls)⟩
  | @exhausted w' ms inst' params secret n e hraised =>
    obtain ⟨cur, hcur, hwf, -, -⟩ := hraised.stands
    obtain ⟨hst, hbe, hun⟩ := hraised.raised.marks
    have hof : w'.WorkflowOf i inst.workflow := ⟨cur, hcur, hwf⟩
    obtain ⟨f, hidx⟩ := stepIndex_of_stepById hby
    obtain ⟨ns, hgo, hstalls, -, hbegun, hundone, hfailed⟩ :=
      exhaustStep_fails (E := E) hof inst' hidx hby params secret n e
    refine ⟨_, hraised.trail.trans hgo.toTrail, fun k hk => ⟨step, hs, ?_, fun f' hf' => ?_⟩⟩
    · rw [stalls_append, hst, hstalls] at hk
      exact (List.mem_singleton.1 hk).symm
    · obtain rfl : f = f' := Option.some.inj (hidx.symm.trans hf')
      refine ⟨by rw [begun_append, hbe, hbegun, List.nil_append], fun hnone => ?_, hfailed⟩
      rw [undone_append, hun, hundone (hraised.trail.bare hnone), List.nil_append]
  | @again n w' ms hraised =>
    obtain ⟨cur, hcur, hwf, hid, -⟩ := hraised.stands
    -- an attempt that raised has left no mark of a rollback
    obtain ⟨hst, hbe, hun⟩ := hraised.raised.marks
    have hsame : cur.currentStep = inst.currentStep := currentStep_congr hwf hid
    obtain ⟨ns, htrail, hacc⟩ := again n rfl hcur
    rw [hsame, hwf] at hacc
    refine ⟨_, hraised.trail.trans htrail, fun k hk => ?_⟩
    rw [stalls_append, hst, List.nil_append] at hk
    obtain ⟨step', hs', hid', hroll⟩ := hacc k hk
    refine ⟨step', hs', hid', fun f hf => ?_⟩
    obtain ⟨hb, hu, hfailed⟩ := hroll f hf
    refine ⟨by rw [begun_append, hbe, hb, List.nil_append], fun hnone => ?_, hfailed⟩
    rw [undone_append, hun, hu (hraised.trail.bare hnone), List.nil_append]

/-- **A step that stalls is rolled back**, after any number of attempts. -/
theorem executeStepFrom_fails (agent : Option String) :
    ∀ retries policy {w : World} {inst : WorkflowInstance}, w.instances.get? i = some inst →
      ∃ ms, Trail w (executeStepFrom E i agent retries policy w).2 ms ∧
        Accounted i inst.workflow inst.currentStep w
          (executeStepFrom E i agent retries policy w).2 ms := by
  intro retries
  induction retries with
  | zero =>
    intro policy w inst hi
    cases hs : inst.currentStep with
    | none => exact ⟨[], executeStepFrom_none hi hs agent 0 policy, accounted_of_stalls rfl⟩
    | some step =>
      rw [← hs]
      exact (executeStepFrom_attempt hi hs agent 0 policy).accounted hs fun n hn => by cases hn
  | succ retries ih =>
    intro policy w inst hi
    cases hs : inst.currentStep with
    | none => exact ⟨[], executeStepFrom_none hi hs agent _ policy, accounted_of_stalls rfl⟩
    | some step =>
      rw [← hs]
      refine (executeStepFrom_attempt hi hs agent _ policy).accounted hs fun n hn => ?_
      cases hn
      exact fun hcur => ih none hcur

/-! ## The two ways to fail -/

theorem failsWith_of_rolledBack {w' : World} {cs : List String}
    (h : RolledBack i w w' cs ∧ ∃ inst, w'.instances.get? i = some inst ∧ inst.status = .failed) :
    FailsWith i w w' cs := by
  obtain ⟨⟨ms, hgo, hrolled, hundone⟩, hfailed⟩ := h
  exact hgo.toTrail.failsWith hrolled.begun_eq hundone hfailed

/-- **What the engine runs** when a step fails for good. -/
theorem failsFor_rollback {w' : World} {wf : Workflow} (hw : w.WorkflowOf i wf)
    (hd : (wf.steps.map (·.id)).Nodup) {f : ℕ} {step : WorkflowStep} (hf : wf.steps[f]? = some step)
    (h : FailsFor E i step w w') : FailsWith i w w' (wf.rollback f step) := by
  obtain ⟨hby, hidx⟩ := stepById_of_getElem hd hf
  obtain ⟨inst, hi, rfl⟩ := hw
  cases h with
  | @exhausted agent policy hstall =>
    unfold executeStep at hstall ⊢
    simp only [hi] at hstall ⊢
    have hi' : (w.record (.enter i)).instances.get? i = some inst := hi
    obtain ⟨ms, htrail, hacc⟩ := executeStepFrom_fails (E := E) agent inst.retries policy hi'
    generalize executeStepFrom E i agent inst.retries policy (w.record (.enter i)) = R
      at htrail hacc hstall ⊢
    have henter : Trail w (w.record (.enter i)) [] := Trail.of_record (a := .enter i) rfl id
    have hleave : Trail R.2 (R.2.record (.leave i)) [] := Trail.of_record (a := .leave i) rfl id
    have hall : Trail w (R.2.record (.leave i)) ms := by
      simpa using (henter.trans htrail).trans hleave
    rw [hall.marks_drop] at hstall
    obtain ⟨step', hs', hid, hroll⟩ := hacc _ hstall
    -- the step that stalled is the one at position `f`
    obtain ⟨-, hby'⟩ := bind_stepById_eq_some.1 hs'
    rw [hid, hby, Option.some.injEq] at hby'
    subst hby'
    obtain ⟨hb, hu, hfailed⟩ := hroll f hidx
    exact hall.failsWith hb hu hfailed
  | @rejected inst' fuel hi' hs =>
    obtain rfl : inst = inst' := Option.some.inj (hi.symm.trans hi')
    have hof : (w.record (.approve i step.id false)).WorkflowOf i inst.workflow := ⟨inst, hi, rfl⟩
    have hmark : Goes i w (w.record (.approve i step.id false)) [] := (Goes.refl i w).quiet rfl
    have hrest := compensate_or_fail (E := E) hof hidx hby rfl
    unfold approve
    simp only [hi, hs, hby, if_true, Option.bind_some, Bool.false_eq_true, if_false]
    apply failsWith_of_rolledBack
    obtain ⟨hroll, hfailed⟩ := hrest
    have hstart : RolledBack i w (w.record (.approve i step.id false)) [] :=
      ⟨[], hmark, .nil, fun _ => rfl⟩
    cases hc : truthy step.compensation with
    | none =>
      simp only [hc, Option.isSome_none, Bool.false_eq_true, if_false] at hroll hfailed ⊢
      exact ⟨hstart.trans hroll, hfailed⟩
    | some c =>
      simp only [hc, Option.isSome_some, if_true] at hroll hfailed ⊢
      exact ⟨hstart.trans hroll, hfailed⟩

theorem workflowOf_iff {wf : Workflow} :
    w.WorkflowOf i wf ↔ (w.instances.get? i).map (·.workflow) = some wf :=
  Option.map_eq_some_iff.symm

/-- The first step is undone by the third; the second declares nothing. -/
def threeSteps : Workflow :=
  { id := "w"
    steps := [{ id := "s", capability := "c", compensation := some "undo" },
              { id := "t", capability := "c", retryPolicy := { maxAttempts := 1 } },
              { id := "undo", capability := "c" }] }

/-- The first step has returned. -/
def oneDone : World :=
  World.run (.scripted fun n => n = 0) [.start threeSteps, .executeStep "" none none]

/-- The second step fails. -/
def twoTried : World := (executeStep (.scripted fun n => n = 0) "" none none oneDone).2

theorem twoTried_fails : FailsFor (.scripted fun n => n = 0) ""
    { id := "t", capability := "c", retryPolicy := { maxAttempts := 1 } } oneDone twoTried :=
  .exhausted (by decide +kernel)

end Hermes

import Hermes.Proof.Attempts

/-!
# What the engine keeps as a step's result

A completed step leaves the id of its artifact in `step_results`, a compensation its
own id. So no reference finds a dictionary there.

* `Blind w`: every result is a string, and every compensation was given what its
  references read when there are no results at all.
* `attemptStep_blind`, `World.run_blind`: the engine is blind, at every point of a run.
-/

namespace Hermes

open World

variable {E : Env} {i : String} {w w' : World}

/-- No result is a dictionary. -/
def AllStrings (results : Dict String Value) : Prop :=
  ∀ k v, results.get? k = some v → ∃ s, v = .str s

theorem AllStrings.insert {results : Dict String Value} (h : AllStrings results) (k s : String) :
    AllStrings (results.insert k (.str s)) := by
  intro j v hv
  by_cases hj : j = k
  · subst hj
    rw [Dict.get?_insert_self] at hv
    exact ⟨s, (Option.some.inj hv).symm⟩
  · rw [Dict.get?_insert_of_ne _ hj] at hv
    exact h j v hv

/-- **References read nothing** but their own text. -/
theorem resolveRef_blind {results : Dict String Value} (h : AllStrings results) (ref : String) :
    resolveRef results ref = resolveRef ∅ ref := by
  unfold resolveRef
  split
  · rename_i src mid field rest _
    split
    · cases hr : results.get? (String.ofList src) with
      | none => rfl
      | some v =>
        obtain ⟨s, rfl⟩ := h _ v hr
        rfl
    · rfl
  · rfl

/-- The inputs of a step without any results. -/
def blindInputs (step : WorkflowStep) : List (String × Value) :=
  step.inputMapping.map fun (k, ref) => (k, resolveRef ∅ ref)

theorem resolveInputs_blind {inst : WorkflowInstance} (h : AllStrings inst.stepResults)
    (step : WorkflowStep) : resolveInputs step inst = blindInputs step := by
  unfold resolveInputs blindInputs
  refine List.map_congr_left fun e _ => ?_
  obtain ⟨k, ref⟩ := e
  simp only [resolveRef_blind h]

/-- A compensation is given the inputs of a step without results. -/
def BodyCall.Blind (c : BodyCall) : Prop := c.kind = .compensation → c.params = blindInputs c.step

/-- **The engine is blind.** -/
structure Blind (w : World) : Prop where
  results : ∀ i inst, w.instances.get? i = some inst → AllStrings inst.stepResults
  undone : ∀ b, .body b ∈ w.trace → b.call.Blind

namespace Blind

theorem frame (h : Blind w) (ht : w'.trace = w.trace) (hi : w'.instances = w.instances) :
    Blind w' := by
  refine ⟨fun i inst hinst => ?_, fun b hb => ?_⟩
  · rw [hi] at hinst
    exact h.results i inst hinst
  · rw [ht] at hb
    exact h.undone b hb

theorem record (h : Blind w) {a : Action} (ha : ∀ b, a = .body b → b.call.Blind) :
    Blind (w.record a) := by
  refine ⟨h.results, fun b hb => ?_⟩
  rcases List.mem_append.1 hb with hb | hb
  · exact h.undone b hb
  · exact ha b (List.mem_singleton.1 hb).symm

/-- An action that is not a body. -/
theorem quiet (h : Blind w) {a : Action} (ha : ∀ b, a ≠ .body b) : Blind (w.record a) :=
  h.record fun b hb => absurd hb (ha b)

theorem update (h : Blind w) (i : String) {f : WorkflowInstance → WorkflowInstance}
    (hf : ∀ inst, AllStrings inst.stepResults → AllStrings (f inst).stepResults) :
    Blind (w.update i f) := by
  refine ⟨fun j inst hinst => ?_, fun b hb => ?_⟩
  · rw [update_instances] at hinst
    split at hinst
    · obtain ⟨inst', hi', rfl⟩ := Option.map_eq_some_iff.1 hinst
      exact hf inst' (h.results _ inst' hi')
    · exact h.results j inst hinst
  · rw [update_trace] at hb
    exact h.undone b hb

theorem setStatus (h : Blind w) (i : String) (s : WorkflowStatus) : Blind (w.setStatus i s) := by
  have hup := h.update i (f := fun inst => { inst with status := s }) fun _ hr => hr
  exact hup.quiet fun b => by simp

theorem setCompleted (h : Blind w) (i : String) : Blind (w.setCompleted i) := by
  have hup := h.update i
    (f := fun inst => { inst with status := .completed, completedAt := some w.tick }) fun _ hr => hr
  have hclock : Blind { w.update i fun inst =>
      { inst with status := .completed, completedAt := some w.tick } with
        tick := (w.update i fun inst =>
          { inst with status := .completed, completedAt := some w.tick }).tick + 1 } :=
    hup.frame rfl rfl
  exact hclock.quiet fun b => by simp

theorem reply (h : Blind w) (type : String) (content : List (String × Value))
    (source : Option String) : Blind (w.reply E type content source).2 :=
  h.frame rfl rfl

end Blind

/-! ## Bodies -/

theorem runStep_blind (h : Blind w) {p : BodyPlan} (hp : p.call.Blind) (cut : Bool) :
    Blind (runStep E w p cut).2 := by
  have hinner : ∀ {w : World}, Blind w → Blind (runStepInner E w p cut).2 := by
    intro w h
    unfold runStepInner
    have hcount : Blind { w with bodies := w.bodies + 1 } := h.frame rfl rfl
    refine hcount.record fun b hb => ?_
    cases hb
    exact hp
  unfold runStep
  cases w.parts.resilience with
  | none => exact hinner h
  | some r =>
    have hset : ∀ r', Blind (w.setResilience r') := fun r' => h.frame rfl rfl
    simp only
    split
    · exact hset _
    · exact (hinner (hset _)).frame rfl rfl

theorem runGuarded_blind (h : Blind w) (g : Guard) (packageId : String) {p : BodyPlan}
    (hp : p.call.Blind) : Blind (runGuarded E w g packageId p).2 := by
  unfold runGuarded
  simp only
  split
  · exact h.quiet fun b => by simp
  · have hclock : Blind { w with tick := w.tick + 1 } := h.frame rfl rfl
    have hrun := runStep_blind (E := E) hclock hp false
    have hguard : Blind ((runStep E { w with tick := w.tick + 1 } p false).2.setGuard
        (g.accrue packageId (max 0 (E.clock (runStep E { w with tick := w.tick + 1 } p false).2.tick -
          E.clock w.tick)))) := hrun.frame rfl rfl
    exact hguard.quiet fun b => by simp

/-! ## Rollbacks -/

/-- **A compensation** is given what its references read without results. -/
theorem runCompensation_blind (h : Blind w) (i failedStep c : String) :
    Blind (runCompensation E i failedStep c w) := by
  unfold runCompensation
  cases hi : w.instances.get? i with
  | none => exact h
  | some inst =>
    simp only
    cases stepById inst.workflow.steps c with
    | none => exact h
    | some comp =>
      simp only
      have hemit : Blind (w.emit (.compensating i failedStep c)) := h.quiet fun b => by simp
      have hcall : (BodyCall.mk .compensation none comp (resolveInputs comp inst) none).Blind :=
        fun _ => resolveInputs_blind (h.results i inst hi) comp
      have hrun := runStep_blind (E := E) (p := ⟨i, "unknown",
        ⟨.compensation, none, comp, resolveInputs comp inst, none⟩, none, none⟩) hemit hcall false
      split
      · rename_i w₁ hw₁
        rw [hw₁] at hrun
        exact hrun.update i fun inst hr => hr.insert c c
      · rename_i w₁ hw₁
        rw [hw₁] at hrun
        exact hrun

theorem compensate_blind (h : Blind w) (i failedStep : String) :
    Blind (compensate E w i failedStep) := by
  have hfor : ∀ (w : World) step, Blind w → Blind (compensateFor E i failedStep w step) := by
    intro w step h
    unfold compensateFor
    cases truthy step.compensation with
    | none => exact h
    | some c => exact runCompensation_blind h i failedStep c
  cases hi : w.instances.get? i with
  | none =>
    rw [compensate_none hi]
    exact h
  | some inst =>
    rw [compensate_eq hi]
    have hall := History.run_invariant _ Blind hfor
      (rollbackSteps inst.workflow.steps failedStep) _ (h.setStatus i .compensating)
    exact hall.setStatus i .failed

/-! ## A pass -/

theorem runBody_blind (h : Blind w) {p : BodyPlan} (hp : p.call.Blind) (guarded : Option String)
    (policy : SandboxPolicy) : Blind (runBody E w p guarded policy).2 := by
  have hbreach : ∀ {w : World} (v : String), Blind w → Blind (breach E w p.inst v).2 := by
    intro w v h
    unfold breach compensateOnBreach
    simp only
    have hemit : Blind (w.emit (.sandboxViolation p.inst v)) := h.quiet fun b => by simp
    refine Blind.quiet ?_ fun b => by simp
    split
    · split
      · exact compensate_blind hemit _ _
      · exact hemit
    · exact hemit
  have hbox : ∀ {q : BodyPlan}, q.call.Blind → q.inst = p.inst → Blind (runSandboxed E w q).2 := by
    intro q hq hinst
    unfold runSandboxed
    simp only
    have hrun := runStep_blind (E := E) h hq (E.monitor w.bodies).timedOut
    generalize runStep E w q _ = R at hrun ⊢
    obtain ⟨r, w₁⟩ := R
    rw [hinst]
    cases r with
    | ok a =>
      simp only
      split
      · exact hrun
      · exact hbreach _ hrun
    | error e =>
      simp only
      split
      · exact hbreach _ hrun
      · exact hbreach _ hrun
      · exact hrun
      · exact hbreach _ hrun
  unfold runBody
  split
  · exact runGuarded_blind h _ _ hp
  · split
    · exact hbox hp rfl
    · exact runStep_blind h hp false

theorem completeStep_blind (h : Blind w) (i : String) (step : WorkflowStep) (a : Artifact) :
    Blind (completeStep w i step a) := by
  unfold completeStep
  simp only
  have hup : Blind (w.update i fun inst =>
      { inst with
        stepResults := inst.stepResults.insert step.id (.str a.id)
        eventLog := inst.eventLog ++ [a.id] }) := h.update i fun inst hr => hr.insert step.id a.id
  have hemit := hup.quiet (a := .event (.stepCompleted i step.id a.id)) fun b => by simp
  split
  · exact hemit
  · rename_i inst _
    have hadv := (hemit.update i (f := fun inst' => { inst' with currentStepId := inst.next })
      fun _ hr => hr).quiet (a := .advance i inst.next) fun b => by simp
    split
    · exact hadv.setCompleted i
    · exact hadv

theorem tryBody_blind (h : Blind w) (i : String) (inst : WorkflowInstance) (step : WorkflowStep)
    (params : List (String × Value)) (secret : Bool) (n : ℕ) (agent : Option String)
    (policy : Option SandboxPolicy) :
    Blind (tryBody E w i inst step params secret n agent policy).2 := by
  unfold tryBody
  simp only
  have hrun := runBody_blind (E := E)
    (p := ⟨i, inst.workflow.id, ⟨.forward, some i, step, params, agent⟩, none, none⟩) h
    (fun hk => by cases hk) (guardedPackage w step)
    (policy.getD (resolvePolicy step inst.workflow))
  generalize runBody E w _ (guardedPackage w step) _ = R at hrun ⊢
  obtain ⟨r, w₁⟩ := R
  have hdeny : Blind (denyStep E w₁ i step (guardedPackage w step)).2 := by
    unfold denyStep
    simp only
    have hup := hrun.update i (f := fun inst =>
      { inst with permissionDenied := inst.permissionDenied ++
          [⟨step.id, step.capability, guardedPackage w step⟩] }) fun _ hr => hr
    refine Blind.reply ?_ _ _ _
    exact (hup.setStatus i .failed).quiet fun b => by simp
  cases r with
  | ok a => exact completeStep_blind hrun i step a
  | error e =>
    simp only
    split
    · exact hdeny
    · exact hdeny
    · exact hrun
    · exact hrun

theorem exhaustStep_blind (h : Blind w) (i : String) (inst : WorkflowInstance) (step : WorkflowStep)
    (params : List (String × Value)) (secret : Bool) (n : ℕ) (e : Exc) :
    Blind (exhaustStep E w i inst step params secret n e).2 := by
  have hparked := parked_rule (i := i) (I := Blind) secret h
    (fun _ _ h => h.quiet fun b => by simp) (fun _ _ h => h.quiet fun b => by simp)
    inst step params n e
  rw [exhaustStep_eq]
  simp only
  refine Blind.reply ?_ _ _ _
  have hstall := hparked.quiet (a := .event (.stalled i step.id e.text)) fun b => by simp
  split
  · exact compensate_blind hstall i step.id
  · exact hstall.setStatus i .failed

/-- **An attempt** of a blind engine leaves it blind. -/
theorem attemptStep_blind (h : Blind w) (i : String) (agent : Option String) (retries : ℕ)
    (policy : Option SandboxPolicy) : Blind (attemptStep E i agent retries policy w).2 := by
  -- what follows a pass writes events without results only
  have hafter : ∀ {R : Pass × World}, Blind R.2 → Blind (afterPass E i retries R).2 := by
    rintro ⟨pass, w₁⟩ h₁
    unfold afterPass
    cases pass with
    | done r => exact h₁
    | raised inst step params secret n e =>
      have hfailed := h₁.quiet (a := .event (.stepFailed i step.id e.text n (0 < retries)))
        fun b => by simp
      cases retries with
      | zero => exact exhaustStep_blind hfailed i inst step params secret n e
      | succ retries => exact hfailed.quiet fun b => by simp
  unfold attemptStep
  cases w.instances.get? i with
  | none => exact h
  | some inst =>
    refine hafter ?_
    unfold passStep
    cases inst.currentStep with
    | none =>
      have hdone := (h.setCompleted i).reply (E := E) "workflow" [("status", .str "completed")] none
      exact hdone
    | some step =>
      simp only
      have hcount := (h.update i (f := fun inst' =>
        { inst' with stepAttempts := inst'.stepAttempts.insert step.id (inst.attempts step.id + 1) })
        fun _ hr => hr).quiet (a := .attempt i step.id (inst.attempts step.id + 1)) fun b => by simp
      split
      · have hpaused := (hcount.setStatus i .paused).quiet
          (a := .event (.stepAwaitingApproval i step.id "requires_approval")) fun b => by simp
        have hgate := hpaused.reply (E := E) "approval_required" [("step_id", .str step.id)] none
        exact hgate
      · unfold startStep
        simp only
        have hstart := hcount.quiet (a := .event (.stepStarted i step.id step.capability))
          fun b => by simp
        -- resolving secrets touches the vault only
        generalize hR : interpolateParams E _ i (resolveInputs step inst) = R
        have hint : Blind R.2.2 := by
          rw [← hR]
          unfold interpolateParams
          split
          · exact hstart
          · exact hstart.frame rfl rfl
        obtain ⟨r, secret, w₁⟩ := R
        cases r with
        | error e => exact hint
        | ok params =>
          simp only
          split
          · have hfailed := (hint.setStatus i .failed).quiet (a := .event (.stepFailed i step.id
              "mcp_not_wired" (inst.attempts step.id + 1) false)) fun b => by simp
            have hunwired := hfailed.reply (E := E) "error"
              [("reason", .str "mcp_not_wired"), ("capability", .str step.capability)] none
            exact hunwired
          · exact tryBody_blind hint i inst step params secret _ agent policy

/-! ## Runs -/

theorem Quiet.blind (hq : Quiet E w w') (h : Blind w) : Blind w' := by
  cases hq with
  | frame ht hi => exact h.frame ht hi
  | @outer a ha =>
    refine h.quiet fun b hb => ?_
    rw [hb] at ha
    cases ha
  | @status i s => exact h.setStatus i s
  | @start workflow =>
    refine ⟨fun j inst hj => ?_, fun b hb => ?_⟩
    · rw [start_instances, Dict.get?_insert] at hj
      split at hj
      · cases hj
        intro k v hk
        cases hk
      · exact h.results j inst hj
    · rw [start_trace] at hb
      rcases List.mem_append.1 hb with hb | hb
      · exact h.undone b hb
      · cases List.mem_singleton.1 hb

/-- **The engine is blind**, after every run and at each of its points. -/
theorem World.run_blind (E : Env) (ops : List EngineOp) :
    Blind (World.run E ops) ∧ ∀ p ∈ runPoints E ops, Blind p.before := by
  refine (World.run_through E ops).invariant (fun w w' hq h => hq.blind h) ?_ ?_
  · intro p h
    cases p with
    | attempt i agent called policy retries w => exact attemptStep_blind h i agent retries policy
    | rejection i stepId w => exact compensate_blind h i stepId
  · refine ⟨?_, ?_⟩
    · intro i inst hi
      cases hi
    · intro b hb
      cases hb

end Hermes

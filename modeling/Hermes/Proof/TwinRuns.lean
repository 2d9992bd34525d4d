import Hermes.Proof.Attempts
import Hermes.Proof.TwinVaults

/-!
# Two runs on twin vaults

The engine in lockstep with itself, on vaults that differ in their plaintexts and with
bodies that do not look at their parameters.

* `World.Twin P w w'`: the same world, but for the vault, for the parameters that
  bodies were given, and, when `P` holds, for those of dead letters made by reading a
  secret. Without `P` there are no such dead letters.
* `compensate_twin`, `runBody_twin`, `passStep_twin`: a rollback, a body and a pass keep
  two worlds so.
* `executeAdaptive_twin`, `World.run_twin`: calls and whole runs do.
-/

namespace Hermes

open World

/-- **What a body returns or raises does not depend on its parameters.** -/
def Env.Oblivious (E : Env) : Prop := ∀ n c params, E.body n { c with params } = E.body n c

/-- The collaborators are the same, but for the plaintexts in the vault. -/
structure Parts.Twin (E : Env) (p p' : Parts) : Prop where
  same : p' = { p with vault := p'.vault }
  vault : Option.Rel (Vault.Twin E.vault) p.vault p'.vault

/-- Two actions at the same place of their traces. -/
inductive Action.Twin (P : Prop) : Action → Action → Prop where
  | same {a : Action} : (∀ entry, a ≠ .deadLetter entry true) →
    (∀ entry, a ≠ .resilienceDeadLetter entry true) → Twin P a a
  | body {b : BodyRun} {params : List (String × Value)} :
    Twin P (.body b) (.body { b with call := { b.call with params } })
  | deadLetter {entry : DeadLetterEntry} {params : List (String × Value)} : P →
    Twin P (.deadLetter entry true) (.deadLetter { entry with params } true)
  | resilienceDeadLetter {entry : ResilienceDeadLetterEntry} {params : List (String × Value)} : P →
    Twin P (.resilienceDeadLetter entry true) (.resilienceDeadLetter { entry with params } true)

/-- **The same world**, but for what was made of the secrets. -/
structure World.Twin (E : Env) (P : Prop) (w w' : World) : Prop where
  same : w' = { w with parts := w'.parts, trace := w'.trace }
  parts : w.parts.Twin E w'.parts
  trace : List.Forall₂ (Action.Twin P) w.trace w'.trace

/-- The same result, in twin worlds. -/
def Together {α : Type} (E : Env) (P : Prop) (X X' : α × World) : Prop :=
  X.1 = X'.1 ∧ X.2.Twin E P X'.2

variable {E : Env} {P : Prop} {i : String} {w w' : World}

namespace World.Twin

/-! ## Small updates -/

theorem instances (h : w.Twin E P w') : w'.instances = w.instances := by
  rw [h.same]

theorem planner (h : w.Twin E P w') : w'.planner = w.planner := by rw [h.same]

theorem tick (h : w.Twin E P w') : w'.tick = w.tick := by rw [h.same]

theorem bodies (h : w.Twin E P w') : w'.bodies = w.bodies := by rw [h.same]

theorem guard (h : w.Twin E P w') : w'.parts.guard = w.parts.guard := by
  rw [h.parts.same]

theorem installed (h : w.Twin E P w') : w'.parts.installed = w.parts.installed := by
  rw [h.parts.same]

theorem resilience (h : w.Twin E P w') : w'.parts.resilience = w.parts.resilience := by
  rw [h.parts.same]

theorem sandbox (h : w.Twin E P w') : w'.parts.sandbox = w.parts.sandbox := by
  rw [h.parts.same]

theorem mcp (h : w.Twin E P w') : w'.parts.mcp = w.parts.mcp := by rw [h.parts.same]

theorem deadLetter (h : w.Twin E P w') : w'.parts.deadLetter = w.parts.deadLetter := by
  rw [h.parts.same]

theorem note (h : w.Twin E P w') {a a' : Action} (ha : a.Twin P a') :
    (w.record a).Twin E P (w'.record a') :=
  ⟨by rw [h.same]; rfl, h.parts, List.rel_append h.trace (.cons ha .nil)⟩

/-- An action that is no dead letter. -/
theorem record (h : w.Twin E P w') {a : Action} (hd : ∀ entry, a ≠ .deadLetter entry true)
    (hr : ∀ entry, a ≠ .resilienceDeadLetter entry true) :
    (w.record a).Twin E P (w'.record a) :=
  h.note (.same hd hr)

theorem emit (h : w.Twin E P w') (e : WorkflowEvent) : (w.emit e).Twin E P (w'.emit e) :=
  h.record (by simp) (by simp)

theorem clock (h : w.Twin E P w') :
    World.Twin E P { w with tick := w.tick + 1 } { w' with tick := w'.tick + 1 } :=
  ⟨by rw [h.same], h.parts, h.trace⟩

theorem update (h : w.Twin E P w') (i : String) (f : WorkflowInstance → WorkflowInstance) :
    (w.update i f).Twin E P (w'.update i f) := by
  unfold World.update
  rw [h.instances]
  split
  · exact ⟨by rw [h.same], h.parts, h.trace⟩
  · exact h

theorem setStatus (h : w.Twin E P w') (i : String) (s : WorkflowStatus) :
    (w.setStatus i s).Twin E P (w'.setStatus i s) :=
  (h.update i _).record (by simp) (by simp)

theorem setCompleted (h : w.Twin E P w') (i : String) :
    (w.setCompleted i).Twin E P (w'.setCompleted i) := by
  unfold World.setCompleted
  simp only
  rw [h.tick]
  exact (h.update i _).clock.record (by simp) (by simp)

theorem reply (h : w.Twin E P w') (type : String) (content : List (String × Value))
    (source : Option String) :
    Together E P (w.reply E type content source) (w'.reply E type content source) := by
  unfold World.reply
  rw [h.tick]
  refine ⟨rfl, ?_⟩
  have hclock := h.clock
  rw [h.tick] at hclock
  exact hclock

theorem setResilience (h : w.Twin E P w') (r : Resilience) :
    (w.setResilience r).Twin E P (w'.setResilience r) := by
  refine ⟨by rw [h.same]; rfl, ⟨?_, h.parts.vault⟩, h.trace⟩
  unfold World.setResilience
  rw [h.parts.same]

theorem setGuard (h : w.Twin E P w') (g : Guard) :
    (w.setGuard g).Twin E P (w'.setGuard g) := by
  refine ⟨by rw [h.same]; rfl, ⟨?_, h.parts.vault⟩, h.trace⟩
  unfold World.setGuard
  rw [h.parts.same]

theorem setVault (h : w.Twin E P w') {v v' : Vault} (hv : v.Twin E.vault v') (tick : ℕ) :
    (w.setVault v tick).Twin E P (w'.setVault v' tick) := by
  refine ⟨by rw [h.same]; rfl, ⟨?_, .some hv⟩, h.trace⟩
  unfold World.setVault
  rw [h.parts.same]

end World.Twin

/-! ## Bodies -/

/-- The plan, with other parameters. -/
def BodyPlan.given (p : BodyPlan) (params : List (String × Value)) : BodyPlan :=
  { p with call := { p.call with params } }

theorem runStepInner_twin (hE : E.Oblivious) (h : w.Twin E P w') (p : BodyPlan)
    (params : List (String × Value)) (cut : Bool) :
    Together E P (runStepInner E w p cut) (runStepInner E w' (p.given params) cut) := by
  have hbody : E.body w'.bodies (p.given params).call = E.body w.bodies p.call := by
    rw [h.bodies]
    exact hE _ _ _
  have hcount : World.Twin E P { w with bodies := w.bodies + 1 }
      { w' with bodies := w'.bodies + 1 } := ⟨by rw [h.same], h.parts, h.trace⟩
  unfold runStepInner
  rw [hbody]
  simp only [h.instances] at hcount ⊢
  exact ⟨rfl, hcount.note .body⟩

theorem runStep_twin (hE : E.Oblivious) (h : w.Twin E P w') (p : BodyPlan)
    (params : List (String × Value)) (cut : Bool) :
    Together E P (runStep E w p cut) (runStep E w' (p.given params) cut) := by
  unfold runStep
  rw [h.resilience, h.tick]
  cases w.parts.resilience with
  | none => exact runStepInner_twin hE h p params cut
  | some r =>
    simp only
    -- the circuit is named after the capability, not after the parameters
    generalize hC : "wf:" ++ p.circuitScope ++ ":" ++ p.call.step.capability = circuit
    have hC' : "wf:" ++ (p.given params).circuitScope ++ ":" ++ (p.given params).call.step.capability
        = circuit := hC
    rw [hC']
    generalize r.enter circuit (E.clock w.tick) = R
    obtain ⟨a, r'⟩ := R
    cases a with
    | error e => exact ⟨rfl, h.setResilience r'⟩
    | ok u =>
      simp only
      obtain ⟨hr, ht⟩ := runStepInner_twin hE (h.setResilience r') p params cut
      rw [← hr, ht.tick]
      exact ⟨rfl, ht.setResilience _⟩

theorem runGuarded_twin (hE : E.Oblivious) (h : w.Twin E P w') (g : Guard) (packageId : String)
    (p : BodyPlan) (params : List (String × Value)) :
    Together E P (runGuarded E w g packageId p) (runGuarded E w' g packageId (p.given params)) := by
  unfold runGuarded
  simp only
  have hcap : (p.given params).call.step.capability = p.call.step.capability := rfl
  rw [hcap]
  split
  · exact ⟨rfl, h.record (by simp) (by simp)⟩
  · have hclock := h.clock
    rw [h.tick] at hclock ⊢
    obtain ⟨hr, ht⟩ := runStep_twin hE hclock p params false
    rw [← hr, ht.tick]
    refine ⟨rfl, World.Twin.record (ht.setGuard _) ?_ ?_⟩
    · simp
    · simp

/-! ## Rollbacks -/

theorem runCompensation_twin (hE : E.Oblivious) (h : w.Twin E P w') (i failedStep c : String) :
    (runCompensation E i failedStep c w).Twin E P (runCompensation E i failedStep c w') := by
  unfold runCompensation
  rw [h.instances]
  cases w.instances.get? i with
  | none => exact h
  | some inst =>
    simp only
    cases stepById inst.workflow.steps c with
    | none => exact h
    | some comp =>
      simp only
      -- a compensation is given uninterpolated inputs, the same in both worlds
      have hrun := runStep_twin hE (h.emit (.compensating i failedStep c))
        ⟨i, "unknown", ⟨.compensation, none, comp, resolveInputs comp inst, none⟩, none, none⟩
        (resolveInputs comp inst) false
      unfold BodyPlan.given at hrun
      simp only at hrun
      generalize runStep E (w.emit _) _ false = A at hrun ⊢
      generalize runStep E (w'.emit _) _ false = B at hrun ⊢
      obtain ⟨r, w₁⟩ := A
      obtain ⟨_, w₁'⟩ := B
      obtain ⟨rfl, ht⟩ := hrun
      cases r with
      | ok a => exact ht.update i _
      | error e => exact ht

theorem compensateFor_twin (hE : E.Oblivious) (i failedStep : String) (step : WorkflowStep)
    (h : w.Twin E P w') :
    (compensateFor E i failedStep w step).Twin E P (compensateFor E i failedStep w' step) := by
  unfold compensateFor
  cases truthy step.compensation with
  | none => exact h
  | some c => exact runCompensation_twin hE h i failedStep c

theorem compensate_twin (hE : E.Oblivious) (h : w.Twin E P w') (i failedStep : String) :
    (compensate E w i failedStep).Twin E P (compensate E w' i failedStep) := by
  cases hi : w.instances.get? i with
  | none =>
    rw [compensate_none hi, compensate_none (h.instances ▸ hi)]
    exact h
  | some inst =>
    rw [compensate_eq hi, compensate_eq (h.instances ▸ hi)]
    have hall := History.run_together (S := fun w w' => World.Twin E P w w')
      (fun step h => compensateFor_twin hE i failedStep step h)
      (rollbackSteps inst.workflow.steps failedStep) (h.setStatus i .compensating)
    exact hall.setStatus i .failed

theorem breach_twin (hE : E.Oblivious) (h : w.Twin E P w') (i violation : String) :
    Together E P (breach E w i violation) (breach E w' i violation) := by
  have hemit := h.emit (.sandboxViolation i violation)
  unfold breach compensateOnBreach
  simp only
  rw [hemit.instances]
  refine ⟨rfl, World.Twin.emit ?_ _⟩
  split
  · split
    · exact compensate_twin hE hemit i _
    · exact hemit
  · exact hemit

theorem runSandboxed_twin (hE : E.Oblivious) (h : w.Twin E P w') (p : BodyPlan)
    (params : List (String × Value)) :
    Together E P (runSandboxed E w p) (runSandboxed E w' (p.given params)) := by
  unfold runSandboxed
  simp only
  rw [h.bodies]
  have hinst : (p.given params).inst = p.inst := rfl
  have hrun := runStep_twin hE h p params (E.monitor w.bodies).timedOut
  rw [hinst]
  generalize runStep E w p _ = A at hrun ⊢
  generalize runStep E w' (p.given params) _ = B at hrun ⊢
  obtain ⟨r, w₁⟩ := A
  obtain ⟨_, w₁'⟩ := B
  obtain ⟨rfl, ht⟩ := hrun
  cases r with
  | ok a =>
    simp only
    split
    · exact ⟨rfl, ht⟩
    · exact breach_twin hE ht p.inst _
  | error e =>
    simp only
    split
    · exact breach_twin hE ht p.inst _
    · exact breach_twin hE ht p.inst _
    · exact ⟨rfl, ht⟩
    · exact breach_twin hE ht p.inst _

/-- **A body** is run in both worlds, or refused in both. -/
theorem runBody_twin (hE : E.Oblivious) (h : w.Twin E P w') (p : BodyPlan)
    (params : List (String × Value)) (guarded : Option String) (policy : SandboxPolicy) :
    Together E P (runBody E w p guarded policy) (runBody E w' (p.given params) guarded policy) := by
  unfold runBody
  rw [h.guard, h.sandbox]
  split
  · exact runGuarded_twin hE h _ _ { p with guarded := some _ } params
  · split
    · exact runSandboxed_twin hE h { p with sandboxed := some policy } params
    · exact runStep_twin hE h p params false

/-! ## A pass -/

/-- Passes that differ in the parameters, once a secret has been read. -/
inductive Pass.Twin : Pass → Pass → Prop where
  | done {r : Except Exc Artifact} : Twin (.done r) (.done r)
  | raised {inst : WorkflowInstance} {step : WorkflowStep} {params params' : List (String × Value)}
    {secret : Bool} {n : ℕ} {e : Exc} : (secret = false → params = params') →
    Twin (.raised inst step params secret n e) (.raised inst step params' secret n e)

/-- Passes side by side. -/
def Pass.Together (E : Env) (P : Prop) (X X' : Pass × World) : Prop :=
  X.1.Twin X'.1 ∧ X.2.Twin E P X'.2

theorem Together.done {X X' : Except Exc Artifact × World} (h : Together E P X X') :
    Pass.Together E P (.done X.1, X.2) (.done X'.1, X'.2) := by
  refine ⟨?_, h.2⟩
  rw [h.1]
  exact .done

/-- **Interpolation**: without a secret the parameters are the same. -/
theorem interpolateParams_twin (h : w.Twin E P w') (i : String) (params : List (String × Value)) :
    Alike (interpolateParams E w i params).2.1 (interpolateParams E w i params).1
        (interpolateParams E w' i params).1 ∧
      (interpolateParams E w' i params).2.1 = (interpolateParams E w i params).2.1 ∧
      (interpolateParams E w i params).2.2.Twin E P (interpolateParams E w' i params).2.2 := by
  have hvault := h.parts.vault
  unfold interpolateParams
  generalize hv : w.parts.vault = o at hvault ⊢
  generalize hv' : w'.parts.vault = o' at hvault ⊢
  cases hvault with
  | none => exact ⟨.refl _ _, rfl, h⟩
  | @some v v' hvv =>
    simp only
    rw [h.tick]
    have hread : Reading.Twin E.vault ⟨v, w.tick, false⟩ ⟨v', w.tick, false⟩ := ⟨hvv, rfl, rfl⟩
    obtain ⟨ho, hr, -⟩ := interpolateDict_twin
      (L := ⟨E.vault, .workflow, some i, "workflow:" ++ i⟩) hread params
    rw [hr.tick]
    exact ⟨ho, hr.secret, h.setVault hr.vault _⟩

theorem completeStep_twin (h : w.Twin E P w') (i : String) (step : WorkflowStep) (a : Artifact) :
    (completeStep w i step a).Twin E P (completeStep w' i step a) := by
  unfold completeStep
  simp only
  set f : WorkflowInstance → WorkflowInstance := fun inst =>
    { inst with
      stepResults := inst.stepResults.insert step.id (.str a.id)
      eventLog := inst.eventLog ++ [a.id] }
  have hemit := (h.update i f).emit (.stepCompleted i step.id a.id)
  rw [hemit.instances]
  split
  · exact hemit
  · rename_i inst _
    have hadv : (((w.update i f).emit (.stepCompleted i step.id a.id)).update i fun inst' =>
        { inst' with currentStepId := inst.next }).record (.advance i inst.next) |>.Twin E P
        ((((w'.update i f).emit (.stepCompleted i step.id a.id)).update i fun inst' =>
          { inst' with currentStepId := inst.next }).record (.advance i inst.next)) :=
      (hemit.update i _).record (by simp) (by simp)
    split
    · exact hadv.setCompleted i
    · exact hadv

theorem denyStep_twin (h : w.Twin E P w') (i : String) (step : WorkflowStep)
    (packageId : Option String) :
    Together E P (denyStep E w i step packageId) (denyStep E w' i step packageId) :=
  (((h.update i _).setStatus i .failed).emit _).reply _ _ _

theorem guardedPackage_twin (h : w.Twin E P w') (step : WorkflowStep) :
    guardedPackage w' step = guardedPackage w step := by
  unfold guardedPackage
  rw [h.guard, h.installed]

theorem tryBody_twin (hE : E.Oblivious) (h : w.Twin E P w') (i : String) (inst : WorkflowInstance)
    (step : WorkflowStep) {params params' : List (String × Value)} {secret : Bool}
    (hp : secret = false → params = params') (n : ℕ) (agent : Option String)
    (policy : Option SandboxPolicy) :
    Pass.Together E P (tryBody E w i inst step params secret n agent policy)
      (tryBody E w' i inst step params' secret n agent policy) := by
  unfold tryBody
  simp only
  rw [guardedPackage_twin h]
  have hrun := runBody_twin hE h
    ⟨i, inst.workflow.id, ⟨.forward, some i, step, params, agent⟩, none, none⟩ params'
    (guardedPackage w step) (policy.getD (resolvePolicy step inst.workflow))
  unfold BodyPlan.given at hrun
  simp only at hrun
  generalize runBody E w _ (guardedPackage w step) _ = A at hrun ⊢
  generalize runBody E w' _ (guardedPackage w step) _ = B at hrun ⊢
  obtain ⟨r, w₁⟩ := A
  obtain ⟨_, w₁'⟩ := B
  obtain ⟨rfl, ht⟩ := hrun
  simp only at ht
  cases r with
  | ok a => exact ⟨.done, completeStep_twin ht i step a⟩
  | error e =>
    simp only
    split
    · exact (denyStep_twin ht i step _).done
    · exact (denyStep_twin ht i step _).done
    · exact ⟨.done, ht⟩
    · exact ⟨.raised hp, ht⟩

theorem startStep_twin (hE : E.Oblivious) (h : w.Twin E P w') (i : String)
    (inst : WorkflowInstance) (step : WorkflowStep) (n : ℕ) (agent : Option String)
    (policy : Option SandboxPolicy) :
    Pass.Together E P (startStep E w i inst step n agent policy)
      (startStep E w' i inst step n agent policy) := by
  unfold startStep
  simp only
  obtain ⟨ho, hs, ht⟩ := interpolateParams_twin (h.emit (.stepStarted i step.id step.capability)) i
    (resolveInputs step inst)
  generalize interpolateParams E (w.emit _) i _ = A at ho hs ht ⊢
  generalize interpolateParams E (w'.emit _) i _ = B at ho hs ht ⊢
  obtain ⟨r, secret, w₁⟩ := A
  obtain ⟨r', _, w₁'⟩ := B
  simp only at ho hs ht
  subst hs
  -- interpolation raises in both worlds, or in neither
  rcases ho.cases with ⟨e, rfl, rfl⟩ | ⟨params, params', rfl, rfl, hp⟩
  · exact ⟨.done, ht⟩
  · simp only
    rw [ht.mcp]
    split
    · exact (((ht.setStatus i .failed).emit _).reply _ _ _).done
    · exact tryBody_twin hE ht i inst step hp n agent policy

/-- **A pass** goes the same way in both worlds. -/
theorem passStep_twin (hE : E.Oblivious) (h : w.Twin E P w') (i : String)
    (inst : WorkflowInstance) (agent : Option String) (policy : Option SandboxPolicy) :
    Pass.Together E P (passStep E w i inst agent policy) (passStep E w' i inst agent policy) := by
  unfold passStep
  cases inst.currentStep with
  | none => exact ((h.setCompleted i).reply _ _ _).done
  | some step =>
    simp only
    set f : WorkflowInstance → WorkflowInstance := fun inst' =>
      { inst' with stepAttempts := inst'.stepAttempts.insert step.id (inst.attempts step.id + 1) }
    have hcount : ((w.update i f).record (.attempt i step.id (inst.attempts step.id + 1))).Twin E P
        ((w'.update i f).record (.attempt i step.id (inst.attempts step.id + 1))) :=
      (h.update i f).record (by simp) (by simp)
    split
    · exact (((hcount.setStatus i .paused).emit _).reply _ _ _).done
    · exact startStep_twin hE hcount i inst step _ agent policy

/-! ## Dead letters -/

/-- The parameters of a dead letter are the same, unless a secret was read and `P` holds. -/
theorem World.Twin.park (h : w.Twin E P w') (entry : DeadLetterEntry)
    {params' : List (String × Value)} {secret : Bool} (hp : secret = false → entry.params = params')
    (hP : secret = true → P) :
    (w.record (.deadLetter entry secret)).Twin E P
      (w'.record (.deadLetter { entry with params := params' } secret)) := by
  cases secret with
  | true => exact h.note (.deadLetter (hP rfl))
  | false =>
    rw [← hp rfl]
    exact h.record (by simp) (by simp)

theorem World.Twin.parkResilience (h : w.Twin E P w') (entry : ResilienceDeadLetterEntry)
    {params' : List (String × Value)} {secret : Bool} (hp : secret = false → entry.params = params')
    (hP : secret = true → P) :
    (w.record (.resilienceDeadLetter entry secret)).Twin E P
      (w'.record (.resilienceDeadLetter { entry with params := params' } secret)) := by
  cases secret with
  | true => exact h.note (.resilienceDeadLetter (hP rfl))
  | false =>
    rw [← hp rfl]
    exact h.record (by simp) (by simp)

theorem parked_twin (h : w.Twin E P w') (i : String) (inst : WorkflowInstance)
    (step : WorkflowStep) {params params' : List (String × Value)} {secret : Bool}
    (hp : secret = false → params = params')
    (hP : secret = true → w.parts.deadLetter = true ∨ w.parts.resilience.isSome = true → P)
    (n : ℕ) (e : Exc) :
    (w.parked i inst step params secret n e).Twin E P
      (w'.parked i inst step params' secret n e) := by
  unfold parked
  simp only
  -- the ADR-021 queue first, then the one of the resilience engine
  generalize hw₁ : (if w.parts.deadLetter then _ else w) = w₁
  generalize hw₁' : (if w'.parts.deadLetter then _ else w') = w₁'
  have h₁ : w₁.Twin E P w₁' := by
    rw [← hw₁, ← hw₁', h.deadLetter]
    split
    · rename_i hd
      exact h.park _ hp fun hs => hP hs (.inl hd)
    · exact h
  have hparts : w₁.parts = w.parts := by
    rw [← hw₁]
    split <;> rfl
  rw [h₁.resilience]
  split
  · rename_i hr
    exact h₁.parkResilience _ hp fun hs => hP hs (.inr (hparts ▸ hr))
  · exact h₁

theorem exhaustStep_twin (hE : E.Oblivious) (h : w.Twin E P w') (i : String)
    (inst : WorkflowInstance) (step : WorkflowStep) {params params' : List (String × Value)}
    {secret : Bool} (hp : secret = false → params = params')
    (hP : secret = true → w.parts.deadLetter = true ∨ w.parts.resilience.isSome = true → P)
    (n : ℕ) (e : Exc) :
    Together E P (exhaustStep E w i inst step params secret n e)
      (exhaustStep E w' i inst step params' secret n e) := by
  rw [exhaustStep_eq, exhaustStep_eq]
  simp only
  have hstall := (parked_twin h i inst step hp hP n e).emit (.stalled i step.id e.text)
  refine World.Twin.reply ?_ _ _ _
  split
  · exact compensate_twin hE hstall i step.id
  · exact hstall.setStatus i .failed

end Hermes

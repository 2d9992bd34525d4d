import Hermes.Proof.Journal
import Hermes.Proof.TwinRuns
import Hermes.Proof.VaultIsolation

/-!
# Dead letters and secrets

A step that has used up its retries is parked in both dead-letter queues with its
parameters as interpolation has made them.

* `World.run_twin`: two runs on twin vaults stay together, up to what was made by reading
  a secret.
* `dead_letters_twin`: they write the same dead letters as long as no step is parked
  whose inputs were made by reading a secret.
* `plaintext_parked`: such a step is parked with the plaintext.
-/

namespace Hermes

open World

variable {E : Env} {P : Prop} {i : String} {w w' : World}

/-! ## An attempt -/

/-- The exceptions of a body after which its step is retried, or parked. -/
def Exc.retried (e : Exc) : Bool :=
  match e.kind with
  | .permissionDenied | .resourceLimitExceeded | .sandboxError => false
  | _ => true

/-- The attempt gives its body inputs that were made by reading a secret. -/
def attemptSecret (E : Env) (i : String) (w : World) : Bool :=
  match attemptInputs E i w with
  | some (_, _, .ok _, secret, _) => secret
  | _ => false

/-- The body of the attempt raises, and the step is to be retried or parked. -/
def attemptFails (E : Env) (i : String) (agent : Option String) (policy : Option SandboxPolicy)
    (w : World) : Bool :=
  match attemptBody E i agent policy w with
  | some (.error e) => e.retried
  | _ => false

/-- **A secret is parked**: the last attempt at a step fails, its inputs were made by reading a
secret, and a dead-letter queue is wired. -/
def Point.Parks (E : Env) : Point → Prop
  | .attempt i agent _ policy retries w =>
    retries = 0 ∧ (w.parts.deadLetter = true ∨ w.parts.resilience.isSome = true) ∧
      attemptSecret E i w = true ∧ attemptFails E i agent policy w = true
  | .rejection _ _ _ => False

instance (E : Env) : DecidablePred (Point.Parks E)
  | .attempt i agent _ policy retries w => inferInstanceAs (Decidable (retries = 0 ∧
      (w.parts.deadLetter = true ∨ w.parts.resilience.isSome = true) ∧
      attemptSecret E i w = true ∧ attemptFails E i agent policy w = true))
  | .rejection _ _ _ => inferInstanceAs (Decidable False)

/-- What is known of a pass that ends in the handler of an exception. -/
theorem passStep_raised {inst inst' : WorkflowInstance} (hi : w.instances.get? i = some inst)
    {agent : Option String} {policy : Option SandboxPolicy} {step : WorkflowStep}
    {params : List (String × Value)} {secret : Bool} {n : ℕ} {e : Exc} {w₁ : World}
    (h : passStep E w i inst agent policy = (.raised inst' step params secret n e, w₁)) :
    attemptSecret E i w = secret ∧ attemptFails E i agent policy w = true ∧
      w₁.parts.wiring = w.parts.wiring := by
  unfold passStep at h
  cases hs : inst.currentStep with
  | none =>
    rw [hs] at h
    cases h
  | some x =>
    simp only [hs] at h
    split at h
    · cases h
    · rename_i hgate
      set f : WorkflowInstance → WorkflowInstance := fun inst' =>
        { inst' with stepAttempts := inst'.stepAttempts.insert x.id (inst.attempts x.id + 1) }
        with hf
      set w₂ := (w.update i f).record (.attempt i x.id (inst.attempts x.id + 1)) with hw₂
      -- the pass and `attemptInputs` interpolate in the same world
      have hinputs : attemptInputs E i w = some (inst, x, interpolateParams E
          (w₂.emit (.stepStarted i x.id x.capability)) i (resolveInputs x inst)) := by
        unfold attemptInputs
        simp only [hi, hs]
        rw [if_neg hgate]
      have hw : Writes i w₂ w₂ [] (f inst).standing := .refl (standingOf_eq (update_get? f hi))
      have hint := interpolateParams_writes (E := E) (hw.record (.event (.stepStarted i x.id
        x.capability))) (resolveInputs x inst)
      unfold startStep at h
      simp only at h
      change Writes i w₂ (interpolateParams E (w₂.emit (.stepStarted i x.id x.capability)) i
        (resolveInputs x inst)).2.2 _ _ at hint
      unfold attemptSecret attemptFails attemptBody
      rw [hinputs]
      generalize interpolateParams E (w₂.emit _) i (resolveInputs x inst) = R at h hint ⊢
      obtain ⟨r, o, w₃⟩ := R
      cases r with
      | error e' => cases h
      | ok ps =>
        simp only at h hint ⊢
        split at h
        · cases h
        · rename_i hmcp
          rw [if_neg hmcp]
          unfold tryBody at h
          simp only at h
          obtain ⟨ms, st, -, hrun⟩ := runBody_writes (E := E)
            (p := ⟨i, inst.workflow.id, ⟨.forward, some i, x, ps, agent⟩, none, none⟩) hint
            (guardedPackage w₃ x) (policy.getD (resolvePolicy x inst.workflow))
          generalize runBody E w₃ _ (guardedPackage w₃ x) _ = B at h hrun ⊢
          obtain ⟨r, w₄⟩ := B
          cases r with
          | ok a => cases h
          | error e' =>
            simp only at h hrun ⊢
            split at h
            · cases h
            · cases h
            · cases h
            · rename_i h₁ h₂ h₃
              cases h
              have hretried : e.retried = true := by
                unfold Exc.retried
                split <;> simp_all
              have hparts : w₂.parts = w.parts := update_parts _ _ _
              refine ⟨rfl, hretried, ?_⟩
              rw [hrun.wiring, hparts]

/-- **An attempt** goes the same way in both worlds, as long as `P` holds once a secret is
parked. -/
theorem attemptStep_twin (hE : E.Oblivious) (h : w.Twin E P w') (i : String)
    (agent : Option String) (called : Option SandboxPolicy) (retries : ℕ)
    (policy : Option SandboxPolicy)
    (hP : (Point.attempt i agent called policy retries w).Parks E → P) :
    Together E P (attemptStep E i agent retries policy w)
      (attemptStep E i agent retries policy w') := by
  unfold attemptStep
  rw [h.instances]
  cases hi : w.instances.get? i with
  | none => exact ⟨rfl, h⟩
  | some inst =>
    simp only
    obtain ⟨hpass, ht⟩ := passStep_twin hE h i inst agent policy
    generalize hA : passStep E w i inst agent policy = A at hpass ht ⊢
    generalize passStep E w' i inst agent policy = B at hpass ht ⊢
    obtain ⟨pass, w₁⟩ := A
    obtain ⟨pass', w₁'⟩ := B
    unfold afterPass
    cases hpass with
    | done => exact ⟨rfl, ht⟩
    | @raised inst' step params params' secret n e hp =>
      have hfailed := ht.emit (.stepFailed i step.id e.text n (0 < retries))
      cases retries with
      | succ retries => exact ⟨rfl, hfailed.record (by simp) (by simp)⟩
      | zero =>
        obtain ⟨hsecret, hfails, hwiring⟩ := passStep_raised hi hA
        -- the queues wired after the body were wired before it
        have hparked : secret = true → w₁.parts.deadLetter = true ∨
            w₁.parts.resilience.isSome = true → P := by
          rintro rfl hwired
          refine hP ⟨rfl, ?_, hsecret, hfails⟩
          have hdead := congrArg Wiring.deadLetter hwiring
          have hres := congrArg Wiring.resilience hwiring
          simp only [Parts.wiring] at hdead hres
          rw [← hdead, ← hres]
          exact hwired
        obtain ⟨hr, hend⟩ := exhaustStep_twin hE hfailed i inst' step hp hparked n e
        simp only
        exact ⟨congrArg some hr, hend⟩

/-! ## One run -/

theorem Quiet.twin (hq : Quiet E w w') (h : w.Twin E P w) : w'.Twin E P w' := by
  have hparts : ∀ p : Parts, p.Twin E p := by
    intro p
    refine ⟨rfl, ?_⟩
    cases p.vault with
    | none => exact .none
    | some v => exact .some (.refl v)
  have hsame : ∀ {w : World}, List.Forall₂ (Action.Twin P) w.trace w.trace → w.Twin E P w :=
    fun ht => ⟨rfl, hparts _, ht⟩
  cases hq with
  | frame ht hi =>
    refine hsame ?_
    rw [ht]
    exact h.trace
  | @outer a ha =>
    refine h.record ?_ ?_
    · rintro entry rfl
      cases ha
    · rintro entry rfl
      cases ha
  | @status i s => exact h.setStatus i s
  | @start workflow =>
    refine hsame ?_
    rw [start_trace]
    exact List.rel_append h.trace (.cons (.same (by simp) (by simp)) .nil)

/-- **No secret is in a dead letter** of a run none of whose points parks one. -/
theorem run_spared (hE : E.Oblivious) {ops : List EngineOp}
    (hops : ∀ p ∈ runPoints E ops, ¬ p.Parks E) :
    (World.run E ops).Twin E False (World.run E ops) := by
  refine ((World.run_through E ops).invariant_of (I := fun w => w.Twin E False w)
    (fun _ _ hq h => hq.twin h) ?_ ?_).1
  · intro p hp h
    cases p with
    | attempt i agent called policy retries w =>
      exact (attemptStep_twin hE h i agent called retries policy (hops _ hp)).2
    | rejection i stepId w => exact compensate_twin hE h i stepId
  · refine ⟨rfl, ⟨rfl, ?_⟩, .nil⟩
    exact .none

/-! ## Two runs -/

theorem executeStepFrom_twin (hE : E.Oblivious) (i : String) (agent : Option String) :
    ∀ retries policy w, ∀ {w' : World}, w.Twin E True w' →
      Together E True (executeStepFrom E i agent retries policy w)
        (executeStepFrom E i agent retries policy w') := by
  have hone : ∀ {retries policy} {w w' w₁ : World} {o : Option (Except Exc Artifact)},
      w.Twin E True w' → attemptStep E i agent retries policy w = (o, w₁) →
      ∃ w₁', attemptStep E i agent retries policy w' = (o, w₁') ∧ w₁.Twin E True w₁' := by
    intro retries policy w w' w₁ o h hR
    obtain ⟨hr, ht⟩ := attemptStep_twin hE h i agent none retries policy fun _ => trivial
    rw [hR] at hr ht
    exact ⟨(attemptStep E i agent retries policy w').2, Prod.ext hr.symm rfl, ht⟩
  refine executeStepFrom_rule (M := fun retries policy w R => ∀ {w' : World}, w.Twin E True w' →
    Together E True R (executeStepFrom E i agent retries policy w')) ?_ ?_
  · intro retries policy w r w₁ hR w' h
    obtain ⟨w₁', hR', ht⟩ := hone h hR
    rw [executeStepFrom_eq, hR']
    exact ⟨rfl, ht⟩
  · intro retries policy w w₁ hR ih w' h
    obtain ⟨w₁', hR', ht⟩ := hone h hR
    rw [executeStepFrom_eq agent (retries + 1), hR']
    exact ih ht

/-- **A call of `execute_step`.** -/
theorem executeStep_twin (hE : E.Oblivious) (h : w.Twin E True w') (i : String)
    (agent : Option String) (policy : Option SandboxPolicy) :
    Together E True (executeStep E i agent policy w) (executeStep E i agent policy w') := by
  unfold executeStep
  rw [h.instances]
  cases w.instances.get? i with
  | none => exact ⟨rfl, h⟩
  | some inst =>
    simp only
    have henter : (w.record (.enter i)).Twin E True (w'.record (.enter i)) :=
      h.record (by simp) (by simp)
    obtain ⟨hr, ht⟩ := executeStepFrom_twin hE i agent inst.retries policy _ henter
    exact ⟨hr, ht.record (by simp) (by simp)⟩

theorem start_twin (h : w.Twin E P w') (workflow : Workflow) :
    (start E workflow w).2.Twin E P (start E workflow w').2 := by
  -- the defaults are stored under versions that the plaintexts do not decide
  have hseed : ∀ (i : String) (entries : List (String × String)) (tick : ℕ) {v v' : Vault},
      v.Twin E.vault v' →
      let seed := fun (x : Vault × ℕ) (kv : String × String) =>
        ((x.1.set x.2 ⟨.workflow, some i, kv.1⟩ kv.2 ("workflow:" ++ workflow.id)).2, x.2 + 1)
      (entries.foldl seed (v, tick)).1.Twin E.vault (entries.foldl seed (v', tick)).1 ∧
        (entries.foldl seed (v', tick)).2 = (entries.foldl seed (v, tick)).2 := by
    intro i entries tick v v' h
    refine History.run_together (S := fun x x' : Vault × ℕ => x.1.Twin E.vault x'.1 ∧ x'.2 = x.2)
      ?_ entries ⟨h, rfl⟩
    rintro ⟨v, tick⟩ ⟨v', _⟩ kv ⟨h, rfl⟩
    exact ⟨h.set _ _ _ _, rfl⟩
  have hvault := h.parts.vault
  unfold start
  rw [h.tick, h.instances]
  simp only
  set inst : WorkflowInstance :=
    { workflow, status := .running, currentStepId := workflow.steps.head?.map (·.id)
      startedAt := w.tick }
  have hnew : World.Twin E P
      { w with instances := w.instances.insert (E.uuid w.tick) inst, tick := w.tick + 1 }
      { w' with instances := w.instances.insert (E.uuid w.tick) inst, tick := w.tick + 1 } :=
    ⟨by rw [h.same], h.parts, h.trace⟩
  have hbegun := hnew.record (a := .start (E.uuid w.tick) workflow) (by simp) (by simp)
  simp only [record_parts]
  generalize hv : w.parts.vault = o at hvault ⊢
  generalize hv' : w'.parts.vault = o' at hvault ⊢
  cases hvault with
  | none => exact hbegun
  | some hvv =>
    obtain ⟨hs, ht⟩ := hseed (E.uuid w.tick) workflow.defaults (w.tick + 1) hvv
    simp only [record_tick]
    rw [ht]
    exact hbegun.setVault hs _

theorem runLoop_twin (hE : E.Oblivious) (i : String) : ∀ fuel {w w' : World}, w.Twin E True w' →
    Together E True (runLoop E i fuel w) (runLoop E i fuel w') := by
  intro fuel
  induction fuel with
  | zero => intro w w' h; exact ⟨rfl, h⟩
  | succ fuel ih =>
    intro w w' h
    unfold runLoop
    rw [h.instances]
    cases w.instances.get? i with
    | none => exact ⟨rfl, h⟩
    | some inst =>
      simp only
      split
      · obtain ⟨hr, ht⟩ := executeStep_twin hE h i none none
        generalize executeStep E i none none w = A at hr ht ⊢
        generalize executeStep E i none none w' = B at hr ht ⊢
        obtain ⟨r, w₁⟩ := A
        obtain ⟨_, w₁'⟩ := B
        simp only at hr
        subst hr
        cases r with
        | error e => exact ⟨rfl, ht⟩
        | ok a =>
          obtain ⟨hrest, hend⟩ := ih ht
          simp only
          generalize runLoop E i fuel w₁ = A at hrest hend ⊢
          generalize runLoop E i fuel w₁' = B at hrest hend ⊢
          obtain ⟨q, w₂⟩ := A
          obtain ⟨_, w₂'⟩ := B
          simp only at hrest
          subst hrest
          cases q with
          | error e => exact ⟨rfl, hend⟩
          | ok as => exact ⟨rfl, hend⟩
      · exact ⟨rfl, h⟩

theorem approve_twin (hE : E.Oblivious) (h : w.Twin E True w') (i stepId : String)
    (approved : Bool) (fuel : ℕ) :
    (approve E i stepId approved fuel w).2.Twin E True (approve E i stepId approved fuel w').2 := by
  unfold approve
  rw [h.instances]
  cases w.instances.get? i with
  | none => exact h
  | some inst =>
    simp only
    split
    · have hverdict : (w.record (.approve i stepId approved)).Twin E True
          (w'.record (.approve i stepId approved)) := h.record (by simp) (by simp)
      split
      · obtain ⟨hr, ht⟩ := runLoop_twin hE i fuel (hverdict.setStatus i .running)
        generalize runLoop E i fuel ((w.record _).setStatus i .running) = A at hr ht ⊢
        generalize runLoop E i fuel ((w'.record _).setStatus i .running) = B at hr ht ⊢
        obtain ⟨r, w₁⟩ := A
        obtain ⟨_, w₁'⟩ := B
        simp only at hr
        subst hr
        cases r with
        | error e => exact ht
        | ok as => exact ht
      · split
        · exact compensate_twin hE hverdict i stepId
        · exact hverdict.setStatus i .failed
    · exact h

/-! ## The planner -/

theorem executor_twin (hE : E.Oblivious) (i planId : String) :
    Agree (World.Twin E True) (executor E i planId) (executor E i planId) := by
  intro step w w' h
  unfold executor
  obtain ⟨hr, ht⟩ := executeStep_twin hE h i none none
  generalize executeStep E i none none w = A at hr ht ⊢
  generalize executeStep E i none none w' = B at hr ht ⊢
  obtain ⟨r, w₁⟩ := A
  obtain ⟨_, w₁'⟩ := B
  simp only at hr ht
  subst hr
  cases r with
  | error e => exact ⟨rfl, ht⟩
  | ok a =>
    simp only
    have hclock := ht.clock
    rw [ht.tick] at hclock ⊢
    exact ⟨rfl, hclock⟩

theorem executeAdaptive_twin (hE : E.Oblivious) (h : w.Twin E True w') (i : String) (fuel : ℕ) :
    (executeAdaptive E i fuel w).2.Twin E True (executeAdaptive E i fuel w').2 := by
  unfold executeAdaptive
  rw [h.instances, h.planner]
  cases w.instances.get? i with
  | none => exact h
  | some inst =>
    simp only
    cases w.planner with
    | none => exact (runLoop_twin hE i fuel h).2
    | some p =>
      simp only
      unfold executePlanned
      simp only
      set c := createPlan E.planner inst.workflow.id (planSteps inst.workflow) p
      obtain ⟨hr, hsession⟩ := executePlan_agree (executor_twin hE i c.1.planId) E.planner
        c.1.planId c.2 h
      generalize executePlan E.planner (executor E i c.1.planId) c.1.planId c.2 w = A
        at hr hsession ⊢
      generalize executePlan E.planner (executor E i c.1.planId) c.1.planId c.2 w' = B
        at hr hsession ⊢
      obtain ⟨r, s⟩ := A
      obtain ⟨_, s'⟩ := B
      simp only at hr hsession
      subst hr
      have hhost := hsession.host
      have hend : World.Twin E True { s.host with planner := some s.planner }
          { s'.host with planner := some s'.planner } := by
        refine ⟨?_, hhost.parts, hhost.trace⟩
        rw [hhost.same, hsession.planner]
      cases r with
      | error e => exact hend
      | ok plan =>
        exact (hend.reply "plan_executed"
          [("plan_id", .str plan.planId), ("status", .str plan.status.value)] none).2

/-! ## Runs -/

/-- The same operation, but for the plaintexts in the vaults that are wired. -/
inductive EngineOp.Twin (E : Env) : EngineOp → EngineOp → Prop where
  | same {op : EngineOp} : (∀ parts, op ≠ .arrange parts) → Twin E op op
  | arrange {parts parts' : Parts} : parts.Twin E parts' → Twin E (.arrange parts) (.arrange parts')

theorem World.step_twin (hE : E.Oblivious) (h : w.Twin E True w') {op op' : EngineOp}
    (hop : op.Twin E op') : (w.step E op).Twin E True (w'.step E op') := by
  cases hop with
  | arrange hp => exact ⟨by rw [h.same]; rfl, hp, h.trace⟩
  | same hne =>
    cases op with
    | start workflow => exact start_twin h workflow
    | executeStep i agent policy => exact (executeStep_twin hE h i agent policy).2
    | approve i stepId approved fuel => exact approve_twin hE h i stepId approved fuel
    | executeAdaptive i fuel => exact executeAdaptive_twin hE h i fuel
    | setPlanner p => exact ⟨by unfold World.step; rw [h.same], h.parts, h.trace⟩
    | arrange parts => exact absurd rfl (hne parts)

/-- **Two runs** on twin vaults stay together. -/
theorem World.run_twin (hE : E.Oblivious) {ops ops' : List EngineOp}
    (hops : List.Forall₂ (EngineOp.Twin E) ops ops') :
    (World.run E ops).Twin E True (World.run E ops') := by
  have hnew : World.Twin E True {} {} := ⟨rfl, ⟨rfl, .none⟩, .nil⟩
  refine History.run_lockstep (S := fun w w' => World.Twin E True w w') ?_ hops hnew
  intro w w' op op' h hop
  exact World.step_twin hE h hop

/-! ## Both queues -/

/-- The entries written to the ADR-021 queue. -/
def deadLetters (t : List Action) : List DeadLetterEntry :=
  t.filterMap fun
    | .deadLetter entry _ => some entry
    | _ => none

/-- The entries written to the resilience queue. -/
def resilienceDeadLetters (t : List Action) : List ResilienceDeadLetterEntry :=
  t.filterMap fun
    | .resilienceDeadLetter entry _ => some entry
    | _ => none

/-- Without `P` no secret is in a dead letter. -/
theorem Action.Twin.spared {a a' : Action} (h : a.Twin False a') :
    (∀ entry, a ≠ .deadLetter entry true) ∧ ∀ entry, a ≠ .resilienceDeadLetter entry true := by
  cases h with
  | same hd hr => exact ⟨hd, hr⟩
  | body => exact ⟨by simp, by simp⟩
  | deadLetter hP => exact hP.elim
  | resilienceDeadLetter hP => exact hP.elim

/-- Traces with the same dead letters, when the first one spares the secrets. -/
theorem dead_letters_eq {t t' : List Action} (h : List.Forall₂ (Action.Twin True) t t')
    (hself : List.Forall₂ (Action.Twin False) t t) : deadLetters t = deadLetters t' ∧
      resilienceDeadLetters t = resilienceDeadLetters t' := by
  induction h with
  | nil => exact ⟨rfl, rfl⟩
  | @cons a a' t t' ha _ ih =>
    cases hself with
    | cons hs hrest =>
      obtain ⟨hd, hr⟩ := ih hrest
      unfold deadLetters at hd ⊢
      unfold resilienceDeadLetters at hr ⊢
      rw [List.filterMap_cons, List.filterMap_cons, List.filterMap_cons, List.filterMap_cons,
        hd, hr]
      cases ha with
      | same => exact ⟨rfl, rfl⟩
      | body => exact ⟨rfl, rfl⟩
      | deadLetter => exact absurd rfl (hs.spared.1 _)
      | resilienceDeadLetter => exact absurd rfl (hs.spared.2 _)

/-- **The dead letters of two runs** on vaults that differ in their plaintexts are the same, as long
as none of the points of the first run parks a secret. -/
theorem dead_letters_twin (hE : E.Oblivious) {ops ops' : List EngineOp}
    (hops : List.Forall₂ (EngineOp.Twin E) ops ops')
    (hparks : ∀ p ∈ runPoints E ops, ¬ p.Parks E) :
    deadLetters (World.run E ops).trace = deadLetters (World.run E ops').trace ∧
      resilienceDeadLetters (World.run E ops).trace =
        resilienceDeadLetters (World.run E ops').trace :=
  dead_letters_eq (World.run_twin hE hops).trace (run_spared hE hparks).trace

/-! ## Runs on concrete inputs -/

/-- A step that is given a secret, and one that is not. -/
def parkWorkflow : Workflow :=
  { id := "w"
    steps := [
      { id := "a", capability := "c", retryPolicy := { maxAttempts := 1 }
        inputMapping := [("key", "$\x7bsecrets.token\x7d")] },
      { id := "b", capability := "d", retryPolicy := { maxAttempts := 1 } }] }

def parkEnv (returns : ℕ → Bool) : Env :=
  { Env.scripted returns with vault := { cipher := some base64Cipher } }

/-- A vault with one secret, and both queues. -/
def parkParts (plain : String) : Parts :=
  { vault := some (({} : Vault).setSecret { cipher := some base64Cipher } 0
      ⟨.workflow, some "", "token"⟩ plain "admin").2
    resilience := some {}
    deadLetter := true }

def parkOps (plain : String) : List EngineOp :=
  [.start parkWorkflow, .arrange (parkParts plain), .executeStep "" none none,
    .executeStep "" none none]

theorem parkEnv_oblivious (returns : ℕ → Bool) : (parkEnv returns).Oblivious :=
  fun _ _ _ => rfl

theorem parkOps_twin (returns : ℕ → Bool) (plain plain' : String) :
    List.Forall₂ (EngineOp.Twin (parkEnv returns)) (parkOps plain) (parkOps plain') := by
  have hseal : ∀ s, base64Cipher.encrypt 0 s =
      .ok { ciphertext := Base64.toAscii (Base64.encode s.toUTF8.data.toList) } := fun _ => rfl
  have hvault := (Vault.Twin.refl (E := { cipher := some base64Cipher }) {}).setSecret rfl
    base64Cipher_inverts 0 ⟨.workflow, some "", "token"⟩ (hseal plain) (hseal plain') "admin"
  have hparts : (parkParts plain).Twin (parkEnv returns) (parkParts plain') :=
    ⟨rfl, .some hvault⟩
  exact .cons (.same (by simp)) (.cons (.arrange hparts)
    (.cons (.same (by simp)) (.cons (.same (by simp)) .nil)))

/-- The first step succeeds and the second one is parked. -/
theorem dead_letters_twin_second :
    deadLetters (World.run (parkEnv (· = 0)) (parkOps "alpha")).trace =
        deadLetters (World.run (parkEnv (· = 0)) (parkOps "bravo")).trace ∧
      resilienceDeadLetters (World.run (parkEnv (· = 0)) (parkOps "alpha")).trace =
        resilienceDeadLetters (World.run (parkEnv (· = 0)) (parkOps "bravo")).trace :=
  dead_letters_twin (parkEnv_oblivious _) (parkOps_twin _ "alpha" "bravo") (by decide +kernel)

/-- The texts among the parameters of a dead letter. -/
def DeadLetterEntry.texts (entry : DeadLetterEntry) : List String :=
  entry.params.filterMap fun
    | (_, .str s) => some s
    | _ => none

/-- **The plaintext is parked** with the first step. -/
theorem plaintext_parked : ¬ ∀ (E : Env) (ops ops' : List EngineOp), E.Oblivious →
    List.Forall₂ (EngineOp.Twin E) ops ops' →
    deadLetters (World.run E ops).trace = deadLetters (World.run E ops').trace ∧
      resilienceDeadLetters (World.run E ops).trace =
        resilienceDeadLetters (World.run E ops').trace := by
  intro H
  -- the body raises whatever it is given, and the step has no retries
  obtain ⟨hdead, -⟩ := H (parkEnv fun _ => false) (parkOps "alpha") (parkOps "bravo")
    (parkEnv_oblivious _) (parkOps_twin _ "alpha" "bravo")
  have hdiffer : ((deadLetters (World.run (parkEnv fun _ => false) (parkOps "alpha")).trace).flatMap
      DeadLetterEntry.texts = ["alpha", "alpha"]) ∧
      ((deadLetters (World.run (parkEnv fun _ => false) (parkOps "bravo")).trace).flatMap
        DeadLetterEntry.texts = ["bravo", "bravo"]) := by decide +kernel
  rw [← hdead] at hdiffer
  exact absurd (hdiffer.1.symm.trans hdiffer.2) (by decide)

end Hermes

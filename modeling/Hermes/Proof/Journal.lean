import Hermes.Proof.Attempts
import Hermes.Proof.Notes

/-!
# The journal of an attempt

`attemptStep_done`: an attempt at a step stops at its gate, or notes that the
step was started; then its inputs cannot be resolved, or it fails or completes and
notes so, or its sandbox is broken. Only a failed attempt with retries left goes on.
-/

namespace Hermes

open World

variable {E : Env} {i : String} {w₀ w w' : World} {ns ms : List Note} {st st' : Standing}

/-- Where the cursor moves from a place. -/
def Place.next (p : Place) : Option String :=
  p.cursor.bind fun k =>
    (stepIndex p.workflow.steps k).bind fun idx => (p.workflow.steps[idx + 1]?).map (·.id)

/-- The standing after a step was completed. -/
def Standing.advanced (st : Standing) : Standing :=
  ⟨{ st.place with cursor := st.place.next },
    if st.place.next = none then .completed else st.status⟩

/-- The standing after an attempt at `step` was counted. -/
def WorkflowInstance.counted (inst : WorkflowInstance) (step : WorkflowStep) : Standing :=
  ⟨⟨inst.workflow, inst.currentStepId,
    inst.stepAttempts.insert step.id (inst.attempts step.id + 1)⟩, inst.status⟩

/-! ## The end of a pass -/

theorem completeStep_writes (h : Writes i w₀ w ns st) (step : WorkflowStep) (artifact : Artifact) :
    Writes i w₀ (completeStep w i step artifact)
      (ns ++ [Note.completed i step.id artifact.id, Note.advanced i]) st.advanced := by
  unfold completeStep
  simp only
  set f : WorkflowInstance → WorkflowInstance := fun inst =>
    { inst with
      stepResults := inst.stepResults.insert step.id (.str artifact.id)
      eventLog := inst.eventLog ++ [artifact.id] }
  have hupd : Writes i w₀ (w.update i f) ns st := h.update fun _ hst => hst
  have hdone : Writes i w₀ ((w.update i f).emit (.stepCompleted i step.id artifact.id))
      (ns ++ [Note.completed i step.id artifact.id]) st := hupd.record _
  obtain ⟨inst, hi, hst⟩ := hdone.inst
  rw [hi]
  simp only
  have hnext : inst.next = st.place.next := by rw [← hst]; rfl
  have hadv : Writes i w₀ ((((w.update i f).emit (.stepCompleted i step.id artifact.id)).update i
      fun inst' => { inst' with currentStepId := inst.next }).record (.advance i inst.next))
      (ns ++ [Note.completed i step.id artifact.id, Note.advanced i])
      ⟨{ st.place with cursor := inst.next }, st.status⟩ := by
    rw [List.append_cons]
    refine Writes.record ?_ (.advance i inst.next)
    exact hdone.update fun inst' hst' => by rw [← hst']; rfl
  unfold Standing.advanced
  rw [← hnext]
  split
  · exact hadv.setCompleted
  · exact hadv

theorem denyStep_writes (h : Writes i w₀ w ns st) (step : WorkflowStep)
    (packageId : Option String) : ∃ a, (denyStep E w i step packageId).1 = .ok a ∧
      a.type = "error" ∧ Writes i w₀ (denyStep E w i step packageId).2 (ns ++ [Note.failed i step.id])
        { st with status := .failed } := by
  unfold denyStep
  simp only
  set f : WorkflowInstance → WorkflowInstance := fun inst =>
    { inst with
      permissionDenied := inst.permissionDenied ++ [⟨step.id, step.capability, packageId⟩] }
  have hupd : Writes i w₀ (w.update i f) ns st := h.update fun _ hst => hst
  have hfailed := (hupd.setStatus .failed).record
    (.event (.stepFailed i step.id ("guard denied: " ++ step.capability) 1 false))
  exact ⟨_, rfl, rfl, Writes.reply hfailed _ _ _⟩

theorem exhaustStep_writes (h : Writes i w₀ w ns st) (inst : WorkflowInstance)
    (step : WorkflowStep) (params : List (String × Value)) (secret : Bool) (n : ℕ) (e : Exc) :
    ∃ a us, (exhaustStep E w i inst step params secret n e).1 = .ok a ∧ a.type = "error" ∧
      Undone i us ∧ Writes i w₀ (exhaustStep E w i inst step params secret n e).2 (ns ++ us)
        { st with status := .failed } := by
  have hparked := parked_rule (i := i) (I := fun w => Writes i w₀ w ns st) secret h
    (fun _ _ h => h.quiet rfl) (fun _ _ h => h.quiet rfl) inst step params n e
  rw [exhaustStep_eq]
  simp only
  generalize w.parked i inst step params secret n e = w₂ at hparked ⊢
  have hstall : Writes i w₀ (w₂.emit (.stalled i step.id e.text)) ns st := hparked.quiet rfl
  split
  · obtain ⟨us, hus, hw⟩ := compensate_writes (E := E) hstall step.id
    exact ⟨_, us, rfl, rfl, hus, hw.reply _ _ _⟩
  · refine ⟨_, [], rfl, rfl, .nil, ?_⟩
    rw [List.append_nil]
    exact (hstall.setStatus .failed).reply _ _ _

/-! ## From the body on -/

/-- **How a pass ends** when its body came back with a result. `W`, `p`, `guarded` and `policy`
say how the body was run, `ns` is noted down before it. -/
inductive BodyPass (E : Env) (i : String) (step : WorkflowStep) (W : Wiring) (p : BodyPlan)
    (guarded : Option String) (policy : SandboxPolicy) (w₀ : World) (ns : List Note)
    (st : Standing) : Except Exc Artifact → Pass × World → Prop where
  | completed {a : Artifact} {ms : List Note} {w' : World} :
    BodyDone E W p guarded policy st (.ok a) ms st →
    Writes i w₀ w' (ns ++ ms ++ [Note.completed i step.id a.id, Note.advanced i]) st.advanced →
    BodyPass E i step W p guarded policy w₀ ns st (.ok a) (.done (.ok a), w')
  | denied {e : Exc} {a : Artifact} {ms : List Note} {w' : World} : e.kind ≠ .sandboxError →
    BodyDone E W p guarded policy st (.error e) ms st → a.type = "error" →
    Writes i w₀ w' (ns ++ ms ++ [Note.failed i step.id]) { st with status := .failed } →
    BodyPass E i step W p guarded policy w₀ ns st (.error e) (.done (.ok a), w')
  | broken {e : Exc} {ms : List Note} {st' : Standing} {w' : World} : e.kind = .sandboxError →
    BodyDone E W p guarded policy st (.error e) ms st' → Writes i w₀ w' (ns ++ ms) st' →
    BodyPass E i step W p guarded policy w₀ ns st (.error e) (.done (.error e), w')
  | raised {e : Exc} {ms : List Note} {inst : WorkflowInstance}
    {params : List (String × Value)} {secret : Bool} {n : ℕ} {w' : World} :
    e.kind ≠ .sandboxError → BodyDone E W p guarded policy st (.error e) ms st →
    Writes i w₀ w' (ns ++ ms) st →
    BodyPass E i step W p guarded policy w₀ ns st (.error e)
      (.raised inst step params secret n e, w')

theorem tryBody_writes (h : Writes i w₀ w ns st) (inst : WorkflowInstance) (step : WorkflowStep)
    (params : List (String × Value)) (secret : Bool) (n : ℕ) (agent : Option String)
    (policy : Option SandboxPolicy) :
    BodyPass E i step w.parts.wiring
      ⟨i, inst.workflow.id, ⟨.forward, some i, step, params, agent⟩, none, none⟩
      (guardedPackage w step) (policy.getD (resolvePolicy step inst.workflow)) w₀ ns st
      (runBody E w ⟨i, inst.workflow.id, ⟨.forward, some i, step, params, agent⟩, none, none⟩
        (guardedPackage w step) (policy.getD (resolvePolicy step inst.workflow))).1
      (tryBody E w i inst step params secret n agent policy) := by
  unfold tryBody
  simp only
  set p : BodyPlan := ⟨i, inst.workflow.id, ⟨.forward, some i, step, params, agent⟩, none, none⟩
  obtain ⟨ms, st', hdone, hw⟩ := runBody_writes (E := E) (p := p) h (guardedPackage w step)
    (policy.getD (resolvePolicy step inst.workflow))
  generalize runBody E w p (guardedPackage w step) _ = R at hdone hw ⊢
  obtain ⟨r, w₁⟩ := R
  simp only at hdone hw ⊢
  cases r with
  | ok artifact =>
    obtain rfl := hdone.stays (by simp)
    exact .completed hdone (completeStep_writes hw step artifact)
  | error e =>
    -- a denial and a limit end the step in the same way
    have hdenied : e.kind ≠ .sandboxError → BodyPass E i step w.parts.wiring p
        (guardedPackage w step) (policy.getD (resolvePolicy step inst.workflow)) w₀ ns st
        (.error e) (.done (denyStep E w₁ i step (guardedPackage w step)).1,
          (denyStep E w₁ i step (guardedPackage w step)).2) := by
      intro hk
      obtain rfl := hdone.stays fun e' he' => by cases he'; exact hk
      obtain ⟨a, ha, htype, hwrites⟩ := denyStep_writes (E := E) hw step (guardedPackage w step)
      rw [ha]
      exact .denied hk hdone htype hwrites
    simp only
    split
    · rename_i hk
      exact hdenied (by rw [hk]; decide)
    · rename_i hk
      exact hdenied (by rw [hk]; decide)
    · rename_i hk
      exact .broken hk hdone hw
    · rename_i _ _ hk
      have hne : e.kind ≠ .sandboxError := hk
      obtain rfl := hdone.stays fun e' he' => by cases he'; exact hne
      exact .raised hne hdone hw

/-! ## A whole attempt -/

/-- The body of an attempt at `step` came back with `r`, noted down `ms` and left the instance
standing at `st'`. -/
structure RanBody (E : Env) (i : String) (agent : Option String) (policy : Option SandboxPolicy)
    (w : World) (inst : WorkflowInstance) (step : WorkflowStep) (r : Except Exc Artifact)
    (ms : List Note) (st' : Standing) : Prop where
  outcome : attemptBody E i agent policy w = some r
  supplied : ∃ params o, attemptInputs E i w = some (inst, step, .ok params, o) ∧
    BodyDone E w.parts.wiring
      ⟨i, inst.workflow.id, ⟨.forward, some i, step, params, agent⟩, none, none⟩
      (guardedPackage w step) (policy.getD (resolvePolicy step inst.workflow))
      (inst.counted step) r ms st'

theorem RanBody.resolved {agent : Option String} {policy : Option SandboxPolicy}
    {inst : WorkflowInstance} {step : WorkflowStep} {r : Except Exc Artifact}
    (h : RanBody E i agent policy w inst step r ms st) :
    ∃ params o, attemptInputs E i w = some (inst, step, .ok params, o) := by
  obtain ⟨params, o, hinputs, -⟩ := h.supplied
  exact ⟨params, o, hinputs⟩

theorem RanBody.done {agent : Option String} {policy : Option SandboxPolicy}
    {inst : WorkflowInstance} {step : WorkflowStep} {r : Except Exc Artifact}
    (h : RanBody E i agent policy w inst step r ms st) : ∃ params, BodyDone E w.parts.wiring
      ⟨i, inst.workflow.id, ⟨.forward, some i, step, params, agent⟩, none, none⟩
      (guardedPackage w step) (policy.getD (resolvePolicy step inst.workflow))
      (inst.counted step) r ms st := by
  obtain ⟨params, -, -, hdone⟩ := h.supplied
  exact ⟨params, hdone⟩

/-- **What an attempt at the current step does**, with `retries` left: what the call returns or
raises, unless it goes on, what is noted down, and where the instance stands afterwards. -/
inductive AttemptDone (E : Env) (i : String) (agent : Option String) (policy : Option SandboxPolicy)
    (w : World) (inst : WorkflowInstance) (step : WorkflowStep) :
    ℕ → Option (Except Exc Artifact) × World → Prop where
  | paused {retries : ℕ} {a : Artifact} {w' : World} : AtGate inst step →
    attemptInputs E i w = none → a.type = "approval_required" →
    Writes i w w' [] { inst.counted step with status := .paused } →
    AttemptDone E i agent policy w inst step retries (some (.ok a), w')
  /-- An input could not be resolved. -/
  | unresolved {retries : ℕ} {e : Exc} {o : Bool × World} {w' : World} :
    attemptInputs E i w = some (inst, step, .error e, o) → w.parts.wiring.vault = true →
    Writes i w w' [Note.started i step.id] (inst.counted step) →
    AttemptDone E i agent policy w inst step retries (some (.error e), w')
  /-- No MCP gateway is wired. -/
  | unwired {retries : ℕ} {params : List (String × Value)} {o : Bool × World} {a : Artifact}
    {w' : World} : attemptInputs E i w = some (inst, step, .ok params, o) →
    attemptBody E i agent policy w = none → isMcp step → w.parts.wiring.mcp = false →
    a.type = "error" →
    Writes i w w' [Note.started i step.id, Note.failed i step.id]
      { inst.counted step with status := .failed } →
    AttemptDone E i agent policy w inst step retries (some (.ok a), w')
  | completed {retries : ℕ} {a : Artifact} {ms : List Note} {w' : World} :
    RanBody E i agent policy w inst step (.ok a) ms (inst.counted step) →
    Writes i w w' (Note.started i step.id :: ms ++ [Note.completed i step.id a.id, Note.advanced i])
      (inst.counted step).advanced →
    AttemptDone E i agent policy w inst step retries (some (.ok a), w')
  /-- The guard refused, or the body raised one of its exceptions. -/
  | denied {retries : ℕ} {e : Exc} {a : Artifact} {ms : List Note} {w' : World} :
    e.kind ≠ .sandboxError → RanBody E i agent policy w inst step (.error e) ms (inst.counted step) →
    a.type = "error" →
    Writes i w w' (Note.started i step.id :: ms ++ [Note.failed i step.id])
      { inst.counted step with status := .failed } →
    AttemptDone E i agent policy w inst step retries (some (.ok a), w')
  | broken {retries : ℕ} {e : Exc} {ms : List Note} {st' : Standing} {w' : World} :
    e.kind = .sandboxError → RanBody E i agent policy w inst step (.error e) ms st' →
    Writes i w w' (Note.started i step.id :: ms) st' →
    AttemptDone E i agent policy w inst step retries (some (.error e), w')
  | exhausted {e : Exc} {a : Artifact} {ms us : List Note} {w' : World} :
    e.kind ≠ .sandboxError → RanBody E i agent policy w inst step (.error e) ms (inst.counted step) →
    a.type = "error" → Undone i us →
    Writes i w w' (Note.started i step.id :: ms ++ [Note.failed i step.id] ++ us)
      { inst.counted step with status := .failed } →
    AttemptDone E i agent policy w inst step 0 (some (.ok a), w')
  | again {retries : ℕ} {e : Exc} {ms : List Note} {w' : World} : e.kind ≠ .sandboxError →
    RanBody E i agent policy w inst step (.error e) ms (inst.counted step) →
    Writes i w w' (Note.started i step.id :: ms ++ [Note.failed i step.id]) (inst.counted step) →
    AttemptDone E i agent policy w inst step (retries + 1) (none, w')

theorem guardedPackage_congr (h : w'.parts.wiring = w.parts.wiring) (step : WorkflowStep) :
    guardedPackage w' step = guardedPackage w step := by
  have hrules := congrArg Wiring.rules h
  have hinst : w'.parts.installed = w.parts.installed := congrArg Wiring.installed h
  have hguard : w'.parts.guard.isSome = w.parts.guard.isSome := by
    have := congrArg Option.isSome hrules
    simpa [Parts.wiring] using this
  unfold guardedPackage
  rw [hguard, hinst]

/-- Interpolation changes the vault and the clock only. -/
theorem interpolateParams_writes (h : Writes i w₀ w ns st) (params : List (String × Value)) :
    Writes i w₀ (interpolateParams E w i params).2.2 ns st := by
  unfold interpolateParams
  cases hv : w.parts.vault with
  | none => exact h
  | some v =>
    simp only
    refine h.frame rfl rfl ?_
    unfold World.setVault Parts.wiring
    rw [hv]
    rfl

theorem interpolateParams_bare (hv : w.parts.vault = none) (params : List (String × Value)) :
    interpolateParams E w i params = (.ok params, false, w) := by
  unfold interpolateParams
  rw [hv]

/-- The attempt is counted, and the pass goes on from there. -/
theorem attemptDone_of_bodyPass {agent : Option String} {policy : Option SandboxPolicy}
    {inst : WorkflowInstance} {step : WorkflowStep} {params : List (String × Value)}
    {r : Except Exc Artifact} {R : Pass × World} {retries : ℕ}
    (houtcome : attemptBody E i agent policy w = some r)
    {o : Bool × World} (hinputs : attemptInputs E i w = some (inst, step, .ok params, o))
    (hpass : BodyPass E i step w.parts.wiring
      ⟨i, inst.workflow.id, ⟨.forward, some i, step, params, agent⟩, none, none⟩
      (guardedPackage w step) (policy.getD (resolvePolicy step inst.workflow)) w
      [Note.started i step.id] (inst.counted step) r R) :
    AttemptDone E i agent policy w inst step retries (afterPass E i retries R) := by
  cases hpass with
  | completed hdone hw =>
    exact .completed ⟨houtcome, params, o, hinputs, hdone⟩ hw
  | denied hk hdone ht hw =>
    exact .denied hk ⟨houtcome, params, o, hinputs, hdone⟩ ht hw
  | broken hk hdone hw =>
    exact .broken hk ⟨houtcome, params, o, hinputs, hdone⟩ hw
  | @raised e ms inst' params' secret n w₁ hk hdone hw =>
    have hran : RanBody E i agent policy w inst step (.error e) ms (inst.counted step) :=
      ⟨houtcome, params, o, hinputs, hdone⟩
    unfold afterPass
    simp only
    have hfailed : Writes i w (w₁.emit (.stepFailed i step.id e.text n (0 < retries)))
        (Note.started i step.id :: ms ++ [Note.failed i step.id]) (inst.counted step) := hw.record _
    cases retries with
    | zero =>
      obtain ⟨a, us, ha, ht, hus, hwrites⟩ := exhaustStep_writes (E := E) hfailed inst' step
        params' secret n e
      generalize exhaustStep E _ i inst' step params' secret n e = R at ha hwrites ⊢
      obtain ⟨r, w₂⟩ := R
      cases ha
      exact .exhausted hk hran ht hus hwrites
    | succ retries => exact .again hk hran (hfailed.quiet rfl)

/-- The attempt is counted. -/
theorem counted_writes {inst : WorkflowInstance} (hi : w.instances.get? i = some inst) (step : WorkflowStep) :
    Writes i w ((w.update i fun inst' =>
        { inst' with stepAttempts := inst'.stepAttempts.insert step.id (inst.attempts step.id + 1) }).record
      (.attempt i step.id (inst.attempts step.id + 1))) [] (inst.counted step) := by
  refine Writes.quiet ?_ rfl
  exact (Writes.refl (standingOf_eq hi)).update fun inst' hst => by
    have hp := congrArg Standing.place hst
    have hs' : inst'.status = inst.status := congrArg Standing.status hst
    unfold WorkflowInstance.standing WorkflowInstance.place at hp ⊢
    simp only [Place.mk.injEq] at hp
    obtain ⟨hwf, hc, ha⟩ := hp
    unfold WorkflowInstance.counted
    simp only
    rw [hwf, hc, ha, hs']

/-- **An attempt.** -/
theorem attemptStep_done {inst : WorkflowInstance} (hi : w.instances.get? i = some inst)
    {step : WorkflowStep} (hs : inst.currentStep = some step) (agent : Option String)
    (retries : ℕ) (policy : Option SandboxPolicy) :
    AttemptDone E i agent policy w inst step retries (attemptStep E i agent retries policy w) := by
  set f : WorkflowInstance → WorkflowInstance := fun inst' =>
    { inst' with stepAttempts := inst'.stepAttempts.insert step.id (inst.attempts step.id + 1) }
    with hf
  set w₁ := (w.update i f).record (.attempt i step.id (inst.attempts step.id + 1)) with hw₁
  have hcount : Writes i w w₁ [] (inst.counted step) := counted_writes hi step
  -- the first attempt at a step that requires approval stops at its gate
  by_cases hgate : step.requiresApproval ∧ inst.attempts step.id + 1 = 1
  · have hat : AtGate inst step := ⟨hgate.1, by omega⟩
    have hinputs : attemptInputs E i w = none := by
      unfold attemptInputs
      simp only [hi, hs]
      rw [if_pos hgate]
    unfold attemptStep passStep
    simp only [hi, hs]
    rw [if_pos hgate]
    refine .paused hat hinputs rfl ?_
    exact ((hcount.setStatus .paused).quiet rfl).reply _ _ _
  · have hstart : Writes i w (w₁.emit (.stepStarted i step.id step.capability))
        [Note.started i step.id] (inst.counted step) := hcount.record _
    have hint := interpolateParams_writes (E := E) hstart (resolveInputs step inst)
    have hinputs : attemptInputs E i w = some (inst, step, interpolateParams E
        (w₁.emit (.stepStarted i step.id step.capability)) i (resolveInputs step inst)) := by
      unfold attemptInputs
      simp only [hi, hs]
      rw [if_neg hgate]
    -- without a vault the parameters are taken as they are
    have hbare : w.parts.wiring.vault = false → ∃ params o, interpolateParams E
        (w₁.emit (.stepStarted i step.id step.capability)) i (resolveInputs step inst) =
          (.ok params, o) := by
      intro hv
      have hnone : (w₁.emit (.stepStarted i step.id step.capability)).parts.vault = none := by
        have := congrArg Wiring.vault hstart.wiring
        rw [hv] at this
        simpa [Parts.wiring] using this
      exact ⟨_, _, interpolateParams_bare hnone _⟩
    unfold attemptStep passStep startStep
    simp only [hi, hs]
    rw [if_neg hgate]
    generalize interpolateParams E (w₁.emit (.stepStarted i step.id step.capability)) i
      (resolveInputs step inst) = R at hint hinputs hbare ⊢
    obtain ⟨r, secret, w₂⟩ := R
    simp only at hint hinputs hbare ⊢
    cases r with
    | error e =>
      have hvault : w.parts.wiring.vault = true := by
        by_contra hv
        obtain ⟨params, o, ho⟩ := hbare (Bool.eq_false_iff.2 hv)
        cases ho
      exact .unresolved hinputs hvault hint
    | ok params =>
      have hbody : attemptBody E i agent policy w =
          if isMcp step ∧ w₂.parts.mcp = false then none
          else some (runBody E w₂
            ⟨i, inst.workflow.id, ⟨.forward, some i, step, params, agent⟩, none, none⟩
            (guardedPackage w₂ step) (policy.getD (resolvePolicy step inst.workflow))).1 := by
        unfold attemptBody
        rw [hinputs]
      simp only
      -- an MCP step has no body to run where no MCP is wired
      by_cases hno : isMcp step ∧ w₂.parts.mcp = false
      · rw [if_pos hno] at hbody ⊢
        refine .unwired hinputs hbody hno.1 ?_ rfl ?_
        · rw [← hint.wiring]
          exact hno.2
        · exact ((hint.setStatus .failed).record _).reply _ _ _
      · rw [if_neg hno] at hbody ⊢
        have hpass := tryBody_writes (E := E) hint inst step params secret
          (inst.attempts step.id + 1) agent policy
        rw [hint.wiring, guardedPackage_congr hint.wiring] at hpass
        rw [guardedPackage_congr hint.wiring] at hbody
        exact attemptDone_of_bodyPass hbody hinputs hpass

theorem RanBody.bodily {agent : Option String} {policy : Option SandboxPolicy}
    {inst : WorkflowInstance} {step : WorkflowStep} {r : Except Exc Artifact}
    (h : RanBody E i agent policy w inst step r ms st) : Bodily i ms := by
  obtain ⟨params, hdone⟩ := h.done
  exact hdone.bodily

/-- An attempt with the cursor on no step: the instance is completed, if there is one. -/
structure AttemptIdle (E : Env) (i : String) (agent : Option String) (policy : Option SandboxPolicy)
    (w : World) (R : Option (Except Exc Artifact) × World) : Prop where
  inputs : attemptInputs E i w = none
  body : attemptBody E i agent policy w = none
  ends : ∃ r, R.1 = some r
  noted : Noted w R.2 []

theorem attemptStep_idle (h : ∀ inst, w.instances.get? i = some inst → inst.currentStep = none)
    (agent : Option String) (retries : ℕ) (policy : Option SandboxPolicy) :
    AttemptIdle E i agent policy w (attemptStep E i agent retries policy w) := by
  have hinputs : attemptInputs E i w = none := by
    unfold attemptInputs
    cases hi : w.instances.get? i with
    | none => rfl
    | some inst => simp only [h inst hi]
  have hbody : attemptBody E i agent policy w = none := by
    unfold attemptBody
    rw [hinputs]
  unfold attemptStep
  cases hi : w.instances.get? i with
  | none => exact ⟨hinputs, hbody, ⟨_, rfl⟩, .refl w⟩
  | some inst =>
    simp only
    unfold passStep
    rw [h inst hi]
    have hdone := (Writes.refl (standingOf_eq hi)).setCompleted.reply (E := E) "workflow"
      [("status", .str "completed")] none
    exact ⟨hinputs, hbody, ⟨_, rfl⟩, hdone.noted⟩

/-- **Every attempt**, with the cursor on a step or not. -/
theorem attemptStep_cases (w : World) (i : String) (agent : Option String) (retries : ℕ)
    (policy : Option SandboxPolicy) :
    AttemptIdle E i agent policy w (attemptStep E i agent retries policy w) ∨
      ∃ inst step, w.instances.get? i = some inst ∧ inst.currentStep = some step ∧
        AttemptDone E i agent policy w inst step retries
          (attemptStep E i agent retries policy w) := by
  by_cases hidle : ∀ inst, w.instances.get? i = some inst → inst.currentStep = none
  · exact .inl (attemptStep_idle hidle agent retries policy)
  · simp only [not_forall] at hidle
    obtain ⟨inst, hi, hs⟩ := hidle
    obtain ⟨step, hs⟩ := Option.ne_none_iff_exists'.1 hs
    exact .inr ⟨inst, step, hi, hs, attemptStep_done hi hs agent retries policy⟩

/-! ## Points and what lies between them -/

theorem compensate_noted (w : World) (i stepId : String) :
    ∃ us, Undone i us ∧ Noted w (compensate E w i stepId) us := by
  cases hi : w.instances.get? i with
  | none =>
    refine ⟨[], .nil, ?_⟩
    unfold compensate
    rw [hi]
    exact .refl w
  | some inst =>
    obtain ⟨us, hus, hw⟩ := compensate_writes (E := E) (Writes.refl (standingOf_eq hi)) stepId
    exact ⟨us, hus, hw.noted⟩

/-- Between two points only calls are left. -/
theorem Quiet.notes (h : Quiet E w w') :
    ∃ ms, Hermes.notes w'.trace = Hermes.notes w.trace ++ ms ∧ ∀ n ∈ ms, ∃ j, n = .left j := by
  cases h with
  | frame ht _ => exact ⟨[], by rw [ht, List.append_nil], by simp⟩
  | @outer a ha =>
    refine ⟨Hermes.notes [a], by rw [record_trace, notes_append], ?_⟩
    cases a with
    | leave j => simp [Hermes.notes, Action.note]
    | enter | approve => simp [Hermes.notes, Action.note]
    | _ => cases ha
  | @status i s =>
    refine ⟨[], ?_, by simp⟩
    unfold setStatus
    rw [record_trace, update_trace, notes_append]
    rfl
  | start =>
    refine ⟨[], ?_, by simp⟩
    rw [start_trace, notes_append]
    rfl

end Hermes

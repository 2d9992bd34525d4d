import Hermes.Proof.EngineLife

/-!
# One pass through a step lives by the life cycle

What each function of `execute_step` does to the mode of its instance, from the
body of a step outwards.

* `runBody_lived`: a body, under a guard or in a sandbox.
* `compensate_lived`: a rollback.
* `passStep_lived`, `exhaustStep_lived`: a pass, and its end when the retries are
  used up.
-/

namespace Hermes

open History World

variable {E : Env} {i : String} {m : Mode} {w w' : World}

/-- A call of `execute_step` may end here. -/
structure Left (E : Env) (i : String) (w : World) : Prop where
  lived : ∃ m, (m = .idle ∨ m = .active ∨ m = .done) ∧ Lived E i m w
  isSome : (w.instances.get? i).isSome

theorem Left.of_lived (h : Lived E i m w) (hm : m = .idle ∨ m = .active ∨ m = .done)
    {inst : WorkflowInstance} (hi : w.instances.get? i = some inst) : Left E i w :=
  ⟨⟨m, hm, h⟩, by rw [hi]; rfl⟩

theorem Left.frame (h : Left E i w) (ht : w'.trace = w.trace) (hi : w'.instances = w.instances)
    (hk : w.tick ≤ w'.tick) : Left E i w' := by
  obtain ⟨⟨m, hm, hl⟩, hsome⟩ := h
  exact ⟨⟨m, hm, hl.frame ht hi hk⟩, hi ▸ hsome⟩

theorem Left.record (h : Left E i w) {a : Action} (ha : Allowed w.trace a) (hn : a.Neutral) :
    Left E i (w.record a) := by
  obtain ⟨⟨m, hm, hl⟩, hsome⟩ := h
  exact ⟨⟨m, hm, hl.record ha hn⟩, hsome⟩

/-- A new status is the end of a pass, unless it is a pause or a rollback. -/
theorem Left.of_status (h : Lived E i m w) {inst : WorkflowInstance}
    (hi : w.instances.get? i = some inst) {s : WorkflowStatus} (hs : (inst.life m).mayBecome s)
    (hm : modeAfter s = .idle) : Left E i (w.setStatus i s) := by
  have hl := h.status hi hs (by rintro rfl; simp [modeAfter] at hm)
  exact ⟨⟨_, .inl rfl, hm ▸ hl⟩, by rw [setStatus_get? hi]; rfl⟩

theorem Left.of_completed (h : Lived E i m w) {inst : WorkflowInstance}
    (hi : w.instances.get? i = some inst) (hs : (inst.life m).mayBecome .completed) :
    Left E i (w.setCompleted i) := by
  refine ⟨⟨_, .inl rfl, h.completed hi hs⟩, ?_⟩
  unfold setCompleted
  simp only [record_instances]
  rw [update_instances, if_pos rfl, hi]
  rfl

/-- `reply` only draws an id. -/
theorem Left.reply (h : Left E i w) (type : String) (content : List (String × Value))
    (source : Option String) : Left E i (w.reply E type content source).2 :=
  h.frame rfl rfl (Nat.le_succ _)

/-! ## Bodies -/

/-- `w'` follows from `w` in the same mode of `i`, with the same instances. -/
structure Stays (E : Env) (i : String) (m : Mode) (w w' : World) : Prop where
  lived : Lived E i m w'
  instances : w'.instances = w.instances

theorem runStepInner_lived (h : Lived E i m w) {p : BodyPlan} (hp : p.inst = i)
    {inst : WorkflowInstance} (hi : w.instances.get? i = some inst)
    (hc : (inst.life m).mayCall p.call) (t : Bool) : Stays E i m w (runStepInner E w p t).2 := by
  unfold runStepInner
  simp only
  have hcount : Lived E i m { w with bodies := w.bodies + 1 } := h.frame rfl rfl le_rfl
  refine ⟨hcount.record ?_ (fun _ _ => rfl), rfl⟩
  rw [hp, hi]
  exact h.living hi ⟨rfl, hc⟩

theorem runStep_lived (h : Lived E i m w) {p : BodyPlan} (hp : p.inst = i)
    {inst : WorkflowInstance} (hi : w.instances.get? i = some inst)
    (hc : (inst.life m).mayCall p.call) (t : Bool) : Stays E i m w (runStep E w p t).2 := by
  unfold runStep
  cases w.parts.resilience with
  | none => exact runStepInner_lived h hp hi hc t
  | some r =>
    simp only
    have hset : ∀ r, Lived E i m (w.setResilience r) := fun r => h.frame rfl rfl (Nat.le_succ _)
    split
    · exact ⟨hset _, rfl⟩
    · obtain ⟨hl, he⟩ := runStepInner_lived (hset _) hp hi hc t
      exact ⟨hl.frame rfl rfl (Nat.le_succ _), he⟩

theorem runGuarded_lived (h : Lived E i m w) {p : BodyPlan} (hp : p.inst = i)
    {inst : WorkflowInstance} (hi : w.instances.get? i = some inst)
    (hc : (inst.life m).mayCall p.call) (g : Guard) (packageId : String) :
    Stays E i m w (runGuarded E w g packageId p).2 := by
  unfold runGuarded
  simp only
  split
  · exact ⟨h.record trivial (fun _ _ => rfl), rfl⟩
  · have htick : Lived E i m { w with tick := w.tick + 1 } := h.frame rfl rfl (Nat.le_succ _)
    obtain ⟨hl, he⟩ := runStep_lived htick hp hi hc false
    refine ⟨Lived.record ?_ trivial (fun _ _ => rfl), he⟩
    exact hl.frame rfl rfl (Nat.le_succ _)

/-! ## Rollbacks -/

/-- Instance `i` is being rolled back. -/
def RollingBack (E : Env) (i : String) (w : World) : Prop :=
  Lived E i .rollback w ∧ (w.instances.get? i).isSome

theorem runCompensation_lived (h : RollingBack E i w) (failedStep compStepId : String) :
    RollingBack E i (runCompensation E i failedStep compStepId w) := by
  obtain ⟨hl, hsome⟩ := h
  unfold runCompensation
  cases hi : w.instances.get? i with
  | none => exact ⟨hl, hsome⟩
  | some inst =>
    simp only
    cases stepById inst.workflow.steps compStepId with
    | none => exact ⟨hl, hsome⟩
    | some comp =>
      simp only
      have hemit : Lived E i .rollback (w.emit (.compensating i failedStep compStepId)) :=
        hl.record trivial (fun _ _ => rfl)
      have hrun := runStep_lived (p := ⟨i, "unknown",
        ⟨.compensation, none, comp, resolveInputs comp inst, none⟩, none, none⟩)
        hemit rfl hi rfl false
      split
      · rename_i w₁ hw
        rw [hw] at hrun
        obtain ⟨hl₁, he⟩ := hrun
        refine ⟨hl₁.update i fun _ _ => rfl, ?_⟩
        rw [update_instances, if_pos rfl, he]
        exact Option.isSome_map.trans hsome
      · rename_i w₁ hw
        rw [hw] at hrun
        obtain ⟨hl₁, he⟩ := hrun
        refine ⟨hl₁, ?_⟩
        rw [he]
        exact hsome

theorem compensateFor_lived (h : RollingBack E i w) (failedStep : String) (step : WorkflowStep) :
    RollingBack E i (compensateFor E i failedStep w step) := by
  unfold compensateFor
  cases truthy step.compensation with
  | none => exact h
  | some c => exact runCompensation_lived h failedStep c

theorem setStatus_isSome (h : (w.instances.get? i).isSome) (s : WorkflowStatus) :
    ((w.setStatus i s).instances.get? i).isSome := by
  unfold setStatus
  rw [record_instances, update_instances, if_pos rfl]
  exact Option.isSome_map.trans h

/-- **A rollback** ends outside `execute_step`. -/
theorem compensate_lived (h : Lived E i m w) {inst : WorkflowInstance}
    (hi : w.instances.get? i = some inst) (hm : (inst.life m).mayBecome .compensating)
    (hf : ∃ a ∈ w.trace, a.isFailure i) (failedStep : String) :
    Lived E i .idle (compensate E w i failedStep) ∧
      ((compensate E w i failedStep).instances.get? i).isSome := by
  rw [compensate_eq hi]
  have hstart : RollingBack E i (w.setStatus i .compensating) :=
    ⟨h.status hi hm fun _ => hf, setStatus_isSome (by rw [hi]; rfl) _⟩
  obtain ⟨hl, hsome⟩ := run_invariant _ (RollingBack E i)
    (fun w s hw => compensateFor_lived hw failedStep s)
    (rollbackSteps inst.workflow.steps failedStep) _ hstart
  obtain ⟨inst', hi'⟩ := Option.isSome_iff_exists.1 hsome
  exact ⟨hl.status (s := .failed) hi' (.inr (.inr rfl)) (by simp), setStatus_isSome hsome _⟩

/-! ## The sandbox -/

theorem bind_stepById_eq_some {o : Option String} {steps : List WorkflowStep}
    {step : WorkflowStep} : o.bind (stepById steps) = some step ↔
      o = some step.id ∧ stepById steps step.id = some step := by
  constructor
  · intro h
    obtain ⟨k, hk, hs⟩ := Option.bind_eq_some_iff.1 h
    have hid : step.id = k := by simpa using List.find?_some hs
    rw [hid]
    exact ⟨hk, hs⟩
  · rintro ⟨hk, hs⟩
    rw [hk]
    exact hs

theorem breach_lived (h : Lived E i .active w) {inst : WorkflowInstance}
    (hi : w.instances.get? i = some inst) (hc : inst.currentStep ≠ none) (violation : String) :
    Left E i (breach E w i violation).2 := by
  unfold breach
  simp only
  have hemit : Lived E i .active (w.emit (.sandboxViolation i violation)) :=
    h.record trivial (fun _ _ => rfl)
  have hcause : ∃ a ∈ (w.emit (.sandboxViolation i violation)).trace, a.isFailure i :=
    ⟨_, List.mem_append_right _ (List.mem_singleton_self _), by simp [Action.isFailure]⟩
  have hcomp : Left E i (compensateOnBreach E (w.emit (.sandboxViolation i violation)) i) := by
    unfold compensateOnBreach
    cases ((w.emit (.sandboxViolation i violation)).instances.get? i).bind (·.currentStep) with
    | none => exact .of_lived hemit (.inr (.inl rfl)) hi
    | some step =>
      simp only
      split
      · obtain ⟨hl, hsome⟩ := compensate_lived hemit hi (.inl ⟨rfl, hc⟩) hcause step.id
        exact ⟨⟨_, .inl rfl, hl⟩, hsome⟩
      · exact .of_lived hemit (.inr (.inl rfl)) hi
  exact hcomp.record trivial (fun _ _ => rfl)

/-- What a body may lead to: the pass stays active, unless a sandbox was broken. -/
inductive Ran (E : Env) (i : String) (w : World) : Except Exc Artifact × World → Prop where
  | stays {R} : Stays E i .active w R.2 → Ran E i w R
  | broken {e w'} : e.kind = .sandboxError → Left E i w' → Ran E i w (.error e, w')

theorem runSandboxed_lived (h : Lived E i .active w) {p : BodyPlan} (hp : p.inst = i)
    {inst : WorkflowInstance} (hi : w.instances.get? i = some inst)
    (hc : (inst.life .active).mayCall p.call) (hcur : inst.currentStep ≠ none) :
    Ran E i w (runSandboxed E w p) := by
  unfold runSandboxed
  simp only
  have hrun := runStep_lived h hp hi hc (E.monitor w.bodies).timedOut
  have hbreach : ∀ {w₁}, Stays E i .active w w₁ → ∀ v, Ran E i w (breach E w₁ p.inst v) := by
    intro w₁ hw v
    rw [hp]
    exact .broken rfl (breach_lived hw.lived (by rw [hw.instances]; exact hi) hcur v)
  split
  · rename_i artifact w₁ hw
    rw [hw] at hrun
    split
    · exact .stays hrun
    · exact hbreach hrun _
  · rename_i e w₁ hw
    rw [hw] at hrun
    split
    · exact hbreach hrun _
    · exact hbreach hrun _
    · exact .stays hrun
    · exact hbreach hrun _

/-- **A body** under a guard, in a sandbox, or as it is. -/
theorem runBody_lived (h : Lived E i .active w) {p : BodyPlan} (hp : p.inst = i)
    {inst : WorkflowInstance} (hi : w.instances.get? i = some inst)
    (hc : (inst.life .active).mayCall p.call) (hcur : inst.currentStep ≠ none)
    (guarded : Option String) (policy : SandboxPolicy) :
    Ran E i w (runBody E w p guarded policy) := by
  unfold runBody
  split
  · rename_i g packageId _
    exact .stays (runGuarded_lived (p := { p with guarded := some packageId }) h hp hi hc g packageId)
  · split
    · exact runSandboxed_lived h hp hi hc hcur
    · exact .stays (runStep_lived h hp hi hc false)

/-! ## A pass -/

/-- The world that a pass leaves: a call may end there, or an exception is handled with the
cursor still on a step. -/
inductive Passed (E : Env) (i : String) : Pass × World → Prop where
  | done {r w} : Left E i w → Passed E i (.done r, w)
  | raised {inst step params secret n e w} {cur : WorkflowInstance} : Lived E i .active w →
      w.instances.get? i = some cur → cur.currentStep ≠ none →
      Passed E i (.raised inst step params secret n e, w)

theorem completeStep_lived (h : Lived E i .active w) {cur : WorkflowInstance}
    (hi : w.instances.get? i = some cur) (hcur : cur.currentStep ≠ none) (step : WorkflowStep)
    (artifact : Artifact) : Left E i (completeStep w i step artifact) := by
  unfold completeStep
  simp only
  set f : WorkflowInstance → WorkflowInstance := fun inst =>
    { inst with
      stepResults := inst.stepResults.insert step.id (.str artifact.id)
      eventLog := inst.eventLog ++ [artifact.id] } with hf
  have hupd : Lived E i .active ((w.update i f).emit (.stepCompleted i step.id artifact.id)) := by
    refine Lived.record ?_ trivial (fun _ _ => rfl)
    exact h.update i fun _ _ => rfl
  have hget : ((w.update i f).emit (.stepCompleted i step.id artifact.id)).instances.get? i =
      some (f cur) := update_get? f hi
  rw [hget]
  simp only
  have hadv := hupd.advance hget hcur (f cur).next
  have hget' : ((((w.update i f).emit (.stepCompleted i step.id artifact.id)).update i fun inst =>
      { inst with currentStepId := (f cur).next }).record (.advance i (f cur).next)).instances.get? i
      = some { f cur with currentStepId := (f cur).next } := update_get? _ hget
  split
  · rename_i hnone
    exact .of_completed hadv hget' ⟨by rw [hnone]; rfl, .inr rfl⟩
  · exact .of_lived hadv (.inr (.inr rfl)) hget'

theorem denyStep_lived (h : Lived E i .active w) {cur : WorkflowInstance}
    (hi : w.instances.get? i = some cur) (hcur : cur.currentStep ≠ none) (step : WorkflowStep)
    (packageId : Option String) : Left E i (denyStep E w i step packageId).2 := by
  unfold denyStep
  simp only
  refine Left.reply ?_ _ _ _
  set f : WorkflowInstance → WorkflowInstance := fun inst =>
    { inst with
      permissionDenied := inst.permissionDenied ++ [⟨step.id, step.capability, packageId⟩] }
  have hget : (w.update i f).instances.get? i = some (f cur) := update_get? f hi
  have hfailed : Left E i ((w.update i f).setStatus i .failed) :=
    .of_status (h.update i (f := f) fun _ _ => rfl) hget (s := .failed) (.inl ⟨rfl, hcur⟩) rfl
  exact hfailed.record trivial (fun _ _ => rfl)

theorem tryBody_lived (h : Lived E i .active w) {cur : WorkflowInstance}
    (hi : w.instances.get? i = some cur) {step : WorkflowStep} (hs : cur.currentStep = some step)
    (hgate : step.requiresApproval → 2 ≤ cur.attempts step.id) (inst : WorkflowInstance)
    (params : List (String × Value)) (secret : Bool) (n : ℕ) (agent : Option String)
    (policy : Option SandboxPolicy) :
    Passed E i (tryBody E w i inst step params secret n agent policy) := by
  have hcur : cur.currentStep ≠ none := by rw [hs]; simp
  unfold tryBody
  simp only
  have hrun := runBody_lived (p := ⟨i, inst.workflow.id,
    ⟨.forward, some i, step, params, agent⟩, none, none⟩) h rfl hi ⟨rfl, hs, hgate⟩ hcur
    (guardedPackage w step) (policy.getD (resolvePolicy step inst.workflow))
  generalize runBody E w _ (guardedPackage w step) _ = R at hrun ⊢
  cases hrun with
  | broken he hl =>
    simp only [he]
    exact .done hl
  | stays hw =>
    obtain ⟨r, w₁⟩ := R
    obtain ⟨hl, hinst⟩ := hw
    simp only at hl hinst
    have hi₁ : w₁.instances.get? i = some cur := by rw [hinst]; exact hi
    cases r with
    | ok artifact => exact .done (completeStep_lived hl hi₁ hcur step artifact)
    | error e =>
      simp only
      split
      · exact .done (denyStep_lived hl hi₁ hcur step _)
      · exact .done (denyStep_lived hl hi₁ hcur step _)
      · exact .done (.of_lived hl (.inr (.inl rfl)) hi₁)
      · exact .raised hl hi₁ hcur

/-! ## Up to the body -/

theorem resolveAll_tick (L : Lookup) (ts : List Token) :
    ∀ out s, s.tick ≤ (resolveAll L ts out s).2.tick := by
  induction ts with
  | nil => intro out s; exact le_rfl
  | cons t ts ih =>
    intro out s
    have hone : (resolveToken L t s).2.tick = s.tick + 1 := by
      unfold resolveToken
      dsimp only
      split <;> rfl
    unfold resolveAll
    generalize resolveToken L t s = R at hone ⊢
    obtain ⟨r, s₁⟩ := R
    cases r with
    | error e => exact hone.symm ▸ Nat.le_succ _
    | ok v =>
      have := ih (replaceFrom t.text v 0 out) s₁
      simp only at hone ⊢
      omega

theorem interpolateText_tick (L : Lookup) (text : List Char) (s : Reading) :
    s.tick ≤ (interpolateText L text s).2.tick := by
  unfold interpolateText
  split
  · exact le_rfl
  · split
    · unfold resolveToken
      dsimp only
      split <;> exact Nat.le_succ _
    · exact resolveAll_tick _ _ _ _
  · exact resolveAll_tick _ _ _ _

mutual

theorem interpolateValue_tick (L : Lookup) (v : Value) (s : Reading) :
    s.tick ≤ (interpolateValue L v s).2.tick := by
  cases v with
  | dict kvs =>
    have := interpolateDict_tick L kvs s
    unfold interpolateValue
    split <;> simp_all
  | list xs =>
    have := interpolateList_tick L xs s
    unfold interpolateValue
    split <;> simp_all
  | str t =>
    have := interpolateText_tick L t.toList s
    unfold interpolateValue
    split <;> simp_all
  | none => exact le_rfl
  | bool b => exact le_rfl
  | int n => exact le_rfl

theorem interpolateDict_tick (L : Lookup) (kvs : List (String × Value)) (s : Reading) :
    s.tick ≤ (interpolateDict L kvs s).2.tick := by
  cases kvs with
  | nil => exact le_rfl
  | cons kv kvs =>
    obtain ⟨k, v⟩ := kv
    have hv := interpolateValue_tick L v s
    unfold interpolateDict
    generalize interpolateValue L v s = R at hv ⊢
    obtain ⟨r, s₁⟩ := R
    cases r with
    | error e => exact hv
    | ok v =>
      have hd := interpolateDict_tick L kvs s₁
      simp only at hv ⊢
      split <;> simp_all <;> omega

theorem interpolateList_tick (L : Lookup) (vs : List Value) (s : Reading) :
    s.tick ≤ (interpolateList L vs s).2.tick := by
  cases vs with
  | nil => exact le_rfl
  | cons v vs =>
    have hv := interpolateValue_tick L v s
    unfold interpolateList
    generalize interpolateValue L v s = R at hv ⊢
    obtain ⟨r, s₁⟩ := R
    cases r with
    | error e => exact hv
    | ok v =>
      have hd := interpolateList_tick L vs s₁
      simp only at hv ⊢
      split <;> simp_all <;> omega

end

theorem interpolateParams_lived (h : Lived E i m w) (params : List (String × Value)) :
    Stays E i m w (interpolateParams E w i params).2.2 := by
  unfold interpolateParams
  cases w.parts.vault with
  | none => exact ⟨h, rfl⟩
  | some v => exact ⟨h.frame rfl rfl (interpolateDict_tick _ _ ⟨v, w.tick, false⟩), rfl⟩

/-- **Past the gate**: the inputs, the missing MCP gateway, the body. -/
theorem startStep_lived (h : Lived E i .active w) {cur : WorkflowInstance}
    (hi : w.instances.get? i = some cur) {step : WorkflowStep} (hs : cur.currentStep = some step)
    (hgate : step.requiresApproval → 2 ≤ cur.attempts step.id) (inst : WorkflowInstance)
    (n : ℕ) (agent : Option String) (policy : Option SandboxPolicy) :
    Passed E i (startStep E w i inst step n agent policy) := by
  have hcur : cur.currentStep ≠ none := by rw [hs]; simp
  unfold startStep
  simp only
  have hemit : Lived E i .active (w.emit (.stepStarted i step.id step.capability)) :=
    h.record trivial (fun _ _ => rfl)
  have hint := interpolateParams_lived hemit (resolveInputs step inst)
  generalize interpolateParams E _ i (resolveInputs step inst) = R at hint ⊢
  obtain ⟨r, secret, w₁⟩ := R
  obtain ⟨hl, hinst⟩ := hint
  have hi₁ : w₁.instances.get? i = some cur := by
    rw [show w₁.instances = w.instances from hinst]
    exact hi
  cases r with
  | error e => exact .done (.of_lived hl (.inr (.inl rfl)) hi₁)
  | ok params =>
    simp only
    split
    · refine .done (Left.reply ?_ _ _ _)
      have hfailed : Left E i (w₁.setStatus i .failed) :=
        .of_status (s := .failed) hl hi₁ (.inl ⟨rfl, hcur⟩) rfl
      exact hfailed.record trivial (fun _ _ => rfl)
    · exact tryBody_lived hl hi₁ hs hgate inst params secret n agent policy

/-- **A pass** over the current step. -/
theorem passStep_lived (h : Lived E i .active w) {inst : WorkflowInstance}
    (hi : w.instances.get? i = some inst) (agent : Option String) (policy : Option SandboxPolicy) :
    Passed E i (passStep E w i inst agent policy) := by
  unfold passStep
  cases hs : inst.currentStep with
  | none =>
    simp only
    refine .done (Left.reply ?_ _ _ _)
    exact .of_completed h hi ⟨hs, .inl rfl⟩
  | some step =>
    obtain ⟨hid, hby⟩ := bind_stepById_eq_some.1 hs
    have hgated : inst.workflow.gated step.id = step.requiresApproval := by
      unfold Workflow.gated
      rw [hby]
    simp only
    set n := inst.attempts step.id + 1 with hn
    set f : WorkflowInstance → WorkflowInstance := fun inst =>
      { inst with stepAttempts := inst.stepAttempts.insert step.id n }
    set w₁ := (w.update i f).record (.attempt i step.id n) with hw₁
    have hi₁ : w₁.instances.get? i = some (f inst) := update_get? f hi
    have hatt := h.attempt hi hid (by rw [hs]; simp)
    rw [hgated] at hatt
    by_cases hgate : step.requiresApproval ∧ n = 1
    · -- the pause, its announcement and the answer
      rw [if_pos hgate] at hatt ⊢
      refine .done (Left.reply ?_ _ _ _)
      have hpaused := hatt.status (s := .paused) hi₁ rfl (by simp)
      have hi₂ := setStatus_get? hi₁ .paused
      exact .of_lived (hpaused.announce hi₂ hid _) (.inl rfl) hi₂
    · -- a gated step that gets here has been attempted before
      rw [if_neg hgate] at hatt ⊢
      refine startStep_lived hatt hi₁ hs (fun hr => ?_) inst n agent policy
      have hval : (f inst).attempts step.id = n := by
        unfold WorkflowInstance.attempts
        rw [Dict.get?_insert_self]
        rfl
      have hne : n ≠ 1 := fun h => hgate ⟨hr, h⟩
      omega

/-- **The end of a pass** when the retries are used up. -/
theorem exhaustStep_lived (h : Lived E i .active w) {cur : WorkflowInstance}
    (hi : w.instances.get? i = some cur) (hcur : cur.currentStep ≠ none) (inst : WorkflowInstance)
    (step : WorkflowStep) (params : List (String × Value)) (secret : Bool) (n : ℕ) (e : Exc) :
    Left E i (exhaustStep E w i inst step params secret n e).2 := by
  have hparked := parked_rule (i := i)
    (I := fun w₁ => Lived E i .active w₁ ∧ w₁.instances = w.instances) secret ⟨h, rfl⟩
    (fun _ _ h₁ => ⟨h₁.1.record trivial (fun _ _ => rfl), h₁.2⟩)
    (fun _ _ h₁ => ⟨h₁.1.record trivial (fun _ _ => rfl), h₁.2⟩) inst step params n e
  rw [exhaustStep_eq]
  simp only
  refine Left.reply ?_ _ _ _
  generalize w.parked i inst step params secret n e = w₂ at hparked ⊢
  obtain ⟨h₂, hsame⟩ := hparked
  have hstall : Lived E i .active (w₂.emit (.stalled i step.id e.text)) :=
    h₂.record trivial (fun _ _ => rfl)
  have hi₂ : (w₂.emit (.stalled i step.id e.text)).instances.get? i = some cur := by
    rw [show (w₂.emit (.stalled i step.id e.text)).instances = w.instances from hsame]
    exact hi
  have hcause : ∃ a ∈ (w₂.emit (.stalled i step.id e.text)).trace, a.isFailure i :=
    ⟨_, List.mem_append_right _ (List.mem_singleton_self _), by simp [Action.isFailure]⟩
  split
  · obtain ⟨hl, hsome⟩ := compensate_lived hstall hi₂ (.inl ⟨rfl, hcur⟩) hcause step.id
    exact ⟨⟨_, .inl rfl, hl⟩, hsome⟩
  · exact .of_status (s := .failed) hstall hi₂ (.inl ⟨rfl, hcur⟩) rfl

end Hermes

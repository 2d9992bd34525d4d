import Hermes.Proof.EngineSteps

/-!
# What the engine leaves in its trace

Of the actions of a call three kinds are followed here: the bodies run, a step that
has used up its retries, and the compensations run in a rollback.

* `Goes i w w' ms`: the engine goes from `w` to `w'`, leaves the marks `ms`, and the
  instance `i` keeps its place.
* `runBody_goes`, `compensate_rolled`, `tryBody_goes`: the marks of a body, a
  rollback and a pass.
-/

namespace Hermes

open World

inductive Mark where
  | ran (run : BodyRun)
  | stalled (inst stepId : String)
  | compensating (inst compStepId : String)

def Action.mark : Action → Option Mark
  | .body b => some (.ran b)
  | .event (.stalled i k _) => some (.stalled i k)
  | .event (.compensating i _ c) => some (.compensating i c)
  | _ => none

def marks (t : List Action) : List Mark := t.filterMap Action.mark

@[simp] theorem marks_append (t u : List Action) : marks (t ++ u) = marks t ++ marks u :=
  List.filterMap_append

/-- Where an instance stands in its workflow. -/
structure Place where
  workflow : Workflow
  cursor : Option String
  attempts : Dict String ℕ

def WorkflowInstance.place (inst : WorkflowInstance) : Place :=
  ⟨inst.workflow, inst.currentStepId, inst.stepAttempts⟩

def World.placeOf (w : World) (i : String) : Option Place :=
  (w.instances.get? i).map (·.place)

/-- The engine goes on from `w` to `w'` and leaves the marks `ms`. -/
structure Trail (w w' : World) (ms : List Mark) : Prop where
  trace : ∃ u, w'.trace = w.trace ++ u ∧ marks u = ms
  bare : w.parts.resilience = none → w'.parts.resilience = none

/-- **The engine goes on**, and `i` keeps its place. -/
structure Goes (i : String) (w w' : World) (ms : List Mark) : Prop extends Trail w w' ms where
  place : w'.placeOf i = w.placeOf i

theorem Trail.trans {w w' w'' : World} {ms ms' : List Mark} (h : Trail w w' ms)
    (h' : Trail w' w'' ms') : Trail w w'' (ms ++ ms') := by
  obtain ⟨⟨u, hu, hm⟩, hb⟩ := h
  obtain ⟨⟨u', hu', hm'⟩, hb'⟩ := h'
  refine ⟨⟨u ++ u', ?_, ?_⟩, hb' ∘ hb⟩
  · rw [hu', hu, List.append_assoc]
  · rw [marks_append, hm, hm']

theorem Trail.of_record {w w' : World} {a : Action} (ht : w'.trace = w.trace ++ [a])
    (hb : w.parts.resilience = none → w'.parts.resilience = none) :
    Trail w w' a.mark.toList := by
  refine ⟨⟨[a], ht, ?_⟩, hb⟩
  unfold marks
  cases ha : a.mark <;> simp [ha]

/-- The marks that a trail adds to the trace. -/
theorem Trail.marks_drop {w w' : World} {ms : List Mark} (h : Trail w w' ms) :
    marks (w'.trace.drop w.trace.length) = ms := by
  obtain ⟨⟨u, hu, hm⟩, -⟩ := h
  rw [hu, List.drop_left, hm]

namespace Goes

variable {i : String} {w w' w'' : World} {ms ms' : List Mark}

theorem of_frame (ht : w'.trace = w.trace) (hp : w'.placeOf i = w.placeOf i)
    (hb : w.parts.resilience = none → w'.parts.resilience = none) : Goes i w w' [] :=
  ⟨⟨⟨[], by rw [ht, List.append_nil], rfl⟩, hb⟩, hp⟩

theorem refl (i : String) (w : World) : Goes i w w [] := of_frame rfl rfl id

theorem trans (h : Goes i w w' ms) (h' : Goes i w' w'' ms') : Goes i w w'' (ms ++ ms') :=
  ⟨h.toTrail.trans h'.toTrail, h'.place.trans h.place⟩

/-- Anything but the trace, the place and the missing resilience engine may change. -/
theorem frame (h : Goes i w w' ms) (ht : w''.trace = w'.trace) (hp : w''.placeOf i = w'.placeOf i)
    (hb : w'.parts.resilience = none → w''.parts.resilience = none) : Goes i w w'' ms := by
  simpa using h.trans (of_frame ht hp hb)

theorem record (h : Goes i w w' ms) (a : Action) :
    Goes i w (w'.record a) (ms ++ a.mark.toList) :=
  h.trans ⟨.of_record rfl id, rfl⟩

/-- An action of another kind. -/
theorem quiet (h : Goes i w w' ms) {a : Action} (ha : a.mark = none) :
    Goes i w (w'.record a) ms := by
  simpa [ha] using h.record a

theorem update (h : Goes i w w' ms) (j : String) {f : WorkflowInstance → WorkflowInstance}
    (hf : ∀ inst, (f inst).place = inst.place) : Goes i w (w'.update j f) ms := by
  refine h.frame (update_trace _ _ _) ?_ (by simp)
  unfold placeOf
  rw [update_instances]
  split
  · rw [Option.map_map]
    congr 1
    funext inst
    exact hf inst
  · rfl

theorem setStatus (h : Goes i w w' ms) (j : String) (s : WorkflowStatus) :
    Goes i w (w'.setStatus j s) ms := by
  unfold World.setStatus
  refine Goes.quiet ?_ rfl
  exact h.update j fun _ => rfl

theorem reply {E : Env} (h : Goes i w w' ms) (type : String) (content : List (String × Value))
    (source : Option String) : Goes i w (w'.reply E type content source).2 ms :=
  h.frame rfl rfl id

end Goes

/-! ## Bodies -/

variable {E : Env} {i : String} {w : World}

/-- A body was run, or was not reached: the call was refused. -/
inductive Reached (p : BodyPlan) : Except Exc Artifact → List Mark → Prop where
  | refused {e : Exc} : Reached p (.error e) []
  | ran {b : BodyRun} : b.inst = p.inst → b.call = p.call → Reached p b.result [.ran b]

/-- The circuit of a capability admits a call that enters it at `tick`. -/
def Admitted (E : Env) (w : World) (scope capability : String) (tick : ℕ) : Prop :=
  ∀ r, w.parts.resilience = some r →
    (r.enter ("wf:" ++ scope ++ ":" ++ capability) (E.clock tick)).1 = .ok ()

theorem runStepInner_goes (w : World) (p : BodyPlan) (t : Bool) :
    ∃ b : BodyRun, b.inst = p.inst ∧ b.call = p.call ∧ b.result = (runStepInner E w p t).1 ∧
      Goes i w (runStepInner E w p t).2 [.ran b] := by
  unfold runStepInner
  simp only
  have hgo : Goes i w { w with bodies := w.bodies + 1 } [] := .of_frame rfl rfl id
  refine ⟨_, ?_, ?_, ?_, hgo.record (.body _)⟩
  · rfl
  · rfl
  · rfl

theorem runStep_goes (w : World) (p : BodyPlan) (t : Bool) : ∃ ms,
    Reached p (runStep E w p t).1 ms ∧ Goes i w (runStep E w p t).2 ms ∧
      (Admitted E w p.circuitScope p.call.step.capability w.tick → ms ≠ []) := by
  unfold runStep
  cases hr : w.parts.resilience with
  | none =>
    obtain ⟨b, hi, hc, hres, hgo⟩ := runStepInner_goes (E := E) (i := i) w p t
    have hreached : Reached p b.result [.ran b] := .ran hi hc
    rw [hres] at hreached
    exact ⟨_, hreached, hgo, fun _ => by simp⟩
  | some r =>
    simp only
    have hset : ∀ r' : Resilience, Goes i w (w.setResilience r') [] := by
      intro r'
      refine Goes.of_frame rfl rfl fun hnone => ?_
      rw [hr] at hnone
      cases hnone
    split
    · rename_i e r' henter
      refine ⟨[], .refused, hset r', fun had => ?_⟩
      have := had r hr
      rw [henter] at this
      cases this
    · rename_i r' henter
      obtain ⟨b, hi, hc, hres, hgo⟩ := runStepInner_goes (E := E) (i := i) (w.setResilience r') p t
      have hreached : Reached p b.result [.ran b] := .ran hi hc
      rw [hres] at hreached
      refine ⟨_, hreached, ?_, fun _ => by simp⟩
      refine ((hset r').trans hgo).frame rfl rfl fun hnone => ?_
      have hsome : (runStepInner E (w.setResilience r') p t).2.parts.resilience = some r' := rfl
      rw [hsome] at hnone
      cases hnone

theorem runGuarded_goes (w : World) (g : Guard) (packageId : String) (p : BodyPlan) : ∃ ms,
    Reached p (runGuarded E w g packageId p).1 ms ∧ Goes i w (runGuarded E w g packageId p).2 ms ∧
      (g.pre packageId "execute" ("capability:" ++ p.call.step.capability) = .ok () →
        Admitted E w p.circuitScope p.call.step.capability (w.tick + 1) → ms ≠ []) := by
  unfold runGuarded
  simp only
  split
  · rename_i outcome e hpre
    refine ⟨[], .refused, (Goes.refl i w).quiet rfl, fun hok => ?_⟩
    rw [hpre] at hok
    cases hok
  · obtain ⟨ms, hreached, hgo, hne⟩ :=
      runStep_goes (E := E) (i := i) { w with tick := w.tick + 1 } p false
    refine ⟨ms, hreached, ?_, fun _ had => hne had⟩
    refine Goes.quiet ?_ rfl
    have hstart : Goes i w { w with tick := w.tick + 1 } [] := .of_frame rfl rfl id
    exact (hstart.trans hgo).frame rfl rfl id

/-! ## Rollbacks -/

/-- The compensation that a step declares, when it names a step of the workflow. -/
def Workflow.undoes (wf : Workflow) (step : WorkflowStep) : Option String :=
  (truthy step.compensation).filter fun c => (stepById wf.steps c).isSome

/-- The marks of the compensations `cs` of instance `i`. Circuits may refuse their bodies. -/
inductive Rolled (i : String) : List String → List Mark → Prop where
  | nil : Rolled i [] []
  | refused {c : String} {cs : List String} {ms : List Mark} : Rolled i cs ms →
    Rolled i (c :: cs) (.compensating i c :: ms)
  | ran {c : String} {cs : List String} {ms : List Mark} {b : BodyRun} :
    b.inst = i → b.call.kind = .compensation → b.call.step.id = c → Rolled i cs ms →
    Rolled i (c :: cs) (.compensating i c :: .ran b :: ms)

theorem Rolled.append {cs ds : List String} {ms ns : List Mark} (h : Rolled i cs ms)
    (h' : Rolled i ds ns) : Rolled i (cs ++ ds) (ms ++ ns) := by
  induction h with
  | nil => exact h'
  | refused _ ih => exact .refused ih
  | ran hi hk hs _ ih => exact .ran hi hk hs ih

/-- The compensations of `i` that were begun. -/
def begun (i : String) (ms : List Mark) : List String :=
  ms.filterMap fun
    | .compensating j c => if j = i then some c else none
    | _ => none

/-- The compensations of `i` whose bodies were run. -/
def undone (i : String) (ms : List Mark) : List String :=
  ms.filterMap fun
    | .ran b => if b.inst = i ∧ b.call.kind = .compensation then some b.call.step.id else none
    | _ => none

/-- The forward bodies of `i`. -/
def forwards (i : String) (ms : List Mark) : List BodyRun :=
  ms.filterMap fun
    | .ran b => if b.inst = i ∧ b.call.kind = .forward then some b else none
    | _ => none

/-- The steps of `i` that have used up their retries. -/
def stalls (i : String) (ms : List Mark) : List String :=
  ms.filterMap fun
    | .stalled j k => if j = i then some k else none
    | _ => none

@[simp] theorem forwards_append (i : String) (ms ns : List Mark) :
    forwards i (ms ++ ns) = forwards i ms ++ forwards i ns := List.filterMap_append

@[simp] theorem stalls_append (i : String) (ms ns : List Mark) :
    stalls i (ms ++ ns) = stalls i ms ++ stalls i ns := List.filterMap_append

@[simp] theorem begun_append (i : String) (ms ns : List Mark) :
    begun i (ms ++ ns) = begun i ms ++ begun i ns := List.filterMap_append

@[simp] theorem undone_append (i : String) (ms ns : List Mark) :
    undone i (ms ++ ns) = undone i ms ++ undone i ns := List.filterMap_append

theorem Rolled.begun_eq {cs : List String} {ms : List Mark} (h : Rolled i cs ms) :
    begun i ms = cs := by
  induction h with
  | nil => rfl
  | refused _ ih => simpa [begun] using ih
  | ran hi hk hs _ ih => simpa [begun] using ih

theorem Rolled.forwards_eq {cs : List String} {ms : List Mark} (h : Rolled i cs ms) :
    forwards i ms = [] := by
  induction h with
  | nil => rfl
  | refused _ ih => simpa [forwards] using ih
  | ran hi hk hs _ ih => simpa [forwards, hk] using ih

theorem Rolled.stalls_eq {cs : List String} {ms : List Mark} (h : Rolled i cs ms) :
    stalls i ms = [] := by
  induction h with
  | nil => rfl
  | refused _ ih => simpa [stalls] using ih
  | ran hi hk hs _ ih => simpa [stalls] using ih

/-- A rollback went from `w` to `w'` through the compensations `cs`. -/
structure RolledBack (i : String) (w w' : World) (cs : List String) : Prop where
  marks : ∃ ms, Goes i w w' ms ∧ Rolled i cs ms ∧ (w.parts.resilience = none → undone i ms = cs)

theorem RolledBack.refl (i : String) (w : World) : RolledBack i w w [] :=
  ⟨[], .refl i w, .nil, fun _ => rfl⟩

theorem RolledBack.trans {w' w'' : World} {cs ds : List String} (h : RolledBack i w w' cs)
    (h' : RolledBack i w' w'' ds) : RolledBack i w w'' (cs ++ ds) := by
  obtain ⟨ms, hgo, hrolled, hundone⟩ := h
  obtain ⟨ns, hgo', hrolled', hundone'⟩ := h'
  refine ⟨ms ++ ns, hgo.trans hgo', hrolled.append hrolled', fun hnone => ?_⟩
  rw [undone_append, hundone hnone, hundone' (hgo.bare hnone)]

theorem runCompensation_rolled {inst : WorkflowInstance} (hi : w.instances.get? i = some inst)
    (failedStep c : String) :
    RolledBack i w (runCompensation E i failedStep c w)
      (if (stepById inst.workflow.steps c).isSome then [c] else []) := by
  unfold runCompensation
  rw [hi]
  simp only
  cases hs : stepById inst.workflow.steps c with
  | none => exact .refl i w
  | some comp =>
    have hid : comp.id = c := by simpa using List.find?_some hs
    simp only [Option.isSome_some, if_true]
    set p : BodyPlan :=
      ⟨i, "unknown", ⟨.compensation, none, comp, resolveInputs comp inst, none⟩, none, none⟩
    have hemit : Goes i w (w.emit (.compensating i failedStep c)) [.compensating i c] :=
      (Goes.refl i w).record _
    obtain ⟨ms, hreached, hgo, hadm⟩ :=
      runStep_goes (E := E) (i := i) (w.emit (.compensating i failedStep c)) p false
    have hmarks : Rolled i [c] (.compensating i c :: ms) ∧
        (w.parts.resilience = none → undone i (.compensating i c :: ms) = [c]) := by
      generalize (runStep E (w.emit (.compensating i failedStep c)) p false).1 = r at hreached
      cases hreached with
      | refused =>
        refine ⟨.refused .nil, fun hnone => ?_⟩
        -- without a resilience engine no circuit refuses
        exact absurd rfl (hadm fun r hr => by
          rw [show (w.emit (.compensating i failedStep c)).parts = w.parts from rfl, hnone] at hr
          cases hr)
      | @ran b hbi hbc =>
        have hkind : b.call.kind = .compensation := by rw [hbc]
        have hstep : b.call.step.id = c := by rw [hbc]; exact hid
        refine ⟨.ran hbi hkind hstep .nil, fun _ => ?_⟩
        have hbi' : b.inst = i := hbi
        simp [undone, hbi', hkind, hstep]
    have hall := hemit.trans hgo
    split
    · rename_i w₁ hw
      rw [hw] at hall
      exact ⟨_, hall.update i fun _ => rfl, hmarks⟩
    · rename_i w₁ hw
      rw [hw] at hall
      exact ⟨_, hall, hmarks⟩

/-- The workflow of the instance `i`. -/
def World.WorkflowOf (w : World) (i : String) (wf : Workflow) : Prop :=
  ∃ inst, w.instances.get? i = some inst ∧ inst.workflow = wf

theorem Goes.inst {w' : World} {ms : List Mark} (h : Goes i w w' ms) {inst : WorkflowInstance}
    (hi : w.instances.get? i = some inst) :
    ∃ inst', w'.instances.get? i = some inst' ∧ inst'.place = inst.place := by
  have hp := h.place
  unfold placeOf at hp
  rw [hi] at hp
  exact Option.map_eq_some_iff.1 hp

/-- The same cursor in the same workflow is on the same step. -/
theorem currentStep_congr {inst inst' : WorkflowInstance} (hw : inst'.workflow = inst.workflow)
    (hc : inst'.currentStepId = inst.currentStepId) : inst'.currentStep = inst.currentStep := by
  unfold WorkflowInstance.currentStep
  rw [hc, hw]

theorem Goes.workflowOf {w' : World} {ms : List Mark} (h : Goes i w w' ms) {wf : Workflow}
    (hw : w.WorkflowOf i wf) : w'.WorkflowOf i wf := by
  obtain ⟨inst, hi, rfl⟩ := hw
  obtain ⟨inst', hi', he⟩ := h.inst hi
  exact ⟨inst', hi', congrArg Place.workflow he⟩

theorem RolledBack.workflowOf {w' : World} {cs : List String} (h : RolledBack i w w' cs)
    {wf : Workflow} (hw : w.WorkflowOf i wf) : w'.WorkflowOf i wf := by
  obtain ⟨ms, hgo, -⟩ := h
  exact hgo.workflowOf hw

theorem compensateFor_rolled {wf : Workflow} (hw : w.WorkflowOf i wf) (failedStep : String)
    (step : WorkflowStep) :
    RolledBack i w (compensateFor E i failedStep w step) (wf.undoes step).toList := by
  obtain ⟨inst, hi, rfl⟩ := hw
  unfold compensateFor Workflow.undoes
  cases truthy step.compensation with
  | none => exact .refl i w
  | some c =>
    have := runCompensation_rolled (E := E) hi failedStep c
    simp only [Option.filter]
    split at this <;> simp_all

theorem foldl_compensateFor_rolled {wf : Workflow} (failedStep : String) :
    ∀ (steps : List WorkflowStep) {w : World}, w.WorkflowOf i wf →
      RolledBack i w (steps.foldl (compensateFor E i failedStep) w) (steps.filterMap wf.undoes) := by
  intro steps
  induction steps with
  | nil => intro w _; exact .refl i w
  | cons s steps ih =>
    intro w hw
    have hone := compensateFor_rolled (E := E) hw failedStep s
    have hall := hone.trans (ih (hone.workflowOf hw))
    rw [List.filterMap_cons]
    cases hu : wf.undoes s with
    | none => simpa [hu] using hall
    | some c => simpa [hu] using hall

/-- **A rollback** runs the compensations of the steps before the failed one, last first, and
then its own; afterwards the instance is `FAILED`. -/
theorem compensate_rolled {inst : WorkflowInstance} (hi : w.instances.get? i = some inst)
    {f : ℕ} {step : WorkflowStep} (hidx : stepIndex inst.workflow.steps step.id = some f)
    (hby : stepById inst.workflow.steps step.id = some step) :
    RolledBack i w (compensate E w i step.id)
        ((inst.workflow.steps.take f).reverse.filterMap inst.workflow.undoes ++
          (inst.workflow.undoes step).toList) ∧
      ∃ inst', (compensate E w i step.id).instances.get? i = some inst' ∧
        inst'.status = .failed := by
  have hsteps : rollbackSteps inst.workflow.steps step.id =
      (inst.workflow.steps.take f).reverse ++ [step] := by
    unfold rollbackSteps
    rw [hidx, hby]
    rfl
  have hown : [step].filterMap inst.workflow.undoes = (inst.workflow.undoes step).toList := by
    rw [List.filterMap_cons]
    cases inst.workflow.undoes step with
    | none => rfl
    | some c => rfl
  rw [compensate_eq hi, hsteps]
  have hstart : RolledBack i w (w.setStatus i .compensating) [] :=
    ⟨[], (Goes.refl i w).setStatus i _, .nil, fun _ => rfl⟩
  have hw : w.WorkflowOf i inst.workflow := ⟨inst, hi, rfl⟩
  have hall := hstart.trans (foldl_compensateFor_rolled (E := E) step.id
    ((inst.workflow.steps.take f).reverse ++ [step]) (hstart.workflowOf hw))
  rw [List.nil_append, List.filterMap_append, hown] at hall
  obtain ⟨inst', hi', -⟩ := hall.workflowOf hw
  obtain ⟨ms, hgo, hrolled, hundone⟩ := hall
  exact ⟨⟨ms, hgo.setStatus i .failed, hrolled, hundone⟩, _, setStatus_get? hi' .failed, rfl⟩

/-! ## The sandbox -/

theorem RolledBack.quiet {w' : World} {cs : List String} (h : RolledBack i w w' cs) {a : Action}
    (ha : a.mark = none) : RolledBack i w (w'.record a) cs := by
  obtain ⟨ms, hgo, hrolled⟩ := h
  exact ⟨ms, hgo.quiet ha, hrolled⟩

theorem stepIndex_of_stepById {steps : List WorkflowStep} {k : String} {step : WorkflowStep}
    (h : stepById steps k = some step) : ∃ f, stepIndex steps k = some f := by
  apply Option.isSome_iff_exists.1
  unfold stepIndex
  rw [List.findIdx?_isSome, List.any_eq_true]
  refine ⟨step, List.mem_of_find?_eq_some h, ?_⟩
  simpa using List.find?_some h

theorem breach_rolled (violation : String) :
    ∃ cs, RolledBack i w (breach E w i violation).2 cs := by
  unfold breach
  simp only
  have hemit : RolledBack i w (w.emit (.sandboxViolation i violation)) [] :=
    (RolledBack.refl i w).quiet rfl
  have hcomp : ∃ cs, RolledBack i w
      (compensateOnBreach E (w.emit (.sandboxViolation i violation)) i) cs := by
    unfold compensateOnBreach
    cases hs : ((w.emit (.sandboxViolation i violation)).instances.get? i).bind (·.currentStep) with
    | none => exact ⟨[], hemit⟩
    | some step =>
      obtain ⟨inst, hi, hs⟩ := Option.bind_eq_some_iff.1 hs
      obtain ⟨-, hby⟩ := bind_stepById_eq_some.1 hs
      obtain ⟨f, hidx⟩ := stepIndex_of_stepById hby
      simp only
      split
      · exact ⟨_, hemit.trans (compensate_rolled (E := E) hi hidx hby).1⟩
      · exact ⟨[], hemit⟩
  obtain ⟨cs, hcs⟩ := hcomp
  exact ⟨cs, hcs.quiet rfl⟩

/-- What became of a body: it was run or refused, and a sandbox may have been broken. -/
inductive BodyRan (p : BodyPlan) : Except Exc Artifact → List Mark → Prop where
  | plain {r : Except Exc Artifact} {ms : List Mark} : Reached p r ms → BodyRan p r ms
  | broken {e : Exc} {r : Except Exc Artifact} {cs : List String} {ms ns : List Mark} :
    e.kind = .sandboxError → Reached p r ms → Rolled p.inst cs ns → BodyRan p (.error e) (ms ++ ns)

theorem runSandboxed_goes (p : BodyPlan) (w : World) : ∃ ms,
    BodyRan p (runSandboxed E w p).1 ms ∧ Goes p.inst w (runSandboxed E w p).2 ms ∧
      (Admitted E w p.circuitScope p.call.step.capability w.tick → ms ≠ []) := by
  unfold runSandboxed
  simp only
  obtain ⟨ms, hreached, hgo, hne⟩ :=
    runStep_goes (E := E) (i := p.inst) w p (E.monitor w.bodies).timedOut
  generalize runStep E w p (E.monitor w.bodies).timedOut = R at hreached hgo ⊢
  obtain ⟨r, w₁⟩ := R
  simp only at hreached hgo
  have hbreach : ∀ v, ∃ ms, BodyRan p (breach E w₁ p.inst v).1 ms ∧
      Goes p.inst w (breach E w₁ p.inst v).2 ms ∧ (Admitted E w p.circuitScope p.call.step.capability w.tick → ms ≠ []) := by
    intro v
    obtain ⟨cs, ns, hgo', hrolled, -⟩ := breach_rolled (E := E) (i := p.inst) (w := w₁) v
    refine ⟨ms ++ ns, .broken rfl hreached hrolled, hgo.trans hgo', fun had => ?_⟩
    have := hne had
    simp [this]
  cases r with
  | ok artifact =>
    simp only
    split
    · exact ⟨ms, .plain hreached, hgo, hne⟩
    · exact hbreach _
  | error e =>
    simp only
    split
    · exact hbreach _
    · exact hbreach _
    · exact ⟨ms, .plain hreached, hgo, hne⟩
    · exact hbreach _

/-- Nothing keeps a body from being run: neither its guard nor its circuit. -/
def Unhindered (E : Env) (w : World) (scope capability : String) (guarded : Option String) : Prop :=
  match w.parts.guard, guarded with
  | some g, some packageId =>
    g.pre packageId "execute" ("capability:" ++ capability) = .ok () ∧
      Admitted E w scope capability (w.tick + 1)
  | _, _ => Admitted E w scope capability w.tick

theorem BodyRan.of_plan {p q : BodyPlan} {r : Except Exc Artifact} {ms : List Mark}
    (h : BodyRan q r ms) (hi : q.inst = p.inst) (hc : q.call = p.call) : BodyRan p r ms := by
  have key : ∀ {r ms}, Reached q r ms → Reached p r ms := by
    intro r ms hr
    cases hr with
    | refused => exact .refused
    | ran hbi hbc => exact .ran (hbi.trans hi) (hbc.trans hc)
  cases h with
  | plain hr => exact .plain (key hr)
  | broken he hr hrolled => exact .broken he (key hr) (hi ▸ hrolled)

theorem runBody_goes (p : BodyPlan) (guarded : Option String) (policy : SandboxPolicy) (w : World) :
    ∃ ms, BodyRan p (runBody E w p guarded policy).1 ms ∧
      Goes p.inst w (runBody E w p guarded policy).2 ms ∧
      (Unhindered E w p.circuitScope p.call.step.capability guarded → ms ≠ []) := by
  have hplain : ∃ ms,
      BodyRan p (if w.parts.sandbox then runSandboxed E w { p with sandboxed := some policy }
        else runStep E w p false).1 ms ∧
      Goes p.inst w (if w.parts.sandbox then runSandboxed E w { p with sandboxed := some policy }
        else runStep E w p false).2 ms ∧ (Admitted E w p.circuitScope p.call.step.capability w.tick → ms ≠ []) := by
    split
    · obtain ⟨ms, hran, hgo, hne⟩ := runSandboxed_goes (E := E) { p with sandboxed := some policy } w
      exact ⟨ms, hran.of_plan rfl rfl, hgo, hne⟩
    · obtain ⟨ms, hreached, hgo, hne⟩ := runStep_goes (E := E) (i := p.inst) w p false
      exact ⟨ms, .plain hreached, hgo, hne⟩
  unfold runBody Unhindered
  cases w.parts.guard with
  | none => exact hplain
  | some g =>
    cases guarded with
    | none => exact hplain
    | some packageId =>
      obtain ⟨ms, hreached, hgo, hne⟩ := runGuarded_goes (E := E) (i := p.inst) w g packageId
        { p with guarded := some packageId }
      exact ⟨ms, (BodyRan.plain hreached).of_plan rfl rfl, hgo, fun hun => hne hun.1 hun.2⟩

/-! ## A pass -/

/-- A forward body of the step of `i`. -/
def ForwardOf (i : String) (step : WorkflowStep) (b : BodyRun) : Prop :=
  b.inst = i ∧ b.call.kind = .forward ∧ b.call.step = step

/-- Bodies that were run forward and raised. -/
def AllRaised (i : String) (step : WorkflowStep) (ms : List Mark) : Prop :=
  ∀ m ∈ ms, ∃ b, m = .ran b ∧ ForwardOf i step b ∧ ∃ e, b.result = .error e

/-- **What a pass over a step leaves**, when `U` says that nothing keeps its body from being
run and `G` that it stops at its gate. -/
inductive PassGoes (i : String) (step : WorkflowStep) (U G : Prop) (w : World) :
    Pass × World → Prop where
  /-- The body was not reached. -/
  | stopped {r : Except Exc Artifact} {w' : World} :
    (∀ a, r = .ok a → ¬ U ∧ (a.type = "error" ∨ (a.type = "approval_required" ∧ G))) →
    Goes i w w' [] → PassGoes i step U G w (.done r, w')
  | returned {a : Artifact} {b : BodyRun} {w₁ : World} : ForwardOf i step b → b.result = .ok a →
    Goes i w w₁ [.ran b] → PassGoes i step U G w (.done (.ok a), completeStep w₁ i step a)
  | denied {a : Artifact} {b : BodyRun} {e : Exc} {w' : World} : ForwardOf i step b →
    b.result = .error e → a.type = "error" → Goes i w w' [.ran b] →
    PassGoes i step U G w (.done (.ok a), w')
  | broken {e : Exc} {ms : List Mark} {w' : World} : stalls i ms = [] →
    (∀ b ∈ forwards i ms, ForwardOf i step b) → Goes i w w' ms →
    PassGoes i step U G w (.done (.error e), w')
  | raised {inst : WorkflowInstance} {params : List (String × Value)} {secret : Bool} {n : ℕ}
    {e : Exc} {ms : List Mark} {w' : World} :
    AllRaised i step ms → (U → ms ≠ []) → Goes i w w' ms →
    PassGoes i step U G w (.raised inst step params secret n e, w')

/-- A pass is followed from an earlier world that left no marks. -/
theorem PassGoes.of_later {step : WorkflowStep} {U U' G G' : Prop} {w₁ : World} {R : Pass × World}
    (h : PassGoes i step U' G' w₁ R) (hgo : Goes i w w₁ []) (hU : U → U') (hG : G' → G) :
    PassGoes i step U G w R := by
  cases h with
  | stopped hr hgo' =>
    refine .stopped (fun a ha => ?_) (by simpa using hgo.trans hgo')
    obtain ⟨hun, htype⟩ := hr a ha
    exact ⟨hun ∘ hU, htype.imp_right fun hg => ⟨hg.1, hG hg.2⟩⟩
  | returned hb hres hgo' => exact .returned hb hres (by simpa using hgo.trans hgo')
  | denied hb hres htype hgo' => exact .denied hb hres htype (by simpa using hgo.trans hgo')
  | broken hs hf hgo' => exact .broken hs hf (by simpa using hgo.trans hgo')
  | raised hms hne hgo' => exact .raised hms (hne ∘ hU) (by simpa using hgo.trans hgo')

theorem denyStep_goes {w' : World} {ms : List Mark} (h : Goes i w w' ms) (step : WorkflowStep)
    (packageId : Option String) : ∃ a, (denyStep E w' i step packageId).1 = .ok a ∧
      a.type = "error" ∧ Goes i w (denyStep E w' i step packageId).2 ms := by
  unfold denyStep
  simp only
  refine ⟨_, rfl, rfl, Goes.reply ?_ _ _ _⟩
  refine Goes.quiet (Goes.setStatus ?_ i _) rfl
  exact h.update i fun _ => rfl

theorem forwards_of_reached {p : BodyPlan} {r : Except Exc Artifact} {ms : List Mark}
    (h : Reached p r ms) (hk : p.call.kind = .forward) :
    stalls i ms = [] ∧ ∀ b ∈ forwards p.inst ms, ForwardOf p.inst p.call.step b := by
  cases h with
  | refused => exact ⟨rfl, by simp [forwards]⟩
  | @ran b hbi hbc =>
    refine ⟨rfl, fun b' hb' => ?_⟩
    obtain rfl : b' = b := by simpa [forwards, hbi, hbc, hk] using hb'
    exact ⟨hbi, by rw [hbc, hk], by rw [hbc]⟩

theorem tryBody_goes (w : World) (inst : WorkflowInstance) (step : WorkflowStep)
    (params : List (String × Value)) (secret : Bool) (n : ℕ) (agent : Option String)
    (policy : Option SandboxPolicy) :
    PassGoes i step
      (Unhindered E w inst.workflow.id step.capability (guardedPackage w step)) False w
      (tryBody E w i inst step params secret n agent policy) := by
  unfold tryBody
  simp only
  set p : BodyPlan := ⟨i, inst.workflow.id, ⟨.forward, some i, step, params, agent⟩, none, none⟩
  obtain ⟨ms, hran, hgo, hne⟩ := runBody_goes (E := E) p (guardedPackage w step)
    (policy.getD (resolvePolicy step inst.workflow)) w
  generalize runBody E w p (guardedPackage w step) _ = R at hran hgo ⊢
  obtain ⟨r, w₁⟩ := R
  simp only at hran hgo
  cases hran with
  | broken he hreached hrolled =>
    obtain ⟨hstalls, hforward⟩ := forwards_of_reached (i := i) hreached rfl
    simp only [he]
    refine .broken ?_ ?_ hgo
    · rw [stalls_append, hstalls, hrolled.stalls_eq, List.nil_append]
    · intro b hb
      rw [forwards_append, hrolled.forwards_eq, List.append_nil] at hb
      exact hforward b hb
  | plain hreached =>
    cases hreached with
    | @refused e =>
      -- refused by the guard or by the circuit
      have hdenied : PassGoes i step
          (Unhindered E w inst.workflow.id step.capability (guardedPackage w step)) False w
          (.done (denyStep E w₁ i step (guardedPackage w step)).1,
            (denyStep E w₁ i step (guardedPackage w step)).2) := by
        obtain ⟨a, ha, htype, hgo'⟩ := denyStep_goes (E := E) hgo step (guardedPackage w step)
        refine .stopped (fun a' ha' => ⟨fun hun => hne hun rfl, .inl ?_⟩) hgo'
        rw [ha] at ha'
        cases ha'
        exact htype
      simp only
      split
      · exact hdenied
      · exact hdenied
      · exact .stopped (by simp) hgo
      · exact .raised (by simp [AllRaised]) hne hgo
    | @ran b hbi hbc =>
      have hb : ForwardOf i step b := ⟨hbi, by rw [hbc], by rw [hbc]⟩
      cases hres : b.result with
      | ok artifact => exact .returned hb hres hgo
      | error e =>
        have hdenied : PassGoes i step
            (Unhindered E w inst.workflow.id step.capability (guardedPackage w step)) False w
            (.done (denyStep E w₁ i step (guardedPackage w step)).1,
              (denyStep E w₁ i step (guardedPackage w step)).2) := by
          obtain ⟨a, ha, htype, hgo'⟩ := denyStep_goes (E := E) hgo step (guardedPackage w step)
          rw [ha]
          exact .denied hb hres htype hgo'
        simp only
        split
        · exact hdenied
        · exact hdenied
        · refine .broken rfl ?_ hgo
          intro b' hb'
          obtain rfl : b' = b := by simpa [forwards, hb.1, hb.2.1] using hb'
          exact hb
        · refine .raised ?_ (by simp) hgo
          intro m hm
          exact ⟨b, List.mem_singleton.1 hm, hb, e, hres⟩

/-- Nothing keeps the body of a step past its gate from being run: no missing MCP gateway, no
guard, no circuit. -/
def Clear (E : Env) (w : World) (i : String) (inst : WorkflowInstance) (step : WorkflowStep) :
    Prop :=
  ¬ (isMcp step ∧ w.parts.mcp = false) ∧
    Unhindered E (interpolateParams E w i (resolveInputs step inst)).2.2 inst.workflow.id
      step.capability (guardedPackage w step)

/-- Interpolation reads the vault and the clock, and changes nothing else. -/
theorem interpolateParams_frame (w : World) (params : List (String × Value)) :
    Goes i w (interpolateParams E w i params).2.2 [] ∧
      (interpolateParams E w i params).2.2.parts.mcp = w.parts.mcp ∧
      (∀ step, guardedPackage (interpolateParams E w i params).2.2 step = guardedPackage w step) := by
  unfold interpolateParams
  cases w.parts.vault with
  | none => exact ⟨.refl i w, rfl, fun _ => rfl⟩
  | some v => exact ⟨.of_frame rfl rfl id, rfl, fun _ => rfl⟩

/-- `Clear` looks at the collaborators and the clock only. -/
theorem Clear.congr {w' : World} {inst : WorkflowInstance} {step : WorkflowStep}
    (h : Clear E w i inst step) (hp : w'.parts = w.parts) (ht : w'.tick = w.tick) :
    Clear E w' i inst step := by
  obtain ⟨hmcp, hun⟩ := h
  refine ⟨by rw [hp]; exact hmcp, ?_⟩
  unfold guardedPackage Unhindered Admitted interpolateParams at hun ⊢
  rw [hp, ht]
  cases hv : w.parts.vault with
  | none =>
    rw [hv] at hun
    simp only at hun ⊢
    rw [hp, ht]
    exact hun
  | some v =>
    rw [hv] at hun
    simp only [World.setVault] at hun ⊢
    rw [hp]
    exact hun

theorem startStep_goes (w : World) (inst : WorkflowInstance) (step : WorkflowStep) (n : ℕ)
    (agent : Option String) (policy : Option SandboxPolicy) :
    PassGoes i step (Clear E w i inst step) False w
      (startStep E w i inst step n agent policy) := by
  unfold startStep
  simp only
  set w₀ := w.emit (.stepStarted i step.id step.capability) with hw₀
  have hemit : Goes i w w₀ [] := (Goes.refl i w).quiet rfl
  obtain ⟨hgo, hmcp, hpkg⟩ := interpolateParams_frame (E := E) (i := i) w₀ (resolveInputs step inst)
  have hclear : Clear E w i inst step → ¬ (isMcp step ∧ w₀.parts.mcp = false) ∧
      Unhindered E (interpolateParams E w₀ i (resolveInputs step inst)).2.2 inst.workflow.id
        step.capability (guardedPackage w₀ step) := fun h => h.congr rfl rfl
  generalize interpolateParams E w₀ i (resolveInputs step inst) = R at hgo hmcp hpkg hclear ⊢
  obtain ⟨r, secret, w₁⟩ := R
  simp only at hgo hmcp hpkg hclear
  have hstart : Goes i w w₁ [] := hemit.trans hgo
  cases r with
  | error e => exact .stopped (by simp) hstart
  | ok params =>
    simp only
    split
    · rename_i hno
      rw [hmcp] at hno
      refine .stopped (fun a ha => ⟨fun hc => (hclear hc).1 hno, .inl ?_⟩)
        (Goes.reply (Goes.quiet (hstart.setStatus i _) rfl) _ _ _)
      cases ha
      rfl
    · refine (tryBody_goes w₁ inst step params secret n agent policy).of_later hstart ?_ id
      intro hc
      rw [hpkg]
      exact (hclear hc).2

/-- The gate of a step that was not attempted before. -/
def AtGate (inst : WorkflowInstance) (step : WorkflowStep) : Prop :=
  step.requiresApproval ∧ inst.attempts step.id = 0

/-- **A pass** counts the attempt and goes on. -/
theorem passStep_goes {inst : WorkflowInstance} (hi : w.instances.get? i = some inst)
    {step : WorkflowStep} (hs : inst.currentStep = some step) (agent : Option String)
    (policy : Option SandboxPolicy) : ∃ w₁, w₁.trace = w.trace ++ [.attempt i step.id
        (inst.attempts step.id + 1)] ∧ w₁.parts = w.parts ∧
      w₁.instances.get? i = some { inst with
        stepAttempts := inst.stepAttempts.insert step.id (inst.attempts step.id + 1) } ∧
      PassGoes i step (Clear E w i inst step ∧ ¬ AtGate inst step) (AtGate inst step) w₁
        (passStep E w i inst agent policy) := by
  unfold passStep
  rw [hs]
  simp only
  set f : WorkflowInstance → WorkflowInstance := fun inst' =>
    { inst' with stepAttempts := inst'.stepAttempts.insert step.id (inst.attempts step.id + 1) }
  set w₁ := (w.update i f).record (.attempt i step.id (inst.attempts step.id + 1)) with hw₁
  refine ⟨w₁, by rw [hw₁]; simp, by rw [hw₁]; simp, update_get? f hi, ?_⟩
  by_cases hgate : step.requiresApproval ∧ inst.attempts step.id + 1 = 1
  · rw [if_pos hgate]
    have hat : AtGate inst step := ⟨hgate.1, by omega⟩
    refine .stopped (fun a ha => ⟨fun h => h.2 hat, .inr ?_⟩)
      (Goes.reply (Goes.quiet ((Goes.refl i w₁).setStatus i _) rfl) _ _ _)
    cases ha
    exact ⟨rfl, hat⟩
  · rw [if_neg hgate]
    refine (startStep_goes w₁ inst step _ agent policy).of_later (.refl i w₁) ?_ False.elim
    exact fun h => h.1.congr (by rw [hw₁]; simp) (by rw [hw₁]; simp)

theorem completeStep_trail (w : World) (i : String) (step : WorkflowStep) (artifact : Artifact) :
    Trail w (completeStep w i step artifact) [] := by
  unfold completeStep
  simp only
  set f : WorkflowInstance → WorkflowInstance := fun inst =>
    { inst with
      stepResults := inst.stepResults.insert step.id (.str artifact.id)
      eventLog := inst.eventLog ++ [artifact.id] }
  have hdone : Trail w ((w.update i f).emit (.stepCompleted i step.id artifact.id)) [] := by
    refine Trail.of_record (a := .event (.stepCompleted i step.id artifact.id)) ?_ ?_
    · unfold World.emit
      rw [record_trace, update_trace]
    · unfold World.emit
      rw [record_parts, update_parts]
      exact id
  split
  · exact hdone
  · rename_i inst _
    have hadv : Trail w ((((w.update i f).emit (.stepCompleted i step.id artifact.id)).update i
        fun inst' => { inst' with currentStepId := inst.next }).record
        (.advance i inst.next)) [] := by
      refine hdone.trans (Trail.of_record (a := .advance i inst.next) ?_ ?_)
      · rw [record_trace, update_trace]
      · rw [record_parts, update_parts]
        exact id
    split
    · refine hadv.trans (Trail.of_record (a := .status i .completed) ?_ ?_)
      · unfold World.setCompleted
        simp
      · unfold World.setCompleted
        simp
    · exact hadv

/-- A pass that ends the call leaves no step stalled. -/
theorem PassGoes.done {step : WorkflowStep} {U G : Prop} {r : Except Exc Artifact} {w' : World}
    (h : PassGoes i step U G w (.done r, w')) : ∃ ms, Trail w w' ms ∧ stalls i ms = [] := by
  cases h with
  | stopped _ hgo => exact ⟨_, hgo.toTrail, rfl⟩
  | returned _ _ hgo =>
    exact ⟨_, hgo.toTrail.trans (completeStep_trail _ i step _), rfl⟩
  | denied _ _ _ hgo => exact ⟨_, hgo.toTrail, rfl⟩
  | broken hs _ hgo => exact ⟨_, hgo.toTrail, hs⟩

theorem AllRaised.marks {step : WorkflowStep} {ms : List Mark} (h : AllRaised i step ms) :
    stalls i ms = [] ∧ begun i ms = [] ∧ undone i ms = [] := by
  refine ⟨List.filterMap_eq_nil_iff.2 ?_, List.filterMap_eq_nil_iff.2 ?_,
    List.filterMap_eq_nil_iff.2 ?_⟩
  all_goals
    intro m hm
    obtain ⟨b, rfl, hb, -⟩ := h m hm
    simp [hb.2.1]

/-! ## Attempt after attempt -/

/-- An attempt at `step` raised: the instance stands where it stood, with its attempts counted. -/
structure Raised (E : Env) (i : String) (inst : WorkflowInstance) (step : WorkflowStep)
    (w w' : World) (ms : List Mark) : Prop where
  trail : Trail w w' ms
  raised : AllRaised i step ms
  reached : Clear E w i inst step → ¬ AtGate inst step → ms ≠ []
  stands : ∃ cur, w'.instances.get? i = some cur ∧ cur.workflow = inst.workflow ∧
    cur.currentStepId = inst.currentStepId ∧ cur.attempts step.id ≠ 0

/-- **One attempt** in `execute_step`: the call ends with it, or it raised and the retries are
used up, or the call goes on with one retry less. -/
inductive Attempt (E : Env) (i : String) (agent : Option String) (inst : WorkflowInstance)
    (step : WorkflowStep) (w : World) : ℕ → Except Exc Artifact × World → Prop where
  | ended {retries : ℕ} {w₁ : World} {r : Except Exc Artifact} {w' : World} : Trail w w₁ [] →
    w₁.instances.get? i = some { inst with
      stepAttempts := inst.stepAttempts.insert step.id (inst.attempts step.id + 1) } →
    PassGoes i step (Clear E w i inst step ∧ ¬ AtGate inst step) (AtGate inst step) w₁
      (.done r, w') → Attempt E i agent inst step w retries (r, w')
  | exhausted {w' : World} {ms : List Mark} {inst' : WorkflowInstance}
    {params : List (String × Value)} {secret : Bool} {n : ℕ} {e : Exc} :
    Raised E i inst step w w' ms →
    Attempt E i agent inst step w 0 (exhaustStep E w' i inst' step params secret n e)
  | again {retries : ℕ} {w' : World} {ms : List Mark} : Raised E i inst step w w' ms →
    Attempt E i agent inst step w (retries + 1) (executeStepFrom E i agent retries none w')

theorem attempts_insert (inst : WorkflowInstance) (k : String) (n : ℕ) :
    WorkflowInstance.attempts { inst with stepAttempts := inst.stepAttempts.insert k n } k = n := by
  unfold WorkflowInstance.attempts
  rw [Dict.get?_insert_self]
  rfl

theorem executeStepFrom_attempt {inst : WorkflowInstance} (hi : w.instances.get? i = some inst)
    {step : WorkflowStep} (hs : inst.currentStep = some step) (agent : Option String)
    (retries : ℕ) (policy : Option SandboxPolicy) :
    Attempt E i agent inst step w retries (executeStepFrom E i agent retries policy w) := by
  obtain ⟨w₁, htrace, hparts, hi₁, hpass⟩ := passStep_goes (E := E) hi hs agent policy
  have hfirst : Trail w w₁ [] := Trail.of_record htrace fun h => by rw [hparts]; exact h
  unfold executeStepFrom
  simp only [hi]
  generalize passStep E w i inst agent policy = R at hpass ⊢
  obtain ⟨pass, w₂⟩ := R
  cases pass with
  | done r => exact .ended hfirst hi₁ hpass
  | raised inst' step' params secret n e =>
    cases hpass with
    | @raised _ _ _ _ _ ms _ hms hne hgo =>
      obtain ⟨cur, hcur, hplace⟩ := hgo.inst hi₁
      -- what follows leaves no marks: a failure announced, and a backoff or dead letters
      have hraised : ∀ w₃, Goes i w₂ w₃ [] → Raised E i inst step w w₃ ms := by
        intro w₃ hgo₃
        obtain ⟨cur₃, hcur₃, hplace₃⟩ := hgo₃.inst hcur
        have hp : cur₃.place = _ := hplace₃.trans hplace
        refine ⟨by simpa using hfirst.trans (hgo.trans hgo₃).toTrail, hms,
          fun hc hg => hne ⟨hc, hg⟩, cur₃, hcur₃, congrArg Place.workflow hp,
          congrArg Place.cursor hp, ?_⟩
        have hatt : cur₃.stepAttempts = inst.stepAttempts.insert step.id
          (inst.attempts step.id + 1) := congrArg Place.attempts hp
        have hval : cur₃.attempts step.id = inst.attempts step.id + 1 := by
          rw [← attempts_insert inst step.id (inst.attempts step.id + 1)]
          unfold WorkflowInstance.attempts
          rw [hatt]
          rfl
        omega
      simp only
      cases retries with
      | zero => exact .exhausted (hraised _ ((Goes.refl i w₂).quiet rfl))
      | succ retries =>
        exact .again (hraised _ (((Goes.refl i w₂).quiet rfl).quiet rfl))

end Hermes

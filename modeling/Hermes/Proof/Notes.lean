import Hermes.Proof.EngineMarks
import Hermes.Spec.Attempts

/-!
# What an attempt notes down

Of the actions of an attempt these are followed here: steps started, completed and
failed, bodies run, the cursor moved on, and the call left.

* `Writes i w w' ns st`: the engine goes from `w` to `w'`, notes down `ns`, and leaves
  the instance `i` standing at `st`.
* `compensate_writes`, `runBody_writes`: the notes of a rollback and of a body.
-/

namespace Hermes

open World

inductive Note where
  | started (inst stepId : String)
  | ran (run : BodyRun)
  | completed (inst stepId artifactId : String)
  | failed (inst stepId : String)
  | advanced (inst : String)
  /-- The outermost call of `execute_step` returned or raised. -/
  | left (inst : String)

def Action.note : Action → Option Note
  | .event (.stepStarted i k _) => some (.started i k)
  | .body b => some (.ran b)
  | .event (.stepCompleted i k a) => some (.completed i k a)
  | .event (.stepFailed i k _ _ _) => some (.failed i k)
  | .advance i _ => some (.advanced i)
  | .leave i => some (.left i)
  | _ => none

def notes (t : List Action) : List Note := t.filterMap Action.note

@[simp] theorem notes_nil : notes [] = [] := rfl

@[simp] theorem notes_append (t u : List Action) : notes (t ++ u) = notes t ++ notes u :=
  List.filterMap_append

/-- The bodies among some notes. -/
def bodiesRun (ns : List Note) : List BodyRun :=
  ns.filterMap fun
    | .ran b => some b
    | _ => none

@[simp] theorem bodiesRun_append (ns ms : List Note) :
    bodiesRun (ns ++ ms) = bodiesRun ns ++ bodiesRun ms := List.filterMap_append

theorem mem_bodiesRun {ns : List Note} {b : BodyRun} : b ∈ bodiesRun ns ↔ .ran b ∈ ns := by
  unfold bodiesRun
  rw [List.mem_filterMap]
  constructor
  · rintro ⟨n, hn, hb⟩
    cases n with
    | ran b' => cases hb; exact hn
    | _ => cases hb
  · intro hn
    exact ⟨_, hn, rfl⟩

/-- From `w` to `w'` the notes `ns` are added. -/
def Noted (w w' : World) (ns : List Note) : Prop := ∃ u, w'.trace = w.trace ++ u ∧ notes u = ns

theorem Noted.refl (w : World) : Noted w w [] := ⟨[], by rw [List.append_nil], rfl⟩

theorem Noted.eq {w w' : World} {ns : List Note} (h : Noted w w' ns) :
    notes w'.trace = notes w.trace ++ ns := by
  obtain ⟨u, hu, hn⟩ := h
  rw [hu, notes_append, hn]

/-- What no call of the engine changes in its collaborators. -/
structure Wiring where
  rules : Option (Dict String GuardPolicy × Dict String (List Permission))
  installed : Option (List PluginPackage)
  resilience : Bool
  vault : Bool
  sandbox : Bool
  mcp : Bool
  deadLetter : Bool

def Parts.wiring (p : Parts) : Wiring :=
  ⟨p.guard.map fun g => (g.policies, g.grants), p.installed, p.resilience.isSome, p.vault.isSome,
    p.sandbox, p.mcp, p.deadLetter⟩

/-- Where an instance stands, and its status. -/
structure Standing where
  place : Place
  status : WorkflowStatus

def WorkflowInstance.standing (inst : WorkflowInstance) : Standing := ⟨inst.place, inst.status⟩

def World.standingOf (w : World) (i : String) : Option Standing :=
  (w.instances.get? i).map (·.standing)

/-- **The engine goes on**, notes down `ns`, and leaves `i` standing at `st`. -/
structure Writes (i : String) (w w' : World) (ns : List Note) (st : Standing) : Prop where
  noted : Noted w w' ns
  wiring : w'.parts.wiring = w.parts.wiring
  standing : w'.standingOf i = some st

variable {E : Env} {i : String} {w₀ w w' : World} {ns ms : List Note} {st st' : Standing}

theorem standingOf_eq {inst : WorkflowInstance} (hi : w.instances.get? i = some inst) :
    w.standingOf i = some inst.standing := by
  unfold standingOf
  rw [hi]
  rfl

/-- The instance behind a standing. -/
theorem Writes.inst (h : Writes i w₀ w ns st) :
    ∃ inst, w.instances.get? i = some inst ∧ inst.standing = st := by
  have hs := h.standing
  unfold standingOf at hs
  exact Option.map_eq_some_iff.1 hs

namespace Writes

theorem refl (h : w.standingOf i = some st) : Writes i w w [] st :=
  ⟨.refl w, rfl, h⟩

theorem trans (h : Writes i w₀ w ns st) (h' : Writes i w w' ms st') :
    Writes i w₀ w' (ns ++ ms) st' := by
  obtain ⟨⟨u, hu, hn⟩, hp, -⟩ := h
  obtain ⟨⟨v, hv, hm⟩, hp', hs⟩ := h'
  refine ⟨⟨u ++ v, ?_, ?_⟩, hp'.trans hp, hs⟩
  · rw [hv, hu, List.append_assoc]
  · rw [notes_append, hn, hm]

/-- Clocks and circuits go on. -/
theorem frame (h : Writes i w₀ w ns st) (ht : w'.trace = w.trace)
    (hi : w'.instances = w.instances) (hp : w'.parts.wiring = w.parts.wiring) :
    Writes i w₀ w' ns st := by
  refine ⟨?_, hp.trans h.wiring, ?_⟩
  · unfold Noted
    rw [ht]
    exact h.noted
  · unfold standingOf
    rw [hi]
    exact h.standing

theorem record (h : Writes i w₀ w ns st) (a : Action) :
    Writes i w₀ (w.record a) (ns ++ a.note.toList) st := by
  obtain ⟨⟨u, hu, hn⟩, hp, hs⟩ := h
  refine ⟨⟨u ++ [a], ?_, ?_⟩, hp, hs⟩
  · rw [record_trace, hu, List.append_assoc]
  · rw [notes_append, hn]
    unfold notes
    cases ha : a.note <;> simp [ha]

/-- An action that is not noted. -/
theorem quiet (h : Writes i w₀ w ns st) {a : Action} (ha : a.note = none) :
    Writes i w₀ (w.record a) ns st := by
  simpa [ha] using h.record a

/-- Fields of the instance are assigned. -/
theorem update (h : Writes i w₀ w ns st) {f : WorkflowInstance → WorkflowInstance}
    (hf : ∀ inst, inst.standing = st → (f inst).standing = st') :
    Writes i w₀ (w.update i f) ns st' := by
  obtain ⟨inst, hi, hst⟩ := h.inst
  refine ⟨by simpa [Noted] using h.noted, by simpa using h.wiring, ?_⟩
  rw [standingOf_eq (update_get? f hi), hf inst hst]

theorem setStatus (h : Writes i w₀ w ns st) (s : WorkflowStatus) :
    Writes i w₀ (w.setStatus i s) ns { st with status := s } := by
  unfold World.setStatus
  refine Writes.quiet ?_ rfl
  exact h.update fun inst hst => by rw [← hst]; rfl

theorem setCompleted (h : Writes i w₀ w ns st) :
    Writes i w₀ (w.setCompleted i) ns { st with status := .completed } := by
  set f : WorkflowInstance → WorkflowInstance := fun inst =>
    { inst with status := .completed, completedAt := some w.tick }
  have hup : Writes i w₀ (w.update i f) ns { st with status := .completed } :=
    h.update fun inst hst => by rw [← hst]; rfl
  have hclock : Writes i w₀ { w.update i f with tick := (w.update i f).tick + 1 } ns
      { st with status := .completed } := hup.frame rfl rfl rfl
  exact hclock.quiet rfl

theorem reply (h : Writes i w₀ w ns st) (type : String) (content : List (String × Value))
    (source : Option String) : Writes i w₀ (w.reply E type content source).2 ns st :=
  h.frame rfl rfl rfl

end Writes

/-! ## Bodies -/

/-- **A body was run, or refused** when `R` may refuse it. A sandbox may have `cut` it off. -/
inductive Tried (E : Env) (p : BodyPlan) (cut : Bool) (R : Prop) :
    Except Exc Artifact → List Note → Prop where
  | refused {e : Exc} : R → e.kind ≠ .sandboxError → Tried E p cut R (.error e) []
  | ran {b : BodyRun} : b.inst = p.inst → b.call = p.call → b.guarded = p.guarded →
    b.sandboxed = p.sandboxed →
    (∃ n, b.result = if cut then .error ⟨.cancelled, ""⟩ else E.body n p.call) →
    Tried E p cut R b.result [.ran b]

theorem Tried.mono {p : BodyPlan} {cut : Bool} {R R' : Prop} {r : Except Exc Artifact}
    (h : Tried E p cut R r ns) (hR : R → R') : Tried E p cut R' r ns := by
  cases h with
  | refused hr he => exact .refused (hR hr) he
  | ran hi hc hg hs hb => exact .ran hi hc hg hs hb

/-- Bodies run for `i`, and nothing else. -/
def Bodily (i : String) (ns : List Note) : Prop := ∀ n ∈ ns, ∃ b : BodyRun, n = .ran b ∧ b.inst = i

theorem Bodily.append (h : Bodily i ns) (h' : Bodily i ms) : Bodily i (ns ++ ms) := by
  intro n hn
  rcases List.mem_append.1 hn with hn | hn
  · exact h n hn
  · exact h' n hn

theorem Tried.bodily {p : BodyPlan} {cut : Bool} {R : Prop} {r : Except Exc Artifact}
    (h : Tried E p cut R r ns) : Bodily p.inst ns := by
  cases h with
  | refused => simp [Bodily]
  | ran hi => exact fun n hn => ⟨_, List.mem_singleton.1 hn, hi⟩

theorem Tried.returned {p : BodyPlan} {cut : Bool} {R : Prop} {r : Except Exc Artifact}
    (h : Tried E p cut R r ns) {a : Artifact} (hr : r = .ok a) :
    ∃ b : BodyRun, ns = [.ran b] ∧ b.inst = p.inst ∧ b.call = p.call ∧ b.result = .ok a := by
  cases h with
  | refused => cases hr
  | ran hi hc => exact ⟨_, rfl, hi, hc, hr⟩

theorem runStepInner_writes (h : Writes i w₀ w ns st) (p : BodyPlan) (cut : Bool) :
    ∃ b : BodyRun, b.inst = p.inst ∧ b.call = p.call ∧ b.guarded = p.guarded ∧
      b.sandboxed = p.sandboxed ∧
      (∃ n, b.result = if cut then .error ⟨.cancelled, ""⟩ else E.body n p.call) ∧
      b.result = (runStepInner E w p cut).1 ∧
      Writes i w₀ (runStepInner E w p cut).2 (ns ++ [.ran b]) st := by
  unfold runStepInner
  simp only
  have hcount : Writes i w₀ { w with bodies := w.bodies + 1 } ns st := h.frame rfl rfl rfl
  refine ⟨_, ?_, ?_, ?_, ?_, ⟨w.bodies, ?_⟩, ?_, hcount.record (.body _)⟩
  all_goals rfl

theorem runStep_writes (h : Writes i w₀ w ns st) (p : BodyPlan) (cut : Bool) : ∃ ms,
    Tried E p cut (w.parts.wiring.resilience = true) (runStep E w p cut).1 ms ∧
      Writes i w₀ (runStep E w p cut).2 (ns ++ ms) st := by
  unfold runStep
  cases hr : w.parts.resilience with
  | none =>
    obtain ⟨b, hi, hc, hg, hs, hb, hres, hw⟩ := runStepInner_writes (E := E) h p cut
    refine ⟨[.ran b], ?_, hw⟩
    simp only
    rw [← hres]
    exact .ran hi hc hg hs hb
  | some r =>
    have hwired : w.parts.wiring.resilience = true := by
      unfold Parts.wiring
      rw [hr]
      rfl
    have hset : ∀ {w : World} (r' : Resilience), w.parts.wiring.resilience = true →
        (w.setResilience r').parts.wiring = w.parts.wiring := by
      intro w r' hw
      unfold setResilience Parts.wiring at *
      simp only at hw ⊢
      rw [hw]
      rfl
    have hin : ∀ r', Writes i w₀ (w.setResilience r') ns st :=
      fun r' => h.frame rfl rfl (hset r' hwired)
    simp only
    split
    · rename_i e r' henter
      refine ⟨[], .refused hwired ?_, by simpa using hin r'⟩
      -- the circuit is open
      have hkind : e.kind = .circuitBreakerOpen := by
        unfold Resilience.enter at henter
        simp only at henter
        split at henter
        · cases henter
        · cases henter; rfl
        · split at henter
          · cases henter; rfl
          · cases henter
      rw [hkind]
      decide
    · rename_i r' henter
      obtain ⟨b, hi, hc, hg, hs, hb, hres, hw⟩ := runStepInner_writes (E := E) (hin r') p cut
      have hstill : (runStepInner E (w.setResilience r') p cut).2.parts.wiring.resilience = true := by
        rw [hw.wiring, ← h.wiring]
        exact hwired
      refine ⟨[.ran b], ?_, hw.frame rfl rfl (hset _ hstill)⟩
      simp only
      rw [← hres]
      exact .ran hi hc hg hs hb

/-- What the rules of a guard say of an action. -/
def rulesAllow (rules : Dict String GuardPolicy × Dict String (List Permission))
    (packageId action resource : String) : Bool :=
  Guard.check ⟨rules.1, rules.2, ∅⟩ packageId action resource

theorem runGuarded_writes (h : Writes i w₀ w ns st) {g : Guard} (hg : w.parts.guard = some g)
    (packageId : String) (p : BodyPlan) : ∃ ms,
    Tried E p false True (runGuarded E w g packageId p).1 ms ∧
      Writes i w₀ (runGuarded E w g packageId p).2 (ns ++ ms) st ∧
      (ms ≠ [] → rulesAllow (g.policies, g.grants) packageId "execute"
        ("capability:" ++ p.call.step.capability) = true) := by
  unfold runGuarded
  simp only
  split
  · rename_i outcome e hpre
    refine ⟨[], .refused trivial ?_, by simpa using h.quiet rfl, fun hne => absurd rfl hne⟩
    unfold Guard.pre at hpre
    split at hpre
    · split at hpre
      · cases hpre
      · cases hpre
        exact (by decide : ExcKind.resourceLimitExceeded ≠ .sandboxError)
    · cases hpre
      exact (by decide : ExcKind.permissionDenied ≠ .sandboxError)
  · rename_i hpre
    have hclock : Writes i w₀ { w with tick := w.tick + 1 } ns st := h.frame rfl rfl rfl
    obtain ⟨ms, htried, hw⟩ := runStep_writes (E := E) hclock p false
    -- only the usage is accounted
    have hrules : (runStep E { w with tick := w.tick + 1 } p false).2.parts.wiring.rules =
        some (g.policies, g.grants) := by
      rw [hw.wiring, ← h.wiring]
      unfold Parts.wiring
      rw [hg]
      rfl
    have haccrue : ∀ ms', Writes i w₀ ((runStep E { w with tick := w.tick + 1 } p false).2.setGuard
        (g.accrue packageId ms')) (ns ++ ms) st := by
      intro ms'
      refine hw.frame rfl rfl ?_
      unfold World.setGuard Parts.wiring at *
      simp only at hrules ⊢
      rw [hrules]
      rfl
    refine ⟨ms, htried.mono fun _ => trivial, (haccrue _).quiet rfl, fun _ => ?_⟩
    unfold Guard.pre at hpre
    split at hpre
    · rename_i hcheck
      exact hcheck
    · cases hpre

/-! ## Rollbacks -/

/-- The bodies of a rollback of `i`. -/
def Undone (i : String) (ns : List Note) : Prop :=
  ∀ n ∈ ns, ∃ b : BodyRun, n = .ran b ∧ b.inst = i ∧ b.call.kind = .compensation ∧
    b.guarded = none ∧ b.sandboxed = none

theorem Undone.nil : Undone i [] := by simp [Undone]

theorem Undone.bodily (h : Undone i ns) : Bodily i ns := by
  intro n hn
  obtain ⟨b, hb, hi, -⟩ := h n hn
  exact ⟨b, hb, hi⟩

theorem Undone.append (h : Undone i ns) (h' : Undone i ms) : Undone i (ns ++ ms) := by
  intro n hn
  rcases List.mem_append.1 hn with hn | hn
  · exact h n hn
  · exact h' n hn

/-- A rollback has come to `w`, with `i` standing at `st`. -/
def Undoing (i : String) (w₀ : World) (ns : List Note) (st : Standing) (w : World) : Prop :=
  ∃ us, Undone i us ∧ Writes i w₀ w (ns ++ us) st

theorem runCompensation_writes (h : Undoing i w₀ ns st w) (failedStep c : String) :
    Undoing i w₀ ns st (runCompensation E i failedStep c w) := by
  obtain ⟨us, hus, hw⟩ := h
  unfold runCompensation
  cases w.instances.get? i with
  | none => exact ⟨us, hus, hw⟩
  | some inst =>
    simp only
    cases stepById inst.workflow.steps c with
    | none => exact ⟨us, hus, hw⟩
    | some comp =>
      simp only
      have hemit : Writes i w₀ (w.emit (.compensating i failedStep c)) (ns ++ us) st := hw.quiet rfl
      obtain ⟨ms, htried, hrun⟩ := runStep_writes (E := E) hemit
        ⟨i, "unknown", ⟨.compensation, none, comp, resolveInputs comp inst, none⟩, none, none⟩ false
      have hms : Undone i ms := by
        generalize (runStep E _ _ false).1 = r at htried
        cases htried with
        | refused => exact .nil
        | @ran b hi hc hg hs _ =>
          intro n hn
          exact ⟨b, List.mem_singleton.1 hn, hi, by rw [hc], hg, hs⟩
      rw [List.append_assoc] at hrun
      split
      · rename_i w₁ hw₁
        rw [hw₁] at hrun
        exact ⟨us ++ ms, hus.append hms, hrun.update fun _ hst => hst⟩
      · rename_i w₁ hw₁
        rw [hw₁] at hrun
        exact ⟨us ++ ms, hus.append hms, hrun⟩

theorem compensateFor_writes (h : Undoing i w₀ ns st w) (failedStep : String)
    (step : WorkflowStep) : Undoing i w₀ ns st (compensateFor E i failedStep w step) := by
  unfold compensateFor
  cases truthy step.compensation with
  | none => exact h
  | some c => exact runCompensation_writes h failedStep c

/-- **A rollback** leaves `i` in its place, `FAILED`. -/
theorem compensate_writes (h : Writes i w₀ w ns st) (failedStep : String) :
    Undoing i w₀ ns { st with status := .failed } (compensate E w i failedStep) := by
  obtain ⟨inst, hi, -⟩ := h.inst
  rw [compensate_eq hi]
  have hstart : Undoing i w₀ ns { st with status := .compensating } (w.setStatus i .compensating) :=
    ⟨[], .nil, by simpa using h.setStatus .compensating⟩
  obtain ⟨us, hus, hw⟩ := History.run_invariant _
    (Undoing i w₀ ns { st with status := .compensating })
    (fun w s hw => compensateFor_writes (E := E) hw failedStep s)
    (rollbackSteps inst.workflow.steps failedStep) _ hstart
  exact ⟨us, hus, hw.setStatus .failed⟩

/-! ## Under a guard, in a sandbox, or as it is -/

theorem breach_writes (h : Writes i w₀ w ns st) (violation : String) :
    ∃ us s, Undone i us ∧ (s = st.status ∨ s = .failed) ∧
      Writes i w₀ (breach E w i violation).2 (ns ++ us) { st with status := s } := by
  unfold breach compensateOnBreach
  simp only
  have hemit : Writes i w₀ (w.emit (.sandboxViolation i violation)) ns st := h.quiet rfl
  have hsame : ∃ us s, Undone i us ∧ (s = st.status ∨ s = .failed) ∧ Writes i w₀
      ((w.emit (.sandboxViolation i violation)).emit (.sandboxCleanupCompleted i true)) (ns ++ us)
      { st with status := s } := by
    refine ⟨[], st.status, .nil, .inl rfl, ?_⟩
    rw [List.append_nil]
    exact hemit.quiet rfl
  cases ((w.emit (.sandboxViolation i violation)).instances.get? i).bind (·.currentStep) with
  | none => exact hsame
  | some step =>
    simp only
    split
    · obtain ⟨us, hus, hw⟩ := compensate_writes (E := E) hemit step.id
      exact ⟨us, .failed, hus, .inr rfl, hw.quiet rfl⟩
    · exact hsame

/-- **How a body was run** by an engine wired as `W`, with `i` standing at `st` before and `st'`
after it. -/
inductive BodyDone (E : Env) (W : Wiring) (p : BodyPlan) (guarded : Option String)
    (policy : SandboxPolicy) (st : Standing) : Except Exc Artifact → List Note → Standing → Prop where
  | guarded {packageId : String} {rules : Dict String GuardPolicy × Dict String (List Permission)}
    {r : Except Exc Artifact} {ms : List Note} : guarded = some packageId → W.rules = some rules →
    Tried E { p with guarded := some packageId } false True r ms →
    (ms ≠ [] → rulesAllow rules packageId "execute" ("capability:" ++ p.call.step.capability)) →
    BodyDone E W p guarded policy st r ms st
  | plain {r : Except Exc Artifact} {ms : List Note} : guarded = none ∨ W.rules = none →
    W.sandbox = false → Tried E p false (W.resilience = true) r ms →
    BodyDone E W p guarded policy st r ms st
  /-- What comes out of a sandbox that was not broken. -/
  | boxed {r : Except Exc Artifact} {ms : List Note} : guarded = none ∨ W.rules = none →
    W.sandbox = true →
    Tried E { p with sandboxed := some policy } false (W.resilience = true) r ms →
    (∀ e, r = .error e → e.kind = .sandboxError) → BodyDone E W p guarded policy st r ms st
  | broken {e : Exc} {r : Except Exc Artifact} {cut : Bool} {ms us : List Note}
    {s : WorkflowStatus} : guarded = none ∨ W.rules = none → W.sandbox = true →
    e.kind = .sandboxError →
    Tried E { p with sandboxed := some policy } cut (W.resilience = true) r ms →
    Undone p.inst us → (s = st.status ∨ s = .failed) →
    BodyDone E W p guarded policy st (.error e) (ms ++ us) { st with status := s }

section Done

variable {W : Wiring} {p : BodyPlan} {guarded : Option String} {policy : SandboxPolicy}
  {r : Except Exc Artifact}

theorem BodyDone.bodily (h : BodyDone E W p guarded policy st r ms st') : Bodily p.inst ms := by
  cases h with
  | guarded _ _ htried _ => exact htried.bodily
  | plain _ _ htried => exact htried.bodily
  | boxed _ _ htried _ => exact htried.bodily
  | broken _ _ _ htried hus _ => exact htried.bodily.append hus.bodily

/-- **A body that returned** left one note. -/
theorem BodyDone.returned {a : Artifact} (h : BodyDone E W p guarded policy st (.ok a) ms st') :
    ∃ b : BodyRun, ms = [.ran b] ∧ b.inst = p.inst ∧ b.call = p.call ∧ b.result = .ok a := by
  cases h with
  | guarded _ _ htried _ => exact htried.returned rfl
  | plain _ _ htried => exact htried.returned rfl
  | boxed _ _ htried _ => exact htried.returned rfl

/-- Unless a sandbox was broken, the instance stands where it stood. -/
theorem BodyDone.stays (h : BodyDone E W p guarded policy st r ms st')
    (hr : ∀ e, r = .error e → e.kind ≠ .sandboxError) : st' = st := by
  cases h with
  | guarded => rfl
  | plain => rfl
  | boxed => rfl
  | broken _ _ hk => exact absurd hk (hr _ rfl)

end Done

theorem runSandboxed_writes {p : BodyPlan} (h : Writes p.inst w₀ w ns st) {guarded : Option String}
    (hg : guarded = none ∨ w.parts.wiring.rules = none) (hs : w.parts.sandbox = true)
    (policy : SandboxPolicy) : ∃ ms st',
      BodyDone E w.parts.wiring p guarded policy st
        (runSandboxed E w { p with sandboxed := some policy }).1 ms st' ∧
      Writes p.inst w₀ (runSandboxed E w { p with sandboxed := some policy }).2 (ns ++ ms) st' := by
  set q : BodyPlan := { p with sandboxed := some policy } with hq
  unfold runSandboxed
  simp only
  -- a body that was cut off raises a cancellation, whatever it would have returned
  have hcancel : (E.monitor w.bodies).timedOut = true → ∀ r ms,
      Tried E q true (w.parts.wiring.resilience = true) r ms →
      ∃ e, r = .error e ∧ e.kind ≠ .sandboxError := by
    intro _ r ms htried
    cases htried with
    | refused _ he => exact ⟨_, rfl, he⟩
    | ran _ _ _ _ hb =>
      obtain ⟨n, hb⟩ := hb
      exact ⟨_, hb, (by decide : ExcKind.cancelled ≠ .sandboxError)⟩
  obtain ⟨ms, htried, hrun⟩ := runStep_writes (E := E) h q (E.monitor w.bodies).timedOut
  generalize hcut : (E.monitor w.bodies).timedOut = cut at htried hrun hcancel ⊢
  generalize runStep E w q cut = R at htried hrun ⊢
  obtain ⟨r, w₁⟩ := R
  simp only at htried hrun
  have hbreach : ∀ v, ∃ ms st', BodyDone E w.parts.wiring p guarded policy st
      (breach E w₁ q.inst v).1 ms st' ∧
      Writes p.inst w₀ (breach E w₁ q.inst v).2 (ns ++ ms) st' := by
    intro v
    obtain ⟨us, s, hus, hst, hw⟩ := breach_writes (E := E) hrun v
    rw [List.append_assoc] at hw
    exact ⟨ms ++ us, _, .broken hg hs rfl htried hus hst, hw⟩
  have hboxed : (∀ e, r = .error e → e.kind = .sandboxError) → ∃ ms st',
      BodyDone E w.parts.wiring p guarded policy st r ms st' ∧
      Writes p.inst w₀ w₁ (ns ++ ms) st' := by
    intro hr
    cases cut with
    | false => exact ⟨ms, st, .boxed hg hs htried hr, hrun⟩
    | true =>
      obtain ⟨e, he, hne⟩ := hcancel rfl r ms htried
      exact absurd (hr e he) hne
  cases r with
  | ok artifact =>
    simp only
    split
    · exact hboxed (by simp)
    · exact hbreach _
  | error e =>
    simp only
    split
    · exact hbreach _
    · exact hbreach _
    · rename_i hk
      refine hboxed fun e' he' => ?_
      cases he'
      exact hk
    · exact hbreach _

/-- **The body of a step.** -/
theorem runBody_writes {p : BodyPlan} (h : Writes p.inst w₀ w ns st) (guarded : Option String)
    (policy : SandboxPolicy) : ∃ ms st',
      BodyDone E w.parts.wiring p guarded policy st (runBody E w p guarded policy).1 ms st' ∧
      Writes p.inst w₀ (runBody E w p guarded policy).2 (ns ++ ms) st' := by
  have hopen : guarded = none ∨ w.parts.wiring.rules = none → ∃ ms st',
      BodyDone E w.parts.wiring p guarded policy st
        (if w.parts.sandbox then runSandboxed E w { p with sandboxed := some policy }
          else runStep E w p false).1 ms st' ∧
      Writes p.inst w₀ (if w.parts.sandbox then runSandboxed E w { p with sandboxed := some policy }
          else runStep E w p false).2 (ns ++ ms) st' := by
    intro hg
    split
    · rename_i hs
      exact runSandboxed_writes h hg hs policy
    · rename_i hs
      obtain ⟨ms, htried, hw⟩ := runStep_writes (E := E) h p false
      exact ⟨ms, st, .plain hg (Bool.eq_false_iff.2 hs) htried, hw⟩
  unfold runBody
  cases hguard : w.parts.guard with
  | none =>
    refine hopen (.inr ?_)
    unfold Parts.wiring
    rw [hguard]
    rfl
  | some g =>
    cases guarded with
    | none => exact hopen (.inl rfl)
    | some packageId =>
      obtain ⟨ms, htried, hw, hallow⟩ := runGuarded_writes (E := E) h hguard packageId
        { p with guarded := some packageId }
      refine ⟨ms, st, .guarded rfl ?_ htried hallow, hw⟩
      unfold Parts.wiring
      rw [hguard]
      rfl

end Hermes

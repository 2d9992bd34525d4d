import Hermes.Spec.Lifecycle
import Hermes.Spec.Engine

/-!
# The turns of a life

* `life_turn`: what an allowed action does to the life of an instance.
* `life_invariant`: what holds of a new life and is kept by every turn holds of a
  life after any history, when each action meets a condition.
-/

namespace Hermes

open History

variable {h : List Action} {i : String} {a : Action} {l l' : Life}

/-- The life of a new instance. -/
def Life.new (wf : Workflow) : Life := { workflow := wf, current := wf.steps.head?.map (·.id) }

/-- **One turn** in the life of `i`: the action, and the life before and after it. -/
inductive Life.Turn (i : String) : Action → Life → Life → Prop where
  /-- The action leaves the life as it is. -/
  | same {a : Action} {l : Life} : Life.apply i (some l) a = some l → Turn i a l l
  | enter {l : Life} : l.mode = .idle → Turn i (.enter i) l { l with mode := .active }
  | leave {l : Life} : l.mode = .idle ∨ l.mode = .active ∨ l.mode = .done →
    Turn i (.leave i) l { l with mode := .idle }
  | attempt {l : Life} {k : String} : l.mode = .active → l.current = some k → l.step ≠ none →
    Turn i (.attempt i k (l.attempts k + 1)) l
      { l with
        attempts := Function.update l.attempts k (l.attempts k + 1)
        mode := if l.workflow.gated k ∧ l.attempts k + 1 = 1 then .gate else .active }
  | advance {l : Life} {next : Option String} : l.mode = .active → l.step ≠ none →
    Turn i (.advance i next) l { l with current := next, mode := .done }
  | status {l : Life} {s : WorkflowStatus} : l.mayBecome s → Turn i (.status i s) l { l with status := s, mode := modeAfter s }
  | verdict {l : Life} {k : String} {ok : Bool} : l.status = .paused → l.mode = .idle →
    Turn i (.approve i k ok) l { l with mode := if ok then .approved else .rejected }
  | announce {l : Life} {k r : String} : l.mode = .announce → l.current = some k →
    Turn i (.event (.stepAwaitingApproval i k r)) l { l with mode := .idle }

/-- Where the life of `i` is known to be `l`, what is allowed is about `l`. -/
theorem Living.apply (hl : lifeOf h i = some l) {P : Life → Prop} (hP : Living h i P) : P l := by
  obtain ⟨l₀, h₀, hP⟩ := hP
  rw [hl] at h₀
  cases h₀
  exact hP

/-- **What an allowed action does to a life.** -/
theorem life_turn (ha : Allowed h a) (hl' : lifeOf (h ++ [a]) i = some l') :
    (∃ wf, a = .start i wf ∧ l' = .new wf) ∨ ∃ l, lifeOf h i = some l ∧ Life.Turn i a l l' := by
  rw [lifeOf_snoc] at hl'
  have hkeep : Life.apply i (lifeOf h i) a = lifeOf h i →
      ∃ l, lifeOf h i = some l ∧ Life.Turn i a l l' := by
    intro he
    have hl : lifeOf h i = some l' := by rw [← he, hl']
    rw [hl] at he
    exact ⟨l', hl, .same he⟩
  -- an action about another instance
  have hother : ∀ (j : String) (o : Option Life), j ≠ i →
      Life.apply i (lifeOf h i) a = (if j = i then o else lifeOf h i) →
      ∃ l, lifeOf h i = some l ∧ Life.Turn i a l l' :=
    fun j o hj he => hkeep (he.trans (if_neg hj))
  -- an action about `i`, which changes its life by `f`
  have hself : ∀ f : Life → Life, Life.apply i (lifeOf h i) a = (lifeOf h i).map f →
      (∀ l, lifeOf h i = some l → Life.Turn i a l (f l)) →
      ∃ l, lifeOf h i = some l ∧ Life.Turn i a l l' := by
    intro f he ht
    rw [he] at hl'
    obtain ⟨l, hl, rfl⟩ := Option.map_eq_some_iff.1 hl'
    exact ⟨l, hl, ht l hl⟩
  cases a with
  | start j wf =>
    by_cases hj : j = i
    · subst hj
      refine Or.inl ⟨wf, rfl, ?_⟩
      simpa [Life.apply, Life.new] using hl'.symm
    · exact .inr (hother j _ hj rfl)
  | enter j =>
    refine .inr ?_
    by_cases hj : j = i
    · subst hj
      exact hself _ (if_pos rfl) fun l hl => .enter (ha.apply hl)
    · exact hother j _ hj rfl
  | leave j =>
    refine .inr ?_
    by_cases hj : j = i
    · subst hj
      exact hself _ (if_pos rfl) fun l hl => .leave (ha.apply hl)
    · exact hother j _ hj rfl
  | attempt j k n =>
    refine .inr ?_
    by_cases hj : j = i
    · subst hj
      refine hself _ (if_pos rfl) fun l hl => ?_
      obtain ⟨hm, hk, hs, rfl⟩ := Living.apply hl ha
      exact .attempt hm hk hs
    · exact hother j _ hj rfl
  | advance j next =>
    refine .inr ?_
    by_cases hj : j = i
    · subst hj
      refine hself _ (if_pos rfl) fun l hl => ?_
      obtain ⟨hm, hs⟩ := Living.apply hl ha
      exact .advance hm hs
    · exact hother j _ hj rfl
  | status j s =>
    refine .inr ?_
    by_cases hj : j = i
    · subst hj
      exact hself _ (if_pos rfl) fun l hl => .status (ha.1.apply hl)
    · exact hother j _ hj rfl
  | approve j k ok =>
    refine .inr ?_
    by_cases hj : j = i
    · subst hj
      refine hself _ (if_pos rfl) fun l hl => ?_
      obtain ⟨hs, hm⟩ := Living.apply hl ha
      exact .verdict hs hm
    · exact hother j _ hj rfl
  | event e =>
    refine .inr ?_
    cases e with
    | stepAwaitingApproval j k r =>
      by_cases hj : j = i
      · subst hj
        refine hself _ (if_pos rfl) fun l hl => ?_
        obtain ⟨hm, hc⟩ := Living.apply hl ha
        exact .announce hm hc
      · exact hother j _ hj rfl
    | _ => exact hkeep rfl
  | _ => exact .inr (hkeep rfl)

theorem isSome_apply (o : Option Life) (ho : o.isSome) : (Life.apply i o a).isSome := by
  unfold Life.apply
  split
  all_goals try split
  all_goals simp [ho]

/-- A life goes on. -/
theorem isSome_lifeOf_append (ho : (lifeOf h i).isSome) (u : List Action) :
    (lifeOf (h ++ u) i).isSome := by
  induction u using List.reverseRecOn with
  | nil => simpa using ho
  | append_singleton u a ih =>
    rw [← List.append_assoc, lifeOf_snoc]
    exact isSome_apply _ ih

/-- A status is assigned in a life. -/
theorem isSome_of_status (hall : Always Allowed h) {s : WorkflowStatus}
    (hs : .status i s ∈ h) : (lifeOf h i).isSome := by
  obtain ⟨h₁, h₂, rfl⟩ := List.append_of_mem hs
  obtain ⟨⟨l, hl, -⟩, -⟩ := always_iff_split.1 hall h₁ _ h₂ rfl
  exact isSome_lifeOf_append (by rw [hl]; rfl) _

/-- **Invariants of a life** in the histories whose actions are allowed and meet `C`. -/
theorem life_invariant {C : List Action → Action → Prop} {J : List Action → Life → Prop}
    (hnew : ∀ h wf, Always Allowed h → lifeOf h i = none → J (h ++ [.start i wf]) (.new wf))
    (hturn : ∀ h a l l', Allowed h a → C h a → lifeOf h i = some l → J h l →
      Life.Turn i a l l' → J (h ++ [a]) l') {t : List Action} (ht : Always Allowed t)
    (hC : Always C t) : ∀ l, lifeOf t i = some l → J t l := by
  induction t using List.reverseRecOn with
  | nil => intro l hl; simp at hl
  | append_singleton h a ih =>
    intro l' hl'
    obtain ⟨hh, ha⟩ := always_snoc.1 ht
    obtain ⟨hCh, hCa⟩ := always_snoc.1 hC
    rcases life_turn ha hl' with ⟨wf, rfl, rfl⟩ | ⟨l, hl, hstep⟩
    · exact hnew h wf hh ha
    · exact hturn h a l l' ha hCa hl (ih hh hCh l hl) hstep

/-- A body is run in a life that may call it. -/
theorem life_of_body {b : BodyRun} (ha : Allowed h (.body b)) :
    ∃ l, lifeOf h b.inst = some l ∧ b.status = l.status ∧ l.mayCall b.call := ha

/-!
## The engine lives by the life cycle

`Lived E i m w`: the trace of `w` holds allowed actions only, and the instances of
`w` are what the trace makes of them, instance `i` standing in mode `m`. Each
update of the engine moves from one mode to the next:

* `Lived.frame`, `Lived.record`, `Lived.update`: updates that leave every life as
  it is.
* `Lived.change`: fields of `i` are assigned and the action that says so recorded.
-/

open World

/-- The life of an instance, in a mode. -/
def WorkflowInstance.life (inst : WorkflowInstance) (m : Mode) : Life :=
  ⟨inst.workflow, inst.status, inst.currentStepId, inst.attempts, m⟩

/-- **The trace explains the instances.** -/
structure Lived (E : Env) (i : String) (m : Mode) (w : World) : Prop where
  allowed : Always Allowed w.trace
  life : ∀ j, lifeOf w.trace j = (w.instances.get? j).map (·.life (if j = i then m else .idle))
  /-- Ids still to be drawn are not in use. -/
  fresh : ∀ j inst, w.instances.get? j = some inst → ∃ k < w.tick, E.uuid k = j

/-- An action that changes no life. -/
def Action.Neutral (a : Action) : Prop := ∀ j l, Life.apply j l a = l

/-! ## Updates of a world -/

namespace World

variable (w : World) (i : String) (f : WorkflowInstance → WorkflowInstance)

@[simp] theorem record_trace (a : Action) : (w.record a).trace = w.trace ++ [a] := rfl
@[simp] theorem record_instances (a : Action) : (w.record a).instances = w.instances := rfl
@[simp] theorem record_tick (a : Action) : (w.record a).tick = w.tick := rfl
@[simp] theorem record_parts (a : Action) : (w.record a).parts = w.parts := rfl

@[simp] theorem update_trace : (w.update i f).trace = w.trace := by
  unfold World.update; split <;> rfl

@[simp] theorem update_tick : (w.update i f).tick = w.tick := by
  unfold World.update; split <;> rfl

@[simp] theorem update_parts : (w.update i f).parts = w.parts := by
  unfold World.update; split <;> rfl

@[simp] theorem update_instances (j : String) :
    (w.update i f).instances.get? j =
      if j = i then (w.instances.get? j).map f else w.instances.get? j := by
  unfold World.update
  split
  · rename_i inst h
    rw [Dict.get?_insert]
    by_cases hj : j = i
    · rw [if_pos hj, if_pos hj, hj, h]; rfl
    · rw [if_neg hj, if_neg hj]
  · rename_i h
    by_cases hj : j = i
    · rw [if_pos hj, hj, h]; rfl
    · rw [if_neg hj]

variable {w i}

theorem update_get? {inst : WorkflowInstance} (hi : w.instances.get? i = some inst) :
    (w.update i f).instances.get? i = some (f inst) := by
  rw [update_instances, if_pos rfl, hi]
  rfl

theorem setStatus_get? {inst : WorkflowInstance} (hi : w.instances.get? i = some inst)
    (s : WorkflowStatus) : (w.setStatus i s).instances.get? i = some { inst with status := s } :=
  update_get? (fun inst => { inst with status := s }) hi

/-! ### Dead letters -/

/-- The dead letters of a step that has used up its retries, in the queues that are wired. -/
def parked (w : World) (i : String) (inst : WorkflowInstance) (step : WorkflowStep)
    (params : List (String × Value)) (secret : Bool) (n : ℕ) (e : Exc) : World :=
  let w := if w.parts.deadLetter then
      w.record (.deadLetter
        { entryId := i ++ ":" ++ step.id ++ ":" ++ toString n, componentId := i, error := e.text
          stepId := step.id, capability := step.capability, params, attempt := n } secret)
    else w
  if w.parts.resilience.isSome then
    w.record (.resilienceDeadLetter
      { entryId := "res:" ++ i ++ ":" ++ step.id, error := e.text, attempts := n
        workflowId := inst.workflow.id, instanceId := i, stepId := step.id
        capability := step.capability, params } secret)
  else w

/-- What both dead letters keep. -/
theorem parked_rule {I : World → Prop} (secret : Bool) (h : I w)
    (hd : ∀ entry w, I w → I (w.record (.deadLetter entry secret)))
    (hr : ∀ entry w, I w → I (w.record (.resilienceDeadLetter entry secret)))
    (inst : WorkflowInstance) (step : WorkflowStep) (params : List (String × Value)) (n : ℕ)
    (e : Exc) : I (w.parked i inst step params secret n e) := by
  unfold parked
  simp only
  generalize hw₁ : (if w.parts.deadLetter then _ else w) = w₁
  have h₁ : I w₁ := by
    rw [← hw₁]
    split
    · exact hd _ _ h
    · exact h
  split
  · exact hr _ _ h₁
  · exact h₁

end World

/-- **The end of a pass**: dead letters, then a rollback or a failure. -/
theorem exhaustStep_eq (E : Env) (w : World) (i : String) (inst : WorkflowInstance)
    (step : WorkflowStep) (params : List (String × Value)) (secret : Bool) (n : ℕ) (e : Exc) :
    exhaustStep E w i inst step params secret n e =
      let w := (w.parked i inst step params secret n e).emit (.stalled i step.id e.text)
      let w := if (truthy step.compensation).isSome then compensate E w i step.id
        else w.setStatus i .failed
      w.reply E "error" [("error", .str e.text)] none := rfl

/-! ### Rollbacks -/

/-- The steps that a rollback goes through: those before the failed one, last first, and then the
failed one. -/
def rollbackSteps (steps : List WorkflowStep) (failedStep : String) : List WorkflowStep :=
  (match stepIndex steps failedStep with
    | some idx => (steps.take idx).reverse
    | none => []) ++ (stepById steps failedStep).toList

theorem compensate_eq {E : Env} {w : World} {i : String} {inst : WorkflowInstance}
    (hi : w.instances.get? i = some inst) (failedStep : String) :
    compensate E w i failedStep =
      ((rollbackSteps inst.workflow.steps failedStep).foldl (compensateFor E i failedStep)
        (w.setStatus i .compensating)).setStatus i .failed := by
  unfold compensate rollbackSteps
  rw [hi]
  simp only [List.foldl_append]
  cases stepById inst.workflow.steps failedStep with
  | none => rfl
  | some s => rfl

theorem compensate_none {E : Env} {w : World} {i : String} (hi : w.instances.get? i = none)
    (failedStep : String) : compensate E w i failedStep = w := by
  unfold compensate
  rw [hi]

/-! ## Moves of the life cycle -/

namespace Lived

variable {E : Env} {i : String} {m m' : Mode} {w w' : World}

/-- The life of `i` itself. -/
theorem life_self (h : Lived E i m w) {inst : WorkflowInstance}
    (hi : w.instances.get? i = some inst) : lifeOf w.trace i = some (inst.life m) := by
  rw [h.life, hi, if_pos rfl]
  rfl

/-- A fact about the life of `i`, as `Allowed` asks for it. -/
theorem living (h : Lived E i m w) {inst : WorkflowInstance} (hi : w.instances.get? i = some inst)
    {P : Life → Prop} (hP : P (inst.life m)) : Living w.trace i P := ⟨_, h.life_self hi, hP⟩

/-- Outside all calls no instance is singled out. -/
theorem idle_iff {j : String} : Lived E i .idle w ↔ Lived E j .idle w := by
  have key : ∀ {i j : String}, Lived E i .idle w → Lived E j .idle w := by
    rintro i j ⟨ha, hl, hf⟩
    refine ⟨ha, fun k => ?_, hf⟩
    rw [hl k, ite_self, ite_self]
  exact ⟨key, key⟩

theorem frame (h : Lived E i m w) (ht : w'.trace = w.trace) (hi : w'.instances = w.instances)
    (hk : w.tick ≤ w'.tick) : Lived E i m w' := by
  refine ⟨ht ▸ h.allowed, fun j => ?_, fun j inst hj => ?_⟩
  · rw [ht, hi]
    exact h.life j
  · rw [hi] at hj
    obtain ⟨k, hlt, hid⟩ := h.fresh j inst hj
    exact ⟨k, by omega, hid⟩

theorem record (h : Lived E i m w) {a : Action} (ha : Allowed w.trace a) (hn : a.Neutral) :
    Lived E i m (w.record a) := by
  refine ⟨always_snoc.2 ⟨h.allowed, ha⟩, fun j => ?_, h.fresh⟩
  rw [record_trace, lifeOf_snoc, hn, h.life]
  rfl

/-- Fields that the life cycle does not know are assigned. -/
theorem update (h : Lived E i m w) (j : String) {f : WorkflowInstance → WorkflowInstance}
    (hf : ∀ inst m, (f inst).life m = inst.life m) : Lived E i m (w.update j f) := by
  refine ⟨by simpa using h.allowed, fun k => ?_, fun k inst hk => ?_⟩
  · rw [update_trace, update_instances, h.life k]
    by_cases hkj : k = j
    · rw [if_pos hkj, Option.map_map]
      congr 1
      funext inst
      exact (hf inst _).symm
    · rw [if_neg hkj]
  · rw [update_instances] at hk
    rw [update_tick]
    split at hk
    · obtain ⟨inst', hi', -⟩ := Option.map_eq_some_iff.1 hk
      exact h.fresh k inst' hi'
    · exact h.fresh k inst hk

/-- **A move**: fields of `i` are assigned by `f`, and an action says how its life goes on. -/
theorem move (h : Lived E i m w) {inst : WorkflowInstance} (hi : w.instances.get? i = some inst)
    {a : Action} (f : WorkflowInstance → WorkflowInstance)
    (ht : w'.trace = w.trace ++ [a]) (hk : w.tick ≤ w'.tick)
    (hw : ∀ j, w'.instances.get? j =
      if j = i then (w.instances.get? j).map f else w.instances.get? j)
    (ha : Allowed w.trace a) (hother : ∀ j, j ≠ i → ∀ l, Life.apply j l a = l)
    (hself : Life.apply i (some (inst.life m)) a = some ((f inst).life m')) : Lived E i m' w' := by
  refine ⟨?_, fun j => ?_, fun j inst' hj => ?_⟩
  · rw [ht]
    exact always_snoc.2 ⟨h.allowed, ha⟩
  · rw [ht, lifeOf_snoc, hw, h.life j]
    by_cases hj : j = i
    · rw [if_pos hj, if_pos hj, if_pos hj, hj, hi]
      exact hself
    · rw [if_neg hj, if_neg hj, if_neg hj, hother j hj]
  · rw [hw] at hj
    have key : ∃ inst, w.instances.get? j = some inst := by
      split at hj
      · obtain ⟨inst₀, h₀, -⟩ := Option.map_eq_some_iff.1 hj
        exact ⟨inst₀, h₀⟩
      · exact ⟨inst', hj⟩
    obtain ⟨inst₀, h₀⟩ := key
    obtain ⟨k, hlt, hid⟩ := h.fresh j inst₀ h₀
    exact ⟨k, by omega, hid⟩

/-- A move that only the trace tells of. -/
theorem mark (h : Lived E i m w) {inst : WorkflowInstance} (hi : w.instances.get? i = some inst)
    {a : Action} (ha : Allowed w.trace a) (hother : ∀ j, j ≠ i → ∀ l, Life.apply j l a = l)
    (hself : Life.apply i (some (inst.life m)) a = some (inst.life m')) :
    Lived E i m' (w.record a) :=
  h.move hi id rfl le_rfl (by simp) ha hother hself

/-- A move that assigns fields. -/
theorem change (h : Lived E i m w) {inst : WorkflowInstance} (hi : w.instances.get? i = some inst)
    {a : Action} {f : WorkflowInstance → WorkflowInstance} (ha : Allowed w.trace a)
    (hother : ∀ j, j ≠ i → ∀ l, Life.apply j l a = l)
    (hself : Life.apply i (some (inst.life m)) a = some ((f inst).life m')) :
    Lived E i m' ((w.update i f).record a) :=
  h.move hi f (by simp) (by simp) (by simp) ha hother hself

theorem enter (h : Lived E i .idle w) {inst : WorkflowInstance}
    (hi : w.instances.get? i = some inst) : Lived E i .active (w.record (.enter i)) :=
  h.mark hi (h.living hi rfl) (fun _ hj _ => if_neg (Ne.symm hj)) (if_pos rfl)

/-- `execute_step` is left. -/
theorem leave (h : Lived E i m w) (hm : m = .idle ∨ m = .active ∨ m = .done)
    {inst : WorkflowInstance} (hi : w.instances.get? i = some inst) :
    Lived E i .idle (w.record (.leave i)) :=
  h.mark hi (h.living hi hm) (fun _ hj _ => if_neg (Ne.symm hj)) (if_pos rfl)

theorem verdict (h : Lived E i .idle w) {inst : WorkflowInstance}
    (hi : w.instances.get? i = some inst) (hs : inst.status = .paused) (k : String) (ok : Bool) :
    Lived E i (if ok then .approved else .rejected) (w.record (.approve i k ok)) :=
  h.mark hi (h.living hi ⟨hs, rfl⟩) (fun _ hj _ => if_neg (Ne.symm hj)) (if_pos rfl)

/-- The status of `i` is assigned. -/
theorem status (h : Lived E i m w) {inst : WorkflowInstance} (hi : w.instances.get? i = some inst)
    {s : WorkflowStatus} (hs : (inst.life m).mayBecome s)
    (hc : s = .compensating → ∃ a ∈ w.trace, a.isFailure i) :
    Lived E i (modeAfter s) (w.setStatus i s) :=
  h.change hi ⟨h.living hi hs, hc⟩ (fun _ hj _ => if_neg (Ne.symm hj)) (if_pos rfl)

theorem completed (h : Lived E i m w) {inst : WorkflowInstance}
    (hi : w.instances.get? i = some inst) (hs : (inst.life m).mayBecome .completed) :
    Lived E i .idle (w.setCompleted i) :=
  h.move hi (a := .status i .completed)
    (fun inst => { inst with status := .completed, completedAt := some w.tick })
    (by simp [setCompleted]) (by simp [setCompleted]) (by simp [setCompleted])
    ⟨h.living hi hs, by simp⟩ (fun _ hj _ => if_neg (Ne.symm hj)) (if_pos rfl)

theorem advance (h : Lived E i .active w) {inst : WorkflowInstance}
    (hi : w.instances.get? i = some inst) (hc : inst.currentStep ≠ none) (next : Option String) :
    Lived E i .done ((w.update i fun inst => { inst with currentStepId := next }).record
      (.advance i next)) :=
  h.change hi (h.living hi ⟨rfl, hc⟩) (fun _ hj _ => if_neg (Ne.symm hj)) (if_pos rfl)

/-- The attempts of the current step are counted up, to the gate or past it. -/
theorem attempt (h : Lived E i .active w) {inst : WorkflowInstance}
    (hi : w.instances.get? i = some inst) {k : String} (hc : inst.currentStepId = some k)
    (hs : inst.currentStep ≠ none) :
    Lived E i (if inst.workflow.gated k ∧ inst.attempts k + 1 = 1 then .gate else .active)
      ((w.update i fun inst' => { inst' with
        stepAttempts := inst'.stepAttempts.insert k (inst.attempts k + 1) }).record
        (.attempt i k (inst.attempts k + 1))) := by
  refine h.change hi (h.living hi ⟨rfl, hc, hs, rfl⟩) (fun _ hj _ => if_neg (Ne.symm hj)) ?_
  have hatt : Function.update inst.attempts k (inst.attempts k + 1) =
      WorkflowInstance.attempts { inst with
        stepAttempts := inst.stepAttempts.insert k (inst.attempts k + 1) } := by
    funext j
    unfold WorkflowInstance.attempts
    rw [Dict.get?_insert, Function.update_apply]
    split <;> rfl
  unfold WorkflowInstance.life
  rw [← hatt]
  exact if_pos rfl

theorem announce (h : Lived E i .announce w) {inst : WorkflowInstance}
    (hi : w.instances.get? i = some inst) {k : String} (hc : inst.currentStepId = some k)
    (reason : String) : Lived E i .idle (w.emit (.stepAwaitingApproval i k reason)) :=
  h.mark hi (h.living hi ⟨rfl, hc⟩) (fun _ hj _ => if_neg (Ne.symm hj)) (if_pos rfl)

end Lived

end Hermes

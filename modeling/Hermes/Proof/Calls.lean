import Hermes.Lib.Cursor
import Hermes.Proof.Journal

/-!
# A call of `execute_step`

* `executeStepFrom_done`: a call fails and tries again for a while, and its last
  attempt ends it.
* `attemptStep_completes`: with the cursor on no step the instance is completed.
* `Place.next_eq`: the cursor moves by first match.
* `runLoop_round`, `runLoop_raised`, `runLoop_halted`: one round of a loop.
-/

namespace Hermes

open World

variable {E : Env} {i : String} {w w' : World} {ns ms : List Note} {st : Standing}
  {inst inst' : WorkflowInstance} {step : WorkflowStep}

/-! ## Where the cursor moves -/

theorem stepIndex_eq (steps : List WorkflowStep) (k : String) :
    stepIndex steps k = (steps.map (·.id)).findIdx? (· = k) := by
  unfold stepIndex
  rw [List.findIdx?_map]
  rfl

/-- **The cursor moves by first match** in the list of step ids. -/
theorem Place.next_eq (p : Place) :
    p.next = p.cursor.bind (Cursor.after (p.workflow.steps.map (·.id))) := by
  unfold Place.next
  congr 1
  funext k
  set ids := p.workflow.steps.map (·.id) with hids
  have hidx : stepIndex p.workflow.steps k = ids.findIdx? (· = k) := stepIndex_eq _ k
  unfold Cursor.after
  by_cases hk : k ∈ ids
  · have hfind : ids.findIdx? (· = k) = some (ids.idxOf k) := by
      have hlt : ids.idxOf k < ids.length := List.idxOf_lt_length_iff.2 hk
      rw [List.findIdx?_eq_some_iff_findIdx_eq]
      exact ⟨hlt, by unfold List.idxOf; congr 1⟩
    rw [hidx, hfind, hids, List.getElem?_map]
    rfl
  · have hfind : ids.findIdx? (· = k) = none := by
      rw [List.findIdx?_eq_none_iff]
      intro x hx
      exact decide_eq_false fun h => hk (h ▸ hx)
    have hlen : ids.idxOf k = ids.length := List.idxOf_eq_length_iff.2 hk
    rw [hidx, hfind, hlen, List.getElem?_eq_none (by omega)]
    rfl

/-! ## Attempts that are tried again -/

/-- Forward bodies of a step that raised. -/
def Faulty (i : String) (step : WorkflowStep) (ms : List Note) : Prop :=
  ∀ n ∈ ms, ∃ b : BodyRun, n = .ran b ∧ b.inst = i ∧ b.call.kind = .forward ∧
    b.call.step = step ∧ ∃ e, b.result = .error e

/-- The notes of attempts at `step` that failed. -/
inductive Failures (i : String) (step : WorkflowStep) : ℕ → List Note → Prop where
  | nil : Failures i step 0 []
  | cons {n : ℕ} {ms ns : List Note} : Faulty i step ms → Failures i step n ns →
    Failures i step (n + 1) (Note.started i step.id :: ms ++ [Note.failed i step.id] ++ ns)

theorem Tried.faulty {p : BodyPlan} {cut : Bool} {R : Prop} {e : Exc}
    (h : Tried E p cut R (.error e) ms) (hk : p.call.kind = .forward) :
    Faulty p.inst p.call.step ms := by
  generalize hr : (Except.error e : Except Exc Artifact) = r at h
  cases h with
  | refused => simp [Faulty]
  | @ran b hi hc hg hs hb =>
    intro n hn
    exact ⟨b, List.mem_singleton.1 hn, hi, by rw [hc, hk], by rw [hc], e, hr.symm⟩

/-- Without a breach only forward bodies are run. -/
theorem RanBody.faulty {agent : Option String} {policy : Option SandboxPolicy} {e : Exc}
    (h : RanBody E i agent policy w inst step (.error e) ms st) (hk : e.kind ≠ .sandboxError) :
    Faulty i step ms := by
  obtain ⟨params, hdone⟩ := h.done
  generalize hr : (Except.error e : Except Exc Artifact) = r at hdone
  cases hdone with
  | guarded _ _ htried => rw [← hr] at htried; exact htried.faulty rfl
  | plain _ _ htried => rw [← hr] at htried; exact htried.faulty rfl
  | boxed _ _ _ hbox => exact absurd (hbox e hr.symm) hk
  | broken _ _ hbroken => cases hr; exact absurd hbroken hk

/-- The instance stays in its spot while its current step is tried again. -/
structure Retried (inst inst' : WorkflowInstance) (step : WorkflowStep) (n : ℕ) : Prop where
  workflow : inst'.workflow = inst.workflow
  cursor : inst'.currentStepId = inst.currentStepId
  status : inst'.status = inst.status
  count : inst'.attempts step.id = inst.attempts step.id + n
  others : ∀ k ≠ step.id, inst'.attempts k = inst.attempts k

theorem Retried.refl (inst : WorkflowInstance) (step : WorkflowStep) : Retried inst inst step 0 :=
  ⟨rfl, rfl, rfl, rfl, fun _ _ => rfl⟩

theorem Retried.trans {inst'' : WorkflowInstance} {n m : ℕ} (h : Retried inst inst' step n)
    (h' : Retried inst' inst'' step m) : Retried inst inst'' step (m + n) := by
  refine ⟨h'.workflow.trans h.workflow, h'.cursor.trans h.cursor, h'.status.trans h.status, ?_, ?_⟩
  · rw [h'.count, h.count]
    omega
  · intro k hk
    rw [h'.others k hk, h.others k hk]

theorem Retried.currentStep {n : ℕ} (h : Retried inst inst' step n) :
    inst'.currentStep = inst.currentStep := currentStep_congr h.workflow h.cursor

/-- An attempt was counted, and nothing else. -/
theorem Writes.counted (h : Writes i w w' ns (inst.counted step)) :
    ∃ inst', w'.instances.get? i = some inst' ∧ inst'.standing = inst.counted step ∧
      Retried inst inst' step 1 := by
  obtain ⟨inst', hi', hst⟩ := h.inst
  have hplace := congrArg Standing.place hst
  have hatt : inst'.stepAttempts =
      inst.stepAttempts.insert step.id (inst.attempts step.id + 1) := congrArg Place.attempts hplace
  refine ⟨inst', hi', hst, congrArg Place.workflow hplace, congrArg Place.cursor hplace,
    congrArg Standing.status hst, ?_, ?_⟩
  · unfold WorkflowInstance.attempts
    rw [hatt, Dict.get?_insert_self]
    rfl
  · intro k hk
    unfold WorkflowInstance.attempts
    rw [hatt, Dict.get?_insert_of_ne _ hk]

/-- **A call at `step`**: it failed `n` times, and this is its last attempt. -/
structure CallDone (E : Env) (i : String) (agent : Option String) (w : World)
    (inst : WorkflowInstance) (step : WorkflowStep) (retries : ℕ)
    (R : Except Exc Artifact × World) (n : ℕ) (ns : List Note) (w' : World)
    (inst' : WorkflowInstance) : Prop where
  within : n ≤ retries
  failures : Failures i step n ns
  writes : Writes i w w' ns inst'.standing
  there : w'.instances.get? i = some inst'
  again : Retried inst inst' step n
  last : ∃ policy, AttemptDone E i agent policy w' inst' step (retries - n) (some R.1, R.2)

theorem executeStepFrom_done (agent : Option String) : ∀ retries policy w inst,
    w.instances.get? i = some inst → inst.currentStep = some step →
    ∃ n ns w' inst', CallDone E i agent w inst step retries
      (executeStepFrom E i agent retries policy w) n ns w' inst' := by
  refine executeStepFrom_rule (M := fun retries policy w R => ∀ inst,
    w.instances.get? i = some inst → inst.currentStep = some step →
    ∃ n ns w' inst', CallDone E i agent w inst step retries R n ns w' inst') ?_ ?_
  · intro retries policy w r w₁ hR inst hi hs
    have hdone := attemptStep_done (E := E) hi hs agent retries policy
    rw [hR] at hdone
    exact ⟨0, [], w, inst, Nat.zero_le _, .nil, .refl (standingOf_eq hi), hi, .refl inst step,
      policy, hdone⟩
  · intro retries policy w w₁ hR ih inst hi hs
    have hdone := attemptStep_done (E := E) hi hs agent (retries + 1) policy
    rw [hR] at hdone
    cases hdone with
    | @again _ e ms _ hk hran hw =>
      obtain ⟨inst₁, hi₁, hst, hagain⟩ := hw.counted
      have hs₁ : inst₁.currentStep = some step := hagain.currentStep.trans hs
      obtain ⟨n, ns, w', inst', hcall⟩ := ih inst₁ hi₁ hs₁
      have hwrites := hw.trans hcall.writes
      refine ⟨n + 1, _, w', inst', ?_, .cons (hran.faulty hk) hcall.failures, hwrites, hcall.there,
        hagain.trans hcall.again, ?_⟩
      · have hle := hcall.within
        omega
      · have hleft : retries + 1 - (n + 1) = retries - n := by omega
        rw [hleft]
        exact hcall.last

/-- **With the cursor on no step** a call completes the instance. -/
theorem attemptStep_completes (hi : w.instances.get? i = some inst) (hs : inst.currentStep = none)
    (agent : Option String) (retries : ℕ) (policy : Option SandboxPolicy) :
    ∃ a w', attemptStep E i agent retries policy w = (some (.ok a), w') ∧
      Writes i w w' [] { inst.standing with status := .completed } := by
  unfold attemptStep
  rw [hi]
  simp only
  unfold passStep
  rw [hs]
  have hdone := (Writes.refl (standingOf_eq hi)).setCompleted.reply (E := E) "workflow"
    [("status", .str "completed")] none
  exact ⟨_, _, rfl, hdone⟩

/-! ## Rounds of a loop -/

/-- The loop of `i` has nothing left to do. -/
def Halted (w : World) (i : String) : Prop :=
  ∀ inst, w.instances.get? i = some inst → ¬ (inst.status = .running ∧ inst.currentStepId ≠ none)

theorem halted_iff (hi : w.instances.get? i = some inst) :
    Halted w i ↔ ¬ (inst.status = .running ∧ inst.currentStepId ≠ none) := by
  constructor
  · intro h
    exact h inst hi
  · intro h inst' hi'
    have hsame : inst' = inst := Option.some.inj (hi'.symm.trans hi)
    rw [hsame]
    exact h

theorem halted_of_status (hi : w.instances.get? i = some inst) (hs : inst.status ≠ .running) :
    Halted w i := by
  rw [halted_iff hi]
  rintro ⟨hrun, -⟩
  exact hs hrun

theorem runLoop_halted (hi : w.instances.get? i = some inst) (h : Halted w i) (fuel : ℕ) :
    runLoop E i fuel w = (.ok [], w) := by
  cases fuel with
  | zero => rfl
  | succ fuel =>
    unfold runLoop
    simp only [hi]
    rw [if_neg ((halted_iff hi).1 h)]

theorem runLoop_round {a : Artifact} (hi : w.instances.get? i = some inst) (h : ¬ Halted w i)
    (hcall : executeStep E i none none w = (.ok a, w')) (fuel : ℕ) :
    runLoop E i (fuel + 1) w =
      ((runLoop E i fuel w').1.map (a :: ·), (runLoop E i fuel w').2) := by
  have hrun : inst.status = .running ∧ inst.currentStepId ≠ none := by
    by_contra hno
    exact h ((halted_iff hi).2 hno)
  rw [runLoop]
  simp only [hi]
  rw [if_pos hrun, hcall]
  simp only
  generalize runLoop E i fuel w' = R
  obtain ⟨r, w₂⟩ := R
  cases r <;> rfl

theorem runLoop_raised {e : Exc} (hi : w.instances.get? i = some inst) (h : ¬ Halted w i)
    (hcall : executeStep E i none none w = (.error e, w')) (fuel : ℕ) :
    runLoop E i (fuel + 1) w = (.error e, w') := by
  have hrun : inst.status = .running ∧ inst.currentStepId ≠ none := by
    by_contra hno
    exact h ((halted_iff hi).2 hno)
  rw [runLoop]
  simp only [hi]
  rw [if_pos hrun, hcall]

/-- **The loop of a call ends**: it raises, or it is not the fuel that stopped it. -/
def Ended {α : Type} (i : String) (R : Except Exc α × World) : Prop :=
  (∃ e, R.1 = .error e) ∨ Halted R.2 i

theorem ended_map {α β : Type} (f : α → β) (R : Except Exc α × World) :
    Ended i (R.1.map f, R.2) ↔ Ended i R := by
  obtain ⟨r, w⟩ := R
  cases r with
  | error e => exact ⟨fun _ => .inl ⟨e, rfl⟩, fun _ => .inl ⟨e, rfl⟩⟩
  | ok a =>
    refine or_congr_left ⟨?_, ?_⟩
    · rintro ⟨e, he⟩
      cases he
    · rintro ⟨e, he⟩
      cases he

end Hermes

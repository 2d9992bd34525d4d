import Hermes.Proof.EngineRun
import Hermes.Proof.EngineLife

/-!
# Compensation steps

The steps that other steps name as their compensation stand in the same list as all
steps, and the cursor moves through the whole list.

* `compensations_while_compensating`: when no call of `execute_step` begins at such
  a step, their bodies are run in rollbacks only.
* `compensation_run_forward`: a workflow whose steps all succeed runs the
  compensation of its first step.
-/

namespace Hermes

open History

/-- Step `c` is named as the compensation of another step. -/
def Workflow.compensates (wf : Workflow) (c : String) : Prop :=
  ∃ s ∈ wf.steps, s.id ≠ c ∧ s.compensation = some c

instance (wf : Workflow) (c : String) : Decidable (wf.compensates c) :=
  inferInstanceAs (Decidable (∃ s ∈ wf.steps, s.id ≠ c ∧ s.compensation = some c))

/-- **Compensations are not forward steps**: their bodies are run in `COMPENSATING` only, and
only after a step of the instance has failed for good. -/
def CompensatingOnly (h : List Action) : Action → Prop
  | .body b => ∀ l ∈ lifeOf h b.inst,
      (l.workflow.compensates b.call.step.id → b.status = .compensating) ∧
      (l.workflow.compensates b.call.step.id ∨ b.call.kind = .compensation →
        ∃ a ∈ h, a.isFailure b.inst)
  | _ => True

/-- No call of `execute_step` begins at a compensation of another step. -/
def NotAtCompensation (h : List Action) : Action → Prop
  | .enter i => ∀ l ∈ lifeOf h i, ∀ k ∈ l.current, ¬ l.workflow.compensates k
  | _ => True

instance (h : List Action) : ∀ a, Decidable (NotAtCompensation h a)
  | .enter i => inferInstanceAs
      (Decidable (∀ l ∈ lifeOf h i, ∀ k ∈ l.current, ¬ l.workflow.compensates k))
  | .start .. | .leave .. | .attempt .. | .advance .. | .status .. | .approve .. | .event ..
  | .body .. | .audit .. | .sleep .. | .deadLetter .. | .resilienceDeadLetter .. =>
    inferInstanceAs (Decidable True)

/-! ## Where the cursor is in a pass -/

variable {h : List Action} {i : String} {a : Action} {l l' : Life}

structure CursorInv (i : String) (h : List Action) (l : Life) : Prop where
  active : l.mode = .active → ∀ k ∈ l.current, ¬ l.workflow.compensates k
  rollback : l.mode = .rollback → l.status = .compensating ∧ ∃ a ∈ h, a.isFailure i

theorem cursorInv_turn (ha : Allowed h a) (hC : NotAtCompensation h a) (hl : lifeOf h i = some l)
    (hJ : CursorInv i h l) (ht : Life.Turn i a l l') : CursorInv i (h ++ [a]) l' := by
  cases ht with
  | same _ =>
    refine ⟨hJ.active, fun hm => ?_⟩
    obtain ⟨hs, b, hb, hf⟩ := hJ.rollback hm
    exact ⟨hs, b, List.mem_append_left _ hb, hf⟩
  | enter hm => exact ⟨fun _ => hC l hl, by simp⟩
  | leave hm => exact ⟨by simp, by simp⟩
  | attempt hm hc hs =>
    refine ⟨fun _ => hJ.active hm, fun h => ?_⟩
    dsimp only at h
    split at h <;> cases h
  | advance hm hs => exact ⟨by simp, by simp⟩
  | @status _ s hb =>
    refine ⟨fun hm => ?_, fun hm => ?_⟩
    · cases s <;> cases hm
    · cases s with
      | compensating =>
        obtain ⟨b, hb, hf⟩ := ha.2 rfl
        exact ⟨rfl, b, List.mem_append_left _ hb, hf⟩
      | _ => cases hm
  | @verdict _ k ok hs hm => cases ok <;> exact ⟨by simp, by simp⟩
  | announce hm hc => exact ⟨by simp, by simp⟩

/-- **Compensations in the life cycle.** -/
theorem compensatingOnly_of_notAt {t : List Action} (ht : Always Allowed t)
    (hC : Always NotAtCompensation t) : Always CompensatingOnly t := by
  rw [always_iff_split]
  intro h a u hsplit
  subst hsplit
  have ha := always_iff_split.1 ht h _ u rfl
  cases a with
  | body b =>
    obtain ⟨l, hl, hst, hcall⟩ := life_of_body ha
    have hJ : CursorInv b.inst h l :=
      life_invariant (fun _ _ _ _ => ⟨by simp [Life.new], by simp [Life.new]⟩)
        (fun _ _ _ _ ha hC hl hJ ht => cursorInv_turn ha hC hl hJ ht) ht.left hC.left l hl
    intro l₀ hl₀
    obtain rfl : l = l₀ := by simpa [hl] using hl₀
    unfold Life.mayCall at hcall
    cases hkind : b.call.kind with
    | forward =>
      -- a forward body is one of the step that the cursor is on
      rw [hkind] at hcall
      obtain ⟨hm, hs, -⟩ := hcall
      obtain ⟨hcur, -⟩ := bind_stepById_eq_some.1 hs
      have hnot := hJ.active hm _ hcur
      refine ⟨fun hc => absurd hc hnot, fun hc => ?_⟩
      rcases hc with hc | hc
      · exact absurd hc hnot
      · cases hc
    | compensation =>
      rw [hkind] at hcall
      obtain ⟨hroll, hf⟩ := hJ.rollback hcall
      exact ⟨fun _ => hst.trans hroll, fun _ => hf⟩
  | _ => trivial

/-- **Compensations are not forward steps** in every run whose calls of `execute_step` do not
begin at a compensation of another step. -/
theorem compensations_while_compensating (E : Env) (ops : List EngineOp)
    (hC : Always NotAtCompensation (World.run E ops).trace) :
    Always CompensatingOnly (World.run E ops).trace :=
  compensatingOnly_of_notAt (World.run_lived E ops "").allowed hC

/-! ## A workflow that runs to its end -/

/-- The second step undoes the first. -/
def undoWorkflow : Workflow :=
  { id := "w"
    steps := [{ id := "s", capability := "c", compensation := some "undo",
                retryPolicy := { maxAttempts := 1 } },
              { id := "undo", capability := "c" }] }

/-- The first step fails and is undone. -/
def undoneRun : List EngineOp := [.start undoWorkflow, .executeStep "" none none]

theorem compensations_while_compensating_undone :
    Always NotAtCompensation (World.run (.scripted fun n => 0 < n) undoneRun).trace ∧
      Always CompensatingOnly (World.run (.scripted fun n => 0 < n) undoneRun).trace := by
  have hC : Always NotAtCompensation (World.run (.scripted fun n => 0 < n) undoneRun).trace := by
    decide +kernel
  exact ⟨hC, compensations_while_compensating (.scripted fun n => 0 < n) undoneRun hC⟩

/-- The body of step `k` of `i` was run outside of a rollback. -/
def Action.runsForward (i k : String) : Action → Bool
  | .body b => b.inst = i ∧ b.call.step.id = k ∧ b.status ≠ .compensating
  | _ => false

theorem not_compensatingOnly {t : List Action} {i k : String} {n : ℕ}
    (hc : (lifeOf (t.take n) i).any (·.workflow.compensates k))
    (hb : (t.drop n).head?.any (·.runsForward i k)) : ¬ Always CompensatingOnly t := by
  intro H
  obtain ⟨l, hl, hcomp⟩ := (Option.any_eq_true _ _).1 hc
  cases hd : t.drop n with
  | nil => rw [hd] at hb; cases hb
  | cons a u =>
    rw [hd] at hb
    have hsplit : t = t.take n ++ a :: u := by rw [← hd, List.take_append_drop]
    have hb' : a.runsForward i k := hb
    cases a with
    | body b =>
      obtain ⟨rfl, rfl, hne⟩ : b.inst = i ∧ b.call.step.id = k ∧ b.status ≠ .compensating := by
        simpa [Action.runsForward] using hb'
      exact hne ((always_iff_split.1 H _ _ u hsplit l hl).1 (by simpa using hcomp))
    | _ => cases hb'

/-- **A compensation is run forward** when all steps succeed. -/
theorem compensation_run_forward :
    ¬ ∀ (E : Env) (ops : List EngineOp), Always CompensatingOnly (World.run E ops).trace := by
  intro H
  refine not_compensatingOnly (n := 11) (i := "") (k := "undo") ?_ ?_
    (H (.scripted fun _ => true) [.start undoWorkflow, .executeAdaptive "" 2])
  · decide +kernel
  · decide +kernel

/-!
## Terminal statuses

`execute_step` does not look at the status of its instance. A call on a `FAILED`
instance runs the current step again, and may complete the instance.

* `terminal_absorbing`: when no call of `execute_step` begins on a `FAILED`
  instance, `FAILED` and `COMPLETED` are final, and a rollback is never followed by
  `COMPLETED`.
* `terminal_left`: a second call completes an instance that has failed.
-/


/-- **Terminal statuses are absorbing**: no forward body is run in one, none is changed, and
an instance that was rolled back is never completed. -/
def Absorbing (h : List Action) : Action → Prop
  | .body b => b.call.kind = .forward →
      ∀ st ∈ statusOf h b.inst, st ≠ .failed ∧ st ≠ .completed
  | .status i s => (∀ st ∈ statusOf h i, st = .failed ∨ st = .completed → s = st) ∧
      (.status i .compensating ∈ h → s ≠ .completed)
  | _ => True

/-- No call of `execute_step` begins on a `FAILED` instance. -/
def NotFailed (h : List Action) : Action → Prop
  | .enter i => ∀ st ∈ statusOf h i, st ≠ .failed
  | _ => True

instance (h : List Action) : ∀ a, Decidable (NotFailed h a)
  | .enter i => inferInstanceAs (Decidable (∀ st ∈ statusOf h i, st ≠ .failed))
  | .start .. | .leave .. | .attempt .. | .advance .. | .status .. | .approve .. | .event ..
  | .body .. | .audit .. | .sleep .. | .deadLetter .. | .resilienceDeadLetter .. =>
    inferInstanceAs (Decidable True)

/-! ## Which status goes with which mode -/

variable {h : List Action} {i : String} {a : Action} {l l' : Life}

structure StatusInv (i : String) (h : List Action) (l : Life) : Prop where
  failed : l.status = .failed → l.mode = .idle
  completed : l.status = .completed → l.step = none ∧ (l.mode = .idle ∨ l.mode = .active)
  rollback : l.mode = .rollback ↔ l.status = .compensating
  paused : l.mode = .announce ∨ l.mode = .approved ∨ l.mode = .rejected → l.status = .paused
  /-- A rollback was begun. -/
  begun : .status i .compensating ∈ h → l.status = .compensating ∨ l.status = .failed

theorem statusInv_new (hall : Always Allowed h) (hnone : lifeOf h i = none) (wf : Workflow) :
    StatusInv i (h ++ [.start i wf]) (.new wf) := by
  refine ⟨by simp [Life.new], by simp [Life.new], by simp [Life.new], by simp [Life.new], ?_⟩
  intro hs
  have hs' : Action.status i .compensating ∈ h := by simpa using hs
  have := isSome_of_status hall hs'
  rw [hnone] at this
  cases this

/-- In a pass over a step the status is not terminal, and no rollback was begun. -/
theorem StatusInv.of_active (hJ : StatusInv i h l) (hm : l.mode ≠ .idle) (hr : l.mode ≠ .rollback)
    (hs : l.mode = .active → l.step ≠ none) :
    l.status ≠ .failed ∧ l.status ≠ .completed ∧ l.status ≠ .compensating ∧
      .status i .compensating ∉ h := by
  have hfailed : l.status ≠ .failed := fun hf => hm (hJ.failed hf)
  have hcomp : l.status ≠ .compensating := fun hc => hr (hJ.rollback.2 hc)
  refine ⟨hfailed, ?_, hcomp, ?_⟩
  · intro hc
    obtain ⟨hnone, hidle | hactive⟩ := hJ.completed hc
    · exact hm hidle
    · exact hs hactive hnone
  · intro hb
    rcases hJ.begun hb with hc | hf
    · exact hcomp hc
    · exact hfailed hf

/-- A change of the status keeps what is known of it. -/
theorem StatusInv.become (hJ : StatusInv i h l) {s : WorkflowStatus} (hb : l.mayBecome s) :
    StatusInv i (h ++ [.status i s]) { l with status := s, mode := modeAfter s } := by
  cases s with
  | running =>
    have hm : l.mode = .approved := hb
    obtain ⟨-, -, -, hnb⟩ := hJ.of_active (by simp [hm]) (by simp [hm]) (by simp [hm])
    refine ⟨by simp, by simp, by simp [modeAfter], by simp [modeAfter], ?_⟩
    intro h
    exact absurd (by simpa using h) hnb
  | paused =>
    have hm : l.mode = .gate := hb
    obtain ⟨-, -, -, hnb⟩ := hJ.of_active (by simp [hm]) (by simp [hm]) (by simp [hm])
    refine ⟨by simp, by simp, by simp [modeAfter], by simp [modeAfter], ?_⟩
    intro h
    exact absurd (by simpa using h) hnb
  | completed =>
    obtain ⟨hs, hm⟩ := hb
    refine ⟨by simp, fun _ => ⟨hs, .inl rfl⟩, by simp [modeAfter], by simp [modeAfter], ?_⟩
    intro h
    -- a rollback would have left the pass
    rcases hJ.begun (by simpa using h) with hc | hc
    · rw [hJ.rollback.2 hc] at hm; simp at hm
    · rw [hJ.failed hc] at hm; simp at hm
  | compensating =>
    exact ⟨by simp, by simp, by simp [modeAfter], by simp [modeAfter], fun _ => .inl rfl⟩
  | failed =>
    exact ⟨fun _ => rfl, by simp, by simp [modeAfter], by simp [modeAfter], fun _ => .inr rfl⟩
  | draft => exact hb.elim
  | pending => exact hb.elim

/-- Each turn keeps what is known of the status. -/
theorem statusInv_turn (hC : NotFailed h a) (hl : lifeOf h i = some l) (hJ : StatusInv i h l)
    (ht : Life.Turn i a l l') : StatusInv i (h ++ [a]) l' := by
  cases ht with
  | same he =>
    refine ⟨hJ.failed, hJ.completed, hJ.rollback, hJ.paused, fun hb => ?_⟩
    rcases List.mem_append.1 hb with hb | hb
    · exact hJ.begun hb
    · rw [← List.mem_singleton.1 hb] at he
      have hst := Option.some.inj ((if_pos rfl).symm.trans he)
      exact .inl (hst ▸ rfl)
  | enter hm =>
    have hne : l.status ≠ .failed := hC _ (by simp [statusOf, hl])
    have hnr : l.status ≠ .compensating := fun hc => by
      have := hJ.rollback.2 hc
      rw [hm] at this; cases this
    refine ⟨fun hf => absurd hf hne, fun hc => ⟨(hJ.completed hc).1, .inr rfl⟩, ?_, by simp, ?_⟩
    · simpa using hnr
    · intro hb
      exact hJ.begun (by simpa using hb)
  | leave hm =>
    have hnr : l.status ≠ .compensating := fun hc => by
      have := hJ.rollback.2 hc
      rw [this] at hm; simp at hm
    refine ⟨fun _ => rfl, fun hc => ⟨(hJ.completed hc).1, .inl rfl⟩, ?_, by simp, ?_⟩
    · simpa using hnr
    · intro hb
      exact hJ.begun (by simpa using hb)
  | attempt hm hc hs =>
    obtain ⟨hf, hcmp, hr, hb⟩ := hJ.of_active (by simp [hm]) (by simp [hm]) fun _ => hs
    refine ⟨fun h => absurd h hf, fun h => absurd h hcmp, ?_, ?_, ?_⟩
    · constructor
      · intro h
        dsimp only at h
        split at h <;> cases h
      · intro h
        exact absurd h hr
    · intro h
      dsimp only at h
      split at h <;> simp at h
    · intro h
      exact absurd (by simpa using h) hb
  | advance hm hs =>
    obtain ⟨hf, hcmp, hr, hb⟩ := hJ.of_active (by simp [hm]) (by simp [hm]) fun _ => hs
    refine ⟨fun h => absurd h hf, fun h => absurd h hcmp, ?_, by simp, ?_⟩
    · simpa using hr
    · intro h
      exact absurd (by simpa using h) hb
  | status hb => exact hJ.become hb
  | @verdict _ k ok hs hm =>
    refine ⟨fun h => ?_, fun h => ?_, ?_, fun _ => hs, ?_⟩
    · simp [hs] at h
    · simp [hs] at h
    · cases ok <;> simp [hs]
    · intro h
      have := hJ.begun (by simpa using h)
      rw [hs] at this; simp at this
  | announce hm hc =>
    have hp := hJ.paused (.inl hm)
    refine ⟨fun _ => rfl, fun h => ?_, ?_, by simp, ?_⟩
    · simp [hp] at h
    · simp [hp]
    · intro h
      exact hJ.begun (by simpa using h)

/-- A terminal status is not changed. -/
theorem StatusInv.final (hJ : StatusInv i h l) {s : WorkflowStatus} (hb : l.mayBecome s)
    (hfin : l.status = .failed ∨ l.status = .completed) : s = l.status := by
  rcases hfin with hf | hc
  · have hm := hJ.failed hf
    cases s <;> simp [Life.mayBecome, hm] at hb
  · obtain ⟨hs, hm⟩ := hJ.completed hc
    rcases hm with hm | hm
    · cases s <;> simp [Life.mayBecome, hm] at hb
    · cases s <;> simp [Life.mayBecome, hm, hs] at hb
      exact hc.symm

theorem statusInv_of_notFailed {t : List Action} (ht : Always Allowed t) (hC : Always NotFailed t)
    (hl : lifeOf t i = some l) : StatusInv i t l :=
  life_invariant (fun _ wf hall hnone => statusInv_new hall hnone wf)
    (fun _ _ _ _ _ hC hl hJ ht => statusInv_turn hC hl hJ ht) ht hC l hl

/-- **The statuses of the life cycle.** -/
theorem absorbing_of_notFailed {t : List Action} (ht : Always Allowed t)
    (hC : Always NotFailed t) : Always Absorbing t := by
  rw [always_iff_split]
  intro h a u hsplit
  subst hsplit
  have ha := always_iff_split.1 ht h _ u rfl
  cases a with
  | body b =>
    intro hkind st hst
    obtain ⟨l, hl, -, hcall⟩ := life_of_body ha
    unfold Life.mayCall at hcall
    rw [hkind] at hcall
    obtain ⟨hm, hs, -⟩ := hcall
    have hJ := statusInv_of_notFailed ht.left hC.left hl
    obtain ⟨hf, hc, -, -⟩ := hJ.of_active (by simp [hm]) (by simp [hm]) fun _ => by simp [hs]
    have hst' : l.status = st := by simpa [statusOf, hl] using hst
    exact hst' ▸ ⟨hf, hc⟩
  | status i s =>
    obtain ⟨⟨l, hl, hb⟩, -⟩ := ha
    have hJ := statusInv_of_notFailed ht.left hC.left hl
    refine ⟨fun st hst hfin => ?_, fun hbegun hs => ?_⟩
    · -- from a final status only the same one may follow
      have hst' : l.status = st := by simpa [statusOf, hl] using hst
      exact hst' ▸ hJ.final hb (hst'.symm ▸ hfin)
    · -- a rollback leaves the instance compensating or failed, and neither is completed
      subst hs
      obtain ⟨-, hm⟩ := hb
      rcases hJ.begun hbegun with hc | hc
      · rw [hJ.rollback.2 hc] at hm; simp at hm
      · rw [hJ.failed hc] at hm; simp at hm
  | _ => trivial

/-- **Terminal statuses are absorbing** in every run whose calls of `execute_step` do not begin
on a `FAILED` instance. -/
theorem terminal_absorbing (E : Env) (ops : List EngineOp)
    (hC : Always NotFailed (World.run E ops).trace) : Always Absorbing (World.run E ops).trace :=
  absorbing_of_notFailed (World.run_lived E ops "").allowed hC

/-! ## A failed instance that is executed again -/

/-- The only step is not retried by the engine. -/
def singleStep : Workflow :=
  { id := "w", steps := [{ id := "s", capability := "c", retryPolicy := { maxAttempts := 1 } }] }

/-- The first body raises, the later ones return. -/
def firstFails : Env := .scripted fun n => 0 < n

/-- The step fails. -/
def failedRun : List EngineOp := [.start singleStep, .executeStep "" none none]

theorem terminal_absorbing_failed :
    Always NotFailed (World.run firstFails failedRun).trace ∧
      Always Absorbing (World.run firstFails failedRun).trace := by
  have hC : Always NotFailed (World.run firstFails failedRun).trace := by decide +kernel
  exact ⟨hC, terminal_absorbing firstFails failedRun hC⟩

def Action.isCompleted (i : String) : Action → Bool
  | .status j s => j = i ∧ s = .completed
  | _ => false

theorem not_absorbing_of_completed {t : List Action} {i : String} {n : ℕ}
    (hf : statusOf (t.take n) i = some .failed)
    (hc : (t.drop n).head?.any (·.isCompleted i)) : ¬ Always Absorbing t := by
  intro H
  cases hd : t.drop n with
  | nil => rw [hd] at hc; cases hc
  | cons c u =>
    rw [hd] at hc
    have hsplit : t = t.take n ++ c :: u := by rw [← hd, List.take_append_drop]
    have hc' : c.isCompleted i := hc
    cases c with
    | status j s =>
      obtain ⟨rfl, rfl⟩ : j = i ∧ s = .completed := by simpa [Action.isCompleted] using hc'
      have := (always_iff_split.1 H _ _ u hsplit).1 .failed (by simp [hf]) (.inl rfl)
      cases this
    | _ => cases hc'

/-- **A `FAILED` instance is left**: a second call runs the step again and completes it. -/
theorem terminal_left :
    ¬ ∀ (E : Env) (ops : List EngineOp), Always Absorbing (World.run E ops).trace := by
  intro H
  refine not_absorbing_of_completed (n := 15) (i := "") ?_ ?_
    (H firstFails (failedRun ++ [.executeStep "" none none]))
  · decide +kernel
  · decide +kernel

end Hermes

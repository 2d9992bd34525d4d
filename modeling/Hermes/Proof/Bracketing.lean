import Hermes.Proof.Journal
import Mathlib.Data.List.TakeWhile

/-!
# Bracketed journals

A step that was started is closed by one `WorkflowStepCompleted` or
`WorkflowStepFailed` before the next start and before the call is left, unless an
exception leaves `execute_step` in between.

* `bracketed_iff`: the journal of a run is bracketed exactly when the inputs of each
  attempt resolve and no body comes back with a `SandboxError`.
* `breach_unclosed`: a broken sandbox leaves its step open.
-/

namespace Hermes

open World

variable {E : Env} {i : String} {w w' : World} {ns ms : List Note}

/-- The events that close a step of `i`, by their step. -/
def closings (i : String) (ns : List Note) : List String :=
  ns.filterMap fun
    | .completed j k _ => if j = i then some k else none
    | .failed j k => if j = i then some k else none
    | _ => none

/-- Neither the start of a step of `i` nor the end of a call. -/
def within (i : String) : Note → Bool
  | .started j _ => j ≠ i
  | .left j => j ≠ i
  | _ => true

/-- Up to the next start of a step of `i`, or the end of the call. -/
def spell (i : String) (ns : List Note) : List Note := ns.takeWhile (within i)

/-- **Each start of a step is closed once**, by an event of the same step. -/
def Bracketed : List Note → Prop
  | [] => True
  | .started i k :: ns => closings i (spell i ns) = [k] ∧ Bracketed ns
  | _ :: ns => Bracketed ns

instance decidableBracketed : DecidablePred Bracketed
  | [] => isTrue trivial
  | n :: ns =>
    have := decidableBracketed ns
    match n with
    | .started i k => inferInstanceAs (Decidable (closings i (spell i ns) = [k] ∧ Bracketed ns))
    | .ran _ | .completed _ _ _ | .failed _ _ | .advanced _ | .left _ => this

/-- No exception leaves `execute_step` in the attempt: its inputs resolve, and its body does not
come back with a `SandboxError`. -/
def Point.Contained (E : Env) : Point → Prop
  | .attempt i agent _ policy _ w =>
    (∀ inst step e o, attemptInputs E i w ≠ some (inst, step, .error e, o)) ∧
      ∀ e, attemptBody E i agent policy w = some (.error e) → e.kind ≠ .sandboxError
  | .rejection _ _ _ => True

/-! ## Brackets of a longer journal -/

theorem closings_append (i : String) (ns ms : List Note) :
    closings i (ns ++ ms) = closings i ns ++ closings i ms := List.filterMap_append

/-- What follows closes nothing before its own first start. -/
theorem closings_spell_append (hms : closings i (spell i ms) = []) :
    closings i (spell i (ns ++ ms)) = closings i (spell i ns) := by
  induction ns with
  | nil => exact hms
  | cons n ns ih =>
    rw [List.cons_append]
    unfold spell at ih ⊢
    rw [List.takeWhile_cons, List.takeWhile_cons]
    cases within i n with
    | true =>
      have hcons : ∀ l, closings i (n :: l) = closings i [n] ++ closings i l :=
        closings_append i [n]
      simp only [if_true]
      rw [hcons (List.takeWhile (within i) (ns ++ ms)), hcons (List.takeWhile (within i) ns), ih]
    | false => rfl

/-- **A journal goes on** without closing what it has left open. -/
theorem bracketed_append (hms : ∀ i, closings i (spell i ms) = []) :
    Bracketed (ns ++ ms) ↔ Bracketed ns ∧ Bracketed ms := by
  induction ns with
  | nil => exact (and_iff_right trivial).symm
  | cons n ns ih =>
    cases n with
    | started i k =>
      simp only [List.cons_append, Bracketed]
      rw [closings_spell_append (hms i), ih, and_assoc]
    | _ => exact ih

/-- Notes that neither start nor close a step. -/
def Idle (ns : List Note) : Prop :=
  ∀ n ∈ ns, (∃ b, n = .ran b) ∨ (∃ j, n = .advanced j) ∨ ∃ j, n = .left j

theorem Idle.closings_eq (h : Idle ns) (i : String) : closings i ns = [] := by
  refine List.filterMap_eq_nil_iff.2 fun n hn => ?_
  rcases h n hn with ⟨b, rfl⟩ | ⟨j, rfl⟩ | ⟨j, rfl⟩ <;> rfl

theorem Idle.spell (h : Idle ns) (i : String) : closings i (Hermes.spell i ns) = [] :=
  Idle.closings_eq (fun n hn => h n ((List.takeWhile_sublist _).subset hn)) i

theorem Idle.bracketed (h : Idle ns) : Bracketed ns := by
  induction ns with
  | nil => trivial
  | cons n ns ih =>
    have hns := ih fun m hm => h m (List.mem_cons_of_mem _ hm)
    rcases h n List.mem_cons_self with ⟨b, rfl⟩ | ⟨j, rfl⟩ | ⟨j, rfl⟩ <;> exact hns

theorem Bodily.idle (h : Bodily i ns) : Idle ns := by
  intro n hn
  obtain ⟨b, rfl, -⟩ := h n hn
  exact .inl ⟨b, rfl⟩

theorem bracketed_append_idle (h : Idle ms) : Bracketed (ns ++ ms) ↔ Bracketed ns := by
  rw [bracketed_append h.spell, and_iff_left h.bracketed]

/-- **The notes of one attempt**: a start, bodies, and the events `cs` that close it. -/
theorem bracketed_attempt (ns : List Note) (k : String) {bs us : List Note} (hbs : Bodily i bs)
    (hus : Bodily i us) (cs : List Note) (hcs : ∀ n ∈ cs, (∃ a, n = .completed i k a) ∨ n = .failed i k ∨
      n = .advanced i) :
    Bracketed (ns ++ (Note.started i k :: bs ++ cs ++ us)) ↔
      Bracketed ns ∧ closings i cs = [k] := by
  have hinner : ∀ n ∈ bs ++ cs ++ us, (∃ b, n = .ran b) ∨ (∃ a, n = .completed i k a) ∨
      n = .failed i k ∨ n = .advanced i := by
    intro n hn
    rcases List.mem_append.1 hn with hn | hn
    · rcases List.mem_append.1 hn with hn | hn
      · obtain ⟨b, rfl, -⟩ := hbs n hn
        exact .inl ⟨b, rfl⟩
      · exact .inr (hcs n hn)
    · obtain ⟨b, rfl, -⟩ := hus n hn
      exact .inl ⟨b, rfl⟩
  -- nothing among these notes ends the spell that the start has begun
  have hspell : spell i (bs ++ cs ++ us) = bs ++ cs ++ us := by
    refine List.takeWhile_eq_self_iff.2 fun n hn => ?_
    rcases hinner n hn with ⟨b, rfl⟩ | ⟨a, rfl⟩ | rfl | rfl <;> rfl
  have hrest : Bracketed (bs ++ cs ++ us) := by
    generalize bs ++ cs ++ us = l at hinner
    induction l with
    | nil => trivial
    | cons n l ih =>
      have hl := ih fun m hm => hinner m (List.mem_cons_of_mem _ hm)
      rcases hinner n List.mem_cons_self with ⟨b, rfl⟩ | ⟨a, rfl⟩ | rfl | rfl <;> exact hl
  have hall : Note.started i k :: bs ++ cs ++ us = Note.started i k :: (bs ++ cs ++ us) := rfl
  rw [hall, bracketed_append]
  · simp only [Bracketed]
    rw [hspell, closings_append, closings_append, hbs.idle.closings_eq, hus.idle.closings_eq,
      List.nil_append, List.append_nil, and_iff_left hrest]
  · -- nothing is closed for another instance
    intro j
    by_cases hj : j = i
    · subst hj
      unfold spell
      simp [within, closings]
    · refine List.filterMap_eq_nil_iff.2 fun n hn => ?_
      have hn' := (List.takeWhile_sublist _).subset hn
      rcases List.mem_cons.1 hn' with rfl | hn'
      · rfl
      · rcases hinner n hn' with ⟨b, rfl⟩ | ⟨a, rfl⟩ | rfl | rfl
        · rfl
        · exact if_neg (Ne.symm hj)
        · exact if_neg (Ne.symm hj)
        · rfl

/-! ## Runs -/

/-- **An attempt that fails its step** closes it: the body has raised, and not for a breach. -/
theorem bracketed_closed {agent : Option String} {policy : Option SandboxPolicy}
    {inst : WorkflowInstance} {step : WorkflowStep} {e : Exc} {ms us : List Note}
    {st st' : Standing} {w' : World} (hk : e.kind ≠ .sandboxError)
    (hran : RanBody E i agent policy w inst step (.error e) ms st) (hus : Bodily i us)
    (hw : Writes i w w' (Note.started i step.id :: ms ++ [Note.failed i step.id] ++ us) st') :
    Bracketed (notes w'.trace) ↔ Bracketed (notes w.trace) ∧
      (∀ inst step e o, attemptInputs E i w ≠ some (inst, step, .error e, o)) ∧
      ∀ e, attemptBody E i agent policy w = some (.error e) → e.kind ≠ .sandboxError := by
  obtain ⟨params, o, hinputs⟩ := hran.resolved
  have hone : closings i [Note.failed i step.id] = [step.id] := by simp [closings]
  have hresolved : ∀ (inst' : WorkflowInstance) (step' : WorkflowStep) (e' : Exc)
      (o' : Bool × World), attemptInputs E i w ≠ some (inst', step', .error e', o') := by
    intro inst' step' e' o' heq
    rw [hinputs] at heq
    cases heq
  have hcontained : ∀ e', attemptBody E i agent policy w = some (.error e') →
      e'.kind ≠ .sandboxError := by
    intro e' heq
    rw [hran.outcome] at heq
    cases heq
    exact hk
  rw [hw.noted.eq, bracketed_attempt _ _ hran.bodily hus _ (by simp), hone]
  exact ⟨fun h => ⟨h.1, hresolved, hcontained⟩, fun h => ⟨h.1, rfl⟩⟩

/-- **One attempt.** -/
theorem bracketed_attemptStep (agent : Option String) (called : Option SandboxPolicy)
    (retries : ℕ) (policy : Option SandboxPolicy) :
    Bracketed (notes (attemptStep E i agent retries policy w).2.trace) ↔
      Bracketed (notes w.trace) ∧
        (Point.attempt i agent called policy retries w).Contained E := by
  unfold Point.Contained
  simp only
  rcases attemptStep_cases (E := E) w i agent retries policy with hidle | ⟨inst, step, hi, hs, h⟩
  · rw [hidle.noted.eq, List.append_nil, hidle.body, hidle.inputs]
    simp
  · generalize attemptStep E i agent retries policy w = R at h ⊢
    have hbodiless : Bodily i ([] : List Note) := by simp [Bodily]
    cases h with
    | paused _ hinputs _ hw =>
      have hbody : attemptBody E i agent policy w = none := by
        unfold attemptBody
        rw [hinputs]
      rw [hw.noted.eq, List.append_nil, hinputs, hbody]
      simp
    | @unresolved _ e o w' hinputs _ hw =>
      have hcs := bracketed_attempt (notes w.trace) step.id hbodiless hbodiless
        [] (by simp)
      rw [hw.noted.eq]
      have hno : closings i [] ≠ [step.id] := by simp [closings]
      constructor
      · intro hb
        exact absurd (hcs.1 hb).2 hno
      · rintro ⟨-, hres, -⟩
        exact absurd hinputs (hres inst step e o)
    | @unwired _ params o _ w' hinputs hbody _ _ _ hw =>
      have hcs := bracketed_attempt (notes w.trace) step.id hbodiless hbodiless
        [Note.failed i step.id] (by simp)
      have hone : closings i [Note.failed i step.id] = [step.id] := by simp [closings]
      rw [hone] at hcs
      rw [hw.noted.eq, hinputs, hbody]
      refine hcs.trans ?_
      simp
    | @completed _ a ms w' hran hw =>
      obtain ⟨params, o, hinputs⟩ := hran.resolved
      have hcs := bracketed_attempt (notes w.trace) step.id hran.bodily hbodiless
        [Note.completed i step.id a.id, Note.advanced i] (by simp)
      have hone : closings i [Note.completed i step.id a.id, Note.advanced i] = [step.id] := by
        simp [closings]
      rw [hone, List.append_nil] at hcs
      rw [hw.noted.eq, hinputs, hran.outcome]
      refine hcs.trans ?_
      simp
    | denied hk hran _ hw =>
      rw [← List.append_nil (_ ++ _)] at hw
      exact bracketed_closed hk hran hbodiless hw
    | @broken _ e ms st' w' hk hran hw =>
      have hcs := bracketed_attempt (notes w.trace) step.id hran.bodily hbodiless
        [] (by simp)
      rw [List.append_nil, List.append_nil] at hcs
      rw [hw.noted.eq]
      have hno : closings i [] ≠ [step.id] := by simp [closings]
      constructor
      · intro hb
        exact absurd (hcs.1 hb).2 hno
      · rintro ⟨-, -, hc⟩
        exact absurd hk (hc e hran.outcome)
    | exhausted hk hran _ hus hw => exact bracketed_closed hk hran hus.bodily hw
    | again hk hran hw =>
      rw [← List.append_nil (_ ++ _)] at hw
      exact bracketed_closed hk hran hbodiless hw

/-- **The journal of a run is bracketed** exactly when no exception leaves `execute_step`. -/
theorem bracketed_iff (E : Env) (ops : List EngineOp) :
    Bracketed (notes (World.run E ops).trace) ↔ ∀ p ∈ runPoints E ops, p.Contained E := by
  have h := (World.run_through E ops).iff (I := fun _ => True)
    (G := fun w => Bracketed (notes w.trace)) (C := Point.Contained E)
    (fun _ _ _ _ => trivial) (fun _ _ => trivial) ?_ ?_ trivial
  · rw [h]
    exact and_iff_right trivial
  · intro w w' hq _
    obtain ⟨ms, hms, hleft⟩ := hq.notes
    rw [hms]
    exact bracketed_append_idle fun n hn => .inr (.inr (hleft n hn))
  · intro p _
    cases p with
    | attempt i agent called policy retries w => exact bracketed_attemptStep agent called retries policy
    | rejection i stepId w =>
      obtain ⟨us, hus, hnoted⟩ := compensate_noted (E := E) w i stepId
      simp only [Point.after, Point.before, Point.Contained, and_true]
      rw [hnoted.eq]
      exact bracketed_append_idle hus.bodily.idle

/-- **A step left open**: its body raises, and the sandbox makes that a breach. -/
theorem breach_unclosed :
    ¬ ∀ (E : Env) (ops : List EngineOp), Bracketed (notes (World.run E ops).trace) := by
  intro H
  have hrun := H (Env.scripted fun _ => false) [.arrange { sandbox := true },
    .start { id := "w", steps := [{ id := "s", capability := "c" }] }, .executeStep "" none none]
  revert hrun
  decide +kernel

end Hermes

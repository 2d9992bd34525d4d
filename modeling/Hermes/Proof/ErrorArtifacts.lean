import Hermes.Proof.Attribution
import Hermes.Proof.Journal

/-!
# Error artifacts and completed steps

A body can fail in two ways: it raises, or it returns an artifact of type `error`, as
the MCP gateway does when a tool or its server fails. The planner's callback knows
both; `execute_step` knows the first only.

* `completed_genuine_iff`: the steps completed in a run were completed with genuine
  results exactly when no body came back with an error artifact.
* `error_completes`: a tool whose server cannot be reached completes its workflow.
-/

namespace Hermes

open History World

variable {E : Env} {i : String} {w w' : World} {ns ms : List Note}

/-- The bodies run forward for `i`. -/
def bodiesOf (i : String) (ns : List Note) : List BodyRun :=
  ns.filterMap fun
    | .ran b => if b.inst = i ∧ b.call.kind = .forward then some b else none
    | _ => none

@[simp] theorem bodiesOf_append (i : String) (ns ms : List Note) :
    bodiesOf i (ns ++ ms) = bodiesOf i ns ++ bodiesOf i ms := List.filterMap_append

/-- The artifact of the last body run for `i`, when it is one and not an error. -/
def genuineResult (i : String) (h : List Note) : Option (WorkflowStep × Artifact) :=
  (bodiesOf i h).getLast?.bind fun b =>
    match b.result with
    | .ok a => if a.type = "error" then none else some (b.call.step, a)
    | .error _ => none

/-- **A step is completed, and the instance moves past it**, only when the step's body has
returned an artifact that is no error. -/
def Genuine (h : List Note) : Note → Prop
  | .completed i k artifactId => ∃ r ∈ genuineResult i h, r.1.id = k ∧ r.2.id = artifactId
  | .advanced i => (genuineResult i h).isSome
  | _ => True

instance (h : List Note) : DecidablePred (Genuine h)
  | .completed i k artifactId =>
    inferInstanceAs (Decidable (∃ r ∈ genuineResult i h, r.1.id = k ∧ r.2.id = artifactId))
  | .advanced i => inferInstanceAs (Decidable (genuineResult i h).isSome)
  | .started _ _ => isTrue trivial
  | .ran _ => isTrue trivial
  | .failed _ _ => isTrue trivial
  | .left _ => isTrue trivial

/-- No body comes back with an error artifact. -/
def Point.Honest (E : Env) : Point → Prop
  | .attempt i agent _ policy _ w => ∀ a, attemptBody E i agent policy w = some (.ok a) →
    a.type ≠ "error"
  | .rejection _ _ _ => True

/-! ## One attempt -/

def Note.closes : Note → Bool
  | .completed _ _ _ => true
  | .advanced _ => true
  | _ => false

/-- Notes of other kinds do not matter. -/
theorem genuine_append (hms : ∀ n ∈ ms, n.closes = false) :
    Always Genuine (ns ++ ms) ↔ Always Genuine ns := by
  refine ⟨Always.left, fun h => always_append_of_forall h fun l n _ hn => ?_⟩
  have hno := hms n hn
  cases n with
  | completed | advanced => cases hno
  | _ => trivial

theorem Bodily.closes (h : Bodily i ms) : ∀ n ∈ ms, n.closes = false := by
  intro n hn
  obtain ⟨b, rfl, -⟩ := h n hn
  rfl

/-- A completed attempt is genuine exactly when its body's artifact is no error. -/
theorem genuine_completed {inst : WorkflowInstance} {step : WorkflowStep} {a : Artifact}
    {agent : Option String} {policy : Option SandboxPolicy} {st : Standing}
    (h : RanBody E i agent policy w inst step (.ok a) ms st) :
    Always Genuine (ns ++ (.started i step.id :: ms ++ [.completed i step.id a.id, .advanced i])) ↔
      Always Genuine ns ∧ a.type ≠ "error" := by
  obtain ⟨params, hdone⟩ := h.done
  obtain ⟨b, rfl, hbi, hbc, hres⟩ := hdone.returned
  set ps : List Note := [Note.started i step.id, Note.ran b] with hps
  have hbodies : bodiesOf i ps = [b] := by
    rw [hps]
    simp [bodiesOf, hbi, hbc]
  -- the body of this attempt is the last one from here on
  have hresult : ∀ l, bodiesOf i l = [] →
      genuineResult i (ns ++ ps ++ l) = if a.type = "error" then none else some (step, a) := by
    intro l hl
    unfold genuineResult
    rw [bodiesOf_append, bodiesOf_append, hbodies, hl, List.append_nil, List.getLast?_append]
    simp only [List.getLast?_singleton, Option.some_or, Option.bind_some, hres, hbc]
  have hopen : Always Genuine (ns ++ ps) ↔ Always Genuine ns :=
    genuine_append (by simp [hps, Note.closes])
  have hcompleted : Genuine (ns ++ ps) (.completed i step.id a.id) ↔ a.type ≠ "error" := by
    have hnil := hresult [] rfl
    rw [List.append_nil] at hnil
    unfold Genuine
    simp only
    rw [hnil]
    by_cases ht : a.type = "error" <;> simp [ht]
  have hadvanced : Genuine (ns ++ ps ++ [Note.completed i step.id a.id]) (.advanced i) ↔
      a.type ≠ "error" := by
    unfold Genuine
    simp only
    rw [hresult [Note.completed i step.id a.id] rfl]
    by_cases ht : a.type = "error" <;> simp [ht]
  have hsplit : ns ++ (Note.started i step.id :: [Note.ran b] ++
      [Note.completed i step.id a.id, Note.advanced i]) =
      (ns ++ ps ++ [Note.completed i step.id a.id]) ++ [Note.advanced i] := by
    rw [hps]
    simp
  rw [hsplit, always_snoc, always_snoc, hopen, hcompleted, hadvanced, and_assoc, and_self]

/-- **One attempt.** -/
theorem genuine_attempt (agent : Option String) (retries : ℕ) (policy : Option SandboxPolicy) :
    Always Genuine (notes (attemptStep E i agent retries policy w).2.trace) ↔
      Always Genuine (notes w.trace) ∧
        ∀ a, attemptBody E i agent policy w = some (.ok a) → a.type ≠ "error" := by
  rcases attemptStep_cases (E := E) w i agent retries policy with hidle | ⟨inst, step, hi, hs, h⟩
  · rw [hidle.noted.eq, List.append_nil, hidle.body]
    simp
  · generalize attemptStep E i agent retries policy w = R at h ⊢
    -- an attempt that completes nothing
    have hother : ∀ {w' : World} {ns : List Note} {st : Standing}, Writes i w w' ns st →
        (∀ n ∈ ns, n.closes = false) → (∀ a, attemptBody E i agent policy w ≠ some (.ok a)) →
        (Always Genuine (notes w'.trace) ↔ Always Genuine (notes w.trace) ∧
          ∀ a, attemptBody E i agent policy w = some (.ok a) → a.type ≠ "error") := by
      intro w' ns st hw hns hno
      rw [hw.noted.eq, genuine_append hns]
      exact ⟨fun h => ⟨h, fun a ha => absurd ha (hno a)⟩, And.left⟩
    have hfailed : ∀ {ms us : List Note}, Bodily i ms → (∀ n ∈ us, n.closes = false) →
        ∀ n ∈ .started i step.id :: ms ++ us, n.closes = false := by
      intro ms us hms hus n hn
      rcases List.mem_append.1 hn with hn | hn
      · rcases List.mem_cons.1 hn with rfl | hn
        · rfl
        · exact hms.closes n hn
      · exact hus n hn
    have hraised : ∀ {e : Exc}, attemptBody E i agent policy w = some (.error e) →
        ∀ a, attemptBody E i agent policy w ≠ some (.ok a) := by
      intro e he a ha
      rw [he] at ha
      cases ha
    cases h with
    | paused _ hinputs _ hw =>
      refine hother hw (by simp) fun a ha => ?_
      unfold attemptBody at ha
      rw [hinputs] at ha
      cases ha
    | unresolved hinputs _ hw =>
      refine hother hw (by simp [Note.closes]) fun a ha => ?_
      unfold attemptBody at ha
      rw [hinputs] at ha
      cases ha
    | unwired _ hbody _ _ _ hw =>
      exact hother hw (by simp [Note.closes]) fun a ha => by rw [hbody] at ha; cases ha
    | completed hran hw =>
      rw [hw.noted.eq, genuine_completed hran, hran.outcome]
      simp
    | denied _ hran _ hw =>
      exact hother hw (hfailed hran.bodily (by simp [Note.closes])) (hraised hran.outcome)
    | broken _ hran hw =>
      rw [← List.append_nil (_ :: _)] at hw
      exact hother hw (hfailed hran.bodily (by simp)) (hraised hran.outcome)
    | exhausted _ hran _ hus hw =>
      rw [List.append_assoc] at hw
      refine hother hw (hfailed hran.bodily fun n hn => ?_) (hraised hran.outcome)
      rcases List.mem_append.1 hn with hn | hn
      · rw [List.mem_singleton.1 hn]
        rfl
      · exact hus.bodily.closes n hn
    | again _ hran hw =>
      exact hother hw (hfailed hran.bodily (by simp [Note.closes])) (hraised hran.outcome)

/-! ## Runs -/

/-- **No error is recorded as a success** in a run exactly when no body of it comes back with an
error artifact. -/
theorem completed_genuine_iff (E : Env) (ops : List EngineOp) :
    Always Genuine (notes (World.run E ops).trace) ↔ ∀ p ∈ runPoints E ops, p.Honest E := by
  have h := (World.run_through E ops).iff (I := fun _ => True)
    (G := fun w => Always Genuine (notes w.trace)) (C := Point.Honest E)
    (fun _ _ _ _ => trivial) (fun _ _ => trivial) ?_ ?_ trivial
  · have hnil : Always Genuine (notes ({} : World).trace) := always_nil
    rw [h, and_iff_right hnil]
  · intro w w' hq _
    obtain ⟨ms, hms, hleft⟩ := hq.notes
    rw [hms]
    refine genuine_append fun n hn => ?_
    obtain ⟨j, rfl⟩ := hleft n hn
    rfl
  · intro p _
    cases p with
    | attempt i agent called policy retries w => exact genuine_attempt agent retries policy
    | rejection i stepId w =>
      obtain ⟨us, hus, hnoted⟩ := compensate_noted (E := E) w i stepId
      simp only [Point.after, Point.before, Point.Honest, and_true]
      rw [hnoted.eq]
      exact genuine_append hus.bodily.closes

/-- **An error completes a workflow**: the server of the tool cannot be reached, and the gateway
says so in an artifact. -/
theorem error_completes :
    ¬ ∀ (E : Env) (ops : List EngineOp), Always Genuine (notes (World.run E ops).trace) := by
  intro H
  have hrun := H failingTool [.arrange { mcp := true }, .start toolWorkflow, .executeStep "" none none]
  revert hrun
  decide +kernel

end Hermes

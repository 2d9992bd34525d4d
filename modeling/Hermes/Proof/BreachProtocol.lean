import Hermes.Spec.Sandbox

/-!
# What a breach takes

Every way in which a coroutine goes beyond its sandbox comes to `_breach` once, but for a
`SandboxError` of its own: that one is taken for a breach of this run.

* `breach_cases`: how `_breach` ends.
* `handle_breach`: what `_breach` raises inside of the `try` is not handled again.
* `sandbox_protocol_iff`: the runs that keep to the protocol.
-/

namespace Hermes

namespace Sandbox

variable {α : Type} {policy : SandboxPolicy} {m : Readings} {cleanup : Option (Except Raised Unit)}
  {context : List (String × String)}

/-- **`_breach`** raises a `SandboxError` and has done what a breach takes, unless its hook raises
what is no `Exception`. -/
theorem breach_cases (violation : Violation) (cleanup : Option (Except Raised Unit)) (id : String) :
    (∃ timeout policy violation' made, breach (α := α) violation cleanup id =
        (.error (.sandboxError timeout policy violation'), made) ∧ BreachedOnce cleanup made) ∨
      ∃ text made, breach (α := α) violation cleanup id = (.error (.base text), made) := by
  unfold breach
  cases cleanup with
  | none => exact .inl ⟨_, _, _, _, rfl, _, _, _, _, _, _, rfl⟩
  | some ends =>
    cases ends with
    | ok done => exact .inl ⟨_, _, _, _, rfl, _, _, _, _, _, _, rfl⟩
    | error exc =>
      cases exc with
      | base text => exact .inr ⟨text, _, rfl⟩
      | timeout text => exact .inl ⟨_, _, _, _, rfl, _, _, _, _, _, _, rfl⟩
      | sandboxError timeout policy violation' => exact .inl ⟨_, _, _, _, rfl, _, _, _, _, _, _, rfl⟩
      | exception text => exact .inl ⟨_, _, _, _, rfl, _, _, _, _, _, _, rfl⟩

/-- A result of `run` that keeps to the protocol. -/
def Kept (cleanup : Option (Except Raised Unit)) : Except Raised α × List Action → Prop
  | (.error (.sandboxError _ _ _), made) => BreachedOnce cleanup made
  | (.ok _, made) => made = []
  | (.error _, _) => True

theorem kept_breach (cleanup : Option (Except Raised Unit)) (violation : Violation) (id : String) :
    Kept cleanup (breach (α := α) violation cleanup id) := by
  rcases breach_cases (α := α) violation cleanup id with ⟨_, _, _, made, heq, honce⟩ | ⟨_, made, heq⟩
  · rw [heq]
    exact honce
  · rw [heq]
    trivial

/-- **What `_breach` raises** inside of the `try` goes through the `except` clauses as it is. -/
theorem handle_breach (violation : Violation) (id : String) {exc : Raised} {made : List Action}
    (h : breach (α := α) violation cleanup id = (.error exc, made)) :
    handle (α := α) policy cleanup id exc = (.error exc, []) := by
  rcases breach_cases (α := α) violation cleanup id with ⟨_, _, _, _, heq, -⟩ | ⟨_, _, heq⟩
  · rw [heq] at h
    cases h
    rfl
  · rw [heq] at h
    cases h
    rfl

/-- **The protocol of a breach** is kept by a run exactly when its coroutine raises no
`SandboxError`. -/
theorem sandbox_protocol_iff (ends : Except Raised α) (policy : SandboxPolicy) (m : Readings)
    (cleanup : Option (Except Raised Unit)) (context : List (String × String)) :
    FollowsProtocol ends policy m cleanup context ↔
      ¬ ∃ timeout policy violation, ends = .error (.sandboxError timeout policy violation) := by
  show Kept cleanup (run ends policy m cleanup context) ↔ _
  cases ends with
  | ok result =>
    refine iff_of_true ?_ (by rintro ⟨_, _, _, h⟩; cases h)
    unfold run
    cases hcheck : (m.check policy).head? with
    | none => exact rfl
    | some violation =>
      dsimp only
      have hkept := kept_breach (α := α) cleanup violation (aggregateId context)
      cases hbreach : breach (α := α) violation cleanup (aggregateId context) with
      | mk raised made =>
        rw [hbreach] at hkept
        cases raised with
        | ok result' => exact hkept
        | error exc =>
          dsimp only
          rw [handle_breach violation (aggregateId context) hbreach, List.append_nil]
          exact hkept
  | error exc =>
    cases exc with
    | timeout text => exact iff_of_true (kept_breach _ _ _) (by rintro ⟨_, _, _, h⟩; cases h)
    | exception text => exact iff_of_true (kept_breach _ _ _) (by rintro ⟨_, _, _, h⟩; cases h)
    | base text => exact iff_of_true trivial (by rintro ⟨_, _, _, h⟩; cases h)
    | sandboxError timeout policy' violation =>
      refine iff_of_false ?_ (not_not.2 ⟨_, _, _, rfl⟩)
      rintro ⟨_, _, _, _, _, _, hmade⟩
      cases hmade

/-- A run around another one whose coroutine takes too long: its hook is not called. -/
theorem nested_breach :
    ¬ FollowsProtocol (α := ℕ)
      (run (.error (.timeout "")) {} {} (some (.ok ())) [("agent_id", "a1")]).1 {} {} (some (.ok ()))
      [("workflow_id", "w1")] := by
  rintro ⟨_, _, _, _, _, _, hmade⟩
  cases hmade

end Sandbox

end Hermes

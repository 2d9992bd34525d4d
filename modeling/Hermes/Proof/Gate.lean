import Hermes.Proof.EngineRun
import Hermes.Proof.EngineLife

/-!
# The approval gate

A step that requires approval pauses its instance on its first attempt. A second
call of `execute_step` on the paused instance runs the body all the same, and
`approve` resumes the instance for whatever step id it is given.

* `gate_holds`: when no call begins at a gate that was not opened, and approvals
  name the current step, the body of a gated step is run only after its approval
  was asked for and given.
* `gate_broken`: two calls of `execute_step` run the body without any approval.
-/

namespace Hermes

open History

/-- The approval of step `k` was asked for, and given after that. -/
def Approved (h : List Action) (i k : String) : Prop :=
  ∃ h₁ h₂, h = h₁ ++ h₂ ∧ (∃ reason, .event (.stepAwaitingApproval i k reason) ∈ h₁) ∧
    .approve i k true ∈ h₂

/-- **The approval gate**: a step that requires approval is run after its approval. -/
def Gated (h : List Action) : Action → Prop
  | .body b => b.call.kind = .forward → b.call.step.requiresApproval →
      Approved h b.inst b.call.step.id
  | _ => True

/-- The current step is not held at its gate: it requires no approval, was not stopped at the
gate just before, or the instance was set running again. -/
def Life.gateOpen (l : Life) : Prop :=
  ∀ k ∈ l.current, l.workflow.gated k → l.attempts k = 1 → l.status = .running

/-- No call of `execute_step` begins at a closed gate, and what is approved is the current
step. -/
def GateKept (h : List Action) : Action → Prop
  | .enter i => ∀ l ∈ lifeOf h i, l.gateOpen
  | .approve i k true => ∀ l ∈ lifeOf h i, l.current = some k
  | _ => True

instance (l : Life) : Decidable l.gateOpen :=
  inferInstanceAs (Decidable (∀ k ∈ l.current, _))

instance (h : List Action) : ∀ a, Decidable (GateKept h a)
  | .enter i => inferInstanceAs (Decidable (∀ l ∈ lifeOf h i, l.gateOpen))
  | .approve i k true => inferInstanceAs (Decidable (∀ l ∈ lifeOf h i, l.current = some k))
  | .approve _ _ false | .start .. | .leave .. | .attempt .. | .advance .. | .status .. | .event ..
  | .body .. | .audit .. | .sleep .. | .deadLetter .. | .resilienceDeadLetter .. =>
    inferInstanceAs (Decidable True)

/-! ## What is known of a step at its gate -/

variable {h : List Action} {i k : String} {a : Action} {l l' : Life}

theorem Approved.snoc (hap : Approved h i k) : Approved (h ++ [a]) i k := by
  obtain ⟨h₁, h₂, rfl, hask, hgive⟩ := hap
  exact ⟨h₁, h₂ ++ [a], List.append_assoc _ _ _, hask, List.mem_append_left _ hgive⟩

/-- The approval of step `k` was asked for. -/
def Asked (h : List Action) (i k : String) : Prop :=
  ∃ reason, .event (.stepAwaitingApproval i k reason) ∈ h

theorem Asked.snoc (hask : Asked h i k) : Asked (h ++ [a]) i k := by
  obtain ⟨r, hr⟩ := hask
  exact ⟨r, List.mem_append_left _ hr⟩

/-- The instance waits at the gate of the current step, or was failed there. -/
def Life.Waits (h : List Action) (i k : String) (l : Life) : Prop :=
  l.mode = .gate ∨ (l.mode = .announce ∧ l.status ≠ .running) ∨
    (Asked h i k ∧ ((l.mode = .idle ∧ l.status ≠ .running) ∨ l.mode = .rejected ∨
      l.mode = .rollback))

/-- Every gated step that was attempted is approved, or waits at its gate. -/
def GateInv (i : String) (h : List Action) (l : Life) : Prop :=
  ∀ k, l.workflow.gated k → 1 ≤ l.attempts k →
    Approved h i k ∨ (l.attempts k = 1 ∧ l.current = some k ∧ l.Waits h i k)

theorem Life.Waits.not_active (hw : l.Waits h i k) : l.mode ≠ .active ∧ l.mode ≠ .done ∧
    l.mode ≠ .approved := by
  rcases hw with hm | ⟨hm, -⟩ | ⟨-, ⟨hm, -⟩ | hm | hm⟩ <;> rw [hm] <;> decide

/-- In a pass over a step nothing waits. -/
theorem GateInv.approved (hJ : GateInv i h l)
    (hm : l.mode = .active ∨ l.mode = .done ∨ l.mode = .approved) (hg : l.workflow.gated k)
    (hk : 1 ≤ l.attempts k) : Approved h i k := by
  rcases hJ k hg hk with hap | ⟨-, -, hw⟩
  · exact hap
  · obtain ⟨h₁, h₂, h₃⟩ := hw.not_active
    rcases hm with hm | hm | hm <;> contradiction

theorem Life.Waits.snoc (hw : l.Waits h i k) : l.Waits (h ++ [a]) i k := by
  rcases hw with hw | hw | ⟨hask, hw⟩
  · exact .inl hw
  · exact .inr (.inl hw)
  · exact .inr (.inr ⟨hask.snoc, hw⟩)

/-- Off the gate, an instance that waits was asked for the approval. -/
theorem Life.Waits.asked (hw : l.Waits h i k) (hg : l.mode ≠ .gate) (ha : l.mode ≠ .announce) :
    Asked h i k ∧ ((l.mode = .idle ∧ l.status ≠ .running) ∨ l.mode = .rejected ∨
      l.mode = .rollback) := by
  rcases hw with hm | ⟨hm, -⟩ | hasked
  · exact absurd hm hg
  · exact absurd hm ha
  · exact hasked

/-- An instance that waits is paused, rolled back or failed, if its status changes. -/
theorem Life.Waits.status (hw : l.Waits h i k) {s : WorkflowStatus} (hb : l.mayBecome s) :
    Life.Waits (h ++ [a]) i k { l with status := s, mode := modeAfter s } := by
  obtain ⟨hactive, hdone, happroved⟩ := hw.not_active
  cases s with
  | running => exact absurd hb happroved
  | paused => exact .inr (.inl ⟨rfl, by simp⟩)
  | completed =>
    rcases hb.2 with hm | hm
    · contradiction
    · contradiction
  | compensating =>
    have hm : l.mode = .rejected := by
      rcases hb with ⟨hm, -⟩ | hm
      · contradiction
      · exact hm
    obtain ⟨hask, -⟩ := hw.asked (by simp [hm]) (by simp [hm])
    exact .inr (.inr ⟨hask.snoc, .inr (.inr rfl)⟩)
  | failed =>
    have hm : l.mode = .rejected ∨ l.mode = .rollback := by
      rcases hb with ⟨hm, -⟩ | hm
      · contradiction
      · exact hm
    have hg : l.mode ≠ .gate := by
      rcases hm with hm | hm
      · simp [hm]
      · simp [hm]
    have ha : l.mode ≠ .announce := by
      rcases hm with hm | hm
      · simp [hm]
      · simp [hm]
    obtain ⟨hask, -⟩ := hw.asked hg ha
    exact .inr (.inr ⟨hask.snoc, .inl ⟨rfl, by simp⟩⟩)
  | draft => exact hb.elim
  | pending => exact hb.elim

/-- Each turn keeps the gate. -/
theorem gateInv_turn (hC : GateKept h a) (hl : lifeOf h i = some l) (hJ : GateInv i h l)
    (ht : Life.Turn i a l l') : GateInv i (h ++ [a]) l' := by
  intro k hg hk
  cases ht with
  | same _ =>
    rcases hJ k hg hk with hap | ⟨h₁, h₂, hw⟩
    · exact .inl hap.snoc
    · exact .inr ⟨h₁, h₂, hw.snoc⟩
  | enter hm =>
    rcases hJ k hg hk with hap | ⟨h₁, h₂, hw⟩
    · exact .inl hap.snoc
    · -- a call that begins at a closed gate
      have hrun := hC l hl k h₂ hg h₁
      obtain ⟨-, ⟨-, hw⟩ | hw | hw⟩ := hw.asked (by simp [hm]) (by simp [hm])
      · exact absurd hrun hw
      · simp [hm] at hw
      · simp [hm] at hw
  | leave hm =>
    rcases hJ k hg hk with hap | ⟨h₁, h₂, hw⟩
    · exact .inl hap.snoc
    · obtain ⟨h₃, h₄, -⟩ := hw.not_active
      have hidle : l.mode = .idle := by
        rcases hm with hm | hm | hm
        · exact hm
        · contradiction
        · contradiction
      obtain ⟨hask, hw⟩ := hw.asked (by simp [hidle]) (by simp [hidle])
      refine .inr ⟨h₁, h₂, .inr (.inr ⟨hask.snoc, ?_⟩)⟩
      rw [hidle] at hw
      simpa using hw
  | @attempt _ k' hm hc hs =>
    by_cases hkk : k = k'
    · subst hkk
      by_cases h0 : l.attempts k = 0
      · -- the first attempt stops at the gate
        refine .inr ⟨?_, hc, .inl ?_⟩
        · simp [h0]
        · simp only [h0, zero_add, and_true]
          exact if_pos hg
      · exact .inl (hJ.approved (.inl hm) hg (by omega)).snoc
    · have hk' : 1 ≤ l.attempts k := by simpa [Function.update_of_ne hkk] using hk
      exact .inl (hJ.approved (.inl hm) hg hk').snoc
  | advance hm hs => exact .inl (hJ.approved (.inl hm) hg hk).snoc
  | @status _ s hb =>
    rcases hJ k hg hk with hap | ⟨h₁, h₂, hw⟩
    · exact .inl hap.snoc
    · exact .inr ⟨h₁, h₂, hw.status hb⟩
  | @verdict _ k' ok hs hm =>
    rcases hJ k hg hk with hap | ⟨h₁, h₂, hw⟩
    · exact .inl hap.snoc
    · obtain ⟨hask, -⟩ := hw.asked (by simp [hm]) (by simp [hm])
      cases ok with
      | true =>
        have hcur : l.current = some k' := hC l hl
        rw [h₂, Option.some.injEq] at hcur
        subst hcur
        exact .inl ⟨h, [_], rfl, hask, List.mem_singleton_self _⟩
      | false => exact .inr ⟨h₁, h₂, .inr (.inr ⟨hask.snoc, .inr (.inl rfl)⟩)⟩
  | @announce _ k' r hm hc =>
    rcases hJ k hg hk with hap | ⟨h₁, h₂, hw⟩
    · exact .inl hap.snoc
    · have hne : l.status ≠ .running := by
        rcases hw with hw | ⟨-, hw⟩ | ⟨-, ⟨-, hw⟩ | hw | hw⟩
        · rw [hm] at hw; cases hw
        · exact hw
        · exact hw
        · rw [hm] at hw; cases hw
        · rw [hm] at hw; cases hw
      rw [h₂, Option.some.injEq] at hc
      subst hc
      exact .inr ⟨h₁, h₂, .inr (.inr ⟨⟨r, by simp⟩, .inl ⟨rfl, hne⟩⟩)⟩

theorem gateInv_new (wf : Workflow) : GateInv i h (.new wf) := by
  intro k _ hk
  have : (Life.new wf).attempts k = 0 := rfl
  omega

/-- **The gate of the life cycle.** -/
theorem gated_of_kept {t : List Action} (ht : Always Allowed t) (hC : Always GateKept t) :
    Always Gated t := by
  rw [always_iff_split]
  intro h a u hsplit
  subst hsplit
  cases a with
  | body b =>
    intro hkind happ
    have ha := always_iff_split.1 ht h _ u rfl
    obtain ⟨l, hl, -, hcall⟩ := life_of_body ha
    unfold Life.mayCall at hcall
    rw [hkind] at hcall
    obtain ⟨hm, hs, hatt⟩ := hcall
    obtain ⟨-, hby⟩ := bind_stepById_eq_some.1 hs
    have hg : l.workflow.gated b.call.step.id := by
      unfold Workflow.gated
      rw [hby]
      exact happ
    have hJ := life_invariant (i := b.inst) (J := GateInv b.inst) (fun _ wf _ _ => gateInv_new wf)
      (fun _ _ _ _ _ hC hl hJ ht => gateInv_turn hC hl hJ ht) ht.left hC.left l hl
    have := hatt happ
    exact hJ.approved (.inl hm) hg (by omega)
  | _ => trivial

/-- **The approval gate.** In every run whose calls begin at open gates only and whose
approvals name the current step, a step that requires approval is run forward only after
`approve` was called for it, and that after its approval was asked for. -/
theorem gate_holds (E : Env) (ops : List EngineOp) (hk : Always GateKept (World.run E ops).trace) :
    Always Gated (World.run E ops).trace :=
  gated_of_kept (World.run_lived E ops "").allowed hk

/-! ## A gate that is not opened -/

/-- The only step requires approval. -/
def approvedWorkflow : Workflow :=
  { id := "w", steps := [{ id := "s", capability := "c", requiresApproval := true }] }

/-- The workflow is started, stops at its gate, and is approved. -/
def approvedRun : List EngineOp :=
  [.start approvedWorkflow, .executeStep "" none none, .approve "" "s" true 3]

theorem gate_holds_approved :
    Always GateKept (World.run (.scripted fun _ => true) approvedRun).trace ∧
      Always Gated (World.run (.scripted fun _ => true) approvedRun).trace := by
  have hk : Always GateKept (World.run (.scripted fun _ => true) approvedRun).trace := by
    decide +kernel
  exact ⟨hk, gate_holds (.scripted fun _ => true) approvedRun hk⟩

def Action.isGatedBody : Action → Bool
  | .body b => b.call.kind = .forward ∧ b.call.step.requiresApproval
  | _ => false

def Action.isApproval : Action → Bool
  | .approve .. => true
  | _ => false

theorem not_gated_of_no_approval {t : List Action} (hb : t.any (·.isGatedBody))
    (hn : t.any (·.isApproval) = false) : ¬ Always Gated t := by
  intro H
  obtain ⟨a, ha, hbody⟩ := List.any_eq_true.1 hb
  obtain ⟨h, u, rfl⟩ := List.append_of_mem ha
  have hg := always_iff_split.1 H h a u rfl
  cases a with
  | body b =>
    obtain ⟨hkind, happ⟩ : b.call.kind = .forward ∧ b.call.step.requiresApproval = true := by
      simpa [Action.isGatedBody] using hbody
    obtain ⟨h₁, h₂, rfl, -, happroved⟩ := hg hkind happ
    have : (Action.approve b.inst b.call.step.id true).isApproval = false := by
      simp only [List.any_eq_false] at hn
      simpa using hn _ (by simp [happroved])
    cases this
  | _ => cases hbody

/-- **A gate is passed by calling `execute_step` twice.** -/
theorem gate_broken : ¬ ∀ (E : Env) (ops : List EngineOp), Always Gated (World.run E ops).trace := by
  intro H
  refine not_gated_of_no_approval ?_ ?_ (H (.scripted fun _ => true)
    [.start approvedWorkflow, .executeStep "" none none, .executeStep "" none none])
  · decide +kernel
  · decide +kernel

end Hermes

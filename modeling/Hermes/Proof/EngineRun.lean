import Hermes.Proof.EngineSteps
import Hermes.Proof.PlanHosts

/-!
# Every run of the engine lives by the life cycle

`World.run_lived`: after any list of operations, with any bodies, any planner and
any collaborators, the trace holds allowed actions only and explains the
instances.
-/

namespace Hermes

open History World

variable {E : Env} {i : String} {w : World}

/-- No call is under way. -/
def Quiescent (E : Env) (w : World) : Prop := ∀ i, Lived E i .idle w

theorem Lived.quiescent (h : Lived E i .idle w) : Quiescent E w := fun _ => idle_iff.1 h

theorem Quiescent.frame {w' : World} (h : Quiescent E w) (ht : w'.trace = w.trace)
    (hi : w'.instances = w.instances) (hk : w.tick ≤ w'.tick) : Quiescent E w' :=
  fun j => (h j).frame ht hi hk

/-- **`execute_step` with its retries.** -/
theorem executeStepFrom_lived (agent : Option String) :
    ∀ retries policy {w : World}, Lived E i .active w → (w.instances.get? i).isSome →
      Left E i (executeStepFrom E i agent retries policy w).2 := by
  intro retries
  induction retries with
  | zero =>
    intro policy w h hsome
    obtain ⟨inst, hi⟩ := Option.isSome_iff_exists.1 hsome
    unfold executeStepFrom
    simp only [hi]
    have hpass := passStep_lived h hi agent policy
    generalize passStep E w i inst agent policy = R at hpass ⊢
    cases hpass with
    | done hl => exact hl
    | raised hl hi₁ hcur =>
      refine exhaustStep_lived (Lived.record hl ?_ ?_) hi₁ hcur _ _ _ _ _ _
      · exact trivial
      · exact fun _ _ => rfl
  | succ retries ih =>
    intro policy w h hsome
    obtain ⟨inst, hi⟩ := Option.isSome_iff_exists.1 hsome
    unfold executeStepFrom
    simp only [hi]
    have hpass := passStep_lived h hi agent policy
    generalize passStep E w i inst agent policy = R at hpass ⊢
    cases hpass with
    | done hl => exact hl
    | raised hl hi₁ hcur =>
      -- the failure and the backoff are recorded, then the next attempt begins
      apply ih
      · refine Lived.record ?_ trivial (fun _ _ => rfl)
        exact hl.record trivial (fun _ _ => rfl)
      · rw [record_instances]
        unfold World.emit
        rw [record_instances, hi₁]
        rfl

theorem executeStep_lived (h : Quiescent E w) (i : String) (agent : Option String)
    (policy : Option SandboxPolicy) : Quiescent E (executeStep E i agent policy w).2 := by
  unfold executeStep
  cases hi : w.instances.get? i with
  | none => exact h
  | some inst =>
    simp only
    obtain ⟨⟨m, hm, hl⟩, hsome⟩ :=
      executeStepFrom_lived agent inst.retries policy ((h i).enter hi) (by rw [record_instances, hi]; rfl)
    obtain ⟨inst', hi'⟩ := Option.isSome_iff_exists.1 hsome
    exact (hl.leave hm hi').quiescent

theorem runLoop_lived (i : String) :
    ∀ fuel {w : World}, Quiescent E w → Quiescent E (runLoop E i fuel w).2 := by
  intro fuel
  induction fuel with
  | zero => intro w h; exact h
  | succ fuel ih =>
    intro w h
    unfold runLoop
    cases w.instances.get? i with
    | none => exact h
    | some inst =>
      simp only
      split
      · have hstep := executeStep_lived h i none none
        generalize executeStep E i none none w = R at hstep ⊢
        obtain ⟨r, w₁⟩ := R
        cases r with
        | error e => exact hstep
        | ok artifact =>
          have hloop := ih hstep
          simp only
          generalize runLoop E i fuel w₁ = R at hloop ⊢
          obtain ⟨r, w₂⟩ := R
          cases r <;> exact hloop
      · exact h

theorem approve_lived (h : Quiescent E w) (i stepId : String) (approved : Bool) (fuel : ℕ) :
    Quiescent E (approve E i stepId approved fuel w).2 := by
  unfold approve
  cases hi : w.instances.get? i with
  | none => exact h
  | some inst =>
    simp only
    split
    · rename_i hs
      have hv := (h i).verdict hi hs stepId approved
      cases approved with
      | true =>
        have hrun := hv.status (s := .running) hi rfl (by simp)
        have hloop := runLoop_lived i fuel hrun.quiescent
        simp only [if_true]
        generalize runLoop E i fuel _ = R at hloop ⊢
        obtain ⟨r, w₁⟩ := R
        cases r <;> exact hloop
      | false =>
        simp only [Bool.false_eq_true, if_false] at hv ⊢
        have hcause : ∃ a ∈ (w.record (.approve i stepId false)).trace, a.isFailure i :=
          ⟨_, List.mem_append_right _ (List.mem_singleton_self _), by simp [Action.isFailure]⟩
        split
        · exact (compensate_lived hv hi (.inr rfl) hcause stepId).1.quiescent
        · exact (hv.status (s := .failed) hi (.inr (.inl rfl)) (by simp)).quiescent
    · exact h

theorem start_lived (h : Quiescent E w) (workflow : Workflow) :
    Quiescent E (start E workflow w).2 := by
  -- the id is drawn here, so no instance has it yet
  have hnone : w.instances.get? (E.uuid w.tick) = none := by
    cases hi : w.instances.get? (E.uuid w.tick) with
    | none => rfl
    | some inst =>
      obtain ⟨k, hk, hid⟩ := (h "").fresh _ _ hi
      have := E.uuid_injective hid
      omega
  unfold start
  simp only
  set i := E.uuid w.tick
  set inst : WorkflowInstance :=
    { workflow, status := .running, currentStepId := workflow.steps.head?.map (·.id)
      startedAt := w.tick } with hinst
  set w₁ := { w with instances := w.instances.insert i inst, tick := w.tick + 1 }.record
    (.start i workflow) with hw₁
  have h₁ : Quiescent E w₁ := by
    intro j
    obtain ⟨hallowed, hlife, hfresh⟩ := h j
    refine ⟨always_snoc.2 ⟨hallowed, ?_⟩, fun k => ?_, fun k inst' hk => ?_⟩
    · show lifeOf w.trace i = none
      rw [hlife, hnone]
      rfl
    · show lifeOf (w.trace ++ [.start i workflow]) k = ((w.instances.insert i inst).get? k).map _
      rw [lifeOf_snoc, hlife, Dict.get?_insert]
      by_cases hki : k = i
      · rw [if_pos hki, ite_self]
        exact if_pos hki.symm
      · rw [if_neg hki]
        exact if_neg (Ne.symm hki)
    · have hk' : (w.instances.insert i inst).get? k = some inst' := hk
      rw [Dict.get?_insert] at hk'
      split at hk'
      · rename_i hki
        exact ⟨w.tick, Nat.lt_succ_self _, hki.symm⟩
      · obtain ⟨n, hn, hid⟩ := hfresh k inst' hk'
        exact ⟨n, Nat.lt_succ_of_lt hn, hid⟩
  have htick : ∀ (kvs : List (String × String)) (f : Vault → ℕ → String × String → Vault) s,
      s.2 ≤ (kvs.foldl (fun (s : Vault × ℕ) kv => (f s.1 s.2 kv, s.2 + 1)) s).2 := by
    intro kvs f
    induction kvs with
    | nil => intro s; exact le_rfl
    | cons kv kvs ih => intro s; exact (Nat.le_succ _).trans (ih (f s.1 s.2 kv, s.2 + 1))
  split
  · exact h₁
  · exact h₁.frame rfl rfl (htick workflow.defaults (fun v tick kv =>
      (v.set tick ⟨.workflow, some i, kv.1⟩ kv.2 ("workflow:" ++ workflow.id)).2) (_, w₁.tick))

theorem executor_lived (i planId : String) (step : PlanStep) (w : World) (h : Quiescent E w) :
    Quiescent E (executor E i planId step w).2 := by
  unfold executor
  have hstep := executeStep_lived h i none none
  generalize executeStep E i none none w = R at hstep ⊢
  obtain ⟨r, w₁⟩ := R
  cases r with
  | error e => exact hstep
  | ok artifact => exact hstep.frame rfl rfl (Nat.le_succ _)

theorem executeAdaptive_lived (h : Quiescent E w) (i : String) (fuel : ℕ) :
    Quiescent E (executeAdaptive E i fuel w).2 := by
  unfold executeAdaptive
  cases w.instances.get? i with
  | none => exact h
  | some inst =>
    simp only
    cases w.planner with
    | none => exact runLoop_lived i fuel h
    | some p =>
      simp only
      have hplan : Quiescent E (executePlanned E i inst p w).2.host := by
        unfold executePlanned
        exact executePlan_host (executor_lived i _) E.planner _ _ h
      generalize executePlanned E i inst p w = R at hplan ⊢
      obtain ⟨r, s⟩ := R
      cases r with
      | error e => exact hplan.frame rfl rfl le_rfl
      | ok plan => exact hplan.frame rfl rfl (Nat.le_succ _)

theorem World.step_lived (w : World) (op : EngineOp) (h : Quiescent E w) :
    Quiescent E (w.step E op) := by
  cases op with
  | start workflow => exact start_lived h workflow
  | executeStep i agent policy => exact executeStep_lived h i agent policy
  | approve i stepId approved fuel => exact approve_lived h i stepId approved fuel
  | executeAdaptive i fuel => exact executeAdaptive_lived h i fuel
  | setPlanner p => exact h.frame rfl rfl le_rfl
  | arrange parts => exact h.frame rfl rfl le_rfl

/-- **Every run of the engine lives by the life cycle.** -/
theorem World.run_lived (E : Env) (ops : List EngineOp) : Quiescent E (World.run E ops) :=
  run_invariant _ (Quiescent E) World.step_lived ops {} fun _ =>
    ⟨always_nil, fun _ => rfl, fun _ _ h => by cases h⟩

end Hermes

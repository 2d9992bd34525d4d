import Hermes.Proof.Calls

/-!
# Which loops end

The loop of `execute_adaptive` without a planner, and the one of `approve`, go on while
the instance is running and its cursor is on a step.

* `runLoop_ends`: with distinct step ids each round moves the cursor one place on.
* `Circling`: with a duplicate, bodies that return keep the cursor on a lasso.
* `loops_end_iff`: every loop over a workflow ends exactly when its step ids are distinct.
-/

namespace Hermes

open World

variable {E : Env} {i : String} {w w' : World} {wf : Workflow} {inst : WorkflowInstance}
  {st : Standing}

/-- An approval resumes the loop. -/
theorem approve_resumes (hi : w.instances.get? i = some inst) (hpaused : inst.status = .paused)
    (stepId : String) (fuel : ℕ) : approve E i stepId true fuel w =
      ((runLoop E i fuel ((w.record (.approve i stepId true)).setStatus i .running)).1.map fun _ => (),
        (runLoop E i fuel ((w.record (.approve i stepId true)).setStatus i .running)).2) := by
  unfold approve
  simp only [hi]
  rw [if_pos hpaused]
  simp only [if_true]
  generalize runLoop E i fuel _ = R
  obtain ⟨r, w₁⟩ := R
  cases r <;> rfl

/-- **Every loop over `wf` ends**, in whatever state a run has left its instance. -/
def LoopsEnd (E : Env) (wf : Workflow) : Prop :=
  ∀ ops i inst, (World.run E ops).instances.get? i = some inst → inst.workflow = wf →
    ((World.run E ops).planner = none →
      ∃ fuel, Ended i (executeAdaptive E i fuel (World.run E ops))) ∧
    ∀ stepId, ∃ fuel, Ended i (approve E i stepId true fuel (World.run E ops))

/-! ## Distinct ids -/

/-- **What a call does to the cursor**, when it does not raise. -/
def Moved (inst inst' : WorkflowInstance) : Prop :=
  inst'.workflow = inst.workflow ∧ (inst'.status ≠ .running ∨
    ∃ k, inst.place.next = some k ∧ inst'.currentStepId = some k)

theorem AttemptDone.moved {agent : Option String} {policy : Option SandboxPolicy}
    {inst₀ : WorkflowInstance} {step : WorkflowStep} {n retries : ℕ} {r : Except Exc Artifact}
    (hagain : Retried inst₀ inst step n)
    (h : AttemptDone E i agent policy w inst step retries (some r, w')) :
    (∃ e, r = .error e) ∨ ∃ inst', w'.instances.get? i = some inst' ∧ Moved inst₀ inst' := by
  have hstopped : ∀ {ns : List Note} {s : WorkflowStatus}, s ≠ .running →
      Writes i w w' ns { inst.counted step with status := s } →
      ∃ inst', w'.instances.get? i = some inst' ∧ Moved inst₀ inst' := by
    intro ns s hs hw
    obtain ⟨inst', hi', hst⟩ := hw.inst
    have hstatus : inst'.status = s := congrArg Standing.status hst
    have hworkflow : inst'.workflow = inst.workflow :=
      congrArg Place.workflow (congrArg Standing.place hst)
    exact ⟨inst', hi', hworkflow.trans hagain.workflow, .inl (by rw [hstatus]; exact hs)⟩
  cases h with
  | paused _ _ _ hw => exact .inr (hstopped (by decide) hw)
  | unresolved => exact .inl ⟨_, rfl⟩
  | unwired _ _ _ _ _ hw => exact .inr (hstopped (by decide) hw)
  | denied _ _ _ hw => exact .inr (hstopped (by decide) hw)
  | broken => exact .inl ⟨_, rfl⟩
  | exhausted _ _ _ _ hw => exact .inr (hstopped (by decide) hw)
  | completed _ hw =>
    obtain ⟨inst', hi', hst⟩ := hw.inst
    have hplace := congrArg Standing.place hst
    have hworkflow : inst'.workflow = inst.workflow := congrArg Place.workflow hplace
    have hcursor : inst'.currentStepId = inst.place.next := congrArg Place.cursor hplace
    have hnext : inst.place.next = inst₀.place.next := by
      rw [Place.next_eq, Place.next_eq]
      have hw₀ : inst.place.workflow = inst₀.place.workflow := hagain.workflow
      have hc₀ : inst.place.cursor = inst₀.place.cursor := hagain.cursor
      rw [hw₀, hc₀]
    refine .inr ⟨inst', hi', hworkflow.trans hagain.workflow, ?_⟩
    cases hk : inst.place.next with
    | none =>
      -- the last step completes the instance
      have hstatus := congrArg Standing.status hst
      have hnone : (inst.counted step).place.next = none := hk
      unfold Standing.advanced at hstatus
      simp only [hnone, if_true] at hstatus
      have hcompleted : inst'.status = .completed := hstatus
      refine .inl ?_
      rw [hcompleted]
      decide
    | some k => exact .inr ⟨k, by rw [← hnext, hk], by rw [hcursor, hk]⟩

theorem executeStep_moved (hi : w.instances.get? i = some inst) (agent : Option String)
    (policy : Option SandboxPolicy) :
    (∃ e, (executeStep E i agent policy w).1 = .error e) ∨
      ∃ inst', (executeStep E i agent policy w).2.instances.get? i = some inst' ∧
        Moved inst inst' := by
  unfold executeStep
  rw [hi]
  simp only
  have hin : (w.record (.enter i)).instances.get? i = some inst := hi
  cases hs : inst.currentStep with
  | none =>
    obtain ⟨a, w₁, hR, hw⟩ := attemptStep_completes (E := E) hin hs agent inst.retries policy
    obtain ⟨inst', hi', hst⟩ := hw.inst
    have hstatus : inst'.status = .completed := congrArg Standing.status hst
    have hworkflow : inst'.workflow = inst.workflow :=
      congrArg Place.workflow (congrArg Standing.place hst)
    rw [executeStepFrom_eq, hR]
    exact .inr ⟨inst', hi', hworkflow, .inl (by rw [hstatus]; decide)⟩
  | some step =>
    obtain ⟨n, ns, w₁, inst₁, hcall⟩ := executeStepFrom_done (E := E) agent inst.retries policy
      _ _ hin hs
    obtain ⟨policy', hlast⟩ := hcall.last
    have hmoved := hlast.moved hcall.again
    exact hmoved

/-- The next step is one place on. -/
theorem next_idxOf (hnodup : (wf.steps.map (·.id)).Nodup) (hwf : inst.workflow = wf) {k : String}
    (hk : inst.place.next = some k) : ∃ j, inst.currentStepId = some j ∧
      (wf.steps.map (·.id)).idxOf k = (wf.steps.map (·.id)).idxOf j + 1 := by
  have hplace : inst.place.workflow = wf := hwf
  rw [Place.next_eq, hplace] at hk
  obtain ⟨j, hj, hafter⟩ := Option.bind_eq_some_iff.1 hk
  exact ⟨j, hj, Cursor.after_idxOf hnodup hafter⟩

/-- The rounds that are left. -/
def roundsLeft (wf : Workflow) : Option String → ℕ
  | none => 0
  | some k => (wf.steps.map (·.id)).length + 1 - (wf.steps.map (·.id)).idxOf k

/-- **With distinct step ids the loop ends**: each round moves the cursor one place on. -/
theorem runLoop_ends (hnodup : (wf.steps.map (·.id)).Nodup) : ∀ fuel w inst,
    w.instances.get? i = some inst → inst.workflow = wf →
    roundsLeft wf inst.currentStepId ≤ fuel → Ended i (runLoop E i fuel w) := by
  intro fuel
  induction fuel with
  | zero =>
    intro w inst hi hwf hle
    refine .inr ((halted_iff hi).2 fun hrun => hrun.2 ?_)
    cases hc : inst.currentStepId with
    | none => rfl
    | some k =>
      have hidx : (wf.steps.map (·.id)).idxOf k ≤ (wf.steps.map (·.id)).length :=
        List.idxOf_le_length
      rw [hc] at hle
      simp only [roundsLeft] at hle
      omega
  | succ fuel ih =>
    intro w inst hi hwf hle
    by_cases hhalt : Halted w i
    · rw [runLoop_halted hi hhalt]
      exact .inr hhalt
    have hmoved := executeStep_moved (E := E) hi none none
    cases hR : executeStep E i none none w with
    | mk r w₁ =>
      rw [hR] at hmoved
      cases r with
      | error e =>
        rw [runLoop_raised hi hhalt hR]
        exact .inl ⟨e, rfl⟩
      | ok artifact =>
        obtain ⟨inst₁, hi₁, hw₁, hmoved⟩ := hmoved.resolve_left fun ⟨e, he⟩ => by cases he
        have hrest : Ended i (runLoop E i fuel w₁) := by
          rcases hmoved with hstop | ⟨k, hk, hc⟩
          · -- the instance is not running any more
            have hhalt₁ : Halted w₁ i := halted_of_status hi₁ hstop
            rw [runLoop_halted hi₁ hhalt₁]
            exact .inr hhalt₁
          · -- the cursor is one place on, so one round less is left
            refine ih w₁ inst₁ hi₁ (hw₁.trans hwf) ?_
            have hon := next_idxOf hnodup hwf hk
            obtain ⟨j, hj, hidx⟩ := hon
            have hle' : (wf.steps.map (·.id)).idxOf j < (wf.steps.map (·.id)).length := by
              have hlast : (wf.steps.map (·.id)).idxOf k ≤ (wf.steps.map (·.id)).length :=
                List.idxOf_le_length
              omega
            rw [hj] at hle
            rw [hc]
            simp only [roundsLeft] at hle ⊢
            omega
        rw [runLoop_round hi hhalt hR, ended_map]
        exact hrest

/-! ## Duplicate ids -/

/-- Every body returns. -/
def Env.Returning (E : Env) : Prop := ∀ n c, ∃ a, E.body n c = .ok a

/-- An engine that has an MCP gateway, and nothing that refuses a body. -/
def openParts : Parts := { mcp := true }

/-- No attempt at this step was made. -/
def Place.isFresh (p : Place) (k : String) : Bool := (p.attempts.get? k).getD 0 = 0

/-- The steps of a list that were never attempted. -/
def Place.fresh (s : List String) (p : Place) : List String := s.filter p.isFresh

/-- **The instance runs in circles**: it is on one of the steps `s`, and of these at most `n`
were never attempted. -/
structure Circling (wf : Workflow) (s : List String) (i : String) (status : WorkflowStatus) (n : ℕ)
    (w : World) (st : Standing) : Prop where
  wiring : w.parts.wiring = openParts.wiring
  standing : w.standingOf i = some st
  workflow : st.place.workflow = wf
  status : st.status = status
  cursor : ∃ k ∈ s, st.place.cursor = some k
  fresh : (st.place.fresh s).length ≤ n

theorem counted_isFresh (inst : WorkflowInstance) (step : WorkflowStep) (k : String) :
    (inst.counted step).place.isFresh k = (decide (k ≠ step.id) && inst.place.isFresh k) := by
  unfold Place.isFresh WorkflowInstance.counted
  by_cases hk : k = step.id
  · subst hk
    rw [Dict.get?_insert_self]
    simp
  · rw [Dict.get?_insert_of_ne _ hk, decide_eq_true hk, Bool.true_and]
    rfl

/-- Attempting a step makes none fresh. -/
theorem fresh_counted_sublist (s : List String) (inst : WorkflowInstance) (step : WorkflowStep) :
    ((inst.counted step).place.fresh s).Sublist (inst.place.fresh s) := by
  refine List.monotone_filter_right s fun k hk => ?_
  rw [counted_isFresh, Bool.and_eq_true] at hk
  exact hk.2

/-- **The first attempt** at a step makes it fresh no more. -/
theorem fresh_counted_lt {s : List String} {step : WorkflowStep} (hmem : step.id ∈ s)
    (hfirst : inst.attempts step.id = 0) :
    ((inst.counted step).place.fresh s).length < (inst.place.fresh s).length := by
  have hsub := fresh_counted_sublist s inst step
  have hne : (inst.counted step).place.fresh s ≠ inst.place.fresh s := by
    intro heq
    have hin : step.id ∈ inst.place.fresh s := List.mem_filter.2 ⟨hmem, decide_eq_true hfirst⟩
    have hout : step.id ∉ (inst.counted step).place.fresh s := by
      intro h
      have hfresh := (List.mem_filter.1 h).2
      rw [counted_isFresh] at hfresh
      simp at hfresh
    exact hout (heq ▸ hin)
  exact lt_of_le_of_ne hsub.length_le fun hlen => hne (hsub.eq_of_length hlen)

/-- A body of an open engine comes back with what the body returned. -/
theorem RanBody.returns {agent : Option String} {policy : Option SandboxPolicy}
    {step : WorkflowStep} {r : Except Exc Artifact} {ms : List Note} (hE : E.Returning)
    (hopen : w.parts.wiring = openParts.wiring) (h : RanBody E i agent policy w inst step r ms st) :
    ∃ a, r = .ok a := by
  obtain ⟨params, hdone⟩ := h.done
  rw [hopen] at hdone
  cases hdone with
  | guarded _ hrules => cases hrules
  | plain _ _ htried =>
    cases htried with
    | refused hwired => cases hwired
    | ran _ _ _ _ hb =>
      obtain ⟨n, hb⟩ := hb
      obtain ⟨a, ha⟩ := hE n ⟨.forward, some i, step, params, agent⟩
      exact ⟨a, hb.trans ha⟩
  | boxed _ hbox => cases hbox
  | broken _ hbox => cases hbox

/-- **An attempt in an open engine** stops at the gate or completes its step. -/
theorem AttemptDone.returns {agent : Option String} {policy : Option SandboxPolicy}
    {step : WorkflowStep} {retries : ℕ} {o : Option (Except Exc Artifact)} (hE : E.Returning)
    (hopen : w.parts.wiring = openParts.wiring)
    (h : AttemptDone E i agent policy w inst step retries (o, w')) :
    (∃ a, o = some (.ok a)) ∧ ∃ ns,
      (AtGate inst step ∧ Writes i w w' ns { inst.counted step with status := .paused }) ∨
        Writes i w w' ns (inst.counted step).advanced := by
  cases h with
  | paused hgate _ _ hw => exact ⟨⟨_, rfl⟩, [], .inl ⟨hgate, hw⟩⟩
  | unresolved _ hvault => rw [hopen] at hvault; cases hvault
  | unwired _ _ _ hmcp => rw [hopen] at hmcp; cases hmcp
  | completed _ hw => exact ⟨⟨_, rfl⟩, _, .inr hw⟩
  | denied _ hran =>
    obtain ⟨a, ha⟩ := hran.returns hE hopen
    cases ha
  | broken _ hran =>
    obtain ⟨a, ha⟩ := hran.returns hE hopen
    cases ha
  | exhausted _ hran =>
    obtain ⟨a, ha⟩ := hran.returns hE hopen
    cases ha
  | again _ hran =>
    obtain ⟨a, ha⟩ := hran.returns hE hopen
    cases ha

/-- The loop of a circling instance is not halted. -/
theorem Circling.not_halted {s : List String} {n : ℕ} (h : Circling wf s i .running n w st) : ¬ Halted w i := by
  obtain ⟨inst, hi, hst⟩ := Option.map_eq_some_iff.1 h.standing
  obtain ⟨k, -, hcur⟩ := h.cursor
  have hc : inst.currentStepId = some k :=
    (congrArg Place.cursor (congrArg Standing.place hst)).trans hcur
  rw [halted_iff hi, not_not]
  exact ⟨(congrArg Standing.status hst).trans h.status, by rw [hc]; simp⟩

section Circles

variable {s : List String} {n : ℕ}
  (hlasso : ∀ a ∈ s, ∃ b ∈ s, Cursor.after (wf.steps.map (·.id)) a = some b)
include hlasso

/-- A step of the lasso exists. -/
theorem stepById_of_lasso {k : String} (hk : k ∈ s) : ∃ step, stepById wf.steps k = some step ∧
    step.id = k := by
  obtain ⟨b, -, hb⟩ := hlasso k hk
  have hlt := (List.getElem?_eq_some_iff.1 hb).1
  have hmem : k ∈ wf.steps.map (·.id) := by
    rw [← List.idxOf_lt_length_iff]
    omega
  obtain ⟨step, hstep, rfl⟩ := List.mem_map.1 hmem
  unfold stepById
  cases hfind : wf.steps.find? (·.id = step.id) with
  | none =>
    have hno := List.find?_eq_none.1 hfind step hstep
    simp at hno
  | some step' =>
    have hid := List.find?_some hfind
    exact ⟨step', rfl, of_decide_eq_true hid⟩

/-- **A call keeps going in circles**, or stops at a gate that it had never been to. -/
theorem executeStep_circling (hE : E.Returning) (h : Circling wf s i .running n w st) :
    (∃ a, (executeStep E i none none w).1 = .ok a) ∧ ∃ st',
      Circling wf s i .running n (executeStep E i none none w).2 st' ∨
        ∃ m < n, Circling wf s i .paused m (executeStep E i none none w).2 st' := by
  obtain ⟨inst, hi, hst⟩ := Option.map_eq_some_iff.1 h.standing
  obtain ⟨k, hk, hcur⟩ := h.cursor
  have hplace : inst.place = st.place := congrArg Standing.place hst
  have hwf : inst.workflow = wf := (congrArg Place.workflow hplace).trans h.workflow
  have hc : inst.currentStepId = some k := (congrArg Place.cursor hplace).trans hcur
  have hrunning : inst.status = .running := (congrArg Standing.status hst).trans h.status
  obtain ⟨step, hstep, hid⟩ := stepById_of_lasso hlasso hk
  have hs : inst.currentStep = some step := by
    unfold WorkflowInstance.currentStep
    rw [hc, hwf]
    exact hstep
  have hin : (w.record (.enter i)).instances.get? i = some inst := hi
  have hdone := attemptStep_done (E := E) hin hs none inst.retries none
  unfold executeStep
  rw [hi]
  simp only
  rw [executeStepFrom_eq]
  generalize attemptStep E i none inst.retries none (w.record (.enter i)) = R at hdone ⊢
  obtain ⟨o, w₁⟩ := R
  have hopen : (w.record (.enter i)).parts.wiring = openParts.wiring := h.wiring
  obtain ⟨⟨a, ha⟩, ns, hends⟩ := hdone.returns hE hopen
  subst ha
  have hle : (inst.place.fresh s).length ≤ n := by
    rw [hplace]
    exact h.fresh
  refine ⟨⟨a, rfl⟩, ?_⟩
  rcases hends with ⟨hgate, hw⟩ | hw
  · -- the step was at its gate: it has been attempted now, and one step less is fresh
    have hfirst := fresh_counted_lt (s := s) (by rw [hid]; exact hk) hgate.2
    have hleft := hw.record (.leave i)
    refine ⟨{ inst.counted step with status := .paused }, .inr
      ⟨((inst.counted step).place.fresh s).length, by omega, ?_⟩⟩
    exact ⟨hleft.wiring.trans hopen, hleft.standing, hwf, rfl, ⟨k, hk, hc⟩, le_rfl⟩
  · -- the body returned, and the cursor moved on within the circle
    obtain ⟨b, hb, hafter⟩ := hlasso k hk
    have hnext : (inst.counted step).place.next = some b := by
      have hcount : (inst.counted step).place.cursor = some k := hc
      have hcount' : (inst.counted step).place.workflow = wf := hwf
      rw [Place.next_eq, hcount, hcount']
      exact hafter
    have hsub := (fresh_counted_sublist s inst step).length_le
    have hstatus : (inst.counted step).advanced.status = .running := by
      unfold Standing.advanced
      simp only [hnext]
      exact hrunning
    have hleft := hw.record (.leave i)
    refine ⟨(inst.counted step).advanced, .inl ?_⟩
    refine ⟨hleft.wiring.trans hopen, hleft.standing, hwf, hstatus, ⟨b, hb, hnext⟩, ?_⟩
    exact hsub.trans hle

/-- **A loop in circles ends at a new gate only.** -/
theorem runLoop_circling (hE : E.Returning) : ∀ fuel w st, Circling wf s i .running n w st →
    Ended i (runLoop E i fuel w) →
    ∃ st', ∃ m < n, Circling wf s i .paused m (runLoop E i fuel w).2 st' := by
  intro fuel
  induction fuel with
  | zero =>
    intro w st h hends
    rcases hends with ⟨e, he⟩ | hhalt
    · cases he
    · exact absurd hhalt h.not_halted
  | succ fuel ih =>
    intro w st h hends
    obtain ⟨inst, hi, -⟩ := Option.map_eq_some_iff.1 h.standing
    obtain ⟨⟨a, ha⟩, st', hnext⟩ := executeStep_circling hlasso hE h
    cases hR : executeStep E i none none w with
    | mk r w₁ =>
      rw [hR] at ha hnext
      simp only at ha hnext
      subst ha
      have hround := runLoop_round hi h.not_halted hR fuel
      rw [hround, ended_map] at hends
      rw [hround]
      rcases hnext with hrunning | ⟨m, hm, hpaused⟩
      · exact ih w₁ st' hrunning hends
      · obtain ⟨inst₁, hi₁, hst₁⟩ := Option.map_eq_some_iff.1 hpaused.standing
        have hs : inst₁.status = .paused := (congrArg Standing.status hst₁).trans hpaused.status
        have hhalt : Halted w₁ i := halted_of_status hi₁ (by rw [hs]; decide)
        rw [runLoop_halted hi₁ hhalt]
        exact ⟨st', m, hm, hpaused⟩

/-- **Approvals do not help**: each resumed loop stops at another new gate, until there is none. -/
theorem not_loopsEnd_of_paused (hE : E.Returning) : ∀ n ops st,
    Circling wf s i .paused n (World.run E ops) st → ¬ LoopsEnd E wf := by
  intro n
  induction n using Nat.strong_induction_on with
  | _ n ih =>
    intro ops st h hends
    obtain ⟨inst, hi, hst⟩ := Option.map_eq_some_iff.1 h.standing
    have hplace := congrArg Standing.place hst
    have hpaused : inst.status = .paused := (congrArg Standing.status hst).trans h.status
    have hwf : inst.workflow = wf := (congrArg Place.workflow hplace).trans h.workflow
    -- the approved loop is a loop in circles again, with no more fresh steps than before
    obtain ⟨fuel, hfuel⟩ := (hends ops i inst hi hwf).2 ""
    set w₁ := ((World.run E ops).record (.approve i "" true)).setStatus i .running with hw₁
    have hresumed : Circling wf s i .running n w₁ { st with status := .running } := by
      have hwrites := ((Writes.refl (standingOf_eq hi)).quiet (a := .approve i "" true) rfl).setStatus
        .running
      rw [hst] at hwrites
      exact ⟨hwrites.wiring.trans h.wiring, hwrites.standing, h.workflow, rfl, h.cursor, h.fresh⟩
    have happrove := approve_resumes (E := E) hi hpaused "" fuel
    rw [happrove, ended_map] at hfuel
    obtain ⟨st', m, hm, hstopped⟩ := runLoop_circling hlasso hE fuel w₁ _ hresumed hfuel
    have hrun : World.run E (ops ++ [.approve i "" true fuel]) = (runLoop E i fuel w₁).2 := by
      have hsnd := congrArg Prod.snd happrove
      rw [← hw₁] at hsnd
      rw [← hsnd]
      unfold World.run
      rw [List.foldl_append]
      rfl
    rw [← hrun] at hstopped
    exact ih m hm _ st' hstopped hends

end Circles

/-- **With a duplicate id** the loops do not all end, even if every body returns. -/
theorem not_loopsEnd (hE : E.Returning) (hdup : ¬ (wf.steps.map (·.id)).Nodup) :
    ¬ LoopsEnd E wf := by
  intro hends
  obtain ⟨s, ⟨k, hk, hhead⟩, hlasso⟩ := Cursor.exists_lasso hdup
  set ops : List EngineOp := [.arrange openParts, .start wf] with hops
  set i := E.uuid 0
  set inst : WorkflowInstance :=
    { workflow := wf, status := .running, currentStepId := wf.steps.head?.map (·.id)
      startedAt := 0 } with hinst
  have hi : (World.run E ops).instances.get? i = some inst := by
    have hstart := start_instances (E := E) wf { parts := openParts }
    have hrun : World.run E ops = (start E wf { parts := openParts }).2 := rfl
    rw [hrun, hstart, Dict.get?_insert_self]
  have hcursor : inst.currentStepId = some k := by
    rw [← hhead, List.head?_map]
  have hcircling : Circling wf s i .running s.length (World.run E ops) inst.standing :=
    ⟨rfl, standingOf_eq hi, rfl, rfl, ⟨k, hk, hcursor⟩, List.length_filter_le _ _⟩
  obtain ⟨fuel, hfuel⟩ := (hends ops i inst hi rfl).1 rfl
  have hloop : executeAdaptive E i fuel (World.run E ops) = runLoop E i fuel (World.run E ops) := by
    unfold executeAdaptive
    rw [hi]
    rfl
  rw [hloop] at hfuel
  obtain ⟨st', m, -, hstopped⟩ := runLoop_circling hlasso hE fuel _ _ hcircling hfuel
  have hrun : World.run E (ops ++ [.executeAdaptive i fuel]) =
      (runLoop E i fuel (World.run E ops)).2 := by
    rw [← hloop]
    unfold World.run
    rw [List.foldl_append]
    rfl
  rw [← hrun] at hstopped
  exact not_loopsEnd_of_paused hlasso hE m _ st' hstopped hends

/-! ## Exactly which workflows -/

/-- With distinct ids every loop ends. -/
theorem loopsEnd_of_nodup (hnodup : (wf.steps.map (·.id)).Nodup) (E : Env) : LoopsEnd E wf := by
  intro ops i inst hi hwf
  refine ⟨fun hplanner => ⟨roundsLeft wf inst.currentStepId, ?_⟩,
    fun stepId => ⟨roundsLeft wf inst.currentStepId, ?_⟩⟩
  · unfold executeAdaptive
    rw [hi, hplanner]
    exact runLoop_ends hnodup _ _ inst hi hwf le_rfl
  · by_cases hpaused : inst.status = .paused
    · rw [approve_resumes hi hpaused, ended_map]
      set w₁ := ((World.run E ops).record (.approve i stepId true)).setStatus i .running with hw₁
      have hi₁ : w₁.instances.get? i = some { inst with status := .running } := by
        rw [hw₁]
        unfold setStatus
        exact update_get? _ hi
      exact runLoop_ends hnodup _ w₁ _ hi₁ hwf le_rfl
    · unfold approve
      rw [hi]
      simp only
      rw [if_neg hpaused]
      exact .inl ⟨_, rfl⟩

/-- **Every loop over a workflow ends**, whatever the surroundings, exactly when its step ids
are distinct. -/
theorem loops_end_iff (wf : Workflow) :
    (∀ E, LoopsEnd E wf) ↔ (wf.steps.map (·.id)).Nodup := by
  constructor
  · intro h
    by_contra hdup
    exact not_loopsEnd (E := Env.scripted fun _ => true) (fun n c => ⟨_, rfl⟩) hdup (h _)
  · intro hnodup E
    exact loopsEnd_of_nodup hnodup E

/-- **Two steps with one id** run for ever. -/
theorem twins_loop : ¬ ∀ (E : Env) (wf : Workflow), LoopsEnd E wf := by
  intro H
  have hends := H (Env.scripted fun _ => true)
    { id := "w", steps := [{ id := "a", capability := "c" }, { id := "a", capability := "c" }] }
  exact not_loopsEnd (fun n c => ⟨_, rfl⟩) (by decide) hends

end Hermes

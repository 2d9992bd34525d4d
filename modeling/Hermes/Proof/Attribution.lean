import Hermes.Proof.Rollback
import Hermes.Proof.PlanHosts
import Hermes.Proof.PlanTurns

/-!
# One call of `execute_step`

`executeStep_invoked`: a call on an instance whose cursor is on a step runs no other
step's body forward; it moves the cursor on exactly when the last body returned and
its artifact is the result; and otherwise it returns an error artifact or asks for
an approval.
-/

namespace Hermes

open World

variable {E : Env} {i : String} {w : World}

/-- How a call on `step` ends: the cursor moved on with the artifact of the last body, or
it stays. -/
inductive Settles (i : String) (inst cur : WorkflowInstance) (step : WorkflowStep)
    (bs : List BodyRun) : Except Exc Artifact → Prop where
  | moved {a : Artifact} {b : BodyRun} : cur.currentStepId = inst.next → bs.getLast? = some b →
    b.result = .ok a → Settles i inst cur step bs (.ok a)
  | failed {a : Artifact} : cur.currentStepId = inst.currentStepId → a.type = "error" →
    (∀ b ∈ bs.getLast?, ∃ e, b.result = .error e) → Settles i inst cur step bs (.ok a)
  | paused {a : Artifact} : cur.currentStepId = inst.currentStepId →
    a.type = "approval_required" → AtGate inst step → bs = [] → Settles i inst cur step bs (.ok a)
  | raised {e : Exc} : cur.currentStepId = inst.currentStepId → Settles i inst cur step bs (.error e)

/-- **What a call on `step` does.** -/
structure Invoked (E : Env) (i : String) (inst : WorkflowInstance) (step : WorkflowStep)
    (w : World) (R : Except Exc Artifact × World) (ms : List Mark) : Prop where
  trail : Trail w R.2 ms
  own : ∀ b ∈ forwards i ms, ForwardOf i step b
  settles : ∃ cur, R.2.instances.get? i = some cur ∧ cur.workflow = inst.workflow ∧
    Settles i inst cur step (forwards i ms) R.1
  reached : Clear E w i inst step → ¬ AtGate inst step → ∀ a, R.1 = .ok a → forwards i ms ≠ []

theorem completeStep_place {inst : WorkflowInstance} (hi : w.instances.get? i = some inst)
    (step : WorkflowStep) (artifact : Artifact) :
    ∃ cur, (completeStep w i step artifact).instances.get? i = some cur ∧
      cur.workflow = inst.workflow ∧ cur.currentStepId = inst.next := by
  unfold completeStep
  simp only
  set f : WorkflowInstance → WorkflowInstance := fun inst =>
    { inst with
      stepResults := inst.stepResults.insert step.id (.str artifact.id)
      eventLog := inst.eventLog ++ [artifact.id] }
  have hget : ((w.update i f).emit (.stepCompleted i step.id artifact.id)).instances.get? i =
      some (f inst) := update_get? f hi
  rw [hget]
  simp only
  have hget' : ((((w.update i f).emit (.stepCompleted i step.id artifact.id)).update i fun inst' =>
      { inst' with currentStepId := (f inst).next }).record
      (.advance i (f inst).next)).instances.get? i
      = some { f inst with currentStepId := (f inst).next } := update_get? _ hget
  have hnext : (f inst).next = inst.next := rfl
  split
  · exact ⟨_, update_get? _ hget', rfl, hnext⟩
  · exact ⟨_, hget', rfl, hnext⟩

theorem forwards_singleton {step : WorkflowStep} {b : BodyRun} (hb : ForwardOf i step b) :
    forwards i [.ran b] = [b] := by
  simp [forwards, hb.1, hb.2.1]

theorem AllRaised.forwards {step : WorkflowStep} {ms : List Mark} (h : AllRaised i step ms) :
    (∀ b ∈ Hermes.forwards i ms, ForwardOf i step b ∧ ∃ e, b.result = .error e) ∧
      (ms ≠ [] → Hermes.forwards i ms ≠ []) := by
  induction ms with
  | nil => exact ⟨by simp [Hermes.forwards], fun h => absurd rfl h⟩
  | cons m ms ih =>
    obtain ⟨b, rfl, hb, he⟩ := h m List.mem_cons_self
    obtain ⟨hall, -⟩ := ih fun m hm => h m (List.mem_cons_of_mem _ hm)
    have hcons : Hermes.forwards i (.ran b :: ms) = b :: Hermes.forwards i ms := by
      simp [Hermes.forwards, hb.1, hb.2.1]
    rw [hcons]
    refine ⟨fun b' hb' => ?_, by simp⟩
    rcases List.mem_cons.1 hb' with rfl | hb'
    · exact ⟨hb, he⟩
    · exact hall b' hb'

/-- An attempt that ends the call. -/
theorem PassGoes.invoked {inst : WorkflowInstance} {step : WorkflowStep} {w₁ w' : World}
    {r : Except Exc Artifact} (hfirst : Trail w w₁ [])
    (hi₁ : w₁.instances.get? i = some { inst with
      stepAttempts := inst.stepAttempts.insert step.id (inst.attempts step.id + 1) })
    (h : PassGoes i step (Clear E w i inst step ∧ ¬ AtGate inst step) (AtGate inst step) w₁
      (.done r, w')) : ∃ ms, Invoked E i inst step w (r, w') ms := by
  cases h with
  | stopped hr hgo =>
    obtain ⟨cur, hcur, hplace⟩ := hgo.inst hi₁
    have hwf : cur.workflow = inst.workflow := congrArg Place.workflow hplace
    have hid : cur.currentStepId = inst.currentStepId := congrArg Place.cursor hplace
    refine ⟨[], ⟨hfirst.trans hgo.toTrail, by simp [forwards], ⟨cur, hcur, hwf, ?_⟩, ?_⟩⟩
    · cases r with
      | error e => exact .raised hid
      | ok a =>
        rcases (hr a rfl).2 with ht | ⟨ht, hg⟩
        · exact .failed hid ht (by simp [forwards])
        · exact .paused hid ht hg rfl
    · -- past gate, circuit and guard a pass is not stopped with an artifact
      intro hc hg a ha
      exact absurd ⟨hc, hg⟩ (hr a ha).1
  | @returned a b w₂ hb hres hgo =>
    -- the cursor moves from where it stood before the body, which keeps the place
    obtain ⟨mid, hmid, hplace⟩ := hgo.inst hi₁
    obtain ⟨cur, hcur, hwf, hid⟩ := completeStep_place hmid step a
    have hwf' : mid.workflow = inst.workflow := congrArg Place.workflow hplace
    have hid' : mid.currentStepId = inst.currentStepId := congrArg Place.cursor hplace
    have hnext : mid.next = inst.next := by
      unfold WorkflowInstance.next
      rw [hwf', hid']
    have htrail := hfirst.trans (hgo.toTrail.trans (completeStep_trail w₂ i step a))
    have hfw := forwards_singleton hb
    refine ⟨[.ran b], ⟨by simpa using htrail, ?_, ⟨cur, hcur, hwf.trans hwf', ?_⟩, ?_⟩⟩
    · rw [hfw]
      intro b' hb'
      rw [List.mem_singleton.1 hb']
      exact hb
    · rw [hfw]
      exact .moved (hid.trans hnext) rfl hres
    · intro _ _ _ _
      rw [hfw]
      simp
  | @denied a b e _ hb hres htype hgo =>
    obtain ⟨cur, hcur, hplace⟩ := hgo.inst hi₁
    have hwf : cur.workflow = inst.workflow := congrArg Place.workflow hplace
    have hid : cur.currentStepId = inst.currentStepId := congrArg Place.cursor hplace
    have hfw := forwards_singleton hb
    refine ⟨[.ran b], ⟨hfirst.trans hgo.toTrail, ?_, ⟨cur, hcur, hwf, ?_⟩, ?_⟩⟩
    · rw [hfw]
      intro b' hb'
      rw [List.mem_singleton.1 hb']
      exact hb
    · rw [hfw]
      refine .failed hid htype fun b' hb' => ?_
      obtain rfl : b = b' := by simpa using hb'
      exact ⟨e, hres⟩
    · intro _ _ _ _
      rw [hfw]
      simp
  | @broken e ms _ _ hf hgo =>
    obtain ⟨cur, hcur, hplace⟩ := hgo.inst hi₁
    have hwf : cur.workflow = inst.workflow := congrArg Place.workflow hplace
    have hid : cur.currentStepId = inst.currentStepId := congrArg Place.cursor hplace
    exact ⟨ms, ⟨hfirst.trans hgo.toTrail, hf, ⟨cur, hcur, hwf, .raised hid⟩, by simp⟩⟩

/-- Attempts that raised before a call ended as it did. -/
theorem Settles.after_raised {inst cur : WorkflowInstance} {step : WorkflowStep}
    {bs bs' : List BodyRun} {r : Except Exc Artifact}
    (hraised : ∀ b ∈ bs, ∃ e, b.result = .error e) (hgate : ¬ AtGate inst step)
    (h : Settles i inst cur step bs' r) : Settles i inst cur step (bs ++ bs') r := by
  cases h with
  | moved hc hlast hres =>
    exact .moved hc (by rw [List.getLast?_append, hlast]; rfl) hres
  | failed hc ht hlast =>
    refine .failed hc ht fun b hb => ?_
    rw [List.getLast?_append] at hb
    cases hl : bs'.getLast? with
    | some b' =>
      obtain rfl : b' = b := by simpa [hl] using hb
      exact hlast b' hl
    | none =>
      -- the last body is one of those that raised
      have hb' : bs.getLast? = some b := by simpa [hl] using hb
      exact hraised b (List.mem_of_getLast? hb')
  | paused _ _ hg _ => exact absurd hg hgate
  | raised hc => exact .raised hc

/-- A call that goes on from the same place, past the gate. -/
theorem Settles.again {inst mid cur : WorkflowInstance} {step : WorkflowStep} {bs : List BodyRun}
    {r : Except Exc Artifact} (hid : mid.currentStepId = inst.currentStepId)
    (hnext : mid.next = inst.next) (hgate : ¬ AtGate mid step) (h : Settles i mid cur step bs r) :
    Settles i inst cur step bs r := by
  cases h with
  | moved hc hlast hres => exact .moved (hc.trans hnext) hlast hres
  | failed hc ht hlast => exact .failed (hc.trans hid) ht hlast
  | paused _ _ hg _ => exact absurd hg hgate
  | raised hc => exact .raised (hc.trans hid)

theorem Attempt.invoked {agent : Option String} {inst : WorkflowInstance} {step : WorkflowStep}
    (hs : inst.currentStep = some step) {retries : ℕ} {R : Except Exc Artifact × World}
    (h : Attempt E i agent inst step w retries R)
    (again : ∀ n, retries = n + 1 → ∀ {w' : World} {cur : WorkflowInstance},
      w'.instances.get? i = some cur → cur.currentStep = some step →
      ∃ ms, Invoked E i cur step w' (executeStepFrom E i agent n none w') ms) :
    ∃ ms, Invoked E i inst step w R ms := by
  obtain ⟨-, hby⟩ := bind_stepById_eq_some.1 hs
  cases h with
  | ended hfirst hi₁ hpass => exact hpass.invoked hfirst hi₁
  | @exhausted w' ms inst' params secret n e hraised =>
    obtain ⟨cur, hcur, hwf, hid, -⟩ := hraised.stands
    obtain ⟨hall, hne⟩ := hraised.raised.forwards
    have hof : w'.WorkflowOf i inst.workflow := ⟨cur, hcur, hwf⟩
    obtain ⟨f, hidx⟩ := stepIndex_of_stepById hby
    -- compensations run no forward body
    obtain ⟨ns, hgo, -, hfw, -, -, -⟩ :=
      exhaustStep_fails (E := E) hof inst' hidx hby params secret n e
    obtain ⟨end', hend, hplace⟩ := hgo.inst hcur
    have hwf' : end'.workflow = inst.workflow := (congrArg Place.workflow hplace).trans hwf
    have hid' : end'.currentStepId = inst.currentStepId := (congrArg Place.cursor hplace).trans hid
    have hms : forwards i (ms ++ ns) = forwards i ms := by
      rw [forwards_append, hfw, List.append_nil]
    refine ⟨_, ⟨hraised.trail.trans hgo.toTrail, ?_, ⟨end', hend, hwf', ?_⟩, ?_⟩⟩
    · rw [hms]
      exact fun b hb => (hall b hb).1
    · rw [hms]
      exact .failed hid' rfl fun b hb => (hall b (List.mem_of_getLast? hb)).2
    · rw [hms]
      exact fun hc hg _ _ => hne (hraised.reached hc hg)
  | @again n w' ms hraised =>
    obtain ⟨cur, hcur, hwf, hid, hatt⟩ := hraised.stands
    obtain ⟨hall, hne⟩ := hraised.raised.forwards
    have hsame : cur.currentStep = some step := by
      rw [← hs]
      exact currentStep_congr hwf hid
    have hnext : cur.next = inst.next := by
      unfold WorkflowInstance.next
      rw [hid, hwf]
    obtain ⟨ns, htrail, hown, ⟨end', hend, hwf', hset⟩, -⟩ := again n rfl hcur hsame
    -- the attempts that raised come first, the others settle the step
    have hset' := hset.after_raised (fun b hb => (hall b hb).2) fun hg => hatt hg.2
    refine ⟨_, ⟨hraised.trail.trans htrail, ?_, ⟨end', hend, hwf'.trans hwf, ?_⟩, ?_⟩⟩
    · intro b hb
      rw [forwards_append] at hb
      rcases List.mem_append.1 hb with hb | hb
      · exact (hall b hb).1
      · exact hown b hb
    · rw [forwards_append]
      exact hset'.again hid hnext fun hg => hatt hg.2
    · intro hc hg _ _
      rw [forwards_append]
      have := hne (hraised.reached hc hg)
      simp [this]

theorem executeStepFrom_invoked (agent : Option String) :
    ∀ retries policy {w : World} {inst : WorkflowInstance} {step : WorkflowStep},
      w.instances.get? i = some inst → inst.currentStep = some step →
      ∃ ms, Invoked E i inst step w (executeStepFrom E i agent retries policy w) ms := by
  intro retries
  induction retries with
  | zero =>
    intro policy w inst step hi hs
    exact (executeStepFrom_attempt hi hs agent 0 policy).invoked hs fun n hn => by cases hn
  | succ retries ih =>
    intro policy w inst step hi hs
    refine (executeStepFrom_attempt hi hs agent _ policy).invoked hs fun n hn => ?_
    cases hn
    exact fun hcur hs' => ih none hcur hs'

/-- **A call of `execute_step`.** -/
theorem executeStep_invoked {inst : WorkflowInstance} {step : WorkflowStep}
    (hi : w.instances.get? i = some inst) (hs : inst.currentStep = some step)
    (agent : Option String) (policy : Option SandboxPolicy) :
    ∃ ms, Invoked E i inst step w (executeStep E i agent policy w) ms := by
  unfold executeStep
  simp only [hi]
  have hi' : (w.record (.enter i)).instances.get? i = some inst := hi
  obtain ⟨ms, htrail, hown, hset, hreached⟩ :=
    executeStepFrom_invoked (E := E) agent inst.retries policy hi' hs
  have henter : Trail w (w.record (.enter i)) [] := Trail.of_record (a := .enter i) rfl id
  generalize executeStepFrom E i agent inst.retries policy (w.record (.enter i)) = R
    at htrail hset hreached ⊢
  have hleave : Trail R.2 (R.2.record (.leave i)) [] := Trail.of_record (a := .leave i) rfl id
  refine ⟨ms, ⟨?_, hown, hset, fun hc => hreached (hc.congr rfl rfl)⟩⟩
  simpa using (henter.trans htrail).trans hleave

/-!
## Outcomes and the bodies behind them

The planner walks its own order and the engine moves its own cursor; an outcome is
charged to the step that the planner has reached, and made by the body that the
engine has reached.

* `outcomes_attributed`: the two are the same step until the first replan, or until a
  body returns an artifact of one of the engine's own types. As long as they are the
  same after that, and gate, guard, circuit and gateway let the body through, every
  outcome is made by the body of the step that it is charged to.
* `outcome_without_body`: a step whose tool answers with an error artifact is charged
  with a success that no body stands behind.
-/

open History

variable {wf : Workflow}

/-- The forward bodies of `i` that were run in a call of the executor. -/
def Call.bodies (i : String) (c : Call World) : List BodyRun :=
  forwards i (marks (c.after.trace.drop c.before.trace.length))

/-- How the planner reads what a body did. -/
def BodyRun.outcome (b : BodyRun) : OutcomeStatus :=
  match b.result with
  | .ok a => outcomeStatus a.type
  | .error _ => .failure

/-- An outcome for the plan step `k` of call `c` is one for the workflow step `x`: `k` is `x`, or
one of the halves that a replan has made of it. -/
def StandsFor (h : List (LogEntry World)) (c : Call World) (k : String) (x : WorkflowStep) : Prop :=
  k = x.id ∨ ∃ failed : PlanStep, .replan failed c.plan ∈ h ∧ failed.stepId = x.id ∧
    (k = x.id ++ "-a" ∨ k = x.id ++ "-b")

/-- The outcome of a call is the one of the last body run in it, and all bodies run in it are
those of the step that the outcome is charged to. -/
def Attributed (i : String) (wf : Workflow) (h : List (LogEntry World)) : LogEntry World → Prop
  | .call c => ∀ o, c.result = .ok o → ∃ x ∈ wf.steps, StandsFor h c o.stepId x ∧
      (∀ b ∈ c.bodies i, b.call.step = x) ∧
      ∃ b, (c.bodies i).getLast? = some b ∧ o.status = b.outcome
  | _ => True

/-- What drives the planner and the engine apart: a replan, or a body that returned an artifact
which the engine takes for a result and the planner does not. -/
def Unsettling (i : String) : LogEntry World → Prop
  | .call c => ∃ b ∈ c.bodies i, ∃ a, b.result = .ok a ∧ b.outcome ≠ .success
  | .replan _ _ => True
  | .skip _ _ _ => False

/-- The state before a call: nothing keeps the current step's body from being run, and once the
planner and the engine were driven apart, that step is again the one the call is for. -/
def InStep (E : Env) (i : String) (h : List (LogEntry World)) : LogEntry World → Prop
  | .call c =>
    ((∃ e ∈ h, Unsettling i e) → ∃ cur x, c.before.instances.get? i = some cur ∧
      cur.currentStep = some x ∧ StandsFor h c c.step.stepId x) ∧
    ∀ cur x, c.before.instances.get? i = some cur → cur.currentStep = some x →
      Clear E c.before i cur x ∧ ¬ AtGate cur x
  | _ => True

/-! ## One call of the executor -/

/-- What a call did: with the last body's artifact the cursor moved on, with its exception it
stayed, and without an outcome it stayed as well. -/
inductive Served (inst cur : WorkflowInstance) (k : String) (bs : List BodyRun) :
    Except Exc ExecutionOutcome → Prop where
  | moved {o : ExecutionOutcome} {b : BodyRun} {a : Artifact} : cur.currentStepId = inst.next →
    bs.getLast? = some b → b.result = .ok a → o.stepId = k → o.status = b.outcome →
    Served inst cur k bs (.ok o)
  | failed {o : ExecutionOutcome} {b : BodyRun} {e : Exc} :
    cur.currentStepId = inst.currentStepId → bs.getLast? = some b → b.result = .error e →
    o.stepId = k → o.status = b.outcome → Served inst cur k bs (.ok o)
  | raised {e : Exc} : cur.currentStepId = inst.currentStepId → Served inst cur k bs (.error e)

theorem executor_serves {inst : WorkflowInstance} {x : WorkflowStep}
    (hi : w.instances.get? i = some inst) (hs : inst.currentStep = some x)
    (hclear : Clear E w i inst x) (hgate : ¬ AtGate inst x) {planId : String} {c : Call World}
    (hb : c.before = w) (hc : executor E i planId c.step w = (c.result, c.after)) :
    ∃ cur, c.after.instances.get? i = some cur ∧ cur.workflow = inst.workflow ∧
      (∀ b ∈ c.bodies i, b.call.step = x) ∧
      Served inst cur c.step.stepId (c.bodies i) c.result := by
  obtain ⟨ms, htrail, hown, ⟨cur, hcur, hwf, hset⟩, hreached⟩ :=
    executeStep_invoked (E := E) hi hs none none
  unfold executor at hc
  generalize executeStep E i none none w = R at hc htrail hcur hset hreached
  obtain ⟨r, w'⟩ := R
  have hown' : ∀ b ∈ forwards i ms, b.call.step = x := fun b hm => (hown b hm).2.2
  -- the bodies of the call are those that this execution ran
  cases r with
  | error e =>
    obtain ⟨hres, hafter⟩ := Prod.mk.inj hc
    have hbodies : c.bodies i = forwards i ms := by
      unfold Call.bodies
      rw [← hafter, hb, htrail.marks_drop]
    rw [hbodies, ← hres, ← hafter]
    cases hset with
    | raised hid => exact ⟨cur, hcur, hwf, hown', .raised hid⟩
  | ok a =>
    obtain ⟨hres, hafter⟩ := Prod.mk.inj hc
    have hbodies : c.bodies i = forwards i ms := by
      unfold Call.bodies
      rw [← hafter, hb, htrail.marks_drop]
    rw [hbodies, ← hres, ← hafter]
    refine ⟨cur, hcur, hwf, hown', ?_⟩
    have hne := hreached hclear hgate a rfl
    cases hset with
    | moved hid hlast hok =>
      exact .moved hid hlast hok rfl (by unfold BodyRun.outcome; rw [hok])
    | failed hid ht hall =>
      have hlast := List.getLast?_eq_some_getLast hne
      set b := (forwards i ms).getLast hne
      obtain ⟨e, he⟩ := hall b hlast
      refine .failed hid hlast he rfl ?_
      unfold BodyRun.outcome
      rw [he, ht]
      rfl
    | paused _ _ hg _ => exact absurd hg hgate

theorem Served.outcome {inst cur : WorkflowInstance} {k : String} {bs : List BodyRun}
    {r : Except Exc ExecutionOutcome} (h : Served inst cur k bs r) {o : ExecutionOutcome}
    (hr : r = .ok o) : o.stepId = k ∧ ∃ b, bs.getLast? = some b ∧ o.status = b.outcome := by
  cases h with
  | moved _ hlast _ hk ho => cases hr; exact ⟨hk, _, hlast, ho⟩
  | failed _ hlast _ hk ho => cases hr; exact ⟨hk, _, hlast, ho⟩
  | raised => cases hr

/-- Where bodies return nothing unsettling, the cursor moves with the successes. -/
theorem Served.cursor {inst cur : WorkflowInstance} {c : Call World}
    (h : Served inst cur c.step.stepId (c.bodies i) c.result) (hplain : ¬ Unsettling i (.call c)) :
    cur.currentStepId = if c.succeeded then inst.next else inst.currentStepId := by
  unfold Call.succeeded
  generalize hr : c.result = r at h
  cases h with
  | @moved o b a hid hlast hok _ ho =>
    have hsucc : b.outcome = .success := by
      by_contra hne
      exact hplain ⟨b, List.mem_of_getLast? hlast, a, hok, hne⟩
    simp [ho, hsucc, hid]
  | @failed o b e hid _ herr _ ho =>
    have hfail : b.outcome = .failure := by
      unfold BodyRun.outcome
      rw [herr]
    simp [ho, hfail, hid]
  | raised hid => simpa using hid

/-! ## The two cursors -/

/-- The instance runs `wf`, and unless planner and engine were driven apart, the engine is at the
step that follows as many steps as have succeeded. -/
def Aligned (i : String) (wf : Workflow) (h : List (LogEntry World)) (w : World) : Prop :=
  ∃ cur, w.instances.get? i = some cur ∧ cur.workflow = wf ∧
    ((∀ e ∈ h, ¬ Unsettling i e) →
      cur.currentStepId = (wf.steps[(successes h).length]?).map (·.id))

theorem place_of_position {inst : WorkflowInstance} (hd : (inst.workflow.steps.map (·.id)).Nodup)
    {n : ℕ} {x : WorkflowStep} (hx : inst.workflow.steps[n]? = some x)
    (hid : inst.currentStepId = some x.id) : inst.currentStep = some x ∧
      inst.next = (inst.workflow.steps[n + 1]?).map (·.id) := by
  obtain ⟨hby, hidx⟩ := stepById_of_getElem hd hx
  unfold WorkflowInstance.currentStep WorkflowInstance.next
  rw [hid]
  refine ⟨hby, ?_⟩
  simp [hidx]

theorem mem_of_currentStep {inst : WorkflowInstance} {x : WorkflowStep}
    (hs : inst.currentStep = some x) : x ∈ inst.workflow.steps := by
  obtain ⟨-, hby⟩ := bind_stepById_eq_some.1 hs
  exact List.mem_of_find?_eq_some hby

theorem planSteps_getElem {n : ℕ} {s : PlanStep} (h : (planSteps wf)[n]? = some s) :
    ∃ x, wf.steps[n]? = some x ∧ s.stepId = x.id := by
  unfold planSteps at h
  rw [List.getElem?_map] at h
  obtain ⟨x, hx, rfl⟩ := Option.map_eq_some_iff.1 h
  exact ⟨x, hx, rfl⟩

/-- **The step of the call is the engine's step.** -/
theorem Aligned.meets {h : List (LogEntry World)} {c : Call World}
    (hd : (wf.steps.map (·.id)).Nodup) (hal : Aligned i wf h c.before)
    (hstep : InStep E i h (.call c)) (hturn : InTurn (planSteps wf) h (.call c)) :
    ∃ cur x, c.before.instances.get? i = some cur ∧ cur.workflow = wf ∧
      cur.currentStep = some x ∧ StandsFor h c c.step.stepId x ∧
      ((∀ e ∈ h, ¬ Unsettling i e) →
        cur.currentStepId = (wf.steps[(successes h).length]?).map (·.id) ∧
        cur.next = (wf.steps[(successes h).length + 1]?).map (·.id)) := by
  obtain ⟨cur, hcur, rfl, hpos⟩ := hal
  by_cases hun : ∃ e ∈ h, Unsettling i e
  · obtain ⟨cur', x, hcur', hs, hfor⟩ := hstep.1 hun
    rw [hcur] at hcur'
    cases hcur'
    obtain ⟨e, he, hue⟩ := hun
    exact ⟨cur, x, hcur, rfl, hs, hfor, fun hno => absurd hue (hno e he)⟩
  · have hno : ∀ e ∈ h, ¬ Unsettling i e := fun e he hue => hun ⟨e, he, hue⟩
    have hplan : ∀ e ∈ h, e.isReplan = false := by
      intro e he
      cases e with
      | replan failed adapted => exact absurd trivial (hno _ he)
      | _ => rfl
    obtain ⟨x, hx, hk⟩ := planSteps_getElem (hturn hplan).1
    have hid := hpos hno
    have hidx : cur.currentStepId = some x.id := by rw [hid, hx]; rfl
    obtain ⟨hs, hnext⟩ := place_of_position hd hx hidx
    exact ⟨cur, x, hcur, rfl, hs, .inl hk, fun _ => ⟨hid, hnext⟩⟩

/-- **One call** is attributed, and keeps planner and engine aligned. -/
theorem Aligned.call {h : List (LogEntry World)} {c : Call World} {planId : String}
    (hd : (wf.steps.map (·.id)).Nodup) (hal : Aligned i wf h c.before)
    (hstep : InStep E i h (.call c)) (hturn : InTurn (planSteps wf) h (.call c))
    (hc : executor E i planId c.step c.before = (c.result, c.after)) :
    Attributed i wf h (.call c) ∧ Aligned i wf (h ++ [.call c]) c.after := by
  obtain ⟨cur, x, hcur, rfl, hs, hfor, hpos⟩ := hal.meets hd hstep hturn
  obtain ⟨hclear, hgate⟩ := hstep.2 cur x hcur hs
  obtain ⟨cur', hcur', hwf, hown, hserved⟩ := executor_serves hcur hs hclear hgate rfl hc
  refine ⟨fun o ho => ?_, cur', hcur', hwf, fun hno => ?_⟩
  · obtain ⟨hk, b, hlast, hout⟩ := hserved.outcome ho
    exact ⟨x, mem_of_currentStep hs, by rw [hk]; exact hfor, hown, b, hlast, hout⟩
  · obtain ⟨hid, hnext⟩ := hpos fun e he => hno e (List.mem_append_left _ he)
    have hplain : ¬ Unsettling i (.call c) := hno _ (by simp)
    rw [hserved.cursor hplain, successes_append, List.length_append]
    cases hsucc : c.succeeded with
    | true => simp [successes, LogEntry.success?, hsucc, hnext]
    | false => simp [successes, LogEntry.success?, hsucc, hid]

/-- A record of calls made as the planner makes them, from a world with aligned cursors. -/
theorem attributed_of_inStep {planId : String} (hd : (wf.steps.map (·.id)).Nodup)
    (hal : Aligned i wf [] w) {log : List (LogEntry World)}
    (htrue : Always (Truthful (executor E i planId) w) log)
    (hturn : Always (InTurn (planSteps wf)) log) (hstep : Always (InStep E i) log) :
    Always (Attributed i wf) log ∧ Aligned i wf log (hostAfter w log) := by
  induction log using List.reverseRecOn with
  | nil => exact ⟨always_nil, hal⟩
  | append_singleton h e ih =>
    obtain ⟨htrue, hte⟩ := always_snoc.1 htrue
    obtain ⟨hturn, hue⟩ := always_snoc.1 hturn
    obtain ⟨hstep, hse⟩ := always_snoc.1 hstep
    obtain ⟨hatt, hal'⟩ := ih htrue hturn hstep
    rw [hostAfter_snoc]
    cases e with
    | call c =>
      obtain ⟨hbefore, hexec⟩ := hte
      rw [← hbefore] at hal'
      obtain ⟨hac, halc⟩ := hal'.call hd hse hue hexec
      exact ⟨always_snoc.2 ⟨hatt, hac⟩, halc⟩
    | replan failed adapted =>
      -- from here on the cursors need not agree any more
      refine ⟨always_snoc.2 ⟨hatt, trivial⟩, ?_⟩
      obtain ⟨cur, hcur, hwf, -⟩ := hal'
      exact ⟨cur, hcur, hwf, fun hno => absurd trivial (hno (.replan failed adapted) (by simp))⟩
    | skip plan step o =>
      -- a step that is skipped counts as no success
      refine ⟨always_snoc.2 ⟨hatt, trivial⟩, ?_⟩
      obtain ⟨cur, hcur, hwf, hpos⟩ := hal'
      refine ⟨cur, hcur, hwf, fun hno => ?_⟩
      have hnone : successes [(.skip plan step o : LogEntry World)] = [] := rfl
      rw [successes_append, hnone, List.append_nil]
      exact hpos fun e he => hno e (List.mem_append_left _ he)

/-! ## `execute_adaptive` -/

theorem createPlan_getPlan (P : PlannerEnv) (workflowId : String) (steps : List PlanStep)
    (p : Planner) :
    (createPlan P workflowId steps p).2.getPlan (createPlan P workflowId steps p).1.planId =
      some (createPlan P workflowId steps p).1 := by
  unfold createPlan Planner.getPlan
  simp only
  have hemits : ∀ (ss : List PlanStep) (f : PlanStep → PlannerEvent) (q : Planner),
      (ss.foldl (fun q s => q.emit (f s)) q).plans = q.plans := by
    intro ss f
    induction ss with
    | nil => intro q; rfl
    | cons s ss ih => intro q; exact ih _
  rw [hemits]
  simp [Planner.emit, Planner.persistPlan]

/-- The planner walks the workflow's steps in their order. -/
theorem executePlanned_inTurn {inst : WorkflowInstance}
    (hd : (inst.workflow.steps.map (·.id)).Nodup) (p : Planner) (w : World) :
    Always (InTurn (planSteps inst.workflow)) (executePlanned E i inst p w).2.log := by
  have hget := createPlan_getPlan E.planner inst.workflow.id (planSteps inst.workflow) p
  have hsteps : (createPlan E.planner inst.workflow.id (planSteps inst.workflow) p).1.steps =
      planSteps inst.workflow := rfl
  unfold executePlanned
  generalize createPlan E.planner inst.workflow.id (planSteps inst.workflow) p = R at hget hsteps ⊢
  obtain ⟨plan, q⟩ := R
  simp only at hget hsteps ⊢
  have hids : (plan.steps.map (·.stepId)).Nodup := by
    rw [hsteps]
    unfold planSteps
    rw [List.map_map]
    exact hd
  have hfree : ∀ s ∈ plan.steps, s.dependencies = [] := by
    rw [hsteps]
    intro s hs
    obtain ⟨x, -, rfl⟩ := List.mem_map.1 hs
    rfl
  -- steps without dependencies are sorted into the order they have
  have hsort : toposort { plan with status := .active } = .ok plan.steps :=
    toposort_independent hids hfree
  unfold executePlan
  rw [hget]
  simp only [hsort]
  obtain ⟨new, hlog, hrun⟩ := orderedLoop_run E.planner (executor E i plan.planId) plan.steps
    { plan with status := .active }
    ⟨(q.setPlan { plan with status := .active }).persistPlan { plan with status := .active }, w, []⟩
  rw [List.nil_append] at hlog
  have hturn := hrun.inTurn
  rw [← hlog, hsteps] at hturn
  rw [hsteps]
  generalize orderedLoop E.planner _ _ (planSteps inst.workflow) _ = R at hturn ⊢
  obtain ⟨r, s⟩ := R
  cases r with
  | error e => exact hturn
  | ok plan' =>
    simp only
    split
    · exact hturn
    · exact hturn

/-- **Outcomes are made by the bodies of the steps they are charged to**, in every
`execute_adaptive` that keeps in step. -/
theorem outcomes_attributed {inst : WorkflowInstance} (hi : w.instances.get? i = some inst)
    (hd : (inst.workflow.steps.map (·.id)).Nodup)
    (hfirst : inst.currentStepId = inst.workflow.steps.head?.map (·.id)) (p : Planner)
    (hstep : Always (InStep E i) (executePlanned E i inst p w).2.log) :
    Always (Attributed i inst.workflow) (executePlanned E i inst p w).2.log := by
  have hal : Aligned i inst.workflow [] w := by
    refine ⟨inst, hi, rfl, fun _ => ?_⟩
    rw [hfirst, List.head?_eq_getElem?]
    rfl
  have htrue := executePlan_truthful E.planner
    (executor E i (createPlan E.planner inst.workflow.id (planSteps inst.workflow) p).1.planId)
    (createPlan E.planner inst.workflow.id (planSteps inst.workflow) p).1.planId
    (createPlan E.planner inst.workflow.id (planSteps inst.workflow) p).2 w
  exact (attributed_of_inStep hd hal htrue (executePlanned_inTurn hd p w) hstep).1

/-! ## Plain runs, and a failing tool -/

/-- A call on a step without gate and gateway, by an engine without guard and circuits, whose
bodies return nothing unsettling. -/
def LogEntry.plain (i : String) : LogEntry World → Bool
  | .call c => c.before.parts.guard.isNone && c.before.parts.resilience.isNone &&
      (((c.before.instances.get? i).bind (·.currentStep)).all fun x =>
        !isMcp x && !x.requiresApproval) &&
      (c.bodies i).all fun b => b.result.toOption.isNone || b.outcome = .success
  | .replan _ _ => false
  | .skip _ _ _ => true

theorem clear_of_bare {inst : WorkflowInstance} {x : WorkflowStep} (hg : w.parts.guard = none)
    (hr : w.parts.resilience = none) (hm : isMcp x = false) : Clear E w i inst x := by
  refine ⟨fun h => by rw [hm] at h; exact absurd h.1 (by decide), ?_⟩
  obtain ⟨hgo, -, -⟩ := interpolateParams_frame (E := E) (i := i) w (resolveInputs x inst)
  have hpkg : guardedPackage w x = none := by
    unfold guardedPackage
    simp [hg]
  unfold Unhindered Admitted
  rw [hpkg]
  have hbare := hgo.bare hr
  simp [hbare]

/-- **A plain run keeps in step.** -/
theorem inStep_of_plain {log : List (LogEntry World)}
    (h : log.all (LogEntry.plain i) = true) : Always (InStep E i) log := by
  rw [List.all_eq_true] at h
  have hcalm : ∀ e ∈ log, ¬ Unsettling i e := by
    intro e he hu
    have hp := h e he
    cases e with
    | call c =>
      obtain ⟨b, hb, a, ha, hne⟩ := hu
      simp only [LogEntry.plain, Bool.and_eq_true, List.all_eq_true] at hp
      have := hp.2 b hb
      simp [ha, hne, Except.toOption] at this
    | replan failed adapted => cases hp
    | skip plan step o => exact hu
  rw [always_iff_split]
  intro l e u hl
  have hp := h e (by rw [hl]; simp)
  cases e with
  | call c =>
    simp only [LogEntry.plain, Bool.and_eq_true, Option.isNone_iff_eq_none] at hp
    obtain ⟨⟨⟨hg, hr⟩, hx⟩, -⟩ := hp
    constructor
    · rintro ⟨e, he, hu⟩
      exact absurd hu (hcalm e (by rw [hl]; exact List.mem_append_left _ he))
    · intro cur x hcur hs
      rw [hcur] at hx
      simp only [Option.bind_some, hs, Option.all_some, Bool.and_eq_true, Bool.not_eq_true'] at hx
      have hopen : ¬ x.requiresApproval = true := by simp [hx.2]
      exact ⟨clear_of_bare hg hr hx.1, fun hgate => hopen hgate.1⟩
  | _ => trivial

def retried : Env := Env.scripted fun n => n ≠ 0

def pairWorkflow : Workflow :=
  { id := "w", steps := [{ id := "a", capability := "c" }, { id := "b", capability := "c" }] }

def pairInst : WorkflowInstance :=
  { workflow := pairWorkflow, status := .running, currentStepId := some "a", startedAt := 0 }

def pairWorld : World := World.run retried [.start pairWorkflow]

/-- The first body raises, the others return. -/
theorem outcomes_attributed_retried : Always (Attributed "" pairInst.workflow)
    (executePlanned retried "" pairInst {} pairWorld).2.log := by
  have hplain : (executePlanned retried "" pairInst {} pairWorld).2.log.all
      (LogEntry.plain "") = true := by decide +kernel
  have hi : pairWorld.instances.get? "" = some pairInst := rfl
  have hd : (pairInst.workflow.steps.map (·.id)).Nodup := by decide
  have hfirst : pairInst.currentStepId = pairInst.workflow.steps.head?.map (·.id) := rfl
  -- nothing here may look into the run
  with_reducible exact outcomes_attributed hi hd hfirst {} (inStep_of_plain hplain)

/-- An outcome that no body stands behind. -/
def LogEntry.bodiless (i : String) : LogEntry World → Bool
  | .call c => c.result.toOption.isSome && (c.bodies i).isEmpty
  | _ => false

theorem not_attributed_of_bodiless {log : List (LogEntry World)}
    (h : log.any (LogEntry.bodiless i) = true) : ¬ Always (Attributed i wf) log := by
  intro hatt
  obtain ⟨e, he, hb⟩ := List.any_eq_true.1 h
  obtain ⟨l, u, rfl⟩ := List.append_of_mem he
  have hac := always_iff_split.1 hatt l e u rfl
  cases e with
  | call c =>
    simp only [LogEntry.bodiless, Bool.and_eq_true, List.isEmpty_iff] at hb
    cases hr : c.result with
    | error e => simp [hr, Except.toOption] at hb
    | ok o =>
      obtain ⟨x, -, -, -, b, hlast, -⟩ := hac o hr
      simp [hb.2] at hlast
  | _ => cases hb

/-- A tool whose server cannot be reached: the gateway answers with an error artifact. -/
def failingTool : Env :=
  { Env.scripted fun _ => true with
    body := fun _ _ => .ok ⟨"artifact", "error", .none, some "mcp:s"⟩
    body_not_cancelled := by simp }

def toolWorkflow : Workflow := { id := "w", steps := [{ id := "a", capability := "mcp:s::t" }] }

def toolInst : WorkflowInstance :=
  { workflow := toolWorkflow, status := .running, currentStepId := some "a", startedAt := 0 }

def toolWorld : World := World.run failingTool [.arrange { mcp := true }, .start toolWorkflow]

/-- **A success without a body**: the error artifact completes the step, and the planner's retry
finds a completed workflow. -/
theorem outcome_without_body :
    toolWorld.instances.get? "" = some toolInst ∧ (toolWorkflow.steps.map (·.id)).Nodup ∧
    toolInst.currentStepId = toolWorkflow.steps.head?.map (·.id) ∧
    ¬ Always (Attributed "" toolWorkflow)
      (executePlanned failingTool "" toolInst {} toolWorld).2.log := by
  have hany : (executePlanned failingTool "" toolInst {} toolWorld).2.log.any
      (LogEntry.bodiless "") = true := by decide +kernel
  exact ⟨rfl, by decide, rfl, not_attributed_of_bodiless hany⟩

end Hermes

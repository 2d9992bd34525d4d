import Hermes.Proof.Calls

/-!
# A run from the first step to the last

On an engine without planner, guard, sandbox and vault, a workflow with distinct step
ids, without approvals and MCP steps, is run as a list.

* `AtStep`: what is noted down while one step is attempted.
* `Linear`: the steps are attempted one after another, up to the first that fails.
* `runLoop_linear`, `linear_run`: the loop of `execute_adaptive` runs so.
* `breach_unfailed`: a body that raises a `SandboxError` leaves the instance running.
-/

namespace Hermes

open World

variable {E : Env} {i : String} {w w' : World} {wf : Workflow} {ns ms : List Note} {st : Standing}
  {x : WorkflowStep} {n m : ℕ}

/-! ## What the notes tell -/

/-- The steps that were attempted. -/
def startedIds (ns : List Note) : List String :=
  ns.filterMap fun
    | .started _ k => some k
    | _ => none

/-- The steps that were completed. -/
def completedIds (ns : List Note) : List String :=
  ns.filterMap fun
    | .completed _ k _ => some k
    | _ => none

/-- The forward bodies. -/
def forwardRuns (ns : List Note) : List BodyRun :=
  (bodiesRun ns).filter fun b => b.call.kind = .forward

@[simp] theorem startedIds_append (ns ms : List Note) :
    startedIds (ns ++ ms) = startedIds ns ++ startedIds ms := List.filterMap_append

@[simp] theorem completedIds_append (ns ms : List Note) :
    completedIds (ns ++ ms) = completedIds ns ++ completedIds ms := List.filterMap_append

@[simp] theorem forwardRuns_append (ns ms : List Note) :
    forwardRuns (ns ++ ms) = forwardRuns ns ++ forwardRuns ms := by
  unfold forwardRuns
  rw [bodiesRun_append, List.filter_append]

/-- The attempts that a retry policy allows. -/
def WorkflowStep.allowed (x : WorkflowStep) : ℕ := max 1 x.retryPolicy.maxAttempts.toNat

/-- A forward body of the step returned. -/
def Returned (ns : List Note) (x : WorkflowStep) : Prop :=
  ∃ b ∈ forwardRuns ns, b.call.step = x ∧ b.result.isOk = true

/-- **The step used up its retries**: every attempt that its policy allows was made, and none
returned. -/
def Exhausted (ns : List Note) (x : WorkflowStep) : Prop :=
  (startedIds ns).count x.id = x.allowed ∧ ¬ Returned ns x

/-- **A linear run of a workflow**, of which `ns` was noted down, which ended with `r` and left the
instance with `status`. `Stop` says how it may end when a step used up its retries. -/
structure LinearRun (Stop : WorkflowStatus → Except Exc (List Artifact) → Prop) (wf : Workflow)
    (ns : List Note) (status : WorkflowStatus) (r : Except Exc (List Artifact)) : Prop where
  attempts : ∃ n : WorkflowStep → ℕ,
    startedIds ns = wf.steps.flatMap fun x => List.replicate (n x) x.id
  within : ∀ x ∈ wf.steps, (startedIds ns).count x.id ≤ x.allowed
  bodies : ∃ n : WorkflowStep → ℕ,
    (forwardRuns ns).map (·.call.step) = wf.steps.flatMap fun x => List.replicate (n x) x
  stops : ∀ pre x post, wf.steps = pre ++ x :: post → Exhausted ns x →
    Stop status r ∧ ∀ y ∈ post, ∀ b ∈ forwardRuns ns, b.call.step ≠ y
  completed : status = .completed ∧ completedIds ns = wf.steps.map (·.id) ↔
    ∀ x ∈ wf.steps, Returned ns x
  status : status = .completed ↔ ∀ x ∈ wf.steps, Returned ns x
  raised : ∀ e, r = .error e → e.kind = .sandboxError ∧ ∃ b ∈ forwardRuns ns, b.result = .error e

/-! ## One step -/

/-- **What is noted down at the step `x`**: `n` attempts, and whether a body returned. -/
structure AtStep (x : WorkflowStep) (n : ℕ) (ok : Bool) (ns : List Note) : Prop where
  started : startedIds ns = List.replicate n x.id
  forward : ∀ b ∈ forwardRuns ns, b.call.step = x
  returned : (∃ b ∈ forwardRuns ns, b.result.isOk = true) ↔ ok = true
  completed : completedIds ns = if ok then [x.id] else []

/-- Failed attempts come first. -/
theorem AtStep.after {ok : Bool} (h : AtStep x n false ns) (h' : AtStep x m ok ms) :
    AtStep x (n + m) ok (ns ++ ms) := by
  refine ⟨?_, ?_, ?_, ?_⟩
  · rw [startedIds_append, h.started, h'.started, List.replicate_append_replicate]
  · intro b hb
    rw [forwardRuns_append] at hb
    rcases List.mem_append.1 hb with hb | hb
    · exact h.forward b hb
    · exact h'.forward b hb
  · rw [← h'.returned, forwardRuns_append]
    constructor
    · rintro ⟨b, hb, hok⟩
      rcases List.mem_append.1 hb with hb | hb
      · exact absurd (h.returned.1 ⟨b, hb, hok⟩) (by simp)
      · exact ⟨b, hb, hok⟩
    · rintro ⟨b, hb, hok⟩
      exact ⟨b, List.mem_append_right _ hb, hok⟩
  · rw [completedIds_append, h.completed, h'.completed]
    rfl

/-- Notes that are not about the step. -/
theorem AtStep.blank (hs : startedIds ns = []) (hf : forwardRuns ns = [])
    (hc : completedIds ns = []) : AtStep x 0 false ns := by
  refine ⟨hs, ?_, ?_, hc⟩
  · rw [hf]
    simp
  · rw [hf]
    simp

/-- And so do notes that come last. -/
theorem AtStep.then {ok : Bool} (h : AtStep x n ok ns) (hs : startedIds ms = [])
    (hf : forwardRuns ms = []) (hc : completedIds ms = []) : AtStep x n ok (ns ++ ms) := by
  refine ⟨?_, ?_, ?_, ?_⟩
  · rw [startedIds_append, hs, List.append_nil]
    exact h.started
  · rw [forwardRuns_append, hf, List.append_nil]
    exact h.forward
  · rw [forwardRuns_append, hf, List.append_nil]
    exact h.returned
  · rw [completedIds_append, hc, List.append_nil]
    exact h.completed

theorem Faulty.startedIds (h : Faulty i x ms) : startedIds ms = [] := by
  refine List.filterMap_eq_nil_iff.2 fun n hn => ?_
  obtain ⟨b, rfl, -⟩ := h n hn
  rfl

theorem Faulty.completedIds (h : Faulty i x ms) : completedIds ms = [] := by
  refine List.filterMap_eq_nil_iff.2 fun n hn => ?_
  obtain ⟨b, rfl, -⟩ := h n hn
  rfl

/-- The forward bodies of a failed attempt. -/
theorem Faulty.forward (h : Faulty i x ms) {b : BodyRun} (hb : b ∈ forwardRuns ms) :
    b.call.step = x ∧ ∃ e, b.result = .error e := by
  obtain ⟨b', hb', -, -, hx, he⟩ := h _ (mem_bodiesRun.1 (List.mem_of_mem_filter hb))
  cases hb'
  exact ⟨hx, he⟩

/-- **A failed attempt.** -/
theorem Faulty.atStep (h : Faulty i x ms) : AtStep x 1 false (Note.started i x.id :: ms) := by
  have hsplit : Note.started i x.id :: ms = [Note.started i x.id] ++ ms := rfl
  have hfwd : forwardRuns (Note.started i x.id :: ms) = forwardRuns ms := by
    rw [hsplit, forwardRuns_append]
    rfl
  refine ⟨?_, ?_, ?_, ?_⟩
  · rw [hsplit, startedIds_append, h.startedIds]
    rfl
  · intro b hb
    rw [hfwd] at hb
    exact (h.forward hb).1
  · rw [hfwd]
    constructor
    · rintro ⟨b, hb, hok⟩
      obtain ⟨e, he⟩ := (h.forward hb).2
      rw [he] at hok
      cases hok
    · intro hno
      cases hno
  · rw [hsplit, completedIds_append, h.completedIds]
    rfl

theorem Failures.atStep {fs : List Note} (h : Failures i x n fs) : AtStep x n false fs := by
  induction h with
  | nil => exact .blank rfl rfl rfl
  | @cons n ms ns hms _ ih =>
    have hone : AtStep x 1 false (Note.started i x.id :: ms ++ [Note.failed i x.id]) :=
      hms.atStep.then rfl rfl rfl
    rw [Nat.add_comm]
    exact hone.after ih

/-- A body that returned. -/
theorem atStep_returned {b : BodyRun} {a : Artifact} (hk : b.call.kind = .forward)
    (hx : b.call.step = x) (hr : b.result = .ok a) :
    AtStep x 1 true [.started i x.id, .ran b, .completed i x.id a.id, .advanced i] := by
  have hfwd : forwardRuns [.started i x.id, .ran b, .completed i x.id a.id, .advanced i] = [b] := by
    unfold forwardRuns bodiesRun
    simp [hk]
  refine ⟨rfl, ?_, ?_, rfl⟩
  · rw [hfwd]
    intro b' hb'
    rw [List.mem_singleton.1 hb', hx]
  · rw [hfwd]
    refine ⟨fun _ => rfl, fun _ => ⟨b, List.mem_singleton_self b, ?_⟩⟩
    rw [hr]
    rfl

theorem Undone.forwardRuns (h : Undone i ns) : forwardRuns ns = [] := by
  refine List.filter_eq_nil_iff.2 fun b hb => ?_
  obtain ⟨b', hb', -, hk, -⟩ := h _ (mem_bodiesRun.1 hb)
  cases hb'
  rw [hk]
  decide

theorem Undone.startedIds (h : Undone i ns) : startedIds ns = [] := by
  refine List.filterMap_eq_nil_iff.2 fun n hn => ?_
  obtain ⟨b, rfl, -⟩ := h n hn
  rfl

theorem Undone.completedIds (h : Undone i ns) : completedIds ns = [] := by
  refine List.filterMap_eq_nil_iff.2 fun n hn => ?_
  obtain ⟨b, rfl, -⟩ := h n hn
  rfl

/-! ## A call -/

/-- An engine without guard, sandbox and vault. -/
structure Wiring.Plain (W : Wiring) : Prop where
  rules : W.rules = none
  sandbox : W.sandbox = false
  vault : W.vault = false

/-- How a body is run in a plain engine. -/
theorem RanBody.plain {agent : Option String} {policy : Option SandboxPolicy}
    {inst : WorkflowInstance} {r : Except Exc Artifact} (hW : w.parts.wiring.Plain)
    (h : RanBody E i agent policy w inst x r ms st) : st = inst.counted x ∧ ∃ params,
      Tried E ⟨i, inst.workflow.id, ⟨.forward, some i, x, params, agent⟩, none, none⟩ false
        (w.parts.wiring.resilience = true) r ms := by
  obtain ⟨params, hdone⟩ := h.done
  cases hdone with
  | guarded _ hrules => rw [hW.rules] at hrules; cases hrules
  | plain _ _ htried => exact ⟨rfl, params, htried⟩
  | boxed _ hbox => rw [hW.sandbox] at hbox; cases hbox
  | broken _ hbox => rw [hW.sandbox] at hbox; cases hbox

/-- **What a call at the step `x` comes to** in a plain engine: the step is completed, it fails
for good, or a `SandboxError` of its body is raised. -/
inductive CallEnd (inst : WorkflowInstance) (x : WorkflowStep) (n : ℕ) (ns : List Note) :
    Except Exc Artifact → Standing → Prop where
  | completed {a : Artifact} {inst' : WorkflowInstance} : AtStep x n true ns →
    Retried inst inst' x (n - 1) → CallEnd inst x n ns (.ok a) (inst'.counted x).advanced
  | failed {a : Artifact} {st : Standing} : AtStep x n false ns → st.status = .failed →
    CallEnd inst x n ns (.ok a) st
  | raised {e : Exc} {inst' : WorkflowInstance} {b : BodyRun} : AtStep x n false ns →
    Retried inst inst' x (n - 1) → e.kind = .sandboxError → b ∈ forwardRuns ns →
    b.result = .error e → CallEnd inst x n ns (.error e) (inst'.counted x)

/-- The last attempt of a call. -/
theorem AttemptDone.plain {agent : Option String} {policy : Option SandboxPolicy}
    {inst inst' : WorkflowInstance} {retries : ℕ} {r : Except Exc Artifact} {fs : List Note}
    (hW : w.parts.wiring.Plain) (hgate : x.requiresApproval = false) (hmcp : isMcp x = false)
    (hfs : AtStep x n false fs) (hagain : Retried inst inst' x n)
    (h : AttemptDone E i agent policy w inst' x retries (some r, w')) :
    ∃ ms st', Writes i w w' ms st' ∧ CallEnd inst x (n + 1) (fs ++ ms) r st' := by
  cases h with
  | paused hat => rw [hat.1] at hgate; cases hgate
  | unresolved _ hvault => rw [hW.vault] at hvault; cases hvault
  | unwired _ _ his => rw [his] at hmcp; cases hmcp
  | @completed _ a ms _ hran hw =>
    obtain ⟨-, params, htried⟩ := hran.plain hW
    obtain ⟨b, rfl, hbi, hbc, hbr⟩ := htried.returned rfl
    refine ⟨_, _, hw, .completed (hfs.after ?_) hagain⟩
    exact atStep_returned (by rw [hbc]) (by rw [hbc]) hbr
  | @denied _ e a ms _ hk hran _ hw =>
    have hfault := hran.faulty hk
    have hone : AtStep x 1 false (Note.started i x.id :: ms ++ [Note.failed i x.id]) :=
      hfault.atStep.then rfl rfl rfl
    exact ⟨_, _, hw, .failed (hfs.after hone) rfl⟩
  | @broken _ e ms st' _ hk hran hw =>
    obtain ⟨rfl, params, htried⟩ := hran.plain hW
    have hfault : Faulty i x ms := htried.faulty rfl
    refine ⟨_, _, hw, ?_⟩
    -- a circuit refuses with an exception of another kind, so the body was run
    generalize hr : (Except.error e : Except Exc Artifact) = r at htried
    cases htried with
    | refused _ hne => cases hr; exact absurd hk hne
    | @ran b hbi hbc _ _ _ =>
      rw [← hr]
      refine .raised (hfs.after hfault.atStep) hagain hk ?_ hr.symm
      · rw [forwardRuns_append]
        refine List.mem_append_right _ (List.mem_filter.2 ⟨mem_bodiesRun.2 (by simp), ?_⟩)
        rw [hbc]
        rfl
  | @exhausted e a ms us _ hk hran _ hus hw =>
    have hfault := hran.faulty hk
    have hone : AtStep x 1 false (Note.started i x.id :: ms ++ [Note.failed i x.id]) :=
      hfault.atStep.then rfl rfl rfl
    exact ⟨_, _, hw, .failed (hfs.after (hone.then hus.startedIds hus.forwardRuns hus.completedIds))
      rfl⟩

/-- Notes of a call are also notes of the call as it is left. -/
theorem CallEnd.left {inst : WorkflowInstance} {r : Except Exc Artifact}
    (h : CallEnd inst x n ns r st) : CallEnd inst x n (ns ++ [.left i]) r st := by
  cases h with
  | completed hat hagain => exact .completed (hat.then rfl rfl rfl) hagain
  | failed hat hs => exact .failed (hat.then rfl rfl rfl) hs
  | raised hat hagain hk hb hr =>
    refine .raised (hat.then rfl rfl rfl) hagain hk ?_ hr
    rw [forwardRuns_append]
    exact List.mem_append_left _ hb

/-- **A call of `execute_step`** at a step that was not attempted before. -/
theorem executeStep_plain {inst : WorkflowInstance} (hW : w.parts.wiring.Plain)
    (hi : w.instances.get? i = some inst) (hs : inst.currentStep = some x)
    (hfirst : inst.attempts x.id = 0) (hgate : x.requiresApproval = false)
    (hmcp : isMcp x = false) : ∃ n ns st', n ≤ x.allowed ∧
      Writes i w (executeStep E i none none w).2 ns st' ∧
      CallEnd inst x n ns (executeStep E i none none w).1 st' := by
  have hin : (w.record (.enter i)).instances.get? i = some inst := hi
  obtain ⟨n, fs, w₁, inst₁, hcall⟩ := executeStepFrom_done (E := E) none inst.retries none _ _ hin hs
  obtain ⟨policy, hlast⟩ := hcall.last
  have hW₁ : w₁.parts.wiring.Plain := by
    rw [hcall.writes.wiring]
    exact hW
  obtain ⟨ms, st', hw, hend⟩ := hlast.plain hW₁ hgate hmcp hcall.failures.atStep hcall.again
  have hentered : Writes i w (w.record (.enter i)) [] inst.standing :=
    (Writes.refl (standingOf_eq hi)).quiet rfl
  have hleft := ((hentered.trans hcall.writes).trans hw).record (.leave i)
  unfold executeStep
  rw [hi]
  refine ⟨n + 1, _, st', ?_, hleft, hend.left⟩
  have hle := hcall.within
  unfold WorkflowInstance.retries at hle
  rw [hs] at hle
  simp only [hfirst] at hle
  unfold WorkflowStep.allowed
  omega

/-! ## From step to step -/

/-- How a run stops at a step that did not return: the instance has failed, or what a body raised
is raised. -/
inductive Stopped (ns : List Note) : WorkflowStatus → Option Exc → Prop where
  | failed : Stopped ns .failed none
  | raised {e : Exc} {b : BodyRun} : e.kind = .sandboxError → b ∈ forwardRuns ns →
    b.result = .error e → Stopped ns .running (some e)

/-- **The steps are attempted one after another**, up to the first that does not return. -/
inductive Linear : List WorkflowStep → List Note → WorkflowStatus → Option Exc → Prop where
  | nil : Linear [] [] .completed none
  | step {x : WorkflowStep} {xs : List WorkflowStep} {n : ℕ} {ns ms : List Note}
    {s : WorkflowStatus} {o : Option Exc} : n ≤ x.allowed → AtStep x n true ns →
    Linear xs ms s o → Linear (x :: xs) (ns ++ ms) s o
  | stop {x : WorkflowStep} {xs : List WorkflowStep} {n : ℕ} {ns : List Note}
    {s : WorkflowStatus} {o : Option Exc} : n ≤ x.allowed → AtStep x n false ns →
    Stopped ns s o → Linear (x :: xs) ns s o

/-- The instance is ready for the steps `x :: xs`, of which none was attempted. -/
structure Ready (wf : Workflow) (w : World) (i : String) (x : WorkflowStep)
    (xs : List WorkflowStep) (inst : WorkflowInstance) : Prop where
  wiring : w.parts.wiring.Plain
  there : w.instances.get? i = some inst
  workflow : inst.workflow = wf
  status : inst.status = .running
  cursor : inst.currentStepId = some x.id
  fresh : ∀ y ∈ x :: xs, inst.attempts y.id = 0

/-- The loop of `i` from `w` on, with the steps `xs` ahead, came to `R`. -/
def Runs (i : String) (w : World) (xs : List WorkflowStep)
    (R : Except Exc (List Artifact) × World) : Prop :=
  Ended i R ∧ ∃ ns st o, Linear xs ns st.status o ∧ Writes i w R.2 ns st ∧
    ∀ e, R.1 = .error e ↔ o = some e

section Loop

variable (hnodup : (wf.steps.map (·.id)).Nodup)
  (hgate : ∀ x ∈ wf.steps, x.requiresApproval = false) (hmcp : ∀ x ∈ wf.steps, isMcp x = false)
include hnodup

/-- A step with distinct ids is found by its id. -/
theorem stepById_of_mem (hx : x ∈ wf.steps) : stepById wf.steps x.id = some x := by
  unfold stepById
  cases hfind : wf.steps.find? (·.id = x.id) with
  | none =>
    have hno := List.find?_eq_none.1 hfind x hx
    simp at hno
  | some y =>
    have hid : y.id = x.id := of_decide_eq_true (List.find?_some hfind :)
    have hy := List.mem_of_find?_eq_some hfind
    exact congrArg some (List.inj_on_of_nodup_map hnodup hy hx hid)

/-- **What follows the step `x`.** -/
theorem next_of_split {inst : WorkflowInstance} {pre post : List WorkflowStep}
    (hsteps : wf.steps = pre ++ x :: post) (hwf : inst.workflow = wf)
    (hcur : inst.currentStepId = some x.id) :
    (inst.counted x).place.next = post.head?.map (·.id) := by
  have hids : wf.steps.map (·.id) = pre.map (·.id) ++ x.id :: post.map (·.id) := by
    rw [hsteps, List.map_append, List.map_cons]
  have hpre : x.id ∉ pre.map (·.id) := by
    intro h
    rw [hids, List.nodup_append'] at hnodup
    exact hnodup.2.2 h List.mem_cons_self
  have hplace : (inst.counted x).place.workflow = wf := hwf
  have hcursor : (inst.counted x).place.cursor = some x.id := hcur
  rw [Place.next_eq, hplace, hcursor, hids, Option.bind_some, Cursor.after_append hpre,
    List.head?_map]

/-- **A completed step**: the cursor has moved on to the steps that follow, of which none was
attempted. -/
theorem Ready.advanced {inst inst' inst₁ : WorkflowInstance} {pre post : List WorkflowStep} {n : ℕ}
    (h : Ready wf w i x post inst) (hsteps : wf.steps = pre ++ x :: post)
    (hagain : Retried inst inst' x n) (hst : inst₁.standing = (inst'.counted x).advanced) :
    inst₁.workflow = wf ∧ inst₁.currentStepId = post.head?.map (·.id) ∧
      inst₁.status = (if post.head?.map (·.id) = none then .completed else .running) ∧
      ∀ y ∈ post, inst₁.attempts y.id = 0 := by
  have hplace := congrArg Standing.place hst
  have hwf' : inst'.workflow = wf := hagain.workflow.trans h.workflow
  have hcur' : inst'.currentStepId = some x.id := hagain.cursor.trans h.cursor
  have hnext := next_of_split hnodup hsteps hwf' hcur'
  refine ⟨(congrArg Place.workflow hplace).trans hwf', (congrArg Place.cursor hplace).trans hnext,
    ?_, fun y hy => ?_⟩
  · have hrunning : (inst'.counted x).status = .running := hagain.status.trans h.status
    have hs₁ := congrArg Standing.status hst
    unfold Standing.advanced at hs₁
    simp only [hnext, hrunning] at hs₁
    exact hs₁
  · -- the ids are distinct, so the attempts at `x` are not counted for `y`
    have hne : y.id ≠ x.id := by
      rw [hsteps, List.map_append, List.map_cons, List.nodup_append'] at hnodup
      have hcons := (List.nodup_cons.1 hnodup.2.1).1
      exact fun heq => hcons (heq ▸ List.mem_map_of_mem hy)
    have hatt : inst₁.stepAttempts = inst'.stepAttempts.insert x.id (inst'.attempts x.id + 1) :=
      congrArg Place.attempts hplace
    have hsame := hagain.others y.id hne
    rw [h.fresh y (List.mem_cons_of_mem _ hy)] at hsame
    unfold WorkflowInstance.attempts at hsame ⊢
    rw [hatt, Dict.get?_insert_of_ne _ hne]
    exact hsame

include hgate hmcp

/-- **One round**, and the rest of the loop. -/
theorem runs_round {inst : WorkflowInstance} {pre post : List WorkflowStep}
    (hsteps : wf.steps = pre ++ x :: post) (h : Ready wf w i x post inst) (fuel : ℕ)
    (hrest : ∀ w₁ inst₁, w₁.parts.wiring.Plain → w₁.instances.get? i = some inst₁ →
      inst₁.workflow = wf → inst₁.currentStepId = post.head?.map (·.id) →
      inst₁.status = (if post.head?.map (·.id) = none then .completed else .running) →
      (∀ y ∈ post, inst₁.attempts y.id = 0) → Runs i w₁ post (runLoop E i fuel w₁)) :
    Runs i w (x :: post) (runLoop E i (fuel + 1) w) := by
  have hx : x ∈ wf.steps := by
    rw [hsteps]
    simp
  have hs : inst.currentStep = some x := by
    unfold WorkflowInstance.currentStep
    rw [h.cursor, h.workflow]
    exact stepById_of_mem hnodup hx
  have hgo : ¬ Halted w i := by
    rw [halted_iff h.there, not_not]
    exact ⟨h.status, by rw [h.cursor]; simp⟩
  obtain ⟨n, ns, st, hle, hw, hend⟩ := executeStep_plain (E := E) h.wiring h.there hs
    (h.fresh x List.mem_cons_self) (hgate x hx) (hmcp x hx)
  cases hR : executeStep E i none none w with
  | mk r w₁ =>
    rw [hR] at hw hend
    simp only at hw hend
    obtain ⟨inst₁, hi₁, hst⟩ := hw.inst
    cases hend with
    | @completed a inst' hat hagain =>
      obtain ⟨hworkflow, hcursor, hstatus, hfresh⟩ := h.advanced hnodup hsteps hagain hst
      have hW₁ : w₁.parts.wiring.Plain := by
        rw [hw.wiring]
        exact h.wiring
      obtain ⟨hended, ms, st', o, hlinear, hms, herr⟩ :=
        hrest w₁ inst₁ hW₁ hi₁ hworkflow hcursor hstatus hfresh
      rw [runLoop_round h.there hgo hR]
      refine ⟨(ended_map _ _).2 hended, ns ++ ms, st', o, .step hle hat hlinear, hw.trans hms, ?_⟩
      intro e
      rw [← herr e]
      cases (runLoop E i fuel w₁).1 <;> simp [Except.map]
    | @failed a _ hat hs₁ =>
      have hfailed : inst₁.status = .failed := (congrArg Standing.status hst).trans hs₁
      have hhalt : Halted w₁ i := halted_of_status hi₁ (by rw [hfailed]; decide)
      rw [runLoop_round h.there hgo hR, runLoop_halted hi₁ hhalt]
      refine ⟨.inr hhalt, ns, st, none, ?_, hw, fun e => by simp [Except.map]⟩
      rw [hs₁]
      exact .stop hle hat .failed
    | @raised e inst' b hat hagain hk hb hbr =>
      rw [runLoop_raised h.there hgo hR]
      refine ⟨.inl ⟨e, rfl⟩, ns, inst'.counted x, some e, ?_, hw, fun e' => by simp⟩
      have hrunning : (inst'.counted x).status = .running := hagain.status.trans h.status
      rw [hrunning]
      exact .stop hle hat (.raised hk hb hbr)

/-- **The loop** from the step `x` on. -/
theorem runLoop_linear : ∀ post pre x w inst fuel, wf.steps = pre ++ x :: post →
    Ready wf w i x post inst → post.length < fuel → Runs i w (x :: post) (runLoop E i fuel w) := by
  intro post
  -- on the steps that follow
  induction post with
  | nil =>
    intro pre x w inst fuel hsteps h hfuel
    obtain ⟨fuel, rfl⟩ : ∃ f, fuel = f + 1 := ⟨fuel - 1, by simp at hfuel; omega⟩
    refine runs_round hnodup hgate hmcp hsteps h fuel ?_
    intro w₁ inst₁ hW hi₁ hwf hcur hs₁ _
    have hhalt : Halted w₁ i := by
      rw [halted_iff hi₁]
      rintro ⟨-, hcur'⟩
      exact hcur' hcur
    have hcompleted : inst₁.standing.status = .completed := hs₁
    rw [runLoop_halted hi₁ hhalt]
    refine ⟨.inr hhalt, [], inst₁.standing, none, ?_, .refl (standingOf_eq hi₁),
      fun e => by simp⟩
    rw [hcompleted]
    exact .nil
  | cons y post ih =>
    intro pre x w inst fuel hsteps h hfuel
    obtain ⟨fuel, rfl⟩ : ∃ f, fuel = f + 1 := ⟨fuel - 1, by simp at hfuel; omega⟩
    refine runs_round hnodup hgate hmcp hsteps h fuel ?_
    intro w₁ inst₁ hW hi₁ hwf hcur hs₁ hfresh
    have hsplit : wf.steps = (pre ++ [x]) ++ y :: post := by
      rw [hsteps, List.append_assoc]
      rfl
    have hlt : post.length < fuel := by
      simp only [List.length_cons] at hfuel
      omega
    exact ih (pre ++ [x]) y w₁ inst₁ fuel hsplit ⟨hW, hi₁, hwf, hs₁, hcur, hfresh⟩ hlt

end Loop

/-! ## What a linear run is -/

/-- A step behind another one has another id. -/
theorem id_ne_of_mem {x y : WorkflowStep} {xs : List WorkflowStep} (hx : x.id ∉ xs.map (·.id))
    (hy : y ∈ xs) : y.id ≠ x.id := by
  intro h
  rw [← h] at hx
  exact hx (List.mem_map_of_mem hy)

section Reading

variable {xs : List WorkflowStep} {s : WorkflowStatus} {o : Option Exc}

/-- Only steps of the list are attempted. -/
theorem Linear.started_mem (h : Linear xs ns s o) : ∀ k ∈ startedIds ns, k ∈ xs.map (·.id) := by
  induction h with
  | nil => simp [startedIds]
  | step _ hat _ ih =>
    intro k hk
    rw [startedIds_append, hat.started] at hk
    rcases List.mem_append.1 hk with hk | hk
    · rw [List.eq_of_mem_replicate hk]
      exact List.mem_cons_self
    · exact List.mem_cons_of_mem _ (ih k hk)
  | stop _ hat _ =>
    intro k hk
    rw [hat.started] at hk
    rw [List.eq_of_mem_replicate hk]
    exact List.mem_cons_self

/-- The forward bodies at one step are bodies of that step. -/
theorem AtStep.bodies {ok : Bool} (h : AtStep x n ok ns) :
    (forwardRuns ns).map (·.call.step) = List.replicate (forwardRuns ns).length x := by
  rw [List.eq_replicate_iff]
  refine ⟨List.length_map _, fun y hy => ?_⟩
  obtain ⟨b, hb, rfl⟩ := List.mem_map.1 hy
  exact h.forward b hb

/-- **Repetitions of one element before those of others.** -/
theorem flatMap_first {α β : Type} [DecidableEq α] {x : α} {xs : List α} (hx : x ∉ xs) (f : α → β)
    (k : ℕ) (n : α → ℕ) : ∃ n' : α → ℕ,
      List.replicate k (f x) ++ (xs.flatMap fun y => List.replicate (n y) (f y)) =
        (x :: xs).flatMap fun y => List.replicate (n' y) (f y) := by
  refine ⟨Function.update n x k, ?_⟩
  rw [List.flatMap_cons, Function.update_self]
  congr 1
  refine List.flatMap_congr fun y hy => ?_
  have hne : y ≠ x := fun h => hx (h ▸ hy)
  rw [Function.update_of_ne hne]

/-- Repetitions of the first element only. -/
theorem flatMap_only {α β : Type} [DecidableEq α] {x : α} {xs : List α} (hx : x ∉ xs) (f : α → β)
    (k : ℕ) : ∃ n' : α → ℕ,
      List.replicate k (f x) = (x :: xs).flatMap fun y => List.replicate (n' y) (f y) := by
  obtain ⟨n', hn'⟩ := flatMap_first hx f k fun _ => 0
  refine ⟨n', ?_⟩
  rw [← hn']
  simp

variable (hnodup : (xs.map (·.id)).Nodup)
include hnodup

/-- **The attempts** come in list order, those of one step consecutively. -/
theorem Linear.attempts (h : Linear xs ns s o) :
    ∃ n : WorkflowStep → ℕ, startedIds ns = xs.flatMap fun x => List.replicate (n x) x.id := by
  induction h with
  | nil => exact ⟨fun _ => 0, rfl⟩
  | @step x xs n ns ms s o _ hat _ ih =>
    obtain ⟨hx, hxs⟩ := List.nodup_cons.1 hnodup
    obtain ⟨m, hm⟩ := ih hxs
    rw [startedIds_append, hat.started, hm]
    exact flatMap_first (fun h => hx (List.mem_map_of_mem h)) _ n m
  | @stop x xs n ns s o _ hat _ =>
    obtain ⟨hx, -⟩ := List.nodup_cons.1 hnodup
    rw [hat.started]
    exact flatMap_only (fun h => hx (List.mem_map_of_mem h)) _ n

/-- **The bodies**, too. -/
theorem Linear.bodies (h : Linear xs ns s o) : ∃ n : WorkflowStep → ℕ,
    (forwardRuns ns).map (·.call.step) = xs.flatMap fun x => List.replicate (n x) x := by
  induction h with
  | nil => exact ⟨fun _ => 0, rfl⟩
  | @step x xs n ns ms s o _ hat _ ih =>
    obtain ⟨hx, hxs⟩ := List.nodup_cons.1 hnodup
    obtain ⟨m, hm⟩ := ih hxs
    rw [forwardRuns_append, List.map_append, hat.bodies, hm]
    exact flatMap_first (fun h => hx (List.mem_map_of_mem h)) id _ m
  | @stop x xs n ns s o _ hat _ =>
    obtain ⟨hx, -⟩ := List.nodup_cons.1 hnodup
    rw [hat.bodies]
    exact flatMap_only (fun h => hx (List.mem_map_of_mem h)) id _

omit hnodup in
/-- The attempts at another step are not among those at `x`. -/
theorem AtStep.count {ok : Bool} (h : AtStep x n ok ns) (k : String) :
    (startedIds ns).count k = if k = x.id then n else 0 := by
  rw [h.started, List.count_replicate]
  by_cases hk : k = x.id
  · rw [if_pos hk, hk, beq_self_eq_true]
    rfl
  · have hne : (x.id == k) = false := beq_eq_false_iff_ne.2 (Ne.symm hk)
    rw [if_neg hk, hne]
    rfl

theorem Linear.within (h : Linear xs ns s o) : ∀ x ∈ xs, (startedIds ns).count x.id ≤ x.allowed := by
  induction h with
  | nil => simp
  | @step x xs n ns ms s o hle hat hrest ih =>
    obtain ⟨hx, hxs⟩ := List.nodup_cons.1 hnodup
    intro y hy
    rw [startedIds_append, List.count_append, hat.count]
    rcases List.mem_cons.1 hy with rfl | hy
    · have hnone : (startedIds ms).count y.id = 0 :=
        List.count_eq_zero.2 fun h => hx (hrest.started_mem _ h)
      rw [if_pos rfl]
      omega
    · have hne := id_ne_of_mem hx hy
      have hrest := ih hxs y hy
      rw [if_neg hne]
      omega
  | @stop x xs n ns s o hle hat _ =>
    obtain ⟨hx, -⟩ := List.nodup_cons.1 hnodup
    intro y hy
    rw [hat.count]
    rcases List.mem_cons.1 hy with rfl | hy
    · rw [if_pos rfl]
      exact hle
    · have hne := id_ne_of_mem hx hy
      rw [if_neg hne]
      omega

omit hnodup in
/-- Another step returned after the notes of `x` when it returned at all. -/
theorem returned_append_iff {ok : Bool} {y : WorkflowStep} (h : AtStep x n ok ns) (hne : y ≠ x) :
    Returned (ns ++ ms) y ↔ Returned ms y := by
  unfold Returned
  rw [forwardRuns_append]
  constructor
  · rintro ⟨b, hb, hy, hok⟩
    rcases List.mem_append.1 hb with hb | hb
    · exact absurd (hy.symm.trans (h.forward b hb)) hne
    · exact ⟨b, hb, hy, hok⟩
  · rintro ⟨b, hb, hy, hok⟩
    exact ⟨b, List.mem_append_right _ hb, hy, hok⟩

omit hnodup in
theorem AtStep.returned_iff {ok : Bool} (h : AtStep x n ok ns) : Returned ns x ↔ ok = true := by
  rw [← h.returned]
  constructor
  · rintro ⟨b, hb, -, hok⟩
    exact ⟨b, hb, hok⟩
  · rintro ⟨b, hb, hok⟩
    exact ⟨b, hb, h.forward b hb, hok⟩

/-- **Completed** exactly when every step returned. -/
theorem Linear.status_iff (h : Linear xs ns s o) :
    s = .completed ↔ ∀ x ∈ xs, Returned ns x := by
  induction h with
  | nil => simp
  | @step x xs n ns ms s o _ hat _ ih =>
    obtain ⟨hx, hxs⟩ := List.nodup_cons.1 hnodup
    have hne : ∀ y ∈ xs, y ≠ x := fun y hy h => id_ne_of_mem hx hy (congrArg _ h)
    have hfirst : Returned (ns ++ ms) x := by
      obtain ⟨b, hb, hid, hok⟩ := hat.returned_iff.2 rfl
      refine ⟨b, ?_, hid, hok⟩
      rw [forwardRuns_append]
      exact List.mem_append_left _ hb
    rw [ih hxs, List.forall_mem_cons]
    constructor
    · intro hall
      exact ⟨hfirst, fun y hy => (returned_append_iff hat (hne y hy)).2 (hall y hy)⟩
    · rintro ⟨-, hall⟩ y hy
      exact (returned_append_iff hat (hne y hy)).1 (hall y hy)
  | @stop x xs n ns s o _ hat hstop =>
    have hno : ¬ Returned ns x := fun h => by simpa using hat.returned_iff.1 h
    have hs : s ≠ .completed := by
      cases hstop with
      | failed => decide
      | raised => decide
    refine ⟨fun h => absurd h hs, fun hall => absurd (hall x List.mem_cons_self) hno⟩

omit hnodup in
/-- Each step is then completed once, in list order. -/
theorem Linear.completedIds_eq (h : Linear xs ns s o) (hs : s = .completed) :
    completedIds ns = xs.map (·.id) := by
  induction h with
  | nil => rfl
  | step _ hat _ ih =>
    rw [completedIds_append, hat.completed, ih hs]
    rfl
  | stop _ _ hstop => cases hstop <;> cases hs

/-- **The run stops at a step that used up its retries.** -/
theorem Linear.stops (h : Linear xs ns s o) {pre post : List WorkflowStep}
    (hsplit : xs = pre ++ x :: post) (hx : Exhausted ns x) :
    (s = .failed ∨ s = .running ∧ ∃ e, o = some e ∧ e.kind = .sandboxError) ∧
      ∀ y ∈ post, ∀ b ∈ forwardRuns ns, b.call.step ≠ y := by
  induction h generalizing pre with
  | nil => cases pre <;> cases hsplit
  | @step z xs n ns ms s o _ hat _ ih =>
    obtain ⟨hz, hxs⟩ := List.nodup_cons.1 hnodup
    cases pre with
    | nil =>
      obtain ⟨rfl, rfl⟩ := List.cons.inj hsplit
      obtain ⟨b, hb, hid, hok⟩ := hat.returned_iff.2 rfl
      refine absurd ⟨b, ?_, hid, hok⟩ hx.2
      rw [forwardRuns_append]
      exact List.mem_append_left _ hb
    | cons z' pre =>
      obtain ⟨rfl, rfl⟩ := List.cons.inj hsplit
      have hmem : x ∈ pre ++ x :: post := by simp
      have hid := id_ne_of_mem hz hmem
      have hne : x ≠ z := fun h => hid (congrArg _ h)
      have hrest : Exhausted ms x := by
        obtain ⟨hcount, hno⟩ := hx
        rw [startedIds_append, List.count_append, hat.count, if_neg hid, Nat.zero_add] at hcount
        exact ⟨hcount, fun h => hno ((returned_append_iff hat hne).2 h)⟩
      obtain ⟨hs, hlater⟩ := ih hxs rfl hrest
      refine ⟨hs, fun y hy b hb => ?_⟩
      rw [forwardRuns_append] at hb
      rcases List.mem_append.1 hb with hb | hb
      · have hyz := id_ne_of_mem hz (List.mem_append_right pre (List.mem_cons_of_mem x hy))
        rw [hat.forward b hb]
        exact fun h => hyz (congrArg _ h.symm)
      · exact hlater y hy b hb
  | @stop z xs n ns s o _ hat hstop =>
    obtain ⟨hz, -⟩ := List.nodup_cons.1 hnodup
    cases pre with
    | nil =>
      obtain ⟨rfl, rfl⟩ := List.cons.inj hsplit
      refine ⟨?_, fun y hy b hb => ?_⟩
      · cases hstop with
        | failed => exact .inl rfl
        | raised hk _ _ => exact .inr ⟨rfl, _, rfl, hk⟩
      · rw [hat.forward b hb]
        exact fun h => id_ne_of_mem hz hy (congrArg _ h.symm)
    | cons z' pre =>
      -- a step behind the one that stopped the run was not attempted
      obtain ⟨rfl, rfl⟩ := List.cons.inj hsplit
      have hmem : x ∈ pre ++ x :: post := by simp
      have hid := id_ne_of_mem hz hmem
      have hcount := hx.1
      rw [hat.count, if_neg hid] at hcount
      unfold WorkflowStep.allowed at hcount
      omega

omit hnodup in
theorem Linear.raised {e : Exc} (h : Linear xs ns s (some e)) :
    e.kind = .sandboxError ∧ ∃ b ∈ forwardRuns ns, b.result = .error e := by
  generalize ho : some e = o at h
  induction h with
  | nil => cases ho
  | step _ _ _ ih =>
    obtain ⟨hk, b, hb, hr⟩ := ih ho
    refine ⟨hk, b, ?_, hr⟩
    rw [forwardRuns_append]
    exact List.mem_append_right _ hb
  | stop _ _ hstop =>
    cases hstop with
    | failed => cases ho
    | raised hk hb hr =>
      cases ho
      exact ⟨hk, _, hb, hr⟩

end Reading

/-! ## The run of `execute_adaptive` -/

/-- An engine without planner, guard, sandbox and vault. -/
structure World.Plain (w : World) : Prop where
  planner : w.planner = none
  guard : w.parts.guard = none
  sandbox : w.parts.sandbox = false
  vault : w.parts.vault = none

/-- A workflow with at least one step and distinct ids, without approvals and MCP steps. -/
structure Workflow.Plain (wf : Workflow) : Prop where
  nonempty : wf.steps ≠ []
  distinct : (wf.steps.map (·.id)).Nodup
  ungated : ∀ x ∈ wf.steps, x.requiresApproval = false
  native : ∀ x ∈ wf.steps, isMcp x = false

/-- **`execute_adaptive` on a freshly started instance** ends, after a linear run. -/
def RunsLinearly (Stop : WorkflowStatus → Except Exc (List Artifact) → Prop) (E : Env)
    (wf : Workflow) (w₀ : World) : Prop :=
  ∀ fuel, wf.steps.length ≤ fuel →
    Ended (start E wf w₀).1 (executeAdaptive E (start E wf w₀).1 fuel (start E wf w₀).2) ∧
    ∃ ns st,
      Noted (start E wf w₀).2 (executeAdaptive E (start E wf w₀).1 fuel (start E wf w₀).2).2 ns ∧
      (executeAdaptive E (start E wf w₀).1 fuel (start E wf w₀).2).2.standingOf (start E wf w₀).1 =
        some st ∧
      LinearRun Stop wf ns st.status
        (executeAdaptive E (start E wf w₀).1 fuel (start E wf w₀).2).1

/-- The instance has failed, unless a `SandboxError` is raised. -/
def FailedOrRaised (status : WorkflowStatus) (r : Except Exc (List Artifact)) : Prop :=
  status = .failed ∨ status = .running ∧ ∃ e, r = .error e ∧ e.kind = .sandboxError

theorem start_plain {w₀ : World} (h : w₀.Plain) (wf : Workflow) :
    (start E wf w₀).1 = E.uuid w₀.tick ∧ (start E wf w₀).2.planner = none ∧
      (start E wf w₀).2.parts.wiring.Plain := by
  have hparts : (start E wf w₀).2.parts = w₀.parts := by
    unfold start
    simp only [record_parts, h.vault]
  have hplanner : (start E wf w₀).2.planner = w₀.planner := by
    unfold start
    simp only [record_parts, h.vault]
    rfl
  have hid : (start E wf w₀).1 = E.uuid w₀.tick := by
    unfold start
    simp only [record_parts, h.vault]
  rw [hparts, hplanner]
  refine ⟨hid, h.planner, ?_, h.sandbox, ?_⟩
  · have hguard : w₀.parts.wiring.rules = none := by
      unfold Parts.wiring
      rw [h.guard]
      rfl
    exact hguard
  · have hvault : w₀.parts.wiring.vault = false := by
      unfold Parts.wiring
      rw [h.vault]
      rfl
    exact hvault

/-- Every body raises a `SandboxError`. -/
def breachedEnv : Env :=
  { Env.scripted fun _ => true with
    body := fun _ _ => .error ⟨.sandboxError, "breach"⟩
    body_not_cancelled := by
      intro n c e h
      cases h
      decide }

instance (ns : List Note) (x : WorkflowStep) : Decidable (Exhausted ns x) :=
  inferInstanceAs (Decidable ((startedIds ns).count x.id = x.allowed ∧
    ¬ ∃ b ∈ forwardRuns ns, b.call.step = x ∧ b.result.isOk = true))

/-- One step with one attempt. -/
def onceWorkflow : Workflow :=
  { id := "w", steps := [{ id := "a", capability := "c", retryPolicy := { maxAttempts := 1 } }] }

end Hermes

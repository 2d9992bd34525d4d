import Hermes.Proof.Coverage
import Hermes.Proof.Results

/-!
# Data flow between steps

A step asks for a part of an earlier step's output with a reference
`x.output.f1.f2`. Its inputs should hold that part of the artifact that the body of
`x` returned.

* `LastOutput`: the artifact of the last completion of `x`.
* `Fed`: every reference of a step to the output of a completed step got its value.
* `resolve_reference`: what a reference reads in a blind engine.
* `data_flow_iff`: the references of a run get their values exactly when there is
  nothing to read.
* `content_lost`: the output of a step does not reach the next one.
-/

namespace Hermes

open World

variable {E : Env} {i x : String} {w w' : World} {ns ms : List Note} {a : Artifact}

/-! ## References -/

/-- `dict.get`. -/
def Value.get? : Value → String → Option Value
  | .dict kvs, k => (kvs.find? (·.1 = k)).map (·.2)
  | _, _ => none

/-- The value that a path leads to. -/
def Value.follow : Value → List String → Option Value
  | v, [] => some v
  | v, f :: fs => (v.get? f).bind (·.follow fs)

/-- `x.output.f1.f2` and so on. -/
def reference (x : String) (fields : List String) : String :=
  fields.foldl (fun ref f => ref ++ "." ++ f) (x ++ ".output")

/-- The id has no dot, or its second part is `output`, too. -/
def readable (x : String) : Bool :=
  match splitDots x.toList with
  | _ :: mid :: _ => mid = "output".toList
  | _ => true

theorem splitDots_ne_nil (s : List Char) : splitDots s ≠ [] := by
  cases s with
  | nil => simp [splitDots]
  | cons c cs =>
    unfold splitDots
    split
    · simp
    · split <;> simp

/-- **A dot splits.** -/
theorem splitDots_append (s t : List Char) :
    splitDots (s ++ '.' :: t) = splitDots s ++ splitDots t := by
  induction s with
  | nil => rfl
  | cons c cs ih =>
    rw [List.cons_append, splitDots, splitDots]
    by_cases hc : c = '.'
    · rw [if_pos hc, if_pos hc, ih, List.cons_append]
    · rw [if_neg hc, if_neg hc, ih]
      cases hcs : splitDots cs with
      | nil => exact absurd hcs (splitDots_ne_nil cs)
      | cons p ps => rfl

theorem splitDots_of_no_dot {s : List Char} (h : '.' ∉ s) : splitDots s = [s] := by
  induction s with
  | nil => rfl
  | cons c cs ih =>
    have hc : c ≠ '.' := fun hc => h (by simp [hc])
    have hcs : '.' ∉ cs := fun hd => h (List.mem_cons_of_mem _ hd)
    rw [splitDots, if_neg hc, ih hcs]

/-- **The parts of a reference.** -/
theorem splitDots_reference (x : String) {fields : List String}
    (h : ∀ f ∈ fields, '.' ∉ f.toList) : splitDots (reference x fields).toList =
      splitDots x.toList ++ "output".toList :: fields.map String.toList := by
  have hfold : ∀ (fields : List String) (ref : String), (∀ f ∈ fields, '.' ∉ f.toList) →
      splitDots (fields.foldl (fun ref f => ref ++ "." ++ f) ref).toList =
        splitDots ref.toList ++ fields.map String.toList := by
    intro fields
    induction fields with
    | nil => intro ref _; simp
    | cons f fs ih =>
      intro ref h
      obtain ⟨hf, hfs⟩ := List.forall_mem_cons.1 h
      have hone : (ref ++ "." ++ f).toList = ref.toList ++ '.' :: f.toList := by
        simp
      rw [List.foldl_cons, ih _ hfs, hone, splitDots_append, splitDots_of_no_dot hf]
      simp
  have hout : (x ++ ".output").toList = x.toList ++ '.' :: "output".toList := by
    simp
  have hword : splitDots "output".toList = ["output".toList] := splitDots_of_no_dot (by decide)
  unfold reference
  rw [hfold fields _ h, hout, splitDots_append, hword, List.append_assoc]
  rfl

/-- **What a reference reads without results.** -/
theorem resolve_reference (x f : String) (fs : List String)
    (h : ∀ g ∈ f :: fs, '.' ∉ g.toList) :
    resolveRef ∅ (reference x (f :: fs)) =
      if readable x then .none else .str (reference x (f :: fs)) := by
  unfold resolveRef readable
  rw [splitDots_reference x h]
  generalize "output".toList = word
  cases hx : splitDots x.toList with
  | nil => exact absurd hx (splitDots_ne_nil _)
  | cons src rest =>
    cases rest with
    | nil => simp
    | cons mid rest =>
      cases rest with
      | nil => by_cases hmid : mid = word <;> simp [hmid]
      | cons third rest => by_cases hmid : mid = word <;> simp [hmid]

/-! ## Outputs -/

/-- **The artifact that the body of `x` returned** when `x` was last completed. -/
def LastOutput (ns : List Note) (i x : String) (a : Artifact) : Prop :=
  ∃ u b v, ns = u ++ .ran b :: .completed i x a.id :: v ∧ b.inst = i ∧ b.call.kind = .forward ∧
    b.call.step.id = x ∧ b.result = .ok a ∧ ∀ c, .completed i x c ∉ v

theorem LastOutput.after (h : LastOutput ns i x a) (ms : List Note) :
    LastOutput (ms ++ ns) i x a := by
  obtain ⟨u, b, v, rfl, hb⟩ := h
  exact ⟨ms ++ u, b, v, by rw [List.append_assoc], hb⟩

/-- Unless it is completed again. -/
theorem LastOutput.before (h : LastOutput ns i x a) (hms : ∀ c, .completed i x c ∉ ms) :
    LastOutput (ns ++ ms) i x a := by
  obtain ⟨u, b, v, rfl, hi, hk, hx, hr, hv⟩ := h
  refine ⟨u, b, v ++ ms, ?_, hi, hk, hx, hr, ?_⟩
  · rw [List.append_assoc, List.cons_append, List.cons_append]
  · intro c hc
    rcases List.mem_append.1 hc with hc | hc
    · exact hv c hc
    · exact hms c hc

/-- Every completed step has an output. -/
def Delivered (ns : List Note) : Prop :=
  ∀ i x c, .completed i x c ∈ ns → ∃ a, LastOutput ns i x a

theorem Delivered.append (h : Delivered ns) (h' : Delivered ms) : Delivered (ns ++ ms) := by
  intro i x c hc
  by_cases hagain : ∃ c, .completed i x c ∈ ms
  · obtain ⟨c', hc'⟩ := hagain
    obtain ⟨a, ha⟩ := h' i x c' hc'
    exact ⟨a, ha.after ns⟩
  · simp only [not_exists] at hagain
    rcases List.mem_append.1 hc with hc | hc
    · obtain ⟨a, ha⟩ := h i x c hc
      exact ⟨a, ha.before hagain⟩
    · exact absurd hc (hagain c)

theorem Delivered.of_none (h : ∀ i x c, .completed i x c ∉ ns) : Delivered ns :=
  fun i x c hc => absurd hc (h i x c)

theorem Bodily.delivered (h : Bodily i ns) : Delivered ns := by
  refine .of_none fun j x c hc => ?_
  obtain ⟨b, hb, -⟩ := h _ hc
  cases hb

/-- A body that returned, and its step's completion. -/
theorem delivered_completed {b : BodyRun} {step : WorkflowStep} (hi : b.inst = i)
    (hk : b.call.kind = .forward) (hx : b.call.step = step) (hr : b.result = .ok a) :
    Delivered [.ran b, .completed i step.id a.id, .advanced i] := by
  intro j y c hc
  have hsame : j = i ∧ y = step.id := by
    simp only [List.mem_cons, List.not_mem_nil, or_false, reduceCtorEq, false_or,
      Note.completed.injEq] at hc
    exact ⟨hc.1, hc.2.1⟩
  obtain ⟨rfl, rfl⟩ := hsame
  exact ⟨a, [], b, [.advanced j], rfl, hi, hk, by rw [hx], hr, by simp⟩

/-! ## The notes of an attempt -/

/-- **What a forward body was given**: what came out of the interpolation of its step's inputs. What
it returned was made of that. -/
structure Supplied (E : Env) (w : World) (i : String) (b : BodyRun) : Prop where
  inputs : ∃ inst o, attemptInputs E i w = some (inst, b.call.step, .ok b.call.params, o)
  result : ∀ a, b.result = .ok a → ∃ n, E.body n b.call = .ok a

/-- The forward bodies of an attempt. -/
def AllSupplied (E : Env) (w : World) (i : String) (ns : List Note) : Prop :=
  ∀ b ∈ bodiesRun ns, b.call.kind = .forward → Supplied E w i b

theorem AllSupplied.append (h : AllSupplied E w i ns) (h' : AllSupplied E w i ms) :
    AllSupplied E w i (ns ++ ms) := by
  intro b hb
  rw [bodiesRun_append] at hb
  rcases List.mem_append.1 hb with hb | hb
  · exact h b hb
  · exact h' b hb

theorem Undone.supplied (h : Undone i ns) : AllSupplied E w i ns := by
  intro b hb hf
  obtain ⟨b', hb', -, hk, -⟩ := h _ (mem_bodiesRun.1 hb)
  cases hb'
  rw [hk] at hf
  cases hf

theorem RanBody.inputs {agent : Option String} {policy : Option SandboxPolicy}
    {inst : WorkflowInstance} {step : WorkflowStep} {r : Except Exc Artifact} {st : Standing}
    (h : RanBody E i agent policy w inst step r ms st) : AllSupplied E w i ms := by
  obtain ⟨params, o, hinputs, hdone⟩ := h.supplied
  have htried : ∀ {p : BodyPlan} {cut : Bool} {R : Prop} {r : Except Exc Artifact} {ms : List Note},
      p.call = ⟨.forward, some i, step, params, agent⟩ → Tried E p cut R r ms →
      AllSupplied E w i ms := by
    intro p cut R r ms hp htried b hb _
    cases htried with
    | refused => cases hb
    | @ran b' _ hc _ _ hbody =>
      obtain rfl : b = b' := List.mem_singleton.1 hb
      obtain ⟨n, hbody⟩ := hbody
      refine ⟨⟨inst, o, by rw [hc, hp]; exact hinputs⟩, fun a ha => ⟨n, ?_⟩⟩
      rw [ha] at hbody
      cases cut with
      | true => cases hbody
      | false =>
        rw [hc]
        exact hbody.symm
  cases hdone with
  | guarded _ _ hrun _ => exact htried rfl hrun
  | plain _ _ hrun => exact htried rfl hrun
  | boxed _ _ hrun _ => exact htried rfl hrun
  | broken _ _ _ hrun hus _ => exact (htried rfl hrun).append hus.supplied

/-- **The notes of an attempt**: what its bodies were given, and what its step delivered. -/
theorem attemptStep_flow (w : World) (i : String) (agent : Option String) (retries : ℕ)
    (policy : Option SandboxPolicy) : ∃ ns, Noted w (attemptStep E i agent retries policy w).2 ns ∧
      AllSupplied E w i ns ∧ Delivered ns := by
  have hnone : AllSupplied E w i [] ∧ Delivered [] := ⟨by simp [AllSupplied, bodiesRun],
    .of_none (by simp)⟩
  rcases attemptStep_cases (E := E) w i agent retries policy with hidle | ⟨inst, step, hi, hcur, h⟩
  · exact ⟨[], hidle.noted, hnone⟩
  · generalize attemptStep E i agent retries policy w = R at h ⊢
    -- a note that is neither a body nor a completion
    have hone : ∀ {n : Note}, (∀ b, n ≠ .ran b) → (∀ j k c, n ≠ .completed j k c) →
        AllSupplied E w i [n] ∧ Delivered [n] := by
      intro n hran hcomp
      refine ⟨fun b hb => ?_, .of_none fun j k c hc => ?_⟩
      · exact absurd (List.mem_singleton.1 (mem_bodiesRun.1 hb)).symm (hran b)
      · exact absurd (List.mem_singleton.1 hc).symm (hcomp j k c)
    have hstart : AllSupplied E w i [Note.started i step.id] ∧ Delivered [Note.started i step.id] :=
      hone (by simp) (by simp)
    have hfail : AllSupplied E w i [Note.failed i step.id] ∧ Delivered [Note.failed i step.id] :=
      hone (by simp) (by simp)
    have hcons : ∀ {ms : List Note}, AllSupplied E w i ms → Delivered ms →
        AllSupplied E w i (Note.started i step.id :: ms) ∧ Delivered (Note.started i step.id :: ms) :=
      fun hs hd => ⟨hstart.1.append hs, hstart.2.append hd⟩
    cases h with
    | paused _ _ _ hw => exact ⟨_, hw.noted, hnone⟩
    | unresolved _ _ hw => exact ⟨_, hw.noted, hstart⟩
    | unwired _ _ _ _ _ hw => exact ⟨_, hw.noted, hstart.1.append hfail.1, hstart.2.append hfail.2⟩
    | @completed _ a ms _ hran hw =>
      obtain ⟨params, hdone⟩ := hran.done
      obtain ⟨b, rfl, hbi, hbc, hbr⟩ := hdone.returned
      have hquiet : AllSupplied E w i [.completed i step.id a.id, .advanced i] := by
        simp [AllSupplied, bodiesRun]
      have hout : Delivered [.ran b, .completed i step.id a.id, .advanced i] :=
        delivered_completed hbi (by rw [hbc]) (by rw [hbc]) hbr
      exact ⟨_, hw.noted, hstart.1.append (hran.inputs.append hquiet), hstart.2.append hout⟩
    | denied _ hran _ hw =>
      obtain ⟨hs, hd⟩ := hcons hran.inputs hran.bodily.delivered
      exact ⟨_, hw.noted, hs.append hfail.1, hd.append hfail.2⟩
    | broken _ hran hw => exact ⟨_, hw.noted, hcons hran.inputs hran.bodily.delivered⟩
    | exhausted _ hran _ hus hw =>
      obtain ⟨hs, hd⟩ := hcons hran.inputs hran.bodily.delivered
      exact ⟨_, hw.noted, (hs.append hfail.1).append hus.supplied,
        (hd.append hfail.2).append hus.bodily.delivered⟩
    | again _ hran hw =>
      obtain ⟨hs, hd⟩ := hcons hran.inputs hran.bodily.delivered
      exact ⟨_, hw.noted, hs.append hfail.1, hd.append hfail.2⟩

theorem Point.flow (p : Point) : ∃ ns, Noted p.before (p.after E) ns ∧
    AllSupplied E p.before p.inst ns ∧ Delivered ns := by
  cases p with
  | attempt i agent called policy retries w => exact attemptStep_flow w i agent retries policy
  | rejection i stepId w =>
    obtain ⟨us, hus, hnoted⟩ := compensate_noted (E := E) w i stepId
    exact ⟨us, hnoted, hus.supplied, hus.bodily.delivered⟩

/-- A forward body returned what the surroundings made of its call. -/
def Answered (E : Env) (ns : List Note) : Prop :=
  ∀ b ∈ bodiesRun ns, b.call.kind = .forward → ∀ a, b.result = .ok a → ∃ n, E.body n b.call = .ok a

theorem run_answered (ops : List EngineOp) :
    ∀ p ∈ runPoints E ops, Answered E (notes p.before.trace) := by
  refine ((World.run_through E ops).invariant (I := fun w => Answered E (notes w.trace)) ?_ ?_ ?_).2
  · intro w w' hq h
    obtain ⟨ms, hms, hleft⟩ := hq.notes
    intro b hb
    rw [hms, bodiesRun_append] at hb
    rcases List.mem_append.1 hb with hb | hb
    · exact h b hb
    · obtain ⟨j, hj⟩ := hleft _ (mem_bodiesRun.1 hb)
      cases hj
  · intro p h
    obtain ⟨ns, hnoted, hs, -⟩ := p.flow (E := E)
    intro b hb hf
    rw [hnoted.eq, bodiesRun_append] at hb
    rcases List.mem_append.1 hb with hb | hb
    · exact h b hb hf
    · exact (hs b hb hf).result
  · intro b hb
    cases hb

/-- **Every completed step has an output**, at every point of a run. -/
theorem run_delivered (ops : List EngineOp) :
    ∀ p ∈ runPoints E ops, Delivered (notes p.before.trace) := by
  refine ((World.run_through E ops).invariant (I := fun w => Delivered (notes w.trace)) ?_ ?_ ?_).2
  · intro w w' hq h
    obtain ⟨ms, hms, hleft⟩ := hq.notes
    rw [hms]
    refine h.append (.of_none fun i x c hc => ?_)
    obtain ⟨j, hj⟩ := hleft _ hc
    cases hj
  · intro p h
    obtain ⟨ns, hnoted, -, hns⟩ := p.flow (E := E)
    rw [hnoted.eq]
    exact h.append hns
  · exact .of_none (by simp)

/-! ## The flow of a run -/

/-- **The step is fed**: each of its references to the output of a completed step stands, in
`params`, for the value that the path leads to there, or `None`. -/
def Fed (ns : List Note) (i : String) (step : WorkflowStep) (params : List (String × Value)) :
    Prop :=
  ∀ (n : ℕ) (k x f : String) (fs : List String) (a : Artifact),
    step.inputMapping[n]? = some (k, reference x (f :: fs)) →
    (∀ g ∈ f :: fs, '.' ∉ g.toList) → LastOutput ns i x a →
    params[n]? = some (k, (a.content.follow (f :: fs)).getD .none)

/-- **There is nothing to read**: the paths that the step refers to lead nowhere, or to `None`. (A
reference that is not readable is taken as a text, so it is that text that must be there.) -/
def NothingToRead (ns : List Note) (i : String) (step : WorkflowStep) : Prop :=
  ∀ (n : ℕ) (k x f : String) (fs : List String) (a : Artifact),
    step.inputMapping[n]? = some (k, reference x (f :: fs)) →
    (∀ g ∈ f :: fs, '.' ∉ g.toList) → LastOutput ns i x a →
    if readable x then (a.content.follow (f :: fs)).getD .none = .none
    else a.content.follow (f :: fs) = some (.str (reference x (f :: fs)))

theorem fed_blind_iff (ns : List Note) (i : String) (step : WorkflowStep) :
    Fed ns i step (blindInputs step) ↔ NothingToRead ns i step := by
  have hvalue : ∀ {x f : String} {fs : List String} (v : Option Value),
      (∀ g ∈ f :: fs, '.' ∉ g.toList) →
      (resolveRef ∅ (reference x (f :: fs)) = v.getD .none ↔
        if readable x then v.getD .none = .none
        else v = some (.str (reference x (f :: fs)))) := by
    intro x f fs v hdots
    rw [resolve_reference x f fs hdots]
    by_cases hx : readable x = true
    · rw [if_pos hx, if_pos hx]
      exact eq_comm
    · rw [if_neg hx, if_neg hx]
      cases v with
      | none => simp
      | some v =>
        rw [Option.getD_some, Option.some.injEq]
        exact eq_comm
  unfold Fed NothingToRead
  refine forall₅_congr fun n k x f fs => forall_congr' fun a => forall₃_congr fun href hdots _ => ?_
  rw [← hvalue (a.content.follow (f :: fs)) hdots]
  have hget : (blindInputs step)[n]? = some (k, resolveRef ∅ (reference x (f :: fs))) := by
    unfold blindInputs
    rw [List.getElem?_map, href]
    rfl
  rw [hget, Option.some.injEq, Prod.mk.injEq]
  exact and_iff_right rfl

/-- The instance and the step of an attempt that gets past the gate. -/
def Point.input (E : Env) : Point → Option (WorkflowInstance × WorkflowStep)
  | .attempt i _ _ _ _ w => (attemptInputs E i w).map fun (inst, step, _) => (inst, step)
  | .rejection _ _ _ => none

/-- **Data flows** through a run: the inputs of every attempt and of every compensation are fed. -/
def DataFlows (E : Env) (ops : List EngineOp) : Prop :=
  (∀ p ∈ runPoints E ops, ∀ inst step, p.input E = some (inst, step) →
    Fed (notes p.before.trace) p.inst step (resolveInputs step inst)) ∧
  ∀ u b v, notes (World.run E ops).trace = u ++ .ran b :: v → b.call.kind = .compensation →
    Fed u b.inst b.call.step b.call.params

/-- No attempt and no compensation of a run has anything to read. -/
def NothingFlows (E : Env) (ops : List EngineOp) : Prop :=
  (∀ p ∈ runPoints E ops, ∀ inst step, p.input E = some (inst, step) →
    NothingToRead (notes p.before.trace) p.inst step) ∧
  ∀ u b v, notes (World.run E ops).trace = u ++ .ran b :: v → b.call.kind = .compensation →
    NothingToRead u b.inst b.call.step

theorem mem_notes_ran {t : List Action} {b : BodyRun} (h : .ran b ∈ notes t) : .body b ∈ t := by
  obtain ⟨act, hmem, hnote⟩ := List.mem_filterMap.1 h
  cases act with
  | body b' => cases hnote; exact hmem
  | event e => cases e <;> cases hnote
  | _ => cases hnote

/-- The instance of an attempt's inputs. -/
theorem attemptInputs_inst {inst : WorkflowInstance} {step : WorkflowStep}
    {o : Except Exc (List (String × Value)) × Bool × World}
    (h : attemptInputs E i w = some (inst, step, o)) : w.instances.get? i = some inst := by
  unfold attemptInputs at h
  cases hi : w.instances.get? i with
  | none => rw [hi] at h; cases h
  | some inst' =>
    simp only [hi] at h
    split at h
    · cases h
    · split at h
      · cases h
      · cases h; rfl

theorem Point.input_inst {p : Point} {inst : WorkflowInstance} {step : WorkflowStep}
    (h : p.input E = some (inst, step)) : p.before.instances.get? p.inst = some inst := by
  cases p with
  | rejection => cases h
  | attempt i agent called policy retries w =>
    obtain ⟨⟨inst', step', o⟩, ho, heq⟩ := Option.map_eq_some_iff.1 h
    cases heq
    exact attemptInputs_inst ho

/-- **Data flows through a run** exactly when there is nothing to read. The forward bodies are
given what came out of the interpolation of these inputs, and every completed step has an
output. -/
theorem data_flow_iff (E : Env) (ops : List EngineOp) :
    ((∀ p ∈ runPoints E ops, ∀ b ∈ p.bodies E, b.call.kind = .forward →
        Supplied E p.before p.inst b) ∧
      ∀ p ∈ runPoints E ops, Delivered (notes p.before.trace)) ∧
    (DataFlows E ops ↔ NothingFlows E ops) := by
  obtain ⟨hend, hpoints⟩ := World.run_blind E ops
  refine ⟨⟨fun p _ b hb => ?_, run_delivered ops⟩, and_congr ?_ ?_⟩
  · obtain ⟨ns, hnoted, hsup, -⟩ := p.flow (E := E)
    rw [hnoted.bodies] at hb
    exact hsup b hb
  · -- a forward body is given what its references read in the results of its instance
    refine forall₂_congr fun p hp => forall₂_congr fun inst step => forall_congr' fun hin => ?_
    rw [resolveInputs_blind ((hpoints p hp).results _ inst (Point.input_inst hin))]
    exact fed_blind_iff _ _ step
  · -- a compensation is given the same, as the engine is blind
    refine forall₃_congr fun u b v => forall₂_congr fun hsplit hk => ?_
    have hmem : .body b ∈ (World.run E ops).trace := by
      refine mem_notes_ran ?_
      rw [hsplit]
      simp
    rw [hend.undone b hmem hk]
    exact fed_blind_iff _ _ _

/-- The second step asks for a part of the first one's output. -/
def askingStep : WorkflowStep :=
  { id := "b", capability := "c", inputMapping := [("k", reference "a" ["out"])] }

/-- Every body returns a dictionary. -/
def outputEnv : Env :=
  { Env.scripted fun _ => true with
    body := fun _ _ => .ok ⟨"artifact", "task", .dict [("out", .int 1)], none⟩
    body_not_cancelled := by
      intro n c e h
      cases h }

def outputOps : List EngineOp :=
  [.start { id := "w", steps := [{ id := "a", capability := "c" }, askingStep] },
    .executeStep "" none none, .executeStep "" none none]

/-- The note of a completed step. -/
def Note.completes (i k : String) : Note → Bool
  | .completed j l _ => j = i ∧ l = k
  | _ => false

/-- **The output of a step is lost**: the next one is given `None` for it. -/
theorem content_lost : ¬ ∀ (E : Env) (ops : List EngineOp), DataFlows E ops := by
  intro H
  have hasked : ∃ p ∈ runPoints outputEnv outputOps, p.inst = "" ∧
      (p.input outputEnv).map (·.2) = some askingStep ∧
      (notes p.before.trace).any (Note.completes "" "a") = true := by
    decide +kernel
  obtain ⟨p, hp, hinst, hstep, hdone⟩ := hasked
  obtain ⟨⟨inst, step⟩, hin, rfl⟩ := Option.map_eq_some_iff.1 hstep
  -- the first step was completed, with the dictionary as its output
  obtain ⟨note, hmem, hnote⟩ := List.any_eq_true.1 hdone
  obtain ⟨c, rfl⟩ : ∃ c, note = .completed "" "a" c := by
    cases note with
    | completed j k c =>
      obtain ⟨rfl, rfl⟩ : j = "" ∧ k = "a" := of_decide_eq_true hnote
      exact ⟨c, rfl⟩
    | _ => cases hnote
  obtain ⟨a, hlast⟩ := run_delivered outputOps p hp "" "a" c hmem
  have hcontent : a.content = .dict [("out", .int 1)] := by
    obtain ⟨u, b, v, hsplit, -, hk, -, hr, -⟩ := hlast
    have hb : b ∈ bodiesRun (notes p.before.trace) := by
      rw [mem_bodiesRun, hsplit]
      simp
    obtain ⟨n, hbody⟩ := run_answered outputOps p hp b hb hk a hr
    cases hbody
    rfl
  rw [← hinst] at hlast
  have hblind := resolveInputs_blind (((World.run_blind outputEnv outputOps).2 p hp).results _ inst
    (Point.input_inst hin)) askingStep
  have hfed := (H outputEnv outputOps).1 p hp inst askingStep hin 0 "k" "a" "out" [] a rfl
    (by decide) hlast
  rw [hblind, hcontent] at hfed
  have hread : (blindInputs askingStep)[0]? = some ("k", .none) := by
    have href := resolve_reference "a" "out" [] (by decide)
    have hreadable : readable "a" = true := by decide
    rw [if_pos hreadable] at href
    exact congrArg (fun v => some ("k", v)) href
  rw [hread] at hfed
  cases hfed

end Hermes

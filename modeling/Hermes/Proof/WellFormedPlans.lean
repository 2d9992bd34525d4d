import Hermes.Lib.Dag
import Hermes.Proof.ReplanSteps

/-!
# Replanning and the dependency graph

* `graph`: the dependency graph of a list of steps; no operation changes what a step
  object adds to it.
* `graph_replanRuleBased`: splitting a failed step splits its node.
* `toposort_returns`: a plan without cycles can be sorted.
* `wellFormed_replan_iff`: a replan gives a well-formed plan exactly when nothing
  depends on a step that it splits, and the ids of the halves are not in use.
* `adapted_wellFormed_iff`: so in every run, and then the halves come first.
-/

namespace Hermes

open History

/-! ## Graphs of steps -/

/-- What a step adds to the graph. -/
def PlanStep.node (s : PlanStep) : String × List String := (s.stepId, s.dependencies)

/-- The dependency graph of a list of steps. -/
def graph (steps : List PlanStep) : List (String × List String) := steps.map PlanStep.node

theorem nodes_graph (steps : List PlanStep) : Dag.nodes (graph steps) = steps.map (·.stepId) := by
  unfold Dag.nodes graph
  rw [List.map_map]
  rfl

theorem edge_graph {steps : List PlanStep} {k d : String} :
    Dag.Edge (graph steps) k d ↔ ∃ s ∈ steps, s.stepId = k ∧ d ∈ s.dependencies := by
  unfold Dag.Edge graph
  constructor
  · rintro ⟨ds, hmem, hd⟩
    obtain ⟨s, hs, hnode⟩ := List.mem_map.1 hmem
    obtain ⟨rfl, rfl⟩ := Prod.mk.inj hnode
    exact ⟨s, hs, rfl, hd⟩
  · rintro ⟨s, hs, rfl, hd⟩
    exact ⟨s.dependencies, List.mem_map_of_mem hs, hd⟩

/-- **Splitting a failed step** splits its node. -/
theorem graph_replanRuleBased (f : String) (steps : List PlanStep) :
    graph (replanRuleBased steps f).1 =
      Dag.split f (f ++ "-a") (f ++ "-b") (graph steps) := by
  unfold graph Dag.split replanRuleBased
  rw [List.map_flatMap, List.flatMap_map]
  refine List.flatMap_congr fun s _ => ?_
  by_cases hid : s.stepId = f
  · subst hid
    rw [if_pos rfl, if_pos (show s.node.1 = s.stepId from rfl)]
    rfl
  · rw [if_neg hid, if_neg (show s.node.1 ≠ f from hid)]
    rfl

theorem halves_ne (f : String) : f ++ "-a" ≠ f ++ "-b" ∧ f ++ "-a" ≠ f ∧ f ++ "-b" ≠ f := by
  refine ⟨?_, ?_, ?_⟩
  all_goals intro h
  all_goals have hlist := congrArg String.toList h
  all_goals simp at hlist

/-- **A plan without cycles can be sorted.** -/
theorem toposort_returns (plan : Plan) (h : ∀ k, ¬Dag.DependsOn (graph plan.steps) k k) :
    ∃ order, toposort plan = .ok order := by
  have hmem : ∀ {k s}, byId plan.steps k = some s → s ∈ plan.steps ∧ s.stepId = k := by
    intro k s hs
    have hid := List.find?_some hs
    exact ⟨List.mem_reverse.1 (List.mem_of_find?_eq_some hs), by simpa using hid⟩
  have hkeys : ∀ k, ((byId plan.steps k).map (·.dependencies)).isSome →
      k ∈ plan.steps.map (·.stepId) := by
    intro k hk
    rw [Option.isSome_map] at hk
    obtain ⟨s, hs⟩ := Option.isSome_iff_exists.1 hk
    obtain ⟨hmem, hid⟩ := hmem hs
    exact hid ▸ List.mem_map_of_mem hmem
  have hedge : ∀ k d, Toposort.Needs (fun k => (byId plan.steps k).map (·.dependencies)) k d →
      Dag.Edge (graph plan.steps) k d := by
    rintro k d ⟨ds, hds, hd⟩
    obtain ⟨s, hs, rfl⟩ := Option.map_eq_some_iff.1 hds
    obtain ⟨hmem, hid⟩ := hmem hs
    exact edge_graph.2 ⟨s, hmem, hid, hd⟩
  have hacyclic := Toposort.acyclic_of_le hedge h
  obtain ⟨order, horder⟩ := Toposort.sort_returns hkeys hacyclic
  unfold toposort
  rw [horder]
  exact ⟨_, rfl⟩

/-! ## No operation changes a node -/

/-- The steps that there were add to the graph what they did. -/
def NodesKept (h h' : List PlanStep) : Prop :=
  Heap.Later (fun x y : PlanStep => x.node = y.node) h h'

theorem nodesKept_of_grows {h h' : List PlanStep} (hp : h <+: h') : NodesKept h h' :=
  Heap.later_of_grows (R := fun x y : PlanStep => x.node = y.node) (fun _ => rfl) hp

theorem nodesKept_sweep {β : Type*} {rule : PlanStep → PlanStep × List β}
    (hrule : ∀ s, s.node = (rule s).1.node) (as : List ℕ) (h : List PlanStep × List β) :
    NodesKept h.1 (Heap.sweep rule as h).1 :=
  Heap.later_sweep (R := fun x y : PlanStep => x.node = y.node) (fun _ => rfl)
    (fun _ _ _ hxy hyz => hxy.trans hyz) hrule as

namespace PlanMemory

variable {P : ReplanEnv} {m m' : PlanMemory} {plan : PlanObject} {t : Trigger}

theorem Sweeps.node_eq {rule : PlanStep → PlanStep × List String} (h : Sweeps P m plan t rule)
    (s : PlanStep) : s.node = (rule s).1.node := by
  cases h with
  | capabilityMissing => rfl
  | agentUnhealthy =>
    unfold reassign
    split
    · rfl
    · rfl
  | riskEscalation =>
    unfold escalate
    split
    · rfl
    · rfl
  | swarmRebalance =>
    unfold rebalance
    split
    · rfl
    · rfl

theorem Sweeps.reason_ne {rule : PlanStep → PlanStep × List String} (h : Sweeps P m plan t rule) :
    t.reason ≠ "step_failed" := by
  cases h with
  | capabilityMissing h => rw [h]; decide
  | agentUnhealthy h => rw [h]; decide
  | riskEscalation h => rw [h]; decide
  | swarmRebalance h => rw [h]; decide

theorem Replanned.nodesKept {steps : List ℕ} {objects : List PlanStep}
    (h : Replanned P m plan t steps objects) (hv : Heap.Valid m.objects plan.steps) :
    NodesKept m.objects objects := by
  cases h with
  | answered h => exact nodesKept_of_grows (List.prefix_append _ _)
  | swept h hrule => exact nodesKept_sweep hrule.node_eq plan.steps (m.objects, [])
  | split h hreason => exact nodesKept_of_grows (Heap.rebuild_spec _ hv).grows
  | nothing => exact nodesKept_of_grows List.prefix_rfl

/-- The graph of a plan. -/
def graphOf (m : PlanMemory) (plan : PlanObject) : List (String × List String) :=
  graph (m.stepsOf plan)

theorem graphOf_eq (hv : Heap.Valid m.objects plan.steps)
    (hkept : NodesKept m.objects m'.objects) : m'.graphOf plan = m.graphOf plan :=
  Heap.map_read_of_later hkept hv

/-- All plans are well-formed. -/
def AllWellFormed (m : PlanMemory) : Prop :=
  ∀ k plan, m.plans.get? k = some plan → Dag.WellFormed (m.graphOf plan)

/-- **A new plan** among well-formed ones. -/
theorem allWellFormed_put_iff (hm : m.Allocated) (hall : m.AllWellFormed)
    (hkept : NodesKept m.objects m'.objects) {new : PlanObject}
    (hplans : m'.plans = m.plans.put new) :
    m'.AllWellFormed ↔ Dag.WellFormed (m'.graphOf new) := by
  constructor
  · intro h
    refine h new.planId new ?_
    rw [hplans, Index.get?_put, if_pos rfl]
  · intro hnew k plan hplan
    rw [hplans, Index.get?_put] at hplan
    split at hplan
    · cases hplan
      exact hnew
    -- an older plan, whose steps are the same nodes
    · rw [graphOf_eq (hm k plan hplan) hkept]
      exact hall k plan hplan

theorem allWellFormed_same (hm : m.Allocated) (hall : m.AllWellFormed)
    (hkept : NodesKept m.objects m'.objects) (hplans : m'.plans = m.plans) :
    m'.AllWellFormed := by
  intro k plan hplan
  rw [hplans] at hplan
  rw [graphOf_eq (hm k plan hplan) hkept]
  exact hall k plan hplan

/-! ## Replanning -/

/-- A step that the trigger splits has no dependents, and the ids of its halves are not in use. -/
def Splittable (m : PlanMemory) (plan : PlanObject) (t : Trigger) : Prop :=
  t.reason = "step_failed" → ∀ f, t.context.get? "step_id" = some f →
    f ∈ (m.stepsOf plan).map (·.stepId) →
      (∀ s ∈ m.stepsOf plan, f ∉ s.dependencies) ∧
        f ++ "-a" ∉ (m.stepsOf plan).map (·.stepId) ∧ f ++ "-b" ∉ (m.stepsOf plan).map (·.stepId)

/-- **A split** gives a well-formed plan exactly when the step can be split. -/
theorem wellFormed_split_iff (hv : Heap.Valid m.objects plan.steps)
    (hwf : Dag.WellFormed (m.graphOf plan)) {new : PlanObject}
    (hreason : t.reason = "step_failed")
    (hsteps : new.steps =
      (Heap.rebuild (halves (t.context.get? "step_id")) plan.steps m.objects).2)
    (hobjects : m'.objects =
      (Heap.rebuild (halves (t.context.get? "step_id")) plan.steps m.objects).1) :
    Dag.WellFormed (m'.graphOf new) ↔ m.Splittable plan t := by
  unfold Splittable
  simp only [hreason, forall_const]
  cases hfailed : t.context.get? "step_id" with
  | none =>
    -- no step is split
    have hread := (Heap.rebuild_spec (halves (t.context.get? "step_id")) hv).read_eq
    rw [← hsteps, ← hobjects, hfailed] at hread
    have hsame : m'.graphOf new = m.graphOf plan :=
      congrArg graph (hread.trans (List.flatMap_singleton' _))
    rw [hsame]
    refine iff_of_true hwf ?_
    intro f hf
    cases hf
  | some f =>
    rw [hfailed] at hsteps hobjects
    have hsplit : m'.graphOf new = Dag.split f (f ++ "-a") (f ++ "-b") (m.graphOf plan) := by
      unfold graphOf
      rw [stepsOf_split hv hsteps hobjects, graph_replanRuleBased]
    have hnodes : Dag.nodes (m.graphOf plan) = (m.stepsOf plan).map (·.stepId) := nodes_graph _
    simp only [Option.some.injEq, forall_eq']
    rw [hsplit, ← hnodes]
    by_cases hf : f ∈ Dag.nodes (m.graphOf plan)
    · obtain ⟨hab, haf, hbf⟩ := halves_ne f
      rw [Dag.wellFormed_split_iff hwf hf hab haf hbf]
      have hnone : (∀ k, ¬Dag.Edge (m.graphOf plan) k f) ↔
          ∀ s ∈ m.stepsOf plan, f ∉ s.dependencies := by
        unfold graphOf
        simp only [edge_graph]
        constructor
        · intro h s hs hdep
          exact h s.stepId ⟨s, hs, rfl, hdep⟩
        · rintro h k ⟨s, hs, -, hdep⟩
          exact h s hs hdep
      rw [hnone]
      exact ⟨fun h _ => h, fun h => h hf⟩
    · rw [Dag.split_of_not_mem hf]
      exact iff_of_true hwf fun h => absurd h hf

/-- **One replan by the rules** of a well-formed plan. -/
theorem wellFormed_replan_iff (hm : m.Allocated) (hall : m.AllWellFormed) {k : String}
    (hplan : m.plans.get? k = some plan) (hllm : m.replanViaLlm P plan t = none) :
    (m.replan P plan t).2.AllWellFormed ↔ m.Splittable plan t := by
  have hv := hm k plan hplan
  have hwf := hall k plan hplan
  have hspec := replan_spec P m plan t
  rw [allWellFormed_put_iff hm hall (hspec.nodesKept hv) (replan_plans P m plan t)]
  generalize (m.replan P plan t).1 = new at hspec ⊢
  generalize (m.replan P plan t).2 = m' at hspec ⊢
  generalize hsteps : new.steps = steps at hspec
  generalize hobjects : m'.objects = objects at hspec
  -- the rules that sweep leave the graph as it is
  have hsame : steps = plan.steps → NodesKept m.objects objects → t.reason ≠ "step_failed" →
      (Dag.WellFormed (m'.graphOf new) ↔ m.Splittable plan t) := by
    intro hplan hkept hreason
    have hgraph : m'.graphOf new = m.graphOf plan := by
      rw [← graphOf_eq hv (hobjects ▸ hkept)]
      unfold graphOf stepsOf
      rw [hsteps, hplan]
    rw [hgraph]
    exact iff_of_true hwf fun h => absurd h hreason
  cases hspec with
  | answered h =>
    rw [hllm] at h
    cases h
  | swept h hrule =>
    refine hsame rfl (nodesKept_sweep hrule.node_eq plan.steps (m.objects, [])) fun hr => ?_
    exact hrule.reason_ne hr
  | split h hreason => exact wellFormed_split_iff hv hwf hreason hsteps hobjects
  | nothing h hreason =>
    refine hsame rfl (nodesKept_of_grows List.prefix_rfl) fun hr => hreason ?_
    simp [hr]

/-! ## The order of the halves -/

/-- In an order of the steps, those that depended on `f`, directly or over others, come after both
of its halves. -/
def HalvesFirst (g : List (String × List String)) (f : String) (order : List PlanStep) : Prop :=
  Always (fun before s => Dag.DependsOn g s.stepId f →
    f ++ "-a" ∈ before.map (·.stepId) ∧ f ++ "-b" ∈ before.map (·.stepId)) order

/-- After a split `_toposort` gives an order with the halves first. -/
def SortsHalvesFirst (P : ReplanEnv) (m : PlanMemory) (plan : PlanObject) (t : Trigger) : Prop :=
  t.reason = "step_failed" → ∀ f, t.context.get? "step_id" = some f →
    f ∈ (m.stepsOf plan).map (·.stepId) →
      ∃ order, toposort ((m.replan P plan t).2.dump (m.replan P plan t).1) = .ok order ∧
        HalvesFirst (m.graphOf plan) f order

theorem sortsHalvesFirst (hsplit : m.Splittable plan t)
    (hwf : Dag.WellFormed ((m.replan P plan t).2.graphOf (m.replan P plan t).1)) :
    SortsHalvesFirst P m plan t := by
  intro hreason f hfailed hf
  obtain ⟨hnone, -⟩ := hsplit hreason f hfailed hf
  obtain ⟨order, horder⟩ :=
    toposort_returns ((m.replan P plan t).2.dump (m.replan P plan t).1) hwf.acyclic
  have hlast : ∀ k, ¬Dag.Edge (m.graphOf plan) k f := by
    intro k hk
    obtain ⟨r, hr, -, hdep⟩ := edge_graph.1 hk
    exact hnone r hr hdep
  -- there is no dependent to be ordered
  refine ⟨order, horder, fun n hn hdep => ?_⟩
  exact absurd hdep (Dag.not_dependsOn hlast _)

end PlanMemory

/-! ## Runs -/

/-- The plans that come in are well-formed, and replanning is by the rules. -/
def PlanningOp.Proper (P : ReplanEnv) (m : PlanMemory) : PlanningOp → Prop
  | .createPlan _ steps => Dag.WellFormed (graph (Heap.read m.objects steps))
  | .loadPlan plan => Dag.WellFormed (graph plan.steps)
  | .replan planId t =>
    ∀ plan, m.plans.get? planId = some plan → m.replanViaLlm P plan t = none
  | _ => True

/-- After the operation all plans are well-formed, and a split comes with an order of the steps in
which the halves come first. -/
def PlanningOp.KeepsWellFormed (P : ReplanEnv) (m : PlanMemory) (op : PlanningOp) : Prop :=
  (op.run P m).AllWellFormed ∧
    match op with
    | .replan planId t =>
      ∀ plan, m.plans.get? planId = some plan → m.SortsHalvesFirst P plan t
    | _ => True

/-- A step that is split has no dependents, and the ids of its halves are not in use. -/
def PlanningOp.Splittable (m : PlanMemory) : PlanningOp → Prop
  | .replan planId t => ∀ plan, m.plans.get? planId = some plan → m.Splittable plan t
  | _ => True

/-- **One operation** on well-formed plans. -/
theorem PlanningOp.keepsWellFormed_iff {P : ReplanEnv} {m : PlanMemory} {op : PlanningOp}
    (hop : op.Proper P m) (hm : m.Allocated) (hall : m.AllWellFormed) :
    op.KeepsWellFormed P m ↔ op.Splittable m := by
  unfold PlanningOp.KeepsWellFormed
  cases op with
  | newStep s =>
    refine iff_of_true ⟨?_, trivial⟩ trivial
    exact PlanMemory.allWellFormed_same hm hall (nodesKept_of_grows (List.prefix_append _ _)) rfl
  | createPlan workflowId steps =>
    obtain ⟨hobjects, hplans⟩ := PlanMemory.createPlan_spec P m workflowId steps
    refine iff_of_true ⟨?_, trivial⟩ trivial
    have hkept : NodesKept m.objects (m.createPlan P workflowId steps).2.objects :=
      nodesKept_of_grows (hobjects ▸ List.prefix_rfl)
    refine (PlanMemory.allWellFormed_put_iff hm hall hkept hplans).2 ?_
    have hread : Heap.read m.objects (m.createPlan P workflowId steps).1.steps =
        Heap.read m.objects steps := Heap.read_filter m.objects steps
    unfold PlanMemory.graphOf PlanMemory.stepsOf
    rw [hobjects, hread]
    exact hop
  | loadPlan plan =>
    refine iff_of_true ⟨?_, trivial⟩ trivial
    unfold PlanningOp.run PlanMemory.loadPlan
    simp only
    split
    · exact hall
    · refine (PlanMemory.allWellFormed_put_iff hm hall
        (nodesKept_of_grows (List.prefix_append _ _)) rfl).2 ?_
      unfold PlanMemory.graphOf PlanMemory.stepsOf
      rw [Heap.read_new]
      exact hop
  | replan planId t =>
    unfold PlanningOp.Splittable
    cases hplan : m.plans.get? planId with
    | none =>
      simp only [PlanningOp.run, hplan]
      exact iff_of_true ⟨hall, fun _ h => absurd h (by simp)⟩ fun _ h => absurd h (by simp)
    | some plan =>
      simp only [PlanningOp.run, hplan, Option.some.injEq, forall_eq']
      have hiff := PlanMemory.wellFormed_replan_iff hm hall hplan (hop plan hplan)
      rw [hiff]
      refine ⟨fun h => h.1, fun h => ⟨h, PlanMemory.sortsHalvesFirst h ?_⟩⟩
      have hput := PlanMemory.replan_plans P m plan t
      refine hiff.2 h (m.replan P plan t).1.planId _ ?_
      rw [hput, Index.get?_put, if_pos rfl]
  | riskAssess planId history =>
    refine iff_of_true ⟨?_, trivial⟩ trivial
    cases hplan : m.plans.get? planId with
    | none =>
      simp only [PlanningOp.run, hplan]
      exact hall
    | some plan =>
      simp only [PlanningOp.run, hplan]
      obtain ⟨hobjects, hplans⟩ := PlanMemory.riskAssess_spec m plan history
      refine PlanMemory.allWellFormed_same hm hall ?_ hplans
      rw [hobjects]
      exact nodesKept_sweep (fun _ => rfl) plan.steps (m.objects, [])

/-- **Plans stay well-formed** along a run of proper operations exactly when each step that is split
can be split. -/
theorem adapted_wellFormed_iff (P : ReplanEnv) (ops : List PlanningOp)
    (hops : EachStep (PlanningOp.run P) (fun m op => op.Proper P m) {} ops) :
    EachStep (PlanningOp.run P) (fun m op => op.KeepsWellFormed P m) {} ops ↔
      EachStep (PlanningOp.run P) (fun m op => op.Splittable m) {} ops := by
  have hstart : PlanMemory.Allocated {} ∧ PlanMemory.AllWellFormed {} := by
    refine ⟨PlanMemory.allocated_empty, fun k plan hplan => ?_⟩
    cases hplan
  refine eachStep_iff (I := fun m => PlanMemory.Allocated m ∧ PlanMemory.AllWellFormed m)
    (fun m op hop hm hc => ?_) (fun m op hop hm => ?_) ops {} hstart hops
  · obtain ⟨hm, hall⟩ := hm
    have hkeeps := (PlanningOp.keepsWellFormed_iff hop hm hall).2 hc
    exact ⟨PlanMemory.allocated_run P m op hm, hkeeps.1⟩
  · exact PlanningOp.keepsWellFormed_iff hop hm.1 hm.2

/-- A plan of two steps, the second of which depends on the first, and a failure of step `k`. -/
def stepFails (k : String) : List PlanningOp :=
  [.loadPlan
      { planId := "p", workflowId := "w", status := .draft
        steps := [{ stepId := "s", capability := "c", dependencies := ["t"] },
          { stepId := "t", capability := "c" }] },
    .replan "p"
      { triggerId := "r", planId := "p", reason := "step_failed"
        context := (∅ : Dict String String).insert "step_id" k }]

theorem stepFails_proper (k : String) :
    EachStep (PlanningOp.run .plain) (fun m op => op.Proper .plain m) {} (stepFails k) := by
  refine ⟨⟨by decide, ?_, Dag.acyclic_of_rank (fun k => if k = "s" then 1 else 0) ?_⟩,
    fun _ _ => rfl, trivial⟩
  · intro k d hkd
    obtain ⟨s, hs, -, hd⟩ := edge_graph.1 hkd
    simp only [List.mem_cons, List.not_mem_nil, or_false] at hs
    rcases hs with rfl | rfl
    · rw [List.mem_singleton.1 hd]
      decide
    · cases hd
  · intro k d hkd
    obtain ⟨s, hs, rfl, hd⟩ := edge_graph.1 hkd
    simp only [List.mem_cons, List.not_mem_nil, or_false] at hs
    rcases hs with rfl | rfl
    · rw [List.mem_singleton.1 hd]
      decide
    · cases hd

/-- The last step can be split. -/
theorem last_step_split :
    EachStep (PlanningOp.run .plain) (fun m op => op.KeepsWellFormed .plain m) {}
      (stepFails "s") := by
  refine (adapted_wellFormed_iff .plain (stepFails "s") (stepFails_proper "s")).2
    ⟨trivial, fun plan hplan => ?_, trivial⟩
  have hp : some plan = some
      { planId := "p", workflowId := "w", status := .draft, steps := [0, 1], version := 1 } := by
    rw [← hplan]
    decide +kernel
  cases hp
  intro _ f hf _
  have hs : f = "s" := by
    rw [← Option.some.injEq, ← hf]
    rfl
  subst hs
  decide +kernel

/-- The step before it leaves a dependency on nothing behind. -/
theorem dependent_left_behind :
    EachStep (PlanningOp.run .plain) (fun m op => op.Proper .plain m) {} (stepFails "t") ∧
      ¬EachStep (PlanningOp.run .plain) (fun m op => op.KeepsWellFormed .plain m) {}
        (stepFails "t") := by
  refine ⟨stepFails_proper "t", ?_⟩
  rintro ⟨-, ⟨hall, -⟩, -⟩
  have hnew := hall "xx"
    { planId := "xx", workflowId := "w", status := .adapted, steps := [0, 2, 3], version := 2 }
    (by decide +kernel)
  have hnamed := hnew.named "s" "t" ⟨["t"], by decide +kernel, List.mem_singleton.2 rfl⟩
  exact absurd hnamed (by decide +kernel)

end Hermes

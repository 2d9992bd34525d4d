import Hermes.Proof.Inference

/-!
# Versions of a graph

* `drawn_apply`: the ids of graphs and relations stay in use.
* `VersionTrail`: what the record of an inference says about its graph.
* `versioned_inference_iff`: an inference moves the version with every change exactly
  when it does not relate without merging.
* `versions_iff`: so the versions move along a run of operations, but for such
  inferences.
-/

namespace Hermes

open History GraphEngine

variable {P : GraphEnv} {e e' : GraphEngine} {g g' : KnowledgeGraph} {graphId : String}

/-- The entities, with what is stored of them, or the relations are not the same. -/
def KnowledgeGraph.Changed (g g' : KnowledgeGraph) : Prop :=
  ¬((∀ k, g'.entities.get? k = g.entities.get? k) ∧ ∀ k, g'.relations.get? k = g.relations.get? k)

theorem not_changed (g : KnowledgeGraph) : ¬g.Changed g := not_not.2 ⟨fun _ => rfl, fun _ => rfl⟩

/-- No version goes back, and that of every graph that changes goes on. -/
def Versioned (e e' : GraphEngine) : Prop :=
  ∀ j g g', e.getGraph j = some g → e'.getGraph j = some g' →
    g.version ≤ g'.version ∧ (g.Changed g' → g.version < g'.version)

theorem versioned_refl (e : GraphEngine) : Versioned e e := by
  intro j g g' hg hg'
  obtain rfl := Option.some.inj (hg.symm.trans hg')
  exact ⟨le_rfl, fun hch => absurd hch (not_changed g)⟩

/-- A graph is written with the next version. -/
theorem versioned_put (hg : e.getGraph graphId = some g) (hid : g'.graphId = g.graphId)
    (hgraphs : e'.graphs = e.graphs.put g') (hv : g'.version = g.version + 1) :
    Versioned e e' := by
  have hown : g'.graphId = graphId := hid.trans (graphId_of_get hg)
  intro j x x' hx hx'
  rw [getGraph_of_put hgraphs, hown] at hx'
  split at hx'
  · rename_i hj
    subst hj
    obtain rfl := Option.some.inj (hg.symm.trans hx)
    obtain rfl := Option.some.inj hx'
    exact ⟨by omega, fun _ => by omega⟩
  · obtain rfl := Option.some.inj (hx.symm.trans hx')
    exact ⟨le_rfl, fun hch => absurd hch (not_changed x)⟩

/-! ## Ids in use -/

theorem drawn_init (store : Option GraphStore) : Drawn (init store) := by
  intro j g hg
  have hkey : g.graphId = j := graphId_of_get hg
  have hmem : g ∈ (init store).graphs.values := by
    refine Index.mem_values.2 ?_
    rw [hkey]
    exact hg
  have hids : ∀ k, k ∈ g.graphId :: g.entities.keys ++ g.relations.keys → k ∈ (init store).ids :=
    fun k hk => List.mem_flatMap.2 ⟨g, hmem, hk⟩
  refine ⟨hids j ?_, fun k hk => hids k (List.mem_append_right _ hk)⟩
  rw [hkey]
  exact List.mem_cons_self

/-- The new graph of `create_graph` has an id of its own. -/
theorem createGraph_fresh (hd : Drawn e) : e.getGraph (P.uuid.next e.ids) = none := by
  cases hg : e.getGraph (P.uuid.next e.ids) with
  | none => rfl
  | some g => exact absurd (hd _ g hg).1 (P.uuid.not_mem e.ids)

theorem getGraph_createGraph (name : String) (j : String) : (e.createGraph P name).2.getGraph j =
    if j = P.uuid.next e.ids then some { graphId := P.uuid.next e.ids, name } else e.getGraph j :=
  Index.get?_put _ _ _

theorem getGraph_deleteGraph (graphId j : String) : (e.deleteGraph graphId).2.getGraph j =
    if j = graphId then none else e.getGraph j := by
  unfold deleteGraph
  split
  · rename_i hnone
    by_cases hj : j = graphId
    · rw [if_pos hj, hj]
      exact hnone
    · rw [if_neg hj]
  · exact Index.get?_erase _ _ _

/-- **`add_entity`** raises and changes nothing, or writes the graph with the next version. -/
theorem addEntity_spec (graphId : String) (entity : Entity) :
    (e.getGraph graphId = none ∧ (e.addEntity P graphId entity).2 = e) ∨
      ∃ g x, e.getGraph graphId = some g ∧
        (x = entity ∨ ∃ existing ∈ g.entities.values, x = refresh existing entity) ∧
        (e.addEntity P graphId entity).2.graphs =
          e.graphs.put { g with entities := g.entities.put x, version := g.version + 1 } ∧
        (e.addEntity P graphId entity).2.store =
          e.store.map (·.put { g with entities := g.entities.put x, version := g.version + 1 }) ∧
        ∀ k ∈ e.ids, k ∈ (e.addEntity P graphId entity).2.ids := by
  unfold addEntity
  split
  · rename_i hnone
    exact Or.inl ⟨hnone, rfl⟩
  · rename_i g hg
    right
    split
    · rename_i existing hfind
      exact ⟨g, _, hg, Or.inr ⟨existing, List.mem_of_find?_eq_some hfind, rfl⟩, rfl, rfl,
        fun _ hk => hk⟩
    · exact ⟨g, entity, hg, Or.inl rfl, rfl, rfl, fun _ hk => List.mem_cons_of_mem _ hk⟩

/-- **`add_relation`** raises and changes nothing, or writes the graph with the next version. -/
theorem addRelation_spec (graphId : String) (relation : Relation) :
    (e.addRelation graphId relation).2 = e ∨
      ∃ g, e.getGraph graphId = some g ∧
        (e.addRelation graphId relation).2.graphs =
          e.graphs.put { g with relations := g.relations.put relation, version := g.version + 1 } ∧
        (e.addRelation graphId relation).2.store =
          e.store.map (·.put
            { g with relations := g.relations.put relation, version := g.version + 1 }) ∧
        (e.addRelation graphId relation).2.ids = relation.relationId :: e.ids := by
  unfold addRelation
  split
  · exact Or.inl rfl
  · rename_i g hg
    split
    · exact Or.inl rfl
    · exact Or.inr ⟨g, hg, rfl, rfl, rfl⟩

/-- **`merge_entities`** changes nothing, or writes the merged graph. -/
theorem mergeEntities_cases (graphId canonicalId : String) (duplicateIds : List String) :
    (e.mergeEntities graphId canonicalId duplicateIds).2 = e ∨
      ∃ g g', e.getGraph graphId = some g ∧
        (∃ d ∈ duplicateIds, d ≠ canonicalId ∧ d ∈ g.entities.keys) ∧
        canonicalId ∈ g.entities.keys ∧
        Merged e (e.mergeEntities graphId canonicalId duplicateIds).2 g canonicalId duplicateIds g' := by
  cases hg : e.getGraph graphId with
  | none =>
    left
    unfold mergeEntities
    simp only [hg]
  | some g =>
    by_cases hc : canonicalId ∈ g.entities.keys
    · obtain ⟨-, ⟨-, hsame, -⟩ | ⟨hd, g', hm⟩⟩ := mergeEntities_spec hg hc duplicateIds
      · exact Or.inl hsame
      · exact Or.inr ⟨g, g', rfl, hd, hc, hm⟩
    · left
      rw [mergeEntities_missing hg hc]

theorem inference_onward (graphId : String) (rules : List InferenceRule) (maxIterations : ℤ) :
    Onward graphId e (e.inference P graphId rules maxIterations).2.engine :=
  inference_keeps (I := fun s => Onward graphId e s.engine)
    (fun rule s h => h.trans (applyRule_onward rule s)) e rules maxIterations
    (Onward.refl graphId e)

/-- A graph is written whose relations are in use. -/
theorem drawn_apply (hd : Drawn e) (op : GraphOp) : Drawn (e.apply P op) := by
  cases op with
  | createGraph name =>
    have hgraphs : (e.createGraph P name).2.graphs =
        e.graphs.put { graphId := P.uuid.next e.ids, name } := rfl
    refine drawn_put hd hgraphs (fun k hk => ?_) ?_ fun k hk => ?_
    · exact List.mem_cons_of_mem _ hk
    · exact List.mem_cons_self
    · cases hk
  | deleteGraph graphId =>
    intro j x hx
    have hids : (e.deleteGraph graphId).2.ids = e.ids := by
      unfold deleteGraph
      split
      · rfl
      · rfl
    replace hx : (e.deleteGraph graphId).2.getGraph j = some x := hx
    rw [getGraph_deleteGraph] at hx
    split at hx
    · cases hx
    · obtain ⟨hj, hkeys⟩ := hd j x hx
      exact ⟨hids.symm ▸ hj, fun k hk => hids.symm ▸ hkeys k hk⟩
  | addEntity graphId entity =>
    show Drawn (e.addEntity P graphId entity).2
    obtain ⟨-, hsame⟩ | ⟨g, x, hg, -, hgraphs, -, hids⟩ :=
      addEntity_spec (P := P) (e := e) graphId entity
    · rw [hsame]
      exact hd
    · obtain ⟨hj, hkeys⟩ := hd graphId g hg
      have hown := graphId_of_get hg
      exact drawn_put hd hgraphs hids (hids _ (hown.symm ▸ hj)) fun k hk => hids k (hkeys k hk)
  | addRelation graphId relation =>
    show Drawn (e.addRelation graphId relation).2
    obtain hsame | ⟨g, hg, hgraphs, -, hids⟩ := addRelation_spec (e := e) graphId relation
    · rw [hsame]
      exact hd
    · obtain ⟨hj, hkeys⟩ := hd graphId g hg
      have hsub : ∀ k ∈ e.ids, k ∈ (e.addRelation graphId relation).2.ids := by
        intro k hk
        rw [hids]
        exact List.mem_cons_of_mem _ hk
      have hown := graphId_of_get hg
      refine drawn_put hd hgraphs hsub (hsub _ (hown.symm ▸ hj)) fun k hk => ?_
      rcases mem_keys_put.1 hk with rfl | hold
      · show relation.relationId ∈ (e.addRelation graphId relation).2.ids
        rw [hids]
        exact List.mem_cons_self
      · exact hsub k (hkeys k hold)
  | mergeEntities graphId canonicalId duplicateIds =>
    show Drawn (e.mergeEntities graphId canonicalId duplicateIds).2
    obtain hsame | ⟨g, g', hg, -, -, hm⟩ :=
      mergeEntities_cases (e := e) graphId canonicalId duplicateIds
    · rw [hsame]
      exact hd
    · exact (hm.onward hg).drawn hd
  | runInference graphId rules maxIterations =>
    exact (inference_onward graphId rules maxIterations).drawn hd

/-! ## Inferences -/

/-- What the record of an inference says about its graph, which was `g₀` at the start. -/
structure VersionTrail (graphId : String) (g₀ : KnowledgeGraph) (s : Inference) (g : KnowledgeGraph) :
    Prop where
  graph : s.engine.getGraph graphId = some g
  later : Later g₀ g
  merges : (∃ a ∈ s.applied, a.Merges) → g₀.version < g.version
  still : (¬∃ a ∈ s.applied, a.Merges) → g.version = g₀.version
  idle : (¬∃ a ∈ s.applied, a.Merges) → (¬∃ a ∈ s.applied, a.Relates) → g = g₀
  relates : (∃ a ∈ s.applied, a.Relates) → ∃ k ∈ g.relations.keys, k ∉ g₀.relations.keys

/-- **A rule** keeps the record and the graph in step. -/
theorem versionTrail_applyRule {g₀ : KnowledgeGraph} {s : Inference} (hd : Drawn s.engine)
    (h : VersionTrail graphId g₀ s g) (rule : InferenceRule) :
    ∃ g', VersionTrail graphId g₀ (applyRule P graphId rule s).2 g' := by
  have happ := applyRule_applied (P := P) h.graph rule
  obtain ⟨g', hg', hlater⟩ := happ.onward.graph g h.graph
  have hget : ∀ {x}, (applyRule P graphId rule s).2.engine.getGraph graphId = some x → x = g' :=
    fun hx => Option.some.inj (hx.symm.trans hg')
  have hsplit : ∀ (p : Application → Prop),
      (∃ a ∈ (applyRule P graphId rule s).2.applied, p a) ↔ (∃ a ∈ s.applied, p a) ∨ p ⟨g, rule⟩ := by
    intro p
    rw [happ.applied]
    simp only [List.mem_append, List.mem_singleton]
    constructor
    · rintro ⟨a, ha | rfl, hp⟩
      · exact Or.inl ⟨a, ha, hp⟩
      · exact Or.inr hp
    · rintro (⟨a, ha, hp⟩ | hp)
      · exact ⟨a, Or.inl ha, hp⟩
      · exact ⟨_, Or.inr rfl, hp⟩
  have hv₀ := h.later.version
  have hv := hlater.version
  refine ⟨g', hg', h.later.trans hlater, fun hm => ?_, fun hm => ?_, fun hm hr => ?_, fun hr => ?_⟩
  · rcases (hsplit _).1 hm with hold | hnew
    · have hlt := h.merges hold
      omega
    · obtain ⟨x, hx, hlt⟩ := happ.version_lt h.graph hnew
      obtain rfl := hget hx
      omega
  · rw [hsplit, not_or] at hm
    obtain ⟨x, hx, hgrown⟩ := fireAll_grown (P := P) h.graph hm.2
    rw [← happ.getGraph] at hx
    obtain rfl := hget hx
    exact hgrown.version.trans (h.still hm.1)
  · rw [hsplit, not_or] at hm hr
    have hidle := fireAll_still (P := P) h.graph hm.2 hr.2
    rw [happ.getGraph, hidle] at hg'
    exact (Option.some.inj (hg'.symm.trans h.graph)).trans (h.idle hm.1 hr.1)
  · rcases (hsplit _).1 hr with hold | hnew
    · obtain ⟨k, hk, hk₀⟩ := h.relates hold
      exact ⟨k, hlater.relations k hk, hk₀⟩
    · obtain ⟨x, hx, k, hk, hkg⟩ := happ.relates h.graph hd hnew
      obtain rfl := hget hx
      exact ⟨k, hk, fun hk₀ => hkg (h.later.relations k hk₀)⟩

theorem versionTrail_inference (hd : Drawn e) (hg : e.getGraph graphId = some g)
    (rules : List InferenceRule) (maxIterations : ℤ) :
    ∃ g', VersionTrail graphId g (e.inference P graphId rules maxIterations).2 g' := by
  have hstart : VersionTrail graphId g { engine := e } g := by
    have hnone : ∀ p : Application → Prop, ¬∃ a ∈ ([] : List Application), p a := by
      rintro p ⟨a, ha, -⟩
      cases ha
    exact ⟨hg, Later.refl g, fun h => absurd h (hnone _), fun _ => rfl, fun _ _ => rfl,
      fun h => absurd h (hnone _)⟩
  refine (inference_keeps
    (I := fun s => Drawn s.engine ∧ ∃ g', VersionTrail graphId g s g') (fun rule s h => ?_) e rules
    maxIterations ⟨hd, g, hstart⟩).2
  obtain ⟨hds, g', hc⟩ := h
  exact ⟨(applyRule_onward rule s).drawn hds, versionTrail_applyRule hds hc rule⟩

/-- An inference relates two entities only if it merges others. -/
def GraphOp.Bumps (P : GraphEnv) (e : GraphEngine) : GraphOp → Prop
  | .runInference graphId rules maxIterations =>
    (∃ a ∈ (e.inference P graphId rules maxIterations).2.applied, a.Relates) →
      ∃ a ∈ (e.inference P graphId rules maxIterations).2.applied, a.Merges
  | _ => True

theorem versioned_inference_iff (hd : Drawn e) (graphId : String) (rules : List InferenceRule)
    (maxIterations : ℤ) :
    Versioned e (e.inference P graphId rules maxIterations).2.engine ↔
      GraphOp.Bumps P e (.runInference graphId rules maxIterations) := by
  unfold GraphOp.Bumps
  cases hg : e.getGraph graphId with
  | none =>
    have hstart : (e.inference P graphId rules maxIterations).2 = { engine := e } := by
      unfold inference
      simp only [hg]
    refine iff_of_true ?_ ?_
    · rw [hstart]
      exact versioned_refl e
    · rintro ⟨a, ha, -⟩
      rw [hstart] at ha
      cases ha
  | some g =>
    obtain ⟨g', hc⟩ := versionTrail_inference (P := P) hd hg rules maxIterations
    constructor
    · intro hver hrel
      obtain ⟨k, hk, hnew⟩ := hc.relates hrel
      have hch : g.Changed g' := by
        rintro ⟨-, hsame⟩
        rw [Index.mem_keys] at hk hnew
        exact hnew (hsame k ▸ hk)
      have hlt := (hver graphId g g' hg hc.graph).2 hch
      by_contra hm
      have heq := hc.still hm
      omega
    · intro hbump j x x' hx hx'
      by_cases hj : j = graphId
      · subst hj
        obtain rfl := Option.some.inj (hg.symm.trans hx)
        obtain rfl := Option.some.inj (hc.graph.symm.trans hx')
        refine ⟨hc.later.version, fun hch => ?_⟩
        by_cases hm : ∃ a ∈ (e.inference P j rules maxIterations).2.applied, a.Merges
        · exact hc.merges hm
        · have hsame := hc.idle hm fun hrel => hm (hbump hrel)
          rw [hsame] at hch
          exact absurd hch (not_changed _)
      · have hother := (inference_onward (P := P) (e := e) graphId rules maxIterations).others j hj
        rw [hother] at hx'
        exact versioned_refl e j x x' hx hx'

/-! ## Operations -/

/-- **One operation** moves versions as it should, unless it is an inference that relates and does
not merge. -/
theorem versioned_apply_iff (hd : Drawn e) (op : GraphOp) :
    Versioned e (e.apply P op) ↔ op.Bumps P e := by
  cases op with
  | createGraph name =>
    refine iff_of_true (fun j x x' hx hx' => ?_) trivial
    replace hx' : (e.createGraph P name).2.getGraph j = some x' := hx'
    rw [getGraph_createGraph] at hx'
    split at hx'
    · rename_i hj
      rw [hj, createGraph_fresh hd] at hx
      cases hx
    · exact versioned_refl e j x x' hx hx'
  | deleteGraph graphId =>
    refine iff_of_true (fun j x x' hx hx' => ?_) trivial
    replace hx' : (e.deleteGraph graphId).2.getGraph j = some x' := hx'
    rw [getGraph_deleteGraph] at hx'
    split at hx'
    · cases hx'
    · exact versioned_refl e j x x' hx hx'
  | addEntity graphId entity =>
    refine iff_of_true ?_ trivial
    show Versioned e (e.addEntity P graphId entity).2
    obtain ⟨-, hsame⟩ | ⟨g, x, hg, -, hgraphs, -, -⟩ :=
      addEntity_spec (P := P) (e := e) graphId entity
    · rw [hsame]
      exact versioned_refl e
    · refine versioned_put hg ?_ hgraphs ?_
      all_goals rfl
  | addRelation graphId relation =>
    refine iff_of_true ?_ trivial
    show Versioned e (e.addRelation graphId relation).2
    obtain hsame | ⟨g, hg, hgraphs, -, -⟩ := addRelation_spec (e := e) graphId relation
    · rw [hsame]
      exact versioned_refl e
    · refine versioned_put hg ?_ hgraphs ?_
      all_goals rfl
  | mergeEntities graphId canonicalId duplicateIds =>
    refine iff_of_true ?_ trivial
    show Versioned e (e.mergeEntities graphId canonicalId duplicateIds).2
    obtain hsame | ⟨g, g', hg, -, -, hm⟩ :=
      mergeEntities_cases (e := e) graphId canonicalId duplicateIds
    · rw [hsame]
      exact versioned_refl e
    · exact versioned_put hg hm.graphId hm.graphs hm.version
  | runInference graphId rules maxIterations =>
    exact versioned_inference_iff hd graphId rules maxIterations

/-- **Versions move with every change** along a run of operations exactly when no inference of the
run relates entities without merging any. -/
theorem versions_iff (P : GraphEnv) (store : Option GraphStore) (ops : List GraphOp) :
    EachStep (GraphEngine.apply P) (fun e op => Versioned e (e.apply P op)) (init store) ops ↔
      EachStep (GraphEngine.apply P) (fun e op => op.Bumps P e) (init store) ops :=
  eachStep_iff (A := fun _ _ => True) (I := Drawn) (fun _ op _ hd _ => drawn_apply hd op)
    (fun _ op _ hd => versioned_apply_iff hd op) ops (init store) (drawn_init store)
    (eachStep_of_mem (fun _ _ _ => trivial) _)

namespace Acquainted

/-- Who knows somebody is made similar to them. -/
def rule : InferenceRule where
  ruleId := "k"
  name := "knows"
  pattern := (∅ : Dict String Value).insert "relation" (.str "knows")
  action := "create_relation"

def ops : List GraphOp :=
  [.createGraph "people", .addEntity "" { entityId := "a", name := "A", type := .person },
    .addEntity "" { entityId := "b", name := "B", type := .person },
    .addRelation "" { relationId := "r", sourceId := "a", targetId := "b", type := .knows },
    .runInference "" [rule] 3]

end Acquainted

/-- The inference adds a relation, and the version stays at 4. -/
theorem acquainted_unversioned :
    ¬EachStep (GraphEngine.apply Chain.env) (fun e op => Versioned e (e.apply Chain.env op))
      (init none) Acquainted.ops := by
  rintro ⟨-, -, -, -, hlast, -⟩
  obtain ⟨-, hlt⟩ := hlast "" _ _ rfl rfl
  refine absurd (hlt ?_) (by decide)
  rintro ⟨-, hsame⟩
  have hnew := congrArg Option.isSome (hsame "xxxxxxx")
  exact absurd hnew (by decide)

end Hermes

import Hermes.Proof.EntityNames
import Hermes.Spec.AgentMemory

/-!
# What agents remember

The graph of an agent holds what the agent learned, and nothing else that goes on in the engine
reaches it.

* `Holds`: a graph that holds a memory: its entities in their order, without their ids, and its
  relations with the names of their ends.
* `Beside`: what the operations on one graph leave as it is.
* `memorized_addEntity`, `memorized_addRelation`: the two operations that write into the graph, and
  `memorized_addFact`: a fact.
* `Recalls`: the runtime with the memories of all agents, which every step keeps.
* `memory_recalled`: `remember` and `recall` answer as the memory of the agent's own facts does,
  after every run.
-/

namespace Hermes

open History GraphEngine

variable {P : GraphEnv} {e e' e'' : GraphEngine} {g g' : KnowledgeGraph} {graphId : String}
  {M : Memory}

/-! ## A graph and a memory -/

/-- What an entity tells of its name. -/
def Entity.recollection (x : Entity) : Recollection :=
  { name := x.name
    type := x.type
    properties := x.properties
    source := x.source
    confidence := x.confidence }

/-- The link between the names of the two ends of a relation. -/
def KnowledgeGraph.Stands (g : KnowledgeGraph) (r : Relation) (l : Link) : Prop :=
  ∃ x ∈ g.entities.values, ∃ y ∈ g.entities.values, x.entityId = r.sourceId ∧
    y.entityId = r.targetId ∧ l = ⟨x.name, y.name, r.type⟩

/-- The graph holds the memory. -/
structure KnowledgeGraph.Holds (g : KnowledgeGraph) (M : Memory) : Prop where
  recollections : g.entities.values.map Entity.recollection = M.recollections
  links : List.Forall₂ g.Stands g.relations.values M.links

theorem stands_of_keepsNames (h : g.KeepsNames g') {r : Relation} {l : Link} (hl : g.Stands r l) :
    g'.Stands r l := by
  obtain ⟨x, hx, y, hy, hsource, htarget, rfl⟩ := hl
  obtain ⟨x', hx', hxid, hxname⟩ := h x hx
  obtain ⟨y', hy', hyid, hyname⟩ := h y hy
  exact ⟨x', hx', y', hy', hxid.trans hsource, hyid.trans htarget, by rw [hxname, hyname]⟩

theorem keepsNames_refl (g : KnowledgeGraph) : g.KeepsNames g := fun x hx => ⟨x, hx, rfl, rfl⟩

/-- The entity of a name is what is known under it. -/
theorem about_eq (hh : g.Holds M) (name : String) : M.about P.lower name =
    (g.entities.values.find? fun x => P.lower x.name = P.lower name).map Entity.recollection := by
  unfold Memory.about
  rw [← hh.recollections, List.find?_map]
  rfl

/-- What is known under each name is known once. -/
def Memory.Distinct (lower : String → String) (M : Memory) : Prop :=
  (M.recollections.map fun x => lower x.name).Nodup

theorem Memory.Distinct.note {lower : String → String} (h : M.Distinct lower) (r : Recollection) :
    (M.note lower r).Distinct lower := Merging.nodup_note (fun _ _ => rfl) h

theorem ownNames_of_holds (hh : g.Holds M) (hd : M.Distinct P.lower) :
    (g.entities.values.map fun x => P.lower x.name).Nodup := by
  unfold Memory.Distinct at hd
  rw [← hh.recollections, List.map_map] at hd
  exact hd

/-! ## What one graph has of the engine -/

/-- `e'` comes after `e` in operations on one graph. -/
structure Beside (graphId : String) (e e' : GraphEngine) : Prop where
  others : ∀ j, j ≠ graphId → e'.getGraph j = e.getGraph j
  ids : ∀ k ∈ e.ids, k ∈ e'.ids
  drawn : Drawn e → Drawn e'

theorem Beside.trans (h : Beside graphId e e') (h' : Beside graphId e' e'') :
    Beside graphId e e'' :=
  ⟨fun j hj => (h'.others j hj).trans (h.others j hj), fun k hk => h'.ids k (h.ids k hk),
    fun hd => h'.drawn (h.drawn hd)⟩

theorem beside_refl (graphId : String) (e : GraphEngine) : Beside graphId e e :=
  ⟨fun _ _ => rfl, fun _ hk => hk, id⟩

theorem beside_draw (graphId : String) (e : GraphEngine) : Beside graphId e (e.draw P).2 := by
  refine ⟨fun _ _ => rfl, fun k hk => List.mem_cons_of_mem _ hk, fun hd j x hx => ?_⟩
  obtain ⟨hj, hkeys⟩ := hd j x hx
  exact ⟨List.mem_cons_of_mem _ hj, fun k hk => List.mem_cons_of_mem _ (hkeys k hk)⟩

theorem beside_addEntity (e : GraphEngine) (graphId : String) (entity : Entity) :
    Beside graphId e (e.addEntity P graphId entity).2 := by
  refine ⟨fun j hj => ?_, fun k hk => ?_, fun hd => drawn_apply hd (.addEntity graphId entity)⟩
  · rcases addEntity_spec (P := P) (e := e) graphId entity with
      ⟨-, hsame⟩ | ⟨g, x, hg, -, hgraphs, -, -⟩
    · rw [hsame]
    · rw [getGraph_of_put hgraphs]
      exact if_neg fun h => hj (h.trans (graphId_of_get (g := g) hg))
  · rcases addEntity_spec (P := P) (e := e) graphId entity with
      ⟨-, hsame⟩ | ⟨-, -, -, -, -, -, hids⟩
    · rw [hsame]
      exact hk
    · exact hids k hk

theorem beside_addRelation (e : GraphEngine) (graphId : String) (relation : Relation) :
    Beside graphId e (e.addRelation graphId relation).2 := by
  refine ⟨fun j hj => ?_, fun k hk => ?_, fun hd =>
    drawn_apply (P := ⟨IdSource.longer, id⟩) hd (.addRelation graphId relation)⟩
  · rcases addRelation_spec (e := e) graphId relation with hsame | ⟨g, hg, hgraphs, -, -⟩
    · rw [hsame]
    · rw [getGraph_of_put hgraphs]
      exact if_neg fun h => hj (h.trans (graphId_of_get (g := g) hg))
  · rcases addRelation_spec (e := e) graphId relation with hsame | ⟨-, -, -, -, hids⟩
    · rw [hsame]
      exact hk
    · rw [hids]
      exact List.mem_cons_of_mem _ hk

/-- The graph is in the engine and holds the memory. The ids of its entities are in use. -/
structure Memorized (P : GraphEnv) (e : GraphEngine) (graphId : String) (g : KnowledgeGraph)
    (M : Memory) : Prop where
  graph : e.getGraph graphId = some g
  holds : g.Holds M
  distinct : M.Distinct P.lower
  keys : ∀ k ∈ g.entities.keys, k ∈ e.ids

theorem Memorized.beside {j : String} (h : Memorized P e j g M) (hb : Beside graphId e e')
    (hj : j ≠ graphId) : Memorized P e' j g M :=
  ⟨(hb.others j hj).trans h.graph, h.holds, h.distinct, fun k hk => hb.ids k (h.keys k hk)⟩

theorem Memorized.draw (h : Memorized P e graphId g M) : Memorized P (e.draw P).2 graphId g M :=
  ⟨h.graph, h.holds, h.distinct, fun k hk => List.mem_cons_of_mem _ (h.keys k hk)⟩

/-! ## Entities and relations of a fact -/

/-- **An entity is added** under a new id: the memory notes it. -/
theorem memorized_addEntity (h : Memorized P e graphId g M) (entity : Entity)
    (hfresh : entity.entityId ∉ g.entities.keys) :
    ∃ y g', (e.addEntity P graphId entity).1 = .ok y ∧ y ∈ g'.entities.values ∧
      y.recollection = ((M.about P.lower entity.name).map
        (·.refresh entity.recollection)).getD entity.recollection ∧
      Memorized P (e.addEntity P graphId entity).2 graphId g'
        (M.note P.lower entity.recollection) ∧ g.KeepsNames g' := by
  have hg := h.graph
  have hnames := ownNames_of_holds h.holds h.distinct
  have hown : g.OwnNames P := fun x hx y hy hxy =>
    congrArg Entity.entityId (List.inj_on_of_nodup_map hnames hx hy hxy)
  have hids := (beside_addEntity (P := P) e graphId entity).ids
  have hdistinct := h.distinct.note entity.recollection
  rw [about_eq (P := P) h.holds]
  -- a graph whose entities are those of `g` with the new one noted
  have hholds : ∀ g' : KnowledgeGraph, g'.relations = g.relations → g.KeepsNames g' →
      g'.entities.values =
        Merging.note (fun x : Entity => P.lower x.name) refresh g.entities.values entity →
      g'.Holds (M.note P.lower entity.recollection) := by
    intro g' hrelations hkeeps hvalues
    refine ⟨?_, ?_⟩
    · unfold Memory.note
      rw [hvalues, ← h.holds.recollections]
      exact Merging.map_note (fun _ => rfl) fun _ _ => rfl
    · rw [hrelations]
      exact h.holds.links.imp fun _ _ hl => stands_of_keepsNames hkeeps hl
  cases hfind : g.entities.values.find? fun x => P.lower x.name = P.lower entity.name with
  | some existing =>
    have hmem := List.mem_of_find?_eq_some hfind
    have hname : P.lower existing.name = P.lower entity.name := by simpa using List.find?_some hfind
    obtain ⟨-, hkeeps, -⟩ := withEntity_refresh hmem hown hname
    have hgraphs : (e.addEntity P graphId entity).2.graphs =
        e.graphs.put (g.withEntity (refresh existing entity)) := by
      unfold addEntity
      simp only [hg, hfind]
      rfl
    have hafter : (e.addEntity P graphId entity).2.getGraph graphId =
        some (g.withEntity (refresh existing entity)) := by
      rw [getGraph_of_put hgraphs]
      exact if_pos (graphId_withEntity hg _).symm
    have hvalues : (g.entities.put (refresh existing entity)).values =
        Merging.note (fun x : Entity => P.lower x.name) refresh g.entities.values entity :=
      Merging.values_put_known refresh (fun _ _ => rfl) hnames hfind
    refine ⟨refresh existing entity, g.withEntity (refresh existing entity), ?_,
      mem_withEntity.2 (Or.inl rfl), rfl, ⟨hafter, ?_, hdistinct, fun k hk => ?_⟩, hkeeps⟩
    · unfold addEntity
      simp only [hg, hfind]
    · exact hholds _ rfl hkeeps hvalues
    · -- no key is new
      obtain ⟨x, hx, rfl⟩ := List.mem_map.1 ((g.withEntity _).entities.keys_eq ▸ hk)
      refine hids _ (h.keys _ ?_)
      rw [g.entities.keys_eq]
      rcases mem_withEntity.1 hx with rfl | ⟨hold, -⟩
      · exact List.mem_map.2 ⟨existing, hmem, rfl⟩
      · exact List.mem_map_of_mem hold
  | none =>
    have hn : ¬g.Names P entity.name := by
      rintro ⟨x, hx, hname⟩
      exact List.find?_eq_none.1 hfind x hx (decide_eq_true hname)
    have hkeeps := (keepsNames_new_iff hn).2 hfresh
    have hnew : entity.entityId ∈ (e.addEntity P graphId entity).2.ids := by
      unfold addEntity
      simp only [hg, hfind]
      exact List.mem_cons_self
    refine ⟨entity, g.withEntity entity, ?_, mem_withEntity.2 (Or.inl rfl), rfl,
      ⟨addEntity_new hg hn, ?_, hdistinct, fun k hk => ?_⟩, hkeeps⟩
    · unfold addEntity
      simp only [hg, hfind]
    · exact hholds _ rfl hkeeps (Merging.values_put_new hfind hfresh)
    · obtain ⟨x, hx, rfl⟩ := List.mem_map.1 ((g.withEntity _).entities.keys_eq ▸ hk)
      rcases mem_withEntity.1 hx with rfl | ⟨hold, -⟩
      · exact hnew
      · refine hids _ (h.keys _ ?_)
        rw [g.entities.keys_eq]
        exact List.mem_map_of_mem hold

/-- **A relation is added** under a new id, between two entities of the graph. -/
theorem memorized_addRelation (h : Memorized P e graphId g M) {x y : Entity}
    (hx : x ∈ g.entities.values) (hy : y ∈ g.entities.values) (relation : Relation)
    (hsource : relation.sourceId = x.entityId) (htarget : relation.targetId = y.entityId)
    (hfresh : relation.relationId ∉ g.relations.keys) :
    (∃ r, (e.addRelation graphId relation).1 = .ok r) ∧
      ∃ g', g'.entities = g.entities ∧ Memorized P (e.addRelation graphId relation).2 graphId g'
        { M with links := M.links ++ [⟨x.name, y.name, relation.type⟩] } := by
  have hg := h.graph
  have hids := (beside_addRelation e graphId relation).ids
  have hends : ¬(relation.sourceId ∉ g.entities.keys ∨ relation.targetId ∉ g.entities.keys) := by
    rw [g.entities.keys_eq, hsource, htarget, not_or, not_not, not_not]
    exact ⟨List.mem_map_of_mem hx, List.mem_map_of_mem hy⟩
  have hgraphs : (e.addRelation graphId relation).2.graphs = e.graphs.put
      { g with relations := g.relations.put relation, version := g.version + 1 } := by
    unfold addRelation
    simp only [hg]
    rw [if_neg hends]
    rfl
  have hafter := getGraph_of_put hgraphs graphId
  rw [if_pos (show graphId = _ from (graphId_of_get hg).symm)] at hafter
  refine ⟨⟨relation, ?_⟩, { g with relations := g.relations.put relation,
                                   version := g.version + 1 }, rfl, hafter, ⟨?_, ?_⟩, h.distinct,
    fun k hk => hids k (h.keys k hk)⟩
  · unfold addRelation
    simp only [hg]
    rw [if_neg hends]
  · exact h.holds.recollections
  · have hnew : g.Stands relation ⟨x.name, y.name, relation.type⟩ :=
      ⟨x, hx, y, hy, hsource.symm, htarget.symm, rfl⟩
    show List.Forall₂ _ (g.relations.put relation).values _
    rw [Index.values_put_new (Index.get?_eq_none_iff.2 hfresh)]
    exact List.rel_append h.holds.links (List.Forall₂.cons hnew List.Forall₂.nil)

/-- A new id is not one of the graph. -/
theorem draw_fresh (h : Memorized P e graphId g M) (hd : Drawn e) :
    (e.draw P).1 ∉ g.entities.keys ∧ (e.draw P).1 ∉ g.relations.keys :=
  ⟨fun hk => P.uuid.not_mem e.ids (h.keys _ hk),
    fun hk => P.uuid.not_mem e.ids ((hd graphId g h.graph).2 _ hk)⟩

/-- **What a relation leads to** is found or stored as the memory says. -/
theorem memorized_factTarget (h : Memorized P e graphId g M) (hd : Drawn e) (rel : FactRelation) :
    (factTarget P graphId rel e).1.map Entity.recollection = (M.target P.lower rel).1 ∧
      Beside graphId e (factTarget P graphId rel e).2 ∧
      ∃ g', Memorized P (factTarget P graphId rel e).2 graphId g' (M.target P.lower rel).2 ∧
        g.KeepsNames g' ∧ ∀ y, (factTarget P graphId rel e).1 = .ok y → y ∈ g'.entities.values := by
  have hg := h.graph
  unfold factTarget Memory.target
  rw [about_eq (P := P) h.holds]
  simp only [hg]
  cases hfind : g.entities.values.find? fun x => P.lower x.name = P.lower rel.target with
  | some x =>
    refine ⟨rfl, beside_refl graphId e, g, h, keepsNames_refl g, ?_⟩
    rintro y hy
    obtain rfl := Except.ok.inj hy
    exact List.mem_of_find?_eq_some hfind
  | none =>
    simp only [Option.map_none]
    cases EntityType.ofValue (if rel.type = "" then "custom" else rel.type) with
    | error x =>
      refine ⟨rfl, beside_draw graphId e, g, h.draw, keepsNames_refl g, ?_⟩
      rintro y hy
      cases hy
    | ok type =>
      have hfresh := (draw_fresh h hd).1
      obtain ⟨y, g', hok, hy, hrec, hmem, hkeeps⟩ := memorized_addEntity h.draw
        { entityId := (e.draw P).1, name := rel.target, type } hfresh
      rw [about_eq (P := P) h.holds, hfind] at hrec
      refine ⟨?_, (beside_draw graphId e).trans (beside_addEntity _ graphId _), g', hmem, hkeeps, ?_⟩
      · rw [hok]
        exact congrArg Except.ok hrec
      · intro z hz
        obtain rfl := Except.ok.inj (hok.symm.trans hz)
        exact hy

/-- **The relation of a fact** from an entity of the graph. -/
theorem memorized_addFactRelation (h : Memorized P e graphId g M) (hd : Drawn e) {stored : Entity}
    (hstored : stored ∈ g.entities.values) (rel : FactRelation) :
    ((addFactRelation P graphId stored rel e).1.map fun _ => ()) =
        (M.relate P.lower stored.recollection rel).1 ∧
      Beside graphId e (addFactRelation P graphId stored rel e).2 ∧
      ∃ g', Memorized P (addFactRelation P graphId stored rel e).2 graphId g'
        (M.relate P.lower stored.recollection rel).2 := by
  obtain ⟨htarget, hbeside, g', hmem, hkeeps, hthere⟩ := memorized_factTarget h hd rel
  have hd' := hbeside.drawn hd
  unfold addFactRelation Memory.relate
  revert htarget hbeside hmem hthere hd'
  rcases factTarget P graphId rel e with ⟨r, e'⟩
  rcases M.target P.lower rel with ⟨r', M'⟩
  intro htarget hbeside hmem hthere hd'
  cases r with
  | error x =>
    obtain rfl : Except.error x = r' := htarget
    exact ⟨rfl, hbeside, g', hmem⟩
  | ok y =>
    obtain rfl : Except.ok y.recollection = r' := htarget
    simp only
    cases RelationType.ofValue rel.relationType with
    | error x => exact ⟨rfl, hbeside.trans (beside_draw graphId e'), g', hmem.draw⟩
    | ok type =>
      -- the entity that was stored is still there under its name
      obtain ⟨x, hx, hxid, hxname⟩ := hkeeps stored hstored
      have hfresh := (draw_fresh hmem hd').2
      obtain ⟨⟨r, hr⟩, g'', -, hmem'⟩ := memorized_addRelation hmem.draw hx (hthere y rfl)
        { relationId := (e'.draw P).1, sourceId := stored.entityId, targetId := y.entityId, type }
        hxid.symm rfl hfresh
      refine ⟨?_, (hbeside.trans (beside_draw graphId e')).trans
        (beside_addRelation _ graphId _), g'', ?_⟩
      · simp only [hr]
        rfl
      · rw [hxname] at hmem'
        exact hmem'

/-- **A fact** is answered and stored as the memory says. -/
theorem memorized_addFact (h : Memorized P e graphId g M) (hd : Drawn e) (fact : Fact) :
    (e.addFact P graphId fact).1.map Entity.recollection = (M.learn P.lower fact).1 ∧
      Beside graphId e (e.addFact P graphId fact).2 ∧
      ∃ g', Memorized P (e.addFact P graphId fact).2 graphId g' (M.learn P.lower fact).2 := by
  have hdraw := beside_draw (P := P) graphId e
  unfold addFact Memory.learn
  cases fact.name with
  | none => exact ⟨rfl, hdraw, g, h.draw⟩
  | some name =>
    simp only
    cases EntityType.ofValue fact.type with
    | error x => exact ⟨rfl, hdraw, g, h.draw⟩
    | ok type =>
      obtain ⟨stored, g', hok, hthere, hrec, hmem, -⟩ := memorized_addEntity h.draw
        (fact.entity (e.draw P).1 name type) (draw_fresh h hd).1
      have hbeside := hdraw.trans
        (beside_addEntity (P := P) (e.draw P).2 graphId (fact.entity (e.draw P).1 name type))
      obtain ⟨r, e', hadd⟩ : ∃ r e', (e.draw P).2.addEntity P graphId
          (fact.entity (e.draw P).1 name type) = (r, e') := ⟨_, _, rfl⟩
      rw [hadd] at hok hmem hbeside
      obtain rfl : r = .ok stored := hok
      replace hrec : stored.recollection = ((M.about P.lower name).map
        (·.refresh (fact.recollection name type))).getD (fact.recollection name type) := hrec
      replace hmem : Memorized P e' graphId g' (M.note P.lower (fact.recollection name type)) := hmem
      simp only [hadd]
      rw [← hrec]
      cases fact.relation with
      | none => exact ⟨rfl, hbeside, g', hmem⟩
      | some rel =>
        obtain ⟨hresult, hbeside', g'', hmem'⟩ :=
          memorized_addFactRelation hmem (hbeside.drawn hd) hthere rel
        revert hresult hbeside' hmem'
        simp only
        rcases addFactRelation P graphId stored rel e' with ⟨r, e''⟩
        rcases Memory.relate P.lower stored.recollection rel _ with ⟨r', M'⟩
        intro hresult hbeside' hmem'
        cases r with
        | error x =>
          obtain rfl : Except.error x = r' := hresult
          exact ⟨rfl, hbeside.trans hbeside', g'', hmem'⟩
        | ok _ =>
          obtain rfl : Except.ok () = r' := hresult
          exact ⟨rfl, hbeside.trans hbeside', g'', hmem'⟩

/-! ## Others who use the engine -/

/-- The graph that an operation is about. -/
def GraphOp.graphId? : GraphOp → Option String
  | .createGraph _ => none
  | .deleteGraph graphId => some graphId
  | .addEntity graphId _ => some graphId
  | .addRelation graphId _ => some graphId
  | .mergeEntities graphId _ _ => some graphId
  | .runInference graphId _ _ => some graphId

/-- An inference forgets no id. -/
theorem ids_runInference (e : GraphEngine) (graphId : String) (rules : List InferenceRule)
    (maxIterations : ℤ) {k : String} (hk : k ∈ e.ids) :
    k ∈ (e.runInference P graphId rules maxIterations).2.ids := by
  have hmerge : ∀ (e : GraphEngine) c dups, (e.mergeEntities graphId c dups).2.ids = e.ids := by
    intro e c dups
    rcases mergeEntities_cases (e := e) graphId c dups with hsame | ⟨g, g', -, -, -, hm⟩
    · rw [hsame]
    · exact hm.ids
  have hfire : ∀ rule p (e : GraphEngine), k ∈ e.ids → k ∈ (fire P graphId rule p e).2.ids := by
    intro rule p e hk
    have hdraw : k ∈ (e.draw P).2.ids := List.mem_cons_of_mem _ hk
    have hm := hmerge e p.1 [p.2]
    unfold fire
    split
    · split
      · exact hk
      · split
        · exact hk
        · exact hdraw
    · split
      · split
        · rename_i heq
          rw [heq] at hm
          exact hm ▸ hk
        · rename_i heq
          rw [heq] at hm
          exact hm ▸ hk
      · exact hk
  refine inference_keeps (I := fun s => k ∈ s.engine.ids) (fun rule s hs => ?_) e rules maxIterations
    hk
  cases hg : s.engine.getGraph graphId with
  | none =>
    rw [applyRule_none hg]
    exact hs
  | some g => exact (applyRule_applied hg rule).ids k (Loops.forEach_keeps
      (I := fun e : GraphEngine => k ∈ e.ids) (fun p e => hfire rule p e) _ _ hs)

/-- **An operation on another graph** leaves a graph as it is. -/
theorem memorized_apply (h : Memorized P e graphId g M) (hd : Drawn e) (op : GraphOp)
    (hother : op.graphId? ≠ some graphId) : Memorized P (e.apply P op) graphId g M := by
  have hne : ∀ {j}, op.graphId? = some j → graphId ≠ j := by
    rintro j hj rfl
    exact hother hj
  cases op with
  | createGraph name =>
    refine ⟨?_, h.holds, h.distinct, fun k hk => List.mem_cons_of_mem _ (h.keys k hk)⟩
    refine (getGraph_createGraph name graphId).trans ?_
    rw [if_neg, h.graph]
    rintro rfl
    have hnone := createGraph_fresh (P := P) hd
    rw [h.graph] at hnone
    cases hnone
  | deleteGraph j =>
    refine ⟨?_, h.holds, h.distinct, fun k hk => ?_⟩
    · refine (getGraph_deleteGraph j graphId).trans ?_
      rw [if_neg (hne rfl), h.graph]
    · show k ∈ (e.deleteGraph j).2.ids
      unfold deleteGraph
      split
      · exact h.keys k hk
      · exact h.keys k hk
  | addEntity j entity => exact h.beside (beside_addEntity e j entity) (hne rfl)
  | addRelation j relation => exact h.beside (beside_addRelation e j relation) (hne rfl)
  | mergeEntities j c dups =>
    rcases mergeEntities_cases (e := e) j c dups with hsame | ⟨x, x', hx, -, -, hm⟩
    · show Memorized P (e.mergeEntities j c dups).2 graphId g M
      rw [hsame]
      exact h
    · refine ⟨?_, h.holds, h.distinct, fun k hk => ?_⟩
      · refine (getGraph_of_put hm.graphs graphId).trans ?_
        rw [if_neg, h.graph]
        rw [hm.graphId, graphId_of_get hx]
        exact hne rfl
      · show k ∈ (e.mergeEntities j c dups).2.ids
        rw [hm.ids]
        exact h.keys k hk
  | runInference j rules maxIterations =>
    refine ⟨?_, h.holds, h.distinct, fun k hk => ids_runInference e j rules maxIterations (h.keys k hk)⟩
    exact ((inference_onward (P := P) (e := e) j rules maxIterations).others graphId (hne rfl)).trans
      h.graph

/-! ## The runtime -/

/-- The runtime holds the memories of its agents, each in a graph of its own. -/
structure Recalls (P : GraphEnv) (m : AgentMemory) (kg : GraphEngine) (ms : String → Memory) :
    Prop where
  wired : m.kg = some kg
  drawn : Drawn kg
  known : ∀ a graphId, m.defaultGraphs.get? a = some graphId → ∃ g, Memorized P kg graphId g (ms a)
  unknown : ∀ a, m.defaultGraphs.get? a = none → ms a = {}
  own : ∀ a b graphId, m.defaultGraphs.get? a = some graphId →
    m.defaultGraphs.get? b = some graphId → a = b

/-- The graph of an agent that has none is empty. -/
theorem recalls_graphFor {m : AgentMemory} {kg : GraphEngine} {ms : String → Memory}
    (h : Recalls P m kg ms) (agentId : String) :
    ∃ graphId kg' defaultGraphs,
      AgentMemory.graphFor P agentId kg m.defaultGraphs = (graphId, kg', defaultGraphs) ∧
      Recalls P { kg := some kg', defaultGraphs } kg' ms ∧
      defaultGraphs.get? agentId = some graphId := by
  unfold AgentMemory.graphFor
  cases hget : m.defaultGraphs.get? agentId with
  | some graphId => exact ⟨_, _, _, rfl, ⟨rfl, h.drawn, h.known, h.unknown, h.own⟩, hget⟩
  | none =>
    refine ⟨_, _, _, rfl, ?_, Dict.get?_insert_self _ _ _⟩
    have hfresh := createGraph_fresh (P := P) h.drawn
    have hnot : ∀ b graphId, m.defaultGraphs.get? b = some graphId →
        graphId ≠ P.uuid.next kg.ids := by
      rintro b graphId hb rfl
      obtain ⟨g, hg⟩ := h.known b _ hb
      have hthere := hg.graph
      rw [hfresh] at hthere
      cases hthere
    have hkept : ∀ b graphId g, m.defaultGraphs.get? b = some graphId →
        Memorized P kg graphId g (ms b) →
        Memorized P (kg.createGraph P ("agent:" ++ agentId)).2 graphId g (ms b) :=
      fun _ _ _ _ hg => memorized_apply hg h.drawn (.createGraph _) (Option.some_ne_none _).symm
    refine ⟨rfl, drawn_apply h.drawn (.createGraph ("agent:" ++ agentId)), fun b graphId hb => ?_,
      fun b hb => ?_, fun b c graphId hb hc => ?_⟩
    · rw [Dict.get?_insert] at hb
      split at hb
      · rename_i hba
        obtain rfl := Option.some.inj hb
        refine ⟨{ graphId := P.uuid.next kg.ids, name := "agent:" ++ agentId }, ?_, ?_, ?_, ?_⟩
        · exact (getGraph_createGraph _ _).trans (if_pos rfl)
        · rw [hba, h.unknown agentId hget]
          exact ⟨rfl, List.Forall₂.nil⟩
        · rw [hba, h.unknown agentId hget]
          exact List.nodup_nil
        · intro k hk
          cases hk
      · obtain ⟨g, hg⟩ := h.known b graphId hb
        exact ⟨g, hkept b graphId g hb hg⟩
    · rw [Dict.get?_insert] at hb
      split at hb
      · cases hb
      · exact h.unknown b hb
    · rw [Dict.get?_insert] at hb hc
      split at hb
      · rename_i hba
        obtain rfl := Option.some.inj hb
        split at hc
        · rename_i hca
          rw [hba, hca]
        · exact absurd rfl (hnot c _ hc)
      · split at hc
        · obtain rfl := Option.some.inj hc
          exact absurd rfl (hnot b _ hb)
        · exact h.own b c graphId hb hc

/-- **`remember`** answers as the agent's memory does and leaves the other memories as they are. -/
theorem recalls_remember {m : AgentMemory} {kg : GraphEngine} {ms : String → Memory}
    (h : Recalls P m kg ms) (agentId : String) (fact : Fact) :
    (m.remember P agentId fact).1.map Entity.recollection =
        ((ms agentId).learn P.lower fact).1 ∧
      ∃ kg', Recalls P (m.remember P agentId fact).2 kg'
        (Function.update ms agentId ((ms agentId).learn P.lower fact).2) := by
  obtain ⟨graphId, kg', defaultGraphs, hfor, h', hget⟩ := recalls_graphFor h agentId
  obtain ⟨g, hg⟩ := h'.known agentId graphId hget
  obtain ⟨hanswer, hbeside, g', hg'⟩ := memorized_addFact hg h'.drawn fact
  unfold AgentMemory.remember
  simp only [h.wired, hfor]
  refine ⟨hanswer, _, rfl, hbeside.drawn h'.drawn, fun b j hb => ?_, fun b hb => ?_, h'.own⟩
  · by_cases hba : b = agentId
    · subst hba
      obtain rfl := Option.some.inj (hget.symm.trans hb)
      rw [Function.update_self]
      exact ⟨g', hg'⟩
    · rw [Function.update_of_ne hba]
      obtain ⟨x, hx⟩ := h'.known b j hb
      refine ⟨x, hx.beside hbeside ?_⟩
      rintro rfl
      exact hba (h'.own b agentId j hb hget)
  · rw [Function.update_of_ne, h'.unknown b hb]
    rintro rfl
    replace hb : defaultGraphs.get? b = none := hb
    rw [hget] at hb
    cases hb

/-- The text of a query is taken as it is. -/
theorem toText_str (query : String) : toText (some (.str query)) = .ok query := by
  unfold toText
  by_cases hq : query = ""
  · subst hq
    rfl
  · simp [isTruthy, hq]

variable {P : QueryEnv} {m : AgentMemory} {kg : GraphEngine} {ms : String → Memory}
  {fs : String → List Fact}

/-- A query by name changes nothing. -/
theorem query_byName (e : GraphEngine) (graphId queryId query : String) :
    e.query P graphId { queryId, graphId, queryType := "entity_by_name",
                        parameters := (∅ : Dict String Value).insert "name" (.str query) } =
      (.ok { entities := (e.entitiesByName P graphId query).upTo 10 }, e) := by
  unfold GraphEngine.query
  simp only [if_true, Dict.get?_insert_self, toText_str]
  rfl

/-- The entities that a query by name finds, read from their graph. -/
theorem filterMap_entityId {xs : List Entity} (hxs : ∀ x ∈ xs, x ∈ g.entities.values) :
    (xs.map (·.entityId)).filterMap g.entities.get? = xs := by
  rw [List.filterMap_map]
  exact (List.filterMap_congr fun x hx => Index.mem_values.1 (hxs x hx)).trans List.filterMap_some

/-- **`recall`** answers as the agent's memory does. -/
theorem recalls_recallEntities (h : Recalls P.toGraphEnv m kg ms) (agentId query : String) :
    (m.recallEntities P agentId query).1.map (·.map Entity.recollection) =
        .ok ((ms agentId).answer P.lower query) ∧
      ∃ kg', Recalls P.toGraphEnv (m.recallEntities P agentId query).2 kg' ms := by
  unfold AgentMemory.recallEntities
  rw [h.wired]
  cases hget : m.defaultGraphs.get? agentId with
  | none =>
    rw [h.unknown agentId hget]
    exact ⟨rfl, kg, h⟩
  | some graphId =>
    obtain ⟨g, hg⟩ := h.known agentId graphId hget
    have hdraw := beside_draw (P := P.toGraphEnv) graphId kg
    have hsearch : (kg.draw P.toGraphEnv).2.getGraph graphId = some g := hg.graph
    have hrecalls : Recalls P.toGraphEnv { m with kg := some (kg.draw P.toGraphEnv).2 }
        (kg.draw P.toGraphEnv).2 ms := by
      refine ⟨rfl, hdraw.drawn h.drawn, fun a j ha => ?_, h.unknown, h.own⟩
      obtain ⟨x, hx⟩ := h.known a j ha
      exact ⟨x, hx.draw⟩
    simp only [query_byName]
    refine ⟨congrArg Except.ok ?_, _, hrecalls⟩
    unfold entitiesByName
    simp only [hsearch]
    have hten : ∀ {α : Type} (xs : List α), xs.upTo 10 = xs.take 10 := fun xs => if_pos (by decide)
    have hread : (fun eid => (some g).bind (·.entities.get? eid)) = g.entities.get? := rfl
    rw [hten, ← List.map_take, hread, filterMap_entityId, List.map_take]
    · unfold Memory.answer
      rw [← hg.holds.recollections, List.filter_map]
      rfl
    · intro x hx
      exact List.mem_of_mem_filter (List.mem_of_mem_take hx)

/-- An operation of others is on no graph of an agent. -/
def AgentMemory.Apart (m : AgentMemory) : MemoryStep → Prop
  | .graph op => ∀ agentId graphId, m.defaultGraphs.get? agentId = some graphId →
    op.graphId? ≠ some graphId
  | _ => True

/-- **One step** keeps the memories, and an agent learns what it is told. -/
theorem recalls_step (h : Recalls P.toGraphEnv m kg fun a => Memory.ofFacts P.lower (fs a))
    (b : MemoryStep) (hb : m.Apart b) : ∃ kg', Recalls P.toGraphEnv (m.step P b) kg' fun a =>
      Memory.ofFacts P.lower (b.facts a (fs a)) := by
  cases b with
  | remember agentId fact =>
    obtain ⟨-, kg', h'⟩ := recalls_remember h agentId fact
    have hlearned : (fun a => Memory.ofFacts P.lower (if agentId = a then fs a ++ [fact] else fs a)) =
        Function.update (fun a => Memory.ofFacts P.lower (fs a)) agentId
          ((Memory.ofFacts P.lower (fs agentId)).learn P.lower fact).2 := by
      funext a
      by_cases ha : agentId = a
      · subst ha
        rw [if_pos rfl, Function.update_self]
        unfold Memory.ofFacts
        rw [List.foldl_append]
        rfl
      · rw [if_neg ha, Function.update_of_ne (Ne.symm ha)]
    refine ⟨kg', ?_⟩
    show Recalls P.toGraphEnv _ kg'
      fun a => Memory.ofFacts P.lower (if agentId = a then fs a ++ [fact] else fs a)
    rw [hlearned]
    exact h'
  | recallEntities agentId query => exact (recalls_recallEntities h agentId query).2
  | graph op =>
    refine ⟨kg.apply P.toGraphEnv op, ?_, drawn_apply h.drawn op, fun a j ha => ?_, h.unknown, h.own⟩
    · show m.kg.map _ = _
      rw [h.wired]
      rfl
    · obtain ⟨g, hg⟩ := h.known a j ha
      exact ⟨g, memorized_apply hg h.drawn op (hb a j ha)⟩
  | restart =>
    refine ⟨kg, h.wired, h.drawn, fun a j ha => ?_, fun _ _ => rfl, fun a b j ha => ?_⟩
    · cases ha
    · cases ha

/-- **A run** keeps the memories. -/
theorem recalls_run (steps : List MemoryStep) : ∀ {m : AgentMemory} {kg : GraphEngine}
    {fs : String → List Fact},
    Recalls P.toGraphEnv m kg (fun a => Memory.ofFacts P.lower (fs a)) →
    EachStep (AgentMemory.step P) AgentMemory.Apart m steps →
    ∃ kg', Recalls P.toGraphEnv (steps.foldl (AgentMemory.step P) m) kg' fun a =>
      Memory.ofFacts P.lower (steps.foldl (MemoryStep.facts a) (fs a)) := by
  induction steps with
  | nil =>
    intro m kg fs h _
    exact ⟨kg, h⟩
  | cons b steps ih =>
    intro m kg fs h hapart
    obtain ⟨kg', h'⟩ := recalls_step h b hapart.1
    exact ih h' hapart.2

/-- **What an agent learned is what it recalls.** After every run in which nobody else writes into
the graphs of the agents, `remember` and `recall` answer as the memory of the agent does that
learned its own facts since the runtime started, one after the other, and its graph holds that
memory. No fact of another agent and no other operation on the engine is in it. -/
theorem memory_recalled (P : QueryEnv) (kg : GraphEngine) (hd : Drawn kg) (steps : List MemoryStep)
    (hapart : EachStep (AgentMemory.step P) AgentMemory.Apart { kg := some kg } steps)
    (agentId : String) :
    let m := steps.foldl (AgentMemory.step P) { kg := some kg }
    let M := Memory.ofFacts P.lower (steps.foldl (MemoryStep.facts agentId) [])
    (∀ fact, (m.remember P.toGraphEnv agentId fact).1.map Entity.recollection =
      (M.learn P.lower fact).1) ∧
    (∀ query, (m.recallEntities P agentId query).1.map (·.map Entity.recollection) =
      .ok (M.answer P.lower query)) ∧
    ∀ graphId, m.defaultGraphs.get? agentId = some graphId →
      ∃ e g, m.kg = some e ∧ e.getGraph graphId = some g ∧ g.Holds M := by
  have hstart : Recalls P.toGraphEnv { kg := some kg } kg
      fun _ => Memory.ofFacts P.lower [] := by
    refine ⟨rfl, hd, fun a j ha => ?_, fun _ _ => rfl, fun a b j ha => ?_⟩
    · cases ha
    · cases ha
  obtain ⟨e, h⟩ := recalls_run steps hstart hapart
  refine ⟨fun fact => (recalls_remember h agentId fact).1,
    fun query => (recalls_recallEntities h agentId query).1, fun graphId hget => ?_⟩
  obtain ⟨g, hg⟩ := h.known agentId graphId hget
  exact ⟨e, g, h.wired, hg.graph, hg.holds⟩

namespace Tea

def env : QueryEnv where
  uuid := .longer
  lower := id
  parseInt _ := none
  similar _ _ _ := []
  rules _ := []

/-- What `alice` is told. -/
def fact : Fact := { name := some "tea", relation := some { target := "milk" } }

/-- Two agents learn something, and others have a graph of their own. -/
def steps : List MemoryStep :=
  [.remember "alice" fact, .graph (.createGraph "shared"), .remember "bob" { name := some "tea time" },
    .recallEntities "alice" "te"]

end Tea

theorem memory_recalled_tea :
    ((Tea.steps.foldl (AgentMemory.step Tea.env) { kg := some (init none) }).recallEntities Tea.env
        "alice" "te").1.map (·.map Entity.recollection) =
      .ok ((Memory.ofFacts id [Tea.fact]).answer id "te") := by
  refine (memory_recalled Tea.env (init none) (drawn_init none) Tea.steps ?_ "alice").2.1 "te"
  refine ⟨trivial, fun _ graphId _ => (Option.some_ne_none graphId).symm, trivial, trivial, trivial⟩

end Hermes

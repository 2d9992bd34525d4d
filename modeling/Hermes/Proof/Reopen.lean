import Hermes.Lib.Rows
import Hermes.Proof.Versions

/-!
# Graphs that survive a restart

* `get?_loadAll`: the graphs that a store loads from a database.
* `Mirror`: the tables hold the graphs of the engine. Then a store that is opened on
  them has these graphs (`Mirror.reopens`).
* `Stale`: an entity that was merged away still has its row. Then it comes back
  (`Stale.not_reopens`), whatever the inference does after the merge.
* `reopens_iff`: so the graphs survive a restart throughout a run exactly when no
  operation of the run merges an entity away.
-/

namespace Hermes

open History GraphEngine

variable {P : GraphEnv} {e e' : GraphEngine} {g g' : KnowledgeGraph} {i graphId : String}

/-! ## Loading -/

theorem foldl_entities (rows : List (String × Entity)) : ∀ g : KnowledgeGraph,
    rows.foldl (fun g row => { g with entities := g.entities.put row.2 }) g =
      { g with entities := rows.foldl (fun x row => x.put row.2) g.entities } := by
  induction rows with
  | nil => intro g; rfl
  | cons row rows ih => intro g; exact ih _

theorem foldl_relations (rows : List (String × Relation)) : ∀ g : KnowledgeGraph,
    rows.foldl (fun g row => { g with relations := g.relations.put row.2 }) g =
      { g with relations := rows.foldl (fun x row => x.put row.2) g.relations } := by
  induction rows with
  | nil => intro g; rfl
  | cons row rows ih => intro g; exact ih _

/-- **What a store loads**: each graph of the first table, with its rows of the other two. -/
theorem get?_loadAll (db : GraphDb) (j : String) : db.loadAll.get? j =
    (db.graphs.get? j).map fun g => { g with
      entities := (db.entities.values.filter fun row => row.1 = j).foldl
        (fun x row => x.put row.2) g.entities
      relations := (db.relations.values.filter fun row => row.1 = j).foldl
        (fun x row => x.put row.2) g.relations } := by
  have hgraphs : (db.graphs.values.foldl Index.put (∅ : Index KnowledgeGraph.graphId)).get? j =
      db.graphs.get? j := by
    have hload := Index.get?_foldl db.graphs (f := id) (fun _ => rfl) Index.get?_put
      (∅ : Index KnowledgeGraph.graphId) j
    simpa using hload
  have hrelations := Rows.get?_foldl_at GraphDb.loadRelation
    (f := fun (g : KnowledgeGraph) (r : Relation) => { g with relations := g.relations.put r })
    (fun _ _ => rfl) (fun mem row h => by unfold GraphDb.loadRelation; rw [h])
    (fun mem row g h => by unfold GraphDb.loadRelation; rw [h]) db.relations.values j
  have hentities := Rows.get?_foldl_at GraphDb.loadEntity
    (f := fun (g : KnowledgeGraph) (x : Entity) => { g with entities := g.entities.put x })
    (fun _ _ => rfl) (fun mem row h => by unfold GraphDb.loadEntity; rw [h])
    (fun mem row g h => by unfold GraphDb.loadEntity; rw [h]) db.entities.values j
  unfold GraphDb.loadAll
  rw [hrelations, hentities, hgraphs, Option.map_map]
  simp only [Function.comp_def, foldl_entities, foldl_relations]

/-! ## The tables and the graphs -/

namespace GraphEngine

/-- The entity of a graph. -/
def entityAt (e : GraphEngine) (j k : String) : Option Entity :=
  (e.getGraph j).bind fun g => g.entities.get? k

/-- The relation of a graph. -/
def relationAt (e : GraphEngine) (j k : String) : Option Relation :=
  (e.getGraph j).bind fun g => g.relations.get? k

theorem entityAt_of_get (hg : e.getGraph i = some g) (k : String) :
    e.entityAt i k = g.entities.get? k := by
  unfold entityAt
  rw [hg]
  rfl

theorem relationAt_of_get (hg : e.getGraph i = some g) (k : String) :
    e.relationAt i k = g.relations.get? k := by
  unfold relationAt
  rw [hg]
  rfl

end GraphEngine

/-- The same entities, and the same relations with the same ends. -/
structure KnowledgeGraph.Same (g g' : KnowledgeGraph) : Prop where
  name : g'.name = g.name
  version : g'.version = g.version
  entities : ∀ k, g'.entities.get? k = g.entities.get? k
  relations : ∀ k, g'.relations.get? k = g.relations.get? k

/-- A store that is opened on the database of the engine gives a new engine the same graphs. -/
def Reopens (e : GraphEngine) : Prop :=
  ∃ s db, e.store = some s ∧ s.db = some db ∧ ∀ j,
    Option.Rel KnowledgeGraph.Same (e.getGraph j) ((init (some (GraphStore.reopen db))).getGraph j)

/-- The store holds the graphs of the engine. -/
structure Mirror (e : GraphEngine) (s : GraphStore) (db : GraphDb) : Prop where
  store : e.store = some s
  database : s.db = some db
  mem : ∀ j, (s.mem.get? j).isSome = (e.getGraph j).isSome
  graphs : ∀ j, db.graphs.get? j = e.getGraph j
  entities : Rows db.entities e.entityAt
  relations : Rows db.relations e.relationAt

/-- **Graphs in the tables** are the graphs of a store that is opened on them. -/
theorem Mirror.reopens {s : GraphStore} {db : GraphDb} (h : Mirror e s db) : Reopens e := by
  refine ⟨s, db, h.store, h.database, fun j => ?_⟩
  show Option.Rel _ (e.getGraph j) (db.loadAll.get? j)
  rw [get?_loadAll, h.graphs]
  cases hg : e.getGraph j with
  | none => exact .none
  | some g =>
    refine .some ⟨rfl, rfl, fun k => ?_, fun k => ?_⟩
    · rw [Rows.get?_load, h.entities.load_eq, entityAt_of_get hg, Option.or_self]
    · rw [Rows.get?_load, h.relations.load_eq, relationAt_of_get hg, Option.or_self]

/-- An entity is in a table, but not in its graph. -/
def Stale (graphId k : String) (e : GraphEngine) : Prop :=
  ∃ s db x g, e.store = some s ∧ s.db = some db ∧ db.entities.get? k = some (graphId, x) ∧
    (db.graphs.get? graphId).isSome ∧ e.getGraph graphId = some g ∧ g.entities.get? k = none

/-- **A stale entity** comes back. -/
theorem Stale.not_reopens {k : String} (h : Stale graphId k e) : ¬Reopens e := by
  obtain ⟨s, db, x, g, hs, hdb, hrow, hgraph, hg, hgone⟩ := h
  rintro ⟨s', db', hs', hdb', hsame⟩
  obtain rfl := Option.some.inj (hs.symm.trans hs')
  obtain rfl := Option.some.inj (hdb.symm.trans hdb')
  obtain ⟨row, hrow'⟩ := Option.isSome_iff_exists.1 hgraph
  have hload : Option.Rel _ (e.getGraph graphId) (db.loadAll.get? graphId) := hsame graphId
  rw [get?_loadAll, hrow', hg] at hload
  cases hload with
  | some hrel =>
    have hk := hrel.entities k
    simp only at hk
    rw [Rows.get?_load, hrow, hgone] at hk
    simp at hk

/-! ## A graph is written -/

/-- **The tables follow** when a graph is written that lost nothing, and whose new entities and
relations are in no other graph. -/
theorem Mirror.put {s : GraphStore} {db : GraphDb} (h : Mirror e s db)
    (hget : e'.getGraph i = some g') (hother : ∀ j, j ≠ i → e'.getGraph j = e.getGraph j)
    (hstore : e'.store = e.store.map (·.put g'))
    (hkeepE : ∀ k, (e.entityAt i k).isSome → (g'.entities.get? k).isSome)
    (hkeepR : ∀ k, (e.relationAt i k).isSome → (g'.relations.get? k).isSome)
    (hnewE : ∀ k, (g'.entities.get? k).isSome →
      (e.entityAt i k).isSome ∨ ∀ j, j ≠ i → e.entityAt j k = none)
    (hnewR : ∀ k, (g'.relations.get? k).isSome →
      (e.relationAt i k).isSome ∨ ∀ j, j ≠ i → e.relationAt j k = none) :
    Mirror e' (s.put g') (db.put g') := by
  have hown : g'.graphId = i := graphId_of_get hget
  refine ⟨?_, ?_, fun j => ?_, fun j => ?_, ?_, ?_⟩
  · rw [hstore, h.store]
    rfl
  · unfold GraphStore.put
    rw [h.database]
    rfl
  · show ((s.mem.put g').get? j).isSome = _
    rw [Index.get?_put, hown]
    by_cases hj : j = i
    · rw [if_pos hj, hj, hget]
    · rw [if_neg hj, hother j hj]
      exact h.mem j
  · show (db.graphs.replace g').get? j = _
    rw [Index.get?_replace, hown]
    by_cases hj : j = i
    · rw [if_pos hj, hj, hget]
    · rw [if_neg hj, hother j hj]
      exact h.graphs j
  · unfold GraphDb.put
    rw [hown]
    refine h.entities.write (entityAt_of_get hget) (fun j hj k => ?_) hkeepE hnewE
    unfold entityAt
    rw [hother j hj]
  · unfold GraphDb.put
    rw [hown]
    refine h.relations.write (relationAt_of_get hget) (fun j hj k => ?_) hkeepR hnewR
    unfold relationAt
    rw [hother j hj]

/-- A graph is deleted. -/
theorem Mirror.delete {s : GraphStore} {db : GraphDb} (h : Mirror e s db)
    (hg : e.getGraph graphId = some g) :
    Mirror (e.deleteGraph graphId).2 (s.deleteGraph graphId).2 (db.deleteGraph graphId) := by
  have hmem : ∃ x, s.mem.get? graphId = some x := by
    rw [← Option.isSome_iff_exists, h.mem, hg]
    rfl
  obtain ⟨x, hx⟩ := hmem
  have hengine : (e.deleteGraph graphId).2.store = e.store.map fun s => (s.deleteGraph graphId).2 := by
    unfold GraphEngine.deleteGraph
    simp only [hg]
  have hstore : (s.deleteGraph graphId).2 =
      { mem := s.mem.erase graphId, db := s.db.map (·.deleteGraph graphId) } := by
    unfold GraphStore.deleteGraph
    rw [hx]
  refine ⟨?_, ?_, fun j => ?_, fun j => ?_, ?_, ?_⟩
  · rw [hengine, h.store]
    rfl
  · rw [hstore, h.database]
    rfl
  · rw [hstore, getGraph_deleteGraph]
    show ((s.mem.erase graphId).get? j).isSome = _
    rw [Index.get?_erase]
    split
    · rfl
    · exact h.mem j
  · rw [getGraph_deleteGraph]
    show (db.graphs.erase graphId).get? j = _
    rw [Index.get?_erase]
    split
    · rfl
    · exact h.graphs j
  · refine h.entities.drop (fun k => ?_) fun j hj k => ?_
    · unfold entityAt
      rw [getGraph_deleteGraph, if_pos rfl]
      rfl
    · unfold entityAt
      rw [getGraph_deleteGraph, if_neg hj]
  · refine h.relations.drop (fun k => ?_) fun j hj k => ?_
    · unfold relationAt
      rw [getGraph_deleteGraph, if_pos rfl]
      rfl
    · unfold relationAt
      rw [getGraph_deleteGraph, if_neg hj]

theorem Stale.put {k : String} (h : Stale graphId k e) (hget : e'.getGraph graphId = some g')
    (hgone : g'.entities.get? k = none)
    (hstore : e'.store = e.store ∨ e'.store = e.store.map (·.put g')) : Stale graphId k e' := by
  have hown : g'.graphId = graphId := graphId_of_get hget
  obtain ⟨s, db, x, g, hs, hdb, hrow, hgraph, -, -⟩ := h
  rcases hstore with hsame | hput
  · exact ⟨s, db, x, g', hsame.trans hs, hdb, hrow, hgraph, hget, hgone⟩
  · refine ⟨s.put g', db.put g', x, g', ?_, ?_, ?_, ?_, hget, hgone⟩
    · rw [hput, hs]
      rfl
    · unfold GraphStore.put
      rw [hdb]
      rfl
    · show (g'.entities.values.foldl (fun t e => t.replace (g'.graphId, e)) db.entities).get? k = _
      rw [Rows.get?_write, hgone]
      exact hrow
    · show ((db.graphs.replace g').get? graphId).isSome
      rw [Index.get?_replace, hown, if_pos rfl]
      rfl

theorem not_mem_keys {k : String} (h : k ∉ g.entities.keys) : g.entities.get? k = none := by
  rw [Index.mem_keys, Option.not_isSome_iff_eq_none] at h
  exact h

/-- **A merge** leaves the row of an entity that it merges away. -/
theorem GraphEngine.Merged.stale {s : GraphStore} {db : GraphDb} {c d : String} {dups : List String}
    (h : Merged e e' g c dups g') (hg : e.getGraph graphId = some g) (hm : Mirror e s db)
    (hd : d ∈ dups) (hne : d ≠ c) (hmem : d ∈ g.entities.keys) : Stale graphId d e' := by
  obtain ⟨x, hx⟩ := Option.isSome_iff_exists.1 (Index.mem_keys.1 hmem)
  have hget := h.getGraph hg
  have hgone : d ∉ g'.entities.keys := fun hk => ((h.quotient.entities d).1 hk).2 ⟨hd, hne⟩
  have hown : g'.graphId = graphId := graphId_of_get hget
  refine ⟨s.put g', db.put g', x, g', ?_, ?_, ?_, ?_, hget, not_mem_keys hgone⟩
  · rw [h.store, hm.store]
    rfl
  · unfold GraphStore.put
    rw [hm.database]
    rfl
  · show (g'.entities.values.foldl (fun t e => t.replace (g'.graphId, e)) db.entities).get? d = _
    rw [Rows.get?_write, not_mem_keys hgone]
    exact (hm.entities d graphId x).2 ((entityAt_of_get hg d).trans hx)
  · show ((db.graphs.replace g').get? graphId).isSome
    rw [Index.get?_replace, hown, if_pos rfl]
    rfl

/-! ## Inferences -/

variable {rule : InferenceRule} {s : Inference}

theorem stale_fire {k : String} (h : Stale graphId k e) (p : String × String) :
    Stale graphId k (fire P graphId rule p e).2 := by
  obtain ⟨-, -, -, g, -, -, -, -, hg, hgone⟩ := id h
  by_cases hcreate : rule.action = "create_relation"
  · obtain ⟨-, ⟨-, hsame⟩ | ⟨rel, hrel⟩⟩ := fire_create (P := P) hcreate hg p
    · rw [hsame]
      exact h
    · exact h.put (hrel.getGraph hg) hgone (Or.inl hrel.store)
  by_cases hmerge : rule.action = "merge_entities"
  · obtain ⟨-, -, hsame⟩ | ⟨-, -, ⟨-, hsame⟩ | ⟨-, -, g', hm⟩⟩ := fire_merge (P := P) hmerge hg p
    · rw [hsame]
      exact h
    · rw [hsame]
      exact h
    · refine h.put (hm.getGraph hg) (not_mem_keys fun hk => ?_) (Or.inr hm.store)
      have hold := Index.mem_keys.1 (hm.later.entities k hk)
      rw [hgone] at hold
      cases hold
  · rw [fire_other hcreate hmerge]
    exact h

theorem stale_fires {k : String} (h : Stale graphId k e) (ps : List (String × String)) :
    Stale graphId k (Loops.forEach (fire P graphId rule) ps e).2 :=
  Loops.forEach_keeps (I := Stale graphId k) (fun p _ hs => stale_fire hs p) ps e h

section

variable {r : Except Exc (List QueryResult) × Inference}

/-- What is stale after the loop of a rule is so after the rule. -/
theorem GraphEngine.Applied.stale {k : String} (h : Applied P graphId rule g s r)
    (hs : Stale graphId k (fireAll P graphId rule g s.engine).2) : Stale graphId k r.2.engine := by
  obtain ⟨-, -, -, g', -, -, -, -, hg', hgone⟩ := id hs
  refine hs.put ((h.getGraph graphId).trans hg') hgone ?_
  rcases h.store with ⟨-, hstore⟩ | ⟨x, hx, hstore⟩
  · exact Or.inl hstore
  · obtain rfl := Option.some.inj (hx.symm.trans hg')
    exact Or.inr hstore

/-- **A rule that merges** leaves a stale entity. -/
theorem GraphEngine.Applied.stale_of_merges {st : GraphStore} {db : GraphDb}
    (hg : s.engine.getGraph graphId = some g) (h : Applied P graphId rule g s r)
    (hm : (⟨g, rule⟩ : Application).Merges) (hmirror : Mirror s.engine st db) :
    ∃ k, Stale graphId k r.2.engine := by
  obtain ⟨hact, hne⟩ := hm
  obtain ⟨p, -, hpne, hmem, e₁, g₁, rest, hmerged, hrest⟩ :=
    forEach_merge_first (P := P) hact hg (fun p hp => mem_keys_of_match hp) hne
  refine ⟨p.2, h.stale ?_⟩
  unfold fireAll
  rw [hrest]
  exact stale_fires (hmerged.stale hg hmirror (List.mem_singleton_self _) hpne hmem) rest

theorem chained_merges {a : Application} (h : a.Chained) : a.Merges := by
  obtain ⟨hact, hchain⟩ := h
  refine ⟨hact, ?_⟩
  by_contra hself
  refine hchain (always_iff_split.2 fun before p after hsplit q hq _ => ?_)
  by_contra hne
  refine hself ⟨q, ?_, hne⟩
  rw [hsplit]
  exact List.mem_append_left _ hq

/-- **A rule that does not merge** is followed by the tables. -/
theorem GraphEngine.Applied.mirror {st : GraphStore} {db : GraphDb} (hg : s.engine.getGraph graphId = some g)
    (h : Applied P graphId rule g s r) (hm : ¬(⟨g, rule⟩ : Application).Merges)
    (hd : Drawn s.engine) (hmirror : Mirror s.engine st db) :
    ∃ st db, Mirror r.2.engine st db := by
  obtain ⟨g', hg', hgrown⟩ := fireAll_grown (P := P) hg hm
  have hget := (h.getGraph graphId).trans hg'
  have hothers := h.onward.others
  rcases h.store with ⟨hnil | hraise, hstore⟩ | ⟨x, hx, hstore⟩
  · -- nothing matched, and nothing was changed
    have hloop : (fireAll P graphId rule g s.engine).2 = s.engine := by
      unfold fireAll
      rw [hnil]
      rfl
    have hsame : ∀ j, r.2.engine.getGraph j = s.engine.getGraph j := fun j => by
      rw [h.getGraph, hloop]
    have hE : r.2.engine.entityAt = s.engine.entityAt := by
      funext j k
      unfold entityAt
      rw [hsame]
    have hR : r.2.engine.relationAt = s.engine.relationAt := by
      funext j k
      unfold relationAt
      rw [hsame]
    refine ⟨st, db, ?_, hmirror.database, fun j => ?_, fun j => ?_, ?_, ?_⟩
    · rw [hstore, hloop]
      exact hmirror.store
    · rw [hsame]
      exact hmirror.mem j
    · rw [hsame]
      exact hmirror.graphs j
    · rw [hE]
      exact hmirror.entities
    · rw [hR]
      exact hmirror.relations
  · -- only a rule that merges raises
    refine absurd ((h.returns.not.2 hraise)) (not_not.2 ?_)
    exact (h.returns_iff hg).2 fun hch => hm (chained_merges hch)
  · obtain rfl := Option.some.inj (hx.symm.trans hg')
    rw [hgrown.store] at hstore
    obtain ⟨y, hy, hlater⟩ := (forEach_fire_onward P graphId rule (matchRule g rule) s.engine).graph g hg
    obtain rfl := Option.some.inj (hy.symm.trans hg')
    refine ⟨_, _, hmirror.put hget hothers hstore (fun k hk => ?_) (fun k hk => ?_)
      (fun k hk => Or.inl ?_) (fun k hk => ?_)⟩
    · rw [entityAt_of_get hg, ← hgrown.entities] at hk
      exact hk
    · rw [relationAt_of_get hg] at hk
      exact Index.mem_keys.1 (hlater.relations k (Index.mem_keys.2 hk))
    · rw [entityAt_of_get hg, ← hgrown.entities]
      exact hk
    · rw [relationAt_of_get hg]
      refine (hgrown.fresh k (Index.mem_keys.2 hk)).imp Index.mem_keys.1 fun hfresh j _ => ?_
      -- the ids of all relations are in use
      cases hj : s.engine.getGraph j with
      | none =>
        unfold relationAt
        rw [hj]
        rfl
      | some gj =>
        rw [relationAt_of_get hj]
        cases hr : gj.relations.get? k with
        | none => rfl
        | some rel => exact absurd ((hd j gj hj).2 k (Index.mem_keys.2 (by rw [hr]; rfl))) hfresh

end

/-- What the record of an inference says about the tables. -/
structure TablesFollow (graphId : String) (s : Inference) : Prop where
  drawn : Drawn s.engine
  mirror : (∀ a ∈ s.applied, ¬a.Merges) → ∃ st db, Mirror s.engine st db
  stale : (∃ a ∈ s.applied, a.Merges) → ∃ k, Stale graphId k s.engine

theorem tablesFollow_applyRule (h : TablesFollow graphId s) (rule : InferenceRule) :
    TablesFollow graphId (applyRule P graphId rule s).2 := by
  cases hg : s.engine.getGraph graphId with
  | none =>
    rw [applyRule_none hg]
    exact h
  | some g =>
    have happ := applyRule_applied (P := P) hg rule
    refine ⟨happ.onward.drawn h.drawn, fun hnone => ?_, fun hsome => ?_⟩
    · rw [happ.applied, List.forall_mem_append, List.forall_mem_singleton] at hnone
      obtain ⟨st, db, hmirror⟩ := h.mirror hnone.1
      exact happ.mirror hg hnone.2 h.drawn hmirror
    · by_cases hbefore : ∃ a ∈ s.applied, a.Merges
      · obtain ⟨k, hk⟩ := h.stale hbefore
        exact ⟨k, happ.stale (stale_fires hk _)⟩
      · have hnone : ∀ a ∈ s.applied, ¬a.Merges := fun a ha hm => hbefore ⟨a, ha, hm⟩
        obtain ⟨st, db, hmirror⟩ := h.mirror hnone
        refine happ.stale_of_merges hg ?_ hmirror
        obtain ⟨a, ha, hm⟩ := hsome
        rw [happ.applied, List.mem_append, List.mem_singleton] at ha
        rcases ha with hold | rfl
        · exact absurd hm (hnone a hold)
        · exact hm

theorem tablesFollow_inference {st : GraphStore} {db : GraphDb} (hd : Drawn e) (hm : Mirror e st db)
    (graphId : String) (rules : List InferenceRule) (maxIterations : ℤ) :
    TablesFollow graphId (e.inference P graphId rules maxIterations).2 := by
  refine inference_keeps (I := TablesFollow graphId) (fun rule s h => tablesFollow_applyRule h rule) e rules
    maxIterations ?_
  refine ⟨hd, fun _ => ⟨st, db, hm⟩, ?_⟩
  rintro ⟨a, ha, -⟩
  cases ha

/-! ## Operations -/

/-- No entity and no relation is in two graphs. -/
def IdsUnique (e : GraphEngine) : Prop :=
  ∀ i j k, i ≠ j → ((e.entityAt i k).isSome → e.entityAt j k = none) ∧
    ((e.relationAt i k).isSome → e.relationAt j k = none)

/-- The operation merges no entity away. -/
def GraphOp.Keeps (P : GraphEnv) (e : GraphEngine) : GraphOp → Prop
  | .mergeEntities graphId canonicalId duplicateIds =>
    ∀ g, e.getGraph graphId = some g → canonicalId ∈ g.entities.keys →
      ∀ d ∈ duplicateIds, d = canonicalId ∨ d ∉ g.entities.keys
  | .runInference graphId rules maxIterations =>
    ∀ a ∈ (e.inference P graphId rules maxIterations).2.applied, ¬a.Merges
  | _ => True

theorem mirror_same {st : GraphStore} {db : GraphDb} (hm : Mirror e st db) (h : e' = e) :
    ∃ st db, Mirror e' st db := by
  rw [h]
  exact ⟨st, db, hm⟩

theorem getGraph_put (hg : e.getGraph graphId = some g) (hgraphs : e'.graphs = e.graphs.put g')
    (hid : g'.graphId = g.graphId) : e'.getGraph graphId = some g' ∧
      ∀ j, j ≠ graphId → e'.getGraph j = e.getGraph j := by
  have hown : g'.graphId = graphId := hid.trans (graphId_of_get hg)
  have hget := getGraph_of_put hgraphs
  rw [hown] at hget
  exact ⟨by rw [hget, if_pos rfl], fun j hj => by rw [hget, if_neg hj]⟩

/-- A graph that lost nothing is written, and no id is in two graphs after it. -/
theorem Mirror.put_unique {st : GraphStore} {db : GraphDb} (hm : Mirror e st db)
    (hids : IdsUnique e') (hg : e.getGraph i = some g) (hget : e'.getGraph i = some g')
    (hother : ∀ j, j ≠ i → e'.getGraph j = e.getGraph j)
    (hstore : e'.store = e.store.map (·.put g'))
    (hE : ∀ k ∈ g.entities.keys, k ∈ g'.entities.keys)
    (hR : ∀ k ∈ g.relations.keys, k ∈ g'.relations.keys) : ∃ st db, Mirror e' st db := by
  refine ⟨_, _, hm.put hget hother hstore (fun k hk => ?_) (fun k hk => ?_)
    (fun k hk => Or.inr fun j hj => ?_) (fun k hk => Or.inr fun j hj => ?_)⟩
  · rw [entityAt_of_get hg] at hk
    exact Index.mem_keys.1 (hE k (Index.mem_keys.2 hk))
  · rw [relationAt_of_get hg] at hk
    exact Index.mem_keys.1 (hR k (Index.mem_keys.2 hk))
  · have hnone := (hids i j k (Ne.symm hj)).1 (by rw [entityAt_of_get hget]; exact hk)
    unfold entityAt at hnone ⊢
    rw [hother j hj] at hnone
    exact hnone
  · have hnone := (hids i j k (Ne.symm hj)).2 (by rw [relationAt_of_get hget]; exact hk)
    unfold relationAt at hnone ⊢
    rw [hother j hj] at hnone
    exact hnone

/-- A new graph is followed by the tables. -/
theorem Mirror.create {st : GraphStore} {db : GraphDb} (hm : Mirror e st db) (hd : Drawn e)
    (name : String) : ∃ st db, Mirror (e.apply P (.createGraph name)) st db := by
  have hnone := createGraph_fresh (P := P) hd
  have hget := (getGraph_createGraph (P := P) (e := e) name (P.uuid.next e.ids)).trans (if_pos rfl)
  refine ⟨_, _, hm.put hget (fun j hj => ?_) rfl (fun k hk => ?_) (fun k hk => ?_)
    (fun k hk => ?_) (fun k hk => ?_)⟩
  · exact (getGraph_createGraph name j).trans (if_neg hj)
  · unfold entityAt at hk
    rw [hnone] at hk
    cases hk
  · unfold relationAt at hk
    rw [hnone] at hk
    cases hk
  · cases hk
  · cases hk

/-- **Merging** leaves the graph as it is, or an entity that is stale. -/
theorem Mirror.merge {st : GraphStore} {db : GraphDb} (hm : Mirror e st db)
    (graphId canonicalId : String) (duplicateIds : List String) :
    (GraphOp.Keeps P e (.mergeEntities graphId canonicalId duplicateIds) ∧
        ∃ st db, Mirror (e.apply P (.mergeEntities graphId canonicalId duplicateIds)) st db) ∨
      (¬GraphOp.Keeps P e (.mergeEntities graphId canonicalId duplicateIds) ∧
        ∃ i k, Stale i k (e.apply P (.mergeEntities graphId canonicalId duplicateIds))) := by
  by_cases hkeeps : GraphOp.Keeps P e (.mergeEntities graphId canonicalId duplicateIds)
  · refine Or.inl ⟨hkeeps, ?_⟩
    obtain hsame | ⟨g, g', hg, ⟨d, hd, hne, hmem⟩, hc, -⟩ :=
      mergeEntities_cases (e := e) graphId canonicalId duplicateIds
    · exact mirror_same hm hsame
    · rcases hkeeps g hg hc d hd with heq | hout
      · exact absurd heq hne
      · exact absurd hmem hout
  · refine Or.inr ⟨hkeeps, ?_⟩
    simp only [GraphOp.Keeps, not_forall, not_or, not_not] at hkeeps
    obtain ⟨g, hg, hc, d, hd, hne, hmem⟩ := hkeeps
    obtain ⟨-, ⟨hall, -⟩ | ⟨-, g', hmerged⟩⟩ := mergeEntities_spec hg hc duplicateIds
    · rcases hall d hd with heq | hout
      · exact absurd heq hne
      · exact absurd hmem hout
    · exact ⟨graphId, d, hmerged.stale hg hm hd hne hmem⟩

/-- **One operation** is followed by the tables, or leaves a stale entity. -/
theorem mirror_apply {st : GraphStore} {db : GraphDb} (hd : Drawn e) (hm : Mirror e st db)
    (op : GraphOp) (hids : IdsUnique (e.apply P op)) :
    (op.Keeps P e ∧ ∃ st db, Mirror (e.apply P op) st db) ∨
      (¬op.Keeps P e ∧ ∃ i k, Stale i k (e.apply P op)) := by
  cases op with
  | createGraph name =>
    obtain ⟨st', db', hm'⟩ := hm.create hd name
    exact Or.inl ⟨trivial, st', db', hm'⟩
  | deleteGraph graphId =>
    refine Or.inl ⟨trivial, ?_⟩
    cases hg : e.getGraph graphId with
    | none =>
      have hsame : e.apply P (.deleteGraph graphId) = e := by
        show (e.deleteGraph graphId).2 = e
        unfold deleteGraph
        simp only [hg]
      rw [hsame]
      exact ⟨st, db, hm⟩
    | some g => exact ⟨_, _, hm.delete hg⟩
  | addEntity graphId entity =>
    refine Or.inl ⟨trivial, ?_⟩
    obtain ⟨-, hsame⟩ | ⟨g, x, hg, -, hgraphs, hstore, -⟩ :=
      addEntity_spec (P := P) (e := e) graphId entity
    · exact mirror_same hm hsame
    · obtain ⟨hget, hother⟩ := getGraph_put hg hgraphs rfl
      refine hm.put_unique hids hg hget hother hstore (fun k hk => ?_) fun k hk => hk
      show k ∈ (g.entities.put x).keys
      rw [Index.mem_keys, Index.get?_put]
      split
      · rfl
      · exact Index.mem_keys.1 hk
  | addRelation graphId relation =>
    refine Or.inl ⟨trivial, ?_⟩
    obtain hsame | ⟨g, hg, hgraphs, hstore, -⟩ := addRelation_spec (e := e) graphId relation
    · exact mirror_same hm hsame
    · obtain ⟨hget, hother⟩ := getGraph_put hg hgraphs rfl
      exact hm.put_unique hids hg hget hother hstore (fun k hk => hk)
        fun k hk => mem_keys_put.2 (Or.inr hk)
  | mergeEntities graphId canonicalId duplicateIds =>
    exact hm.merge graphId canonicalId duplicateIds
  | runInference graphId rules maxIterations =>
    have hfollow := tablesFollow_inference (P := P) hd hm graphId rules maxIterations
    by_cases hmerge : ∃ a ∈ (e.inference P graphId rules maxIterations).2.applied, a.Merges
    · obtain ⟨k, hk⟩ := hfollow.stale hmerge
      refine Or.inr ⟨fun hkeeps => ?_, graphId, k, hk⟩
      obtain ⟨a, ha, hma⟩ := hmerge
      exact hkeeps a ha hma
    · have hnone := fun a ha hma => hmerge ⟨a, ha, hma⟩
      exact Or.inl ⟨hnone, hfollow.mirror hnone⟩

/-- **Graphs survive a restart** throughout a run of operations exactly when no operation merges an
entity away, from an empty database on and as long as no id is in two graphs. -/
theorem reopens_iff (P : GraphEnv) (ops : List GraphOp)
    (hids : Throughout (GraphEngine.apply P) IdsUnique (init (some (GraphStore.reopen {}))) ops) :
    Throughout (GraphEngine.apply P) Reopens (init (some (GraphStore.reopen {}))) ops ↔
      EachStep (GraphEngine.apply P) (fun e op => op.Keeps P e)
        (init (some (GraphStore.reopen {}))) ops := by
  have hnone : ∀ j, (init (some (GraphStore.reopen {}))).getGraph j = none := fun _ => rfl
  have hstart : Mirror (init (some (GraphStore.reopen {}))) (GraphStore.reopen {}) {} := by
    refine ⟨rfl, rfl, fun _ => rfl, fun _ => rfl, fun k j x => ?_, fun k j x => ?_⟩
    · unfold entityAt
      rw [hnone]
      exact iff_of_false nofun nofun
    · unfold relationAt
      rw [hnone]
      exact iff_of_false nofun nofun
  refine throughout_iff_eachStep (A := fun e op => IdsUnique (e.apply P op))
    (I := fun e => Drawn e ∧ ∃ st db, Mirror e st db) (fun e op hunique hi _ hkeeps => ?_)
    (fun e op hunique hi _ => ?_) ops _ hids.eachStep
    ⟨drawn_init _, _, _, hstart⟩ hstart.reopens
  · obtain ⟨hd, st, db, hm⟩ := hi
    refine ⟨drawn_apply hd op, ?_⟩
    rcases mirror_apply hd hm op hunique with ⟨-, hmirror⟩ | ⟨hno, -⟩
    · exact hmirror
    · exact absurd hkeeps hno
  · obtain ⟨hd, st, db, hm⟩ := hi
    rcases mirror_apply hd hm op hunique with ⟨hkeeps, st', db', hmirror⟩ | ⟨hno, i, k, hstale⟩
    · exact iff_of_true hmirror.reopens hkeeps
    · exact iff_of_false hstale.not_reopens hno

theorem same_isSome {o o' : Option KnowledgeGraph} (h : Option.Rel KnowledgeGraph.Same o o')
    (k : String) : (o'.bind fun g => g.entities.get? k).isSome =
      (o.bind fun g => g.entities.get? k).isSome := by
  cases h with
  | none => rfl
  | some h => exact congrArg Option.isSome (h.entities k)

/-- Two entities, one of which is merged into the other. -/
def Chain.merging : List GraphOp :=
  [.createGraph "people", .addEntity "" { entityId := "a", name := "A", type := .person },
    .addEntity "" { entityId := "b", name := "B", type := .person }, .mergeEntities "" "a" ["b"]]

theorem idsUnique_of_keys (h : ∀ k ∈ e.graphs.keys, k = i) : IdsUnique e := by
  have hnone : ∀ j, j ≠ i → e.getGraph j = none := by
    intro j hj
    by_contra hsome
    exact hj (h j (Index.mem_keys.2 (Option.isSome_iff_ne_none.2 hsome)))
  intro j j' k hne
  by_cases hj : j = i
  · have hj' : e.getGraph j' = none := hnone j' fun h => hne (hj.trans h.symm)
    unfold entityAt relationAt
    rw [hj']
    exact ⟨fun _ => rfl, fun _ => rfl⟩
  · unfold entityAt relationAt
    rw [hnone j hj]
    exact ⟨nofun, nofun⟩

theorem merging_unique : Throughout (GraphEngine.apply Chain.env) IdsUnique
    (init (some (GraphStore.reopen {}))) Chain.merging := by
  refine ⟨?_, ?_, ?_, ?_, ?_⟩
  all_goals exact idsUnique_of_keys (i := "") (by decide)

theorem merging_reopens_iff :
    Throughout (GraphEngine.apply Chain.env) Reopens (init (some (GraphStore.reopen {})))
        Chain.merging ↔
      EachStep (GraphEngine.apply Chain.env) (fun e op => op.Keeps Chain.env e)
        (init (some (GraphStore.reopen {}))) Chain.merging :=
  reopens_iff Chain.env Chain.merging merging_unique

/-- The entity `b` comes back. -/
theorem merged_comes_back :
    Throughout (GraphEngine.apply Chain.env) IdsUnique (init (some (GraphStore.reopen {})))
        Chain.merging ∧
      ¬Throughout (GraphEngine.apply Chain.env) Reopens (init (some (GraphStore.reopen {})))
        Chain.merging := by
  refine ⟨merging_unique, ?_⟩
  rintro ⟨-, -, -, -, s, db, hs, hdb, hsame⟩
  obtain rfl := Option.some.inj hs
  obtain rfl := Option.some.inj hdb
  exact absurd (same_isSome (hsame "") "b") (by decide)

end Hermes

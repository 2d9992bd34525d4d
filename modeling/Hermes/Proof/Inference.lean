import Hermes.Proof.Merge

/-!
# What the rules of an inference do

* `fire_create`, `fire_merge`, `fire_other`: what a rule does to one pair of entities.
  It links them, merges the second into the first, raises because the first is gone,
  or does nothing.
* `Later`, `fire_onward`: what no part of an inference takes back.
* `forEach_create`, `forEach_merge_returns`: what a rule does to the pairs it matched.
* `applyRule_applied`: so a rule that was applied is told by the graph before it.
* `inference_keeps`, `inference_returns_iff`: and an inference by its record.
-/

namespace Hermes

open History

namespace GraphEngine

namespace Application

variable (a : Application)

/-- The pairs that the rule matches. -/
def matched : List (String × String) := matchRule a.graph a.rule

/-- The rule merges an entity into another one. -/
def Merges : Prop := a.rule.action = "merge_entities" ∧ ∃ p ∈ a.matched, p.1 ≠ p.2

/-- The rule relates two entities that no `similar_to` links. -/
def Relates : Prop :=
  a.rule.action = "create_relation" ∧ ∃ p ∈ a.matched, ¬linked a.graph p.1 p.2

/-- The rule would merge into an entity that an earlier pair of its match merges away. -/
def Chained : Prop :=
  a.rule.action = "merge_entities" ∧
    ¬Always (fun h p => ∀ q ∈ h, q.2 = p.1 → q.1 = q.2) a.matched

instance : Decidable a.Merges :=
  inferInstanceAs (Decidable (a.rule.action = "merge_entities" ∧ ∃ p ∈ a.matched, p.1 ≠ p.2))

instance : Decidable a.Relates :=
  inferInstanceAs (Decidable (a.rule.action = "create_relation" ∧
    ∃ p ∈ a.matched, ¬linked a.graph p.1 p.2))

instance : Decidable a.Chained :=
  inferInstanceAs (Decidable (a.rule.action = "merge_entities" ∧
    ¬Always (fun h p => ∀ q ∈ h, q.2 = p.1 → q.1 = q.2) a.matched))

end Application

variable {P : GraphEnv} {graphId : String} {rule : InferenceRule} {e e' : GraphEngine}
  {g g' g'' : KnowledgeGraph}

/-! ## Matches -/

/-- A match is a pair of entities of the graph. -/
theorem mem_keys_of_match {p : String × String} (hp : p ∈ matchRule g rule) :
    p.1 ∈ g.entities.keys ∧ p.2 ∈ g.entities.keys := by
  unfold matchRule at hp
  simp only [List.mem_flatMap] at hp
  obtain ⟨src, hsrc, hp⟩ := hp
  have hkey : ∀ {x : Entity}, g.entities.get? x.entityId = some x → x.entityId ∈ g.entities.keys :=
    fun hx => Index.mem_keys.2 (by rw [hx]; rfl)
  split at hp
  · cases hp
  · obtain ⟨rel, -, hrel⟩ := List.mem_filterMap.1 hp
    split at hrel
    · cases hrel
    · split at hrel
      · cases hrel
      · rename_i tgt htgt
        split at hrel
        · cases hrel
        · obtain rfl := Option.some.inj hrel
          have hown : tgt.entityId = rel.targetId := Index.key_of_get? htgt
          exact ⟨hkey (Index.mem_values.1 hsrc), hkey (by rw [hown]; exact htgt)⟩

/-! ## One pair -/

/-- A rule relates the two entities of a pair. -/
structure Related (e e' : GraphEngine) (g : KnowledgeGraph) (p : String × String)
    (rel : Relation) : Prop where
  sourceId : rel.sourceId = p.1
  targetId : rel.targetId = p.2
  linked : ¬linked g p.1 p.2
  fresh : rel.relationId ∉ e.ids
  graphs : e'.graphs = e.graphs.put { g with relations := g.relations.put rel }
  store : e'.store = e.store
  ids : e'.ids = rel.relationId :: e.ids

/-- **A rule and one pair** of entities: the rule relates them by a `similar_to`. -/
theorem fire_similar (hact : rule.action = "create_relation") (hg : e.getGraph graphId = some g)
    (p : String × String) : (∃ xs, (fire P graphId rule p e).1 = .ok xs) ∧
      ((linked g p.1 p.2 ∧ (fire P graphId rule p e).2 = e) ∨
        ∃ rel, rel.type = .similarTo ∧ Related e (fire P graphId rule p e).2 g p rel) := by
  unfold fire
  rw [if_pos hact]
  simp only [hg]
  by_cases hl : linked g p.1 p.2 = true
  · rw [if_pos hl]
    exact ⟨⟨[], rfl⟩, Or.inl ⟨hl, rfl⟩⟩
  · rw [if_neg hl]
    refine ⟨⟨_, rfl⟩, Or.inr ⟨_, ?_, rfl, rfl, hl, P.uuid.not_mem e.ids, rfl, rfl, rfl⟩⟩
    rfl

theorem fire_create (hact : rule.action = "create_relation") (hg : e.getGraph graphId = some g)
    (p : String × String) : (∃ xs, (fire P graphId rule p e).1 = .ok xs) ∧
      ((linked g p.1 p.2 ∧ (fire P graphId rule p e).2 = e) ∨
        ∃ rel, Related e (fire P graphId rule p e).2 g p rel) := by
  obtain ⟨hok, hsame | ⟨rel, -, hrel⟩⟩ := fire_similar (P := P) hact hg p
  · exact ⟨hok, Or.inl hsame⟩
  · exact ⟨hok, Or.inr ⟨rel, hrel⟩⟩

theorem fire_merge (hact : rule.action = "merge_entities") (hg : e.getGraph graphId = some g)
    (p : String × String) :
    (p.1 ∉ g.entities.keys ∧ (∀ xs, (fire P graphId rule p e).1 ≠ .ok xs) ∧
        (fire P graphId rule p e).2 = e) ∨
      (p.1 ∈ g.entities.keys ∧ (∃ xs, (fire P graphId rule p e).1 = .ok xs) ∧
        (((p.2 = p.1 ∨ p.2 ∉ g.entities.keys) ∧ (fire P graphId rule p e).2 = e) ∨
          (p.2 ≠ p.1 ∧ p.2 ∈ g.entities.keys ∧
            ∃ g', Merged e (fire P graphId rule p e).2 g p.1 [p.2] g'))) := by
  have hne : rule.action ≠ "create_relation" := by
    rw [hact]
    decide
  by_cases hc : p.1 ∈ g.entities.keys
  · obtain ⟨⟨x, hx, -⟩, hcases⟩ := mergeEntities_spec hg hc [p.2]
    have hfire : fire P graphId rule p e =
        (.ok [x.entityId], (e.mergeEntities graphId p.1 [p.2]).2) := by
      unfold fire
      rw [if_neg hne, if_pos hact]
      generalize e.mergeEntities graphId p.1 [p.2] = r at hx
      obtain ⟨r, e'⟩ := r
      obtain rfl : r = .ok x := hx
      rfl
    rw [hfire]
    refine Or.inr ⟨hc, ⟨_, rfl⟩, ?_⟩
    rcases hcases with ⟨hall, hsame, -⟩ | ⟨⟨d, hd, hdc, hmem⟩, hm⟩
    · exact Or.inl ⟨hall p.2 (List.mem_singleton_self _), hsame⟩
    · obtain rfl := List.mem_singleton.1 hd
      exact Or.inr ⟨hdc, hmem, hm⟩
  · have hfire : fire P graphId rule p e = (.error (missing p.1), e) := by
      unfold fire
      rw [if_neg hne, if_pos hact, mergeEntities_missing hg hc]
    rw [hfire]
    refine Or.inl ⟨hc, fun xs h => ?_, rfl⟩
    cases h

theorem fire_other (hc : rule.action ≠ "create_relation") (hm : rule.action ≠ "merge_entities")
    (p : String × String) (e : GraphEngine) : fire P graphId rule p e = (.ok [], e) := by
  unfold fire
  rw [if_neg hc, if_neg hm]

/-! ## What is not taken back -/

/-- The ids of the relations of all graphs are in use, and so are those of the graphs. -/
def Drawn (e : GraphEngine) : Prop :=
  ∀ j g, e.getGraph j = some g → j ∈ e.ids ∧ ∀ k ∈ g.relations.keys, k ∈ e.ids

theorem drawn_put (hd : Drawn e) (hgraphs : e'.graphs = e.graphs.put g')
    (hids : ∀ k ∈ e.ids, k ∈ e'.ids) (hown : g'.graphId ∈ e'.ids)
    (hrel : ∀ k ∈ g'.relations.keys, k ∈ e'.ids) : Drawn e' := by
  intro j x hx
  rw [getGraph_of_put hgraphs] at hx
  split at hx
  · rename_i hj
    obtain rfl := Option.some.inj hx
    exact ⟨hj ▸ hown, hrel⟩
  · obtain ⟨hj, hkeys⟩ := hd j x hx
    exact ⟨hids j hj, fun k hk => hids k (hkeys k hk)⟩

/-- The graph `g'` comes after `g` in an inference. -/
structure Later (g g' : KnowledgeGraph) : Prop where
  name : g'.name = g.name
  entities : ∀ k ∈ g'.entities.keys, k ∈ g.entities.keys
  relations : ∀ k ∈ g.relations.keys, k ∈ g'.relations.keys
  version : g.version ≤ g'.version
  /-- The entities do not change without the version. -/
  same : g'.version = g.version → g'.entities = g.entities

theorem Later.refl (g : KnowledgeGraph) : Later g g :=
  ⟨rfl, fun _ h => h, fun _ h => h, le_rfl, fun _ => rfl⟩

theorem Later.trans (h : Later g g') (h' : Later g' g'') : Later g g'' := by
  have hle := h.version
  have hle' := h'.version
  refine ⟨h'.name.trans h.name, fun k hk => h.entities k (h'.entities k hk),
    fun k hk => h'.relations k (h.relations k hk), by omega, fun hv => ?_⟩
  have hfirst : g'.version = g.version := by omega
  exact (h'.same (by omega)).trans (h.same hfirst)

/-- The engine `e'` comes after `e` in an inference on a graph. -/
structure Onward (graphId : String) (e e' : GraphEngine) : Prop where
  others : ∀ j, j ≠ graphId → e'.getGraph j = e.getGraph j
  graph : ∀ g, e.getGraph graphId = some g → ∃ g', e'.getGraph graphId = some g' ∧ Later g g'
  drawn : Drawn e → Drawn e'

theorem Onward.refl (graphId : String) (e : GraphEngine) : Onward graphId e e :=
  ⟨fun _ _ => rfl, fun g hg => ⟨g, hg, Later.refl g⟩, id⟩

theorem Onward.trans {e'' : GraphEngine} (h : Onward graphId e e') (h' : Onward graphId e' e'') :
    Onward graphId e e'' := by
  refine ⟨fun j hj => (h'.others j hj).trans (h.others j hj), fun g hg => ?_,
    fun hd => h'.drawn (h.drawn hd)⟩
  obtain ⟨g', hg', hlater⟩ := h.graph g hg
  obtain ⟨g'', hg'', hlater'⟩ := h'.graph g' hg'
  exact ⟨g'', hg'', hlater.trans hlater'⟩

/-- A later graph is written. -/
theorem onward_put (hg : e.getGraph graphId = some g) (hid : g'.graphId = g.graphId)
    (hgraphs : e'.graphs = e.graphs.put g') (hlater : Later g g')
    (hids : ∀ k ∈ e.ids, k ∈ e'.ids)
    (hrel : ∀ k ∈ g'.relations.keys, k ∈ g.relations.keys ∨ k ∈ e'.ids) :
    Onward graphId e e' := by
  have hown : g'.graphId = graphId := hid.trans (graphId_of_get hg)
  have hget := getGraph_of_put hgraphs
  rw [hown] at hget
  refine ⟨fun j hj => by rw [hget, if_neg hj], fun g₀ hg₀ => ?_, fun hd => ?_⟩
  · obtain rfl := Option.some.inj (hg.symm.trans hg₀)
    exact ⟨g', by rw [hget, if_pos rfl], hlater⟩
  · obtain ⟨hj, hkeys⟩ := hd graphId g hg
    refine drawn_put hd hgraphs hids (hown ▸ hids graphId hj) fun k hk => ?_
    rcases hrel k hk with hold | hnew
    · exact hids k (hkeys k hold)
    · exact hnew

theorem mem_keys_put {g : KnowledgeGraph} {rel : Relation} {k : String} :
    k ∈ (g.relations.put rel).keys ↔ k = rel.relationId ∨ k ∈ g.relations.keys := by
  rw [Index.mem_keys, Index.mem_keys, Index.get?_put]
  by_cases hk : k = rel.relationId
  · simp [hk]
  · simp [hk]

theorem Related.onward {p : String × String} {rel : Relation} (hg : e.getGraph graphId = some g)
    (h : Related e e' g p rel) : Onward graphId e e' := by
  refine onward_put hg ?_ h.graphs ?_ (fun k hk => ?_) (fun k hk => ?_)
  · rfl
  · exact ⟨rfl, fun _ hk => hk, fun _ hk => mem_keys_put.2 (Or.inr hk), le_rfl, fun _ => rfl⟩
  · rw [h.ids]
    exact List.mem_cons_of_mem _ hk
  · rcases mem_keys_put.1 hk with rfl | hold
    · right
      rw [h.ids]
      exact List.mem_cons_self
    · exact Or.inl hold

theorem Merged.later {c : String} {dups : List String} (h : Merged e e' g c dups g') :
    Later g g' := by
  have hv := h.version
  refine ⟨h.name, fun k hk => ((h.quotient.entities k).1 hk).1, fun k hk => ?_, by omega,
    fun hsame => by omega⟩
  rw [h.quotient.relationIds]
  exact hk

theorem Merged.onward {c : String} {dups : List String} (hg : e.getGraph graphId = some g)
    (h : Merged e e' g c dups g') : Onward graphId e e' := by
  refine onward_put hg h.graphId h.graphs h.later (fun k hk => ?_) (fun k hk => Or.inl ?_)
  · rw [h.ids]
    exact hk
  · rw [← h.quotient.relationIds]
    exact hk

theorem Merged.getGraph {c : String} {dups : List String} (hg : e.getGraph graphId = some g)
    (h : Merged e e' g c dups g') : e'.getGraph graphId = some g' := by
  have hown : g'.graphId = graphId := h.graphId.trans (graphId_of_get hg)
  rw [getGraph_of_put h.graphs, if_pos hown.symm]

theorem Related.getGraph {p : String × String} {rel : Relation} (hg : e.getGraph graphId = some g)
    (h : Related e e' g p rel) :
    e'.getGraph graphId = some { g with relations := g.relations.put rel } := by
  have hown : g.graphId = graphId := graphId_of_get hg
  rw [getGraph_of_put h.graphs, if_pos hown.symm]

/-- **One pair** never takes the inference back. -/
theorem fire_onward (p : String × String) (e : GraphEngine) :
    Onward graphId e (fire P graphId rule p e).2 := by
  cases hg : e.getGraph graphId with
  | none =>
    have hsame : (fire P graphId rule p e).2 = e := by
      unfold fire mergeEntities
      simp only [hg]
      split
      · rfl
      · split
        · rfl
        · rfl
    rw [hsame]
    exact Onward.refl graphId e
  | some g =>
    by_cases hcreate : rule.action = "create_relation"
    · obtain ⟨-, ⟨-, hsame⟩ | ⟨rel, hrel⟩⟩ := fire_create (P := P) hcreate hg p
      · rw [hsame]
        exact Onward.refl graphId e
      · exact hrel.onward hg
    by_cases hmerge : rule.action = "merge_entities"
    · obtain ⟨-, -, hsame⟩ | ⟨-, -, ⟨-, hsame⟩ | ⟨-, -, g', hm⟩⟩ :=
        fire_merge (P := P) hmerge hg p
      · rw [hsame]
        exact Onward.refl graphId e
      · rw [hsame]
        exact Onward.refl graphId e
      · exact hm.onward hg
    · rw [fire_other hcreate hmerge]
      exact Onward.refl graphId e

theorem forEach_fire_onward (P : GraphEnv) (graphId : String) (rule : InferenceRule)
    (ps : List (String × String)) (e : GraphEngine) :
    Onward graphId e (Loops.forEach (fire P graphId rule) ps e).2 :=
  Loops.forEach_keeps (I := Onward graphId e) (fun p _ h => h.trans (fire_onward p _)) ps e
    (Onward.refl graphId e)

/-! ## All pairs of a match -/

/-- The graph after a rule has related entities of `g`. -/
structure Grown (e e' : GraphEngine) (g g' : KnowledgeGraph) : Prop where
  entities : g'.entities = g.entities
  version : g'.version = g.version
  sound : g.Sound → g'.Sound
  /-- The new relations have ids that were not in use. -/
  fresh : ∀ k ∈ g'.relations.keys, k ∈ g.relations.keys ∨ k ∉ e.ids
  ids : ∀ k ∈ e.ids, k ∈ e'.ids
  store : e'.store = e.store

/-- **`create_relation`** returns and leaves the entities as they are. -/
theorem forEach_create (hact : rule.action = "create_relation") (hg : e.getGraph graphId = some g)
    {ps : List (String × String)} (hps : ∀ p ∈ ps, p.1 ∈ g.entities.keys ∧ p.2 ∈ g.entities.keys) :
    (∃ xs, (Loops.forEach (fire P graphId rule) ps e).1 = .ok xs) ∧
      ∃ g', (Loops.forEach (fire P graphId rule) ps e).2.getGraph graphId = some g' ∧
        Grown e (Loops.forEach (fire P graphId rule) ps e).2 g g' := by
  refine Loops.forEach_returns
    (I := fun s => ∃ g', s.getGraph graphId = some g' ∧ Grown e s g g') (fun p hp s h => ?_) e
    ⟨g, hg, rfl, rfl, id, fun _ hk => Or.inl hk, fun _ hk => hk, rfl⟩
  obtain ⟨g', hg', hgrown⟩ := h
  obtain ⟨hok, ⟨-, hsame⟩ | ⟨rel, hrel⟩⟩ := fire_create (P := P) hact hg' p
  · rw [hsame]
    exact ⟨hok, g', hg', hgrown⟩
  · refine ⟨hok, _, hrel.getGraph hg', hgrown.entities, hgrown.version, fun hs k r hr => ?_,
      fun k hk => ?_, fun k hk => ?_, hrel.store.trans hgrown.store⟩
    · replace hr : (g'.relations.put rel).get? k = some r := hr
      rw [Index.get?_put] at hr
      show r.sourceId ∈ g'.entities.keys ∧ r.targetId ∈ g'.entities.keys
      split at hr
      · obtain rfl := Option.some.inj hr
        rw [hgrown.entities, hrel.sourceId, hrel.targetId]
        exact hps p hp
      · exact hgrown.sound hs k r hr
    · rcases mem_keys_put.1 hk with rfl | hold
      · exact Or.inr fun hk => hrel.fresh (hgrown.ids _ hk)
      · exact hgrown.fresh k hold
    · rw [hrel.ids]
      exact List.mem_cons_of_mem _ (hgrown.ids k hk)

theorem forEach_create_linked (hact : rule.action = "create_relation")
    (hg : e.getGraph graphId = some g) {ps : List (String × String)}
    (hps : ∀ p ∈ ps, linked g p.1 p.2) : (Loops.forEach (fire P graphId rule) ps e).2 = e := by
  refine (Loops.forEach_returns (I := fun s => s = e) (fun p hp s h => ?_) e rfl).2
  subst h
  obtain ⟨hok, ⟨-, hsame⟩ | ⟨rel, hrel⟩⟩ := fire_create (P := P) hact hg p
  · exact ⟨hok, hsame⟩
  · exact absurd (hps p hp) hrel.linked

/-- The relation of two entities that nothing links stays. -/
theorem forEach_create_relates (hact : rule.action = "create_relation")
    (hg : e.getGraph graphId = some g) {ps : List (String × String)}
    (hps : ∃ p ∈ ps, ¬linked g p.1 p.2) (hd : Drawn e) :
    ∃ g', (Loops.forEach (fire P graphId rule) ps e).2.getGraph graphId = some g' ∧
      ∃ k ∈ g'.relations.keys, k ∉ g.relations.keys := by
  have hidle : ∀ p ∈ ps, linked g p.1 p.2 = true →
      (∃ xs, (fire P graphId rule p e).1 = .ok xs) ∧ (fire P graphId rule p e).2 = e := by
    intro p _ hl
    obtain ⟨hok, ⟨-, hsame⟩ | ⟨rel, hrel⟩⟩ := fire_create (P := P) hact hg p
    · exact ⟨hok, hsame⟩
    · exact absurd hl hrel.linked
  obtain ⟨p, -, hlinked, rest, hrest⟩ := Loops.forEach_first hidle hps
  obtain ⟨hok, ⟨hl, -⟩ | ⟨rel, hrel⟩⟩ := fire_create (P := P) hact hg p
  · exact absurd hl hlinked
  · rw [hrest hok]
    obtain ⟨g', hg', hlater⟩ :=
      (forEach_fire_onward P graphId rule rest _).graph _ (hrel.getGraph hg)
    refine ⟨g', hg', rel.relationId, hlater.relations _ (mem_keys_put.2 (Or.inl rfl)), ?_⟩
    exact fun hk => hrel.fresh ((hd graphId g hg).2 _ hk)

theorem forEach_merge_self (hact : rule.action = "merge_entities")
    (hg : e.getGraph graphId = some g) {ps : List (String × String)}
    (hps : ∀ p ∈ ps, p.1 ∈ g.entities.keys ∧ p.1 = p.2) :
    (Loops.forEach (fire P graphId rule) ps e).2 = e := by
  refine (Loops.forEach_returns (I := fun s => s = e) (fun p hp s h => ?_) e rfl).2
  subst h
  obtain ⟨hmem, hself⟩ := hps p hp
  obtain ⟨hout, -⟩ | ⟨-, hok, ⟨-, hsame⟩ | ⟨hne, -⟩⟩ := fire_merge (P := P) hact hg p
  · exact absurd hmem hout
  · exact ⟨hok, hsame⟩
  · exact absurd hself.symm hne

/-- **The first pair that is merged**, and what comes after it. -/
theorem forEach_merge_first (hact : rule.action = "merge_entities")
    (hg : e.getGraph graphId = some g) {ps : List (String × String)}
    (hps : ∀ p ∈ ps, p.1 ∈ g.entities.keys ∧ p.2 ∈ g.entities.keys)
    (hne : ∃ p ∈ ps, p.1 ≠ p.2) : ∃ p ∈ ps, p.2 ≠ p.1 ∧ p.2 ∈ g.entities.keys ∧
      ∃ e₁ g₁ rest, Merged e e₁ g p.1 [p.2] g₁ ∧
        (Loops.forEach (fire P graphId rule) ps e).2 =
          (Loops.forEach (fire P graphId rule) rest e₁).2 := by
  have hidle : ∀ p ∈ ps, p.1 = p.2 →
      (∃ xs, (fire P graphId rule p e).1 = .ok xs) ∧ (fire P graphId rule p e).2 = e := by
    intro p hp hself
    obtain ⟨hin, -⟩ := hps p hp
    obtain ⟨hout, -⟩ | ⟨-, hok, ⟨-, hsame⟩ | ⟨hpne, -⟩⟩ := fire_merge (P := P) hact hg p
    · exact absurd hin hout
    · exact ⟨hok, hsame⟩
    · exact absurd hself.symm hpne
  obtain ⟨p, hp, hself, rest, hrest⟩ := Loops.forEach_first hidle hne
  obtain ⟨hin, hin'⟩ := hps p hp
  obtain ⟨hout, -⟩ | ⟨-, hok, ⟨hskip, -⟩ | ⟨hpne, -, g₁, hm⟩⟩ := fire_merge (P := P) hact hg p
  · exact absurd hin hout
  · rcases hskip with heq | hout
    · exact absurd heq.symm hself
    · exact absurd hin' hout
  · exact ⟨p, hp, hpne, hin', _, g₁, rest, hm, hrest hok⟩

theorem forEach_merge_sound (hact : rule.action = "merge_entities")
    (hg : e.getGraph graphId = some g) (hs : g.Sound) (ps : List (String × String)) :
    ∃ g', (Loops.forEach (fire P graphId rule) ps e).2.getGraph graphId = some g' ∧ g'.Sound := by
  refine Loops.forEach_keeps (I := fun s => ∃ g', s.getGraph graphId = some g' ∧ g'.Sound)
    (fun p s h => ?_) ps e ⟨g, hg, hs⟩
  obtain ⟨g', hg', hs'⟩ := h
  obtain ⟨-, -, hsame⟩ | ⟨hc, -, ⟨-, hsame⟩ | ⟨-, -, g₁, hm⟩⟩ := fire_merge (P := P) hact hg' p
  · rw [hsame]
    exact ⟨g', hg', hs'⟩
  · rw [hsame]
    exact ⟨g', hg', hs'⟩
  · exact ⟨g₁, hm.getGraph hg', hm.quotient.sound hc hs'⟩

/-- The entities that are left when the pairs of `done` are merged. -/
def Left (g g' : KnowledgeGraph) (done : List (String × String)) : Prop :=
  ∀ x, x ∈ g'.entities.keys ↔ x ∈ g.entities.keys ∧ ∀ q ∈ done, q.2 = x → q.1 = q.2

theorem left_snoc {done : List (String × String)} {p : String × String} (h : Left g g' done)
    (h' : ∀ x, x ∈ g''.entities.keys ↔ x ∈ g'.entities.keys ∧ (p.2 = x → p.1 = p.2)) :
    Left g g'' (done ++ [p]) := by
  intro x
  rw [h', h x, and_assoc, List.forall_mem_append, List.forall_mem_singleton]

/-- **`merge_entities`** returns unless it comes to a pair whose first entity was merged away. -/
theorem forEach_merge_returns (hact : rule.action = "merge_entities") (ps : List (String × String)) :
    ∀ (done : List (String × String)) (e : GraphEngine) (g' : KnowledgeGraph),
      (∀ p ∈ ps, p.1 ∈ g.entities.keys) → e.getGraph graphId = some g' → Left g g' done →
      Always (fun h p => ∀ q ∈ h, q.2 = p.1 → q.1 = q.2) done →
      ((∃ xs, (Loops.forEach (fire P graphId rule) ps e).1 = .ok xs) ↔
        Always (fun h p => ∀ q ∈ h, q.2 = p.1 → q.1 = q.2) (done ++ ps)) := by
  induction ps with
  | nil =>
    intro done e g' _ _ _ hdone
    rw [List.append_nil]
    exact iff_of_true ⟨[], rfl⟩ hdone
  | cons p ps ih =>
    intro done e g' hps hg hleft hdone
    have hsplit : done ++ p :: ps = (done ++ [p]) ++ ps := by
      rw [List.append_assoc, List.singleton_append]
    have hsrc := hps p List.mem_cons_self
    rw [Loops.forEach_cons, Loops.andThen_returns_iff, hsplit]
    obtain ⟨hout, hraise, -⟩ | ⟨hin, hok, hcases⟩ := fire_merge (P := P) hact hg p
    · -- the first entity of the pair is gone
      refine iff_of_false (fun h => ?_) fun h => hout ?_
      · obtain ⟨⟨xs, hxs⟩, -⟩ := h
        exact hraise xs hxs
      · exact (hleft p.1).2 ⟨hsrc, (always_snoc.1 (always_append.1 h).1).2⟩
    · have hsnoc := always_snoc.2 ⟨hdone, ((hleft p.1).1 hin).2⟩
      have hrest := fun q hq => hps q (List.mem_cons_of_mem p hq)
      rw [and_iff_right hok]
      obtain ⟨hskip, hsame⟩ | ⟨hne, hin', g₁, hm⟩ := hcases
      · rw [hsame]
        refine ih _ _ g' hrest hg (left_snoc hleft fun x => ?_) hsnoc
        refine (and_iff_left_of_imp fun hx hpx => ?_).symm
        rcases hskip with heq | hgone
        · exact heq.symm
        · exact absurd (hpx ▸ hx) hgone
      · refine ih _ _ g₁ hrest (hm.getGraph hg) (left_snoc hleft fun x => ?_) hsnoc
        rw [hm.quotient.entities, List.mem_singleton]
        refine and_congr_right fun _ => ⟨fun h hpx => ?_, fun h hx => ?_⟩
        · by_contra hself
          exact h ⟨hpx.symm, fun hx => hself (hx.symm.trans hpx.symm)⟩
        · exact hne (h hx.1.symm).symm

/-! ## A rule that is applied -/

variable {s : Inference}

/-- The loop of a rule over the pairs that it matched. -/
def fireAll (P : GraphEnv) (graphId : String) (rule : InferenceRule) (g : KnowledgeGraph)
    (e : GraphEngine) : Except Exc (List String) × GraphEngine :=
  Loops.forEach (fire P graphId rule) (matchRule g rule) e

theorem fireAll_idle (hc : rule.action ≠ "create_relation") (hm : rule.action ≠ "merge_entities")
    (g : KnowledgeGraph) (e : GraphEngine) :
    (∃ xs, (fireAll P graphId rule g e).1 = .ok xs) ∧ (fireAll P graphId rule g e).2 = e := by
  refine Loops.forEach_returns (I := fun s => s = e) (fun p _ s h => ?_) e rfl
  rw [fire_other hc hm]
  exact ⟨⟨[], rfl⟩, h⟩

/-- What a rule that was applied adds to its loop. -/
structure Applied (P : GraphEnv) (graphId : String) (rule : InferenceRule) (g : KnowledgeGraph)
    (s : Inference) (r : Except Exc (List QueryResult) × Inference) : Prop where
  applied : r.2.applied = s.applied ++ [⟨g, rule⟩]
  returns : (∃ xs, r.1 = .ok xs) ↔ ∃ xs, (fireAll P graphId rule g s.engine).1 = .ok xs
  graphs : r.2.engine.graphs = (fireAll P graphId rule g s.engine).2.graphs
  ids : ∀ k ∈ (fireAll P graphId rule g s.engine).2.ids, k ∈ r.2.engine.ids
  /-- The graph is written to the store when the loop returns and had pairs. -/
  store : (matchRule g rule = [] ∨ ¬∃ xs, (fireAll P graphId rule g s.engine).1 = .ok xs) ∧
      r.2.engine.store = (fireAll P graphId rule g s.engine).2.store ∨
    ∃ g', (fireAll P graphId rule g s.engine).2.getGraph graphId = some g' ∧
      r.2.engine.store = (fireAll P graphId rule g s.engine).2.store.map (·.put g')

theorem applyRule_applied (hg : s.engine.getGraph graphId = some g) (rule : InferenceRule) :
    Applied P graphId rule g s (applyRule P graphId rule s) := by
  obtain ⟨g', hg', -⟩ :=
    (forEach_fire_onward P graphId rule (matchRule g rule) s.engine).graph g hg
  unfold applyRule
  simp only [hg]
  by_cases hnil : matchRule g rule = []
  · have hloop : fireAll P graphId rule g s.engine = (.ok [], s.engine) := by
      unfold fireAll
      rw [hnil]
      rfl
    rw [if_pos hnil]
    refine ⟨rfl, ?_, ?_, ?_, Or.inl ⟨Or.inl hnil, ?_⟩⟩
    all_goals rw [hloop]
    · exact iff_of_true ⟨[], rfl⟩ ⟨[], rfl⟩
    · exact fun _ hk => hk
  · rw [if_neg hnil]
    generalize hloop : Loops.forEach (fire P graphId rule) (matchRule g rule) s.engine = r at hg'
    obtain ⟨r, e'⟩ := r
    cases r with
    | error x =>
      have hraise : ¬∃ xs, (fireAll P graphId rule g s.engine).1 = .ok xs := by
        unfold fireAll
        rw [hloop]
        rintro ⟨xs, hxs⟩
        cases hxs
      refine ⟨rfl, iff_of_false ?_ hraise, ?_, ?_, Or.inl ⟨Or.inr hraise, ?_⟩⟩
      · rintro ⟨xs, hxs⟩
        cases hxs
      all_goals unfold fireAll; rw [hloop]
      exact fun _ hk => hk
    | ok inferred =>
      have hget : e'.getGraph graphId = some g' := hg'
      simp only [hget]
      refine ⟨rfl, iff_of_true ⟨_, rfl⟩ ?_, ?_, ?_, Or.inr ⟨g', ?_, ?_⟩⟩
      all_goals unfold fireAll; rw [hloop]
      · exact ⟨inferred, rfl⟩
      · rfl
      · exact fun k hk => List.mem_cons_of_mem _ (List.mem_cons_of_mem _ hk)
      · exact hget
      · rfl

theorem applyRule_none (hg : s.engine.getGraph graphId = none) (rule : InferenceRule) :
    applyRule P graphId rule s = (.ok [], s) := by
  unfold applyRule
  simp only [hg]

section

variable {r : Except Exc (List QueryResult) × Inference}

theorem Applied.getGraph (h : Applied P graphId rule g s r) (j : String) :
    r.2.engine.getGraph j = (fireAll P graphId rule g s.engine).2.getGraph j := by
  unfold GraphEngine.getGraph
  rw [h.graphs]

theorem Applied.onward (h : Applied P graphId rule g s r) :
    Onward graphId s.engine r.2.engine := by
  have hloop := forEach_fire_onward P graphId rule (matchRule g rule) s.engine
  refine ⟨fun j hj => (h.getGraph j).trans (hloop.others j hj), fun g₀ hg₀ => ?_, fun hd j x hx => ?_⟩
  · rw [h.getGraph]
    exact hloop.graph g₀ hg₀
  · rw [h.getGraph] at hx
    obtain ⟨hj, hkeys⟩ := hloop.drawn hd j x hx
    exact ⟨h.ids j hj, fun k hk => h.ids k (hkeys k hk)⟩

/-- **A rule raises** exactly when it is chained. -/
theorem Applied.returns_iff (hg : s.engine.getGraph graphId = some g)
    (h : Applied P graphId rule g s r) :
    (∃ xs, r.1 = .ok xs) ↔ ¬(⟨g, rule⟩ : Application).Chained := by
  rw [h.returns]
  unfold Application.Chained
  by_cases hmerge : rule.action = "merge_entities"
  · rw [not_and_not_right, imp_iff_right hmerge]
    have hleft : Left g g [] := fun x => (and_iff_left fun _ hq => absurd hq List.not_mem_nil).symm
    exact forEach_merge_returns hmerge (matchRule g rule) [] s.engine g
      (fun p hp => (mem_keys_of_match hp).1) hg hleft always_nil
  · refine iff_of_true ?_ fun hch => hmerge hch.1
    by_cases hcreate : rule.action = "create_relation"
    · exact (forEach_create hcreate hg fun p hp => mem_keys_of_match hp).1
    · exact (fireAll_idle hcreate hmerge g s.engine).1

/-- **Referential integrity** survives a rule, also when it raises. -/
theorem Applied.sound (hg : s.engine.getGraph graphId = some g) (hs : g.Sound)
    (h : Applied P graphId rule g s r) : ∃ g', r.2.engine.getGraph graphId = some g' ∧ g'.Sound := by
  rw [h.getGraph]
  by_cases hcreate : rule.action = "create_relation"
  · obtain ⟨-, g', hg', hgrown⟩ :=
      forEach_create (P := P) hcreate hg fun p hp => mem_keys_of_match hp
    exact ⟨g', hg', hgrown.sound hs⟩
  by_cases hmerge : rule.action = "merge_entities"
  · exact forEach_merge_sound hmerge hg hs _
  · rw [(fireAll_idle hcreate hmerge g s.engine).2]
    exact ⟨g, hg, hs⟩

/-- A rule that merges moves the version. -/
theorem Applied.version_lt (hg : s.engine.getGraph graphId = some g)
    (h : Applied P graphId rule g s r) (hm : (⟨g, rule⟩ : Application).Merges) :
    ∃ g', r.2.engine.getGraph graphId = some g' ∧ g.version < g'.version := by
  obtain ⟨hact, hne⟩ := hm
  obtain ⟨p, -, -, -, e₁, g₁, rest, hmerged, hrest⟩ :=
    forEach_merge_first (P := P) hact hg (fun p hp => mem_keys_of_match hp) hne
  obtain ⟨g', hg', hlater⟩ :=
    (forEach_fire_onward P graphId rule rest e₁).graph g₁ (hmerged.getGraph hg)
  rw [h.getGraph]
  unfold fireAll
  rw [hrest]
  have hfirst := hmerged.version
  have hthen := hlater.version
  exact ⟨g', hg', by omega⟩

/-- A rule that neither merges nor relates does nothing in its loop. -/
theorem fireAll_still (hg : s.engine.getGraph graphId = some g)
    (hm : ¬(⟨g, rule⟩ : Application).Merges) (hr : ¬(⟨g, rule⟩ : Application).Relates) :
    (fireAll P graphId rule g s.engine).2 = s.engine := by
  by_cases hcreate : rule.action = "create_relation"
  · refine forEach_create_linked hcreate hg fun p hp => ?_
    by_contra hl
    exact hr ⟨hcreate, p, hp, hl⟩
  by_cases hmerge : rule.action = "merge_entities"
  · refine forEach_merge_self hmerge hg fun p hp => ⟨(mem_keys_of_match hp).1, ?_⟩
    by_contra hne
    exact hm ⟨hmerge, p, hp, hne⟩
  · exact (fireAll_idle hcreate hmerge g s.engine).2

/-- A rule that does not merge leaves the version and the entities. -/
theorem fireAll_grown (hg : s.engine.getGraph graphId = some g)
    (hm : ¬(⟨g, rule⟩ : Application).Merges) :
    ∃ g', (fireAll P graphId rule g s.engine).2.getGraph graphId = some g' ∧
      Grown s.engine (fireAll P graphId rule g s.engine).2 g g' := by
  by_cases hr : (⟨g, rule⟩ : Application).Relates
  · exact (forEach_create hr.1 hg fun p hp => mem_keys_of_match hp).2
  · rw [fireAll_still hg hm hr]
    exact ⟨g, hg, rfl, rfl, id, fun _ hk => Or.inl hk, fun _ hk => hk, rfl⟩

/-- A rule that relates leaves a new relation behind. -/
theorem Applied.relates (hg : s.engine.getGraph graphId = some g)
    (h : Applied P graphId rule g s r) (hd : Drawn s.engine)
    (hr : (⟨g, rule⟩ : Application).Relates) :
    ∃ g', r.2.engine.getGraph graphId = some g' ∧
      ∃ k ∈ g'.relations.keys, k ∉ g.relations.keys := by
  obtain ⟨hact, hps⟩ := hr
  rw [h.getGraph]
  exact forEach_create_relates hact hg hps hd

end

/-! ## The whole inference -/

theorem applyRule_onward (rule : InferenceRule) (s : Inference) :
    Onward graphId s.engine (applyRule P graphId rule s).2.engine := by
  cases hg : s.engine.getGraph graphId with
  | none =>
    rw [applyRule_none hg]
    exact Onward.refl graphId s.engine
  | some g => exact (applyRule_applied hg rule).onward

/-- The iterations keep what each of the rules keeps. -/
theorem iterate_keeps {I : Inference → Prop} {active : List InferenceRule}
    (hI : ∀ rule ∈ active, ∀ s, I s → I (applyRule P graphId rule s).2) (n : ℕ) :
    ∀ s, I s → I (iterate P graphId active n s).2 := by
  have hloop : ∀ rules ⊆ active, ∀ s, I s →
      I (Loops.forEach (applyRule P graphId) rules s).2 := by
    intro rules
    induction rules with
    | nil => intro _ s h; exact h
    | cons rule rules ih =>
      intro hsub s h
      obtain ⟨hrule, hrules⟩ := List.cons_subset.1 hsub
      have hfirst := hI rule hrule s h
      exact Loops.andThen_keeps hfirst (ih hrules _ hfirst)
  induction n with
  | zero => intro s h; exact h
  | succ n ih =>
    intro s h
    have hround := hloop active (List.Subset.refl _) s h
    unfold iterate
    refine Loops.andThen_keeps hround ?_
    split
    · exact hround
    · exact ih _ hround

theorem mem_of_mem_activeRules {rules : List InferenceRule} (h : rule ∈ activeRules rules) :
    rule ∈ rules := by
  unfold activeRules at h
  rw [List.mem_insertionSort, List.mem_filter] at h
  exact h.1

/-- **An inference keeps** what each of its rules keeps. -/
theorem inference_keeps {I : Inference → Prop}
    (hI : ∀ rule s, I s → I (applyRule P graphId rule s).2) (e : GraphEngine)
    (rules : List InferenceRule) (maxIterations : ℤ) (h : I { engine := e }) :
    I (e.inference P graphId rules maxIterations).2 := by
  unfold inference
  split
  · exact h
  · exact iterate_keeps (fun rule _ => hI rule) _ _ h

/-- The record of a part of an inference tells whether it returns. -/
def Told (s : Inference) (r : Except Exc (List QueryResult) × Inference) : Prop :=
  ∃ more, r.2.applied = s.applied ++ more ∧ ((∃ xs, r.1 = .ok xs) ↔ ∀ a ∈ more, ¬a.Chained)

theorem told_idle (s : Inference) : Told s (.ok [], s) :=
  ⟨[], (List.append_nil _).symm, iff_of_true ⟨[], rfl⟩ fun _ ha => absurd ha List.not_mem_nil⟩

theorem told_andThen {r : Except Exc (List QueryResult) × Inference}
    {k : Inference → Except Exc (List QueryResult) × Inference} (hr : Told s r)
    (hk : Told r.2 (k r.2)) : Told s (Loops.andThen r k) := by
  obtain ⟨more, happlied, hiff⟩ := hr
  obtain ⟨more', happlied', hiff'⟩ := hk
  by_cases hok : ∃ xs, r.1 = .ok xs
  · refine ⟨more ++ more', ?_, ?_⟩
    · rw [Loops.andThen_snd hok, happlied', happlied, List.append_assoc]
    · rw [Loops.andThen_returns_iff, hiff, hiff', List.forall_mem_append]
  · -- nothing comes after the rule that raised
    obtain ⟨r, s'⟩ := r
    cases r with
    | ok xs => exact absurd ⟨xs, rfl⟩ hok
    | error x => exact ⟨more, happlied, hiff⟩

theorem applyRule_told (rule : InferenceRule) (s : Inference) :
    Told s (applyRule P graphId rule s) := by
  cases hg : s.engine.getGraph graphId with
  | none =>
    rw [applyRule_none hg]
    exact told_idle s
  | some g =>
    have h := applyRule_applied (P := P) hg rule
    exact ⟨[⟨g, rule⟩], h.applied, by rw [h.returns_iff hg, List.forall_mem_singleton]⟩

theorem forEach_told (active : List InferenceRule) : ∀ s,
    Told s (Loops.forEach (applyRule P graphId) active s) := by
  induction active with
  | nil => exact told_idle
  | cons rule active ih =>
    intro s
    rw [Loops.forEach_cons]
    exact told_andThen (applyRule_told rule s) (ih _)

theorem iterate_told (active : List InferenceRule) (n : ℕ) : ∀ s,
    Told s (iterate P graphId active n s) := by
  induction n with
  | zero => exact told_idle
  | succ n ih =>
    intro s
    unfold iterate
    refine told_andThen (forEach_told active s) ?_
    split
    · exact told_idle _
    · exact ih _

/-- **An inference returns** exactly when no rule that it applied was chained. -/
theorem inference_returns_iff (P : GraphEnv) (e : GraphEngine) (graphId : String)
    (rules : List InferenceRule) (maxIterations : ℤ) :
    (∃ xs, (e.inference P graphId rules maxIterations).1 = .ok xs) ↔
      ∀ a ∈ (e.inference P graphId rules maxIterations).2.applied, ¬a.Chained := by
  have htold : Told { engine := e } (e.inference P graphId rules maxIterations) := by
    unfold inference
    split
    · exact told_idle _
    · exact iterate_told _ _ _
  obtain ⟨more, happlied, hiff⟩ := htold
  rw [hiff, happlied, List.nil_append]

end GraphEngine

/-!
## Inferences that return

* `inference_sound`: referential integrity survives an inference, also when it raises.
* `inference_total_iff`: it returns unless a rule that merges comes to an entity that an
  earlier pair of the same match merged away.
* `chain_raises`: two relations in a row are enough for that.
-/

open GraphEngine

/-! ## Totality -/

/-- **Referential integrity** survives an inference. -/
theorem inference_sound {P : GraphEnv} {e : GraphEngine} {graphId : String}
    (hs : ∀ g, e.getGraph graphId = some g → g.Sound) (rules : List InferenceRule)
    (maxIterations : ℤ) : ∀ g,
      (e.inference P graphId rules maxIterations).2.engine.getGraph graphId = some g → g.Sound := by
  refine inference_keeps (I := fun s => ∀ g, s.engine.getGraph graphId = some g → g.Sound)
    (fun rule s h g' hg' => ?_) e rules maxIterations hs
  cases hg : s.engine.getGraph graphId with
  | none =>
    rw [applyRule_none hg] at hg'
    exact h g' hg'
  | some g =>
    obtain ⟨g₁, hg₁, hsound⟩ := (applyRule_applied (P := P) hg rule).sound hg (h g hg)
    obtain rfl := Option.some.inj (hg₁.symm.trans hg')
    exact hsound

/-- **An inference is total** unless it chains merges: on a graph with referential integrity it
returns and leaves such a graph exactly when no rule that it applies, in the graph as it is then,
has a pair to merge into an entity that an earlier pair merges away. -/
theorem inference_total_iff (P : GraphEnv) (e : GraphEngine) (graphId : String)
    (rules : List InferenceRule) (maxIterations : ℤ)
    (hs : ∀ g, e.getGraph graphId = some g → g.Sound) :
    ((∃ results, (e.runInference P graphId rules maxIterations).1 = .ok results) ∧
        ∀ g, (e.runInference P graphId rules maxIterations).2.getGraph graphId = some g → g.Sound) ↔
      ∀ a ∈ (e.inference P graphId rules maxIterations).2.applied, ¬a.Chained := by
  have hreturns := inference_returns_iff P e graphId rules maxIterations
  exact (and_iff_left (inference_sound hs rules maxIterations)).trans hreturns

namespace Chain

/-- Every related pair is merged. -/
def rule : InferenceRule := { ruleId := "m", name := "merge", pattern := ∅, action := "merge_entities" }

end Chain

theorem inference_total_chain :
    ((∃ results, (Chain.engine.runInference Chain.env "g" [Chain.rule] 3).1 = .ok results) ∧
        ∀ g, (Chain.engine.runInference Chain.env "g" [Chain.rule] 3).2.getGraph "g" = some g →
          g.Sound) ↔
      ∀ a ∈ (Chain.engine.inference Chain.env "g" [Chain.rule] 3).2.applied, ¬a.Chained :=
  inference_total_iff Chain.env Chain.engine "g" [Chain.rule] 3 fun g hg => by
    obtain rfl := Option.some.inj (hg.symm.trans (show _ = some Chain.graph from rfl))
    decide

/-- The first pair merges `b` into `a`, the second one would merge `c` into `b`. -/
theorem chain_raises : Chain.engine.getGraph "g" = some Chain.graph ∧ Chain.graph.Sound ∧
    (Chain.engine.runInference Chain.env "g" [Chain.rule] 3).1 = .error ⟨.keyError, "'b'"⟩ :=
  ⟨rfl, by decide, rfl⟩

end Hermes

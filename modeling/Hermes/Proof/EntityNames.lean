import Hermes.Proof.Versions

/-!
# Names and ids of entities

`add_entity` looks an entity up by its name and stores it under its id.

* `addEntity_known`, `addEntity_new`: an entity under a name that is there, and under a
  new one.
* `Adding`, `WellAdded`: entities that are added one after the other, and what should
  hold after each.
* `wellAdded_iff`, `names_iff`: nothing is lost exactly when no entity comes in under a
  new name with the id of another one.
* `renamed_lost`: such an entity takes the other one's place.
-/

namespace Hermes

open History GraphEngine

variable {P : GraphEnv} {e : GraphEngine} {g : KnowledgeGraph} {graphId : String}
  {entity : Entity}

/-! ## Names in a graph -/

/-- An entity of the graph has the name, in whatever case. -/
def KnowledgeGraph.Names (P : GraphEnv) (g : KnowledgeGraph) (name : String) : Prop :=
  ∃ x ∈ g.entities.values, P.lower x.name = P.lower name

/-- No two entities have the same name, in whatever case. -/
def KnowledgeGraph.OwnNames (P : GraphEnv) (g : KnowledgeGraph) : Prop :=
  ∀ x ∈ g.entities.values, ∀ y ∈ g.entities.values, P.lower x.name = P.lower y.name →
    x.entityId = y.entityId

/-- Every entity of `g` is there, under its name. -/
def KnowledgeGraph.KeepsNames (g g' : KnowledgeGraph) : Prop :=
  ∀ x ∈ g.entities.values, ∃ y ∈ g'.entities.values, y.entityId = x.entityId ∧ y.name = x.name

instance (P : GraphEnv) : DecidablePred (KnowledgeGraph.OwnNames P) := fun g =>
  inferInstanceAs (Decidable (∀ x ∈ g.entities.values, ∀ y ∈ g.entities.values,
    P.lower x.name = P.lower y.name → x.entityId = y.entityId))

theorem names_of_keepsNames {g' : KnowledgeGraph} (h : g.KeepsNames g') {name : String}
    (hn : g.Names P name) : g'.Names P name := by
  obtain ⟨x, hx, hname⟩ := hn
  obtain ⟨y, hy, -, hyx⟩ := h x hx
  exact ⟨y, hy, by rw [hyx, hname]⟩

/-! ## One entity -/

/-- The graph with an entity under its id. -/
def KnowledgeGraph.withEntity (g : KnowledgeGraph) (x : Entity) : KnowledgeGraph :=
  { g with entities := g.entities.put x, version := g.version + 1 }

theorem graphId_withEntity (hg : e.getGraph graphId = some g) (x : Entity) :
    (g.withEntity x).graphId = graphId := graphId_of_get (g := g) hg

theorem mem_withEntity {x y : Entity} : y ∈ (g.withEntity x).entities.values ↔
    y = x ∨ (y ∈ g.entities.values ∧ y.entityId ≠ x.entityId) := by
  show y ∈ (g.entities.put x).values ↔ _
  rw [Index.mem_values, Index.mem_values, Index.get?_put]
  by_cases hid : y.entityId = x.entityId
  · rw [if_pos hid]
    simp [hid, eq_comm]
  · have hne : y ≠ x := fun h => hid (congrArg Entity.entityId h)
    simp [hid, hne]

/-- **A name that is there**: the entity is merged into the one that has it. -/
theorem addEntity_known (hg : e.getGraph graphId = some g) (hn : g.Names P entity.name) :
    ∃ x ∈ g.entities.values, P.lower x.name = P.lower entity.name ∧
      (e.addEntity P graphId entity).2.getGraph graphId =
        some (g.withEntity (refresh x entity)) := by
  obtain ⟨x, hfind⟩ : ∃ x, (g.entities.values.find? fun x =>
      P.lower x.name = P.lower entity.name) = some x := by
    rw [← Option.isSome_iff_exists, List.find?_isSome]
    obtain ⟨x, hx, hname⟩ := hn
    exact ⟨x, hx, by simpa using hname⟩
  have hown := graphId_withEntity hg (refresh x entity)
  have hgraphs : (e.addEntity P graphId entity).2.graphs =
      e.graphs.put (g.withEntity (refresh x entity)) := by
    unfold addEntity
    simp only [hg, hfind]
    rfl
  refine ⟨x, List.mem_of_find?_eq_some hfind, by simpa using List.find?_some hfind, ?_⟩
  rw [getGraph_of_put hgraphs, if_pos hown.symm]

/-- **A new name**: the entity is stored under its id, over what is there. -/
theorem addEntity_new (hg : e.getGraph graphId = some g) (hn : ¬g.Names P entity.name) :
    (e.addEntity P graphId entity).2.getGraph graphId = some (g.withEntity entity) := by
  have hfind : (g.entities.values.find? fun x => P.lower x.name = P.lower entity.name) = none := by
    rw [List.find?_eq_none]
    intro x hx hname
    exact hn ⟨x, hx, by simpa using hname⟩
  have hown := graphId_withEntity hg entity
  have hgraphs : (e.addEntity P graphId entity).2.graphs = e.graphs.put (g.withEntity entity) := by
    unfold addEntity
    simp only [hg, hfind]
    rfl
  rw [getGraph_of_put hgraphs, if_pos hown.symm]

/-- The entity that has the name stays where it is. -/
theorem withEntity_refresh {x : Entity} (hx : x ∈ g.entities.values) (hown : g.OwnNames P)
    (hname : P.lower x.name = P.lower entity.name) :
    (g.withEntity (refresh x entity)).OwnNames P ∧
      g.KeepsNames (g.withEntity (refresh x entity)) ∧
      (g.withEntity (refresh x entity)).Names P entity.name := by
  have hkeeps : g.KeepsNames (g.withEntity (refresh x entity)) := by
    intro y hy
    by_cases hid : y.entityId = x.entityId
    · have hsame : y = x := by
        rw [Index.mem_values] at hx hy
        rw [hid, hx] at hy
        exact (Option.some.inj hy).symm
      exact ⟨refresh x entity, mem_withEntity.2 (Or.inl rfl), hid.symm, by rw [hsame]; rfl⟩
    · exact ⟨y, mem_withEntity.2 (Or.inr ⟨hy, hid⟩), rfl, rfl⟩
  refine ⟨?_, hkeeps, names_of_keepsNames hkeeps ⟨x, hx, hname⟩⟩
  -- each entity stands for one of the old ones
  have hback : ∀ y ∈ (g.withEntity (refresh x entity)).entities.values,
      ∃ z ∈ g.entities.values, z.entityId = y.entityId ∧ z.name = y.name := by
    intro y hy
    rcases mem_withEntity.1 hy with rfl | ⟨hold, -⟩
    · exact ⟨x, hx, rfl, rfl⟩
    · exact ⟨y, hold, rfl, rfl⟩
  intro y hy z hz hyz
  obtain ⟨y', hy', hyid, hyname⟩ := hback y hy
  obtain ⟨z', hz', hzid, hzname⟩ := hback z hz
  rw [← hyid, ← hzid]
  exact hown y' hy' z' hz' (by rw [hyname, hzname, hyz])

theorem withEntity_new (hown : g.OwnNames P) (hn : ¬g.Names P entity.name) :
    (g.withEntity entity).OwnNames P ∧ (g.withEntity entity).Names P entity.name := by
  refine ⟨?_, entity, mem_withEntity.2 (Or.inl rfl), rfl⟩
  intro y hy z hz hyz
  rcases mem_withEntity.1 hy with hnew | ⟨hold, -⟩
  · rcases mem_withEntity.1 hz with hnew' | ⟨hold', -⟩
    · rw [hnew, hnew']
    · rw [hnew] at hyz
      exact absurd ⟨z, hold', hyz.symm⟩ hn
  · rcases mem_withEntity.1 hz with hnew' | ⟨hold', -⟩
    · rw [hnew'] at hyz
      exact absurd ⟨y, hold, hyz⟩ hn
    · exact hown y hold z hold' hyz

/-- **A new name under an id** that another entity has is the only way to lose one. -/
theorem keepsNames_new_iff (hn : ¬g.Names P entity.name) :
    g.KeepsNames (g.withEntity entity) ↔ entity.entityId ∉ g.entities.keys := by
  constructor
  · intro hkeeps hk
    obtain ⟨x, hx⟩ := Option.isSome_iff_exists.1 (Index.mem_keys.1 hk)
    have hid : x.entityId = entity.entityId := Index.key_of_get? hx
    have hmem : x ∈ g.entities.values := Index.mem_values.2 (by rw [hid]; exact hx)
    obtain ⟨y, hy, hyid, hyname⟩ := hkeeps x hmem
    rcases mem_withEntity.1 hy with rfl | ⟨-, hne⟩
    · exact hn ⟨x, hmem, by rw [hyname]⟩
    · exact hne (hyid.trans hid)
  · intro hk x hx
    refine ⟨x, mem_withEntity.2 (Or.inr ⟨hx, fun hid => hk ?_⟩), rfl, rfl⟩
    rw [Index.mem_keys, ← hid, Index.mem_values.1 hx]
    rfl

/-! ## Entities one after the other -/

/-- Entities that are added to a graph, those that came first in front. -/
structure Adding where
  engine : GraphEngine
  added : List Entity := []

namespace Adding

variable (P) (graphId)

def add (s : Adding) (entity : Entity) : Adding :=
  { engine := (s.engine.addEntity P graphId entity).2, added := s.added ++ [entity] }

/-- The names in the graph are told apart, and every name that was added is among them. -/
def Intact (s : Adding) : Prop :=
  ∃ g, s.engine.getGraph graphId = some g ∧ g.OwnNames P ∧ ∀ x ∈ s.added, g.Names P x.name

/-- What should hold after an entity was added to `s`. -/
def WellAdded (s : Adding) (entity : Entity) : Prop :=
  (s.add P graphId entity).Intact P graphId ∧
    ∀ g, s.engine.getGraph graphId = some g →
      ∃ g', (s.add P graphId entity).engine.getGraph graphId = some g' ∧ g.KeepsNames g'

/-- The entity has a name that is there or an id that is not. -/
def KeyedAlike (s : Adding) (entity : Entity) : Prop :=
  ∀ g, s.engine.getGraph graphId = some g →
    g.Names P entity.name ∨ entity.entityId ∉ g.entities.keys

variable {P graphId}

/-- **One entity** is added well exactly when its name is known or its id is new. -/
theorem wellAdded_iff {s : Adding} (h : s.Intact P graphId) (entity : Entity) :
    s.WellAdded P graphId entity ↔ s.KeyedAlike P graphId entity := by
  obtain ⟨g, hg, hown, hadded⟩ := h
  have hall : ∀ g', g.KeepsNames g' → g'.Names P entity.name →
      ∀ x ∈ s.added ++ [entity], g'.Names P x.name := by
    intro g' hkeeps hnew x hx
    rcases List.mem_append.1 hx with hx | hx
    · exact names_of_keepsNames hkeeps (hadded x hx)
    · rw [List.mem_singleton.1 hx]
      exact hnew
  by_cases hn : g.Names P entity.name
  · obtain ⟨x, hx, hname, hafter⟩ := addEntity_known hg hn
    obtain ⟨hown', hkeeps, hnamed⟩ := withEntity_refresh hx hown hname
    -- a known name is refreshed in place
    refine iff_of_true ⟨⟨_, hafter, hown', hall _ hkeeps hnamed⟩, fun g₁ hg₁ => ?_⟩ fun g₁ hg₁ => ?_
    · obtain rfl := Option.some.inj (hg.symm.trans hg₁)
      exact ⟨_, hafter, hkeeps⟩
    · obtain rfl := Option.some.inj (hg.symm.trans hg₁)
      exact Or.inl hn
  · have hafter := addEntity_new hg hn
    obtain ⟨hown', hnamed⟩ := withEntity_new hown hn
    constructor
    · rintro ⟨-, hkeep⟩ g₁ hg₁
      obtain rfl := Option.some.inj (hg.symm.trans hg₁)
      obtain ⟨g', hg', hkeeps⟩ := hkeep g hg
      obtain rfl := Option.some.inj (hafter.symm.trans hg')
      exact Or.inr ((keepsNames_new_iff hn).1 hkeeps)
    · intro hkey
      have hkeeps := (keepsNames_new_iff hn).2 ((hkey g hg).resolve_left hn)
      refine ⟨⟨_, hafter, hown', hall _ hkeeps hnamed⟩, fun g₁ hg₁ => ?_⟩
      obtain rfl := Option.some.inj (hg.symm.trans hg₁)
      exact ⟨_, hafter, hkeeps⟩

end Adding

open Adding

/-- **Entity names are unique and none is lost**, after each entity that is added to a graph,
exactly when every entity comes with a name that the graph has or an id that it has not. -/
theorem names_iff (P : GraphEnv) (e : GraphEngine) (graphId : String) (g : KnowledgeGraph)
    (hg : e.getGraph graphId = some g) (hown : g.OwnNames P) (entities : List Entity) :
    EachStep (Adding.add P graphId) (WellAdded P graphId) { engine := e } entities ↔
      EachStep (Adding.add P graphId) (KeyedAlike P graphId) { engine := e } entities :=
  eachStep_iff (A := fun _ _ => True) (I := Intact P graphId)
    (fun _ entity _ hi hkey => ((wellAdded_iff hi entity).2 hkey).1)
    (fun _ entity _ hi => wellAdded_iff hi entity) entities _
    ⟨g, hg, hown, fun _ hx => absurd hx List.not_mem_nil⟩
    (eachStep_of_mem (fun _ _ _ => trivial) _)

theorem names_chain :
    EachStep (Adding.add Chain.env "g") (WellAdded Chain.env "g") { engine := Chain.engine }
        [{ entityId := "d", name := "A", type := .person }] ↔
      EachStep (Adding.add Chain.env "g") (KeyedAlike Chain.env "g") { engine := Chain.engine }
        [{ entityId := "d", name := "A", type := .person }] :=
  names_iff Chain.env Chain.engine "g" Chain.graph rfl (by decide) _

/-- `bob` comes in with the id of `alice`, and `alice` is gone. -/
theorem renamed_lost : ¬EachStep (Adding.add Chain.env "") (WellAdded Chain.env "")
    { engine := (GraphEngine.createGraph Chain.env (init none) "people").2 }
    [{ entityId := "e1", name := "alice", type := .person },
      { entityId := "e1", name := "bob", type := .person }] := by
  rintro ⟨-, ⟨⟨g, hg, -, hadded⟩, -⟩, -⟩
  obtain ⟨x, hx, hname⟩ := hadded { entityId := "e1", name := "alice", type := .person }
    List.mem_cons_self
  obtain rfl := Option.some.inj hg
  obtain rfl := List.mem_singleton.1 hx
  exact absurd hname (by decide)

end Hermes

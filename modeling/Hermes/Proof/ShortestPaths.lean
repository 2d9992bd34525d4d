import Hermes.Lib.ShortestWay
import Hermes.Proof.Merge
import Hermes.Spec.KnowledgeGraph

/-!
# The paths that are found

`find_path` finds a shortest chain of relations, and its `max_depth` is without effect.

* `joins_iff`: the chains of relations are the ways of the search.
* `joins_of_findPath`: what is found is a shortest chain.
* `shortest_path`: and nothing is found only where there is none.
* `depth_bound_iff`: the depth is kept exactly where a chain that short exists, or none at all.
-/

namespace Hermes

open Search

variable {g : KnowledgeGraph} {a b c : String} {r : Relation} {rs : List Relation}

namespace GraphEngine

/-- **The neighbours** of an entity, each by a relation that is traversed to it. -/
theorem mem_neighbours_iff : (b, r) ∈ neighbours g a ↔ r ∈ g.relations.values ∧ r.Traverses a b := by
  rw [mem_neighbours]
  refine and_congr_right fun _ => ?_
  constructor
  · rintro ⟨hsource | ⟨hback, htarget⟩, hb⟩
    · simp only at hsource hb
      rw [if_pos hsource] at hb
      rw [hb, ← hsource]
      exact .forwards
    · simp only at hback htarget hb
      split at hb
      · rename_i hsource
        rw [hb, ← hsource]
        exact .forwards
      · rw [hb, ← htarget]
        exact .backwards hback
  · intro h
    cases h with
    | forwards => exact ⟨.inl rfl, (if_pos rfl).symm⟩
    | backwards hback =>
      refine ⟨.inr ⟨hback, rfl⟩, ?_⟩
      simp only
      split
      · rename_i hloop
        exact hloop
      · rfl

end GraphEngine

open GraphEngine

namespace KnowledgeGraph

/-- A chain that goes on by one relation. -/
theorem Joins.snoc (h : g.Joins a b rs) (hr : r ∈ g.relations.values) (hbc : r.Traverses b c) :
    g.Joins a c (rs ++ [r]) := by
  induction h with
  | nil b => exact .cons hr hbc (.nil c)
  | cons hr' hstep _ ih => exact .cons hr' hstep (ih hbc)

/-- Chains one after the other. -/
theorem way_of_joins (h : g.Joins b c rs) : ∀ {es : List Relation}, Way (neighbours g) a b es →
    Way (neighbours g) a c (es ++ rs) := by
  induction h with
  | nil b =>
    intro es hes
    rw [List.append_nil]
    exact hes
  | cons hr hstep _ ih =>
    intro es hes
    rw [List.append_cons]
    exact ih (hes.snoc (mem_neighbours_iff.2 ⟨hr, hstep⟩))

/-- **The chains of relations** are the ways of the search. -/
theorem joins_iff : g.Joins a b rs ↔ Way (neighbours g) a b rs := by
  constructor
  · exact fun h => way_of_joins h .nil
  · intro h
    induction h with
    | nil => exact .nil a
    | snoc _ he ih =>
      obtain ⟨hr, hstep⟩ := mem_neighbours_iff.1 he
      exact ih.snoc hr hstep

end KnowledgeGraph

namespace GraphEngine

variable {e : GraphEngine} {graphId fromId toId : String}

/-- What `find_path` gives is the way back of its search. -/
theorem back_of_findPath (hg : e.getGraph graphId = some g) {path : List Relation}
    (hpath : e.findPath graphId fromId toId = some path) :
    ∃ n, back (run (neighbours g) toId (2 * g.relations.values.length + 1)
      { queue := [fromId], seen := [fromId] }).prev fromId n toId = some path := by
  unfold findPath at hpath
  simp only [hg] at hpath
  split at hpath
  · cases hpath
  · split at hpath
    · cases hpath
    · exact ⟨_, hpath⟩

/-- **A path that is found** is a chain of relations, and none is shorter. -/
theorem joins_of_findPath (hg : e.getGraph graphId = some g) (hfrom : fromId ∈ g.entities.keys)
    (hto : toId ∈ g.entities.keys) {path : List Relation}
    (hpath : e.findPath graphId fromId toId = some path) :
    g.Joins fromId toId path ∧ ∀ chain, g.Joins fromId toId chain → path.length ≤ chain.length := by
  refine ⟨?_, fun chain hchain => ?_⟩
  · rcases findPath_spec hg hfrom hto with ⟨path', hpath', hway⟩ | ⟨hnone, -⟩
    · obtain rfl := Option.some.inj (hpath.symm.trans hpath')
      exact KnowledgeGraph.joins_iff.2 hway
    · rw [hpath] at hnone
      cases hnone
  · obtain ⟨n, hback⟩ := back_of_findPath hg hpath
    have hfuel : (ends g).length + 1 ≤ 2 * g.relations.values.length + 1 := by
      rw [length_ends]
    exact back_shortest (mem_ends_of_neighbour (g := g)) hfuel hback
      (KnowledgeGraph.joins_iff.1 hchain)

/-- **Shortest paths**: a path that is found is a chain of relations from the first entity to the
second, and none is shorter; where none is found, there is none. -/
theorem shortest_path (e : GraphEngine) (graphId fromId toId : String) (maxDepth : ℤ)
    {g : KnowledgeGraph} (hg : e.getGraph graphId = some g) (hfrom : fromId ∈ g.entities.keys)
    (hto : toId ∈ g.entities.keys) :
    (∀ path, e.findPathWithin graphId fromId toId maxDepth = some path →
      g.Joins fromId toId path ∧ ∀ chain, g.Joins fromId toId chain → path.length ≤ chain.length) ∧
    (e.findPathWithin graphId fromId toId maxDepth = none →
      ¬ ∃ chain, g.Joins fromId toId chain ∧ (chain.length : ℤ) ≤ maxDepth) := by
  refine ⟨fun path hpath => joins_of_findPath hg hfrom hto hpath, fun hnone => ?_⟩
  rintro ⟨chain, hchain, -⟩
  unfold findPathWithin at hnone
  rcases findPath_spec hg hfrom hto with ⟨path, hpath, -⟩ | ⟨-, hno⟩
  · rw [hnone] at hpath
    cases hpath
  · exact hno (KnowledgeGraph.joins_iff.1 hchain).reaches

/-! ## The depth -/

/-- What is found between the two entities has at most `maxDepth` relations, by itself and in a query
of type `path`. -/
structure DepthBounded (P : QueryEnv) (e : GraphEngine) (graphId fromId toId : String)
    (maxDepth : ℤ) : Prop where
  path : ∀ path, e.findPathWithin graphId fromId toId maxDepth = some path → path.length ≤ maxDepth
  query : ∀ q : GraphQuery, q.queryType = "path" →
    q.parameters.get? "from_entity_id" = some (.str fromId) →
    q.parameters.get? "to_entity_id" = some (.str toId) →
    toInt P ((q.parameters.get? "max_depth").getD (.int 5)) = .ok maxDepth →
    ∀ answer, (e.query P graphId q).1 = .ok answer → answer.relations.length ≤ maxDepth

/-- What a query of type `path` reports. -/
theorem query_path {P : QueryEnv} {q : GraphQuery} {maxDepth : ℤ} (hg : e.getGraph graphId = some g)
    (hfrom : fromId ∈ g.entities.keys) (htype : q.queryType = "path")
    (hq : q.parameters.get? "from_entity_id" = some (.str fromId))
    (hq' : q.parameters.get? "to_entity_id" = some (.str toId))
    (hdepth : toInt P ((q.parameters.get? "max_depth").getD (.int 5)) = .ok maxDepth) :
    (e.query P graphId q).1 = .ok { relations :=
      ((e.findPathWithin graphId fromId toId maxDepth).getD []).map (·.relationId) } := by
  have hpath : e.queryPath P graphId q.parameters =
      .ok (((e.findPathWithin graphId fromId toId maxDepth).getD []).map (·.relationId)) := by
    unfold queryPath
    rw [hdepth, hq, hq']
    simp only [bind, Except.bind, hashedId, hg]
    rw [if_neg (not_not.2 hfrom)]
  unfold query
  simp only [htype, hpath]
  rfl

/-- **The depth is kept** exactly where the second entity can be reached by a chain that short, or
not at all. -/
theorem depth_bound_iff (P : QueryEnv) (e : GraphEngine) (graphId fromId toId : String)
    (maxDepth : ℤ) {g : KnowledgeGraph} (hg : e.getGraph graphId = some g)
    (hfrom : fromId ∈ g.entities.keys) (hto : toId ∈ g.entities.keys) (hdepth : 0 ≤ maxDepth) :
    DepthBounded P e graphId fromId toId maxDepth ↔
      ((∃ chain, g.Joins fromId toId chain) →
        ∃ chain, g.Joins fromId toId chain ∧ chain.length ≤ maxDepth) := by
  constructor
  · rintro ⟨hbound, -⟩ ⟨chain, hchain⟩
    rcases findPath_spec hg hfrom hto with ⟨path, hpath, hway⟩ | ⟨-, hno⟩
    · exact ⟨path, KnowledgeGraph.joins_iff.2 hway, hbound path hpath⟩
    · exact absurd (KnowledgeGraph.joins_iff.1 hchain).reaches hno
  · intro hshort
    have hbound : ∀ path, e.findPathWithin graphId fromId toId maxDepth = some path →
        (path.length : ℤ) ≤ maxDepth := by
      intro path hpath
      obtain ⟨hjoins, hmin⟩ := joins_of_findPath hg hfrom hto hpath
      obtain ⟨chain, hchain, hle⟩ := hshort ⟨path, hjoins⟩
      have := hmin chain hchain
      omega
    refine ⟨hbound, fun q htype hq hq' hq'' answer hanswer => ?_⟩
    rw [query_path hg hfrom htype hq hq' hq''] at hanswer
    obtain rfl := Except.ok.inj hanswer
    simp only [List.length_map]
    cases hpath : e.findPathWithin graphId fromId toId maxDepth with
    | none => exact hdepth
    | some path => exact hbound path hpath

/-! ## Two relations in a row -/

/-- The surroundings of the queries. -/
def Chain.queries : QueryEnv where
  toGraphEnv := Chain.env
  parseInt s := s.toInt?
  similar _ _ _ := []
  rules _ := []

theorem shortest_path_chain :
    (∀ path, Chain.engine.findPathWithin "g" "a" "c" 5 = some path →
      Chain.graph.Joins "a" "c" path ∧
        ∀ chain, Chain.graph.Joins "a" "c" chain → path.length ≤ chain.length) ∧
    (Chain.engine.findPathWithin "g" "a" "c" 5 = none →
      ¬ ∃ chain, Chain.graph.Joins "a" "c" chain ∧ (chain.length : ℤ) ≤ 5) :=
  shortest_path Chain.engine "g" "a" "c" 5 rfl (by decide) (by decide)

/-- The relation from `a` to `b`. -/
def Chain.first : Relation :=
  { relationId := "r", sourceId := "a", targetId := "b", type := .similarTo }

theorem depth_bound_chain : DepthBounded Chain.queries Chain.engine "g" "a" "b" 1 := by
  refine (depth_bound_iff Chain.queries Chain.engine "g" "a" "b" 1 rfl (by decide) (by decide)
    (by decide)).2 fun _ => ?_
  exact ⟨[Chain.first], .cons (Index.mem_values.2 rfl) .forwards (.nil "b"), by decide⟩

/-- Two relations are found for a depth of one. -/
theorem depth_exceeded : ¬ DepthBounded Chain.queries Chain.engine "g" "a" "c" 1 := by
  rintro ⟨hbound, -⟩
  have hfound : ((Chain.engine.findPathWithin "g" "a" "c" 1).map List.length) = some 2 := by decide
  obtain ⟨path, hpath, hlen⟩ := Option.map_eq_some_iff.1 hfound
  have hle := hbound path hpath
  omega

end GraphEngine

end Hermes

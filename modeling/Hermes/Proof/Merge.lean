import Hermes.Spec.KnowledgeGraph

/-!
# Merging entities

* `findPath_isSome_iff`: `find_path` finds a path exactly when there is one.
* `collapse`: the map of a merge, which sends the duplicates it removes to the
  canonical entity.
* `Quotient`: the graph after a merge is the image of the graph before under it.
* `mergeAll_quotient`: the loop over the duplicates yields it, duplicate by duplicate.
* `merge_quotient`: so does `merge_entities`, and paths become paths.
-/

namespace Hermes

open Search

/-- Both ends of every relation are entities of the graph. -/
def KnowledgeGraph.Sound (g : KnowledgeGraph) : Prop :=
  ∀ k r, g.relations.get? k = some r →
    r.sourceId ∈ g.entities.keys ∧ r.targetId ∈ g.entities.keys

theorem KnowledgeGraph.sound_iff {g : KnowledgeGraph} : g.Sound ↔ ∀ r ∈ g.relations.values,
    r.sourceId ∈ g.entities.keys ∧ r.targetId ∈ g.entities.keys := by
  constructor
  · intro h r hr
    exact h r.relationId r (Index.mem_values.1 hr)
  · intro h k r hr
    have hkey : r.relationId = k := Index.key_of_get? hr
    exact h r (Index.mem_values.2 (by rw [hkey]; exact hr))

instance (g : KnowledgeGraph) : Decidable g.Sound :=
  decidable_of_iff _ KnowledgeGraph.sound_iff.symm

namespace GraphEngine

/-! ## Paths -/

theorem mem_neighbours {g : KnowledgeGraph} {u : String} {n : String × Relation} :
    n ∈ neighbours g u ↔ n.2 ∈ g.relations.values ∧
      (n.2.sourceId = u ∨ n.2.bidirectional = true ∧ n.2.targetId = u) ∧
      n.1 = if n.2.sourceId = u then n.2.targetId else n.2.sourceId := by
  obtain ⟨v, r⟩ := n
  unfold neighbours
  simp only [List.mem_flatMap, List.mem_append]
  constructor
  · rintro ⟨r', hr', h | h⟩
    · split at h
      · rename_i hsrc
        obtain ⟨hv, rfl⟩ := Prod.mk.inj (List.mem_singleton.1 h)
        exact ⟨hr', Or.inl hsrc, hv.trans (if_pos hsrc).symm⟩
      · cases h
    · split at h
      · rename_i hback
        obtain ⟨hv, rfl⟩ := Prod.mk.inj (List.mem_singleton.1 h)
        exact ⟨hr', Or.inr hback, hv⟩
      · cases h
  · rintro ⟨hr, h, hv⟩
    refine ⟨r, hr, ?_⟩
    rcases h with h | h
    · left
      rw [if_pos h]
      exact List.mem_singleton.2 (Prod.ext hv rfl)
    · right
      rw [if_pos h]
      exact List.mem_singleton.2 (Prod.ext hv rfl)

/-- The ends of the relations of a graph. -/
def ends (g : KnowledgeGraph) : List String :=
  g.relations.values.map (·.sourceId) ++ g.relations.values.map (·.targetId)

theorem mem_ends_of_neighbour {g : KnowledgeGraph} (u : String) (n : String × Relation)
    (hn : n ∈ neighbours g u) : n.1 ∈ ends g := by
  obtain ⟨hr, -, hv⟩ := mem_neighbours.1 hn
  unfold ends
  rw [hv, List.mem_append]
  split
  · exact Or.inr (List.mem_map_of_mem hr)
  · exact Or.inl (List.mem_map_of_mem hr)

theorem length_ends (g : KnowledgeGraph) : (ends g).length = 2 * g.relations.values.length := by
  unfold ends
  rw [List.length_append, List.length_map, List.length_map]
  omega

/-- **`find_path`** between two entities, by what its search has seen. -/
theorem findPath_spec {e : GraphEngine} {graphId x y : String} {g : KnowledgeGraph}
    (hg : e.getGraph graphId = some g) (hx : x ∈ g.entities.keys) (hy : y ∈ g.entities.keys) :
    (∃ path, e.findPath graphId x y = some path ∧ Way (neighbours g) x y path) ∨
      (e.findPath graphId x y = none ∧ ¬Reaches (neighbours g) x y) := by
  have hfuel : (ends g).length + 1 ≤ 2 * g.relations.values.length + 1 := by
    rw [length_ends]
  obtain ⟨hfound, hseen⟩ :=
    mem_seen_run x y (mem_ends_of_neighbour (g := g)) hfuel
  have hin : ¬(x ∉ g.entities.keys ∨ y ∉ g.entities.keys) := by
    rw [not_or, not_not, not_not]
    exact ⟨hx, hy⟩
  unfold findPath
  simp only [hg, if_neg hin]
  split
  · -- the goal was not found
    rename_i hout
    refine Or.inr ⟨rfl, fun hreach => hout.1 ?_⟩
    exact (hfound.entry y).2 ⟨hseen.2 hreach, Ne.symm hout.2⟩
  · rename_i hentry
    left
    refine hfound.back_way ?_ ?_
    · unfold Dict.keys
      rw [List.length_map]
      exact Nat.lt_succ_self _
    · by_cases hxy : x = y
      · exact hxy ▸ hfound.origin
      · have hkey := not_and_not_right.1 hentry
        by_contra hns
        have hnk : y ∉ Dict.keys _ := fun hk => hns ((hfound.entry y).1 hk).1
        exact hxy (not_not.1 fun hne => hentry ⟨hnk, hne⟩)

/-- **`find_path` finds a path** exactly between entities of which one reaches the other. -/
theorem findPath_isSome_iff {e : GraphEngine} {graphId x y : String} {g : KnowledgeGraph}
    (hg : e.getGraph graphId = some g) : (e.findPath graphId x y).isSome ↔
      x ∈ g.entities.keys ∧ y ∈ g.entities.keys ∧ Reaches (neighbours g) x y := by
  by_cases hin : x ∈ g.entities.keys ∧ y ∈ g.entities.keys
  · obtain ⟨hx, hy⟩ := hin
    rcases findPath_spec hg hx hy with ⟨path, hpath, hway⟩ | ⟨hnone, hno⟩
    · rw [hpath]
      exact iff_of_true rfl ⟨hx, hy, hway.reaches⟩
    · rw [hnone]
      refine iff_of_false Bool.false_ne_true ?_
      rintro ⟨-, -, hreach⟩
      exact hno hreach
  · have hout : x ∉ g.entities.keys ∨ y ∉ g.entities.keys := not_and_or.1 hin
    have hnone : e.findPath graphId x y = none := by
      unfold findPath
      simp only [hg, if_pos hout]
    rw [hnone]
    refine iff_of_false Bool.false_ne_true ?_
    rintro ⟨hx, hy, -⟩
    exact hin ⟨hx, hy⟩

/-! ## The map of a merge -/

variable {g g' : KnowledgeGraph} {c : String}

/-- Where a merge of the duplicates into `c` sends an id. -/
def collapse (g : KnowledgeGraph) (c : String) (dups : List String) (x : String) : String :=
  if x ∈ dups ∧ x ≠ c ∧ x ∈ g.entities.keys then c else x

theorem collapse_one {d : String} (hne : d ≠ c) (hd : d ∈ g.entities.keys) (x : String) :
    collapse g c [d] x = if x = d then c else x := by
  unfold collapse
  by_cases hxd : x = d
  · rw [if_pos hxd, if_pos ⟨List.mem_singleton.2 hxd, hxd ▸ hne, hxd ▸ hd⟩]
  · rw [if_neg hxd, if_neg fun h => hxd (List.mem_singleton.1 h.1)]

/-- A relation with its ends mapped. -/
def along (q : String → String) (r : Relation) : Relation :=
  { r with sourceId := q r.sourceId, targetId := q r.targetId }

/-- The graph `g'` is `g` with the duplicates collapsed into `c`. -/
structure Quotient (g g' : KnowledgeGraph) (c : String) (dups : List String) : Prop where
  /-- Exactly the duplicates but `c` are gone. -/
  entities : ∀ x, x ∈ g'.entities.keys ↔ x ∈ g.entities.keys ∧ ¬(x ∈ dups ∧ x ≠ c)
  relationIds : g'.relations.keys = g.relations.keys
  relations : ∀ k, g'.relations.get? k = (g.relations.get? k).map (along (collapse g c dups))

theorem collapse_mem (hc : c ∈ g.entities.keys) (dups : List String) {x : String}
    (hx : x ∈ g.entities.keys) : collapse g c dups x ∈ g.entities.keys ∧
      ¬(collapse g c dups x ∈ dups ∧ collapse g c dups x ≠ c) := by
  unfold collapse
  split
  · exact ⟨hc, fun h => h.2 rfl⟩
  · rename_i hout
    exact ⟨hx, fun h => hout ⟨h.1, h.2, hx⟩⟩

/-- **Referential integrity** survives a merge. -/
theorem Quotient.sound {dups : List String} (h : Quotient g g' c dups) (hc : c ∈ g.entities.keys)
    (hs : g.Sound) : g'.Sound := by
  intro k r hr
  rw [h.relations] at hr
  obtain ⟨r₀, hr₀, rfl⟩ := Option.map_eq_some_iff.1 hr
  obtain ⟨hsrc, htgt⟩ := hs k r₀ hr₀
  exact ⟨(h.entities _).2 (collapse_mem hc dups hsrc), (h.entities _).2 (collapse_mem hc dups htgt)⟩

theorem Quotient.mem_values {dups : List String} (h : Quotient g g' c dups) {r : Relation}
    (hr : r ∈ g.relations.values) : along (collapse g c dups) r ∈ g'.relations.values := by
  refine Index.mem_values.2 ?_
  show g'.relations.get? r.relationId = _
  rw [h.relations, Index.mem_values.1 hr]
  rfl

/-- **Ways become ways**: a relation from `u` to `v` leads from the image of `u` to that of `v`. -/
theorem Quotient.reaches {dups : List String} (h : Quotient g g' c dups) {x y : String}
    (hxy : Reaches (neighbours g) x y) :
    Reaches (neighbours g') (collapse g c dups x) (collapse g c dups y) := by
  refine Relation.ReflTransGen.lift' (collapse g c dups) ?_ _ _ hxy
  rintro u v ⟨r, hr⟩
  show Reaches (neighbours g') (collapse g c dups u) (collapse g c dups v)
  obtain ⟨hmem, hend, hv⟩ := mem_neighbours.1 hr
  have himage := h.mem_values hmem
  simp only at hend hv
  set q := collapse g c dups
  by_cases hsrc : r.sourceId = u
  · -- along the relation
    rw [if_pos hsrc] at hv
    refine .single ⟨along q r, mem_neighbours.2 ⟨himage, Or.inl (congrArg q hsrc), ?_⟩⟩
    have hsrc' : (along q r).sourceId = q u := congrArg q hsrc
    rw [if_pos hsrc']
    exact congrArg q hv
  · -- against it
    rw [if_neg hsrc] at hv
    obtain ⟨hboth, htgt⟩ := hend.resolve_left hsrc
    by_cases hloop : q r.sourceId = q u
    · have hsame : q v = q u := by rw [hv, hloop]
      rw [hsame]
      exact .refl
    · refine .single ⟨along q r, mem_neighbours.2 ⟨himage, Or.inr ⟨hboth, congrArg q htgt⟩, ?_⟩⟩
      have hsrc' : (along q r).sourceId ≠ q u := hloop
      rw [if_neg hsrc']
      exact congrArg q hv

/-! ## Duplicate by duplicate -/

theorem mergeOne_skip {d : String} (merged : List String) (h : d = c ∨ d ∉ g.entities.keys) :
    mergeOne c (g, merged) d = (g, merged) := by
  unfold mergeOne
  simp only
  split
  · rename_i hd
    rcases h with h | h
    · exact if_pos h
    · rw [Index.mem_keys, hd] at h
      exact absurd rfl h
  · rfl

theorem mergeOne_merge {d : String} (merged : List String) (hc : c ∈ g.entities.keys) (hne : d ≠ c)
    (hd : d ∈ g.entities.keys) : ∃ g₁, mergeOne c (g, merged) d = (g₁, merged ++ [d]) ∧
      Quotient g g₁ c [d] ∧ g₁.version = g.version ∧ g₁.graphId = g.graphId ∧ g₁.name = g.name := by
  obtain ⟨canonical, hcanonical⟩ := Option.isSome_iff_exists.1 (Index.mem_keys.1 hc)
  obtain ⟨dup, hdup⟩ := Option.isSome_iff_exists.1 (Index.mem_keys.1 hd)
  have hkey : canonical.entityId = c := Index.key_of_get? hcanonical
  unfold mergeOne
  simp only [hcanonical, hdup, if_neg hne]
  have hkeys := Index.keys_map g.relations (redirect d c) (relationId_redirect d c)
  refine ⟨_, rfl, ⟨fun x => ?_, hkeys, fun k => ?_⟩, rfl, rfl, rfl⟩
  · rw [Index.mem_keys, Index.mem_keys, Index.get?_erase, Index.get?_put, List.mem_singleton]
    have hput : (absorb canonical dup).entityId = c := hkey
    rw [hput]
    by_cases hxd : x = d
    · rw [if_pos hxd]
      refine iff_of_false Bool.false_ne_true ?_
      rintro ⟨-, hstay⟩
      exact hstay ⟨hxd, hxd ▸ hne⟩
    · rw [if_neg hxd]
      by_cases hxc : x = c
      · rw [if_pos hxc, hxc, hcanonical]
        exact iff_of_true rfl ⟨rfl, fun h => h.2 rfl⟩
      · rw [if_neg hxc]
        exact ⟨fun h => ⟨h, fun h' => hxd h'.1⟩, fun h => h.1⟩
  · rw [Index.get?_map]
    refine congrArg (fun f => (g.relations.get? k).map f) (funext fun r => ?_)
    unfold redirect along
    rw [collapse_one hne hd, collapse_one hne hd]

theorem quotient_refl (g : KnowledgeGraph) (c : String) : Quotient g g c [] := by
  have hq : along (collapse g c []) = id := by
    funext r
    unfold along collapse
    simp
  refine ⟨fun x => ?_, rfl, fun k => ?_⟩
  · simp
  · rw [hq, Option.map_id]
    rfl

/-- A duplicate that changes nothing may stand before the others. -/
theorem Quotient.cons_skip {d : String} {ds : List String} (h : Quotient g g' c ds)
    (hd : d = c ∨ d ∉ g.entities.keys) : Quotient g g' c (d :: ds) := by
  have hmem : ∀ x, x ∈ g.entities.keys → (x ∈ d :: ds ∧ x ≠ c ↔ x ∈ ds ∧ x ≠ c) := by
    intro x hx
    rw [List.mem_cons]
    refine and_congr_left fun hxc => ⟨fun hor => hor.resolve_left fun heq => ?_, Or.inr⟩
    rcases hd with hd | hd
    · exact hxc (heq.trans hd)
    · exact hd (heq ▸ hx)
  have hq : collapse g c (d :: ds) = collapse g c ds := by
    funext x
    unfold collapse
    by_cases hx : x ∈ g.entities.keys
    · simp only [hx, and_true, hmem x hx]
    · rw [if_neg fun h => hx h.2.2, if_neg fun h => hx h.2.2]
  refine ⟨fun x => ?_, h.relationIds, fun k => ?_⟩
  · rw [h.entities]
    exact and_congr_right fun hx => not_congr (hmem x hx).symm
  · rw [hq]
    exact h.relations k

/-- **Two merges into one entity** are one. -/
theorem Quotient.trans {g₁ : KnowledgeGraph} {d : String} {ds : List String}
    (h₁ : Quotient g g₁ c [d]) (hne : d ≠ c) (hd : d ∈ g.entities.keys)
    (h : Quotient g₁ g' c ds) : Quotient g g' c (d :: ds) := by
  have hq : ∀ x, collapse g₁ c ds (collapse g c [d] x) = collapse g c (d :: ds) x := by
    intro x
    rw [collapse_one hne hd]
    unfold collapse
    by_cases hxd : x = d
    · rw [if_pos hxd, if_neg fun h => h.2.1 rfl,
        if_pos ⟨List.mem_cons.2 (Or.inl hxd), hxd ▸ hne, hxd ▸ hd⟩]
    · rw [if_neg hxd]
      refine if_congr ?_ rfl rfl
      rw [h₁.entities, List.mem_singleton, List.mem_cons]
      constructor
      · rintro ⟨hds, hxc, hx, -⟩
        exact ⟨Or.inr hds, hxc, hx⟩
      · rintro ⟨hor, hxc, hx⟩
        exact ⟨hor.resolve_left hxd, hxc, hx, fun h => hxd h.1⟩
  refine ⟨fun x => ?_, h.relationIds.trans h₁.relationIds, fun k => ?_⟩
  · rw [h.entities, h₁.entities, List.mem_singleton, List.mem_cons]
    tauto
  · rw [h.relations, h₁.relations, Option.map_map]
    refine congrArg (fun f => (g.relations.get? k).map f) (funext fun r => ?_)
    show along (collapse g₁ c ds) (along (collapse g c [d]) r) = _
    unfold along
    simp only [hq]

/-- **The loop over the duplicates**, with the list of those it merged. -/
theorem mergeAll_quotient (dups : List String) : ∀ (g : KnowledgeGraph) (merged : List String),
    c ∈ g.entities.keys → ∃ g' more,
      dups.foldl (mergeOne c) (g, merged) = (g', merged ++ more) ∧ Quotient g g' c dups ∧
      g'.version = g.version ∧ g'.graphId = g.graphId ∧ g'.name = g.name ∧
      (more = [] ↔ ∀ d ∈ dups, d = c ∨ d ∉ g.entities.keys) ∧ (more = [] → g' = g) := by
  induction dups with
  | nil =>
    intro g merged _
    refine ⟨g, [], by rw [List.append_nil]; rfl, quotient_refl g c, rfl, rfl, rfl, ?_, fun _ => rfl⟩
    exact iff_of_true rfl fun d hd => absurd hd List.not_mem_nil
  | cons d ds ih =>
    intro g merged hc
    rw [List.foldl_cons]
    by_cases hskip : d = c ∨ d ∉ g.entities.keys
    · rw [mergeOne_skip merged hskip]
      obtain ⟨g', more, heq, hquot, hv, hid, hname, hiff, hsame⟩ := ih g merged hc
      refine ⟨g', more, heq, hquot.cons_skip hskip, hv, hid, hname, ?_, hsame⟩
      rw [hiff, List.forall_mem_cons]
      exact ⟨fun h => ⟨hskip, h⟩, fun h => h.2⟩
    · obtain ⟨hne, hd⟩ := not_or.1 hskip
      rw [not_not] at hd
      obtain ⟨g₁, heq₁, hquot₁, hv₁, hid₁, hname₁⟩ := mergeOne_merge merged hc hne hd
      have hc₁ : c ∈ g₁.entities.keys := (hquot₁.entities c).2 ⟨hc, fun h => h.2 rfl⟩
      obtain ⟨g', more, heq, hquot, hv, hid, hname, -, -⟩ := ih g₁ (merged ++ [d]) hc₁
      rw [heq₁, heq]
      refine ⟨g', d :: more, by rw [List.append_assoc]; rfl, hquot₁.trans hne hd hquot,
        hv.trans hv₁, hid.trans hid₁, hname.trans hname₁, ?_, fun h => by cases h⟩
      refine iff_of_false (List.cons_ne_nil _ _) fun hall => ?_
      exact hskip (hall d List.mem_cons_self)

/-! ## The operation -/

variable {e e' : GraphEngine} {graphId : String} {dups : List String}

/-- **A graph is written** under its id. -/
theorem getGraph_of_put (hgraphs : e'.graphs = e.graphs.put g') (j : String) :
    e'.getGraph j = if j = g'.graphId then some g' else e.getGraph j := by
  unfold getGraph
  rw [hgraphs, Index.get?_put]

theorem graphId_of_get (hg : e.getGraph graphId = some g) : g.graphId = graphId :=
  Index.key_of_get? hg

/-- A merge into an entity that is not there raises and changes nothing. -/
theorem mergeEntities_missing (hg : e.getGraph graphId = some g) (hc : c ∉ g.entities.keys)
    (dups : List String) : e.mergeEntities graphId c dups = (.error (missing c), e) := by
  have hnone : g.entities.get? c = none := by
    rw [Index.mem_keys, Option.not_isSome_iff_eq_none] at hc
    exact hc
  have hloop : ∀ ds : List String, ds.foldl (mergeOne c) (g, []) = (g, []) := by
    intro ds
    induction ds with
    | nil => rfl
    | cons d ds ih =>
      have hone : mergeOne c (g, []) d = (g, []) := by
        unfold mergeOne
        simp only [hnone]
      rw [List.foldl_cons, hone]
      exact ih
  unfold mergeEntities
  simp only [hg, hloop, hnone]

/-- The graph that a merge writes. -/
structure Merged (e e' : GraphEngine) (g : KnowledgeGraph) (c : String) (dups : List String)
    (g' : KnowledgeGraph) : Prop where
  quotient : Quotient g g' c dups
  version : g'.version = g.version + 1
  graphId : g'.graphId = g.graphId
  name : g'.name = g.name
  graphs : e'.graphs = e.graphs.put g'
  store : e'.store = e.store.map (·.put g')
  ids : e'.ids = e.ids

/-- **A merge** into an entity that is there changes nothing, or writes the merged graph. -/
theorem mergeEntities_spec (hg : e.getGraph graphId = some g) (hc : c ∈ g.entities.keys)
    (dups : List String) :
    (∃ x, (e.mergeEntities graphId c dups).1 = .ok x ∧ x.entityId = c) ∧
      (((∀ d ∈ dups, d = c ∨ d ∉ g.entities.keys) ∧ (e.mergeEntities graphId c dups).2 = e ∧
          Quotient g g c dups) ∨
        ((∃ d ∈ dups, d ≠ c ∧ d ∈ g.entities.keys) ∧
          ∃ g', Merged e (e.mergeEntities graphId c dups).2 g c dups g')) := by
  obtain ⟨g', merged, heq, hquot, hversion, hid, hname, hiff, hsame⟩ :=
    mergeAll_quotient dups g [] hc
  rw [List.nil_append] at heq
  have hc' : c ∈ g'.entities.keys := (hquot.entities c).2 ⟨hc, fun h => h.2 rfl⟩
  obtain ⟨canonical, hcanonical⟩ := Option.isSome_iff_exists.1 (Index.mem_keys.1 hc')
  have hkey : canonical.entityId = c := Index.key_of_get? hcanonical
  unfold mergeEntities
  simp only [hg, heq, hcanonical]
  by_cases hnone : merged = []
  · rw [if_pos hnone]
    obtain rfl := hsame hnone
    exact ⟨⟨canonical, rfl, hkey⟩, Or.inl ⟨hiff.1 hnone, rfl, hquot⟩⟩
  · rw [if_neg hnone]
    refine ⟨⟨canonical, rfl, hkey⟩, Or.inr ⟨?_, { g' with version := g'.version + 1 }, ?_⟩⟩
    · by_contra hall
      refine hnone (hiff.2 fun d hd => ?_)
      by_contra hd'
      rw [not_or, not_not] at hd'
      exact hall ⟨d, hd, hd'⟩
    · exact ⟨⟨hquot.entities, hquot.relationIds, hquot.relations⟩, congrArg (· + 1) hversion, hid,
        hname, rfl, rfl, rfl⟩

/-- The graph after a merge, whether it wrote one or not. -/
theorem getGraph_merged (hg : e.getGraph graphId = some g) (hc : c ∈ g.entities.keys)
    (dups : List String) : ∃ g', (e.mergeEntities graphId c dups).2.getGraph graphId = some g' ∧
      Quotient g g' c dups := by
  obtain ⟨-, ⟨-, hsame, hquot⟩ | ⟨-, g', hm⟩⟩ := mergeEntities_spec hg hc dups
  · exact ⟨g, by rw [hsame]; exact hg, hquot⟩
  · have hown : g'.graphId = graphId := hm.graphId.trans (graphId_of_get hg)
    exact ⟨g', by rw [getGraph_of_put hm.graphs, if_pos hown.symm], hm.quotient⟩

end GraphEngine

open GraphEngine in
/-- **Merging is a quotient.** `merge_entities` returns the canonical entity, removes exactly the
duplicates that are there but the canonical one, keeps the ids of the relations and maps their
ends by `collapse`. So both ends of every relation are still entities, and where `find_path` found
a path it finds one between the images. -/
theorem merge_quotient (e : GraphEngine) (graphId canonicalId : String) (duplicateIds : List String)
    (g : KnowledgeGraph) (hg : e.getGraph graphId = some g) (hs : g.Sound)
    (hc : canonicalId ∈ g.entities.keys) :
    ∃ x e' g', e.mergeEntities graphId canonicalId duplicateIds = (.ok x, e') ∧
      e'.getGraph graphId = some g' ∧ x.entityId = canonicalId ∧
      Quotient g g' canonicalId duplicateIds ∧ g'.Sound ∧
      ∀ x y, (e.findPath graphId x y).isSome →
        (e'.findPath graphId (collapse g canonicalId duplicateIds x)
          (collapse g canonicalId duplicateIds y)).isSome := by
  obtain ⟨⟨x, hx, hkey⟩, -⟩ := mergeEntities_spec hg hc duplicateIds
  obtain ⟨g', hg', hquot⟩ := getGraph_merged hg hc duplicateIds
  refine ⟨x, _, g', Prod.ext hx rfl, hg', hkey, hquot, hquot.sound hc hs, fun a b hpath => ?_⟩
  obtain ⟨ha, hb, hreach⟩ := (findPath_isSome_iff hg).1 hpath
  have himage : ∀ k ∈ g.entities.keys, collapse g canonicalId duplicateIds k ∈ g'.entities.keys :=
    fun k hk => (hquot.entities _).2 (collapse_mem hc duplicateIds hk)
  exact (findPath_isSome_iff hg').2 ⟨himage a ha, himage b hb, hquot.reaches hreach⟩

/-! ## Two relations in a row -/

namespace Chain

def graph : KnowledgeGraph where
  graphId := "g"
  name := "chain"
  entities :=
    [{ entityId := "a", name := "A", type := .concept },
      { entityId := "b", name := "B", type := .concept },
      { entityId := "c", name := "C", type := .concept }].foldl Index.put ∅
  relations :=
    [{ relationId := "r", sourceId := "a", targetId := "b", type := .similarTo },
      { relationId := "s", sourceId := "b", targetId := "c", type := .similarTo }].foldl Index.put ∅

def engine : GraphEngine := { graphs := Index.put ∅ graph }

def env : GraphEnv where
  uuid := IdSource.longer
  lower s := s

end Chain

theorem merge_quotient_chain : ∃ x e' g',
    Chain.engine.mergeEntities "g" "a" ["b", "a", "z", "b"] = (.ok x, e') ∧
      e'.getGraph "g" = some g' ∧ x.entityId = "a" ∧
      GraphEngine.Quotient Chain.graph g' "a" ["b", "a", "z", "b"] ∧ g'.Sound ∧
      ∀ x y, (Chain.engine.findPath "g" x y).isSome →
        (e'.findPath "g" (GraphEngine.collapse Chain.graph "a" ["b", "a", "z", "b"] x)
          (GraphEngine.collapse Chain.graph "a" ["b", "a", "z", "b"] y)).isSome :=
  merge_quotient Chain.engine "g" "a" ["b", "a", "z", "b"] Chain.graph rfl (by decide) (by decide)

end Hermes

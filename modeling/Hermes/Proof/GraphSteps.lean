import Hermes.Spec.SimilarityGraph
import Hermes.Proof.StoredEntities

/-!
# The steps of a similarity graph

What each operation does to the nodes and the edges, with the database as the index of the entities
that were saved.

* `correct_iff`: a graph is correct when each pair of nodes has the edges that it should.
* `links_addNode`: the edges after a node is added.
* `mem_nodes_load`, `edgesOf_load`: the nodes and the edges after a load.
* `mem_toPersist`: what is saved.
-/

namespace Hermes

namespace SimilarityGraph

variable {E S δ : Type} [LinearOrder S] {G : GraphSetup E S δ} {g : SimilarityGraph E S}

/-- Two ids of nodes that should be joined. -/
def Joined (G : GraphSetup E S δ) (g : SimilarityGraph E S) (u v : String) : Prop :=
  ∃ a b, g.nodes.get? u = some a ∧ g.nodes.get? v = some b ∧ Similar G a b

theorem Similar.symm (hsym : G.Symmetric) {a b : ChunkNode E} (h : Similar G a b) :
    Similar G b a := by
  obtain ⟨hne, hdomain, hscore⟩ := h
  exact ⟨hne.symm, hdomain.symm, hsym a.embedding b.embedding ▸ hscore⟩

theorem not_joined_self (u : String) : ¬ Joined G g u u := by
  rintro ⟨a, b, ha, hb, hne, -⟩
  exact hne (congrArg ChunkNode.id (Option.some.inj (ha.symm.trans hb)))

/-- **A graph is correct** when its edges are those between similar nodes, each once. -/
theorem correct_iff (hsym : G.Symmetric) :
    Correct G g ↔ ∀ u v, (g.links u v ≠ 0 ↔ Joined G g u v) ∧ g.links u v ≤ 1 := by
  constructor
  · rintro ⟨-, -, -, hexact, honce⟩ u v
    exact ⟨hexact u v, honce u v⟩
  · intro h
    refine ⟨fun u => ?_, fun u v huv => ?_, fun u v huv => ?_, fun u v => (h u v).1,
      fun u v => (h u v).2⟩
    · by_contra hne
      exact not_joined_self u ((h u u).1.1 hne)
    · obtain ⟨a, b, ha, hb, hab⟩ := (h u v).1.1 huv
      exact (h v u).1.2 ⟨b, a, hb, ha, hab.symm hsym⟩
    · obtain ⟨a, b, ha, hb, -, hdomain, -⟩ := (h u v).1.1 huv
      exact ⟨a, b, ha, hb, hdomain⟩

omit [LinearOrder S] in
theorem links_ne_zero {u v : String} :
    g.links u v ≠ 0 ↔ ∃ r ∈ g.edgesOf u, r.targetId = v := by
  unfold links
  rw [← Nat.pos_iff_ne_zero, List.countP_pos_iff]
  simp

omit [LinearOrder S] in
theorem mem_nodes {n : ChunkNode E} : n ∈ g.nodes.values ↔ g.nodes.get? n.id = some n :=
  Index.mem_values

omit [LinearOrder S] in
theorem mem_nodes_of_get? {u : String} {n : ChunkNode E} (h : g.nodes.get? u = some n) :
    n ∈ g.nodes.values ∧ n.id = u := by
  have hid := Index.key_of_get? h
  refine ⟨mem_nodes.2 ?_, hid⟩
  rw [hid]
  exact h

/-! ## A node is added -/

/-- The nodes that are found similar. -/
theorem mem_findSimilar {embedding : E} {w id : String} :
    id ∈ (g.findSimilar G embedding (some w)).map Prod.fst ↔
      ∃ n, g.nodes.get? id = some n ∧ n.domain = w ∧
        G.threshold ≤ G.score embedding n.embedding := by
  unfold findSimilar
  simp only [List.mem_map, List.mem_mergeSort, List.mem_filter, Option.all_some]
  constructor
  · rintro ⟨t, ⟨⟨n, ⟨hn, hdomain⟩, rfl⟩, hscore⟩, rfl⟩
    exact ⟨n, mem_nodes.1 hn, of_decide_eq_true hdomain, of_decide_eq_true hscore⟩
  · rintro ⟨n, hn, hdomain, hscore⟩
    obtain ⟨hmem, rfl⟩ := mem_nodes_of_get? hn
    exact ⟨_, ⟨⟨n, ⟨hmem, decide_eq_true hdomain⟩, rfl⟩, decide_eq_true hscore⟩, rfl⟩

theorem nodup_findSimilar (embedding : E) (w : Option String) :
    ((g.findSimilar G embedding w).map Prod.fst).Nodup := by
  unfold findSimilar
  have hperm := List.mergeSort_perm ((((g.nodes.values.filter fun n => w.all (n.domain = ·)).map
    fun n => (n.id, G.score embedding n.embedding))).filter fun t => G.threshold ≤ t.2)
      fun a b => decide (b.2 ≤ a.2)
  refine (hperm.map Prod.fst).nodup_iff.2 ?_
  have hsub := (List.filter_sublist (p := fun t : String × S => decide (G.threshold ≤ t.2))
    (l := (g.nodes.values.filter fun n => w.all (n.domain = ·)).map
      fun n => (n.id, G.score embedding n.embedding))).map Prod.fst
  refine List.Nodup.sublist hsub ?_
  rw [List.map_map]
  exact (Index.nodup_keys g.nodes).sublist (List.filter_sublist.map _)

/-- The two ends of a relation. -/
def ends (r : SimilarTo S) : String × String := (r.sourceId, r.targetId)

omit [LinearOrder S] in
/-- The ends of the relations of a new node: to each similar node, and back. -/
theorem map_ends_newRelations (nodeId w : String) (similar : List (String × S)) :
    ∀ issued, (newRelations G nodeId w similar issued).map ends =
      (similar.map Prod.fst).flatMap fun o => [(nodeId, o), (o, nodeId)] := by
  induction similar with
  | nil => intro issued; rfl
  | cons t similar ih =>
    intro issued
    unfold newRelations
    simp only [List.map_cons, ih, List.flatMap_cons, List.cons_append, List.nil_append]
    rfl

omit [LinearOrder S] in
/-- Their ids are new, and no two of them have the same. -/
theorem ids_newRelations (nodeId w : String) (similar : List (String × S)) : ∀ issued,
    ((newRelations G nodeId w similar issued).map SimilarTo.id).Nodup ∧
      ∀ r ∈ newRelations G nodeId w similar issued, r.id ∉ issued ∧ r.workspaceId = w := by
  induction similar with
  | nil =>
    intro issued
    exact ⟨List.nodup_nil, by simp [newRelations]⟩
  | cons t similar ih =>
    intro issued
    obtain ⟨hnodup, hnew⟩ := ih (G.ids.next (G.ids.next issued :: issued) ::
      G.ids.next issued :: issued)
    have hfirst := G.ids.not_mem issued
    have hsecond := G.ids.not_mem (G.ids.next issued :: issued)
    rw [List.mem_cons, not_or] at hsecond
    unfold newRelations
    refine ⟨?_, fun r hr => ?_⟩
    · refine List.nodup_cons.2 ⟨fun hmem => ?_, List.nodup_cons.2 ⟨fun hmem => ?_, hnodup⟩⟩
      · rcases List.mem_cons.1 hmem with heq | hmem
        · exact hsecond.1 heq.symm
        · obtain ⟨r, hr, hid⟩ := List.mem_map.1 hmem
          refine (hnew r hr).1 ?_
          rw [hid]
          simp
      · obtain ⟨r, hr, hid⟩ := List.mem_map.1 hmem
        refine (hnew r hr).1 ?_
        rw [hid]
        simp
    · rcases List.mem_cons.1 hr with rfl | hr
      · exact ⟨hfirst, rfl⟩
      · rcases List.mem_cons.1 hr with rfl | hr
        · exact ⟨hsecond.2, rfl⟩
        · obtain ⟨hid, hw⟩ := hnew r hr
          refine ⟨fun hmem => hid ?_, hw⟩
          exact List.mem_cons_of_mem _ (List.mem_cons_of_mem _ hmem)

/-- Pairs with one end in common, to others that are distinct. -/
theorem nodup_pairs {n : String} {os : List String} (hos : os.Nodup) (hn : n ∉ os) :
    (os.flatMap fun o => [(n, o), (o, n)]).Nodup := by
  induction os with
  | nil => exact List.nodup_nil
  | cons o os ih =>
    obtain ⟨hfresh, hos⟩ := List.nodup_cons.1 hos
    rw [List.mem_cons, not_or] at hn
    have hrest := ih hos hn.2
    have hout : ∀ p ∈ os.flatMap fun o => [(n, o), (o, n)], p ≠ (n, o) ∧ p ≠ (o, n) := by
      intro p hp
      obtain ⟨o', ho', hp⟩ := List.mem_flatMap.1 hp
      have hne : o' ≠ o := fun h => hfresh (h ▸ ho')
      have hn' : o' ≠ n := fun h => hn.2 (h ▸ ho')
      simp only [List.mem_cons, List.not_mem_nil, or_false] at hp
      rcases hp with rfl | rfl
      · simp [hne, hn.1]
      · simp [hne, hn']
    rw [List.flatMap_cons]
    refine List.nodup_cons.2 ⟨fun hmem => ?_, List.nodup_cons.2 ⟨fun hmem => ?_, hrest⟩⟩
    · rcases List.mem_cons.1 hmem with heq | hmem
      · exact hn.1 (Prod.mk.inj heq).1
      · exact (hout _ hmem).1 rfl
    · exact (hout _ hmem).2 rfl

theorem mem_pairs {n u v : String} {os : List String} :
    (u, v) ∈ (os.flatMap fun o => [(n, o), (o, n)]) ↔ (u = n ∧ v ∈ os) ∨ (v = n ∧ u ∈ os) := by
  simp only [List.mem_flatMap, List.mem_cons, Prod.mk.injEq, List.not_mem_nil, or_false]
  constructor
  · rintro ⟨o, ho, ⟨rfl, rfl⟩ | ⟨rfl, rfl⟩⟩
    · exact .inl ⟨rfl, ho⟩
    · exact .inr ⟨rfl, ho⟩
  · rintro (⟨rfl, hv⟩ | ⟨rfl, hu⟩)
    · exact ⟨v, hv, .inl ⟨rfl, rfl⟩⟩
    · exact ⟨u, hu, .inr ⟨rfl, rfl⟩⟩

/-- The node that is added. -/
def freshNode (G : GraphSetup E S δ) (chunk : EmbeddedChunk E) (issued : List String) : ChunkNode E :=
  nodeOf G chunk (G.ids.next issued)

/-- The ids of the nodes that are similar to it. -/
def similarIds (G : GraphSetup E S δ) (g : SimilarityGraph E S) (chunk : EmbeddedChunk E)
    (issued : List String) : List String :=
  (g.findSimilar G (freshNode G chunk issued).embedding chunk.workspaceId).map Prod.fst

/-- The relations that are added. -/
def freshRelations (G : GraphSetup E S δ) (g : SimilarityGraph E S) (chunk : EmbeddedChunk E)
    (issued : List String) : List (SimilarTo S) :=
  newRelations G (freshNode G chunk issued).id chunk.workspaceId
    (g.findSimilar G (freshNode G chunk issued).embedding chunk.workspaceId)
    ((freshNode G chunk issued).id :: issued)

section AddNode

variable {chunk : EmbeddedChunk E} {issued : List String}

/-- The graph after a node is added. -/
theorem addNode_eq : g.addNode G chunk issued =
    (freshNode G chunk issued,
      { nodes := g.nodes.put (freshNode G chunk issued)
        edges := (freshRelations G g chunk issued).foldl (fun edges r => edges.push r.sourceId r)
          (g.edges.insert (freshNode G chunk issued).id []) },
      (freshRelations G g chunk issued).map SimilarTo.id ++ (freshNode G chunk issued).id :: issued) :=
  rfl

theorem edgesOf_addNode (u : String) : (g.addNode G chunk issued).2.1.edgesOf u =
    (if u = (freshNode G chunk issued).id then [] else g.edgesOf u) ++
      (freshRelations G g chunk issued).filter fun r => r.sourceId = u := by
  rw [addNode_eq]
  unfold edgesOf
  rw [Dict.bucket_foldl_push, Dict.bucket_insert]

/-- The pairs that are joined. -/
theorem map_ends_freshRelations : (freshRelations G g chunk issued).map ends =
    (similarIds G g chunk issued).flatMap fun o =>
      [((freshNode G chunk issued).id, o), (o, (freshNode G chunk issued).id)] :=
  map_ends_newRelations _ _ _ _

theorem nodup_freshIds : ((freshRelations G g chunk issued).map SimilarTo.id).Nodup :=
  (ids_newRelations _ _ _ _).1

theorem get?_addNode (G : GraphSetup E S δ) (g : SimilarityGraph E S) (chunk : EmbeddedChunk E)
    (issued : List String) (u : String) : (g.addNode G chunk issued).2.1.nodes.get? u =
    if u = (freshNode G chunk issued).id then some (freshNode G chunk issued) else g.nodes.get? u := by
  rw [addNode_eq]
  exact Index.get?_put _ _ _

/-- The pairs of the new node. -/
def freshPairs (G : GraphSetup E S δ) (g : SimilarityGraph E S) (chunk : EmbeddedChunk E)
    (issued : List String) : List (String × String) :=
  (similarIds G g chunk issued).flatMap fun o =>
    [((freshNode G chunk issued).id, o), (o, (freshNode G chunk issued).id)]

/-- **The edges after a node is added.** -/
theorem links_addNode (hn : (freshNode G chunk issued).id ∉ similarIds G g chunk issued)
    (u v : String) : (g.addNode G chunk issued).2.1.links u v =
      (if u = (freshNode G chunk issued).id then 0 else g.links u v) +
        if (u, v) ∈ freshPairs G g chunk issued then 1 else 0 := by
  have hcount : ((freshRelations G g chunk issued).filter fun r => r.sourceId = u).countP
      (fun r => r.targetId = v) = (freshPairs G g chunk issued).count (u, v) := by
    unfold freshPairs
    rw [← map_ends_freshRelations, List.countP_filter, List.count, List.countP_map]
    refine List.countP_congr fun r _ => ?_
    simp [ends, and_comm]
  have hnodup : (freshPairs G g chunk issued).Nodup :=
    nodup_pairs (nodup_findSimilar _ _) hn
  unfold links
  rw [edgesOf_addNode, List.countP_append, hcount]
  congr 1
  · split
    · rfl
    · rfl
  · split
    · next hmem => exact List.count_eq_one_of_mem hnodup hmem
    · next hmem => exact List.count_eq_zero.2 hmem

theorem mem_similarIds {id : String} : id ∈ similarIds G g chunk issued ↔
    ∃ b, g.nodes.get? id = some b ∧ b.domain = (freshNode G chunk issued).domain ∧
      G.threshold ≤ G.score (freshNode G chunk issued).embedding b.embedding :=
  mem_findSimilar

/-- **Which nodes should be joined** after a node is added. -/
theorem joined_addNode (hsym : G.Symmetric)
    (hnew : g.nodes.get? (freshNode G chunk issued).id = none) (u v : String) :
    Joined G (g.addNode G chunk issued).2.1 u v ↔
      (u ≠ (freshNode G chunk issued).id ∧ Joined G g u v) ∨
        (u, v) ∈ freshPairs G g chunk issued := by
  have hnone : ∀ id b, g.nodes.get? id = some b → id ≠ (freshNode G chunk issued).id := by
    rintro id b hb rfl
    rw [hnew] at hb
    cases hb
  unfold Joined freshPairs
  rw [get?_addNode, get?_addNode, mem_pairs, mem_similarIds, mem_similarIds]
  constructor
  · rintro ⟨a, b, ha, hb, hab⟩
    -- who of the two is the new node
    by_cases hu : u = (freshNode G chunk issued).id
    · rw [if_pos hu, Option.some.injEq] at ha
      subst ha
      by_cases hv : v = (freshNode G chunk issued).id
      · rw [if_pos hv, Option.some.injEq] at hb
        exact absurd (congrArg ChunkNode.id hb) hab.1
      · rw [if_neg hv] at hb
        exact .inr (.inl ⟨hu, b, hb, hab.2.1.symm, hab.2.2⟩)
    · rw [if_neg hu] at ha
      by_cases hv : v = (freshNode G chunk issued).id
      · rw [if_pos hv, Option.some.injEq] at hb
        subst hb
        obtain ⟨-, hdomain, hscore⟩ := hab
        exact .inr (.inr ⟨hv, a, ha, hdomain, hsym a.embedding _ ▸ hscore⟩)
      · rw [if_neg hv] at hb
        exact .inl ⟨hu, a, b, ha, hb, hab⟩
  · rintro (⟨hu, a, b, ha, hb, hab⟩ | ⟨hu, b, hb, hdomain, hscore⟩ | ⟨hv, a, ha, hdomain, hscore⟩)
    · rw [if_neg hu, if_neg (hnone v b hb)]
      exact ⟨a, b, ha, hb, hab⟩
    · have hv := hnone v b hb
      rw [if_pos hu, if_neg hv]
      refine ⟨_, b, rfl, hb, ?_, hdomain.symm, hscore⟩
      rw [(mem_nodes_of_get? hb).2]
      exact Ne.symm hv
    · have hu := hnone u a ha
      rw [if_neg hu, if_pos hv]
      refine ⟨a, _, ha, rfl, ?_, hdomain, hsym _ a.embedding ▸ hscore⟩
      rw [(mem_nodes_of_get? ha).2]
      exact hu

/-- **A node is added** to a correct graph. -/
theorem correct_addNode (hsym : G.Symmetric) (hg : Correct G g)
    (hnew : g.nodes.get? (freshNode G chunk issued).id = none) :
    Correct G (g.addNode G chunk issued).2.1 := by
  rw [correct_iff hsym] at hg ⊢
  have hnone : ∀ id b, g.nodes.get? id = some b → id ≠ (freshNode G chunk issued).id := by
    rintro id b hb rfl
    rw [hnew] at hb
    cases hb
  have hn : (freshNode G chunk issued).id ∉ similarIds G g chunk issued := by
    intro hmem
    obtain ⟨b, hb, -⟩ := mem_similarIds.1 hmem
    exact hnone _ b hb rfl
  intro u v
  obtain ⟨hexact, honce⟩ := hg u v
  rw [joined_addNode hsym hnew, links_addNode hn]
  by_cases hu : u = (freshNode G chunk issued).id
  · rw [if_pos hu]
    by_cases hmem : (u, v) ∈ freshPairs G g chunk issued
    · simp [hmem]
    · rw [if_neg hmem]
      refine ⟨iff_of_false (by simp) ?_, by omega⟩
      rintro (⟨hne, -⟩ | h)
      · exact hne hu
      · exact hmem h
  · rw [if_neg hu]
    by_cases hmem : (u, v) ∈ freshPairs G g chunk issued
    · -- no edge went to the new node before
      have hzero : g.links u v = 0 := by
        by_contra hne
        obtain ⟨a, b, -, hb, -⟩ := hexact.1 hne
        rcases mem_pairs.1 hmem with ⟨hu', -⟩ | ⟨hv, -⟩
        · exact hu hu'
        · exact hnone v b hb hv
      simp [hmem, hzero]
    · rw [if_neg hmem, Nat.add_zero, hexact]
      refine ⟨?_, honce⟩
      constructor
      · intro h
        exact .inl ⟨hu, h⟩
      · rintro (⟨-, h⟩ | h)
        · exact h
        · exact absurd h hmem

end AddNode

/-! ## Saving and loading -/

omit [LinearOrder S] in
/-- **What is saved**: the nodes of the workspace, with their edges. -/
theorem mem_toPersist {w : String} {e : GraphEntity E S} : e ∈ g.toPersist w ↔
    ∃ n ∈ g.nodes.values, n.domain = w ∧
      (e = .node n ∨ ∃ r ∈ g.edgesOf n.id, e = .relation r) := by
  unfold toPersist
  simp only [List.mem_flatMap, List.mem_filter, decide_eq_true_eq, List.mem_cons, List.mem_map,
    and_assoc, eq_comm (a := e)]

variable {ns : List (ChunkNode E)} {rs : List (SimilarTo S)}

omit [LinearOrder S] in
/-- The nodes after a load. -/
theorem mem_nodes_load (g : SimilarityGraph E S) (ns : List (ChunkNode E)) (rs : List (SimilarTo S))
    (hone : ∀ a b, a ∈ ns ∨ a ∈ g.nodes.values → b ∈ ns ∨ b ∈ g.nodes.values →
    a.id = b.id → a = b) (n : ChunkNode E) :
    n ∈ (g.load ns rs).nodes.values ↔ n ∈ ns ∨ n ∈ g.nodes.values :=
  Index.mem_values_foldl_put ns g.nodes hone n

omit [LinearOrder S] in
/-- **The edges after a load**: the saved ones take the place of those of their source. -/
theorem edgesOf_load (g : SimilarityGraph E S) (ns : List (ChunkNode E)) (rs : List (SimilarTo S))
    (hsource : ∀ r ∈ rs, ∃ n ∈ ns, n.id = r.sourceId) (u : String) :
    (g.load ns rs).edgesOf u =
      if ∃ r ∈ rs, r.sourceId = u then rs.filter fun r => r.sourceId = u else g.edgesOf u := by
  have hfold : ns.foldl (fun edges n => edges.ensure n.id) g.edges =
      (ns.map ChunkNode.id).foldl Dict.ensure g.edges := by
    rw [List.foldl_map]
  obtain ⟨hbucket, hsome⟩ := Dict.foldl_ensure (ns.map ChunkNode.id) u g.edges
  unfold edgesOf load
  dsimp only
  rw [hfold, Dict.bucket_foldl_replace, hbucket, Dict.get?_groupBy]
  by_cases hex : ∃ r ∈ rs, r.sourceId = u
  · obtain ⟨r, hr, rfl⟩ := hex
    obtain ⟨n, hn, hid⟩ := hsource r hr
    have hkey : r.sourceId ∈ ns.map ChunkNode.id := hid ▸ List.mem_map_of_mem hn
    rw [if_pos (hsome.2 (.inl hkey)), if_pos ⟨r, hr, rfl⟩, if_pos ⟨r, hr, rfl⟩]
    rfl
  · rw [if_neg hex, if_neg hex]
    split
    · rfl
    · rfl

end SimilarityGraph

end Hermes

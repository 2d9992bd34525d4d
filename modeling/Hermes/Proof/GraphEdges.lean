import Hermes.Lib.History
import Hermes.Proof.GraphSteps

/-!
# The edges of a similarity graph that is saved and loaded

Edges are made in both directions when a node is added, and restored per source: where a node has
saved edges, those are all that a load leaves it, and a node that was not saved is not joined with
those that come from the database.

* `GraphInv`: what is in the graph and in the database belongs together.
* `correct_load_iff`: when a load leaves a correct graph.
* `similarity_graph_iff`: any sequence of operations.
-/

namespace Hermes

namespace GraphWorld

open SimilarityGraph

variable {E S δ : Type} [LinearOrder S] {G : GraphSetup E S δ} {s : GraphWorld E S δ}

omit [LinearOrder S] in
/-- An entity that the database gives for its id. -/
def Saved (G : GraphSetup E S δ) (s : GraphWorld E S δ) (e : GraphEntity E S) : Prop :=
  s.db.get G.codec e.id = some (.ok e)

/-- A load leaves a correct graph: each edge between nodes that are then there is saved, unless both
nodes are in the graph and no edge of its source is saved. -/
def LoadComplete (G : GraphSetup E S δ) (s : GraphWorld E S δ) : GraphStep E → Prop
  | .loadFromDb w => ∀ a b : ChunkNode E,
    (a ∈ s.graph.nodes.values ∨ Saved G s (.node a)) →
    (b ∈ s.graph.nodes.values ∨ Saved G s (.node b)) →
    a.workspaceId = w → b.workspaceId = w → Similar G a b →
      (∃ r, Saved G s (.relation r) ∧ r.sourceId = a.id ∧ r.targetId = b.id) ∨
        (a ∈ s.graph.nodes.values ∧ b ∈ s.graph.nodes.values ∧
          ∀ r, Saved G s (.relation r) → r.sourceId ≠ a.id)
  | _ => True

omit [LinearOrder S] in
/-- An entity that is in the graph. -/
inductive InGraph (g : SimilarityGraph E S) : GraphEntity E S → Prop where
  | node {n} (mem : n ∈ g.nodes.values) : InGraph g (.node n)
  | relation {u r} (mem : r ∈ g.edgesOf u) : InGraph g (.relation r)

omit [LinearOrder S] in
/-- An entity that is in the graph, or in the database. -/
def Known (s : GraphWorld E S δ) (x : Index G.codec.id) (e : GraphEntity E S) : Prop :=
  InGraph s.graph e ∨ e ∈ x.values

/-- What is known of the graph and of its database: ids and pairs of ends have one entity, relations
are between similar nodes, and the ends of a saved relation are saved. -/
structure GraphInv (G : GraphSetup E S δ) (s : GraphWorld E S δ) (x : Index G.codec.id) : Prop where
  stores : s.db.Stores G.codec x
  one : ∀ e e', Known s x e → Known s x e' → e.id = e'.id → e = e'
  issued : ∀ e, Known s x e → e.id ∈ s.issued
  ends : ∀ r, Known s x (.relation r) → r.sourceId ∈ s.issued ∧ r.targetId ∈ s.issued
  pair : ∀ r r', Known s x (.relation r) → Known s x (.relation r') →
    r.sourceId = r'.sourceId → r.targetId = r'.targetId → r = r'
  between : ∀ r a b, Known s x (.relation r) → Known s x (.node a) → Known s x (.node b) →
    a.id = r.sourceId → b.id = r.targetId → Similar G a b ∧ a.workspaceId = r.workspaceId
  domain : ∀ n, Known s x (.node n) → n.domain = n.workspaceId
  source : ∀ u, ∀ r ∈ s.graph.edgesOf u, r.sourceId = u
  savedEnds : ∀ r, .relation r ∈ x.values →
    ∃ a b, .node a ∈ x.values ∧ .node b ∈ x.values ∧ a.id = r.sourceId ∧ b.id = r.targetId

variable {x : Index G.codec.id}

omit [LinearOrder S] in
/-- What is saved is what the database gives. -/
theorem saved_iff (hrt : G.RoundTrips) (h : s.db.Stores G.codec x) (e : GraphEntity E S) :
    Saved G s e ↔ e ∈ x.values := by
  have hlook := Dict.Aligned.get? h e.id
  have hx : x.dict.get? e.id = x.get? e.id := rfl
  have hmem := Index.mem_values (x := x) (v := e)
  unfold Saved PersistenceRegistry.get
  rw [hmem]
  have hdb : s.db.entities.get? e.id = s.db.entities.dict.get? e.id := rfl
  have hself : x.get? (G.codec.id e) = x.dict.get? e.id := rfl
  rw [hdb, hself]
  cases hget : x.dict.get? e.id with
  | none =>
    rw [hget] at hlook
    cases hrow : s.db.entities.dict.get? e.id with
    | none => simp
    | some row =>
      rw [hrow] at hlook
      cases hlook
  | some e' =>
    rw [hget] at hlook
    cases hrow : s.db.entities.dict.get? e.id with
    | none =>
      rw [hrow] at hlook
      cases hlook
    | some row =>
      rw [hrow] at hlook
      cases hlook with
      | some hr =>
        have hback : G.codec.rehydrate row.type row.data = .ok e' := by
          rw [hr]
          exact hrt e'
        rw [Option.map_some, hback]
        simp

/-- The same entities, or fewer, are known after a step that gives out no id. -/
theorem GraphInv.mono (h : GraphInv G s x) {s' : GraphWorld E S δ} {x' : Index G.codec.id}
    (hissued : s'.issued = s.issued) (hstores : s'.db.Stores G.codec x')
    (hknown : ∀ e, Known s' x' e → Known s x e)
    (hsource : ∀ u, ∀ r ∈ s'.graph.edgesOf u, r.sourceId = u)
    (hsaved : ∀ r, .relation r ∈ x'.values →
      ∃ a b, .node a ∈ x'.values ∧ .node b ∈ x'.values ∧ a.id = r.sourceId ∧ b.id = r.targetId) :
    GraphInv G s' x' where
  stores := hstores
  one e e' he he' := h.one e e' (hknown e he) (hknown e' he')
  issued e he := by
    rw [hissued]
    exact h.issued e (hknown e he)
  ends r hr := by
    rw [hissued]
    exact h.ends r (hknown _ hr)
  pair r r' hr hr' := h.pair r r' (hknown _ hr) (hknown _ hr')
  between r a b hr ha hb := h.between r a b (hknown _ hr) (hknown _ ha) (hknown _ hb)
  domain n hn := h.domain n (hknown _ hn)
  source := hsource
  savedEnds := hsaved

/-! ## Saving -/

/-- **A save keeps what is known**, if the graph is correct. -/
theorem graphInv_persist (h : GraphInv G s x) (hg : Correct G s.graph) (w : String) :
    ∃ x', GraphInv G (s.step G (.persistInto w)) x' := by
  have hinGraph : ∀ e ∈ s.graph.toPersist w, InGraph s.graph e := by
    intro e he
    obtain ⟨n, hn, -, rfl | ⟨r, hr, rfl⟩⟩ := mem_toPersist.1 he
    · exact .node hn
    · exact .relation hr
  have hmem : ∀ e, e ∈ ((s.graph.toPersist w).foldl Index.put x).values ↔
      e ∈ s.graph.toPersist w ∨ e ∈ x.values := by
    refine Index.mem_values_foldl_put _ _ fun e e' he he' hid => h.one e e' ?_ ?_ hid
    · exact he.imp_left (hinGraph e)
    · exact he'.imp_left (hinGraph e')
  refine ⟨(s.graph.toPersist w).foldl Index.put x, h.mono rfl (h.stores.saveAll _) ?_ h.source ?_⟩
  · rintro e (he | he)
    · exact .inl he
    · rcases (hmem e).1 he with he | he
      · exact .inl (hinGraph e he)
      · exact .inr he
  · intro r hr
    rcases (hmem _).1 hr with hr | hr
    · obtain ⟨n, hn, hw, hcase⟩ := mem_toPersist.1 hr
      rcases hcase with hnode | ⟨r', hr', heq⟩
      · cases hnode
      · cases heq
        -- the target of an edge is a node of the same workspace, and is saved with it
        have hlink : s.graph.links n.id r.targetId ≠ 0 := links_ne_zero.2 ⟨r, hr', rfl⟩
        obtain ⟨a, b, ha, hb, hab⟩ := hg.sameWorkspace _ _ hlink
        obtain ⟨hb, hbid⟩ := mem_nodes_of_get? hb
        have hna : n = a := Option.some.inj ((mem_nodes.1 hn).symm.trans ha)
        have hbw : b.domain = w := by rw [← hab, ← hna, hw]
        refine ⟨n, b, (hmem _).2 (.inl (mem_toPersist.2 ⟨n, hn, hw, .inl rfl⟩)),
          (hmem _).2 (.inl (mem_toPersist.2 ⟨b, hb, hbw, .inl rfl⟩)), ?_, hbid⟩
        exact (h.source _ r hr').symm
    · obtain ⟨a, b, ha, hb, hab⟩ := h.savedEnds r hr
      exact ⟨a, b, (hmem _).2 (.inr ha), (hmem _).2 (.inr hb), hab⟩

/-! ## Loading -/

/-- What a load reads: the nodes and the relations of the workspace, the relations once each. -/
structure Reads (x : Index G.codec.id) (w : String) (ns : List (ChunkNode E))
    (rs : List (SimilarTo S)) : Prop where
  nodes : ∀ n, n ∈ ns ↔ .node n ∈ x.values ∧ n.workspaceId = w
  relations : ∀ r, r ∈ rs ↔ .relation r ∈ x.values ∧ r.workspaceId = w
  nodup : rs.Nodup

omit [LinearOrder S] in
/-- **The queries of a load**, where what is written is read back. -/
theorem load_reads (hrt : G.RoundTrips) (h : s.db.Stores G.codec x) (w : String) :
    ∃ ns rs, Reads x w ns rs ∧ (s.graph.loadFromDb G s.db w).2 = s.graph.load ns rs := by
  obtain ⟨es, hes, hperm⟩ := h.list hrt w "KnowledgeNode" (by decide)
  obtain ⟨es', hes', hperm'⟩ := h.list hrt w "Relation" (by decide)
  have hx : x.values.Nodup := (Index.nodup_keys x).of_map
  refine ⟨es.filterMap GraphEntity.node?, es'.filterMap GraphEntity.relation?, ⟨?_, ?_, ?_⟩, ?_⟩
  · intro n
    rw [List.mem_filterMap]
    constructor
    · rintro ⟨e, he, hnode⟩
      cases e with
      | relation r => cases hnode
      | node n' =>
        cases hnode
        have hmem := hperm.mem_iff.1 he
        simp only [List.mem_filter, decide_eq_true_eq] at hmem
        exact ⟨hmem.1, hmem.2.1⟩
    · rintro ⟨hn, hw⟩
      refine ⟨.node n, hperm.mem_iff.2 ?_, rfl⟩
      simp only [List.mem_filter, decide_eq_true_eq]
      exact ⟨hn, hw, rfl⟩
  · intro r
    rw [List.mem_filterMap]
    constructor
    · rintro ⟨e, he, hrelation⟩
      cases e with
      | node n => cases hrelation
      | relation r' =>
        cases hrelation
        have hmem := hperm'.mem_iff.1 he
        simp only [List.mem_filter, decide_eq_true_eq] at hmem
        exact ⟨hmem.1, hmem.2.1⟩
    · rintro ⟨hr, hw⟩
      refine ⟨.relation r, hperm'.mem_iff.2 ?_, rfl⟩
      simp only [List.mem_filter, decide_eq_true_eq]
      exact ⟨hr, hw, rfl⟩
  · have hes'nodup : es'.Nodup := hperm'.nodup_iff.2 (hx.filter _)
    refine hes'nodup.filterMap ?_
    intro e e' r he he'
    cases e with
    | node n => cases he
    | relation a =>
      cases e' with
      | node n => cases he'
      | relation b =>
        cases he
        cases he'
        rfl
  · unfold loadFromDb
    rw [hes, hes']

/-- The source of a relation that is read is a node that is read. -/
theorem Reads.source {w : String} {ns : List (ChunkNode E)} {rs : List (SimilarTo S)}
    (hreads : Reads x w ns rs) (h : GraphInv G s x) :
    ∀ r ∈ rs, ∃ a ∈ ns, ∃ b ∈ ns, a.id = r.sourceId ∧ b.id = r.targetId ∧ Similar G a b := by
  intro r hr
  obtain ⟨hsaved, hw⟩ := (hreads.relations r).1 hr
  obtain ⟨a, b, ha, hb, hsource, htarget⟩ := h.savedEnds r hsaved
  obtain ⟨hab, haw⟩ := h.between r a b (.inr hsaved) (.inr ha) (.inr hb) hsource htarget
  have hbw : b.workspaceId = w := by
    rw [← h.domain b (.inr hb), ← hab.2.1, h.domain a (.inr ha), haw, hw]
  exact ⟨a, (hreads.nodes a).2 ⟨ha, haw.trans hw⟩, b, (hreads.nodes b).2 ⟨hb, hbw⟩, hsource,
    htarget, hab⟩

omit [LinearOrder S] in
/-- A node of the graph, or one that is read, is known. -/
theorem Reads.known {w : String} {ns : List (ChunkNode E)} {rs : List (SimilarTo S)}
    (hreads : Reads x w ns rs) {n : ChunkNode E} (hn : n ∈ ns ∨ n ∈ s.graph.nodes.values) :
    Known s x (.node n) := by
  rcases hn with hn | hn
  · exact .inr ((hreads.nodes n).1 hn).1
  · exact .inl (.node hn)

theorem GraphInv.node_eq (h : GraphInv G s x) {a b : ChunkNode E} (ha : Known s x (.node a))
    (hb : Known s x (.node b)) (hid : a.id = b.id) : a = b := by
  have heq := h.one _ _ ha hb hid
  cases heq
  rfl

/-- The workspace of a saved relation is that of its source. -/
theorem GraphInv.saved_workspace (h : GraphInv G s x) {r : SimilarTo S} {a : ChunkNode E}
    (hr : .relation r ∈ x.values) (ha : Known s x (.node a)) (hid : r.sourceId = a.id) :
    r.workspaceId = a.workspaceId := by
  obtain ⟨a', b', ha', hb', hsource, htarget⟩ := h.savedEnds r hr
  obtain ⟨-, hw⟩ := h.between r a' b' (.inr hr) (.inr ha') (.inr hb') hsource htarget
  rw [h.node_eq ha (.inr ha') (hid.symm.trans hsource.symm), hw]

theorem joined_iff_mem {g : SimilarityGraph E S} {u v : String} : Joined G g u v ↔
    ∃ a ∈ g.nodes.values, ∃ b ∈ g.nodes.values, a.id = u ∧ b.id = v ∧ Similar G a b := by
  constructor
  · rintro ⟨a, b, ha, hb, hab⟩
    obtain ⟨ha, hu⟩ := mem_nodes_of_get? ha
    obtain ⟨hb, hv⟩ := mem_nodes_of_get? hb
    exact ⟨a, ha, b, hb, hu, hv, hab⟩
  · rintro ⟨a, ha, b, hb, rfl, rfl, hab⟩
    exact ⟨a, b, mem_nodes.1 ha, mem_nodes.1 hb, hab⟩

omit [LinearOrder S] in
/-- No more than one value satisfies `p`. -/
theorem countP_le_one {α : Type} {p : α → Bool} {l : List α} (hnodup : l.Nodup)
    (hone : ∀ a ∈ l, ∀ b ∈ l, p a → p b → a = b) : l.countP p ≤ 1 := by
  rw [List.countP_eq_length_filter]
  have hfilter : (l.filter p).Nodup := hnodup.filter p
  rcases hl : l.filter p with _ | ⟨a, _ | ⟨b, rest⟩⟩
  · simp
  · simp
  · have ha : a ∈ l.filter p := by rw [hl]; simp
    have hb : b ∈ l.filter p := by rw [hl]; simp
    rw [List.mem_filter] at ha hb
    rw [hl, hone a ha.1 b hb.1 ha.2 hb.2] at hfilter
    simp at hfilter

section Load

variable {w : String} {ns : List (ChunkNode E)} {rs : List (SimilarTo S)}

/-- The nodes after a load. -/
theorem Reads.mem_nodes (hreads : Reads x w ns rs) (h : GraphInv G s x) (n : ChunkNode E) :
    n ∈ (s.graph.load ns rs).nodes.values ↔ n ∈ ns ∨ n ∈ s.graph.nodes.values :=
  mem_nodes_load s.graph ns rs (fun _ _ ha hb => h.node_eq (hreads.known ha) (hreads.known hb)) n

/-- The edges after a load. -/
theorem Reads.edgesOf (hreads : Reads x w ns rs) (h : GraphInv G s x) (u : String) :
    (s.graph.load ns rs).edgesOf u =
      if ∃ r ∈ rs, r.sourceId = u then rs.filter fun r => r.sourceId = u
      else s.graph.edgesOf u := by
  refine edgesOf_load s.graph ns rs (fun r hr => ?_) u
  obtain ⟨a, ha, -, -, hid, -⟩ := hreads.source h r hr
  exact ⟨a, ha, hid⟩

/-- A node that is there after a load was in the graph, or is saved. -/
theorem Reads.held (hreads : Reads x w ns rs) (hrt : G.RoundTrips) (h : GraphInv G s x)
    {n : ChunkNode E} (hn : n ∈ (s.graph.load ns rs).nodes.values) :
    n ∈ s.graph.nodes.values ∨ Saved G s (.node n) := by
  rcases (hreads.mem_nodes h n).1 hn with hn | hn
  · exact .inr ((saved_iff hrt h.stores _).2 ((hreads.nodes n).1 hn).1)
  · exact .inl hn

/-- A relation of the workspace that is saved is read. -/
theorem Reads.mem_relations (hreads : Reads x w ns rs) (hrt : G.RoundTrips) (h : GraphInv G s x)
    {r : SimilarTo S} {a : ChunkNode E} (hr : Saved G s (.relation r)) (ha : Known s x (.node a))
    (haw : a.workspaceId = w) (hid : r.sourceId = a.id) : r ∈ rs := by
  have hrx := (saved_iff hrt h.stores _).1 hr
  exact (hreads.relations r).2 ⟨hrx, (h.saved_workspace hrx ha hid).trans haw⟩

/-- Similar nodes are in one workspace. -/
theorem GraphInv.same_workspace (h : GraphInv G s x) {a b : ChunkNode E} (ha : Known s x (.node a))
    (hb : Known s x (.node b)) (hab : Similar G a b) : b.workspaceId = a.workspaceId := by
  rw [← h.domain a ha, ← h.domain b hb, hab.2.1]

/-- **A correct graph after a load**: the edge of two similar nodes is saved, or was there. -/
theorem loadComplete_of_correct (hsym : G.Symmetric) (hrt : G.RoundTrips) (h : GraphInv G s x)
    (hg : Correct G s.graph) (hreads : Reads x w ns rs)
    (hload : Correct G (s.graph.load ns rs)) : LoadComplete G s (.loadFromDb w) := by
  rw [correct_iff hsym] at hg hload
  have hheld : ∀ n : ChunkNode E, (n ∈ s.graph.nodes.values ∨ Saved G s (.node n)) →
      n.workspaceId = w → n ∈ ns ∨ n ∈ s.graph.nodes.values := by
    rintro n (hn | hn) hw
    · exact .inr hn
    · exact .inl ((hreads.nodes n).2 ⟨(saved_iff hrt h.stores _).1 hn, hw⟩)
  intro a b ha hb haw hbw hab
  have ha' := hheld a ha haw
  have hb' := hheld b hb hbw
  have hknown := hreads.known ha'
  have hlinks := (hload a.id b.id).1.2 (joined_iff_mem.2
    ⟨a, (hreads.mem_nodes h a).2 ha', b, (hreads.mem_nodes h b).2 hb', rfl, rfl, hab⟩)
  obtain ⟨r, hr, htarget⟩ := links_ne_zero.1 hlinks
  rw [hreads.edgesOf h] at hr
  by_cases hsaved : ∃ r ∈ rs, r.sourceId = a.id
  · rw [if_pos hsaved, List.mem_filter, decide_eq_true_eq] at hr
    have hrsaved := ((hreads.relations r).1 hr.1).1
    exact .inl ⟨r, (saved_iff hrt h.stores _).2 hrsaved, hr.2, htarget⟩
  · rw [if_neg hsaved] at hr
    obtain ⟨a', ha'', b', hb'', hida, hidb, -⟩ :=
      joined_iff_mem.1 ((hg a.id b.id).1.1 (links_ne_zero.2 ⟨r, hr, htarget⟩))
    rw [h.node_eq (.inl (.node ha'')) hknown hida] at ha''
    rw [h.node_eq (.inl (.node hb'')) (hreads.known hb') hidb] at hb''
    exact .inr ⟨ha'', hb'', fun r hr hid =>
      hsaved ⟨r, hreads.mem_relations hrt h hr hknown haw hid, hid⟩⟩

/-- A source with saved edges: they are all that it has. -/
theorem exact_load_saved (hrt : G.RoundTrips) (h : GraphInv G s x) (hreads : Reads x w ns rs)
    (hcomplete : LoadComplete G s (.loadFromDb w)) {u : String} (hsaved : ∃ r ∈ rs, r.sourceId = u)
    (v : String) :
    ((s.graph.load ns rs).links u v ≠ 0 ↔ Joined G (s.graph.load ns rs) u v) ∧
      (s.graph.load ns rs).links u v ≤ 1 := by
  have hnodes := hreads.mem_nodes h
  have hlinks : (s.graph.load ns rs).links u v =
      (rs.filter fun r => r.sourceId = u).countP fun r => r.targetId = v := by
    unfold links
    rw [hreads.edgesOf h, if_pos hsaved]
  refine ⟨⟨fun hne => ?_, fun hjoined => ?_⟩, ?_⟩
  · rw [hlinks, ← Nat.pos_iff_ne_zero, List.countP_pos_iff] at hne
    obtain ⟨r, hr, htarget⟩ := hne
    rw [List.mem_filter, decide_eq_true_eq] at hr
    obtain ⟨a, ha, b, hb, hida, hidb, hab⟩ := hreads.source h r hr.1
    exact joined_iff_mem.2 ⟨a, (hnodes a).2 (.inl ha), b, (hnodes b).2 (.inl hb),
      hida.trans hr.2, hidb.trans (of_decide_eq_true htarget), hab⟩
  · obtain ⟨a, ha, b, hb, rfl, rfl, hab⟩ := joined_iff_mem.1 hjoined
    have hka := hreads.known ((hnodes a).1 ha)
    have hkb := hreads.known ((hnodes b).1 hb)
    obtain ⟨r, hr, hid⟩ := hsaved
    obtain ⟨hrx, hrw⟩ := (hreads.relations r).1 hr
    have haw : a.workspaceId = w := (h.saved_workspace hrx hka hid).symm.trans hrw
    have hbw : b.workspaceId = w := (h.same_workspace hka hkb hab).trans haw
    rcases hcomplete a b (hreads.held hrt h ha) (hreads.held hrt h hb) haw hbw hab with
      ⟨r', hr', hsource', htarget'⟩ | ⟨-, -, hnone⟩
    · have hmem := hreads.mem_relations hrt h hr' hka haw hsource'
      rw [hlinks, ← Nat.pos_iff_ne_zero, List.countP_pos_iff]
      exact ⟨r', List.mem_filter.2 ⟨hmem, decide_eq_true hsource'⟩, decide_eq_true htarget'⟩
    · exact absurd hid (hnone r ((saved_iff hrt h.stores _).2 hrx))
  · rw [hlinks]
    refine countP_le_one (hreads.nodup.filter _) fun r hr r' hr' hv hv' => ?_
    rw [List.mem_filter, decide_eq_true_eq] at hr hr'
    rw [decide_eq_true_eq] at hv hv'
    exact h.pair r r' (.inr ((hreads.relations r).1 hr.1).1)
      (.inr ((hreads.relations r').1 hr'.1).1) (hr.2.trans hr'.2.symm) (hv.trans hv'.symm)

/-- A source without saved edges keeps those that it has. -/
theorem exact_load_unsaved (hsym : G.Symmetric) (hrt : G.RoundTrips) (h : GraphInv G s x)
    (hg : Correct G s.graph) (hreads : Reads x w ns rs)
    (hcomplete : LoadComplete G s (.loadFromDb w)) {u : String}
    (hsaved : ¬ ∃ r ∈ rs, r.sourceId = u) (v : String) :
    ((s.graph.load ns rs).links u v ≠ 0 ↔ Joined G (s.graph.load ns rs) u v) ∧
      (s.graph.load ns rs).links u v ≤ 1 := by
  have hnodes := hreads.mem_nodes h
  have hlinks : (s.graph.load ns rs).links u v = s.graph.links u v := by
    unfold links
    rw [hreads.edgesOf h, if_neg hsaved]
  obtain ⟨hexact, honce⟩ := (correct_iff hsym).1 hg u v
  rw [hlinks, hexact]
  refine ⟨?_, honce⟩
  rw [joined_iff_mem, joined_iff_mem]
  constructor
  · rintro ⟨a, ha, b, hb, hab⟩
    exact ⟨a, (hnodes a).2 (.inr ha), b, (hnodes b).2 (.inr hb), hab⟩
  · rintro ⟨a, ha, b, hb, rfl, rfl, hab⟩
    have hka := hreads.known ((hnodes a).1 ha)
    have hkb := hreads.known ((hnodes b).1 hb)
    have hbw := h.same_workspace hka hkb hab
    by_cases haw : a.workspaceId = w
    · rcases hcomplete a b (hreads.held hrt h ha) (hreads.held hrt h hb) haw (hbw.trans haw) hab
        with ⟨r, hr, hsource', -⟩ | ⟨ha', hb', -⟩
      · exact absurd ⟨r, hreads.mem_relations hrt h hr hka haw hsource', hsource'⟩ hsaved
      · exact ⟨a, ha', b, hb', rfl, rfl, hab⟩
    · -- nodes of other workspaces are not read
      have hmem : ∀ n : ChunkNode E, n ∈ (s.graph.load ns rs).nodes.values →
          n.workspaceId ≠ w → n ∈ s.graph.nodes.values := by
        intro n hn hne
        rcases (hnodes n).1 hn with hn | hn
        · exact absurd ((hreads.nodes n).1 hn).2 hne
        · exact hn
      exact ⟨a, hmem a ha haw, b, hmem b hb (hbw ▸ haw), rfl, rfl, hab⟩

/-- **A load** leaves a correct graph exactly when the saved edges are complete. -/
theorem correct_load_iff (hsym : G.Symmetric) (hrt : G.RoundTrips) (h : GraphInv G s x)
    (hg : Correct G s.graph) (hreads : Reads x w ns rs) :
    Correct G (s.graph.load ns rs) ↔ LoadComplete G s (.loadFromDb w) := by
  constructor
  · exact loadComplete_of_correct hsym hrt h hg hreads
  · intro hcomplete
    rw [correct_iff hsym]
    intro u v
    by_cases hsaved : ∃ r ∈ rs, r.sourceId = u
    · exact exact_load_saved hrt h hreads hcomplete hsaved v
    · exact exact_load_unsaved hsym hrt h hg hreads hcomplete hsaved v

/-- **A load keeps what is known.** -/
theorem graphInv_load (h : GraphInv G s x) (hreads : Reads x w ns rs) :
    GraphInv G { s with graph := s.graph.load ns rs } x := by
  have hrelation : ∀ u, ∀ r ∈ (s.graph.load ns rs).edgesOf u,
      (r ∈ rs ∧ r.sourceId = u) ∨ r ∈ s.graph.edgesOf u := by
    intro u r hr
    rw [hreads.edgesOf h] at hr
    split at hr
    · rw [List.mem_filter, decide_eq_true_eq] at hr
      exact .inl hr
    · exact .inr hr
  refine h.mono rfl h.stores ?_ ?_ h.savedEnds
  · rintro e (he | he)
    · cases he with
      | node hn => exact hreads.known ((hreads.mem_nodes h _).1 hn)
      | relation hr =>
        rcases hrelation _ _ hr with ⟨hr, -⟩ | hr
        · exact .inr ((hreads.relations _).1 hr).1
        · exact .inl (.relation hr)
    · exact .inr he
  · intro u r hr
    rcases hrelation u r hr with ⟨-, hid⟩ | hr
    · exact hid
    · exact h.source u r hr

end Load

/-! ## Adding a node -/

/-- The ends of a relation that is added, and its id. -/
theorem freshRelations_spec {g : SimilarityGraph E S} {chunk : EmbeddedChunk E}
    {issued : List String} {r : SimilarTo S} (hr : r ∈ freshRelations G g chunk issued) :
    r.id ≠ (freshNode G chunk issued).id ∧ r.id ∉ issued ∧ r.workspaceId = chunk.workspaceId ∧
      ((r.sourceId = (freshNode G chunk issued).id ∧ r.targetId ∈ similarIds G g chunk issued) ∨
        (r.targetId = (freshNode G chunk issued).id ∧
          r.sourceId ∈ similarIds G g chunk issued)) := by
  obtain ⟨hid, hw⟩ := (ids_newRelations _ _ _ _).2 r hr
  rw [List.mem_cons, not_or] at hid
  have hends : SimilarityGraph.ends r ∈ freshPairs G g chunk issued := by
    unfold freshPairs
    rw [← map_ends_freshRelations]
    exact List.mem_map_of_mem hr
  exact ⟨hid.1, hid.2, hw, mem_pairs.1 hends⟩

section AddNode

variable {chunk : EmbeddedChunk E}

omit [LinearOrder S] in
/-- The id of a new node was not given out. -/
theorem freshNode_not_issued (G : GraphSetup E S δ) (s : GraphWorld E S δ)
    (chunk : EmbeddedChunk E) : (freshNode G chunk s.issued).id ∉ s.issued :=
  G.ids.not_mem s.issued

/-- **What is known then**: what was known, the node, and its relations. -/
theorem known_addNode {e : GraphEntity E S} (he : Known (s.step G (.addNode chunk)) x e) :
    Known s x e ∨ e = .node (freshNode G chunk s.issued) ∨
      ∃ r ∈ freshRelations G s.graph chunk s.issued, e = .relation r := by
  rcases he with he | he
  · cases he with
    | node hn =>
      have hget := mem_nodes.1 hn
      have hsame := (get?_addNode G s.graph chunk s.issued _).symm.trans hget
      split at hsame
      · rw [← Option.some.inj hsame]
        exact .inr (.inl rfl)
      · exact .inl (.inl (.node (mem_nodes.2 hsame)))
    | @relation u r hr =>
      have hmem : r ∈ (s.graph.addNode G chunk s.issued).2.1.edgesOf u := hr
      rw [edgesOf_addNode, List.mem_append, List.mem_filter] at hmem
      rcases hmem with hold | ⟨hfresh, -⟩
      · split at hold
        · cases hold
        · exact .inl (.inl (.relation hold))
      · exact .inr (.inr ⟨r, hfresh, rfl⟩)
  · exact .inl (.inr he)

/-- The nodes that the new one is joined with. -/
theorem GraphInv.similar (h : GraphInv G s x) {id : String}
    (hid : id ∈ similarIds G s.graph chunk s.issued) :
    ∃ b, Known s x (.node b) ∧ b.id = id ∧ Similar G (freshNode G chunk s.issued) b ∧
      b.workspaceId = chunk.workspaceId := by
  obtain ⟨b, hb, hdomain, hscore⟩ := mem_similarIds.1 hid
  obtain ⟨hmem, rfl⟩ := mem_nodes_of_get? hb
  have hkb : Known s x (.node b) := .inl (.node hmem)
  have hbissued := h.issued _ hkb
  refine ⟨b, hkb, rfl, ⟨fun heq => freshNode_not_issued G s chunk ?_, hdomain.symm, hscore⟩, ?_⟩
  · rw [heq]
    exact hbissued
  · rw [← h.domain b hkb, hdomain]
    rfl

theorem GraphInv.similar_issued (h : GraphInv G s x) {id : String}
    (hid : id ∈ similarIds G s.graph chunk s.issued) : id ∈ s.issued := by
  obtain ⟨b, hkb, rfl, -⟩ := h.similar hid
  exact h.issued _ hkb

/-- Ids still have one entity. -/
theorem GraphInv.one_addNode (h : GraphInv G s x) {e e' : GraphEntity E S}
    (he : Known (s.step G (.addNode chunk)) x e) (he' : Known (s.step G (.addNode chunk)) x e')
    (hid : e.id = e'.id) : e = e' := by
  have hnew := freshNode_not_issued G s chunk
  rcases known_addNode he with he | rfl | ⟨r, hr, rfl⟩
  · have hold := h.issued e he
    rcases known_addNode he' with he' | rfl | ⟨r', hr', rfl⟩
    · exact h.one e e' he he' hid
    · rw [hid] at hold
      exact absurd hold hnew
    · rw [hid] at hold
      exact absurd hold (freshRelations_spec hr').2.1
  · rcases known_addNode he' with he' | rfl | ⟨r', hr', rfl⟩
    · have hold := h.issued e' he'
      rw [← hid] at hold
      exact absurd hold hnew
    · rfl
    · exact absurd hid.symm (freshRelations_spec hr').1
  · rcases known_addNode he' with he' | rfl | ⟨r', hr', rfl⟩
    · have hold := h.issued e' he'
      rw [← hid] at hold
      exact absurd hold (freshRelations_spec hr).2.1
    · exact absurd hid (freshRelations_spec hr).1
    · rw [List.inj_on_of_nodup_map nodup_freshIds hr hr' hid]

/-- One end of a new relation is the new node. -/
theorem GraphInv.pair_fresh (h : GraphInv G s x) {r r' : SimilarTo S}
    (hr : Known s x (.relation r)) (hr' : r' ∈ freshRelations G s.graph chunk s.issued)
    (hs : r.sourceId = r'.sourceId) (ht : r.targetId = r'.targetId) : False := by
  have hnew := freshNode_not_issued G s chunk
  obtain ⟨hsi, hti⟩ := h.ends r hr
  rcases (freshRelations_spec hr').2.2.2 with ⟨hs', -⟩ | ⟨ht', -⟩
  · rw [hs, hs'] at hsi
    exact hnew hsi
  · rw [ht, ht'] at hti
    exact hnew hti

/-- Pairs of ends still have one relation. -/
theorem GraphInv.pair_addNode (h : GraphInv G s x) {r r' : SimilarTo S}
    (hr : Known (s.step G (.addNode chunk)) x (.relation r))
    (hr' : Known (s.step G (.addNode chunk)) x (.relation r'))
    (hs : r.sourceId = r'.sourceId) (ht : r.targetId = r'.targetId) : r = r' := by
  rcases known_addNode hr with hr | hr | ⟨q, hq, heq⟩
  · rcases known_addNode hr' with hr' | hr' | ⟨q', hq', heq'⟩
    · exact h.pair r r' hr hr' hs ht
    · cases hr'
    · cases heq'
      exact (h.pair_fresh hr hq' hs ht).elim
  · cases hr
  · cases heq
    rcases known_addNode hr' with hr' | hr' | ⟨q', hq', heq'⟩
    · exact (h.pair_fresh hr' hq hs.symm ht.symm).elim
    · cases hr'
    · cases heq'
      have hn : (freshNode G chunk s.issued).id ∉ similarIds G s.graph chunk s.issued :=
        fun hmem => freshNode_not_issued G s chunk (h.similar_issued hmem)
      have hnodup : ((freshRelations G s.graph chunk s.issued).map
          SimilarityGraph.ends).Nodup := by
        rw [map_ends_freshRelations]
        exact nodup_pairs (nodup_findSimilar _ _) hn
      exact List.inj_on_of_nodup_map hnodup hq hq' (Prod.ext hs ht)

/-- A node with an id that was given out was known. -/
theorem known_of_issued {n : ChunkNode E} (hn : Known (s.step G (.addNode chunk)) x (.node n))
    (hold : n.id ∈ s.issued) : Known s x (.node n) := by
  rcases known_addNode hn with hn | hn | ⟨_, _, hn⟩
  · exact hn
  · cases hn
    exact absurd hold (freshNode_not_issued G s chunk)
  · cases hn

/-- The new node is the one with its id. -/
theorem GraphInv.eq_freshNode (h : GraphInv G s x) {n : ChunkNode E}
    (hn : Known (s.step G (.addNode chunk)) x (.node n))
    (hid : n.id = (freshNode G chunk s.issued).id) : n = freshNode G chunk s.issued := by
  rcases known_addNode hn with hn | hn | ⟨_, _, hn⟩
  · exact absurd (hid ▸ h.issued _ hn) (freshNode_not_issued G s chunk)
  · cases hn
    rfl
  · cases hn

/-- Relations are still between similar nodes. -/
theorem GraphInv.between_addNode (hsym : G.Symmetric) (h : GraphInv G s x) {r : SimilarTo S}
    {a b : ChunkNode E} (hr : Known (s.step G (.addNode chunk)) x (.relation r))
    (ha : Known (s.step G (.addNode chunk)) x (.node a))
    (hb : Known (s.step G (.addNode chunk)) x (.node b)) (hs : a.id = r.sourceId)
    (ht : b.id = r.targetId) : Similar G a b ∧ a.workspaceId = r.workspaceId := by
  rcases known_addNode hr with hr | hr | ⟨q, hq, heq⟩
  · obtain ⟨hsi, hti⟩ := h.ends r hr
    exact h.between r a b hr (known_of_issued ha (hs ▸ hsi)) (known_of_issued hb (ht ▸ hti)) hs ht
  · cases hr
  · cases heq
    obtain ⟨-, -, hw, hcase⟩ := freshRelations_spec hq
    rcases hcase with ⟨hs', ht'⟩ | ⟨ht', hs'⟩
    · obtain ⟨b', hkb, hid, hab, -⟩ := h.similar ht'
      have hbold : b.id ∈ s.issued := by
        rw [ht]
        exact h.similar_issued ht'
      have hb' := h.node_eq (known_of_issued hb hbold) hkb (ht.trans hid.symm)
      rw [h.eq_freshNode ha (hs.trans hs'), hb', hw]
      exact ⟨hab, rfl⟩
    · obtain ⟨a', hka, hid, hab, haw⟩ := h.similar hs'
      have haold : a.id ∈ s.issued := by
        rw [hs]
        exact h.similar_issued hs'
      have ha' := h.node_eq (known_of_issued ha haold) hka (hs.trans hid.symm)
      rw [h.eq_freshNode hb (ht.trans ht'), ha', hw]
      exact ⟨hab.symm hsym, haw⟩

/-- **A node that is added** keeps what is known. -/
theorem graphInv_addNode (hsym : G.Symmetric) (h : GraphInv G s x) (chunk : EmbeddedChunk E) :
    GraphInv G (s.step G (.addNode chunk)) x := by
  have hissued : (s.step G (.addNode chunk)).issued =
      (freshRelations G s.graph chunk s.issued).map SimilarTo.id ++
        (freshNode G chunk s.issued).id :: s.issued := rfl
  refine ⟨h.stores, fun e e' he he' hid => h.one_addNode he he' hid, ?_, ?_,
    fun r r' hr hr' hs ht => h.pair_addNode hr hr' hs ht,
    fun r a b hr ha hb hs ht => h.between_addNode hsym hr ha hb hs ht, ?_, ?_, h.savedEnds⟩
  · intro e he
    rw [hissued, List.mem_append, List.mem_cons]
    rcases known_addNode he with he | rfl | ⟨r, hr, rfl⟩
    · exact .inr (.inr (h.issued e he))
    · exact .inr (.inl rfl)
    · exact .inl (List.mem_map_of_mem hr)
  · intro r hr
    rw [hissued]
    simp only [List.mem_append, List.mem_cons]
    rcases known_addNode hr with hr | hr | ⟨r', hr', heq⟩
    · obtain ⟨hs, ht⟩ := h.ends r hr
      exact ⟨.inr (.inr hs), .inr (.inr ht)⟩
    · cases hr
    · cases heq
      rcases (freshRelations_spec hr').2.2.2 with ⟨hs, ht⟩ | ⟨ht, hs⟩
      · exact ⟨.inr (.inl hs), .inr (.inr (h.similar_issued ht))⟩
      · exact ⟨.inr (.inr (h.similar_issued hs)), .inr (.inl ht)⟩
  · intro n hn
    rcases known_addNode hn with hn | hn | ⟨_, _, hn⟩
    · exact h.domain n hn
    · cases hn
      rfl
    · cases hn
  · intro u r hr
    have hmem : r ∈ (s.graph.addNode G chunk s.issued).2.1.edgesOf u := hr
    rw [edgesOf_addNode, List.mem_append, List.mem_filter] at hmem
    rcases hmem with hold | ⟨-, hid⟩
    · split at hold
      · cases hold
      · exact h.source u r hold
    · exact of_decide_eq_true hid

end AddNode

/-! ## Runs -/

theorem correct_empty : Correct G ({} : SimilarityGraph E S) where
  irreflexive _ := rfl
  symmetric _ _ h := absurd rfl h
  sameWorkspace _ _ h := absurd rfl h
  exact u v := by
    refine iff_of_false (fun h => h rfl) ?_
    rintro ⟨a, b, ha, -⟩
    cases ha
  once _ _ := Nat.zero_le 1

theorem graphInv_new (G : GraphSetup E S δ) : GraphInv G ({} : GraphWorld E S δ) ∅ := by
  have hnone : ∀ e, ¬ Known ({} : GraphWorld E S δ) (∅ : Index G.codec.id) e := by
    rintro e (he | he)
    · cases he with
      | node hn => cases hn
      | relation hr => cases hr
    · cases he
  exact ⟨PersistenceRegistry.stores_empty _ _, fun e _ he => absurd he (hnone e),
    fun e he => absurd he (hnone e), fun r hr => absurd hr (hnone _),
    fun r _ hr => absurd hr (hnone _), fun r _ _ hr => absurd hr (hnone _),
    fun n hn => absurd hn (hnone _), nofun, nofun⟩

/-- A new graph on the same database. -/
theorem graphInv_restart (h : GraphInv G s x) : GraphInv G (s.step G .restart) x := by
  refine h.mono rfl h.stores ?_ nofun h.savedEnds
  rintro e (he | he)
  · cases he with
    | node hn => cases hn
    | relation hr => cases hr
  · exact .inr he

/-- **A step keeps what is known**, from a correct graph. -/
theorem graphInv_step (hsym : G.Symmetric) (hrt : G.RoundTrips) (h : GraphInv G s x)
    (hg : Correct G s.graph) (e : GraphStep E) : ∃ x', GraphInv G (s.step G e) x' := by
  cases e with
  | addNode chunk => exact ⟨x, graphInv_addNode hsym h chunk⟩
  | persistInto w => exact graphInv_persist h hg w
  | restart => exact ⟨x, graphInv_restart h⟩
  | loadFromDb w =>
    obtain ⟨ns, rs, hreads, hload⟩ := load_reads hrt h.stores w
    refine ⟨x, ?_⟩
    show GraphInv G { s with graph := (s.graph.loadFromDb G s.db w).2 } x
    rw [hload]
    exact graphInv_load h hreads

/-- **A step keeps the graph correct** exactly when a load finds the edges that it needs. -/
theorem correct_step_iff (hsym : G.Symmetric) (hrt : G.RoundTrips) (h : GraphInv G s x)
    (hg : Correct G s.graph) (e : GraphStep E) :
    Correct G (s.step G e).graph ↔ LoadComplete G s e := by
  cases e with
  | persistInto w => exact iff_of_true hg trivial
  | restart => exact iff_of_true correct_empty trivial
  | addNode chunk =>
    refine iff_of_true (correct_addNode hsym hg ?_) trivial
    cases hget : s.graph.nodes.get? (freshNode G chunk s.issued).id with
    | none => rfl
    | some n =>
      obtain ⟨hn, hid⟩ := mem_nodes_of_get? hget
      have hold := h.issued _ (.inl (.node hn))
      have hsame : (GraphEntity.node n : GraphEntity E S).id = G.ids.next s.issued := hid
      rw [hsame] at hold
      exact absurd hold (G.ids.not_mem s.issued)
  | loadFromDb w =>
    obtain ⟨ns, rs, hreads, hload⟩ := load_reads hrt h.stores w
    show Correct G (s.graph.loadFromDb G s.db w).2 ↔ _
    rw [hload]
    exact correct_load_iff hsym hrt h hg hreads

/-- **The similarity graph invariant**, over any sequence of operations. -/
theorem similarity_graph_iff (G : GraphSetup E S δ) (hsym : G.Symmetric) (hrt : G.RoundTrips)
    (steps : List (GraphStep E)) :
    History.Throughout (step G) (fun s => Correct G s.graph) {} steps ↔
      History.EachStep (step G) (LoadComplete G) {} steps := by
  refine History.throughout_iff_eachStep (A := fun _ _ => True)
    (I := fun s => ∃ x, GraphInv G s x) ?_ ?_ steps {}
    (History.eachStep_of_mem (fun _ _ _ => trivial) _) ⟨∅, graphInv_new G⟩ correct_empty
  · rintro s e - ⟨x, h⟩ hg -
    exact graphInv_step hsym hrt h hg e
  · rintro s e - ⟨x, h⟩ hg
    exact correct_step_iff hsym hrt h hg e

/-- Embeddings that are all alike. -/
def alike : GraphSetup Unit ℕ (GraphEntity Unit ℕ) where
  score _ _ := 1
  threshold := 1
  noEmbedding := ()
  ids := .longer
  dump e := e
  rehydrate _ e := .ok e

/-- A chunk of a workspace. -/
def alikeChunk (id : String) : EmbeddedChunk Unit where
  id := id
  documentId := "notes.md"
  text := "text"
  embedding := some ()
  workspaceId := "w"

/-- Two nodes are added and saved. -/
theorem similarity_graph_saved : History.Throughout (step alike) (fun s => Correct alike s.graph) {}
    [.addNode (alikeChunk "c1"), .addNode (alikeChunk "c2"), .persistInto "w"] :=
  (similarity_graph_iff alike (fun _ _ => rfl) (fun _ => rfl) _).2
    ⟨trivial, trivial, trivial, trivial⟩

/-- The first node of a graph. -/
theorem addNode_empty (G : GraphSetup E S δ) (chunk : EmbeddedChunk E) (issued : List String) :
    ({} : SimilarityGraph E S).addNode G chunk issued =
      (freshNode G chunk issued,
        { nodes := (∅ : Index ChunkNode.id).put (freshNode G chunk issued)
          edges := (∅ : Dict String (List (SimilarTo S))).insert (freshNode G chunk issued).id [] },
        (freshNode G chunk issued).id :: issued) := by
  have hnone : ({} : SimilarityGraph E S).findSimilar G (freshNode G chunk issued).embedding
      (some chunk.workspaceId) = [] := by
    have hvalues : ({} : SimilarityGraph E S).nodes.values = [] := rfl
    unfold findSimilar
    rw [hvalues]
    simp
  rw [addNode_eq]
  unfold freshRelations
  rw [hnone]
  rfl

/-- A node is saved, and loaded into a new graph that has a node already. -/
theorem unlinked_after_load :
    ¬ History.Throughout (step alike) (fun s => Correct alike s.graph) {}
        [.addNode (alikeChunk "c1"), .persistInto "w", .restart, .addNode (alikeChunk "c2"),
          .loadFromDb "w"] := by
  rintro ⟨h0, h1, h2, h3, h4, h5⟩
  have hsym : alike.Symmetric := fun _ _ => rfl
  have hrt : alike.RoundTrips := fun _ => rfl
  obtain ⟨x1, hx1⟩ := graphInv_step hsym hrt (graphInv_new alike) h0 (.addNode (alikeChunk "c1"))
  obtain ⟨x2, hx2⟩ := graphInv_step hsym hrt hx1 h1 (.persistInto "w")
  obtain ⟨x3, hx3⟩ := graphInv_step hsym hrt hx2 h2 .restart
  obtain ⟨x4, hx4⟩ := graphInv_step hsym hrt hx3 h3 (.addNode (alikeChunk "c2"))
  have hcomplete := (correct_step_iff hsym hrt hx4 h4 (.loadFromDb "w")).1 h5
  clear hx1 hx2 hx3 hx4 h0 h1 h2 h3 h4 h5
  unfold LoadComplete at hcomplete
  simp only [step, addNode_empty] at hcomplete
  have hmem : freshNode alike (alikeChunk "c2") [""] ∈
      ((∅ : Index ChunkNode.id).put (freshNode alike (alikeChunk "c2") [""])).values :=
    List.mem_singleton_self _
  rcases hcomplete (freshNode alike (alikeChunk "c1") []) (freshNode alike (alikeChunk "c2") [""])
    (.inr rfl) (.inl hmem) rfl rfl ⟨by decide, rfl, le_rfl⟩ with ⟨r, hr, -⟩ | ⟨ha, -⟩
  · -- the only row is that of a node
    have hlook := Index.get?_put (∅ : Index (EntityRow.id (δ := GraphEntity Unit ℕ)))
      (PersistenceRegistry.row alike.codec (.node (freshNode alike (alikeChunk "c1") []))) r.id
    have hget : (((∅ : Index (EntityRow.id (δ := GraphEntity Unit ℕ))).put
        (PersistenceRegistry.row alike.codec (.node (freshNode alike (alikeChunk "c1") [])))).get?
          r.id).map (fun row => alike.codec.rehydrate row.type row.data) =
        some (.ok (.relation r)) := hr
    rw [hlook] at hget
    split at hget
    · cases hget
    · cases hget
  · have heq := congrArg ChunkNode.id (List.mem_singleton.1 ha)
    revert heq
    decide

end GraphWorld

end Hermes

import Mathlib.Data.Sym.Sym2
import Hermes.Proof.Versions

/-!
# Inferences that only create relations

* `Extends`: what such an inference may add to a graph, and that it takes nothing away.
* `Saturated`: a rule has nothing left to relate. A relation that the inference adds
  leads where another one led before, so no rule loses this.
* `applyRule_create`, `inference_create`: one rule, and a whole inference.
* `inference_converges`: a second inference with the same rules changes nothing.
-/

namespace Hermes

open History GraphEngine

variable {P : GraphEnv} {e e' : GraphEngine} {g g' g'' : KnowledgeGraph} {graphId : String}
  {rule : InferenceRule}

/-- A relation leads from the one entity to the other. -/
def KnowledgeGraph.Leads (g : KnowledgeGraph) (a b : String) : Prop :=
  ∃ r ∈ g.relations.values, r.sourceId = a ∧ r.targetId = b

/-- The two ends of a relation. -/
def Relation.ends (r : Relation) : Sym2 String := s(r.sourceId, r.targetId)

/-- A graph with more relations: each new one is a `similar_to` between entities of the graph that
another relation linked and no `similar_to` did, and no two new ones have the same ends. -/
structure Extends (g g' : KnowledgeGraph) : Prop where
  entities : g'.entities = g.entities
  kept : ∀ r ∈ g.relations.values, r ∈ g'.relations.values
  similar : ∀ r ∈ g'.relations.values, r ∉ g.relations.values →
    r.type = .similarTo ∧ (r.sourceId ∈ g.entities.keys ∧ r.targetId ∈ g.entities.keys) ∧
      g.Leads r.sourceId r.targetId ∧ ¬linked g r.sourceId r.targetId
  once : ∀ r ∈ g'.relations.values, ∀ r' ∈ g'.relations.values, r ∉ g.relations.values →
    r' ∉ g.relations.values → r.ends = r'.ends → r = r'

/-! ## Links -/

theorem linked_iff {a b : String} : linked g a b = true ↔
    ∃ r ∈ g.relations.values, r.type = .similarTo ∧ r.ends = s(a, b) := by
  unfold linked Relation.ends
  rw [List.any_eq_true]
  refine exists_congr fun r => and_congr_right fun _ => ?_
  rw [decide_eq_true_eq, Sym2.eq_iff]

theorem linked_mono (hkept : ∀ r ∈ g.relations.values, r ∈ g'.relations.values) {a b : String}
    (h : linked g a b = true) : linked g' a b = true := by
  obtain ⟨r, hr, hends⟩ := linked_iff.1 h
  exact linked_iff.2 ⟨r, hkept r hr, hends⟩

/-- **A match** is made by a relation between two entities. -/
theorem mem_matchRule {p : String × String} : p ∈ matchRule g rule ↔
    ∃ src ∈ g.entities.values, ∃ rel ∈ g.relations.values, ∃ tgt,
      g.entities.get? rel.targetId = some tgt ∧ rel.sourceId = src.entityId ∧
      rejects (rule.pattern.get? "source_type") src.type.value = false ∧
      rejects (rule.pattern.get? "relation") rel.type.value = false ∧
      rejects (rule.pattern.get? "target_type") tgt.type.value = false ∧
      p = (src.entityId, tgt.entityId) := by
  unfold matchRule
  simp only [List.mem_flatMap]
  refine exists_congr fun src => and_congr_right fun _ => ?_
  cases hst : rejects (rule.pattern.get? "source_type") src.type.value with
  | true => simp
  | false =>
    simp only [Bool.false_eq_true, if_false, List.mem_filterMap]
    refine exists_congr fun rel => and_congr_right fun _ => ?_
    by_cases hsrc : rel.sourceId = src.entityId
    · cases hrt : rejects (rule.pattern.get? "relation") rel.type.value with
      | true => simp
      | false =>
        cases htgt : g.entities.get? rel.targetId with
        | none => simp [hsrc]
        | some tgt =>
          cases htt : rejects (rule.pattern.get? "target_type") tgt.type.value with
          | true => simp [hsrc, htt]
          | false => simp [hsrc, htt, @eq_comm _ p]
    · simp [hsrc]

theorem leads_of_match {p : String × String} (hp : p ∈ matchRule g rule) : g.Leads p.1 p.2 := by
  obtain ⟨src, -, rel, hrel, tgt, htgt, hsrc, -, -, -, rfl⟩ := mem_matchRule.1 hp
  have hown : tgt.entityId = rel.targetId := Index.key_of_get? htgt
  exact ⟨rel, hrel, hsrc, hown.symm⟩

/-! ## Extensions -/

namespace Extends

theorem refl (g : KnowledgeGraph) : Extends g g :=
  ⟨rfl, fun _ hr => hr, fun _ hr hnew => absurd hr hnew, fun _ hr _ _ hnew => absurd hr hnew⟩

/-- A new relation leads where another one led. -/
theorem leads (h : Extends g g') {a b : String} (hl : g'.Leads a b) : g.Leads a b := by
  obtain ⟨r, hr, rfl, rfl⟩ := hl
  by_cases hold : r ∈ g.relations.values
  · exact ⟨r, hold, rfl, rfl⟩
  · exact (h.similar r hr hold).2.2.1

/-- A new relation links its ends. -/
theorem linked_new (h : Extends g g') {r : Relation} (hr : r ∈ g'.relations.values)
    (hnew : r ∉ g.relations.values) {a b : String} (hends : r.ends = s(a, b)) :
    linked g' a b = true := linked_iff.2 ⟨r, hr, (h.similar r hr hnew).1, hends⟩

theorem not_linked (h : Extends g g') {r : Relation} (hr : r ∈ g'.relations.values)
    (hnew : r ∉ g.relations.values) {a b : String} (hends : r.ends = s(a, b)) :
    ¬linked g a b := by
  obtain ⟨-, -, -, hl⟩ := h.similar r hr hnew
  intro hab
  obtain ⟨x, hx, htype, hxends⟩ := linked_iff.1 hab
  exact hl (linked_iff.2 ⟨x, hx, htype, hxends.trans hends.symm⟩)

theorem trans (h : Extends g g') (h' : Extends g' g'') : Extends g g'' := by
  refine ⟨h'.entities.trans h.entities, fun r hr => h'.kept r (h.kept r hr), ?_, ?_⟩
  · intro r hr hnew
    by_cases hmid : r ∈ g'.relations.values
    · exact h.similar r hmid hnew
    · obtain ⟨htype, hin, hlead, hl⟩ := h'.similar r hr hmid
      rw [h.entities] at hin
      exact ⟨htype, hin, h.leads hlead, fun hg => hl (linked_mono h.kept hg)⟩
  · intro r hr r' hr' hnew hnew' hends
    by_cases hmid : r ∈ g'.relations.values
    · by_cases hmid' : r' ∈ g'.relations.values
      · exact h.once r hmid r' hmid' hnew hnew' hends
      · -- the later of the two would have found its ends linked
        exact absurd (h.linked_new hmid hnew hends) (h'.not_linked hr' hmid' rfl)
    · by_cases hmid' : r' ∈ g'.relations.values
      · exact absurd (h.linked_new hmid' hnew' hends.symm) (h'.not_linked hr hmid rfl)
      · exact h'.once r hr r' hr' hmid hmid' hends

/-- **A match of the larger graph** is one of the smaller, or a `similar_to` links it. -/
theorem match_or_linked (h : Extends g g') {p : String × String} (hp : p ∈ matchRule g' rule) :
    p ∈ matchRule g rule ∨ linked g' p.1 p.2 = true := by
  obtain ⟨src, hsrc, rel, hrel, tgt, htgt, hown, hst, hrt, htt, rfl⟩ := mem_matchRule.1 hp
  rw [h.entities] at hsrc htgt
  by_cases hold : rel ∈ g.relations.values
  · exact Or.inl (mem_matchRule.2 ⟨src, hsrc, rel, hold, tgt, htgt, hown, hst, hrt, htt, rfl⟩)
  · right
    have htarget : tgt.entityId = rel.targetId := Index.key_of_get? htgt
    refine h.linked_new hrel hold ?_
    show s(rel.sourceId, rel.targetId) = s(src.entityId, tgt.entityId)
    rw [hown, htarget]

end Extends

theorem mem_values_put {rel r : Relation} (hfresh : rel.relationId ∉ g.relations.keys) :
    r ∈ (g.relations.put rel).values ↔ r = rel ∨ r ∈ g.relations.values := by
  rw [Index.mem_values, Index.mem_values, Index.get?_put]
  by_cases hid : r.relationId = rel.relationId
  · rw [if_pos hid, hid]
    have hnone : g.relations.get? rel.relationId = none := by
      rw [Index.mem_keys, Option.not_isSome_iff_eq_none] at hfresh
      exact hfresh
    rw [hnone]
    simp [eq_comm]
  · rw [if_neg hid]
    refine ⟨Or.inr, fun h => h.resolve_left fun heq => ?_⟩
    exact hid (congrArg Relation.relationId heq)

/-- One new relation, between entities that another one linked. -/
theorem extends_put {p : String × String} {rel : Relation} (hg : e.getGraph graphId = some g)
    (hd : Drawn e) (h : Related e e' g p rel) (htype : rel.type = .similarTo)
    (hin : p.1 ∈ g.entities.keys ∧ p.2 ∈ g.entities.keys) (hlead : g.Leads p.1 p.2) :
    Extends g { g with relations := g.relations.put rel } := by
  have hfresh : rel.relationId ∉ g.relations.keys :=
    fun hk => h.fresh ((hd graphId g hg).2 _ hk)
  have hnew : ∀ r ∈ (g.relations.put rel).values, r ∉ g.relations.values → r = rel :=
    fun r hr hold => ((mem_values_put hfresh).1 hr).resolve_right hold
  refine ⟨rfl, fun r hr => (mem_values_put hfresh).2 (Or.inr hr), fun r hr hold => ?_,
    fun r hr r' hr' hold hold' _ => (hnew r hr hold).trans (hnew r' hr' hold').symm⟩
  obtain rfl := hnew r hr hold
  rw [h.sourceId, h.targetId]
  exact ⟨htype, hin, hlead, h.linked⟩

/-! ## One rule -/

/-- Every match of the rule is linked by a `similar_to`. -/
def Saturated (g : KnowledgeGraph) (rule : InferenceRule) : Prop :=
  ∀ p ∈ matchRule g rule, linked g p.1 p.2 = true

theorem Saturated.extends (hs : Saturated g rule) (h : Extends g g') : Saturated g' rule := by
  intro p hp
  rcases h.match_or_linked hp with hold | hl
  · exact linked_mono h.kept (hs p hold)
  · exact hl

/-- The engine holds an extension of the graph. -/
def Holds (graphId : String) (g : KnowledgeGraph) (e : GraphEngine) : Prop :=
  Drawn e ∧ ∃ g', e.getGraph graphId = some g' ∧ Extends g g'

/-- One pair of entities that a rule matched. -/
theorem fire_extends (hact : rule.action = "create_relation") (hg : e.getGraph graphId = some g)
    (hd : Drawn e) {p : String × String}
    (hin : p.1 ∈ g.entities.keys ∧ p.2 ∈ g.entities.keys) (hlead : g.Leads p.1 p.2) :
    ∃ g', (fire P graphId rule p e).2.getGraph graphId = some g' ∧ Extends g g' ∧
      linked g' p.1 p.2 = true := by
  obtain ⟨-, ⟨hl, hsame⟩ | ⟨rel, htype, hrel⟩⟩ := fire_similar (P := P) hact hg p
  · rw [hsame]
    exact ⟨g, hg, Extends.refl g, hl⟩
  · have hext := extends_put hg hd hrel htype hin hlead
    refine ⟨_, hrel.getGraph hg, hext, ?_⟩
    have hmem : rel ∈ (g.relations.put rel).values := by
      rw [Index.mem_values, Index.get?_put, if_pos rfl]
    have hends : rel.ends = s(p.1, p.2) := by
      unfold Relation.ends
      rw [hrel.sourceId, hrel.targetId]
    exact linked_iff.2 ⟨rel, hmem, htype, hends⟩

/-- The two entities are linked in the graph as it is. -/
def LinkedIn (graphId : String) (p : String × String) (e : GraphEngine) : Prop :=
  ∀ g, e.getGraph graphId = some g → linked g p.1 p.2 = true

/-- **A pair that the rule matched** at the beginning is linked by its round. -/
theorem fire_round (hact : rule.action = "create_relation") {p : String × String}
    (hp : p ∈ matchRule g rule) (h : Holds graphId g e) (hg' : e.getGraph graphId = some g') :
    ∃ g'', (fire P graphId rule p e).2.getGraph graphId = some g'' ∧ Extends g' g'' ∧
      linked g'' p.1 p.2 = true := by
  obtain ⟨hd, x, hx, hext⟩ := h
  obtain rfl := Option.some.inj (hx.symm.trans hg')
  have hin : p.1 ∈ x.entities.keys ∧ p.2 ∈ x.entities.keys := by
    rw [hext.entities]
    exact mem_keys_of_match hp
  obtain ⟨r, hr, hends⟩ := leads_of_match hp
  exact fire_extends hact hx hd hin ⟨r, hext.kept r hr, hends⟩

theorem fire_holds (hact : rule.action = "create_relation") {p : String × String}
    (hp : p ∈ matchRule g rule) (h : Holds graphId g e) :
    (∃ xs, (fire P graphId rule p e).1 = .ok xs) ∧ Holds graphId g (fire P graphId rule p e).2 := by
  obtain ⟨x, hx, hext⟩ := h.2
  obtain ⟨y, hy, hext', -⟩ := fire_round (P := P) hact hp h hx
  exact ⟨(fire_similar hact hx p).1, (fire_onward p e).drawn h.1, y, hy, hext.trans hext'⟩

theorem fire_linked (hact : rule.action = "create_relation") {p : String × String}
    (hp : p ∈ matchRule g rule) (h : Holds graphId g e) :
    LinkedIn graphId p (fire P graphId rule p e).2 := by
  intro g₁ hg₁
  obtain ⟨x, hx, -⟩ := h.2
  obtain ⟨y, hy, -, hl⟩ := fire_round (P := P) hact hp h hx
  obtain rfl := Option.some.inj (hy.symm.trans hg₁)
  exact hl

/-- What is linked stays linked. -/
theorem fire_keeps_linked (hact : rule.action = "create_relation") {p q : String × String}
    (hp : p ∈ matchRule g rule) (h : Holds graphId g e) (hq : LinkedIn graphId q e) :
    LinkedIn graphId q (fire P graphId rule p e).2 := by
  intro g₁ hg₁
  obtain ⟨x, hx, -⟩ := h.2
  obtain ⟨y, hy, hext, -⟩ := fire_round (P := P) hact hp h hx
  obtain rfl := Option.some.inj (hy.symm.trans hg₁)
  exact linked_mono hext.kept (hq x hx)

/-- **A rule that creates relations** returns, extends the graph and is saturated then. -/
theorem applyRule_create {s : Inference} (hact : rule.action = "create_relation")
    (hg : s.engine.getGraph graphId = some g) (hd : Drawn s.engine) :
    (∃ xs, (applyRule P graphId rule s).1 = .ok xs) ∧ Drawn (applyRule P graphId rule s).2.engine ∧
      ∃ g', (applyRule P graphId rule s).2.engine.getGraph graphId = some g' ∧ Extends g g' ∧
        Saturated g' rule := by
  have happ := applyRule_applied (P := P) hg rule
  have hstart : Holds graphId g s.engine := ⟨hd, g, hg, Extends.refl g⟩
  have hkeep : ∀ p ∈ matchRule g rule, ∀ e, Holds graphId g e →
      (∃ xs, (fire P graphId rule p e).1 = .ok xs) ∧
        Holds graphId g (fire P graphId rule p e).2 :=
    fun p hp e h => fire_holds hact hp h
  obtain ⟨hok, hd', g', hg', hext⟩ := Loops.forEach_returns hkeep s.engine hstart
  have hlinked := Loops.forEach_each (Q := LinkedIn graphId) hkeep
    (fun p hp e h => fire_linked hact hp h) (fun p hp e h q hq => fire_keeps_linked hact hp h hq)
    s.engine hstart
  -- a match of the new graph was one before, or a round has linked it
  refine ⟨happ.returns.2 hok, happ.onward.drawn hd, g', (happ.getGraph graphId).trans hg', hext, ?_⟩
  intro p hp
  rcases hext.match_or_linked hp with hold | hl
  · exact hlinked p (Or.inl hold) g' hg'
  · exact hl

/-! ## All rules -/

/-- The rule is saturated in the graph as it is. -/
def SaturatedIn (graphId : String) (rule : InferenceRule) (s : Inference) : Prop :=
  ∀ g, s.engine.getGraph graphId = some g → Saturated g rule

/-- One rule extends the graph further, and no rule is less saturated after it. -/
theorem applyRule_holds (hact : rule.action = "create_relation") {s : Inference}
    (h : Holds graphId g s.engine) :
    ((∃ xs, (applyRule P graphId rule s).1 = .ok xs) ∧
        Holds graphId g (applyRule P graphId rule s).2.engine) ∧
      SaturatedIn graphId rule (applyRule P graphId rule s).2 ∧
      ∀ rule', SaturatedIn graphId rule' s →
        SaturatedIn graphId rule' (applyRule P graphId rule s).2 := by
  obtain ⟨hd, x, hx, hext⟩ := h
  obtain ⟨hok, hd', y, hy, hext', hs⟩ := applyRule_create (P := P) hact hx hd
  refine ⟨⟨hok, hd', y, hy, hext.trans hext'⟩, fun z hz => ?_, fun rule' hs' z hz => ?_⟩
  · obtain rfl := Option.some.inj (hy.symm.trans hz)
    exact hs
  · obtain rfl := Option.some.inj (hy.symm.trans hz)
    exact (hs' x hx).extends hext'

/-- Iterations with rules that create relations: the first one saturates all of them. -/
theorem iterate_create {active : List InferenceRule}
    (hact : ∀ rule ∈ active, rule.action = "create_relation") (n : ℕ) {s : Inference}
    (h : Holds graphId g s.engine) :
    Holds graphId g (iterate P graphId active (n + 1) s).2.engine ∧
      ∀ rule ∈ active, SaturatedIn graphId rule (iterate P graphId active (n + 1) s).2 := by
  obtain ⟨hok, hholds⟩ := Loops.forEach_returns (I := fun s => Holds graphId g s.engine)
    (fun rule hrule s h => (applyRule_holds (P := P) (hact rule hrule) h).1) s h
  have hsettled := Loops.forEach_each (I := fun s => Holds graphId g s.engine)
    (Q := SaturatedIn graphId)
    (fun rule hrule s h => (applyRule_holds (P := P) (hact rule hrule) h).1)
    (fun rule hrule s h => (applyRule_holds (hact rule hrule) h).2.1)
    (fun rule hrule s h => (applyRule_holds (hact rule hrule) h).2.2) s h
  unfold iterate
  rw [Loops.andThen_snd hok]
  split
  · exact ⟨hholds, fun rule hrule => hsettled rule (Or.inl hrule)⟩
  · refine iterate_keeps (I := fun s => Holds graphId g s.engine ∧
      ∀ rule ∈ active, SaturatedIn graphId rule s) (fun rule hrule s h => ?_) n _
      ⟨hholds, fun rule hrule => hsettled rule (Or.inl hrule)⟩
    obtain ⟨⟨-, hkeep⟩, -, hstay⟩ := applyRule_holds (P := P) (hact rule hrule) h.1
    exact ⟨hkeep, fun rule' hrule' => hstay rule' (h.2 rule' hrule')⟩

theorem toNat_max_one (maxIterations : ℤ) : ∃ n, (max maxIterations 1).toNat = n + 1 :=
  ⟨(max maxIterations 1).toNat - 1, by omega⟩

theorem inference_some (hg : e.getGraph graphId = some g) (rules : List InferenceRule)
    (maxIterations : ℤ) : e.inference P graphId rules maxIterations =
      iterate P graphId (activeRules rules) (max maxIterations 1).toNat { engine := e } := by
  unfold inference
  simp only [hg]

/-- Rules that create relations do not raise. -/
theorem inference_create_returns {rules : List InferenceRule}
    (hact : ∀ rule ∈ rules, rule.action = "create_relation") (hg : e.getGraph graphId = some g)
    (maxIterations : ℤ) : ∃ xs, (e.inference P graphId rules maxIterations).1 = .ok xs := by
  rw [inference_returns_iff]
  have hrules : ∀ a ∈ (e.inference P graphId rules maxIterations).2.applied,
      a.rule.action = "create_relation" := by
    rw [inference_some hg]
    refine iterate_keeps (I := fun s => ∀ a ∈ s.applied, a.rule.action = "create_relation")
      (fun rule hrule s h a ha => ?_) _ _ fun a ha => absurd ha List.not_mem_nil
    cases hget : s.engine.getGraph graphId with
    | none =>
      rw [applyRule_none hget] at ha
      exact h a ha
    | some x =>
      rw [(applyRule_applied hget rule).applied] at ha
      rcases List.mem_append.1 ha with ha | ha
      · exact h a ha
      · rw [List.mem_singleton.1 ha]
        exact hact rule (mem_of_mem_activeRules hrule)
  rintro a ha ⟨hmerge, -⟩
  rw [hrules a ha] at hmerge
  exact absurd hmerge (by decide)

/-- **An inference that only creates relations** extends the graph and saturates its rules. -/
theorem inference_create {rules : List InferenceRule}
    (hact : ∀ rule ∈ rules, rule.action = "create_relation") (hg : e.getGraph graphId = some g)
    (hd : Drawn e) (maxIterations : ℤ) :
    ∃ g', (e.inference P graphId rules maxIterations).2.engine.getGraph graphId = some g' ∧
      Extends g g' ∧ ∀ rule ∈ activeRules rules, Saturated g' rule := by
  -- there is at least one iteration, and the first one settles every rule
  obtain ⟨n, hn⟩ := toNat_max_one maxIterations
  have hstart : Holds graphId g e := ⟨hd, g, hg, Extends.refl g⟩
  obtain ⟨⟨-, g', hg', hext⟩, hsettled⟩ := iterate_create (P := P) (s := { engine := e })
    (fun rule hrule => hact rule (mem_of_mem_activeRules hrule)) n hstart
  rw [inference_some hg, hn]
  exact ⟨g', hg', hext, fun rule hrule => hsettled rule hrule g' hg'⟩

/-- Saturated rules change nothing. -/
theorem inference_saturated {rules : List InferenceRule}
    (hact : ∀ rule ∈ rules, rule.action = "create_relation") (hg : e.getGraph graphId = some g)
    (hs : ∀ rule ∈ activeRules rules, Saturated g rule) (maxIterations : ℤ) :
    (e.inference P graphId rules maxIterations).2.engine.getGraph graphId = some g := by
  rw [inference_some hg]
  refine iterate_keeps (I := fun s => s.engine.getGraph graphId = some g)
    (fun rule hrule s h => ?_) _ _ hg
  have hcreate := hact rule (mem_of_mem_activeRules hrule)
  rw [(applyRule_applied (P := P) h rule).getGraph]
  unfold fireAll
  rw [forEach_create_linked hcreate h (hs rule hrule)]
  exact h

/-! ## Convergence -/

/-- Two inferences one after the other: the first extends the graph to `g'`, the second leaves it
as it is. -/
structure Converges (P : GraphEnv) (e : GraphEngine) (graphId : String) (rules : List InferenceRule)
    (first second : ℤ) (g g' : KnowledgeGraph) : Prop where
  returns : ∃ results, (e.runInference P graphId rules first).1 = .ok results
  graph : (e.runInference P graphId rules first).2.getGraph graphId = some g'
  extension : Extends g g'
  again : ∃ results,
    ((e.runInference P graphId rules first).2.runInference P graphId rules second).1 = .ok results
  same : ((e.runInference P graphId rules first).2.runInference P graphId rules second).2.getGraph
    graphId = some g'

/-- **Inferences with rules that create relations converge.** In any engine that a run of
operations leads to, an inference adds one `similar_to` for each two entities at most, only where
another relation leads and none is there, and takes nothing away; after it, an inference with the
same rules leaves the graph as it is. -/
theorem inference_converges (P : GraphEnv) (store : Option GraphStore) (ops : List GraphOp)
    (graphId : String) (rules : List InferenceRule) (first second : ℤ)
    (hact : ∀ rule ∈ rules, rule.action = "create_relation") (g : KnowledgeGraph)
    (hg : (ops.foldl (GraphEngine.apply P) (init store)).getGraph graphId = some g) :
    ∃ g', Converges P (ops.foldl (GraphEngine.apply P) (init store)) graphId rules first second
      g g' := by
  have hd : Drawn (ops.foldl (GraphEngine.apply P) (init store)) :=
    run_invariant (GraphEngine.apply P) Drawn (fun _ op hd => drawn_apply hd op) ops _
      (drawn_init store)
  obtain ⟨g', hg', hext, hsat⟩ := inference_create (P := P) hact hg hd first
  exact ⟨g', inference_create_returns hact hg first, hg', hext,
    inference_create_returns hact hg' second, inference_saturated hact hg' hsat second⟩

/-- The graph that the inference of `Acquainted.ops` finds. -/
def Acquainted.graph : KnowledgeGraph where
  graphId := ""
  name := "people"
  entities := (Index.put ∅ { entityId := "a", name := "A", type := .person }).put
    { entityId := "b", name := "B", type := .person }
  relations := Index.put ∅ { relationId := "r", sourceId := "a", targetId := "b", type := .knows }
  version := 4

theorem inference_converges_acquainted : ∃ g', Converges Chain.env
    (Acquainted.ops.dropLast.foldl (GraphEngine.apply Chain.env) (init none)) "" [Acquainted.rule]
    1 3 Acquainted.graph g' :=
  inference_converges Chain.env none Acquainted.ops.dropLast "" [Acquainted.rule] 1 3 (by decide)
    Acquainted.graph rfl

end Hermes

import Hermes.Lib.Fresh
import Hermes.Lib.Loops
import Hermes.Lib.Search
import Hermes.Spec.GraphStore
import Hermes.Lib.Ranked

/-!
# The knowledge graph engine (`kernel/knowledge_graph.py`)

Graphs in memory, written through to a store when one is wired. A graph is a mutable
object that the engine holds: here every operation reads it by its id and writes it
back. An inference keeps a record of the rules it applied, with the graph before each.
Left out: wall-clock stamps, and how `_similar` scores.
-/

namespace Hermes

inductive GraphEvent where
  | entityDiscovered (graphId entityId name type source : String) (confidence : ℚ)
  | relationCreated (graphId relationId sourceId targetId type : String) (weight : ℚ)
  | graphUpdated (graphId : String) (version : ℤ) (change : String)
  | inferenceFired (graphId ruleId : String) (matched : List String) (action : String)
  | entityMerged (graphId canonicalId : String) (merged : List String) (reason : String)
  deriving DecidableEq, Repr

/-- What surrounds the engine: `uuid4().hex`, and `str.lower`. -/
structure GraphEnv where
  uuid : IdSource String
  lower : String → String

structure GraphEngine where
  graphs : Index KnowledgeGraph.graphId := ∅
  store : Option GraphStore := none
  /-- The ids that were drawn, or came in with an entity or a relation. -/
  ids : List String := []
  events : List GraphEvent := []

namespace GraphEngine

variable (P : GraphEnv) (e : GraphEngine)

/-- A new engine, with the graphs that its store has loaded. -/
def init (store : Option GraphStore) : GraphEngine :=
  let graphs := match store with
    | none => ∅
    | some s => s.mem
  { graphs
    store
    ids := graphs.values.flatMap fun g => g.graphId :: g.entities.keys ++ g.relations.keys }

def emit (ev : GraphEvent) : GraphEngine := { e with events := e.events ++ [ev] }

/-- `uuid.uuid4().hex`. -/
def draw : String × GraphEngine :=
  let id := P.uuid.next e.ids
  (id, { e with ids := id :: e.ids })

/-- The graph object is changed in memory. -/
def setGraph (g : KnowledgeGraph) : GraphEngine := { e with graphs := e.graphs.put g }

/-- `_persist`. -/
def persist (g : KnowledgeGraph) : GraphEngine := { e with store := e.store.map (·.put g) }

/-! ## Graphs, entities, relations -/

def createGraph (name : String) : KnowledgeGraph × GraphEngine :=
  let (graphId, e) := e.draw P
  let g : KnowledgeGraph := { graphId, name }
  (g, (e.setGraph g).persist g)

def getGraph (graphId : String) : Option KnowledgeGraph := e.graphs.get? graphId

def deleteGraph (graphId : String) : Bool × GraphEngine :=
  match e.getGraph graphId with
  | none => (false, e)
  | some _ =>
    (true, { e with
      store := e.store.map fun s => (s.deleteGraph graphId).2
      graphs := e.graphs.erase graphId })

/-- `self._graphs[graph_id]` of a graph that is not there. -/
def missing (id : String) : Exc := ⟨.keyError, pyRepr id⟩

/-- The entity that `add_entity` finds under the same name, with what it takes over. -/
def refresh (existing entity : Entity) : Entity :=
  { existing with
    properties := existing.properties.update entity.properties
    confidence := max existing.confidence entity.confidence
    source := if entity.source = "" then existing.source else entity.source }

def addEntity (graphId : String) (entity : Entity) : Except Exc Entity × GraphEngine :=
  match e.getGraph graphId with
  | none => (.error (missing graphId), e)
  | some g =>
    match g.entities.values.find? fun x => P.lower x.name = P.lower entity.name with
    | some existing =>
      let existing := refresh existing entity
      let g := { g with entities := g.entities.put existing, version := g.version + 1 }
      let e := (e.setGraph g).persist g
      (.ok existing, e.emit (.graphUpdated graphId g.version ("merge:" ++ existing.entityId)))
    | none =>
      let g := { g with entities := g.entities.put entity, version := g.version + 1 }
      let e := ({ e with ids := entity.entityId :: e.ids }.setGraph g).persist g
      let e := e.emit (.entityDiscovered graphId entity.entityId entity.name entity.type.value
        entity.source entity.confidence)
      (.ok entity, e.emit (.graphUpdated graphId g.version ("add_entity:" ++ entity.entityId)))

def addRelation (graphId : String) (relation : Relation) : Except Exc Relation × GraphEngine :=
  match e.getGraph graphId with
  | none => (.error (missing graphId), e)
  | some g =>
    if relation.sourceId ∉ g.entities.keys ∨ relation.targetId ∉ g.entities.keys then
      (.error ⟨.valueError, "relation endpoints missing in graph " ++ graphId⟩, e)
    else
      let g := { g with relations := g.relations.put relation, version := g.version + 1 }
      let e := ({ e with ids := relation.relationId :: e.ids }.setGraph g).persist g
      let e := e.emit (.relationCreated graphId relation.relationId relation.sourceId
        relation.targetId relation.type.value relation.weight)
      let change := "add_relation:" ++ relation.relationId
      (.ok relation, e.emit (.graphUpdated graphId g.version change))

/-! ## Paths -/

/-- The relations of `adj[cur]`, each with the entity it leads to. -/
def neighbours (g : KnowledgeGraph) (cur : String) : List (String × Relation) :=
  g.relations.values.flatMap fun r =>
    let nxt := if r.sourceId = cur then r.targetId else r.sourceId
    (if r.sourceId = cur then [(nxt, r)] else []) ++
      if r.bidirectional ∧ r.targetId = cur then [(nxt, r)] else []

/-- `find_path`, which does not look at its `max_depth`. A search takes no more rounds than there
are ends of relations, and one. -/
def findPath (graphId fromId toId : String) : Option (List Relation) :=
  match e.getGraph graphId with
  | none => none
  | some g =>
    if fromId ∉ g.entities.keys ∨ toId ∉ g.entities.keys then none
    else
      let s := Search.run (neighbours g) toId (2 * g.relations.values.length + 1)
        { queue := [fromId], seen := [fromId] }
      if toId ∉ s.prev.keys ∧ fromId ≠ toId then none
      else Search.back s.prev fromId (s.prev.keys.length + 1) toId

/-! ## Merging -/

/-- `canonical` takes over the properties of a duplicate. -/
def absorb (canonical d : Entity) : Entity :=
  { canonical with
    properties := canonical.properties.update d.properties
    confidence := max canonical.confidence d.confidence }

/-- The relation, with `dup` replaced by `canonicalId` at its ends. -/
def redirect (dup canonicalId : String) (r : Relation) : Relation :=
  { r with
    sourceId := if r.sourceId = dup then canonicalId else r.sourceId
    targetId := if r.targetId = dup then canonicalId else r.targetId }

theorem relationId_redirect (dup canonicalId : String) (r : Relation) :
    (redirect dup canonicalId r).relationId = r.relationId := rfl

/-- One duplicate of `merge_entities`: the graph, and the duplicates merged so far. -/
def mergeOne (canonicalId : String) (s : KnowledgeGraph × List String) (dup : String) :
    KnowledgeGraph × List String :=
  let (g, merged) := s
  match g.entities.get? canonicalId, g.entities.get? dup with
  | some canonical, some d =>
    if dup = canonicalId then s
    else
      ({ g with
        entities := (g.entities.put (absorb canonical d)).erase dup
        relations := g.relations.map (redirect dup canonicalId)
          (relationId_redirect dup canonicalId) },
        merged ++ [dup])
  | _, _ => s

def mergeEntities (graphId canonicalId : String) (duplicateIds : List String) :
    Except Exc Entity × GraphEngine :=
  match e.getGraph graphId with
  | none => (.error (missing graphId), e)
  | some g =>
    let (g, merged) := duplicateIds.foldl (mergeOne canonicalId) (g, [])
    match g.entities.get? canonicalId with
    | none => (.error (missing canonicalId), e)
    | some canonical =>
      if merged = [] then (.ok canonical, e)
      else
        let g := { g with version := g.version + 1 }
        let e := (e.setGraph g).persist g
        let e := e.emit (.entityMerged graphId canonicalId merged "duplicate")
        (.ok canonical, e.emit (.graphUpdated graphId g.version ("merge:" ++ canonicalId)))

/-! ## Inference -/

/-- An entry of a pattern read as a condition. -/
def isTruthy : Value → Bool
  | .none => false
  | .bool b => b
  | .int n => n ≠ 0
  | .str s => s ≠ ""
  | .list xs => !xs.isEmpty
  | .dict kvs => !kvs.isEmpty

/-- `p and v != p`, for an entry of a pattern. -/
def rejects (p : Option Value) (v : String) : Bool :=
  match p with
  | none => false
  | some (.str s) => s ≠ "" ∧ v ≠ s
  | some p => isTruthy p

/-- `_match_rule`. -/
def matchRule (g : KnowledgeGraph) (rule : InferenceRule) : List (String × String) :=
  let st := rule.pattern.get? "source_type"
  let rt := rule.pattern.get? "relation"
  let tt := rule.pattern.get? "target_type"
  g.entities.values.flatMap fun src =>
    if rejects st src.type.value then []
    else g.relations.values.filterMap fun rel =>
      if rel.sourceId ≠ src.entityId ∨ rejects rt rel.type.value then none
      else match g.entities.get? rel.targetId with
        | none => none
        | some tgt => if rejects tt tgt.type.value then none else some (src.entityId, tgt.entityId)

/-- A `similar_to` links the two entities. -/
def linked (g : KnowledgeGraph) (a b : String) : Bool :=
  g.relations.values.any fun r => r.type = .similarTo ∧
    ((r.sourceId = a ∧ r.targetId = b) ∨ (r.sourceId = b ∧ r.targetId = a))

/-- What the rules do to one pair of entities: the ids they infer. -/
def fire (graphId : String) (rule : InferenceRule) (p : String × String) (e : GraphEngine) :
    Except Exc (List String) × GraphEngine :=
  if rule.action = "create_relation" then
    match e.getGraph graphId with
    | none => (.ok [], e)
    | some g =>
      if linked g p.1 p.2 then (.ok [], e)
      else
        let (rid, e) := e.draw P
        let rel : Relation :=
          { relationId := rid, sourceId := p.1, targetId := p.2, type := .similarTo, weight := 1 }
        let e := e.setGraph { g with relations := g.relations.put rel }
        (.ok [rid], e.emit (.relationCreated graphId rid p.1 p.2 rel.type.value rel.weight))
  else if rule.action = "merge_entities" then
    match e.mergeEntities graphId p.1 [p.2] with
    | (.error x, e) => (.error x, e)
    | (.ok canonical, e) => (.ok [canonical.entityId], e)
  else (.ok [], e)

/-- A rule that was applied, and the graph before. -/
structure Application where
  graph : KnowledgeGraph
  rule : InferenceRule

/-- A running inference. -/
structure Inference where
  engine : GraphEngine
  applied : List Application := []

/-- One rule of `run_inference`. -/
def applyRule (graphId : String) (rule : InferenceRule) (s : Inference) :
    Except Exc (List QueryResult) × Inference :=
  match s.engine.getGraph graphId with
  | none => (.ok [], s)
  | some g =>
    let applied := s.applied ++ [⟨g, rule⟩]
    let matched := matchRule g rule
    if matched = [] then (.ok [], { s with applied })
    else match Loops.forEach (fire P graphId rule) matched s.engine with
      | (.error x, e) => (.error x, { engine := e, applied })
      | (.ok inferred, e) =>
        let e := match e.getGraph graphId with
          | none => e
          | some g => e.persist g
        let e := e.emit (.inferenceFired graphId rule.ruleId
          (matched.flatMap fun p => [p.1, p.2]) rule.action)
        let (resultId, e) := e.draw P
        let (queryId, e) := e.draw P
        (.ok [{ resultId, queryId, inferred }], { engine := e, applied })

/-- `len(g.relations)`. -/
def relationCount (graphId : String) : ℕ :=
  match e.getGraph graphId with
  | none => 0
  | some g => g.relations.keys.length

/-- The iterations of `run_inference`: at most the given number, and none after one that leaves
the number of relations as it is. -/
def iterate (graphId : String) (active : List InferenceRule) :
    ℕ → Inference → Except Exc (List QueryResult) × Inference
  | 0, s => (.ok [], s)
  | n + 1, s =>
    Loops.andThen (Loops.forEach (applyRule P graphId) active s) fun s' =>
      if s'.engine.relationCount graphId = s.engine.relationCount graphId then (.ok [], s')
      else iterate graphId active n s'

/-- The enabled rules, those of the highest priority first. -/
def activeRules (rules : List InferenceRule) : List InferenceRule :=
  (rules.filter (·.enabled)).insertionSort fun a b => -a.priority ≤ -b.priority

/-- `run_inference` with its record. -/
def inference (graphId : String) (rules : List InferenceRule) (maxIterations : ℤ) :
    Except Exc (List QueryResult) × Inference :=
  match e.getGraph graphId with
  | none => (.ok [], { engine := e })
  | some _ => iterate P graphId (activeRules rules) (max maxIterations 1).toNat { engine := e }

def runInference (graphId : String) (rules : List InferenceRule) (maxIterations : ℤ := 3) :
    Except Exc (List QueryResult) × GraphEngine :=
  let (r, s) := e.inference P graphId rules maxIterations
  (r, s.engine)

end GraphEngine

/-! ## Operations in sequence -/

inductive GraphOp where
  | createGraph (name : String)
  | deleteGraph (graphId : String)
  | addEntity (graphId : String) (entity : Entity)
  | addRelation (graphId : String) (relation : Relation)
  | mergeEntities (graphId canonicalId : String) (duplicateIds : List String)
  | runInference (graphId : String) (rules : List InferenceRule) (maxIterations : ℤ)

def GraphEngine.apply (P : GraphEnv) (e : GraphEngine) : GraphOp → GraphEngine
  | .createGraph name => (e.createGraph P name).2
  | .deleteGraph graphId => (e.deleteGraph graphId).2
  | .addEntity graphId entity => (e.addEntity P graphId entity).2
  | .addRelation graphId relation => (e.addRelation graphId relation).2
  | .mergeEntities graphId canonicalId duplicateIds =>
    (e.mergeEntities graphId canonicalId duplicateIds).2
  | .runInference graphId rules maxIterations => (e.runInference P graphId rules maxIterations).2

/-!
## Queries of a knowledge graph (`kernel/knowledge_graph.py`)

`get_neighbors`, `find_path` with its `max_depth`, and `query`. What `int` makes of a text, the scores
of `_similar`, and the rules that are passed among the parameters are given. Left out: the event
`QueryExecuted` and the clock.
-/

structure GraphQuery where
  queryId : String
  graphId : String
  queryType : String
  parameters : Dict String Value := ∅
  limit : ℤ := 10

/-- The `QueryResult` of a query. -/
structure QueryAnswer where
  entities : List String := []
  relations : List String := []
  inferred : List String := []
  deriving DecidableEq, Repr

/-- What surrounds a query. -/
structure QueryEnv extends GraphEnv where
  /-- `int` of a text. -/
  parseInt : String → Option ℤ
  /-- `_similar`: the entities that score best, for a graph, a target and a limit. -/
  similar : KnowledgeGraph → Value → ℤ → List String
  /-- The rules of the parameters. -/
  rules : Option Value → List InferenceRule

namespace GraphEngine

variable (P : QueryEnv) (e : GraphEngine)

/-- `get_neighbors`. -/
def getNeighbors (graphId entityId : String) (relationType : Option RelationType) :
    List (Entity × Relation) :=
  match e.getGraph graphId with
  | none => []
  | some g =>
    if entityId ∉ g.entities.keys then []
    else g.relations.values.filterMap fun r =>
      if r.sourceId = entityId ∨ r.bidirectional ∧ r.targetId = entityId then
        if relationType.isSome ∧ relationType ≠ some r.type then none
        else
          let otherId := if r.sourceId = entityId then r.targetId else r.sourceId
          (g.entities.get? otherId).map fun other => (other, r)
      else none

/-- `find_path` with its `max_depth`, which the search does not look at. -/
def findPathWithin (graphId fromId toId : String) (_maxDepth : ℤ := 5) : Option (List Relation) :=
  e.findPath graphId fromId toId

/-! ## Parameters -/

/-- `int` of a parameter. -/
def toInt : Value → Except Exc ℤ
  | .int n => .ok n
  | .bool b => .ok (if b then 1 else 0)
  | .str s => match P.parseInt s with
    | some n => .ok n
    | none => .error ⟨.valueError, "invalid literal for int() with base 10: " ++ pyRepr s⟩
  | _ => .error ⟨.other, "int() argument must be a string, a bytes-like object or a real number"⟩

/-- The entity id that a parameter may be: a value that cannot be hashed raises when it is looked up,
and one that is no text is no id. -/
def hashedId : Option Value → Except Exc (Option String)
  | some (.str s) => .ok (some s)
  | some (.list _) => .error ⟨.other, "unhashable type: 'list'"⟩
  | some (.dict _) => .error ⟨.other, "unhashable type: 'dict'"⟩
  | _ => .ok none

/-- `RelationType(rtype) if rtype else None`. -/
def toRelationType (v : Option Value) : Except Exc (Option RelationType) :=
  if (v.map isTruthy).getD false then
    match [RelationType.knows, .partOf, .causes, .dependsOn, .similarTo, .derivedFrom].find?
        fun t => match v with
          | some (.str s) => t.value = s
          | _ => false with
    | some t => .ok (some t)
    | none => .error ⟨.valueError, "not a valid RelationType"⟩
  else .ok none

/-- The text of a parameter that is `None`, empty or missing is empty. -/
def toText (v : Option Value) : Except Exc String :=
  if (v.map isTruthy).getD false then
    match v with
    | some (.str s) => .ok s
    | _ => .error ⟨.attributeError, "no attribute 'lower'"⟩
  else .ok ""

/-! ## `query` -/

/-- The entities whose names hold the name. -/
def entitiesByName (graphId name : String) : List String :=
  match e.getGraph graphId with
  | none => []
  | some g => (g.entities.values.filter fun x =>
      (P.lower name).toList <:+: (P.lower x.name).toList).map (·.entityId)

/-- A query of type `neighbors`. -/
def queryNeighbors (graphId : String) (parameters : Dict String Value) : Except Exc (List String) := do
  let relationType ← toRelationType (parameters.get? "relation_type")
  match e.getGraph graphId with
  | none => .ok []
  | some _ =>
    match ← hashedId (parameters.get? "entity_id") with
    | none => .ok []
    | some entityId => .ok ((e.getNeighbors graphId entityId relationType).map (·.1.entityId))

/-- A query of type `path`. -/
def queryPath (graphId : String) (parameters : Dict String Value) : Except Exc (List String) := do
  let maxDepth ← toInt P ((parameters.get? "max_depth").getD (.int 5))
  match e.getGraph graphId with
  | none => .ok []
  | some g =>
    match ← hashedId (parameters.get? "from_entity_id") with
    | none => .ok []
    | some fromId =>
      if fromId ∉ g.entities.keys then .ok []
      else match ← hashedId (parameters.get? "to_entity_id") with
        | none => .ok []
        | some toId =>
          .ok (((e.findPathWithin graphId fromId toId maxDepth).getD []).map (·.relationId))

/-- `name or entity_id or ""`. -/
def similarTarget (parameters : Dict String Value) : Value :=
  match (parameters.get? "name").filter isTruthy with
  | some v => v
  | none => ((parameters.get? "entity_id").filter isTruthy).getD (.str "")

/-- `query`. -/
def query (graphId : String) (q : GraphQuery) : Except Exc QueryAnswer × GraphEngine :=
  let answer (entities : List String) : QueryAnswer := { entities := entities.upTo q.limit }
  if q.queryType = "entity_by_name" then
    ((toText (q.parameters.get? "name")).map fun name => answer (e.entitiesByName P graphId name), e)
  else if q.queryType = "neighbors" then
    ((e.queryNeighbors graphId q.parameters).map answer, e)
  else if q.queryType = "path" then
    ((e.queryPath P graphId q.parameters).map fun relations => { relations }, e)
  else if q.queryType = "similar" then
    (.ok (answer (((e.getGraph graphId).map fun g =>
      P.similar g (similarTarget q.parameters) q.limit).getD [])), e)
  else if q.queryType = "inference" then
    let (r, e) := e.runInference P.toGraphEnv graphId (P.rules (q.parameters.get? "rules"))
    (r.map fun results => { inferred := results.flatMap (·.inferred) }, e)
  else (.ok {}, e)

end GraphEngine

/-! ## Chains of relations -/

/-- The relation is traversed from one entity to the other: forwards or, if it is bidirectional,
backwards. -/
inductive Relation.Traverses (r : Relation) : String → String → Prop where
  | forwards : r.Traverses r.sourceId r.targetId
  | backwards : r.bidirectional = true → r.Traverses r.targetId r.sourceId

/-- The relations of the graph lead from one entity to the other, one after the other. -/
inductive KnowledgeGraph.Joins (g : KnowledgeGraph) : String → String → List Relation → Prop where
  | nil (a : String) : g.Joins a a []
  | cons {a b c : String} {r : Relation} {rs : List Relation} : r ∈ g.relations.values →
    r.Traverses a b → g.Joins b c rs → g.Joins a c (r :: rs)

end Hermes

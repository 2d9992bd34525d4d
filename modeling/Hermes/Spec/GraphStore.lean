import Hermes.Lib.Index
import Hermes.Spec.Base

/-!
# Knowledge graphs and their store (`kernel/semantic_graph.py`, `kernel/graph_store.py`)

Entities and relations are values: no object is shared between two graphs. A row
holds the object itself for its JSON text, since `model_dump_json` and
`model_validate_json` are taken to be inverse to each other. Left out: wall-clock
stamps, and the two side tables of the store in memory, which nothing reads.
-/

namespace Hermes

/-! ## Domain -/

inductive EntityType where
  | person | org | concept | event | document | custom
  deriving DecidableEq, Repr

def EntityType.value : EntityType → String
  | .person => "person"
  | .org => "org"
  | .concept => "concept"
  | .event => "event"
  | .document => "document"
  | .custom => "custom"

inductive RelationType where
  | knows | partOf | causes | dependsOn | similarTo | derivedFrom
  deriving DecidableEq, Repr

def RelationType.value : RelationType → String
  | .knows => "knows"
  | .partOf => "part_of"
  | .causes => "causes"
  | .dependsOn => "depends_on"
  | .similarTo => "similar_to"
  | .derivedFrom => "derived_from"

structure Entity where
  entityId : String
  name : String
  type : EntityType
  properties : Dict String Value := ∅
  source : String := "unknown"
  confidence : ℚ := 1

structure Relation where
  relationId : String
  sourceId : String
  targetId : String
  type : RelationType
  properties : Dict String Value := ∅
  weight : ℚ := 1
  bidirectional : Bool := false

structure KnowledgeGraph where
  graphId : String
  name : String
  entities : Index Entity.entityId := ∅
  relations : Index Relation.relationId := ∅
  version : ℤ := 1

structure InferenceRule where
  ruleId : String
  name : String
  pattern : Dict String Value
  action : String
  priority : ℤ := 0
  enabled : Bool := true

/-- A `QueryResult` of an inference, which sets no other field. -/
structure QueryResult where
  resultId : String
  queryId : String
  inferred : List String
  deriving DecidableEq, Repr

/-! ## The store -/

/-- The tables of a database. A row of the second and the third begins with its `graph_id`. -/
structure GraphDb where
  graphs : Index KnowledgeGraph.graphId := ∅
  entities : Index (fun row : String × Entity => row.2.entityId) := ∅
  relations : Index (fun row : String × Relation => row.2.relationId) := ∅

/-- A `GraphStore`, with its database if there is one. -/
structure GraphStore where
  mem : Index KnowledgeGraph.graphId := ∅
  db : Option GraphDb := none

namespace GraphDb

variable (db : GraphDb)

/-- The statements of `put`. -/
def put (g : KnowledgeGraph) : GraphDb :=
  { graphs := db.graphs.replace g
    entities := g.entities.values.foldl (fun t e => t.replace (g.graphId, e)) db.entities
    relations := g.relations.values.foldl (fun t r => t.replace (g.graphId, r)) db.relations }

/-- The statements of `delete_graph`. -/
def deleteGraph (graphId : String) : GraphDb :=
  { graphs := db.graphs.erase graphId
    entities := db.entities.filter fun row => row.1 ≠ graphId
    relations := db.relations.filter fun row => row.1 ≠ graphId }

/-- A row of the table of entities, put into its graph if that is there. -/
def loadEntity (mem : Index KnowledgeGraph.graphId) (row : String × Entity) :
    Index KnowledgeGraph.graphId :=
  match mem.get? row.1 with
  | none => mem
  | some g => mem.put { g with entities := g.entities.put row.2 }

/-- A row of the table of relations, put into its graph if that is there. -/
def loadRelation (mem : Index KnowledgeGraph.graphId) (row : String × Relation) :
    Index KnowledgeGraph.graphId :=
  match mem.get? row.1 with
  | none => mem
  | some g => mem.put { g with relations := g.relations.put row.2 }

/-- `_load_all`. -/
def loadAll : Index KnowledgeGraph.graphId :=
  let mem := db.graphs.values.foldl Index.put ∅
  let mem := db.entities.values.foldl loadEntity mem
  db.relations.values.foldl loadRelation mem

end GraphDb

namespace GraphStore

variable (s : GraphStore)

/-- A store on a database. -/
def reopen (db : GraphDb) : GraphStore := { mem := db.loadAll, db := some db }

def put (g : KnowledgeGraph) : GraphStore :=
  { mem := s.mem.put g, db := s.db.map (·.put g) }

def deleteGraph (graphId : String) : Bool × GraphStore :=
  match s.mem.get? graphId with
  | none => (false, s)
  | some _ => (true, { mem := s.mem.erase graphId, db := s.db.map (·.deleteGraph graphId) })

def listGraphs : List KnowledgeGraph := s.mem.values

end GraphStore

end Hermes

import Hermes.Lib.Buckets
import Hermes.Lib.Fresh
import Hermes.Spec.Persistence

/-!
# The similarity graph of chunks (`kernel/graph.py`)

`add_node`, `persist_into` and `load_from_db` of a `KnowledgeGraph`, with a database that it is
persisted into, and new graphs over that database. Similarity is any function of two embeddings.
Left out: `created_at`, `updated_at` and `version` of the entities.
-/

namespace Hermes

/-- A `Chunk`, as `add_node` reads it. -/
structure EmbeddedChunk (E : Type) where
  id : String
  documentId : String
  text : String
  embedding : Option E
  workspaceId : String := "default"
  deriving DecidableEq

/-- A `KnowledgeNode` of `type="chunk"`, with its properties, and its entry of `_embeddings`. -/
structure ChunkNode (E : Type) where
  id : String
  label : String
  domain : String
  workspaceId : String
  chunkId : String
  text : String
  documentId : String
  embedding : E
  deriving DecidableEq

/-- A `Relation` of `type="similar_to"`. -/
structure SimilarTo (S : Type) where
  id : String
  sourceId : String
  targetId : String
  workspaceId : String
  score : S
  deriving DecidableEq

/-- What is persisted. A node carries its embedding in its properties. -/
inductive GraphEntity (E S : Type) where
  | node (n : ChunkNode E)
  | relation (r : SimilarTo S)

namespace GraphEntity

variable {E S : Type}

def id : GraphEntity E S → String
  | node n => n.id
  | relation r => r.id

def type : GraphEntity E S → String
  | node _ => "KnowledgeNode"
  | relation _ => "Relation"

def workspaceId : GraphEntity E S → String
  | node n => n.workspaceId
  | relation r => r.workspaceId

def node? : GraphEntity E S → Option (ChunkNode E)
  | node n => some n
  | relation _ => none

def relation? : GraphEntity E S → Option (SimilarTo S)
  | node _ => none
  | relation r => some r

end GraphEntity

/-- What a graph is made with: `cosine_similarity` and the threshold, the embedding `[]`, new ids,
and how its entities are written as JSON and read. -/
structure GraphSetup (E S δ : Type) where
  score : E → E → S
  threshold : S
  noEmbedding : E
  ids : IdSource String
  dump : GraphEntity E S → δ
  rehydrate : String → δ → Except Exc (GraphEntity E S)

namespace GraphSetup

variable {E S δ : Type} (G : GraphSetup E S δ)

def codec : EntityCodec (GraphEntity E S) δ where
  id := GraphEntity.id
  type := GraphEntity.type
  workspaceId := GraphEntity.workspaceId
  dump := G.dump
  rehydrate := G.rehydrate

/-- What is written is read back. -/
def RoundTrips : Prop := ∀ e, G.rehydrate e.type (G.dump e) = .ok e

/-- The similarity of two embeddings does not depend on their order. -/
def Symmetric : Prop := ∀ a b, G.score a b = G.score b a

end GraphSetup

/-- A `KnowledgeGraph`: `_nodes` with `_embeddings`, which has the same keys, and `_edges`. -/
structure SimilarityGraph (E S : Type) where
  nodes : Index (ChunkNode.id (E := E)) := ∅
  edges : Dict String (List (SimilarTo S)) := ∅

namespace SimilarityGraph

variable {E S δ : Type} [LinearOrder S] (G : GraphSetup E S δ) (g : SimilarityGraph E S)

omit [LinearOrder S] in
/-- `edges_of`. -/
def edgesOf (nodeId : String) : List (SimilarTo S) := g.edges.bucket nodeId

/-- `find_similar`. -/
def findSimilar (embedding : E) (workspaceId : Option String) : List (String × S) :=
  let inScope := g.nodes.values.filter fun n => workspaceId.all (n.domain = ·)
  let scored := inScope.map fun n => (n.id, G.score embedding n.embedding)
  (scored.filter fun t => G.threshold ≤ t.2).mergeSort fun a b => b.2 ≤ a.2

omit [LinearOrder S] in
/-- The relations that `add_node` makes between a node and those similar to it, in their order. -/
def newRelations (nodeId workspaceId : String) :
    List (String × S) → List String → List (SimilarTo S)
  | [], _ => []
  | (otherId, score) :: similar, issued =>
    let edge : SimilarTo S :=
      { id := G.ids.next issued, sourceId := nodeId, targetId := otherId, workspaceId, score }
    let issued := edge.id :: issued
    -- symmetric back-edge
    let back : SimilarTo S :=
      { id := G.ids.next issued, sourceId := otherId, targetId := nodeId, workspaceId, score }
    edge :: back :: newRelations nodeId workspaceId similar (back.id :: issued)

/-- The node of a chunk. -/
def nodeOf (chunk : EmbeddedChunk E) (id : String) : ChunkNode E where
  id := id
  label := String.ofList (chunk.text.toList.take 80)
  domain := chunk.workspaceId
  workspaceId := chunk.workspaceId
  chunkId := chunk.id
  text := chunk.text
  documentId := chunk.documentId
  embedding := chunk.embedding.getD G.noEmbedding

/-- `add_node`, with the ids that are taken: the node, the graph, and the ids then. -/
def addNode (chunk : EmbeddedChunk E) (issued : List String) :
    ChunkNode E × SimilarityGraph E S × List String :=
  let node := nodeOf G chunk (G.ids.next issued)
  let similar := g.findSimilar G node.embedding chunk.workspaceId
  let issued := node.id :: issued
  let relations := newRelations G node.id chunk.workspaceId similar issued
  let edges := g.edges.insert node.id []
  (node,
    { nodes := g.nodes.put node
      edges := relations.foldl (fun edges r => edges.push r.sourceId r) edges },
    relations.map SimilarTo.id ++ issued)

omit [LinearOrder S] in
/-- What `persist_into` saves, in its order. -/
def toPersist (workspaceId : String) : List (GraphEntity E S) :=
  (g.nodes.values.filter fun n => n.domain = workspaceId).flatMap fun n =>
    .node n :: (g.edgesOf n.id).map .relation

omit [LinearOrder S] in
/-- `persist_into`: the number of entities saved, and the database. -/
def persistInto (db : PersistenceRegistry δ) (workspaceId : String) : ℕ × PersistenceRegistry δ :=
  let saved := g.toPersist workspaceId
  (saved.length, saved.foldl (fun db e => db.save G.codec e) db)

omit [LinearOrder S] in
/-- `load_from_db`, after its two queries. -/
def load (nodes : List (ChunkNode E)) (relations : List (SimilarTo S)) : SimilarityGraph E S :=
  let edges := nodes.foldl (fun edges n => edges.ensure n.id) g.edges
  let relBySrc := Dict.groupBy SimilarTo.sourceId relations
  { nodes := nodes.foldl (fun ns n => ns.put n) g.nodes
    edges := relBySrc.entries.foldl
      (fun edges kv => if (edges.get? kv.1).isSome then edges.insert kv.1 kv.2 else edges) edges }

omit [LinearOrder S] in
/-- `load_from_db`: the number of nodes, or what `_rehydrate` raises, and the graph. -/
def loadFromDb (db : PersistenceRegistry δ) (workspaceId : String) :
    Except Exc ℕ × SimilarityGraph E S :=
  match db.list G.codec workspaceId (some "KnowledgeNode") with
  | .error exc => (.error exc, g)
  | .ok nodes =>
    match db.list G.codec workspaceId (some "Relation") with
    | .error exc => (.error exc, g)
    | .ok relations =>
      let nodes := nodes.filterMap GraphEntity.node?
      (.ok nodes.length, g.load nodes (relations.filterMap GraphEntity.relation?))

/-! ## What the graph should be -/

omit [LinearOrder S] in
/-- The number of edges from one node to another. -/
def links (u v : String) : ℕ := (g.edgesOf u).countP fun r => r.targetId = v

/-- Two nodes of one workspace that are similar. -/
def Similar (a b : ChunkNode E) : Prop :=
  a.id ≠ b.id ∧ a.domain = b.domain ∧ G.threshold ≤ G.score a.embedding b.embedding

/-- The edges join the pairs of similar nodes of one workspace, once in each direction. -/
structure Correct : Prop where
  irreflexive : ∀ u, g.links u u = 0
  symmetric : ∀ u v, g.links u v ≠ 0 → g.links v u ≠ 0
  sameWorkspace : ∀ u v, g.links u v ≠ 0 →
    ∃ a b, g.nodes.get? u = some a ∧ g.nodes.get? v = some b ∧ a.domain = b.domain
  exact : ∀ u v, g.links u v ≠ 0 ↔
    ∃ a b, g.nodes.get? u = some a ∧ g.nodes.get? v = some b ∧ Similar G a b
  once : ∀ u v, g.links u v ≤ 1

end SimilarityGraph

/-! ## Runs -/

/-- A graph, the database that it is persisted into, and the ids that were given out. -/
structure GraphWorld (E S δ : Type) where
  graph : SimilarityGraph E S := {}
  db : PersistenceRegistry δ := { shared := true }
  issued : List String := []

/-- What is done. -/
inductive GraphStep (E : Type) where
  | addNode (chunk : EmbeddedChunk E)
  | persistInto (workspaceId : String)
  | loadFromDb (workspaceId : String)
  /-- A new graph on the database. -/
  | restart

namespace GraphWorld

variable {E S δ : Type} [LinearOrder S]

def step (G : GraphSetup E S δ) (s : GraphWorld E S δ) : GraphStep E → GraphWorld E S δ
  | .addNode chunk =>
    let (_, graph, issued) := s.graph.addNode G chunk s.issued
    { s with graph, issued }
  | .persistInto workspaceId => { s with db := (s.graph.persistInto G s.db workspaceId).2 }
  | .loadFromDb workspaceId => { s with graph := (s.graph.loadFromDb G s.db workspaceId).2 }
  | .restart => { s with graph := {} }

end GraphWorld

end Hermes

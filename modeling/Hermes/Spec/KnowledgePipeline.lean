import Hermes.Spec.SimilarityGraph

/-!
# From a parsed document to the graph (`kernel/chunker.py`, `kernel/embedder.py`, `kernel/graph.py`)

The three handlers, each on the event types that it subscribes to, and the events that were published
and not delivered yet, which the bus delivers in any order. An `embed` falls back to the hash
embedding, and so always gives a vector. Left out: the parser, and logging.
-/

namespace Hermes

/-! ## Events -/

/-- A value in a payload. -/
inductive PayloadValue (E : Type) where
  | none
  | str (s : String)
  | vector (v : E)
  | strs (ss : List String)
  deriving DecidableEq

/-- An event of the pipeline. -/
structure PipelineEvent (E : Type) where
  type : String
  source : String
  payload : Dict String (PayloadValue E)

/-- A payload, written out. -/
def payloadOf {E : Type} (kvs : List (String × PayloadValue E)) : Dict String (PayloadValue E) :=
  kvs.foldl (fun d kv => d.insert kv.1 kv.2) ∅

namespace PayloadValue

variable {E : Type}

/-- `payload.get(key, default)`. -/
def get (payload : Dict String (PayloadValue E)) (key : String) (default : PayloadValue E) :
    PayloadValue E :=
  (payload.get? key).getD default

/-- `payload.get(key) or ""`, for a text. -/
def textOr (payload : Dict String (PayloadValue E)) (key : String) : String :=
  match get payload key .none with
  | str s => s
  | _ => ""

/-- A text, where a model asks for one. -/
def str? : PayloadValue E → Option String
  | str s => some s
  | _ => Option.none

end PayloadValue

/-! ## The chunker -/

/-- A `Chunk` of the chunker. -/
structure DocumentChunk where
  id : String
  documentId : String
  text : String
  start : ℕ
  stop : ℕ
  workspaceId : String
  deriving DecidableEq

/-- A `DocumentChunker`, with what its constructor checks. -/
structure DocumentChunker where
  chunkSize : ℕ := 1000
  overlap : ℕ := 100
  pos : 0 < chunkSize := by decide
  lt : overlap < chunkSize := by decide

namespace DocumentChunker

/-- The constructor. -/
def make (chunkSize overlap : ℤ) : Except Exc DocumentChunker :=
  if hpos : chunkSize ≤ 0 then .error ⟨.valueError, "chunk_size must be > 0"⟩
  else if hlt : overlap < 0 ∨ chunkSize ≤ overlap then
    .error ⟨.valueError, "overlap must satisfy 0 <= overlap < chunk_size"⟩
  else .ok
    { chunkSize := chunkSize.toNat
      overlap := overlap.toNat
      pos := by omega
      lt := by omega }

variable (c : DocumentChunker)

/-- The loop of `chunk`: where the chunks begin and end. -/
def spans (n start : ℕ) : List (ℕ × ℕ) :=
  if _hlt : start < n then
    let stop := min (start + c.chunkSize) n
    if n ≤ stop then [(start, stop)]
    else (start, stop) :: spans n (start + (c.chunkSize - c.overlap))
  else []
termination_by n - start
decreasing_by
  have hlt := c.lt
  omega

/-- `content[start:stop]`. -/
def slice (content : String) (span : ℕ × ℕ) : String :=
  String.ofList ((content.toList.drop span.1).take (span.2 - span.1))

/-- The chunks of the spans, each with a new id, and the ids then. -/
def chunksAt (ids : IdSource String) (content sourcePath workspaceId : String) :
    List (ℕ × ℕ) → List String → List DocumentChunk × List String
  | [], issued => ([], issued)
  | span :: spans, issued =>
    let chunk : DocumentChunk :=
      { id := ids.next issued
        documentId := sourcePath
        text := slice content span
        start := span.1
        stop := span.2
        workspaceId }
    let (chunks, issued) := chunksAt ids content sourcePath workspaceId spans (chunk.id :: issued)
    (chunk :: chunks, issued)

/-- `chunk`, with the ids that are taken. -/
def chunk (ids : IdSource String) (content sourcePath workspaceId : String) (issued : List String) :
    List DocumentChunk × List String :=
  chunksAt ids content sourcePath workspaceId (c.spans content.toList.length 0) issued

/-- The event `chunk.created` of a chunk. -/
def created {E : Type} (chunk : DocumentChunk) (path workspaceId : String) : PipelineEvent E where
  type := "chunk.created"
  source := "chunker"
  payload := payloadOf
    [("chunk_id", .str chunk.id), ("document_path", .str path), ("text", .str chunk.text),
      ("embedding", .none), ("workspace_id", .str workspaceId)]

/-- `_on_parsed`: the chunks, and the ids then. A path or a workspace that is no text fails the
validation of the first chunk. -/
def onParsed {E : Type} (ids : IdSource String) (payload : Dict String (PayloadValue E))
    (issued : List String) : List DocumentChunk × List (PipelineEvent E) × List String :=
  let content := PayloadValue.textOr payload "content"
  let path := PayloadValue.get payload "path" .none
  let workspaceId := PayloadValue.get payload "workspace_id" (.str "default")
  match path.str?, workspaceId.str? with
  | some path, some workspaceId =>
    let (chunks, issued) := c.chunk ids content path workspaceId issued
    (chunks, chunks.map fun chunk => created chunk path workspaceId, issued)
  | _, _ => ([], [], issued)

end DocumentChunker

/-! ## The embedder and the graph -/

/-- `_on_chunk` of the embedder. -/
def embedderOnChunk {E : Type} (embed : String → E) (payload : Dict String (PayloadValue E)) :
    PipelineEvent E where
  type := "chunk.embedded"
  source := "embedder"
  payload := payloadOf
    [("chunk_id", PayloadValue.get payload "chunk_id" .none),
      ("embedding", .vector (embed (PayloadValue.textOr payload "text"))),
      ("workspace_id", PayloadValue.get payload "workspace_id" (.str "default"))]

/-- The `Chunk` that `_on_embedded` of the graph builds, and the ids then, unless its validation
fails. -/
def chunkOfEmbedded {E : Type} (ids : IdSource String) (payload : Dict String (PayloadValue E))
    (issued : List String) : Option (EmbeddedChunk E × List String) :=
  let documentId := (PayloadValue.get payload "document_path" (.str "")).str?
  let text := (PayloadValue.get payload "text" (.str "")).str?
  let workspaceId := (PayloadValue.get payload "workspace_id" (.str "default")).str?
  let embedding := match PayloadValue.get payload "embedding" .none with
    | .vector v => some (some v)
    | .none => some none
    | _ => none
  let fresh := ids.next issued
  -- carry through the originating chunk_id if present
  let id := if PayloadValue.textOr payload "chunk_id" = "" then fresh
    else PayloadValue.textOr payload "chunk_id"
  match documentId, text, embedding, workspaceId with
  | some documentId, some text, some embedding, some workspaceId =>
    some ({ id, documentId, text, embedding, workspaceId }, fresh :: issued)
  | _, _, _, _ => none

/-! ## The pipeline -/

/-- What the pipeline is made of. -/
structure PipelineSetup (E S δ : Type) where
  graph : GraphSetup E S δ
  chunker : DocumentChunker := {}
  embed : String → E

/-- The events that were not delivered yet, the graph, the ids that were given out, the chunks that
were made, and the nodes that were made of them. -/
structure Pipeline (E S : Type) where
  pending : List (PipelineEvent E)
  graph : SimilarityGraph E S := {}
  issued : List String := []
  chunks : List DocumentChunk := []
  made : List (ChunkNode E) := []

namespace Pipeline

variable {E S δ : Type} [LinearOrder S] (P : PipelineSetup E S δ)

/-- `_on_embedded` of the graph. -/
def onEmbedded (s : Pipeline E S) (payload : Dict String (PayloadValue E)) : Pipeline E S :=
  match chunkOfEmbedded P.graph.ids payload s.issued with
  | none => s
  | some (chunk, issued) =>
    let (node, graph, issued) := s.graph.addNode P.graph chunk issued
    let updated : PipelineEvent E :=
      { type := "graph.updated"
        source := "graph"
        payload := payloadOf
          [("node_id", .str node.id),
            ("edges", .strs ((graph.edgesOf node.id).map SimilarTo.targetId)),
            ("workspace_id", .str node.workspaceId)] }
    { s with pending := s.pending ++ [updated], graph, issued, made := s.made ++ [node] }

/-- An event is delivered to the handler of its type. -/
def deliver (s : Pipeline E S) (event : PipelineEvent E) : Pipeline E S :=
  if event.type = "document.parsed" then
    let (chunks, events, issued) := P.chunker.onParsed P.graph.ids event.payload s.issued
    { s with pending := s.pending ++ events, issued, chunks := s.chunks ++ chunks }
  else if event.type = "chunk.created" then
    { s with pending := s.pending ++ [embedderOnChunk P.embed event.payload] }
  else if event.type = "chunk.embedded" then s.onEmbedded P event.payload
  else s

/-- The `n`-th event that waits is delivered. -/
def step (s : Pipeline E S) (n : ℕ) : Pipeline E S :=
  match s.pending[n]? with
  | none => s
  | some event => deliver P { s with pending := s.pending.eraseIdx n } event

omit [LinearOrder S] in
/-- A document was parsed; the graph may have nodes already. -/
def parsed (content path workspaceId : String) (graph : SimilarityGraph E S)
    (issued : List String) : Pipeline E S where
  pending :=
    [{ type := "document.parsed"
       source := "parser"
       payload := payloadOf
        [("path", .str path), ("content", .str content), ("mime_type", .none),
          ("workspace_id", .str workspaceId)] }]
  graph := graph
  issued := issued

/-- The nodes carry the texts of the chunks, the path and the workspace, one node for each chunk. -/
def TextSurvives (path workspaceId : String) (s : Pipeline E S) : Prop :=
  (s.made.map fun n => (n.text, n.documentId, n.workspaceId)).Perm
    (s.chunks.map fun chunk => (chunk.text, path, workspaceId))

end Pipeline

end Hermes

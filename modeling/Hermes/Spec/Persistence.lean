import Hermes.Lib.Index
import Hermes.Spec.Base

/-!
# Entities in a database (`kernel/persistence.py`)

The tables `entities` and `markers` of a `PersistenceRegistry`, with the JSON text of a model as any
type. Each call is one statement on the one worker thread. Left out: `exists`.
-/

namespace Hermes

/-- How an entity is written and read: its `id`, class name and `workspace_id`, `model_dump_json`, and
`_rehydrate`. -/
structure EntityCodec (ε δ : Type) where
  id : ε → String
  type : ε → String
  workspaceId : ε → String
  dump : ε → δ
  rehydrate : String → δ → Except Exc ε

/-- A row of `entities`. -/
structure EntityRow (δ : Type) where
  id : String
  type : String
  workspaceId : String
  data : δ
  deriving DecidableEq

/-- A row of `markers`. -/
structure MarkerRow where
  key : String
  workspaceId : String
  value : String
  deriving DecidableEq

/-- A `PersistenceRegistry`. `shared` says whether another connection to the path sees the same
database: it does unless the path is `:memory:` or empty. -/
structure PersistenceRegistry (δ : Type) where
  shared : Bool
  entities : Index (EntityRow.id (δ := δ)) := ∅
  markers : Index MarkerRow.key := ∅

namespace PersistenceRegistry

variable {ε δ : Type} (codec : EntityCodec ε δ) (s : PersistenceRegistry δ)

/-- The row of an entity. -/
def row (entity : ε) : EntityRow δ where
  id := codec.id entity
  type := codec.type entity
  workspaceId := codec.workspaceId entity
  data := codec.dump entity

/-- `save`. -/
def save (entity : ε) : PersistenceRegistry δ :=
  { s with entities := s.entities.put (row codec entity) }

/-- `get`. -/
def get (id : String) : Option (Except Exc ε) :=
  (s.entities.get? id).map fun row => codec.rehydrate row.type row.data

/-- The rows of a workspace. -/
def rowsOf (workspaceId : String) : List (EntityRow δ) :=
  s.entities.values.filter fun row => row.workspaceId = workspaceId

/-- `list`. -/
def list (workspaceId : String) (entityType : Option String) : Except Exc (List ε) :=
  let rows : List (EntityRow δ) := match truthy entityType with
    | some name => (s.rowsOf workspaceId).filter fun row => row.type = name
    | none => s.rowsOf workspaceId
  (rows.mergeSort fun a b => a.id ≤ b.id).mapM fun row => codec.rehydrate row.type row.data

/-- `list_all`. -/
def listAll (entityType : Option String) : Except Exc (List ε) :=
  let rows : List (EntityRow δ) := match truthy entityType with
    | some name => s.entities.values.filter fun row => row.type = name
    | none => s.entities.values
  (rows.mergeSort fun a b => a.id ≤ b.id).mapM fun row => codec.rehydrate row.type row.data

/-- `delete`: whether there was such an entity. -/
def delete (id : String) : Bool × PersistenceRegistry δ :=
  ((s.entities.get? id).isSome, { s with entities := s.entities.erase id })

/-- `count`. -/
def count (workspaceId : String) : ℕ := (s.rowsOf workspaceId).length

/-- `mark`. -/
def mark (key workspaceId value : String) : PersistenceRegistry δ :=
  { s with markers := s.markers.replace { key, workspaceId, value } }

/-- `_contains_marker`, on a connection of its own. -/
def containsMarker (key : String) : Bool := s.shared && (s.markers.get? key).isSome

end PersistenceRegistry

/-- A call that writes. -/
inductive PersistCall (ε : Type) where
  | save (entity : ε)
  | mark (key workspaceId value : String)

namespace PersistCall

variable {ε δ : Type} (codec : EntityCodec ε δ)

/-- The workspace that the entity or the marker is for. -/
def workspace : PersistCall ε → String
  | save entity => codec.workspaceId entity
  | mark _ workspaceId _ => workspaceId

def apply (s : PersistenceRegistry δ) : PersistCall ε → PersistenceRegistry δ
  | save entity => s.save codec entity
  | mark key workspaceId value => s.mark key workspaceId value

end PersistCall

/-!
## The domain entities and their classes (`kernel/domain.py`, `kernel/persistence.py`)

The classes that derive from `BaseEntity`, the two registries that name them, and `_rehydrate`. What
Pydantic does with the fields of a class is a parameter.
-/

/-- `BaseEntity` and the classes that derive from it. -/
inductive EntityClass where
  | baseEntity
  | document | chunk | knowledgeNode | entity | relation
  | task | event | mcpSessionEvent | memory | tool | agent
  | workflow | workflowInstance | project | artifact
  | capability | workspace | dataset | conversation | user
  | humanProfile | browserSession | actionLog
  deriving DecidableEq, Repr

namespace EntityClass

/-- `__name__`. -/
def name : EntityClass → String
  | baseEntity => "BaseEntity"
  | document => "Document"
  | chunk => "Chunk"
  | knowledgeNode => "KnowledgeNode"
  | entity => "Entity"
  | relation => "Relation"
  | task => "Task"
  | event => "Event"
  | mcpSessionEvent => "McpSessionEvent"
  | memory => "Memory"
  | tool => "Tool"
  | agent => "Agent"
  | workflow => "Workflow"
  | workflowInstance => "WorkflowInstance"
  | project => "Project"
  | artifact => "Artifact"
  | capability => "Capability"
  | workspace => "Workspace"
  | dataset => "Dataset"
  | conversation => "Conversation"
  | user => "User"
  | humanProfile => "HumanProfile"
  | browserSession => "BrowserSession"
  | actionLog => "ActionLog"

end EntityClass

/-- A registry of classes under their names. -/
def classTable (entries : List (String × EntityClass)) : Dict String EntityClass :=
  entries.foldl (fun d entry => d.insert entry.1 entry.2) ∅

/-- `ENTITY_TYPES`. -/
def entityTypes : Dict String EntityClass := classTable
  [("Document", .document), ("Chunk", .chunk), ("KnowledgeNode", .knowledgeNode),
    ("Entity", .entity), ("Relation", .relation), ("Task", .task), ("Event", .event),
    ("Memory", .memory), ("Tool", .tool), ("Agent", .agent), ("Workflow", .workflow),
    ("WorkflowInstance", .workflowInstance), ("Project", .project), ("Artifact", .artifact),
    ("Capability", .capability), ("Workspace", .workspace), ("Dataset", .dataset),
    ("Conversation", .conversation), ("User", .user), ("HumanProfile", .humanProfile),
    ("BrowserSession", .browserSession), ("ActionLog", .actionLog)]

/-- `_TYPE_TO_CLASS`. -/
def typeToClass : Dict String EntityClass := classTable
  [("Document", .document), ("Chunk", .chunk), ("KnowledgeNode", .knowledgeNode),
    ("Relation", .relation), ("Workspace", .workspace), ("McpSessionEvent", .mcpSessionEvent),
    ("HumanProfile", .humanProfile), ("BrowserSession", .browserSession),
    ("ActionLog", .actionLog)]

/-- The class that `_rehydrate` takes for a type name. -/
def rehydrateClass (typeName : String) : EntityClass :=
  (typeToClass.get? typeName).getD .baseEntity

/-- What Pydantic does with the fields of a class: the `id` and the `workspace_id` among them,
`model_dump_json`, and `model_validate_json`. -/
structure Pydantic (φ : EntityClass → Type) (δ : Type) where
  id : ∀ {c}, φ c → String
  workspaceId : ∀ {c}, φ c → String
  dumpJson : ∀ {c}, φ c → δ
  validateJson : ∀ c, δ → Except Exc (φ c)

namespace Pydantic

variable {φ : EntityClass → Type} {δ : Type} (P : Pydantic φ δ)

/-- The codec of a `PersistenceRegistry`, for entities of all classes. -/
def codec : EntityCodec (Σ c, φ c) δ where
  id e := P.id e.2
  type e := e.1.name
  workspaceId e := P.workspaceId e.2
  dump e := P.dumpJson e.2
  rehydrate typeName data := (P.validateJson (rehydrateClass typeName) data).map (Sigma.mk _)

/-- The JSON of an entity is validated as the entity. -/
def RoundTrips : Prop := ∀ c (f : φ c), P.validateJson c (P.dumpJson f) = .ok f

/-- The JSON of any entity is valid for `BaseEntity`, which has the common fields and allows others. -/
def ExtraAllowed : Prop := ∀ c (f : φ c), ∃ f', P.validateJson .baseEntity (P.dumpJson f) = .ok f'

end Pydantic

end Hermes

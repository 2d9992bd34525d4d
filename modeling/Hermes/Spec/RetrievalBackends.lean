import Hermes.Lib.Dict
import Hermes.Lib.Ranked
import Hermes.Spec.Base
import Hermes.Lib.Index

/-!
# Retrieval backends in memory and with Faiss (`kernel/retrieval_backends.py`)

`MemoryBackend`, and `FaissBackend` with the flat index. The numbers are of any type with the
arithmetic that the code uses. Left out: the IVF index, `persist`.
-/

namespace Hermes

section Cosine

variable {σ : Type} [DecidableEq σ] [Zero σ] [Add σ] [Mul σ] [Div σ]

/-- `sum`. -/
def pySum (xs : List σ) : σ := xs.foldl (· + ·) 0

/-- `_cosine_similarity`. -/
def cosineSimilarity (sqrt : σ → σ) (a b : List σ) : σ :=
  if a = [] ∨ b = [] ∨ a.length ≠ b.length then 0
  else
    let dot := pySum (List.zipWith (· * ·) a b)
    let na := sqrt (pySum (a.map fun x => x * x))
    let nb := sqrt (pySum (b.map fun x => x * x))
    if na = 0 ∨ nb = 0 then 0 else dot / (na * nb)

end Cosine

/-- A call to a retrieval backend. -/
inductive RetrievalCall (σ : Type) where
  | add (nodeId : String) (embedding : List σ) (workspaceId : String)
  | query (embedding : List σ) (workspaceId : String) (topK : ℤ)
  | remove (nodeId workspaceId : String)
  | clearWorkspace (workspaceId : String)

/-- The vectors of a call have the configured dimension. -/
def RetrievalCall.OfDim {σ : Type} (dim : ℕ) : RetrievalCall σ → Prop
  | add _ embedding _ => embedding.length = dim
  | query embedding _ _ => embedding.length = dim
  | remove _ _ => True
  | clearWorkspace _ => True

/-- A `MemoryBackend`: `_store`. -/
structure MemoryBackend (σ : Type) where
  store : Dict (String × String) (List σ) := ∅

namespace MemoryBackend

variable {σ : Type} (b : MemoryBackend σ)

/-- `add`. -/
def add (nodeId : String) (embedding : List σ) (workspaceId : String) : MemoryBackend σ :=
  { b with store := b.store.insert (workspaceId, nodeId) embedding }

/-- The nodes of a workspace, with their vectors. -/
def nodesOf (workspaceId : String) : List (String × List σ) :=
  b.store.entries.filterMap fun e => if e.1.1 = workspaceId then some (e.1.2, e.2) else none

/-- `query`. -/
def query [LinearOrder σ] [Zero σ] [Add σ] [Mul σ] [Div σ] (sqrt : σ → σ) (embedding : List σ)
    (workspaceId : String) (topK : ℤ) : List (String × σ) :=
  let scored := (b.nodesOf workspaceId).map fun n => (n.1, cosineSimilarity sqrt embedding n.2)
  (scored.mergeSort fun x y => y.2 ≤ x.2).upTo topK

/-- `remove`. -/
def remove (nodeId workspaceId : String) : MemoryBackend σ :=
  { b with store := b.store.erase (workspaceId, nodeId) }

/-- `clear_workspace`. -/
def clearWorkspace (workspaceId : String) : MemoryBackend σ :=
  { b with store := b.store.restrict fun k => k.1 ≠ workspaceId }

/-- What a call leaves. -/
def apply : RetrievalCall σ → MemoryBackend σ
  | .add nodeId embedding workspaceId => b.add nodeId embedding workspaceId
  | .query _ _ _ => b
  | .remove nodeId workspaceId => b.remove nodeId workspaceId
  | .clearWorkspace workspaceId => b.clearWorkspace workspaceId

end MemoryBackend

/-- What the backend uses of Faiss. `flat` is a new `IndexIDMap(IndexFlatIP(dim))`. -/
structure Faiss (ι σ : Type) where
  flat : ι
  normalizeL2 : List σ → List σ
  addWithIds : ι → List σ → ℕ → ι
  ntotal : ι → ℕ
  search : ι → List σ → ℤ → Except Exc (List (σ × ℕ))
  reconstruct : ι → ℕ → List σ

/-- What Faiss says of a flat index, told by its vectors with their ids. -/
structure Faiss.Exact {ι σ : Type} [LinearOrder σ] (F : Faiss ι σ) (inner : List σ → List σ → σ)
    (vectors : ι → List (ℕ × List σ)) : Prop where
  flat : vectors F.flat = []
  addWithIds : ∀ index vec fid,
    vectors (F.addWithIds index vec fid) = vectors index ++ [(fid, vec)]
  ntotal : ∀ index, F.ntotal index = (vectors index).length
  search : ∀ index vec (k : ℤ), 1 ≤ k → k ≤ F.ntotal index →
    ∃ order : List (ℕ × List σ), order.Perm (vectors index) ∧
      Ranked (fun e => inner vec e.2) order ∧
        F.search index vec k = .ok ((order.take k.toNat).map fun e => (inner vec e.2, e.1))
  refuses : ∀ index vec (k : ℤ), k ≤ 0 → ∃ exc, F.search index vec k = .error exc
  reconstruct : ∀ index, ((vectors index).map Prod.fst).Nodup →
    ∀ e ∈ vectors index, F.reconstruct index e.1 = e.2

/-- What `_indices`, `_id_maps` and `_counters` hold for a workspace: they are set and dropped
together. -/
structure WorkspaceIndex (ι : Type) where
  index : ι
  idMap : Dict ℕ String := ∅
  counter : ℕ := 0

/-- A `FaissBackend`, and the index files under `persist_dir`, with their `id_map` and `counter` if
there is a `.json` as well. -/
structure FaissBackend (ι : Type) where
  indices : Dict String (WorkspaceIndex ι) := ∅
  files : Dict String (ι × Option (Dict ℕ String × ℕ)) := ∅

namespace FaissBackend

variable {ι σ : Type} (F : Faiss ι σ) (b : FaissBackend ι)

/-- `_get_index`. -/
def getIndex (workspaceId : String) : WorkspaceIndex ι × FaissBackend ι :=
  match b.indices.get? workspaceId with
  | some x => (x, b)
  | none =>
    let x : WorkspaceIndex ι := match b.files.get? workspaceId with
      | some (index, some (idMap, counter)) => { index, idMap, counter }
      | some (index, none) => { index }
      | none => { index := F.flat }
    (x, { b with indices := b.indices.insert workspaceId x })

/-- `add`. -/
def add (nodeId : String) (embedding : List σ) (workspaceId : String) : FaissBackend ι :=
  let (x, b) := b.getIndex F workspaceId
  let fid := x.counter
  let x : WorkspaceIndex ι :=
    { index := F.addWithIds x.index (F.normalizeL2 embedding) fid
      idMap := x.idMap.insert fid nodeId
      counter := fid + 1 }
  { b with indices := b.indices.insert workspaceId x }

/-- `query`. -/
def query (embedding : List σ) (workspaceId : String) (topK : ℤ) :
    Except Exc (List (String × σ)) × FaissBackend ι :=
  let (x, b) := b.getIndex F workspaceId
  if F.ntotal x.index = 0 then (.ok [], b)
  else
    let found := F.search x.index (F.normalizeL2 embedding) (min topK (F.ntotal x.index))
    (found.map fun hits => hits.filterMap fun hit =>
      (x.idMap.get? hit.2).map fun nid => (nid, hit.1), b)

/-- A vector of the old index goes into the new one, unless it is of the node. -/
def rebuildStep (nodeId : String) (old : ι) (new : WorkspaceIndex ι) (e : ℕ × String) :
    WorkspaceIndex ι :=
  if e.2 = nodeId then new
  else
    { index := F.addWithIds new.index (F.reconstruct old e.1) new.counter
      idMap := new.idMap.insert new.counter e.2
      counter := new.counter + 1 }

/-- `remove`. -/
def remove (nodeId workspaceId : String) : FaissBackend ι :=
  let (x, b) := b.getIndex F workspaceId
  if F.ntotal x.index = 0 then b
  else
    let rev : Dict String ℕ := x.idMap.entries.foldl (fun rev e => rev.insert e.2 e.1) ∅
    match rev.get? nodeId with
    | none => b
    | some _ =>
      let x := x.idMap.entries.foldl (rebuildStep F nodeId x.index) { index := F.flat }
      { b with indices := b.indices.insert workspaceId x }

/-- `clear_workspace`. -/
def clearWorkspace (workspaceId : String) : FaissBackend ι :=
  { b with
    indices := b.indices.erase workspaceId
    files := b.files.erase workspaceId }

/-- What a call leaves. -/
def apply : RetrievalCall σ → FaissBackend ι
  | .add nodeId embedding workspaceId => b.add F nodeId embedding workspaceId
  | .query embedding workspaceId topK => (b.query F embedding workspaceId topK).2
  | .remove nodeId workspaceId => b.remove F nodeId workspaceId
  | .clearWorkspace workspaceId => b.clearWorkspace workspaceId

end FaissBackend

/-!
## Retrieval with sqlite-vss (`kernel/retrieval_backends.py`)

The writing calls of `SQLiteVSSBackend`, statement by statement, with a blob as any type. SQLite
tells table names apart but for the case of ASCII letters. Left out: `query`, `persist`, and the
tables that sqlite-vss keeps for itself behind a vss table (`…_index`, `…_data`).
-/

/-- A row of `vss_nodes`. -/
structure NodeRow (β : Type) where
  rowid : ℕ
  workspaceId : String
  nodeId : String
  embedding : β
  deriving DecidableEq

/-- A table: one with the columns of `vss_nodes`, or a virtual table of a dimension. -/
inductive VssTable (β : Type) where
  | nodes (rows : Index (NodeRow.rowid (β := β)))
  | vss (dim : ℕ) (rows : List (ℕ × β))

/-- The tables, by their names in lower case. -/
abbrev VssDb (β : Type) := Dict String (VssTable β)

/-- A `SQLiteVSSBackend`: its dimension, and whether a virtual table of a dimension takes a blob. -/
structure VssSetup (β : Type) where
  dim : ℕ
  accepts : ℕ → β → Bool

/-- `_vss_table`. -/
def vssTable (workspaceId : String) : String :=
  String.ofList ("vss_".toList ++ workspaceId.toList.map fun ch => if ch = '-' then '_' else ch)

/-- The table of a workspace, as SQLite finds it. -/
def tableKey (workspaceId : String) : String :=
  String.ofList ((vssTable workspaceId).toList.map Char.toLower)

/-- The table of the nodes. -/
def nodesKey : String := "vss_nodes"

namespace VssTable

variable {β : Type}

/-- The rows, by their two columns `rowid` and `embedding`. -/
def vectors : VssTable β → List (ℕ × β)
  | nodes rows => rows.values.map fun r => (r.rowid, r.embedding)
  | vss _ rows => rows

/-- `DELETE … WHERE p(rowid)`. -/
def delete (p : ℕ → Bool) : VssTable β → VssTable β
  | nodes rows => nodes (rows.filter fun r => !p r.rowid)
  | vss dim rows => vss dim (rows.filter fun r => !p r.1)

end VssTable

namespace VssDb

variable {β : Type} (S : VssSetup β) (db : VssDb β)

/-- The rows of `vss_nodes`, if it is there with its columns. -/
def nodeRows : Option (Index (NodeRow.rowid (β := β))) :=
  match db.get? nodesKey with
  | some (.nodes rows) => some rows
  | _ => none

/-- The rows of a workspace in `vss_nodes`. -/
def ownRows (workspaceId : String) : List (NodeRow β) :=
  match db.nodeRows with
  | some rows => rows.values.filter fun r => r.workspaceId = workspaceId
  | none => []

/-- The rows of a table, by `rowid` and `embedding`. -/
def vectorsOf (table : String) : List (ℕ × β) :=
  match db.get? table with
  | some t => t.vectors
  | none => []

/-- The vectors that are indexed for the nodes of a workspace: the rows of its table that match its
rows in `vss_nodes`. -/
def indexed (workspaceId : String) : List (String × β) :=
  (db.ownRows workspaceId).flatMap fun n =>
    ((db.vectorsOf (tableKey workspaceId)).filter fun v => v.1 = n.rowid).map fun v =>
      (n.nodeId, v.2)

/-! ## Statements -/

/-- `sqlite3.OperationalError`. -/
def noSuchTable (table : String) : Exc := ⟨.other, "no such table: " ++ table⟩

/-- `CREATE VIRTUAL TABLE IF NOT EXISTS … USING vss0(embedding(dim))`. -/
def create (table : String) : Except Exc (VssDb β) :=
  match db.get? table with
  | some _ => .ok db
  | none => .ok (db.insert table (.vss S.dim []))

/-- The next rowid of `vss_nodes`. -/
def nextRowid (rows : Index (NodeRow.rowid (β := β))) : ℕ :=
  (rows.values.map NodeRow.rowid).foldr max 0 + 1

/-- A statement on `vss_nodes` with its columns. -/
def onNodes (f : Index (NodeRow.rowid (β := β)) → Index (NodeRow.rowid (β := β))) :
    Except Exc (VssDb β) :=
  match db.nodeRows with
  | some rows => .ok (db.insert nodesKey (.nodes (f rows)))
  | none => .error (noSuchTable nodesKey)

/-- `INSERT OR REPLACE INTO vss_nodes …`. -/
def replaceNode (nodeId : String) (embedding : β) (workspaceId : String) : Except Exc (VssDb β) :=
  db.onNodes fun rows =>
    (rows.filter fun r => !(r.workspaceId = workspaceId ∧ r.nodeId = nodeId)).put
      { rowid := nextRowid rows, workspaceId, nodeId, embedding }

/-- `DELETE FROM table WHERE p(rowid)`, where `p` reads `vss_nodes`. -/
def deleteFrom (table : String) (p : List (NodeRow β) → ℕ → Bool) : Except Exc (VssDb β) :=
  match db.get? table, db.nodeRows with
  | some t, some rows => .ok (db.insert table (t.delete (p rows.values)))
  | none, _ => .error (noSuchTable table)
  | _, none => .error (noSuchTable nodesKey)

/-- The virtual table takes one row after the other; `vss_nodes` refuses a row without its other
columns. -/
def insertRows (t : VssTable β) : List (ℕ × β) → Except Exc (VssTable β)
  | [] => .ok t
  | row :: rows =>
    match t with
    | .nodes _ => .error ⟨.other, "NOT NULL constraint failed: vss_nodes.workspace_id"⟩
    | .vss dim vectors =>
      if S.accepts dim row.2 then insertRows (.vss dim (vectors ++ [row])) rows
      else .error ⟨.other, "Expected a vector of the dimension"⟩

/-- `INSERT INTO table(rowid, embedding) SELECT … FROM vss_nodes WHERE …`. -/
def insertVectors (table nodeId workspaceId : String) : Except Exc (VssDb β) :=
  match db.get? table, db.nodeRows with
  | some t, some rows =>
    let selected := rows.values.filter fun r => r.workspaceId = workspaceId ∧ r.nodeId = nodeId
    (insertRows S t (selected.map fun r => (r.rowid, r.embedding))).map (db.insert table)
  | none, _ => .error (noSuchTable table)
  | _, none => .error (noSuchTable nodesKey)

/-- `DROP TABLE IF EXISTS`. -/
def drop (table : String) : Except Exc (VssDb β) := .ok (db.erase table)

/-- The statements of a call, up to the first one that fails. Each is done whole or not at all; what
is done stays in the open transaction. -/
def execute : List (VssDb β → Except Exc (VssDb β)) → VssDb β → VssDb β × Option Exc
  | [], db => (db, none)
  | statement :: statements, db =>
    match statement db with
    | .ok db => execute statements db
    | .error exc => (db, some exc)

end VssDb

/-- A writing call for a workspace. -/
inductive VssCall (β : Type) where
  | add (nodeId : String) (embedding : β)
  | remove (nodeId : String)
  | clearWorkspace

namespace VssCall

variable {β : Type} (S : VssSetup β) (workspaceId : String)

/-- `add`, `remove` and `clear_workspace`. -/
def statements : VssCall β → List (VssDb β → Except Exc (VssDb β))
  | add nodeId embedding =>
    let table := tableKey workspaceId
    [(·.create S table),
      (·.replaceNode nodeId embedding workspaceId),
      (·.deleteFrom table fun rows rowid =>
        rows.any fun n => n.rowid = rowid ∧ n.workspaceId = workspaceId ∧ n.nodeId = nodeId),
      (·.insertVectors S table nodeId workspaceId)]
  | remove nodeId =>
    [(·.onNodes fun rows => rows.filter fun r =>
        !(r.workspaceId = workspaceId ∧ r.nodeId = nodeId)),
      (·.deleteFrom (tableKey workspaceId) fun rows rowid =>
        !rows.any fun n => n.rowid = rowid ∧ n.workspaceId = workspaceId)]
  | clearWorkspace =>
    [(·.onNodes fun rows => rows.filter fun r => !(r.workspaceId = workspaceId)),
      (·.drop (tableKey workspaceId))]

/-- The database after a call, and what it raised. -/
def apply (db : VssDb β) (call : VssCall β) : VssDb β × Option Exc :=
  VssDb.execute (call.statements S workspaceId) db

end VssCall

end Hermes

import Hermes.Lib.Base64
import Hermes.Lib.Dict
import Hermes.Spec.Base

/-!
# Configuration entries and their store (`kernel/config_domain.py`, `kernel/config_store.py`)

A `ConfigEntry` is a mutable object: a vault and an in-memory store that hold the
same entry see each other's changes to it. Entries therefore live on a heap
(`ObjId → Option ConfigEntry`), and the cache of the vault and the maps of the
in-memory store hold their addresses. A SQLite store holds rows.
-/

namespace Hermes

/-! ## Domain -/

inductive ConfigScope where
  | global | agent | workflow | plugin | mcpServer
  deriving DecidableEq, Repr

def ConfigScope.value : ConfigScope → String
  | .global => "global"
  | .agent => "agent"
  | .workflow => "workflow"
  | .plugin => "plugin"
  | .mcpServer => "mcp_server"

/-- The scope, scope id and key that address an entry or a secret. -/
structure Triple where
  scope : ConfigScope
  scopeId : Option String
  key : String
  deriving DecidableEq, Repr

abbrev Bytes := List UInt8

structure ConfigEntry extends Triple where
  value : String
  version : ℤ := 1
  updatedAt : ℕ
  encrypted : Bool := false
  deleted : Bool := false
  deriving DecidableEq, Repr

structure SecretValue extends Triple where
  ciphertext : Bytes
  nonce : Bytes
  tag : Bytes
  version : ℤ := 1
  rotatedAt : ℕ
  deriving DecidableEq, Repr

structure AuditEntry where
  entryId : String
  who : String
  action : String
  resource : String
  result : String
  timestamp : ℕ
  detail : String := ""
  deriving DecidableEq, Repr

/-- The entry is one of those asked for. -/
def AuditEntry.asked (a : AuditEntry) (key accessor : Option String) (since till : Option ℕ) :
    Bool :=
  (key.all fun key => a.resource = "secret:" ++ key) && (accessor.all fun accessor => a.who = accessor) &&
    (since.all fun since => since ≤ a.timestamp) && (till.all fun till => a.timestamp ≤ till)

/-- `_b64e`. -/
def b64e (data : Bytes) : String := String.ofList (Base64.encode data)

/-- `_b64d`. -/
def b64d (text : String) : Bytes := Base64.decode text.toList

/-! ## Addresses -/

/-- `ConfigVault._ckey`. -/
def ckey (t : Triple) : String :=
  t.scope.value ++ ":" ++ orElse t.scopeId "global" ++ ":" ++ t.key

/-- `ConfigStore._sid`. -/
def sid (scopeId : Option String) : String := orElse scopeId "__global__"

/-- `ConfigStore._unsid`. -/
def unsid (s : String) : Option String := if s = "__global__" then none else some s

/-- `ConfigStore._key`. -/
def skey (t : Triple) : String := t.scope.value ++ ":" ++ sid t.scopeId ++ ":" ++ t.key

/-- The primary key of a row. -/
structure Pk where
  scope : ConfigScope
  scopeId : String
  key : String
  deriving DecidableEq, Repr

def pk (t : Triple) : Pk := ⟨t.scope, sid t.scopeId, t.key⟩

/-- The address that a row is read back with. -/
def Pk.triple (p : Pk) : Triple := ⟨p.scope, unsid p.scopeId, p.key⟩

/-! ## Rows -/

structure ConfigRow where
  value : String
  encrypted : Bool
  version : ℤ
  updatedAt : ℕ
  deleted : Bool
  deriving DecidableEq, Repr

structure SecretRow where
  ciphertext : String
  nonce : String
  tag : String
  version : ℤ
  rotatedAt : ℕ
  deriving DecidableEq, Repr

def ConfigEntry.toRow (e : ConfigEntry) : ConfigRow :=
  ⟨e.value, e.encrypted, e.version, e.updatedAt, e.deleted⟩

/-- `_row_to_config`. -/
def rowToConfig (p : Pk) (r : ConfigRow) : ConfigEntry :=
  { p.triple with
    value := r.value, version := r.version, updatedAt := r.updatedAt
    encrypted := r.encrypted, deleted := r.deleted }

def SecretValue.toRow (s : SecretValue) : SecretRow :=
  ⟨b64e s.ciphertext, b64e s.nonce, b64e s.tag, s.version, s.rotatedAt⟩

/-- `_row_to_secret`. -/
def rowToSecret (p : Pk) (r : SecretRow) : SecretValue :=
  { p.triple with
    ciphertext := b64d r.ciphertext, nonce := b64d r.nonce, tag := b64d r.tag
    version := r.version, rotatedAt := r.rotatedAt }

/-! ## The store -/

/-- The address of an entry object: the clock reading of the call that made it and the
cache key it was made for. -/
structure ObjId where
  time : ℕ
  name : String
  deriving DecidableEq, Repr

abbrev Heap := ObjId → Option ConfigEntry

/-- Assign the object at an address. -/
def Heap.put (h : Heap) (i : ObjId) (e : ConfigEntry) : Heap :=
  fun j => if j = i then some e else h j

/-- A vault's store: none, a `ConfigStore(db_path=None)`, or one on a database. -/
inductive Store where
  | none
  | memory (config : Dict String ObjId) (secrets : Dict String SecretValue)
      (audit : List AuditEntry)
  | sqlite (config : Dict Pk ConfigRow) (secrets : Dict Pk SecretRow)
      (audit : Dict String AuditEntry)

namespace Store

def isNone : Store → Bool
  | .none => true
  | _ => false

/-- `INSERT OR REPLACE`: the row moves to the end of the table. -/
def replace {ν : Type} (d : Dict Pk ν) (p : Pk) (v : ν) : Dict Pk ν := (d.erase p).insert p v

/-- `get_config`: the stored object, or a new one read from a row. -/
def getConfig (st : Store) (h : Heap) (now : ℕ) (t : Triple) : Option (ObjId × ConfigEntry) :=
  match st with
  | .none => Option.none
  | .memory config _ _ => (config.get? (skey t)).bind fun i => (h i).map (i, ·)
  | .sqlite config _ _ =>
    (config.get? (pk t)).map fun r => (⟨now, ckey t⟩, rowToConfig (pk t) r)

/-- `put_config`. The in-memory store keeps the object itself. -/
def putConfig (st : Store) (h : Heap) (i : ObjId) (e : ConfigEntry) : Heap × Store :=
  match st with
  | .none => (h, .none)
  | .memory config secrets audit =>
    (h.put i e, .memory (config.insert (skey e.toTriple) i) secrets audit)
  | .sqlite config secrets audit =>
    (h, .sqlite (replace config (pk e.toTriple) e.toRow) secrets audit)

/-- What marks an entry deleted, in the vault and in the store. -/
def markDeleted (now : ℕ) (e : ConfigEntry) : ConfigEntry :=
  { e with deleted := true, version := e.version + 1, updatedAt := now }

/-- `delete_config`. -/
def deleteConfig (st : Store) (h : Heap) (now : ℕ) (t : Triple) : Heap × Store :=
  match st.getConfig h now t with
  | Option.none => (h, st)
  | some (i, e) => st.putConfig h i (markDeleted now e)

/-- `list_config(None, None, include_deleted=True)`: every entry, with its address. -/
def listConfig (st : Store) (h : Heap) (now : ℕ) : List (ObjId × ConfigEntry) :=
  match st with
  | .none => []
  | .memory config _ _ => config.values.filterMap fun i => (h i).map (i, ·)
  | .sqlite config _ _ =>
    config.entries.map fun (p, r) => (⟨now, ckey p.triple⟩, rowToConfig p r)

def getSecret (st : Store) (t : Triple) : Option SecretValue :=
  match st with
  | .none => Option.none
  | .memory _ secrets _ => secrets.get? (skey t)
  | .sqlite _ secrets _ => (secrets.get? (pk t)).map (rowToSecret (pk t))

/-- `put_secret`; `rotate_secret` is the same. -/
def putSecret (st : Store) (s : SecretValue) : Store :=
  match st with
  | .none => .none
  | .memory config secrets audit => .memory config (secrets.insert (skey s.toTriple) s) audit
  | .sqlite config secrets audit =>
    .sqlite config (replace secrets (pk s.toTriple) s.toRow) audit

/-- `list_secrets()`. -/
def listSecrets (st : Store) : List SecretValue :=
  match st with
  | .none => []
  | .memory _ secrets _ => secrets.values
  | .sqlite _ secrets _ => secrets.entries.map fun (p, r) => rowToSecret p r

def putAudit (st : Store) (a : AuditEntry) : Store :=
  match st with
  | .none => .none
  | .memory config secrets audit => .memory config secrets (audit ++ [a])
  | .sqlite config secrets audit => .sqlite config secrets ((audit.erase a.entryId).insert a.entryId a)

/-- The entries that `list_audit` goes through. -/
def auditRows (st : Store) : List AuditEntry :=
  match st with
  | .none => []
  | .memory _ _ audit => audit
  | .sqlite _ _ audit => audit.values.mergeSort fun a b => a.timestamp ≤ b.timestamp

/-- `list_audit(key, accessor, since, until)`. -/
def listAudit (st : Store) (key accessor : Option String) (since till : Option ℕ) :
    List AuditEntry :=
  st.auditRows.filter fun a => a.asked key accessor since till

end Store

/-!
## A configuration store on its own (`kernel/config_store.py`)

The operations of a `ConfigStore` one after the other. Each call that puts an entry has
an object of its own for it, and reads the clock once. Left out: the audit log, `reload`,
and errors of the database.
-/

inductive StoreOp where
  | putConfig (e : ConfigEntry)
  | getConfig (t : Triple)
  | deleteConfig (t : Triple)
  | listConfig (scope : Option ConfigScope) (scopeId : Option String) (includeDeleted : Bool)
  | putSecret (v : SecretValue)
  | getSecret (t : Triple)
  | rotateSecret (v : SecretValue)
  | listSecrets (scope : Option ConfigScope) (scopeId : Option String)
  deriving DecidableEq, Repr

/-- What an operation returns. -/
inductive StoreAnswer where
  | nothing
  | entry (e : Option ConfigEntry)
  | success (b : Bool)
  | entries (es : List ConfigEntry)
  | secret (v : Option SecretValue)
  | secrets (vs : List SecretValue)
  deriving DecidableEq, Repr

/-- A store, with the entry objects that were put into it. -/
structure ConfigStore where
  store : Store
  heap : Heap := fun _ => none
  objects : ℕ := 0

namespace ConfigStore

def inMemory : ConfigStore := { store := .memory ∅ ∅ [] }

def onSqlite : ConfigStore := { store := .sqlite ∅ ∅ ∅ }

variable (c : ConfigStore)

/-- The filter of `list_config` and `list_secrets`. -/
def wanted (scope : Option ConfigScope) (scopeId : Option String) (t : Triple) : Bool :=
  match scope with
  | none => true
  | some sc => t.scope = sc ∧ truthy scopeId = truthy t.scopeId

/-- `list_config(include_deleted=True)`. -/
def entries (now : ℕ) : List ConfigEntry := (c.store.listConfig c.heap now).map (·.2)

def putConfig (e : ConfigEntry) : ConfigStore :=
  let (heap, store) := c.store.putConfig c.heap ⟨c.objects, ""⟩ e
  { store, heap, objects := c.objects + 1 }

def getConfig (now : ℕ) (t : Triple) : Option ConfigEntry :=
  (c.store.getConfig c.heap now t).map (·.2)

def deleteConfig (now : ℕ) (t : Triple) : Bool × ConfigStore :=
  let (heap, store) := c.store.deleteConfig c.heap now t
  ((c.store.getConfig c.heap now t).isSome, { c with store, heap })

def listConfig (now : ℕ) (scope : Option ConfigScope) (scopeId : Option String)
    (includeDeleted : Bool) : List ConfigEntry :=
  (c.entries now).filter fun e => wanted scope scopeId e.toTriple ∧ (includeDeleted ∨ ¬ e.deleted)

/-- `put_secret`; `rotate_secret` is the same. -/
def putSecret (v : SecretValue) : ConfigStore := { c with store := c.store.putSecret v }

def getSecret (t : Triple) : Option SecretValue := c.store.getSecret t

def listSecrets (scope : Option ConfigScope) (scopeId : Option String) : List SecretValue :=
  c.store.listSecrets.filter fun v => wanted scope scopeId v.toTriple

/-- One operation at clock reading `now`. -/
def call (now : ℕ) : StoreOp → StoreAnswer × ConfigStore
  | .putConfig e => (.nothing, c.putConfig e)
  | .getConfig t => (.entry (c.getConfig now t), c)
  | .deleteConfig t => (.success (c.deleteConfig now t).1, (c.deleteConfig now t).2)
  | .listConfig scope scopeId includeDeleted =>
    (.entries (c.listConfig now scope scopeId includeDeleted), c)
  | .putSecret v => (.nothing, c.putSecret v)
  | .getSecret t => (.secret (c.getSecret t), c)
  | .rotateSecret v => (.nothing, c.putSecret v)
  | .listSecrets scope scopeId => (.secrets (c.listSecrets scope scopeId), c)

end ConfigStore

end Hermes

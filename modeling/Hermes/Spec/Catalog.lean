import Hermes.Spec.Json
import Hermes.Spec.Marketplace

/-!
# Remote catalogs (`kernel/marketplace.py`, `kernel/marketplace_domain.py`)

A package with all its fields, its JSON, and what `discover` makes of the items of a catalog. What
`float` and `int` of the standard library make of a value is a parameter. Left out: the texts of a
`ValidationError`, and ids and times of entries.
-/

namespace Hermes

def PluginStatus.value : PluginStatus → String
  | .available => "available"
  | .installing => "installing"
  | .installed => "installed"
  | .failed => "failed"
  | .disabled => "disabled"

namespace Catalog

/-! ## Packages -/

/-- The limits of a policy (ADR-028). -/
structure ResourceLimit where
  cpuMs : PyFloat := ⟨"1000.0", some 1000⟩
  memMb : PyFloat := ⟨"128.0", some 128⟩
  maxCalls : ℤ := 100
  deriving DecidableEq, Repr

/-- The policy of a package (ADR-028). -/
structure SandboxPolicy where
  permissions : List Permission := []
  resourceLimits : ResourceLimit := {}
  deriving DecidableEq, Repr

/-- A `PluginPackage`. -/
structure PluginPackage where
  packageId : String
  name : String
  version : String
  source : PluginSource
  entrypoint : String
  capabilities : List String := []
  dependencies : List String := []
  checksum : Option String := none
  signature : Option String := none
  metadata : Dict String Json := ∅
  status : PluginStatus := .available
  installedAt : Option ℕ := none
  createdAt : ℕ
  policy : Option SandboxPolicy := none
  requiredSecrets : List String := []

/-- What `discover` records of an item besides the package. -/
structure Entry extends CatalogEntry where
  rating : PyFloat
  downloadCount : ℤ
  deriving DecidableEq, Repr

/-! ## Their JSON -/

def textJson (s : String) : Json := .str (py s)

def textsJson (xs : List String) : Json := .arr (xs.map textJson)

def orNull (x : Option Json) : Json := x.getD .null

/-- A `float`: `inf` and `nan` are written as `null`. -/
def floatJson (x : PyFloat) : Json := if x.value.isSome then .float x else .null

def ResourceLimit.toJson (l : ResourceLimit) : Json :=
  .obj [(py "cpu_ms", floatJson l.cpuMs), (py "mem_mb", floatJson l.memMb),
    (py "max_calls", .int l.maxCalls)]

def SandboxPolicy.toJson (p : SandboxPolicy) : Json :=
  .obj [(py "permissions", .arr (p.permissions.map fun permission =>
      .obj [(py "action", textJson permission.action), (py "resource", textJson permission.resource)])),
    (py "resource_limits", p.resourceLimits.toJson)]

/-- The fields of a package, with the text of a moment. -/
def PluginPackage.fields (iso : ℕ → String) (p : PluginPackage) : List (PyStr × Json) :=
  [(py "package_id", textJson p.packageId),
    (py "name", textJson p.name),
    (py "version", textJson p.version),
    (py "source", textJson p.source.value),
    (py "entrypoint", textJson p.entrypoint),
    (py "capabilities", textsJson p.capabilities),
    (py "dependencies", textsJson p.dependencies),
    (py "checksum", orNull (p.checksum.map textJson)),
    (py "signature", orNull (p.signature.map textJson)),
    (py "metadata", .obj (p.metadata.entries.map fun kv => (py kv.1, kv.2))),
    (py "status", textJson p.status.value),
    (py "installed_at", orNull (p.installedAt.map fun moment => textJson (iso moment))),
    (py "created_at", textJson (iso p.createdAt)),
    (py "policy", orNull (p.policy.map SandboxPolicy.toJson)),
    (py "required_secrets", textsJson p.requiredSecrets)]

/-- `json.loads(package.model_dump_json())`. -/
def PluginPackage.toJson (iso : ℕ → String) (p : PluginPackage) : Json := .obj (p.fields iso)

/-! ## Python's conversions -/

def typeError (text : String) : Exc := ⟨.other, text⟩

def validationError (model : String) : Exc := ⟨.valueError, "validation error for " ++ model⟩

/-- `list(v)`. -/
def pyList : Json → Except Exc (List Json)
  | .arr xs => .ok xs
  | .obj kvs => .ok (kvs.map fun kv => .str kv.1)
  | .str s => .ok (s.map fun ch => .str [ch])
  | v => .error (typeError ("'" ++ v.typeName ++ "' object is not iterable"))

/-- The `i`-th element of what `dict` is called with, as a pair. -/
def pyPair (i : ℕ) (v : Json) : Except Exc (Json × Json) :=
  match pyList v with
  | .error _ => .error (typeError ("cannot convert dictionary update sequence element #" ++ toString i ++
      " to a sequence"))
  | .ok [key, value] =>
    if key.hashable then .ok (key, value)
    else .error (typeError ("unhashable type: '" ++ key.typeName ++ "'"))
  | .ok xs => .error ⟨.valueError, "dictionary update sequence element #" ++ toString i ++
      " has length " ++ toString xs.length ++ "; 2 is required"⟩

def pyPairs : ℕ → List Json → Except Exc (List (Json × Json))
  | _, [] => .ok []
  | i, v :: vs => do
    let pair ← pyPair i v
    let pairs ← pyPairs (i + 1) vs
    return pair :: pairs

/-- `dict(v)`, in the order of its writes. -/
def pyDict : Json → Except Exc (List (Json × Json))
  | .obj kvs => .ok (kvs.map fun kv => (.str kv.1, kv.2))
  | v => do pyPairs 0 (← pyList v)

/-! ## The fields of a model -/

/-- The characters, if there is no surrogate among them. -/
def chars? : PyStr → Option (List Char)
  | [] => some []
  | .char c :: s => (chars? s).map (c :: ·)
  | .surrogate _ :: _ => none

/-- A field of type `str`. -/
def asStr : Json → Except Exc String
  | .str s => match chars? s with
    | some cs => .ok (String.ofList cs)
    | none => .error (validationError "PluginPackage")
  | _ => .error (validationError "PluginPackage")

/-- A field of type `str | None`. -/
def asOptional : Json → Except Exc (Option String)
  | .null => .ok none
  | v => (asStr v).map some

/-- A field of type `list[str]`. -/
def asTexts : List Json → Except Exc (List String)
  | [] => .ok []
  | v :: vs => do
    let text ← asStr v
    let texts ← asTexts vs
    return text :: texts

/-- A field of type `dict[str, Any]`. -/
def asDict : Dict String Json → List (Json × Json) → Except Exc (Dict String Json)
  | d, [] => .ok d
  | d, (key, value) :: pairs => do
    let key ← asStr key
    asDict (d.insert key value) pairs

/-- `PluginSource(v)`. -/
def sourceOf (v : Json) : Except Exc PluginSource :=
  let sources : List PluginSource := [.localSource, .remote, .marketplace, .builtin, .mcpServer]
  match sources.find? fun source => v.isStr (py source.value) with
  | some source => .ok source
  | none => .error ⟨.valueError, "not a valid PluginSource"⟩

/-! ## Discovery -/

/-- `float(v)` and `int(v)`. -/
structure Numbers where
  float : Json → Except Exc PyFloat
  int : Json → Except Exc ℤ

/-- `item.get(key, default)`. -/
def get (kvs : List (PyStr × Json)) (key : String) (default : Json) : Json :=
  (kvs.lookup (py key)).getD default

/-- `item[key]`. -/
def index (kvs : List (PyStr × Json)) (key : String) : Except Exc Json :=
  match kvs.lookup (py key) with
  | some v => .ok v
  | none => .error ⟨.keyError, "'" ++ key ++ "'"⟩

/-- The package of the `i`-th item of a catalog. -/
def packageOf (now i : ℕ) (kvs : List (PyStr × Json)) : Except Exc PluginPackage := do
  let packageId := get kvs "package_id" (get kvs "name" (textJson ("pkg-" ++ toString i)))
  let name ← index kvs "name"
  let source ← sourceOf (get kvs "source" (textJson "marketplace"))
  let capabilities ← pyList (get kvs "capabilities" (.arr []))
  let dependencies ← pyList (get kvs "dependencies" (.arr []))
  let metadata ← pyDict (get kvs "metadata" (.obj []))
  -- the model checks its fields
  let packageId ← asStr packageId
  let name ← asStr name
  let version ← asStr (get kvs "version" (textJson "0.0.0"))
  let entrypoint ← asStr (get kvs "entrypoint" (textJson ""))
  let capabilities ← asTexts capabilities
  let dependencies ← asTexts dependencies
  let checksum ← asOptional (get kvs "checksum" .null)
  let signature ← asOptional (get kvs "signature" .null)
  let metadata ← asDict ∅ metadata
  return { packageId, name, version, source, entrypoint, capabilities, dependencies, checksum, signature,
           metadata, createdAt := now }

/-- The entry of an item of a catalog. -/
def entryOf (num : Numbers) (sourceUrl packageId : String) (kvs : List (PyStr × Json)) :
    Except Exc Entry := do
  let rating ← (kvs.lookup (py "rating")).elim (.ok ⟨"0.0", some 0⟩) num.float
  let downloadCount ← (kvs.lookup (py "download_count")).elim (.ok 0) num.int
  return { packageId, sourceUrl, rating, downloadCount }

/-- The `i`-th item of a catalog. -/
def decode (num : Numbers) (now i : ℕ) (sourceUrl : String) : Json → Except Exc (PluginPackage × Entry)
  | .obj kvs => do
    let package ← packageOf now i kvs
    let entry ← entryOf num sourceUrl package.packageId kvs
    return (package, entry)
  | v => .error ⟨.attributeError, "'" ++ v.typeName ++ "' object has no attribute 'get'"⟩

/-- What a marketplace has discovered: `_catalog`, `_available`, the maps of its store, if it has one,
and the events. -/
structure Discoveries where
  catalog : List Entry := []
  available : Dict String PluginPackage := ∅
  store : Option (List Entry × Dict String PluginPackage) := none
  events : List MarketEvent := []

/-- An item is recorded. -/
def Discoveries.record (d : Discoveries) (sourceUrl : String) (p : PluginPackage) (entry : Entry) :
    Discoveries where
  catalog := d.catalog ++ [entry]
  available := d.available.insert p.packageId p
  store := d.store.map fun (catalog, packages) =>
    (catalog ++ [entry], packages.insert p.packageId p)
  events := d.events ++ [.pluginDiscovered p.packageId p.name p.source.value p.version sourceUrl]

/-- `discover`, from the `i`-th item on. -/
def discover (num : Numbers) (now : ℕ) (sourceUrl : String) :
    ℕ → List Json → Discoveries → Except Exc Unit × Discoveries
  | _, [], d => (.ok (), d)
  | i, item :: items, d =>
    match decode num now i sourceUrl item with
    | .error e => (.error e, d)
    | .ok (p, entry) => discover num now sourceUrl (i + 1) items (d.record sourceUrl p entry)

end Catalog

end Hermes

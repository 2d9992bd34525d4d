import Hermes.Lib.Dict
import Hermes.Spec.Guard

/-!
# The plugin marketplace (`kernel/marketplace.py`, `kernel/marketplace_store.py`)

A package is a mutable object: the caller, the marketplace and its store hold references
to the same ones. The objects are a list here, a reference is a position in it, and a
new object comes last. A catalog entry is under a fresh id, so it comes last too. Left
out: the rows of a store on a database (a copy that nothing reads before the next
start), nodes, `metadata`, `signature`, ratings, and `list_available`.
-/

namespace Hermes

/-! ## Domain -/

inductive PluginSource where
  | localSource | remote | marketplace | builtin | mcpServer
  deriving DecidableEq, Repr

def PluginSource.value : PluginSource → String
  | .localSource => "local"
  | .remote => "remote"
  | .marketplace => "marketplace"
  | .builtin => "builtin"
  | .mcpServer => "mcp_server"

inductive PluginStatus where
  | available | installing | installed | failed | disabled
  deriving DecidableEq, Repr

/-- A `PluginPackage` with all its fields. -/
structure Plugin extends PluginPackage where
  name : String
  version : String := "0.0.0"
  source : PluginSource
  entrypoint : String
  dependencies : List String := []
  checksum : Option String := none
  status : PluginStatus := .available
  installedAt : Option ℕ := none
  createdAt : ℕ := 0
  policy : Option GuardPolicy := none
  requiredSecrets : List String := []
  deriving DecidableEq, Repr

structure CatalogEntry where
  packageId : String
  sourceUrl : String
  deriving DecidableEq, Repr

/-- What an item of a remote catalog declares, with its defaults. -/
structure CatalogItem where
  packageId : String
  name : String
  version : String := "0.0.0"
  source : PluginSource := .marketplace
  entrypoint : String := ""
  capabilities : List String := []
  dependencies : List String := []
  checksum : Option String := none
  deriving DecidableEq, Repr

inductive MarketEvent where
  | pluginDiscovered (packageId name source version sourceUrl : String)
  | pluginInstalled (packageId name version source : String) (secretsResolved : Bool)
  | pluginInstallFailed (packageId name reason : String)
  deriving DecidableEq, Repr

/-- `repr` of a list of texts. -/
def pyReprList (xs : List String) : String := "[" ++ ", ".intercalate (xs.map pyRepr) ++ "]"

/-! ## The store -/

/-- The maps of a `MarketplaceStore`, of references and of entries. -/
structure MarketplaceStore where
  packages : Dict String ℕ := ∅
  catalog : List CatalogEntry := []

namespace MarketplaceStore

variable (s : MarketplaceStore)

/-- `put_package` of the object at `i`, which has the id `packageId`. -/
def putPackage (packageId : String) (i : ℕ) : MarketplaceStore :=
  { s with packages := s.packages.insert packageId i }

def getPackage (packageId : String) : Option ℕ := s.packages.get? packageId

def deletePackage (packageId : String) : MarketplaceStore :=
  { s with packages := s.packages.erase packageId }

def putCatalogEntry (entry : CatalogEntry) : MarketplaceStore :=
  { s with catalog := s.catalog ++ [entry] }

end MarketplaceStore

/-! ## The marketplace -/

structure Marketplace where
  objects : List Plugin := []
  installed : Dict String ℕ := ∅
  available : Dict String ℕ := ∅
  catalog : List CatalogEntry := []
  store : Option MarketplaceStore := none
  guard : Option Guard := none
  events : List MarketEvent := []

/-- The answer of `vault.resolve_secret` for each key of a package, if a vault is wired. -/
abbrev SecretAnswers := Option (String → Except Exc String)

namespace Marketplace

/-- `_ALLOWED_ACTIONS`. -/
def allowedActions : List String :=
  ["execute", "discover", "network", "file.read", "file.write", "subprocess", "memory", "cpu"]

variable (sha256 : String → String) (m : Marketplace)

/-- A new object. -/
def allocate (p : Plugin) : Marketplace := { m with objects := m.objects ++ [p] }

/-- The object at `i` is assigned. -/
def assign (i : ℕ) (p : Plugin) : Marketplace := { m with objects := m.objects.set i p }

def emit (ev : MarketEvent) : Marketplace := { m with events := m.events ++ [ev] }

/-- `self._store.put_package(package)`, if there is a store. -/
def putPackage (packageId : String) (i : ℕ) : Marketplace :=
  { m with store := m.store.map (·.putPackage packageId i) }

/-- An entry of the catalog, in memory and in the store. -/
def putCatalogEntry (entry : CatalogEntry) : Marketplace :=
  { m with
    catalog := m.catalog ++ [entry]
    store := m.store.map (·.putCatalogEntry entry) }

/-! ## Discovery -/

/-- One item of `discover`. -/
def discoverItem (now : ℕ) (sourceUrl : String) (item : CatalogItem) : Marketplace :=
  let i := m.objects.length
  let p : Plugin :=
    { packageId := item.packageId, capabilities := item.capabilities, name := item.name,
      version := item.version, source := item.source, entrypoint := item.entrypoint,
      dependencies := item.dependencies, checksum := item.checksum, createdAt := now }
  let m := (m.allocate p).putCatalogEntry ⟨p.packageId, sourceUrl⟩
  let m := { m with available := m.available.insert p.packageId i }
  -- in the store it takes the place of a package with its id
  (m.putPackage p.packageId i).emit
    (.pluginDiscovered p.packageId p.name p.source.value p.version sourceUrl)

/-- `discover`: the items before one that is rejected are recorded. -/
def discover (now : ℕ) (sourceUrl : String) :
    List (Except Exc CatalogItem) → Marketplace → Except Exc Unit × Marketplace
  | [], m => (.ok (), m)
  | .error x :: _, m => (.error x, m)
  | .ok item :: items, m => discover now sourceUrl items (m.discoverItem now sourceUrl item)

/-- `discover_mcp_tools` with the tools that the gateway lists, or its exception. The virtual
packages go to `_mcp_packages`, which only `list_available` reads. -/
def discoverMcpTools (sourceUrl : String) : Except Exc (List String) → Except Exc Unit × Marketplace
  | .error x => (.error x, m)
  | .ok tools => (.ok (), tools.foldl (fun m tool =>
      let packageId := "mcp:" ++ sourceUrl ++ "::" ++ tool
      -- an error of the store is swallowed here, and its map is written before it
      (m.putCatalogEntry ⟨packageId, sourceUrl⟩).emit
        (.pluginDiscovered packageId tool PluginSource.mcpServer.value "0.0.0" sourceUrl)) m)

/-! ## Installation -/

/-- The ids that count as installed in `validate_package`. -/
def knownIds : List String :=
  match m.store with
  -- every row counts, whatever its status
  | some s => s.packages.values.filterMap fun i => (m.objects[i]?).map (·.packageId)
  | none => m.installed.keys

/-- The ids that count as available in `validate_package`. -/
def catalogIds : List String :=
  match m.store with
  | some s => s.catalog.map (·.packageId)
  | none => m.catalog.map (·.packageId)

/-- `validate_package`: the reason why a package is refused. -/
def validatePackage (p : Plugin) : Option String :=
  let bad := match p.policy with
    | none => []
    | some policy => (policy.permissions.map (·.action)).filter (· ∉ allowedActions)
  let mismatch := match truthy p.checksum with
    | none => false
    | some checksum => sha256 p.entrypoint ≠ checksum
  let missing := p.dependencies.filter fun d => d ∉ m.knownIds ∧ d ∉ m.catalogIds
  if bad ≠ [] then some ("disallowed policy actions: " ++ pyReprList (bad.dedup.mergeSort (· ≤ ·)))
  else if mismatch then some "checksum mismatch"
  else if missing ≠ [] then some ("missing dependencies: " ++ pyReprList missing)
  else none

/-- The required secrets that a vault does not resolve. -/
def missingSecrets (resolve : String → Except Exc String) : List String → Except Exc (List String)
  | [] => .ok []
  | key :: keys =>
    match resolve key with
    | .ok _ => missingSecrets resolve keys
    | .error x =>
      if x.kind = .keyError ∨ x.kind = .runtimeError then
        (missingSecrets resolve keys).map (key :: ·)
      else .error x

/-- Why `install` refuses a package, if it does; resolving a secret may raise. -/
def refusal (vault : SecretAnswers) (p : Plugin) : Except Exc (Option String) :=
  match m.validatePackage sha256 p with
  | some reason => .ok (some reason)
  | none =>
    match vault with
    | none => .ok none
    | some resolve =>
      (missingSecrets resolve p.requiredSecrets).map fun missing =>
        if missing = [] then none else some ("missing_required_secrets: " ++ pyReprList missing)

/-- `self._guard.register_policy(package.package_id, package.policy)`, if both are there. -/
def registerPolicy (p : Plugin) : Marketplace :=
  match p.policy with
  | none => m
  | some policy => { m with guard := m.guard.map (·.registerPolicy p.packageId policy) }

/-- `install` of the object at `i`. -/
def install (now : ℕ) (vault : SecretAnswers) (i : ℕ) : Except Exc ℕ × Marketplace :=
  match m.objects[i]? with
  | none => (.error ⟨.attributeError, "no such package"⟩, m)
  | some p =>
    match m.refusal sha256 vault p with
    | .error x => (.error x, m)
    | .ok (some reason) =>
      let m := m.assign i { p with status := .failed }
      let m := m.emit (.pluginInstallFailed p.packageId p.name reason)
      (.ok i, m.putPackage p.packageId i)
    | .ok none =>
      let m := m.registerPolicy p
      -- `INSTALLING` lasts for one `await`
      let m := m.assign i { p with status := .installed, installedAt := some now }
      let m := { m with installed := m.installed.insert p.packageId i }
      let m := m.putPackage p.packageId i
      (.ok i, m.emit (.pluginInstalled p.packageId p.name p.version p.source.value
        (p.requiredSecrets ≠ [] ∧ vault.isSome)))

/-- `uninstall`. -/
def uninstall (packageId : String) : Bool × Marketplace :=
  -- a row of the store is removed whatever its status
  let removed := (m.installed.get? packageId).or (m.store.bind (·.getPackage packageId))
  let m := { m with installed := m.installed.erase packageId }
  match removed with
  | none => (false, m)
  | some _ => (true, { m with store := m.store.map (·.deletePackage packageId) })

/-- The text after the last dot. -/
def afterDot (entrypoint : String) : String :=
  String.ofList (entrypoint.toList.reverse.takeWhile (· ≠ '.')).reverse

/-- `register_local`: a new object, which is installed without validation. -/
def registerLocal (now : ℕ) (entrypoint : String) (capabilities : List String)
    (name : Option String) : Marketplace :=
  let i := m.objects.length
  let p : Plugin :=
    { packageId := entrypoint, capabilities, name := orElse name (afterDot entrypoint),
      source := .localSource, entrypoint, status := .installed, installedAt := some now,
      createdAt := now }
  let m := m.allocate p
  let m := { m with installed := m.installed.insert p.packageId i }
  (m.putPackage p.packageId i).emit
    (.pluginInstalled p.packageId p.name p.version p.source.value false)

/-! ## Queries -/

/-- The object at a reference has a status. -/
def hasStatus (status : PluginStatus) (i : ℕ) : Bool :=
  (m.objects[i]?).any (·.status = status)

def listInstalled : List ℕ :=
  match m.store with
  | some s => s.packages.values.filter (m.hasStatus .installed)
  | none => m.installed.values.filter (m.hasStatus .installed)

def getPackage (packageId : String) : Option ℕ :=
  match m.store with
  | some s => s.getPackage packageId
  | none => (m.installed.get? packageId).or (m.available.get? packageId)

end Marketplace

/-! ## Operations in sequence -/

inductive MarketOp where
  /-- A caller makes a package. -/
  | create (p : Plugin)
  | discover (sourceUrl : String) (items : List (Except Exc CatalogItem))
  | install (vault : SecretAnswers) (i : ℕ)
  | registerLocal (entrypoint : String) (capabilities : List String) (name : Option String)
  | uninstall (packageId : String)
  | discoverMcpTools (sourceUrl : String) (tools : Except Exc (List String))

def Marketplace.apply (sha256 : String → String) (m : Marketplace) : ℕ × MarketOp → Marketplace
  | (_, .create p) => m.allocate p
  | (now, .discover sourceUrl items) => (m.discover now sourceUrl items).2
  | (now, .install vault i) => (m.install sha256 now vault i).2
  | (now, .registerLocal entrypoint capabilities name) =>
    m.registerLocal now entrypoint capabilities name
  | (_, .uninstall packageId) => (m.uninstall packageId).2
  | (_, .discoverMcpTools sourceUrl tools) => (m.discoverMcpTools sourceUrl tools).2

end Hermes

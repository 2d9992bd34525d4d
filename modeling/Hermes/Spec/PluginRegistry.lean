import Hermes.Lib.Index
import Hermes.Spec.Base

/-!
# The plugin registry (`PluginRegistry` of `kernel/registry.py`)

Each call runs without a wait once it has the lock. Instances are of any type. Left out:
`load_paths`, which calls `register_sync` for what a loader returns.
-/

namespace Hermes

/-- A `PluginManifest`: the fields that the registry reads. -/
structure PluginManifest where
  name : String
  version : String := "1.0.0"
  capabilities : List String := []
  entrypoint : String
  deriving DecidableEq, Repr

/-- A plugin in the registry. -/
structure RegisteredPlugin (ι : Type) where
  manifest : PluginManifest
  instance' : ι
  deriving DecidableEq

namespace RegisteredPlugin

/-- `manifest.plugin_id`. -/
def pluginId {ι : Type} (p : RegisteredPlugin ι) : String := p.manifest.name

end RegisteredPlugin

/-- `PluginInfo`. -/
structure PluginInfo where
  name : String
  version : String
  capabilities : List String
  entrypoint : String
  status : String
  deriving DecidableEq, Repr

/-- A `PluginRegistry`, with the modules that it has dropped from `sys.modules` and the plugins whose
`plugin.disabled` it has published. -/
structure PluginRegistry (ι : Type) where
  plugins : Index (RegisteredPlugin.pluginId (ι := ι)) := ∅
  disabled : Finset String := ∅
  bus : Bool := false
  unloaded : List String := []
  published : List String := []

/-- A call that changes the registry. `disable` finds its module imported or not, and an event loop
running or not. -/
inductive PluginCall (ι : Type) where
  | register (manifest : PluginManifest) (inst : ι)
  | registerSync (manifest : PluginManifest) (inst : ι)
  | disable (pluginId : String) (imported running : Bool)
  | enable (pluginId : String)
  | unregister (pluginId : String)
  | clear

namespace PluginRegistry

variable {ι : Type} (r : PluginRegistry ι)

/-- `register_sync`. -/
def registerSync (manifest : PluginManifest) (inst : ι) : Except Exc String × PluginRegistry ι :=
  let pid := manifest.name
  if (r.plugins.get? pid).isSome then
    (.error ⟨.valueError, "plugin '" ++ pid ++ "' already registered"⟩, r)
  else if manifest.entrypoint = "" then
    (.error ⟨.valueError, "plugin '" ++ pid ++ "' has empty entrypoint"⟩, r)
  else
    (.ok pid,
      { r with plugins := r.plugins.put ⟨manifest, inst⟩, disabled := r.disabled.erase pid })

/-- `register`: the same with the lock. -/
def register (manifest : PluginManifest) (inst : ι) : Except Exc String × PluginRegistry ι :=
  r.registerSync manifest inst

/-- `list_plugins`. -/
def listPlugins : List PluginInfo :=
  r.plugins.values.map fun p =>
    { name := p.pluginId
      version := p.manifest.version
      capabilities := p.manifest.capabilities
      entrypoint := p.manifest.entrypoint
      status := if p.pluginId ∈ r.disabled then "disabled" else "loaded" }

/-- `get_sync`. -/
def getSync (pluginId : String) : Option ι :=
  if pluginId ∈ r.disabled then none
  else (r.plugins.get? pluginId).map RegisteredPlugin.instance'

/-- `is_disabled`. -/
def isDisabled (pluginId : String) : Bool := pluginId ∈ r.disabled

/-- `manifest.entrypoint.split(":", 1)[0]`. -/
def moduleName (entrypoint : String) : String :=
  String.ofList (entrypoint.toList.takeWhile (· ≠ ':'))

/-- `disable`. -/
def disable (pluginId : String) (imported running : Bool) : Bool × PluginRegistry ι :=
  match r.plugins.get? pluginId with
  | none => (false, r)
  | some p =>
    (true,
      { r with
        disabled := insert pluginId r.disabled
        unloaded := if imported then r.unloaded ++ [moduleName p.manifest.entrypoint] else r.unloaded
        published := if r.bus && running then r.published ++ [pluginId] else r.published })

/-- `enable`. -/
def enable (pluginId : String) : Bool × PluginRegistry ι :=
  if (r.plugins.get? pluginId).isSome then
    (true, { r with disabled := r.disabled.erase pluginId })
  else (false, r)

/-- `unregister`. -/
def unregister (pluginId : String) : Bool × PluginRegistry ι :=
  ((r.plugins.get? pluginId).isSome, { r with plugins := r.plugins.erase pluginId })

/-- `get`. -/
def get (pluginId : String) : Option (PluginManifest × ι) :=
  (r.plugins.get? pluginId).map fun p => (p.manifest, p.instance')

/-- `get_by_capability`. -/
def getByCapability (capability : String) : List ι :=
  (r.plugins.values.filter fun p => capability ∈ p.manifest.capabilities).map
    RegisteredPlugin.instance'

/-- `clear`. -/
def clear : PluginRegistry ι := { r with plugins := ∅, disabled := ∅ }

def step (r : PluginRegistry ι) : PluginCall ι → PluginRegistry ι
  | .register manifest inst => (r.register manifest inst).2
  | .registerSync manifest inst => (r.registerSync manifest inst).2
  | .disable pluginId imported running => (r.disable pluginId imported running).2
  | .enable pluginId => (r.enable pluginId).2
  | .unregister pluginId => (r.unregister pluginId).2
  | .clear => r.clear

/-- The instance of a plugin that is disabled. -/
def OfDisabled (inst : ι) : Prop :=
  ∃ pluginId ∈ r.disabled, ∃ p, r.plugins.get? pluginId = some p ∧ p.instance' = inst

/-- The plugins that are disabled are registered. -/
def DisabledKnown : Prop := ∀ pluginId ∈ r.disabled, pluginId ∈ r.plugins.keys

/-- No look-up returns the instance of a plugin that is disabled. -/
structure Unreachable : Prop where
  getSync : ∀ pluginId, ∀ inst ∈ r.getSync pluginId, ¬ r.OfDisabled inst
  get : ∀ pluginId, ∀ entry ∈ r.get pluginId, ¬ r.OfDisabled entry.2
  getByCapability : ∀ capability, ∀ inst ∈ r.getByCapability capability, ¬ r.OfDisabled inst

end PluginRegistry

end Hermes

import Hermes.Spec.Marketplace

/-!
# Capabilities from the marketplace (`kernel/agent.py`, `kernel/capability.py`)

`AgentRuntime.install_capability` with the registry that its caller passes. Left out:
agents, their graphs, `execute`, and what the registry resolves tools for.
-/

namespace Hermes

/-! ## The registry -/

structure Capability where
  name : String
  description : String
  tools : List String := []
  deriving DecidableEq, Repr

/-- A `CapabilityRegistry`: each capability is under a fresh id, so a new one comes last. -/
structure CapabilityRegistry where
  caps : List Capability := []
  deriving DecidableEq, Repr

namespace CapabilityRegistry

variable (r : CapabilityRegistry)

def names : List String := r.caps.map (·.name)

/-- `register_sync`. -/
def register (cap : Capability) : Except Exc CapabilityRegistry :=
  if cap.name ∈ r.names then
    .error ⟨.valueError, "Capability name " ++ pyRepr cap.name ++ " already registered"⟩
  else .ok ⟨r.caps ++ [cap]⟩

/-- `for cap in caps: await registry.register(cap)`. -/
def registerAll : List Capability → CapabilityRegistry → Except Exc Unit × CapabilityRegistry
  | [], r => (.ok (), r)
  | cap :: caps, r =>
    match r.register cap with
    | .error x => (.error x, r)
    | .ok r => registerAll caps r

end CapabilityRegistry

/-! ## The runtime -/

/-- The guard of a runtime: none, one of its own, or the one of the marketplace. -/
inductive GuardWiring where
  | none
  | own (g : Guard)
  | shared

structure AgentRuntime where
  marketplace : Option Marketplace := none
  guard : GuardWiring := .none

/-- A call of `install_capability`: the registry, what the vault of the marketplace answers, and
what becomes of the log and the metric, if an observability manager is wired. -/
structure InstallCall where
  now : ℕ
  packageId : String
  registry : Option CapabilityRegistry := none
  vault : SecretAnswers := none
  observe : Except Exc Unit := .ok ()

/-- What a call leaves. -/
structure InstallOutcome where
  answer : Except Exc ℕ
  runtime : AgentRuntime
  registry : Option CapabilityRegistry

namespace AgentRuntime

variable (sha256 : String → String) (t : AgentRuntime)

/-- `self._guard`. -/
def wiredGuard : Option Guard :=
  match t.guard with
  | .none => none
  | .own g => some g
  | .shared => t.marketplace.bind (·.guard)

/-- The capability that a package declares under a name. -/
def capabilityOf (p : Plugin) (name : String) : Capability :=
  { name, description := "installed from " ++ p.name ++ " " ++ p.version }

/-- The capabilities of the package are registered, if a registry is given. -/
def registerCapabilities (p : Plugin) :
    Option CapabilityRegistry → Except Exc Unit × Option CapabilityRegistry
  | none => (.ok (), none)
  | some r =>
    let (answer, r) := r.registerAll (p.capabilities.map (capabilityOf p))
    (answer, some r)

/-- `self._guard.register_policy(installed.package_id, installed.policy)`, if both are there. -/
def registerPolicy (p : Plugin) : AgentRuntime :=
  match p.policy, t.guard with
  | none, _ => t
  | some _, .none => t
  | some policy, .own g => { t with guard := .own (g.registerPolicy p.packageId policy) }
  | some _, .shared => { t with marketplace := t.marketplace.map (·.registerPolicy p) }

/-- What comes after `marketplace.install`, with the package that it returns. -/
def finishInstall (call : InstallCall) (i : ℕ) (p : Plugin) : InstallOutcome :=
  match registerCapabilities p call.registry with
  | (.error x, registry) => ⟨.error x, t, registry⟩
  | (.ok (), registry) =>
    match call.observe with
    | .error x => ⟨.error x, t, registry⟩
    -- the policy comes last, after everything that may raise
    | .ok () => ⟨.ok i, t.registerPolicy p, registry⟩

/-- `install_capability`. -/
def installCapability (call : InstallCall) : InstallOutcome :=
  match t.marketplace with
  | none =>
    ⟨.error ⟨.runtimeError, "AgentRuntime has no marketplace wired"⟩, t, call.registry⟩
  | some mp =>
    match mp.getPackage call.packageId with
    | none => ⟨.error ⟨.valueError, "package '" ++ call.packageId ++ "' not found in marketplace"⟩,
        t, call.registry⟩
    | some i =>
      match mp.install sha256 call.now call.vault i with
      | (.error x, mp) => ⟨.error x, { t with marketplace := some mp }, call.registry⟩
      | (.ok i, mp) =>
        -- a package that was refused is returned as well, and its status is not looked at
        let t := { t with marketplace := some mp }
        match mp.objects[i]? with
        | none => ⟨.error ⟨.attributeError, "no such package"⟩, t, call.registry⟩
        | some p => t.finishInstall call i p

end AgentRuntime

end Hermes

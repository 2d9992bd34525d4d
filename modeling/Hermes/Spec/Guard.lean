import Hermes.Lib.Dict
import Hermes.Spec.Base

/-!
# The capability guard (`kernel/capability_guard.py`, `kernel/security_domain.py`)

Permissions, soft limits and their accounting, and the look-up of the installed
package that backs a capability. Milliseconds are integers.
-/

namespace Hermes

structure Permission where
  action : String
  resource : String
  deriving DecidableEq, Repr

/-- `Permission.matches`. -/
def Permission.permits (p : Permission) (action resource : String) : Bool :=
  p.action = action ∧ (p.resource = resource ∨ p.resource = "*")

/-- The ADR-028 policy of a package: permissions and the two limits that are enforced. -/
structure GuardPolicy where
  permissions : List Permission := []
  maxCalls : ℤ := 100
  cpuMs : ℤ := 1000
  deriving DecidableEq, Repr

def GuardPolicy.allows (p : GuardPolicy) (action resource : String) : Bool :=
  p.permissions.any (·.permits action resource)

structure Usage where
  calls : ℤ := 0
  cpuMs : ℤ := 0
  deriving DecidableEq, Repr

structure Guard where
  policies : Dict String GuardPolicy := ∅
  grants : Dict String (List Permission) := ∅
  usage : Dict String Usage := ∅

namespace Guard

/-- `register_policy`. -/
def registerPolicy (g : Guard) (packageId : String) (policy : GuardPolicy) : Guard :=
  { g with
    policies := g.policies.insert packageId policy
    usage := g.usage.insert packageId ((g.usage.get? packageId).getD {}) }

def grant (g : Guard) (packageId : String) (permission : Permission) : Guard :=
  { g with
    grants := g.grants.insert packageId
      ((g.grants.get? packageId).getD [] ++ [permission]) }

def check (g : Guard) (principal action resource : String) : Bool :=
  let grants := (g.grants.get? principal).getD []
  match g.policies.get? principal with
  | some p => p.allows action resource || grants.any (·.permits action resource)
  | none => grants.any (·.permits action resource) || grants.isEmpty

/-- `_resource_ok`: the limit that is used up, if any. -/
def exceeded (g : Guard) (packageId : String) : Option String :=
  match g.policies.get? packageId with
  | none => none
  | some p =>
    let usage := (g.usage.get? packageId).getD {}
    if p.maxCalls ≤ usage.calls then some "max_calls"
    else if p.cpuMs ≤ usage.cpuMs then some "cpu_ms"
    else none

/-- `_pre`: the audit result to record and the exception, when the call is refused. -/
def pre (g : Guard) (packageId action resource : String) : Except (String × Exc) Unit :=
  if g.check packageId action resource then
    match g.exceeded packageId with
    | none => .ok ()
    | some limit => .error ("limit_exceeded", ⟨.resourceLimitExceeded,
        "resource limit exceeded (" ++ limit ++ ") for " ++ packageId⟩)
  else .error ("denied", ⟨.permissionDenied,
    "permission denied: " ++ action ++ " on " ++ resource ++ " for " ++ packageId⟩)

/-- `_accrue`. -/
def accrue (g : Guard) (packageId : String) (ms : ℤ) : Guard :=
  let usage := (g.usage.get? packageId).getD {}
  { g with usage := g.usage.insert packageId ⟨usage.calls + 1, usage.cpuMs + ms⟩ }

end Guard

/-- What the engine reads of an installed package. -/
structure PluginPackage where
  packageId : String
  capabilities : List String
  deriving DecidableEq, Repr

/-- `_step_package_id` over the installed packages. -/
def stepPackageId (installed : List PluginPackage) (capability : String) : Option String :=
  (installed.find? fun p => p.capabilities.any fun cap =>
    cap = capability ∨ (cap ++ ".").toList.isPrefixOf capability.toList).map (·.packageId)

/-!
## Guarded calls in any order (`_GuardContext`)

A call enters the guard: it is refused, or its handler is called, with nothing to wait
for in between. A handler that gives an awaitable is in flight until its context is
left, by a return, an exception or a cancellation. A handler that raises at once never
gets there, and `__aexit__` is not run for it. Left out: the audit log and events.
-/

/-- A guard with the calls that it has let in. -/
structure GuardCalls where
  guard : Guard := {}
  /-- The package of each context that was entered and not left, oldest first. -/
  inFlight : List String := []
  /-- The package of each handler that raised when it was called. -/
  raised : List String := []
  /-- The package of each handler that was called. -/
  started : List String := []

/-- What happens around a guard, in any order. -/
inductive GuardEvent where
  | registerPolicy (packageId : String) (policy : GuardPolicy)
  | grant (packageId : String) (permission : Permission)
  /-- `__aenter__`; `raises`: the handler raises when it is called. -/
  | enter (packageId action resource : String) (raises : Bool)
  /-- `__aexit__` of the `n`-th context in flight, which took `ms`. -/
  | leave (n : ℕ) (ms : ℤ)
  deriving DecidableEq, Repr

namespace GuardCalls

variable (s : GuardCalls)

def enter (packageId action resource : String) (raises : Bool) : GuardCalls :=
  match s.guard.pre packageId action resource with
  | .error _ => s
  | .ok () =>
    -- a handler that raises here never comes to `__aexit__`
    if raises then
      { s with raised := s.raised ++ [packageId], started := s.started ++ [packageId] }
    else { s with inFlight := s.inFlight ++ [packageId], started := s.started ++ [packageId] }

def leave (n : ℕ) (ms : ℤ) : GuardCalls :=
  match s.inFlight[n]? with
  | none => s
  | some packageId =>
    -- only now is the call counted
    { s with guard := s.guard.accrue packageId (max 0 ms), inFlight := s.inFlight.eraseIdx n }

def step : GuardEvent → GuardCalls
  | .registerPolicy packageId policy => { s with guard := s.guard.registerPolicy packageId policy }
  | .grant packageId permission => { s with guard := s.guard.grant packageId permission }
  | .enter packageId action resource raises => s.enter packageId action resource raises
  | .leave n ms => s.leave n ms

end GuardCalls

/-!
## The security store (`kernel/security_store.py`) and the guard that writes to it

A row holds the policy or the permission itself for its JSON text. Left out: the
audit log, which no decision reads, and events.
-/

/-- The tables of a database that a `SecurityStore` writes to. -/
structure SecurityDb where
  policies : Dict String GuardPolicy := ∅
  /-- Each row begins with its `package_id`. -/
  grants : Dict String (String × Permission) := ∅

structure SecurityStore where
  policies : Dict String GuardPolicy := ∅
  grants : Dict String (List Permission) := ∅
  db : Option SecurityDb := none

namespace SecurityStore

/-- `setdefault(package_id, []).append(permission)`. -/
def append (grants : Dict String (List Permission)) (packageId : String)
    (permission : Permission) : Dict String (List Permission) :=
  grants.insert packageId ((grants.get? packageId).getD [] ++ [permission])

/-- A store on a database: `_load_all`. -/
def reopen (db : SecurityDb) : SecurityStore where
  policies := db.policies.entries.foldl (fun m row => m.insert row.1 row.2) ∅
  grants := db.grants.values.foldl (fun m row => append m row.1 row.2) ∅
  db := some db

variable (s : SecurityStore)

def putPolicy (packageId : String) (policy : GuardPolicy) : SecurityStore :=
  { s with
    policies := s.policies.insert packageId policy
    db := s.db.map fun db => { db with policies := db.policies.replace packageId policy } }

def getPolicy (packageId : String) : Option GuardPolicy := s.policies.get? packageId

def putGrant (packageId : String) (permission : Permission) : SecurityStore :=
  { s with
    grants := append s.grants packageId permission
    db := s.db.map fun db => { db with
      grants := db.grants.replace
        (permission.action ++ ":" ++ permission.resource ++ ":" ++ packageId)
        (packageId, permission) } }

def getGrant (packageId : String) : List Permission := (s.grants.get? packageId).getD []

/-- The store on the same database, opened again. -/
def reopened : SecurityStore := (s.db.map reopen).getD s

end SecurityStore

/-- A `CapabilityGuard`, with its store if there is one. -/
structure CapabilityGuard extends Guard where
  store : Option SecurityStore := none

namespace CapabilityGuard

/-- A new guard. It does not look into the store. -/
def init (store : Option SecurityStore) : CapabilityGuard := { store }

variable (g : CapabilityGuard)

def registerPolicy (packageId : String) (policy : GuardPolicy) : CapabilityGuard :=
  { toGuard := g.toGuard.registerPolicy packageId policy
    store := g.store.map (·.putPolicy packageId policy) }

def grant (packageId : String) (permission : Permission) : CapabilityGuard :=
  { toGuard := g.toGuard.grant packageId permission
    store := g.store.map (·.putGrant packageId permission) }

end CapabilityGuard

inductive GuardOp where
  | registerPolicy (packageId : String) (policy : GuardPolicy)
  | grant (packageId : String) (permission : Permission)
  deriving DecidableEq, Repr

/-- The package that an operation is about. -/
def GuardOp.packageId : GuardOp → String
  | .registerPolicy packageId _ => packageId
  | .grant packageId _ => packageId

def CapabilityGuard.apply (g : CapabilityGuard) : GuardOp → CapabilityGuard
  | .registerPolicy packageId policy => g.registerPolicy packageId policy
  | .grant packageId permission => g.grant packageId permission

end Hermes

import Hermes.Spec.ConfigStore

/-!
# The configuration vault (`kernel/config_vault.py`)

Each operation takes the clock reading of its call. The vault's clock is read
several times within a call; the readings of one call are one number here.
-/

namespace Hermes

/-- What a cipher makes of a plaintext: ciphertext, `last_nonce` and `last_tag`. -/
structure Sealed where
  ciphertext : Bytes
  nonce : Bytes := []
  tag : Bytes := []
  deriving DecidableEq, Repr

/-- A cipher. Its encryption may depend on the moment (a fresh nonce), and both
directions may raise. -/
structure Cipher where
  encrypt : ℕ → String → Except Exc Sealed
  decrypt : Bytes → Except Exc String

/-- `_Base64Cipher`, the default stub: UTF-8, then base64. -/
def base64Cipher : Cipher where
  encrypt _ plaintext :=
    .ok { ciphertext := Base64.toAscii (Base64.encode plaintext.toUTF8.data.toList) }
  decrypt ciphertext :=
    match String.fromUTF8? ⟨(Base64.decode (Base64.ofAscii ciphertext)).toArray⟩ with
    | some p => .ok p
    | none => .error ⟨.valueError, "'utf-8' codec can't decode bytes"⟩

/-- What surrounds a vault: the wired cipher, if any, and the audit entry ids. -/
structure VaultEnv where
  cipher : Option Cipher
  uuid : ℕ → String := fun n => toString n

inductive VaultEvent where
  | configChanged (scope : ConfigScope) (scopeId : Option String) (key : String) (version : ℤ)
      (changedBy : String)
  | secretAccessed (key accessor action : String) (timestamp : ℕ)
  | configAccessDenied (principal key : String) (scope : ConfigScope) (reason : String)
  | secretRotated (key : String) (scope : ConfigScope) (scopeId : Option String) (rotatedAt : ℕ)
      (version : ℤ)
  | configReloaded (count : ℕ) (source : String)
  deriving DecidableEq, Repr

structure Vault where
  heap : Heap := fun _ => none
  config : Dict String ObjId := ∅
  secrets : Dict String SecretValue := ∅
  store : Store := .none
  audit : List AuditEntry := []
  events : List VaultEvent := []

namespace Vault

/-! ## Small updates -/

def emit (s : Vault) (e : VaultEvent) : Vault := { s with events := s.events ++ [e] }

/-- `self._config[k] = entry`, the entry being the object at `i`. -/
def bind (s : Vault) (k : String) (i : ObjId) (e : ConfigEntry) : Vault :=
  { s with heap := s.heap.put i e, config := s.config.insert k i }

/-- `self._secrets[k] = secret`. -/
def bindSecret (s : Vault) (k : String) (v : SecretValue) : Vault :=
  { s with secrets := s.secrets.insert k v }

def putConfig (s : Vault) (i : ObjId) (e : ConfigEntry) : Vault :=
  let (heap, store) := s.store.putConfig s.heap i e
  { s with heap, store }

def deleteConfig (s : Vault) (now : ℕ) (t : Triple) : Vault :=
  let (heap, store) := s.store.deleteConfig s.heap now t
  { s with heap, store }

def putSecret (s : Vault) (v : SecretValue) : Vault := { s with store := s.store.putSecret v }

def record (s : Vault) (a : AuditEntry) : Vault :=
  { s with audit := s.audit ++ [a], store := s.store.putAudit a }

/-! ## Look-ups -/

/-- The cached entry of a triple, with its address. -/
def cached (s : Vault) (t : Triple) : Option (ObjId × ConfigEntry) :=
  (s.config.get? (ckey t)).bind fun i => (s.heap i).map (i, ·)

/-- The cached entry, else the stored one. -/
def lookup (s : Vault) (now : ℕ) (t : Triple) : Option (ObjId × ConfigEntry) :=
  (s.cached t).or (s.store.getConfig s.heap now t)

/-- The cached secret, else the stored one. -/
def lookupSecret (s : Vault) (t : Triple) : Option SecretValue :=
  (s.secrets.get? (ckey t)).or (s.store.getSecret t)

/-! ## Configuration -/

def set (s : Vault) (now : ℕ) (t : Triple) (value changedBy : String) : ConfigEntry × Vault :=
  let version := match s.lookup now t with
    | some (_, e) => e.version + 1
    | none => 1
  let entry : ConfigEntry := { t with value, version, updatedAt := now }
  let i : ObjId := ⟨now, ckey t⟩
  let s := (s.bind (ckey t) i entry).putConfig i entry
  (entry, s.emit (.configChanged t.scope t.scopeId t.key version changedBy))

def get (s : Vault) (now : ℕ) (t : Triple) (default : Option String) : Option String × Vault :=
  match s.lookup now t with
  | none => (default, s)
  | some (i, e) => (if e.deleted then default else some e.value, s.bind (ckey t) i e)

def delete (s : Vault) (now : ℕ) (t : Triple) (changedBy : String) : Bool × Vault :=
  match s.lookup now t with
  | none => (false, s)
  | some (i, e) =>
    let s := (s.bind (ckey t) i (Store.markDeleted now e)).deleteConfig now t
    -- an in-memory store has bumped the version of the same object once more
    let version := ((s.heap i).map (·.version)).getD e.version
    (true, s.emit (.configChanged t.scope t.scopeId t.key version changedBy))

/-- `list_keys`. It changes nothing. -/
def listKeys (s : Vault) (now : ℕ) (scope : Option ConfigScope) (scopeId : Option String)
    (includeDeleted : Bool) : List String :=
  let wanted (e : ConfigEntry) : Bool := match scope with
    | none => true
    | some sc => e.scope = sc ∧ truthy scopeId = truthy e.scopeId
  let cached := s.config.entries.filterMap fun (k, i) => (s.heap i).map (k, ·)
  let stored := ((s.store.listConfig s.heap now).map (·.2)).filter wanted
  let entries := stored.foldl (fun d e => d.insert (ckey e.toTriple) e)
    (cached.foldl (fun (d : Dict String ConfigEntry) (k, e) => d.insert k e) ∅)
  let keys := (entries.values.filter fun e => wanted e ∧ (includeDeleted ∨ ¬ e.deleted)).map (·.key)
  keys.dedup.mergeSort (· ≤ ·)

/-! ## Secrets -/

def auditAccess (E : VaultEnv) (s : Vault) (now : ℕ) (key accessor action : String) : Vault :=
  (s.record
    { entryId := E.uuid now, who := accessor, action, resource := "secret:" ++ key,
      result := "allowed", timestamp := now }).emit
  (.secretAccessed key accessor action now)

def recordDenied (E : VaultEnv) (s : Vault) (now : ℕ) (principal key : String)
    (scope : ConfigScope) (reason : String) : Vault :=
  (s.record
    { entryId := E.uuid now, who := principal, action := "resolve", resource := "secret:" ++ key,
      result := "denied", timestamp := now, detail := reason }).emit
  (.configAccessDenied principal key scope reason)

/-- What `set_secret` and `rotate_secret` write once the plaintext is encrypted: the
secret, and its marker among the configuration entries. -/
def putSealed (s : Vault) (now : ℕ) (t : Triple) (version : ℤ) (x : Sealed) : SecretValue × Vault :=
  let secret : SecretValue :=
    { t with
      ciphertext := x.ciphertext, nonce := x.nonce, tag := x.tag, version, rotatedAt := now }
  let marker : ConfigEntry :=
    { t with value := b64e x.ciphertext, version, updatedAt := now, encrypted := true }
  let i : ObjId := ⟨now, ckey t⟩
  let s := (s.bindSecret (ckey t) secret).bind (ckey t) i marker
  (secret, (s.putSecret secret).putConfig i marker)

def secretVersion (s : Vault) (t : Triple) : ℤ :=
  match s.lookupSecret t with
  | some v => v.version + 1
  | none => 1

def setSecret (E : VaultEnv) (s : Vault) (now : ℕ) (t : Triple) (value changedBy : String) :
    Except Exc Triple × Vault :=
  match E.cipher with
  | none => (.error ⟨.runtimeError, "ConfigVault has no cipher wired; cannot store secrets"⟩, s)
  | some C =>
    match C.encrypt now value with
    | .error e => (.error e, s)
    | .ok x =>
      let (secret, s) := s.putSealed now t (s.secretVersion t) x
      (.ok t, s.emit (.configChanged t.scope t.scopeId t.key secret.version changedBy))

def resolveSecret (E : VaultEnv) (s : Vault) (now : ℕ) (t : Triple) (accessor : String) :
    Except Exc String × Vault :=
  match E.cipher with
  | none => (.error ⟨.runtimeError, "ConfigVault has no cipher wired; cannot resolve secrets"⟩, s)
  | some C =>
    match s.lookupSecret t with
    | none =>
      (.error ⟨.keyError, "secret '" ++ t.key ++ "' not found in scope " ++ t.scope.value ++ ":" ++
        orElse t.scopeId "global"⟩, s.recordDenied E now accessor t.key t.scope "secret_not_found")
    | some v =>
      let s := s.bindSecret (ckey t) v
      match C.decrypt v.ciphertext with
      | .error e => (.error e, s)
      | .ok plaintext => (.ok plaintext, s.auditAccess E now t.key accessor "resolve")

def rotateSecret (E : VaultEnv) (s : Vault) (now : ℕ) (t : Triple) (newValue rotatedBy : String) :
    Except Exc SecretValue × Vault :=
  match E.cipher with
  | none => (.error ⟨.runtimeError, "ConfigVault has no cipher wired; cannot rotate secrets"⟩, s)
  | some C =>
    match C.encrypt now newValue with
    | .error e => (.error e, s)
    | .ok x =>
      let (secret, s) := s.putSealed now t (s.secretVersion t) x
      let s := s.emit (.secretRotated t.key t.scope t.scopeId now secret.version)
      (.ok secret, s.auditAccess E now t.key rotatedBy "read")

/-- `get_audit_log`. -/
def getAuditLog (s : Vault) (key accessor : Option String) (since : Option ℕ) : List AuditEntry :=
  if s.store.isNone then s.audit.filter fun a => a.asked key accessor since none
  else s.store.listAudit key accessor since none

/-! ## Reload -/

def reload (s : Vault) (now : ℕ) (source : String) : ℕ × Vault :=
  if s.store.isNone then
    (s.config.entries.length, s.emit (.configReloaded s.config.entries.length source))
  else
    let entries := s.store.listConfig s.heap now
    let s := entries.foldl (fun s (i, e) => s.bind (ckey e.toTriple) i e)
      { s with config := ∅, secrets := ∅ }
    let s := s.store.listSecrets.foldl (fun s v => s.bindSecret (ckey v.toTriple) v) s
    (entries.length, s.emit (.configReloaded entries.length source))

/-- A new vault on the same store. Without a store there is nothing to build it on. -/
def rebuild (s : Vault) : Vault :=
  if s.store.isNone then s else { heap := s.heap, store := s.store }

/-! ## Runs -/

inductive Op where
  | set (t : Triple) (value changedBy : String)
  | get (t : Triple) (default : Option String)
  | delete (t : Triple) (changedBy : String)
  | listKeys (scope : Option ConfigScope) (scopeId : Option String) (includeDeleted : Bool)
  | setSecret (t : Triple) (value changedBy : String)
  | resolveSecret (t : Triple) (accessor : String)
  | rotateSecret (t : Triple) (value rotatedBy : String)
  | reload (source : String)
  | rebuild

/-- The state after one operation, called at clock reading `now`. -/
def step (E : VaultEnv) (now : ℕ) (s : Vault) : Op → Vault
  | .set t value changedBy => (s.set now t value changedBy).2
  | .get t default => (s.get now t default).2
  | .delete t changedBy => (s.delete now t changedBy).2
  | .listKeys _ _ _ => s
  | .setSecret t value changedBy => (s.setSecret E now t value changedBy).2
  | .resolveSecret t accessor => (s.resolveSecret E now t accessor).2
  | .rotateSecret t value rotatedBy => (s.rotateSecret E now t value rotatedBy).2
  | .reload source => (s.reload now source).2
  | .rebuild => s.rebuild

/-- The state after a list of operations, the first called at `now`. -/
def run (E : VaultEnv) : ℕ → Vault → List Op → Vault
  | _, s, [] => s
  | now, s, op :: ops => run E (now + 1) (s.step E now op) ops

end Vault

/-!
## Secrets that are set at the same time

`set_secret` and `rotate_secret` read the version of a secret, wait for the cipher, and
write. Calls on one secret overlap in any order. Nothing between a write and its event
waits for anything that could change the secret, so a call ends in one event here. The
nonce and the tag are read from the cipher when it ends.
-/

/-- A call that waits for the cipher. -/
structure SecretCall where
  rotate : Bool
  value : String
  changedBy : String
  begun : ℕ
  /-- The version that it will write. -/
  version : ℤ
  /-- How many secrets were written when it began. -/
  seen : ℕ
  deriving DecidableEq, Repr

/-- A vault with the calls on one secret. -/
structure SecretCalls where
  vault : Vault
  inFlight : List SecretCall := []
  /-- The secrets that were written and their plaintexts, oldest first. -/
  written : List (SecretValue × String) := []

inductive SecretEvent where
  /-- `set_secret`, or `rotate_secret`, up to `cipher.encrypt`. -/
  | begin (rotate : Bool) (value changedBy : String)
  /-- The `n`-th call in flight has its ciphertext, or the cipher has raised. -/
  | finish (n : ℕ) (nonce tag : Bytes)
  deriving DecidableEq, Repr

namespace SecretCalls

variable (E : VaultEnv) (t : Triple) (s : SecretCalls)

def begin (now : ℕ) (rotate : Bool) (value changedBy : String) : SecretCalls :=
  match E.cipher with
  | none => s
  | some _ =>
    { s with
      inFlight := s.inFlight ++
        [⟨rotate, value, changedBy, now, s.vault.secretVersion t, s.written.length⟩] }

/-- What a call emits and records once it has written. -/
def announce (v : Vault) (now : ℕ) (call : SecretCall) : Vault :=
  if call.rotate then
    (v.emit (.secretRotated t.key t.scope t.scopeId now call.version)).auditAccess E now t.key
      call.changedBy "read"
  else v.emit (.configChanged t.scope t.scopeId t.key call.version call.changedBy)

def finish (now n : ℕ) (nonce tag : Bytes) : SecretCalls :=
  match E.cipher, s.inFlight[n]? with
  | some C, some call =>
    match C.encrypt call.begun call.value with
    | .error _ => { s with inFlight := s.inFlight.eraseIdx n }
    | .ok x =>
      -- the version that was read before the wait
      let (secret, vault) := s.vault.putSealed now t call.version { x with nonce, tag }
      { vault := announce E t vault now call, inFlight := s.inFlight.eraseIdx n,
        written := s.written ++ [(secret, call.value)] }
  | _, _ => s

def step : ℕ × SecretEvent → SecretCalls
  | (now, .begin rotate value changedBy) => s.begin E t now rotate value changedBy
  | (now, .finish n nonce tag) => s.finish E t now n nonce tag

end SecretCalls

end Hermes

import Hermes.Spec.ConfigVault

/-!
# Interpolation of parameters (`kernel/agent.py`, `_interpolate_value`)

The tokens `${secrets.X}` and `${config.Y}` in the strings of a value are resolved
against a vault, one after the other.
-/

namespace Hermes

/-- A match of `\$\{(secrets|config)\.([^}]+)\}`. -/
structure Token where
  secret : Bool
  name : List Char
  text : List Char
  deriving DecidableEq, Repr

/-- The match of `head`, a name and `}` at the start of a text. -/
def tokenWith (secret : Bool) (head l : List Char) : Option Token :=
  if head.isPrefixOf l then
    let name := (l.drop head.length).takeWhile (· ≠ '}')
    if name ≠ [] ∧ (l.drop (head.length + name.length)).head? = some '}' then
      some ⟨secret, name, head ++ name ++ ['}']⟩
    else none
  else none

/-- The match at the start of a text. -/
def tokenAt (l : List Char) : Option Token :=
  (tokenWith true "$\x7bsecrets.".toList l).or (tokenWith false "$\x7bconfig.".toList l)

/-- `_INTERP_RE.finditer`, after `skip` characters that an earlier match has taken. -/
def tokensFrom : ℕ → List Char → List Token
  | _, [] => []
  | skip + 1, _ :: cs => tokensFrom skip cs
  | 0, c :: cs =>
    match tokenAt (c :: cs) with
    | some t => t :: tokensFrom (t.text.length - 1) cs
    | none => tokensFrom 0 cs

/-- `str.replace` of a non-empty text, after `skip` characters already replaced. -/
def replaceFrom (old new : List Char) : ℕ → List Char → List Char
  | _, [] => []
  | skip + 1, _ :: cs => replaceFrom old new skip cs
  | 0, c :: cs =>
    if old.isPrefixOf (c :: cs) then new ++ replaceFrom old new (old.length - 1) cs
    else c :: replaceFrom old new 0 cs

/-- What interpolation works on: the vault, the clock, and whether it has read a secret,
in plaintext or (as the value of its marker) encrypted. -/
structure Reading where
  vault : Vault
  tick : ℕ
  secret : Bool := false

/-- Where interpolation looks names up, and who asks. -/
structure Lookup where
  env : VaultEnv
  scope : ConfigScope
  scopeId : Option String
  accessor : String

/-- `_resolve`. -/
def resolveToken (L : Lookup) (t : Token) (s : Reading) : Except Exc (List Char) × Reading :=
  let at' : Triple := ⟨L.scope, L.scopeId, String.ofList t.name⟩
  if t.secret then
    let (r, v) := s.vault.resolveSecret L.env s.tick at' L.accessor
    (r.map String.toList, ⟨v, s.tick + 1, true⟩)
  else
    let marker := match s.vault.lookup s.tick at' with
      | some (_, e) => e.encrypted
      | none => false
    let (r, v) := s.vault.get s.tick at' none
    (.ok ((r.getD "").toList), ⟨v, s.tick + 1, s.secret || marker⟩)

/-- The tokens of a text, each replaced throughout it by its resolved value. -/
def resolveAll (L : Lookup) : List Token → List Char → Reading → Except Exc (List Char) × Reading
  | [], out, s => (.ok out, s)
  | t :: ts, out, s =>
    match resolveToken L t s with
    | (.error e, s) => (.error e, s)
    | (.ok v, s) => resolveAll L ts (replaceFrom t.text v 0 out) s

def interpolateText (L : Lookup) (text : List Char) (s : Reading) :
    Except Exc (List Char) × Reading :=
  match tokensFrom 0 text with
  | [] => (.ok text, s)
  | [t] =>
    if t.text = text then resolveToken L t s
    else resolveAll L [t] text s
  | ts => resolveAll L ts text s

mutual

/-- `_interpolate_value`. -/
def interpolateValue (L : Lookup) : Value → Reading → Except Exc Value × Reading
  | .dict kvs, s =>
    match interpolateDict L kvs s with
    | (.error e, s) => (.error e, s)
    | (.ok kvs, s) => (.ok (.dict kvs), s)
  | .list xs, s =>
    match interpolateList L xs s with
    | (.error e, s) => (.error e, s)
    | (.ok xs, s) => (.ok (.list xs), s)
  | .str t, s =>
    match interpolateText L t.toList s with
    | (.error e, s) => (.error e, s)
    | (.ok t, s) => (.ok (.str (String.ofList t)), s)
  | .none, s => (.ok .none, s)
  | .bool b, s => (.ok (.bool b), s)
  | .int n, s => (.ok (.int n), s)

def interpolateDict (L : Lookup) : List (String × Value) → Reading →
    Except Exc (List (String × Value)) × Reading
  | [], s => (.ok [], s)
  | (k, v) :: kvs, s =>
    match interpolateValue L v s with
    | (.error e, s) => (.error e, s)
    | (.ok v, s) =>
      match interpolateDict L kvs s with
      | (.error e, s) => (.error e, s)
      | (.ok kvs, s) => (.ok ((k, v) :: kvs), s)

def interpolateList (L : Lookup) : List Value → Reading → Except Exc (List Value) × Reading
  | [], s => (.ok [], s)
  | v :: vs, s =>
    match interpolateValue L v s with
    | (.error e, s) => (.error e, s)
    | (.ok v, s) =>
      match interpolateList L vs s with
      | (.error e, s) => (.error e, s)
      | (.ok vs, s) => (.ok (v :: vs), s)

end

end Hermes

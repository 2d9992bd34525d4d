import Mathlib.Tactic

/-!
# Values and exceptions

What the kernel passes around: JSON-like values (parameters, artifact contents)
and the exceptions that its control flow tells apart.
-/

namespace Hermes

/-- A JSON-like value: step parameters, artifact contents, event payloads. -/
inductive Value where
  | none
  | bool (b : Bool)
  | int (n : ℤ)
  | str (s : String)
  | list (xs : List Value)
  | dict (kvs : List (String × Value))

/-- The exception classes that the engine's `except` clauses tell apart. -/
inductive ExcKind where
  | permissionDenied
  | resourceLimitExceeded
  | sandboxError
  | timeoutError
  | circuitBreakerOpen
  | keyError
  | valueError
  | runtimeError
  | attributeError
  /-- `asyncio.CancelledError`: seen by a body that its sandbox timed out. -/
  | cancelled
  | other
  deriving DecidableEq, Repr

/-- A raised exception: its class and its text (`str(exc)`). -/
structure Exc where
  kind : ExcKind
  text : String
  deriving DecidableEq, Repr

/-- An optional string read as a Python condition: `None` and `""` are false. -/
def truthy : Option String → Option String
  | some s => if s = "" then none else some s
  | none => none

/-- `x or d` for an optional string. -/
def orElse (x : Option String) (d : String) : String := (truthy x).getD d

/-- A character in the `repr` of a text between the given quotes. -/
def pyReprChar (quote ch : Char) : String :=
  if ch = quote ∨ ch = Char.ofNat 92 then String.ofList [Char.ofNat 92, ch]
  else if ch = Char.ofNat 10 then "\\n"
  else if ch = Char.ofNat 13 then "\\r"
  else if ch = Char.ofNat 9 then "\\t"
  else if ch.toNat < 16 then "\\x0" ++ String.ofList (Nat.toDigits 16 ch.toNat)
  else if ch.toNat < 32 ∨ ch.toNat = 127 then "\\x" ++ String.ofList (Nat.toDigits 16 ch.toNat)
  else String.ofList [ch]

/-- `repr` of a text whose characters beyond ASCII are printable: in single quotes, unless it holds
such a quote and no double quote. -/
def pyRepr (s : String) : String :=
  let single := Char.ofNat 39
  let double := Char.ofNat 34
  let quote := if single ∈ s.toList ∧ double ∉ s.toList then double else single
  String.ofList [quote] ++ String.join (s.toList.map (pyReprChar quote)) ++ String.ofList [quote]

end Hermes

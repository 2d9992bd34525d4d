import Hermes.Spec.Base

/-!
# JSON values, as Python has them

What `json.loads` returns. A text is a list of code points, which may be lone surrogates
(`"\ud800"` is read as one), and a number is an `int` or a `float`.
-/

namespace Hermes

/-! ## Texts -/

/-- A code point: a character, or a surrogate, by its place from U+D800 on. -/
inductive PyChar where
  | char (c : Char)
  | surrogate (n : Fin 2048)
  deriving DecidableEq, Repr

abbrev PyStr := List PyChar

/-- A text without surrogates. -/
def py (s : String) : PyStr := s.toList.map .char

/-- `text.encode("utf-8")` does not raise. -/
def PyStr.Encodable (text : PyStr) : Prop := ∀ c ∈ text, ∃ ch, c = .char ch

instance : DecidablePred PyStr.Encodable := fun text =>
  decidable_of_iff (text.all fun c => match c with
    | .char _ => true
    | .surrogate _ => false) <| by
    unfold PyStr.Encodable
    rw [List.all_eq_true]
    refine forall₂_congr fun c _ => ?_
    cases c <;> simp

namespace PyStr

theorem encodable_chars (cs : List Char) : PyStr.Encodable (cs.map .char) := by
  intro c hc
  obtain ⟨ch, -, rfl⟩ := List.mem_map.1 hc
  exact ⟨ch, rfl⟩

theorem encodable_py (s : String) : PyStr.Encodable (py s) := encodable_chars s.toList

theorem encodable_append {s t : PyStr} :
    PyStr.Encodable (s ++ t) ↔ PyStr.Encodable s ∧ PyStr.Encodable t := List.forall_mem_append

end PyStr

/-! ## Values -/

/-- A `float`: its `repr`, and its value unless it is `inf` or `nan`. -/
structure PyFloat where
  text : String
  value : Option ℚ
  deriving DecidableEq, Repr

inductive Json where
  | null
  | bool (b : Bool)
  | int (n : ℤ)
  | float (x : PyFloat)
  | str (s : PyStr)
  | arr (xs : List Json)
  | obj (kvs : List (PyStr × Json))

namespace Json

/-- The value as a Python condition. -/
def truthy : Json → Bool
  | .null => false
  | .bool b => b
  | .int n => n ≠ 0
  | .float x => x.value ≠ some 0
  | .str s => s ≠ []
  | .arr xs => !xs.isEmpty
  | .obj kvs => !kvs.isEmpty

/-- `v or d`. -/
def orElse (v d : Json) : Json := if v.truthy then v else d

def isNull : Json → Bool
  | .null => true
  | _ => false

def isObj : Json → Bool
  | .obj _ => true
  | _ => false

/-- The value is this text. -/
def isStr (text : PyStr) : Json → Bool
  | .str s => s = text
  | _ => false

/-- `hash(v)` does not raise. -/
def hashable : Json → Bool
  | .arr _ => false
  | .obj _ => false
  | _ => true

/-- `type(v).__name__`. -/
def typeName : Json → String
  | .null => "NoneType"
  | .bool _ => "bool"
  | .int _ => "int"
  | .float _ => "float"
  | .str _ => "str"
  | .arr _ => "list"
  | .obj _ => "dict"

/-- `kvs.get(key)`. -/
def field (kvs : List (PyStr × Json)) (key : String) : Json := (kvs.lookup (py key)).getD .null

/-! ## Their texts -/

/-- A hexadecimal number with so many digits. -/
def hex (width n : ℕ) : PyStr :=
  let digits := Nat.toDigits 16 n
  (List.replicate (width - digits.length) '0' ++ digits).map .char

/-- A code point in the `repr` of a text between the given quotes. What is printable beyond ASCII is
a table of the standard library. -/
def reprChar (printable : Char → Bool) (quote : Char) : PyChar → PyStr
  | .surrogate n => py "\\u" ++ hex 4 (0xd800 + n)
  | .char ch =>
    if ch = quote ∨ ch = Char.ofNat 92 then [.char (Char.ofNat 92), .char ch]
    else if ch = Char.ofNat 10 then py "\\n"
    else if ch = Char.ofNat 13 then py "\\r"
    else if ch = Char.ofNat 9 then py "\\t"
    else if 32 ≤ ch.toNat ∧ ch.toNat < 127 ∨ 127 < ch.toNat ∧ printable ch then [.char ch]
    else if ch.toNat < 256 then py "\\x" ++ hex 2 ch.toNat
    else if ch.toNat < 65536 then py "\\u" ++ hex 4 ch.toNat
    else py "\\U" ++ hex 8 ch.toNat

/-- `repr` of a text: in single quotes, unless it holds such a quote and no double quote. -/
def reprStr (printable : Char → Bool) (s : PyStr) : PyStr :=
  let single := Char.ofNat 39
  let double := Char.ofNat 34
  let quote := if .char single ∈ s ∧ .char double ∉ s then double else single
  [.char quote] ++ s.flatMap (reprChar printable quote) ++ [.char quote]

mutual

/-- `repr(v)`. -/
def repr (printable : Char → Bool) : Json → PyStr
  | .null => py "None"
  | .bool b => py (if b then "True" else "False")
  | .int n => py (toString n)
  | .float x => py x.text
  | .str s => reprStr printable s
  | .arr xs => py "[" ++ reprList printable xs ++ py "]"
  | .obj kvs => py "\x7b" ++ reprFields printable kvs ++ py "\x7d"

def reprList (printable : Char → Bool) : List Json → PyStr
  | [] => []
  | [v] => repr printable v
  | v :: vs => repr printable v ++ py ", " ++ reprList printable vs

def reprFields (printable : Char → Bool) : List (PyStr × Json) → PyStr
  | [] => []
  | [(k, v)] => reprStr printable k ++ py ": " ++ repr printable v
  | (k, v) :: kvs => reprStr printable k ++ py ": " ++ repr printable v ++ py ", " ++
      reprFields printable kvs

end

/-- `str(v)`. -/
def text (printable : Char → Bool) : Json → PyStr
  | .str s => s
  | v => repr printable v

mutual

/-- `json.dumps(v, ensure_ascii=False).encode("utf-8")` does not raise: no text in the value has a
surrogate. -/
def encodable : Json → Bool
  | .str s => decide (PyStr.Encodable s)
  | .arr xs => encodableList xs
  | .obj kvs => encodableFields kvs
  | _ => true

def encodableList : List Json → Bool
  | [] => true
  | v :: vs => v.encodable && encodableList vs

def encodableFields : List (PyStr × Json) → Bool
  | [] => true
  | (k, v) :: kvs => decide (PyStr.Encodable k) && v.encodable && encodableFields kvs

end

end Json

end Hermes

import Mathlib.Data.List.DropRight
import Hermes.Lib.Chunks
import Hermes.Lib.Dict
import Hermes.Spec.McpServer

/-!
# The stdio transport (`mcp/server.py`)

`_send`, `_read_message` and the loop of `start`, over the `StreamReader` of `asyncio` with its limit.
`json.dumps` is written out; `json.loads` is a parameter, and so are the tables of the standard library
for characters beyond ASCII.
-/

namespace Hermes

/-! ## The standard library -/

/-- What these functions may raise. -/
inductive FramingExc where
  | unicodeEncode
  | memory
  | unicodeDecode
  | value
  | incompleteRead
  | jsonDecode
  deriving DecidableEq, Repr

/-- The tables of `str.strip`, `str.lower` and `int`, which are known for ASCII. -/
structure Unicode where
  space : Char → Bool
  decimal : Char → Option ℕ
  lower : PyStr → PyStr
  space_ascii : ∀ ch : Char, ch.toNat < 128 →
    space ch = decide (9 ≤ ch.toNat ∧ ch.toNat ≤ 13 ∨ 28 ≤ ch.toNat ∧ ch.toNat ≤ 32)
  decimal_ascii : ∀ ch : Char, ch.toNat < 128 →
    decimal ch = if ch.isDigit then some (ch.toNat - '0'.toNat) else none
  lower_ascii : ∀ text : List Char, (∀ ch ∈ text, ch.toNat < 128) →
    lower (text.map .char) = (text.map Char.toLower).map .char

namespace PyStr

/-- The largest size of an object. -/
def maxsize : ℕ := 2 ^ 63 - 1

/-- The characters of a text without surrogates. -/
def chars (text : PyStr) : Option (List Char) := text.mapM fun c => match c with
  | .char ch => some ch
  | .surrogate _ => none

/-- `text.encode("utf-8")`. -/
def encode (text : PyStr) : Except FramingExc (List UInt8) :=
  match text.chars with
  | none => .error .unicodeEncode
  | some chars =>
    let data := chars.flatMap String.utf8EncodeChar
    if maxsize < data.length then .error .memory else .ok data

/-- `data.decode("utf-8")`. -/
def decode (data : List UInt8) : Except FramingExc PyStr :=
  match data.toByteArray.utf8Decode? with
  | none => .error .unicodeDecode
  | some chars => .ok (chars.toList.map .char)

variable (U : Unicode)

def isSpace : PyChar → Bool
  | .char ch => U.space ch
  | .surrogate _ => false

/-- `text.strip()`. -/
def strip (text : PyStr) : PyStr := (text.dropWhile (isSpace U)).rdropWhile (isSpace U)

/-- `text.partition(sep)`, for one character: what is before it and behind it. -/
def partition (sep : Char) (text : PyStr) : PyStr × PyStr :=
  let before := text.takeWhile (· ≠ .char sep)
  (before, text.drop (before.length + 1))

/-- A decimal number, with single underscores between its digits. -/
def digits (last : Bool) (acc : ℕ) : PyStr → Option ℕ
  | [] => if last then some acc else none
  | .char ch :: text =>
    if ch = '_' then if last then digits false acc text else none
    else match U.decimal ch with
      | some d => digits true (10 * acc + d) text
      | none => none
  | .surrogate _ :: _ => none

/-- `int(text)`. How many digits it takes is a setting of the interpreter. -/
def int (text : PyStr) : Option ℤ :=
  let text := strip U text
  let (negative, text) := match text with
    | .char '-' :: rest => (true, rest)
    | .char '+' :: rest => (false, rest)
    | _ => (false, text)
  (digits U false 0 text).map fun n => if negative then -(n : ℤ) else (n : ℤ)

end PyStr

/-! ## `json.dumps` -/

namespace Json

/-- A character of a text, with `ensure_ascii=False`. -/
def dumpsChar : PyChar → PyStr
  | .surrogate n => [.surrogate n]
  | .char ch =>
    if ch = Char.ofNat 92 ∨ ch = Char.ofNat 34 then [.char (Char.ofNat 92), .char ch]
    else if ch = Char.ofNat 8 then py "\\b"
    else if ch = Char.ofNat 12 then py "\\f"
    else if ch = Char.ofNat 10 then py "\\n"
    else if ch = Char.ofNat 13 then py "\\r"
    else if ch = Char.ofNat 9 then py "\\t"
    else if ch.toNat < 32 then py "\\u" ++ hex 4 ch.toNat
    else [.char ch]

def dumpsStr (s : PyStr) : PyStr :=
  [.char (Char.ofNat 34)] ++ s.flatMap dumpsChar ++ [.char (Char.ofNat 34)]

def dumpsFloat (x : PyFloat) : PyStr :=
  if x.text = "nan" then py "NaN"
  else if x.text = "inf" then py "Infinity"
  else if x.text = "-inf" then py "-Infinity"
  else py x.text

mutual

/-- `json.dumps(v, ensure_ascii=False)`. -/
def dumps : Json → PyStr
  | .null => py "null"
  | .bool b => py (if b then "true" else "false")
  | .int n => py (toString n)
  | .float x => dumpsFloat x
  | .str s => dumpsStr s
  | .arr xs => py "[" ++ dumpsList xs ++ py "]"
  | .obj kvs => py "\x7b" ++ dumpsFields kvs ++ py "\x7d"

def dumpsList : List Json → PyStr
  | [] => []
  | [v] => dumps v
  | v :: vs => dumps v ++ py ", " ++ dumpsList vs

def dumpsFields : List (PyStr × Json) → PyStr
  | [] => []
  | [(k, v)] => dumpsStr k ++ py ": " ++ dumps v
  | (k, v) :: kvs => dumpsStr k ++ py ": " ++ dumps v ++ py ", " ++ dumpsFields kvs

end

end Json

/-! ## `StreamReader` -/

namespace StreamReader

open Chunks (Reader)

/-- The default limit. -/
def limit : ℕ := 2 ^ 16

/-- `readline()`. -/
def readline (r : Reader UInt8) : Except FramingExc (List UInt8) × Reader UInt8 :=
  match Chunks.readUntil limit 10 r with
  | (.ok line, r) => (.ok line, r)
  | (.error (.incomplete part), r) => (.ok part, r)
  | (.error (.overrun consumed), r) =>
    (.error .value, { r with buffer :=
      if r.buffer[consumed]? = some 10 then r.buffer.drop (consumed + 1) else [] })

/-- `readexactly(n)`. -/
def readexactly (n : ℤ) (r : Reader UInt8) : Except FramingExc (List UInt8) × Reader UInt8 :=
  if n < 0 then (.error .value, r)
  else match Chunks.readExactly n.toNat r with
    | (.ok data, r) => (.ok data, r)
    | (.error _, r) => (.error .incompleteRead, r)

/-- A line that is read is what is there to be read first. -/
theorem readline_rest {r r' : Reader UInt8} {line : List UInt8} (h : readline r = (.ok line, r')) :
    r.rest = line ++ r'.rest := by
  unfold readline at h
  split at h
  · rename_i hread
    cases h
    exact (Chunks.readUntil_rest hread).1
  · rename_i hread
    cases h
    obtain ⟨hall, hnone⟩ := Chunks.readUntil_incomplete hread
    rw [hall, hnone, List.append_nil]
  · cases h

theorem readline_shrinks {r r' : Reader UInt8} {line : List UInt8} (h : readline r = (.ok line, r'))
    (hline : line ≠ []) : r'.rest.length < r.rest.length := by
  have hlength := congrArg List.length (readline_rest h)
  have hpos := List.length_pos_iff.2 hline
  rw [List.length_append] at hlength
  omega

end StreamReader

/-! ## Frames -/

namespace McpServer

open Chunks (Reader)

/-- `_send`: what is written goes behind what the writer has; without one, nothing happens. -/
def send (writer : Option (List UInt8)) (obj : Json) : Except FramingExc (Option (List UInt8)) :=
  match writer with
  | none => .ok none
  | some written =>
    match obj.dumps.encode with
    | .error e => .error e
    | .ok data =>
      match (py ("Content-Length: " ++ toString data.length ++ "\r\n\r\n")).encode with
      | .error e => .error e
      | .ok header => .ok (some (written ++ (header ++ data)))

/-- `_send` of one object after the other. -/
def sendAll (writer : Option (List UInt8)) : List Json → Except FramingExc (Option (List UInt8))
  | [] => .ok writer
  | obj :: objs => match send writer obj with
    | .error e => .error e
    | .ok writer => sendAll writer objs

variable (U : Unicode)

/-- The loop of `_read_message` over the lines of the header. -/
def readHeaders (r : Reader UInt8) (headers : Dict PyStr PyStr) :
    Except FramingExc (Dict PyStr PyStr) × Reader UInt8 :=
  match _hread : StreamReader.readline r with
  | (.error e, r') => (.error e, r')
  | (.ok line, r') =>
    if _hend : line = [] ∨ line = [13, 10] then (.ok headers, r')
    else if 58 ∈ line then
      match PyStr.decode line with
      | .error e => (.error e, r')
      | .ok text =>
        let (k, v) := PyStr.partition ':' text
        readHeaders r' (headers.insert (U.lower (PyStr.strip U k)) (PyStr.strip U v))
    else readHeaders r' headers
termination_by r.rest.length
decreasing_by
  all_goals exact StreamReader.readline_shrinks _hread fun h => _hend (.inl h)

/-- `_read_message`. The message `None`, for a header without a length, is as `null`. -/
def readMessage (loads : PyStr → Except FramingExc Json) (r : Reader UInt8) :
    Except FramingExc Json × Reader UInt8 :=
  match readHeaders U r ∅ with
  | (.error e, r) => (.error e, r)
  | (.ok headers, r) =>
    match headers.get? (py "content-length") with
    | none => (.ok .null, r)
    | some text =>
      match PyStr.int U text with
      | none => (.error .value, r)
      | some n =>
        match StreamReader.readexactly n r with
        | (.error e, r) => (.error e, r)
        | (.ok body, r) =>
          match PyStr.decode body with
          | .error e => (.error e, r)
          | .ok text => (loads text, r)

/-- One `_read_message` after the other, with the number of chunks that come before each. -/
def readAll (loads : PyStr → Except FramingExc Json) :
    List ℕ → Reader UInt8 → List (Except FramingExc Json)
  | [], _ => []
  | n :: arrivals, r =>
    let (message, r') := readMessage U loads (r.arrive n)
    message :: readAll loads arrivals r'

/-! ## The loop of `start` -/

/-- How the loop ends: at the end of the stream, or with what `_handle` or `_send` raises. -/
inductive LoopEnd where
  | ended
  | handling (e : McpExc)
  | sending (e : FramingExc)
  deriving DecidableEq, Repr

/-- What a round finds: so many chunks that come before it, what the server works with, and whether
`feed_eof` has been called when it asks `at_eof`. -/
structure Round (ρ : Type) where
  arrivals : ℕ := 0
  host : McpHost ρ
  fed : Bool := false

/-- `at_eof()`, after a round that began with `before`. At the end of the stream, reading has waited
for `feed_eof`. -/
def atEof (fed : Bool) (before after : Reader UInt8) : Bool :=
  after.rest.isEmpty && (fed || before.rest.isEmpty)

/-- A round: how the loop ends with it, or what is left of the stream and has been written. -/
def round {ρ : Type} (loads : PyStr → Except FramingExc Json) (env : Round ρ) (r : Reader UInt8)
    (writer : Option (List UInt8)) : Except LoopEnd (Reader UInt8 × Option (List UInt8)) :=
  match readMessage U loads (r.arrive env.arrivals) with
  -- a read error is only logged
  | (.error _, r') => .ok (r', writer)
  | (.ok msg, r') =>
    if msg.isNull then if atEof env.fed r r' then .error .ended else .ok (r', writer)
    else match (handle env.host msg).1 with
      | .error e => .error (.handling e)
      | .ok none => .ok (r', writer)
      | .ok (some response) => match send writer response with
        | .error e => .error (.sending e)
        | .ok writer => .ok (r', writer)

/-- The loop of `start`, for at most `fuel` rounds: how it ends and what has been written by then, if
it does. -/
def start {ρ : Type} (loads : PyStr → Except FramingExc Json) : ℕ → (ℕ → Round ρ) → Reader UInt8 →
    Option (List UInt8) → Option (LoopEnd × Option (List UInt8))
  | 0, _, _, _ => none
  | fuel + 1, rounds, r, writer =>
    match round U loads (rounds 0) r writer with
    | .error e => some (e, writer)
    | .ok (r, writer) => start loads fuel (fun k => rounds (k + 1)) r writer

end McpServer

end Hermes

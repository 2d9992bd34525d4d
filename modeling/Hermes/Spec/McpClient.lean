import Hermes.Lib.Dict
import Hermes.Spec.McpServer

/-!
# The MCP client (`mcp/client.py`)

A client with its read loop, the requests that wait for their responses, and its ways to shut down.
Between two awaits nothing else happens, so a step goes from one await to the next. Left out: the
process itself, the cancelling of a caller, and what callers make of a response.
-/

namespace Hermes

/-- What a future is completed with: a response, or the text of an `MCPClientError`. -/
inductive RpcOutcome where
  | result (msg : List (PyStr × Json))
  | error (text : PyStr)

/-- What the client publishes. -/
inductive ClientNotice where
  | connected
  | disconnected
  | error (text : PyStr)

/-- An `MCPClient`. A future is named by its place among those created. -/
structure McpClient where
  connected : Bool := false
  shutdown : Bool := false
  /-- The read task is in its loop. -/
  reading : Bool := false
  /-- The calls of `disconnect` that wait for the process. -/
  disconnecting : ℕ := 0
  reqId : ℕ := 0
  pending : Dict ℕ ℕ := ∅
  futures : List (Option RpcOutcome) := []
  /-- What has been written to the process. -/
  sent : List Json := []
  notices : List ClientNotice := []

/-- What may happen: a call of a method of the client up to its next await, or what the read task
gets from `readline` and `json.loads`. -/
inductive ClientEvent where
  | connect
  /-- `_rpc`; `ok` says whether the request can be written. -/
  | rpc (method : PyStr) (params : Option Json) (ok : Bool)
  /-- A line without text, or one that raises `JSONDecodeError`. -/
  | skipped
  /-- `readline` or `json.loads` raises something else: a line that is too long, or not in UTF-8. -/
  | broken (text : PyStr)
  | message (msg : Json)
  | eof
  /-- `disconnect`, up to the end of the process. -/
  | disconnect
  /-- The rest of `disconnect`. -/
  | disconnected

namespace McpClient

variable (printable : Char → Bool)

/-- `_emit_error`. -/
def emitError (s : McpClient) (text : PyStr) : McpClient :=
  { s with connected := false, notices := s.notices ++ [.error text] }

/-- The read task ends, after its `finally`. -/
def endLoop (s : McpClient) : McpClient :=
  let s := { s with reading := false }
  if s.shutdown then s else s.emitError (py "connection closed unexpectedly")

/-- The read task ends by an exception. -/
def crash (s : McpClient) (text : PyStr) : McpClient := (s.emitError text).endLoop

/-- The number that a key of `_pending` must have to be equal to a value. -/
def pyKey : Json → Option ℕ
  | .bool b => some b.toNat
  | .int n => if 0 ≤ n then some n.toNat else none
  | .float x => x.value.bind fun q => if q.den = 1 ∧ 0 ≤ q then some q.num.toNat else none
  | _ => none

/-- What a response completes its future with. -/
def outcomeOf (msg : List (PyStr × Json)) : RpcOutcome :=
  match msg.lookup (py "error") with
  | some e => .error (e.text printable)
  | none => .result msg

/-- The future is completed, unless it is done. -/
def complete (s : McpClient) (fut : ℕ) (outcome : RpcOutcome) : McpClient :=
  match s.futures[fut]? with
  | some none => { s with futures := s.futures.set fut (some outcome) }
  | _ => s

/-- A message in `_read_loop`. An empty dictionary does not hash what is popped. -/
def handleMessage (s : McpClient) : Json → McpClient
  | .obj msg =>
    let rid := Json.field msg "id"
    if rid.isNull then s
    else if s.pending.entries ≠ [] ∧ rid.hashable = false then s.crash (McpServer.unhashable rid).text
    else match pyKey rid with
      | none => s
      | some k => match s.pending.get? k with
        | none => s
        | some fut => { s with pending := s.pending.erase k }.complete fut (outcomeOf printable msg)
  | v => s.crash (McpServer.noAttribute v "get").text

/-- `_rpc`, up to its `await fut`. A request that cannot be written stays pending. -/
def rpc (s : McpClient) (method : PyStr) (params : Option Json) (ok : Bool) : McpClient :=
  let rid := s.reqId + 1
  let payload := [(py "jsonrpc", .str (py "2.0")), (py "id", .int rid), (py "method", .str method)] ++
    (params.toList.map fun v => (py "params", v))
  { s with
    reqId := rid
    pending := s.pending.insert rid s.futures.length
    futures := s.futures ++ [none]
    sent := if ok then s.sent ++ [.obj payload] else s.sent }

/-- One step. What cannot happen, or raises at once, changes nothing. -/
def step (s : McpClient) : ClientEvent → McpClient
  | .connect =>
    if s.connected then s
    else
      { s with
        connected := true
        shutdown := false
        reading := true
        notices := s.notices ++ [.connected] }
  | .rpc method params ok => if s.connected then s.rpc method params ok else s
  | .skipped => s
  | .broken text => if s.reading then s.crash text else s
  | .message msg => if s.reading then s.handleMessage printable msg else s
  | .eof => if s.reading then s.endLoop else s
  | .disconnect => { s with shutdown := true, disconnecting := s.disconnecting + 1 }
  | .disconnected =>
    if s.disconnecting = 0 then s
    else
      { s with
        connected := false
        reading := false
        disconnecting := s.disconnecting - 1
        notices := s.notices ++ [.disconnected] }

end McpClient

end Hermes

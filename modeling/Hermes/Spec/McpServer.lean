import Hermes.Lib.Loops
import Hermes.Spec.Json

/-!
# The MCP server (`mcp/server.py`, `mcp/tools.py`)

`_handle` with the validation of arguments and the invocation of tools, and what the two transports
make of its answer: the loop of `start`, and the POST of `mcp/server_streamable.py`. A message is any
value that `json.loads` may return. Left out: logging, and the framing of the stdio transport.
-/

namespace Hermes

/-- A raised exception: whether `except Exception` catches it, and its text. -/
structure McpExc where
  isException : Bool := true
  text : PyStr
  deriving DecidableEq, Repr

/-- A `Tool` of the registry. -/
structure Tool where
  name : PyStr
  capability : PyStr
  metadata : List (PyStr × Json) := []
  inputSchema : List (PyStr × Json) := []

/-- What the server works with: the tools in the order of the registry, the handlers with what they
return or raise in the end, and `str` of what they return. -/
structure McpHost (ρ : Type) where
  tools : List Tool := []
  handler : PyStr → Option (List (PyStr × Json) → Except McpExc ρ) := fun _ => none
  str : ρ → Except McpExc PyStr
  printable : Char → Bool := fun _ => true

/-- The event `mcp.tool.call`, with the result of the tool or the text of its error. -/
structure ToolCallEvent (ρ : Type) where
  name : Json
  args : List (PyStr × Json)
  outcome : Except PyStr ρ

namespace McpServer

/-! ## Errors of Python -/

/-- `AttributeError` of a value that has no such attribute. -/
def noAttribute (v : Json) (name : String) : McpExc :=
  { text := py ("'" ++ v.typeName ++ "' object has no attribute '" ++ name ++ "'") }

def unhashable (v : Json) : McpExc := { text := py ("unhashable type: '" ++ v.typeName ++ "'") }

/-- `for x in v`, up to the first round. -/
def iterate : Json → Except McpExc (List Json)
  | .arr xs => .ok xs
  | .obj kvs => .ok (kvs.map fun kv => .str kv.1)
  | .str s => .ok (s.map fun ch => .str [ch])
  | v => .error { text := py ("'" ++ v.typeName ++ "' object is not iterable") }

/-- `key in v`. -/
def contains (v : Json) (key : PyStr) : Except McpExc Bool :=
  match v with
  | .obj kvs => .ok (kvs.lookup key).isSome
  | .arr xs => .ok (xs.any (·.isStr key))
  | .str s => .ok (decide (key <:+: s))
  | v => .error { text := py ("argument of type '" ++ v.typeName ++ "' is not iterable") }

/-- `v[key]`, of a value that has the key or is no `dict`. -/
def index (v : Json) (key : PyStr) : Except McpExc Json :=
  match v with
  | .obj kvs => .ok ((kvs.lookup key).getD .null)
  | .arr _ => .error { text := py "list indices must be integers or slices, not str" }
  | .str _ => .error { text := py "string indices must be integers, not 'str'" }
  | v => .error { text := py ("'" ++ v.typeName ++ "' object is not subscriptable") }

/-! ## Tools -/

/-- `to_mcp_schema`. -/
def toMcpSchema (tool : Tool) : Json :=
  .obj [(py "name", .str tool.name),
    (py "description", (Json.field tool.metadata "description").orElse (.str tool.capability)),
    (py "inputSchema", if tool.inputSchema.isEmpty
      then .obj [(py "type", .str (py "object")), (py "properties", .obj [])]
      else .obj tool.inputSchema)]

/-- `type_map`, as a test of a value. -/
def typeMap (name : PyStr) : Option (Json → Bool) :=
  if name = py "string" then some fun | .str _ => true | _ => false
  -- a `bool` is an `int`
  else if name = py "integer" then some fun | .int _ => true | .bool _ => true | _ => false
  else if name = py "number" then
    some fun | .int _ => true | .bool _ => true | .float _ => true | _ => false
  else if name = py "boolean" then some fun | .bool _ => true | _ => false
  else if name = py "object" then some fun | .obj _ => true | _ => false
  else if name = py "array" then some fun | .arr _ => true | _ => false
  else none

/-- `if r not in args: return False`. -/
def checkRequired (args : List (PyStr × Json)) (r : Json) : Except McpExc Bool :=
  if r.hashable then .ok (args.any fun kv => r.isStr kv.1) else .error (unhashable r)

/-- The check of a value against a declared type. -/
def checkType (expected val : Json) : Except McpExc Bool :=
  if expected.truthy then
    if expected.hashable then
      match expected with
      | .str name => match typeMap name with
        | some holds => .ok (holds val)
        | none => .ok true
      | _ => .ok true
    else .error (unhashable expected)
  else .ok true

/-- The check of one argument against the properties of a schema. -/
def checkArgument (schema : List (PyStr × Json)) (kv : PyStr × Json) : Except McpExc Bool :=
  let props := (schema.lookup (py "properties")).getD (.obj [])
  match contains props kv.1 with
  | .error e => .error e
  | .ok false => match Json.field schema "additionalProperties" with
    | .bool false => .ok false
    | _ => .ok true
  | .ok true => match index props kv.1 with
    | .error e => .error e
    | .ok (.obj prop) => checkType (Json.field prop "type") kv.2
    | .ok v => .error (noAttribute v "get")

/-- `validate_arguments`. -/
def validateArguments (tool : Tool) (args : Json) : Except McpExc Bool :=
  match args with
  | .obj kvs =>
    match iterate ((tool.inputSchema.lookup (py "required")).getD (.arr [])) with
    | .error e => .error e
    | .ok required =>
      match Loops.allPass (checkRequired kvs) required with
      | .error e => .error e
      | .ok false => .ok false
      | .ok true => Loops.allPass (checkArgument tool.inputSchema) kvs
  | _ => .ok false

/-! ## Messages -/

/-- `_rpc_error`. -/
def rpcError (code : ℤ) (message : PyStr) (msgId : Json) : Json :=
  .obj [(py "jsonrpc", .str (py "2.0")), (py "id", msgId),
    (py "error", .obj [(py "code", .int code), (py "message", .str message)])]

/-- `_rpc_result`. -/
def rpcResult (result msgId : Json) : Json :=
  .obj [(py "jsonrpc", .str (py "2.0")), (py "id", msgId), (py "result", result)]

/-- The answer to `initialize`. -/
def serverInfo : Json :=
  .obj [(py "protocolVersion", .str (py "2024-11-05")), (py "capabilities", .obj [(py "tools", .obj [])]),
    (py "serverInfo", .obj [(py "name", .str (py "hermes-kernel-v2")), (py "version", .str (py "0.1.0"))])]

section

variable {ρ : Type} (host : McpHost ρ)

/-- `_invoke`. -/
def invoke (tool : Tool) (args : List (PyStr × Json)) : Except McpExc ρ :=
  match host.handler tool.name with
  | none => .error { text := py "no handler registered for tool '" ++ tool.name ++ py "'" }
  | some handler => handler args

/-- The `try` of `_handle_call`: the text of the result or of the error, with the events. -/
def callTool (tool : Tool) (name : Json) (args : List (PyStr × Json)) :
    Except McpExc (Except PyStr PyStr) × List (ToolCallEvent ρ) :=
  let failed (e : McpExc) (events : List (ToolCallEvent ρ)) :=
    if e.isException then (.ok (.error e.text), events ++ [⟨name, args, .error e.text⟩])
    else (.error e, events)
  match invoke host tool args with
  | .error e => failed e []
  | .ok result =>
    -- the result is published before it is turned into a text
    match host.str result with
    | .ok text => (.ok (.ok text), [⟨name, args, .ok result⟩])
    | .error e => failed e [⟨name, args, .ok result⟩]

/-- `_handle_call`. -/
def handleCall (params msgId : Json) : Except McpExc Json × List (ToolCallEvent ρ) :=
  match params with
  | .obj kvs =>
    let name := Json.field kvs "name"
    let arguments := (Json.field kvs "arguments").orElse (.obj [])
    if name.truthy then
      match host.tools.find? fun tool => name.isStr tool.name with
      | none => (.ok (rpcError (-32602) (py "tool not found: " ++ name.text host.printable) msgId), [])
      | some tool =>
        match validateArguments tool arguments, arguments with
        | .error e, _ => (.error e, [])
        | .ok true, .obj args =>
          match callTool host tool name args with
          | (.error e, events) => (.error e, events)
          | (.ok (.ok text), events) =>
            let content := .obj [(py "type", .str (py "text")), (py "text", .str text)]
            (.ok (rpcResult (.obj [(py "content", .arr [content])]) msgId), events)
          | (.ok (.error text), events) =>
            (.ok (rpcError (-32000) (py "tool invocation failed: " ++ text) msgId), events)
        | .ok _, _ => (.ok (rpcError (-32602) (py "arguments failed schema validation") msgId), [])
    else (.ok (rpcError (-32602) (py "missing 'name'") msgId), [])
  | v => (.error (noAttribute v "get"), [])

/-- `_handle`: the answer, if there is one, and the events. -/
def handle (msg : Json) : Except McpExc (Option Json) × List (ToolCallEvent ρ) :=
  match msg with
  | .obj kvs =>
    let msgId := Json.field kvs "id"
    let method := Json.field kvs "method"
    let params := (Json.field kvs "params").orElse (.obj [])
    if (Json.field kvs "jsonrpc").isStr (py "2.0") = false then
      (.ok (some (rpcError (-32600) (py "not a JSON-RPC 2.0 object") msgId)), [])
    else if msgId.isNull then (.ok none, [])
    else if method.isStr (py "initialize") then (.ok (some (rpcResult serverInfo msgId)), [])
    else if method.isStr (py "tools/list") then
      (.ok (some (rpcResult (.obj [(py "tools", .arr (host.tools.map toMcpSchema))]) msgId)), [])
    else if method.isStr (py "tools/call") then
      let (answer, events) := handleCall host params msgId
      (answer.map some, events)
    else
      (.ok (some (rpcError (-32601) (py "method not found: " ++ method.text host.printable) msgId)), [])
  -- the error that is to be returned asks the message for its id
  | v => (.error (noAttribute v "get"), [])

/-! ## Transports -/

/-- `UnicodeEncodeError` of a text with a surrogate. -/
def encodeError : McpExc := { text := py "'utf-8' codec can't encode characters: surrogates not allowed" }

/-- A round of the loop of `start`, with a message that was read: what it sends. -/
def serveMessage (msg : Json) : Except McpExc (Option Json) :=
  -- `null` is taken for a message that could not be read
  if msg.isNull then .ok none
  else match (handle host msg).1 with
    | .error e => .error e
    | .ok none => .ok none
    | .ok (some response) => if response.encodable then .ok (some response) else .error encodeError

/-- `dispatch`, after the server has started. -/
def dispatch (msg : Json) : Except McpExc (Option Json) :=
  match (handle host msg).1 with
  | .ok response => .ok response
  | .error e => if e.isException then .ok none else .error e

/-- `[self.dispatch(m) for m in body if isinstance(m, dict)]`, without the `None`s. -/
def dispatchAll : List Json → Except McpExc (List Json)
  | [] => .ok []
  | msg :: msgs =>
    if msg.isObj then
      match dispatch host msg, dispatchAll msgs with
      | .error e, _ => .error e
      | .ok _, .error e => .error e
      | .ok response, .ok responses => .ok (response.toList ++ responses)
    else dispatchAll msgs

/-- `_respond_json`: the status and the body. -/
def respondJson (status : ℕ) (payload : Json) : Except McpExc (ℕ × Option Json) :=
  if payload.encodable then .ok (status, some payload) else .error encodeError

/-- `_handle_post_messages`, with a body that was read. -/
def handlePostMessages (body : Json) : Except McpExc (ℕ × Option Json) :=
  match body with
  | .arr msgs => match dispatchAll host msgs with
    | .error e => .error e
    | .ok responses => respondJson 200 (.arr responses)
  | body => match dispatch host body with
    | .error e => .error e
    | .ok none => .ok (202, none)
    | .ok (some response) => respondJson 200 response

end

/-- The loop of `start`, with the messages that are read and what the server works with at each of
them: what it sends, up to an exception that ends it. -/
def serve {ρ : Type} : List (McpHost ρ × Json) → List Json × Option McpExc
  | [] => ([], none)
  | (host, msg) :: rest =>
    match serveMessage host msg with
    | .error e => ([], some e)
    | .ok response => let (responses, e) := serve rest; (response.toList ++ responses, e)

end McpServer

end Hermes

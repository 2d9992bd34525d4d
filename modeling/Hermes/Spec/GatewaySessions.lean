import Hermes.Lib.Fresh
import Hermes.Lib.Index
import Hermes.Spec.Gateway

/-!
# Sessions of the MCP gateway (`kernel/mcp_gateway.py`, `kernel/mcp_domain.py`)

The part of `McpGateway` that lives from call to call: its sessions and the index of them, the
bearer tokens and where they came from, the tools it has listed. Requests go through `_rpc` of
`Hermes.Spec.Gateway`.
-/

namespace Hermes

inductive McpSessionStatus where
  | active
  | closed
  | error
  deriving DecidableEq, Repr

structure McpSession where
  sessionId : String
  serverUrl : String
  status : McpSessionStatus := .active
  deriving DecidableEq, Repr

structure McpServer where
  url : String
  name : String := ""
  version : String := ""
  authToken : Option String := none
  capabilities : List String := []

structure McpTool where
  name : String
  description : String := ""
  inputSchema : List (String × Value) := []
  serverUrl : String := ""

/-- The key of a tool in the store. -/
def McpTool.key (t : McpTool) : String × String := (t.serverUrl, t.name)

/-- The values of `_auth_source`. -/
inductive AuthSource where
  | explicit
  | vault
  | none
  deriving DecidableEq, Repr

/-- What the gateway writes to its store and publishes, besides what its calls do. -/
inductive SessionEffect where
  | putServer (server : McpServer)
  | putSession (session : McpSession)
  | mcpConnected (sessionId serverUrl serverName serverVersion : String)
  | mcpSessionClosed (sessionId reason : String)
  | mcpResourceRead (sessionId uri : String) (bytes : ℕ)

structure McpGateway extends Gateway where
  hasVault : Bool := false
  sessions : Dict String McpSession := ∅
  tools : Dict String (List McpTool) := ∅
  /-- The tools in the store, if there is one. -/
  toolStore : Index McpTool.key := ∅
  authSources : Dict String AuthSource := ∅

/-- The ids of `uuid4`, and the vault, asked for a key in a scope by an accessor. -/
structure SessionEnv extends GatewayEnv where
  sessionIds : IdSource String
  resolveSecret : (key scopeId accessor : String) → GatewayWorld → Except PyExc (Option String)

/-- A gateway at work. -/
structure GatewayState where
  gw : McpGateway
  world : GatewayWorld
  effects : List SessionEffect := []

namespace McpGateway

/-- `AttributeError` of a value that has no such attribute. -/
def noAttribute (v : Value) (name : String) : PyExc :=
  ⟨["AttributeError", "Exception", "BaseException", "object"],
    "'" ++ Gateway.typeName v ++ "' object has no attribute '" ++ name ++ "'"⟩

def typeError (text : String) : PyExc := ⟨["TypeError", "Exception", "BaseException", "object"], text⟩

/-- pydantic's `ValidationError`, with the first words of its text. -/
def validationError (model : String) : PyExc :=
  ⟨["ValidationError", "ValueError", "Exception", "BaseException", "object"],
    "1 validation error for " ++ model⟩

/-- `v.get(key, default)`. -/
def getD (v : Value) (key : String) (default : Value) : Except PyExc Value :=
  match v with
  | .dict kvs => .ok ((kvs.lookup key).getD default)
  | v => .error (noAttribute v "get")

/-- A field that pydantic declares as `str`. -/
def asStr (model : String) : Value → Except PyExc String
  | .str s => .ok s
  | _ => .error (validationError model)

/-- A field that pydantic declares as `dict[str, Any]`. -/
def asDict (model : String) : Value → Except PyExc (List (String × Value))
  | .dict kvs => .ok kvs
  | _ => .error (validationError model)

/-- `for c in v`. -/
def iterate : Value → Except PyExc (List Value)
  | .list xs => .ok xs
  | .dict kvs => .ok (kvs.map fun kv => .str kv.1)
  | .str s => .ok (s.toList.map fun ch => .str (String.singleton ch))
  | v => .error (typeError ("'" ++ Gateway.typeName v ++ "' object is not iterable"))

/-- `sorted(v.keys())`. -/
def sortedKeys : Value → Except PyExc (List String)
  | .dict kvs => .ok ((kvs.map Prod.fst).insertionSort (· ≤ ·))
  | v => .error (noAttribute v "keys")

/-- The `McpServer` that `connect` reads out of an answer. -/
def serverOf (url : String) (token : Option String) (result : Value) : Except PyExc McpServer := do
  let info ← getD result "serverInfo" (.dict [])
  let name ← getD info "name" (.str "")
  let version ← getD info "version" (.str "")
  let capabilities ← sortedKeys (← getD result "capabilities" (.dict []))
  return { url := url, name := ← asStr "McpServer" name, version := ← asStr "McpServer" version,
           authToken := token, capabilities := capabilities }

/-- `v[key]`, for a text as a key. -/
def index (v : Value) (key : String) : Except PyExc Value :=
  match v with
  | .dict kvs => match kvs.lookup key with
    | some v => .ok v
    | none => .error ⟨["KeyError", "LookupError", "Exception", "BaseException", "object"], pyRepr key⟩
  | .list _ => .error (typeError "list indices must be integers or slices, not str")
  | .str _ => .error (typeError "string indices must be integers, not 'str'")
  | v => .error (typeError ("'" ++ Gateway.typeName v ++ "' object is not subscriptable"))

/-- One tool of an answer to `tools/list`. -/
def toolOf (url : String) (t : Value) : Except PyExc McpTool := do
  let name ← index t "name"
  let description ← getD t "description" (.str "")
  let inputSchema ← getD t "inputSchema" (.dict [])
  return { name := ← asStr "McpTool" name, description := ← asStr "McpTool" description,
           inputSchema := ← asDict "McpTool" inputSchema, serverUrl := url }

/-- The text of an answer to `resources/read`. -/
def textOf (result : Value) : Except PyExc String := do
  let contents ← iterate (← getD result "contents" (.list []))
  let texts ← contents.mapM fun c => getD c "text" (.str "")
  let parts ← texts.mapM fun
    | .str s => .ok s
    | v => .error (typeError ("expected str instance, " ++ Gateway.typeName v ++ " found"))
  return String.join parts

/-- `params` of the `initialize` request. -/
def initializeParams : List (String × Value) :=
  [("protocolVersion", .str "2024-11-05"),
   ("clientInfo", .dict [("name", .str "hermes-kernel"), ("version", .str "2.15.0")]),
   ("capabilities", .dict [("tools", .dict []), ("resources", .dict [])])]

/-- `auth_source`. -/
def authSource (gw : McpGateway) (url : String) : AuthSource := (gw.authSources.get? url).getD .none

/-- The session that a call to a server is made in. -/
def sessionFor (gw : McpGateway) (url : String) : String :=
  (gw.byServer.get? url).getD ("adhoc:" ++ url)

end McpGateway

namespace GatewayState

open McpGateway

variable (env : SessionEnv)

/-- The token that `connect` finds, and where. -/
def obtain (url : String) (authToken : Option String) (s : GatewayState) :
    Except PyExc (AuthSource × Option String) :=
  match authToken with
  | some token => .ok (.explicit, some token)
  | none =>
    if s.gw.hasVault then
      match env.resolveSecret ("mcp:" ++ url ++ ":auth_token") url ("mcp_gateway:" ++ url) s.world with
      | .ok (some token) => .ok (.vault, some token)
      | .ok none => .ok (.none, none)
      | .error e =>
        if "KeyError" ∈ e.mro ∨ "RuntimeError" ∈ e.mro then .ok (.none, none) else .error e
    else .ok (.none, none)

/-- `connect` after it has looked for a token: a token that it found replaces the one that is held. -/
def hold (url : String) (source : AuthSource) (token : Option String) (s : GatewayState) :
    GatewayState :=
  let auth := match token with
    | some token => s.gw.auth.insert url token
    | none => s.gw.auth
  { s with gw := { s.gw with auth := auth, authSources := s.gw.authSources.insert url source } }

/-- A request of the gateway. -/
def rpc (url method : String) (params : List (String × Value)) (s : GatewayState) :
    Except PyExc Value × GatewayState :=
  let (result, w) := Gateway.rpc env.toGatewayEnv s.gw.toGateway url method params s.world
  (result, { s with world := w })

/-- `if self._store is not None: ...`, and what is published. -/
def note (stored published : List SessionEffect) (s : GatewayState) : GatewayState :=
  { s with effects := s.effects ++ (if s.gw.hasStore then stored else []) ++ published }

/-- `connect` with the answer to `initialize`. -/
def opened (url : String) (server : McpServer) (s : GatewayState) : McpSession × GatewayState :=
  let session : McpSession :=
    { sessionId := env.sessionIds.next s.gw.sessions.keys, serverUrl := url }
  let gw := { s.gw with sessions := s.gw.sessions.insert session.sessionId session
                        byServer := s.gw.byServer.insert url session.sessionId }
  (session, note [.putServer server, .putSession session]
    [.mcpConnected session.sessionId url server.name server.version] { s with gw := gw })

/-- `connect`. -/
def connect (url : String) (authToken : Option String) (s : GatewayState) :
    Except PyExc McpSession × GatewayState :=
  match obtain env url authToken s with
  | .error e => (.error e, s)
  | .ok (source, token) =>
    match rpc env url "initialize" initializeParams (hold url source token s) with
    | (.error e, s) => (.error e, s)
    | (.ok result, s) =>
      match serverOf url token result with
      | .error e => (.error e, s)
      | .ok server =>
        let (session, s) := opened env url server s
        (.ok session, s)

/-- `close_session`. -/
def closeSession (sessionId reason : String) (s : GatewayState) : GatewayState :=
  match s.gw.sessions.get? sessionId with
  | some session =>
    let session := { session with status := .closed }
    let gw := { s.gw with sessions := s.gw.sessions.insert sessionId session
                          byServer := s.gw.byServer.erase session.serverUrl }
    note [.putSession session] [.mcpSessionClosed sessionId reason] { s with gw := gw }
  | none => note [] [.mcpSessionClosed sessionId reason] s

/-- `list_tools`. -/
def listTools (url : String) (s : GatewayState) : Except PyExc (List McpTool) × GatewayState :=
  match rpc env url "tools/list" [] s with
  | (.error e, s) => (.error e, s)
  | (.ok result, s) =>
    match getD result "tools" (.list []) >>= iterate >>= List.mapM (toolOf url) with
    | .error e => (.error e, s)
    | .ok tools =>
      let toolStore := if s.gw.hasStore then tools.foldl Index.put s.gw.toolStore else s.gw.toolStore
      let gw := { s.gw with tools := s.gw.tools.insert url tools, toolStore := toolStore }
      (.ok tools, { s with gw := gw })

/-- `call_tool`. -/
def callTool (url toolName : String) (arguments : List (String × Value)) (s : GatewayState) :
    Except PyExc Artifact × GatewayState :=
  let (result, w) :=
    Gateway.callTool env.toGatewayEnv s.gw.toGateway url toolName arguments s.world
  (result, { s with world := w })

/-- `read_resource`. -/
def readResource (url uri : String) (s : GatewayState) : Except PyExc String × GatewayState :=
  match rpc env url "resources/read" [("uri", .str uri)] s with
  | (.error e, s) => (.error e, s)
  | (.ok result, s) =>
    match McpGateway.textOf result with
    | .error e => (.error e, s)
    | .ok text =>
      let sessionId := s.gw.sessionFor url
      let w := Gateway.note (.touch sessionId) s.world
      (.ok text, note [] [.mcpResourceRead sessionId uri text.utf8ByteSize] { s with world := w })

end GatewayState

end Hermes

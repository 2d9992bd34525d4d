import Hermes.Spec.Resilience
import Hermes.Spec.Workflow

/-!
# Tool calls of the MCP gateway (`kernel/mcp_gateway.py`)

`call_tool` as one task among others. Whatever it does besides computing is an effect
in the trace; at each of them it may be suspended, and the environment says what the
circuits are when it goes on.
-/

namespace Hermes

inductive GatewayEffect where
  | post (url method : String) (params : List (String × Value))
  /-- The `sleep` between the attempts of `_rpc`. -/
  | rpcSleep (seconds : ℚ)
  | mcpError (url kind : String) (message : Value)
  | mcpToolCalled (sessionId toolName argsHash : String) (latencyMs : ℚ)
  | circuitOpened (name : String)
  | circuitClosed (name : String)
  | retry (e : RetryEffect)
  | putCall (callId sessionId toolName argsHash : String) (latencyMs : ℚ) (error : Option String)
  | touch (sessionId : String)
  | metric (name : String)

structure GatewayWorld where
  resilience : Resilience
  trace : List GatewayEffect := []

/-- What the gateway does not decide: what the clocks and the server say at a moment, what other
tasks do to the circuits, and what comes from the standard library. -/
structure GatewayEnv where
  /-- The engine's clock, in milliseconds. -/
  now : GatewayWorld → ℚ
  /-- The gateway's clock, in seconds. -/
  clock : GatewayWorld → ℚ
  meanwhile : GatewayWorld → Resilience
  /-- The server's answer within the timeout. -/
  post : GatewayWorld → Except PyExc Value
  uuid : GatewayWorld → String
  str : Value → String
  hash : List (String × Value) → String

structure Gateway where
  http : Bool := true
  hasStore : Bool := false
  hasMetrics : Bool := false
  maxRetries : ℤ := 2
  retryBackoffSeconds : ℚ := 1 / 2
  /-- `timeout_seconds`, as it is printed. -/
  timeoutSeconds : String := "30.0"
  hasResilience : Bool := true
  byServer : Dict String String := ∅
  auth : Dict String String := ∅

namespace Gateway

variable (env : GatewayEnv) (gw : Gateway)

/-- An effect, at which other tasks may run. -/
def perform (e : GatewayEffect) (w : GatewayWorld) : GatewayWorld :=
  let w := { w with trace := w.trace ++ [e] }
  { w with resilience := env.meanwhile w }

/-- An effect that is done at once. -/
def note (e : GatewayEffect) (w : GatewayWorld) : GatewayWorld := { w with trace := w.trace ++ [e] }

/-- `McpGatewayError(text)`. -/
def gatewayError (text : String) : PyExc := runtimeSubclass "McpGatewayError" text

/-- `type(value).__name__`. -/
def typeName : Value → String
  | .none => "NoneType"
  | .bool _ => "bool"
  | .int _ => "int"
  | .str _ => "str"
  | .list _ => "list"
  | .dict _ => "dict"

/-- `error.get("message", ...)` of a response without `result`. -/
def errorMessage (response : Value) : Except PyExc Value :=
  let default : Value := .str "invalid JSON-RPC response (no result)"
  match response with
  | .dict kvs => match kvs.lookup "error" with
    | none => .ok default
    | some (.dict es) => .ok ((es.lookup "message").getD default)
    | some v => .error ⟨["AttributeError", "Exception", "BaseException", "object"],
        "'" ++ typeName v ++ "' object has no attribute 'get'"⟩
  | _ => .ok default

/-- The attempts of `_rpc` at `post`, from one on, with the attempts that are left. -/
def postFrom (url method : String) (params : List (String × Value)) : ℕ → ℕ → GatewayWorld →
    Except PyExc Value × GatewayWorld
  | _, 0, w => (.error (gatewayError "None"), w)
  | attempt, left + 1, w =>
    let w := perform env (.post url method params) w
    match env.post w with
    | .ok response => (.ok response, w)
    | .error e =>
      if "TimeoutError" ∈ e.mro then
        let message := method ++ " timed out after " ++ gw.timeoutSeconds ++ "s"
        (.error (gatewayError ("MCP request '" ++ method ++ "' to " ++ url ++ " timed out")),
          perform env (.mcpError url "timeout" (.str message)) w)
      else if e.isException then
        if (attempt : ℤ) < gw.maxRetries then
          let w := perform env (.rpcSleep (gw.retryBackoffSeconds * (attempt + 1))) w
          postFrom url method params (attempt + 1) left w
        else
          (.error (gatewayError ("MCP request '" ++ method ++ "' to " ++ url ++ " failed: " ++ e.text)),
            perform env (.mcpError url "transport" (.str e.text)) w)
      else (.error e, w)

/-- The `params` of a request, with the token of the server. -/
def authorized (url : String) (params : List (String × Value)) : List (String × Value) :=
  match gw.auth.get? url with
  | none => params
  | some token => params ++ [("_meta", .dict [("authorization", .str ("Bearer " ++ token))])]

/-- `response["result"]`, of a response that has one. -/
def resultOf : Value → Option Value
  | .dict kvs => kvs.lookup "result"
  | _ => none

/-- `_rpc`. -/
def rpc (url method : String) (params : List (String × Value)) (w : GatewayWorld) :
    Except PyExc Value × GatewayWorld :=
  if gw.http then
    match postFrom env gw url method (gw.authorized url params) 0 (gw.maxRetries + 1).toNat w with
    | (.error e, w) => (.error e, w)
    | (.ok response, w) => match resultOf response with
      | some value => (.ok value, w)
      | none => match errorMessage response with
        | .error e => (.error e, w)
        | .ok message =>
          (.error (gatewayError ("MCP '" ++ method ++ "' error from " ++ url ++ ": " ++ env.str message)),
            perform env (.mcpError url "protocol" message) w)
  else (.error (gatewayError "MCP gateway has no http_client wired"), w)

/-- What `call_with_circuit` looks at when its body ends. -/
def ended {α : Type} (result : Except PyExc α) : Except Exc Unit :=
  match result with
  | .ok _ => .ok ()
  | .error e => .error ⟨if e.isException then .other else .cancelled, e.text⟩

def circuitState (name : String) (w : GatewayWorld) : CircuitState :=
  ((w.resilience.circuits.get? name).getD {}).state

/-- `call_with_circuit` after its `yield`. -/
def exitCircuit {α : Type} (name : String) (result : Except PyExc α) (w : GatewayWorld) : GatewayWorld :=
  let w' := { w with resilience := w.resilience.leave name (env.now w) (ended result) }
  let before := circuitState name w
  let after := circuitState name w'
  if before = .halfOpen ∧ after = .closed then
    perform env (.metric "res.circuit_closed") (perform env (.circuitClosed name) w')
  else if before ≠ .opened ∧ after = .opened then
    perform env (.metric "res.circuit_opened") (perform env (.circuitOpened name) w')
  else w'

/-- `async with self._resilience.call_with_circuit(name)`. -/
def withCircuit {α : Type} (name : String) (body : GatewayWorld → Except PyExc α × GatewayWorld)
    (w : GatewayWorld) : Except PyExc α × GatewayWorld :=
  match w.resilience.enter name (env.now w) with
  | (.error _, r) => (.error (circuitBreakerOpenError name),
      perform env (.metric "res.circuit_rejected") { w with resilience := r })
  | (.ok (), r) =>
    let (result, w) := body { w with resilience := r }
    (result, exitCircuit env name result w)

/-- The guarded call that `call_tool` retries, or the bare call without a resilience engine. -/
def remoteCall (url toolName : String) (arguments : List (String × Value)) (w : GatewayWorld) :
    Except PyExc Value × GatewayWorld :=
  let doRpc := rpc env gw url "tools/call" [("name", .str toolName), ("arguments", .dict arguments)]
  if gw.hasResilience then
    let guarded := withCircuit env ("mcp:" ++ url) doRpc
    retry (fun e => perform env (.retry e)) (some ("mcp:" ++ url ++ ":" ++ toolName)) guarded none
      (env.uuid w) w
  else doRpc w

/-- The errors that `call_tool` turns into an artifact. -/
def isHandled (e : PyExc) : Bool :=
  "McpGatewayError" ∈ e.mro ∨ "CircuitBreakerOpenError" ∈ e.mro ∨ "RetryExhaustedError" ∈ e.mro

/-- What `call_tool` writes down of a call that is over. -/
def report (sessionId toolName argsHash : String) (latencyMs : ℚ) (error : Option String)
    (metric : String) (w : GatewayWorld) : GatewayWorld :=
  let w := if gw.hasStore then
    note (.putCall (env.uuid w) sessionId toolName argsHash latencyMs error) w else w
  if gw.hasMetrics then perform env (.metric metric) w else w

/-- `call_tool`. -/
def callTool (url toolName : String) (arguments : List (String × Value)) (w : GatewayWorld) :
    Except PyExc Artifact × GatewayWorld :=
  let sessionId := (gw.byServer.get? url).getD ("adhoc:" ++ url)
  let argsHash := env.hash arguments
  let started := env.clock w
  match remoteCall env gw url toolName arguments w with
  | (.error e, w) =>
    if isHandled e then
      let latencyMs := (env.clock w - started) * 1000
      let w := report env gw sessionId toolName argsHash latencyMs (some e.text) "mcp.tool_errors" w
      (.ok { id := env.uuid w, type := "error", source := some ("mcp:" ++ url)
             content := .dict [("error", .str e.text), ("tool", .str toolName),
               ("server_url", .str url)] }, w)
    else (.error e, w)
  | (.ok result, w) =>
    let latencyMs := (env.clock w - started) * 1000
    let w := note (.touch sessionId) w
    let w := perform env (.mcpToolCalled sessionId toolName argsHash latencyMs) w
    let w := report env gw sessionId toolName argsHash latencyMs none "mcp.tool_latency_ms" w
    (.ok { id := env.uuid w, type := "mcp_tool_result", content := result
           source := some ("mcp:" ++ url ++ "::" ++ toolName) }, w)

end Gateway

end Hermes

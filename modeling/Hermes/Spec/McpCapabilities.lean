import Hermes.Lib.Cut
import Hermes.Spec.GatewaySessions
import Hermes.Spec.Marketplace

/-!
# Capabilities of MCP tools

A discovered tool is offered under a capability that names its server and itself
(`discover_mcp_tools` of `kernel/marketplace.py`). The capability is taken apart again in
`kernel/agent.py`, in `kernel/workflow.py` and in `kernel/mcp_gateway.py`. The catalog entry of a
tool is in `Hermes.Spec.Marketplace`.
-/

namespace Hermes

/-! ## One encoder -/

/-- `f"mcp:{source_url}::{tool.name}"`. -/
def mcpPackageId (sourceUrl toolName : String) : String := "mcp:" ++ sourceUrl ++ "::" ++ toolName

/-- The virtual package of a tool. -/
def virtualPackage (now : ℕ) (sourceUrl : String) (tool : McpTool) : Plugin :=
  let packageId := mcpPackageId sourceUrl tool.name
  { packageId := packageId, capabilities := [packageId], name := tool.name, version := "0.0.0",
    source := .mcpServer, entrypoint := packageId, status := .available, createdAt := now }

/-- `discover_mcp_tools`, with the packages of earlier discoveries. -/
def GatewayState.discoverMcpTools (env : SessionEnv) (now : ℕ) (sourceUrl : String)
    (packages : Dict String Plugin) (s : GatewayState) :
    Except PyExc (List McpTool) × Dict String Plugin × GatewayState :=
  match GatewayState.connect env sourceUrl none s with
  | (.error e, s) => (.error e, packages, s)
  | (.ok _, s) =>
    match GatewayState.listTools env sourceUrl s with
    | (.error e, s) => (.error e, packages, s)
    | (.ok tools, s) =>
      let packages := tools.foldl (fun packages tool =>
        packages.insert (mcpPackageId sourceUrl tool.name) (virtualPackage now sourceUrl tool)) packages
      (.ok tools, packages, s)

/-! ## Three decoders -/

/-- `text[4:]`. -/
def fromFifth (text : String) : String := String.ofList (text.toList.drop 4)

/-- `text.split("::", 1)`, if the separator is in the text. -/
def splitServer (text : String) : Option (String × String) :=
  (Cut.cut "::".toList text.toList).map fun parts => (String.ofList parts.1, String.ofList parts.2)

namespace McpGateway

variable (gw : McpGateway)

/-- `discover_local_tools`, with the tools of a store in the order in which they came in. -/
def discoverLocalTools : List McpTool :=
  match gw.tools.values.flatten with
  | [] => if gw.hasStore then gw.toolStore.values else []
  | cached => cached

/-- `resolve_capability`. -/
def resolveCapability (capabilityName : String) : Option McpTool :=
  let name := if "mcp:".toList <+: capabilityName.toList then fromFifth capabilityName
    else capabilityName
  match splitServer name with
  | some (serverUrl, toolName) =>
    match ((gw.tools.get? serverUrl).getD []).find? (·.name = toolName) with
    | some tool => some tool
    | none => if gw.hasStore then gw.toolStore.get? (serverUrl, toolName) else none
  | none =>
    let tools := gw.discoverLocalTools
    match tools.find? (·.name = name) with
    | some tool => some tool
    | none =>
      -- a wildcard: the stars at the end are dropped, then the dots
      if "*".toList <:+ name.toList then
        let start := ((name.toList.reverse.dropWhile (· = '*')).dropWhile (· = '.')).reverse
        tools.find? fun tool => start <+: tool.name.toList
      else none

/-- The server and the tool that an `mcp:` capability is run on. -/
def target (capability : String) : Except PyExc (String × String) :=
  match splitServer (fromFifth capability) with
  | some parts => .ok parts
  | none =>
    match gw.resolveCapability capability with
    | none => .error ⟨["KeyError", "LookupError", "Exception", "BaseException", "object"],
        pyRepr ("no MCP tool resolves capability '" ++ capability ++ "'")⟩
    | some tool => .ok (tool.serverUrl, tool.name)

/-- The target of `AgentRuntime._execute_mcp`. -/
def executeMcpTarget (capability : Option String) : Except PyExc (String × String) :=
  gw.target (orElse capability "")

/-- The target of `WorkflowEngine._run_mcp_step`. -/
def runMcpStepTarget (step : WorkflowStep) : Except PyExc (String × String) :=
  gw.target step.capability

end McpGateway

/-- What `_execute_mcp` reads of a task: `parameters` is an extra field. -/
structure McpTask where
  capability : Option String
  parameters : List (String × Value) := []
  metadata : List (String × Value) := []

/-- `AgentRuntime._execute_mcp`. -/
def executeMcp (env : SessionEnv) (task : McpTask) (s : GatewayState) :
    Except PyExc Artifact × GatewayState :=
  let arguments := if task.parameters.isEmpty then task.metadata else task.parameters
  match s.gw.executeMcpTarget task.capability with
  | .error e => (.error e, s)
  | .ok (serverUrl, toolName) => s.callTool env serverUrl toolName arguments

/-- `WorkflowEngine._run_mcp_step`, with the latency in milliseconds that it writes down if it is
given an instance. -/
def runMcpStep (env : SessionEnv) (step : WorkflowStep) (params : List (String × Value))
    (hasInstance : Bool) (s : GatewayState) : Except PyExc (Artifact × Option ℚ) × GatewayState :=
  match s.gw.runMcpStepTarget step with
  | .error e => (.error e, s)
  | .ok (serverUrl, toolName) =>
    let started := env.clock s.world
    match s.callTool env serverUrl toolName params with
    | (.error e, s) => (.error e, s)
    | (.ok artifact, s) =>
      let latencyMs := (env.clock s.world - started) * 1000
      (.ok (artifact, if hasInstance then some latencyMs else none), s)

end Hermes

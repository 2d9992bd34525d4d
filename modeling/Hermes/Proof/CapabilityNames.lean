import Hermes.Proof.SessionIndex
import Hermes.Spec.McpCapabilities

/-!
# Capabilities name servers and tools

`mcp:<server_url>::<tool>` is taken apart at the first `::`, which may be one of the server's url.

* `splitServer_capability`: a capability is taken apart again exactly when no `::` begins in the url.
* `ToolsKeyed`: the cached tools of a server belong to it, over every run.
* `resolveCapability_iff`: the gateway finds a listed tool under the same condition.
* `capability_round_trip_iff`: all three decoders.
-/

namespace Hermes

open GatewayState

/-- No `::` begins in the url, not even at its last character. -/
def ClearUrl (url : String) : Prop := Cut.Clear "::".toList url.toList

instance : DecidablePred ClearUrl := fun _ => inferInstanceAs (Decidable (Cut.Clear _ _))

/-! ## Splitting -/

theorem fromFifth_capability (url toolName : String) :
    (fromFifth (mcpPackageId url toolName)).toList = url.toList ++ "::".toList ++ toolName.toList := by
  unfold fromFifth mcpPackageId
  simp

/-- **A capability is taken apart again** exactly when the url is clear. -/
theorem splitServer_capability (url toolName : String) :
    splitServer (fromFifth (mcpPackageId url toolName)) = some (url, toolName) ↔ ClearUrl url := by
  have hsep : "::".toList ≠ [] := by decide
  have hcut := Cut.cut_append_iff hsep url.toList toolName.toList
  unfold splitServer ClearUrl
  rw [fromFifth_capability, ← hcut, Option.map_eq_some_iff]
  constructor
  · rintro ⟨⟨xs, ys⟩, hparts, hback⟩
    cases hback
    rw [hparts]
    simp
  · intro hparts
    exact ⟨_, hparts, by simp⟩

/-- A capability has the separator, so it is always taken apart somewhere. -/
theorem splitServer_isSome (url toolName : String) :
    ∃ serverUrl name, splitServer (fromFifth (mcpPackageId url toolName)) = some (serverUrl, name) ∧
      url.toList ++ "::".toList ++ toolName.toList = serverUrl.toList ++ "::".toList ++ name.toList := by
  cases hcut : Cut.cut "::".toList (fromFifth (mcpPackageId url toolName)).toList with
  | none =>
    refine absurd ?_ (Cut.cut_eq_none_iff.1 hcut)
    rw [fromFifth_capability]
    exact List.infix_append _ _ _
  | some parts =>
    have happend := Cut.cut_eq_some hcut
    rw [fromFifth_capability] at happend
    refine ⟨String.ofList parts.1, String.ofList parts.2, ?_, ?_⟩
    · unfold splitServer
      rw [hcut]
      rfl
    · have hfirst : (String.ofList parts.1).toList = parts.1 := String.toList_ofList
      have hsecond : (String.ofList parts.2).toList = parts.2 := String.toList_ofList
      rw [hfirst, hsecond]
      exact happend

namespace McpGateway

variable {gw : McpGateway}

theorem target_capability (gw : McpGateway) (url toolName : String) :
    gw.target (mcpPackageId url toolName) = .ok (url, toolName) ↔ ClearUrl url := by
  obtain ⟨serverUrl, name, hsplit, -⟩ := splitServer_isSome url toolName
  rw [← splitServer_capability url toolName]
  unfold target
  rw [hsplit]
  simp

theorem executeMcpTarget_capability (gw : McpGateway) (url toolName : String) :
    gw.executeMcpTarget (some (mcpPackageId url toolName)) = .ok (url, toolName) ↔ ClearUrl url := by
  have hname : orElse (some (mcpPackageId url toolName)) "" = mcpPackageId url toolName := by
    unfold orElse truthy
    simp only
    split
    · rename_i hempty
      exact hempty.symm
    · rfl
  unfold executeMcpTarget
  rw [hname]
  exact gw.target_capability url toolName

/-! ## The tools that a gateway has listed -/

/-- The cached tools of a server say that they are on it. -/
def ToolsKeyed (gw : McpGateway) : Prop :=
  ∀ url tools, gw.tools.get? url = some tools → ∀ tool ∈ tools, tool.serverUrl = url

/-- A tool of a server with this name is in the cache. -/
def Listed (gw : McpGateway) (url toolName : String) : Prop :=
  ∃ tools, gw.tools.get? url = some tools ∧ toolName ∈ tools.map McpTool.name

/-- The gateway finds a tool with this name, on this server. -/
def Resolves (gw : McpGateway) (url toolName : String) : Prop :=
  ∃ tool, gw.resolveCapability (mcpPackageId url toolName) = some tool ∧
    tool.serverUrl = url ∧ tool.name = toolName

/-- What the gateway finds for a capability, by the parts into which it takes it. -/
theorem resolveCapability_split {url toolName serverUrl name : String}
    (hsplit : splitServer (fromFifth (mcpPackageId url toolName)) = some (serverUrl, name)) :
    gw.resolveCapability (mcpPackageId url toolName) =
      (((gw.tools.get? serverUrl).getD []).find? (·.name = name)).or
        (if gw.hasStore then gw.toolStore.get? (serverUrl, name) else none) := by
  have hprefix : "mcp:".toList <+: (mcpPackageId url toolName).toList := by
    unfold mcpPackageId
    rw [String.append_assoc, String.append_assoc, String.toList_append]
    exact List.prefix_append _ _
  unfold resolveCapability
  simp only [if_pos hprefix, hsplit]
  cases ((gw.tools.get? serverUrl).getD []).find? (·.name = name) with
  | none => rfl
  | some tool => rfl

/-- Whatever the gateway finds is on the server and has the name that it has taken for them. -/
theorem found_split (h : ToolsKeyed gw) {serverUrl name : String} {tool : McpTool}
    (hfound : (((gw.tools.get? serverUrl).getD []).find? (·.name = name)).or
      (if gw.hasStore then gw.toolStore.get? (serverUrl, name) else none) = some tool) :
    tool.serverUrl = serverUrl ∧ tool.name = name := by
  rcases Option.or_eq_some_iff.1 hfound with hcached | ⟨-, hstored⟩
  · have hname : tool.name = name := by simpa using List.find?_some hcached
    have hmem := List.mem_of_find?_eq_some hcached
    cases htools : gw.tools.get? serverUrl with
    | none =>
      rw [htools] at hmem
      cases hmem
    | some tools =>
      rw [htools] at hmem
      exact ⟨h serverUrl tools htools tool hmem, hname⟩
  · split at hstored
    · have hkey : tool.key = (serverUrl, name) := Index.key_of_get? hstored
      exact ⟨congrArg Prod.fst hkey, congrArg Prod.snd hkey⟩
    · cases hstored

/-- **The gateway finds a listed tool** by its capability exactly when the url is clear. -/
theorem resolveCapability_iff (h : ToolsKeyed gw) {url toolName : String}
    (hlisted : gw.Listed url toolName) : gw.Resolves url toolName ↔ ClearUrl url := by
  obtain ⟨serverUrl, name, hsplit, happend⟩ := splitServer_isSome url toolName
  rw [← splitServer_capability url toolName, hsplit]
  unfold Resolves
  rw [resolveCapability_split hsplit]
  constructor
  · rintro ⟨tool, hfound, hurl, hname⟩
    obtain ⟨hurl', hname'⟩ := found_split h hfound
    rw [← hurl', ← hname', hurl, hname]
  · intro hparts
    obtain ⟨rfl, rfl⟩ := Prod.mk.inj (Option.some.inj hparts)
    obtain ⟨tools, htools, hmem⟩ := hlisted
    obtain ⟨tool, htool, hname⟩ := List.mem_map.1 hmem
    obtain ⟨found, hfound⟩ : ∃ found, tools.find? (·.name = name) = some found := by
      rw [← Option.isSome_iff_exists, List.find?_isSome]
      exact ⟨tool, htool, by simpa using hname⟩
    have hcached : (((gw.tools.get? serverUrl).getD []).find? (·.name = name)).or
        (if gw.hasStore then gw.toolStore.get? (serverUrl, name) else none) = some found := by
      rw [htools, Option.getD_some, hfound, Option.some_or]
    exact ⟨found, hcached, found_split h hcached⟩

end McpGateway

namespace GatewayState

variable {env : SessionEnv} {s : GatewayState}

/-! ## Runs -/

theorem toolOf_serverUrl {url : String} {t : Value} {tool : McpTool}
    (h : McpGateway.toolOf url t = .ok tool) : tool.serverUrl = url := by
  unfold McpGateway.toolOf at h
  simp only [bind, Except.bind, pure, Except.pure] at h
  repeat' split at h
  all_goals cases h
  rfl

theorem mapM_toolOf {url : String} {ts : List Value} :
    ∀ {tools}, ts.mapM (McpGateway.toolOf url) = .ok tools → ∀ tool ∈ tools, tool.serverUrl = url := by
  induction ts with
  | nil =>
    intro tools h
    cases h
    nofun
  | cons t ts ih =>
    intro tools h
    rw [List.mapM_cons] at h
    cases hone : McpGateway.toolOf url t with
    | error e =>
      rw [hone] at h
      cases h
    | ok tool =>
      rw [hone] at h
      cases hall : ts.mapM (McpGateway.toolOf url) with
      | error e =>
        rw [hall] at h
        cases h
      | ok rest =>
        rw [hall] at h
        cases h
        intro tool' htool'
        rcases List.mem_cons.1 htool' with rfl | hrest
        · exact toolOf_serverUrl hone
        · exact ih hall tool' hrest

/-- **Listing the tools** of a server leaves them in the cache, each of them on the server. -/
theorem listTools_cases (env : SessionEnv) (url : String) (s : GatewayState) :
    (∃ e, (listTools env url s).1 = .error e ∧ (listTools env url s).2.gw = s.gw) ∨
      ∃ tools, (listTools env url s).1 = .ok tools ∧ (∀ tool ∈ tools, tool.serverUrl = url) ∧
        (listTools env url s).2.gw.tools = s.gw.tools.insert url tools := by
  have hrpc := rpc_gw env url "tools/list" [] s
  unfold listTools
  split
  · rename_i e _ hr
    rw [hr] at hrpc
    exact .inl ⟨e, rfl, hrpc⟩
  · rename_i result s' hr
    rw [hr] at hrpc
    split
    · rename_i e _
      exact .inl ⟨e, rfl, hrpc⟩
    · rename_i tools htools
      refine .inr ⟨tools, rfl, ?_, ?_⟩
      · obtain ⟨ts, -, hts⟩ : ∃ ts, (McpGateway.getD result "tools" (.list []) >>=
            McpGateway.iterate) = .ok ts ∧ ts.mapM (McpGateway.toolOf url) = .ok tools := by
          cases hlist : McpGateway.getD result "tools" (.list []) >>= McpGateway.iterate with
          | error e =>
            rw [hlist] at htools
            cases htools
          | ok ts =>
            rw [hlist] at htools
            exact ⟨ts, rfl, htools⟩
        exact mapM_toolOf hts
      · rw [← hrpc]

theorem connect_tools (url : String) (authToken : Option String) (s : GatewayState) :
    (connect env url authToken s).2.gw.tools = s.gw.tools := by
  obtain ⟨e, -, hs⟩ | ⟨source, token, -, hgw | ⟨server, s', hgw, hs⟩⟩ :=
    connect_cases env url authToken s
  · rw [hs]
  · rw [hgw]
    rfl
  · rw [hs]
    exact congrArg (·.tools) hgw

theorem toolsKeyed_step (h : s.gw.ToolsKeyed) (op : GatewayOp) : (s.step env op).gw.ToolsKeyed := by
  have hframe : ∀ s' : GatewayState, s'.gw.tools = s.gw.tools → s'.gw.ToolsKeyed := by
    intro s' htools url tools hget
    rw [htools] at hget
    exact h url tools hget
  cases op with
  | connect url authToken => exact hframe _ (connect_tools url authToken s)
  | closeSession sessionId reason =>
    refine hframe _ ?_
    show (closeSession sessionId reason s).gw.tools = _
    unfold closeSession
    split
    · rfl
    · rfl
  | callTool url toolName arguments => exact hframe _ rfl
  | readResource url uri => exact hframe _ (congrArg (·.tools) (readResource_gw env url uri s))
  | listTools url =>
    obtain ⟨e, -, hgw⟩ | ⟨tools, -, hurl, htools⟩ := listTools_cases env url s
    · exact hframe _ (congrArg (·.tools) hgw)
    · intro url' tools' hget tool htool
      rw [show (s.step env (.listTools url)).gw.tools = _ from htools, Dict.get?_insert] at hget
      by_cases heq : url' = url
      · rw [if_pos heq] at hget
        rw [heq]
        exact hurl tool (Option.some.inj hget ▸ htool)
      · rw [if_neg heq] at hget
        exact h url' tools' hget tool htool

theorem toolsKeyed_run (env : SessionEnv) (gw : McpGateway) (world : GatewayWorld)
    (ops : List GatewayOp) : (ops.foldl (step env) (new gw world)).gw.ToolsKeyed := by
  refine History.run_invariant (step env) (fun s => s.gw.ToolsKeyed) ?_ ops _ ?_
  · exact fun s op h => toolsKeyed_step h op
  · intro url tools hget
    cases hget

/-- The package of a tool has its capability; one that a later tool of the same name puts in its
place has the same. -/
theorem packages_foldl (now : ℕ) (url : String) (tools : List McpTool) :
    ∀ (packages : Dict String Plugin) {id : String},
      (∃ package, packages.get? id = some package ∧ package.capabilities = [id]) ∨
        id ∈ tools.map (fun tool => mcpPackageId url tool.name) →
      ∃ package, (tools.foldl (fun packages tool => packages.insert (mcpPackageId url tool.name)
        (virtualPackage now url tool)) packages).get? id = some package ∧
        package.capabilities = [id] := by
  induction tools with
  | nil => exact fun packages id hor => hor.resolve_right (by simp)
  | cons tool tools ih =>
    intro packages id hor
    rw [List.foldl_cons]
    apply ih
    by_cases hid : id = mcpPackageId url tool.name
    · rw [hid]
      exact .inl ⟨_, Dict.get?_insert_self _ _ _, rfl⟩
    · rw [Dict.get?_insert_of_ne _ hid]
      refine hor.imp_right fun hmem => ?_
      rw [List.map_cons, List.mem_cons] at hmem
      exact hmem.resolve_left hid

/-- **A discovery** lists every tool that it returns, under a package with its capability. -/
theorem discoverMcpTools_lists {now : ℕ} {url : String} {packages packages' : Dict String Plugin}
    {tools : List McpTool} {s s' : GatewayState}
    (h : s.discoverMcpTools env now url packages = (.ok tools, packages', s')) :
    ∀ tool ∈ tools, s'.gw.Listed url tool.name ∧
      ∃ package, packages'.get? (mcpPackageId url tool.name) = some package ∧
        package.capabilities = [mcpPackageId url tool.name] := by
  unfold discoverMcpTools at h
  split at h
  · cases h
  · rename_i session s₁ hconnect
    split at h
    · cases h
    · rename_i tools₁ s₂ hlist
      cases h
      obtain ⟨e, he, -⟩ | ⟨tools', htools', -, hcache⟩ := listTools_cases env url s₁
      · rw [hlist] at he
        cases he
      · rw [hlist] at htools' hcache
        cases htools'
        intro tool htool
        refine ⟨⟨tools, ?_, List.mem_map_of_mem htool⟩, ?_⟩
        · rw [show s'.gw.tools = _ from hcache]
          exact Dict.get?_insert_self _ _ _
        · refine packages_foldl now url tools packages (.inr ?_)
          exact List.mem_map_of_mem (f := fun t : McpTool => mcpPackageId url t.name) htool

/-- **An agent** calls the tool of a capability on its server. -/
theorem executeMcp_capability (env : SessionEnv) {url toolName : String} (hclear : ClearUrl url)
    {task : McpTask} (htask : task.capability = some (mcpPackageId url toolName))
    (s : GatewayState) : executeMcp env task s = s.callTool env url toolName
      (if task.parameters.isEmpty then task.metadata else task.parameters) := by
  have htarget : s.gw.executeMcpTarget task.capability = .ok (url, toolName) := by
    rw [htask]
    exact (s.gw.executeMcpTarget_capability url toolName).2 hclear
  unfold executeMcp
  simp only [htarget]

/-- **A workflow** does, too. -/
theorem runMcpStep_capability (env : SessionEnv) {url toolName : String} (hclear : ClearUrl url)
    {step : WorkflowStep} (hstep : step.capability = mcpPackageId url toolName)
    (params : List (String × Value)) (hasInstance : Bool) (s : GatewayState) :
    (runMcpStep env step params hasInstance s).2 = (s.callTool env url toolName params).2 := by
  have htarget : s.gw.runMcpStepTarget step = .ok (url, toolName) := by
    unfold McpGateway.runMcpStepTarget
    rw [hstep]
    exact (s.gw.target_capability url toolName).2 hclear
  unfold runMcpStep
  simp only [htarget]
  split
  · rename_i hcall
    rw [hcall]
  · rename_i hcall
    rw [hcall]

/-- **The three decoders** give back the server and the tool of a capability exactly when no `::`
begins in the url; the gateway, over every run, for the tools that it has listed, as it has those
that a discovery returns. -/
theorem capability_round_trip_iff (url toolName : String) :
    (∀ gw : McpGateway, gw.executeMcpTarget (some (mcpPackageId url toolName)) =
      .ok (url, toolName) ↔ ClearUrl url) ∧
    (∀ (gw : McpGateway) (step : WorkflowStep),
      gw.runMcpStepTarget { step with capability := mcpPackageId url toolName } =
        .ok (url, toolName) ↔ ClearUrl url) ∧
    (∀ (env : SessionEnv) (gw : McpGateway) (world : GatewayWorld) (ops : List GatewayOp),
      (ops.foldl (step env) (new gw world)).gw.Listed url toolName →
        ((ops.foldl (step env) (new gw world)).gw.Resolves url toolName ↔ ClearUrl url)) ∧
    ∀ (env : SessionEnv) (now : ℕ) (packages packages' : Dict String Plugin) (tools : List McpTool)
      (s s' : GatewayState), s.discoverMcpTools env now url packages = (.ok tools, packages', s') →
      ∀ tool ∈ tools, s'.gw.Listed url tool.name ∧
        ∃ package, packages'.get? (mcpPackageId url tool.name) = some package ∧
          package.capabilities = [mcpPackageId url tool.name] := by
  refine ⟨fun gw => gw.executeMcpTarget_capability url toolName,
    fun gw step => gw.target_capability url toolName, ?_, ?_⟩
  · intro env gw world ops hlisted
    exact McpGateway.resolveCapability_iff (toolsKeyed_run env gw world ops) hlisted
  · intro env now packages packages' tools s s' h
    exact discoverMcpTools_lists h

/-- A server with one tool. -/
def listingEnv : SessionEnv :=
  { acceptingEnv with
    post := fun _ => .ok (.dict [("result", .dict [("tools", .list [.dict [("name", .str "t")]])])]) }

theorem capability_round_trip_listed :
    (([.listTools "http://srv"].foldl (step listingEnv) (new {} { resilience := {} })).gw.Resolves
      "http://srv" "t" ↔ ClearUrl "http://srv") ∧
    ∃ tools packages s', (new {} { resilience := {} }).discoverMcpTools listingEnv 0 "http://srv" ∅ =
        (.ok tools, packages, s') ∧ tools.map McpTool.name = ["t"] ∧
      ∀ tool ∈ tools, s'.gw.Listed "http://srv" tool.name ∧
        ∃ package, packages.get? (mcpPackageId "http://srv" tool.name) = some package ∧
          package.capabilities = [mcpPackageId "http://srv" tool.name] :=
  have h := capability_round_trip_iff "http://srv" "t"
  ⟨h.2.2.1 listingEnv {} { resilience := {} } [.listTools "http://srv"] ⟨_, rfl, by decide⟩,
    _, _, _, rfl, rfl, h.2.2.2 listingEnv 0 ∅ _ _ (new {} { resilience := {} }) _ rfl⟩

/-- **A server at an IPv6 address**: its tool is called on a server that does not exist. -/
theorem ipv6_server :
    McpGateway.executeMcpTarget {} (some (mcpPackageId "http://[::1]:8080" "t")) ≠
        .ok ("http://[::1]:8080", "t") ∧
      McpGateway.executeMcpTarget {} (some (mcpPackageId "http://[::1]:8080" "t")) =
        .ok ("http://[", "1]:8080::t") := by
  constructor
  · decide
  · decide

end GatewayState

end Hermes

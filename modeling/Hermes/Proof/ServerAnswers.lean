import Hermes.Proof.ArgumentChecks

/-!
# The MCP server answers its messages

* `Callable`, `handleCall_raises_iff`: when a tool call gets an answer.
* `Answered`, `answered_iff`: a message is answered as it should be exactly when it is an object,
  and no tool call that raises.
* `Echoable`, `encodable_iff`: an answer can be sent exactly when what it repeats can be.
* `serve_iff`, `post_iff`: the two transports.
* `server_answers_iff`: all of it.
-/

namespace Hermes

namespace McpServer

variable {ρ : Type} {host : McpHost ρ}

/-! ## Tool calls -/

/-- The tool or `str` of its result raises what `except Exception` does not catch. -/
def Aborts (host : McpHost ρ) (tool : Tool) (args : List (PyStr × Json)) : Prop :=
  ∃ e, e.isException = false ∧ (invoke host tool args = .error e ∨
    ∃ r, invoke host tool args = .ok r ∧ host.str r = .error e)

/-- The tool that a call names. -/
def toolOf (host : McpHost ρ) (params : List (PyStr × Json)) : Option Tool :=
  if (Json.field params "name").truthy then
    host.tools.find? fun tool => (Json.field params "name").isStr tool.name
  else none

/-- The arguments of a call. -/
def argumentsOf (params : List (PyStr × Json)) : Json :=
  (Json.field params "arguments").orElse (.obj [])

/-- The parameters are an object; if they name a tool and the arguments are an object, these can be
checked, and if they are valid, the tool does not abort. -/
def Callable (host : McpHost ρ) (params : Json) : Prop :=
  ∃ kvs, params = .obj kvs ∧ ∀ tool args, toolOf host kvs = some tool → argumentsOf kvs = .obj args →
    Checkable tool.inputSchema args ∧
      (validateArguments tool (.obj args) = .ok true → ¬ Aborts host tool args)

/-- A response to a request with this id. -/
def IsResponse (msgId r : Json) : Prop :=
  ∃ key body, (key = "result" ∨ key = "error") ∧
    r = .obj [(py "jsonrpc", .str (py "2.0")), (py "id", msgId), (py key, body)]

theorem isResponse_error (code : ℤ) (message : PyStr) (msgId : Json) :
    IsResponse msgId (rpcError code message msgId) := ⟨"error", _, .inr rfl, rfl⟩

theorem isResponse_result (result msgId : Json) : IsResponse msgId (rpcResult result msgId) :=
  ⟨"result", _, .inl rfl, rfl⟩

theorem callTool_raises_iff (host : McpHost ρ) (tool : Tool) (name : Json) (args : List (PyStr × Json)) :
    (∃ e, (callTool host tool name args).1 = .error e) ↔ Aborts host tool args := by
  have hfailed : ∀ (e : McpExc) (events : List (ToolCallEvent ρ)) (event : ToolCallEvent ρ),
      (∃ e', (if e.isException = true then ((.ok (.error e.text), events ++ [event]) :
        Except McpExc (Except PyStr PyStr) × List (ToolCallEvent ρ)) else (.error e, events)).1 =
          .error e') ↔ e.isException = false := by
    intro e events event
    cases e.isException with
    | true => simp
    | false => simp
  unfold callTool Aborts
  simp only
  cases hinvoke : invoke host tool args with
  | error e =>
    refine (hfailed e [] _).trans ?_
    constructor
    · exact fun h => ⟨e, h, .inl rfl⟩
    · rintro ⟨e', h, he | ⟨r, hr, -⟩⟩
      · rwa [Except.error.inj he]
      · cases hr
  | ok result =>
    cases hstr : host.str result with
    | ok text =>
      simp only [hstr]
      refine iff_of_false (by simp) ?_
      rintro ⟨e, -, he | ⟨r, hr, he⟩⟩
      · cases he
      · cases hr
        rw [hstr] at he
        cases he
    | error e =>
      simp only [hstr]
      refine (hfailed e _ _).trans ?_
      constructor
      · exact fun h => ⟨e, h, .inr ⟨result, rfl, hstr⟩⟩
      · rintro ⟨e', h, he | ⟨r, hr, he⟩⟩
        · cases he
        · cases hr
          rw [hstr] at he
          rwa [Except.error.inj he]

/-- The answer to a call that names a tool. -/
theorem handleCall_tool {kvs : List (PyStr × Json)} {tool : Tool} (h : toolOf host kvs = some tool)
    (msgId : Json) : handleCall host (.obj kvs) msgId =
      match validateArguments tool (argumentsOf kvs), argumentsOf kvs with
      | .error e, _ => (.error e, [])
      | .ok true, .obj args =>
        match callTool host tool (Json.field kvs "name") args with
        | (.error e, events) => (.error e, events)
        | (.ok (.ok text), events) =>
          let content := .obj [(py "type", .str (py "text")), (py "text", .str text)]
          (.ok (rpcResult (.obj [(py "content", .arr [content])]) msgId), events)
        | (.ok (.error text), events) =>
          (.ok (rpcError (-32000) (py "tool invocation failed: " ++ text) msgId), events)
      | .ok _, _ => (.ok (rpcError (-32602) (py "arguments failed schema validation") msgId), []) := by
  unfold toolOf at h
  split at h
  · rename_i hname
    unfold handleCall
    simp only [hname, if_true, h]
    rfl
  · cases h

/-- The answer to a call that names none. -/
theorem handleCall_none {kvs : List (PyStr × Json)} (h : toolOf host kvs = none) (msgId : Json) :
    ∃ message, handleCall host (.obj kvs) msgId = (.ok (rpcError (-32602) message msgId), []) ∧
      message = if (Json.field kvs "name").truthy
        then py "tool not found: " ++ (Json.field kvs "name").text host.printable
        else py "missing 'name'" := by
  unfold toolOf at h
  unfold handleCall
  cases hname : (Json.field kvs "name").truthy with
  | true =>
    rw [hname, if_pos rfl] at h
    exact ⟨_, by simp only [hname, if_true, h], rfl⟩
  | false => exact ⟨_, by simp only [hname, Bool.false_eq_true, if_false], rfl⟩

/-- **A tool call raises** exactly when it is not callable; else its answer has its id. -/
theorem handleCall_cases (host : McpHost ρ) (params msgId : Json) :
    (¬ Callable host params ∧ ∃ e, (handleCall host params msgId).1 = .error e) ∨
      (Callable host params ∧ ∃ r, (handleCall host params msgId).1 = .ok r ∧ IsResponse msgId r) := by
  have hnobj : ∀ v : Json, (∀ kvs, v ≠ .obj kvs) →
      ¬ Callable host v ∧ ∃ e, (handleCall host v msgId).1 = .error e := by
    intro v hv
    refine ⟨fun ⟨kvs, hkvs, _⟩ => hv kvs hkvs, ?_⟩
    cases v with
    | obj kvs => exact absurd rfl (hv kvs)
    | _ => exact ⟨_, rfl⟩
  cases params with
  | obj kvs =>
    have hcallable : Callable host (.obj kvs) ↔ ∀ tool args, toolOf host kvs = some tool →
        argumentsOf kvs = .obj args → Checkable tool.inputSchema args ∧
          (validateArguments tool (.obj args) = .ok true → ¬ Aborts host tool args) := by
      constructor
      · rintro ⟨kvs', hkvs, h⟩
        cases hkvs
        exact h
      · exact fun h => ⟨kvs, rfl, h⟩
    rw [hcallable]
    cases htool : toolOf host kvs with
    | none =>
      obtain ⟨message, hanswer, -⟩ := handleCall_none htool msgId
      rw [hanswer]
      exact .inr ⟨by simp, _, rfl, isResponse_error ..⟩
    | some tool =>
      rw [handleCall_tool htool]
      cases hargs : argumentsOf kvs with
      | obj args =>
        simp only [Option.some.injEq, Json.obj.injEq, forall_eq', forall_apply_eq_imp_iff]
        have hraises := validateArguments_raises_iff tool args
        cases hvalid : validateArguments tool (.obj args) with
        | error e =>
          refine .inl ⟨fun h => ?_, e, rfl⟩
          exact hraises.1 ⟨e, hvalid⟩ h.1
        | ok valid =>
          have hcheck : Checkable tool.inputSchema args := by
            by_contra hnot
            obtain ⟨e, he⟩ := hraises.2 hnot
            rw [hvalid] at he
            cases he
          cases valid with
          | false => exact .inr ⟨⟨hcheck, by simp⟩, _, rfl, isResponse_error ..⟩
          | true =>
            have habort := callTool_raises_iff host tool (Json.field kvs "name") args
            simp only
            cases hcall : callTool host tool (Json.field kvs "name") args with
            | mk outcome events =>
              rw [hcall] at habort
              cases outcome with
              | error e =>
                refine .inl ⟨fun h => ?_, e, rfl⟩
                exact h.2 trivial (habort.1 ⟨e, rfl⟩)
              | ok answer =>
                have hnot : ¬ Aborts host tool args := fun h => by
                  obtain ⟨e, he⟩ := habort.2 h
                  cases he
                refine .inr ⟨⟨hcheck, fun _ => hnot⟩, ?_⟩
                cases answer with
                | ok text => exact ⟨_, rfl, isResponse_result ..⟩
                | error text => exact ⟨_, rfl, isResponse_error ..⟩
      | _ => exact .inr ⟨by simp, _, rfl, isResponse_error ..⟩
  | _ => exact .inl (hnobj _ (by simp))

/-! ## Messages -/

/-- The id of a request: of an object with an id that is not `null`. -/
def requestId : Json → Option Json
  | .obj kvs => if (Json.field kvs "id").isNull then none else some (Json.field kvs "id")
  | _ => none

theorem requestId_eq_none {kvs : List (PyStr × Json)} :
    requestId (.obj kvs) = none ↔ (Json.field kvs "id").isNull = true := by
  unfold requestId
  simp

theorem requestId_eq_some {kvs : List (PyStr × Json)} {msgId : Json} :
    requestId (.obj kvs) = some msgId ↔
      (Json.field kvs "id").isNull = false ∧ Json.field kvs "id" = msgId := by
  unfold requestId
  simp

/-- A response with a result. -/
def HasResult : Json → Prop
  | .obj kvs => (kvs.lookup (py "result")).isSome
  | _ => False

/-- A call of a tool, by a message that says that it is JSON-RPC 2.0. -/
def IsToolCall (kvs : List (PyStr × Json)) : Prop :=
  (Json.field kvs "jsonrpc").isStr (py "2.0") = true ∧ (Json.field kvs "id").isNull = false ∧
    (Json.field kvs "method").isStr (py "tools/call") = true

/-- The parameters of a message. -/
def paramsOf (kvs : List (PyStr × Json)) : Json := (Json.field kvs "params").orElse (.obj [])

/-- The message is an object, and if it calls a tool, the call can be made. -/
def Answerable (host : McpHost ρ) : Json → Prop
  | .obj kvs => IsToolCall kvs → Callable host (paramsOf kvs)
  | _ => False

/-- A message is answered as it should be: nothing is raised; a request gets one response, with its
id, and whatever another message gets is no result. -/
def Answered (host : McpHost ρ) (msg : Json) : Prop :=
  ∃ answer, (handle host msg).1 = .ok answer ∧
    match requestId msg with
    | some msgId => ∃ r, answer = some r ∧ IsResponse msgId r
    | none => ∀ r, answer = some r → ¬ HasResult r

theorem isStr_ne {v : Json} {s t : PyStr} (h : v.isStr s = true) (hne : s ≠ t) :
    v.isStr t = false := by
  cases v with
  | str u =>
    have hu : u = s := by simpa [Json.isStr] using h
    simpa [Json.isStr, hu] using hne
  | _ => simp [Json.isStr] at h

/-- A tool call is handled by `_handle_call`. -/
theorem handle_toolCall {kvs : List (PyStr × Json)} (h : IsToolCall kvs) :
    handle host (.obj kvs) = ((handleCall host (paramsOf kvs) (Json.field kvs "id")).1.map some,
      (handleCall host (paramsOf kvs) (Json.field kvs "id")).2) := by
  obtain ⟨hversion, hid, hmethod⟩ := h
  have hinit := isStr_ne hmethod (t := py "initialize") (by decide)
  have hlist := isStr_ne hmethod (t := py "tools/list") (by decide)
  unfold handle
  simp only [hversion, hid, hmethod, hinit, hlist, Bool.true_eq_false, Bool.false_eq_true, if_false,
    if_true]
  rfl

/-- Any other object is answered at once. -/
theorem handle_other {kvs : List (PyStr × Json)} (h : ¬ IsToolCall kvs) :
    ∃ answer, (handle host (.obj kvs)).1 = .ok answer ∧
      match requestId (.obj kvs) with
      | some msgId => ∃ r, answer = some r ∧ IsResponse msgId r
      | none => ∀ r, answer = some r → ¬ HasResult r := by
  unfold handle requestId
  simp only
  cases hversion : (Json.field kvs "jsonrpc").isStr (py "2.0") with
  | false =>
    simp only [if_true]
    refine ⟨_, rfl, ?_⟩
    cases hid : (Json.field kvs "id").isNull with
    | true =>
      rintro r ⟨⟩
      simp [rpcError, HasResult, List.lookup_cons, py]
    | false => exact ⟨_, rfl, isResponse_error ..⟩
  | true =>
    simp only [Bool.true_eq_false, if_false]
    cases hid : (Json.field kvs "id").isNull with
    | true =>
      simp only [if_true]
      refine ⟨_, rfl, ?_⟩
      intro r hr
      cases hr
    | false =>
      simp only [Bool.false_eq_true, if_false]
      split
      · exact ⟨_, rfl, _, rfl, isResponse_result ..⟩
      · split
        · exact ⟨_, rfl, _, rfl, isResponse_result ..⟩
        · split
          · rename_i hcall
            exact absurd ⟨hversion, hid, hcall⟩ h
          · exact ⟨_, rfl, _, rfl, isResponse_error ..⟩

/-- **A message is answered** exactly when it is answerable. -/
theorem answered_iff (host : McpHost ρ) (msg : Json) : Answered host msg ↔ Answerable host msg := by
  cases msg with
  | obj kvs =>
    by_cases hcall : IsToolCall kvs
    · have hid : requestId (.obj kvs) = some (Json.field kvs "id") := by
        unfold requestId
        simp only
        rw [hcall.2.1]
        rfl
      have hanswerable : Answerable host (.obj kvs) ↔ Callable host (paramsOf kvs) :=
        ⟨fun h => h hcall, fun h _ => h⟩
      unfold Answered
      rw [hanswerable, handle_toolCall hcall, hid]
      obtain ⟨hnot, e, he⟩ | ⟨hyes, r, hr, hresponse⟩ :=
        handleCall_cases host (paramsOf kvs) (Json.field kvs "id")
      · rw [he]
        refine iff_of_false ?_ hnot
        rintro ⟨answer, hanswer, -⟩
        cases hanswer
      · rw [hr]
        exact iff_of_true ⟨some r, rfl, r, rfl, hresponse⟩ hyes
    · exact iff_of_true (handle_other hcall) fun h => absurd h hcall
  | _ =>
    refine iff_of_false ?_ id
    rintro ⟨answer, hanswer, -⟩
    cases hanswer

/-- What is not answerable raises. -/
theorem answerable_of_ok {msg : Json} {answer : Option Json} (h : (handle host msg).1 = .ok answer) :
    Answerable host msg := by
  cases msg with
  | obj kvs =>
    intro hcall
    rw [handle_toolCall hcall] at h
    obtain ⟨-, e, he⟩ | ⟨hyes, -⟩ := handleCall_cases host (paramsOf kvs) (Json.field kvs "id")
    · rw [he] at h
      cases h
    · exact hyes
  | _ => cases h

/-! ## Sending an answer -/

theorem encodable_list (vs : List Json) :
    Json.encodable (.arr vs) = true ↔ ∀ v ∈ vs, v.encodable = true := by
  show Json.encodableList vs = true ↔ _
  induction vs with
  | nil => simp [Json.encodableList]
  | cons v vs ih => simp [Json.encodableList, ih]

/-- A response is encodable when its id and its body are. -/
theorem encodable_response (msgId body : Json) (key : String) :
    (Json.obj [(py "jsonrpc", .str (py "2.0")), (py "id", msgId), (py key, body)]).encodable = true ↔
      msgId.encodable = true ∧ body.encodable = true := by
  simp [Json.encodable, Json.encodableFields, PyStr.encodable_py]

theorem encodable_error (code : ℤ) (message : PyStr) (msgId : Json) :
    (rpcError code message msgId).encodable = true ↔
      msgId.encodable = true ∧ PyStr.Encodable message := by
  unfold rpcError
  rw [encodable_response]
  simp [Json.encodable, Json.encodableFields, PyStr.encodable_py]

/-- The text of the result or of the error of a tool is encodable. -/
def OutcomeEncodable (host : McpHost ρ) (tool : Tool) (args : List (PyStr × Json)) : Prop :=
  match invoke host tool args with
  | .error e => PyStr.Encodable e.text
  | .ok result => match host.str result with
    | .ok text => PyStr.Encodable text
    | .error e => PyStr.Encodable e.text

/-- What the answer to a call repeats is encodable: the name, if no tool has it, or what the tool
says. -/
def CallEchoable (host : McpHost ρ) (params : Json) : Prop :=
  ∀ kvs, params = .obj kvs →
    (toolOf host kvs = none → (Json.field kvs "name").truthy = true →
      PyStr.Encodable ((Json.field kvs "name").text host.printable)) ∧
    ∀ tool args, toolOf host kvs = some tool → argumentsOf kvs = .obj args →
      validateArguments tool (.obj args) = .ok true → OutcomeEncodable host tool args

/-- What the answer to a request repeats is encodable: its id, and for JSON-RPC 2.0 the tools that
it lists, the call, or a method that is not known. -/
def Echoable (host : McpHost ρ) : Json → Prop
  | .obj kvs => (Json.field kvs "id").encodable = true ∧
    ((Json.field kvs "jsonrpc").isStr (py "2.0") = true →
      ((Json.field kvs "method").isStr (py "tools/list") = true →
        ∀ tool ∈ host.tools, (toMcpSchema tool).encodable = true) ∧
      ((Json.field kvs "method").isStr (py "tools/call") = true →
        CallEchoable host (paramsOf kvs)) ∧
      ((∀ known ∈ ["initialize", "tools/list", "tools/call"],
          (Json.field kvs "method").isStr (py known) = false) →
        PyStr.Encodable ((Json.field kvs "method").text host.printable)))
  | _ => True

/-- The text of a result or of an error. -/
def outcomeText : Except PyStr PyStr → PyStr
  | .ok text => text
  | .error text => text

theorem callTool_encodable {tool : Tool} {name : Json} {args : List (PyStr × Json)}
    {answer : Except PyStr PyStr} (h : (callTool host tool name args).1 = .ok answer) :
    OutcomeEncodable host tool args ↔ PyStr.Encodable (outcomeText answer) := by
  unfold callTool at h
  unfold OutcomeEncodable
  simp only at h
  cases hinvoke : invoke host tool args with
  | error e =>
    simp only [hinvoke] at h
    split at h
    · cases h
      rfl
    · cases h
  | ok result =>
    simp only [hinvoke] at h
    cases hstr : host.str result with
    | ok text =>
      simp only [hstr] at h
      cases h
      simp only [hstr]
      rfl
    | error e =>
      simp only [hstr] at h
      split at h
      · cases h
        simp only [hstr]
        rfl
      · cases h

/-- The answer to a tool call, if there is one. -/
theorem handleCall_encodable {params msgId r : Json}
    (h : (handleCall host params msgId).1 = .ok r) :
    r.encodable = true ↔ msgId.encodable = true ∧ CallEchoable host params := by
  cases params with
  | obj kvs =>
    have hecho : CallEchoable host (.obj kvs) ↔
        (toolOf host kvs = none → (Json.field kvs "name").truthy = true →
          PyStr.Encodable ((Json.field kvs "name").text host.printable)) ∧
        ∀ tool args, toolOf host kvs = some tool → argumentsOf kvs = .obj args →
          validateArguments tool (.obj args) = .ok true → OutcomeEncodable host tool args := by
      constructor
      · exact fun h => h kvs rfl
      · rintro h kvs' ⟨⟩
        exact h
    rw [hecho]
    cases htool : toolOf host kvs with
    | none =>
      obtain ⟨message, hanswer, hmessage⟩ := handleCall_none htool msgId
      rw [hanswer] at h
      cases h
      rw [encodable_error, hmessage]
      cases (Json.field kvs "name").truthy with
      | true => simp [PyStr.encodable_append, PyStr.encodable_py]
      | false => simp [PyStr.encodable_py]
    | some tool =>
      rw [handleCall_tool htool] at h
      cases hargs : argumentsOf kvs with
      | obj args =>
        rw [hargs] at h
        simp only [Option.some.injEq, Json.obj.injEq, forall_eq', forall_apply_eq_imp_iff,
          reduceCtorEq, false_implies, true_and]
        cases hvalid : validateArguments tool (.obj args) with
        | error e =>
          rw [hvalid] at h
          cases h
        | ok valid =>
          rw [hvalid] at h
          cases valid with
          | false =>
            cases h
            rw [encodable_error]
            simp [PyStr.encodable_py]
          | true =>
            simp only at h
            cases hcall : callTool host tool (Json.field kvs "name") args with
            | mk outcome events =>
              rw [hcall] at h
              cases outcome with
              | error e => cases h
              | ok answer =>
                have hanswer : (callTool host tool (Json.field kvs "name") args).1 = .ok answer := by
                  rw [hcall]
                have houtcome := callTool_encodable hanswer
                cases answer with
                | ok text =>
                  cases h
                  rw [houtcome]
                  unfold rpcResult
                  rw [encodable_response]
                  simp [Json.encodable, Json.encodableFields, Json.encodableList, PyStr.encodable_py, outcomeText]
                | error text =>
                  cases h
                  rw [houtcome, encodable_error, PyStr.encodable_append]
                  simp [PyStr.encodable_py, outcomeText]
      | _ =>
        rw [hargs] at h
        simp only [validateArguments] at h
        cases h
        rw [encodable_error]
        simp [PyStr.encodable_py]
  | _ => cases h

/-- **An answer can be sent** exactly when what it repeats can be. -/
theorem handle_encodable_iff {msg r msgId : Json} (hid : requestId msg = some msgId)
    (h : (handle host msg).1 = .ok (some r)) : r.encodable = true ↔ Echoable host msg := by
  cases msg with
  | obj kvs =>
    have hidNull := (requestId_eq_some.1 hid).1
    unfold Echoable
    cases hversion : (Json.field kvs "jsonrpc").isStr (py "2.0") with
    | false =>
      unfold handle at h
      simp only [hversion, if_true] at h
      cases h
      rw [encodable_error]
      simp [PyStr.encodable_py, hversion]
    | true =>
      by_cases hcall : (Json.field kvs "method").isStr (py "tools/call") = true
      · have hlist := isStr_ne hcall (t := py "tools/list") (by decide)
        rw [handle_toolCall ⟨hversion, hidNull, hcall⟩] at h
        simp only at h
        cases hanswer : (handleCall host (paramsOf kvs) (Json.field kvs "id")).1 with
        | error e =>
          rw [hanswer] at h
          cases h
        | ok r' =>
          rw [hanswer] at h
          cases h
          rw [handleCall_encodable hanswer]
          simp [hversion, hcall, hlist]
      · have hcall' : (Json.field kvs "method").isStr (py "tools/call") = false := by simpa using hcall
        unfold handle at h
        simp only [hversion, hidNull, hcall', Bool.true_eq_false, Bool.false_eq_true, if_false] at h
        by_cases hinit : (Json.field kvs "method").isStr (py "initialize") = true
        · have hlist := isStr_ne hinit (t := py "tools/list") (by decide)
          rw [if_pos hinit] at h
          cases h
          unfold rpcResult
          rw [encodable_response]
          have hinfo : serverInfo.encodable = true := by decide
          simp [hversion, hinfo, hinit, hlist, hcall']
        · rw [if_neg hinit] at h
          by_cases hlist : (Json.field kvs "method").isStr (py "tools/list") = true
          · rw [if_pos hlist] at h
            cases h
            unfold rpcResult
            rw [encodable_response]
            have hbody : (Json.obj [(py "tools", .arr (host.tools.map toMcpSchema))]).encodable = true ↔
                ∀ tool ∈ host.tools, (toMcpSchema tool).encodable = true := by
              have htools := encodable_list (host.tools.map toMcpSchema)
              simp only [List.forall_mem_map] at htools
              rw [← htools]
              simp [Json.encodable, Json.encodableFields, PyStr.encodable_py]
            rw [hbody]
            simp [hversion, hlist, hcall']
          · rw [if_neg hlist] at h
            cases h
            rw [encodable_error, PyStr.encodable_append]
            simp [PyStr.encodable_py, hversion, hlist, hcall', hinit]
  | _ => cases hid

theorem eq_null {v : Json} (h : v.isNull = true) : v = .null := by
  cases v with
  | null => rfl
  | _ => cases h

/-- An error without an id can always be sent. -/
theorem unasked_encodable {msg r : Json} (hid : requestId msg = none)
    (h : (handle host msg).1 = .ok (some r)) :
    r.encodable = true ∧ requestId r = none ∧ r.isObj = true := by
  cases msg with
  | obj kvs =>
    have hidNull := requestId_eq_none.1 hid
    have hnull := eq_null hidNull
    unfold handle at h
    simp only at h
    split at h
    · cases h
      rw [hnull]
      exact ⟨by rw [encodable_error]; simp [Json.encodable, PyStr.encodable_py], rfl, rfl⟩
    · cases h
  | _ => cases h

/-! ## The stdio transport -/

/-- A message that the loop of `start` gets over: `null`, or an answerable one whose answer can be
sent. -/
def Servable (host : McpHost ρ) (msg : Json) : Prop :=
  msg.isNull = true ∨ Answerable host msg ∧ ((requestId msg).isSome → Echoable host msg)

theorem serveMessage_ok_iff (host : McpHost ρ) (msg : Json) :
    (∃ response, serveMessage host msg = .ok response) ↔ Servable host msg := by
  unfold serveMessage Servable
  cases hnull : msg.isNull with
  | true => simp
  | false =>
    simp only [Bool.false_eq_true, if_false, false_or]
    rw [← answered_iff]
    cases hanswer : (handle host msg).1 with
    | error e =>
      refine iff_of_false (by simp) ?_
      rintro ⟨⟨answer, hok, -⟩, -⟩
      rw [hanswer] at hok
      cases hok
    | ok answer =>
      have hanswered : Answered host msg := (answered_iff host msg).2 (answerable_of_ok hanswer)
      cases answer with
      | none =>
        refine iff_of_true ⟨none, rfl⟩ ⟨hanswered, fun hsome => ?_⟩
        obtain ⟨msgId, hid⟩ := Option.isSome_iff_exists.1 hsome
        obtain ⟨answer, hok, hresponse⟩ := hanswered
        rw [hanswer] at hok
        cases hok
        rw [hid] at hresponse
        obtain ⟨r, hr, -⟩ := hresponse
        cases hr
      | some r =>
        have hsend : r.encodable = true ↔ ((requestId msg).isSome → Echoable host msg) := by
          cases hid : requestId msg with
          | none => exact iff_of_true (unasked_encodable hid hanswer).1 (by simp)
          | some msgId => rw [handle_encodable_iff hid hanswer]; simp
        rw [← hsend]
        by_cases hencodable : r.encodable = true
        · simp [hencodable, hanswered]
        · simp [hencodable]

/-- **The loop goes on** exactly when it gets over every message. -/
theorem serve_iff (rounds : List (McpHost ρ × Json)) :
    (serve rounds).2 = none ↔ ∀ round ∈ rounds, Servable round.1 round.2 := by
  induction rounds with
  | nil => simp [serve]
  | cons round rounds ih =>
    obtain ⟨host, msg⟩ := round
    have hround := serveMessage_ok_iff host msg
    rw [List.forall_mem_cons, ← hround, ← ih]
    rw [serve]
    cases serveMessage host msg with
    | error e => simp
    | ok response => simp

/-! ## The Streamable HTTP transport -/

/-- The requests in the body of a POST. -/
def requestsOf : Json → List Json
  | .arr msgs => msgs.filter fun msg => (requestId msg).isSome
  | body => if (requestId body).isSome then [body] else []

/-- The responses with an id in the answer to a POST. -/
def responsesOf : Except McpExc (ℕ × Option Json) → List Json
  | .ok (_, some (.arr rs)) => rs.filter fun r => (requestId r).isSome
  | .ok (_, some r) => if (requestId r).isSome then [r] else []
  | _ => []

/-- A response to a request, by their ids. -/
def RespondsTo (msg r : Json) : Prop := ∃ msgId, requestId msg = some msgId ∧ IsResponse msgId r

/-- Each request of a POST gets exactly one response. -/
def PostAnswered (host : McpHost ρ) (body : Json) : Prop :=
  List.Forall₂ RespondsTo (requestsOf body) (responsesOf (handlePostMessages host body))

theorem requestId_response {msgId r : Json} (hnull : msgId.isNull = false) (h : IsResponse msgId r) :
    requestId r = some msgId := by
  obtain ⟨key, body, hkey, rfl⟩ := h
  have hfield : Json.field [(py "jsonrpc", .str (py "2.0")), (py "id", msgId), (py key, body)] "id" =
      msgId := by
    simp [Json.field, List.lookup_cons, py]
  unfold requestId
  simp only
  rw [hfield, hnull]
  rfl

theorem isNull_of_requestId {msg msgId : Json} (h : requestId msg = some msgId) :
    msgId.isNull = false := by
  cases msg with
  | obj kvs =>
    obtain ⟨hnull, rfl⟩ := requestId_eq_some.1 h
    exact hnull
  | _ => cases h

/-- What `dispatch` makes of an answerable message. -/
theorem dispatch_answerable {msg : Json} (h : Answerable host msg) :
    ∃ answer, dispatch host msg = .ok answer ∧ (handle host msg).1 = .ok answer ∧
      match requestId msg with
      | some msgId => ∃ r, answer = some r ∧ IsResponse msgId r
      | none => ∀ r, answer = some r → requestId r = none := by
  obtain ⟨answer, hok, hresponse⟩ := (answered_iff host msg).2 h
  refine ⟨answer, ?_, hok, ?_⟩
  · unfold dispatch
    rw [hok]
  · cases hid : requestId msg with
    | some msgId =>
      rw [hid] at hresponse
      exact hresponse
    | none =>
      rintro r rfl
      exact (unasked_encodable hid hok).2.1

/-- A message that is not answerable gets nothing. -/
theorem dispatch_unanswerable {msg : Json} (h : ¬ Answerable host msg) :
    ∀ answer, dispatch host msg = .ok answer → answer = none := by
  intro answer hanswer
  unfold dispatch at hanswer
  cases hhandle : (handle host msg).1 with
  | error e =>
    rw [hhandle] at hanswer
    simp only at hanswer
    split at hanswer
    · cases hanswer
      rfl
    · cases hanswer
  | ok answer' => exact absurd (answerable_of_ok hhandle) h

/-- The requests of a batch, by its first message. -/
theorem requestsOf_cons (msg : Json) (msgs : List Json) :
    requestsOf (.arr (msg :: msgs)) =
      if (requestId msg).isSome then msg :: requestsOf (.arr msgs) else requestsOf (.arr msgs) := by
  unfold requestsOf
  simp only [List.filter_cons]

theorem isObj_of_requestId {msg : Json} (h : (requestId msg).isSome = true) : msg.isObj = true := by
  cases msg with
  | obj kvs => rfl
  | _ => cases h

/-- An object without an id is answerable. -/
theorem answerable_of_unasked {msg : Json} (hobj : msg.isObj = true) (hid : requestId msg = none) :
    Answerable host msg := by
  cases msg with
  | obj kvs =>
    rintro ⟨-, hnull, -⟩
    rw [requestId_eq_none.1 hid] at hnull
    cases hnull
  | _ => cases hobj

theorem dispatchAll_skip {msg : Json} (hobj : msg.isObj = false) (msgs : List Json) :
    dispatchAll host (msg :: msgs) = dispatchAll host msgs := by
  show (if msg.isObj then _ else _) = _
  rw [hobj]
  rfl

/-- What a batch gives for its first object comes first. -/
theorem dispatchAll_cons {msg : Json} {msgs rs : List Json} (hobj : msg.isObj = true) :
    dispatchAll host (msg :: msgs) = .ok rs ↔ ∃ answer rest, dispatch host msg = .ok answer ∧
      dispatchAll host msgs = .ok rest ∧ answer.toList ++ rest = rs := by
  conv_lhs => unfold dispatchAll
  rw [if_pos hobj]
  cases dispatch host msg with
  | error e => simp
  | ok answer =>
    cases dispatchAll host msgs with
    | error e => simp
    | ok rest => simp

/-- **A batch whose requests are answerable**: each of them has its response, in order, and all can
be sent exactly when the requests can be echoed. -/
theorem dispatchAll_answerable {msgs : List Json}
    (h : ∀ msg ∈ requestsOf (.arr msgs), Answerable host msg) :
    ∃ rs, dispatchAll host msgs = .ok rs ∧
      List.Forall₂ RespondsTo (requestsOf (.arr msgs)) (rs.filter fun r => (requestId r).isSome) ∧
      ((∀ r ∈ rs, r.encodable = true) ↔ ∀ msg ∈ requestsOf (.arr msgs), Echoable host msg) := by
  induction msgs with
  | nil => exact ⟨[], rfl, .nil, by simp [requestsOf]⟩
  | cons msg msgs ih =>
    rw [requestsOf_cons] at h ⊢
    cases hid : requestId msg with
    | some msgId =>
      have hsome : (requestId msg).isSome = true := by rw [hid]; rfl
      rw [hid] at h
      simp only [Option.isSome_some, if_true, List.forall_mem_cons] at h ⊢
      obtain ⟨rs, hrs, hresponses, hsend⟩ := ih h.2
      obtain ⟨answer, hdispatch, hhandle, hanswer⟩ := dispatch_answerable h.1
      rw [hid] at hanswer
      obtain ⟨r, rfl, hr⟩ := hanswer
      have hrid := requestId_response (isNull_of_requestId hid) hr
      refine ⟨r :: rs, ?_, ?_, ?_⟩
      · exact (dispatchAll_cons (isObj_of_requestId hsome)).2 ⟨_, rs, hdispatch, hrs, rfl⟩
      · rw [List.filter_cons, hrid]
        exact .cons ⟨msgId, hid, hr⟩ hresponses
      · rw [List.forall_mem_cons, hsend, handle_encodable_iff hid hhandle]
    | none =>
      rw [hid] at h
      simp only [Option.isSome_none, Bool.false_eq_true, if_false] at h ⊢
      obtain ⟨rs, hrs, hresponses, hsend⟩ := ih h
      cases hobj : msg.isObj with
      | false =>
        exact ⟨rs, (dispatchAll_skip hobj msgs).trans hrs, hresponses, hsend⟩
      | true =>
        obtain ⟨answer, hdispatch, hhandle, hanswer⟩ :=
          dispatch_answerable (answerable_of_unasked hobj hid)
        rw [hid] at hanswer
        refine ⟨answer.toList ++ rs, ?_, ?_, ?_⟩
        · exact (dispatchAll_cons hobj).2 ⟨answer, rs, hdispatch, hrs, rfl⟩
        · cases answer with
          | none => exact hresponses
          | some r =>
            show List.Forall₂ _ _ ((r :: rs).filter _)
            rw [List.filter_cons, hanswer r rfl]
            exact hresponses
        · cases answer with
          | none => exact hsend
          | some r =>
            show (∀ r' ∈ r :: rs, _) ↔ _
            rw [List.forall_mem_cons, hsend]
            simp [(unasked_encodable hid hhandle).1]

/-- A request that is not answerable has no response in its batch. -/
theorem dispatchAll_length {msgs : List Json} :
    ∀ {rs}, dispatchAll host msgs = .ok rs →
      (rs.filter fun r => (requestId r).isSome).length ≤ (requestsOf (.arr msgs)).length ∧
      ((rs.filter fun r => (requestId r).isSome).length = (requestsOf (.arr msgs)).length →
        ∀ msg ∈ requestsOf (.arr msgs), Answerable host msg) := by
  induction msgs with
  | nil =>
    rintro rs ⟨⟩
    simp [requestsOf]
  | cons msg msgs ih =>
    intro rs hrs
    rw [requestsOf_cons]
    cases hobj : msg.isObj with
    | false =>
      have hid : (requestId msg).isSome = false := by
        by_contra hsome
        rw [isObj_of_requestId (by simpa only [Bool.not_eq_false] using hsome)] at hobj
        cases hobj
      rw [dispatchAll_skip hobj] at hrs
      rw [hid]
      exact ih hrs
    | true =>
      obtain ⟨answer, rest, hdispatch, hrest, rfl⟩ := (dispatchAll_cons hobj).1 hrs
      obtain ⟨hle, hall⟩ := ih hrest
      rw [List.filter_append, List.length_append]
      by_cases hyes : Answerable host msg
      · obtain ⟨answer', hdispatch', -, hanswer⟩ := dispatch_answerable hyes
        rw [hdispatch] at hdispatch'
        cases hdispatch'
        cases hid : requestId msg with
        | some msgId =>
          rw [hid] at hanswer
          obtain ⟨r, rfl, hr⟩ := hanswer
          have hrid := requestId_response (isNull_of_requestId hid) hr
          simp only [Option.isSome_some, if_true, Option.toList_some, List.filter_cons, hrid,
            List.filter_nil, List.length_cons, List.length_nil, List.forall_mem_cons]
          refine ⟨by omega, fun heq => ⟨hyes, hall (by omega)⟩⟩
        | none =>
          rw [hid] at hanswer
          have hnone : (answer.toList.filter fun r => (requestId r).isSome) = [] := by
            cases answer with
            | none => rfl
            | some r => simp [hanswer r rfl]
          simp only [hnone, List.length_nil, Option.isSome_none, Bool.false_eq_true, if_false,
            Nat.zero_add]
          exact ⟨hle, hall⟩
      · -- it is a request, and there is nothing for it
        have hnone := dispatch_unanswerable hyes answer hdispatch
        have hid : (requestId msg).isSome = true := by
          by_contra hno
          exact hyes (answerable_of_unasked hobj (by simpa using hno))
        rw [hnone, hid]
        simp only [Option.toList_none, List.filter_nil, List.length_nil, if_true, List.length_cons]
        exact ⟨by omega, fun heq => by omega⟩

/-- What a single response comes to. -/
theorem responsesOf_single {r : Json} (hobj : r.isObj = true) :
    responsesOf (respondJson 200 r) =
      if r.encodable = true ∧ (requestId r).isSome = true then [r] else [] := by
  unfold respondJson
  by_cases hencodable : r.encodable = true
  · cases r with
    | obj kvs => simp [hencodable, responsesOf]
    | _ => cases hobj
  · simp [hencodable, responsesOf]

/-- What the responses of a batch come to. -/
theorem responsesOf_batch (rs : List Json) :
    responsesOf (respondJson 200 (.arr rs)) =
      if ∀ r ∈ rs, r.encodable = true then rs.filter fun r => (requestId r).isSome else [] := by
  unfold respondJson
  have hlist := encodable_list rs
  by_cases hencodable : (Json.arr rs).encodable = true
  · rw [if_pos hencodable, if_pos (hlist.1 hencodable)]
    rfl
  · rw [if_neg hencodable, if_neg fun h => hencodable (hlist.2 h)]
    rfl

theorem post_batch (host : McpHost ρ) (msgs : List Json) :
    PostAnswered host (.arr msgs) ↔
      ∀ msg ∈ requestsOf (.arr msgs), Answerable host msg ∧ Echoable host msg := by
  unfold PostAnswered handlePostMessages
  by_cases hyes : ∀ msg ∈ requestsOf (.arr msgs), Answerable host msg
  · obtain ⟨rs, hrs, hresponses, hsend⟩ := dispatchAll_answerable hyes
    simp only [hrs]
    rw [responsesOf_batch]
    by_cases hecho : ∀ msg ∈ requestsOf (.arr msgs), Echoable host msg
    · rw [if_pos (hsend.2 hecho)]
      exact iff_of_true hresponses fun msg hmsg => ⟨hyes msg hmsg, hecho msg hmsg⟩
    · rw [if_neg fun h => hecho (hsend.1 h), List.forall₂_nil_right_iff]
      constructor
      · intro hnone
        rw [hnone]
        nofun
      · exact fun h => absurd (fun msg hmsg => (h msg hmsg).2) hecho
  · refine iff_of_false (fun hresponses => hyes ?_) fun h => hyes fun msg hmsg => (h msg hmsg).1
    cases hrs : dispatchAll host msgs with
    | error e =>
      simp only [hrs, responsesOf] at hresponses
      rw [List.forall₂_nil_right_iff.1 hresponses]
      nofun
    | ok rs =>
      simp only [hrs] at hresponses
      rw [responsesOf_batch] at hresponses
      split at hresponses
      · exact (dispatchAll_length hrs).2 hresponses.length_eq.symm
      · rw [List.forall₂_nil_right_iff.1 hresponses]
        nofun

/-- The answer to a body that is no array. -/
def answerSingle (host : McpHost ρ) (body : Json) : Except McpExc (ℕ × Option Json) :=
  match dispatch host body with
  | .error e => .error e
  | .ok none => .ok (202, none)
  | .ok (some response) => respondJson 200 response

theorem post_single (host : McpHost ρ) {body : Json} (hbody : ∀ msgs, body ≠ .arr msgs) :
    PostAnswered host body ↔
      ∀ msg ∈ requestsOf body, Answerable host msg ∧ Echoable host msg := by
  have hpost : handlePostMessages host body = answerSingle host body := by
    cases body with
    | arr msgs => exact absurd rfl (hbody msgs)
    | _ => rfl
  have hrequests : requestsOf body = if (requestId body).isSome then [body] else [] := by
    cases body with
    | arr msgs => exact absurd rfl (hbody msgs)
    | _ => rfl
  unfold PostAnswered
  rw [hpost, hrequests]
  by_cases hyes : Answerable host body
  · obtain ⟨answer, hdispatch, hhandle, hanswer⟩ := dispatch_answerable hyes
    unfold answerSingle
    rw [hdispatch]
    cases hid : requestId body with
    | none =>
      -- no request: whatever is answered has no id
      rw [hid] at hanswer
      refine iff_of_true ?_ (by simp)
      cases answer with
      | none => exact .nil
      | some r =>
        obtain ⟨-, hrid, hobj⟩ := unasked_encodable hid hhandle
        have hno : ¬ (r.encodable = true ∧ (requestId r).isSome = true) := by simp [hrid]
        simp only [responsesOf_single hobj]
        rw [if_neg hno]
        exact .nil
    | some msgId =>
      rw [hid] at hanswer
      obtain ⟨r, rfl, hr⟩ := hanswer
      have hrid := requestId_response (isNull_of_requestId hid) hr
      have hobj : r.isObj = true := isObj_of_requestId (by rw [hrid]; rfl)
      have hsend := handle_encodable_iff hid hhandle
      have hcond : r.encodable = true ∧ (requestId r).isSome = true ↔ Echoable host body := by
        rw [hrid]
        simpa using hsend
      have hone : (∀ msg ∈ [body], Answerable host msg ∧ Echoable host msg) ↔
          Answerable host body ∧ Echoable host body := by simp
      simp only [responsesOf_single hobj, Option.isSome_some, if_true]
      rw [hone]
      by_cases hecho : Echoable host body
      · rw [if_pos (hcond.2 hecho)]
        exact iff_of_true (.cons ⟨msgId, hid, hr⟩ .nil) ⟨hyes, hecho⟩
      · rw [if_neg fun h => hecho (hcond.1 h)]
        exact iff_of_false (fun h => by cases h) fun h => hecho h.2
  · have hnone : responsesOf (answerSingle host body) = [] := by
      unfold answerSingle
      cases hdispatch : dispatch host body with
      | error e => rfl
      | ok answer =>
        rw [dispatch_unanswerable hyes answer hdispatch]
        rfl
    rw [hnone, List.forall₂_nil_right_iff]
    cases (requestId body).isSome with
    | false => simp
    | true => simp [hyes]

/-- **Each request of a POST gets exactly one response** exactly when each of them is answerable and
can be echoed. -/
theorem post_iff (host : McpHost ρ) (body : Json) :
    PostAnswered host body ↔
      ∀ msg ∈ requestsOf body, Answerable host msg ∧ Echoable host msg := by
  cases body with
  | arr msgs => exact post_batch host msgs
  | _ => exact post_single host (by simp)

/-! ## All of it -/

/-- **The server answers** a message exactly when it is answerable, the stdio loop goes on exactly
when it gets over its messages, and a POST gets its responses exactly when its requests are
answerable and can be echoed. -/
theorem server_answers_iff (ρ : Type) :
    (∀ (host : McpHost ρ) (msg : Json), Answered host msg ↔ Answerable host msg) ∧
    (∀ rounds : List (McpHost ρ × Json),
      (serve rounds).2 = none ↔ ∀ round ∈ rounds, Servable round.1 round.2) ∧
    ∀ (host : McpHost ρ) (body : Json), PostAnswered host body ↔
      ∀ msg ∈ requestsOf body, Answerable host msg ∧ Echoable host msg :=
  ⟨answered_iff, serve_iff, post_iff⟩

/-- A request for a tool whose schema allows a text or `null`. -/
def nullableCall : Json :=
  .obj [(py "jsonrpc", .str (py "2.0")), (py "id", .int 1), (py "method", .str (py "tools/call")),
    (py "params", .obj [(py "name", .str (py "t")), (py "arguments", .obj [(py "q", .null)])])]

/-- A server with that tool. -/
def nullableHost : McpHost Unit :=
  { tools := [{ name := py "t", capability := py "c"
                inputSchema := [(py "properties", .obj [(py "q",
                  .obj [(py "type", .arr [.str (py "string"), .str (py "null")])])])] }]
    handler := fun _ => some fun _ => .ok ()
    str := fun _ => .ok (py "ok") }

/-- **An empty array** ends the stdio loop, and a call of the tool has no response to its POST. -/
theorem array_ends_loop :
    ¬ Answered nullableHost (.arr []) ∧ (serve [(nullableHost, .arr [])]).2 ≠ none ∧
      ¬ PostAnswered nullableHost nullableCall := by
  refine ⟨?_, by simp [serve, serveMessage, handle, Json.isNull], ?_⟩
  · rintro ⟨answer, hanswer, -⟩
    cases hanswer
  · intro hpost
    have hlength := hpost.length_eq
    revert hlength
    decide

end McpServer

end Hermes

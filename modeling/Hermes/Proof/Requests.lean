import Hermes.Spec.Gateway

/-!
# The requests of a gateway

What a call of the gateway adds to the trace, request by request.

* `retryFrom_grows`: what `retry` keeps of a state, by what its parts keep of it.
* `Sends R`: the trace has grown, and its new requests are in `R`.
* `sends_rpc`, `sends_callTool`: a call sends requests to its own server, with the parameters of
  its method and the token that is held for the server.
-/

namespace Hermes

/-! ## What `retry` keeps -/

/-- A preorder that the coroutine and every effect follow is followed by `retry`. -/
theorem retryFrom_grows {σ α : Type} {act : RetryEffect → σ → σ} {pol : ResilienceRetryPolicy}
    {taskId : Option String} {tid : String} {body : σ → Except PyExc α × σ} {le : σ → σ → Prop}
    (hrefl : ∀ s, le s s) (htrans : ∀ {r s t}, le r s → le s t → le r t)
    (hact : ∀ e s, le s (act e s)) (hbody : ∀ s, le s (body s).2) (left : ℕ) :
    ∀ attempt lastError s, le s (retryFrom act pol taskId tid body attempt left lastError s).2 := by
  have hback : ∀ attempt lastError s, le s (backOff act pol tid attempt lastError s) := by
    intro attempt lastError s
    unfold backOff
    exact htrans (htrans (hact _ _) (hact _ _)) (htrans (hact _ _) (hact _ _))
  induction left with
  | zero => exact fun attempt lastError s => hrefl s
  | succ left ih =>
    intro attempt lastError s
    have hfirst := hbody s
    unfold retryFrom
    split
    · rename_i hb
      rw [hb] at hfirst
      exact hfirst
    · rename_i hb
      rw [hb] at hfirst
      split
      · simp only
        split
        · exact htrans hfirst (htrans (hact _ _) (hact _ _))
        · exact htrans hfirst (htrans (hback _ _ _) (ih _ _ _))
      · exact hfirst

namespace Gateway

/-! ## What a call sends -/

variable {env : GatewayEnv} {gw : Gateway} {R : String → List (String × Value) → Prop}

/-- The effect is no request, or one to a server and with parameters in `R`. -/
def RequestIn (R : String → List (String × Value) → Prop) : GatewayEffect → Prop
  | .post url _ params => R url params
  | _ => True

/-- The trace has grown, by effects whose requests are in `R`. -/
def Sends (R : String → List (String × Value) → Prop) (w w' : GatewayWorld) : Prop :=
  ∃ t, w'.trace = w.trace ++ t ∧ ∀ e ∈ t, RequestIn R e

theorem Sends.refl (w : GatewayWorld) : Sends R w w := ⟨[], by simp, by simp⟩

theorem Sends.trans {w₁ w₂ w₃ : GatewayWorld} (h : Sends R w₁ w₂) (h' : Sends R w₂ w₃) :
    Sends R w₁ w₃ := by
  obtain ⟨t, ht, hall⟩ := h
  obtain ⟨u, hu, hall'⟩ := h'
  refine ⟨t ++ u, by rw [hu, ht, List.append_assoc], ?_⟩
  intro e he
  exact (List.mem_append.1 he).elim (hall e) (hall' e)

theorem sends_perform {e : GatewayEffect} (w : GatewayWorld) (he : RequestIn R e := by trivial) :
    Sends R w (perform env e w) :=
  ⟨[e], rfl, by simpa using he⟩

theorem sends_note {e : GatewayEffect} (w : GatewayWorld) (he : RequestIn R e := by trivial) :
    Sends R w (note e w) :=
  ⟨[e], rfl, by simpa using he⟩

theorem sends_postFrom {url method : String} {params : List (String × Value)} (hR : R url params)
    (left : ℕ) : ∀ attempt w, Sends R w (postFrom env gw url method params attempt left w).2 := by
  induction left with
  | zero => exact fun attempt w => .refl w
  | succ left ih =>
    intro attempt w
    have hpost : Sends R w (perform env (.post url method params) w) := sends_perform w hR
    unfold postFrom
    simp only
    split
    · exact hpost
    · split
      · exact hpost.trans (sends_perform _)
      · split
        · split
          · exact hpost.trans ((sends_perform _).trans (ih _ _))
          · exact hpost.trans (sends_perform _)
        · exact hpost

/-- **A request** is sent with the token of its server. -/
theorem sends_rpc {url : String} {params : List (String × Value)}
    (hR : R url (gw.authorized url params)) (method : String) (w : GatewayWorld) :
    Sends R w (rpc env gw url method params w).2 := by
  unfold rpc
  split
  · have hpost : Sends R w (postFrom env gw url method (gw.authorized url params) 0
        (gw.maxRetries + 1).toNat w).2 := sends_postFrom hR _ _ _
    split
    · rename_i hr
      rw [hr] at hpost
      exact hpost
    · rename_i hr
      rw [hr] at hpost
      split
      · exact hpost
      · split
        · exact hpost
        · exact hpost.trans (sends_perform _)
  · exact .refl w

theorem sends_exitCircuit {α : Type} (name : String) (result : Except PyExc α) (w : GatewayWorld) :
    Sends R w (exitCircuit env name result w) := by
  have hleft : Sends R w { w with resilience := w.resilience.leave name (env.now w) (ended result) } :=
    ⟨[], by simp, by simp⟩
  unfold exitCircuit
  simp only
  split
  · exact hleft.trans ((sends_perform _).trans (sends_perform _))
  · split
    · exact hleft.trans ((sends_perform _).trans (sends_perform _))
    · exact hleft

theorem sends_withCircuit {α : Type} (name : String)
    {body : GatewayWorld → Except PyExc α × GatewayWorld} (hbody : ∀ w, Sends R w (body w).2)
    (w : GatewayWorld) : Sends R w (withCircuit env name body w).2 := by
  unfold withCircuit
  split
  · rename_i r hr
    have hentered : Sends R w { w with resilience := r } := ⟨[], by simp, by simp⟩
    exact hentered.trans (sends_perform _)
  · rename_i r hr
    have hrun : Sends R w (body { w with resilience := r }).2 := hbody { w with resilience := r }
    exact hrun.trans (sends_exitCircuit _ _ _)

theorem sends_report (sessionId toolName argsHash : String) (latencyMs : ℚ) (error : Option String)
    (metric : String) (w : GatewayWorld) :
    Sends R w (report env gw sessionId toolName argsHash latencyMs error metric w) := by
  have hstore : Sends R w (if gw.hasStore then
      note (.putCall (env.uuid w) sessionId toolName argsHash latencyMs error) w else w) := by
    split
    · exact sends_note _
    · exact .refl w
  unfold report
  simp only
  split
  · exact hstore.trans (sends_perform _)
  · exact hstore

theorem sends_remoteCall {url toolName : String} {arguments : List (String × Value)}
    (hR : R url (gw.authorized url [("name", .str toolName), ("arguments", .dict arguments)]))
    (w : GatewayWorld) : Sends R w (remoteCall env gw url toolName arguments w).2 := by
  unfold remoteCall
  simp only
  split
  · exact retryFrom_grows .refl .trans (fun e s => sends_perform s)
      (sends_withCircuit _ (sends_rpc hR _)) _ _ _ _
  · exact sends_rpc hR _ _

/-- **A tool call** sends its requests with the token of its server. -/
theorem sends_callTool {url toolName : String} {arguments : List (String × Value)}
    (hR : R url (gw.authorized url [("name", .str toolName), ("arguments", .dict arguments)]))
    (w : GatewayWorld) : Sends R w (callTool env gw url toolName arguments w).2 := by
  have hcall : Sends R w (remoteCall env gw url toolName arguments w).2 := sends_remoteCall hR w
  unfold callTool
  simp only
  cases hremote : remoteCall env gw url toolName arguments w with
  | mk result w' =>
    rw [hremote] at hcall
    cases result with
    | error e =>
      simp only
      split
      · exact hcall.trans (sends_report ..)
      · exact hcall
    | ok value =>
      exact hcall.trans ((sends_note _).trans ((sends_perform _).trans (sends_report ..)))

end Gateway

/-!
## A tool call on an open circuit

`call_tool` retries what `call_with_circuit` raises, and the default policy of `retry`
takes every exception for a transient one, the refusal of an open circuit too.

* `callTool_opened`: what a refused call does first.
* `open_circuit_retried`: it never fails fast.
-/

namespace Gateway

variable {env : GatewayEnv} {gw : Gateway}

/-! ## The trace grows -/

/-- The effects so far are a prefix of those later on. -/
def Later (w w' : GatewayWorld) : Prop := w.trace <+: w'.trace

theorem Later.refl (w : GatewayWorld) : Later w w := List.prefix_refl _

theorem Later.trans {w₁ w₂ w₃ : GatewayWorld} (h : Later w₁ w₂) (h' : Later w₂ w₃) : Later w₁ w₃ :=
  List.IsPrefix.trans h h'

theorem later_perform (env : GatewayEnv) (e : GatewayEffect) (w : GatewayWorld) : Later w (perform env e w) :=
  List.prefix_append _ _

theorem later_note (e : GatewayEffect) (w : GatewayWorld) : Later w (note e w) :=
  List.prefix_append _ _

/-- A call that sends requests of any kind. -/
theorem Sends.later {w w' : GatewayWorld} (h : Sends (fun _ _ => True) w w') : Later w w' := by
  obtain ⟨t, ht, -⟩ := h
  exact ⟨t, ht.symm⟩

theorem later_report (sessionId toolName argsHash : String) (latencyMs : ℚ) (error : Option String)
    (metric : String) (w : GatewayWorld) :
    Later w (report env gw sessionId toolName argsHash latencyMs error metric w) :=
  (sends_report ..).later

/-- What is left of `call_tool` when the remote call is over. -/
theorem later_callTool (url toolName : String) (arguments : List (String × Value)) (w : GatewayWorld) :
    Later (remoteCall env gw url toolName arguments w).2 (callTool env gw url toolName arguments w).2 := by
  unfold callTool
  simp only
  cases hcall : remoteCall env gw url toolName arguments w with
  | mk result w' =>
    cases result with
    | error e =>
      simp only
      split
      · exact later_report ..
      · exact .refl _
    | ok value => exact (later_note _ _).trans ((later_perform _ _ _).trans (later_report ..))

/-! ## Refused -/

/-- The circuit stays open at the clock reading of a call. -/
def Refuses (env : GatewayEnv) (w : GatewayWorld) (name : String) : Prop :=
  (((w.resilience.circuits.get? name).getD {}).maybeRecover (env.now w)).state = .opened

instance (w : GatewayWorld) (name : String) : Decidable (Refuses env w name) :=
  inferInstanceAs (Decidable (_ = _))

/-- `call_with_circuit` on an open circuit. -/
theorem withCircuit_refused {α : Type} {name : String}
    (body : GatewayWorld → Except PyExc α × GatewayWorld) {w : GatewayWorld}
    (h : Refuses env w name) :
    (withCircuit env name body w).1 = .error (circuitBreakerOpenError name) ∧
      (withCircuit env name body w).2.trace = w.trace ++ [.metric "res.circuit_rejected"] := by
  have henter : ∃ r, w.resilience.enter name (env.now w) = (.error (Resilience.openError name), r) := by
    unfold Resilience.enter
    simp only
    rw [h]
    exact ⟨_, rfl⟩
  obtain ⟨r, hr⟩ := henter
  unfold withCircuit
  rw [hr]
  exact ⟨rfl, rfl⟩

/-- What `retry` does when the circuit refuses its first attempt. -/
def firstRetry (url toolName : String) : List RetryEffect :=
  let tid := "mcp:" ++ url ++ ":" ++ toolName
  let refusal := circuitBreakerOpenError ("mcp:" ++ url)
  let lastError := refusal.name ++ ": " ++ refusal.text
  [.attempted tid 1 100 lastError, .metric "res.retry_attempted", .putRetry tid 1 100 lastError,
    .sleep (1 / 10)]

theorem remoteCall_opened (hgw : gw.hasResilience = true) (url toolName : String)
    (arguments : List (String × Value)) {w : GatewayWorld} (h : Refuses env w ("mcp:" ++ url)) :
    w.trace ++ .metric "res.circuit_rejected" :: (firstRetry url toolName).map .retry <+:
      (remoteCall env gw url toolName arguments w).2.trace := by
  set doRpc := rpc env gw url "tools/call" [("name", .str toolName), ("arguments", .dict arguments)]
    with hrpc
  obtain ⟨hfirst, htrace⟩ := withCircuit_refused doRpc h
  have hguarded : withCircuit env ("mcp:" ++ url) doRpc w =
      (.error (circuitBreakerOpenError ("mcp:" ++ url)), (withCircuit env ("mcp:" ++ url) doRpc w).2) :=
    Prod.ext hfirst rfl
  set refused := (withCircuit env ("mcp:" ++ url) doRpc w).2
  have htid : orElse (some ("mcp:" ++ url ++ ":" ++ toolName)) (env.uuid w) =
      "mcp:" ++ url ++ ":" ++ toolName := by
    simp [orElse, truthy]
  unfold remoteCall retry
  simp only [hgw, if_true, Option.getD_none, htid, ← hrpc]
  -- the first attempt is refused, and the refusal is retried
  show _ <+: (retryFrom _ {} _ _ _ 1 3 "" w).2.trace
  rw [retryFrom, hguarded]
  simp only
  have hcaught : (circuitBreakerOpenError ("mcp:" ++ url)).isException = true := rfl
  have hretried : ¬ (ResilienceRetryPolicy.isRetryable {} (circuitBreakerOpenError ("mcp:" ++ url)) =
      false ∨ (3 : ℤ) ≤ (1 : ℕ)) := by
    simp [ResilienceRetryPolicy.isRetryable]
  rw [if_pos hcaught, if_neg hretried]
  refine List.IsPrefix.trans ?_ (@retryFrom_grows _ _ _ _ _ _ _ Later Later.refl Later.trans
    (fun e w => later_perform env (.retry e) w)
    (fun w => (sends_withCircuit _ (sends_rpc trivial _) w).later) 2 2 _ _)
  have hpolicy : ResilienceRetryPolicy.backoffFor {} 1 = 100 := rfl
  unfold backOff perform
  simp only [hpolicy, htrace]
  unfold firstRetry
  have hsleep : ((100 : ℤ) : ℚ) / 1000 = 1 / 10 := by norm_num
  rw [hsleep]
  simp

/-! ## Failing fast -/

/-- What a call that fails fast does not do: a `post`, a `sleep` or a retry. -/
def slow : GatewayEffect → Bool
  | .post .. => true
  | .rpcSleep _ => true
  | .retry (.sleep _) => true
  | .retry (.attempted ..) => true
  | _ => false

/-- A call does none of these before it returns. -/
def FailsFast (env : GatewayEnv) (gw : Gateway) (url toolName : String)
    (arguments : List (String × Value)) (w : GatewayWorld) : Prop :=
  ∀ e ∈ (callTool env gw url toolName arguments w).2.trace.drop w.trace.length, slow e = false

/-- **What a refused call does first.** -/
theorem callTool_opened (env : GatewayEnv) (gw : Gateway) (hgw : gw.hasResilience = true) (url toolName : String)
    (arguments : List (String × Value)) {w : GatewayWorld} (h : Refuses env w ("mcp:" ++ url)) :
    .metric "res.circuit_rejected" :: (firstRetry url toolName).map .retry <+:
      (callTool env gw url toolName arguments w).2.trace.drop w.trace.length := by
  obtain ⟨rest, hrest⟩ := (remoteCall_opened hgw url toolName arguments h).trans
    (later_callTool url toolName arguments w)
  rw [← hrest, List.append_assoc, List.drop_left]
  exact List.prefix_append _ _

end Gateway

/-- **No refused call fails fast**: for every gateway with a resilience engine, every tool call on a
circuit that is open and stays so at the call retries the refusal. -/
theorem open_circuit_retried (env : GatewayEnv) (gw : Gateway) (hgw : gw.hasResilience = true)
    (url toolName : String) (arguments : List (String × Value)) (w : GatewayWorld)
    (h : Gateway.Refuses env w ("mcp:" ++ url)) : ¬ Gateway.FailsFast env gw url toolName arguments w := by
  intro hfast
  have hsleep : GatewayEffect.retry (.sleep (1 / 10)) ∈
      .metric "res.circuit_rejected" :: (Gateway.firstRetry url toolName).map .retry := by
    unfold Gateway.firstRetry
    simp
  have hslow := hfast _ ((Gateway.callTool_opened env gw hgw url toolName arguments h).subset hsleep)
  cases hslow

/-- A server that is down, and a circuit that nobody else touches. -/
def downEnv : GatewayEnv where
  now _ := 1000
  clock _ := 0
  meanwhile w := w.resilience
  post _ := .error ⟨["ConnectionError", "OSError", "Exception", "BaseException", "object"], "down"⟩
  uuid _ := "id"
  str _ := ""
  hash _ := "hash"

/-- The circuit of a server was opened a second ago. -/
def openedWorld : GatewayWorld where
  resilience :=
    let c : Circuit := { state := .opened, failureCount := 5, lastFailure := some 0 }
    { circuits := (∅ : Dict String Circuit).insert "mcp:http://srv" c }

theorem open_circuit_retried_down : ¬ Gateway.FailsFast downEnv {} "http://srv" "t" [] openedWorld :=
  open_circuit_retried downEnv {} rfl "http://srv" "t" [] openedWorld (by decide +kernel)

/-- **The refusal is retried** after a tenth of a second. -/
theorem opened_not_fast :
    Gateway.Refuses downEnv openedWorld "mcp:http://srv" ∧
      ¬ Gateway.FailsFast downEnv {} "http://srv" "t" [] openedWorld := by
  have hrefuses : Gateway.Refuses downEnv openedWorld "mcp:http://srv" := by decide +kernel
  refine ⟨hrefuses, fun hfast => ?_⟩
  have hfirst := Gateway.callTool_opened downEnv {} rfl "http://srv" "t" [] hrefuses
  have hattempted := hfast _ (hfirst.subset (List.mem_cons_of_mem _ List.mem_cons_self))
  cases hattempted

end Hermes

import Hermes.Proof.Requests
import Hermes.Proof.SessionIndex

/-!
# Where the bearer token of a server came from

`connect` writes down where it found a token, `"none"` when it found none; but then it leaves the
token that an earlier connect had put into `_auth`, and `_rpc` goes on sending it.

* `Provenance`: a gateway, with what the connect that set the source of each server obtained.
* `requests_authorized`: the requests of an operation carry the token that is held after it.
* `Traced`: what every run keeps of the sources; `truthful_iff`: what is left to be truthful.
* `auth_provenance_iff`: the sources are truthful throughout a run exactly when no connect comes
  without a token to a server for which one is held.
-/

namespace Hermes

open History

/-- What a request says in `_meta.authorization`. -/
def bearer (params : List (String × Value)) : Option String :=
  match params.lookup "_meta" with
  | some (.dict kvs) => match kvs.lookup "authorization" with
    | some (.str text) => some text
    | _ => none
  | _ => none

/-- The parameters of a request before `_rpc` has authorized it. -/
def Unauthorized (params : List (String × Value)) : Prop := "_meta" ∉ params.map Prod.fst

instance : DecidablePred Unauthorized := fun _ => inferInstanceAs (Decidable (_ ∉ _))

/-- **A request carries the token that is held** for its server. -/
theorem bearer_authorized (gw : Gateway) (url : String) {params : List (String × Value)}
    (h : Unauthorized params) :
    bearer (gw.authorized url params) = (gw.auth.get? url).map ("Bearer " ++ ·) := by
  have habsent : params.lookup "_meta" = none := by
    rw [List.lookup_eq_none_iff]
    intro kv hkv
    have hne : "_meta" ≠ kv.1 := fun heq => h (heq ▸ List.mem_map_of_mem hkv)
    simpa using hne
  unfold Gateway.authorized bearer
  cases gw.auth.get? url with
  | none => simp [habsent]
  | some token => simp [List.lookup_append, habsent]

/-- A gateway, with what the connect that set the source of each server obtained. -/
structure Provenance where
  state : GatewayState
  obtained : String → Option String

namespace Provenance

open GatewayState

variable {env : SessionEnv} {p : Provenance}

def step (env : SessionEnv) (p : Provenance) (op : GatewayOp) : Provenance :=
  { state := p.state.step env op
    obtained := match op with
      | .connect url authToken => match obtain env url authToken p.state with
        | .ok (_, token) => Function.update p.obtained url token
        | .error _ => p.obtained
      | _ => p.obtained }

def new (gw : McpGateway) (world : GatewayWorld) : Provenance :=
  { state := .new gw world, obtained := fun _ => none }

/-- The source of a server is `"none"` exactly when requests to it carry no authorization, and else
they carry the token that was obtained by the connect that set the source. -/
def Truthful (p : Provenance) : Prop :=
  ∀ url params, Unauthorized params →
    (p.state.gw.authSource url = .none ↔ bearer (p.state.gw.authorized url params) = none) ∧
    (p.state.gw.authSource url ≠ .none →
      bearer (p.state.gw.authorized url params) = (p.obtained url).map ("Bearer " ++ ·))

/-- A connect is given no token, and the vault, if there is one, has none or cannot say. -/
def WithoutToken (env : SessionEnv) (s : GatewayState) (url : String) (authToken : Option String) :
    Prop :=
  authToken = none ∧ (s.gw.hasVault = true →
    match env.resolveSecret ("mcp:" ++ url ++ ":auth_token") url ("mcp_gateway:" ++ url) s.world with
    | .ok token => token = none
    | .error e => "KeyError" ∈ e.mro ∨ "RuntimeError" ∈ e.mro)

/-- No token is held for the server of a connect that comes without one. -/
def NoTokenLeft (env : SessionEnv) (p : Provenance) : GatewayOp → Prop
  | .connect url authToken => WithoutToken env p.state url authToken →
      p.state.gw.auth.get? url = none
  | _ => True

/-! ## The requests of an operation -/

theorem authorized_congr {gw gw' : Gateway} (h : gw'.auth = gw.auth) (url : String)
    (params : List (String × Value)) : gw'.authorized url params = gw.authorized url params := by
  unfold Gateway.authorized
  rw [h]

theorem closeSession_auth (sessionId reason : String) (s : GatewayState) :
    (closeSession sessionId reason s).gw.auth = s.gw.auth ∧
      (closeSession sessionId reason s).gw.authSources = s.gw.authSources ∧
      (closeSession sessionId reason s).world = s.world := by
  unfold closeSession
  split
  · exact ⟨rfl, rfl, rfl⟩
  · exact ⟨rfl, rfl, rfl⟩

theorem listTools_auth (env : SessionEnv) (url : String) (s : GatewayState) :
    (listTools env url s).2.gw.auth = s.gw.auth ∧
      (listTools env url s).2.gw.authSources = s.gw.authSources := by
  obtain hgw | ⟨tools, toolStore, hgw⟩ := listTools_gw env url s
  · rw [hgw]
    exact ⟨rfl, rfl⟩
  · rw [hgw]
    exact ⟨rfl, rfl⟩

/-- What a connect that has looked for a token leaves of the tokens and the sources. -/
theorem connect_auth {url : String} {authToken token : Option String} {source : AuthSource}
    {s : GatewayState} (h : obtain env url authToken s = .ok (source, token)) :
    (connect env url authToken s).2.gw.auth = (hold url source token s).gw.auth ∧
      (connect env url authToken s).2.gw.authSources = (hold url source token s).gw.authSources := by
  obtain ⟨e, he, -⟩ | ⟨source', token', hfound, hgw⟩ := connect_cases env url authToken s
  · rw [he] at h
    cases h
  · rw [hfound] at h
    cases h
    obtain hgw | ⟨server, s', hgw, hs⟩ := hgw
    · rw [hgw]
      exact ⟨rfl, rfl⟩
    · rw [hs]
      exact ⟨congrArg (·.auth) hgw, congrArg (·.authSources) hgw⟩

/-- The requests that are made with the tokens of a gateway. -/
abbrev AuthorizedBy (gw : McpGateway) (url : String) (params : List (String × Value)) : Prop :=
  ∃ params', Unauthorized params' ∧ params = gw.authorized url params'

theorem connect_requests (url : String) (authToken : Option String) (s : GatewayState) :
    Gateway.Sends (AuthorizedBy (connect env url authToken s).2.gw) s.world
      (connect env url authToken s).2.world := by
  cases hobtain : obtain env url authToken s with
  | error e =>
    unfold connect
    rw [hobtain]
    exact .refl _
  | ok found =>
    obtain ⟨source, token⟩ := found
    have hauth := (connect_auth hobtain).1
    -- the handshake is made with the tokens that are held from then on
    have hsends : Gateway.Sends (AuthorizedBy (connect env url authToken s).2.gw) s.world
        (rpc env url "initialize" McpGateway.initializeParams (hold url source token s)).2.world := by
      refine Gateway.sends_rpc ?_ _ _
      exact ⟨_, by decide, authorized_congr hauth.symm _ _⟩
    have hworld : (connect env url authToken s).2.world =
        (rpc env url "initialize" McpGateway.initializeParams (hold url source token s)).2.world := by
      unfold connect
      rw [hobtain]
      simp only
      split
      · rename_i hr
        rw [hr]
      · rename_i hr
        rw [hr]
        split
        · rfl
        · rfl
    rw [hworld]
    exact hsends

theorem listTools_requests (env : SessionEnv) (url : String) (s : GatewayState) :
    Gateway.Sends (AuthorizedBy s.gw) s.world (listTools env url s).2.world := by
  have hsends : Gateway.Sends (AuthorizedBy s.gw) s.world
      (rpc env url "tools/list" [] s).2.world :=
    Gateway.sends_rpc ⟨_, by decide, rfl⟩ _ _
  unfold listTools
  split
  · rename_i hr
    rw [hr] at hsends
    exact hsends
  · rename_i hr
    rw [hr] at hsends
    split
    · exact hsends
    · exact hsends

theorem readResource_requests (env : SessionEnv) (url uri : String) (s : GatewayState) :
    Gateway.Sends (AuthorizedBy s.gw) s.world (readResource env url uri s).2.world := by
  have hsends : Gateway.Sends (AuthorizedBy s.gw) s.world
      (rpc env url "resources/read" [("uri", .str uri)] s).2.world :=
    Gateway.sends_rpc ⟨_, by simp [Unauthorized], rfl⟩ _ _
  unfold readResource
  split
  · rename_i hr
    rw [hr] at hsends
    exact hsends
  · rename_i hr
    rw [hr] at hsends
    split
    · exact hsends
    · exact hsends.trans (Gateway.sends_note _)

/-- **The requests of an operation** are made with the tokens that are held after it. -/
theorem requests_authorized (env : SessionEnv) (s : GatewayState) (op : GatewayOp) :
    Gateway.Sends (AuthorizedBy (s.step env op).gw) s.world (s.step env op).world := by
  cases op with
  | connect url authToken => exact connect_requests url authToken s
  | closeSession sessionId reason =>
    have hworld := (closeSession_auth sessionId reason s).2.2
    exact hworld ▸ Gateway.Sends.refl _
  | listTools url =>
    obtain ⟨t, ht, hall⟩ := listTools_requests env url s
    refine ⟨t, ht, fun e he => ?_⟩
    have hin := hall e he
    cases e with
    | post url' method params =>
      obtain ⟨params', hno, rfl⟩ := hin
      exact ⟨params', hno, authorized_congr (listTools_auth env url s).1.symm _ _⟩
    | _ => trivial
  | callTool url toolName arguments =>
    exact Gateway.sends_callTool ⟨_, by simp [Unauthorized], rfl⟩ _
  | readResource url uri =>
    have hsends := readResource_requests env url uri s
    rwa [← readResource_gw env url uri s] at hsends

/-! ## What every run keeps -/

/-- A source is set exactly when something was obtained with it, and that token is held. -/
structure Traced (p : Provenance) : Prop where
  sourced : ∀ url, p.state.gw.authSource url = .none ↔ p.obtained url = none
  held : ∀ url token, p.obtained url = some token → p.state.gw.auth.get? url = some token

theorem traced_new (gw : McpGateway) (world : GatewayWorld) : Traced (new gw world) :=
  ⟨fun _ => iff_of_true rfl rfl, nofun⟩

/-- What `connect` finds: a source with a token, or neither. -/
theorem obtain_cases {url : String} {authToken token : Option String} {source : AuthSource}
    {s : GatewayState} (h : obtain env url authToken s = .ok (source, token)) :
    source = .none ↔ token = none := by
  revert h
  unfold obtain
  cases authToken with
  | some given =>
    rintro ⟨⟩
    simp
  | none =>
    simp only
    split
    · split
      · rintro ⟨⟩
        simp
      · rintro ⟨⟩
        simp
      · split
        · rintro ⟨⟩
          simp
        · nofun
    · rintro ⟨⟩
      simp

/-- A connect that finds no token is one that comes without. -/
theorem obtain_none_iff {url : String} {authToken : Option String} {s : GatewayState} :
    (∃ source, obtain env url authToken s = .ok (source, none)) ↔
      WithoutToken env s url authToken := by
  unfold obtain WithoutToken
  cases authToken with
  | some given => simp
  | none =>
    by_cases hvault : s.gw.hasVault = true
    · simp only [hvault, if_true, true_and, forall_const]
      cases env.resolveSecret ("mcp:" ++ url ++ ":auth_token") url ("mcp_gateway:" ++ url) s.world with
      | error e => by_cases he : "KeyError" ∈ e.mro ∨ "RuntimeError" ∈ e.mro <;> simp [he]
      | ok token => cases token <;> simp
    · simp [hvault]

/-- A connect that finds neither changes nothing. -/
theorem step_refused {url : String} {authToken : Option String} {e : PyExc}
    (hobtain : obtain env url authToken p.state = .error e) :
    p.step env (.connect url authToken) = p := by
  have hsame : (connect env url authToken p.state).2 = p.state := by
    unfold connect
    rw [hobtain]
  unfold step
  simp only [hobtain]
  show Provenance.mk (connect env url authToken p.state).2 p.obtained = p
  rw [hsame]

theorem obtained_connect {url : String} {authToken token : Option String} {source : AuthSource}
    (hobtain : obtain env url authToken p.state = .ok (source, token)) :
    (p.step env (.connect url authToken)).obtained = Function.update p.obtained url token := by
  unfold step
  simp only
  rw [hobtain]

theorem traced_connect (h : Traced p) {url : String} {authToken token : Option String}
    {source : AuthSource} (hobtain : obtain env url authToken p.state = .ok (source, token)) :
    Traced (p.step env (.connect url authToken)) := by
  obtain ⟨hauth, hsources⟩ := connect_auth hobtain
  have hobtained := obtained_connect hobtain
  refine ⟨fun url' => ?_, fun url' token' htoken => ?_⟩
  · have hsource : (p.step env (.connect url authToken)).state.gw.authSource url' =
        if url' = url then source else p.state.gw.authSource url' := by
      show ((connect env url authToken p.state).2.gw.authSources.get? url').getD .none = _
      rw [hsources]
      unfold hold McpGateway.authSource
      rw [Dict.get?_insert]
      split <;> rfl
    rw [hsource, hobtained, Function.update_apply]
    by_cases hurl : url' = url
    · rw [if_pos hurl, if_pos hurl]
      exact obtain_cases hobtain
    · rw [if_neg hurl, if_neg hurl]
      exact h.sourced url'
  · show (connect env url authToken p.state).2.gw.auth.get? url' = _
    rw [hobtained, Function.update_apply] at htoken
    rw [hauth]
    unfold hold
    by_cases hurl : url' = url
    · rw [if_pos hurl] at htoken
      rw [htoken, hurl]
      exact Dict.get?_insert_self _ _ _
    · rw [if_neg hurl] at htoken
      have hold := h.held url' token' htoken
      cases token with
      | none => exact hold
      | some token => exact (Dict.get?_insert_of_ne _ hurl _).trans hold

theorem traced_step (h : Traced p) (op : GatewayOp) : Traced (p.step env op) := by
  -- an operation that touches neither the tokens nor the sources, and obtains nothing
  have hframe : ∀ q : Provenance, q.state.gw.auth = p.state.gw.auth →
      q.state.gw.authSources = p.state.gw.authSources → q.obtained = p.obtained → Traced q := by
    intro q hauth hsources hobtained
    refine ⟨fun url => ?_, fun url token => ?_⟩
    · unfold McpGateway.authSource
      rw [hsources, hobtained]
      exact h.sourced url
    · rw [hauth, hobtained]
      exact h.held url token
  cases op with
  | closeSession sessionId reason =>
    obtain ⟨hauth, hsources, -⟩ := closeSession_auth sessionId reason p.state
    exact hframe _ hauth hsources rfl
  | listTools url =>
    obtain ⟨hauth, hsources⟩ := listTools_auth env url p.state
    exact hframe _ hauth hsources rfl
  | callTool url toolName arguments => exact hframe _ rfl rfl rfl
  | readResource url uri =>
    have hgw := readResource_gw env url uri p.state
    exact hframe _ (congrArg (·.auth) hgw) (congrArg (·.authSources) hgw) rfl
  | connect url authToken =>
    cases hobtain : obtain env url authToken p.state with
    | error e =>
      rw [step_refused hobtain]
      exact h
    | ok found =>
      obtain ⟨source, token⟩ := found
      exact traced_connect h hobtain

/-- **Truthful**, for the runs of a gateway: nothing is held where the last connect found nothing. -/
theorem truthful_iff (h : Traced p) :
    Truthful p ↔ ∀ url, p.obtained url = none → p.state.gw.auth.get? url = none := by
  constructor
  · intro htrue url hnone
    have hno : Unauthorized [] := by decide
    obtain ⟨hiff, -⟩ := htrue url [] hno
    have hbearer := hiff.1 ((h.sourced url).2 hnone)
    rw [bearer_authorized _ _ hno] at hbearer
    exact Option.map_eq_none_iff.1 hbearer
  · intro hnone url params hno
    rw [bearer_authorized _ _ hno, h.sourced url]
    cases hobtained : p.obtained url with
    | none => simp [hnone url hobtained]
    | some token => simp [h.held url token hobtained]

/-- One operation keeps the sources truthful exactly when it leaves no token of another connect. -/
theorem truthful_step (h : Traced p) (htrue : Truthful p) (op : GatewayOp) :
    Truthful (p.step env op) ↔ NoTokenLeft env p op := by
  rw [truthful_iff (traced_step h op)]
  have hbefore := (truthful_iff h).1 htrue
  cases op with
  | closeSession sessionId reason =>
    obtain ⟨hauth, -⟩ := closeSession_auth sessionId reason p.state
    refine iff_of_true (fun url hnone => ?_) trivial
    exact (congrArg (·.get? url) hauth).trans (hbefore url hnone)
  | listTools url =>
    obtain ⟨hauth, -⟩ := listTools_auth env url p.state
    refine iff_of_true (fun url' hnone => ?_) trivial
    exact (congrArg (·.get? url') hauth).trans (hbefore url' hnone)
  | callTool url toolName arguments => exact iff_of_true hbefore trivial
  | readResource url uri =>
    have hgw := readResource_gw env url uri p.state
    refine iff_of_true (fun url' hnone => ?_) trivial
    exact (congrArg (·.auth.get? url') hgw).trans (hbefore url' hnone)
  | connect url authToken =>
    show (∀ url', (p.step env (.connect url authToken)).obtained url' = none →
      (p.step env (.connect url authToken)).state.gw.auth.get? url' = none) ↔
        (WithoutToken env p.state url authToken → p.state.gw.auth.get? url = none)
    cases hobtain : obtain env url authToken p.state with
    | error e =>
      rw [step_refused hobtain]
      refine iff_of_true hbefore fun hwithout => ?_
      obtain ⟨source, hsource⟩ := obtain_none_iff.2 hwithout
      rw [hobtain] at hsource
      cases hsource
    | ok found =>
      obtain ⟨source, token⟩ := found
      have hauth : (p.step env (.connect url authToken)).state.gw.auth = _ := (connect_auth hobtain).1
      have hwithout : WithoutToken env p.state url authToken ↔ token = none := by
        rw [← obtain_none_iff, hobtain]
        simp
      rw [hauth, obtained_connect hobtain, hwithout]
      cases token with
      | none =>
        -- nothing is put into `_auth`, and the server's source says so
        constructor
        · intro hall _
          exact hall url (by simp)
        · intro hurl url' hnone
          by_cases heq : url' = url
          · rw [heq]
            exact hurl rfl
          · rw [Function.update_of_ne heq] at hnone
            exact hbefore url' hnone
      | some token =>
        refine iff_of_true (fun url' hnone => ?_) nofun
        by_cases heq : url' = url
        · rw [heq, Function.update_self] at hnone
          cases hnone
        · rw [Function.update_of_ne heq] at hnone
          exact (Dict.get?_insert_of_ne _ heq _).trans (hbefore url' hnone)

theorem truthful_new (gw : McpGateway) (world : GatewayWorld) : Truthful (new gw world) :=
  (truthful_iff (traced_new gw world)).2 fun _ _ => rfl

/-! ## Runs -/

/-- **Truthful sources**, over every run of a new gateway; and the requests of the run are those
that the sources are about. -/
theorem auth_provenance_iff (env : SessionEnv) (gw : McpGateway) (world : GatewayWorld)
    (ops : List GatewayOp) :
    (Throughout (step env) Truthful (new gw world) ops ↔
      EachStep (step env) (NoTokenLeft env) (new gw world) ops) ∧
    EachStep (step env) (fun p op => Gateway.Sends (AuthorizedBy (p.step env op).state.gw)
      p.state.world (p.step env op).state.world) (new gw world) ops := by
  constructor
  · exact throughout_iff (A := fun _ => True) (fun _ op _ h => traced_step h op)
      (fun _ op _ h htrue => truthful_step h htrue op) ops _ (fun _ _ => trivial)
      (traced_new gw world) (truthful_new gw world)
  · exact eachStep_of_mem (fun p op _ => requests_authorized env p.state op) _

/-- A connect with a token, and one without. -/
def tokenThenNone : List GatewayOp := [.connect "http://srv" (some "t"), .connect "http://srv" none]

/-- **The second connect has no token, and its requests carry the first one's.** -/
theorem stale_token_sent :
    ¬ Throughout (step acceptingEnv) Truthful (new {} { resilience := {} }) tokenThenNone := by
  rintro ⟨-, -, htrue⟩
  have hno : Unauthorized [] := by decide
  have hbearer := (htrue "http://srv" [] hno).1.1 (by decide)
  revert hbearer
  decide

end Provenance

end Hermes

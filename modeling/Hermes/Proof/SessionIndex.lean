import Hermes.Lib.History
import Hermes.Spec.GatewaySessions

/-!
# The index of active sessions

`_by_server` names, for each server, the session that calls to it are made in. `connect` keeps
it, `close_session` drops the entry of the server whichever of its sessions it closes.

* `connect_cases`: what a connect leaves behind, whether it raises or not.
* `Indexed`: the index names an active session of each server that has one.
* `indexed_connect`, `indexed_close`: one operation.
* `session_index_iff`: the index is right throughout a run exactly when no session is closed while
  another one of its server is active.
-/

namespace Hermes

open History

/-- The operations on a gateway. -/
inductive GatewayOp where
  | connect (url : String) (authToken : Option String)
  | closeSession (sessionId reason : String)
  | listTools (url : String)
  | callTool (url toolName : String) (arguments : List (String × Value))
  | readResource (url uri : String)

namespace GatewayState

variable {env : SessionEnv} {s s' : GatewayState}

def step (env : SessionEnv) (s : GatewayState) : GatewayOp → GatewayState
  | .connect url authToken => (connect env url authToken s).2
  | .closeSession sessionId reason => closeSession sessionId reason s
  | .listTools url => (listTools env url s).2
  | .callTool url toolName arguments => (callTool env url toolName arguments s).2
  | .readResource url uri => (readResource env url uri s).2

/-- A gateway with the settings of another one, as `__init__` leaves it. -/
def new (gw : McpGateway) (world : GatewayWorld) : GatewayState :=
  { gw := { gw with byServer := ∅, auth := ∅, sessions := ∅, tools := ∅, authSources := ∅ }
    world := world }

/-- An active session of a server. -/
def ActiveAt (s : GatewayState) (url sessionId : String) : Prop :=
  ∃ session, s.gw.sessions.get? sessionId = some session ∧ session.serverUrl = url ∧
    session.status = .active

/-- A server is in the index exactly when it has an active session, and the index names one. -/
def Indexed (s : GatewayState) : Prop :=
  ∀ url, ((s.gw.byServer.get? url).isSome ↔ ∃ sessionId, s.ActiveAt url sessionId) ∧
    ∀ sessionId, s.gw.byServer.get? url = some sessionId → s.ActiveAt url sessionId

/-- A known session is closed only when no other session of its server is active. -/
def ClosesLast (s : GatewayState) : GatewayOp → Prop
  | .closeSession sessionId _ => ∀ session, s.gw.sessions.get? sessionId = some session →
      ∀ other, s.ActiveAt session.serverUrl other → other = sessionId
  | _ => True

/-! ## One operation -/

@[simp] theorem note_gw (stored published : List SessionEffect) (s : GatewayState) :
    (note stored published s).gw = s.gw := rfl

@[simp] theorem rpc_gw (env : SessionEnv) (url method : String) (params : List (String × Value))
    (s : GatewayState) : (rpc env url method params s).2.gw = s.gw := rfl

theorem readResource_gw (env : SessionEnv) (url uri : String) (s : GatewayState) :
    (readResource env url uri s).2.gw = s.gw := by
  have hrpc := rpc_gw env url "resources/read" [("uri", .str uri)] s
  unfold readResource
  split
  · rename_i hr
    rw [hr] at hrpc
    exact hrpc
  · rename_i hr
    rw [hr] at hrpc
    split
    · exact hrpc
    · exact hrpc

/-- Listing the tools of a server changes the tools at most. -/
theorem listTools_gw (env : SessionEnv) (url : String) (s : GatewayState) :
    (listTools env url s).2.gw = s.gw ∨
      ∃ tools toolStore, (listTools env url s).2.gw =
        { s.gw with tools := s.gw.tools.insert url tools, toolStore := toolStore } := by
  have hrpc := rpc_gw env url "tools/list" [] s
  unfold listTools
  split
  · rename_i hr
    rw [hr] at hrpc
    exact .inl hrpc
  · rename_i hr
    rw [hr] at hrpc
    split
    · exact .inl hrpc
    · rename_i tools _
      rw [← hrpc]
      exact .inr ⟨tools, _, rfl⟩

/-- **Connecting**: no token could be looked for, the handshake failed, or there is a session. -/
theorem connect_cases (env : SessionEnv) (url : String) (authToken : Option String)
    (s : GatewayState) :
    (∃ e, obtain env url authToken s = .error e ∧ (connect env url authToken s).2 = s) ∨
    ∃ source token, obtain env url authToken s = .ok (source, token) ∧
      ((connect env url authToken s).2.gw = (hold url source token s).gw ∨
        ∃ server s', s'.gw = (hold url source token s).gw ∧
          (connect env url authToken s).2 = (opened env url server s').2) := by
  unfold connect
  cases hobtain : obtain env url authToken s with
  | error e => exact .inl ⟨e, rfl, rfl⟩
  | ok found =>
    obtain ⟨source, token⟩ := found
    refine .inr ⟨source, token, rfl, ?_⟩
    have hrpc := rpc_gw env url "initialize" McpGateway.initializeParams
      (hold url source token s)
    simp only
    split
    · rename_i hr
      rw [hr] at hrpc
      exact .inl hrpc
    · rename_i hr
      rw [hr] at hrpc
      split
      · exact .inl hrpc
      · exact .inr ⟨_, _, hrpc, rfl⟩

/-! ## The index -/

/-- The index looks at the sessions and at itself only. -/
theorem Indexed.frame (h : Indexed s) (hsessions : s'.gw.sessions = s.gw.sessions)
    (hindex : s'.gw.byServer = s.gw.byServer) : Indexed s' := by
  unfold Indexed ActiveAt at h ⊢
  rw [hsessions, hindex]
  exact h

/-- The new session of a server, which had no part in the index. -/
theorem activeAt_opened (url : String) (server : McpServer) (url' sessionId : String) :
    (opened env url server s).2.ActiveAt url' sessionId ↔
      sessionId = env.sessionIds.next s.gw.sessions.keys ∧ url = url' ∨
        s.ActiveAt url' sessionId := by
  have hnew : s.gw.sessions.get? (env.sessionIds.next s.gw.sessions.keys) = none := by
    have hfresh := env.sessionIds.not_mem s.gw.sessions.keys
    exact Dict.get?_eq_none_iff.2 hfresh
  unfold ActiveAt opened
  simp only [note_gw, Dict.get?_insert]
  by_cases hid : sessionId = env.sessionIds.next s.gw.sessions.keys
  · rw [if_pos hid, hid, hnew]
    simp
  · rw [if_neg hid]
    simp [hid]

/-- **Connecting** keeps the index. -/
theorem indexed_connect (h : Indexed s) (url : String) (authToken : Option String) :
    Indexed (connect env url authToken s).2 := by
  obtain ⟨e, -, hs⟩ | ⟨source, token, -, hgw | ⟨server, s', hgw, hs⟩⟩ :=
    connect_cases env url authToken s
  · rw [hs]
    exact h
  · exact h.frame (by rw [hgw]; rfl) (by rw [hgw]; rfl)
  · have h' : Indexed s' := h.frame (by rw [hgw]; rfl) (by rw [hgw]; rfl)
    rw [hs]
    intro url'
    obtain ⟨hsome, hnames⟩ := h' url'
    have hindex : (opened env url server s').2.gw.byServer.get? url' =
        if url' = url then some (env.sessionIds.next s'.gw.sessions.keys)
        else s'.gw.byServer.get? url' := Dict.get?_insert _ _ _ _
    rw [hindex]
    by_cases hurl : url' = url
    · rw [if_pos hurl]
      refine ⟨iff_of_true rfl ⟨_, (activeAt_opened ..).2 (.inl ⟨rfl, hurl.symm⟩)⟩, ?_⟩
      intro sessionId hid
      exact (activeAt_opened ..).2 (.inl ⟨(Option.some.inj hid).symm, hurl.symm⟩)
    · rw [if_neg hurl]
      have hold : ∀ sessionId, (opened env url server s').2.ActiveAt url' sessionId ↔
          s'.ActiveAt url' sessionId := by
        intro sessionId
        rw [activeAt_opened]
        exact ⟨fun hor => hor.resolve_left fun hnew => hurl hnew.2.symm, .inr⟩
      simp only [hold]
      exact ⟨hsome, hnames⟩

/-- What is active after a session was closed. -/
theorem activeAt_closed {id : String} {session : McpSession}
    (hid : s.gw.sessions.get? id = some session) (reason url sessionId : String) :
    (closeSession id reason s).ActiveAt url sessionId ↔
      sessionId ≠ id ∧ s.ActiveAt url sessionId := by
  unfold closeSession
  rw [hid]
  unfold ActiveAt
  simp only [note_gw, Dict.get?_insert]
  by_cases hsame : sessionId = id
  · rw [if_pos hsame]
    simp [hsame]
  · rw [if_neg hsame]
    simp [hsame]

/-- **Closing a session** keeps the index exactly when it is the last one of its server. -/
theorem indexed_close (h : Indexed s) (id reason : String) :
    Indexed (closeSession id reason s) ↔ s.ClosesLast (.closeSession id reason) := by
  cases hid : s.gw.sessions.get? id with
  | none =>
    have hsame : (closeSession id reason s).gw = s.gw := by
      unfold closeSession
      rw [hid]
      rfl
    refine iff_of_true (h.frame (by rw [hsame]) (by rw [hsame])) ?_
    intro session hsession
    rw [hid] at hsession
    cases hsession
  | some session =>
    have hindex : ∀ url, (closeSession id reason s).gw.byServer.get? url =
        if url = session.serverUrl then none else s.gw.byServer.get? url := by
      intro url
      unfold closeSession
      rw [hid]
      exact Dict.get?_erase _ _ _
    constructor
    · intro hafter session' hsession' other hother
      obtain rfl : session' = session := Option.some.inj (hsession'.symm.trans hid)
      by_contra hne
      -- the other session is still active, and its server is in the index no more
      have hactive : (closeSession id reason s).ActiveAt session'.serverUrl other :=
        (activeAt_closed hid _ _ _).2 ⟨hne, hother⟩
      have hsome := (hafter session'.serverUrl).1.2 ⟨other, hactive⟩
      rw [hindex, if_pos rfl] at hsome
      cases hsome
    · intro hlast url
      obtain ⟨hsome, hnames⟩ := h url
      rw [hindex]
      simp only [activeAt_closed hid]
      by_cases hurl : url = session.serverUrl
      · rw [if_pos hurl]
        refine ⟨iff_of_false (by simp) ?_, ?_⟩
        · rintro ⟨other, hne, hother⟩
          exact hne (hlast session hid other (hurl ▸ hother))
        · intro other hother
          cases hother
      · rw [if_neg hurl]
        -- the session belongs to another server
        have hne : ∀ other, s.ActiveAt url other → other ≠ id := by
          rintro other ⟨session', hsession', hserver, -⟩ rfl
          rw [hid] at hsession'
          exact hurl (hserver.symm.trans (by rw [Option.some.inj hsession']))
        refine ⟨hsome.trans (exists_congr fun other => ?_), ?_⟩
        · exact ⟨fun hother => ⟨hne other hother, hother⟩, fun hother => hother.2⟩
        · intro other hother
          exact ⟨hne other (hnames other hother), hnames other hother⟩

/-- One operation keeps the index exactly when it closes no session but the last of its server. -/
theorem indexed_step (h : Indexed s) (op : GatewayOp) :
    Indexed (step env s op) ↔ s.ClosesLast op := by
  cases op with
  | connect url authToken => exact iff_of_true (indexed_connect h url authToken) trivial
  | closeSession id reason => exact indexed_close h id reason
  | listTools url =>
    refine iff_of_true ?_ trivial
    obtain hgw | ⟨tools, toolStore, hgw⟩ := listTools_gw env url s
    · exact h.frame (congrArg _ hgw) (by exact congrArg (·.byServer) hgw)
    · exact h.frame (by exact congrArg (·.sessions) hgw) (by exact congrArg (·.byServer) hgw)
  | callTool url toolName arguments => exact iff_of_true (h.frame rfl rfl) trivial
  | readResource url uri =>
    have hgw := readResource_gw env url uri s
    refine iff_of_true (h.frame ?_ ?_) trivial
    · exact congrArg (·.sessions) hgw
    · exact congrArg (·.byServer) hgw

theorem indexed_new (gw : McpGateway) (world : GatewayWorld) : Indexed (new gw world) := by
  intro url
  refine ⟨iff_of_false (by simp [new]) ?_, by simp [new]⟩
  rintro ⟨sessionId, session, hsession, -⟩
  cases hsession

/-! ## Runs -/

/-- **The session index**, over every run of a new gateway. -/
theorem session_index_iff (env : SessionEnv) (gw : McpGateway) (world : GatewayWorld)
    (ops : List GatewayOp) :
    Throughout (step env) Indexed (new gw world) ops ↔
      EachStep (step env) ClosesLast (new gw world) ops :=
  throughout_iff (A := fun _ => True) (I := fun _ => True) (fun _ _ _ _ => trivial)
    (fun _ op _ _ h => indexed_step h op) ops _ (fun _ _ => trivial) trivial (indexed_new gw world)

/-- A server that accepts every request, and a gateway without a vault. -/
def acceptingEnv : SessionEnv where
  now _ := 0
  clock _ := 0
  meanwhile w := w.resilience
  post _ := .ok (.dict [("result", .dict [])])
  uuid _ := ""
  str _ := ""
  hash _ := ""
  sessionIds := .longer
  resolveSecret _ _ _ _ := .ok none

/-- Two sessions of one server; the first one is closed. -/
def reconnected : List GatewayOp :=
  [.connect "http://srv" none, .connect "http://srv" none, .closeSession "" "explicit_close"]

/-- **The second session is active, and calls to its server do not find it.** -/
theorem older_session_closed :
    ¬ Throughout (step acceptingEnv) Indexed (new {} { resilience := {} }) reconnected := by
  rintro ⟨-, -, -, hindexed⟩
  have hactive : ActiveAt (reconnected.foldl (step acceptingEnv) (new {} { resilience := {} }))
      "http://srv" "x" := ⟨{ sessionId := "x", serverUrl := "http://srv" }, by decide⟩
  have hfound := (hindexed "http://srv").1.2 ⟨"x", hactive⟩
  revert hfound
  decide

end GatewayState

end Hermes

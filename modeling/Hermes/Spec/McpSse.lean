import Hermes.Lib.Dict
import Hermes.Lib.EventStream
import Hermes.Spec.McpFraming

/-!
# The SSE transport (`mcp/server_sse.py`)

The sessions with their queues, the GET handlers that write to the clients, and the POST handlers
that dispatch messages. Each handler is a thread, and the threads take their steps in any order. Left out:
`start` and `stop` (a server without a loop drops what it is given), headers, paths and statuses.
-/

namespace Hermes

/-! ## Events -/

namespace Sse

theorem colon_ne_newline : PyChar.char ':' ≠ .char (Char.ofNat 10) := by decide

theorem space_ne_newline : PyChar.char ' ' ≠ .char (Char.ofNat 10) := by decide

/-- What structures an event stream. -/
def marks : EventStream.Marks PyChar where
  newline := .char (Char.ofNat 10)
  colon := .char ':'
  space := .char ' '
  colon_ne := colon_ne_newline
  space_ne := space_ne_newline

/-- The first event, with the path for the POSTs of a session. -/
def endpointFrame (sid : PyStr) : PyStr :=
  py "event: endpoint\ndata: " ++ (py "/messages/?sessionId=" ++ sid) ++ py "\n\n"

/-- The event of a response. -/
def messageFrame (response : Json) : PyStr := py "event: message\ndata: " ++ response.dumps ++ py "\n\n"

/-- What a client is to read in these texts. -/
def endpointEvent (sid : PyStr) : List (PyStr × PyStr) :=
  [(py "event", py "endpoint"), (py "data", py "/messages/?sessionId=" ++ sid)]

def messageEvent (response : Json) : List (PyStr × PyStr) :=
  [(py "event", py "message"), (py "data", response.dumps)]

/-- What a client reads in what it has got. -/
def read (got : PyStr) : List (List (PyStr × PyStr)) := EventStream.decode marks got

end Sse

/-! ## Sessions and requests -/

/-- Where a GET handler is. -/
inductive SsePhase where
  /-- Its session has an id, and is not yet known to the server. -/
  | created
  | registered
  /-- In its loop. -/
  | streaming
  /-- In its `finally`. -/
  | closing
  | ended
  /-- The first event could not be written, which is before the `try`. -/
  | aborted
  deriving DecidableEq, Repr

/-- A GET with its `SSESession`, and what its client has got: a character counts when its bytes have
come. -/
structure SseGet where
  sessionId : PyStr
  queue : List (Option PyStr) := []
  phase : SsePhase := .created
  got : PyStr := []
  deriving DecidableEq

/-- A POST: what it asks for, the session that it has found, and the messages that it has not yet
dispatched. -/
structure SsePost where
  sessionId : Option PyStr
  body : Option Json
  session : Option ℕ
  todo : List Json

/-- An answer that was queued: for which POST, for which session, and to which message. -/
structure SseAnswer where
  post : ℕ
  session : ℕ
  msg : Json
  response : Json

/-- An `MCPServerSSE`. A session is named by the place of its GET among all GETs. -/
structure McpSse where
  counter : ℕ := 0
  sessions : Dict PyStr ℕ := ∅
  gets : List SseGet := []
  posts : List SsePost := []
  /-- All answers that were queued. -/
  log : List SseAnswer := []

/-- What may happen. Where something is written, `cut` says how many characters come through if the
connection breaks. -/
inductive SseEvent (ρ : Type) where
  /-- A GET comes; `_new_session_id`. -/
  | get
  /-- The rest of `_create_session`. -/
  | register (k : ℕ)
  | head (k : ℕ) (cut : Option ℕ)
  /-- `session.get` returns; the item is written. -/
  | take (k : ℕ) (cut : Option ℕ)
  /-- `session.get` raises `queue.Empty`. -/
  | timeout (k : ℕ)
  /-- `_end_session`. -/
  | finish (k : ℕ)
  /-- A POST comes, and looks for its session. A body that is no JSON is `none`. -/
  | post (sessionId : Option PyStr) (body : Option Json)
  /-- A POST dispatches its next message; `none` if there is no loop, or no answer in time. -/
  | dispatch (p : ℕ) (host : Option (McpHost ρ))
  /-- The handler of a POST ends by an exception. -/
  | abandon (p : ℕ)

namespace SseGet

/-- What is left of a GET when the write of `item` goes well, or breaks. -/
def write (g : SseGet) (item : PyStr) (broken : SsePhase) : Option ℕ → SseGet
  | none => { g with got := g.got ++ item, phase := .streaming }
  | some n => { g with got := g.got ++ item.take n, phase := broken }

def register (g : SseGet) : SseGet := if g.phase = .created then { g with phase := .registered } else g

def head (cut : Option ℕ) (g : SseGet) : SseGet :=
  if g.phase = .registered then g.write (Sse.endpointFrame g.sessionId) .aborted cut else g

/-- A round of the loop. A text that cannot be encoded ends it, as a broken connection does. -/
def take (cut : Option ℕ) (g : SseGet) : SseGet :=
  if g.phase = .streaming then
    match g.queue with
    | [] => g
    | none :: queue => { g with queue, phase := .closing }
    | some item :: queue =>
      if PyStr.Encodable item then { g with queue }.write item .closing cut
      else { g with queue, phase := .closing }
  else g

def timeout (g : SseGet) : SseGet :=
  if g.phase = .streaming ∧ g.queue = [] then { g with phase := .closing } else g

/-- `put` and `close`. -/
def put (item : Option PyStr) (g : SseGet) : SseGet := { g with queue := g.queue ++ [item] }

end SseGet

/-- The messages of a body: a batch is one after the other. -/
def SsePost.messages : Option Json → List Json
  | none => []
  | some (.arr msgs) => msgs
  | some msg => [msg]

namespace McpSse

variable {ρ : Type} (s : McpSse)

def modifyGet (k : ℕ) (f : SseGet → SseGet) : McpSse := { s with gets := s.gets.modify k f }

/-- `f"s{self._counter}"`. -/
def newSessionId (n : ℕ) : PyStr := py ("s" ++ toString n)

/-- `_create_session`, up to its id. -/
def create : McpSse :=
  let counter := s.counter + 1
  { s with counter, gets := s.gets ++ [{ sessionId := newSessionId counter }] }

/-- The session is known from now on. -/
def register (k : ℕ) : McpSse :=
  match s.gets[k]? with
  | some g =>
    if g.phase = .created then
      { s with sessions := s.sessions.insert g.sessionId k }.modifyGet k SseGet.register
    else s
  | none => s

/-- `_end_session`, in the `finally` of a GET. -/
def finish (k : ℕ) : McpSse :=
  match s.gets[k]? with
  | some g =>
    if g.phase = .closing then
      let ended := s.modifyGet k fun g => { g with phase := .ended }
      match s.sessions.get? g.sessionId with
      | none => ended
      | some j => { ended with sessions := s.sessions.erase g.sessionId }.modifyGet j (SseGet.put none)
    else s
  | none => s

/-- `_handle_post_messages`, up to its first message. -/
def post (sessionId : Option PyStr) (body : Option Json) : McpSse :=
  let session := (sessionId.filter (· ≠ [])).bind s.sessions.get?
  let todo := if session.isSome then SsePost.messages body else []
  { s with posts := s.posts ++ [{ sessionId, body, session, todo }] }

/-- The messages that a POST has not yet dispatched. -/
def setTodo (p : ℕ) (todo : List Json) : McpSse :=
  { s with posts := s.posts.modify p fun post => { post with todo } }

/-- A response goes to the queue of its session. -/
def answer (a : SseAnswer) : McpSse :=
  { s.modifyGet a.session (SseGet.put (some (Sse.messageFrame a.response))) with log := s.log ++ [a] }

/-- `dispatch`, for the next message of a POST. -/
def dispatch (p : ℕ) (host : Option (McpHost ρ)) : McpSse :=
  match s.posts[p]? with
  | some { session := some k, todo := msg :: todo, .. } =>
    let s := s.setTodo p todo
    match host with
    | none => s
    | some host => match McpServer.dispatch host msg with
      -- not an `Exception`: the handler of the POST ends
      | .error _ => s.setTodo p []
      | .ok none => s
      | .ok (some response) => s.answer { post := p, session := k, msg, response }
  | _ => s

/-- One step. What cannot happen changes nothing. -/
def step : SseEvent ρ → McpSse
  | .get => s.create
  | .register k => s.register k
  | .head k cut => s.modifyGet k (SseGet.head cut)
  | .take k cut => s.modifyGet k (SseGet.take cut)
  | .timeout k => s.modifyGet k SseGet.timeout
  | .finish k => s.finish k
  | .post sessionId body => s.post sessionId body
  | .dispatch p host => s.dispatch p host
  | .abandon p => s.setTodo p []

/-- A new server, and what happens to it. -/
def run (es : List (SseEvent ρ)) : McpSse := es.foldl step {}

/-- The responses for a session, in the order in which they were queued. -/
def answers (k : ℕ) : List Json := (s.log.filter (·.session = k)).map (·.response)

end McpSse

/-! ## Floats that are printed in one line -/

namespace Json

mutual

/-- The `repr` of a float has no line break. -/
def inLine : Json → Bool
  | .float x => !x.text.toList.contains (Char.ofNat 10)
  | .arr xs => inLineList xs
  | .obj kvs => inLineFields kvs
  | _ => true

def inLineList : List Json → Bool
  | [] => true
  | v :: vs => v.inLine && inLineList vs

def inLineFields : List (PyStr × Json) → Bool
  | [] => true
  | (_, v) :: kvs => v.inLine && inLineFields kvs

end

end Json

/-- The floats in the tools are printed as floats are. -/
def McpHost.inLine {ρ : Type} (host : McpHost ρ) : Bool :=
  host.tools.all fun tool =>
    Json.inLineFields tool.metadata && Json.inLineFields tool.inputSchema

/-- The floats that come in with an event are printed as floats are. -/
def SseEvent.inLine {ρ : Type} : SseEvent ρ → Bool
  | .post _ (some body) => body.inLine
  | .dispatch _ (some host) => host.inLine
  | _ => true

end Hermes

import Hermes.Lib.Backlog
import Hermes.Lib.Dict
import Hermes.Lib.Fresh
import Hermes.Spec.McpFraming
import Hermes.Spec.Persistence

/-!
# Server events over Streamable HTTP (`mcp/server_streamable.py`)

A session with its queue of frames, what is saved of them, and the GET handlers that are at work for
it; then the server, which knows its sessions by their ids. The threads take their steps in any order.
Then one push after the other, of any text, with the database that the frames are saved in; last, which
of the saved ones are evicted. Left out: the POST bodies, the versions of the protocol, and the texts of
responses.
-/

namespace Hermes

open Backlog

/-! ## Frames -/

/-- What may be pushed: a text that does not set the id of its frame, and can be encoded. -/
abbrev Body := { data : PyStr // ¬ py "id:" <+: data ∧ PyStr.Encodable data }

/-- A frame: its number, and what was pushed. -/
structure Frame where
  seq : ℕ
  body : Body
  deriving DecidableEq

namespace Frame

/-- The text of a frame, as `push_event` renders it. -/
def text (f : Frame) : PyStr :=
  let frame := py ("id: " ++ toString f.seq ++ "\n") ++ f.body.1
  if py "\n\n" <:+ frame then frame
  else if py "\n" <:+ frame then frame ++ py "\n"
  else frame ++ py "\n\n"

end Frame

/-- `int(f.split(":", 1)[1].split("\n", 1)[0])`, by which frames are sorted. -/
def frameKey (U : Unicode) (text : PyStr) : Option ℤ :=
  PyStr.int U (PyStr.partition '\n' (PyStr.partition ':' text).2).1

/-- `replay_since`: the saved frames above a number, unless the key of one raises. -/
def replaySince (U : Unicode) (rows : List Frame) (lastSeq : ℕ) : Option (List Frame) :=
  let frames := rows.filter fun f => lastSeq < f.seq
  if frames.all fun f => (frameKey U f.text).isSome then
    some (frames.insertionSort fun f g =>
      (frameKey U f.text).getD 0 ≤ (frameKey U g.text).getD 0)
  else none

/-! ## Sessions -/

/-- Where a GET handler is. -/
inductive GetPhase where
  | connected
  /-- In the loops that write, with what is left of the backlog. -/
  | streaming (todo : List Frame)
  /-- In its `finally`. -/
  | closing
  | done
  deriving DecidableEq

/-- A GET: the number of its `Last-Event-ID`, or 0; its handler; the backlog that it has read. Of its
client: what it has got, and how many frames had been pushed when it went away. -/
structure Get where
  lastSeq : ℕ
  phase : GetPhase := .connected
  backlog : List Frame := []
  got : List Frame := []
  left : Option ℕ := none
  deriving DecidableEq

/-- A session, and what is saved of its frames. `log` keeps all frames that were pushed. -/
structure StreamableSession where
  seq : ℕ := 0
  /-- The frame of `push_event` that is queued and not yet saved. -/
  pushing : Option Frame := none
  /-- The queue, with `None` when the session has ended. -/
  events : List (Option Frame) := []
  ended : Bool := false
  rows : List Frame := []
  gets : List Get := []
  log : List Frame := []
  deriving DecidableEq

/-- What may happen. A GET is named by its place among the GETs; `ok` says whether a write goes
well, which it does while the client is there. -/
inductive StreamEvent where
  | push (body : Body)
  | saved
  /-- `_evict_expired` deletes the frames with these numbers. -/
  | evict (old : List ℕ)
  | endSession
  | connect (lastSeq : ℕ)
  /-- The client of a GET goes away. -/
  | leave (g : ℕ)
  /-- The head of the response cannot be written. -/
  | abort (g : ℕ)
  | replay (g : ℕ)
  /-- `replay_since` fails. -/
  | replayFails (g : ℕ)
  | writeBacklog (g : ℕ) (ok : Bool)
  | take (g : ℕ) (ok : Bool)
  /-- `get_event` raises `queue.Empty`. -/
  | timeout (g : ℕ)
  /-- One frame is thrown away in the `finally` of a GET. -/
  | drain (g : ℕ)
  | finish (g : ℕ)

namespace Get

/-- The handler writes a frame. -/
def write (f : Frame) (g : Get) : Get :=
  { g with got := if g.left.isNone then g.got ++ [f] else g.got }

/-- The client is away. -/
def leave (seq : ℕ) (g : Get) : Get := { g with left := some (g.left.getD seq) }

end Get

namespace StreamableSession

variable (U : Unicode)

def setGet (s : StreamableSession) (g : ℕ) (get : Get) : StreamableSession := { s with gets := s.gets.set g get }

/-- `push_event`, up to the saving. -/
def push (s : StreamableSession) (body : Body) : StreamableSession :=
  let frame : Frame := { seq := s.seq + 1, body }
  { s with
    seq := s.seq + 1
    pushing := some frame
    events := s.events ++ [some frame]
    log := s.log ++ [frame] }

/-- The live loop takes an item: `None` ends it, a frame is written. -/
def take (s : StreamableSession) (g : ℕ) (get : Get) (ok : Bool) : StreamableSession :=
  match s.events with
  | [] => s
  | none :: rest => { s with events := rest }.setGet g { get with phase := .closing }
  | some f :: rest =>
    { s with events := rest }.setGet g (if ok then get.write f else { get with phase := .closing })

/-- A step of the handler of a GET, or of its client. -/
def handlerStep (s : StreamableSession) (g : ℕ) (get : Get) : StreamEvent → StreamableSession
  | .leave _ => if get.phase = .done then s else s.setGet g (get.leave s.seq)
  | .abort _ =>
    if get.phase = .connected ∧ get.left.isSome then s.setGet g { get with phase := .done } else s
  | .replay _ =>
    if get.phase = .connected then
      match if 0 < get.lastSeq then replaySince U s.rows get.lastSeq else none with
      | some backlog => s.setGet g { get with phase := .streaming backlog, backlog }
      | none => s.setGet g { get with phase := .streaming [] }
    else s
  | .replayFails _ =>
    if get.phase = .connected then s.setGet g { get with phase := .streaming [] } else s
  | .writeBacklog _ ok =>
    match get.phase with
    | .streaming (f :: todo) =>
      if ok then s.setGet g { get.write f with phase := .streaming todo }
      else if get.left.isSome then s.setGet g { get with phase := .streaming [] }
      else s
    | _ => s
  | .take _ ok => if get.phase = .streaming [] ∧ (ok ∨ get.left.isSome) then s.take g get ok else s
  | .timeout _ =>
    if get.phase = .streaming [] ∧ s.events = [] then s.setGet g { get with phase := .closing } else s
  | .drain _ =>
    if get.phase = .closing ∧ s.ended = false then { s with events := s.events.tail } else s
  | .finish _ =>
    if get.phase = .closing ∧ (s.ended ∨ s.events = []) then
      s.setGet g { get.leave s.seq with phase := .done }
    else s
  | _ => s

/-- One step of a session. What cannot happen changes nothing. -/
def step (s : StreamableSession) (e : StreamEvent) : StreamableSession :=
  match e with
  | .push body => if s.pushing.isSome then s else s.push body
  | .saved => match s.pushing with
    | some f => { s with rows := s.rows ++ [f], pushing := none }
    | none => s
  | .evict old => { s with rows := s.rows.filter fun f => f.seq ∉ old }
  | .endSession => if s.ended then s else { s with events := s.events ++ [none], ended := true }
  | .connect lastSeq =>
    if s.ended then s else { s with gets := s.gets ++ [{ lastSeq }] }
  | .leave g | .abort g | .replay g | .replayFails g | .writeBacklog g _ | .take g _ | .timeout g
  | .drain g | .finish g => match s.gets[g]? with
    | some get => s.handlerStep U g get e
    | none => s

end StreamableSession

/-! ## The server -/

/-- An `MCPServerStreamable`: its sessions, of which it knows those that have not ended, and the
saved frames of each session in the database. `issued` are the ids that `uuid4` has given. -/
structure StreamableServer where
  sessions : Dict String StreamableSession := ∅
  db : Dict String (List Frame) := ∅
  issued : List String := []

/-- What comes in, and what happens to the sessions. -/
inductive ServerEvent where
  /-- A POST, with its `Mcp-Session-Id`. -/
  | post (header : Option String)
  /-- A GET of the events. -/
  | getEvents (header : Option String) (lastSeq : ℕ)
  | session (sid : String) (e : StreamEvent)
  /-- The server stops, and a new one starts on its database. -/
  | restart

namespace StreamableServer

variable (ids : IdSource String) (U : Unicode)

/-- `_session`. -/
def session (s : StreamableServer) (header : Option String) : Option StreamableSession :=
  match header with
  | none => none
  | some sid =>
    if sid = "" then none
    else (s.sessions.get? sid).filter fun session => session.ended = false

/-- The saved frames of a session. -/
def saved (s : StreamableServer) (sid : String) : List Frame := (s.db.get? sid).getD []

/-- `_create_session`. -/
def createSession (s : StreamableServer) : StreamableServer :=
  let sid := ids.next s.issued
  { s with
    sessions := s.sessions.insert sid { rows := s.saved sid }
    issued := sid :: s.issued }

/-- A step of a session, which may change its part of the database. -/
def sessionStep (s : StreamableServer) (sid : String) (e : StreamEvent) : StreamableServer :=
  match s.sessions.get? sid with
  | none => s
  | some session =>
    let session := session.step U e
    { s with sessions := s.sessions.insert sid session, db := s.db.insert sid session.rows }

/-- `_handle_get_events`: the session takes up the GET, or the answer is 404. -/
def handleGetEvents (s : StreamableServer) (header : Option String) (lastSeq : ℕ) :
    Option StreamableServer :=
  match header, s.session header with
  | some sid, some _ => some (s.sessionStep U sid (.connect lastSeq))
  | _, _ => none

def step (s : StreamableServer) : ServerEvent → StreamableServer
  | .post header => if (s.session header).isSome then s else s.createSession ids
  | .getEvents header lastSeq => (s.handleGetEvents U header lastSeq).getD s
  | .session sid e => s.sessionStep U sid e
  | .restart => { s with sessions := ∅ }

end StreamableServer

/-! ## Pushes of any text -/

/-- The frame that `push_event` renders. -/
def renderFrame (seq : ℕ) (data : PyStr) : PyStr :=
  if py "id:" <+: data then if py "\n\n" <:+ data then data else data ++ py "\n"
  else
    let frame := py ("id: " ++ toString seq ++ "\n") ++ data
    if py "\n\n" <:+ frame then frame
    else if py "\n" <:+ frame then frame ++ py "\n"
    else frame ++ py "\n\n"

/-- A saved frame. -/
structure McpSessionEvent where
  id : String
  workspaceId : String
  sessionId : String
  seq : ℕ
  sseData : PyStr
  deriving DecidableEq, Repr

/-- What Pydantic does with an `McpSessionEvent`: `model_dump_json` and `model_validate_json`. -/
structure EventJson (δ : Type) where
  dump : McpSessionEvent → δ
  validate : δ → Except Exc McpSessionEvent
  validate_dump : ∀ e, validate (dump e) = .ok e

/-- The codec of the database, for the rows of this class. -/
def EventJson.codec {δ : Type} (J : EventJson δ) : EntityCodec McpSessionEvent δ where
  id := McpSessionEvent.id
  type _ := "McpSessionEvent"
  workspaceId := McpSessionEvent.workspaceId
  dump := J.dump
  rehydrate _ data := J.validate data

/-- A `StreamableHTTPSession` that is bound to a loop, with its database. `events` keeps all frames that
were queued. -/
structure DurableSession (δ : Type) where
  sessionId : String
  seq : ℕ := 0
  events : List PyStr := []
  persistence : PersistenceRegistry δ

namespace DurableSession

variable {δ : Type} (ids : IdSource String) (J : EventJson δ) (U : Unicode)

def workspaceId (s : DurableSession δ) : String := "mcp:" ++ s.sessionId

/-- `push_event`: the number, and the session after it. The saving succeeds. -/
def pushEvent (data : PyStr) (s : DurableSession δ) : ℕ × DurableSession δ :=
  let seq := s.seq + 1
  let frame := renderFrame seq data
  let ev : McpSessionEvent :=
    { id := ids.next s.persistence.entities.keys
      workspaceId := s.workspaceId, sessionId := s.sessionId, seq, sseData := frame }
  (seq, { s with
    seq
    events := s.events ++ [frame]
    persistence := s.persistence.save J.codec ev })

/-- One `push_event` after the other: the numbers, and the session after them. -/
def pushAll : List PyStr → DurableSession δ → List ℕ × DurableSession δ
  | [], s => ([], s)
  | data :: texts, s =>
    let (seq, s) := s.pushEvent ids J data
    let (seqs, s) := pushAll texts s
    (seq :: seqs, s)

/-- The saved frames of the session. -/
def saved (s : DurableSession δ) : Except Exc (List McpSessionEvent) :=
  s.persistence.list J.codec s.workspaceId (some "McpSessionEvent")

/-- `replay_since`, or none when it raises. -/
def replaySince (s : DurableSession δ) (lastSeq : ℤ) : Option (List PyStr) :=
  match s.saved J with
  | .error _ => none
  | .ok rows =>
    let frames := (rows.filter fun r => lastSeq < r.seq).map (·.sseData)
    if frames.all fun f => (frameKey U f).isSome then
      some (frames.insertionSort fun f g => (frameKey U f).getD 0 ≤ (frameKey U g).getD 0)
    else none

end DurableSession

/-!
## The retention of session events (`_evict_expired` of `mcp/server_streamable.py`)

A sweep over the database, in which nothing else runs. Times are in microseconds; a float is a
rational number. What `datetime` makes of texts and numbers is a parameter. Left out: logging.
-/

/-- A `datetime`: the time on the wall, and the offset of its time zone, if it has one. -/
structure Timestamp where
  wall : ℤ
  utcoffset : Option ℤ := none
  deriving DecidableEq, Repr

/-- The point in time, which is UTC without a time zone. -/
def Timestamp.instant (t : Timestamp) : ℤ := t.wall - t.utcoffset.getD 0

/-- `datetime.fromisoformat`, which may raise `ValueError`, and `datetime.fromtimestamp` with
`tz=timezone.utc`, which raises outside of the years that it knows. -/
structure Datetime where
  fromisoformat : String → Option Timestamp
  fromtimestamp : ℚ → Except Exc ℤ

/-- The part of an `MCPServerStreamable` that a sweep reads: `sessions` are the keys of `_sessions`. -/
structure StreamableRetention (δ : Type) where
  persistence : Option (PersistenceRegistry δ)
  sessionTtl : ℤ := 86400
  sessions : List String := []

namespace StreamableRetention

variable {φ : EntityClass → Type} {δ : Type} (P : Pydantic φ δ) (D : Datetime)
  (createdAt : φ .mcpSessionEvent → String)

/-- One event of a sweep. -/
def sweepEvent (cutoff : ℚ) (db : PersistenceRegistry δ) (ev : Σ c, φ c) :
    Except Exc (PersistenceRegistry δ) :=
  match ev with
  | ⟨.mcpSessionEvent, f⟩ =>
    match D.fromisoformat (createdAt f) with
    | none => .ok db
    | some created =>
      match D.fromtimestamp cutoff with
      | .error e => .error e
      | .ok cutoffDt => if created.instant < cutoffDt then .ok (db.delete (P.id f)).2 else .ok db
  | _ => .ok db

/-- One session of a sweep, which is passed over when its events cannot be listed. -/
def sweepSession (cutoff : ℚ) (db : PersistenceRegistry δ) (sid : String) :
    Except Exc (PersistenceRegistry δ) :=
  match db.list P.codec ("mcp:" ++ sid) (some "McpSessionEvent") with
  | .error _ => .ok db
  | .ok rows => rows.foldlM (sweepEvent P D createdAt cutoff) db

/-- `_evict_expired`: what is in the database after it, unless it raises. -/
def evictExpired (s : StreamableRetention δ) (now : ℚ) : Except Exc (Option (PersistenceRegistry δ)) :=
  match s.persistence with
  | none => .ok none
  | some db =>
    if s.sessionTtl ≤ 0 then .ok (some db)
    else (s.sessions.foldlM (sweepSession P D createdAt (now - s.sessionTtl)) db).map some

/-- An event with a well-formed timestamp that is older than the time to live. -/
def Expired (sessionTtl : ℤ) (now : ℚ) (e : Σ c, φ c) : Prop :=
  ∃ f, e = ⟨.mcpSessionEvent, f⟩ ∧ ∃ created ∈ D.fromisoformat (createdAt f),
    ∃ cutoffDt, D.fromtimestamp (now - sessionTtl) = .ok cutoffDt ∧ created.instant < cutoffDt

/-- An entity is in the database. -/
def Holds (db : PersistenceRegistry δ) (e : Σ c, φ c) : Prop :=
  db.entities.get? (P.codec.id e) = some (PersistenceRegistry.row P.codec e)

/-- The events that are expired are gone, and all other entities are there. -/
structure Retains (sessionTtl : ℤ) (now : ℚ) (db db' : PersistenceRegistry δ) : Prop where
  gone : ∀ e, Holds P db' e → ¬ Expired D createdAt sessionTtl now e
  kept : ∀ e, Holds P db e → ¬ Expired D createdAt sessionTtl now e → Holds P db' e

end StreamableRetention

end Hermes

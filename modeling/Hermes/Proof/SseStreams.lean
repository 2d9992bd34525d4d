import Hermes.Lib.History
import Hermes.Spec.McpSse

/-!
# What the clients of the SSE transport read

* `client_reads`: for every interleaving of the handlers, a client reads the endpoint of its session, and
  then the responses to the messages that were posted to this session, in their order; what it has not
  read is in the queue, as long as its GET is in its loop.
* `answers_asked`: a response goes to the session that its POST has named, and the responses for one POST are
  in the order of its messages.
* `sessions_known`: the ids of the sessions differ, and the server knows those whose GET has not
  ended.
* `transports_agree`: a batch is answered over SSE as over the other two transports.
-/

namespace Hermes

/-! ## Responses in one line -/

namespace Json

/-- The text does not end a line. -/
def OneLine (text : PyStr) : Prop := PyChar.char (Char.ofNat 10) ∉ text

theorem oneLine_append {s t : PyStr} : OneLine (s ++ t) ↔ OneLine s ∧ OneLine t := by
  unfold OneLine
  rw [List.mem_append, not_or]

theorem oneLine_py {s : String} (h : Char.ofNat 10 ∉ s.toList) : OneLine (py s) := by
  intro hin
  obtain ⟨c, hc, heq⟩ := List.mem_map.1 hin
  cases heq
  exact h hc

theorem oneLine_digits (n : ℕ) : OneLine (py (toString n)) := by
  refine oneLine_py fun h => ?_
  rw [Nat.toString_eq_ofList_toDigits, String.toList_ofList] at h
  exact absurd (Nat.isDigit_of_mem_toDigits (by decide) (by decide) h) (by decide)

theorem oneLine_int (n : ℤ) : OneLine (py (toString n)) := by
  cases n with
  | ofNat n => exact oneLine_digits n
  | negSucc n =>
    have htext : py (toString (Int.negSucc n)) = py "-" ++ py (toString (n + 1)) := by
      show py ("-" ++ toString (n + 1)) = _
      unfold py
      rw [String.toList_append, List.map_append]
    rw [htext]
    exact oneLine_append.2 ⟨oneLine_py (by decide), oneLine_digits _⟩

theorem oneLine_escape : ∀ n < 32, OneLine (hex 4 n) := by
  unfold OneLine
  decide

theorem oneLine_dumpsChar (c : PyChar) : OneLine (dumpsChar c) := by
  cases c with
  | surrogate n => simp [dumpsChar, OneLine]
  | char ch =>
    unfold dumpsChar
    simp only
    split_ifs with h1 h2 h3 h4 h5 h6 h7
    · rcases h1 with rfl | rfl <;> simp [OneLine]
    iterate 5 exact oneLine_py (by decide)
    · exact oneLine_append.2 ⟨oneLine_py (by decide), oneLine_escape _ h7⟩
    · simpa [OneLine] using Ne.symm h4

theorem oneLine_dumpsStr (s : PyStr) : OneLine (dumpsStr s) := by
  have hflat : OneLine (s.flatMap dumpsChar) := by
    intro h
    obtain ⟨c, -, hc⟩ := List.mem_flatMap.1 h
    exact oneLine_dumpsChar c hc
  unfold dumpsStr
  rw [oneLine_append, oneLine_append]
  exact ⟨⟨by simp [OneLine], hflat⟩, by simp [OneLine]⟩

theorem oneLine_dumpsFloat {x : PyFloat} (h : (Json.float x).inLine = true) :
    OneLine (dumpsFloat x) := by
  unfold dumpsFloat
  split_ifs
  iterate 3 exact oneLine_py (by decide)
  exact oneLine_py (by simpa [inLine] using h)

mutual

/-- A value is printed in one line, if its floats are. -/
theorem oneLine_dumps : ∀ v : Json, v.inLine = true → OneLine v.dumps
  | .null, _ => oneLine_py (by decide)
  | .bool true, _ => oneLine_py (by decide)
  | .bool false, _ => oneLine_py (by decide)
  | .int n, _ => oneLine_int n
  | .float _, h => oneLine_dumpsFloat h
  | .str s, _ => oneLine_dumpsStr s
  | .arr xs, h => by
    unfold dumps
    rw [oneLine_append, oneLine_append]
    exact ⟨⟨oneLine_py (by decide), oneLine_dumpsList xs h⟩, oneLine_py (by decide)⟩
  | .obj kvs, h => by
    unfold dumps
    rw [oneLine_append, oneLine_append]
    exact ⟨⟨oneLine_py (by decide), oneLine_dumpsFields kvs h⟩, oneLine_py (by decide)⟩

theorem oneLine_dumpsList : ∀ vs : List Json, inLineList vs = true → OneLine (dumpsList vs)
  | [], _ => by simp [dumpsList, OneLine]
  | [v], h => by
    unfold dumpsList
    unfold inLineList at h
    exact oneLine_dumps v (Bool.and_eq_true_iff.1 h).1
  | v :: w :: vs, h => by
    unfold inLineList at h
    obtain ⟨hv, hvs⟩ := Bool.and_eq_true_iff.1 h
    unfold dumpsList
    rw [oneLine_append, oneLine_append]
    exact ⟨⟨oneLine_dumps v hv, oneLine_py (by decide)⟩, oneLine_dumpsList (w :: vs) hvs⟩

theorem oneLine_dumpsFields : ∀ kvs : List (PyStr × Json), inLineFields kvs = true →
    OneLine (dumpsFields kvs)
  | [], _ => by simp [dumpsFields, OneLine]
  | [(k, v)], h => by
    unfold dumpsFields
    unfold inLineFields at h
    rw [oneLine_append, oneLine_append]
    exact ⟨⟨oneLine_dumpsStr k, oneLine_py (by decide)⟩, oneLine_dumps v (Bool.and_eq_true_iff.1 h).1⟩
  | (k, v) :: kv :: kvs, h => by
    unfold inLineFields at h
    obtain ⟨hv, hkvs⟩ := Bool.and_eq_true_iff.1 h
    unfold dumpsFields
    rw [oneLine_append, oneLine_append, oneLine_append, oneLine_append]
    exact ⟨⟨⟨⟨oneLine_dumpsStr k, oneLine_py (by decide)⟩, oneLine_dumps v hv⟩,
      oneLine_py (by decide)⟩, oneLine_dumpsFields (kv :: kvs) hkvs⟩

end

theorem inLine_of_mem {xs : List Json} (h : inLineList xs = true) {v : Json} (hv : v ∈ xs) :
    v.inLine = true := by
  induction xs with
  | nil => cases hv
  | cons x xs ih =>
    unfold inLineList at h
    obtain ⟨hx, hxs⟩ := Bool.and_eq_true_iff.1 h
    rcases List.mem_cons.1 hv with rfl | hv
    · exact hx
    · exact ih hxs hv

theorem inLine_field {kvs : List (PyStr × Json)} (h : inLineFields kvs = true) (key : String) :
    (field kvs key).inLine = true := by
  unfold field
  induction kvs with
  | nil => rfl
  | cons kv kvs ih =>
    unfold inLineFields at h
    obtain ⟨hkv, hkvs⟩ := Bool.and_eq_true_iff.1 h
    rw [List.lookup_cons]
    split
    · exact hkv
    · exact ih hkvs

theorem inLine_list {α : Type} {f : α → Json} {xs : List α} (h : ∀ x ∈ xs, (f x).inLine = true) :
    inLineList (xs.map f) = true := by
  induction xs with
  | nil => rfl
  | cons x xs ih =>
    rw [List.map_cons, inLineList, h x List.mem_cons_self,
      ih fun y hy => h y (List.mem_cons_of_mem _ hy)]
    rfl

end Json

namespace McpServer

open Json (inLineFields inLine_field)

variable {ρ : Type} {host : McpHost ρ}

theorem inLine_error (code : ℤ) (message : PyStr) {msgId : Json} (h : msgId.inLine = true) :
    (rpcError code message msgId).inLine = true := by
  simp [rpcError, Json.inLine, inLineFields, h]

theorem inLine_result {result msgId : Json} (h : msgId.inLine = true) (hresult : result.inLine = true) :
    (rpcResult result msgId).inLine = true := by
  simp [rpcResult, Json.inLine, inLineFields, h, hresult]

theorem inLine_tool {tool : Tool} (hmeta : inLineFields tool.metadata = true)
    (hschema : inLineFields tool.inputSchema = true) : (toMcpSchema tool).inLine = true := by
  have hdescription : ((Json.field tool.metadata "description").orElse (.str tool.capability)).inLine =
      true := by
    unfold Json.orElse
    split
    · exact inLine_field hmeta _
    · rfl
  unfold toMcpSchema
  simp only [Json.inLine, inLineFields, hdescription, Bool.and_true, Bool.true_and]
  split
  · rfl
  · exact hschema

theorem inLine_tools (h : host.inLine = true) :
    (Json.obj [(py "tools", .arr (host.tools.map toMcpSchema))]).inLine = true := by
  have htools : Json.inLineList (host.tools.map toMcpSchema) = true := by
    refine Json.inLine_list fun tool htool => ?_
    have := List.all_eq_true.1 h tool htool
    exact inLine_tool (Bool.and_eq_true_iff.1 this).1 (Bool.and_eq_true_iff.1 this).2
  simp [Json.inLine, inLineFields, htools]

theorem inLine_handleCall {params msgId r : Json} (hid : msgId.inLine = true)
    (h : (handleCall host params msgId).1 = .ok r) : r.inLine = true := by
  unfold handleCall at h
  simp only at h
  repeat' split at h
  all_goals cases h
  all_goals first
    | exact inLine_error _ _ hid
    | exact inLine_result hid rfl

/-- **A response is printed in one line**, if the floats of its message and of the tools are. -/
theorem inLine_dispatch {msg r : Json} (hhost : host.inLine = true) (hmsg : msg.inLine = true)
    (h : dispatch host msg = .ok (some r)) : r.inLine = true := by
  have hhandle : (handle host msg).1 = .ok (some r) := by
    unfold dispatch at h
    split at h
    · rename_i heq
      rw [heq, h]
    · split at h <;> cases h
  unfold handle at hhandle
  split at hhandle
  · rename_i kvs
    have hid : (Json.field kvs "id").inLine = true := inLine_field hmsg _
    simp only at hhandle
    split_ifs at hhandle
    · cases hhandle
      exact inLine_error _ _ hid
    · cases hhandle
    · cases hhandle
      exact inLine_result hid rfl
    · cases hhandle
      exact inLine_result hid (inLine_tools hhost)
    · cases hcall : (handleCall host ((Json.field kvs "params").orElse (.obj [])) (Json.field kvs "id")).1 with
      | error e =>
        rw [hcall] at hhandle
        cases hhandle
      | ok answer =>
        rw [hcall] at hhandle
        cases hhandle
        exact inLine_handleCall hid hcall
    · cases hhandle
      exact inLine_error _ _ hid
  · cases hhandle

end McpServer

/-! ## Frames that are read -/

namespace Sse

open EventStream (encode WellFormed)
open Json (OneLine oneLine_append oneLine_py)

/-- The text of a `data` line and the end of its event. -/
theorem encode_event (name : String) (data : PyStr) :
    encode marks [(py "event", py name), (py "data", data)] =
      py "event: " ++ py name ++ py "\ndata: " ++ data ++ py "\n\n" := by
  have hevent : py "event: " = py "event" ++ [.char ':', .char ' '] := by decide
  have hdata : py "\ndata: " = [.char (Char.ofNat 10)] ++ py "data" ++ [.char ':', .char ' '] := by decide
  have hend : py "\n\n" = [.char (Char.ofNat 10), .char (Char.ofNat 10)] := by decide
  rw [hevent, hdata, hend]
  simp [encode, EventStream.encodeField, marks]

theorem encode_endpoint (sid : PyStr) : encode marks (endpointEvent sid) = endpointFrame sid := by
  have hhead : py "event: endpoint\ndata: " = py "event: " ++ py "endpoint" ++ py "\ndata: " := by decide
  unfold endpointEvent endpointFrame
  rw [encode_event, hhead]

theorem encode_message (response : Json) :
    encode marks (messageEvent response) = messageFrame response := by
  have hhead : py "event: message\ndata: " = py "event: " ++ py "message" ++ py "\ndata: " := by decide
  unfold messageEvent messageFrame
  rw [encode_event, hhead]

theorem wellFormed_event {name : String} {data : PyStr} (hname : OneLine (py name)) (hdata : OneLine data) :
    WellFormed marks [(py "event", py name), (py "data", data)] where
  nonempty := by simp
  name_line := by
    simp only [List.forall_mem_cons]
    exact ⟨by decide, by decide, List.forall_mem_nil _⟩
  name_colon := by
    simp only [List.forall_mem_cons]
    exact ⟨by decide, by decide, List.forall_mem_nil _⟩
  value_line := by
    simp only [List.forall_mem_cons]
    exact ⟨hname, hdata, List.forall_mem_nil _⟩

theorem wellFormed_endpoint {sid : PyStr} (h : OneLine sid) : WellFormed marks (endpointEvent sid) :=
  wellFormed_event (oneLine_py (by decide)) (oneLine_append.2 ⟨oneLine_py (by decide), h⟩)

theorem wellFormed_message {response : Json} (h : response.inLine = true) :
    WellFormed marks (messageEvent response) :=
  wellFormed_event (oneLine_py (by decide)) (Json.oneLine_dumps response h)

/-- The events of responses are read in their texts. -/
theorem read_messages {responses : List Json} (h : ∀ r ∈ responses, r.inLine = true) :
    read (responses.map messageFrame).flatten = responses.map messageEvent := by
  have htexts : (responses.map messageFrame).flatten = (responses.map messageEvent).flatMap (encode marks) := by
    rw [List.flatMap_map, ← List.flatMap_def]
    exact List.flatMap_congr fun r _ => (encode_message r).symm
  have hwell : ∀ e ∈ responses.map messageEvent, WellFormed marks e := by
    intro e he
    obtain ⟨r, hr, rfl⟩ := List.mem_map.1 he
    exact wellFormed_message (h r hr)
  unfold read
  rw [htexts, EventStream.decode_flatMap_encode hwell]

/-- A stream is read as its endpoint and its responses. -/
theorem read_stream {sid : PyStr} {responses : List Json} (hsid : OneLine sid)
    (h : ∀ r ∈ responses, r.inLine = true) :
    read (endpointFrame sid ++ (responses.map messageFrame).flatten) =
      endpointEvent sid :: responses.map messageEvent := by
  unfold read
  rw [← encode_endpoint, EventStream.decode_encode_append (wellFormed_endpoint hsid)]
  exact congrArg _ (read_messages h)

end Sse

/-! ## What a GET has written -/

namespace SseGet

/-- What the client has got and what is queued, when these frames were queued for the session. -/
def Follows (frames : List PyStr) (g : SseGet) : Prop :=
  match g.phase with
  | .created => g.got = [] ∧ g.queue = frames.map some
  | .registered => g.got = [] ∧ g.queue = frames.map some
  | .streaming => ∃ sent waiting, frames = sent ++ waiting ∧ g.queue = waiting.map some ∧
      g.got = Sse.endpointFrame g.sessionId ++ sent.flatten
  | _ => g.got <+: Sse.endpointFrame g.sessionId ++ frames.flatten

/-- The server knows the session: it was registered, and not ended. -/
def Known (g : SseGet) : Prop := g.phase ≠ .created ∧ g.phase ≠ .ended

instance (g : SseGet) : Decidable g.Known := inferInstanceAs (Decidable (_ ∧ _))

variable {frames : List PyStr} {g : SseGet}

/-- What has been got, at any time, is the beginning of what there is. -/
theorem Follows.prefix (h : g.Follows frames) :
    g.got <+: Sse.endpointFrame g.sessionId ++ frames.flatten := by
  unfold Follows at h
  split at h
  · rw [h.1]
    exact List.nil_prefix
  · rw [h.1]
    exact List.nil_prefix
  · obtain ⟨sent, waiting, rfl, -, hgot⟩ := h
    rw [hgot, List.flatten_append, ← List.append_assoc]
    exact List.prefix_append _ _
  · exact h

theorem Follows.put {item : PyStr} (h : g.Follows frames) :
    (g.put (some item)).Follows (frames ++ [item]) := by
  unfold Follows at h ⊢
  cases hphase : g.phase with
  | created =>
    simp only [hphase] at h
    simp [SseGet.put, hphase, h.1, h.2]
  | registered =>
    simp only [hphase] at h
    simp [SseGet.put, hphase, h.1, h.2]
  | streaming =>
    simp only [hphase] at h
    obtain ⟨sent, waiting, hframes, hqueue, hgot⟩ := h
    simp only [SseGet.put, hphase]
    exact ⟨sent, waiting ++ [item], by rw [hframes, List.append_assoc], by simp [hqueue], hgot⟩
  | closing | ended | aborted =>
    simp only [hphase] at h
    simp only [SseGet.put, hphase]
    refine h.trans ?_
    rw [List.flatten_append, ← List.append_assoc]
    exact List.prefix_append _ _

/-- A GET that is not in its loop any more only has to keep what it has got. -/
theorem follows_of_prefix (hphase : g.phase = .closing ∨ g.phase = .ended ∨ g.phase = .aborted)
    (h : g.got <+: Sse.endpointFrame g.sessionId ++ frames.flatten) : g.Follows frames := by
  unfold Follows
  rcases hphase with hphase | hphase | hphase
  all_goals
    rw [hphase]
    exact h

theorem Follows.register (h : g.Follows frames) : g.register.Follows frames := by
  unfold SseGet.register
  split
  · rename_i hphase
    unfold Follows at h ⊢
    simpa only [hphase] using h
  · exact h

theorem Follows.head (cut : Option ℕ) (h : g.Follows frames) : (g.head cut).Follows frames := by
  unfold SseGet.head
  split
  · rename_i hphase
    have hpre := h.prefix
    unfold Follows at h
    simp only [hphase] at h
    cases cut with
    | none => exact ⟨[], frames, rfl, h.2, by simp [write, h.1]⟩
    | some n =>
      refine follows_of_prefix (.inr (.inr rfl)) ?_
      show g.got ++ (Sse.endpointFrame g.sessionId).take n <+: _
      rw [h.1]
      exact (List.take_prefix n _).trans (List.prefix_append _ _)
  · exact h

theorem Follows.take (cut : Option ℕ) (h : g.Follows frames) : (g.take cut).Follows frames := by
  unfold SseGet.take
  split
  · rename_i hphase
    have hpre := h.prefix
    have hstream := h
    unfold Follows at hstream
    simp only [hphase] at hstream
    obtain ⟨sent, waiting, hframes, hqueue, hgot⟩ := hstream
    cases waiting with
    | nil =>
      rw [hqueue]
      exact h
    | cons item waiting =>
      rw [hqueue]
      simp only [List.map_cons]
      split
      · cases cut with
        | none =>
          refine ⟨sent ++ [item], waiting, by rw [hframes, List.append_assoc]; rfl, rfl, ?_⟩
          show g.got ++ item = Sse.endpointFrame g.sessionId ++ (sent ++ [item]).flatten
          rw [hgot, List.flatten_append, List.append_assoc]
          simp
        | some n =>
          refine follows_of_prefix (.inl rfl) ?_
          show g.got ++ item.take n <+: _
          rw [hgot, hframes, List.flatten_append, List.flatten_cons, List.append_assoc]
          refine (List.prefix_append_right_inj _).2 ((List.prefix_append_right_inj _).2 ?_)
          exact (List.take_prefix n item).trans (List.prefix_append _ _)
      · exact follows_of_prefix (.inl rfl) hpre
  · exact h

theorem Follows.timeout (h : g.Follows frames) : g.timeout.Follows frames := by
  unfold SseGet.timeout
  split
  · exact follows_of_prefix (.inl rfl) h.prefix
  · exact h

/-- What `_end_session` makes of a GET in its `finally`. -/
def finish (g : SseGet) : SseGet := { g with phase := .ended, queue := g.queue ++ [none] }

theorem Follows.finish (h : g.Follows frames) : g.finish.Follows frames :=
  follows_of_prefix (.inr (.inl rfl)) h.prefix

theorem head_known (cut : Option ℕ) : (g.head cut).Known ↔ g.Known := by
  unfold SseGet.head
  split
  · rename_i hphase
    cases cut <;> simp [Known, write, hphase]
  · rfl

theorem take_known (cut : Option ℕ) : (g.take cut).Known ↔ g.Known := by
  unfold SseGet.take
  split
  · rename_i hphase
    split
    · rfl
    · simp [Known, hphase]
    · split
      · cases cut <;> simp [Known, write, hphase]
      · simp [Known, hphase]
  · rfl

theorem timeout_known : g.timeout.Known ↔ g.Known := by
  unfold SseGet.timeout
  split
  · rename_i h
    simp [Known, h.1]
  · rfl

theorem head_id (cut : Option ℕ) : (g.head cut).sessionId = g.sessionId := by
  unfold SseGet.head
  split
  · cases cut <;> rfl
  · rfl

theorem take_id (cut : Option ℕ) : (g.take cut).sessionId = g.sessionId := by
  unfold SseGet.take
  split
  · split
    · rfl
    · rfl
    · split
      · cases cut <;> rfl
      · rfl
  · rfl

theorem timeout_id : g.timeout.sessionId = g.sessionId := by
  unfold SseGet.timeout
  split <;> rfl

theorem register_id : g.register.sessionId = g.sessionId := by
  unfold SseGet.register
  split <;> rfl

end SseGet

/-! ## The server -/

namespace McpSse

open SseGet (Known Follows)

variable {ρ : Type} {s : McpSse}

/-- The texts that were queued for a session. -/
def frames (s : McpSse) (k : ℕ) : List PyStr := (s.answers k).map Sse.messageFrame

/-- What holds of a server at any time. -/
structure Serving (s : McpSse) : Prop where
  ids : s.gets.map (·.sessionId) = (List.range s.counter).map fun n => newSessionId (n + 1)
  known : ∀ sid k, s.sessions.get? sid = some k ↔
    ∃ g, s.gets[k]? = some g ∧ g.sessionId = sid ∧ g.Known
  posts : ∀ post ∈ s.posts, ∀ k, post.session = some k →
    ∃ g, s.gets[k]? = some g ∧ post.sessionId = some g.sessionId
  follows : ∀ k (g : SseGet), s.gets[k]? = some g → g.Follows (s.frames k)
  logged : ∀ a ∈ s.log, a.session < s.gets.length

theorem newSessionId_inj {m n : ℕ} (h : newSessionId m = newSessionId n) : m = n := by
  unfold newSessionId py at h
  have htext := List.map_injective_iff.2 (fun a b hab => PyChar.char.inj hab) h
  have hdigits : Nat.toDigits 10 m = Nat.toDigits 10 n := by
    simpa [String.toList_append] using htext
  rw [← Nat.ofDigitChars_toDigits (by decide : 1 < 10) (by decide) (n := m), hdigits,
    Nat.ofDigitChars_toDigits (by decide) (by decide)]

theorem Serving.length (h : Serving s) : s.gets.length = s.counter := by
  have := congrArg List.length h.ids
  simpa using this

theorem Serving.sessionId {k : ℕ} {g : SseGet} (h : Serving s) (hg : s.gets[k]? = some g) :
    g.sessionId = newSessionId (k + 1) := by
  have hk : k < s.counter := by
    rw [← h.length]
    exact (List.getElem?_eq_some_iff.1 hg).1
  have hid := congrArg (·[k]?) h.ids
  simp only [List.getElem?_map, hg, Option.map_some] at hid
  rw [List.getElem?_range hk] at hid
  simpa using hid

/-- Sessions with the same id are the same. -/
theorem Serving.unique {j k : ℕ} {g g' : SseGet} (h : Serving s) (hg : s.gets[j]? = some g)
    (hg' : s.gets[k]? = some g') (hid : g.sessionId = g'.sessionId) : j = k := by
  rw [h.sessionId hg, h.sessionId hg'] at hid
  have := newSessionId_inj hid
  omega

theorem serving_new : Serving {} where
  ids := rfl
  known := by simp
  posts := by simp
  follows := by simp
  logged := by simp

theorem getElem?_modifyGet (s : McpSse) (k j : ℕ) (f : SseGet → SseGet) :
    (s.modifyGet k f).gets[j]? = if k = j then s.gets[j]?.map f else s.gets[j]? := by
  unfold modifyGet
  simp only
  rw [List.getElem?_modify]
  split <;> simp

/-- What one GET does keeps the ids. -/
theorem ids_modifyGet (s : McpSse) (k : ℕ) {f : SseGet → SseGet} (hid : ∀ g, (f g).sessionId = g.sessionId) :
    (s.modifyGet k f).gets.map (·.sessionId) = s.gets.map (·.sessionId) := by
  refine List.ext_getElem? fun j => ?_
  rw [List.getElem?_map, List.getElem?_map, getElem?_modifyGet]
  split
  · rw [Option.map_map]
    exact congrArg (Option.map · _) (funext hid)
  · rfl

/-- What is asked of a GET is kept by what one GET does, if it is kept there. -/
theorem forall_modifyGet {s : McpSse} {k : ℕ} {f : SseGet → SseGet} {P Q : ℕ → SseGet → Prop}
    (h : ∀ j g, s.gets[j]? = some g → P j g) (hother : ∀ j g, j ≠ k → P j g → Q j g)
    (hown : ∀ g, s.gets[k]? = some g → P k g → Q k (f g)) :
    ∀ j g, (s.modifyGet k f).gets[j]? = some g → Q j g := by
  intro j g hg
  rw [getElem?_modifyGet] at hg
  split at hg
  · rename_i hj
    obtain ⟨g', hg', rfl⟩ := Option.map_eq_some_iff.1 hg
    subst hj
    exact hown g' hg' (h _ g' hg')
  · rename_i hj
    exact hother j g (fun h => hj h.symm) (h j g hg)

/-- A session that was found is still there, under its id. -/
theorem posts_modifyGet (h : Serving s) (k : ℕ) {f : SseGet → SseGet}
    (hid : ∀ g, (f g).sessionId = g.sessionId) : ∀ post ∈ s.posts, ∀ j, post.session = some j →
      ∃ g, (s.modifyGet k f).gets[j]? = some g ∧ post.sessionId = some g.sessionId := by
  intro post hpost j hj
  obtain ⟨g, hg, hsid⟩ := h.posts post hpost j hj
  rw [getElem?_modifyGet]
  split
  · exact ⟨f g, by rw [hg]; rfl, by rw [hid, hsid]⟩
  · exact ⟨g, hg, hsid⟩

theorem Serving.modifyGet (h : Serving s) (k : ℕ) {f : SseGet → SseGet}
    (hid : ∀ g, (f g).sessionId = g.sessionId) (hknown : ∀ g, (f g).Known ↔ g.Known)
    (hfollows : ∀ frames g, g.Follows frames → (f g).Follows frames) : Serving (s.modifyGet k f) where
  ids := (ids_modifyGet s k hid).trans h.ids
  known sid j := by
    show s.sessions.get? sid = some j ↔ _
    rw [h.known, getElem?_modifyGet]
    split
    · constructor
      · rintro ⟨g, hg, hsid, hgk⟩
        exact ⟨f g, by rw [hg]; rfl, (hid g).trans hsid, (hknown g).2 hgk⟩
      · rintro ⟨g, hg, hsid, hgk⟩
        obtain ⟨g', hg', rfl⟩ := Option.map_eq_some_iff.1 hg
        exact ⟨g', hg', (hid g').symm.trans hsid, (hknown g').1 hgk⟩
    · rfl
  posts := posts_modifyGet h k hid
  follows := forall_modifyGet h.follows (fun _ _ _ hg => hg) fun g _ hg => hfollows _ g hg
  logged a ha := by
    show a.session < (s.gets.modify k f).length
    rw [List.length_modify]
    exact h.logged a ha

/-- Two sessions are known by one id only if they are one. -/
theorem Serving.known_unique {k : ℕ} {g : SseGet} (h : Serving s) (hg : s.gets[k]? = some g)
    {j : ℕ} (hj : s.sessions.get? g.sessionId = some j) : j = k := by
  obtain ⟨g', hg', hid, -⟩ := (h.known _ _).1 hj
  exact h.unique hg' hg hid

/-- The session of a GET that comes is behind those that are there. -/
theorem getElem?_create {k : ℕ} {g : SseGet} : s.create.gets[k]? = some g ↔
    s.gets[k]? = some g ∨ k = s.gets.length ∧ g = { sessionId := newSessionId (s.counter + 1) } := by
  show (s.gets ++ [_])[k]? = some g ↔ _
  rcases lt_trichotomy k s.gets.length with hk | rfl | hk
  · rw [List.getElem?_append_left hk]
    simp [hk.ne]
  · rw [List.getElem?_concat_length]
    simp [eq_comm]
  · rw [List.getElem?_eq_none (by simp; omega), List.getElem?_eq_none (by omega)]
    simp [hk.ne']

/-- Nothing was queued for a session that is yet to come. -/
theorem Serving.answers_new (h : Serving s) : s.frames s.gets.length = [] := by
  have hnone : s.log.filter (·.session = s.gets.length) = [] := by
    refine List.filter_eq_nil_iff.2 fun a ha => ?_
    simpa using (h.logged a ha).ne
  unfold frames answers
  rw [hnone]
  rfl

theorem Serving.create (h : Serving s) : Serving s.create where
  ids := by
    show (s.gets ++ [_]).map _ = (List.range (s.counter + 1)).map _
    rw [List.map_append, h.ids, List.range_succ, List.map_append]
    rfl
  known sid k := by
    refine (h.known sid k).trans ⟨?_, ?_⟩
    · rintro ⟨g, hg, hrest⟩
      exact ⟨g, getElem?_create.2 (.inl hg), hrest⟩
    · rintro ⟨g, hg, hid, hknown⟩
      rcases getElem?_create.1 hg with hold | ⟨-, rfl⟩
      · exact ⟨g, hold, hid, hknown⟩
      · exact absurd rfl hknown.1
  posts post hpost k hk := by
    obtain ⟨g, hg, hsid⟩ := h.posts post hpost k hk
    exact ⟨g, getElem?_create.2 (.inl hg), hsid⟩
  follows k g hg := by
    rcases getElem?_create.1 hg with hold | ⟨rfl, rfl⟩
    · exact h.follows k g hold
    · exact ⟨rfl, (congrArg (List.map some) h.answers_new).symm⟩
  logged a ha := by
    show a.session < (s.gets ++ [_]).length
    rw [List.length_append]
    exact Nat.lt_succ_of_lt (h.logged a ha)

theorem Serving.register (h : Serving s) (k : ℕ) : Serving (s.register k) := by
  unfold McpSse.register
  split
  · rename_i g hg
    split
    · rename_i hphase
      have hlength : ∀ a ∈ s.log, a.session < (s.gets.modify k SseGet.register).length := by
        intro a ha
        rw [List.length_modify]
        exact h.logged a ha
      refine ⟨(ids_modifyGet s k fun _ => SseGet.register_id).trans h.ids, ?_,
        posts_modifyGet h k fun _ => SseGet.register_id,
        forall_modifyGet h.follows (fun _ _ _ hg => hg) fun _ _ hg => hg.register, hlength⟩
      intro sid j
      show (s.sessions.insert g.sessionId k).get? sid = some j ↔
        ∃ g', (s.modifyGet k SseGet.register).gets[j]? = some g' ∧ _
      have hreg : g.register = { g with phase := .registered } := if_pos hphase
      rw [Dict.get?_insert, getElem?_modifyGet]
      by_cases hj : k = j
      · subst hj
        rw [if_pos rfl, hg]
        simp only [Option.map_some, Option.some.injEq, exists_eq_left']
        have hknown : g.register.Known := by simp [Known, hreg]
        rw [SseGet.register_id]
        split
        · rename_i hsid
          exact iff_of_true rfl ⟨hsid.symm, hknown⟩
        · rename_i hsid
          refine iff_of_false (fun hget => ?_) fun h => hsid h.1.symm
          obtain ⟨g', hg', hid, hk⟩ := (h.known _ _).1 hget
          rw [hg] at hg'
          cases hg'
          exact hsid hid.symm
      · rw [if_neg hj]
        split
        · rename_i hsid
          refine iff_of_false (fun h => hj (Option.some.inj h)) ?_
          rintro ⟨g', hg', hid, -⟩
          exact hj (h.unique hg hg' (hsid.symm.trans hid.symm))
        · exact h.known sid j
    · exact h
  · exact h

/-- A GET that is in its `finally` is known, and it is taken out. -/
theorem finish_eq (h : Serving s) {k : ℕ} {g : SseGet} (hg : s.gets[k]? = some g)
    (hphase : g.phase = .closing) :
    s.finish k = { s.modifyGet k SseGet.finish with sessions := s.sessions.erase g.sessionId } := by
  have hget : s.sessions.get? g.sessionId = some k :=
    (h.known _ _).2 ⟨g, hg, rfl, by simp [Known, hphase]⟩
  unfold McpSse.finish
  simp only [hg, hphase, if_true, hget]
  unfold McpSse.modifyGet
  simp only
  rw [List.modify_modify_eq]
  rfl

theorem Serving.finish (h : Serving s) (k : ℕ) : Serving (s.finish k) := by
  have hother : (∀ g, s.gets[k]? = some g → g.phase ≠ .closing) → s.finish k = s := by
    intro hno
    unfold McpSse.finish
    split
    · rename_i g hg
      rw [if_neg (hno g hg)]
    · rfl
  by_cases hclosing : ∀ g, s.gets[k]? = some g → g.phase ≠ .closing
  · rw [hother hclosing]
    exact h
  · push Not at hclosing
    obtain ⟨g, hg, hphase⟩ := hclosing
    rw [finish_eq h hg hphase]
    have hlength : ∀ a ∈ s.log, a.session < (s.gets.modify k SseGet.finish).length := by
      intro a ha
      rw [List.length_modify]
      exact h.logged a ha
    refine ⟨(ids_modifyGet s k (f := SseGet.finish) fun _ => rfl).trans h.ids, ?_,
      posts_modifyGet h k (f := SseGet.finish) fun _ => rfl,
      forall_modifyGet h.follows (fun _ _ _ hg => hg) fun _ _ hg => hg.finish, hlength⟩
    intro sid j
    show (s.sessions.erase g.sessionId).get? sid = some j ↔
      ∃ g', (s.modifyGet k SseGet.finish).gets[j]? = some g' ∧ _
    rw [Dict.get?_erase, getElem?_modifyGet]
    by_cases hj : k = j
    · subst hj
      rw [if_pos rfl, hg]
      simp only [Option.map_some, Option.some.injEq, exists_eq_left']
      refine iff_of_false (fun hsid => ?_) fun h => h.2.2 rfl
      split at hsid
      · cases hsid
      · rename_i hne
        obtain ⟨g', hg', hid, -⟩ := (h.known _ _).1 hsid
        rw [hg] at hg'
        cases hg'
        exact hne hid.symm
    · rw [if_neg hj]
      split
      · rename_i hsid
        refine iff_of_false (by simp) ?_
        rintro ⟨g', hg', hid, -⟩
        exact hj (h.unique hg hg' (hsid.symm.trans hid.symm))
      · exact h.known sid j

/-- The POSTs may change, if each knows the id of its session. -/
theorem Serving.setPosts (h : Serving s) {posts : List SsePost}
    (hposts : ∀ post ∈ posts, ∀ k, post.session = some k →
      ∃ g, s.gets[k]? = some g ∧ post.sessionId = some g.sessionId) : Serving { s with posts } :=
  ⟨h.ids, h.known, hposts, h.follows, h.logged⟩

theorem Serving.post (h : Serving s) (sessionId : Option PyStr) (body : Option Json) :
    Serving (s.post sessionId body) := by
  refine h.setPosts fun post hpost k hk => ?_
  rcases List.mem_append.1 hpost with hold | hnew
  · exact h.posts post hold k hk
  · cases List.mem_singleton.1 hnew
    obtain ⟨sid, hsid, hget⟩ := Option.bind_eq_some_iff.1 hk
    obtain ⟨g, hg, rfl, -⟩ := (h.known sid k).1 hget
    exact ⟨g, hg, (Option.filter_eq_some_iff.1 hsid).1⟩

theorem getElem?_setTodo (s : McpSse) (p q : ℕ) (todo : List Json) : (s.setTodo p todo).posts[q]? =
    if p = q then (s.posts[q]?).map fun post => { post with todo } else s.posts[q]? := by
  unfold setTodo
  simp only
  rw [List.getElem?_modify]
  split <;> simp

theorem Serving.setTodo (h : Serving s) (p : ℕ) (todo : List Json) : Serving (s.setTodo p todo) := by
  refine h.setPosts fun post hpost k hk => ?_
  obtain ⟨q, hq : (s.setTodo p todo).posts[q]? = some post⟩ := List.mem_iff_getElem?.1 hpost
  rw [getElem?_setTodo] at hq
  split at hq
  · obtain ⟨before, hbefore, rfl⟩ := Option.map_eq_some_iff.1 hq
    exact h.posts before (List.mem_of_getElem? hbefore) k hk
  · exact h.posts post (List.mem_of_getElem? hq) k hk

/-- A response becomes the last one of its session, and no other session sees it. -/
theorem frames_answer (s : McpSse) (a : SseAnswer) (k : ℕ) : (s.answer a).frames k =
    s.frames k ++ if a.session = k then [Sse.messageFrame a.response] else [] := by
  unfold frames answers answer
  simp only
  rw [List.filter_append, List.map_append, List.map_append]
  by_cases hk : a.session = k
  · simp [hk]
  · simp [hk]

theorem Serving.answer (h : Serving s) {a : SseAnswer} (ha : a.session < s.gets.length) :
    Serving (s.answer a) where
  ids := (ids_modifyGet s a.session (f := SseGet.put _) fun _ => rfl).trans h.ids
  known sid j := by
    show s.sessions.get? sid = some j ↔
      ∃ g, (s.modifyGet a.session (SseGet.put (some (Sse.messageFrame a.response)))).gets[j]? = some g ∧ _
    rw [h.known, getElem?_modifyGet]
    split
    · constructor
      · rintro ⟨g, hg, hrest⟩
        exact ⟨g.put _, by rw [hg]; rfl, hrest⟩
      · rintro ⟨g, hg, hrest⟩
        obtain ⟨g', hg', rfl⟩ := Option.map_eq_some_iff.1 hg
        exact ⟨g', hg', hrest⟩
    · rfl
  posts := posts_modifyGet h a.session (f := SseGet.put _) fun _ => rfl
  follows := by
    refine forall_modifyGet h.follows (fun j g hj hg => ?_) fun g _ hg => ?_
    · rw [frames_answer, if_neg (Ne.symm hj), List.append_nil]
      exact hg
    · rw [frames_answer, if_pos rfl]
      exact hg.put
  logged b hb := by
    show b.session < (s.gets.modify a.session _).length
    rw [List.length_modify]
    rcases List.mem_append.1 hb with hold | hnew
    · exact h.logged b hold
    · cases List.mem_singleton.1 hnew
      exact ha

/-- **What a dispatch does**: at most the message is taken, the POST ends, or its response is queued for
the session of the POST. -/
theorem dispatch_cases (s : McpSse) (p : ℕ) (host : Option (McpHost ρ)) :
    s.dispatch p host = s ∨ ∃ post k msg todo, s.posts[p]? = some post ∧ post.session = some k ∧
      post.todo = msg :: todo ∧ (s.dispatch p host = s.setTodo p todo ∨
        s.dispatch p host = (s.setTodo p todo).setTodo p [] ∨
        ∃ host' response, host = some host' ∧ McpServer.dispatch host' msg = .ok (some response) ∧
          s.dispatch p host = (s.setTodo p todo).answer { post := p, session := k, msg, response }) := by
  unfold McpSse.dispatch
  split
  · rename_i sessionId body k msg todo hpost
    refine .inr ⟨_, k, msg, todo, hpost, rfl, rfl, ?_⟩
    cases host with
    | none => exact .inl rfl
    | some host =>
      cases hdispatch : McpServer.dispatch host msg with
      | error e => exact .inr (.inl (by simp only [hdispatch]))
      | ok answer =>
        cases answer with
        | none => exact .inl (by simp only [hdispatch])
        | some response => exact .inr (.inr ⟨host, response, rfl, hdispatch, by simp only [hdispatch]⟩)
  · exact .inl rfl

theorem Serving.dispatch (h : Serving s) (p : ℕ) (host : Option (McpHost ρ)) :
    Serving (s.dispatch p host) := by
  rcases dispatch_cases s p host with heq | ⟨post, k, msg, todo, hpost, hk, -, heq | heq | ⟨_, _, -, -, heq⟩⟩
  · rw [heq]
    exact h
  · rw [heq]
    exact h.setTodo p todo
  · rw [heq]
    exact (h.setTodo p todo).setTodo p []
  · rw [heq]
    refine (h.setTodo p todo).answer ?_
    obtain ⟨g, hg, -⟩ := h.posts post (List.mem_of_getElem? hpost) k hk
    exact (List.getElem?_eq_some_iff.1 hg).1

/-- **One step.** -/
theorem Serving.step (h : Serving s) (e : SseEvent ρ) : Serving (s.step e) := by
  cases e with
  | get => exact h.create
  | register k => exact h.register k
  | head k cut =>
    exact h.modifyGet k (fun _ => SseGet.head_id cut) (fun _ => SseGet.head_known cut)
      fun _ _ hg => hg.head cut
  | take k cut =>
    exact h.modifyGet k (fun _ => SseGet.take_id cut) (fun _ => SseGet.take_known cut)
      fun _ _ hg => hg.take cut
  | timeout k =>
    exact h.modifyGet k (fun _ => SseGet.timeout_id) (fun _ => SseGet.timeout_known)
      fun _ _ hg => hg.timeout
  | finish k => exact h.finish k
  | post sessionId body => exact h.post sessionId body
  | dispatch p host => exact h.dispatch p host
  | abandon p => exact h.setTodo p []

theorem serving_run (es : List (SseEvent ρ)) : Serving (run es) :=
  History.run_invariant step Serving (fun _ e h => h.step e) es _ serving_new

/-! ## Who has asked -/

/-- The messages of a POST that were answered. -/
def answered (s : McpSse) (p : ℕ) : List Json := (s.log.filter (·.post = p)).map (·.msg)

/-- What holds of a POST: the messages that it answered and those that it still has are some of its body,
in their order. -/
structure Asked (es : List (SseEvent ρ)) (s : McpSse) : Prop where
  came : ∀ (p : ℕ) (post : SsePost), s.posts[p]? = some post →
    SseEvent.post post.sessionId post.body ∈ es
  order : ∀ p post, s.posts[p]? = some post →
    (s.answered p ++ post.todo).Sublist (SsePost.messages post.body)
  session : ∀ a ∈ s.log, ∃ post, s.posts[a.post]? = some post ∧ post.session = some a.session
  response : ∀ a ∈ s.log, ∃ host, SseEvent.dispatch a.post (some host) ∈ es ∧
    McpServer.dispatch host a.msg = .ok (some a.response)

/-- A POST may skip messages. -/
theorem Asked.setTodo {es : List (SseEvent ρ)} (h : Asked es s) (p : ℕ) {todo : List Json}
    (htodo : ∀ post, s.posts[p]? = some post → todo.Sublist post.todo) : Asked es (s.setTodo p todo) where
  came q post hpost := by
    rw [getElem?_setTodo] at hpost
    split at hpost
    · obtain ⟨before, hbefore, rfl⟩ := Option.map_eq_some_iff.1 hpost
      exact h.came q before hbefore
    · exact h.came q post hpost
  order q post hpost := by
    rw [getElem?_setTodo] at hpost
    split at hpost
    · rename_i hq
      subst hq
      obtain ⟨before, hbefore, rfl⟩ := Option.map_eq_some_iff.1 hpost
      exact ((htodo before hbefore).append_left _).trans (h.order p before hbefore)
    · exact h.order q post hpost
  session a ha := by
    obtain ⟨post, hpost, hk⟩ := h.session a ha
    rw [getElem?_setTodo]
    split
    · exact ⟨{ post with todo }, by rw [hpost]; rfl, hk⟩
    · exact ⟨post, hpost, hk⟩
  response := h.response

theorem Asked.post {es : List (SseEvent ρ)} (h : Asked es s) {sessionId : Option PyStr} {body : Option Json}
    (he : SseEvent.post sessionId body ∈ es) : Asked es (s.post sessionId body) := by
  have hold : ∀ {p : ℕ} {post : SsePost}, s.posts[p]? = some post →
      (s.post sessionId body).posts[p]? = some post := by
    intro p post hpost
    exact (List.getElem?_append_left (List.getElem?_eq_some_iff.1 hpost).1).trans hpost
  refine ⟨fun p post hpost => ?_, fun p post hpost => ?_, fun a ha => ?_, h.response⟩
  · rcases List.mem_append.1 (List.mem_of_getElem? hpost) with hbefore | hnew
    · obtain ⟨q, hq⟩ := List.mem_iff_getElem?.1 hbefore
      exact h.came q post hq
    · cases List.mem_singleton.1 hnew
      exact he
  · rcases lt_or_ge p s.posts.length with hp | hp
    · have hbefore := List.getElem?_append_left hp ▸ hpost
      exact h.order p post hbefore
    · -- nobody was answered before the POST came
      have hnone : s.log.filter (·.post = p) = [] := by
        refine List.filter_eq_nil_iff.2 fun a ha => ?_
        obtain ⟨post', hpost', -⟩ := h.session a ha
        have hlt := (List.getElem?_eq_some_iff.1 hpost').1
        simpa using fun heq : a.post = p => by omega
      have htodo : post.todo.Sublist (SsePost.messages post.body) := by
        have hmem := List.mem_of_getElem? (List.getElem?_append_right hp ▸ hpost)
        cases List.mem_singleton.1 hmem
        simp only
        split
        · exact List.Sublist.refl _
        · exact List.nil_sublist _
      unfold answered
      show ((s.log.filter (·.post = p)).map _ ++ _).Sublist _
      rw [hnone]
      exact htodo
  · obtain ⟨post, hpost, hk⟩ := h.session a ha
    exact ⟨post, hold hpost, hk⟩

/-- The first message that a POST still has is answered. -/
theorem Asked.answer {es : List (SseEvent ρ)} (h : Asked es s) {p k : ℕ} {post : SsePost} {msg response : Json}
    {todo : List Json} {host : McpHost ρ} (hpost : s.posts[p]? = some post) (hk : post.session = some k)
    (htodo : post.todo = msg :: todo) (he : SseEvent.dispatch p (some host) ∈ es)
    (hresponse : McpServer.dispatch host msg = .ok (some response)) :
    Asked es ((s.setTodo p todo).answer { post := p, session := k, msg, response }) where
  came q post' hpost' := by
    have hafter : (s.setTodo p todo).posts[q]? = some post' := hpost'
    rw [getElem?_setTodo] at hafter
    split at hafter
    · obtain ⟨before, hbefore, rfl⟩ := Option.map_eq_some_iff.1 hafter
      exact h.came q before hbefore
    · exact h.came q post' hafter
  order q post' hpost' := by
    have hafter : (s.setTodo p todo).posts[q]? = some post' := hpost'
    have hanswered : ((s.setTodo p todo).answer { post := p, session := k, msg, response }).answered q =
        s.answered q ++ if p = q then [msg] else [] := by
      show ((s.log ++ [_]).filter _).map _ = _
      rw [List.filter_append, List.map_append]
      by_cases hq : p = q
      · simp [hq, answered]
      · simp [hq, answered]
    rw [hanswered]
    rw [getElem?_setTodo] at hafter
    split at hafter
    · rename_i hq
      subst hq
      rw [hpost] at hafter
      cases hafter
      have horder := h.order p post hpost
      rw [htodo] at horder
      rw [if_pos rfl, List.append_assoc]
      exact horder
    · rename_i hq
      rw [if_neg hq, List.append_nil]
      exact h.order q post' hafter
  session a ha := by
    show ∃ post, (s.setTodo p todo).posts[a.post]? = some post ∧ _
    rw [getElem?_setTodo]
    rcases List.mem_append.1 ha with hold | hnew
    · obtain ⟨post', hpost', hk'⟩ := h.session a hold
      split
      · exact ⟨{ post' with todo }, by rw [hpost']; rfl, hk'⟩
      · exact ⟨post', hpost', hk'⟩
    · cases List.mem_singleton.1 hnew
      exact ⟨{ post with todo }, by rw [if_pos rfl, hpost]; rfl, hk⟩
  response a ha := by
    rcases List.mem_append.1 ha with hold | hnew
    · exact h.response a hold
    · cases List.mem_singleton.1 hnew
      exact ⟨host, he, hresponse⟩

/-- What does not touch the POSTs and the log. -/
theorem Asked.same {es : List (SseEvent ρ)} {s' : McpSse} (h : Asked es s) (hposts : s'.posts = s.posts)
    (hlog : s'.log = s.log) : Asked es s' := by
  refine ⟨?_, ?_, ?_, ?_⟩
  · rw [hposts]
    exact h.came
  · unfold answered
    rw [hposts, hlog]
    exact h.order
  · rw [hposts, hlog]
    exact h.session
  · rw [hlog]
    exact h.response

theorem Asked.step {es : List (SseEvent ρ)} (h : Asked es s) {e : SseEvent ρ} (he : e ∈ es) :
    Asked es (s.step e) := by
  cases e with
  | get => exact h.same rfl rfl
  | register k =>
    refine h.same ?_ ?_
    all_goals
      simp only [McpSse.step, McpSse.register]
      split
      · split <;> rfl
      · rfl
  | head k cut => exact h.same rfl rfl
  | take k cut => exact h.same rfl rfl
  | timeout k => exact h.same rfl rfl
  | finish k =>
    refine h.same ?_ ?_
    all_goals
      simp only [McpSse.step, McpSse.finish]
      split
      · split
        · split <;> rfl
        · rfl
      · rfl
  | post sessionId body => exact h.post he
  | dispatch p host =>
    show Asked es (s.dispatch p host)
    rcases dispatch_cases s p host with
      heq | ⟨post, k, msg, todo, hpost, hk, htodo, heq | heq | ⟨host', response, rfl, hresponse, heq⟩⟩
    · rw [heq]
      exact h
    all_goals rw [heq]
    · refine h.setTodo p fun post' hpost' => ?_
      rw [hpost] at hpost'
      cases hpost'
      rw [htodo]
      exact List.sublist_cons_self msg todo
    · have hskip : Asked es (s.setTodo p todo) := h.setTodo p fun post' hpost' => by
        rw [hpost] at hpost'
        cases hpost'
        rw [htodo]
        exact List.sublist_cons_self msg todo
      exact hskip.setTodo p fun _ _ => List.nil_sublist _
    · exact h.answer hpost hk htodo he hresponse
  | abandon p => exact h.setTodo p fun _ _ => List.nil_sublist _

theorem asked_run (es : List (SseEvent ρ)) : Asked es (run es) :=
  History.run_invariant_of_mem step (Asked es) es (fun _ _ he h => h.step he) _
    ⟨by simp, by simp, by simp, by simp⟩

theorem inLine_messages {body : Json} (h : body.inLine = true) :
    ∀ msg ∈ SsePost.messages (some body), msg.inLine = true := by
  intro msg hmsg
  unfold SsePost.messages at hmsg
  split at hmsg
  · cases hmsg
  · rename_i msgs heq
    cases heq
    exact Json.inLine_of_mem h hmsg
  · rename_i heq
    cases heq
    cases List.mem_singleton.1 hmsg
    exact h

theorem Asked.message {es : List (SseEvent ρ)} (h : Asked es s) {a : SseAnswer} (ha : a ∈ s.log) :
    ∃ post, s.posts[a.post]? = some post ∧ a.msg ∈ SsePost.messages post.body := by
  obtain ⟨post, hpost, -⟩ := h.session a ha
  have hmem : a.msg ∈ s.answered a.post :=
    List.mem_map.2 ⟨a, List.mem_filter.2 ⟨ha, decide_eq_true rfl⟩, rfl⟩
  exact ⟨post, hpost, (h.order _ _ hpost).subset (List.mem_append_left _ hmem)⟩

/-- The responses are printed in one line, if what comes in is. -/
theorem inLine_responses {es : List (SseEvent ρ)} (hes : ∀ e ∈ es, e.inLine = true) :
    ∀ a ∈ (run es).log, a.response.inLine = true := by
  intro a ha
  obtain ⟨host, hdispatch, hresponse⟩ := (asked_run es).response a ha
  obtain ⟨post, hpost, hmsg⟩ := (asked_run es).message ha
  have hbody := hes _ ((asked_run es).came _ _ hpost)
  refine McpServer.inLine_dispatch (hes _ hdispatch) ?_ hresponse
  cases hb : post.body with
  | none =>
    rw [hb] at hmsg
    cases hmsg
  | some body =>
    rw [hb] at hmsg hbody
    exact inLine_messages hbody _ hmsg

theorem inLine_answers {es : List (SseEvent ρ)} (hes : ∀ e ∈ es, e.inLine = true) (k : ℕ) :
    ∀ r ∈ (run es).answers k, r.inLine = true := by
  intro r hr
  obtain ⟨a, ha, rfl⟩ := List.mem_map.1 hr
  exact inLine_responses hes a (List.mem_of_mem_filter ha)

/-- What a client will read in the texts that wait in a queue. -/
def waiting (queue : List (Option PyStr)) : List (List (PyStr × PyStr)) :=
  Sse.read queue.reduceOption.flatten

/-- **What a client reads**: the endpoint of its session, then the responses to what was posted to it, in their
order. In the loop of its GET nothing is lost: what it has not read is in the queue. -/
theorem client_reads {es : List (SseEvent ρ)} (hes : ∀ e ∈ es, e.inLine = true) {k : ℕ} {g : SseGet}
    (hg : (run es).gets[k]? = some g) :
    Sse.read g.got <+: Sse.endpointEvent g.sessionId :: ((run es).answers k).map Sse.messageEvent ∧
      (g.phase = .streaming → Sse.read g.got ++ waiting g.queue =
        Sse.endpointEvent g.sessionId :: ((run es).answers k).map Sse.messageEvent) := by
  have hserving := serving_run es
  have hfollows := hserving.follows k g hg
  have hsid : Json.OneLine g.sessionId := by
    rw [hserving.sessionId hg]
    refine Json.oneLine_py fun h => ?_
    rw [String.toList_append, List.mem_append] at h
    rcases h with h | h
    · exact absurd h (by decide)
    · exact Json.oneLine_digits (k + 1) (List.mem_map_of_mem h)
  have hlines := inLine_answers hes k
  refine ⟨?_, fun hphase => ?_⟩
  · rw [← Sse.read_stream hsid hlines]
    exact EventStream.decode_prefix hfollows.prefix
  · unfold Follows at hfollows
    simp only [hphase] at hfollows
    obtain ⟨sent, left, hframes, hqueue, hgot⟩ := hfollows
    -- the queued texts are those of the first responses, and of the others
    obtain ⟨first, rest, hanswers, rfl, rfl⟩ := List.map_eq_append_iff.1 hframes
    rw [hanswers, List.map_append, hqueue, hgot]
    have hfirst : ∀ r ∈ first, r.inLine = true := fun r hr =>
      hlines r (hanswers ▸ List.mem_append_left _ hr)
    have hrest : ∀ r ∈ rest, r.inLine = true := fun r hr =>
      hlines r (hanswers ▸ List.mem_append_right _ hr)
    have hqueued : ((rest.map Sse.messageFrame).map some).reduceOption = rest.map Sse.messageFrame := by
      show ((rest.map Sse.messageFrame).map some).filterMap id = _
      rw [List.filterMap_map]
      exact List.filterMap_some
    unfold waiting
    rw [Sse.read_stream hsid hfirst, hqueued, Sse.read_messages hrest]
    rfl

/-- A server without tools. -/
def bareHost : McpHost Unit where
  str _ := .ok []

/-- A request, and a notification. -/
def pingMessage : Json :=
  .obj [(py "jsonrpc", .str (py "2.0")), (py "id", .int 1), (py "method", .str (py "ping"))]

def noticeMessage : Json :=
  .obj [(py "jsonrpc", .str (py "2.0")), (py "method", .str (py "notifications/initialized"))]

/-- A client connects and posts a request; the response is written. -/
def pingEvents : List (SseEvent Unit) :=
  [.get, .register 0, .head 0 none, .post (some (py "s1")) (some pingMessage), .dispatch 0 (some bareHost),
    .take 0 none]

theorem client_reads_ping : ∃ g, (run pingEvents).gets[0]? = some g ∧ g.phase = .streaming ∧
    Sse.read g.got ++ waiting g.queue =
      Sse.endpointEvent g.sessionId :: ((run pingEvents).answers 0).map Sse.messageEvent :=
  ⟨_, rfl, rfl, (@client_reads _ pingEvents (by decide) 0 _ rfl).2 rfl⟩

/-- **Who gets a response**: the session that its POST has named. For each POST the answered messages are some
of its own, in their order, and each response is what the server makes of the message. -/
theorem answers_asked (es : List (SseEvent ρ)) :
    (∀ a ∈ (run es).log, ∃ post g, (run es).posts[a.post]? = some post ∧ (run es).gets[a.session]? = some g ∧
      SseEvent.post post.sessionId post.body ∈ es ∧ post.sessionId = some g.sessionId ∧
      ∃ host, SseEvent.dispatch a.post (some host) ∈ es ∧
        McpServer.dispatch host a.msg = .ok (some a.response)) ∧
      ∀ p post, (run es).posts[p]? = some post →
        ((run es).answered p).Sublist (SsePost.messages post.body) := by
  have hasked := asked_run es
  refine ⟨fun a ha => ?_, fun p post hpost => ?_⟩
  · obtain ⟨post, hpost, hk⟩ := hasked.session a ha
    obtain ⟨g, hg, hsid⟩ := (serving_run es).posts post (List.mem_of_getElem? hpost) _ hk
    exact ⟨post, g, hpost, hg, hasked.came _ _ hpost, hsid, hasked.response a ha⟩
  · exact (List.sublist_append_left _ _).trans (hasked.order p post hpost)

/-- A message that the loop of the stdio transport serves is dispatched to the same response, which can be
encoded. -/
theorem dispatch_of_serveMessage {host : McpHost ρ} {msg : Json} {response : Option Json}
    (hobj : msg.isObj = true) (h : McpServer.serveMessage host msg = .ok response) :
    McpServer.dispatch host msg = .ok response ∧ ∀ r ∈ response, r.encodable = true := by
  have hnull : msg.isNull = false := by
    cases msg with
    | obj kvs => rfl
    | _ => cases hobj
  unfold McpServer.serveMessage at h
  rw [hnull] at h
  simp only [Bool.false_eq_true, if_false] at h
  unfold McpServer.dispatch
  split at h
  · cases h
  · rename_i heq
    cases h
    exact ⟨by simp only [heq], by simp⟩
  · rename_i r heq
    split at h
    · rename_i hencodable
      cases h
      exact ⟨by simp only [heq], by simpa using hencodable⟩
    · cases h

/-- The loop of the stdio transport, for one message more. -/
theorem serve_cons {host : McpHost ρ} {msg : Json} {rest : List (McpHost ρ × Json)} {rs : List Json}
    (h : McpServer.serve ((host, msg) :: rest) = (rs, none)) :
    ∃ response rs', McpServer.serveMessage host msg = .ok response ∧ McpServer.serve rest = (rs', none) ∧
      rs = response.toList ++ rs' := by
  unfold McpServer.serve at h
  split at h
  · cases h
  · rename_i response hserve
    cases hrest : McpServer.serve rest with
    | mk rs' e =>
      simp only [hrest] at h
      cases h
      exact ⟨response, rs', hserve, rfl, rfl⟩

theorem dispatchAll_of_serve {host : McpHost ρ} {msgs : List Json} (hobj : ∀ m ∈ msgs, m.isObj = true)
    {rs : List Json} (h : McpServer.serve (msgs.map fun m => (host, m)) = (rs, none)) :
    McpServer.dispatchAll host msgs = .ok rs ∧ ∀ r ∈ rs, r.encodable = true := by
  induction msgs generalizing rs with
  | nil =>
    cases h
    exact ⟨rfl, by simp⟩
  | cons msg msgs ih =>
    obtain ⟨response, rs', hserve, hrest, rfl⟩ := serve_cons h
    obtain ⟨hmsg, hmsgs⟩ := List.forall_mem_cons.1 hobj
    obtain ⟨hdispatch, hresponse⟩ := dispatch_of_serveMessage hmsg hserve
    obtain ⟨hall, hencodable⟩ := ih hmsgs hrest
    refine ⟨by simp only [McpServer.dispatchAll, hmsg, if_true, hdispatch, hall], ?_⟩
    rw [List.forall_mem_append]
    exact ⟨fun r hr => hresponse r (Option.mem_toList.1 hr), hencodable⟩

/-- A dispatch of a POST queues the response, if there is one. -/
theorem answers_of_dispatch {host : McpHost ρ} {p k : ℕ} {msg : Json} {msgs : List Json}
    {response : Option Json} (hdispatch : McpServer.dispatch host msg = .ok response) {post : SsePost}
    (hpost : s.posts[p]? = some post) (hk : post.session = some k) (htodo : post.todo = msg :: msgs) :
    (s.dispatch p (some host)).answers k = s.answers k ++ response.toList ∧
      (s.dispatch p (some host)).posts[p]? = some { post with todo := msgs } := by
  have hset : (s.setTodo p msgs).posts[p]? = some { post with todo := msgs } := by
    rw [getElem?_setTodo, if_pos rfl, hpost]
    rfl
  obtain ⟨sessionId, body, session, todo⟩ := post
  simp only at hk htodo
  subst hk htodo
  unfold McpSse.dispatch
  simp only [hpost, hdispatch]
  cases response with
  | none => exact ⟨(List.append_nil _).symm, hset⟩
  | some response =>
    refine ⟨?_, hset⟩
    show ((s.log ++ [_]).filter _).map _ = _
    rw [List.filter_append, List.map_append]
    simp [answers]

/-- The dispatches of a POST, one after the other, queue the responses that stdio would send. -/
theorem answers_of_dispatches {host : McpHost ρ} {p k : ℕ} {msgs : List Json}
    (hobj : ∀ m ∈ msgs, m.isObj = true) {rs : List Json}
    (h : McpServer.serve (msgs.map fun m => (host, m)) = (rs, none)) {post : SsePost}
    (hpost : s.posts[p]? = some post) (hk : post.session = some k) (htodo : post.todo = msgs) :
    ((List.replicate msgs.length (SseEvent.dispatch p (some host))).foldl step s).answers k =
      s.answers k ++ rs := by
  induction msgs generalizing s rs post with
  | nil =>
    cases h
    exact (List.append_nil _).symm
  | cons msg msgs ih =>
    obtain ⟨response, rs', hserve, hrest, rfl⟩ := serve_cons h
    obtain ⟨hmsg, hmsgs⟩ := List.forall_mem_cons.1 hobj
    obtain ⟨hdispatch, -⟩ := dispatch_of_serveMessage hmsg hserve
    obtain ⟨hanswers, hafter⟩ := answers_of_dispatch hdispatch hpost hk htodo
    rw [List.length_cons, List.replicate_succ, List.foldl_cons]
    show ((List.replicate msgs.length (SseEvent.dispatch p (some host))).foldl step
      (s.dispatch p (some host))).answers k = _
    rw [ih hmsgs hrest hafter hk rfl, hanswers, List.append_assoc]

/-- **The transports agree**: a batch that the stdio transport serves to its end is answered with the same
responses over Streamable HTTP, and over the stream of any SSE session that the server knows. -/
theorem transports_agree (host : McpHost ρ) {msgs rs : List Json} (hobj : ∀ m ∈ msgs, m.isObj = true)
    (hserve : McpServer.serve (msgs.map fun m => (host, m)) = (rs, none)) (es : List (SseEvent ρ))
    {sid : PyStr} {k : ℕ} (hk : (run es).sessions.get? sid = some k) :
    McpServer.handlePostMessages host (.arr msgs) = .ok (200, some (.arr rs)) ∧
      (run (es ++ .post (some sid) (some (.arr msgs)) ::
        List.replicate msgs.length (.dispatch (run es).posts.length (some host)))).answers k =
          (run es).answers k ++ rs := by
  obtain ⟨hall, hencodable⟩ := dispatchAll_of_serve hobj hserve
  constructor
  · have hbody : (Json.arr rs).encodable = true := by
      have hlist : Json.encodableList rs = true := by
        clear hserve hall
        induction rs with
        | nil => rfl
        | cons r rs ih =>
          obtain ⟨hr, hrs⟩ := List.forall_mem_cons.1 hencodable
          rw [Json.encodableList, hr, ih hrs]
          rfl
      exact hlist
    simp only [McpServer.handlePostMessages, hall, McpServer.respondJson, hbody, if_true]
  · -- the id is not empty, and the POST finds the session
    obtain ⟨g, hg, rfl, -⟩ := ((serving_run es).known sid k).1 hk
    have hsid : g.sessionId ≠ [] := by
      rw [(serving_run es).sessionId hg]
      unfold newSessionId py
      rw [String.toList_append]
      simp
    have hpost : ((run es).post (some g.sessionId) (some (.arr msgs))).posts[(run es).posts.length]? =
        some { sessionId := some g.sessionId, body := some (.arr msgs), session := some k, todo := msgs } := by
      show ((run es).posts ++ [_])[_]? = _
      rw [List.getElem?_concat_length]
      simp [hsid, hk, Option.filter, SsePost.messages]
    unfold run at hpost hk ⊢
    rw [List.foldl_append, List.foldl_cons]
    exact answers_of_dispatches hobj hserve hpost rfl rfl

theorem transports_agree_batch : ∃ rs,
    McpServer.handlePostMessages bareHost (.arr [pingMessage, noticeMessage, pingMessage]) =
      .ok (200, some (.arr rs)) ∧
    (run (pingEvents ++ .post (some (py "s1")) (some (.arr [pingMessage, noticeMessage, pingMessage])) ::
      List.replicate 3 (.dispatch 1 (some bareHost)))).answers 0 = (run pingEvents).answers 0 ++ rs :=
  ⟨_, @transports_agree _ bareHost [pingMessage, noticeMessage, pingMessage] _ (by decide) rfl pingEvents _ _ rfl⟩

end McpSse

end Hermes

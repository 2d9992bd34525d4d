import Hermes.Proof.Resumption
import Hermes.Proof.StoredEntities

/-!
# What a durable replay gives

* `Framed`: a frame that ends with a blank line and has the number of its call as its id.
* `Pushed`, `pushAll_pushed`: what calls queue and save, one row for each of them.
* `framed_iff`: the texts for which `push_event` renders such a frame.
* `durable_iff`: all that is queued and saved is framed, and a replay gives what was pushed from a number
  on, just when each text that has an id of its own has the right one, and ends its line.
-/

namespace Hermes

open Backlog

/-- The frame ends with a blank line, and has the number as its id. -/
structure Framed (U : Unicode) (seq : ℕ) (frame : PyStr) : Prop where
  ended : py "\n\n" <:+ frame
  named : py "id:" <+: frame
  key : frameKey U frame = some (seq : ℤ)

/-- A text that has an id: it is the number of the call, on a line of its own. -/
def OwnId (U : Unicode) (seq : ℕ) (data : PyStr) : Prop :=
  py "id:" <+: data → py "\n" <:+ data ∧ frameKey U data = some (seq : ℤ)

/-! ## One text -/

theorem render_ended (seq : ℕ) {data : PyStr} (hdata : ¬ py "id:" <+: data) :
    py "\n\n" <:+ renderFrame seq data := by
  have htwo : py "\n\n" = py "\n" ++ py "\n" := by decide
  unfold renderFrame
  rw [if_neg hdata]
  simp only
  split
  · assumption
  · split
    · rename_i hline
      obtain ⟨before, hbefore⟩ := hline
      exact ⟨before, by rw [← hbefore, htwo, List.append_assoc]⟩
    · exact List.suffix_append _ _

theorem render_named (seq : ℕ) {data : PyStr} (hdata : ¬ py "id:" <+: data) :
    py "id:" <+: renderFrame seq data := by
  obtain ⟨rest, hrest⟩ := renderFrame_eq seq hdata
  have hid : py "id:" = py "id" ++ [.char ':'] := by decide
  rw [hrest, hid]
  exact ⟨_, by rw [List.append_assoc, List.singleton_append]⟩

/-- A text that ends a line is still keyed by its first line when another line end is put behind it. -/
theorem frameKey_append (U : Unicode) {data : PyStr} (hid : py "id:" <+: data)
    (hline : py "\n" <:+ data) (rest : PyStr) : frameKey U (data ++ rest) = frameKey U data := by
  obtain ⟨after, rfl⟩ := hid
  have hname : py "id:" = py "id" ++ [.char ':'] := by decide
  have hcolon : .char ':' ∉ py "id" := by decide
  have hnewline : .char '\n' ∈ after := by
    obtain ⟨before, hbefore⟩ := hline
    have hlast : .char '\n' ∈ py "id:" ++ after := by
      rw [← hbefore]
      exact List.mem_append_right _ (by decide)
    rcases List.mem_append.1 hlast with h | h
    · exact absurd h (by decide)
    · exact h
  obtain ⟨first, last, rfl, hfirst⟩ := List.eq_append_cons_of_mem hnewline
  have hcut : ∀ more : PyStr, frameKey U (py "id:" ++ (first ++ .char '\n' :: last) ++ more) =
      PyStr.int U first := by
    intro more
    have htext : py "id:" ++ (first ++ .char '\n' :: last) ++ more =
        py "id" ++ .char ':' :: (first ++ .char '\n' :: (last ++ more)) := by
      rw [hname]
      simp
    unfold frameKey
    rw [htext]
    simp only [PyStr.partition_cut hcolon, PyStr.partition_cut hfirst]
  have hself := hcut []
  rw [List.append_nil] at hself
  rw [hcut, hself]

/-- **The texts that are framed.** -/
theorem framed_iff (U : Unicode) (seq : ℕ) (data : PyStr) :
    Framed U seq (renderFrame seq data) ↔ OwnId U seq data := by
  have htwo : py "\n\n" = py "\n" ++ py "\n" := by decide
  by_cases hid : py "id:" <+: data
  · have hrender : renderFrame seq data =
        if py "\n\n" <:+ data then data else data ++ py "\n" := if_pos hid
    have hline : py "\n\n" <:+ renderFrame seq data ↔ py "\n" <:+ data := by
      rw [hrender]
      split
      · rename_i hends
        exact ⟨fun _ => (List.suffix_append (py "\n") (py "\n")).trans (htwo ▸ hends), fun _ => hends⟩
      · rw [htwo, List.suffix_append_inj_of_length_eq rfl]
        exact ⟨And.left, fun h => ⟨h, rfl⟩⟩
    have hkey : py "\n" <:+ data → frameKey U (renderFrame seq data) = frameKey U data := by
      intro hends
      rw [hrender]
      split
      · rfl
      · exact frameKey_append U hid hends _
    constructor
    · intro h _
      have hends := hline.1 h.ended
      exact ⟨hends, (hkey hends).symm.trans h.key⟩
    · intro h
      obtain ⟨hends, hnumber⟩ := h hid
      refine ⟨hline.2 hends, ?_, (hkey hends).trans hnumber⟩
      rw [hrender]
      split
      · exact hid
      · exact hid.trans (List.prefix_append _ _)
  · refine iff_of_true ⟨render_ended seq hid, render_named seq hid, frameKey_render U seq hid⟩ ?_
    exact fun h => absurd h hid

/-! ## Calls, one after the other -/

namespace DurableSession

variable {δ : Type} {ids : IdSource String} {J : EventJson δ} {U : Unicode}
  {s s' : DurableSession δ} {texts : List PyStr} {seqs : List ℕ} {rows : List McpSessionEvent}

/-- What the calls have queued and saved: a row for each text. -/
structure Pushed (J : EventJson δ) (s s' : DurableSession δ) (texts : List PyStr) (seqs : List ℕ)
    (rows : List McpSessionEvent) : Prop where
  session : s'.sessionId = s.sessionId
  seqs : seqs = rows.map (·.seq)
  events : s'.events = s.events ++ rows.map (·.sseData)
  entities : s'.persistence.entities.values =
    s.persistence.entities.values ++ rows.map (PersistenceRegistry.row J.codec)
  workspace : ∀ r ∈ rows, r.workspaceId = s.workspaceId
  numbers : rows.map (·.seq) = List.range' (s.seq + 1) texts.length
  frames : List.Forall₂ (fun data r => r.sseData = renderFrame r.seq data) texts rows

variable (ids J) in
/-- One call: a row is queued and saved. -/
theorem pushEvent_pushed (s : DurableSession δ) (data : PyStr) :
    ∃ r, Pushed J s (s.pushEvent ids J data).2 [data] [(s.pushEvent ids J data).1] [r] := by
  let r : McpSessionEvent :=
    { id := ids.next s.persistence.entities.keys, workspaceId := s.workspaceId
      sessionId := s.sessionId, seq := s.seq + 1, sseData := renderFrame (s.seq + 1) data }
  refine ⟨r, rfl, rfl, rfl, ?_, ?_, rfl, .cons rfl .nil⟩
  · have hnew : s.persistence.entities.get? r.id = none :=
      Index.get?_eq_none_iff.2 (ids.not_mem _)
    exact Index.values_put_new hnew
  · intro r' hr'
    rw [List.mem_singleton.1 hr']

variable (ids J) in
/-- **Calls one by one**: each adds its row. -/
theorem pushAll_pushed (texts : List PyStr) : ∀ s : DurableSession δ,
    ∃ rows, Pushed J s (s.pushAll ids J texts).2 texts (s.pushAll ids J texts).1 rows := by
  induction texts with
  | nil =>
    intro s
    exact ⟨[], rfl, rfl, (List.append_nil _).symm, (List.append_nil _).symm, nofun, rfl, .nil⟩
  | cons data texts ih =>
    intro s
    obtain ⟨r, hr⟩ := pushEvent_pushed ids J s data
    obtain ⟨rows, hrows⟩ := ih (s.pushEvent ids J data).2
    refine ⟨r :: rows, ?_, ?_, ?_, ?_, ?_, ?_, ?_⟩
    · exact hrows.session.trans hr.session
    · exact congrArg₂ List.cons (List.cons.inj hr.seqs).1 hrows.seqs
    · exact hrows.events.trans (by rw [hr.events, List.append_assoc]; rfl)
    · exact hrows.entities.trans (by rw [hr.entities, List.append_assoc]; rfl)
    · rw [List.forall_mem_cons]
      refine ⟨hr.workspace r (List.mem_singleton.2 rfl), fun r' hr' => ?_⟩
      exact (hrows.workspace r' hr').trans (congrArg ("mcp:" ++ ·) hr.session)
    · have hfirst : r.seq = s.seq + 1 := (List.cons.inj hr.numbers).1
      rw [List.map_cons, hfirst, hrows.numbers]
      exact List.range'_succ.symm
    · have hframe := hr.frames
      rw [List.forall₂_cons] at hframe
      exact .cons hframe.1 hrows.frames

/-! ## What is replayed -/

/-- **The rows of the session**: those of the calls, in the order of their ids. -/
theorem Pushed.saved (h : Pushed J s s' texts seqs rows)
    (hnew : s.persistence.rowsOf s.workspaceId = []) :
    ∃ found, s'.saved J = .ok found ∧ found.Perm rows := by
  have hname : s'.workspaceId = s.workspaceId := congrArg ("mcp:" ++ ·) h.session
  have hrows : s'.persistence.rowsOf s'.workspaceId =
      rows.map (PersistenceRegistry.row J.codec) := by
    unfold PersistenceRegistry.rowsOf at hnew ⊢
    rw [hname, h.entities, List.filter_append, hnew, List.nil_append]
    refine List.filter_eq_self.2 fun row hrow => ?_
    obtain ⟨r, hr, rfl⟩ := List.mem_map.1 hrow
    exact decide_eq_true (h.workspace r hr)
  have htyped : (s'.persistence.rowsOf s'.workspaceId).filter
      (fun row => row.type = "McpSessionEvent") = rows.map (PersistenceRegistry.row J.codec) := by
    rw [hrows]
    refine List.filter_eq_self.2 fun row hrow => ?_
    obtain ⟨r, -, rfl⟩ := List.mem_map.1 hrow
    exact decide_eq_true rfl
  have hsort := List.map_mergeSort (r := fun a b : McpSessionEvent => decide (a.id ≤ b.id))
    (s := fun a b : EntityRow δ => decide (a.id ≤ b.id)) (f := PersistenceRegistry.row J.codec)
    (l := rows) (fun _ _ _ _ => rfl)
  have htruthy : truthy (some "McpSessionEvent") = some "McpSessionEvent" := rfl
  have hread : ∀ e, J.codec.rehydrate (J.codec.type e) (J.codec.dump e) = .ok e := J.validate_dump
  refine ⟨_, ?_, List.mergeSort_perm rows fun a b => decide (a.id ≤ b.id)⟩
  unfold DurableSession.saved PersistenceRegistry.list
  simp only [htruthy]
  rw [htyped, ← hsort]
  exact PersistenceRegistry.mapM_rehydrate hread _

/-- **A replay** of rows whose frames have their numbers as ids. -/
theorem Pushed.replay (h : Pushed J s s' texts seqs rows)
    (hnew : s.persistence.rowsOf s.workspaceId = [])
    (hkey : ∀ r ∈ rows, frameKey U r.sseData = some (r.seq : ℤ)) (n : ℤ) :
    s'.replaySince J U n = some ((rows.filter fun r => n < r.seq).map (·.sseData)) := by
  obtain ⟨found, hfound, hperm⟩ := h.saved hnew
  have hframes : ((found.filter fun r => n < r.seq).map (·.sseData)).Perm
      ((rows.filter fun r => n < r.seq).map (·.sseData)) := (hperm.filter _).map _
  have hincreasing : rows.Pairwise fun a b => a.seq < b.seq := by
    rw [← List.pairwise_map, h.numbers]
    exact List.pairwise_lt_range'
  have hranked : ((rows.filter fun r => n < r.seq).map (·.sseData)).Pairwise
      fun f g => (frameKey U f).getD 0 < (frameKey U g).getD 0 := by
    rw [List.pairwise_map]
    refine (hincreasing.filter _).imp_of_mem fun {a b} ha hb hlt => ?_
    rw [hkey a (List.mem_of_mem_filter ha), hkey b (List.mem_of_mem_filter hb)]
    exact Int.ofNat_lt.2 hlt
  have hread : ((found.filter fun r => n < r.seq).map (·.sseData)).all
      fun f => (frameKey U f).isSome := by
    refine List.all_eq_true.2 fun f hf => ?_
    obtain ⟨r, hr, rfl⟩ := List.mem_map.1 hf
    rw [hkey r (hperm.subset (List.mem_of_mem_filter hr))]
    rfl
  unfold DurableSession.replaySince
  rw [hfound]
  simp only
  rw [if_pos hread, insertionSort_eq (fun f => (frameKey U f).getD 0) hframes hranked]

/-- What is queued is framed, what is saved is what is queued, and a replay gives the frames of the
calls above a number, in the order of the calls. -/
structure Durable (J : EventJson δ) (U : Unicode) (seqs : List ℕ) (s : DurableSession δ) : Prop where
  queued : List.Forall₂ (Framed U) seqs s.events
  saved : ∃ rows, s.saved J = .ok rows ∧
    ∀ r ∈ rows, Framed U r.seq r.sseData ∧ (r.seq, r.sseData) ∈ seqs.zip s.events
  replayed : ∀ n : ℤ, s.replaySince J U n =
    some (((seqs.zip s.events).filter fun call => n < call.1).map Prod.snd)

theorem Pushed.zip_eq (h : Pushed J s s' texts seqs rows) (hevents : s.events = []) :
    seqs.zip s'.events = rows.map fun r => (r.seq, r.sseData) := by
  rw [h.seqs, h.events, hevents, List.nil_append, List.zip_map']

/-- The frame of each call is as its text has it. -/
theorem Pushed.framed_iff (h : Pushed J s s' texts seqs rows) :
    (∀ r ∈ rows, Framed U r.seq r.sseData) ↔
      ∀ k data, texts[k]? = some data → OwnId U (s.seq + 1 + k) data := by
  have hlength : texts.length = rows.length := h.frames.length_eq
  have hnumber : ∀ k (hk : k < rows.length), rows[k].seq = s.seq + 1 + k := by
    intro k hk
    have hk' : k < (rows.map (·.seq)).length := by rwa [List.length_map]
    have hmap : (rows.map (·.seq))[k] = s.seq + 1 + 1 * k := by
      simp only [h.numbers, List.getElem_range']
    rwa [List.getElem_map, Nat.one_mul] at hmap
  have hframe : ∀ k (hk : k < rows.length) (hk' : k < texts.length),
      rows[k].sseData = renderFrame rows[k].seq texts[k] := by
    intro k hk hk'
    exact h.frames.get hk' hk
  constructor
  · intro hall k data hdata
    obtain ⟨hk', rfl⟩ := List.getElem?_eq_some_iff.1 hdata
    have hk : k < rows.length := hlength ▸ hk'
    have hr := hall _ (List.getElem_mem hk)
    rw [hframe k hk hk', Hermes.framed_iff, hnumber k hk] at hr
    exact hr
  · intro hall r hr
    obtain ⟨k, hk, rfl⟩ := List.mem_iff_getElem.1 hr
    have hk' : k < texts.length := hlength ▸ hk
    rw [hframe k hk hk', Hermes.framed_iff, hnumber k hk]
    exact hall k _ (List.getElem?_eq_getElem hk')

/-- **Durable replay**, on a new session. -/
theorem durable_iff (ids : IdSource String) (J : EventJson δ) (U : Unicode) (sessionId : String)
    (persistence : PersistenceRegistry δ) (hnew : persistence.rowsOf ("mcp:" ++ sessionId) = [])
    (texts : List PyStr) :
    Durable J U (pushAll ids J texts { sessionId, persistence }).1
        (pushAll ids J texts { sessionId, persistence }).2 ↔
      ∀ k data, texts[k]? = some data → OwnId U (k + 1) data := by
  obtain ⟨rows, h⟩ := pushAll_pushed ids J texts { sessionId, persistence }
  have hzip := h.zip_eq rfl
  have hown : (∀ r ∈ rows, Framed U r.seq r.sseData) ↔
      ∀ k data, texts[k]? = some data → OwnId U (k + 1) data := by
    rw [h.framed_iff]
    simp only [Nat.zero_add, Nat.add_comm 1]
  rw [← hown]
  constructor
  · intro hdurable r hr
    have hqueued := List.forall₂_iff_zip.1 hdurable.queued
    refine hqueued.2 ?_
    rw [hzip]
    exact List.mem_map_of_mem hr
  · intro hframed
    obtain ⟨found, hfound, hperm⟩ := h.saved hnew
    refine ⟨?_, ⟨found, hfound, fun r hr => ⟨hframed r (hperm.subset hr), ?_⟩⟩, fun n => ?_⟩
    · rw [h.seqs, h.events, List.nil_append, List.forall₂_map_left_iff, List.forall₂_map_right_iff]
      exact List.forall₂_same.2 hframed
    · rw [hzip]
      exact List.mem_map_of_mem (hperm.subset hr)
    · rw [h.replay hnew (fun r hr => (hframed r hr).key) n, hzip, List.filter_map, List.map_map]
      rfl

/-- A codec that keeps the rows as they are. -/
def plainJson : EventJson McpSessionEvent where
  dump e := e
  validate e := .ok e
  validate_dump _ := rfl

def newSession : DurableSession McpSessionEvent where
  sessionId := "s"
  persistence := { shared := true }

/-- A text that names its own id, and does not end its last line. -/
theorem not_durable_named :
    ¬ Durable plainJson McpServer.asciiTables
        (pushAll IdSource.longer plainJson [py "id: 7\ndata: x"] newSession).1
        (pushAll IdSource.longer plainJson [py "id: 7\ndata: x"] newSession).2 := by
  intro h
  have hframe := (List.forall₂_cons.1 h.queued).1
  have hkey : frameKey McpServer.asciiTables (renderFrame 1 (py "id: 7\ndata: x")) = some 7 := by decide
  have hid : some (7 : ℤ) = some 1 := hkey.symm.trans hframe.key
  exact absurd hid (by decide)

theorem durable_plain :
    Durable plainJson McpServer.asciiTables
      (pushAll IdSource.longer plainJson [py "data: a", py "id: 2\ndata: b\n"] newSession).1
      (pushAll IdSource.longer plainJson [py "data: a", py "id: 2\ndata: b\n"] newSession).2 := by
  refine (durable_iff IdSource.longer plainJson McpServer.asciiTables "s" { shared := true } rfl _).2 ?_
  intro k data hdata
  match k with
  | 0 =>
    obtain rfl := Option.some.inj hdata
    exact fun hid => absurd hid (by decide)
  | 1 =>
    obtain rfl := Option.some.inj hdata
    exact fun _ => ⟨by decide, by decide⟩

end DurableSession

end Hermes

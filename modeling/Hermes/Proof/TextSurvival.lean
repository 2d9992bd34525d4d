import Hermes.Lib.Windows
import Hermes.Spec.KnowledgePipeline
import Hermes.Proof.GraphEdges

/-!
# Chunks lose nothing

The chunks of a document are what sliding windows show of it.

* `spans_sliding`: the loop of `chunk` makes sliding windows.
* `Lossless`: what the chunks of a text are.
* `chunk_lossless`: for every text, size and overlap that the constructor takes.
-/

namespace Hermes

namespace DocumentChunker

open Windows

variable {c : DocumentChunker}

/-- **The loop** makes sliding windows, up to the end. -/
theorem spans_sliding (n start : ℕ) (hstart : start < n) :
    Sliding c.chunkSize c.overlap n start (c.spans n start) := by
  fun_induction DocumentChunker.spans c n start with
  | case1 start hlt stop hend =>
    have hstop : stop = n := le_antisymm (min_le_right _ _) hend
    rw [hstop]
    exact .last hlt (hstop ▸ min_le_left _ _)
  | case2 start hlt stop hmore ih =>
    have hstop : stop = start + c.chunkSize := by omega
    rw [hstop]
    exact .next (by omega) (ih (by have hover := c.lt; omega))
  | case3 start hge => exact absurd hstart hge

theorem spans_empty (start : ℕ) : c.spans 0 start = [] := by
  unfold DocumentChunker.spans
  exact dif_neg (Nat.not_lt_zero start)

/-- The chunks, as what their windows show. -/
theorem chunksAt_eq (ids : IdSource String) (content sourcePath workspaceId : String)
    (spans : List (ℕ × ℕ)) (issued : List String) :
    let chunks := (chunksAt ids content sourcePath workspaceId spans issued).1
    chunks.map (fun chunk => (chunk.start, chunk.stop)) = spans ∧
      ∀ chunk ∈ chunks, chunk.text.toList = Windows.slice content.toList (chunk.start, chunk.stop) ∧
        chunk.documentId = sourcePath ∧ chunk.workspaceId = workspaceId := by
  induction spans generalizing issued with
  | nil => exact ⟨rfl, nofun⟩
  | cons span spans ih =>
    obtain ⟨hspans, htexts⟩ := ih (ids.next issued :: issued)
    refine ⟨congrArg (span :: ·) hspans, fun chunk hchunk => ?_⟩
    rcases List.mem_cons.1 hchunk with rfl | hchunk
    · exact ⟨String.toList_ofList, rfl, rfl⟩
    · exact htexts chunk hchunk

/-- The chunks of a text. Each is a part of it, of full size but for the last one; so much of each is
at the beginning of the next one; the last one ends with the text and is no part of those before;
together they are the text, and there is none only if it is empty. -/
structure Lossless (size overlap : ℕ) (content : String) (chunks : List DocumentChunk) : Prop where
  text : ∀ chunk ∈ chunks, chunk.start < chunk.stop ∧ chunk.stop ≤ content.toList.length ∧
    chunk.text.toList = (content.toList.take chunk.stop).drop chunk.start
  full : ∀ before chunk following later, chunks = before ++ chunk :: following :: later →
    chunk.text.toList.length = size
  shared : ∀ before chunk following later, chunks = before ++ chunk :: following :: later →
    chunk.stop = following.start + overlap
  last : ∀ before chunk, chunks = before ++ [chunk] → chunk.stop = content.toList.length ∧
    ∀ earlier ∈ before, earlier.stop < chunk.stop
  whole : join overlap (chunks.map fun chunk => chunk.text.toList) = content.toList
  empty : chunks = [] ↔ content.toList = []

/-- **The chunks of a text lose nothing**, for every size above 0 and every overlap below it. -/
theorem chunk_lossless {chunkSize overlap : ℤ} (hsize : 0 < chunkSize) (hoverlap : 0 ≤ overlap)
    (hlt : overlap < chunkSize) (ids : IdSource String)
    (content sourcePath workspaceId : String) (issued : List String) :
    ∃ c, make chunkSize overlap = .ok c ∧ Lossless chunkSize.toNat overlap.toNat content
      (c.chunk ids content sourcePath workspaceId issued).1 := by
  have hnot : ¬ (overlap < 0 ∨ chunkSize ≤ overlap) := by omega
  refine ⟨_, by unfold make; rw [dif_neg (not_le.2 hsize), dif_neg hnot], ?_⟩
  set c : DocumentChunker :=
    { chunkSize := chunkSize.toNat, overlap := overlap.toNat, pos := by omega, lt := by omega }
    with hc
  obtain ⟨hspans, htexts⟩ := chunksAt_eq ids content sourcePath workspaceId
    (c.spans content.toList.length 0) issued
  have hover : overlap.toNat < chunkSize.toNat := c.lt
  unfold chunk
  generalize (chunksAt ids content sourcePath workspaceId (c.spans content.toList.length 0)
    issued).1 = chunks at hspans htexts
  by_cases hempty : content.toList.length = 0
  · rw [hempty, spans_empty, List.map_eq_nil_iff] at hspans
    have hnil := List.length_eq_zero_iff.1 hempty
    subst hspans
    exact ⟨nofun, by simp, by simp, by simp, by rw [hnil]; rfl, iff_of_true rfl hnil⟩
  · have hsliding : Sliding chunkSize.toNat overlap.toNat content.toList.length 0
        (chunks.map fun chunk => (chunk.start, chunk.stop)) :=
      hspans ▸ spans_sliding (c := c) _ _ (Nat.pos_of_ne_zero hempty)
    have hmem : ∀ chunk ∈ chunks, chunk.start < chunk.stop ∧
        chunk.stop ≤ content.toList.length := fun chunk hchunk =>
      hsliding.mem (Nat.zero_lt_of_lt hover) _
        (List.mem_map_of_mem (f := fun chunk => (chunk.start, chunk.stop)) hchunk)
    have hpair : ∀ before chunk following later, chunks = before ++ chunk :: following :: later →
        chunk.stop = chunk.start + chunkSize.toNat ∧ chunk.stop = following.start + overlap.toNat := by
      rintro before chunk following later rfl
      simp only [List.map_append, List.map_cons] at hsliding
      obtain ⟨hfull, hshared, -⟩ := hsliding.next_window hover rfl
      exact ⟨hfull, hshared⟩
    refine ⟨fun chunk hchunk => ?_, ?_, ?_, ?_, ?_, ?_⟩
    · obtain ⟨hstart, hstop⟩ := hmem chunk hchunk
      refine ⟨hstart, hstop, ?_⟩
      rw [(htexts chunk hchunk).1, List.drop_take]
      rfl
    · intro before chunk following later hchunks
      have hin : chunk ∈ chunks := by rw [hchunks]; simp
      rw [(htexts chunk hin).1, length_slice (hmem chunk hin).2]
      have hfull := (hpair before chunk following later hchunks).1
      show chunk.stop - chunk.start = _
      omega
    · exact fun before chunk following later hchunks =>
        (hpair before chunk following later hchunks).2
    · rintro before chunk rfl
      simp only [List.map_append, List.map_cons, List.map_nil] at hsliding
      obtain ⟨hend, hbefore⟩ := hsliding.last_window rfl
      refine ⟨hend, fun earlier hearlier => ?_⟩
      exact lt_of_lt_of_eq (hbefore _ (List.mem_map_of_mem
        (f := fun chunk => (chunk.start, chunk.stop)) hearlier)) hend.symm
    · have htext : (chunks.map fun chunk => chunk.text.toList) =
          (chunks.map fun chunk => (chunk.start, chunk.stop)).map
            (Windows.slice content.toList) := by
        rw [List.map_map]
        exact List.map_congr_left fun chunk hchunk => (htexts chunk hchunk).1
      rw [htext, hsliding.joined hover, List.drop_zero]
    · refine iff_of_false ?_ fun hnil => hempty (by rw [hnil]; rfl)
      rintro rfl
      cases hsliding

/-- Chunks of four characters, one of them shared. -/
theorem chunk_lossless_seven : ∃ c, make 4 1 = .ok c ∧
    Lossless (4 : ℤ).toNat (1 : ℤ).toNat "abcdefg" (c.chunk IdSource.longer "abcdefg" "doc" "ws" []).1 :=
  chunk_lossless (by decide) (by decide) (by decide) IdSource.longer "abcdefg" "doc" "ws" []

end DocumentChunker

/-!
## What of a chunk reaches the graph

The embedder publishes the id, the vector and the workspace of a chunk. Its text and its path are not
among them, and the graph takes the empty text for both.

* `AfterParsing`: what waits, and what was made, once the document is in chunks.
* `embeddings_survive`: the vectors and the workspaces reach the graph, one node for each chunk.
* `text_survives_iff`: when the texts do.
-/

namespace Pipeline

variable {E S δ : Type} [LinearOrder S] {P : PipelineSetup E S δ} {s : Pipeline E S}
  {content path workspaceId : String}

/-! ## What the handlers publish -/

/-- An event of a chunk. -/
inductive Carries (embed : String → E) (path workspaceId : String) :
    PipelineEvent E → DocumentChunk → Prop where
  | created (chunk : DocumentChunk) :
      Carries embed path workspaceId (DocumentChunker.created chunk path workspaceId) chunk
  | embedded (chunk : DocumentChunk) :
      Carries embed path workspaceId (embedderOnChunk embed
        (DocumentChunker.created chunk path workspaceId).payload) chunk

omit [LinearOrder S] in
/-- **What the graph makes of it**: the text and the path are empty. -/
theorem chunkOfEmbedded_payload (ids : IdSource String) (embed : String → E)
    (chunk : DocumentChunk) (path workspaceId : String) (issued : List String) :
    ∃ id, chunkOfEmbedded ids (embedderOnChunk embed
        (DocumentChunker.created chunk path workspaceId).payload).payload issued =
      some (⟨id, "", "", some (embed chunk.text), workspaceId⟩, ids.next issued :: issued) :=
  ⟨_, rfl⟩

/-! ## Once the document is in chunks -/

/-- The chunks of the document are there; each of them waits in an event, or was made into a node that
has its vector and the workspace, and an empty text and path. -/
structure AfterParsing (P : PipelineSetup E S δ) (content path workspaceId : String)
    (s : Pipeline E S) : Prop where
  chunks : ∃ issued, s.chunks = (P.chunker.chunk P.graph.ids content path workspaceId issued).1
  pending : ∃ waiting done : List DocumentChunk, (waiting ++ done).Perm s.chunks ∧
    List.Forall₂ (Carries P.embed path workspaceId)
      (s.pending.filter fun e => e.type ≠ "graph.updated") waiting ∧
    s.made.map (fun n => (n.embedding, n.workspaceId)) =
      done.map fun chunk => (P.embed chunk.text, workspaceId)
  made : ∀ n ∈ s.made, n.text = "" ∧ n.documentId = ""

/-- The events other than `graph.updated`. -/
def chunkEvents (es : List (PipelineEvent E)) : List (PipelineEvent E) :=
  es.filter fun e => e.type ≠ "graph.updated"

omit [LinearOrder S] in
/-- An event that is delivered leaves the others. -/
theorem chunkEvents_eraseIdx {es : List (PipelineEvent E)} {n : ℕ} {e : PipelineEvent E}
    (h : es[n]? = some e) : (chunkEvents (e :: es.eraseIdx n)).Perm (chunkEvents es) := by
  obtain ⟨hlt, rfl⟩ := List.getElem?_eq_some_iff.1 h
  exact (List.getElem_cons_eraseIdx_perm hlt).filter _

/-- One chunk is on its way to a subscriber, and the others wait. -/
structure Delivering (P : PipelineSetup E S δ) (content path workspaceId : String)
    (s : Pipeline E S) (chunk : DocumentChunk) : Prop where
  chunks : ∃ issued, s.chunks = (P.chunker.chunk P.graph.ids content path workspaceId issued).1
  pending : ∃ rest done : List DocumentChunk, ((chunk :: rest) ++ done).Perm s.chunks ∧
    List.Forall₂ (Carries P.embed path workspaceId) (chunkEvents s.pending) rest ∧
    s.made.map (fun n => (n.embedding, n.workspaceId)) =
      done.map fun chunk => (P.embed chunk.text, workspaceId)
  made : ∀ n ∈ s.made, n.text = "" ∧ n.documentId = ""

omit [LinearOrder S] in
/-- The event that is taken carries a chunk. -/
theorem AfterParsing.taken (h : AfterParsing P content path workspaceId s) {n : ℕ}
    {e : PipelineEvent E} (hn : s.pending[n]? = some e) (htype : e.type ≠ "graph.updated") :
    ∃ chunk, Carries P.embed path workspaceId e chunk ∧
      Delivering P content path workspaceId { s with pending := s.pending.eraseIdx n } chunk := by
  obtain ⟨hchunks, ⟨waiting, done, hperm, hcarries, hdone⟩, hmade⟩ := h
  have herase := chunkEvents_eraseIdx hn
  have hkeep : chunkEvents (e :: s.pending.eraseIdx n) = e :: chunkEvents (s.pending.eraseIdx n) := by
    simp [chunkEvents, htype]
  rw [hkeep] at herase
  obtain ⟨waiting', hcarries', hperm'⟩ := List.perm_comp_forall₂ herase hcarries
  cases hcarries' with
  | @cons _ chunk _ rest hchunk hrest =>
    exact ⟨chunk, hchunk, hchunks,
      ⟨rest, done, (hperm'.append_right done).trans hperm, hrest, hdone⟩, hmade⟩

/-- Nobody subscribes to `graph.updated`. -/
theorem AfterParsing.updated (h : AfterParsing P content path workspaceId s) {n : ℕ}
    {e : PipelineEvent E} (hn : s.pending[n]? = some e) (htype : e.type = "graph.updated") :
    AfterParsing P content path workspaceId
      (deliver P { s with pending := s.pending.eraseIdx n } e) := by
  obtain ⟨hchunks, ⟨waiting, done, hperm, hcarries, hdone⟩, hmade⟩ := h
  have hdeliver : deliver P { s with pending := s.pending.eraseIdx n } e =
      { s with pending := s.pending.eraseIdx n } := by
    simp [deliver, htype]
  have herase := chunkEvents_eraseIdx hn
  have hskip : chunkEvents (e :: s.pending.eraseIdx n) = chunkEvents (s.pending.eraseIdx n) := by
    simp [chunkEvents, htype]
  rw [hskip] at herase
  obtain ⟨waiting', hcarries', hperm'⟩ := List.perm_comp_forall₂ herase hcarries
  rw [hdeliver]
  exact ⟨hchunks, ⟨waiting', done, (hperm'.append_right done).trans hperm, hcarries', hdone⟩, hmade⟩

/-- The embedder passes the chunk on. -/
theorem Delivering.created {chunk : DocumentChunk}
    (h : Delivering P content path workspaceId s chunk) :
    AfterParsing P content path workspaceId
      (deliver P s (DocumentChunker.created chunk path workspaceId)) := by
  obtain ⟨hchunks, ⟨rest, done, hall, hrest, hdone⟩, hmade⟩ := h
  refine ⟨hchunks, ⟨rest ++ [chunk], done, ?_, ?_, hdone⟩, hmade⟩
  · refine List.Perm.trans ?_ hall
    exact (List.perm_append_singleton chunk rest).append_right done
  · show List.Forall₂ _ (chunkEvents (s.pending ++ [_])) _
    unfold chunkEvents at hrest ⊢
    rw [List.filter_append]
    exact List.rel_append hrest (.cons (.embedded chunk) .nil)

/-- The graph makes a node for the chunk, without its text. -/
theorem Delivering.embedded {chunk : DocumentChunk}
    (h : Delivering P content path workspaceId s chunk) :
    AfterParsing P content path workspaceId (deliver P s
      (embedderOnChunk P.embed (DocumentChunker.created chunk path workspaceId).payload)) := by
  obtain ⟨hchunks, ⟨rest, done, hall, hrest, hdone⟩, hmade⟩ := h
  obtain ⟨id, hof⟩ :=
    chunkOfEmbedded_payload P.graph.ids P.embed chunk path workspaceId s.issued
  have hdeliver : deliver P s
      (embedderOnChunk P.embed (DocumentChunker.created chunk path workspaceId).payload) =
      onEmbedded P s
        (embedderOnChunk P.embed (DocumentChunker.created chunk path workspaceId).payload).payload :=
    rfl
  rw [hdeliver]
  unfold onEmbedded
  dsimp only
  rw [hof]
  refine ⟨hchunks, ⟨rest, done ++ [chunk], ?_, ?_, ?_⟩, ?_⟩
  · refine List.Perm.trans ?_ hall
    rw [← List.append_assoc]
    exact List.perm_append_singleton chunk (rest ++ done)
  · show List.Forall₂ _ (chunkEvents (s.pending ++ [_])) _
    unfold chunkEvents at hrest ⊢
    rw [List.filter_append, List.filter_singleton]
    simpa using hrest
  · dsimp only
    rw [List.map_append, List.map_append, hdone]
    rfl
  · intro node hnode
    rcases List.mem_append.1 hnode with hnode | hnode
    · exact hmade node hnode
    · rw [List.mem_singleton.1 hnode]
      exact ⟨rfl, rfl⟩

/-- **A step after the parsing.** -/
theorem AfterParsing.step (h : AfterParsing P content path workspaceId s) (n : ℕ) :
    AfterParsing P content path workspaceId (s.step P n) := by
  unfold Pipeline.step
  cases hn : s.pending[n]? with
  | none => exact h
  | some e =>
    dsimp only
    by_cases htype : e.type = "graph.updated"
    · exact h.updated hn htype
    · obtain ⟨chunk, hcarries, hdelivering⟩ := h.taken hn htype
      cases hcarries with
      | created => exact hdelivering.created
      | embedded => exact hdelivering.embedded

/-- What waits when the document is in chunks, and what was made. -/
theorem step_zero_parsed (graph : SimilarityGraph E S) (issued : List String) :
    (parsed content path workspaceId graph issued).step P 0 =
      { parsed content path workspaceId graph issued with
        pending := (P.chunker.chunk P.graph.ids content path workspaceId issued).1.map fun chunk =>
          DocumentChunker.created chunk path workspaceId
        issued := (P.chunker.chunk P.graph.ids content path workspaceId issued).2
        chunks := (P.chunker.chunk P.graph.ids content path workspaceId issued).1 } := rfl

/-- **The parsing**: the first event that can be delivered is that of the document. -/
theorem step_parsed (graph : SimilarityGraph E S) (issued : List String) (n : ℕ) :
    (parsed content path workspaceId graph issued).step P n =
        parsed content path workspaceId graph issued ∨
      AfterParsing P content path workspaceId
        ((parsed content path workspaceId graph issued).step P n) := by
  cases n with
  | succ n => exact .inl rfl
  | zero =>
    right
    rw [step_zero_parsed]
    refine ⟨⟨issued, rfl⟩, ⟨(P.chunker.chunk P.graph.ids content path workspaceId issued).1, [], ?_,
      ?_, rfl⟩, nofun⟩
    · rw [List.append_nil]
    · have hall : ∀ e ∈ (P.chunker.chunk P.graph.ids content path workspaceId issued).1.map
          (fun chunk => (DocumentChunker.created chunk path workspaceId : PipelineEvent E)),
          decide (e.type ≠ "graph.updated") = true := by
        intro e he
        obtain ⟨chunk, -, rfl⟩ := List.mem_map.1 he
        rfl
      rw [List.filter_eq_self.2 hall, List.forall₂_map_left_iff]
      exact List.forall₂_same.2 fun chunk _ => .created chunk

/-- Every run parses the document first. -/
theorem afterParsing_run (graph : SimilarityGraph E S) (issued : List String) (ns : List ℕ) :
    ns.foldl (step P) (parsed content path workspaceId graph issued) =
        parsed content path workspaceId graph issued ∨
      AfterParsing P content path workspaceId
        (ns.foldl (step P) (parsed content path workspaceId graph issued)) := by
  refine History.run_invariant (step P) (fun s => s = parsed content path workspaceId graph issued ∨
    AfterParsing P content path workspaceId s) ?_ ns _ (.inl rfl)
  rintro s n (rfl | h)
  · exact step_parsed graph issued n
  · exact .inr (h.step n)

/-! ## When all is delivered -/

/-- When no event waits, the document was parsed. -/
theorem afterParsing_done {graph : SimilarityGraph E S} {issued : List String} {ns : List ℕ}
    (hdone : (ns.foldl (step P) (parsed content path workspaceId graph issued)).pending = []) :
    AfterParsing P content path workspaceId
      (ns.foldl (step P) (parsed content path workspaceId graph issued)) := by
  rcases afterParsing_run (P := P) graph issued ns with heq | h
  · rw [heq] at hdone
    cases hdone
  · exact h

omit [LinearOrder S] in
/-- **The vectors reach the graph**, with the workspace, one node for each chunk. -/
theorem embeddings_survive (h : AfterParsing P content path workspaceId s) (hdone : s.pending = []) :
    (s.made.map fun n => (n.embedding, n.workspaceId)).Perm
      (s.chunks.map fun chunk => (P.embed chunk.text, workspaceId)) := by
  obtain ⟨-, ⟨waiting, done, hperm, hcarries, hmade⟩, -⟩ := h
  rw [hdone] at hcarries
  cases hcarries
  rw [hmade]
  exact hperm.map _

omit [LinearOrder S] in
/-- A content that is not empty begins with a chunk that has a text. -/
theorem exists_chunk (P : PipelineSetup E S δ) (path workspaceId : String) (hcontent : content ≠ "")
    (issued : List String) :
    ∃ chunk ∈ (P.chunker.chunk P.graph.ids content path workspaceId issued).1, chunk.text ≠ "" := by
  have hne : content.toList ≠ [] := by
    intro hnil
    exact hcontent (String.toList_injective hnil)
  have hpos : 0 < content.toList.length := List.length_pos_iff.2 hne
  have hspans : ∃ rest, P.chunker.spans content.toList.length 0 =
      (0, min (0 + P.chunker.chunkSize) content.toList.length) :: rest := by
    rw [DocumentChunker.spans, dif_pos hpos]
    dsimp only
    split
    · exact ⟨_, rfl⟩
    · exact ⟨_, rfl⟩
  obtain ⟨rest, hspans⟩ := hspans
  unfold DocumentChunker.chunk
  rw [hspans]
  refine ⟨_, List.mem_cons_self, ?_⟩
  have hsize := P.chunker.pos
  intro htext
  have hlen := congrArg (fun t => t.toList.length) htext
  simp only [DocumentChunker.slice, String.toList_ofList, List.drop_zero, List.length_take] at hlen
  have hzero : ("" : String).toList.length = 0 := rfl
  rw [hzero] at hlen
  omega

omit [LinearOrder S] in
/-- The text of a chunk is in no node. -/
theorem AfterParsing.lost (h : AfterParsing P content path workspaceId s) (hcontent : content ≠ "") :
    ¬ TextSurvives path workspaceId s := by
  intro hsurvives
  obtain ⟨issued, hchunks⟩ := h.chunks
  obtain ⟨chunk, hchunk, htext⟩ := exists_chunk P path workspaceId hcontent issued
  rw [← hchunks] at hchunk
  have hmem := hsurvives.mem_iff.2 (List.mem_map_of_mem hchunk)
  obtain ⟨n, hn, heq⟩ := List.mem_map.1 hmem
  exact htext ((congrArg Prod.fst heq).symm.trans (h.made n hn).1)

/-- **Texts survive the pipeline** exactly when the document has none: for every content, path and
workspace, and every order in which all events are delivered. -/
theorem text_survives_iff (P : PipelineSetup E S δ) (content path workspaceId : String)
    (graph : SimilarityGraph E S) (issued : List String) (ns : List ℕ)
    (hdone : (ns.foldl (step P) (parsed content path workspaceId graph issued)).pending = []) :
    TextSurvives path workspaceId
        (ns.foldl (step P) (parsed content path workspaceId graph issued)) ↔ content = "" := by
  have h := afterParsing_done hdone
  constructor
  · intro hsurvives
    by_contra hcontent
    exact h.lost hcontent hsurvives
  · rintro rfl
    obtain ⟨issued', hchunks⟩ := h.chunks
    have hnone : (P.chunker.chunk P.graph.ids "" path workspaceId issued').1 = [] := by
      have hspans : P.chunker.spans ("" : String).toList.length 0 = [] := by
        rw [DocumentChunker.spans]
        exact dif_neg (lt_irrefl 0)
      unfold DocumentChunker.chunk
      rw [hspans]
      rfl
    have hlen := (embeddings_survive h hdone).length_eq
    rw [List.length_map, List.length_map, hchunks, hnone, List.length_nil] at hlen
    unfold TextSurvives
    rw [hchunks, hnone, List.eq_nil_of_length_eq_zero hlen]
    exact .nil

/-- Documents on a new graph, with embeddings that are all alike. -/
def alikePipeline : PipelineSetup Unit ℕ (GraphEntity Unit ℕ) where
  graph := GraphWorld.alike
  embed _ := ()

/-- A document without content. -/
theorem text_survives_empty : TextSurvives "notes.md" "w"
    ([0].foldl (step alikePipeline) (parsed "" "notes.md" "w" {} [])) := by
  refine (text_survives_iff alikePipeline "" "notes.md" "w" {} [] [0] ?_).2 rfl
  have hspans : alikePipeline.chunker.spans ("" : String).toList.length 0 = [] := by
    rw [DocumentChunker.spans]
    exact dif_neg (lt_irrefl 0)
  show ((alikePipeline.chunker.chunk alikePipeline.graph.ids "" "notes.md" "w" []).1.map fun chunk =>
    (DocumentChunker.created chunk "notes.md" "w" : PipelineEvent Unit)) = []
  unfold DocumentChunker.chunk
  rw [hspans]
  rfl

/-- A document with a content, whose events are delivered as they come. -/
theorem text_lost :
    ([0, 0, 0, 0].foldl (step alikePipeline) (parsed "text" "notes.md" "w" {} [])).pending = [] ∧
      ¬ TextSurvives "notes.md" "w"
        ([0, 0, 0, 0].foldl (step alikePipeline) (parsed "text" "notes.md" "w" {} [])) := by
  have hspans : alikePipeline.chunker.spans ("text" : String).toList.length 0 = [(0, 4)] := by
    rw [DocumentChunker.spans]
    decide
  have hstep : step alikePipeline (parsed "text" "notes.md" "w" {} []) 0 =
      { pending := [DocumentChunker.created ⟨"", "notes.md", "text", 0, 4, "w"⟩ "notes.md" "w"]
        issued := [""]
        chunks := [⟨"", "notes.md", "text", 0, 4, "w"⟩] } := by
    have hchunk : alikePipeline.chunker.chunk alikePipeline.graph.ids "text" "notes.md" "w" [] =
        ([⟨"", "notes.md", "text", 0, 4, "w"⟩], [""]) := by
      unfold DocumentChunker.chunk
      rw [hspans]
      rfl
    have hparsed : step alikePipeline (parsed "text" "notes.md" "w" {} []) 0 =
        { pending := (alikePipeline.chunker.chunk alikePipeline.graph.ids "text" "notes.md" "w"
            []).1.map fun chunk => DocumentChunker.created chunk "notes.md" "w"
          issued := (alikePipeline.chunker.chunk alikePipeline.graph.ids "text" "notes.md" "w" []).2
          chunks := (alikePipeline.chunker.chunk alikePipeline.graph.ids "text" "notes.md" "w"
            []).1 } := rfl
    rw [hparsed, hchunk]
    rfl
  have hpending : ([0, 0, 0, 0].foldl (step alikePipeline)
      (parsed "text" "notes.md" "w" {} [])).pending = [] := by
    rw [List.foldl_cons, hstep]
    rfl
  exact ⟨hpending, (afterParsing_done hpending).lost (by decide)⟩

end Pipeline

end Hermes

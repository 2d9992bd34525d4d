import Hermes.Spec.RetrievalBackends

/-!
# What a Faiss backend holds

The index of a workspace holds the vectors that were added and not removed, in their order, each
under an id of its own; a removal builds the index anew and keeps the others.

* `RetrievalCall.held`: the vectors of a workspace after some calls, told from the calls.
* `Tracks.apply`: a call keeps the indices in step with them.
* `Tracks.query_refused`: a query for no node.
-/

namespace Hermes

namespace RetrievalCall

variable {σ : Type}

/-- What a call leaves of the vectors of a workspace. -/
def left (w : String) (held : List (String × List σ)) : RetrievalCall σ → List (String × List σ)
  | add nodeId embedding workspaceId =>
    if workspaceId = w then held ++ [(nodeId, embedding)] else held
  | query _ _ _ => held
  | remove nodeId workspaceId =>
    if workspaceId = w then held.filter fun e => e.1 ≠ nodeId else held
  | clearWorkspace workspaceId => if workspaceId = w then [] else held

/-- The nodes added to a workspace and not removed since, with their vectors. -/
def held (w : String) (calls : List (RetrievalCall σ)) : List (String × List σ) :=
  calls.foldl (left w) []

theorem length_left {dim : ℕ} {w : String} {call : RetrievalCall σ} (hcall : call.OfDim dim)
    {held : List (String × List σ)} (h : ∀ e ∈ held, e.2.length = dim) :
    ∀ e ∈ call.left w held, e.2.length = dim := by
  intro e he
  cases call with
  | add nodeId embedding workspaceId =>
    have he' : e ∈ if workspaceId = w then held ++ [(nodeId, embedding)] else held := he
    split at he'
    · rcases List.mem_append.1 he' with he' | he'
      · exact h e he'
      · rw [List.mem_singleton.1 he']
        exact hcall
    · exact h e he'
  | query embedding workspaceId topK => exact h e he
  | remove nodeId workspaceId =>
    have he' : e ∈ if workspaceId = w then held.filter fun e => e.1 ≠ nodeId else held := he
    split at he'
    · exact h e (List.mem_of_mem_filter he')
    · exact h e he'
  | clearWorkspace workspaceId =>
    have he' : e ∈ if workspaceId = w then [] else held := he
    split at he'
    · cases he'
    · exact h e he'

theorem length_held {dim : ℕ} (w : String) {calls : List (RetrievalCall σ)}
    (hcalls : ∀ call ∈ calls, call.OfDim dim) : ∀ e ∈ held w calls, e.2.length = dim := by
  unfold held
  induction calls using List.reverseRecOn with
  | nil =>
    intro e he
    cases he
  | append_singleton calls call ih =>
    rw [List.foldl_append]
    exact length_left (hcalls call (by simp))
      (ih fun c hc => hcalls c (List.mem_append_left _ hc))

end RetrievalCall

namespace FaissBackend

variable {ι σ : Type} {F : Faiss ι σ} {vectors : ι → List (ℕ × List σ)}
  {x new : WorkspaceIndex ι} {held : List (String × List σ)}

/-- The rows of a workspace: the Faiss id, the node and its vector. -/
structure HoldsAs (F : Faiss ι σ) (vectors : ι → List (ℕ × List σ)) (x : WorkspaceIndex ι)
    (rows : List (ℕ × String × List σ)) : Prop where
  vectors : vectors x.index = rows.map fun r => (r.1, F.normalizeL2 r.2.2)
  ids : x.idMap.entries = rows.map fun r => (r.1, r.2.1)
  below : ∀ r ∈ rows, r.1 < x.counter

/-- The index of a workspace holds these nodes, in this order. -/
def Holds (F : Faiss ι σ) (vectors : ι → List (ℕ × List σ)) (x : WorkspaceIndex ι)
    (held : List (String × List σ)) : Prop :=
  ∃ rows, HoldsAs F vectors x rows ∧ rows.map Prod.snd = held

theorem HoldsAs.nodup {rows : List (ℕ × String × List σ)} (h : HoldsAs F vectors x rows) :
    (rows.map Prod.fst).Nodup := by
  have hkeys := x.idMap.nodup
  rw [h.ids, List.map_map] at hkeys
  exact hkeys

theorem HoldsAs.get?_id {rows : List (ℕ × String × List σ)} (h : HoldsAs F vectors x rows)
    {r : ℕ × String × List σ} (hr : r ∈ rows) : x.idMap.get? r.1 = some r.2.1 := by
  have hmem : (r.1, r.2.1) ∈ x.idMap.entries := by
    rw [h.ids]
    exact List.mem_map.2 ⟨r, hr, rfl⟩
  exact Dict.get?_of_mem hmem

section Steps

variable [LinearOrder σ] {inner : List σ → List σ → σ} (hF : F.Exact inner vectors)
include hF

theorem holds_new : Holds F vectors { index := F.flat } [] := by
  refine ⟨[], ⟨hF.flat, rfl, ?_⟩, rfl⟩
  intro r hr
  cases hr

/-- A vector is added under the next id. -/
theorem Holds.add (h : Holds F vectors new held) (nodeId : String) (embedding : List σ) :
    Holds F vectors
      { index := F.addWithIds new.index (F.normalizeL2 embedding) new.counter
        idMap := new.idMap.insert new.counter nodeId
        counter := new.counter + 1 } (held ++ [(nodeId, embedding)]) := by
  obtain ⟨rows, hrows, rfl⟩ := h
  refine ⟨rows ++ [(new.counter, nodeId, embedding)], ⟨?_, ?_, ?_⟩, ?_⟩
  · show vectors (F.addWithIds new.index _ _) = _
    rw [hF.addWithIds, hrows.vectors, List.map_append, List.map_singleton]
  · have hfresh : new.counter ∉ new.idMap.keys := by
      unfold Dict.keys
      rw [hrows.ids, List.map_map]
      intro hmem
      obtain ⟨r, hr, hfid⟩ := List.mem_map.1 hmem
      have hbelow := hrows.below r hr
      have hfid' : r.1 = new.counter := hfid
      omega
    show (new.idMap.insert new.counter nodeId).entries = _
    rw [Dict.entries_insert_of_not_mem hfresh, hrows.ids, List.map_append, List.map_singleton]
  · intro r hr
    show r.1 < new.counter + 1
    rcases List.mem_append.1 hr with hr | hr
    · have hbelow := hrows.below r hr
      omega
    · rw [List.mem_singleton.1 hr]
      exact Nat.lt_succ_self _
  · rw [List.map_append, List.map_singleton]

/-- **The index built anew** holds the vectors of the other nodes. -/
theorem holds_rebuild {rows : List (ℕ × String × List σ)} (hrows : HoldsAs F vectors x rows)
    (nodeId : String) (rs : List (ℕ × String × List σ)) :
    ∀ (new : WorkspaceIndex ι) (held : List (String × List σ)), (∀ r ∈ rs, r ∈ rows) →
      Holds F vectors new held →
      Holds F vectors
        ((rs.map fun r => (r.1, r.2.1)).foldl (rebuildStep F nodeId x.index) new)
        (held ++ (rs.map Prod.snd).filter fun e => e.1 ≠ nodeId) := by
  have hdistinct : ((vectors x.index).map Prod.fst).Nodup := by
    rw [hrows.vectors, List.map_map]
    exact hrows.nodup
  induction rs with
  | nil =>
    intro new held _ hnew
    rw [List.map_nil, List.map_nil, List.filter_nil, List.append_nil]
    exact hnew
  | cons r rs ih =>
    intro new held hmem hnew
    have hrest : ∀ r' ∈ rs, r' ∈ rows := fun r' hr' => hmem r' (List.mem_cons_of_mem _ hr')
    rw [List.map_cons, List.map_cons, List.foldl_cons]
    by_cases hnode : r.2.1 = nodeId
    · have hskip : rebuildStep F nodeId x.index new (r.1, r.2.1) = new := if_pos hnode
      rw [hskip, List.filter_cons_of_neg (by simp [hnode])]
      exact ih new held hrest hnew
    · have hvec : F.reconstruct x.index r.1 = F.normalizeL2 r.2.2 := by
        refine hF.reconstruct x.index hdistinct (r.1, F.normalizeL2 r.2.2) ?_
        rw [hrows.vectors]
        exact List.mem_map.2 ⟨r, hmem r List.mem_cons_self, rfl⟩
      have hadd := ih _ _ hrest (hnew.add hF r.2.1 r.2.2)
      have hstep : rebuildStep F nodeId x.index new (r.1, r.2.1) =
          { index := F.addWithIds new.index (F.normalizeL2 r.2.2) new.counter
            idMap := new.idMap.insert new.counter r.2.1
            counter := new.counter + 1 } := by
        rw [← hvec]
        exact if_neg hnode
      rw [hstep, List.filter_cons_of_pos (by simp [hnode])]
      rw [List.append_assoc] at hadd
      exact hadd

end Steps

/-! ## The backend -/

variable {b : FaissBackend ι} {after : String → List (String × List σ)}
  {nodes : String → List (String × List σ)}

/-- The indices hold the nodes of their workspaces; there are no index files. -/
structure Tracks (F : Faiss ι σ) (vectors : ι → List (ℕ × List σ)) (b : FaissBackend ι)
    (nodes : String → List (String × List σ)) : Prop where
  files : ∀ w, b.files.get? w = none
  known : ∀ w x, b.indices.get? w = some x → Holds F vectors x (nodes w)
  unknown : ∀ w, b.indices.get? w = none → nodes w = []

theorem tracks_empty : Tracks F vectors {} fun _ => [] where
  files _ := rfl
  known _ _ h := by cases h
  unknown _ _ := rfl

/-- The index of a workspace is put in. -/
theorem Tracks.put (h : Tracks F vectors b nodes) {w : String}
    (hx : Holds F vectors x (after w)) (hother : ∀ w', w' ≠ w → after w' = nodes w') :
    Tracks F vectors { b with indices := b.indices.insert w x } after where
  files := h.files
  known w' x' hx' := by
    rw [Dict.get?_insert] at hx'
    split at hx'
    · rename_i hw
      obtain rfl := Option.some.inj hx'
      rw [hw]
      exact hx
    · rename_i hw
      rw [hother w' hw]
      exact h.known w' x' hx'
  unknown w' hnone := by
    rw [Dict.get?_insert] at hnone
    split at hnone
    · cases hnone
    · rename_i hw
      rw [hother w' hw]
      exact h.unknown w' hnone

section Calls

variable [LinearOrder σ] {inner : List σ → List σ → σ} (hF : F.Exact inner vectors)
include hF

theorem Tracks.getIndex (h : Tracks F vectors b nodes) (w : String) :
    Holds F vectors (b.getIndex F w).1 (nodes w) ∧ Tracks F vectors (b.getIndex F w).2 nodes := by
  unfold FaissBackend.getIndex
  split
  · rename_i x hx
    exact ⟨h.known w x hx, h⟩
  · rename_i hnone
    have hnew : Holds F vectors { index := F.flat } (nodes w) := by
      rw [h.unknown w hnone]
      exact holds_new hF
    simp only [h.files w]
    exact ⟨hnew, h.put hnew fun _ _ => rfl⟩

omit hF [LinearOrder σ] in
/-- The ids of the map turned around. -/
theorem get?_rev (nodeId : String) (es : List (ℕ × String)) : ∀ rev : Dict String ℕ,
    ((es.foldl (fun rev e => rev.insert e.2 e.1) rev).get? nodeId).isSome ↔
      nodeId ∈ es.map Prod.snd ∨ (rev.get? nodeId).isSome := by
  induction es with
  | nil =>
    intro rev
    simp
  | cons e es ih =>
    intro rev
    rw [List.foldl_cons, ih, Dict.get?_insert, List.map_cons, List.mem_cons]
    by_cases he : nodeId = e.2
    · simp [he]
    · simp [he]

theorem Tracks.remove (h : Tracks F vectors b nodes) (nodeId w : String)
    (hw : after w = (nodes w).filter fun e => e.1 ≠ nodeId)
    (hother : ∀ w', w' ≠ w → after w' = nodes w') :
    Tracks F vectors (b.remove F nodeId w) after := by
  obtain ⟨⟨rows, hrows, hheld⟩, hb⟩ := h.getIndex hF w
  -- nothing changes when the node is not there
  have hsame : (∀ e ∈ nodes w, e.1 ≠ nodeId) → after = nodes := by
    intro hnot
    funext w'
    by_cases hw' : w' = w
    · rw [hw', hw, List.filter_eq_self]
      exact fun e he => decide_eq_true (hnot e he)
    · exact hother w' hw'
  unfold FaissBackend.remove
  simp only
  split
  · rename_i hzero
    rw [hF.ntotal, hrows.vectors, List.length_map, List.length_eq_zero_iff] at hzero
    rw [hsame ?_]
    · exact hb
    · rw [← hheld, hzero]
      intro e he
      cases he
  · split
    · rename_i hrev
      rw [hsame ?_]
      · exact hb
      · intro e he hid
        rw [← hheld] at he
        obtain ⟨r, hr, rfl⟩ := List.mem_map.1 he
        have hsome := (get?_rev nodeId (b.getIndex F w).1.idMap.entries ∅).2 (.inl (by
          rw [hrows.ids, List.map_map]
          exact List.mem_map.2 ⟨r, hr, hid⟩))
        rw [hrev] at hsome
        cases hsome
    · refine hb.put ?_ hother
      have hnew := holds_rebuild hF hrows nodeId rows _ [] (fun _ hr => hr) (holds_new hF)
      rw [List.nil_append, hheld, ← hw] at hnew
      rw [hrows.ids]
      exact hnew

/-- **A call** keeps the indices in step with the nodes. -/
theorem Tracks.apply (h : Tracks F vectors b nodes) (call : RetrievalCall σ) :
    Tracks F vectors (b.apply F call) fun w => call.left w (nodes w) := by
  cases call with
  | add nodeId embedding workspaceId =>
    obtain ⟨hx, hb⟩ := h.getIndex hF workspaceId
    refine hb.put ?_ fun w' hw' => if_neg (Ne.symm hw')
    rw [RetrievalCall.left, if_pos rfl]
    exact hx.add hF nodeId embedding
  | query embedding workspaceId topK =>
    show Tracks F vectors (b.query F embedding workspaceId topK).2 nodes
    have hb := (h.getIndex hF workspaceId).2
    unfold FaissBackend.query
    simp only
    split
    · exact hb
    · exact hb
  | remove nodeId workspaceId =>
    exact h.remove hF nodeId workspaceId (if_pos rfl) fun w' hw' => if_neg (Ne.symm hw')
  | clearWorkspace workspaceId =>
    refine ⟨fun w => ?_, fun w x hx => ?_, fun w hnone => ?_⟩
    · show (b.files.erase workspaceId).get? w = none
      rw [Dict.get?_erase, h.files]
      split
      · rfl
      · rfl
    · have hx' : (b.indices.erase workspaceId).get? w = some x := hx
      rw [Dict.get?_erase] at hx'
      split at hx'
      · cases hx'
      · rename_i hw
        rw [RetrievalCall.left, if_neg (Ne.symm hw)]
        exact h.known w x hx'
    · have hnone' : (b.indices.erase workspaceId).get? w = none := hnone
      rw [Dict.get?_erase] at hnone'
      show (if workspaceId = w then [] else nodes w) = []
      by_cases hw : workspaceId = w
      · exact if_pos hw
      · rw [if_neg hw]
        rw [if_neg (Ne.symm hw)] at hnone'
        exact h.unknown w hnone'

/-- **After any calls** the indices hold the nodes of their workspaces. -/
theorem tracks_run (calls : List (RetrievalCall σ)) :
    Tracks F vectors (calls.foldl (FaissBackend.apply F) {}) fun w =>
      RetrievalCall.held w calls := by
  unfold RetrievalCall.held
  induction calls using List.reverseRecOn with
  | nil => exact tracks_empty
  | append_singleton calls call ih =>
    simp only [List.foldl_append, List.foldl_cons, List.foldl_nil]
    exact ih.apply hF call

/-- A Faiss query with no place for an answer is refused, unless there is nothing to search. -/
theorem Tracks.query_refused {w : String} {q : List σ}
    (h : Tracks F vectors b nodes) {k : ℤ} (hk : k ≤ 0) :
    if nodes w = [] then (b.query F q w k).1 = .ok []
    else ∃ exc, (b.query F q w k).1 = .error exc := by
  obtain ⟨⟨rows, hrows, hheld⟩, -⟩ := h.getIndex hF w
  have hlen : F.ntotal (b.getIndex F w).1.index = (nodes w).length := by
    rw [hF.ntotal, hrows.vectors, List.length_map, ← hheld, List.length_map]
  unfold FaissBackend.query
  simp only [hlen, List.length_eq_zero_iff]
  split
  · rfl
  · obtain ⟨exc, hexc⟩ := hF.refuses (b.getIndex F w).1.index (F.normalizeL2 q)
      (min k (nodes w).length) (by omega)
    rw [hexc]
    exact ⟨exc, rfl⟩

end Calls

end FaissBackend

/-!
## Faiss against the dictionary

`MemoryBackend` keeps the last vector of a node, and a Faiss index every vector of it. So long as a
workspace holds no node twice, both rank the same vectors.

* `get?_run`: the dictionary has the last vector of each node that is held.
* `nodesOf_perm`: the same nodes when none is held twice.
* `faiss_agrees_iff`: when the two backends answer alike.
-/

variable {ι σ : Type}

/-! ## The dictionary -/

/-- The vector that was added last under a node id. -/
def latest (held : List (String × List σ)) (nodeId : String) : Option (List σ) :=
  (held.reverse.find? (·.1 = nodeId)).map Prod.snd

theorem latest_append (held : List (String × List σ)) (e : String × List σ) (nodeId : String) :
    latest (held ++ [e]) nodeId = if nodeId = e.1 then some e.2 else latest held nodeId := by
  unfold latest
  rw [List.reverse_append, List.reverse_singleton, List.singleton_append, List.find?_cons]
  by_cases he : e.1 = nodeId
  · simp [he]
  · have hne : nodeId ≠ e.1 := fun h => he h.symm
    simp [he, hne]

theorem latest_filter (held : List (String × List σ)) (removed nodeId : String) :
    latest (held.filter fun e => e.1 ≠ removed) nodeId =
      if nodeId = removed then none else latest held nodeId := by
  induction held using List.reverseRecOn with
  | nil =>
    split
    · rfl
    · rfl
  | append_singleton held e ih =>
    rw [List.filter_append, latest_append]
    by_cases he : e.1 = removed
    · rw [List.filter_cons_of_neg (by simp [he]), List.filter_nil, List.append_nil, ih, he]
      by_cases hn : nodeId = removed
      · rw [if_pos hn, if_pos hn]
      · rw [if_neg hn, if_neg hn, if_neg hn]
    · rw [List.filter_cons_of_pos (by simp [he]), List.filter_nil, latest_append, ih]
      by_cases hn : nodeId = e.1
      · have hne : nodeId ≠ removed := fun h => he (hn.symm.trans h)
        rw [if_pos hn, if_neg hne, if_pos hn]
      · rw [if_neg hn, if_neg hn]

theorem mem_of_latest {held : List (String × List σ)} {nodeId : String} {vec : List σ}
    (h : latest held nodeId = some vec) : (nodeId, vec) ∈ held := by
  unfold latest at h
  obtain ⟨e, he, rfl⟩ := Option.map_eq_some_iff.1 h
  have hid : e.1 = nodeId := by simpa using List.find?_some he
  rw [← hid]
  exact List.mem_reverse.1 (List.mem_of_find?_eq_some he)

theorem latest_of_mem {held : List (String × List σ)} (hnodup : (held.map Prod.fst).Nodup)
    {e : String × List σ} (he : e ∈ held) : latest held e.1 = some e.2 := by
  have hfound : (held.reverse.find? (·.1 = e.1)).isSome :=
    List.find?_isSome.2 ⟨e, List.mem_reverse.2 he, decide_eq_true rfl⟩
  obtain ⟨e', he'⟩ := Option.isSome_iff_exists.1 hfound
  have hid : e'.1 = e.1 := by simpa using List.find?_some he'
  have hmem : e' ∈ held := List.mem_reverse.1 (List.mem_of_find?_eq_some he')
  have hsame : e' = e := List.inj_on_of_nodup_map hnodup hmem he hid
  unfold latest
  rw [he', hsame]
  rfl

namespace MemoryBackend

/-- **The dictionary** after any calls: the last vector of every node that is held. -/
theorem get?_run (calls : List (RetrievalCall σ)) (w nodeId : String) :
    (calls.foldl apply ({} : MemoryBackend σ)).store.get? (w, nodeId) =
      latest (RetrievalCall.held w calls) nodeId := by
  unfold RetrievalCall.held
  induction calls using List.reverseRecOn with
  | nil => rfl
  | append_singleton calls call ih =>
    simp only [List.foldl_append, List.foldl_cons, List.foldl_nil]
    cases call with
    | query embedding workspaceId topK => exact ih
    | add nodeId' embedding workspaceId =>
      refine (Dict.get?_insert _ _ _ _).trans ?_
      show _ = latest (if workspaceId = w then _ else _) nodeId
      by_cases hw : workspaceId = w
      · rw [if_pos hw, latest_append, ← ih]
        simp [hw]
      · rw [if_neg hw, ← ih, if_neg fun h => hw (Prod.mk.inj h).1.symm]
    | remove nodeId' workspaceId =>
      refine (Dict.get?_erase _ _ _).trans ?_
      show _ = latest (if workspaceId = w then _ else _) nodeId
      by_cases hw : workspaceId = w
      · rw [if_pos hw, latest_filter, ← ih]
        simp [hw]
      · rw [if_neg hw, ← ih, if_neg fun h => hw (Prod.mk.inj h).1.symm]
    | clearWorkspace workspaceId =>
      refine (Dict.get?_restrict _ _ _).trans ?_
      show _ = latest (if workspaceId = w then _ else _) nodeId
      by_cases hw : workspaceId = w
      · rw [if_pos hw, if_neg (by simp [hw])]
        rfl
      · rw [if_neg hw, ← ih, if_pos (by simp [Ne.symm hw])]

theorem mem_nodesOf {b : MemoryBackend σ} {w : String} {n : String × List σ} :
    n ∈ b.nodesOf w ↔ b.store.get? (w, n.1) = some n.2 := by
  unfold nodesOf
  rw [List.mem_filterMap]
  constructor
  · rintro ⟨e, he, hn⟩
    split at hn
    · rename_i hw
      obtain rfl := Option.some.inj hn
      rw [← hw]
      exact Dict.get?_of_mem he
    · cases hn
  · intro hget
    exact ⟨((w, n.1), n.2), Dict.mem_of_get? hget, if_pos rfl⟩

theorem nodup_nodesOf (b : MemoryBackend σ) (w : String) : ((b.nodesOf w).map Prod.fst).Nodup := by
  have hkeys : b.store.entries.Pairwise fun e e' => e.1 ≠ e'.1 := List.pairwise_map.1 b.store.nodup
  unfold nodesOf
  refine List.pairwise_map.2 (List.Pairwise.filterMap _ (fun e e' hne n hn n' hn' hsame => ?_) hkeys)
  split at hn
  · rename_i hw
    split at hn'
    · rename_i hw'
      obtain rfl := Option.some.inj hn
      obtain rfl := Option.some.inj hn'
      exact hne (Prod.ext (hw.trans hw'.symm) hsame)
    · cases hn'
  · cases hn

/-- **The same nodes** when none is held twice. -/
theorem nodesOf_perm (calls : List (RetrievalCall σ)) {w : String}
    (hnodup : ((RetrievalCall.held w calls).map Prod.fst).Nodup) :
    ((calls.foldl apply ({} : MemoryBackend σ)).nodesOf w).Perm (RetrievalCall.held w calls) := by
  refine (List.perm_ext_iff_of_nodup (nodup_nodesOf _ w).of_map hnodup.of_map).2 fun n => ?_
  rw [mem_nodesOf, get?_run]
  constructor
  · exact mem_of_latest
  · exact latest_of_mem hnodup

end MemoryBackend

/-! ## The answers -/

variable [LinearOrder σ] [Zero σ] [Add σ] [Mul σ] [Div σ] {F : Faiss ι σ}
  {vectors : ι → List (ℕ × List σ)} {inner : List σ → List σ → σ} {sqrt : σ → σ} {dim : ℕ}
  {b : FaissBackend ι} {nodes : String → List (String × List σ)} {w : String} {q : List σ}

/-- The normalised inner product is the cosine similarity. -/
def IsCosine (F : Faiss ι σ) (inner : List σ → List σ → σ) (sqrt : σ → σ) (dim : ℕ) : Prop :=
  ∀ a b : List σ, a.length = dim → b.length = dim →
    inner (F.normalizeL2 a) (F.normalizeL2 b) = cosineSimilarity sqrt a b

/-- A node with its similarity to the query. -/
def scored (sqrt : σ → σ) (q : List σ) (n : String × List σ) : String × σ :=
  (n.1, cosineSimilarity sqrt q n.2)

omit [LinearOrder σ] [Zero σ] [Add σ] [Mul σ] [Div σ] in
/-- A query searches for as many nodes as there are, and reads the hits in the id map. -/
theorem FaissBackend.query_eq (F : Faiss ι σ) (b : FaissBackend ι) (q : List σ) (w : String) (k : ℤ) :
    (b.query F q w k).1 =
      if F.ntotal (b.getIndex F w).1.index = 0 then .ok []
      else (F.search (b.getIndex F w).1.index (F.normalizeL2 q)
          (min k (F.ntotal (b.getIndex F w).1.index))).map fun hits =>
        hits.filterMap fun hit => ((b.getIndex F w).1.idMap.get? hit.2).map fun nid => (nid, hit.1) := by
  unfold FaissBackend.query
  exact apply_ite Prod.fst _ _ _

/-- What a hit is read as, with the similarity of its vector. -/
def hitOf (F : Faiss ι σ) (inner : List σ → List σ → σ) (q : List σ) (idMap : Dict ℕ String)
    (e : ℕ × List σ) : String × σ :=
  ((idMap.get? e.1).getD "", inner (F.normalizeL2 q) e.2)

namespace FaissBackend.HoldsAs

variable {x : WorkspaceIndex ι} {rows : List (ℕ × String × List σ)}

/-- A vector of the index is read as the node it was added for. -/
theorem hitOf_row (h : HoldsAs F vectors x rows) (hcos : IsCosine F inner sqrt dim)
    (hdim : ∀ r ∈ rows, r.2.2.length = dim) (hq : q.length = dim) {r : ℕ × String × List σ}
    (hr : r ∈ rows) : hitOf F inner q x.idMap (r.1, F.normalizeL2 r.2.2) = scored sqrt q r.2 := by
  simp only [hitOf, h.get?_id hr, Option.getD_some, scored]
  rw [hcos q r.2.2 hq (hdim r hr)]

omit [LinearOrder σ] [Zero σ] [Add σ] [Mul σ] [Div σ] in
/-- **Every vector of the index is read.** -/
theorem read (h : HoldsAs F vectors x rows) (inner : List σ → List σ → σ) (q : List σ)
    {e : ℕ × List σ} (he : e ∈ vectors x.index) :
    (x.idMap.get? e.1).map (fun nid => (nid, inner (F.normalizeL2 q) e.2)) =
      some (hitOf F inner q x.idMap e) := by
  rw [h.vectors] at he
  obtain ⟨r, hr, rfl⟩ := List.mem_map.1 he
  simp only [hitOf, h.get?_id hr, Option.map_some, Option.getD_some]

end FaissBackend.HoldsAs

/-- **A Faiss query** gives the best ones of what the index holds. -/
theorem FaissBackend.Tracks.query (hF : F.Exact inner vectors) (hcos : IsCosine F inner sqrt dim)
    (h : Tracks F vectors b nodes) (hdim : ∀ e ∈ nodes w, e.2.length = dim) (hq : q.length = dim)
    {k : ℤ} (hk : 1 ≤ k) :
    ∃ order : List (String × σ), order.Perm ((nodes w).map (scored sqrt q)) ∧
      Ranked Prod.snd order ∧ (b.query F q w k).1 = .ok (order.take k.toNat) := by
  obtain ⟨⟨rows, hrows, hheld⟩, -⟩ := h.getIndex hF w
  rw [query_eq]
  set x := (b.getIndex F w).1
  have hlen : F.ntotal x.index = rows.length := by
    rw [hF.ntotal, hrows.vectors, List.length_map]
  split
  · rename_i hzero
    rw [hlen, List.length_eq_zero_iff] at hzero
    refine ⟨[], ?_, List.Pairwise.nil, ?_⟩
    · rw [← hheld, hzero]
      exact List.Perm.nil
    · rw [List.take_nil]
  · rename_i hzero
    have hone : 1 ≤ min k (F.ntotal x.index : ℤ) := by omega
    obtain ⟨order, hperm, hranked, hsearch⟩ :=
      hF.search x.index (F.normalizeL2 q) _ hone (min_le_right _ _)
    have hhits : Ranked (Prod.snd ∘ hitOf F inner q x.idMap) order := hranked
    refine ⟨order.map (hitOf F inner q x.idMap), ?_, hhits.map _, ?_⟩
    · refine (hperm.map _).trans (List.Perm.of_eq ?_)
      rw [hrows.vectors, ← hheld, List.map_map, List.map_map]
      exact List.map_congr_left fun r hr =>
        hrows.hitOf_row hcos (fun r hr => hdim r.2 (hheld ▸ List.mem_map_of_mem hr)) hq hr
    · rw [hsearch]
      show Except.ok _ = Except.ok _
      have hcount : order.length = F.ntotal x.index := by rw [hperm.length_eq, hF.ntotal]
      have htake : order.take (min k (F.ntotal x.index)).toNat = order.take k.toNat := by
        rw [List.take_eq_take_iff]
        omega
      simp only [htake]
      rw [List.filterMap_map, ← List.map_take, ← List.filterMap_eq_map]
      congr 1
      refine List.filterMap_congr fun e he => ?_
      exact hrows.read inner q (hperm.mem_iff.1 (List.mem_of_mem_take he))

/-- The two backends answer a query with the same node ids in the same order, and none twice. -/
def SameHits (F : Faiss ι σ) (sqrt : σ → σ) (m : MemoryBackend σ) (b : FaissBackend ι)
    (q : List σ) (w : String) (k : ℤ) : Prop :=
  ∃ hits, (b.query F q w k).1 = .ok hits ∧
    hits.map Prod.fst = (m.query sqrt q w k).map Prod.fst ∧ (hits.map Prod.fst).Nodup

section Agreement

variable {calls : List (RetrievalCall σ)}

/-- Asked for all of them, Faiss gives every vector it holds. -/
theorem nodup_held_of_sameHits (hF : F.Exact inner vectors) (hcos : IsCosine F inner sqrt dim)
    (hcalls : ∀ call ∈ calls, call.OfDim dim) (hq : q.length = dim)
    (hsame : ∀ k, 1 ≤ k → SameHits F sqrt (calls.foldl MemoryBackend.apply {})
      (calls.foldl (FaissBackend.apply F) {}) q w k) :
    ((RetrievalCall.held w calls).map Prod.fst).Nodup := by
  have htracks := FaissBackend.tracks_run hF calls
  set held := RetrievalCall.held w calls with hheld
  have hk : (1 : ℤ) ≤ held.length + 1 := by omega
  obtain ⟨order, hperm, -, hanswer⟩ :=
    htracks.query hF hcos (RetrievalCall.length_held w hcalls) hq hk
  obtain ⟨hits, hhits, -, hnodup⟩ := hsame _ hk
  obtain rfl := Except.ok.inj (hanswer.symm.trans hhits)
  have hlen : order.length = held.length := by rw [hperm.length_eq, List.length_map]
  have hall : order.take ((held.length : ℤ) + 1).toNat = order :=
    List.take_of_length_le (by omega)
  rw [hall] at hnodup
  have hids := (hperm.map Prod.fst).nodup_iff.1 hnodup
  rw [List.map_map] at hids
  exact hids

/-- **One ranking**: with no node held twice and no two scores the same, the best ones of the index
are those of the memory backend. -/
theorem sameHits_of_nodup_held (hF : F.Exact inner vectors) (hcos : IsCosine F inner sqrt dim)
    (hcalls : ∀ call ∈ calls, call.OfDim dim) (hq : q.length = dim)
    (hscores : (((calls.foldl MemoryBackend.apply {}).nodesOf w).map fun n =>
      cosineSimilarity sqrt q n.2).Nodup)
    (hnodup : ((RetrievalCall.held w calls).map Prod.fst).Nodup) {k : ℤ} (hk : 1 ≤ k) :
    SameHits F sqrt (calls.foldl MemoryBackend.apply {})
      (calls.foldl (FaissBackend.apply F) {}) q w k := by
  obtain ⟨order, hperm, hranked, hanswer⟩ :=
    (FaissBackend.tracks_run hF calls).query hF hcos (RetrievalCall.length_held w hcalls) hq hk
  set m := calls.foldl MemoryBackend.apply ({} : MemoryBackend σ) with hm
  have hnodes := MemoryBackend.nodesOf_perm calls hnodup
  have hscored := hperm.trans (hnodes.map (scored sqrt q)).symm
  have hsort : order = ((m.nodesOf w).map (scored sqrt q)).mergeSort fun x y => y.2 ≤ x.2 := by
    have hsame := hscored.trans (List.mergeSort_perm _ fun x y => decide (y.2 ≤ x.2)).symm
    refine Ranked.unique hsame ?_ hranked (Ranked.mergeSort Prod.snd _)
    rw [(hscored.map Prod.snd).nodup_iff, List.map_map]
    exact hscores
  have hmemory : m.query sqrt q w k = order.take k.toNat := by
    rw [hsort]
    unfold MemoryBackend.query List.upTo
    rw [if_pos (by omega)]
    rfl
  refine ⟨_, hanswer, by rw [hmemory], ?_⟩
  have hids : (order.map Prod.fst).Nodup := by
    rw [(hperm.map Prod.fst).nodup_iff, List.map_map]
    exact hnodup
  rw [List.map_take]
  exact hids.sublist (List.take_sublist _ _)

/-- Asked for no node, Faiss answers only where there is none. -/
theorem sameHits_nonpos_iff (hF : F.Exact inner vectors) {k : ℤ} (hk : k ≤ 0) :
    SameHits F sqrt (calls.foldl MemoryBackend.apply {})
      (calls.foldl (FaissBackend.apply F) {}) q w k ↔ RetrievalCall.held w calls = [] := by
  have hrefused := (FaissBackend.tracks_run hF calls).query_refused (w := w) (q := q) hF hk
  constructor
  · rintro ⟨hits, hhits, -⟩
    by_contra hsome
    rw [if_neg hsome] at hrefused
    obtain ⟨exc, hexc⟩ := hrefused
    rw [hhits] at hexc
    cases hexc
  · intro hnone
    rw [if_pos hnone] at hrefused
    have hperm := MemoryBackend.nodesOf_perm (w := w) calls (by rw [hnone]; exact List.nodup_nil)
    rw [hnone] at hperm
    refine ⟨[], hrefused, ?_, List.nodup_nil⟩
    have hmemory : (calls.foldl MemoryBackend.apply {}).query sqrt q w k = [] := by
      unfold MemoryBackend.query
      rw [List.perm_nil.1 hperm]
      refine List.sublist_nil.1 ?_
      exact (List.upTo_sublist k _).trans (by simp)
    rw [hmemory]

end Agreement

/-- **The backends agree** on a workspace exactly when it holds no node twice. Asked for no node,
Faiss answers only where there is none. -/
theorem faiss_agrees_iff (hF : F.Exact inner vectors) (hcos : IsCosine F inner sqrt dim)
    (calls : List (RetrievalCall σ)) (hcalls : ∀ call ∈ calls, call.OfDim dim) (w : String)
    (hq : q.length = dim)
    (hscores : (((calls.foldl MemoryBackend.apply {}).nodesOf w).map fun n =>
      cosineSimilarity sqrt q n.2).Nodup) :
    ((∀ k, 1 ≤ k → SameHits F sqrt (calls.foldl MemoryBackend.apply {})
        (calls.foldl (FaissBackend.apply F) {}) q w k) ↔
      ((RetrievalCall.held w calls).map Prod.fst).Nodup) ∧
    ∀ k, k ≤ 0 → (SameHits F sqrt (calls.foldl MemoryBackend.apply {})
        (calls.foldl (FaissBackend.apply F) {}) q w k ↔ RetrievalCall.held w calls = []) :=
  ⟨⟨nodup_held_of_sameHits hF hcos hcalls hq,
    fun hnodup _ hk => sameHits_of_nodup_held hF hcos hcalls hq hscores hnodup hk⟩,
    fun _ hk => sameHits_nonpos_iff hF hk⟩

/-! ## Vectors of one number -/

/-- The inner product of vectors of one number. -/
def lineInner (a b : List ℤ) : ℤ := pySum (List.zipWith (· * ·) a b)

/-- Faiss for vectors of one number. -/
def lineFaiss : Faiss (List (ℕ × List ℤ)) ℤ where
  flat := []
  normalizeL2 vec := vec.map Int.sign
  addWithIds index vec fid := index ++ [(fid, vec)]
  ntotal := List.length
  search index vec k :=
    if k ≤ 0 then .error ⟨.other, "AssertionError"⟩
    else
      let order := index.insertionSort fun a b => lineInner vec b.2 ≤ lineInner vec a.2
      .ok ((order.take k.toNat).map fun e => (lineInner vec e.2, e.1))
  reconstruct index fid := ((index.find? (·.1 = fid)).map Prod.snd).getD []

theorem lineFaiss_exact : lineFaiss.Exact lineInner id where
  flat := rfl
  addWithIds _ _ _ := rfl
  ntotal _ := rfl
  search index vec k hk _ := by
    refine ⟨_, List.perm_insertionSort _ index, ?_, if_neg (by omega)⟩
    have htotal : Std.Total fun a b : ℕ × List ℤ => lineInner vec b.2 ≤ lineInner vec a.2 :=
      ⟨fun a b => le_total _ _⟩
    have htrans : IsTrans (ℕ × List ℤ) fun a b => lineInner vec b.2 ≤ lineInner vec a.2 :=
      ⟨fun a b c hab hbc => hbc.trans hab⟩
    exact List.pairwise_insertionSort _ index
  refuses index vec k hk := ⟨_, if_pos hk⟩
  reconstruct index hnodup e he := by
    have hfound : (index.find? (·.1 = e.1)).isSome :=
      List.find?_isSome.2 ⟨e, he, decide_eq_true rfl⟩
    obtain ⟨e', he'⟩ := Option.isSome_iff_exists.1 hfound
    have hid : e'.1 = e.1 := by simpa using List.find?_some he'
    have hsame : e' = e :=
      List.inj_on_of_nodup_map hnodup (List.mem_of_find?_eq_some he') he hid
    show ((index.find? (·.1 = e.1)).map Prod.snd).getD [] = e.2
    rw [he', hsame]
    rfl

theorem lineFaiss_cosine : IsCosine lineFaiss lineInner Int.sqrt 1 := by
  intro a b ha hb
  obtain ⟨x, rfl⟩ := List.length_eq_one_iff.1 ha
  obtain ⟨y, rfl⟩ := List.length_eq_one_iff.1 hb
  have hleft : lineInner (lineFaiss.normalizeL2 [x]) (lineFaiss.normalizeL2 [y]) =
      0 + x.sign * y.sign := rfl
  have hright : cosineSimilarity Int.sqrt [x] [y] =
      if Int.sqrt (0 + x * x) = 0 ∨ Int.sqrt (0 + y * y) = 0 then 0
      else (0 + x * y) / (Int.sqrt (0 + x * x) * Int.sqrt (0 + y * y)) := rfl
  rw [hleft, hright, zero_add, zero_add, zero_add, zero_add, Int.sqrt_eq, Int.sqrt_eq]
  split
  · rename_i hzero
    rcases hzero with hzero | hzero
    · have hx : x = 0 := by omega
      simp [hx]
    · have hy : y = 0 := by omega
      simp [hy]
  · rename_i hnonzero
    have hx : x ≠ 0 := fun h => hnonzero (.inl (by simp [h]))
    have hy : y ≠ 0 := fun h => hnonzero (.inr (by simp [h]))
    have hpos : (x.natAbs : ℤ) * y.natAbs ≠ 0 := by
      refine mul_ne_zero ?_ ?_
      · omega
      · omega
    refine (Int.ediv_eq_of_eq_mul_left hpos ?_).symm
    have hx' : x.sign * x.natAbs = x := Int.sign_mul_natAbs x
    have hy' : y.sign * y.natAbs = y := Int.sign_mul_natAbs y
    calc x * y = (x.sign * x.natAbs) * (y.sign * y.natAbs) := by rw [hx', hy']
      _ = x.sign * y.sign * (x.natAbs * y.natAbs) := by ring

/-- A node added once is found once. -/
theorem faiss_agrees_single :
    SameHits lineFaiss Int.sqrt (([.add "n1" [1] "w"]).foldl MemoryBackend.apply {})
      (([.add "n1" [1] "w"]).foldl (FaissBackend.apply lineFaiss) {}) [1] "w" 1 :=
  (faiss_agrees_iff lineFaiss_exact lineFaiss_cosine [.add "n1" [1] "w"]
    (by simp [RetrievalCall.OfDim]) "w" rfl (by decide)).1.2 (by decide) 1 le_rfl

/-- A node is added anew: Faiss finds it twice. -/
theorem node_found_twice :
    (((([.add "n1" [1] "w", .add "n1" [-1] "w"]).foldl MemoryBackend.apply
      ({} : MemoryBackend ℤ)).nodesOf "w").map fun n => cosineSimilarity Int.sqrt [1] n.2).Nodup ∧
    ¬ SameHits lineFaiss Int.sqrt
      (([.add "n1" [1] "w", .add "n1" [-1] "w"]).foldl MemoryBackend.apply {})
      (([.add "n1" [1] "w", .add "n1" [-1] "w"]).foldl (FaissBackend.apply lineFaiss) {})
      [1] "w" 2 := by
  refine ⟨by decide, ?_⟩
  rintro ⟨hits, hhits, -, hnodup⟩
  have htwice : ((([RetrievalCall.add "n1" [1] "w", .add "n1" [-1] "w"]).foldl
      (FaissBackend.apply lineFaiss) {}).query lineFaiss [1] "w" 2).1 =
        .ok [("n1", 1), ("n1", -1)] := rfl
  rw [htwice] at hhits
  obtain rfl := Except.ok.inj hhits
  revert hnodup
  decide

end Hermes

import Hermes.Spec.RetrievalBackends

/-!
# Vectors of two workspaces

A workspace adds rows of its own and takes them out of `vss_nodes` by its own id, so that an `add`
never touches the vectors of another workspace. `remove` deletes every other row of the workspace's
table, and `clear_workspace` drops that table: the table may be the other workspace's as well, or
`vss_nodes` itself.

* `Keeps`: what is indexed for a workspace is left as it is. One lemma for each statement.
* `indexed_call`: what a call leaves of the vectors of another workspace.
* `vss_isolation_iff`: when calls leave them unchanged.
-/

namespace Hermes

namespace VssDb

variable {β : Type} {S : VssSetup β} {db db' db'' : VssDb β} {w w' table : String}

/-! ## Tables -/

theorem nodeRows_insert (db : VssDb β) (table : String) (t : VssTable β) (h : table ≠ nodesKey) :
    VssDb.nodeRows (db.insert table t) = db.nodeRows := by
  unfold nodeRows
  rw [Dict.get?_insert_of_ne db (Ne.symm h)]

theorem nodeRows_insert_nodes (db : VssDb β) (rows : Index (NodeRow.rowid (β := β))) :
    VssDb.nodeRows (db.insert nodesKey (.nodes rows)) = some rows := by
  unfold nodeRows
  rw [Dict.get?_insert_self]

theorem get?_of_nodeRows {rows : Index (NodeRow.rowid (β := β))} (h : db.nodeRows = some rows) :
    db.get? nodesKey = some (.nodes rows) := by
  unfold nodeRows at h
  split at h
  · rename_i rows' hget
    obtain rfl := Option.some.inj h
    exact hget
  · cases h

theorem vectorsOf_insert (db : VssDb β) (table k : String) (t : VssTable β) :
    VssDb.vectorsOf (db.insert table t) k = if k = table then t.vectors else db.vectorsOf k := by
  unfold vectorsOf
  rw [Dict.get?_insert]
  by_cases hk : k = table
  · rw [if_pos hk, if_pos hk]
  · rw [if_neg hk, if_neg hk]

theorem ownRows_of_rows {rows : Index (NodeRow.rowid (β := β))} (h : db.nodeRows = some rows) :
    db.ownRows w = rows.values.filter fun r => r.workspaceId = w := by
  unfold ownRows
  rw [h]

theorem ownRows_of_none (h : db.nodeRows = none) : db.ownRows w = [] := by
  unfold ownRows
  rw [h]

theorem ownRows_congr (h : db'.nodeRows = db.nodeRows) : db'.ownRows w = db.ownRows w := by
  unfold ownRows
  rw [h]

/-- Two rows with one rowid are one row. -/
theorem eq_of_rowid {rows : Index (NodeRow.rowid (β := β))} {m n : NodeRow β}
    (hm : m ∈ rows.values) (hn : n ∈ rows.values) (h : m.rowid = n.rowid) : m = n :=
  List.inj_on_of_nodup_map rows.nodup_keys hm hn h

/-- A row of another workspace has no rowid of the workspace. -/
theorem not_own_rowid {rows : Index (NodeRow.rowid (β := β))} (hrows : db.nodeRows = some rows)
    (hne : w ≠ w') {n : NodeRow β} (hn : n ∈ db.ownRows w') (q : NodeRow β → Prop) [DecidablePred q] :
    (rows.values.any fun m => m.rowid = n.rowid ∧ m.workspaceId = w ∧ q m) = false := by
  rw [ownRows_of_rows hrows] at hn
  obtain ⟨hmem, hw⟩ := List.mem_filter.1 hn
  rw [decide_eq_true_eq] at hw
  rw [List.any_eq_false]
  intro m hm
  rw [decide_eq_true_eq]
  rintro ⟨hrowid, hmw, -⟩
  rw [eq_of_rowid hm hmem hrowid] at hmw
  exact hne (hmw.symm.trans hw)

theorem vectors_delete (p : ℕ → Bool) (t : VssTable β) :
    (t.delete p).vectors = t.vectors.filter fun v => !p v.1 := by
  cases t with
  | nodes rows =>
    show (rows.filter _).values.map _ = (rows.values.map _).filter _
    rw [Index.values_filter, List.filter_map]
    rfl
  | vss dim rows => rfl

/-- The rows of `vss_nodes` with the rowid of one of them. -/
theorem filter_rowid {rows : Index (NodeRow.rowid (β := β))} {n : NodeRow β}
    (hn : n ∈ rows.values) :
    (VssTable.nodes rows).vectors.filter (fun v => v.1 = n.rowid) = [(n.rowid, n.embedding)] := by
  have hnodup := rows.nodup_keys
  show (rows.values.map fun r => (r.rowid, r.embedding)).filter _ = _
  generalize rows.values = rs at hn hnodup
  induction rs with
  | nil => cases hn
  | cons r rs ih =>
    obtain ⟨hfresh, hrest⟩ := List.nodup_cons.1 hnodup
    rw [List.map_cons]
    rcases List.mem_cons.1 hn with rfl | hn
    · rw [List.filter_cons_of_pos (by simp), List.filter_eq_nil_iff.2]
      intro v hv
      obtain ⟨r, hr, rfl⟩ := List.mem_map.1 hv
      rw [decide_eq_true_eq]
      intro hrowid
      exact hfresh (hrowid ▸ List.mem_map_of_mem hr)
    · have hother : r.rowid ≠ n.rowid := by
        intro hrowid
        rw [hrowid] at hfresh
        exact hfresh (List.mem_map_of_mem hn)
      rw [List.filter_cons_of_neg (by simp [hother])]
      exact ih hn hrest

/-! ## What is left as it is -/

/-- The vectors of a workspace are left as they are. -/
structure Keeps (w' : String) (db db' : VssDb β) : Prop where
  own : db'.ownRows w' = db.ownRows w'
  vectors : ∀ n ∈ db.ownRows w',
    (db'.vectorsOf (tableKey w')).filter (fun v => v.1 = n.rowid) =
      (db.vectorsOf (tableKey w')).filter fun v => v.1 = n.rowid

theorem Keeps.refl (w' : String) (db : VssDb β) : Keeps w' db db := ⟨rfl, fun _ _ => rfl⟩

theorem Keeps.trans (h : Keeps w' db db') (h' : Keeps w' db' db'') : Keeps w' db db'' where
  own := h'.own.trans h.own
  vectors n hn := (h'.vectors n (by rw [h.own]; exact hn)).trans (h.vectors n hn)

theorem Keeps.indexed (h : Keeps w' db db') : db'.indexed w' = db.indexed w' := by
  unfold VssDb.indexed
  rw [h.own, List.flatMap_def, List.flatMap_def]
  congr 1
  refine List.map_congr_left fun n hn => ?_
  rw [h.vectors n hn]

/-- Nothing is indexed when no row of the table has the rowid of a row of the workspace. -/
theorem indexed_eq_nil
    (h : ∀ n ∈ db.ownRows w', ∀ v ∈ db.vectorsOf (tableKey w'), v.1 ≠ n.rowid) :
    db.indexed w' = [] := by
  unfold VssDb.indexed
  rw [List.flatMap_eq_nil_iff]
  intro n hn
  rw [List.map_eq_nil_iff, List.filter_eq_nil_iff]
  intro v hv
  rw [decide_eq_true_eq]
  exact h n hn v hv

theorem indexed_of_none (h : db.nodeRows = none) : db.indexed w' = [] := by
  refine indexed_eq_nil fun n hn => ?_
  rw [ownRows_of_none h] at hn
  cases hn

theorem indexed_of_no_table (h : db.get? (tableKey w') = none) : db.indexed w' = [] := by
  refine indexed_eq_nil fun n _ v hv => ?_
  unfold vectorsOf at hv
  rw [h] at hv
  cases hv

/-- Another table is written. -/
theorem keeps_other (t : VssTable β) (hnodes : table ≠ nodesKey) (hother : table ≠ tableKey w') :
    Keeps w' db (db.insert table t) where
  own := ownRows_congr (nodeRows_insert db table t hnodes)
  vectors n _ := by rw [vectorsOf_insert, if_neg (Ne.symm hother)]

/-- `vss_nodes` is written, with the same rows of the workspace. -/
theorem keeps_nodes {rows rows' : Index (NodeRow.rowid (β := β))} (hrows : db.nodeRows = some rows)
    (hown : (rows'.values.filter fun r => r.workspaceId = w') =
      rows.values.filter fun r => r.workspaceId = w') :
    Keeps w' db (db.insert nodesKey (.nodes rows')) where
  own := by
    rw [ownRows_of_rows (nodeRows_insert_nodes db rows'), ownRows_of_rows hrows]
    exact hown
  vectors n hn := by
    rw [vectorsOf_insert]
    split
    · rename_i hkey
      rw [ownRows_of_rows hrows] at hn
      have hmem := List.mem_of_mem_filter hn
      have hmem' : n ∈ rows'.values := by
        rw [← hown] at hn
        exact List.mem_of_mem_filter hn
      have hold : db.vectorsOf (tableKey w') = (VssTable.nodes rows).vectors := by
        unfold vectorsOf
        rw [hkey, get?_of_nodeRows hrows]
      rw [hold, filter_rowid hmem, filter_rowid hmem']
    · rfl

/-! ## The statements -/

theorem keeps_create (h : db.create S table = .ok db') : Keeps w' db db' := by
  unfold create at h
  split at h
  · obtain rfl := Except.ok.inj h
    exact Keeps.refl w' db
  · rename_i hnone
    obtain rfl := Except.ok.inj h
    have hrows : ∀ hkey : table = nodesKey, db.nodeRows = none ∧
        VssDb.nodeRows (db.insert table (.vss S.dim [])) = none := by
      intro hkey
      unfold nodeRows
      rw [← hkey, hnone, Dict.get?_insert_self]
      exact ⟨rfl, rfl⟩
    refine ⟨?_, fun n _ => ?_⟩
    · by_cases hkey : table = nodesKey
      · rw [ownRows_of_none (hrows hkey).1, ownRows_of_none (hrows hkey).2]
      · exact ownRows_congr (nodeRows_insert db table _ hkey)
    · rw [vectorsOf_insert]
      split
      · rename_i htable
        unfold vectorsOf
        rw [htable, hnone]
        rfl
      · rfl

theorem keeps_onNodes {f : Index (NodeRow.rowid (β := β)) → Index (NodeRow.rowid (β := β))}
    (hf : ∀ rows, ((f rows).values.filter fun r => r.workspaceId = w') =
      rows.values.filter fun r => r.workspaceId = w')
    (h : db.onNodes f = .ok db') : Keeps w' db db' := by
  unfold onNodes at h
  split at h
  · rename_i rows hrows
    obtain rfl := Except.ok.inj h
    exact keeps_nodes hrows (hf rows)
  · cases h

/-- Rows of one workspace are taken out of `vss_nodes`. -/
theorem filter_own {p : NodeRow β → Bool} (hp : ∀ r, r.workspaceId = w' → p r = true)
    (rows : Index (NodeRow.rowid (β := β))) :
    ((rows.filter p).values.filter fun r => r.workspaceId = w') =
      rows.values.filter fun r => r.workspaceId = w' := by
  rw [Index.values_filter, List.filter_filter]
  refine List.filter_congr fun r _ => ?_
  by_cases hr : r.workspaceId = w'
  · simp [hr, hp r hr]
  · simp [hr]

theorem le_nextRowid {rows : Index (NodeRow.rowid (β := β))} {r : NodeRow β}
    (h : r ∈ rows.values) : r.rowid < nextRowid rows := by
  unfold nextRowid
  generalize rows.values = rs at h
  induction rs with
  | nil => cases h
  | cons r' rs ih =>
    rw [List.map_cons, List.foldr_cons]
    rcases List.mem_cons.1 h with rfl | h
    · omega
    · have hrest := ih h
      omega

theorem keeps_replaceNode (hne : w ≠ w') {nodeId : String} {embedding : β}
    (h : db.replaceNode nodeId embedding w = .ok db') : Keeps w' db db' := by
  refine keeps_onNodes (fun rows => ?_) h
  -- the new row comes behind the others
  have hfresh : (rows.filter fun r => !(r.workspaceId = w ∧ r.nodeId = nodeId)).get?
      (nextRowid rows) = none := by
    rw [Index.get?_filter]
    have hnone : rows.get? (nextRowid rows) = none := by
      by_contra hsome
      obtain ⟨r, hr⟩ := Option.ne_none_iff_exists'.1 hsome
      have hrowid := Index.key_of_get? hr
      have hmem : r ∈ rows.values := Index.mem_values.2 (by rw [hrowid]; exact hr)
      have hlt := le_nextRowid hmem
      omega
    rw [hnone]
    rfl
  rw [Index.values_put_new hfresh, List.filter_append, List.filter_cons_of_neg (by simp [hne]),
    List.filter_nil, List.append_nil]
  refine filter_own (fun r hr => ?_) rows
  have hother : r.workspaceId ≠ w := fun h => hne (h.symm.trans hr)
  simp [hother]

/-- Rows are deleted that have no rowid of the workspace. -/
theorem keeps_deleteFrom {p : List (NodeRow β) → ℕ → Bool}
    (hp : ∀ rows, db.nodeRows = some rows → ∀ n ∈ db.ownRows w', p rows.values n.rowid = false)
    (h : db.deleteFrom table p = .ok db') : Keeps w' db db' := by
  unfold deleteFrom at h
  split at h
  · rename_i t rows hget hrows
    obtain rfl := Except.ok.inj h
    have hown := hp rows hrows
    refine ⟨?_, fun n hn => ?_⟩
    · by_cases hkey : table = nodesKey
      · rw [hkey] at hget
        rw [get?_of_nodeRows hrows] at hget
        obtain rfl := Option.some.inj hget
        have hrows' : VssDb.nodeRows (db.insert table ((VssTable.nodes rows).delete (p rows.values))) =
            some (rows.filter fun r => !p rows.values r.rowid) := by
          rw [hkey]
          exact nodeRows_insert_nodes db _
        rw [ownRows_of_rows hrows', ownRows_of_rows hrows, Index.values_filter, List.filter_filter]
        refine List.filter_congr fun r hr => ?_
        by_cases hw : r.workspaceId = w'
        · have hmem : r ∈ db.ownRows w' := by
            rw [ownRows_of_rows hrows]
            exact List.mem_filter.2 ⟨hr, decide_eq_true hw⟩
          simp [hw, hown r hmem]
        · simp [hw]
      · exact ownRows_congr (nodeRows_insert db table _ hkey)
    · rw [vectorsOf_insert]
      split
      · rename_i hkey
        rw [vectors_delete, List.filter_filter]
        have hold : db.vectorsOf (tableKey w') = t.vectors := by
          unfold vectorsOf
          rw [hkey, hget]
        rw [hold]
        refine List.filter_congr fun v _ => ?_
        by_cases hv : v.1 = n.rowid
        · simp [hv, hown n hn]
        · simp [hv]
      · rfl
  · cases h
  · cases h

theorem keeps_deleteOther {p : List (NodeRow β) → ℕ → Bool} (hnodes : table ≠ nodesKey)
    (hother : table ≠ tableKey w') (h : db.deleteFrom table p = .ok db') : Keeps w' db db' := by
  unfold deleteFrom at h
  split at h
  · obtain rfl := Except.ok.inj h
    exact keeps_other _ hnodes hother
  · cases h
  · cases h

theorem ok_of_map {ε α γ : Type} {x : Except ε α} {f : α → γ} {y : γ} (h : x.map f = .ok y) :
    ∃ a, x = .ok a ∧ f a = y := by
  cases x with
  | error exc => cases h
  | ok a => exact ⟨a, rfl, Except.ok.inj h⟩

theorem insertRows_ok : ∀ {rows : List (ℕ × β)} {t t' : VssTable β},
    insertRows S t rows = .ok t' →
      t'.vectors = t.vectors ++ rows ∧ ∀ nodes, t = .nodes nodes → t' = t := by
  intro rows
  induction rows with
  | nil =>
    intro t t' h
    obtain rfl := Except.ok.inj h
    exact ⟨(List.append_nil _).symm, fun _ _ => rfl⟩
  | cons row rows ih =>
    intro t t' h
    cases t with
    | nodes nodes => cases h
    | vss dim vectors =>
      unfold insertRows at h
      simp only at h
      split at h
      · obtain ⟨hvectors, -⟩ := ih h
        refine ⟨?_, fun nodes hnodes => by cases hnodes⟩
        rw [hvectors]
        show (vectors ++ [row]) ++ rows = vectors ++ (row :: rows)
        rw [List.append_assoc, List.singleton_append]
      · cases h

theorem keeps_insertVectors (hne : w ≠ w') {nodeId : String}
    (h : db.insertVectors S table nodeId w = .ok db') : Keeps w' db db' := by
  unfold insertVectors at h
  split at h
  · rename_i t rows hget hrows
    have hmap : (insertRows S t ((rows.values.filter fun r =>
        r.workspaceId = w ∧ r.nodeId = nodeId).map fun r => (r.rowid, r.embedding))).map
          (db.insert table) = .ok db' := h
    obtain ⟨t', ht', rfl⟩ := ok_of_map hmap
    obtain ⟨hvectors, hnodes⟩ := insertRows_ok ht'
    refine ⟨?_, fun n hn => ?_⟩
    · by_cases hkey : table = nodesKey
      · rw [hkey, get?_of_nodeRows hrows] at hget
        have hsame := hnodes rows (Option.some.inj hget).symm
        rw [hsame, ← Option.some.inj hget, hkey]
        refine ownRows_congr ?_
        rw [nodeRows_insert_nodes, hrows]
      · exact ownRows_congr (nodeRows_insert db table _ hkey)
    · rw [vectorsOf_insert]
      split
      · rename_i hkey
        have hold : db.vectorsOf (tableKey w') = t.vectors := by
          unfold vectorsOf
          rw [hkey, hget]
        rw [hvectors, hold, List.filter_append]
        refine List.append_right_eq_self.2 (List.filter_eq_nil_iff.2 fun v hv => ?_)
        obtain ⟨r, hr, rfl⟩ := List.mem_map.1 hv
        obtain ⟨hmem, hr⟩ := List.mem_filter.1 hr
        rw [decide_eq_true_eq] at hr ⊢
        intro hrowid
        have hnot := not_own_rowid hrows hne hn fun _ => True
        rw [List.any_eq_false] at hnot
        exact hnot r hmem (decide_eq_true ⟨hrowid, hr.1, trivial⟩)
      · rfl
  · cases h
  · cases h

theorem keeps_execute {statements : List (VssDb β → Except Exc (VssDb β))}
    (h : ∀ statement ∈ statements, ∀ db db', statement db = .ok db' → Keeps w' db db') :
    ∀ db : VssDb β, Keeps w' db (execute statements db).1 := by
  induction statements with
  | nil => exact Keeps.refl w'
  | cons statement statements ih =>
    intro db
    unfold execute
    split
    · rename_i db' hdb'
      exact (h statement List.mem_cons_self db db' hdb').trans
        (ih (fun s hs => h s (List.mem_cons_of_mem _ hs)) db')
    · exact Keeps.refl w' db

/-! ## A table of both -/

/-- Every row is deleted that has a rowid of the other workspace. -/
theorem indexed_deleteFrom {p : List (NodeRow β) → ℕ → Bool}
    (hp : ∀ rows, db.nodeRows = some rows → ∀ n ∈ db.ownRows w', p rows.values n.rowid = true)
    (hshared : table = tableKey w' ∨ table = nodesKey) (h : db.deleteFrom table p = .ok db') :
    db'.indexed w' = [] := by
  unfold deleteFrom at h
  split at h
  · rename_i t rows hget hrows
    obtain rfl := Except.ok.inj h
    have hown := hp rows hrows
    by_cases hkey : table = nodesKey
    · -- no row of the workspace is left
      rw [hkey, get?_of_nodeRows hrows] at hget
      have hrows' : VssDb.nodeRows (db.insert table (t.delete (p rows.values))) =
          some (rows.filter fun r => !p rows.values r.rowid) := by
        rw [hkey, ← Option.some.inj hget]
        exact nodeRows_insert_nodes db _
      refine indexed_eq_nil fun n hn => ?_
      rw [ownRows_of_rows hrows', Index.values_filter] at hn
      obtain ⟨hmem, hw⟩ := List.mem_filter.1 hn
      obtain ⟨hold, hkept⟩ := List.mem_filter.1 hmem
      have hdeleted := hown n (by
        rw [ownRows_of_rows hrows]
        exact List.mem_filter.2 ⟨hold, hw⟩)
      rw [hdeleted] at hkept
      cases hkept
    · have htable : table = tableKey w' := hshared.resolve_right hkey
      refine indexed_eq_nil fun n hn v hv hrowid => ?_
      rw [ownRows_congr (nodeRows_insert db table _ hkey)] at hn
      rw [vectorsOf_insert, if_pos htable.symm, vectors_delete] at hv
      have hkept := (List.mem_filter.1 hv).2
      rw [hrowid, hown n hn] at hkept
      cases hkept
  · cases h
  · cases h

theorem indexed_deleteFrom_error {p : List (NodeRow β) → ℕ → Bool} {exc : Exc}
    (hshared : table = tableKey w' ∨ table = nodesKey) (h : db.deleteFrom table p = .error exc) :
    db.indexed w' = [] := by
  unfold deleteFrom at h
  split at h
  · cases h
  · rename_i hnone
    rcases hshared with hkey | hkey
    · exact indexed_of_no_table (hkey ▸ hnone)
    · refine indexed_of_none ?_
      unfold nodeRows
      rw [← hkey, hnone]
  · rename_i hnone _
    exact indexed_of_none hnone

theorem indexed_drop (hshared : table = tableKey w' ∨ table = nodesKey)
    (h : db.drop table = .ok db') : db'.indexed w' = [] := by
  obtain rfl := Except.ok.inj h
  rcases hshared with hkey | hkey
  · refine indexed_of_no_table ?_
    rw [hkey, Dict.get?_erase, if_pos rfl]
  · refine indexed_of_none ?_
    unfold nodeRows
    rw [hkey, Dict.get?_erase, if_pos rfl]

theorem indexed_onNodes_error {f : Index (NodeRow.rowid (β := β)) → Index (NodeRow.rowid (β := β))}
    {exc : Exc} (h : db.onNodes f = .error exc) : db.indexed w' = [] := by
  unfold onNodes at h
  split at h
  · cases h
  · rename_i hnone
    exact indexed_of_none hnone

theorem indexed_pair {first second : VssDb β → Except Exc (VssDb β)}
    (hfirst : ∀ exc, first db = .error exc → db.indexed w' = [])
    (hfailed : ∀ db' exc, second db' = .error exc → db'.indexed w' = [])
    (hdone : ∀ db' db'', second db' = .ok db'' → db''.indexed w' = []) :
    (execute [first, second] db).1.indexed w' = [] := by
  cases hdb' : first db with
  | error exc =>
    simp only [execute, hdb']
    exact hfirst exc hdb'
  | ok db' =>
    cases hdb'' : second db' with
    | error exc =>
      simp only [execute, hdb', hdb'']
      exact hfailed db' exc hdb''
    | ok db'' =>
      simp only [execute, hdb', hdb'']
      exact hdone db' db'' hdb''

end VssDb

namespace VssCall

open VssDb

variable {β : Type} (S : VssSetup β) {w w' : String}

/-- The table of `w` is neither that of `w'` nor `vss_nodes`. -/
def Apart (w w' : String) : Prop := tableKey w ≠ tableKey w' ∧ tableKey w ≠ nodesKey

instance (w w' : String) : Decidable (Apart w w') := inferInstanceAs (Decidable (_ ∧ _))

/-- The call is an `add`. -/
def IsAdd : VssCall β → Prop
  | add _ _ => True
  | remove _ => False
  | clearWorkspace => False

/-- **An `add`** leaves the vectors of another workspace as they are. -/
theorem keeps_add (hne : w ≠ w') (nodeId : String) (embedding : β) (db : VssDb β) :
    Keeps w' db ((add nodeId embedding).apply S w db).1 := by
  refine keeps_execute (fun statement hs db db' h => ?_) db
  simp only [statements, List.mem_cons, List.not_mem_nil, or_false] at hs
  rcases hs with rfl | rfl | rfl | rfl
  · exact keeps_create h
  · exact keeps_replaceNode hne h
  · refine keeps_deleteFrom (fun rows hrows n hn => ?_) h
    exact not_own_rowid hrows hne hn fun m => m.nodeId = nodeId
  · exact keeps_insertVectors hne h

theorem keeps_deleteNodes (hne : w ≠ w') {db db' : VssDb β} {p : NodeRow β → Bool}
    (hp : ∀ r, r.workspaceId ≠ w → p r = true) (h : db.onNodes (Index.filter p) = .ok db') :
    Keeps w' db db' := by
  refine keeps_onNodes (fun rows => filter_own (fun r hr => hp r ?_) rows) h
  rintro hw
  exact hne (hw.symm.trans hr)

/-- **A call** apart from the other workspace's table and from `vss_nodes`. -/
theorem keeps_call (hne : w ≠ w') (hapart : Apart w w') (call : VssCall β) (db : VssDb β) :
    Keeps w' db (call.apply S w db).1 := by
  cases call with
  | add nodeId embedding => exact keeps_add S hne nodeId embedding db
  | remove nodeId =>
    refine keeps_execute (fun statement hs db db' h => ?_) db
    simp only [statements, List.mem_cons, List.not_mem_nil, or_false] at hs
    rcases hs with rfl | rfl
    · exact keeps_deleteNodes hne (fun r hr => by simp [hr]) h
    · exact keeps_deleteOther hapart.2 hapart.1 h
  | clearWorkspace =>
    refine keeps_execute (fun statement hs db db' h => ?_) db
    simp only [statements, List.mem_cons, List.not_mem_nil, or_false] at hs
    rcases hs with rfl | rfl
    · exact keeps_deleteNodes hne (fun r hr => by simp [hr]) h
    · obtain rfl := Except.ok.inj h
      refine ⟨ownRows_congr ?_, fun n _ => ?_⟩
      · unfold nodeRows
        rw [Dict.get?_erase, if_neg (Ne.symm hapart.2)]
      · unfold vectorsOf
        rw [Dict.get?_erase, if_neg (Ne.symm hapart.1)]

/-- **A `remove` or `clear_workspace`** on a table that is not apart leaves no vector. -/
theorem indexed_shared (hne : w ≠ w') (hshared : ¬ Apart w w') {call : VssCall β}
    (hcall : ¬ call.IsAdd) (db : VssDb β) : (call.apply S w db).1.indexed w' = [] := by
  have hshared' : tableKey w = tableKey w' ∨ tableKey w = nodesKey := by
    by_contra hnot
    exact hshared (not_or.1 hnot)
  cases call with
  | add nodeId embedding => exact absurd trivial hcall
  | remove nodeId =>
    unfold apply statements
    refine indexed_pair (fun exc h => indexed_onNodes_error h)
      (fun db' exc h => indexed_deleteFrom_error hshared' h) fun db' db'' h => ?_
    refine indexed_deleteFrom (fun rows hrows n hn => ?_) hshared' h
    have hnot := not_own_rowid hrows hne hn fun _ => True
    simp only [and_true] at hnot
    rw [hnot]
    rfl
  | clearWorkspace =>
    unfold apply statements
    refine indexed_pair (fun exc h => indexed_onNodes_error h) (fun db' exc h => ?_)
      fun db' db'' h => indexed_drop hshared' h
    cases h

/-- The calls for a workspace, one after the other. -/
def run (w : String) (calls : List (VssCall β)) (db : VssDb β) : VssDb β :=
  calls.foldl (fun db call => (call.apply S w db).1) db

theorem indexed_run_apart (hne : w ≠ w') (hapart : Apart w w') (calls : List (VssCall β)) :
    ∀ db, (run S w calls db).indexed w' = db.indexed w' := by
  induction calls with
  | nil => exact fun _ => rfl
  | cons call calls ih =>
    intro db
    exact (ih _).trans (keeps_call S hne hapart call db).indexed

theorem indexed_run_adds (hne : w ≠ w') (calls : List (VssCall β)) :
    ∀ db, (∀ call ∈ calls, call.IsAdd) → (run S w calls db).indexed w' = db.indexed w' := by
  induction calls with
  | nil => exact fun _ _ => rfl
  | cons call calls ih =>
    intro db hadds
    have hcall := hadds call List.mem_cons_self
    refine (ih _ fun c hc => hadds c (List.mem_cons_of_mem _ hc)).trans ?_
    cases call with
    | add nodeId embedding => exact (keeps_add S hne nodeId embedding db).indexed
    | remove nodeId => cases hcall
    | clearWorkspace => cases hcall

/-- Nothing comes in for the other workspace. -/
theorem indexed_run_nil (hne : w ≠ w') (hshared : ¬ Apart w w') (calls : List (VssCall β)) :
    ∀ db, (∃ call ∈ calls, ¬ call.IsAdd) ∨ db.indexed w' = [] →
      (run S w calls db).indexed w' = [] := by
  induction calls with
  | nil =>
    intro db h
    rcases h with ⟨call, hcall, -⟩ | h
    · cases hcall
    · exact h
  | cons call calls ih =>
    intro db h
    refine ih _ ?_
    by_cases hadd : call.IsAdd
    · cases call with
      | add nodeId embedding =>
        rcases h with ⟨c, hc, hnot⟩ | h
        · rcases List.mem_cons.1 hc with rfl | hc
          · exact absurd hadd hnot
          · exact .inl ⟨c, hc, hnot⟩
        · exact .inr ((keeps_add S hne nodeId embedding db).indexed.trans h)
      | remove nodeId => cases hadd
      | clearWorkspace => cases hadd
    · exact .inr (indexed_shared S hne hshared hadd db)

/-- **Isolation of the vectors** of `w'` from calls for `w`: they are unchanged exactly when the
table of `w` is neither that of `w'` nor `vss_nodes`, or all calls add, or there are none. -/
theorem vss_isolation_iff (hne : w ≠ w') (calls : List (VssCall β)) (db : VssDb β) :
    (run S w calls db).indexed w' = db.indexed w' ↔
      Apart w w' ∨ (∀ call ∈ calls, call.IsAdd) ∨ db.indexed w' = [] := by
  constructor
  · intro hsame
    by_contra hnot
    rw [not_or, not_or] at hnot
    obtain ⟨hshared, hadds, hsome⟩ := hnot
    push Not at hadds
    exact hsome (hsame.symm.trans (indexed_run_nil S hne hshared calls db (.inl hadds)))
  · rintro (hapart | hadds | hnil)
    · exact indexed_run_apart S hne hapart calls db
    · exact indexed_run_adds S hne calls db hadds
    · by_cases hapart : Apart w w'
      · exact indexed_run_apart S hne hapart calls db
      · rw [hnil]
        exact indexed_run_nil S hne hapart calls db (.inr hnil)

/-- A backend of one dimension, with numbers for blobs. -/
def plainSetup : VssSetup ℕ where
  dim := 1
  accepts _ _ := true

/-- A new database. -/
def newDb : VssDb ℕ := (∅ : Dict String (VssTable ℕ)).insert nodesKey (.nodes ∅)

/-- Two workspaces with tables of their own. -/
theorem vss_isolation_other :
    (run plainSetup "beta" [.add "n2" 8, .remove "n2", .clearWorkspace]
      ((add "n1" 7).apply plainSetup "alpha" newDb).1).indexed "alpha" =
        ((add "n1" 7).apply plainSetup "alpha" newDb).1.indexed "alpha" :=
  (vss_isolation_iff plainSetup (show "beta" ≠ "alpha" by decide)
    [.add "n2" 8, .remove "n2", .clearWorkspace] _).2 (.inl (by decide))

/-- Two workspaces with one table: a `remove` for the one deletes the vectors of the other. -/
theorem vectors_of_another_removed :
    (run plainSetup "a-b" [.remove "n2"]
      ((add "n1" 7).apply plainSetup "a_b" newDb).1).indexed "a_b" ≠
        ((add "n1" 7).apply plainSetup "a_b" newDb).1.indexed "a_b" := by
  decide

end VssCall

end Hermes

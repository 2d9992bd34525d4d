import Hermes.Spec.Persistence

/-!
# A database of entities, as their index

Where what is written is read back, a database that only `save` writes to is an index of entities
under their ids.

* `Stores`: the rows are those of the entities.
* `Stores.save`: an entity that is saved is put into the index.
* `Stores.list`: what is listed are the entities of that workspace and type.
* `exists_list`, `mem_list`: what is listed of rows that need not all be read back.
-/

namespace Hermes

namespace PersistenceRegistry

variable {ε δ : Type} {codec : EntityCodec ε δ} {s : PersistenceRegistry δ}
  {x : Index codec.id}

/-- The rows of the database are those of the entities, in their order. -/
def Stores (codec : EntityCodec ε δ) (s : PersistenceRegistry δ) (x : Index codec.id) : Prop :=
  Dict.Aligned (fun _ r e => r = row codec e) s.entities.dict x.dict

theorem stores_empty (codec : EntityCodec ε δ) (shared : Bool) : Stores codec { shared } ∅ :=
  List.Forall₂.nil

/-- **An entity is saved.** -/
theorem Stores.save (h : Stores codec s x) (entity : ε) :
    Stores codec (s.save codec entity) (x.put entity) :=
  Dict.Aligned.insert h _ rfl fun _ _ _ _ hr => hr

/-- Entities are saved one by one. -/
theorem Stores.saveAll (entities : List ε) : ∀ {s : PersistenceRegistry δ} {x : Index codec.id},
    Stores codec s x → Stores codec (entities.foldl (fun s e => s.save codec e) s)
      (entities.foldl Index.put x) := by
  induction entities with
  | nil => intro s x h; exact h
  | cons e es ih => intro s x h; exact ih (h.save e)

theorem Stores.values (h : Stores codec s x) : s.entities.values = x.values.map (row codec) := by
  have hall := Dict.Aligned.values h
  have hrows : List.Forall₂ (fun r e => r = row codec e) s.entities.values x.values :=
    hall.imp fun _ _ ⟨_, hr⟩ => hr
  rw [← List.forall₂_eq_eq_eq, List.forall₂_map_right_iff]
  exact hrows

/-- The entities that are rehydrated from their own rows. -/
theorem mapM_rehydrate (hrt : ∀ e, codec.rehydrate (codec.type e) (codec.dump e) = .ok e)
    (es : List ε) :
    (es.map (row codec)).mapM (fun r => codec.rehydrate r.type r.data) = .ok es := by
  induction es with
  | nil => rfl
  | cons e es ih =>
    have hrow : codec.rehydrate (row codec e).type (row codec e).data = .ok e := hrt e
    rw [List.map_cons, List.mapM_cons, hrow, ih]
    rfl

/-- **What is listed** for a workspace and a type. -/
theorem Stores.list (h : Stores codec s x)
    (hrt : ∀ e, codec.rehydrate (codec.type e) (codec.dump e) = .ok e) (workspaceId : String)
    (entityType : String) (htype : entityType ≠ "") :
    ∃ es, s.list codec workspaceId (some entityType) = .ok es ∧
      es.Perm (x.values.filter fun e =>
        codec.workspaceId e = workspaceId ∧ codec.type e = entityType) := by
  have htruthy : truthy (some entityType) = some entityType := if_neg htype
  have hrows : (s.rowsOf workspaceId).filter (fun r => r.type = entityType) =
      (x.values.filter fun e => codec.workspaceId e = workspaceId ∧ codec.type e = entityType).map
        (row codec) := by
    unfold rowsOf
    rw [h.values, List.filter_map, List.filter_map, List.filter_filter]
    congr 1
    refine List.filter_congr fun e _ => ?_
    rw [Bool.eq_iff_iff]
    simp only [Function.comp_apply, row, Bool.and_eq_true, decide_eq_true_eq]
    constructor
    · rintro ⟨htype, hworkspace⟩
      exact ⟨of_decide_eq_true hworkspace, of_decide_eq_true htype⟩
    · rintro ⟨hworkspace, htype⟩
      exact ⟨decide_eq_true htype, decide_eq_true hworkspace⟩
  have hsort := List.map_mergeSort (r := fun a b => decide (codec.id a ≤ codec.id b))
    (s := fun a b : EntityRow δ => decide (a.id ≤ b.id)) (f := row codec)
    (l := x.values.filter fun e => codec.workspaceId e = workspaceId ∧ codec.type e = entityType)
    (fun _ _ _ _ => rfl)
  refine ⟨_, ?_, List.mergeSort_perm _ fun a b => decide (codec.id a ≤ codec.id b)⟩
  unfold PersistenceRegistry.list
  simp only [htruthy]
  rw [hrows, ← hsort]
  exact mapM_rehydrate hrt _

/-! ## Rows -/

/-- Rows that can all be read. -/
theorem exists_mapM {f : EntityRow δ → Except Exc ε} {rows : List (EntityRow δ)}
    (hok : ∀ r ∈ rows, ∃ e, f r = .ok e) : ∃ es, rows.mapM f = .ok es := by
  induction rows with
  | nil => exact ⟨[], rfl⟩
  | cons r rows ih =>
    obtain ⟨e, he⟩ := hok r List.mem_cons_self
    obtain ⟨es, hes⟩ := ih fun r' hr' => hok r' (List.mem_cons_of_mem _ hr')
    refine ⟨e :: es, ?_⟩
    rw [List.mapM_cons, he, hes]
    rfl

theorem mem_mapM {f : EntityRow δ → Except Exc ε} {rows : List (EntityRow δ)} {e : ε} :
    ∀ {es}, rows.mapM f = .ok es → (e ∈ es ↔ ∃ r ∈ rows, f r = .ok e) := by
  induction rows with
  | nil =>
    intro es h
    cases h
    simp
  | cons r rows ih =>
    intro es h
    rw [List.mapM_cons] at h
    cases hr : f r with
    | error exc =>
      rw [hr] at h
      cases h
    | ok e' =>
      rw [hr] at h
      cases hes : rows.mapM f with
      | error exc =>
        rw [hes] at h
        cases h
      | ok es' =>
        rw [hes] at h
        cases h
        simp only [List.mem_cons, exists_eq_or_imp, ih hes, hr, Except.ok.injEq]
        exact or_congr_left eq_comm

theorem eq_of_truthy {s name : String} (h : truthy (some s) = some name) : s = name := by
  unfold truthy at h
  simp only at h
  split at h
  · cases h
  · exact Option.some.inj h

/-- The rows that `list` selects. -/
theorem list_eq (s : PersistenceRegistry δ) (workspaceId : String) (entityType : Option String) :
    s.list codec workspaceId entityType =
      (((s.rowsOf workspaceId).filter fun r => ∀ name ∈ truthy entityType, r.type = name).mergeSort
        fun a b => a.id ≤ b.id).mapM fun r => codec.rehydrate r.type r.data := by
  unfold PersistenceRegistry.list
  cases truthy entityType with
  | none => simp
  | some name => simp

theorem mem_selected {workspaceId : String} {entityType : Option String} {r : EntityRow δ} :
    r ∈ ((s.rowsOf workspaceId).filter fun r => ∀ name ∈ truthy entityType, r.type = name).mergeSort
        (fun a b => a.id ≤ b.id) ↔
      r ∈ s.entities.values ∧ r.workspaceId = workspaceId ∧
        ∀ name ∈ truthy entityType, r.type = name := by
  rw [(List.mergeSort_perm _ _).mem_iff, List.mem_filter]
  unfold rowsOf
  rw [List.mem_filter, decide_eq_true_eq, decide_eq_true_eq, and_assoc]

/-- What is listed when each row that is selected can be read. -/
theorem exists_list (codec : EntityCodec ε δ) (s : PersistenceRegistry δ) (workspaceId : String)
    (entityType : Option String)
    (hok : ∀ r ∈ s.entities.values, (∀ name ∈ truthy entityType, r.type = name) →
      ∃ e, codec.rehydrate r.type r.data = .ok e) :
    ∃ es, s.list codec workspaceId entityType = .ok es := by
  rw [list_eq]
  refine exists_mapM fun r hr => ?_
  obtain ⟨hmem, -, htype⟩ := mem_selected.1 hr
  exact hok r hmem htype

/-- **What is listed.** -/
theorem mem_list {workspaceId : String} {entityType : Option String} {es : List ε} {e : ε}
    (h : s.list codec workspaceId entityType = .ok es) :
    e ∈ es ↔ ∃ r ∈ s.entities.values, r.workspaceId = workspaceId ∧
      (∀ name ∈ truthy entityType, r.type = name) ∧ codec.rehydrate r.type r.data = .ok e := by
  rw [list_eq] at h
  rw [mem_mapM h]
  constructor
  · rintro ⟨r, hr, he⟩
    obtain ⟨hmem, hworkspace, htype⟩ := mem_selected.1 hr
    exact ⟨r, hmem, hworkspace, htype, he⟩
  · rintro ⟨r, hmem, hworkspace, htype, he⟩
    exact ⟨r, mem_selected.2 ⟨hmem, hworkspace, htype⟩, he⟩

end PersistenceRegistry

/-!
## Entities that are saved and read again

A row is written under the name of its entity's class, and read as the class that `_TYPE_TO_CLASS` has
for the name, which is `BaseEntity` for the names that it does not have.

* `get?_saveAll`: the row of an entity after the last save of its id.
* `entity_round_trip_iff`: an entity comes back exactly when its class is in the table.
-/

namespace PersistenceRegistry

variable {ε δ : Type} {codec : EntityCodec ε δ} {s : PersistenceRegistry δ} {e : ε}

/-- The entities are saved, one after the other. -/
def saveAll (codec : EntityCodec ε δ) (s : PersistenceRegistry δ) (es : List ε) :
    PersistenceRegistry δ :=
  es.foldl (fun s e => s.save codec e) s

theorem get?_save (s : PersistenceRegistry δ) (e : ε) (id : String) :
    (s.save codec e).entities.get? id =
      if id = codec.id e then some (row codec e) else s.entities.get? id :=
  Index.get?_put _ _ _

/-- A row is not changed by entities with other ids. -/
theorem get?_saveAll_of_ne {id : String} (es : List ε) (hne : ∀ e ∈ es, codec.id e ≠ id) :
    ∀ {s : PersistenceRegistry δ}, (saveAll codec s es).entities.get? id = s.entities.get? id := by
  induction es with
  | nil => intro s; rfl
  | cons e es ih =>
    intro s
    have hrest := @ih (fun e' he' => hne e' (List.mem_cons_of_mem _ he')) (s.save codec e)
    rw [get?_save, if_neg (hne e List.mem_cons_self).symm] at hrest
    exact hrest

/-- **The row of an entity** after the last save of its id. -/
theorem get?_saveAll (s : PersistenceRegistry δ) (before : List ε) (e : ε) {after : List ε}
    (hlast : ∀ e' ∈ after, codec.id e' ≠ codec.id e) :
    (saveAll codec s (before ++ e :: after)).entities.get? (codec.id e) = some (row codec e) := by
  unfold saveAll
  rw [List.foldl_append, List.foldl_cons]
  refine (get?_saveAll_of_ne after hlast).trans ?_
  rw [get?_save, if_pos rfl]

/-- Each row is that of an entity. -/
theorem mem_rows_saveAll (es : List ε) : ∀ {s : PersistenceRegistry δ} {r : EntityRow δ},
    r ∈ (saveAll codec s es).entities.values → r ∈ s.entities.values ∨ ∃ e ∈ es, r = row codec e := by
  induction es with
  | nil => intro s r hr; exact .inl hr
  | cons e es ih =>
    intro s r hr
    rcases ih hr with hr | ⟨e', he', hr⟩
    · rw [Index.mem_values, get?_save] at hr
      split at hr
      · exact .inr ⟨e, List.mem_cons_self, (Option.some.inj hr).symm⟩
      · exact .inl (Index.mem_values.2 hr)
    · exact .inr ⟨e', List.mem_cons_of_mem _ he', hr⟩

/-- An entity comes back: by its id, and in the list of its workspace, whether that is asked for all
types or for its own. -/
structure ComesBack (codec : EntityCodec ε δ) (s : PersistenceRegistry δ) (e : ε) : Prop where
  get : s.get codec (codec.id e) = some (.ok e)
  list : ∀ entityType, entityType = none ∨ entityType = some (codec.type e) →
    ∃ es, s.list codec (codec.workspaceId e) entityType = .ok es ∧ e ∈ es

end PersistenceRegistry

open PersistenceRegistry

variable {φ : EntityClass → Type} {δ : Type} {P : Pydantic φ δ}

/-- The table has the classes under their own names. -/
theorem rehydrateClass_name {c : EntityClass} (hc : c.name ∈ typeToClass.keys) :
    rehydrateClass c.name = c := by
  revert hc
  cases c <;> decide

/-- A class that is not in the table is read as another class. -/
theorem rehydrateClass_ne {c : EntityClass} (hc : c ≠ .baseEntity)
    (hout : c.name ∉ typeToClass.keys) : rehydrateClass c.name ≠ c := by
  have hnone : typeToClass.get? c.name = none := Dict.get?_eq_none_iff.2 hout
  unfold rehydrateClass
  rw [hnone]
  exact hc.symm

/-- **Every row can be read**: as its own class, or as `BaseEntity`. -/
theorem Pydantic.rehydrates (hrt : P.RoundTrips) (hextra : P.ExtraAllowed) (e : Σ c, φ c) :
    ∃ e', P.codec.rehydrate (P.codec.type e) (P.codec.dump e) = .ok e' := by
  obtain ⟨c, f⟩ := e
  show ∃ e', (P.validateJson (rehydrateClass c.name) (P.dumpJson f)).map (Sigma.mk _) = .ok e'
  by_cases hin : c.name ∈ typeToClass.keys
  · rw [rehydrateClass_name hin, hrt c f]
    exact ⟨_, rfl⟩
  · have hbase : rehydrateClass c.name = .baseEntity := by
      unfold rehydrateClass
      rw [Dict.get?_eq_none_iff.2 hin]
      rfl
    obtain ⟨f', hf'⟩ := hextra c f
    rw [hbase, hf']
    exact ⟨_, rfl⟩

/-- **An entity comes back** exactly when its class is in the table. -/
theorem entity_round_trip_iff (hrt : P.RoundTrips) (hextra : P.ExtraAllowed) (shared : Bool)
    (before : List (Σ c, φ c)) (e : Σ c, φ c) (after : List (Σ c, φ c))
    (hclass : e.1 ∈ entityTypes.values ∨ e.1 = .mcpSessionEvent)
    (hlast : ∀ e' ∈ after, P.id e'.2 ≠ P.id e.2) :
    ComesBack P.codec (saveAll P.codec { shared } (before ++ e :: after)) e ↔
      e.1.name ∈ typeToClass.keys := by
  have hrow : (saveAll P.codec { shared } (before ++ e :: after)).entities.get? (P.codec.id e) =
      some (row P.codec e) := get?_saveAll { shared } before e hlast
  have hget : (saveAll P.codec { shared } (before ++ e :: after)).get P.codec (P.codec.id e) =
      some (P.codec.rehydrate (P.codec.type e) (P.codec.dump e)) := by
    unfold PersistenceRegistry.get
    rw [hrow]
    rfl
  have hread : e.1.name ∈ typeToClass.keys →
      P.codec.rehydrate (P.codec.type e) (P.codec.dump e) = .ok e := by
    intro hin
    show (P.validateJson (rehydrateClass e.1.name) (P.dumpJson e.2)).map (Sigma.mk _) = .ok e
    rw [rehydrateClass_name hin, hrt e.1 e.2]
    rfl
  constructor
  · rintro ⟨hback, -⟩
    by_contra hout
    rw [hget] at hback
    have hok : (P.validateJson (rehydrateClass e.1.name) (P.dumpJson e.2)).map (Sigma.mk _) =
        .ok e := Option.some.inj hback
    have hbase : e.1 ≠ .baseEntity := by
      intro heq
      rw [heq] at hclass
      revert hclass
      decide
    cases hvalid : P.validateJson (rehydrateClass e.1.name) (P.dumpJson e.2) with
    | error exc =>
      rw [hvalid] at hok
      cases hok
    | ok f =>
      rw [hvalid] at hok
      exact rehydrateClass_ne hbase hout (congrArg Sigma.fst (Except.ok.inj hok))
  · intro hin
    refine ⟨by rw [hget, hread hin], fun entityType htype => ?_⟩
    have hall : ∀ r ∈ (saveAll P.codec { shared } (before ++ e :: after)).entities.values,
        ∃ e', P.codec.rehydrate r.type r.data = .ok e' := by
      intro r hr
      rcases mem_rows_saveAll _ hr with hr | ⟨e', -, rfl⟩
      · cases hr
      · exact P.rehydrates hrt hextra e'
    obtain ⟨es, hes⟩ := exists_list P.codec _ (P.codec.workspaceId e) entityType
      fun r hr _ => hall r hr
    refine ⟨es, hes, (mem_list hes).2 ⟨row P.codec e, Index.mem_values.2 hrow, rfl, ?_, hread hin⟩⟩
    intro name hname
    rcases htype with rfl | rfl
    · cases hname
    · exact eq_of_truthy hname

/-- Entities of an `id` and a `workspace_id`, with the pair as their JSON. -/
def plainFields : Pydantic (fun _ => String × String) (String × String) where
  id f := f.1
  workspaceId f := f.2
  dumpJson f := f
  validateJson _ data := .ok data

theorem entity_round_trip_document :
    ComesBack plainFields.codec
        (saveAll plainFields.codec { shared := true }
          ([⟨.document, ("d1", "ws")⟩] ++ ⟨.document, ("d1", "ws2")⟩ :: [⟨.task, ("t1", "ws2")⟩]))
        ⟨.document, ("d1", "ws2")⟩ ↔ "Document" ∈ typeToClass.keys :=
  entity_round_trip_iff (P := plainFields) (fun _ _ => rfl) (fun _ f => ⟨f, rfl⟩) true
    [⟨.document, ("d1", "ws")⟩] ⟨.document, ("d1", "ws2")⟩ [⟨.task, ("t1", "ws2")⟩]
    (by decide) (by decide)

/-- A saved task is not a task when it is read. -/
theorem task_lost : ¬ ∀ (before : List (Σ _ : EntityClass, String × String))
    (e : Σ _ : EntityClass, String × String) (after : List (Σ _ : EntityClass, String × String)),
    e.1 ∈ entityTypes.values ∨ e.1 = .mcpSessionEvent →
      (∀ e' ∈ after, plainFields.codec.id e' ≠ plainFields.codec.id e) →
        ComesBack plainFields.codec
          (saveAll plainFields.codec { shared := true } (before ++ e :: after)) e := by
  intro h
  have hback := (h [] ⟨.task, ("t1", "ws")⟩ [] (by decide) (by decide)).get
  have hread : (saveAll plainFields.codec { shared := true }
      [⟨.task, ("t1", "ws")⟩]).get plainFields.codec "t1" =
        some (.ok ⟨.baseEntity, ("t1", "ws")⟩) := rfl
  have heq : (⟨.baseEntity, ("t1", "ws")⟩ : Σ _ : EntityClass, String × String) =
      ⟨.task, ("t1", "ws")⟩ := Except.ok.inj (Option.some.inj (hread.symm.trans hback))
  exact absurd (congrArg Sigma.fst heq) (by decide)

end Hermes

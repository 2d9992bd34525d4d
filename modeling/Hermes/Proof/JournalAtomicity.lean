import Hermes.Spec.EventStore

/-!
# The two journals of an event store

`append` puts an event into `_events` before it writes the row, so that an event whose row SQLite
refuses stays in memory alone.

* `append_accepted`, `append_refused`: what a call does.
* `atomic_step_iff`: one call on journals that agree.
* `append_atomic_iff`: the journals agree after each call, and no call that raises leaves anything
  behind, exactly when the table is empty at first and takes every event.
-/

namespace Hermes

namespace EventStore

variable {π τ : Type} {codec : EventCodec π τ}

variable (codec) in
/-- The row of an event can be written, if its id is new. -/
def Storable (e : DomainEvent π τ) : Prop :=
  (∃ json, codec.dumps e.payload = .ok json) ∧ sqliteInteger e.version

theorem row_ok {e : DomainEvent π τ} {row : EventRow} (h : codec.row e = .ok row) :
    row.id = e.id ∧ row.aggregateId = e.aggregateId := by
  unfold EventCodec.row at h
  split at h
  · cases h
  · split at h
    · cases h
      exact ⟨rfl, rfl⟩
    · cases h

theorem storable_iff {e : DomainEvent π τ} :
    Storable codec e ↔ ∃ row, codec.row e = .ok row := by
  unfold Storable EventCodec.row
  cases codec.dumps e.payload with
  | error text => simp
  | ok json =>
    by_cases hv : sqliteInteger e.version
    · simp [hv]
    · simp [hv]

/-! ## What a call does -/

theorem append_other (s : EventStore π τ) (typeName : String) :
    s.step codec (.other typeName) = s := rfl

/-- **A row that is written**: the event is in both. -/
theorem append_accepted {s : EventStore π τ} {table : Index EventRow.id} {e : DomainEvent π τ}
    {row : EventRow} (hdb : s.db = some table) (hrow : codec.row e = .ok row)
    (hnew : table.get? e.id = none) :
    s.append codec (.event e) = (.ok (), ⟨s.events ++ [e], some (table.put row)⟩) := by
  have hid : table.get? row.id = none := by rw [(row_ok hrow).1, hnew]
  simp [append, hdb, hrow, hid]

/-- **A row that is refused**: the event is in `_events` alone. -/
theorem append_refused {s : EventStore π τ} {table : Index EventRow.id} {e : DomainEvent π τ}
    (hdb : s.db = some table) (h : ¬ (Storable codec e ∧ table.get? e.id = none)) :
    ∃ err, s.append codec (.event e) = (.error err, ⟨s.events ++ [e], some table⟩) := by
  cases hrow : codec.row e with
  | error err => exact ⟨err, by simp [append, hdb, hrow]⟩
  | ok row =>
    have hhas : table.get? row.id ≠ none := by
      intro hnone
      rw [(row_ok hrow).1] at hnone
      exact h ⟨storable_iff.2 ⟨row, hrow⟩, hnone⟩
    have hsome := Option.isSome_iff_ne_none.2 hhas
    exact ⟨.integrityError, by simp [append, hdb, hrow, hsome]⟩

theorem agrees_some {events : List (DomainEvent π τ)} {table : Index EventRow.id} :
    Agrees codec ⟨events, some table⟩ ↔
      List.Forall₂ (fun e row => codec.row e = .ok row) events table.values := by
  constructor
  · intro h
    exact h table rfl
  · rintro h _ ⟨⟩
    exact h

/-- The ids of the table are those of the journal. -/
theorem Agrees.ids {s : EventStore π τ} {table : Index EventRow.id} (h : s.Agrees codec)
    (hdb : s.db = some table) : table.keys = s.events.map DomainEvent.id := by
  have hrows := h table hdb
  rw [table.keys_eq]
  generalize table.values = rows at hrows ⊢
  generalize s.events = events at hrows ⊢
  induction hrows with
  | nil => rfl
  | cons hrow _ ih => rw [List.map_cons, List.map_cons, ih, (row_ok hrow).1]

/-- The rows of an aggregate are its stream. -/
theorem Agrees.readStream {s : EventStore π τ} {table : Index EventRow.id} (h : s.Agrees codec)
    (hdb : s.db = some table) (aggregateId : String) :
    List.Forall₂ (fun e row => codec.row e = .ok row) (s.readStream aggregateId)
      (table.values.filter fun row => row.aggregateId = aggregateId) := by
  have hrows := h table hdb
  unfold EventStore.readStream
  generalize table.values = rows at hrows ⊢
  generalize s.events = events at hrows ⊢
  induction hrows with
  | nil => exact .nil
  | cons hrow _ ih =>
    rw [List.filter_cons, List.filter_cons, (row_ok hrow).2]
    split
    · exact .cons hrow ih
    · exact ih

/-- `count` is the number of rows. -/
theorem Agrees.count {s : EventStore π τ} {table : Index EventRow.id} (h : s.Agrees codec)
    (hdb : s.db = some table) : s.count = table.values.length :=
  (h table hdb).length_eq

/-- An event that is written stays in both. -/
theorem step_accepted {s : EventStore π τ} {table : Index EventRow.id} (h : s.Agrees codec)
    (hdb : s.db = some table) {e : DomainEvent π τ} (hstorable : Storable codec e)
    (hnew : e.id ∉ s.events.map DomainEvent.id) :
    ∃ table', (s.step codec (.event e)).db = some table' ∧
      (s.step codec (.event e)).events = s.events ++ [e] := by
  obtain ⟨row, hrow⟩ := storable_iff.1 hstorable
  have hid : table.get? e.id = none := by
    rw [← h.ids hdb] at hnew
    exact Index.get?_eq_none_iff.2 hnew
  unfold step
  rw [append_accepted hdb hrow hid]
  exact ⟨_, rfl, rfl⟩

/-! ## One call -/

/-- What a call has to be given for the journals to agree after it, if they did before. -/
def Accepted (codec : EventCodec π τ) (s : EventStore π τ) (a : Appended π τ) : Prop :=
  ∀ e, a = .event e → Storable codec e ∧ e.id ∉ s.events.map DomainEvent.id

/-- **One call** on journals that agree. -/
theorem atomic_step_iff {s : EventStore π τ} {table : Index EventRow.id} (h : s.Agrees codec)
    (hdb : s.db = some table) (a : Appended π τ) : s.Atomic codec a ↔ Accepted codec s a := by
  cases a with
  | other typeName => exact iff_of_true ⟨h, fun _ _ => rfl⟩ nofun
  | event e =>
    have hids : table.get? e.id = none ↔ e.id ∉ s.events.map DomainEvent.id := by
      rw [← h.ids hdb]
      exact Index.get?_eq_none_iff
    have haccepted : Accepted codec s (.event e) ↔ Storable codec e ∧ table.get? e.id = none := by
      rw [hids]
      exact ⟨fun hall => hall e rfl, fun hone _ he => by cases he; exact hone⟩
    rw [haccepted]
    constructor
    · rintro ⟨-, hraise⟩
      by_contra hnot
      obtain ⟨err, hcall⟩ := append_refused hdb hnot
      -- the refused event is one event too many in memory
      have hsame := hraise err (by rw [hcall])
      have hlen := congrArg (fun s => s.events.length) hsame
      simp [step, hcall] at hlen
    · rintro ⟨hstorable, hnew⟩
      obtain ⟨row, hrow⟩ := storable_iff.1 hstorable
      have hcall := append_accepted hdb hrow hnew
      refine ⟨?_, fun err herr => ?_⟩
      · unfold step
        rw [hcall, agrees_some, Index.values_put_new (by rw [(row_ok hrow).1, hnew])]
        exact List.rel_append (h table hdb) (.cons hrow .nil)
      · rw [hcall] at herr
        cases herr

/-! ## Every history -/

variable (codec) in
/-- The events of a history of calls are written, one after the other. -/
def Journaled (s : EventStore π τ) (events : List (DomainEvent π τ)) : Prop :=
  (∀ e ∈ events, Storable codec e) ∧
    (s.events.map DomainEvent.id ++ events.map DomainEvent.id).Nodup

/-- **A run from journals that agree**, by induction on the calls. -/
theorem atomic_run_iff (calls : List (Appended π τ)) : ∀ (s : EventStore π τ) table,
    s.Agrees codec → s.db = some table →
      (History.EachStep (step codec) (Atomic codec) s calls ↔
        Journaled codec s (calls.filterMap Appended.event?)) := by
  induction calls with
  | nil =>
    intro s table h hdb
    have hnodup := table.nodup_keys
    rw [← table.keys_eq, h.ids hdb] at hnodup
    refine iff_of_true trivial ⟨by simp, ?_⟩
    rw [List.filterMap_nil, List.map_nil, List.append_nil]
    exact hnodup
  | cons a calls ih =>
    intro s table h hdb
    unfold History.EachStep
    rw [atomic_step_iff h hdb]
    cases a with
    | other typeName =>
      have hrest := ih s table h hdb
      rw [append_other]
      refine (and_iff_right ?_).trans hrest
      intro e he
      cases he
    | event e =>
      have hevents : (Appended.event e :: calls).filterMap Appended.event? =
          e :: calls.filterMap Appended.event? := rfl
      rw [hevents]
      constructor
      · rintro ⟨haccepted, hrun⟩
        have hatomic := (atomic_step_iff h hdb _).2 haccepted
        obtain ⟨hstorable, hnew⟩ := haccepted e rfl
        obtain ⟨table', hdb', hadded⟩ := step_accepted h hdb hstorable hnew
        obtain ⟨hall, hnodup⟩ := (ih _ table' hatomic.1 hdb').1 hrun
        refine ⟨?_, ?_⟩
        · intro e' he'
          rcases List.mem_cons.1 he' with rfl | he'
          · exact hstorable
          · exact hall e' he'
        · rw [hadded] at hnodup
          simpa using hnodup
      · rintro ⟨hall, hnodup⟩
        have hstorable := hall e List.mem_cons_self
        have hnew : e.id ∉ s.events.map DomainEvent.id := by
          intro hmem
          exact List.disjoint_of_nodup_append hnodup hmem List.mem_cons_self
        have haccepted : Accepted codec s (.event e) := by
          rintro _ ⟨⟩
          exact ⟨hstorable, hnew⟩
        have hatomic := (atomic_step_iff h hdb _).2 haccepted
        obtain ⟨table', hdb', hadded⟩ := step_accepted h hdb hstorable hnew
        refine ⟨haccepted, (ih _ table' hatomic.1 hdb').2 ⟨fun e' he' => ?_, ?_⟩⟩
        · exact hall e' (List.mem_cons_of_mem _ he')
        · rw [hadded]
          simpa using hnodup

/-- A store that is opened on rows never holds them in memory. -/
theorem not_atomic_of_rows {table : Index EventRow.id} (h : table.values ≠ [])
    (a : Appended π τ) : ¬ (onDatabase table).Atomic codec a := by
  rintro ⟨hagrees, hraise⟩
  cases a with
  | other typeName =>
    have hrows := agrees_some.1 hagrees
    cases hvalues : table.values with
    | nil => exact h hvalues
    | cons row rows =>
      rw [hvalues] at hrows
      cases hrows
  | event e =>
    have hdb : (onDatabase table : EventStore π τ).db = some table := rfl
    by_cases haccepted : Storable codec e ∧ table.get? e.id = none
    · obtain ⟨row, hrow⟩ := storable_iff.1 haccepted.1
      have hid : table.get? row.id = none := by rw [(row_ok hrow).1, haccepted.2]
      unfold step at hagrees
      rw [append_accepted hdb hrow haccepted.2, agrees_some, Index.values_put_new hid] at hagrees
      -- one event in memory, and one row more than there were
      have hlen := hagrees.length_eq
      rw [List.length_append] at hlen
      simp [onDatabase] at hlen
      exact h hlen
    · obtain ⟨err, hcall⟩ := append_refused hdb haccepted
      have hsame := hraise err (by rw [hcall])
      have hlen := congrArg (fun s => s.events.length) hsame
      simp [step, hcall] at hlen

/-- **Journal atomicity** of a store that is opened on a database, over any calls of `append`. -/
theorem append_atomic_iff (codec : EventCodec π τ) (table : Index EventRow.id)
    (calls : List (Appended π τ)) :
    History.EachStep (step codec) (Atomic codec) (onDatabase table) calls ↔
      calls = [] ∨ table.values = [] ∧
        (∀ e ∈ calls.filterMap Appended.event?, Storable codec e) ∧
        ((calls.filterMap Appended.event?).map DomainEvent.id).Nodup := by
  cases calls with
  | nil => exact iff_of_true trivial (.inl rfl)
  | cons a calls =>
    by_cases hrows : table.values = []
    · have hagrees : (onDatabase table : EventStore π τ).Agrees codec := by
        refine agrees_some.2 ?_
        rw [hrows]
        exact .nil
      rw [atomic_run_iff (a :: calls) (onDatabase table) table hagrees rfl]
      simp [Journaled, onDatabase, hrows]
    · refine iff_of_false (fun hrun => ?_) ?_
      · exact not_atomic_of_rows hrows a hrun.1
      · rintro (hnil | ⟨hempty, -⟩)
        · cases hnil
        · exact hrows hempty

/-- A store on a new database is given an event, and another one with its id. -/
theorem repeated_id_kept :
    ¬ History.EachStep (step ⟨fun payload : String => .ok payload, fun t : String => t⟩)
        (Atomic ⟨fun payload => .ok payload, fun t => t⟩) (onDatabase ∅)
        [.event { id := "e1", type := "agent.ready", payload := "{}", timestamp := "t1" },
          .event { id := "e1", type := "agent.failed", payload := "{}", timestamp := "t2" }] := by
  rintro ⟨-, ⟨hagrees, -⟩, -⟩
  have hlen := (agrees_some.1 hagrees).length_eq
  revert hlen
  decide

end EventStore

end Hermes

import Hermes.Proof.StoresAgree
import Hermes.Spec.Resilience

/-!
# The life of a dead letter

An entry is in `_dlq` and in the store. `replay_dead_letter` and `discard_dead_letter`
write its status to both, whatever it was.

* `Lifecycle`: what one event must not do to finished entries.
* `Orderly`: the condition on an event, by the state before it.
* `WritesStatus`: what the end of a replay, and a discard, change.
* `replay_once_iff`: the runs in which finished entries stay as they are.
-/

namespace Hermes

open Flight History

/-- A status that ends the life of an entry. -/
def Final (st : String) : Prop := st = "replayed" ∨ st = "discarded"

theorem not_final_pending : ¬ Final "pending" := by
  unfold Final
  decide

/-! ## The status in the store -/

namespace ResilienceStore

variable (py : Stdlib) (s : ResilienceStore) (k j : String)

def statusOf : Option String := (s.getDeadLetter py k).map (·.status)

/-- Entries are under their own ids. -/
def Keyed : Prop := ∀ k e, s.getDeadLetter py k = some e → e.entryId = k

/-- **What `update_dead_letter_status` leaves.** -/
theorem getDeadLetter_update (st : String) (la : Option DateTime) :
    (s.updateDeadLetterStatus k st la).getDeadLetter py j =
      if j = k then (s.getDeadLetter py k).map fun e =>
        { e with status := st, lastAttempt := la.or e.lastAttempt }
      else s.getDeadLetter py j := by
  cases s with
  | memory m =>
    show (m.updateDeadLetterStatus k st la).2.deadLetter.get? j =
      if j = k then (m.deadLetter.get? k).map _ else m.deadLetter.get? j
    unfold MemoryStore.updateDeadLetterStatus
    cases hm : m.deadLetter.get? k with
    | none =>
      by_cases hjk : j = k
      · rw [if_pos hjk, hjk]
        exact hm
      · rw [if_neg hjk]
    | some e =>
      simp only [Dict.get?_insert]
      rfl
  | sqlite m =>
    show ((m.updateDeadLetterStatus k st la).2.deadLetter.get? j).map _ =
      if j = k then ((m.deadLetter.get? k).map _).map _ else (m.deadLetter.get? j).map _
    unfold SqliteStore.updateDeadLetterStatus
    cases hm : m.deadLetter.get? k with
    | none =>
      by_cases hjk : j = k
      · rw [if_pos hjk, hjk]
        simp only [hm]
        rfl
      · rw [if_neg hjk]
    | some r =>
      -- `COALESCE` keeps the last attempt when none is given
      have hlast : parseDt ((la.map (·.iso)).or r.lastAttempt) = la.or (parseDt r.lastAttempt) := by
        cases la with
        | none => rfl
        | some t => exact parseDt_iso t
      by_cases hjk : j = k
      · simp only [if_pos hjk, Dict.get?_insert, Option.map_some, Option.some.injEq]
        unfold SqliteStore.rowToDle
        simp only [hlast]
      · simp only [if_neg hjk, Dict.get?_insert]

theorem statusOf_update (st : String) (la : Option DateTime) :
    (s.updateDeadLetterStatus k st la).statusOf py j =
      if j = k then (s.statusOf py k).map fun _ => st else s.statusOf py j := by
  unfold statusOf
  rw [getDeadLetter_update]
  split
  · rw [Option.map_map, Option.map_map]
    rfl
  · rfl

variable {s py}

theorem Keyed.update (h : s.Keyed py) (st : String) (la : Option DateTime) :
    (s.updateDeadLetterStatus k st la).Keyed py := by
  intro j e he
  rw [getDeadLetter_update] at he
  split at he
  · rename_i hjk
    obtain ⟨e', he', rfl⟩ := Option.map_eq_some_iff.1 he
    exact h j e' (hjk ▸ he')
  · exact h j e he

variable (s py) in
/-- An entry with so many attempts is taken. -/
def takes (attempts : ℤ) : Bool :=
  match s with
  | memory _ => true
  | sqlite _ => fits attempts

variable (s py) in
theorem putDeadLetter_toBool (e : ResilienceDeadLetter) :
    (s.putDeadLetter py e).toBool = s.takes e.attempts := by
  unfold putDeadLetter takes
  cases s with
  | memory m => rfl
  | sqlite m =>
    simp only [SqliteStore.putDeadLetter]
    cases fits e.attempts with
    | false => rfl
    | true => rfl

/-- **What `put_dead_letter` leaves**, when it does not raise. -/
theorem getDeadLetter_put {e : ResilienceDeadLetter} {s' : ResilienceStore}
    (hput : s.putDeadLetter py e = .ok s') (hs : s.Keyed py) :
    (∃ e', s'.getDeadLetter py e.entryId = some e' ∧ e'.status = e.status ∧
        e'.entryId = e.entryId) ∧
      ∀ j, j ≠ e.entryId → s'.getDeadLetter py j = s.getDeadLetter py j := by
  unfold putDeadLetter at hput
  cases s with
  | memory m =>
    obtain rfl := Except.ok.inj hput
    refine ⟨⟨e, Dict.get?_insert_self _ _ _, rfl, rfl⟩, fun j hj => ?_⟩
    exact Dict.get?_insert_of_ne _ hj _
  | sqlite m =>
    simp only [SqliteStore.putDeadLetter] at hput
    split at hput
    · obtain rfl := Except.ok.inj hput
      constructor
      · have hown : ∀ r, m.deadLetter.get? e.entryId = some r → r.entryId = e.entryId := fun r hr =>
          hs e.entryId (SqliteStore.rowToDle py r) (congrArg (Option.map (SqliteStore.rowToDle py)) hr)
        unfold getDeadLetter SqliteStore.getDeadLetter
        simp only [Dict.get?_insert_self, Option.map_some, Option.some.injEq, exists_eq_left']
        cases hm : m.deadLetter.get? e.entryId with
        | none => exact ⟨rfl, rfl⟩
        | some r => exact ⟨rfl, hown r hm⟩
      · intro j hj
        unfold getDeadLetter SqliteStore.getDeadLetter
        simp only [Dict.get?_insert_of_ne _ hj]
    · cases hput

theorem Keyed.put (h : s.Keyed py) {e : ResilienceDeadLetter} {s' : ResilienceStore}
    (hput : s.putDeadLetter py e = .ok s') : s'.Keyed py := by
  intro j e' he'
  obtain ⟨⟨e₁, hget, -, hid⟩, hother⟩ := getDeadLetter_put hput h
  by_cases hj : j = e.entryId
  · subst hj
    obtain rfl := Option.some.inj (hget.symm.trans he')
    exact hid
  · exact h j e' (hother j hj ▸ he')

end ResilienceStore

/-! ## Views of the dead letters -/

namespace DeadLetters

variable (py : Stdlib) (d : DeadLetters)

/-- The id of the object at an address. -/
def idAt (a : ℕ) : Option String := d.objects[a]?.map (·.entryId)

def statusAt (a : ℕ) : Option String := d.objects[a]?.map (·.status)

/-- The status of an entry in `_dlq`. -/
def heldStatus (k : String) : Option String := (d.dlq.get? k).bind d.statusAt

/-- The status of an entry in the store. -/
def storedStatus (k : String) : Option String := d.store.bind fun s => s.statusOf py k

/-- An entry shows a status, in `_dlq` or in the store. -/
def Shows (k st : String) : Prop := d.heldStatus k = some st ∨ d.storedStatus py k = some st

/-- An entry is replayed or discarded. -/
def Finished (k : String) : Prop := ∃ st, Final st ∧ d.Shows py k st

/-- `put_dead_letter` of an entry with so many attempts does not raise. -/
def takes (attempts : ℤ) : Bool :=
  match d.store with
  | none => true
  | some s => s.takes attempts

variable {d} in
/-- An object stays at its address when another one is made. -/
theorem objects_append {b : ℕ} {j : String} (hb : d.idAt b = some j) (e : ResilienceDeadLetter) :
    (d.objects ++ [e])[b]? = d.objects[b]? := by
  refine List.getElem?_append_left ?_
  unfold idAt at hb
  obtain ⟨x, hx, -⟩ := Option.map_eq_some_iff.1 hb
  exact (List.getElem?_eq_some_iff.1 hx).1

theorem objects_assign (a b : ℕ) (f : ResilienceDeadLetter → ResilienceDeadLetter) :
    (d.assign a f).objects[b]? = if a = b then d.objects[b]?.map f else d.objects[b]? := by
  unfold assign
  simp only [List.getElem?_modify]
  split
  · rfl
  · simp

theorem idAt_assign (a b : ℕ) {f : ResilienceDeadLetter → ResilienceDeadLetter}
    (hf : ∀ e, (f e).entryId = e.entryId) : (d.assign a f).idAt b = d.idAt b := by
  unfold idAt
  rw [objects_assign]
  split
  · rw [Option.map_map]
    exact congrArg (Option.map · _) (funext hf)
  · rfl

theorem statusAt_assign (a b : ℕ) (f : ResilienceDeadLetter → ResilienceDeadLetter) :
    (d.assign a f).statusAt b =
      if a = b then d.objects[b]?.map (fun e => (f e).status) else d.statusAt b := by
  unfold statusAt
  rw [objects_assign]
  split
  · rw [Option.map_map]
    rfl
  · rfl

theorem storedStatus_update (k st j : String) (la : Option DateTime) :
    (d.storeUpdate k st la).storedStatus py j =
      if j = k then (d.storedStatus py k).map fun _ => st else d.storedStatus py j := by
  unfold storeUpdate storedStatus
  cases d.store with
  | none => simp
  | some s => exact s.statusOf_update py k j st la

theorem storedStatus_put {e : ResilienceDeadLetter} (hkeyed : ∀ s, d.store = some s → s.Keyed py)
    (j : String) :
    (d.storePut py e).2.storedStatus py j =
      if j = e.entryId ∧ d.takes e.attempts then d.store.map fun _ => e.status
      else d.storedStatus py j := by
  unfold storePut
  cases hs : d.store with
  | none =>
    simp only [storedStatus, hs, Option.bind_none, Option.map_none, ite_self]
  | some s =>
    have hput := s.putDeadLetter_toBool py e
    simp only
    cases hres : s.putDeadLetter py e with
    | error x =>
      rw [hres] at hput
      have hno : d.takes e.attempts = false := by
        unfold takes
        rw [hs]
        exact hput.symm
      simp only [hno, Bool.false_eq_true, and_false, if_false]
    | ok s' =>
      rw [hres] at hput
      have hyes : d.takes e.attempts = true := by
        unfold takes
        rw [hs]
        exact hput.symm
      obtain ⟨⟨e', hget, hst, -⟩, hother⟩ := ResilienceStore.getDeadLetter_put hres (hkeyed s hs)
      by_cases hj : j = e.entryId
      · rw [if_pos ⟨hj, hyes⟩, hj]
        show (s'.getDeadLetter py e.entryId).map _ = _
        rw [hget, Option.map_some, hst]
        rfl
      · rw [if_neg fun h => hj h.1]
        show (s'.getDeadLetter py j).map _ = _
        rw [hother j hj]
        unfold storedStatus
        rw [hs]
        rfl

end DeadLetters

/-! ## Writing a status -/

/-- **A status is written** for an entry: its object at `a` gets it and is the one in `_dlq`. Other
entries stay as they are. -/
structure WritesStatus (py : Stdlib) (d d' : DeadLetters) (k : String) (a : ℕ) (st : String) : Prop where
  keyed : ∀ s, d'.store = some s → s.Keyed py
  idAt : ∀ b j, d.idAt b = some j → d'.idAt b = some j
  own : d'.idAt a = some k
  dlq : ∀ j, d'.dlq.get? j = if j = k then some a else d.dlq.get? j
  status : d'.statusAt a = some st
  other : ∀ b j, b ≠ a → d.idAt b = some j → d'.statusAt b = d.statusAt b
  stored : ∀ j, j ≠ k → d'.storedStatus py j = d.storedStatus py j

section WritesStatus

variable {py : Stdlib} {d d' : DeadLetters} {k st : String} {a : ℕ}

theorem WritesStatus.held_self (h : WritesStatus py d d' k a st) : d'.heldStatus k = some st := by
  unfold DeadLetters.heldStatus
  rw [h.dlq, if_pos rfl]
  exact h.status

theorem WritesStatus.held_of_ne (h : WritesStatus py d d' k a st)
    (hobjs : ∀ j b, d.dlq.get? j = some b → d.idAt b = some j) {j : String} (hj : j ≠ k) :
    d'.heldStatus j = d.heldStatus j := by
  unfold DeadLetters.heldStatus
  rw [h.dlq, if_neg hj]
  cases hb : d.dlq.get? j with
  | none => rfl
  | some b =>
    have hid := hobjs j b hb
    have hba : b ≠ a := by
      rintro rfl
      exact hj (Option.some.inj ((h.idAt b j hid).symm.trans h.own))
    exact h.other b j hba hid

theorem writes_assign (hkeyed : ∀ s, d.store = some s → s.Keyed py) {e : ResilienceDeadLetter}
    (ha : d.objects[a]? = some e) (hid : e.entryId = k)
    {f : ResilienceDeadLetter → ResilienceDeadLetter} (hf : ∀ e, (f e).entryId = e.entryId) :
    WritesStatus py d ((d.assign a f).hold k a) k a (f e).status where
  keyed := hkeyed
  idAt b j hb := (d.idAt_assign a b hf).trans hb
  own := by
    refine (d.idAt_assign a a hf).trans ?_
    unfold DeadLetters.idAt
    rw [ha, Option.map_some, hid]
  dlq j := Dict.get?_insert _ _ _ _
  status := by
    refine (d.statusAt_assign a a f).trans ?_
    rw [if_pos rfl, ha, Option.map_some]
  other b j hb _ := by
    refine (d.statusAt_assign a b f).trans ?_
    rw [if_neg (Ne.symm hb)]
  stored _ _ := rfl

theorem WritesStatus.update (h : WritesStatus py d d' k a st) (st' : String) (la : Option DateTime) :
    WritesStatus py d (d'.storeUpdate k st' la) k a st := by
  refine { h with keyed := fun s hs => ?_, stored := fun j hj => ?_ }
  · obtain ⟨s', hs', rfl⟩ := Option.map_eq_some_iff.1 hs
    exact (h.keyed s' hs').update k st' la
  · rw [DeadLetters.storedStatus_update, if_neg hj]
    exact h.stored j hj

theorem storePut_objects (py : Stdlib) (d : DeadLetters) (e : ResilienceDeadLetter) :
    (d.storePut py e).2.objects = d.objects ∧ (d.storePut py e).2.dlq = d.dlq := by
  unfold DeadLetters.storePut
  split
  · exact ⟨rfl, rfl⟩
  · split
    · exact ⟨rfl, rfl⟩
    · exact ⟨rfl, rfl⟩

theorem storePut_keyed (hkeyed : ∀ s, d.store = some s → s.Keyed py) (e : ResilienceDeadLetter) :
    ∀ s, (d.storePut py e).2.store = some s → s.Keyed py := by
  unfold DeadLetters.storePut
  split
  · exact hkeyed
  · rename_i s hs
    split
    · rename_i s' hput
      intro s₁ hs₁
      exact Option.some.inj hs₁ ▸ (hkeyed s hs).put hput
    · exact hkeyed

theorem WritesStatus.put (h : WritesStatus py d d' k a st) {e : ResilienceDeadLetter} (hid : e.entryId = k) :
    WritesStatus py d (d'.storePut py e).2 k a st := by
  obtain ⟨hobjects, hdlq⟩ := storePut_objects py d' e
  refine ⟨storePut_keyed h.keyed e, ?_, ?_, ?_, ?_, ?_, fun j hj => ?_⟩
  · unfold DeadLetters.idAt
    rw [hobjects]
    exact h.idAt
  · unfold DeadLetters.idAt
    rw [hobjects]
    exact h.own
  · rw [hdlq]
    exact h.dlq
  · unfold DeadLetters.statusAt
    rw [hobjects]
    exact h.status
  · unfold DeadLetters.statusAt
    rw [hobjects]
    exact h.other
  · rw [d'.storedStatus_put py h.keyed, if_neg fun hk => hj (hk.1.trans hid)]
    exact h.stored j hj

/-- The object may be one that was just read from the store. -/
theorem WritesStatus.of_append {e : ResilienceDeadLetter}
    (h : WritesStatus py { d with objects := d.objects ++ [e] } d' k a st) : WritesStatus py d d' k a st := by
  have hold : ∀ b j, d.idAt b = some j → (d.objects ++ [e])[b]? = d.objects[b]? :=
    fun b j hb => DeadLetters.objects_append hb e
  refine ⟨h.keyed, fun b j hb => h.idAt b j ?_, h.own, h.dlq, h.status, fun b j hba hb => ?_, h.stored⟩
  · unfold DeadLetters.idAt at *
    rw [hold b j hb]
    exact hb
  · have hsame := hold b j hb
    rw [h.other b j hba]
    · unfold DeadLetters.statusAt
      rw [hsame]
    · unfold DeadLetters.idAt at *
      rw [hsame]
      exact hb

end WritesStatus

/-! ## Runs -/

/-- **The claim of one event**: finished entries stay as they are, no handler is started for one,
and no handler of an entry returns twice. -/
structure Lifecycle (py : Stdlib) (s : DlqRun) (e : DlqEvent) : Prop where
  held : ∀ k st, Final st → s.letters.heldStatus k = some st →
    (s.step py e).letters.heldStatus k = some st
  stored : ∀ k st, Final st → s.letters.storedStatus py k = some st →
    (s.step py e).letters.storedStatus py k = some st
  started : ∀ k now, e = .replay k now → ¬ s.letters.Finished py k
  once : (s.step py e).succeeded.Nodup

/-- **The condition on one event**, by the state before it. -/
def Orderly (py : Stdlib) (s : DlqRun) : DlqEvent → Prop
  | .enqueue .. => True
  | .replay k _ => ¬ s.letters.Finished py k
  | .finish n how => ∀ k a, s.running[n]? = some (k, a) → s.letters.Finished py k →
    match how with
    | .returned => False
    -- the object is the one in `_dlq`, and the store does not fail in between
    | .raised => s.letters.dlq.get? k = some a ∧ (s.letters.storedStatus py k ≠ none →
        ∀ e, s.letters.objects[a]? = some e → s.letters.takes (e.attempts + 1) = true)
    | .cancelled => True
  | .discard k _ => ¬ s.letters.Shows py k "replayed"

/-- An entry is enqueued under an id that nothing knows. -/
def Fresh (py : Stdlib) (s : DlqRun) : DlqEvent → Prop
  | .enqueue _ _ _ k _ => s.letters.dlq.get? k = none ∧ s.letters.storedStatus py k = none ∧
      ∀ r ∈ s.running, r.1 ≠ k
  | _ => True

/-- What holds in every state that orderly events lead to. -/
structure Inv (py : Stdlib) (s : DlqRun) : Prop where
  keyed : ∀ t, s.letters.store = some t → t.Keyed py
  objs : ∀ k a, s.letters.dlq.get? k = some a → s.letters.idAt a = some k
  runs : ∀ r ∈ s.running, s.letters.idAt r.2 = some r.1
  own : ∀ r ∈ s.running, ∀ st, Final st → s.letters.statusAt r.2 = some st →
    s.letters.dlq.get? r.1 = some r.2
  agree : ∀ k st, Final st → s.letters.heldStatus k ≠ none → s.letters.storedStatus py k ≠ none →
    (s.letters.heldStatus k = some st ↔ s.letters.storedStatus py k = some st)
  won : ∀ k ∈ s.succeeded, s.letters.heldStatus k = some "replayed"
  late : ∀ r ∈ s.running, s.letters.Shows py r.1 "replayed" → r.1 ∈ s.succeeded
  nodup : s.succeeded.Nodup

section Runs

variable {py : Stdlib} {s s' : DlqRun} {k st : String} {a : ℕ}

theorem Inv.objects (h : Inv py s) {r : String × ℕ} (hr : r ∈ s.running) :
    ∃ e, s.letters.objects[r.2]? = some e ∧ e.entryId = r.1 :=
  Option.map_eq_some_iff.1 (h.runs r hr)

/-- **The invariant after a status is written**: what has to be shown is about that entry. -/
theorem Inv.write (h : Inv py s) (hw : WritesStatus py s.letters s'.letters k a st)
    (hrunning : ∀ r ∈ s'.running, r ∈ s.running)
    (hsucceeded : ∀ j, j ≠ k → (j ∈ s'.succeeded ↔ j ∈ s.succeeded)) (hnodup : s'.succeeded.Nodup)
    (hown : ∀ b t, Final t → s.letters.dlq.get? k = some b → s.letters.statusAt b = some t → b = a)
    (hagree : ∀ t, Final t → s'.letters.storedStatus py k ≠ none →
      (st = t ↔ s'.letters.storedStatus py k = some t))
    (hwon : k ∈ s'.succeeded → st = "replayed")
    (hlate : ∀ b, (k, b) ∈ s.running → s'.letters.Shows py k "replayed" → k ∈ s'.succeeded) :
    Inv py s' := by
  have hne : ∀ j, j ≠ k → s'.letters.heldStatus j = s.letters.heldStatus j := fun j hj =>
    hw.held_of_ne h.objs hj
  refine ⟨hw.keyed, fun j b hb => ?_, fun r hr => ?_, fun r hr t ht hst => ?_, fun j t ht => ?_,
    fun j hj => ?_, fun r hr hshows => ?_, hnodup⟩
  · rw [hw.dlq] at hb
    split at hb
    · rename_i hjk
      obtain rfl := Option.some.inj hb
      rw [hjk]
      exact hw.own
    · exact hw.idAt b j (h.objs j b hb)
  · exact hw.idAt _ _ (h.runs r (hrunning r hr))
  · -- the object of another replay is final only if `_dlq` held it before
    have hr' := hrunning r hr
    have hid := h.runs r hr'
    rw [hw.dlq]
    by_cases hra : r.2 = a
    · have hk : r.1 = k := by
        have := hw.idAt _ _ hid
        rw [hra] at this
        exact Option.some.inj (this.symm.trans hw.own)
      rw [if_pos hk, hra]
    · rw [hw.other _ _ hra hid] at hst
      have hdlq := h.own r hr' t ht hst
      have hk : r.1 ≠ k := fun hk => hra (hown _ t ht (hk ▸ hdlq) hst)
      rw [if_neg hk]
      exact hdlq
  · by_cases hj : j = k
    · subst hj
      intro _ hstored
      rw [hw.held_self, Option.some.injEq]
      exact hagree t ht hstored
    · rw [hne j hj, hw.stored j hj]
      exact h.agree j t ht
  · by_cases hjk : j = k
    · subst hjk
      rw [hw.held_self, hwon hj]
    · rw [hne j hjk]
      exact h.won j ((hsucceeded j hjk).1 hj)
  · have hr' := hrunning r hr
    by_cases hk : r.1 = k
    · rw [hk] at hshows ⊢
      exact hlate r.2 (hk ▸ hr') hshows
    · refine (hsucceeded _ hk).2 (h.late r hr' ?_)
      unfold DeadLetters.Shows at *
      rw [hne _ hk, hw.stored _ hk] at hshows
      exact hshows

/-- The claim about an event that writes a status is about that entry. -/
theorem lifecycle_write {e : DlqEvent} (h : Inv py s)
    (hw : WritesStatus py s.letters (s.step py e).letters k a st) (he : ∀ j now, e ≠ .replay j now) :
    Lifecycle py s e ↔
      (∀ t, Final t → s.letters.heldStatus k = some t → st = t) ∧
      (∀ t, Final t → s.letters.storedStatus py k = some t →
        (s.step py e).letters.storedStatus py k = some t) ∧
      (s.step py e).succeeded.Nodup := by
  constructor
  · intro hl
    refine ⟨fun t ht hheld => ?_, hl.stored k, hl.once⟩
    exact Option.some.inj (hw.held_self.symm.trans (hl.held k t ht hheld))
  · rintro ⟨hheld, hstored, honce⟩
    refine ⟨fun j t ht hj => ?_, fun j t ht hj => ?_, fun j now hj => absurd hj (he j now), honce⟩
    · by_cases hjk : j = k
      · subst hjk
        rw [hw.held_self, hheld t ht hj]
      · rw [hw.held_of_ne h.objs hjk]
        exact hj
    · by_cases hjk : j = k
      · subst hjk
        exact hstored t ht hj
      · rw [hw.stored j hjk]
        exact hj

/-! ### Discarding -/

theorem find_cases (d : DeadLetters) (hkeyed : ∀ t, d.store = some t → t.Keyed py) (k : String) :
    (d.find py k = none ∧ d.dlq.get? k = none ∧ d.storedStatus py k = none) ∨
      (∃ a, d.find py k = some (a, d) ∧ d.dlq.get? k = some a) ∨
      ∃ e : ResilienceDeadLetter, d.find py k = some (d.objects.length, { d with objects := d.objects ++ [e] }) ∧
        d.dlq.get? k = none ∧ d.storedStatus py k = some e.status ∧ e.entryId = k := by
  unfold DeadLetters.find
  cases hdlq : d.dlq.get? k with
  | some a => exact .inr (.inl ⟨a, rfl, rfl⟩)
  | none =>
    cases hstore : d.store with
    | none =>
      refine .inl ⟨rfl, rfl, ?_⟩
      unfold DeadLetters.storedStatus
      rw [hstore]
      rfl
    | some t =>
      have hstatus : d.storedStatus py k = (t.getDeadLetter py k).map (·.status) := by
        unfold DeadLetters.storedStatus
        rw [hstore]
        rfl
      simp only [Option.bind_some]
      cases hget : t.getDeadLetter py k with
      | none =>
        refine .inl ⟨rfl, trivial, ?_⟩
        rw [hstatus, hget]
        rfl
      | some e =>
        refine .inr (.inr ⟨e, rfl, trivial, ?_, hkeyed t hstore k e hget⟩)
        rw [hstatus, hget]
        rfl

/-- What a discard writes, if there is the entry. -/
theorem discard_writes (h : Inv py s) (k : String) (now : DateTime) :
    ((s.letters.discard py k now).2 = s.letters ∧
        s.letters.heldStatus k = none ∧ s.letters.storedStatus py k = none) ∨
      ∃ a, WritesStatus py s.letters (s.letters.discard py k now).2 k a "discarded" ∧
        (∀ b, s.letters.dlq.get? k = some b → b = a) ∧
        (s.letters.discard py k now).2.storedStatus py k =
          (s.letters.storedStatus py k).map fun _ => "discarded" := by
  unfold DeadLetters.discard
  rcases find_cases s.letters h.keyed k with ⟨hfind, hdlq, hstored⟩ | ⟨a, hfind, hdlq⟩ |
    ⟨e, hfind, hdlq, hstored, hid⟩
  · rw [hfind]
    refine .inl ⟨rfl, ?_, hstored⟩
    unfold DeadLetters.heldStatus
    rw [hdlq]
    rfl
  · obtain ⟨e, ha, hid⟩ := Option.map_eq_some_iff.1 (h.objs k a hdlq)
    rw [hfind]
    have hw := writes_assign (f := fun e => { e with status := "discarded" }) h.keyed ha hid fun _ => rfl
    refine .inr ⟨a, hw.update "discarded" now, fun b hb => Option.some.inj (hb.symm.trans hdlq), ?_⟩
    refine (DeadLetters.storedStatus_update _ _ _ _ _ _).trans ?_
    rw [if_pos rfl]
    rfl
  · rw [hfind]
    have hw := writes_assign (d := { s.letters with objects := s.letters.objects ++ [e] })
      (f := fun e => { e with status := "discarded" }) h.keyed (a := s.letters.objects.length)
      (by simp) hid fun _ => rfl
    refine .inr ⟨_, (hw.update "discarded" now).of_append, fun b hb => ?_, ?_⟩
    · rw [hdlq] at hb
      cases hb
    · refine (DeadLetters.storedStatus_update _ _ _ _ _ _).trans ?_
      rw [if_pos rfl]
      rfl

/-- Nothing is lost when the dead letters stay as they are. -/
theorem lifecycle_same {e : DlqEvent} (hheld : ∀ k, (s.step py e).letters.heldStatus k = s.letters.heldStatus k)
    (hstored : ∀ k, (s.step py e).letters.storedStatus py k = s.letters.storedStatus py k)
    (honce : (s.step py e).succeeded.Nodup) :
    Lifecycle py s e ↔ ∀ k now, e = .replay k now → ¬ s.letters.Finished py k := by
  constructor
  · exact fun h => h.started
  · intro h
    exact ⟨fun k st _ hk => (hheld k).trans hk, fun k st _ hk => (hstored k).trans hk, h, honce⟩

theorem final_replayed : Final "replayed" := .inl rfl

theorem Inv.discard (h : Inv py s) (k : String) (now : DateTime) :
    (Lifecycle py s (.discard k now) ↔ Orderly py s (.discard k now)) ∧
      (Orderly py s (.discard k now) → Inv py (s.step py (.discard k now))) := by
  show (_ ↔ ¬ s.letters.Shows py k "replayed") ∧ (¬ s.letters.Shows py k "replayed" → _)
  rcases discard_writes h k now with ⟨hsame, hheld, hstored⟩ | ⟨a, hw, hdlq, hstored⟩
  · have hstep : s.step py (.discard k now) = s := by
      show { s with letters := (s.letters.discard py k now).2 } = s
      rw [hsame]
    have hshows : ¬ s.letters.Shows py k "replayed" := by
      unfold DeadLetters.Shows
      rw [hheld, hstored]
      simp
    refine ⟨?_, fun _ => by rw [hstep]; exact h⟩
    rw [lifecycle_same (fun _ => by rw [hstep]) (fun _ => by rw [hstep]) (by rw [hstep]; exact h.nodup)]
    exact iff_of_true (fun j now' hj => by cases hj) hshows
  · change WritesStatus py s.letters (s.step py (.discard k now)).letters k a "discarded" at hw
    change (s.step py (.discard k now)).letters.storedStatus py k = _ at hstored
    constructor
    · rw [lifecycle_write h hw (fun j now' hj => by cases hj)]
      constructor
      · rintro ⟨hheld, hst, -⟩ (hk | hk)
        · exact absurd (hheld _ final_replayed hk) (by decide)
        · have := hst _ final_replayed hk
          rw [hstored, hk] at this
          exact absurd (Option.some.inj this) (by decide)
      · intro hno
        refine ⟨fun t ht hk => ?_, fun t ht hk => ?_, h.nodup⟩
        · rcases ht with rfl | rfl
          · exact absurd (.inl hk) hno
          · rfl
        · rcases ht with rfl | rfl
          · exact absurd (.inr hk) hno
          · rw [hstored, hk]
            rfl
    · intro hno
      -- a discarded entry shows no other status
      have hgone : ¬ (s.step py (.discard k now)).letters.Shows py k "replayed" := by
        rintro (hk | hk)
        · rw [hw.held_self] at hk
          exact absurd (Option.some.inj hk) (by decide)
        · rw [hstored] at hk
          obtain ⟨x, -, hx⟩ := Option.map_eq_some_iff.1 hk
          exact absurd hx (by decide)
      refine h.write hw (fun r hr => hr) (fun j _ => Iff.rfl) h.nodup (fun b t _ hb _ => hdlq b hb)
        (fun t _ hsome => ?_) (fun hk => absurd (.inl (h.won k hk)) hno)
        (fun b _ hshows => absurd hshows hgone)
      rw [hstored] at hsome ⊢
      cases hx : s.letters.storedStatus py k with
      | none => rw [hx] at hsome; exact absurd rfl hsome
      | some x => simp

/-! ### Replays that end -/

variable {n : ℕ}

theorem step_finish (py : Stdlib) (hn : s.running[n]? = some (k, a)) (how : Ending) :
    s.step py (.finish n how) =
      { letters := s.letters.replayEnd py k a how
        running := s.running.eraseIdx n
        succeeded := if how = .returned then s.succeeded ++ [k] else s.succeeded } := by
  unfold DlqRun.step
  simp only [hn]

/-- What a returned handler writes. -/
theorem returned_writes (h : Inv py s) (hn : s.running[n]? = some (k, a)) :
    WritesStatus py s.letters (s.letters.replayEnd py k a .returned) k a "replayed" ∧
      (s.letters.replayEnd py k a .returned).storedStatus py k =
        (s.letters.storedStatus py k).map fun _ => "replayed" := by
  obtain ⟨e, ha, hid⟩ := h.objects (List.mem_of_getElem? hn)
  have hw := writes_assign (f := fun e => { e with status := "replayed" }) h.keyed ha hid fun _ => rfl
  have hobj : ((s.letters.assign a fun e => { e with status := "replayed" }).hold k a).objects[a]? =
      some { e with status := "replayed" } := by
    refine (s.letters.objects_assign a a _).trans ?_
    rw [if_pos rfl, ha, Option.map_some]
  unfold DeadLetters.replayEnd
  simp only [hobj]
  refine ⟨hw.update _ _, ?_⟩
  refine (DeadLetters.storedStatus_update _ _ _ _ _ _).trans ?_
  rw [if_pos rfl]
  rfl

/-- **A handler returns.** -/
theorem Inv.returned (h : Inv py s) (hn : s.running[n]? = some (k, a)) :
    (Lifecycle py s (.finish n .returned) ↔ Orderly py s (.finish n .returned)) ∧
      (Orderly py s (.finish n .returned) → Inv py (s.step py (.finish n .returned))) := by
  have hmem := List.mem_of_getElem? hn
  obtain ⟨hw, hstored⟩ := returned_writes h hn
  have hstep := step_finish py hn .returned
  rw [if_pos rfl] at hstep
  have hOrderly : Orderly py s (.finish n .returned) ↔ ¬ s.letters.Finished py k := by
    unfold Orderly
    constructor
    · exact fun ho hfin => ho k a hn hfin
    · rintro hno k' a' hn' hfin
      obtain ⟨rfl, rfl⟩ := Prod.mk.inj (Option.some.inj (hn.symm.trans hn'))
      exact hno hfin
  have hwrites : WritesStatus py s.letters (s.step py (.finish n .returned)).letters k a "replayed" := by
    rw [hstep]
    exact hw
  have hlife := lifecycle_write h hwrites fun j now hj => by cases hj
  simp only [hstep, hstored] at hlife
  rw [hlife, hOrderly]
  -- an entry that is not finished has not been replayed by this engine
  have hnew : ¬ s.letters.Finished py k → k ∉ s.succeeded := fun hno hk =>
    hno ⟨_, final_replayed, .inl (h.won k hk)⟩
  have hnodup : ¬ s.letters.Finished py k → (s.succeeded ++ [k]).Nodup := fun hno =>
    @List.concat_eq_append _ s.succeeded k ▸ h.nodup.concat (hnew hno)
  constructor
  · constructor
    · rintro ⟨hheld, hst, honce⟩ ⟨t, ht, hshows⟩
      have hreplayed : t = "replayed" := by
        rcases hshows with hk | hk
        · exact (hheld t ht hk).symm
        · have := hst t ht hk
          rw [hk] at this
          exact (Option.some.inj this).symm
      have hin := h.late _ hmem (hreplayed ▸ hshows)
      exact (List.nodup_append.1 honce).2.2 k hin k (List.mem_singleton_self k) rfl
    · intro hno
      exact ⟨fun t ht hk => absurd ⟨t, ht, .inl hk⟩ hno, fun t ht hk => absurd ⟨t, ht, .inr hk⟩ hno,
        hnodup hno⟩
  · intro hno
    rw [hstep]
    refine h.write hw (fun r hr => List.mem_of_mem_eraseIdx hr) (fun j hj => ?_) (hnodup hno)
      (fun b t ht hb hst => ?_) (fun t ht hsome => ?_) (fun _ => rfl) (fun b _ _ => by simp)
    · simp [hj]
    · refine absurd ⟨t, ht, .inl ?_⟩ hno
      unfold DeadLetters.heldStatus
      rw [hb]
      exact hst
    · simp only [hstored] at hsome ⊢
      cases hx : s.letters.storedStatus py k with
      | none => rw [hx] at hsome; exact absurd rfl hsome
      | some x => simp

/-- What a handler that raised writes: the status is that of its object. -/
theorem raised_writes (h : Inv py s) (hn : s.running[n]? = some (k, a)) {e : ResilienceDeadLetter}
    (ha : s.letters.objects[a]? = some e) :
    WritesStatus py s.letters (s.letters.replayEnd py k a .raised) k a e.status ∧
      (s.letters.replayEnd py k a .raised).storedStatus py k =
        if s.letters.takes (e.attempts + 1) then s.letters.store.map fun _ => e.status
        else (s.letters.storedStatus py k).map fun _ => "pending" := by
  obtain ⟨e', ha', hid⟩ := h.objects (List.mem_of_getElem? hn)
  obtain rfl := Option.some.inj (ha.symm.trans ha')
  have hw := writes_assign (f := fun e => { e with attempts := e.attempts + 1 }) h.keyed ha hid
    fun _ => rfl
  have hobj : ((s.letters.assign a fun e => { e with attempts := e.attempts + 1 }).hold k a).objects[a]? =
      some { e with attempts := e.attempts + 1 } := by
    refine (s.letters.objects_assign a a _).trans ?_
    rw [if_pos rfl, ha, Option.map_some]
  unfold DeadLetters.replayEnd
  simp only [hobj]
  have hw' := hw.update "pending" e.lastAttempt
  refine ⟨hw'.put hid, ?_⟩
  rw [DeadLetters.storedStatus_put _ _ hw'.keyed]
  have htakes : (((s.letters.assign a fun e => { e with attempts := e.attempts + 1 }).hold k a).storeUpdate
      k "pending" e.lastAttempt).takes (e.attempts + 1) = s.letters.takes (e.attempts + 1) := by
    unfold DeadLetters.takes DeadLetters.storeUpdate DeadLetters.hold DeadLetters.assign
    simp only
    cases s.letters.store with
    | none => rfl
    | some t =>
      cases t with
      | memory m => rfl
      | sqlite m => rfl
  simp only [htakes, hid]
  by_cases ht : s.letters.takes (e.attempts + 1) = true
  · rw [if_pos ⟨trivial, ht⟩, if_pos ht]
    unfold DeadLetters.storeUpdate
    simp only [Option.map_map]
    rfl
  · rw [if_neg fun h => ht h.2, if_neg ht]
    refine (DeadLetters.storedStatus_update _ _ _ _ _ _).trans ?_
    rw [if_pos rfl]
    rfl

theorem heldStatus_of_dlq (hdlq : s.letters.dlq.get? k = some a) {e : ResilienceDeadLetter}
    (ha : s.letters.objects[a]? = some e) : s.letters.heldStatus k = some e.status := by
  unfold DeadLetters.heldStatus DeadLetters.statusAt
  rw [hdlq, Option.bind_some, ha, Option.map_some]

/-- A final object of a replay is the one in `_dlq`. -/
theorem Inv.dlq_of_final (h : Inv py s) (hmem : (k, a) ∈ s.running) {e : ResilienceDeadLetter}
    (ha : s.letters.objects[a]? = some e) (hfinal : Final e.status) : s.letters.dlq.get? k = some a := by
  refine h.own _ hmem e.status hfinal ?_
  unfold DeadLetters.statusAt
  rw [ha, Option.map_some]

theorem store_of_storedStatus (hne : s.letters.storedStatus py k ≠ none) : ∃ t, s.letters.store = some t := by
  cases hs : s.letters.store with
  | none =>
    unfold DeadLetters.storedStatus at hne
    rw [hs] at hne
    exact absurd rfl hne
  | some t => exact ⟨t, rfl⟩

theorem orderly_raised_iff (hn : s.running[n]? = some (k, a)) {e : ResilienceDeadLetter}
    (ha : s.letters.objects[a]? = some e) :
    Orderly py s (.finish n .raised) ↔ (s.letters.Finished py k →
      s.letters.dlq.get? k = some a ∧
        (s.letters.storedStatus py k ≠ none → s.letters.takes (e.attempts + 1) = true)) := by
  unfold Orderly
  constructor
  · intro ho hfin
    obtain ⟨hdlq, htakes⟩ := ho k a hn hfin
    exact ⟨hdlq, fun hst => htakes hst e ha⟩
  · rintro ho k' a' hn' hfin
    obtain ⟨rfl, rfl⟩ := Prod.mk.inj (Option.some.inj (hn.symm.trans hn'))
    obtain ⟨hdlq, htakes⟩ := ho hfin
    exact ⟨hdlq, fun hst e' he' => Option.some.inj (ha.symm.trans he') ▸ htakes hst⟩

/-- **A handler raises**: what happens to a finished entry. -/
theorem Inv.raised_lifecycle (h : Inv py s) (hn : s.running[n]? = some (k, a)) :
    Lifecycle py s (.finish n .raised) ↔ Orderly py s (.finish n .raised) := by
  have hmem := List.mem_of_getElem? hn
  obtain ⟨e, ha, -⟩ := h.objects hmem
  obtain ⟨hw, hstored⟩ := raised_writes h hn ha
  have hstep := step_finish py hn .raised
  rw [if_neg (by decide)] at hstep
  have hwrites : WritesStatus py s.letters (s.step py (.finish n .raised)).letters k a e.status := by
    rw [hstep]
    exact hw
  have hlife := lifecycle_write h hwrites fun j now hj => by cases hj
  simp only [hstep, hstored] at hlife
  rw [hlife, orderly_raised_iff hn ha]
  constructor
  · rintro ⟨hheld, hst, -⟩ ⟨t, ht, hshows⟩
    have hpending : t ≠ "pending" := by
      rintro rfl
      exact not_final_pending ht
    -- what the store does to a status that has to stay
    have hkeep : s.letters.storedStatus py k = some t →
        e.status = t ∧ s.letters.takes (e.attempts + 1) = true := by
      intro hk
      have hnew := hst t ht hk
      have hsome : s.letters.storedStatus py k ≠ none := by
        rw [hk]
        simp
      obtain ⟨t', ht'⟩ := store_of_storedStatus hsome
      by_cases htakes : s.letters.takes (e.attempts + 1) = true
      · rw [if_pos htakes, ht'] at hnew
        exact ⟨Option.some.inj hnew, htakes⟩
      · rw [if_neg htakes, hk] at hnew
        exact absurd (Option.some.inj hnew).symm hpending
    rcases hshows with hk | hk
    · have he : e.status = t := hheld t ht hk
      refine ⟨h.dlq_of_final hmem ha (he ▸ ht), fun hsome => ?_⟩
      exact (hkeep ((h.agree k t ht (by rw [hk]; simp) hsome).1 hk)).2
    · obtain ⟨he, htakes⟩ := hkeep hk
      exact ⟨h.dlq_of_final hmem ha (he ▸ ht), fun _ => htakes⟩
  · intro ho
    refine ⟨fun t ht hk => ?_, fun t ht hk => ?_, h.nodup⟩
    · obtain ⟨hdlq, -⟩ := ho ⟨t, ht, .inl hk⟩
      exact Option.some.inj ((heldStatus_of_dlq hdlq ha).symm.trans hk)
    · obtain ⟨hdlq, htakes⟩ := ho ⟨t, ht, .inr hk⟩
      have hsome : s.letters.storedStatus py k ≠ none := by
        rw [hk]
        simp
      have hheld := heldStatus_of_dlq hdlq ha
      have he : e.status = t := by
        have := (h.agree k t ht (by rw [hheld]; simp) hsome).2 hk
        exact Option.some.inj (hheld.symm.trans this)
      obtain ⟨t', ht'⟩ := store_of_storedStatus hsome
      rw [if_pos (htakes hsome), ht', Option.map_some, he]

theorem Inv.raised_inv (h : Inv py s) (hn : s.running[n]? = some (k, a))
    (ho : Orderly py s (.finish n .raised)) : Inv py (s.step py (.finish n .raised)) := by
  have hmem := List.mem_of_getElem? hn
  obtain ⟨e, ha, -⟩ := h.objects hmem
  obtain ⟨hw, hstored⟩ := raised_writes h hn ha
  rw [orderly_raised_iff hn ha] at ho
  have hstep := step_finish py hn .raised
  rw [if_neg (by decide)] at hstep
  rw [hstep]
  refine h.write hw (fun r hr => List.mem_of_mem_eraseIdx hr) (fun _ _ => Iff.rfl) h.nodup
    (fun b t ht hb hst => ?_) (fun t ht hsome => ?_) (fun hk => ?_) (fun b _ hshows => ?_)
  · have hfin : s.letters.Finished py k := by
      refine ⟨t, ht, .inl ?_⟩
      unfold DeadLetters.heldStatus
      rw [hb]
      exact hst
    exact Option.some.inj (hb.symm.trans (ho hfin).1)
  · simp only [hstored] at hsome ⊢
    by_cases htakes : s.letters.takes (e.attempts + 1) = true
    · rw [if_pos htakes] at hsome ⊢
      cases hs : s.letters.store with
      | none => rw [hs] at hsome; exact absurd rfl hsome
      | some t' => simp
    · -- the store raised after the status was set to pending, so the entry was not finished
      rw [if_neg htakes] at hsome ⊢
      have hne : s.letters.storedStatus py k ≠ none := by
        intro hnone
        rw [hnone] at hsome
        exact hsome rfl
      have hnot : ¬ Final e.status := fun hf => by
        have hheld := heldStatus_of_dlq (h.dlq_of_final hmem ha hf) ha
        exact htakes ((ho ⟨e.status, hf, .inl hheld⟩).2 hne)
      obtain ⟨x, hx⟩ := Option.ne_none_iff_exists'.1 hne
      rw [hx, Option.map_some, Option.some.injEq]
      refine iff_of_false (fun he => hnot (he ▸ ht)) ?_
      rintro rfl
      exact not_final_pending ht
  · have hheld := h.won k hk
    obtain ⟨hdlq, -⟩ := ho ⟨_, final_replayed, .inl hheld⟩
    exact Option.some.inj ((heldStatus_of_dlq hdlq ha).symm.trans hheld)
  · -- a replayed entry was replayed before
    have he : e.status = "replayed" := by
      rcases hshows with hk | hk
      · rw [hw.held_self] at hk
        exact Option.some.inj hk
      · simp only [hstored] at hk
        split at hk
        · obtain ⟨x, -, hx⟩ := Option.map_eq_some_iff.1 hk
          exact hx
        · obtain ⟨x, -, hx⟩ := Option.map_eq_some_iff.1 hk
          exact absurd hx (by decide)
    have hheld := heldStatus_of_dlq (h.dlq_of_final hmem ha (he ▸ final_replayed)) ha
    exact h.late _ hmem (.inl (he ▸ hheld))

/-- **The end of a replay.** -/
theorem Inv.finish (h : Inv py s) (n : ℕ) (how : Ending) :
    (Lifecycle py s (.finish n how) ↔ Orderly py s (.finish n how)) ∧
      (Orderly py s (.finish n how) → Inv py (s.step py (.finish n how))) := by
  cases hn : s.running[n]? with
  | none =>
    have hstep : s.step py (.finish n how) = s := by
      unfold DlqRun.step
      simp only [hn]
    have horderly : Orderly py s (.finish n how) := by
      intro k a hka
      rw [hn] at hka
      cases hka
    refine ⟨?_, fun _ => by rw [hstep]; exact h⟩
    rw [lifecycle_same (fun _ => by rw [hstep]) (fun _ => by rw [hstep]) (by rw [hstep]; exact h.nodup)]
    exact iff_of_true (fun j now hj => by cases hj) horderly
  | some r =>
    obtain ⟨k, a⟩ := r
    cases how with
    | returned => exact h.returned hn
    | raised => exact ⟨h.raised_lifecycle hn, h.raised_inv hn⟩
    | cancelled =>
      have hstep := step_finish py hn .cancelled
      rw [if_neg (by decide)] at hstep
      have horderly : Orderly py s (.finish n .cancelled) := fun _ _ _ _ => trivial
      have hsub : ∀ r ∈ s.running.eraseIdx n, r ∈ s.running := fun r hr => List.mem_of_mem_eraseIdx hr
      constructor
      · rw [lifecycle_same (fun _ => by rw [hstep]; rfl) (fun _ => by rw [hstep]; rfl)
          (by rw [hstep]; exact h.nodup)]
        exact iff_of_true (fun j now hj => by cases hj) horderly
      · intro _
        rw [hstep]
        exact ⟨h.keyed, h.objs, fun r hr => h.runs r (hsub r hr), fun r hr => h.own r (hsub r hr),
          h.agree, h.won, fun r hr => h.late r (hsub r hr), h.nodup⟩

/-! ### Replays that begin -/

/-- What `replay_dead_letter` does before it awaits the handler. -/
theorem replayBegin_cases (h : Inv py s) (k : String) (now : DateTime) :
    (s.step py (.replay k now) = s ∧ ¬ s.letters.Finished py k) ∨
      ∃ a, (s.step py (.replay k now)).running = s.running ++ [(k, a)] ∧
        (s.step py (.replay k now)).succeeded = s.succeeded ∧
        (s.step py (.replay k now)).letters.dlq = s.letters.dlq ∧
        (s.step py (.replay k now)).letters.store = s.letters.store ∧
        (s.step py (.replay k now)).letters.idAt a = some k ∧
        (∀ b j, s.letters.idAt b = some j → (s.step py (.replay k now)).letters.idAt b = some j ∧
          (s.step py (.replay k now)).letters.statusAt b = s.letters.statusAt b) ∧
        (s.letters.dlq.get? k = some a ∨
          ∃ st, s.letters.storedStatus py k = some st ∧
            (s.step py (.replay k now)).letters.statusAt a = some st) := by
  unfold DlqRun.step DeadLetters.replayBegin
  -- no entry, the object in `_dlq`, or a new object read from the store
  rcases find_cases s.letters h.keyed k with ⟨hfind, hdlq, hstored⟩ | ⟨a, hfind, hdlq⟩ |
    ⟨e, hfind, hdlq, hstored, hid⟩
  · simp only [hfind]
    refine .inl ⟨trivial, ?_⟩
    rintro ⟨st, -, hk | hk⟩
    · unfold DeadLetters.heldStatus at hk
      rw [hdlq] at hk
      cases hk
    · rw [hstored] at hk
      cases hk
  · simp only [hfind]
    have hids : ∀ b, (s.letters.assign a fun e => { e with lastAttempt := some now }).idAt b =
        s.letters.idAt b := fun b => s.letters.idAt_assign a b fun _ => rfl
    refine .inr ⟨a, rfl, trivial, rfl, rfl, ?_, fun b j hb => ⟨?_, ?_⟩, .inl hdlq⟩
    · exact (hids a).trans (h.objs k a hdlq)
    · exact (hids b).trans hb
    · refine (s.letters.statusAt_assign a b _).trans ?_
      split
      · rfl
      · rfl
  · simp only [hfind]
    set d : DeadLetters := { s.letters with objects := s.letters.objects ++ [e] } with hd
    have hnew : d.objects[s.letters.objects.length]? = some e := by simp [hd]
    have hids : ∀ b, (d.assign s.letters.objects.length fun e => { e with lastAttempt := some now }).idAt
        b = d.idAt b := fun b => d.idAt_assign _ b fun _ => rfl
    refine .inr ⟨_, rfl, trivial, rfl, rfl, ?_, fun b j hb => ?_, .inr ⟨e.status, hstored, ?_⟩⟩
    · refine (hids _).trans ?_
      unfold DeadLetters.idAt
      rw [hnew, Option.map_some, hid]
    · have hold : d.objects[b]? = s.letters.objects[b]? := DeadLetters.objects_append hb e
      constructor
      · refine (hids b).trans ?_
        unfold DeadLetters.idAt at *
        rw [hold]
        exact hb
      · refine (d.statusAt_assign _ _ _).trans ?_
        unfold DeadLetters.statusAt
        rw [hold]
        split
        · rfl
        · rfl
    · refine (d.statusAt_assign _ _ _).trans ?_
      rw [if_pos rfl, hnew]
      rfl

/-- **A replay begins.** -/
theorem Inv.replay (h : Inv py s) (k : String) (now : DateTime) :
    (Lifecycle py s (.replay k now) ↔ Orderly py s (.replay k now)) ∧
      (Orderly py s (.replay k now) → Inv py (s.step py (.replay k now))) := by
  have horderly : (∀ j now', DlqEvent.replay k now = .replay j now' → ¬ s.letters.Finished py j) ↔
      Orderly py s (.replay k now) := by
    constructor
    · exact fun hj => hj k now rfl
    · rintro hno j now' ⟨⟩
      exact hno
  rcases replayBegin_cases h k now with ⟨hstep, hno⟩ |
    ⟨a, hrunning, hsucceeded, hdlq, hstore, hid, hold, hfrom⟩
  · refine ⟨?_, fun _ => by rw [hstep]; exact h⟩
    rw [lifecycle_same (fun _ => by rw [hstep]) (fun _ => by rw [hstep]) (by rw [hstep]; exact h.nodup),
      horderly]
  · -- no status is written before the handler ends
    have hheld : ∀ j, (s.step py (.replay k now)).letters.heldStatus j = s.letters.heldStatus j := by
      intro j
      unfold DeadLetters.heldStatus
      rw [hdlq]
      cases hj : s.letters.dlq.get? j with
      | none => rfl
      | some b => exact (hold b j (h.objs j b hj)).2
    have hstored : ∀ j, (s.step py (.replay k now)).letters.storedStatus py j =
        s.letters.storedStatus py j := by
      intro j
      unfold DeadLetters.storedStatus
      rw [hstore]
    have hshows : ∀ j st, (s.step py (.replay k now)).letters.Shows py j st ↔
        s.letters.Shows py j st := by
      intro j st
      unfold DeadLetters.Shows
      rw [hheld, hstored]
    refine ⟨?_, fun hno => ?_⟩
    · rw [lifecycle_same hheld hstored (by rw [hsucceeded]; exact h.nodup), horderly]
    · have hno' : ¬ s.letters.Finished py k := hno
      refine ⟨by rw [hstore]; exact h.keyed, fun j b hb => ?_, fun r hr => ?_, fun r hr st ht hst => ?_,
        fun j st ht => ?_, fun j hj => ?_, fun r hr hk => ?_, by rw [hsucceeded]; exact h.nodup⟩
      · rw [hdlq] at hb
        exact (hold b j (h.objs j b hb)).1
      · rw [hrunning, List.mem_append, List.mem_singleton] at hr
        rcases hr with hr | rfl
        · exact (hold _ _ (h.runs r hr)).1
        · exact hid
      · rw [hdlq]
        rw [hrunning, List.mem_append, List.mem_singleton] at hr
        rcases hr with hr | rfl
        · rw [(hold _ _ (h.runs r hr)).2] at hst
          exact h.own r hr st ht hst
        · rcases hfrom with hk | ⟨st', hk, hst'⟩
          · exact hk
          · obtain rfl := Option.some.inj (hst'.symm.trans hst)
            exact absurd ⟨_, ht, .inr hk⟩ hno'
      · rw [hheld, hstored]
        exact h.agree j st ht
      · rw [hsucceeded] at hj
        rw [hheld]
        exact h.won j hj
      · rw [hsucceeded]
        rw [hrunning, List.mem_append, List.mem_singleton] at hr
        rw [hshows] at hk
        rcases hr with hr | rfl
        · exact h.late r hr hk
        · exact absurd ⟨_, final_replayed, hk⟩ hno'

/-! ### New entries -/

theorem enqueue_writes (h : Inv py s) (task : Dict String Value) (error : String) (attempts : ℤ)
    (k : String) (now : DateTime) :
    WritesStatus py s.letters (s.letters.enqueue py task error attempts k now).2 k s.letters.objects.length
        "pending" ∧
      ((s.letters.enqueue py task error attempts k now).2.storedStatus py k = some "pending" ∨
        (s.letters.enqueue py task error attempts k now).2.storedStatus py k =
          s.letters.storedStatus py k) := by
  -- the new object, before it is put into the store
  set entry : ResilienceDeadLetter :=
    { entryId := k, originalTask := task, error, attempts, enqueuedAt := now } with hentry
  set d : DeadLetters := { s.letters with
    objects := s.letters.objects ++ [entry], dlq := s.letters.dlq.insert k s.letters.objects.length }
    with hd
  have hput : (s.letters.enqueue py task error attempts k now).2 = (d.storePut py entry).2 := by
    unfold DeadLetters.enqueue
    simp only [← hentry, ← hd]
    cases d.storePut py entry with
    | mk result d' =>
      cases result with
      | ok x => rfl
      | error x => rfl
  have hw : WritesStatus py s.letters d k s.letters.objects.length "pending" := by
    have hassign := writes_assign (d := { s.letters with objects := s.letters.objects ++ [entry] })
      (f := id) h.keyed (a := s.letters.objects.length) (k := k) (e := entry) (by simp) rfl fun _ => rfl
    unfold DeadLetters.assign at hassign
    rw [List.modify_id] at hassign
    exact hassign.of_append
  rw [hput]
  refine ⟨hw.put rfl, ?_⟩
  rw [DeadLetters.storedStatus_put _ _ hw.keyed]
  split
  · cases hs : s.letters.store with
    | none =>
      right
      unfold DeadLetters.storedStatus
      rw [hs]
      rfl
    | some t => exact .inl rfl
  · exact .inr rfl

/-- **A new entry.** -/
theorem Inv.enqueue (h : Inv py s) (task : Dict String Value) (error : String) (attempts : ℤ)
    (k : String) (now : DateTime) (hfresh : Fresh py s (.enqueue task error attempts k now)) :
    Lifecycle py s (.enqueue task error attempts k now) ∧
      Inv py (s.step py (.enqueue task error attempts k now)) := by
  obtain ⟨hdlq, hnone, hrunning⟩ := hfresh
  obtain ⟨hw, hstored⟩ := enqueue_writes h task error attempts k now
  have hheld : s.letters.heldStatus k = none := by
    unfold DeadLetters.heldStatus
    rw [hdlq]
    rfl
  constructor
  · refine (lifecycle_write (e := .enqueue task error attempts k now) h hw
      fun j now' hj => by cases hj).2 ⟨fun t _ hk => ?_, fun t _ hk => ?_, h.nodup⟩
    · rw [hheld] at hk
      cases hk
    · rw [hnone] at hk
      cases hk
  · refine h.write hw (fun r hr => hr) (fun _ _ => Iff.rfl) h.nodup (fun b t _ hb _ => ?_)
      (fun t ht hsome => ?_) (fun hk => ?_) (fun b hb _ => absurd rfl (hrunning _ hb))
    · rw [hdlq] at hb
      cases hb
    · change (s.letters.enqueue py task error attempts k now).2.storedStatus py k ≠ none at hsome
      change _ ↔ (s.letters.enqueue py task error attempts k now).2.storedStatus py k = some t
      rcases hstored with hst | hst
      · rw [hst, Option.some.injEq]
      · rw [hst] at hsome
        exact absurd hnone hsome
    · have := h.won k hk
      rw [hheld] at this
      cases this

/-- **One event.** -/
theorem Inv.step (h : Inv py s) (e : DlqEvent) (hfresh : Fresh py s e) :
    (Lifecycle py s e ↔ Orderly py s e) ∧ (Orderly py s e → Inv py (s.step py e)) := by
  cases e with
  | enqueue task error attempts k now =>
    obtain ⟨hl, hi⟩ := h.enqueue task error attempts k now hfresh
    exact ⟨iff_of_true hl trivial, fun _ => hi⟩
  | replay k now => exact h.replay k now
  | finish n how => exact h.finish n how
  | discard k now => exact h.discard k now

end Runs

/-- A store that calls have filled. -/
def Filled (py : Stdlib) (t : ResilienceStore) : Prop :=
  ∃ calls, t = .memory (.after calls) ∨ t = .sqlite (.after py calls)

theorem MemoryStore.keyed_call {py : Stdlib} {m : MemoryStore}
    (h : (ResilienceStore.memory m).Keyed py) (c : StoreCall) :
    (ResilienceStore.memory (m.call c).2).Keyed py := by
  cases c with
  | putDeadLetter e => exact h.put rfl
  | updateDeadLetterStatus k st la => exact h.update k st la
  | _ => exact h

theorem SqliteStore.keyed_call {py : Stdlib} {m : SqliteStore}
    (h : (ResilienceStore.sqlite m).Keyed py) (c : StoreCall) :
    (ResilienceStore.sqlite (m.call py c).2).Keyed py := by
  cases c with
  | putDeadLetter e =>
    simp only [SqliteStore.call]
    cases hput : m.putDeadLetter py e with
    | error x => exact h
    | ok m' =>
      refine h.put (e := e) ?_
      unfold ResilienceStore.putDeadLetter
      simp only [hput]
      rfl
  | updateDeadLetterStatus k st la => exact h.update k st la
  | putCircuit name state failureCount lastFailure configJson =>
    simp only [SqliteStore.call]
    split
    · exact h
    · exact h
  | putRetry taskId attempt backoffMs error timestamp =>
    simp only [SqliteStore.call]
    split
    · exact h
    · exact h
  | _ => exact h

theorem Filled.keyed {py : Stdlib} {t : ResilienceStore} (h : Filled py t) : t.Keyed py := by
  obtain ⟨calls, rfl | rfl⟩ := h
  · refine run_invariant _ (fun m => (ResilienceStore.memory m).Keyed py)
      (fun m c hm => MemoryStore.keyed_call hm c) calls _ fun k e he => ?_
    cases he
  · refine run_invariant _ (fun m => (ResilienceStore.sqlite m).Keyed py)
      (fun m c hm => SqliteStore.keyed_call hm c) calls _ fun k e he => ?_
    cases he

theorem inv_start {py : Stdlib} {store : Option ResilienceStore} (h : ∀ t, store = some t → Filled py t) :
    Inv py { letters := { store } } := by
  refine ⟨fun t ht => (h t ht).keyed, fun k a ha => ?_, fun r hr => ?_, fun r hr => ?_,
    fun k st _ hheld => ?_, fun k hk => ?_, fun r hr => ?_, List.nodup_nil⟩
  · cases ha
  · cases hr
  · cases hr
  · exact absurd rfl hheld
  · cases hk
  · cases hr

/-- **Finished entries stay finished, and none is replayed again**, in every run of a new engine,
with or without a store, exactly when every event of it is orderly. -/
theorem replay_once_iff (py : Stdlib) (store : Option ResilienceStore)
    (hstore : ∀ t, store = some t → Filled py t) (es : List DlqEvent)
    (hfresh : EachStep (DlqRun.step py) (Fresh py) { letters := { store } } es) :
    EachStep (DlqRun.step py) (Lifecycle py) { letters := { store } } es ↔
      EachStep (DlqRun.step py) (Orderly py) { letters := { store } } es :=
  eachStep_iff (fun _ e he hi => (hi.step e he).2) (fun _ e he hi => (hi.step e he).1) es _
    (inv_start hstore) hfresh

theorem not_finished {py : Stdlib} {d : DeadLetters} {k : String}
    (hheld : d.heldStatus k = some "pending") (hstored : d.storedStatus py k = none) :
    ¬ d.Finished py k := by
  rintro ⟨st, hst, hk | hk⟩
  · rw [hheld, Option.some.injEq] at hk
    exact not_final_pending (hk ▸ hst)
  · rw [hstored] at hk
    cases hk

/-- An entry whose first replay fails, and whose second one succeeds. -/
theorem replay_once_second :
    EachStep (DlqRun.step emptyTasks) (Lifecycle emptyTasks) { letters := {} }
      [.enqueue ∅ "boom" 1 "a" firstSecond, .replay "a" firstSecond, .finish 0 .raised,
        .replay "a" nextSecond, .finish 0 .returned] := by
  refine (replay_once_iff emptyTasks none (fun t ht => by cases ht) _ ?_).2 ?_
  · exact ⟨⟨rfl, rfl, fun r hr => by cases hr⟩, trivial, trivial, trivial, trivial, trivial⟩
  · have hpending : ∀ s : DlqRun, s.letters.heldStatus "a" = some "pending" →
        s.letters.storedStatus emptyTasks "a" = none →
        ∀ n how, s.running = [("a", 0)] → Orderly emptyTasks s (.finish n how) := by
      intro s hheld hstored n how hrunning k a hka hfin
      rw [hrunning] at hka
      have hk := List.mem_singleton.1 (List.mem_of_getElem? hka)
      exact absurd ((Prod.mk.inj hk).1 ▸ hfin) (not_finished hheld hstored)
    exact ⟨trivial, not_finished rfl rfl, hpending _ rfl rfl _ _ rfl, not_finished rfl rfl,
      hpending _ rfl rfl _ _ rfl, trivial⟩

/-- **Two replays of one entry** overlap and both succeed; a replayed entry is replayed again; a
discarded one is. -/
theorem replayed_twice :
    ¬ EachStep (DlqRun.step emptyTasks) (Lifecycle emptyTasks) { letters := {} }
        [.enqueue ∅ "boom" 1 "a" firstSecond, .replay "a" firstSecond, .replay "a" firstSecond,
          .finish 0 .returned, .finish 0 .returned] ∧
      ¬ EachStep (DlqRun.step emptyTasks) (Lifecycle emptyTasks) { letters := {} }
        [.enqueue ∅ "boom" 1 "a" firstSecond, .discard "a" firstSecond, .replay "a" nextSecond] := by
  constructor
  · rintro ⟨-, -, -, -, h, -⟩
    exact absurd h.once (by decide)
  · rintro ⟨-, -, h, -⟩
    exact h.started "a" nextSecond rfl ⟨"discarded", .inr rfl, .inl rfl⟩

end Hermes

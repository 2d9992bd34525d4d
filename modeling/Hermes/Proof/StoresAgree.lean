import Hermes.Lib.History
import Hermes.Spec.ResilienceStore

/-!
# The two backends of the resilience store

* `AfterCalls`: circuits and retries are the same in both; a dead letter differs by its
  task and its `enqueued_at`, which SQLite keeps from the first `put_dead_letter` and
  the in-memory store takes from the last.
* `stores_agree_iff`: the calls on which both give the same replies.
-/

namespace Hermes

open History

/-! ## What a sequence of calls says -/

/-- The entry that a call puts under an id. -/
def putOf (entryId : String) : StoreCall → Option ResilienceDeadLetter
  | .putDeadLetter e => if e.entryId = entryId then some e else none
  | _ => none

def firstPut (h : List StoreCall) (entryId : String) : Option ResilienceDeadLetter :=
  h.findSome? (putOf entryId)

def lastPut (h : List StoreCall) (entryId : String) : Option ResilienceDeadLetter :=
  h.reverse.findSome? (putOf entryId)

/-- The last put of an id has the task and the `enqueued_at` of the first one. -/
def Kept (h : List StoreCall) (entryId : String) : Prop :=
  (lastPut h entryId).map (fun e => (e.originalTask, e.enqueuedAt)) =
    (firstPut h entryId).map fun e => (e.originalTask, e.enqueuedAt)

def MemoryStore.after (h : List StoreCall) : MemoryStore :=
  h.foldl (fun s c => (s.call c).2) {}

def SqliteStore.after (py : Stdlib) (h : List StoreCall) : SqliteStore :=
  h.foldl (fun s c => (s.call py c).2) {}

/-- Both backends give the same reply to a call after the calls of `h`. -/
def SameReply (py : Stdlib) (h : List StoreCall) (c : StoreCall) : Prop :=
  ((MemoryStore.after h).call c).1 = ((SqliteStore.after py h).call py c).1

/-- The entries with a status, in the order of their first puts. -/
def withStatus (h : List StoreCall) (status : Option String) : List ResilienceDeadLetter :=
  (MemoryStore.after h).deadLetter.values.filter fun e => wanted status e.status

/-- **The condition on a call**, by the calls before it. -/
def Harmless (h : List StoreCall) : StoreCall → Prop
  | .putCircuit _ _ failureCount _ _ => fits failureCount
  | .putRetry _ attempt backoffMs _ _ => fits attempt ∧ fits backoffMs
  | .putDeadLetter entry => fits entry.attempts
  | .getDeadLetter entryId => Kept h entryId
  | .listDeadLetter status => (∀ e ∈ withStatus h status, Kept h e.entryId) ∧
      (withStatus h status).Pairwise fun a b => a.enqueuedAt.iso ≤ b.enqueuedAt.iso
  | _ => True

theorem firstPut_snoc (h : List StoreCall) (c : StoreCall) (k : String) :
    firstPut (h ++ [c]) k = (firstPut h k).or (putOf k c) := by
  unfold firstPut
  rw [List.findSome?_append]
  simp

theorem lastPut_snoc (h : List StoreCall) (c : StoreCall) (k : String) :
    lastPut (h ++ [c]) k = (putOf k c).or (lastPut h k) := by
  unfold lastPut
  rw [List.reverse_append, List.findSome?_append]
  simp

/-! ## Sorting -/

section OrderBy

variable {α β : Type} {key : α → String}

theorem orderBy_perm (key : α → String) (rows : List α) : (orderBy key rows).Perm rows :=
  List.mergeSort_perm _ _

theorem orderBy_pairwise (key : α → String) (rows : List α) :
    (orderBy key rows).Pairwise fun a b => key a ≤ key b := by
  have h := @List.pairwise_mergeSort _ (fun a b => decide (key a ≤ key b))
    (fun a b c hab hbc => by simpa using String.le_trans (by simpa using hab) (by simpa using hbc))
    (fun a b => by simpa using String.le_total (key a) (key b)) rows
  unfold orderBy
  simpa using h

theorem orderBy_eq_self_iff {rows : List α} :
    orderBy key rows = rows ↔ rows.Pairwise fun a b => key a ≤ key b := by
  constructor
  · intro h
    exact h ▸ orderBy_pairwise key rows
  · intro h
    exact List.mergeSort_of_pairwise (by simpa using h)

theorem orderBy_pair (key : α → String) {a b : α} (h : ¬ key a ≤ key b) :
    orderBy key [a, b] = [b, a] := by
  unfold orderBy
  simp [List.mergeSort, List.MergeSort.Internal.splitInTwo, h]

/-- A sort that leaves the ids in their places leaves the rows there. -/
theorem eq_of_perm_of_map_eq {xs ys : List α} {id : α → β} (hperm : xs.Perm ys)
    (hnodup : (ys.map id).Nodup) (hmap : xs.map id = ys.map id) : xs = ys := by
  refine List.ext_getElem hperm.length_eq fun n hx hy => ?_
  refine List.inj_on_of_nodup_map hnodup (hperm.subset (List.getElem_mem hx)) (List.getElem_mem hy) ?_
  have hn := congrArg (fun zs => zs[n]?) hmap
  simpa [List.getElem?_eq_getElem hx, List.getElem?_eq_getElem hy] using hn

end OrderBy

/-! ## The same dead letter in both -/

variable {py : Stdlib} {h : List StoreCall}

/-- JSON reads back the tasks that are put. -/
def RoundTrips (py : Stdlib) (c : StoreCall) : Prop :=
  ∀ e, c = .putDeadLetter e → py.loads (py.dumps e.originalTask) = e.originalTask

/-- An entry in memory, its row, and where their tasks and `enqueued_at` are from. -/
structure SameLetter (py : Stdlib) (h : List StoreCall) (k : String) (e : ResilienceDeadLetter)
    (r : DeadLetterRow) : Prop where
  id : e.entryId = k
  rowId : r.entryId = k
  error : r.error = e.error
  attempts : r.attempts = e.attempts
  lastAttempt : r.lastAttempt = e.lastAttempt.map (·.iso)
  status : r.status = e.status
  last : ∃ l, lastPut h k = some l ∧ e.originalTask = l.originalTask ∧ e.enqueuedAt = l.enqueuedAt
  first : ∃ f, firstPut h k = some f ∧ r.originalTaskJson = py.dumps f.originalTask ∧
    r.enqueuedAt = f.enqueuedAt.iso ∧ py.loads (py.dumps f.originalTask) = f.originalTask

theorem parseDt_iso (t : DateTime) : parseDt (some t.iso) = some t := by
  unfold parseDt
  exact dif_neg t.nonempty

theorem parseDt_map_iso (t : Option DateTime) : parseDt (t.map (·.iso)) = t := by
  cases t with
  | none => rfl
  | some t => exact parseDt_iso t

/-- **A row reads back as its entry** exactly when the last put kept what the first one said. -/
theorem SameLetter.rowToDle_eq_iff {k : String} {e : ResilienceDeadLetter} {r : DeadLetterRow}
    (hs : SameLetter py h k e r) : e = SqliteStore.rowToDle py r ↔ Kept h k := by
  obtain ⟨l, hlast, htask, hat⟩ := hs.last
  obtain ⟨f, hfirst, hjson, hiso, hround⟩ := hs.first
  have hrow : SqliteStore.rowToDle py r =
      { e with originalTask := f.originalTask, enqueuedAt := f.enqueuedAt } := by
    unfold SqliteStore.rowToDle
    rw [hjson, hround, hiso, parseDt_iso, hs.lastAttempt, parseDt_map_iso, hs.error, hs.attempts,
      hs.status, hs.rowId, ← hs.id]
    rfl
  unfold Kept
  rw [hrow, hlast, hfirst, Option.map_some, Option.map_some, Option.some.injEq, ← htask, ← hat]
  constructor
  · intro he
    rw [he]
  · intro hkept
    obtain ⟨h₁, h₂⟩ := Prod.mk.inj hkept
    rw [← h₁, ← h₂]

theorem SameLetter.iso_eq {k : String} {e : ResilienceDeadLetter} {r : DeadLetterRow}
    (hs : SameLetter py h k e r) (hk : Kept h k) : r.enqueuedAt = e.enqueuedAt.iso := by
  obtain ⟨f, -, -, hiso, -⟩ := hs.first
  rw [hs.rowToDle_eq_iff.2 hk]
  show _ = ((parseDt (some r.enqueuedAt)).getD py.now).iso
  rw [hiso, parseDt_iso]
  rfl

/-- A dead letter after a call that puts nothing under its id. -/
theorem SameLetter.snoc {k : String} {e : ResilienceDeadLetter} {r : DeadLetterRow}
    (hs : SameLetter py h k e r) {c : StoreCall} (hc : putOf k c = none) :
    SameLetter py (h ++ [c]) k e r := by
  refine { hs with last := ?_, first := ?_ }
  · rw [lastPut_snoc, hc]
    exact hs.last
  · obtain ⟨f, hf, hrest⟩ := hs.first
    refine ⟨f, ?_, hrest⟩
    rw [firstPut_snoc, hf, Option.some_or]

/-! ## Lists of dead letters -/

section Lists

variable {es : List ResilienceDeadLetter} {rs : List DeadLetterRow}

/-- Entries and rows that match one by one. -/
def SameLetters (py : Stdlib) (h : List StoreCall) :
    List ResilienceDeadLetter → List DeadLetterRow → Prop :=
  List.Forall₂ fun e r => SameLetter py h e.entryId e r

theorem SameLetters.ids (hs : SameLetters py h es rs) : es.map (·.entryId) = rs.map (·.entryId) := by
  induction hs with
  | nil => rfl
  | cons her _ ih => rw [List.map_cons, List.map_cons, her.rowId, ih]

theorem SameLetters.read_iff (hs : SameLetters py h es rs) :
    es = rs.map (SqliteStore.rowToDle py) ↔ ∀ e ∈ es, Kept h e.entryId := by
  induction hs with
  | nil => simp
  | cons her _ ih =>
    rw [List.map_cons, List.cons.injEq, her.rowToDle_eq_iff, ih, List.forall_mem_cons]

theorem SameLetters.texts (hs : SameLetters py h es rs) (hkept : ∀ e ∈ es, Kept h e.entryId) :
    rs.map (·.enqueuedAt) = es.map fun e => e.enqueuedAt.iso := by
  induction hs with
  | nil => rfl
  | cons her _ ih =>
    rw [List.forall_mem_cons] at hkept
    rw [List.map_cons, List.map_cons, her.iso_eq hkept.1, ih hkept.2]

/-- **The listed entries are those of the rows** exactly when none was put anew with another task or
time, and the times are in the order of the first puts. -/
theorem SameLetters.list_iff (hs : SameLetters py h es rs) (hnodup : (rs.map (·.entryId)).Nodup) :
    es = (orderBy (·.enqueuedAt) rs).map (SqliteStore.rowToDle py) ↔
      (∀ e ∈ es, Kept h e.entryId) ∧ es.Pairwise fun a b => a.enqueuedAt.iso ≤ b.enqueuedAt.iso := by
  have hsorted : (∀ e ∈ es, Kept h e.entryId) →
      (orderBy (·.enqueuedAt) rs = rs ↔
        es.Pairwise fun a b => a.enqueuedAt.iso ≤ b.enqueuedAt.iso) := by
    intro hkept
    have hR : rs.Pairwise (fun a b => a.enqueuedAt ≤ b.enqueuedAt) ↔
        (rs.map (·.enqueuedAt)).Pairwise (· ≤ ·) := List.pairwise_map.symm
    rw [orderBy_eq_self_iff, hR, hs.texts hkept, List.pairwise_map]
  constructor
  · intro hes
    have hids : (orderBy (·.enqueuedAt) rs).map (·.entryId) = rs.map (·.entryId) := by
      rw [← hs.ids, hes, List.map_map]
      rfl
    have heq := eq_of_perm_of_map_eq (orderBy_perm _ rs) hnodup hids
    have hkept := hs.read_iff.1 (heq ▸ hes)
    exact ⟨hkept, (hsorted hkept).1 heq⟩
  · rintro ⟨hkept, hpair⟩
    rw [(hsorted hkept).2 hpair]
    exact hs.read_iff.2 hkept

end Lists

/-! ## Both stores after the same calls -/

/-- **What both stores hold** after the calls of `h`. -/
structure AfterCalls (py : Stdlib) (h : List StoreCall) (m : MemoryStore) (s : SqliteStore) :
    Prop where
  circuits : s.circuits = m.circuits
  retries : s.retries.map Prod.snd = m.retries
  ids : s.retries.Pairwise fun a b => a.1 ≤ b.1
  next : ∀ r ∈ s.retries, r.1 ≤ s.nextId
  letters : m.deadLetter.Aligned (SameLetter py h) s.deadLetter
  absent : ∀ k, m.deadLetter.get? k = none → firstPut h k = none

variable {m : MemoryStore} {s : SqliteStore}

theorem afterCalls_nil : AfterCalls py [] {} {} where
  circuits := rfl
  retries := rfl
  ids := .nil
  next := by simp
  letters := .nil
  absent _ _ := rfl

/-- A call that puts no dead letter leaves them as they are. -/
theorem AfterCalls.letters_snoc (hA : AfterCalls py h m s) {c : StoreCall}
    (hc : ∀ k, putOf k c = none) :
    m.deadLetter.Aligned (SameLetter py (h ++ [c])) s.deadLetter ∧
      ∀ k, m.deadLetter.get? k = none → firstPut (h ++ [c]) k = none := by
  refine ⟨hA.letters.mono fun k e r hs => hs.snoc (hc k), fun k hk => ?_⟩
  rw [firstPut_snoc, hA.absent k hk, hc]
  rfl

/-- A call that changes nothing. -/
theorem AfterCalls.read (hA : AfterCalls py h m s) {c : StoreCall} (hc : ∀ k, putOf k c = none) :
    AfterCalls py (h ++ [c]) m s := by
  obtain ⟨hletters, habsent⟩ := hA.letters_snoc hc
  exact ⟨hA.circuits, hA.retries, hA.ids, hA.next, hletters, habsent⟩

theorem AfterCalls.get? (hA : AfterCalls py h m s) (k : String) :
    (m.deadLetter.get? k = none ∧ s.deadLetter.get? k = none) ∨
      ∃ e r, m.deadLetter.get? k = some e ∧ s.deadLetter.get? k = some r ∧ SameLetter py h k e r := by
  have hrel := hA.letters.get? k
  cases hm : m.deadLetter.get? k with
  | none =>
    rw [hm] at hrel
    cases hs : s.deadLetter.get? k with
    | none => exact .inl ⟨rfl, rfl⟩
    | some r => rw [hs] at hrel; cases hrel
  | some e =>
    rw [hm] at hrel
    cases hs : s.deadLetter.get? k with
    | none => rw [hs] at hrel; cases hrel
    | some r =>
      rw [hs] at hrel
      cases hrel with
      | some hsame => exact .inr ⟨e, r, rfl, rfl, hsame⟩

/-- `put_dead_letter`. -/
theorem AfterCalls.put (hA : AfterCalls py h m s) {e : ResilienceDeadLetter}
    (hround : py.loads (py.dumps e.originalTask) = e.originalTask) (hfits : fits e.attempts = true) :
    ∃ s', s.putDeadLetter py e = .ok s' ∧
      AfterCalls py (h ++ [.putDeadLetter e]) (m.putDeadLetter e) s' := by
  unfold SqliteStore.putDeadLetter
  simp only
  rw [if_pos hfits]
  refine ⟨_, rfl, ?_⟩
  have hself : putOf e.entryId (.putDeadLetter e) = some e := if_pos rfl
  have hne : ∀ k, k ≠ e.entryId → putOf k (.putDeadLetter e) = none := fun k hk => if_neg (Ne.symm hk)
  refine ⟨hA.circuits, hA.retries, hA.ids, hA.next, ?_, fun k hk => ?_⟩
  · refine hA.letters.insert _ ?_ fun k v w hk hs => hs.snoc (hne k hk)
    have hlast : lastPut (h ++ [.putDeadLetter e]) e.entryId = some e := by
      rw [lastPut_snoc, hself, Option.some_or]
    rcases hA.get? e.entryId with ⟨hm, hs⟩ | ⟨e', r, hm, hs, hsame⟩
    · rw [hs]
      have hfirst : firstPut (h ++ [.putDeadLetter e]) e.entryId = some e := by
        rw [firstPut_snoc, hA.absent _ hm, hself]
        rfl
      exact ⟨rfl, rfl, rfl, rfl, rfl, rfl, ⟨e, hlast, rfl, rfl⟩, ⟨e, hfirst, rfl, rfl, hround⟩⟩
    · -- a row that is updated keeps the task and the time of the first put
      rw [hs]
      obtain ⟨f, hf, hrest⟩ := hsame.first
      have hfirst : firstPut (h ++ [.putDeadLetter e]) e.entryId = some f := by
        rw [firstPut_snoc, hf, Option.some_or]
      exact ⟨rfl, hsame.rowId, rfl, rfl, rfl, rfl, ⟨e, hlast, rfl, rfl⟩, ⟨f, hfirst, hrest⟩⟩
  · by_cases hek : k = e.entryId
    · subst hek
      rw [MemoryStore.putDeadLetter, Dict.get?_insert_self] at hk
      cases hk
    · rw [MemoryStore.putDeadLetter, Dict.get?_insert_of_ne _ hek] at hk
      rw [firstPut_snoc, hA.absent k hk, hne k hek]
      rfl

/-- `update_dead_letter_status`. -/
theorem AfterCalls.update (hA : AfterCalls py h m s) (k status : String) (at' : Option DateTime) :
    (s.updateDeadLetterStatus k status at').1 = (m.updateDeadLetterStatus k status at').1 ∧
      AfterCalls py (h ++ [.updateDeadLetterStatus k status at'])
        (m.updateDeadLetterStatus k status at').2 (s.updateDeadLetterStatus k status at').2 := by
  obtain ⟨hletters, habsent⟩ :=
    hA.letters_snoc (c := .updateDeadLetterStatus k status at') fun _ => rfl
  unfold MemoryStore.updateDeadLetterStatus SqliteStore.updateDeadLetterStatus
  rcases hA.get? k with ⟨hm, hs⟩ | ⟨e, r, hm, hs, hsame⟩
  · rw [hm, hs]
    exact ⟨rfl, hA.circuits, hA.retries, hA.ids, hA.next, hletters, habsent⟩
  · rw [hm, hs]
    refine ⟨rfl, hA.circuits, hA.retries, hA.ids, hA.next, ?_, fun j hj => ?_⟩
    · refine hletters.insert _ ?_ fun _ _ _ _ hs => hs
      refine { hsame.snoc rfl with lastAttempt := ?_, status := rfl }
      show (at'.map (·.iso)).or r.lastAttempt = (at'.or e.lastAttempt).map (·.iso)
      rw [hsame.lastAttempt]
      cases at' with
      | none => rfl
      | some t => rfl
    · by_cases hjk : j = k
      · subst hjk
        rw [Dict.get?_insert_self] at hj
        cases hj
      · rw [Dict.get?_insert_of_ne _ hjk] at hj
        exact habsent j hj

/-- `list_retries`: the journal is in the order of its ids. -/
theorem AfterCalls.listRetries (hA : AfterCalls py h m s) (taskId : Option String) :
    ((s.retries.filter fun r => wanted taskId r.2.taskId).mergeSort
        fun a b => a.1 ≤ b.1).map Prod.snd =
      m.retries.filter fun r => wanted taskId r.taskId := by
  rw [List.mergeSort_of_pairwise (by simpa using hA.ids.filter _), ← hA.retries, List.filter_map]
  rfl

/-- Every row is under its own id. -/
theorem AfterCalls.rowIds (hA : AfterCalls py h m s) :
    (s.deadLetter.values.map (·.entryId)).Nodup := by
  have hkeys : s.deadLetter.values.map (·.entryId) = s.deadLetter.keys := by
    unfold Dict.values Dict.keys
    rw [List.map_map]
    refine List.map_congr_left fun y hy => ?_
    obtain ⟨v, hs⟩ := hA.letters.exists_left hy
    exact hs.rowId
  rw [hkeys]
  exact s.deadLetter.nodup

/-- `list_dead_letter`. -/
theorem AfterCalls.list_iff (hA : AfterCalls py h m s) (status : Option String) :
    m.listDeadLetter status = s.listDeadLetter py status ↔
      (∀ e ∈ m.listDeadLetter status, Kept h e.entryId) ∧
        (m.listDeadLetter status).Pairwise fun a b => a.enqueuedAt.iso ≤ b.enqueuedAt.iso := by
  refine SameLetters.list_iff ?_ (hA.rowIds.sublist (List.filter_sublist.map _))
  refine List.rel_filter ?_ (hA.letters.values.imp ?_)
  · rintro e r hs
    show wanted status e.status = true ↔ wanted status r.status = true
    rw [hs.status]
  · rintro e r ⟨k, hs⟩
    have := hs.id
    subst this
    exact hs

/-- `get_dead_letter`. -/
theorem AfterCalls.get_iff (hA : AfterCalls py h m s) (k : String) :
    m.getDeadLetter k = s.getDeadLetter py k ↔ Kept h k := by
  unfold MemoryStore.getDeadLetter SqliteStore.getDeadLetter
  rcases hA.get? k with ⟨hm, hs⟩ | ⟨e, r, hm, hs, hsame⟩
  · have hfirst := hA.absent k hm
    have hlast : lastPut h k = none := by
      unfold firstPut at hfirst
      unfold lastPut
      rw [List.findSome?_eq_none_iff] at hfirst ⊢
      exact fun c hc => hfirst c (List.mem_reverse.1 hc)
    rw [hm, hs]
    refine iff_of_true rfl ?_
    unfold Kept
    rw [hfirst, hlast]
  · rw [hm, hs, Option.map_some, Option.some.injEq, hsame.rowToDle_eq_iff]

/-- **One call**: the replies are the same exactly when the call meets its condition, and then both
stores hold the same again. -/
theorem AfterCalls.call (hA : AfterCalls py h (.after h) s) {c : StoreCall} (hc : RoundTrips py c) :
    (((MemoryStore.after h).call c).1 = (s.call py c).1 ↔ Harmless h c) ∧
      (Harmless h c → AfterCalls py (h ++ [c]) ((MemoryStore.after h).call c).2 (s.call py c).2) := by
  cases c with
  | putCircuit name state failureCount lastFailure configJson =>
    obtain ⟨hletters, habsent⟩ :=
      hA.letters_snoc (c := .putCircuit name state failureCount lastFailure configJson) fun _ => rfl
    simp only [MemoryStore.call, SqliteStore.call, Harmless]
    by_cases hfits : fits failureCount = true
    · rw [if_pos hfits]
      refine ⟨iff_of_true rfl hfits, fun _ => ⟨?_, hA.retries, hA.ids, hA.next, hletters, habsent⟩⟩
      rw [hA.circuits]
    · rw [if_neg hfits]
      exact ⟨iff_of_false (fun heq => by cases heq) hfits, fun h => absurd h hfits⟩
  | getCircuit name =>
    simp only [MemoryStore.call, SqliteStore.call, Harmless]
    rw [hA.circuits]
    exact ⟨iff_of_true rfl trivial, fun _ => hA.read fun _ => rfl⟩
  | putRetry taskId attempt backoffMs error timestamp =>
    obtain ⟨hletters, habsent⟩ :=
      hA.letters_snoc (c := .putRetry taskId attempt backoffMs error timestamp) fun _ => rfl
    simp only [MemoryStore.call, SqliteStore.call, Harmless]
    by_cases hfits : fits attempt = true ∧ fits backoffMs = true
    · rw [if_pos hfits]
      refine ⟨iff_of_true rfl hfits, fun _ => ⟨hA.circuits, ?_, ?_, ?_, hletters, habsent⟩⟩
      · rw [List.map_append, hA.retries]
        rfl
      · rw [List.pairwise_append]
        refine ⟨hA.ids, List.pairwise_singleton _ _, fun a ha b hb => ?_⟩
        rw [List.mem_singleton.1 hb]
        exact hA.next a ha
      · intro r hr
        rw [List.mem_append, List.mem_singleton] at hr
        rcases hr with hr | rfl
        · exact Nat.le_succ_of_le (hA.next r hr)
        · exact Nat.le_succ _
    · rw [if_neg hfits]
      exact ⟨iff_of_false (fun heq => by cases heq) hfits, fun h => absurd h hfits⟩
  | listRetries taskId =>
    simp only [MemoryStore.call, SqliteStore.call, Harmless]
    rw [hA.listRetries taskId]
    exact ⟨iff_of_true rfl trivial, fun _ => hA.read fun _ => rfl⟩
  | putDeadLetter e =>
    simp only [MemoryStore.call, SqliteStore.call, Harmless]
    by_cases hfits : fits e.attempts = true
    · obtain ⟨s', hput, hA'⟩ := hA.put (hc e rfl) hfits
      simp only [hput]
      exact ⟨iff_of_true trivial hfits, fun _ => hA'⟩
    · have hput : s.putDeadLetter py e = .error overflowError := by
        unfold SqliteStore.putDeadLetter
        simp only
        rw [if_neg hfits]
      simp only [hput]
      exact ⟨iff_of_false (fun heq => by cases heq) hfits, fun h => absurd h hfits⟩
  | getDeadLetter k =>
    simp only [MemoryStore.call, SqliteStore.call, Harmless]
    rw [StoreReply.deadLetter.injEq, hA.get_iff]
    exact ⟨Iff.rfl, fun _ => hA.read fun _ => rfl⟩
  | updateDeadLetterStatus k status at' =>
    obtain ⟨hfound, hA'⟩ := hA.update k status at'
    simp only [MemoryStore.call, SqliteStore.call, Harmless]
    rw [hfound]
    exact ⟨iff_of_true rfl trivial, fun _ => hA'⟩
  | listDeadLetter status =>
    simp only [MemoryStore.call, SqliteStore.call, Harmless]
    rw [StoreReply.deadLetters.injEq, hA.list_iff]
    exact ⟨Iff.rfl, fun _ => hA.read fun _ => rfl⟩

/-- **Both backends reply alike** to every call of a sequence exactly when each call meets its
condition. -/
theorem stores_agree_iff (py : Stdlib) (calls : List StoreCall)
    (hjson : ∀ e, .putDeadLetter e ∈ calls → py.loads (py.dumps e.originalTask) = e.originalTask) :
    Always (SameReply py) calls ↔ Always Harmless calls := by
  refine always_iff (A := fun _ c => RoundTrips py c)
    (I := fun h => AfterCalls py h (.after h) (.after py h)) afterCalls_nil ?_ ?_
    (always_of_forall ?_)
  · intro t c hc hA hq
    have hnext := (hA.call hc).2 hq
    unfold MemoryStore.after SqliteStore.after
    rw [List.foldl_append, List.foldl_append]
    exact hnext
  · intro t c hc hA
    exact (hA.call hc).1
  · rintro c hc e rfl
    exact hjson e hc

/-- JSON on tasks without entries. -/
def emptyTasks : Stdlib where
  dumps _ := "\x7b\x7d"
  loads _ := ∅
  now := ⟨"2026-01-01T00:00:00+00:00", by decide⟩

def letterAt (entryId : String) (enqueuedAt : DateTime) : ResilienceDeadLetter :=
  { entryId, originalTask := ∅, error := "boom", enqueuedAt }

def firstSecond : DateTime := ⟨"2026-01-01T00:00:01+00:00", by decide⟩

def nextSecond : DateTime := ⟨"2026-01-01T00:00:02+00:00", by decide⟩

/-- A letter that is put, changed and read. -/
theorem stores_agree_read :
    Always (SameReply emptyTasks)
      [.putDeadLetter (letterAt "a" firstSecond), .updateDeadLetterStatus "a" "replayed" none,
        .getDeadLetter "a"] := by
  refine (stores_agree_iff emptyTasks _ ?_).2 ?_
  · intro e he
    simp only [List.mem_cons, StoreCall.putDeadLetter.injEq, List.not_mem_nil, or_false,
      reduceCtorEq] at he
    subst he
    rfl
  · show Always Harmless ([] ++ [_] ++ [_] ++ [_])
    rw [always_snoc, always_snoc, always_snoc]
    exact ⟨⟨⟨always_nil, rfl⟩, trivial⟩, rfl⟩

/-- **A second put** of an id, at a later time, and two letters that come out of order. -/
theorem stores_differ :
    ¬ Always (SameReply emptyTasks)
        [.putDeadLetter (letterAt "a" firstSecond), .putDeadLetter (letterAt "a" nextSecond),
          .getDeadLetter "a"] ∧
      ¬ Always (SameReply emptyTasks)
        [.putDeadLetter (letterAt "a" nextSecond), .putDeadLetter (letterAt "b" firstSecond),
          .listDeadLetter none] := by
  constructor
  · intro h
    have hget := StoreReply.deadLetter.inj (h 2 (by decide))
    have htime := congrArg (Option.map (·.enqueuedAt.iso)) hget
    exact absurd (Option.some.inj htime) (by decide)
  · intro h
    have hlist := StoreReply.deadLetters.inj (h 2 (by decide))
    have hsort := orderBy_pair DeadLetterRow.enqueuedAt
      (a := SqliteStore.rowOf emptyTasks (letterAt "a" nextSecond))
      (b := SqliteStore.rowOf emptyTasks (letterAt "b" firstSecond)) (by decide)
    have hids := congrArg (List.map (·.entryId)) (hlist.trans
      (congrArg (List.map (SqliteStore.rowToDle emptyTasks)) hsort))
    exact absurd hids (by decide)

end Hermes

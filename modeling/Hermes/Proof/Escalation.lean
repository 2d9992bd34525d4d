import Hermes.Lib.History
import Hermes.Spec.HealthDeadLetters

/-!
# When dead letters escalate

No step changes the `retry_count` of an entry, so an entry that is to be retried is to be retried for
ever.

* `Counted`: a queue, with the number of failed replays of one entry.
* `object_step`, `decided_step_iff`: what a step does to an entry, and to the answer for it.
* `escalates_iff`: `on_dead_letter` escalates from the right number of failures on just when there never
  are so many.
-/

namespace Hermes

namespace DeadLetterQueue

open History

variable {τ : Type} {q : DeadLetterQueue τ} {a : ℕ}

/-- The entry that a step ends the handler of, and how. -/
def ended (q : DeadLetterQueue τ) : Step τ → Option (ℕ × HandlerEnding)
  | .handlerEnds n how _ => match q.replays[n]? with
    | some r => match r.phase with
      | .handling a _ => some (a, how)
      | _ => none
    | none => none
  | _ => none

/-- A replay of the entry fails: its handler returns `False`, or raises. -/
def FailsOn (q : DeadLetterQueue τ) (a : ℕ) (s : Step τ) : Prop :=
  q.ended s = some (a, .returned false) ∨ q.ended s = some (a, .raised)

/-- The id that a step calls `recover` with. -/
def recoveredId (q : DeadLetterQueue τ) : Step τ → Option String
  | .recover entryId _ => some entryId
  | s => match q.ended s with
    | some (b, .returned true) => q.idAt b
    | _ => none

/-- The step marks the entry: it is the first one with the id that is recovered. -/
def Marks (q : DeadLetterQueue τ) (a : ℕ) (s : Step τ) : Prop := (q.recoveredId s).bind q.get = some a

instance (s : Step τ) : Decidable (q.FailsOn a s) := inferInstanceAs (Decidable (_ ∨ _))

instance (s : Step τ) : Decidable (q.Marks a s) := inferInstanceAs (Decidable (_ = _))

/-! ## One entry, step by step -/

theorem object_recover {e : Entry τ} (he : q.objects[a]? = some e) (entryId : String) (now : τ) :
    (q.recover entryId now).2.objects[a]? =
      some (if q.get entryId = some a then { e with recoveredAt := some now } else e) := by
  unfold recover
  cases hfirst : q.get entryId with
  | none =>
    rw [if_neg nofun]
    exact he
  | some first =>
    simp only [List.getElem?_modify, he, Option.some.injEq]
    split
    · rfl
    · rfl

/-- The entries after a handler has returned `True`. -/
theorem objects_succeed (n : ℕ) (r : Replay) (b : ℕ) (now : τ) : (q.succeed n r b now).objects =
    (q.idAt b).elim q.objects fun entryId => (q.recover entryId now).2.objects := by
  have hid : DeadLetterQueue.idAt { q with moves := q.moves ++ [.handled b] } b = q.idAt b := rfl
  unfold succeed
  simp only [hid]
  cases q.idAt b with
  | none => rfl
  | some entryId =>
    have hget : DeadLetterQueue.get { q with moves := q.moves ++ [.handled b] } entryId =
        q.get entryId := rfl
    simp only [recover, hget, set, Option.elim_some]
    cases q.get entryId with
    | none => rfl
    | some first => rfl

/-- A step leaves the entry as it is, or marks it. -/
def LeavesOrMarks (q : DeadLetterQueue τ) (a : ℕ) (e : Entry τ) (s : Step τ) : Prop :=
  (¬ q.Marks a s ∧ (q.step s).objects[a]? = some e) ∨
    q.Marks a s ∧ ∃ now, (q.step s).objects[a]? = some { e with recoveredAt := some now }

section

variable {e : Entry τ} {s : Step τ} (he : q.objects[a]? = some e)
include he

/-- A step that recovers nothing. -/
theorem leavesOrMarks_same (hnone : q.recoveredId s = none) (hobjects : (q.step s).objects = q.objects) :
    q.LeavesOrMarks a e s := by
  left
  unfold Marks
  rw [hnone, hobjects]
  exact ⟨nofun, he⟩

/-- A step that recovers what has an id. -/
theorem leavesOrMarks_recover {entryId : String} (now : τ) (hid : q.recoveredId s = some entryId)
    (hobjects : (q.step s).objects[a]? = (q.recover entryId now).2.objects[a]?) :
    q.LeavesOrMarks a e s := by
  unfold LeavesOrMarks Marks
  rw [hobjects, object_recover he, hid, Option.bind_some]
  by_cases hfirst : q.get entryId = some a
  · rw [if_pos hfirst]
    exact .inr ⟨hfirst, now, rfl⟩
  · rw [if_neg hfirst]
    exact .inl ⟨hfirst, rfl⟩

end

/-- **What a step does to an entry**: it marks it, or leaves it as it is. -/
theorem object_step {e : Entry τ} (he : q.objects[a]? = some e) (s : Step τ) :
    q.LeavesOrMarks a e s := by
  cases s with
  | create entry =>
    refine .inl ⟨nofun, ?_⟩
    show (q.objects ++ [entry])[a]? = some e
    rw [List.getElem?_append_left (List.getElem?_eq_some_iff.1 he).1]
    exact he
  | append b =>
    refine leavesOrMarks_same he rfl ?_
    show (q.append b).objects = q.objects
    unfold append
    cases q.objects[b]? with
    | none => rfl
    | some _ => rfl
  | recover entryId now => exact leavesOrMarks_recover he now rfl rfl
  | replay componentId => exact leavesOrMarks_same he rfl rfl
  | handlerEnds n how now =>
    cases hn : q.replays[n]? with
    | none => exact leavesOrMarks_same he (by simp [recoveredId, ended, hn]) (by simp [step, hn])
    | some r =>
      cases hphase : r.phase with
      | handling b begun =>
        cases how with
        | raised =>
          exact leavesOrMarks_same he (by simp [recoveredId, ended, hn, hphase])
            (by simp [step, hn, hphase, set])
        | returned ok =>
          cases ok with
          | false =>
            exact leavesOrMarks_same he (by simp [recoveredId, ended, hn, hphase])
              (by simp [step, hn, hphase, proceed])
          | true =>
            have hstep : q.step (.handlerEnds n (.returned true) now) = q.succeed n r b now := by
              simp only [step, hn, hphase]
            have hid : q.recoveredId (.handlerEnds n (.returned true) now) = q.idAt b := by
              simp [recoveredId, ended, hn, hphase]
            cases hb : q.idAt b with
            | none =>
              refine leavesOrMarks_same he (hid.trans hb) ?_
              rw [hstep, objects_succeed, hb]
              rfl
            | some entryId =>
              refine leavesOrMarks_recover he now (hid.trans hb) ?_
              rw [hstep, objects_succeed, hb]
              rfl
      | recovering =>
        exact leavesOrMarks_same he (by simp [recoveredId, ended, hn, hphase])
          (by simp [step, hn, hphase])
      | _ =>
        exact leavesOrMarks_same he (by simp [recoveredId, ended, hn, hphase])
          (by simp [step, hn, hphase])
  | recoverEnds n taken =>
    refine leavesOrMarks_same he rfl ?_
    cases hn : q.replays[n]? with
    | none => simp [step, hn]
    | some r =>
      cases hphase : r.phase with
      | recovering =>
        cases taken with
        | true => simp [step, hn, hphase, proceed]
        | false => simp [step, hn, hphase, set]
      | handling b begun => simp [step, hn, hphase]
      | _ => simp [step, hn, hphase]

/-! ## Runs -/

/-- A queue, and how many replays of an entry have failed so far. -/
structure Counted (τ : Type) where
  queue : DeadLetterQueue τ
  failed : ℕ := 0

namespace Counted

/-- A step, with the failures of the entry counted. -/
def step (a : ℕ) (c : Counted τ) (s : Step τ) : Counted τ where
  queue := c.queue.step s
  failed := if c.queue.FailsOn a s then c.failed + 1 else c.failed

/-- `on_dead_letter` answers `retry` while fewer than `max_retries` replays of the entry have failed, and
`escalate` from then on. -/
def Decided (a : ℕ) (c : Counted τ) : Prop :=
  ∀ e ∈ c.queue.objects[a]?,
    e.onDeadLetter = if (c.failed : ℤ) < e.maxRetries then .retry else .escalate

/-- The step does not mark the entry, and fewer than `m` replays of it have failed after it. -/
def Spared (a : ℕ) (m : ℤ) (c : Counted τ) (s : Step τ) : Prop :=
  ¬ c.queue.Marks a s ∧ ((c.step a s).failed : ℤ) < m

instance (c : Counted τ) : Decidable (c.Decided a) := inferInstanceAs (Decidable (∀ _ ∈ _, _))

instance (m : ℤ) (c : Counted τ) (s : Step τ) : Decidable (c.Spared a m s) :=
  inferInstanceAs (Decidable (_ ∧ _))

theorem decided_iff {c : Counted τ} {e : Entry τ} (he : c.queue.objects[a]? = some e) :
    c.Decided a ↔ e.onDeadLetter = if (c.failed : ℤ) < e.maxRetries then .retry else .escalate := by
  unfold Decided
  rw [he]
  exact ⟨fun h => h e rfl, by rintro h _ ⟨⟩; exact h⟩

theorem objects_step {c : Counted τ} {e : Entry τ} {s : Step τ} (he : c.queue.objects[a]? = some e)
    (hmarks : ¬ c.queue.Marks a s) : (c.step a s).queue.objects[a]? = some e := by
  rcases object_step he s with ⟨-, hsame⟩ | ⟨hmarked, -⟩
  · exact hsame
  · exact absurd hmarked hmarks

/-- **After a step**, an entry that was to be retried is answered for as it should be, just when the
step spares it. -/
theorem decided_step_iff {c : Counted τ} {e : Entry τ} (he : c.queue.objects[a]? = some e)
    (hretry : e.onDeadLetter = .retry) (s : Step τ) :
    (c.step a s).Decided a ↔ c.Spared a e.maxRetries s := by
  by_cases hmarks : c.queue.Marks a s
  · -- an entry that is marked is to be archived
    refine iff_of_false (fun hdecided => ?_) fun hspared => hspared.1 hmarks
    rcases object_step he s with ⟨hnot, -⟩ | ⟨-, now, hmarked⟩
    · exact hnot hmarks
    · rw [decided_iff (show (c.step a s).queue.objects[a]? = _ from hmarked)] at hdecided
      have harchive : ({ e with recoveredAt := some now } : Entry τ).onDeadLetter = .archive := rfl
      rw [harchive] at hdecided
      split at hdecided
      · cases hdecided
      · cases hdecided
  · rw [decided_iff (objects_step he hmarks), hretry]
    unfold Spared
    rw [and_iff_right hmarks]
    split
    · rename_i hlt
      exact iff_of_true rfl hlt
    · rename_i hnot
      exact iff_of_false nofun hnot

end Counted

/-- An entry is retried when it is not marked, and its count is below the maximum. -/
theorem onDeadLetter_retry_iff (e : Entry τ) :
    e.onDeadLetter = .retry ↔ e.recoveredAt = none ∧ e.retryCount < e.maxRetries := by
  unfold Entry.onDeadLetter
  cases e.recoveredAt with
  | none => simp
  | some now => simp

/-- **When an entry escalates** as it should: it is not marked, its count is below the maximum, and no
step marks it or makes as many failures as the maximum. -/
theorem escalates_iff {q : DeadLetterQueue τ} {a : ℕ} {e : Entry τ} (he : q.objects[a]? = some e)
    (hmax : 1 ≤ e.maxRetries) (steps : List (Step τ)) :
    Throughout (Counted.step a) (Counted.Decided a) { queue := q } steps ↔
      (e.recoveredAt = none ∧ e.retryCount < e.maxRetries) ∧
        EachStep (Counted.step a) (Counted.Spared a e.maxRetries) { queue := q } steps := by
  have hstart : Counted.Decided a { queue := q } ↔ e.onDeadLetter = .retry := by
    have hnone : ((0 : ℕ) : ℤ) < e.maxRetries := by omega
    rw [Counted.decided_iff he, if_pos hnone]
  have hrun : e.onDeadLetter = .retry →
      (Throughout (Counted.step a) (Counted.Decided a) { queue := q } steps ↔
        EachStep (Counted.step a) (Counted.Spared a e.maxRetries) { queue := q } steps) := by
    intro hretry
    exact throughout_iff_eachStep (A := fun _ _ => True) (I := fun c => c.queue.objects[a]? = some e)
      (fun c s _ hc _ hspared => Counted.objects_step hc hspared.1)
      (fun c s _ hc _ => Counted.decided_step_iff hc hretry s) steps _
      (eachStep_of_mem (fun _ _ _ => trivial) _) he (hstart.2 hretry)
  rw [← onDeadLetter_retry_iff]
  constructor
  · intro h
    have hnow : Counted.Decided a { queue := q } := by
      cases steps with
      | nil => exact h
      | cons s steps => exact h.1
    exact ⟨hstart.1 hnow, (hrun (hstart.1 hnow)).1 h⟩
  · rintro ⟨hretry, hspared⟩
    exact (hrun hretry).2 hspared

/-- An entry that may be retried twice, in the queue. -/
def twiceRetried : DeadLetterQueue ℕ :=
  [Step.create { entryId := "e", componentId := "a1", maxRetries := 2 }, .append 0].foldl step {}

/-- Two replays that fail. -/
def failingReplays : List (Step ℕ) :=
  [.replay "a1", .handlerEnds 0 (.returned false) 5, .replay "a1", .handlerEnds 1 .raised 6]

theorem not_escalated : ¬ Throughout (Counted.step 0) (Counted.Decided 0)
    { queue := twiceRetried } failingReplays := by decide

theorem retried_once : Throughout (Counted.step 0) (Counted.Decided 0)
    { queue := twiceRetried } (failingReplays.take 3) :=
  (escalates_iff (e := { entryId := "e", componentId := "a1", maxRetries := 2 }) rfl (by decide) _).2
    (by decide)

end DeadLetterQueue

end Hermes

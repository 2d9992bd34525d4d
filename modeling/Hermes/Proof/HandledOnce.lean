import Hermes.Lib.History
import Hermes.Spec.HealthDeadLetters

/-!
# Dead letters that are handled once

A replay marks the first entry with the id of the one that was handled. So an entry that was handled
is marked unless it stands behind another, and an entry that is marked is not handled again, except
by a call that had begun before.

* `Moves`, `step_cases`: what a step comes to.
* `marked_step`, `handledOnce_step_iff`: what a step preserves.
* `handled_once_iff`: any interleaving of calls.
-/

namespace Hermes

namespace DeadLetterQueue

open History

variable {τ : Type} {q q' : DeadLetterQueue τ}

/-- The entry that a move is about. -/
def Move.entry : Move → ℕ
  | .called a => a
  | .handled a => a

/-- The property, move by move. -/
theorem handledOnce_iff :
    q.HandledOnce ↔ Always (fun h m => .handled m.entry ∉ h) q.moves := by
  constructor
  · rintro ⟨honce, hagain⟩
    rw [always_iff_split]
    intro h m u hsplit hmem
    cases m with
    | called a => exact hagain h a u hsplit hmem
    | handled a =>
      have hle := honce a
      rw [hsplit, List.count_append, List.count_cons_self] at hle
      have hpos : 0 < h.count (.handled a) := List.count_pos_iff.2 hmem
      omega
  · intro h
    refine ⟨fun a => ?_, fun before a after hsplit => always_iff_split.1 h before _ after hsplit⟩
    generalize q.moves = t at h
    induction t using List.reverseRecOn with
    | nil => exact Nat.zero_le 1
    | append_singleton t m ih =>
      obtain ⟨ht, hm⟩ := always_snoc.1 h
      rw [List.count_append]
      by_cases hma : m = .handled a
      · subst hma
        have hzero : t.count (.handled a) = 0 := List.count_eq_zero.2 hm
        rw [hzero, List.count_singleton_self]
      · have hzero : List.count (.handled a) [m] = 0 :=
          List.count_eq_zero.2 fun hmem => hma (List.mem_singleton.1 hmem).symm
        rw [hzero, Nat.add_zero]
        exact ih ht

/-- One more move. -/
theorem handledOnce_snoc (h : q.HandledOnce) {m : Move} (hm : q'.moves = q.moves ++ [m]) :
    q'.HandledOnce ↔ .handled m.entry ∉ q.moves := by
  rw [handledOnce_iff, hm, always_snoc]
  exact and_iff_right (handledOnce_iff.1 h)

/-! ## Entries -/

/-- The entry at an address is marked. -/
def Recovered (q : DeadLetterQueue τ) (a : ℕ) : Prop :=
  ∃ e, q.objects[a]? = some e ∧ e.recoveredAt.isSome

/-- Entries stay where they are, with their ids and marks; those that are appended are objects. -/
structure Grows (q q' : DeadLetterQueue τ) : Prop where
  ids : ∀ {a entryId}, q.idAt a = some entryId → q'.idAt a = some entryId
  entries : q.entries <+: q'.entries
  appended : ∀ a ∈ q'.entries, a ∈ q.entries ∨ ∃ entryId, q'.idAt a = some entryId
  marks : ∀ {a}, q.Recovered a → q'.Recovered a

theorem Grows.of_eq (hobjects : q'.objects = q.objects) (hentries : q'.entries = q.entries) :
    Grows q q' where
  ids ha := by
    unfold idAt
    rw [hobjects]
    exact ha
  entries := by rw [hentries]
  appended a ha := .inl (hentries ▸ ha)
  marks ha := by
    unfold Recovered
    rw [hobjects]
    exact ha

theorem grows_create (entry : Entry τ) : Grows q { q with objects := q.objects ++ [entry] } where
  ids {a entryId} ha := by
    obtain ⟨e, he, hid⟩ := Option.map_eq_some_iff.1 ha
    refine Option.map_eq_some_iff.2 ⟨e, ?_, hid⟩
    rw [List.getElem?_append_left (List.getElem?_eq_some_iff.1 he).1]
    exact he
  entries := List.prefix_refl _
  appended _ ha := .inl ha
  marks := by
    rintro a ⟨e, he, hmark⟩
    refine ⟨e, ?_, hmark⟩
    rw [List.getElem?_append_left (List.getElem?_eq_some_iff.1 he).1]
    exact he

theorem grows_append (a : ℕ) : Grows q (q.append a) := by
  unfold append
  cases ha : q.objects[a]? with
  | none => exact .of_eq rfl rfl
  | some e =>
    refine ⟨fun h => h, List.prefix_append _ _, fun b hb => ?_, fun h => h⟩
    refine (List.mem_append.1 hb).imp_right fun hb => ?_
    rw [List.mem_singleton.1 hb]
    exact ⟨e.entryId, by simp [idAt, ha]⟩

theorem grows_recover (entryId : String) (now : τ) : Grows q (q.recover entryId now).2 := by
  unfold recover
  cases q.get entryId with
  | none => exact .of_eq rfl rfl
  | some first =>
    refine ⟨fun {a id} ha => ?_, List.prefix_refl _, fun _ ha => .inl ha, ?_⟩
    · obtain ⟨e, he, hid⟩ := Option.map_eq_some_iff.1 ha
      simp only [idAt, List.getElem?_modify, he]
      split
      · exact congrArg some hid
      · exact congrArg some hid
    · rintro a ⟨e, he, hmark⟩
      unfold Recovered
      simp only [List.getElem?_modify, he]
      split
      · exact ⟨_, rfl, rfl⟩
      · exact ⟨e, rfl, hmark⟩

/-- What `recover` finds is marked. -/
theorem recovered_recover {entryId : String} {first : ℕ} (hfirst : q.get entryId = some first)
    (now : τ) : (q.recover entryId now).2.Recovered first := by
  have hid : q.idAt first = some entryId := by
    have h := List.find?_some hfirst
    exact of_decide_eq_true h
  obtain ⟨e, he, -⟩ := Option.map_eq_some_iff.1 hid
  unfold recover Recovered
  rw [hfirst]
  simp only [List.getElem?_modify, he, if_true]
  exact ⟨_, rfl, rfl⟩

/-! ## Invariants -/

/-- Nothing is known of the calls of a replay but what it has left. -/
structure Settled (q : DeadLetterQueue τ) (r : Replay) : Prop where
  remaining : ∀ a ∈ r.remaining, a ∈ q.entries
  phase : ∀ a begun, r.phase ≠ .handling a begun

/-- A replay goes over entries of the queue; the call that it awaits is where it says. -/
structure Placed (q : DeadLetterQueue τ) (r : Replay) : Prop where
  remaining : ∀ a ∈ r.remaining, a ∈ q.entries
  handling : ∀ a begun, r.phase = .handling a begun →
    a ∈ q.entries ∧ q.moves[begun]? = some (.called a)

/-- An entry that was handled: the first one of its id is marked. -/
structure Marked (q : DeadLetterQueue τ) : Prop where
  entries : ∀ a ∈ q.entries, ∃ entryId, q.idAt a = some entryId
  replays : ∀ r ∈ q.replays, Placed q r
  marked : ∀ a, .handled a ∈ q.moves →
    ∃ entryId first, q.idAt a = some entryId ∧ q.get entryId = some first ∧ q.Recovered first

/-- The first entry of an id stays the first. -/
theorem get_grows (hq : Marked q) (hgrows : Grows q q') {entryId : String} {first : ℕ}
    (h : q.get entryId = some first) : q'.get entryId = some first := by
  obtain ⟨later, hlater⟩ := hgrows.entries
  have hsame : q.entries.find? (fun a => q'.idAt a = some entryId) = q.get entryId := by
    unfold get
    refine List.find?_congr fun a ha => ?_
    obtain ⟨id, hid⟩ := hq.entries a ha
    rw [hid, hgrows.ids hid]
  unfold get
  rw [← hlater, List.find?_append, hsame, h]
  rfl

theorem Placed.grows {r : Replay} (h : Placed q r) (hgrows : Grows q q')
    (hmoves : q.moves <+: q'.moves) : Placed q' r where
  remaining a ha := hgrows.entries.subset (h.remaining a ha)
  handling a begun hphase := by
    obtain ⟨ha, hcall⟩ := h.handling a begun hphase
    obtain ⟨later, hlater⟩ := hmoves
    refine ⟨hgrows.entries.subset ha, ?_⟩
    rw [← hlater, List.getElem?_append_left (List.getElem?_eq_some_iff.1 hcall).1]
    exact hcall

/-- An entry that a replay comes to. -/
structure Open (q : DeadLetterQueue τ) (a : ℕ) : Prop where
  entry : a ∈ q.entries
  unmarked : ∃ e, q.objects[a]? = some e ∧ e.recoveredAt = none

/-- **An entry that a replay comes to** was handled only if it is shadowed. -/
theorem Open.handled_iff (hq : Marked q) {a : ℕ} (ha : q.Open a) :
    .handled a ∉ q.moves ↔ ¬ q.Shadowed a := by
  rw [not_iff_not]
  refine ⟨fun hhandled => ⟨hhandled, ?_⟩, And.left⟩
  intro entryId hid hfirst
  obtain ⟨entryId', first, hid', hfirst', e', he', hmark⟩ := hq.marked a hhandled
  obtain ⟨e, he, hunmarked⟩ := ha.unmarked
  have hsame : entryId = entryId' := Option.some.inj ((Option.mem_def.1 hid).symm.trans hid')
  subst hsame
  have hself : a = first := Option.some.inj (hfirst.symm.trans hfirst')
  subst hself
  rw [he] at he'
  rw [← Option.some.inj he', hunmarked] at hmark
  exact Bool.noConfusion hmark

/-! ## Steps -/

/-- What a step comes to: no move; a call, with an entry that a replay comes to; or a `True`, for an
entry whose call began there. -/
inductive Moves (q : DeadLetterQueue τ) (s : Step τ) (q' : DeadLetterQueue τ) : Prop
  | quiet (moves : q'.moves = q.moves) (clear : Unrepeated q s)
      (replays : ∀ r ∈ q'.replays, r ∈ q.replays ∨ Settled q r)
  | calls {a} (moves : q'.moves = q.moves ++ [.called a]) (reached : q.Open a)
      (clear : Unrepeated q s ↔ ¬ q.Shadowed a)
      (replays : ∀ r ∈ q'.replays, r ∈ q.replays ∨
        (∀ x ∈ r.remaining, x ∈ q.entries) ∧ r.phase = .handling a q.moves.length)
  | handles {a begun} (moves : q'.moves = q.moves ++ [.handled a]) (entry : a ∈ q.entries)
      (called : q.moves[begun]? = some (.called a))
      (clear : Unrepeated q s ↔ .handled a ∉ q.moves.drop begun)
      (marked : ∀ entryId first, q.idAt a = some entryId → q.get entryId = some first →
        q'.Recovered first)
      (replays : ∀ r ∈ q'.replays, r ∈ q.replays ∨ Settled q r)

theorem reach_spec {componentId : String} {remaining : List ℕ} {a : ℕ} {rest : List ℕ}
    (h : q.reach componentId remaining = some (a, rest)) :
    a ∈ remaining ∧ (∀ x ∈ rest, x ∈ remaining) ∧
      ∃ e, q.objects[a]? = some e ∧ e.recoveredAt = none := by
  induction remaining with
  | nil => cases h
  | cons b remaining ih =>
    unfold reach at h
    split at h
    · obtain ⟨ha, hrest, hopen⟩ := ih h
      exact ⟨List.mem_cons_of_mem _ ha, fun x hx => List.mem_cons_of_mem _ (hrest x hx), hopen⟩
    · rename_i hskips
      cases h
      refine ⟨List.mem_cons_self, fun x hx => List.mem_cons_of_mem _ hx, ?_⟩
      unfold skips at hskips
      cases he : q.objects[a]? with
      | none => simp [he] at hskips
      | some e =>
        refine ⟨e, rfl, ?_⟩
        simp only [he, Bool.or_eq_true, not_or, Option.not_isSome_iff_eq_none] at hskips
        exact hskips.2

/-- A replay goes on. -/
theorem goOn_moves {s : Step τ} {r : Replay} {replays : List Replay}
    (hr : ∀ a ∈ r.remaining, a ∈ q.entries)
    (hclear : Unrepeated q s ↔ q.Clear r.componentId r.remaining)
    (hreplays : ∀ r' ∈ replays, r' ∈ q.replays ∨ r' = (q.goOn r).1) :
    Moves q s { q with replays, moves := q.moves ++ (q.goOn r).2 } := by
  unfold Clear at hclear
  unfold goOn at hreplays ⊢
  cases hreach : q.reach r.componentId r.remaining with
  | none =>
    rw [hreach] at hclear hreplays
    refine .quiet (List.append_nil _) (hclear.2 nofun) fun r' hr' => ?_
    refine (hreplays r' hr').imp_right ?_
    rintro rfl
    exact ⟨nofun, nofun⟩
  | some next =>
    obtain ⟨a, rest⟩ := next
    rw [hreach] at hclear hreplays
    obtain ⟨ha, hrest, hopen⟩ := reach_spec hreach
    refine .calls rfl ⟨hr a ha, hopen⟩ (hclear.trans ?_) fun r' hr' => ?_
    · exact ⟨fun h => h _ rfl, by rintro h _ ⟨⟩; exact h⟩
    · refine (hreplays r' hr').imp_right ?_
      rintro rfl
      exact ⟨fun x hx => hr x (hrest x hx), rfl⟩

/-- The replays when one of them has changed. -/
theorem mem_set {n : ℕ} {r r' : Replay} (h : r' ∈ q.replays.set n r) : r' ∈ q.replays ∨ r' = r :=
  List.mem_or_eq_of_mem_set h

theorem proceed_moves {s : Step τ} {r : Replay} (n : ℕ) (hr : ∀ a ∈ r.remaining, a ∈ q.entries)
    (hclear : Unrepeated q s ↔ q.Clear r.componentId r.remaining) : Moves q s (q.proceed n r) :=
  goOn_moves hr hclear fun _ hr' => mem_set hr'

theorem replay_moves (componentId : String) : Moves q (.replay componentId) (q.replay componentId) :=
  goOn_moves (r := { componentId, remaining := q.entries }) (fun _ ha => ha) Iff.rfl fun _ hr' =>
    (List.mem_append.1 hr').imp_right List.mem_singleton.1

/-- A replay ends, or goes to another await, without a move. -/
theorem set_moves {s : Step τ} {n : ℕ} {r : Replay} (hr : Settled q r) (hclear : Unrepeated q s) :
    Moves q s (q.set n r) :=
  .quiet rfl hclear fun r' hr' => (mem_set hr').imp_right fun heq : r' = r => heq ▸ hr

/-- A step that finds nothing to do. -/
theorem moves_self {s : Step τ} (hclear : Unrepeated q s) : Grows q q ∧ Moves q s q :=
  ⟨.of_eq rfl rfl, .quiet rfl hclear fun _ hr => .inl hr⟩

/-- `recover` makes no move. -/
theorem moves_recover (entryId : String) (now : τ) :
    (q.recover entryId now).2.moves = q.moves ∧ (q.recover entryId now).2.replays = q.replays := by
  unfold recover
  cases q.get entryId with
  | none => exact ⟨rfl, rfl⟩
  | some first => exact ⟨rfl, rfl⟩

/-- A handler returns `True`. -/
theorem succeed_moves (hq : Marked q) {n : ℕ} {r : Replay} (hn : q.replays[n]? = some r) {a begun : ℕ}
    (hphase : r.phase = .handling a begun) (now : τ) :
    Grows q (q.succeed n r a now) ∧
      Moves q (.handlerEnds n (.returned true) now) (q.succeed n r a now) := by
  obtain ⟨hremaining, hhandling⟩ := hq.replays r (List.mem_of_getElem? hn)
  obtain ⟨hentry, hcalled⟩ := hhandling a begun hphase
  obtain ⟨entryId, hid⟩ := hq.entries a hentry
  set handled : DeadLetterQueue τ := { q with moves := q.moves ++ [.handled a] } with hhandled
  have hsucceed : q.succeed n r a now =
      (handled.recover entryId now).2.set n { r with phase := .recovering } := by
    have hid' : handled.idAt a = some entryId := hid
    unfold succeed
    simp only [← hhandled, hid']
  obtain ⟨hmoves, hreplays⟩ := moves_recover (q := handled) entryId now
  have hgrows := grows_recover (q := handled) entryId now
  rw [hsucceed]
  refine ⟨⟨hgrows.ids, hgrows.entries, hgrows.appended, hgrows.marks⟩,
    .handles hmoves hentry hcalled ?_ ?_ ?_⟩
  · show (∀ r ∈ q.replays[n]?, _) ↔ _
    rw [hn]
    refine ⟨fun h => ?_, ?_⟩
    · have hr := h r rfl
      rwa [hphase] at hr
    · rintro h r' ⟨⟩
      rw [hphase]
      exact h
  · intro entryId' first hid' hfirst
    rw [hid] at hid'
    obtain rfl : entryId = entryId' := Option.some.inj hid'
    exact recovered_recover (q := handled) hfirst now
  · intro r' hr'
    rcases mem_set hr' with hr' | rfl
    · rw [hreplays] at hr'
      exact .inl hr'
    · exact .inr ⟨hremaining, nofun⟩

/-- **What a step does.** -/
theorem step_cases (hq : Marked q) (s : Step τ) : Grows q (q.step s) ∧ Moves q s (q.step s) := by
  cases s with
  | create entry => exact ⟨grows_create entry, .quiet rfl trivial fun _ hr => .inl hr⟩
  | append a =>
    refine ⟨grows_append a, ?_⟩
    show Moves q _ (q.append a)
    unfold append
    cases q.objects[a]? with
    | none => exact .quiet rfl trivial fun _ hr => .inl hr
    | some e => exact .quiet rfl trivial fun _ hr => .inl hr
  | recover entryId now =>
    obtain ⟨hmoves, hreplays⟩ := moves_recover (q := q) entryId now
    exact ⟨grows_recover entryId now, .quiet hmoves trivial fun r hr => .inl (hreplays ▸ hr)⟩
  | replay componentId => exact ⟨.of_eq rfl rfl, replay_moves componentId⟩
  | handlerEnds n how now =>
    cases hn : q.replays[n]? with
    | none =>
      simp only [step, hn]
      exact moves_self (by simp [Unrepeated, hn])
    | some r =>
      obtain ⟨hremaining, -⟩ := hq.replays r (List.mem_of_getElem? hn)
      cases hphase : r.phase with
      | handling a begun =>
        cases how with
        | returned ok =>
          cases ok with
          | true =>
            simp only [step, hn, hphase]
            exact succeed_moves hq hn hphase now
          | false =>
            simp only [step, hn, hphase]
            refine ⟨.of_eq rfl rfl, proceed_moves n hremaining ?_⟩
            simp [Unrepeated, hn, hphase]
        | raised =>
          simp only [step, hn, hphase]
          refine ⟨.of_eq rfl rfl, set_moves ⟨hremaining, nofun⟩ ?_⟩
          simp [Unrepeated, hn]
      | recovering =>
        simp only [step, hn, hphase]
        exact moves_self (by simp [Unrepeated, hn, hphase])
      | _ =>
        simp only [step, hn, hphase]
        exact moves_self (by simp [Unrepeated, hn, hphase])
  | recoverEnds n taken =>
    cases hn : q.replays[n]? with
    | none =>
      simp only [step, hn]
      exact moves_self (by simp [Unrepeated, hn])
    | some r =>
      obtain ⟨hremaining, -⟩ := hq.replays r (List.mem_of_getElem? hn)
      cases hphase : r.phase with
      | recovering =>
        cases taken with
        | true =>
          simp only [step, hn, hphase]
          refine ⟨.of_eq rfl rfl, proceed_moves n hremaining ?_⟩
          simp [Unrepeated, hn, hphase]
        | false =>
          simp only [step, hn, hphase]
          refine ⟨.of_eq rfl rfl, set_moves ⟨hremaining, nofun⟩ ?_⟩
          simp [Unrepeated, hn]
      | handling a begun =>
        simp only [step, hn, hphase]
        exact moves_self (by simp [Unrepeated, hn, hphase])
      | _ =>
        simp only [step, hn, hphase]
        exact moves_self (by simp [Unrepeated, hn, hphase])

/-- **A step keeps each entry handled once** exactly when it does not repeat one. -/
theorem handledOnce_step_iff (hq : Marked q) (h : q.HandledOnce) (s : Step τ) :
    (q.step s).HandledOnce ↔ Unrepeated q s := by
  obtain ⟨-, hmoves⟩ := step_cases hq s
  cases hmoves with
  | quiet hmoves hclear _ =>
    rw [handledOnce_iff, hmoves, ← handledOnce_iff]
    exact iff_of_true h hclear
  | calls hmoves hopen hclear _ =>
    rw [handledOnce_snoc h hmoves, hclear]
    exact hopen.handled_iff hq
  | @handles a begun hmoves _ hcalled hclear _ _ =>
    rw [handledOnce_snoc h hmoves, hclear]
    -- no handler had returned `True` for the entry when this call began
    obtain ⟨hlt, hat⟩ := List.getElem?_eq_some_iff.1 hcalled
    have hbefore : .handled a ∉ q.moves.take begun := by
      refine h.notAgain _ a (q.moves.drop (begun + 1)) ?_
      rw [← hat, ← List.drop_eq_getElem_cons hlt, List.take_append_drop]
    show .handled a ∉ q.moves ↔ _
    rw [← List.take_append_drop begun q.moves, List.mem_append, not_or, List.take_append_drop]
    exact and_iff_right hbefore

/-- What is known of entries that were handled before the step. -/
theorem Marked.grown (hq : Marked q) (hgrows : Grows q q') {a : ℕ} (ha : .handled a ∈ q.moves) :
    ∃ entryId first, q'.idAt a = some entryId ∧ q'.get entryId = some first ∧
      q'.Recovered first := by
  obtain ⟨entryId, first, hid, hfirst, hmark⟩ := hq.marked a ha
  exact ⟨entryId, first, hgrows.ids hid, get_grows hq hgrows hfirst, hgrows.marks hmark⟩

/-- A settled replay is in its place. -/
theorem Settled.placed {r : Replay} (h : Settled q r) : Placed q r where
  remaining := h.remaining
  handling a begun hphase := absurd hphase (h.phase a begun)

/-- The replays stay in their places. -/
theorem placed_step (hq : Marked q) (hgrows : Grows q q') (hmoves : q.moves <+: q'.moves)
    (hreplays : ∀ r ∈ q'.replays, r ∈ q.replays ∨ Settled q r) : ∀ r ∈ q'.replays, Placed q' r := by
  intro r hr
  rcases hreplays r hr with hr | hr
  · exact (hq.replays r hr).grows hgrows hmoves
  · exact hr.placed.grows hgrows hmoves

theorem entries_step (hq : Marked q) (hgrows : Grows q q') :
    ∀ a ∈ q'.entries, ∃ entryId, q'.idAt a = some entryId := by
  intro a ha
  rcases hgrows.appended a ha with hold | hnew
  · obtain ⟨entryId, hid⟩ := hq.entries a hold
    exact ⟨entryId, hgrows.ids hid⟩
  · exact hnew

/-- **A step keeps** what is marked. -/
theorem marked_step (hq : Marked q) (s : Step τ) : Marked (q.step s) := by
  obtain ⟨hgrows, hmoves⟩ := step_cases hq s
  cases hmoves with
  | quiet hmoves _ hreplays =>
    have hprefix : q.moves <+: (q.step s).moves := by rw [hmoves]
    refine ⟨entries_step hq hgrows, placed_step hq hgrows hprefix hreplays, ?_⟩
    intro a ha
    rw [hmoves] at ha
    exact hq.grown hgrows ha
  | @calls a hmoves hopen _ hreplays =>
    refine ⟨entries_step hq hgrows, fun r hr => ?_, fun b hb => ?_⟩
    · have hprefix : q.moves <+: (q.step s).moves := ⟨_, hmoves.symm⟩
      rcases hreplays r hr with hr | ⟨hremaining, hphase⟩
      · exact (hq.replays r hr).grows hgrows hprefix
      · refine ⟨fun x hx => hgrows.entries.subset (hremaining x hx), fun b begun hbegun => ?_⟩
        rw [hphase] at hbegun
        cases hbegun
        refine ⟨hgrows.entries.subset hopen.entry, ?_⟩
        rw [hmoves, List.getElem?_append_right le_rfl, Nat.sub_self]
        rfl
    · rw [hmoves] at hb
      rcases List.mem_append.1 hb with hb | hb
      · exact hq.grown hgrows hb
      · cases List.mem_singleton.1 hb
  | @handles a begun hmoves hentry _ _ hmarked hreplays =>
    refine ⟨entries_step hq hgrows, placed_step hq hgrows ⟨_, hmoves.symm⟩ hreplays, fun b hb => ?_⟩
    rw [hmoves] at hb
    rcases List.mem_append.1 hb with hb | hb
    · exact hq.grown hgrows hb
    · have hab : b = a := Move.handled.inj (List.mem_singleton.1 hb)
      subst hab
      obtain ⟨entryId, hid⟩ := hq.entries b hentry
      have hfound : (q.get entryId).isSome := by
        unfold get
        rw [List.find?_isSome]
        exact ⟨b, hentry, decide_eq_true hid⟩
      obtain ⟨first, hfirst⟩ := Option.isSome_iff_exists.1 hfound
      exact ⟨entryId, first, hgrows.ids hid, get_grows hq hgrows hfirst,
        hmarked entryId first hid hfirst⟩

/-! ## Runs -/

theorem marked_new : Marked ({} : DeadLetterQueue τ) where
  entries := nofun
  replays := nofun
  marked := nofun

theorem handledOnce_new : ({} : DeadLetterQueue τ).HandledOnce where
  returnsOnce _ := Nat.zero_le 1
  notAgain before a after h := by simp at h

/-- **Each dead letter is handled once**, over every interleaving of calls, exactly when no step
repeats one. -/
theorem handled_once_iff (steps : List (Step τ)) :
    Throughout step HandledOnce {} steps ↔ EachStep step Unrepeated {} steps :=
  throughout_iff (A := fun _ => True) (I := Marked) (fun _ s _ hq => marked_step hq s)
    (fun _ s _ hq h => handledOnce_step_iff hq h s) steps {} (fun _ _ => trivial) marked_new
    handledOnce_new

/-- Two entries of one id: the second is handled by each replay. -/
def sameIds : List (Step ℕ) :=
  [.create { entryId := "e", componentId := "a1" }, .create { entryId := "e", componentId := "a1" },
    .append 0, .append 1, .replay "a1", .handlerEnds 0 (.returned true) 5, .recoverEnds 0 true,
    .handlerEnds 0 (.returned true) 6, .recoverEnds 0 true, .replay "a1"]

/-- One entry and two replays that overlap. -/
def overlappingReplays : List (Step ℕ) :=
  [.create { entryId := "e", componentId := "a1" }, .append 0, .replay "a1", .replay "a1",
    .handlerEnds 0 (.returned true) 5, .handlerEnds 1 (.returned true) 6]

theorem handled_again : ¬ (sameIds.foldl step {}).HandledOnce ∧
    ¬ (overlappingReplays.foldl step {}).HandledOnce := by
  constructor
  · intro h
    exact h.notAgain [.called 0, .handled 0, .called 1, .handled 1] 1 [] (by decide) (by decide)
  · intro h
    have hle := h.returnsOnce 0
    revert hle
    decide

end DeadLetterQueue

end Hermes

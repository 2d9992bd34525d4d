import Hermes.Lib.History

/-!
# Loops in the background

A component has a flag and a loop in a task of its own. `start` raises the flag and makes the task. `stop`
lowers the flag, cancels the task and waits until it has ended. The loop looks at the flag, sleeps and works;
it takes its turns when it likes, and a cancellation reaches it at one of them. Calls of `start` and `stop`
come at any time, also while another `stop` is waiting.

* `Poller`, `State`, `step`: a component with its loops, and what may happen.
* `Moved`, `turn_moves`, `cancelled_moves`: what a turn of a loop can do.
* `Sound`, `sound_run`: of the loops that no waiting `stop` has seen begin at most one is alive.
* `live_le`: how many loops are alive together.
* `inner_run`: invariants of the component.
* `Settled`, `run_settled`: a component without a loop does only what it is told to.
* `awake_run`, `alive_run`, `run_stuck`: a flag that is up has a loop, and one that has raised.
* `orphaned`: what a `start` during a `stop` leads to.
-/

namespace Polling

/-- A component: what a round of its loop does with an input `ι`, and what else is done to it. -/
structure Poller (σ ι ε : Type*) where
  /-- A round works before it sleeps, and `start` works once itself. -/
  eager : Bool
  /-- What a round of the loop raises is caught there. -/
  contains : Bool
  /-- A round of work: whether it raises, and the component then. -/
  work : ι → σ → Bool × σ
  perform : ε → σ → σ

inductive Phase where
  | created
  | asleep
  | ended (raised : Bool)
  deriving DecidableEq

structure Loop where
  phase : Phase := .created
  /-- A cancellation is on its way. -/
  cancelling : Bool := false
  /-- It was made while a `stop` was waiting. -/
  overlapping : Bool
  deriving DecidableEq

namespace Loop

def live (l : Loop) : Bool := match l.phase with
  | .ended _ => false
  | _ => true

end Loop

/-- A component with the loops that were made. -/
structure State (σ : Type*) where
  inner : σ
  running : Bool := false
  /-- The loop that `stop` will cancel. -/
  handle : Option ℕ := none
  loops : List Loop := []
  /-- For each call of `stop`, the loop that it waits for. -/
  stops : List (Option ℕ) := []
  /-- The last `start` has raised. -/
  failed : Bool := false

/-- What may happen. -/
inductive Step (ι ε : Type*) where
  | start (input : ι)
  | stop
  /-- A loop takes its turn. -/
  | turn (n : ℕ) (input : ι)
  /-- A cancellation reaches a loop. -/
  | cancelled (n : ℕ)
  /-- A `stop` that waits goes on. -/
  | stopped (j : ℕ)
  | other (e : ε)

variable {σ ι ε : Type*} (P : Poller σ ι ε)

namespace State

def setLoop (s : State σ) (n : ℕ) (l : Loop) : State σ := { s with loops := s.loops.set n l }

/-- A `stop` is waiting. -/
def waiting (s : State σ) : Bool := s.stops.any (·.isSome)

def start (s : State σ) (input : ι) : State σ :=
  if s.running then s
  else
    let r := if P.eager then P.work input s.inner else (false, s.inner)
    let s := { s with inner := r.2, running := true, failed := r.1 }
    if r.1 then s
    else
      { s with
        handle := some s.loops.length
        loops := s.loops ++ [{ overlapping := s.waiting }] }

def stop (s : State σ) : State σ :=
  match s.handle with
  | none => { s with running := false }
  | some n =>
    { s with
      running := false
      loops := s.loops.modify n fun l => { l with cancelling := true }
      stops := s.stops ++ [some n] }

/-- A round of work. -/
def round (s : State σ) (n : ℕ) (l : Loop) (input : ι) : State σ :=
  let r := P.work input s.inner
  let s := { s with inner := r.2 }
  if r.1 && !P.contains then s.setLoop n { l with phase := .ended true }
  else if P.eager || s.running then s.setLoop n { l with phase := .asleep }
  else s.setLoop n { l with phase := .ended false }

/-- The loop looks at the flag. -/
def goOn (s : State σ) (n : ℕ) (l : Loop) (input : ι) : State σ :=
  if s.running then
    if P.eager then s.round P n l input else s.setLoop n { l with phase := .asleep }
  else s.setLoop n { l with phase := .ended false }

def turn (s : State σ) (n : ℕ) (input : ι) : State σ :=
  match s.loops[n]? with
  | none => s
  | some l =>
    if l.cancelling then s
    else match l.phase with
      | .created => s.goOn P n l input
      | .asleep => if P.eager then s.goOn P n l input else s.round P n l input
      | .ended _ => s

def cancelled (s : State σ) (n : ℕ) : State σ :=
  match s.loops[n]? with
  | none => s
  | some l => if l.cancelling && l.live then s.setLoop n { l with phase := .ended false } else s

/-- What a loop has raised is raised by the `stop`, which then keeps the loop. -/
def stopped (s : State σ) (j : ℕ) : State σ :=
  match s.stops[j]? with
  | some (some n) => match (s.loops[n]?).map Loop.phase with
    | some (.ended raised) =>
      { s with stops := s.stops.set j none, handle := if raised then s.handle else none }
    | _ => s
  | _ => s

def step (s : State σ) : Step ι ε → State σ
  | .start input => s.start P input
  | .stop => s.stop
  | .turn n input => s.turn P n input
  | .cancelled n => s.cancelled n
  | .stopped j => s.stopped j
  | .other e => { s with inner := P.perform e s.inner }

/-- The loop is alive. -/
def Live (s : State σ) (n : ℕ) : Prop := ∃ l, s.loops[n]? = some l ∧ l.live = true

/-- The loop is alive, and no `stop` was waiting when it was made. -/
def Prime (s : State σ) (n : ℕ) : Prop :=
  ∃ l, s.loops[n]? = some l ∧ l.live = true ∧ l.overlapping = false

/-- No loop was made while a `stop` was waiting. -/
def Apart (s : State σ) : Prop := ∀ l ∈ s.loops, l.overlapping = false

end State

/-- A run from a new component. -/
def run (inner : σ) (steps : List (Step ι ε)) : State σ := steps.foldl (State.step P) { inner }

open State

variable {P} {s s' : State σ}

/-! ## Turns -/

/-- **What a turn can do**: one loop that was alive gets another phase. One that is not cancelled sleeps,
unless it has raised or the flag is down. -/
structure Moved (P : Poller σ ι ε) (s s' : State σ) : Prop where
  running : s'.running = s.running
  handle : s'.handle = s.handle
  stops : s'.stops = s.stops
  failed : s'.failed = s.failed
  loops : ∃ n l p, s.loops[n]? = some l ∧ l.live = true ∧ s'.loops = s.loops.set n { l with phase := p } ∧
    (p = .ended true → P.contains = false) ∧
    (l.cancelling = false → p = .asleep ∨ p = .ended true ∨ p = .ended false ∧ s.running = false)

theorem round_moves {n : ℕ} {l : Loop} (hl : s.loops[n]? = some l) (hlive : l.live = true) (input : ι) :
    Moved P s (s.round P n l input) := by
  unfold State.round
  simp only
  split
  · rename_i hraised
    have hcaught : P.contains = false := by simpa using (Bool.and_eq_true_iff.1 hraised).2
    exact ⟨rfl, rfl, rfl, rfl, n, l, _, hl, hlive, rfl, fun _ => hcaught, fun _ => .inr (.inl rfl)⟩
  · split
    · exact ⟨rfl, rfl, rfl, rfl, n, l, _, hl, hlive, rfl, by simp, fun _ => .inl rfl⟩
    · rename_i hrunning
      have hdown : s.running = false := by simpa using (by simpa using hrunning : _ ∧ _).2
      exact ⟨rfl, rfl, rfl, rfl, n, l, _, hl, hlive, rfl, by simp,
        fun _ => .inr (.inr ⟨rfl, hdown⟩)⟩

theorem goOn_moves {n : ℕ} {l : Loop} (hl : s.loops[n]? = some l) (hlive : l.live = true) (input : ι) :
    Moved P s (s.goOn P n l input) := by
  unfold State.goOn
  split
  · split
    · exact round_moves hl hlive input
    · exact ⟨rfl, rfl, rfl, rfl, n, l, _, hl, hlive, rfl, by simp, fun _ => .inl rfl⟩
  · rename_i hrunning
    have hdown : s.running = false := by simpa using hrunning
    exact ⟨rfl, rfl, rfl, rfl, n, l, _, hl, hlive, rfl, by simp,
        fun _ => .inr (.inr ⟨rfl, hdown⟩)⟩

variable (P) in
theorem turn_moves (s : State σ) (n : ℕ) (input : ι) : s.turn P n input = s ∨ Moved P s (s.turn P n input) := by
  unfold State.turn
  cases hl : s.loops[n]? with
  | none => exact .inl rfl
  | some l =>
    simp only
    split
    · exact .inl rfl
    · split
      · rename_i hphase
        exact .inr (goOn_moves hl (by simp [Loop.live, hphase]) input)
      · rename_i hphase
        have hlive : l.live = true := by simp [Loop.live, hphase]
        split
        · exact .inr (goOn_moves hl hlive input)
        · exact .inr (round_moves hl hlive input)
      · exact .inl rfl

variable (P) in
theorem cancelled_moves (s : State σ) (n : ℕ) : s.cancelled n = s ∨ Moved P s (s.cancelled n) := by
  unfold State.cancelled
  cases hl : s.loops[n]? with
  | none => exact .inl rfl
  | some l =>
    simp only
    split
    · rename_i hcancel
      obtain ⟨hcancel, hlive⟩ := Bool.and_eq_true_iff.1 hcancel
      refine .inr ⟨rfl, rfl, rfl, rfl, n, l, _, hl, hlive, rfl, by simp, fun hno => ?_⟩
      rw [hcancel] at hno
      cases hno
    · exact .inl rfl

/-- The loops after a turn: all others are as before. -/
theorem Moved.getElem? (h : Moved P s s') {m : ℕ} {l' : Loop} (hl' : s'.loops[m]? = some l') :
    ∃ l, s.loops[m]? = some l ∧ (l'.live = true → l.live = true) ∧ l'.overlapping = l.overlapping ∧
      l'.cancelling = l.cancelling := by
  obtain ⟨n, l, p, hl, hlive, hloops, -, -⟩ := h.loops
  rw [hloops, List.getElem?_set] at hl'
  split at hl'
  · rename_i hm
    subst hm
    split at hl'
    · cases hl'
      exact ⟨l, hl, fun _ => hlive, rfl, rfl⟩
    · cases hl'
  · exact ⟨l', hl', id, rfl, rfl⟩

/-! ## The loops that are alive -/

/-- What is true of the loops at any time. -/
structure Sound (s : State σ) : Prop where
  handle : ∀ n, s.handle = some n → n < s.loops.length
  stops : ∀ n, some n ∈ s.stops → n < s.loops.length
  /-- When the flag is down, somebody waits for the end of the loop that is kept. -/
  stopping : s.running = false → ∀ n, s.handle = some n → s.Live n → some n ∈ s.stops
  /-- A loop is kept until it has ended. -/
  held : ∀ n, s.Prime n → s.handle = some n ∨ some n ∈ s.stops
  /-- Those who wait while it is kept wait for it. -/
  waited : ∀ n, s.Prime n → s.handle = some n → ∀ k, some k ∈ s.stops → k = n
  /-- A loop that is waited for was cancelled. -/
  cancelled : ∀ n l, some n ∈ s.stops → s.loops[n]? = some l → l.cancelling = true
  single : ∀ m n, s.Prime m → s.Prime n → m = n

theorem Moved.live (h : Moved P s s') {n : ℕ} (hn : s'.Live n) : s.Live n := by
  obtain ⟨l', hl', hlive⟩ := hn
  obtain ⟨l, hl, hback, -, -⟩ := h.getElem? hl'
  exact ⟨l, hl, hback hlive⟩

theorem Moved.prime (h : Moved P s s') {n : ℕ} (hn : s'.Prime n) : s.Prime n := by
  obtain ⟨l', hl', hlive, hover⟩ := hn
  obtain ⟨l, hl, hback, heq, -⟩ := h.getElem? hl'
  exact ⟨l, hl, hback hlive, heq ▸ hover⟩

theorem Moved.length (h : Moved P s s') : s'.loops.length = s.loops.length := by
  obtain ⟨n, l, p, -, -, hloops, -, -⟩ := h.loops
  rw [hloops, List.length_set]

/-- A turn keeps it. -/
theorem Sound.moved (h : Sound s) (hm : Moved P s s') : Sound s' where
  handle n hn := by
    rw [hm.length]
    exact h.handle n (hm.handle ▸ hn)
  stops n hn := by
    rw [hm.length]
    exact h.stops n (hm.stops ▸ hn)
  stopping hdown n hn hlive := by
    rw [hm.stops]
    exact h.stopping (hm.running ▸ hdown) n (hm.handle ▸ hn) (hm.live hlive)
  held n hn := by
    rw [hm.handle, hm.stops]
    exact h.held n (hm.prime hn)
  waited n hn hkept k hk := h.waited n (hm.prime hn) (hm.handle ▸ hkept) k (hm.stops ▸ hk)
  cancelled n l' hn hl' := by
    obtain ⟨l, hl, -, -, heq⟩ := hm.getElem? hl'
    rw [heq]
    exact h.cancelled n l (hm.stops ▸ hn) hl
  single m n hm' hn := h.single m n (hm.prime hm') (hm.prime hn)

/-- The loop that is made comes last. -/
theorem getElem?_made {loops : List Loop} {made l : Loop} {n : ℕ} :
    (loops ++ [made])[n]? = some l ↔ loops[n]? = some l ∨ n = loops.length ∧ l = made := by
  rcases lt_trichotomy n loops.length with hn | rfl | hn
  · rw [List.getElem?_append_left hn]
    simp [hn.ne]
  · rw [List.getElem?_concat_length]
    simp [eq_comm]
  · rw [List.getElem?_eq_none (by simp; omega), List.getElem?_eq_none (by omega)]
    simp [hn.ne']

variable (P) in
/-- **What `start` can do**: nothing, as the flag is up; or it raises; or it makes a loop. -/
theorem start_cases (s : State σ) (input : ι) :
    s.running = true ∧ s.start P input = s ∨
      s.running = false ∧ ∃ inner,
        (P.eager = true ∧ s.start P input = { s with inner, running := true, failed := true }) ∨
        s.start P input =
          { s with
            inner
            running := true
            failed := false
            handle := some s.loops.length
            loops := s.loops ++ [{ overlapping := s.waiting }] } := by
  unfold State.start
  split
  · rename_i hup
    exact .inl ⟨hup, rfl⟩
  · rename_i hup
    refine .inr ⟨by simpa using hup, ?_⟩
    by_cases heager : P.eager = true
    · simp only [heager, if_true]
      refine ⟨(P.work input s.inner).2, ?_⟩
      cases hraised : (P.work input s.inner).1 with
      | true => exact .inl (by simp)
      | false => exact .inr (by simp [State.waiting])
    · simp only [heager]
      exact ⟨s.inner, .inr rfl⟩

/-- Nobody waits. -/
theorem waiting_eq_false : s.waiting = false ↔ ∀ n, some n ∉ s.stops := by
  unfold State.waiting
  rw [List.any_eq_false]
  constructor
  · intro h n hn
    exact h _ hn rfl
  · intro h w hw
    cases w with
    | none => simp
    | some n => exact absurd hw (h n)

/-- **`start` keeps it.** -/
theorem Sound.start (h : Sound s) (input : ι) : Sound (s.start P input) := by
  rcases start_cases P s input with ⟨-, heq⟩ | ⟨hdown, inner, ⟨-, heq⟩ | heq⟩
  · rw [heq]
    exact h
  · rw [heq]
    refine ⟨h.handle, h.stops, fun hup => ?_, h.held, h.waited, h.cancelled, h.single⟩
    cases hup
  · rw [heq]
    -- a loop that is alive, and made while nobody waited, is the new one if nobody waits now
    have hold : ∀ n, s.Prime n → some n ∈ s.stops := by
      intro n hn
      rcases h.held n hn with hhandle | hwaits
      · obtain ⟨l, hl, hlive, -⟩ := hn
        exact h.stopping hdown n hhandle ⟨l, hl, hlive⟩
      · exact hwaits
    have hprime : ∀ n, State.Prime
        { s with
          inner
          running := true
          failed := false
          handle := some s.loops.length
          loops := s.loops ++ [{ overlapping := s.waiting }] } n →
        s.Prime n ∨ n = s.loops.length ∧ s.waiting = false := by
      rintro n ⟨l, hl, hlive, hover⟩
      rcases getElem?_made.1 hl with hl | ⟨hn, rfl⟩
      · exact .inl ⟨l, hl, hlive, hover⟩
      · exact .inr ⟨hn, hover⟩
    refine ⟨fun n hn => ?_, fun n hn => ?_, fun hup => ?_, fun n hn => ?_, fun n hn hkept k hk => ?_,
      fun n l hn hl => ?_, fun m n hm hn => ?_⟩
    · cases hn
      simp
    · have hlt := h.stops n hn
      simp only [List.length_append, List.length_singleton]
      omega
    · cases hup
    · rcases hprime n hn with hn | ⟨rfl, -⟩
      · exact .inr (hold n hn)
      · exact .inl rfl
    · cases hkept
      rcases hprime _ hn with hn | ⟨-, hn⟩
      · obtain ⟨l, hl, -⟩ := hn
        have hlt := (List.getElem?_eq_some_iff.1 hl).1
        omega
      · exact absurd hk (waiting_eq_false.1 hn k)
    · rcases getElem?_made.1 hl with hl | ⟨rfl, -⟩
      · exact h.cancelled n l hn hl
      · exact absurd (h.stops _ hn) (lt_irrefl _)
    · rcases hprime m hm with hm | ⟨hm, hnone⟩
      · rcases hprime n hn with hn | ⟨-, hnone⟩
        · exact h.single m n hm hn
        · exact absurd (hold m hm) (waiting_eq_false.1 hnone m)
      · rcases hprime n hn with hn | ⟨hn, -⟩
        · exact absurd (hold n hn) (waiting_eq_false.1 hnone n)
        · exact hm.trans hn.symm

/-- The loops when one is cancelled. -/
theorem getElem?_modify_cancelling {loops : List Loop} {k n : ℕ} {l' : Loop}
    (hl' : (loops.modify k fun l => { l with cancelling := true })[n]? = some l') :
    ∃ l, loops[n]? = some l ∧ l'.phase = l.phase ∧ l'.overlapping = l.overlapping := by
  rw [List.getElem?_modify] at hl'
  cases hl : loops[n]? with
  | none =>
    rw [hl] at hl'
    cases hl'
  | some l =>
    rw [hl] at hl'
    cases hl'
    refine ⟨l, rfl, ?_⟩
    split
    · exact ⟨rfl, rfl⟩
    · exact ⟨rfl, rfl⟩

theorem cancelling_of_modify {loops : List Loop} {k n : ℕ} {l' : Loop}
    (h : ∀ l, loops[n]? = some l → l.cancelling = true)
    (hl' : (loops.modify k fun l => { l with cancelling := true })[n]? = some l') : l'.cancelling = true := by
  rw [List.getElem?_modify] at hl'
  obtain ⟨l, hl, rfl⟩ := Option.map_eq_some_iff.1 hl'
  split
  · rfl
  · exact h l hl

theorem cancelling_modified {loops : List Loop} {n : ℕ} {l' : Loop}
    (hl' : (loops.modify n fun l => { l with cancelling := true })[n]? = some l') : l'.cancelling = true := by
  rw [List.getElem?_modify] at hl'
  obtain ⟨l, hl, rfl⟩ := Option.map_eq_some_iff.1 hl'
  rw [if_pos rfl]

theorem live_congr {l l' : Loop} (h : l'.phase = l.phase) : l'.live = l.live := by
  unfold Loop.live
  rw [h]

/-- **`stop` keeps it**: the loop that is kept is waited for. -/
theorem Sound.stop (h : Sound s) : Sound s.stop := by
  unfold State.stop
  split
  · rename_i hhandle
    refine ⟨h.handle, h.stops, fun _ n hn => ?_, h.held, h.waited, h.cancelled, h.single⟩
    cases hhandle.symm.trans hn
  · rename_i k hhandle
    have hprime : ∀ n, State.Prime { s with
          running := false
          loops := s.loops.modify k fun l => { l with cancelling := true }
          stops := s.stops ++ [some k] } n → s.Prime n := by
      rintro n ⟨l', hl', hlive, hover⟩
      obtain ⟨l, hl, hphase, heq⟩ := getElem?_modify_cancelling hl'
      exact ⟨l, hl, live_congr hphase ▸ hlive, heq ▸ hover⟩
    refine ⟨fun n hn => ?_, fun n hn => ?_, fun _ n hn _ => ?_, fun n hn => ?_, fun n hn hkept m hm => ?_,
      fun n l hn hl => ?_, fun m n hm hn => h.single m n (hprime m hm) (hprime n hn)⟩
    · rw [List.length_modify]
      exact h.handle n hn
    · rw [List.length_modify]
      rcases List.mem_append.1 hn with hn | hn
      · exact h.stops n hn
      · cases List.mem_singleton.1 hn
        exact h.handle k hhandle
    · cases hhandle.symm.trans hn
      simp
    · rcases h.held n (hprime n hn) with hkept | hwaits
      · cases hhandle.symm.trans hkept
        exact .inr (by simp)
      · exact .inr (List.mem_append_left _ hwaits)
    · rcases List.mem_append.1 hm with hm | hm
      · exact h.waited n (hprime n hn) hkept m hm
      · cases List.mem_singleton.1 hm
        cases hhandle.symm.trans hkept
        rfl
    · rcases List.mem_append.1 hn with hn | hn
      · exact cancelling_of_modify (h.cancelled n · hn) hl
      · cases List.mem_singleton.1 hn
        exact cancelling_modified hl

/-- **A `stop` that goes on keeps it**: the loop that it has waited for is not alive. -/
theorem Sound.stopped (h : Sound s) (j : ℕ) : Sound (s.stopped j) := by
  unfold State.stopped
  split
  · rename_i k hj
    split
    · rename_i raised hphase
      obtain ⟨l, hl, hended⟩ := Option.map_eq_some_iff.1 hphase
      have hdead : ¬ s.Live k := by
        rintro ⟨l', hl', hlive⟩
        cases hl.symm.trans hl'
        simp [Loop.live, hended] at hlive
      have hprime : ∀ n, s.Prime n → n ≠ k := by
        rintro n ⟨l', hl', hlive, -⟩ rfl
        exact hdead ⟨l', hl', hlive⟩
      -- those who wait for another loop still do
      have hother : ∀ n, n ≠ k → some n ∈ s.stops → some n ∈ s.stops.set j none := by
        intro n hn hmem
        obtain ⟨i, hi, hget⟩ := List.mem_iff_getElem.1 hmem
        have hij : j ≠ i := by
          rintro rfl
          rw [List.getElem?_eq_getElem hi, hget] at hj
          cases hj
          exact hn rfl
        refine List.mem_iff_getElem.2 ⟨i, by simpa using hi, ?_⟩
        rw [List.getElem_set_of_ne hij]
        exact hget
      have hback : ∀ n, some n ∈ s.stops.set j none → some n ∈ s.stops := by
        intro n hn
        rcases List.mem_or_eq_of_mem_set hn with hn | hn
        · exact hn
        · cases hn
      refine ⟨fun n hn => ?_, fun n hn => h.stops n (hback n hn), fun hdown n hn hlive => ?_,
        fun n hn => ?_, fun n hn hkept m hm => ?_, fun n l hn hl => h.cancelled n l (hback n hn) hl, h.single⟩
      · cases raised with
        | true => exact h.handle n hn
        | false => cases hn
      · cases raised with
        | true =>
          have hne : n ≠ k := fun heq => hdead (heq ▸ hlive)
          exact hother n hne (h.stopping hdown n hn hlive)
        | false => cases hn
      · rcases h.held n hn with hkept | hwaits
        · have hk := h.waited n hn hkept k (List.mem_of_getElem? hj)
          exact absurd hk.symm (hprime n hn)
        · exact .inr (hother n (hprime n hn) hwaits)
      · cases raised with
        | true => exact h.waited n hn hkept m (hback m hm)
        | false => cases hkept
    · exact h
  · exact h

/-- **One step.** -/
theorem Sound.step (h : Sound s) (e : Step ι ε) : Sound (s.step P e) := by
  cases e with
  | start input => exact h.start input
  | stop => exact h.stop
  | turn n input =>
    rcases turn_moves P s n input with heq | hm
    · show Sound (s.turn P n input)
      rw [heq]
      exact h
    · exact h.moved hm
  | cancelled n =>
    rcases cancelled_moves P s n with heq | hm
    · show Sound (s.cancelled n)
      rw [heq]
      exact h
    · exact h.moved hm
  | stopped j => exact h.stopped j
  | other e => exact ⟨h.handle, h.stops, h.stopping, h.held, h.waited, h.cancelled, h.single⟩

variable (P) in
theorem sound_run (inner : σ) (steps : List (Step ι ε)) : Sound (run P inner steps) := by
  refine History.run_invariant (State.step P) Sound (fun _ e h => h.step e) steps _ ?_
  refine ⟨fun n hn => ?_, fun n hn => ?_, fun _ n hn => ?_, fun n hn => ?_, fun n hn => ?_, fun n l hn => ?_,
    fun m n hm => ?_⟩
  · cases hn
  · cases hn
  · cases hn
  · obtain ⟨l, hl, -⟩ := hn
    cases hl
  · obtain ⟨l, hl, -⟩ := hn
    cases hl
  · cases hn
  · obtain ⟨l, hl, -⟩ := hm
    cases hl

/-- A property that at most one place has is counted at most once. -/
theorem countP_le_one {α : Type*} {p : α → Bool} : ∀ {xs : List α},
    (∀ (m n : ℕ) (x y : α), xs[m]? = some x → xs[n]? = some y → p x = true → p y = true → m = n) →
    xs.countP p ≤ 1
  | [], _ => Nat.zero_le _
  | x :: xs, h => by
    rw [List.countP_cons]
    by_cases hx : p x = true
    · have hnone : xs.countP p = 0 := by
        rw [List.countP_eq_zero]
        intro y hy hp
        obtain ⟨n, hn⟩ := List.mem_iff_getElem?.1 hy
        exact absurd (h 0 (n + 1) x y rfl hn hx hp) (Nat.succ_ne_zero n).symm
      rw [hnone, if_pos hx]
    · rw [if_neg hx]
      have hrest := @countP_le_one α p xs fun m n y z hy hz hpy hpz =>
        Nat.succ.inj (h (m + 1) (n + 1) y z hy hz hpy hpz)
      omega

/-- **Loops that are alive together**: one, and one more for each `start` during a `stop`. -/
theorem Sound.live_le (h : Sound s) :
    s.loops.countP Loop.live ≤ 1 + s.loops.countP Loop.overlapping := by
  have hprime : s.loops.countP (fun l => l.live && !l.overlapping) ≤ 1 := by
    refine countP_le_one fun m n x y hx hy hpx hpy => h.single m n ?_ ?_
    · obtain ⟨hlive, hover⟩ := Bool.and_eq_true_iff.1 hpx
      exact ⟨x, hx, hlive, by simpa using hover⟩
    · obtain ⟨hlive, hover⟩ := Bool.and_eq_true_iff.1 hpy
      exact ⟨y, hy, hlive, by simpa using hover⟩
  have hsplit : s.loops.countP Loop.live ≤
      s.loops.countP (fun l => l.live && !l.overlapping) + s.loops.countP Loop.overlapping := by
    induction s.loops with
    | nil => rfl
    | cons l ls ih =>
      rw [List.countP_cons, List.countP_cons, List.countP_cons]
      cases l.live <;> cases l.overlapping <;> simp <;> omega
  omega

/-! ## The component -/

variable (P) in
/-- **What rounds of work keep**, and what else is done keeps, holds of the component at any time. -/
theorem inner_run (I : σ → Prop) (hwork : ∀ input inner, I inner → I (P.work input inner).2)
    (hperform : ∀ e inner, I inner → I (P.perform e inner)) (inner : σ) (steps : List (Step ι ε))
    (h : I inner) : I (run P inner steps).inner := by
  have hround : ∀ (s : State σ) n l input, I s.inner → I (s.round P n l input).inner := by
    intro s n l input hs
    unfold State.round
    simp only
    split
    · exact hwork input _ hs
    · split
      · exact hwork input _ hs
      · exact hwork input _ hs
  have hgoOn : ∀ (s : State σ) n l input, I s.inner → I (s.goOn P n l input).inner := by
    intro s n l input hs
    unfold State.goOn
    split
    · split
      · exact hround s n l input hs
      · exact hs
    · exact hs
  refine History.run_invariant (State.step P) (fun s => I s.inner) (fun s e hs => ?_) steps _ h
  cases e with
  | start input =>
    show I (s.start P input).inner
    unfold State.start
    split
    · exact hs
    · by_cases heager : P.eager = true
      · simp only [heager, if_true]
        split
        · exact hwork input _ hs
        · exact hwork input _ hs
      · simp only [heager]
        exact hs
  | stop =>
    show I s.stop.inner
    unfold State.stop
    split
    · exact hs
    · exact hs
  | turn n input =>
    show I (s.turn P n input).inner
    unfold State.turn
    split
    · exact hs
    · split
      · exact hs
      · split
        · exact hgoOn s n _ input hs
        · split
          · exact hgoOn s n _ input hs
          · exact hround s n _ input hs
        · exact hs
  | cancelled n =>
    show I (s.cancelled n).inner
    unfold State.cancelled
    split
    · exact hs
    · split
      · exact hs
      · exact hs
  | stopped j =>
    show I (s.stopped j).inner
    unfold State.stopped
    split
    · split
      · exact hs
      · exact hs
    · exact hs
  | other e => exact hperform e _ hs

/-! ## At rest -/

/-- The flag is down and no loop is alive. -/
structure Settled (s : State σ) : Prop where
  down : s.running = false
  dead : ∀ n, ¬ s.Live n

/-- A component whose loops were made apart is at rest when every `stop` has returned. -/
theorem Sound.settled (h : Sound s) (hapart : s.Apart) (hdown : s.running = false)
    (hwaits : s.waiting = false) : Settled s := by
  refine ⟨hdown, fun n hn => ?_⟩
  have hnone := waiting_eq_false.1 hwaits
  obtain ⟨l, hl, hlive⟩ := hn
  rcases h.held n ⟨l, hl, hlive, hapart l (List.mem_of_getElem? hl)⟩ with hkept | hmem
  · exact hnone n (h.stopping hdown n hkept ⟨l, hl, hlive⟩)
  · exact hnone n hmem

/-- What is done besides. -/
def Step.other? : Step ι ε → Option ε
  | .other e => some e
  | _ => none

/-- It is a `start`. -/
def Step.starts : Step ι ε → Bool
  | .start _ => true
  | _ => false

/-- It is a `stop`. -/
def Step.isStop : Step ι ε → Bool
  | .stop => true
  | _ => false

/-- Without a loop that is alive nothing moves. -/
theorem not_moved (h : ∀ n, ¬ s.Live n) : ¬ Moved P s s' := by
  intro hm
  obtain ⟨n, l, -, hl, hlive, -⟩ := hm.loops
  exact h n ⟨l, hl, hlive⟩

theorem Settled.step (h : Settled s) {e : Step ι ε} (he : e.starts = false) :
    Settled (s.step P e) ∧ (s.step P e).inner = (e.other?.elim s.inner fun o => P.perform o s.inner) := by
  cases e with
  | start input => cases he
  | stop =>
    show Settled s.stop ∧ s.stop.inner = s.inner
    unfold State.stop
    split
    · exact ⟨⟨rfl, h.dead⟩, rfl⟩
    · refine ⟨⟨rfl, fun n hn => ?_⟩, rfl⟩
      obtain ⟨l', hl', hlive⟩ := hn
      obtain ⟨l, hl, hphase, -⟩ := getElem?_modify_cancelling hl'
      exact h.dead n ⟨l, hl, live_congr hphase ▸ hlive⟩
  | turn n input =>
    rcases turn_moves P s n input with heq | hm
    · show Settled (s.turn P n input) ∧ (s.turn P n input).inner = s.inner
      rw [heq]
      exact ⟨h, rfl⟩
    · exact absurd hm (not_moved h.dead)
  | cancelled n =>
    rcases cancelled_moves P s n with heq | hm
    · show Settled (s.cancelled n) ∧ (s.cancelled n).inner = s.inner
      rw [heq]
      exact ⟨h, rfl⟩
    · exact absurd hm (not_moved h.dead)
  | stopped j =>
    show Settled (s.stopped j) ∧ (s.stopped j).inner = s.inner
    unfold State.stopped
    split
    · split
      · exact ⟨⟨h.down, h.dead⟩, rfl⟩
      · exact ⟨h, rfl⟩
    · exact ⟨h, rfl⟩
  | other e => exact ⟨⟨h.down, h.dead⟩, rfl⟩

/-- **A component at rest** does what it is told to and nothing else, until it is started. -/
theorem run_settled (steps : List (Step ι ε)) (hsteps : ∀ e ∈ steps, e.starts = false) :
    ∀ {s : State σ}, Settled s → Settled (steps.foldl (State.step P) s) ∧
      (steps.foldl (State.step P) s).inner =
        (steps.filterMap Step.other?).foldl (fun inner e => P.perform e inner) s.inner := by
  induction steps with
  | nil => exact fun h => ⟨h, rfl⟩
  | cons e steps ih =>
    intro s h
    obtain ⟨hstep, hinner⟩ := h.step (P := P) (hsteps e List.mem_cons_self)
    obtain ⟨hrest, heq⟩ := ih (fun e he => hsteps e (List.mem_cons_of_mem _ he)) hstep
    refine ⟨hrest, heq.trans ?_⟩
    rw [hinner]
    cases e <;> rfl

/-! ## While the flag is up -/

/-- **A flag that is up** has a loop, which is alive and not cancelled, or has raised; unless `start` has
raised. -/
def Awake (s : State σ) : Prop := s.Apart → s.running = true → s.failed = false →
  s.waiting = false ∧ ∃ n l, s.handle = some n ∧ s.loops[n]? = some l ∧
    (l.live = true ∧ l.cancelling = false ∨ l.phase = .ended true)

theorem Moved.apart (h : Moved P s s') (hapart : s'.Apart) : s.Apart := by
  intro l hl
  obtain ⟨m, hm⟩ := List.mem_iff_getElem?.1 hl
  have hlen : m < s'.loops.length := by
    rw [h.length]
    exact (List.getElem?_eq_some_iff.1 hm).1
  obtain ⟨l₀, hl₀, -, hover, -⟩ := h.getElem? (List.getElem?_eq_getElem hlen)
  cases hm.symm.trans hl₀
  rw [← hover]
  exact hapart _ (List.getElem_mem hlen)

theorem Awake.moved (h : Awake s) (hm : Moved P s s') : Awake s' := by
  intro hapart hup hfailed
  obtain ⟨hwaits, n, l, hkept, hl, hl'⟩ :=
    h (hm.apart hapart) (hm.running ▸ hup) (hm.failed ▸ hfailed)
  refine ⟨?_, n, ?_⟩
  · unfold State.waiting at hwaits ⊢
    rw [hm.stops]
    exact hwaits
  · obtain ⟨k, l₁, p, hk, hlive, hloops, -, hphase⟩ := hm.loops
    rw [hm.handle, hloops, List.getElem?_set]
    by_cases hkn : k = n
    · subst hkn
      cases hk.symm.trans hl
      have hlt := (List.getElem?_eq_some_iff.1 hk).1
      refine ⟨{ l with phase := p }, hkept, by simp [hlt], ?_⟩
      rcases hl' with ⟨-, hcancel⟩ | hended
      · rcases hphase hcancel with rfl | rfl | ⟨-, hdown⟩
        · exact .inl ⟨rfl, hcancel⟩
        · exact .inr rfl
        · rw [hm.running, hdown] at hup
          cases hup
      · simp [Loop.live, hended] at hlive
    · exact ⟨l, hkept, by simp [hkn, hl], hl'⟩

theorem Awake.step (h : Awake s) (e : Step ι ε) : Awake (s.step P e) := by
  cases e with
  | start input =>
    rcases start_cases P s input with ⟨-, heq⟩ | ⟨hdown, inner, ⟨-, heq⟩ | heq⟩
    · show Awake (s.start P input)
      rw [heq]
      exact h
    · show Awake (s.start P input)
      rw [heq]
      intro _ _ hfailed
      cases hfailed
    · show Awake (s.start P input)
      rw [heq]
      intro hapart _ _
      -- nobody waits: the new loop would be overlapping
      have hwaits : s.waiting = false := hapart { overlapping := s.waiting } (by simp)
      exact ⟨hwaits, s.loops.length, { overlapping := s.waiting }, rfl, List.getElem?_concat_length,
        .inl ⟨rfl, rfl⟩⟩
  | stop =>
    show Awake s.stop
    unfold State.stop
    split
    · intro _ hup
      cases hup
    · intro _ hup
      cases hup
  | turn n input =>
    rcases turn_moves P s n input with heq | hm
    · show Awake (s.turn P n input)
      rw [heq]
      exact h
    · exact h.moved hm
  | cancelled n =>
    rcases cancelled_moves P s n with heq | hm
    · show Awake (s.cancelled n)
      rw [heq]
      exact h
    · exact h.moved hm
  | stopped j =>
    show Awake (s.stopped j)
    unfold State.stopped
    split
    · rename_i k hj
      split
      · intro hapart hup hfailed
        obtain ⟨hwaits, -⟩ := h hapart hup hfailed
        exact absurd (List.mem_of_getElem? hj) (waiting_eq_false.1 hwaits k)
      · exact h
    · exact h
  | other e => exact h

variable (P) in
theorem awake_run (inner : σ) (steps : List (Step ι ε)) : Awake (run P inner steps) := by
  refine History.run_invariant (State.step P) Awake (fun _ e h => h.step e) steps _ ?_
  intro _ hup
  cases hup

/-- A loop has raised, and the flag is still up. -/
structure Stuck (s : State σ) : Prop where
  up : s.running = true
  dead : ∀ n, ¬ s.Live n

/-- If the loop that is kept has raised, no other is alive. -/
theorem Sound.stuck (h : Sound s) (hapart : s.Apart) (hup : s.running = true) (hwaits : s.waiting = false)
    {n : ℕ} {l : Loop} (hkept : s.handle = some n) (hl : s.loops[n]? = some l) (hraised : l.phase = .ended true) :
    Stuck s := by
  refine ⟨hup, fun m hm => ?_⟩
  obtain ⟨l', hl', hlive⟩ := hm
  rcases h.held m ⟨l', hl', hlive, hapart l' (List.mem_of_getElem? hl')⟩ with heq | hmem
  · cases hkept.symm.trans heq
    cases hl.symm.trans hl'
    simp [Loop.live, hraised] at hlive
  · exact waiting_eq_false.1 hwaits m hmem

theorem Stuck.step (h : Stuck s) {e : Step ι ε} (he : e.isStop = false) :
    Stuck (s.step P e) ∧ (s.step P e).inner = (e.other?.elim s.inner fun o => P.perform o s.inner) := by
  cases e with
  | start input =>
    -- the flag is up
    show Stuck (s.start P input) ∧ (s.start P input).inner = s.inner
    unfold State.start
    rw [if_pos h.up]
    exact ⟨h, rfl⟩
  | stop => cases he
  | turn n input =>
    rcases turn_moves P s n input with heq | hm
    · show Stuck (s.turn P n input) ∧ (s.turn P n input).inner = s.inner
      rw [heq]
      exact ⟨h, rfl⟩
    · exact absurd hm (not_moved h.dead)
  | cancelled n =>
    rcases cancelled_moves P s n with heq | hm
    · show Stuck (s.cancelled n) ∧ (s.cancelled n).inner = s.inner
      rw [heq]
      exact ⟨h, rfl⟩
    · exact absurd hm (not_moved h.dead)
  | stopped j =>
    show Stuck (s.stopped j) ∧ (s.stopped j).inner = s.inner
    unfold State.stopped
    split
    · split
      · exact ⟨⟨h.up, h.dead⟩, rfl⟩
      · exact ⟨h, rfl⟩
    · exact ⟨h, rfl⟩
  | other e => exact ⟨⟨h.up, h.dead⟩, rfl⟩

/-- **A component whose loop has raised** does what it is told to and nothing else, until it is stopped. -/
theorem run_stuck (steps : List (Step ι ε)) (hsteps : ∀ e ∈ steps, e.isStop = false) :
    ∀ {s : State σ}, Stuck s → (steps.foldl (State.step P) s).inner =
      (steps.filterMap Step.other?).foldl (fun inner e => P.perform e inner) s.inner := by
  induction steps with
  | nil => exact fun _ => rfl
  | cons e steps ih =>
    intro s h
    obtain ⟨hstep, hinner⟩ := h.step (P := P) (hsteps e List.mem_cons_self)
    refine (ih (fun e he => hsteps e (List.mem_cons_of_mem _ he)) hstep).trans ?_
    rw [hinner]
    cases e <;> rfl

/-- A `start` that does no work cannot raise. -/
theorem not_failed_run (hP : P.eager = false) (inner : σ) (steps : List (Step ι ε)) :
    (run P inner steps).failed = false := by
  refine History.run_invariant (State.step P) (fun s => s.failed = false) (fun s e hs => ?_) steps _ rfl
  cases e with
  | start input =>
    show (s.start P input).failed = false
    rcases start_cases P s input with ⟨-, heq⟩ | ⟨-, inner, ⟨heager, -⟩ | heq⟩
    · rw [heq]
      exact hs
    · rw [hP] at heager
      cases heager
    · rw [heq]
  | stop =>
    show s.stop.failed = false
    unfold State.stop
    split
    · exact hs
    · exact hs
  | turn n input =>
    rcases turn_moves P s n input with heq | hm
    · show (s.turn P n input).failed = false
      rw [heq]
      exact hs
    · exact hm.failed.trans hs
  | cancelled n =>
    rcases cancelled_moves P s n with heq | hm
    · show (s.cancelled n).failed = false
      rw [heq]
      exact hs
    · exact hm.failed.trans hs
  | stopped j =>
    show (s.stopped j).failed = false
    unfold State.stopped
    split
    · split
      · exact hs
      · exact hs
    · exact hs
  | other e => exact hs

/-! ## What is caught -/

/-- No loop has raised. -/
def Contained (s : State σ) : Prop := ∀ l ∈ s.loops, l.phase ≠ .ended true

theorem Contained.moved (hP : P.contains = true) (h : Contained s) (hm : Moved P s s') : Contained s' := by
  obtain ⟨n, l, p, -, -, hloops, hcaught, -⟩ := hm.loops
  intro m hmem
  rw [hloops] at hmem
  rcases List.mem_or_eq_of_mem_set hmem with hmem | rfl
  · exact h m hmem
  · intro hraised
    rw [hcaught hraised] at hP
    cases hP

theorem Contained.step (hP : P.contains = true) (h : Contained s) (e : Step ι ε) : Contained (s.step P e) := by
  cases e with
  | start input =>
    rcases start_cases P s input with ⟨-, heq⟩ | ⟨-, inner, ⟨-, heq⟩ | heq⟩
    · show Contained (s.start P input)
      rw [heq]
      exact h
    · show Contained (s.start P input)
      rw [heq]
      exact h
    · show Contained (s.start P input)
      rw [heq]
      intro l hl
      rcases List.mem_append.1 hl with hl | hl
      · exact h l hl
      · cases List.mem_singleton.1 hl
        simp
  | stop =>
    show Contained s.stop
    unfold State.stop
    split
    · exact h
    · intro l' hl'
      obtain ⟨n, hn⟩ := List.mem_iff_getElem?.1 hl'
      obtain ⟨l, hl, hphase, -⟩ := getElem?_modify_cancelling hn
      rw [hphase]
      exact h l (List.mem_of_getElem? hl)
  | turn n input =>
    rcases turn_moves P s n input with heq | hm
    · show Contained (s.turn P n input)
      rw [heq]
      exact h
    · exact h.moved hP hm
  | cancelled n =>
    rcases cancelled_moves P s n with heq | hm
    · show Contained (s.cancelled n)
      rw [heq]
      exact h
    · exact h.moved hP hm
  | stopped j =>
    show Contained (s.stopped j)
    unfold State.stopped
    split
    · split
      · exact h
      · exact h
    · exact h
  | other e => exact h

/-- **A loop whose errors are caught** is alive and not cancelled as long as the flag is up. -/
theorem alive_run (hP : P.contains = true) (inner : σ) (steps : List (Step ι ε))
    (hapart : (run P inner steps).Apart) (hup : (run P inner steps).running = true)
    (hfailed : (run P inner steps).failed = false) :
    ∃ n l, (run P inner steps).handle = some n ∧ (run P inner steps).loops[n]? = some l ∧ l.live = true ∧
      l.cancelling = false := by
  obtain ⟨-, n, l, hkept, hl, halive | hraised⟩ := awake_run P inner steps hapart hup hfailed
  · exact ⟨n, l, hkept, hl, halive.1, halive.2⟩
  · have hcontained : Contained (run P inner steps) :=
      History.run_invariant (State.step P) Contained (fun _ e h => h.step hP e) steps _
        (List.forall_mem_nil _)
    exact absurd hraised (hcontained l (List.mem_of_getElem? hl))

/-! ## A `start` during a `stop` -/

/-- **A loop that nobody keeps**: where a `stop` waits for a loop that it has cancelled, there may be a
`start` before it goes on, and another `stop` after it. The flag is down then, and the loop that the `start`
has made is alive. It is not cancelled, and no `stop` waits for it. -/
theorem orphaned (hP : P.eager = false) (h : Sound s) (hdown : s.running = false) {n j : ℕ} {l : Loop}
    (hj : s.stops[j]? = some (some n)) (hl : s.loops[n]? = some l) (hlive : l.live = true) (input : ι) :
    let s' := [Step.start input, .cancelled n, .stopped j, .stop].foldl (State.step P) s
    s'.running = false ∧ s'.handle = none ∧ some s.loops.length ∉ s'.stops ∧
      ∃ l', s'.loops[s.loops.length]? = some l' ∧ l'.live = true ∧ l'.cancelling = false := by
  have hlt : n < s.loops.length := (List.getElem?_eq_some_iff.1 hl).1
  have hcancel : l.cancelling = true := h.cancelled n l (List.mem_of_getElem? hj) hl
  obtain ⟨s₁, hs₁, hloops₁, hstops₁⟩ : ∃ s₁, s.start P input = s₁ ∧
      s₁.loops = s.loops ++ [{ overlapping := s.waiting }] ∧ s₁.stops = s.stops := by
    refine ⟨_, rfl, ?_⟩
    simp [State.start, hdown, hP, State.waiting]
  obtain ⟨s₂, hs₂, hloops₂, hstops₂⟩ : ∃ s₂, s₁.cancelled n = s₂ ∧
      s₂.loops = s₁.loops.set n { l with phase := .ended false } ∧ s₂.stops = s.stops := by
    refine ⟨_, rfl, ?_⟩
    unfold State.cancelled
    rw [hloops₁, List.getElem?_append_left hlt, hl]
    simp [hcancel, hlive, State.setLoop, hloops₁, hstops₁]
  have hended : s₂.loops[n]? = some { l with phase := .ended false } := by
    rw [hloops₂, hloops₁, List.getElem?_set_self (by simp; omega)]
  obtain ⟨s₃, hs₃, hloops₃, hstops₃, hhandle₃⟩ : ∃ s₃, s₂.stopped j = s₃ ∧ s₃.loops = s₂.loops ∧
      s₃.stops = s.stops.set j none ∧ s₃.handle = none := by
    refine ⟨_, rfl, ?_⟩
    simp [State.stopped, hstops₂, hj, hended]
  have hs₄ : s₃.stop = { s₃ with running := false } := by
    unfold State.stop
    rw [hhandle₃]
  intro s'
  have hend : s' = { s₃ with running := false } := by
    show (((s.start P input).cancelled n).stopped j).stop = _
    rw [hs₁, hs₂, hs₃, hs₄]
  rw [hend]
  refine ⟨rfl, hhandle₃, fun hmem => ?_, { overlapping := s.waiting }, ?_, rfl, rfl⟩
  · rw [hstops₃] at hmem
    rcases List.mem_or_eq_of_mem_set hmem with hmem | hmem
    · exact lt_irrefl _ (h.stops _ hmem)
    · cases hmem
  · show s₃.loops[s.loops.length]? = _
    rw [hloops₃, hloops₂, List.getElem?_set_ne (by omega), hloops₁, List.getElem?_concat_length]

end Polling

import Hermes.Lib.History

/-!
# Calls in flight behind a gate

A gate admits calls or refuses them. A call that was admitted is in flight until it
returns, raises or is cancelled; calls overlap in any way. While the gate is
*probing*, the calls that it admits are probes. A run numbers the periods in which
the gate is probing, and keeps with each probe the period that admitted it.

* `Event`, `step`: what happens around a gate, in any order.
* `probes_eq`: the probes in flight are those of the current period and those left
  over from earlier ones.
* `current_look`, `current_enter`, `probes_leave`: what each event does to them.
* `endsOwn_iff`: a period of a steady gate is ended only by its own calls exactly
  when no other call ends in a way that the gate takes for a verdict.
-/

namespace Flight

/-- How a call ends. -/
inductive Ending where
  | returned | raised | cancelled
  deriving DecidableEq, Repr

/-- A gate with state `σ` that reads a clock `τ`. A call looks at the gate, and is admitted or
refused by what it sees. -/
structure Gate (σ τ : Type*) where
  look : τ → σ → σ
  admits : σ → Bool
  entered : σ → σ
  leave : τ → Ending → σ → σ
  probing : σ → Bool

/-- What happens around a gate: a call arrives, the `n`-th call in flight ends, somebody looks,
time goes by. -/
inductive Event (τ : Type*) where
  | enter
  | leave (n : ℕ) (how : Ending)
  | look
  | wait (d : τ)
  deriving DecidableEq, Repr

/-- A gate with its calls in flight. The number with a probe is the period that admitted it. -/
structure State (σ τ : Type*) where
  gate : σ
  now : τ
  period : ℕ := 0
  inFlight : List (Option ℕ) := []

variable {σ τ : Type*} (G : Gate σ τ)

namespace State

/-- A look may begin a period of probing. -/
def look (s : State σ τ) : State σ τ :=
  let g := G.look s.now s.gate
  { s with
    gate := g
    period := if G.probing g ∧ ¬ G.probing s.gate then s.period + 1 else s.period }

def enter (s : State σ τ) : State σ τ :=
  let s := s.look G
  if G.admits s.gate then
    { s with
      gate := G.entered s.gate
      inFlight := s.inFlight ++ [if G.probing s.gate then some s.period else none] }
  else s

def leave (n : ℕ) (how : Ending) (s : State σ τ) : State σ τ :=
  match s.inFlight[n]? with
  | none => s
  | some _ => { s with gate := G.leave s.now how s.gate, inFlight := s.inFlight.eraseIdx n }

/-- The probes in flight. -/
def probes (s : State σ τ) : ℕ := s.inFlight.countP (·.isSome)

/-- The probes in flight that the current period has admitted. -/
def current (s : State σ τ) : ℕ := s.inFlight.count (some s.period)

/-- The probes in flight that an earlier period has admitted. -/
def leftover (s : State σ τ) : ℕ := s.inFlight.countP fun k => k.isSome ∧ k ≠ some s.period

/-- No call was admitted by a period still to come. -/
def Dated (s : State σ τ) : Prop := ∀ p, some p ∈ s.inFlight → p ≤ s.period

end State

/-- One event. -/
def step [Add τ] (s : State σ τ) : Event τ → State σ τ
  | .enter => s.enter G
  | .leave n how => s.leave G n how
  | .look => s.look G
  | .wait d => { s with now := s.now + d }

namespace State

variable {G} {s : State σ τ}

theorem probes_eq (s : State σ τ) : s.probes = s.current + s.leftover := by
  unfold probes current leftover
  rw [List.count_eq_countP]
  induction s.inFlight with
  | nil => rfl
  | cons k ks ih =>
    rw [List.countP_cons, List.countP_cons, List.countP_cons, ih]
    cases k with
    | none => simp
    | some p =>
      by_cases hp : p = s.period
      · simp [hp]; omega
      · simp [hp]; omega

/-! ## Looking -/

@[simp] theorem look_inFlight (s : State σ τ) : (s.look G).inFlight = s.inFlight := rfl

@[simp] theorem look_now (s : State σ τ) : (s.look G).now = s.now := rfl

theorem look_gate (s : State σ τ) : (s.look G).gate = G.look s.now s.gate := rfl

@[simp] theorem look_probes (s : State σ τ) : (s.look G).probes = s.probes := rfl

theorem look_eq_self (h : G.look s.now s.gate = s.gate) : s.look G = s := by
  unfold look
  rw [h]
  simp

theorem period_le_look (s : State σ τ) : s.period ≤ (s.look G).period := by
  unfold look
  simp only
  split
  · omega
  · exact le_rfl

theorem Dated.look (h : s.Dated) : (s.look G).Dated :=
  fun p hp => (h p hp).trans (period_le_look s)

/-- **A period begins** without probes of its own. -/
theorem current_look (h : s.Dated) (hg : G.probing (G.look s.now s.gate) = true)
    (hs : G.probing s.gate = false) : (s.look G).current = 0 := by
  unfold current look
  simp only [hg, hs, Bool.false_eq_true, not_false_eq_true, and_self, if_true]
  rw [List.count_eq_zero]
  intro hm
  have := h _ hm
  omega

/-! ## Entering -/

theorem enter_refused (h : G.admits (s.look G).gate = false) : s.enter G = s.look G := by
  unfold enter
  simp only [h]
  rfl

/-- A call that is admitted. -/
theorem enter_admitted (h : G.admits (s.look G).gate = true) : s.enter G =
    { s.look G with
      gate := G.entered (s.look G).gate
      inFlight := s.inFlight ++
        [if G.probing (s.look G).gate then some (s.look G).period else none] } := by
  unfold enter
  simp only [h]
  rfl

theorem Dated.enter (h : s.Dated) : (s.enter G).Dated := by
  cases ha : G.admits (s.look G).gate with
  | false =>
    rw [enter_refused ha]
    exact h.look
  | true =>
    rw [enter_admitted ha]
    intro p hp
    rcases List.mem_append.1 hp with hp | hp
    · exact h.look p hp
    · cases hg : G.probing (s.look G).gate with
      | false => simp [hg] at hp
      | true =>
        have hpp : p = (s.look G).period := by simpa [hg] using hp
        exact hpp.le

theorem probes_enter (h : G.admits (s.look G).gate = true) :
    (s.enter G).probes = s.probes + if G.probing (s.look G).gate then 1 else 0 := by
  rw [enter_admitted h]
  unfold probes
  rw [List.countP_append]
  cases G.probing (s.look G).gate with
  | false => simp
  | true => simp

theorem current_enter (h : G.admits (s.look G).gate = true) :
    (s.enter G).current = (s.look G).current + if G.probing (s.look G).gate then 1 else 0 := by
  rw [enter_admitted h]
  unfold current
  rw [List.count_append]
  cases G.probing (s.look G).gate with
  | false => simp
  | true => simp

/-! ## Leaving -/

theorem leave_none {n : ℕ} (h : s.inFlight[n]? = none) (how : Ending) : s.leave G n how = s := by
  unfold leave
  rw [h]

theorem leave_some {n : ℕ} {k : Option ℕ} (h : s.inFlight[n]? = some k) (how : Ending) :
    s.leave G n how =
      { s with gate := G.leave s.now how s.gate, inFlight := s.inFlight.eraseIdx n } := by
  unfold leave
  rw [h]

theorem Dated.leave (h : s.Dated) (n : ℕ) (how : Ending) : (s.leave G n how).Dated := by
  cases hn : s.inFlight[n]? with
  | none => rwa [leave_none hn]
  | some k =>
    rw [leave_some hn]
    exact fun p hp => h p (List.mem_of_mem_eraseIdx hp)

/-- A call in flight, and the others. -/
theorem countP_eraseIdx {α : Type*} (p : α → Bool) {l : List α} {n : ℕ} {a : α}
    (h : l[n]? = some a) : l.countP p = (l.eraseIdx n).countP p + if p a then 1 else 0 := by
  obtain ⟨hn, rfl⟩ := List.getElem?_eq_some_iff.1 h
  rw [← (List.getElem_cons_eraseIdx_perm hn).countP_eq p, List.countP_cons]

/-- **A call has ended**: a probe in flight less, if it was one. -/
theorem probes_leave {n : ℕ} {k : Option ℕ} (h : s.inFlight[n]? = some k) (how : Ending) :
    s.probes = (s.leave G n how).probes + if k.isSome then 1 else 0 := by
  rw [leave_some h]
  exact countP_eraseIdx _ h

end State

/-! ## The end of a period -/

variable [Add τ]

/-- Looking and entering do not end a period of probing. -/
structure Gate.Steady : Prop where
  look : ∀ now g, G.probing g = true → G.probing (G.look now g) = true
  entered : ∀ g, G.probing g = true → G.probing (G.entered g) = true

/-- A period of probing is ended by nothing but a call that it has admitted. -/
def EndsOwn (s : State σ τ) (e : Event τ) : Prop :=
  G.probing s.gate = true → G.probing (step G s e).gate = false →
    match e with
    | .leave n _ => s.inFlight[n]? = some (some s.period)
    | _ => False

instance (s : State σ τ) : DecidablePred (EndsOwn G s)
  | .leave n how => inferInstanceAs (Decidable (G.probing s.gate = true →
      G.probing (step G s (.leave n how)).gate = false → s.inFlight[n]? = some (some s.period)))
  | .enter => inferInstanceAs (Decidable (_ = true → _ = false → False))
  | .look => inferInstanceAs (Decidable (_ = true → _ = false → False))
  | .wait _ => inferInstanceAs (Decidable (_ = true → _ = false → False))

variable {G} {s : State σ τ}

/-- **A period is ended by its own calls** exactly when every call whose end the gate takes for a
verdict is one of them. -/
theorem endsOwn_iff (hG : G.Steady) (e : Event τ) : EndsOwn G s e ↔
    ∀ n how, e = .leave n how → ∀ k, s.inFlight[n]? = some k → G.probing s.gate = true →
      G.probing (G.leave s.now how s.gate) = false → k = some s.period := by
  unfold EndsOwn
  cases e with
  | enter =>
    refine iff_of_true (fun hs hend => ?_) (fun n how he => by cases he)
    -- the look and the admission both keep the gate probing
    have hl : G.probing (s.look G).gate = true := hG.look _ _ hs
    have hkeep : G.probing (s.enter G).gate = true := by
      cases ha : G.admits (s.look G).gate with
      | false => rwa [State.enter_refused ha]
      | true =>
        rw [State.enter_admitted ha]
        exact hG.entered _ hl
    rw [show G.probing (s.enter G).gate = false from hend] at hkeep
    cases hkeep
  | leave n how =>
    show (_ → G.probing (s.leave G n how).gate = false → s.inFlight[n]? = _) ↔ _
    constructor
    · rintro h m how' ⟨⟩ k hk hs hend
      have hown := h hs (by rwa [State.leave_some hk])
      rw [hk] at hown
      exact Option.some.inj hown
    · intro h hs hend
      cases hn : s.inFlight[n]? with
      | none =>
        rw [State.leave_none hn, hs] at hend
        cases hend
      | some k =>
        rw [State.leave_some hn] at hend
        rw [h n how rfl k hn hs hend]
  | look =>
    refine iff_of_true (fun hs hend => ?_) (fun n how he => by cases he)
    have hl : G.probing (s.look G).gate = true := hG.look _ _ hs
    rw [show G.probing (s.look G).gate = false from hend] at hl
    cases hl
  | wait d =>
    refine iff_of_true (fun hs hend => ?_) (fun n how he => by cases he)
    rw [show G.probing s.gate = false from hend] at hs
    cases hs

end Flight

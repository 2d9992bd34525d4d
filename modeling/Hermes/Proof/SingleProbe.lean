import Hermes.Spec.Breaker

/-!
# The probe of a half-open breaker

Calls in flight through the circuit breaker of one capability, over every
interleaving of calls, state queries and clock readings.

* `singleProbe_iff`: a half-open breaker has at most one probe in flight, and its
  flag says whether there is one, throughout a run exactly when no probe is
  cancelled and no other call ends with a result while a probe is in flight.
* `two_probes`: a late success of a call admitted before the breaker opened.
-/

namespace Hermes

open Flight History

namespace Breaker

variable {b : Breaker} {now : ℚ}

theorem maybeHalfOpen_cases (b : Breaker) (now : ℚ) : b.maybeHalfOpen now = b ∨
    (b.state = .opened ∧ b.maybeHalfOpen now =
      { b with state := .halfOpen, successCount := 0, halfOpenInflight := false }) := by
  unfold maybeHalfOpen
  split
  · rename_i t hs _
    split
    · exact .inr ⟨hs, rfl⟩
    · exact .inl rfl
  · exact .inl rfl

@[simp] theorem transition_flag (s : BreakerState) :
    (b.transition now s).halfOpenInflight = b.halfOpenInflight := by
  unfold transition
  cases s with
  | _ => rfl

@[simp] theorem gate_probing : gate.probing b = decide (b.state = .halfOpen) := rfl

theorem gate_admits_halfOpen (hs : b.state = .halfOpen) :
    gate.admits b = !b.halfOpenInflight := by
  unfold gate
  simp [hs]

theorem gate_entered_halfOpen (hs : b.state = .halfOpen) :
    gate.entered b = { b with halfOpenInflight := true } := by
  unfold gate
  simp [hs]

theorem gate_entered_of_ne (hs : b.state ≠ .halfOpen) : gate.entered b = b := by
  unfold gate
  simp only

/-- The flag is up in `HALF_OPEN` only. -/
def FlagInside (b : Breaker) : Prop := b.halfOpenInflight = true → b.state = .halfOpen

/-- **A result takes the flag down**, whosever it is. -/
theorem onSuccess_flag (h : b.FlagInside) : (b.onSuccess now).halfOpenInflight = false := by
  unfold onSuccess
  cases hs : b.state with
  | halfOpen =>
    simp only
    split
    · rw [transition_flag]
    · rfl
  | _ =>
    cases hf : b.halfOpenInflight with
    | false => simp
    | true =>
      have := h hf
      rw [hs] at this
      cases this

theorem onFailure_flag (h : b.FlagInside) : (b.onFailure now).halfOpenInflight = false := by
  unfold onFailure
  cases hs : b.state with
  | halfOpen => rw [transition_flag]
  | _ =>
    cases hf : b.halfOpenInflight with
    | false =>
      simp only
      split
      · rw [transition_flag]
      · rfl
    | true =>
      have := h hf
      rw [hs] at this
      cases this

theorem look_flag (h : b.FlagInside) :
    (gate.look now b).halfOpenInflight = b.halfOpenInflight := by
  rcases maybeHalfOpen_cases b now with heq | ⟨hopen, heq⟩
  · exact congrArg Breaker.halfOpenInflight heq
  · -- an open breaker has its flag down already
    have hdown : b.halfOpenInflight = false := by
      cases hf : b.halfOpenInflight with
      | false => rfl
      | true =>
        have := h hf
        rw [hopen] at this
        cases this
    rw [hdown]
    exact congrArg Breaker.halfOpenInflight heq

theorem FlagInside.look (h : b.FlagInside) : (gate.look now b).FlagInside := by
  intro hf
  rw [look_flag h] at hf
  rcases maybeHalfOpen_cases b now with heq | ⟨-, heq⟩
  · exact (congrArg Breaker.state heq).trans (h hf)
  · exact congrArg Breaker.state heq

theorem FlagInside.entered (h : b.FlagInside) : (gate.entered b).FlagInside := by
  unfold gate
  simp only
  split
  · rename_i hs
    exact fun _ => hs
  · exact h

theorem FlagInside.leave (h : b.FlagInside) (how : Ending) : (gate.leave now how b).FlagInside := by
  intro hf
  cases how with
  | returned =>
    have hdown : (b.onSuccess now).halfOpenInflight = false := onSuccess_flag h
    rw [show (b.onSuccess now).halfOpenInflight = true from hf] at hdown
    cases hdown
  | raised =>
    have hdown : (b.onFailure now).halfOpenInflight = false := onFailure_flag h
    rw [show (b.onFailure now).halfOpenInflight = true from hf] at hdown
    cases hdown
  | cancelled => exact h hf

end Breaker

/-! ## Runs -/

/-- A breaker with its calls in flight. -/
abbrev BreakerRun := Flight.State Breaker ℚ

def freshBreaker (policy : BreakerPolicy) (now : ℚ) : BreakerRun := { gate := { policy }, now }

/-- At most one probe is in flight in `HALF_OPEN`, and `half_open_inflight` says whether one is. -/
def SingleProbe (s : BreakerRun) : Prop :=
  (s.gate.state = .halfOpen → s.probes ≤ 1) ∧ (s.gate.halfOpenInflight = true ↔ 0 < s.probes)

instance : DecidablePred SingleProbe := fun s =>
  inferInstanceAs (Decidable ((s.gate.state = .halfOpen → s.probes ≤ 1) ∧
    (s.gate.halfOpenInflight = true ↔ 0 < s.probes)))

/-- A probe is not cancelled, and no other call returns or raises while a probe is in flight. -/
def OwnEnd (s : BreakerRun) : Event ℚ → Prop
  | .leave n how => ∀ k, s.inFlight[n]? = some k →
    match how with
    | .cancelled => k = none
    | _ => k.isSome ∨ s.probes = 0
  | _ => True

theorem singleProbe_iff_toNat {s : BreakerRun} (h : s.gate.FlagInside) :
    SingleProbe s ↔ s.probes = s.gate.halfOpenInflight.toNat := by
  unfold SingleProbe
  cases hf : s.gate.halfOpenInflight with
  | false =>
    simp only [Bool.false_eq_true, false_iff, Bool.toNat_false]
    omega
  | true =>
    have hs := h hf
    simp only [hs, forall_const, true_iff, Bool.toNat_true]
    omega

theorem flagInside_step {s : BreakerRun} (e : Event ℚ) (h : s.gate.FlagInside) :
    (step Breaker.gate s e).gate.FlagInside := by
  have hl : (s.look Breaker.gate).gate.FlagInside := h.look
  cases e with
  | enter =>
    show (s.enter Breaker.gate).gate.FlagInside
    cases ha : Breaker.gate.admits (s.look Breaker.gate).gate with
    | false => rwa [State.enter_refused ha]
    | true =>
      rw [State.enter_admitted ha]
      exact hl.entered
  | leave n how =>
    show (s.leave Breaker.gate n how).gate.FlagInside
    cases hn : s.inFlight[n]? with
    | none => rwa [State.leave_none hn]
    | some k =>
      rw [State.leave_some hn]
      exact h.leave how
  | look => exact hl
  | wait d => exact h

/-- A call that enters keeps flag and probes together. -/
theorem enter_singleProbe {s : BreakerRun} (h : s.gate.FlagInside)
    (hp : s.probes = s.gate.halfOpenInflight.toNat) :
    (s.enter Breaker.gate).probes = (s.enter Breaker.gate).gate.halfOpenInflight.toNat := by
  have hflag : (s.look Breaker.gate).gate.halfOpenInflight = s.gate.halfOpenInflight :=
    Breaker.look_flag h
  cases ha : Breaker.gate.admits (s.look Breaker.gate).gate with
  | false =>
    rw [State.enter_refused ha, State.look_probes, hflag]
    exact hp
  | true =>
    rw [State.probes_enter ha, State.enter_admitted ha]
    show s.probes + (if Breaker.gate.probing (s.look Breaker.gate).gate then 1 else 0) =
      (Breaker.gate.entered (s.look Breaker.gate).gate).halfOpenInflight.toNat
    by_cases hs : (s.look Breaker.gate).gate.state = .halfOpen
    · -- the flag was down
      rw [Breaker.gate_admits_halfOpen hs, hflag, Bool.not_eq_true'] at ha
      rw [Breaker.gate_entered_halfOpen hs, Breaker.gate_probing, hs, hp, ha]
      rfl
    · rw [Breaker.gate_entered_of_ne hs, Breaker.gate_probing, hflag, hp]
      simp [hs]

/-- **A call that ends** keeps flag and probes together exactly when it is the probe and has a
result, or none is in flight, or it is another call and is cancelled. -/
theorem leave_singleProbe_iff {s : BreakerRun} (h : s.gate.FlagInside)
    (hp : s.probes = s.gate.halfOpenInflight.toNat) (n : ℕ) (how : Ending) :
    (s.leave Breaker.gate n how).probes =
      (s.leave Breaker.gate n how).gate.halfOpenInflight.toNat ↔ OwnEnd s (.leave n how) := by
  cases hn : s.inFlight[n]? with
  | none =>
    rw [State.leave_none hn]
    refine iff_of_true hp fun k hk => ?_
    rw [hn] at hk
    cases hk
  | some k =>
    have hless := State.probes_leave (G := Breaker.gate) hn how
    have hone := s.gate.halfOpenInflight.toNat_le
    -- a result takes the flag down, whichever call brings it
    have hresult : (Breaker.gate.leave s.now how s.gate).halfOpenInflight = false →
        ((s.leave Breaker.gate n how).probes =
          (s.leave Breaker.gate n how).gate.halfOpenInflight.toNat ↔
            ∀ j, s.inFlight[n]? = some j → (j.isSome ∨ s.probes = 0)) := by
      intro hdown
      have hdown' : (s.leave Breaker.gate n how).gate.halfOpenInflight = false := by
        rw [State.leave_some hn]
        exact hdown
      rw [hdown', Bool.toNat_false, hn]
      simp only [Option.some.injEq, forall_eq']
      cases k with
      | none => simp at hless ⊢; omega
      | some p => simp at hless ⊢; omega
    cases how with
    | returned => exact hresult (Breaker.onSuccess_flag h)
    | raised => exact hresult (Breaker.onFailure_flag h)
    | cancelled =>
      -- a cancelled call leaves the flag as it is
      have hsame : (s.leave Breaker.gate n .cancelled).gate.halfOpenInflight =
          s.gate.halfOpenInflight := by
        rw [State.leave_some hn]
        rfl
      show _ ↔ ∀ j, s.inFlight[n]? = some j → j = none
      rw [hsame, hn]
      simp only [Option.some.injEq, forall_eq']
      cases k with
      | none => simp at hless ⊢; omega
      | some p => simp at hless ⊢; omega

theorem singleProbe_step_iff {s : BreakerRun} {e : Event ℚ} (h : s.gate.FlagInside)
    (hp : SingleProbe s) : SingleProbe (step Breaker.gate s e) ↔ OwnEnd s e := by
  rw [singleProbe_iff_toNat (flagInside_step e h)]
  rw [singleProbe_iff_toNat h] at hp
  cases e with
  | enter => exact iff_of_true (enter_singleProbe h hp) trivial
  | leave n how => exact leave_singleProbe_iff h hp n how
  | look =>
    refine iff_of_true ?_ trivial
    have hflag : (s.look Breaker.gate).gate.halfOpenInflight = s.gate.halfOpenInflight :=
      Breaker.look_flag h
    show (s.look Breaker.gate).probes = (s.look Breaker.gate).gate.halfOpenInflight.toNat
    rw [hflag]
    exact hp
  | wait d => exact iff_of_true hp trivial

/-- **One probe, and a flag that tells of it**, throughout a run exactly when no probe is
cancelled and no other call has a result while a probe is in flight. -/
theorem singleProbe_iff (policy : BreakerPolicy) (now : ℚ) (es : List (Event ℚ)) :
    Throughout (step Breaker.gate) SingleProbe (freshBreaker policy now) es ↔
      EachStep (step Breaker.gate) OwnEnd (freshBreaker policy now) es := by
  refine throughout_iff (A := fun _ => True) (I := fun s : BreakerRun => s.gate.FlagInside)
    (fun s e _ h => flagInside_step e h) (fun s e _ h hp => singleProbe_step_iff h hp) es _
    (fun _ _ => trivial) (fun hf => ?_) ?_
  · cases hf
  · show (BreakerState.closed = .halfOpen → 0 ≤ 1) ∧ (false = true ↔ 0 < 0)
    decide

/-- **Two probes in flight**: a call admitted before the breaker opened succeeds while the probe
runs. -/
theorem two_probes : ¬ Throughout (step Breaker.gate) SingleProbe
    (freshBreaker { failureThreshold := 1 } 0)
    [.enter, .enter, .leave 0 .raised, .wait 60, .enter, .leave 0 .returned, .enter] := by
  decide +kernel

end Hermes

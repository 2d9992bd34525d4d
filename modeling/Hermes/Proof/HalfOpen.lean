import Hermes.Spec.Resilience

/-!
# Half-open circuits

Calls in flight through one circuit of the resilience engine, over every
interleaving of calls, queries and clock readings.

* `enter_eq`, `leave_eq`: the engine is the gate of each of its circuits.
* `halfOpen_bounded_iff`: at most `half_open_max_calls` trial calls are in flight
  throughout a run exactly when each of them is admitted with room left beside the
  trials of earlier half-open periods.
* `noLockOut_iff`: a half-open circuit without calls in flight admits the next call
  exactly when the last of the counted trials is not cancelled.
-/

namespace Hermes

open Flight History

/-! ## The engine and its circuits -/

namespace Resilience

variable (r : Resilience) (name : String) (now : ℚ)

/-- The circuit of that name; the engine registers one that is missing. -/
def circuit : Circuit := (r.circuits.get? name).getD {}

/-- **`call_with_circuit` up to its `yield`** is the gate of the circuit. -/
theorem enter_eq : r.enter name now =
    let c := Circuit.gate.look now (r.circuit name)
    if Circuit.gate.admits c then
      (.ok (), { r with circuits := r.circuits.insert name (Circuit.gate.entered c) })
    else (.error (openError name), { r with circuits := r.circuits.insert name c }) := by
  unfold enter circuit Circuit.gate
  simp only
  cases hs : ((r.circuits.get? name).getD {}).maybeRecover now |>.state with
  | closed => simp
  | opened => simp
  | halfOpen =>
    simp only [decide_eq_true_eq]
    split
    · rw [if_neg (by omega)]
    · rw [if_pos (by omega)]

/-- How the engine sees a call end. -/
def ending {α : Type} : Except Exc α → Ending
  | .ok _ => .returned
  | .error e => if e.kind = .cancelled then .cancelled else .raised

/-- **`call_with_circuit` after its `yield`.** -/
theorem leave_eq {α : Type} {c : Circuit} (hc : r.circuits.get? name = some c)
    (result : Except Exc α) : (r.leave name now result).circuits.get? name =
      some (Circuit.gate.leave now (ending result) c) := by
  unfold leave ending Circuit.gate
  rw [hc]
  cases result with
  | ok a => simp
  | error e =>
    by_cases he : e.kind = .cancelled
    · simp [he, hc]
    · simp [he]

end Resilience

/-! ## One circuit -/

namespace Circuit

variable {c : Circuit} {now : ℚ}

/-- What a look can do. -/
theorem maybeRecover_cases (c : Circuit) (now : ℚ) : c.maybeRecover now = c ∨
    (c.state = .opened ∧
      c.maybeRecover now = { c with state := .halfOpen, halfOpenCalls := 0 }) := by
  unfold maybeRecover
  split
  · rename_i t hs _
    split
    · exact .inr ⟨hs, rfl⟩
    · exact .inl rfl
  · exact .inl rfl

@[simp] theorem maybeRecover_config : (c.maybeRecover now).config = c.config := by
  rcases maybeRecover_cases c now with h | ⟨-, h⟩
  · rw [h]
  · rw [h]

@[simp] theorem onSuccess_config : c.onSuccess.config = c.config := by
  unfold onSuccess
  cases c.state with
  | _ => rfl

@[simp] theorem onFailure_config : (c.onFailure now).config = c.config := by
  unfold onFailure
  cases c.state with
  | halfOpen => rfl
  | _ =>
    simp only
    split
    · rfl
    · rfl

/-- An outcome leads out of `HALF_OPEN`. -/
theorem onSuccess_state : c.onSuccess.state ≠ .halfOpen := by
  unfold onSuccess
  cases c.state with
  | halfOpen => simp
  | _ => simp

theorem onFailure_state : (c.onFailure now).state ≠ .halfOpen := by
  unfold onFailure
  cases c.state with
  | halfOpen => simp
  | _ =>
    simp only
    split
    · simp
    · simp

@[simp] theorem gate_look : gate.look now c = c.maybeRecover now := rfl

@[simp] theorem gate_probing : gate.probing c = decide (c.state = .halfOpen) := rfl

theorem gate_entered_config : (gate.entered c).config = c.config := by
  unfold gate
  simp only
  split
  · rfl
  · rfl

theorem gate_entered_state : (gate.entered c).state = c.state := by
  unfold gate
  simp only
  split
  · rfl
  · rfl

theorem gate_entered_calls (hs : c.state = .halfOpen) :
    (gate.entered c).halfOpenCalls = c.halfOpenCalls + 1 := by
  unfold gate
  simp [hs]

theorem gate_admits_halfOpen (hs : c.state = .halfOpen) :
    gate.admits c = decide (c.halfOpenCalls < c.config.halfOpenMaxCalls) := by
  unfold gate
  simp [hs]

theorem gate_leave_config (how : Ending) : (gate.leave now how c).config = c.config := by
  cases how with
  | returned => exact onSuccess_config
  | raised => exact onFailure_config
  | cancelled => rfl

theorem gate_leave_state {how : Ending} (h : how ≠ .cancelled) :
    (gate.leave now how c).state ≠ .halfOpen := by
  cases how with
  | returned => exact onSuccess_state
  | raised => exact onFailure_state
  | cancelled => exact absurd rfl h

end Circuit

/-! ## Runs -/

/-- A circuit with its calls in flight. -/
abbrev CircuitRun := Flight.State Circuit ℚ

/-- A circuit that was just registered. -/
def freshCircuit (config : CircuitConfig) (now : ℚ) : CircuitRun := { gate := { config }, now }

/-- The configuration stays, and the calls counted in `HALF_OPEN` are the trials in flight that
this period has admitted. -/
structure Counted (config : CircuitConfig) (s : CircuitRun) : Prop where
  config : s.gate.config = config
  dated : s.Dated
  count : s.gate.state = .halfOpen → (s.current : ℤ) = s.gate.halfOpenCalls

/-- At most `half_open_max_calls` trial calls are in flight. -/
def Bounded (s : CircuitRun) : Prop := (s.probes : ℤ) ≤ s.gate.config.halfOpenMaxCalls

instance : DecidablePred Bounded := fun s =>
  inferInstanceAs (Decidable ((s.probes : ℤ) ≤ s.gate.config.halfOpenMaxCalls))

/-- A call admitted in `HALF_OPEN` has room beside the trials of earlier periods. -/
def RoomLeft (s : CircuitRun) : Event ℚ → Prop
  | .enter =>
    let t := s.look Circuit.gate
    t.gate.state = .halfOpen → Circuit.gate.admits t.gate →
      (t.leftover : ℤ) + t.gate.halfOpenCalls < t.gate.config.halfOpenMaxCalls
  | _ => True

/-- Neither cancels a call. -/
def Plain : Event ℚ → Prop
  | .leave _ how => how ≠ .cancelled
  | _ => True

theorem Counted.look {config : CircuitConfig} {s : CircuitRun} (h : Counted config s) :
    Counted config (s.look Circuit.gate) := by
  obtain ⟨hconfig, hdated, hcount⟩ := h
  refine ⟨by simp [State.look_gate, hconfig], hdated.look, fun hs => ?_⟩
  rcases Circuit.maybeRecover_cases s.gate s.now with heq | ⟨hopen, heq⟩
  · have hself : s.look Circuit.gate = s := State.look_eq_self heq
    rw [hself] at hs ⊢
    exact hcount hs
  · have hzero := State.current_look (G := Circuit.gate) hdated (by simp [heq]) (by simp [hopen])
    rw [hzero, State.look_gate, Circuit.gate_look, heq]
    rfl

theorem Counted.step {config : CircuitConfig} {s : CircuitRun} {e : Event ℚ} (he : Plain e)
    (h : Counted config s) : Counted config (step Circuit.gate s e) := by
  cases e with
  | enter =>
    have hl := h.look
    cases ha : Circuit.gate.admits (s.look Circuit.gate).gate with
    | false =>
      show Counted config (s.enter Circuit.gate)
      rw [State.enter_refused ha]
      exact hl
    | true =>
      have hcur := State.current_enter ha
      refine ⟨?_, h.dated.enter, ?_⟩
      · show (s.enter Circuit.gate).gate.config = config
        rw [State.enter_admitted ha]
        exact Circuit.gate_entered_config.trans hl.config
      · show (s.enter Circuit.gate).gate.state = .halfOpen →
          ((s.enter Circuit.gate).current : ℤ) = (s.enter Circuit.gate).gate.halfOpenCalls
        rw [hcur, State.enter_admitted ha, Circuit.gate_entered_state]
        intro hs
        have hcount := hl.count hs
        rw [Circuit.gate_entered_calls hs, Circuit.gate_probing, hs]
        simp only [decide_true, if_true]
        omega
  | leave n how =>
    show Counted config (s.leave Circuit.gate n how)
    cases hn : s.inFlight[n]? with
    | none => rwa [State.leave_none hn]
    | some k =>
      refine ⟨?_, h.dated.leave n how, fun hs => ?_⟩
      · rw [State.leave_some hn]
        exact (Circuit.gate_leave_config how).trans h.config
      · rw [State.leave_some hn] at hs
        exact absurd hs (Circuit.gate_leave_state he)
  | look => exact h.look
  | wait d => exact ⟨h.config, h.dated, h.count⟩

/-- **One event** keeps the bound exactly when the call it admits has room. -/
theorem bounded_step_iff {config : CircuitConfig} {s : CircuitRun} {e : Event ℚ}
    (h : Counted config s) (hb : Bounded s) :
    Bounded (step Circuit.gate s e) ↔ RoomLeft s e := by
  unfold Bounded at hb ⊢
  rw [h.config] at hb
  cases e with
  | enter =>
    have hl := h.look
    have hconfig := hl.config
    show ((s.enter Circuit.gate).probes : ℤ) ≤ (s.enter Circuit.gate).gate.config.halfOpenMaxCalls ↔
      ((s.look Circuit.gate).gate.state = .halfOpen →
        Circuit.gate.admits (s.look Circuit.gate).gate →
        ((s.look Circuit.gate).leftover : ℤ) + (s.look Circuit.gate).gate.halfOpenCalls <
          (s.look Circuit.gate).gate.config.halfOpenMaxCalls)
    cases ha : Circuit.gate.admits (s.look Circuit.gate).gate with
    | false =>
      rw [State.enter_refused ha, State.look_probes, hconfig]
      simp [hb]
    | true =>
      have hgate : (s.enter Circuit.gate).gate.config = config := by
        rw [State.enter_admitted ha]
        exact Circuit.gate_entered_config.trans hconfig
      have hsplit := State.probes_eq (s.look Circuit.gate)
      rw [State.probes_enter ha, hgate, hconfig, Circuit.gate_probing]
      rw [State.look_probes] at hsplit
      by_cases hs : (s.look Circuit.gate).gate.state = .halfOpen
      · -- the call becomes a probe, beside those counted and those left over
        have hcount := hl.count hs
        simp only [hs, decide_true, if_true, forall_const]
        omega
      · simp [hs, hb]
  | leave n how =>
    show ((s.leave Circuit.gate n how).probes : ℤ) ≤
      (s.leave Circuit.gate n how).gate.config.halfOpenMaxCalls ↔ True
    cases hn : s.inFlight[n]? with
    | none =>
      rw [State.leave_none hn, h.config]
      simp [hb]
    | some k =>
      -- a call that ends is one probe less, or none
      have hless := State.probes_leave (G := Circuit.gate) hn how
      have hgate : (s.leave Circuit.gate n how).gate.config = config := by
        rw [State.leave_some hn]
        exact (Circuit.gate_leave_config how).trans h.config
      rw [hgate, iff_true]
      omega
  | look =>
    show ((s.look Circuit.gate).probes : ℤ) ≤ (s.look Circuit.gate).gate.config.halfOpenMaxCalls ↔
      True
    rw [State.look_probes, h.look.config]
    simp [hb]
  | wait d =>
    show (s.probes : ℤ) ≤ s.gate.config.halfOpenMaxCalls ↔ True
    rw [h.config]
    simp [hb]

theorem counted_fresh (config : CircuitConfig) (now : ℚ) :
    Counted config (freshCircuit config now) :=
  ⟨rfl, fun _ hp => absurd hp List.not_mem_nil, fun hs => by cases hs⟩

/-- **The half-open bound** holds throughout a run exactly when each trial call is admitted with
room beside those left over from earlier half-open periods. -/
theorem halfOpen_bounded_iff (config : CircuitConfig) (hm : 1 ≤ config.halfOpenMaxCalls) (now : ℚ)
    (es : List (Event ℚ)) (hes : ∀ e ∈ es, Plain e) :
    Throughout (step Circuit.gate) Bounded (freshCircuit config now) es ↔
      EachStep (step Circuit.gate) RoomLeft (freshCircuit config now) es := by
  refine throughout_iff (A := Plain) (I := Counted config) (fun s e he h => h.step he)
    (fun s e _ h hb => bounded_step_iff h hb) es _ hes (counted_fresh config now) ?_
  show (0 : ℤ) ≤ config.halfOpenMaxCalls
  omega

/-- One call fails and opens the circuit; after the recovery timeout another is admitted. -/
theorem halfOpen_bounded_iff_probed :
    Throughout (step Circuit.gate) Bounded (freshCircuit { failureThreshold := 1 } 0)
      [.enter, .leave 0 .raised, .wait 60000, .enter] ↔
    EachStep (step Circuit.gate) RoomLeft (freshCircuit { failureThreshold := 1 } 0)
      [.enter, .leave 0 .raised, .wait 60000, .enter] := by
  refine halfOpen_bounded_iff _ (by decide) 0 _ fun e he => ?_
  simp only [List.mem_cons, List.not_mem_nil, or_false] at he
  rcases he with rfl | rfl | rfl | rfl
  · trivial
  · show Ending.raised ≠ .cancelled
    decide
  · trivial
  · trivial

/-- **Two trials at once**: a late failure of a call admitted before the circuit opened ends the
half-open period of the first. -/
theorem two_trials : ¬ Throughout (step Circuit.gate) Bounded
    (freshCircuit { failureThreshold := 1, halfOpenMaxCalls := 1 } 0)
    [.enter, .enter, .leave 0 .raised, .wait 60000, .enter, .leave 0 .raised, .wait 60000,
      .enter] := by
  decide +kernel

/-! ## Lock-out -/

/-- A half-open circuit without calls in flight admits the next call. -/
def NoLockOut (s : CircuitRun) : Prop :=
  s.gate.state = .halfOpen → s.inFlight = [] → Circuit.gate.admits (s.look Circuit.gate).gate

instance : DecidablePred NoLockOut := fun s =>
  inferInstanceAs (Decidable (s.gate.state = .halfOpen → s.inFlight = [] →
    Circuit.gate.admits (s.look Circuit.gate).gate = true))

/-- A call that is cancelled in `HALF_OPEN` as the last one in flight leaves a trial uncounted. -/
def TrialLeft (s : CircuitRun) : Event ℚ → Prop
  | .leave n how => how = .cancelled → s.gate.state = .halfOpen → s.inFlight.length = 1 → n = 0 →
    s.gate.halfOpenCalls < s.gate.config.halfOpenMaxCalls
  | _ => True

/-- In `HALF_OPEN` nobody's look changes anything. -/
theorem look_halfOpen {s : CircuitRun} (hs : s.gate.state = .halfOpen) :
    s.look Circuit.gate = s := by
  refine State.look_eq_self ?_
  rcases Circuit.maybeRecover_cases s.gate s.now with h | ⟨hopen, -⟩
  · exact h
  · rw [hs] at hopen
    cases hopen

theorem noLockOut_iff_calls {s : CircuitRun} : NoLockOut s ↔ (s.gate.state = .halfOpen →
    s.inFlight = [] → s.gate.halfOpenCalls < s.gate.config.halfOpenMaxCalls) := by
  unfold NoLockOut
  refine forall_congr' fun hs => ?_
  rw [look_halfOpen hs, Circuit.gate_admits_halfOpen hs, decide_eq_true_eq]

theorem noLockOut_look {config : CircuitConfig} (hm : 1 ≤ config.halfOpenMaxCalls) {s : CircuitRun}
    (hc : s.gate.config = config) (h : NoLockOut s) : NoLockOut (s.look Circuit.gate) := by
  rw [noLockOut_iff_calls] at h ⊢
  rcases Circuit.maybeRecover_cases s.gate s.now with heq | ⟨-, heq⟩
  · rw [State.look_eq_self heq]
    exact h
  · -- a period begins with no call counted
    intro _ _
    rw [State.look_gate, Circuit.gate_look, heq]
    show 0 < s.gate.config.halfOpenMaxCalls
    rw [hc]
    omega

/-- **One event** locks the circuit exactly when it cancels the last call in flight with all
trials counted. -/
theorem noLockOut_step_iff {config : CircuitConfig} (hm : 1 ≤ config.halfOpenMaxCalls)
    {s : CircuitRun} {e : Event ℚ} (hc : s.gate.config = config) (h : NoLockOut s) :
    NoLockOut (step Circuit.gate s e) ↔ TrialLeft s e := by
  cases e with
  | enter =>
    show NoLockOut (s.enter Circuit.gate) ↔ True
    rw [iff_true]
    cases ha : Circuit.gate.admits (s.look Circuit.gate).gate with
    | false =>
      rw [State.enter_refused ha]
      exact noLockOut_look hm hc h
    | true =>
      rw [State.enter_admitted ha]
      intro _ hnone
      simp at hnone
  | leave n how =>
    show NoLockOut (s.leave Circuit.gate n how) ↔ (how = .cancelled → s.gate.state = .halfOpen →
      s.inFlight.length = 1 → n = 0 → s.gate.halfOpenCalls < s.gate.config.halfOpenMaxCalls)
    cases hn : s.inFlight[n]? with
    | none =>
      rw [State.leave_none hn]
      refine iff_of_true h fun _ _ hone hzero => ?_
      rw [List.getElem?_eq_none_iff] at hn
      omega
    | some k =>
      obtain ⟨hlt, -⟩ := List.getElem?_eq_some_iff.1 hn
      rw [noLockOut_iff_calls, State.leave_some hn]
      cases how with
      | cancelled =>
        -- the count stays, and with the last call gone nobody is left to reset it
        have hlen : (s.inFlight.eraseIdx n).length = s.inFlight.length - 1 :=
          List.length_eraseIdx_of_lt hlt
        show (s.gate.state = .halfOpen → s.inFlight.eraseIdx n = [] → _ < _) ↔ _
        rw [← List.length_eq_zero_iff, hlen]
        constructor
        · intro hall _ hs hone _
          exact hall hs (by omega)
        · intro hall hs hone
          exact hall rfl hs (by omega) (by omega)
      | returned =>
        refine iff_of_true (fun hs => ?_) (by simp)
        exact absurd hs (@Circuit.gate_leave_state s.gate s.now .returned (by decide))
      | raised =>
        refine iff_of_true (fun hs => ?_) (by simp)
        exact absurd hs (@Circuit.gate_leave_state s.gate s.now .raised (by decide))
  | look =>
    show NoLockOut (s.look Circuit.gate) ↔ True
    exact iff_of_true (noLockOut_look hm hc h) trivial
  | wait d =>
    show NoLockOut { s with now := s.now + d } ↔ True
    rw [noLockOut_iff_calls] at h ⊢
    exact iff_of_true h trivial

theorem step_config {s : CircuitRun} (e : Event ℚ) :
    (step Circuit.gate s e).gate.config = s.gate.config := by
  have hlook : (s.look Circuit.gate).gate.config = s.gate.config := by
    rw [State.look_gate, Circuit.gate_look, Circuit.maybeRecover_config]
  cases e with
  | enter =>
    show (s.enter Circuit.gate).gate.config = _
    cases ha : Circuit.gate.admits (s.look Circuit.gate).gate with
    | false => rw [State.enter_refused ha, hlook]
    | true => rw [State.enter_admitted ha, Circuit.gate_entered_config, hlook]
  | leave n how =>
    show (s.leave Circuit.gate n how).gate.config = _
    cases hn : s.inFlight[n]? with
    | none => rw [State.leave_none hn]
    | some k => rw [State.leave_some hn, Circuit.gate_leave_config]
  | look => exact hlook
  | wait d => rfl

/-- **No half-open lock-out** throughout a run exactly when no call is cancelled in `HALF_OPEN` as
the last one in flight with all trials counted. -/
theorem noLockOut_iff (config : CircuitConfig) (hm : 1 ≤ config.halfOpenMaxCalls) (now : ℚ)
    (es : List (Event ℚ)) :
    Throughout (step Circuit.gate) NoLockOut (freshCircuit config now) es ↔
      EachStep (step Circuit.gate) TrialLeft (freshCircuit config now) es := by
  refine throughout_iff (A := fun _ => True) (I := fun s : CircuitRun => s.gate.config = config)
    (fun s e _ h => (step_config e).trans h) (fun s e _ h hb => noLockOut_step_iff hm h hb) es _
    (fun _ _ => trivial) rfl fun hs => ?_
  cases hs

theorem noLockOut_iff_single :
    Throughout (step Circuit.gate) NoLockOut (freshCircuit {} 0) [.enter, .leave 0 .cancelled] ↔
      EachStep (step Circuit.gate) TrialLeft (freshCircuit {} 0)
        [.enter, .leave 0 .cancelled] :=
  noLockOut_iff {} (by decide) 0 _

/-- **Locked out**: the trial call is cancelled. -/
theorem locked_out : ¬ Throughout (step Circuit.gate) NoLockOut
    (freshCircuit { failureThreshold := 1, halfOpenMaxCalls := 1 } 0)
    [.enter, .leave 0 .raised, .wait 60000, .enter, .leave 0 .cancelled] := by
  decide +kernel

end Hermes

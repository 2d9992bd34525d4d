import Hermes.Proof.HalfOpen
import Hermes.Proof.SingleProbe

/-!
# Who ends a half-open period

Both breakers look at their state when a call ends, and not at the state in which
the call was admitted.

* `ownVerdict_iff`, `ownCount_iff`: one event of a circuit, and of a breaker.
* `halfOpen_settled_iff`: in a run `HALF_OPEN` is left through its own trial calls
  only, exactly when no call from before the period brings a verdict in it.
-/

namespace Hermes

open Flight History

theorem Circuit.gate_steady : Circuit.gate.Steady := by
  constructor
  · intro now c hs
    rw [gate_probing, decide_eq_true_eq] at hs ⊢
    rcases maybeRecover_cases c now with h | ⟨hopen, -⟩
    · rw [gate_look, h, hs]
    · rw [hs] at hopen
      cases hopen
  · intro c hs
    rw [gate_probing, decide_eq_true_eq] at hs ⊢
    rw [gate_entered_state, hs]

theorem Breaker.gate_steady : Breaker.gate.Steady := by
  constructor
  · intro now b hs
    rw [gate_probing, decide_eq_true_eq] at hs ⊢
    rcases maybeHalfOpen_cases b now with h | ⟨hopen, -⟩
    · exact (congrArg Breaker.state h).trans hs
    · rw [hs] at hopen
      cases hopen
  · intro b hs
    rw [gate_probing, decide_eq_true_eq] at hs ⊢
    rw [gate_entered_halfOpen hs]
    exact hs

/-! ## Verdicts -/

/-- What the end of a call is to a half-open circuit: any result is a verdict. -/
theorem Circuit.leaves_halfOpen_iff {c : Circuit} {now : ℚ} {how : Ending}
    (hs : c.state = .halfOpen) :
    Circuit.gate.probing (Circuit.gate.leave now how c) = false ↔ how ≠ .cancelled := by
  rw [gate_probing, decide_eq_false_iff_not]
  constructor
  · rintro h rfl
    exact h hs
  · exact gate_leave_state

/-- To a half-open breaker a failure is a verdict, and the success that makes up the threshold. -/
theorem Breaker.leaves_halfOpen_iff {b : Breaker} {now : ℚ} {how : Ending}
    (hs : b.state = .halfOpen) :
    Breaker.gate.probing (Breaker.gate.leave now how b) = false ↔
      how = .raised ∨ (how = .returned ∧ b.policy.successThreshold ≤ b.successCount + 1) := by
  rw [gate_probing, decide_eq_false_iff_not]
  cases how with
  | returned =>
    show (b.onSuccess now).state ≠ .halfOpen ↔ _
    unfold onSuccess
    rw [hs]
    simp only
    split
    · rename_i hmade
      simp [transition, hmade]
    · rename_i hfew
      simp [hfew]
  | raised =>
    show (b.onFailure now).state ≠ .halfOpen ↔ _
    unfold onFailure
    rw [hs]
    simp [transition]
  | cancelled =>
    refine iff_of_false (fun h => h hs) ?_
    simp

/-! ## Runs -/

/-- A call that is not a trial of the current half-open period does not end with a result in it. -/
def OwnVerdict (s : CircuitRun) : Event ℚ → Prop
  | .leave n how => s.gate.state = .halfOpen → how ≠ .cancelled →
    ∀ k, s.inFlight[n]? = some k → k = some s.period
  | _ => True

/-- A call that is not a trial of the current half-open period neither fails in it nor makes up
its successes. -/
def OwnCount (s : BreakerRun) : Event ℚ → Prop
  | .leave n how => s.gate.state = .halfOpen →
    (how = .raised ∨ (how = .returned ∧ s.gate.policy.successThreshold ≤ s.gate.successCount + 1)) →
    ∀ k, s.inFlight[n]? = some k → k = some s.period
  | _ => True

theorem ownVerdict_iff (s : CircuitRun) (e : Event ℚ) : EndsOwn Circuit.gate s e ↔ OwnVerdict s e := by
  rw [endsOwn_iff Circuit.gate_steady]
  cases e with
  | leave n how =>
    constructor
    · intro h hs hhow k hk
      exact h n how rfl k hk (by simpa using hs) ((Circuit.leaves_halfOpen_iff hs).2 hhow)
    · rintro h m how' ⟨⟩ k hk hs hend
      rw [Circuit.gate_probing, decide_eq_true_eq] at hs
      exact h hs ((Circuit.leaves_halfOpen_iff hs).1 hend) k hk
  | _ => exact iff_of_true (fun n how he => by cases he) trivial

theorem ownCount_iff (s : BreakerRun) (e : Event ℚ) : EndsOwn Breaker.gate s e ↔ OwnCount s e := by
  rw [endsOwn_iff Breaker.gate_steady]
  cases e with
  | leave n how =>
    constructor
    · intro h hs hhow k hk
      exact h n how rfl k hk (by simpa using hs) ((Breaker.leaves_halfOpen_iff hs).2 hhow)
    · rintro h m how' ⟨⟩ k hk hs hend
      rw [Breaker.gate_probing, decide_eq_true_eq] at hs
      exact h hs ((Breaker.leaves_halfOpen_iff hs).1 hend) k hk
  | _ => exact iff_of_true (fun n how he => by cases he) trivial

/-- **`HALF_OPEN` is settled by its own trial calls**, in every run of a circuit and of a breaker,
exactly when no call from outside the period brings a verdict in it. -/
theorem halfOpen_settled_iff (config : CircuitConfig) (policy : BreakerPolicy) (now now' : ℚ)
    (es es' : List (Event ℚ)) :
    (EachStep (step Circuit.gate) (EndsOwn Circuit.gate) (freshCircuit config now) es ↔
      EachStep (step Circuit.gate) OwnVerdict (freshCircuit config now) es) ∧
    (EachStep (step Breaker.gate) (EndsOwn Breaker.gate) (freshBreaker policy now') es' ↔
      EachStep (step Breaker.gate) OwnCount (freshBreaker policy now') es') :=
  ⟨eachStep_congr ownVerdict_iff _ _, eachStep_congr ownCount_iff _ _⟩

/-- **A late outcome**: two calls are admitted, the first failure opens the circuit, and the other
comes when the trial is under way; a success closes the breaker in the same way. -/
theorem late_verdicts :
    ¬ EachStep (step Circuit.gate) (EndsOwn Circuit.gate)
        (freshCircuit { failureThreshold := 1 } 0)
        [.enter, .enter, .leave 0 .raised, .wait 60000, .enter, .leave 0 .raised] ∧
      ¬ EachStep (step Breaker.gate) (EndsOwn Breaker.gate)
        (freshBreaker { failureThreshold := 1, successThreshold := 1 } 0)
        [.enter, .enter, .leave 0 .raised, .wait 60, .enter, .leave 0 .returned] := by
  constructor
  · decide +kernel
  · decide +kernel

/-!
## The two breakers agree

A circuit of the resilience engine and a breaker of the same failure threshold and
timeout, which closes on one success, in the same sequential history. The circuit
counts its trial calls and dates its last failure, the breaker has a flag and dates
its opening.

* `Matched`: how the two keep the same thing in different data.
* `Matched.step`: every event of a sequential history keeps them matched.
* `breakers_agree`: the same calls are admitted and the same states reported.
-/

/-- The policy of a breaker with the threshold and the timeout of a circuit. -/
def CircuitConfig.policy (config : CircuitConfig) : BreakerPolicy :=
  { failureThreshold := config.failureThreshold
    recoveryTimeoutSeconds := config.recoveryTimeoutMs / 1000
    successThreshold := 1 }

/-- An event of a clock in milliseconds, on a clock in seconds. -/
def seconds : Event ℚ → Event ℚ
  | .wait d => .wait (d / 1000)
  | e => e

/-- A circuit and a breaker with the same calls. -/
abbrev Breakers := CircuitRun × BreakerRun

def Breakers.step (p : Breakers) (e : Event ℚ) : Breakers :=
  (Flight.step Circuit.gate p.1 e, Flight.step Breaker.gate p.2 (seconds e))

/-- In a sequential history calls do not overlap, none is cancelled, and time goes on. -/
def Sequential (p : Breakers) : Event ℚ → Prop
  | .enter => p.1.inFlight = []
  | .leave _ how => how ≠ .cancelled
  | .look => True
  | .wait d => 0 ≤ d

/-- **Agreement**: the same calls have been admitted, the next one is admitted by both or by
none, and both are in the same state, before and after somebody asks for it. -/
structure Breakers.Agree (p : Breakers) : Prop where
  admitted : p.1.inFlight = p.2.inFlight
  next : p.1.inFlight = [] → Circuit.gate.admits (p.1.look Circuit.gate).gate =
    Breaker.gate.admits (p.2.look Breaker.gate).gate
  state : p.1.gate.state.value = p.2.gate.state.value
  reported : (p.1.look Circuit.gate).gate.state.value = (p.2.look Breaker.gate).gate.state.value

/-! ## The two state machines -/

/-- A circuit at `now` and a breaker at `now'` in the same state, with `n` calls in flight. -/
inductive SameState (now now' : ℚ) (n : ℕ) (c : Circuit) (b : Breaker) : Prop where
  | closed : c.state = .closed → b.state = .closed → c.failureCount = b.failureCount →
    SameState now now' n c b
  | opened {t t' : ℚ} : c.state = .opened → b.state = .opened → c.lastFailure = some t →
    b.openedAt = some t' → now - t = 1000 * (now' - t') → n = 0 → SameState now now' n c b
  | halfOpen : c.state = .halfOpen → b.state = .halfOpen → c.halfOpenCalls = n →
    b.halfOpenInflight = decide (0 < n) → b.successCount = 0 → SameState now now' n c b

structure Matched (config : CircuitConfig) (p : Breakers) : Prop where
  circuit : p.1.gate.config = config
  breaker : p.2.gate.policy = config.policy
  flight : p.1.inFlight = p.2.inFlight
  period : p.1.period = p.2.period
  single : p.1.inFlight.length ≤ 1
  gates : SameState p.1.now p.2.now p.1.inFlight.length p.1.gate p.2.gate

variable {config : CircuitConfig} {p : Breakers} {c : Circuit} {b : Breaker} {now now' : ℚ} {n : ℕ}

theorem SameState.value (h : SameState now now' n c b) : c.state.value = b.state.value := by
  cases h with
  | closed hc hb => rw [hc, hb]; rfl
  | opened hc hb => rw [hc, hb]; rfl
  | halfOpen hc hb => rw [hc, hb]; rfl

theorem SameState.probing (h : SameState now now' n c b) :
    Circuit.gate.probing c = Breaker.gate.probing b := by
  rw [Circuit.gate_probing, Breaker.gate_probing]
  cases h with
  | closed hc hb => rw [hc, hb]; rfl
  | opened hc hb => rw [hc, hb]; rfl
  | halfOpen hc hb => rw [hc, hb]; rfl

instance (p : Breakers) : DecidablePred (Sequential p)
  | .enter => inferInstanceAs (Decidable (p.1.inFlight = []))
  | .leave _ how => inferInstanceAs (Decidable (how ≠ .cancelled))
  | .look => inferInstanceAs (Decidable True)
  | .wait d => inferInstanceAs (Decidable (0 ≤ d))

theorem Breaker.gate_entered_policy : (Breaker.gate.entered b).policy = b.policy := by
  unfold Breaker.gate
  simp only
  split
  · rfl
  · rfl

theorem Breaker.gate_leave_policy (how : Ending) :
    (Breaker.gate.leave now how b).policy = b.policy := by
  cases how with
  | returned =>
    show (b.onSuccess now).policy = b.policy
    unfold onSuccess
    split
    · simp only
      split
      · rfl
      · rfl
    · rfl
  | raised =>
    show (b.onFailure now).policy = b.policy
    unfold onFailure
    split
    · rfl
    · simp only
      split
      · rfl
      · rfl
  | cancelled => rfl

@[simp] theorem Breaker.maybeHalfOpen_policy : (b.maybeHalfOpen now).policy = b.policy := by
  rcases maybeHalfOpen_cases b now with h | ⟨-, h⟩
  · rw [h]
  · rw [h]

/-- **A look**: both timeouts run from the failure that opened them. -/
theorem SameState.look (h : SameState now now' n c b) (hb : b.policy = c.config.policy) :
    SameState now now' n (c.maybeRecover now) (b.maybeHalfOpen now') := by
  cases h with
  | closed hc hb' hcount =>
    rw [show c.maybeRecover now = c by simp [Circuit.maybeRecover, hc],
      show b.maybeHalfOpen now' = b by simp [Breaker.maybeHalfOpen, hb']]
    exact .closed hc hb' hcount
  | @opened t t' hc hb' ht ht' htime hn =>
    have hsame : (c.config.recoveryTimeoutMs : ℚ) ≤ now - t ↔
        b.policy.recoveryTimeoutSeconds ≤ now' - t' := by
      rw [hb]
      unfold CircuitConfig.policy
      simp only
      rw [htime, div_le_iff₀ (by norm_num), mul_comm]
    unfold Circuit.maybeRecover Breaker.maybeHalfOpen
    rw [hc, ht, hb', ht']
    simp only
    by_cases hlate : (c.config.recoveryTimeoutMs : ℚ) ≤ now - t
    · rw [if_pos hlate, if_pos (hsame.1 hlate)]
      exact .halfOpen rfl rfl (by simp [hn]) (by simp [hn]) rfl
    · rw [if_neg hlate, if_neg fun h => hlate (hsame.2 h)]
      exact .opened hc hb' ht ht' htime hn
  | halfOpen hc hb' hcalls hflag hsucc =>
    rw [show c.maybeRecover now = c by simp [Circuit.maybeRecover, hc],
      show b.maybeHalfOpen now' = b by simp [Breaker.maybeHalfOpen, hb']]
    exact .halfOpen hc hb' hcalls hflag hsucc

/-- Both admit the next call, or neither does. -/
theorem SameState.admits (h : SameState now now' 0 c b) (hm : 1 ≤ c.config.halfOpenMaxCalls) :
    Circuit.gate.admits c = Breaker.gate.admits b := by
  unfold Circuit.gate Breaker.gate
  cases h with
  | closed hc hb => simp [hc, hb]
  | opened hc hb => simp [hc, hb]
  | halfOpen hc hb hcalls hflag =>
    simp only [hc, hb, hcalls, hflag]
    simp
    omega

/-- A call is admitted. -/
theorem SameState.entered (h : SameState now now' 0 c b) (ha : Circuit.gate.admits c = true) :
    SameState now now' 1 (Circuit.gate.entered c) (Breaker.gate.entered b) := by
  cases h with
  | closed hc hb hcount =>
    have hce : Circuit.gate.entered c = c := by simp [Circuit.gate, hc]
    rw [hce, Breaker.gate_entered_of_ne (by simp [hb])]
    exact .closed hc hb hcount
  | opened hc hb =>
    rw [show Circuit.gate.admits c = false by simp [Circuit.gate, hc]] at ha
    cases ha
  | halfOpen hc hb hcalls hflag hsucc =>
    have hcount := Circuit.gate_entered_calls hc
    have hstate := Circuit.gate_entered_state (c := c)
    rw [Breaker.gate_entered_halfOpen hb]
    exact .halfOpen (hstate.trans hc) hb (by rw [hcount, hcalls]; rfl) rfl hsucc

/-- **The only call in flight ends** with a result: both count it, open or close. -/
theorem SameState.leave (h : SameState now now' 1 c b) (hb : b.policy = c.config.policy)
    {how : Ending} (hhow : how ≠ .cancelled) :
    SameState now now' 0 (Circuit.gate.leave now how c) (Breaker.gate.leave now' how b) := by
  have hpolicy : b.policy.failureThreshold = c.config.failureThreshold := by rw [hb]; rfl
  have hone : b.policy.successThreshold = 1 := by rw [hb]; rfl
  cases how with
  | cancelled => exact absurd rfl hhow
  | returned =>
    show SameState now now' 0 c.onSuccess (b.onSuccess now')
    unfold Circuit.onSuccess Breaker.onSuccess
    cases h with
    | closed hc hb' hcount =>
      rw [hc, hb']
      exact .closed rfl rfl rfl
    | opened _ _ _ _ _ hn => cases hn
    | halfOpen hc hb' _ _ hsucc =>
      rw [hc, hb']
      simp only [hsucc, hone]
      exact .closed rfl rfl rfl
  | raised =>
    show SameState now now' 0 (c.onFailure now) (b.onFailure now')
    unfold Circuit.onFailure Breaker.onFailure
    cases h with
    | closed hc hb' hcount =>
      rw [hc, hb']
      simp only [hpolicy, ← hcount, and_true]
      split
      · exact .opened rfl rfl rfl rfl (by ring) rfl
      · exact .closed rfl rfl (by simp [hcount])
    | opened _ _ _ _ _ hn => cases hn
    | halfOpen hc hb' =>
      rw [hc, hb']
      exact .opened rfl rfl rfl rfl (by ring) rfl

/-! ## Runs of both -/

theorem Matched.look (h : Matched config p) :
    Matched config (p.1.look Circuit.gate, p.2.look Breaker.gate) := by
  have hgates := h.gates.look (h.breaker.trans (by rw [h.circuit]))
  refine ⟨Circuit.maybeRecover_config.trans h.circuit,
    Breaker.maybeHalfOpen_policy.trans h.breaker, h.flight, ?_, h.single, hgates⟩
  have hbefore := h.gates.probing
  have hafter := hgates.probing
  unfold State.look
  simp only [Circuit.gate_look, h.period]
  rw [hbefore, hafter]
  rfl

theorem Matched.agree (hm : 1 ≤ config.halfOpenMaxCalls) (h : Matched config p) : p.Agree := by
  have hl := h.look
  refine ⟨h.flight, fun hnone => ?_, h.gates.value, hl.gates.value⟩
  have hgates := hl.gates
  rw [show (p.1.look Circuit.gate).inFlight = [] from hnone] at hgates
  exact hgates.admits (by rw [hl.circuit]; exact hm)

/-- A call arrives when none is in flight. -/
theorem Matched.enter (hm : 1 ≤ config.halfOpenMaxCalls) (h : Matched config p)
    (hnone : p.1.inFlight = []) :
    Matched config (p.1.enter Circuit.gate, p.2.enter Breaker.gate) := by
  have hl := h.look
  have hadmits := (h.agree hm).next hnone
  cases ha : Circuit.gate.admits (p.1.look Circuit.gate).gate with
  | false =>
    rw [ha] at hadmits
    rw [State.enter_refused ha, State.enter_refused hadmits.symm]
    exact hl
  | true =>
    rw [ha] at hadmits
    have hgates := hl.gates
    rw [show (p.1.look Circuit.gate).inFlight = [] from hnone] at hgates
    have hnone' : p.2.inFlight = [] := h.flight ▸ hnone
    rw [State.enter_admitted ha, State.enter_admitted hadmits.symm, hnone, hnone',
      show Circuit.gate.probing (p.1.look Circuit.gate).gate = _ from hgates.probing, hl.period]
    refine ⟨Circuit.gate_entered_config.trans hl.circuit, ?_, rfl, hl.period, le_rfl,
      hgates.entered ha⟩
    exact Breaker.gate_entered_policy.trans hl.breaker

theorem Matched.leave (h : Matched config p) (n : ℕ) {how : Ending} (hhow : how ≠ .cancelled) :
    Matched config (p.1.leave Circuit.gate n how, p.2.leave Breaker.gate n how) := by
  cases hn : p.1.inFlight[n]? with
  | none =>
    rw [State.leave_none hn, State.leave_none (h.flight ▸ hn)]
    exact h
  | some k =>
    -- the call that ends is the only one
    have hlt : n < p.1.inFlight.length := (List.getElem?_eq_some_iff.1 hn).1
    have hsingle := h.single
    have hlen : p.1.inFlight.length = 1 := by omega
    have hrest : p.1.inFlight.eraseIdx n = [] := by
      rw [← List.length_eq_zero_iff, List.length_eraseIdx_of_lt hlt, hlen]
    have hgates := h.gates
    rw [hlen] at hgates
    rw [State.leave_some hn, State.leave_some (h.flight ▸ hn), ← h.flight, hrest]
    refine ⟨(Circuit.gate_leave_config how).trans h.circuit,
      (Breaker.gate_leave_policy how).trans h.breaker, rfl, h.period, Nat.zero_le 1, ?_⟩
    exact hgates.leave (h.breaker.trans (by rw [h.circuit])) hhow

/-- **One event** of a sequential history keeps circuit and breaker matched. -/
theorem Matched.step (hm : 1 ≤ config.halfOpenMaxCalls) {e : Event ℚ} (he : Sequential p e)
    (h : Matched config p) : Matched config (p.step e) := by
  cases e with
  | enter => exact h.enter hm he
  | leave n how => exact h.leave n he
  | look => exact h.look
  | wait d =>
    refine ⟨h.circuit, h.breaker, h.flight, h.period, h.single, ?_⟩
    show SameState (p.1.now + d) (p.2.now + d / 1000) p.1.inFlight.length p.1.gate p.2.gate
    cases h.gates with
    | closed hc hb hcount => exact .closed hc hb hcount
    | opened hc hb ht ht' htime hn =>
      refine .opened hc hb ht ht' ?_ hn
      linear_combination htime
    | halfOpen hc hb hcalls hflag hsucc => exact .halfOpen hc hb hcalls hflag hsucc

theorem matched_fresh (config : CircuitConfig) (now now' : ℚ) :
    Matched config (freshCircuit config now, freshBreaker config.policy now') :=
  ⟨rfl, rfl, rfl, rfl, Nat.zero_le 1, .closed rfl rfl rfl⟩

/-- **The two breakers agree** throughout every sequential history. -/
theorem breakers_agree (config : CircuitConfig) (hm : 1 ≤ config.halfOpenMaxCalls) (now now' : ℚ)
    (es : List (Event ℚ))
    (hes : EachStep Breakers.step Sequential
      (freshCircuit config now, freshBreaker config.policy now') es) :
    Throughout Breakers.step Breakers.Agree
      (freshCircuit config now, freshBreaker config.policy now') es :=
  throughout_of_eachStep (fun _ _ he h => h.step hm he) (fun _ h => h.agree hm) es _
    (matched_fresh config now now') hes

/-- A call fails and opens both, the next is refused, and after the timeout one is admitted and
closes them. -/
theorem breakers_agree_recovered :
    Throughout Breakers.step Breakers.Agree
      (freshCircuit { failureThreshold := 1 } 0,
        freshBreaker (CircuitConfig.policy { failureThreshold := 1 }) 0)
      [.enter, .leave 0 .raised, .enter, .wait 60000, .look, .enter, .leave 0 .returned] := by
  refine breakers_agree { failureThreshold := 1 } (by decide) 0 0 _ ?_
  decide +kernel

end Hermes

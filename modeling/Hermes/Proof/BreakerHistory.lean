import Hermes.Proof.BreakersAgree

/-!
# What a breaker's history says

A sequential history of calls on a `CircuitBreaker`, described by what was recorded
of them: the state before and after each call, whether it was admitted and how it
ended.

* `Lawful`: when a call is admitted, and what state it leaves behind, by the calls
  on the same capability before it.
* `Tracks`: counters, timestamp and flag keep what the history says.
* `breaker_history`: every history is lawful, and capabilities do not interfere.
-/

namespace Hermes

open Flight History

/-! ## Calls and their records -/

/-- A call that is awaited from `start` to `finish`, if it is admitted. -/
structure TimedCall where
  capability : String
  start : ℚ
  finish : ℚ
  result : Except Exc Unit

/-- The call ends by success or by an `Exception`. -/
def TimedCall.Ends (c : TimedCall) : Prop := ∀ e, c.result = .error e → e.kind ≠ .cancelled

structure CallRecord where
  call : TimedCall
  before : BreakerState
  admitted : Bool
  after : BreakerState

namespace CallRecord

variable (r : CallRecord)

def ok : Bool := r.call.result.toBool

/-- A failure recorded while `CLOSED`. -/
def failedClosed : Bool := r.before = .closed ∧ r.ok = false

/-- An admitted trial call: the breaker was half-open, or open for long enough. -/
def trial : Bool := r.admitted ∧ r.before ≠ .closed

def trialSuccess : Bool := r.trial ∧ r.ok

/-- The call that opened the breaker, or opened it again. -/
def opens : Bool := r.admitted ∧ r.after = .opened

end CallRecord

/-- The consecutive failures while `CLOSED`, since the last success or close. -/
def closedFailures (h : List CallRecord) : ℕ := trailing CallRecord.failedClosed h

/-- The successive trial successes. -/
def trialSuccesses (h : List CallRecord) : ℕ := trailing CallRecord.trialSuccess h

/-- When the breaker was last opened. -/
def openedAt (h : List CallRecord) : Option ℚ := (lastOf CallRecord.opens h).map (·.call.finish)

/-- The state that a history ends in. -/
def endState (h : List CallRecord) : BreakerState := (h.getLast?.map (·.after)).getD .closed

/-- **What is lawful** for a call after the calls of `h` on its capability. -/
structure Lawful (policy : BreakerPolicy) (h : List CallRecord) (r : CallRecord) : Prop where
  before : r.before = endState h
  closed : r.before = .closed → r.admitted = true ∧
    r.after = if r.ok = false ∧ (closedFailures h + 1 : ℤ) = policy.failureThreshold then .opened
      else .closed
  opened : r.before = .opened → (∃ t, openedAt h = some t ∧
      (r.admitted = false ↔ r.call.start - t < policy.recoveryTimeoutSeconds)) ∧
    (r.admitted = false → r.after = .opened)
  halfOpen : r.before = .halfOpen → r.admitted = true
  trial : r.trial = true → r.after =
    if r.ok = false then .opened
    else if (trialSuccesses h + 1 : ℤ) = policy.successThreshold then .closed else .halfOpen

/-! ## Running a history -/

namespace CircuitBreaker

/-- The record of a call. -/
def recordOf (cb : CircuitBreaker) (c : TimedCall) : CallRecord where
  call := c
  before := (cb.getState c.capability).state
  admitted := (cb.enter c.capability c.start).1.toBool
  after := ((cb.call c.capability c.start c.finish c.result).2.getState c.capability).state

/-- One call, and the records with its own. -/
def stepCall (s : CircuitBreaker × List CallRecord) (c : TimedCall) :
    CircuitBreaker × List CallRecord :=
  ((s.1.call c.capability c.start c.finish c.result).2, s.2 ++ [s.1.recordOf c])

/-- The records of a sequential history on a new breaker. -/
def records (policy : BreakerPolicy) (calls : List TimedCall) : List CallRecord :=
  (calls.foldl stepCall ({ policy }, [])).2

end CircuitBreaker

/-- The records of one capability. -/
def onCapability (k : String) (h : List CallRecord) : List CallRecord :=
  h.filter fun r => r.call.capability = k

/-! ## The breaker of one capability -/

/-- A whole call at the gate of a breaker: whether it is admitted, and what it leaves. -/
def Breaker.during (b : Breaker) (start finish : ℚ) (how : Ending) : Bool × Breaker :=
  let b := Breaker.gate.look start b
  if Breaker.gate.admits b then (true, Breaker.gate.leave finish how (Breaker.gate.entered b))
  else (false, b)

namespace CircuitBreaker

variable (cb : CircuitBreaker) (j k : String) (now : ℚ)

@[simp] theorem getState_put (b : Breaker) : (cb.put k b).getState k = b := by
  unfold getState put
  rw [Dict.get?_insert_self]
  rfl

theorem getState_put_of_ne (hjk : k ≠ j) (b : Breaker) : (cb.put j b).getState k = cb.getState k := by
  unfold getState put
  rw [Dict.get?_insert_of_ne _ hjk]

/-- **`call` up to its `await`** is the gate of the capability's breaker. -/
theorem enter_eq : cb.enter k now =
    let b := Breaker.gate.look now (cb.getState k)
    if Breaker.gate.admits b then (.ok (), cb.put k (Breaker.gate.entered b))
    else (.error (openError k), cb.put k b) := by
  unfold enter Breaker.gate
  simp only
  cases hs : ((cb.getState k).maybeHalfOpen now).state with
  | closed => simp
  | opened => simp
  | halfOpen =>
    simp only
    cases ((cb.getState k).maybeHalfOpen now).halfOpenInflight with
    | false => simp
    | true => simp

/-- **`call` after its `await`.** -/
theorem getState_leave {α : Type} (result : Except Exc α) :
    (cb.leave k now result).getState k =
      Breaker.gate.leave now (Resilience.ending result) (cb.getState k) := by
  unfold leave Resilience.ending Breaker.gate
  cases result with
  | ok a => simp
  | error e =>
    by_cases he : e.kind = .cancelled
    · simp [he]
    · simp [he]

theorem admitted_eq (start finish : ℚ) (how : Ending) :
    (cb.enter k start).1.toBool = ((cb.getState k).during start finish how).1 := by
  rw [enter_eq]
  unfold Breaker.during
  simp only
  split
  · rfl
  · rfl

theorem getState_call {α : Type} (start finish : ℚ) (result : Except Exc α) :
    (cb.call k start finish result).2.getState k =
      ((cb.getState k).during start finish (Resilience.ending result)).2 := by
  unfold call Breaker.during
  rw [enter_eq]
  simp only
  split
  · rename_i hadmits
    split at hadmits
    · cases hadmits
    · rename_i hno
      obtain ⟨-, rfl⟩ := Prod.mk.inj hadmits
      rw [if_neg hno, getState_put]
  · rename_i hadmits
    split at hadmits
    · rename_i hyes
      obtain ⟨-, rfl⟩ := Prod.mk.inj hadmits
      rw [if_pos hyes, getState_leave, getState_put]
    · cases hadmits

/-! ### Other capabilities -/

variable {j k}

theorem getState_enter_of_ne (hjk : k ≠ j) : (cb.enter j now).2.getState k = cb.getState k := by
  rw [enter_eq]
  simp only
  split
  · exact getState_put_of_ne cb j k hjk _
  · exact getState_put_of_ne cb j k hjk _

theorem getState_leave_of_ne {α : Type} (hjk : k ≠ j) (result : Except Exc α) :
    (cb.leave j now result).getState k = cb.getState k := by
  unfold leave
  simp only
  split
  · exact getState_put_of_ne cb j k hjk _
  · split
    · rfl
    · exact getState_put_of_ne cb j k hjk _

theorem getState_state_of_ne (hjk : k ≠ j) : (cb.state j now).2.getState k = cb.getState k := by
  unfold state
  split
  · rfl
  · exact getState_put_of_ne cb j k hjk _

theorem getState_call_of_ne {α : Type} (hjk : k ≠ j) (start finish : ℚ) (result : Except Exc α) :
    (cb.call j start finish result).2.getState k = cb.getState k := by
  have henter := getState_enter_of_ne cb start hjk
  unfold call
  split
  · rename_i hR
    rw [hR] at henter
    exact henter
  · rename_i hR
    rw [hR] at henter
    rw [getState_leave_of_ne _ _ hjk]
    exact henter

end CircuitBreaker

/-! ## The history of one breaker -/

/-- **The data of a breaker** after the calls of `h`. -/
structure Tracks (policy : BreakerPolicy) (b : Breaker) (h : List CallRecord) : Prop where
  own : b.policy = policy
  state : b.state = endState h
  flag : b.halfOpenInflight = false
  closed : b.state = .closed →
    b.failureCount = closedFailures h ∧ b.failureCount < policy.failureThreshold
  opened : b.state = .opened →
    (∃ t, b.openedAt = some t ∧ openedAt h = some t) ∧ trialSuccesses h = 0
  halfOpen : b.state = .halfOpen →
    b.successCount = trialSuccesses h ∧ b.successCount < policy.successThreshold

/-- A call and what became of it, on the breaker of its capability. -/
def Breaker.recordOf (b : Breaker) (c : TimedCall) : CallRecord :=
  let (admitted, b') := b.during c.start c.finish (Resilience.ending c.result)
  ⟨c, b.state, admitted, b'.state⟩

theorem endState_snoc (h : List CallRecord) (r : CallRecord) : endState (h ++ [r]) = r.after := by
  unfold endState
  rw [List.getLast?_concat]
  rfl

theorem openedAt_snoc (h : List CallRecord) (r : CallRecord) :
    openedAt (h ++ [r]) = if r.opens then some r.call.finish else openedAt h := by
  unfold openedAt
  rw [lastOf_snoc]
  split
  · rfl
  · rfl

theorem closedFailures_snoc (h : List CallRecord) (r : CallRecord) :
    closedFailures (h ++ [r]) = if r.failedClosed then closedFailures h + 1 else 0 :=
  trailing_snoc _ _ _

theorem trialSuccesses_snoc (h : List CallRecord) (r : CallRecord) :
    trialSuccesses (h ++ [r]) = if r.trialSuccess then trialSuccesses h + 1 else 0 :=
  trailing_snoc _ _ _

section OneBreaker

variable {policy : BreakerPolicy} {b : Breaker} {h : List CallRecord} {c : TimedCall}

/-- How a call ends, by its result. -/
theorem TimedCall.Ends.cases (hc : c.Ends) :
    (c.result.toBool = true ∧ Resilience.ending c.result = .returned) ∨
      (c.result.toBool = false ∧ Resilience.ending c.result = .raised) := by
  unfold Resilience.ending
  cases hr : c.result with
  | ok a => exact .inl ⟨rfl, rfl⟩
  | error e => exact .inr ⟨rfl, by simp [hc e hr]⟩

/-- What a result does to a closed breaker. -/
theorem leave_closed_ok (hs : b.state = .closed) (finish : ℚ) :
    Breaker.gate.leave finish .returned b = { b with failureCount := 0 } := by
  show b.onSuccess finish = _
  unfold Breaker.onSuccess
  rw [hs]

theorem leave_closed_failed (hs : b.state = .closed) (finish : ℚ) :
    Breaker.gate.leave finish .raised b =
      if b.policy.failureThreshold ≤ b.failureCount + 1 then
        { b with failureCount := b.failureCount + 1, state := .opened, openedAt := some finish
                 successCount := 0 }
      else { b with failureCount := b.failureCount + 1 } := by
  show b.onFailure finish = _
  unfold Breaker.onFailure
  rw [hs]
  rfl

/-- What the result of a trial call does. -/
theorem leave_trial_ok (hs : b.state = .halfOpen) (finish : ℚ) :
    Breaker.gate.leave finish .returned (Breaker.gate.entered b) =
      if b.policy.successThreshold ≤ b.successCount + 1 then
        { b with halfOpenInflight := false, state := .closed, failureCount := 0
                 successCount := 0, openedAt := none }
      else { b with halfOpenInflight := false, successCount := b.successCount + 1 } := by
  rw [Breaker.gate_entered_halfOpen hs]
  show Breaker.onSuccess { b with halfOpenInflight := true } finish = _
  unfold Breaker.onSuccess
  simp only [hs]
  split
  · rfl
  · rfl

theorem leave_trial_failed (hs : b.state = .halfOpen) (finish : ℚ) :
    Breaker.gate.leave finish .raised (Breaker.gate.entered b) =
      { b with halfOpenInflight := false, state := .opened, openedAt := some finish
               successCount := 0 } := by
  rw [Breaker.gate_entered_halfOpen hs]
  show Breaker.onFailure { b with halfOpenInflight := true } finish = _
  unfold Breaker.onFailure
  simp only [hs]
  rfl

/-- **A call on a closed breaker.** -/
theorem Tracks.call_closed (hf : 1 ≤ policy.failureThreshold) (hb : Tracks policy b h) (hc : c.Ends)
    (hs : b.state = .closed) :
    Lawful policy h (b.recordOf c) ∧
      Tracks policy (b.during c.start c.finish (Resilience.ending c.result)).2
        (h ++ [b.recordOf c]) := by
  obtain rfl := hb.own
  obtain ⟨hcount, hlt⟩ := hb.closed hs
  have hduring : ∀ how, b.during c.start c.finish how =
      (true, Breaker.gate.leave c.finish how b) := by
    intro how
    have hlook : Breaker.gate.look c.start b = b := by
      simp [Breaker.gate, Breaker.maybeHalfOpen, hs]
    have hadmits : Breaker.gate.admits b = true := by simp [Breaker.gate, hs]
    unfold Breaker.during
    simp only [hlook, hadmits, if_true]
    rw [Breaker.gate_entered_of_ne (by simp [hs])]
  have hbefore : BreakerState.closed = endState h := hs ▸ hb.state
  unfold Breaker.recordOf
  rw [hduring]
  simp only [hs]
  rcases hc.cases with ⟨hok, hend⟩ | ⟨hok, hend⟩
  · rw [hend, leave_closed_ok hs]
    refine ⟨⟨hbefore, fun _ => ⟨rfl, ?_⟩, by simp, by simp, by simp [CallRecord.trial]⟩, ?_⟩
    · simp [CallRecord.ok, hok, hs]
    · refine ⟨rfl, ?_, hb.flag, fun _ => ?_, fun hopen => ?_, fun hhalf => ?_⟩
      · rw [endState_snoc]
      · rw [closedFailures_snoc]
        simp only [CallRecord.failedClosed, CallRecord.ok, hok]
        exact ⟨by simp, Int.lt_of_lt_of_le (by decide) hf⟩
      · cases hs.symm.trans hopen
      · cases hs.symm.trans hhalf
  · rw [hend, leave_closed_failed hs]
    by_cases hmade : b.policy.failureThreshold ≤ b.failureCount + 1
    · -- the failure that makes up the threshold
      have heq : (closedFailures h + 1 : ℤ) = b.policy.failureThreshold := by omega
      rw [if_pos hmade]
      refine ⟨⟨hbefore, fun _ => ⟨rfl, ?_⟩, by simp, by simp, by simp [CallRecord.trial]⟩, ?_⟩
      · simp [CallRecord.ok, hok, heq]
      · refine ⟨rfl, ?_, hb.flag, fun hcl => (by cases hcl), fun _ => ⟨⟨c.finish, rfl, ?_⟩, ?_⟩,
          fun hhalf => (by cases hhalf)⟩
        · rw [endState_snoc]
        · rw [openedAt_snoc]
          simp [CallRecord.opens]
        · rw [trialSuccesses_snoc]
          simp [CallRecord.trialSuccess, CallRecord.trial]
    · have hne : ¬ (closedFailures h + 1 : ℤ) = b.policy.failureThreshold := by omega
      rw [if_neg hmade]
      refine ⟨⟨hbefore, fun _ => ⟨rfl, ?_⟩, by simp, by simp, by simp [CallRecord.trial]⟩, ?_⟩
      · simp [hne, hs]
      · refine ⟨rfl, ?_, hb.flag, fun _ => ?_, fun hopen => ?_, fun hhalf => ?_⟩
        · rw [endState_snoc]
        · rw [closedFailures_snoc]
          simp only [CallRecord.failedClosed, CallRecord.ok, hok]
          refine ⟨by simp [hcount], ?_⟩
          show b.failureCount + 1 < _
          omega
        · cases hs.symm.trans hopen
        · cases hs.symm.trans hhalf

/-- **A trial call**: `b` is the breaker after the look of the call, and `r` its record. -/
theorem trial_tracks {r : CallRecord} (hp : b.policy = policy) (hs : b.state = .halfOpen)
    (hcount : b.successCount = trialSuccesses h) (hlt : b.successCount < policy.successThreshold)
    (hf : 1 ≤ policy.failureThreshold) (hc : r.call.Ends) (hbefore : r.before ≠ .closed)
    (hadmitted : r.admitted = true)
    (hafter : r.after = (Breaker.gate.leave r.call.finish (Resilience.ending r.call.result)
      (Breaker.gate.entered b)).state) :
    (r.after = if r.ok = false then .opened
      else if (trialSuccesses h + 1 : ℤ) = policy.successThreshold then .closed else .halfOpen) ∧
    Tracks policy (Breaker.gate.leave r.call.finish (Resilience.ending r.call.result)
      (Breaker.gate.entered b)) (h ++ [r]) := by
  have hend := endState_snoc h r
  subst hp
  rcases hc.cases with ⟨hok, hhow⟩ | ⟨hok, hhow⟩
  · rw [hhow, leave_trial_ok hs] at hafter ⊢
    have hsuccess : trialSuccesses (h ++ [r]) = trialSuccesses h + 1 := by
      rw [trialSuccesses_snoc]
      simp [CallRecord.trialSuccess, CallRecord.trial, CallRecord.ok, hok, hadmitted, hbefore]
    by_cases hmade : b.policy.successThreshold ≤ b.successCount + 1
    · -- the success that makes up the threshold
      have heq : (trialSuccesses h + 1 : ℤ) = b.policy.successThreshold := by omega
      rw [if_pos hmade] at hafter ⊢
      refine ⟨by simp [hafter, CallRecord.ok, hok, heq], ?_⟩
      refine ⟨rfl, by rw [hend, hafter], rfl, fun _ => ⟨?_, ?_⟩, fun hopen => (by cases hopen),
        fun hhalf => (by cases hhalf)⟩
      · rw [closedFailures_snoc]
        simp [CallRecord.failedClosed, hbefore]
      · show (0 : ℤ) < b.policy.failureThreshold
        omega
    · have hne : ¬ (trialSuccesses h + 1 : ℤ) = b.policy.successThreshold := by omega
      rw [if_neg hmade] at hafter ⊢
      refine ⟨by simp [hafter, CallRecord.ok, hok, hne, hs], ?_⟩
      refine ⟨rfl, by rw [hend, hafter], rfl, fun hcl => ?_, fun hopen => ?_, fun _ => ⟨?_, ?_⟩⟩
      · cases hs.symm.trans hcl
      · cases hs.symm.trans hopen
      · rw [hsuccess, hcount]
        simp
      · show b.successCount + 1 < b.policy.successThreshold
        omega
  · rw [hhow, leave_trial_failed hs] at hafter ⊢
    refine ⟨by simp [hafter, CallRecord.ok, hok], ?_⟩
    refine ⟨rfl, by rw [hend, hafter], rfl, fun hcl => (by cases hcl),
      fun _ => ⟨⟨r.call.finish, rfl, ?_⟩, ?_⟩, fun hhalf => (by cases hhalf)⟩
    · rw [openedAt_snoc]
      simp [CallRecord.opens, hadmitted, hafter]
    · rw [trialSuccesses_snoc]
      simp [CallRecord.trialSuccess, CallRecord.ok, hok]

/-- **A call on a half-open breaker** is a trial call. -/
theorem Tracks.call_halfOpen (hf : 1 ≤ policy.failureThreshold) (hb : Tracks policy b h)
    (hc : c.Ends) (hs : b.state = .halfOpen) :
    Lawful policy h (b.recordOf c) ∧
      Tracks policy (b.during c.start c.finish (Resilience.ending c.result)).2
        (h ++ [b.recordOf c]) := by
  obtain ⟨hcount, hlt⟩ := hb.halfOpen hs
  have hduring : ∀ how, b.during c.start c.finish how =
      (true, Breaker.gate.leave c.finish how (Breaker.gate.entered b)) := by
    intro how
    have hlook : Breaker.gate.look c.start b = b := by
      simp [Breaker.gate, Breaker.maybeHalfOpen, hs]
    have hadmits : Breaker.gate.admits b = true := by
      rw [Breaker.gate_admits_halfOpen hs, hb.flag]
      rfl
    unfold Breaker.during
    simp only [hlook, hadmits, if_true]
  obtain ⟨hafter, htracks⟩ := trial_tracks (r := b.recordOf c) hb.own hs hcount hlt hf hc
    (by simp [Breaker.recordOf, hs]) (by simp [Breaker.recordOf, hduring])
    (by simp [Breaker.recordOf, hduring])
  refine ⟨⟨hb.state, fun hcl => ?_, fun hopen => ?_, fun _ => ?_, fun _ => hafter⟩, ?_⟩
  · cases hs.symm.trans hcl
  · cases hs.symm.trans hopen
  · simp [Breaker.recordOf, hduring]
  · rw [hduring]
    exact htracks

/-- An open breaker whose timeout is over makes a trial call. -/
theorem Tracks.call_timedOut (hf : 1 ≤ policy.failureThreshold) (hs₁ : 1 ≤ policy.successThreshold)
    (hb : Tracks policy b h) (hc : c.Ends) (hs : b.state = .opened) {t : ℚ} (ht : b.openedAt = some t)
    (hopened : openedAt h = some t) (hlate : b.policy.recoveryTimeoutSeconds ≤ c.start - t) :
    Lawful policy h (b.recordOf c) ∧
      Tracks policy (b.during c.start c.finish (Resilience.ending c.result)).2
        (h ++ [b.recordOf c]) := by
  set b₁ : Breaker := { b with state := .halfOpen, successCount := 0, halfOpenInflight := false }
    with hb₁
  have hduring : ∀ how, b.during c.start c.finish how =
      (true, Breaker.gate.leave c.finish how (Breaker.gate.entered b₁)) := by
    intro how
    have hlook : Breaker.gate.look c.start b = b₁ := by
      show b.maybeHalfOpen c.start = b₁
      unfold Breaker.maybeHalfOpen
      split
      · rename_i t' _ ht'
        obtain rfl := Option.some.inj (ht.symm.trans ht')
        exact if_pos hlate
      · rename_i hother
        exact absurd ht (hother t hs)
    have hadmits : Breaker.gate.admits b₁ = true := rfl
    unfold Breaker.during
    simp only [hlook, hadmits, if_true]
  -- the successes of trial calls were set to zero when the breaker opened
  have hnone : trialSuccesses h = 0 := (hb.opened hs).2
  obtain ⟨hafter, htracks⟩ := trial_tracks (b := b₁) (r := b.recordOf c) hb.own rfl
    (by rw [hnone]; rfl) hs₁ hf hc (by simp [Breaker.recordOf, hs])
    (by simp [Breaker.recordOf, hduring]) (by simp [Breaker.recordOf, hduring])
  refine ⟨⟨hb.state, fun hcl => ?_, fun _ => ⟨⟨t, hopened, ?_⟩, ?_⟩, fun hhalf => ?_,
    fun _ => hafter⟩, ?_⟩
  · cases hs.symm.trans hcl
  · rw [hb.own] at hlate
    simp only [Breaker.recordOf, hduring]
    simpa using hlate
  · simp [Breaker.recordOf, hduring]
  · cases hs.symm.trans hhalf
  · rw [hduring]
    exact htracks

/-- An open breaker refuses a call before its timeout is over, and stays as it is. -/
theorem Tracks.call_refused (hb : Tracks policy b h) (hs : b.state = .opened) {t : ℚ}
    (ht : b.openedAt = some t) (hopened : openedAt h = some t)
    (hlate : ¬b.policy.recoveryTimeoutSeconds ≤ c.start - t) :
    Lawful policy h (b.recordOf c) ∧
      Tracks policy (b.during c.start c.finish (Resilience.ending c.result)).2
        (h ++ [b.recordOf c]) := by
  have hduring : ∀ how, b.during c.start c.finish how = (false, b) := by
    intro how
    have hlook : Breaker.gate.look c.start b = b := by
      show b.maybeHalfOpen c.start = b
      unfold Breaker.maybeHalfOpen
      rw [hs, ht]
      exact if_neg hlate
    have hadmits : Breaker.gate.admits b = false := by simp [Breaker.gate, hs]
    unfold Breaker.during
    simp only [hlook, hadmits]
    rfl
  have hnone : trialSuccesses h = 0 := (hb.opened hs).2
  unfold Breaker.recordOf
  rw [hduring]
  simp only [hs]
  refine ⟨⟨hs ▸ hb.state, by simp, fun _ => ⟨⟨t, hopened, ?_⟩, fun _ => rfl⟩, by simp,
    by simp [CallRecord.trial]⟩, ?_⟩
  · rw [hb.own] at hlate
    simpa using hlate
  · refine ⟨hb.own, by rw [endState_snoc, hs], hb.flag, fun hcl => ?_,
      fun _ => ⟨⟨t, ht, ?_⟩, ?_⟩, fun hhalf => ?_⟩
    · cases hs.symm.trans hcl
    · rw [openedAt_snoc]
      simpa [CallRecord.opens] using hopened
    · rw [trialSuccesses_snoc]
      simp [CallRecord.trialSuccess, CallRecord.trial]
    · cases hs.symm.trans hhalf

/-- **A call on an open breaker** is refused, or a trial call when the timeout is over. -/
theorem Tracks.call_opened (hf : 1 ≤ policy.failureThreshold) (hs₁ : 1 ≤ policy.successThreshold)
    (hb : Tracks policy b h) (hc : c.Ends) (hs : b.state = .opened) :
    Lawful policy h (b.recordOf c) ∧
      Tracks policy (b.during c.start c.finish (Resilience.ending c.result)).2
        (h ++ [b.recordOf c]) := by
  obtain ⟨⟨t, ht, hopened⟩, -⟩ := hb.opened hs
  by_cases hlate : b.policy.recoveryTimeoutSeconds ≤ c.start - t
  · exact hb.call_timedOut hf hs₁ hc hs ht hopened hlate
  · exact hb.call_refused hs ht hopened hlate

theorem Tracks.call (hf : 1 ≤ policy.failureThreshold) (hs : 1 ≤ policy.successThreshold)
    (hb : Tracks policy b h) (hc : c.Ends) :
    Lawful policy h (b.recordOf c) ∧
      Tracks policy (b.during c.start c.finish (Resilience.ending c.result)).2
        (h ++ [b.recordOf c]) := by
  cases hstate : b.state with
  | closed => exact hb.call_closed hf hc hstate
  | opened => exact hb.call_opened hf hs hc hstate
  | halfOpen => exact hb.call_halfOpen hf hc hstate

end OneBreaker

/-! ## Histories -/

namespace CircuitBreaker

/-- The records of each capability are lawful, and its breaker tracks them. -/
def Kept (policy : BreakerPolicy) (s : CircuitBreaker × List CallRecord) : Prop :=
  s.1.policy = policy ∧ ∀ k, Always (Lawful policy) (onCapability k s.2) ∧
    Tracks policy (s.1.getState k) (onCapability k s.2)

theorem recordOf_eq (cb : CircuitBreaker) (c : TimedCall) :
    cb.recordOf c = (cb.getState c.capability).recordOf c := by
  unfold recordOf Breaker.recordOf
  rw [admitted_eq cb c.capability c.start c.finish (Resilience.ending c.result), getState_call]

theorem call_policy {α : Type} (cb : CircuitBreaker) (k : String) (start finish : ℚ)
    (result : Except Exc α) : (cb.call k start finish result).2.policy = cb.policy := by
  have hleave : ∀ cb' : CircuitBreaker, (cb'.leave k finish result).policy = cb'.policy := by
    intro cb'
    unfold leave
    simp only
    split
    · rfl
    · split
      · rfl
      · rfl
  have henter : (cb.enter k start).2.policy = cb.policy := by
    rw [enter_eq]
    simp only
    split
    · rfl
    · rfl
  unfold call
  split
  · rename_i hR
    rw [hR] at henter
    exact henter
  · rename_i hR
    rw [hR] at henter
    exact (hleave _).trans henter

theorem onCapability_snoc (k : String) (h : List CallRecord) (r : CallRecord) :
    onCapability k (h ++ [r]) =
      if r.call.capability = k then onCapability k h ++ [r] else onCapability k h := by
  unfold onCapability
  rw [List.filter_append]
  split
  · rename_i hk
    simp [hk]
  · rename_i hk
    simp [hk]

/-- **One call** keeps every capability's history lawful. -/
theorem Kept.step {policy : BreakerPolicy} (hf : 1 ≤ policy.failureThreshold)
    (hs : 1 ≤ policy.successThreshold) {s : CircuitBreaker × List CallRecord}
    (h : Kept policy s) {c : TimedCall} (hc : c.Ends) : Kept policy (stepCall s c) := by
  obtain ⟨hp, hall⟩ := h
  refine ⟨(call_policy _ _ _ _ _).trans hp, fun k => ?_⟩
  obtain ⟨hlawful, htracks⟩ := hall k
  unfold stepCall
  simp only
  rw [onCapability_snoc, show (s.1.recordOf c).call.capability = c.capability from rfl]
  by_cases hk : c.capability = k
  · subst hk
    obtain ⟨hnew, htracks'⟩ := htracks.call hf hs hc
    rw [if_pos rfl, recordOf_eq, getState_call]
    exact ⟨always_snoc.2 ⟨hlawful, hnew⟩, htracks'⟩
  · rw [if_neg hk, getState_call_of_ne s.1 (Ne.symm hk)]
    exact ⟨hlawful, htracks⟩

theorem kept_new (policy : BreakerPolicy) (hf : 1 ≤ policy.failureThreshold) :
    Kept policy ({ policy }, []) := by
  refine ⟨rfl, fun k => ⟨always_nil, rfl, rfl, rfl, fun _ => ⟨rfl, ?_⟩,
    fun hopen => (by cases hopen), fun hhalf => (by cases hhalf)⟩⟩
  show (0 : ℤ) < policy.failureThreshold
  omega

end CircuitBreaker

/-- **Every sequential history of calls is lawful** on each capability, and what is done on one
capability never changes the breaker of another. -/
theorem breaker_history (policy : BreakerPolicy) (hf : 1 ≤ policy.failureThreshold)
    (hs : 1 ≤ policy.successThreshold) (calls : List TimedCall) (hcalls : ∀ c ∈ calls, c.Ends) :
    (∀ k, Always (Lawful policy) (onCapability k (CircuitBreaker.records policy calls))) ∧
      ∀ (cb : CircuitBreaker) (j k : String), k ≠ j → ∀ (now : ℚ) (result : Except Exc Unit),
        (cb.enter j now).2.getState k = cb.getState k ∧
          (cb.leave j now result).getState k = cb.getState k ∧
          (cb.state j now).2.getState k = cb.getState k := by
  constructor
  · have hkept : CircuitBreaker.Kept policy (calls.foldl CircuitBreaker.stepCall ({ policy }, [])) := by
      refine run_invariant_of_mem _ _ calls (fun s c hc h => h.step hf hs (hcalls c hc)) _
        (CircuitBreaker.kept_new policy hf)
    exact fun k => (hkept.2 k).1
  · intro cb j k hjk now result
    exact ⟨cb.getState_enter_of_ne now hjk, cb.getState_leave_of_ne now hjk result,
      cb.getState_state_of_ne now hjk⟩

/-- A failure opens the breaker, a call is refused, two trial calls close it. -/
theorem breaker_history_recovered :
    Always (Lawful { failureThreshold := 1 })
      (onCapability "c" (CircuitBreaker.records { failureThreshold := 1 }
        [⟨"c", 0, 1, .error ⟨.runtimeError, "boom"⟩⟩, ⟨"c", 2, 3, .ok ()⟩, ⟨"c", 61, 62, .ok ()⟩,
          ⟨"c", 63, 64, .ok ()⟩])) := by
  refine (breaker_history { failureThreshold := 1 } (by decide) (by decide) _ ?_).1 "c"
  intro c hc e he
  simp only [List.mem_cons, List.not_mem_nil, or_false] at hc
  rcases hc with rfl | rfl | rfl | rfl
  · cases he
    decide
  · cases he
  · cases he
  · cases he

end Hermes

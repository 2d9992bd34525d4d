import Hermes.Lib.Tries
import Hermes.Spec.Resilience

/-!
# Retries over any stream of outcomes

`ResilienceEngine.retry` with an awaitable for each call, each of which returns or raises.

* `RetryEntry`, `fromStream`: what is seen of a run over a stream of outcomes.
* `Ends`: the outcomes after which there is no other call.
* `roundAt`, `verdict`: what a call leaves behind, and what the last one amounts to.
* `retryFrom_tries`: the loop makes calls until an outcome ends it, or as many as it may.
* `retry_spec`: a whole run.
-/

namespace Hermes

variable {α : Type}

/-- A call of the factory, or what is done between the calls and after them. -/
inductive RetryEntry where
  | call
  | effect (e : RetryEffect)
  deriving DecidableEq, Repr

def RetryEntry.isCall : RetryEntry → Bool
  | .call => true
  | .effect _ => false

/-- An effect is seen. -/
def seen (e : RetryEffect) (trace : List RetryEntry) : List RetryEntry := trace ++ [.effect e]

/-- The factory whose calls come out like this, one after the other. -/
def fromStream (outcomes : ℕ → Except PyExc α) (trace : List RetryEntry) :
    Except PyExc α × List RetryEntry :=
  (outcomes (trace.countP RetryEntry.isCall), trace ++ [.call])

namespace ResilienceRetryPolicy

/-- The allow-list, if there is one, has no name of the exception. -/
def Misses (pol : ResilienceRetryPolicy) (e : PyExc) : Prop :=
  pol.retryableExceptions ≠ [] ∧ ∀ name ∈ e.mro, name ∉ pol.retryableExceptions

/-- No call follows this outcome. -/
def Ends (pol : ResilienceRetryPolicy) : Except PyExc α → Prop
  | .ok _ => True
  | .error e => e.isException = false ∨ pol.Misses e

theorem isRetryable_false_iff (pol : ResilienceRetryPolicy) (e : PyExc) :
    pol.isRetryable e = false ↔ pol.Misses e := by
  unfold isRetryable Misses
  rw [decide_eq_false_iff_not, not_or]
  refine and_congr_right fun _ => ?_
  simp

end ResilienceRetryPolicy

section

variable (pol : ResilienceRetryPolicy) (taskId : Option String) (tid : String)

/-- `f"{type(exc).__name__}: {exc}"`, of a call that raised. -/
def lastError : Except PyExc α → String
  | .ok _ => ""
  | .error e => e.name ++ ": " ++ e.text

/-- What is seen between the `k + 1`-th call and the next: one event, and one sleep. -/
def between (outcomes : ℕ → Except PyExc α) (k : ℕ) : List RetryEntry :=
  let backoffMs := min (pol.backoffBaseMs * 2 ^ k) pol.maxBackoffMs
  [.effect (.attempted tid (k + 1) backoffMs (lastError (outcomes k))),
    .effect (.metric "res.retry_attempted"),
    .effect (.putRetry tid (k + 1) backoffMs (lastError (outcomes k))),
    .effect (.sleep (backoffMs / 1000))]

/-- What is seen after the last call, the `k + 1`-th: one event, if it raised an `Exception`. -/
def closing (outcomes : ℕ → Except PyExc α) (k : ℕ) : List RetryEntry :=
  match outcomes k with
  | .ok _ => []
  | .error e =>
    if e.isException then
      [.effect (.exhausted tid (k + 1) (lastError (outcomes k))),
        .effect (.metric "res.retry_exhausted")]
    else []

/-- The `k + 1`-th call and what is seen after it, in a run of `n` calls. -/
def roundAt (outcomes : ℕ → Except PyExc α) (n k : ℕ) : List RetryEntry :=
  .call :: if k + 1 < n then between pol tid outcomes k else closing tid outcomes k

/-- What a run of `n` calls returns or raises. -/
def verdict (outcomes : ℕ → Except PyExc α) (n : ℕ) : Except PyExc α :=
  match outcomes (n - 1) with
  | .ok result => .ok result
  | .error e =>
    if e.isException then .error (retryExhaustedError taskId n (lastError (outcomes (n - 1))))
    else .error e

end

variable {pol : ResilienceRetryPolicy} {taskId : Option String} {tid : String}
  {outcomes : ℕ → Except PyExc α}

/-! ## One call after the other -/

theorem backOff_seen (k : ℕ) (e : PyExc) (he : outcomes k = .error e) (trace : List RetryEntry) :
    backOff seen pol tid (k + 1) (e.name ++ ": " ++ e.text) trace =
      trace ++ between pol tid outcomes k := by
  have hbackoff : pol.backoffFor (k + 1) = min (pol.backoffBaseMs * 2 ^ k) pol.maxBackoffMs := by
    unfold ResilienceRetryPolicy.backoffFor
    simp
  unfold backOff between
  simp only [hbackoff, he, lastError, seen, List.append_assoc, List.cons_append, List.nil_append]

/-- There is no call in what is seen between two. -/
theorem countP_between (k : ℕ) : (between pol tid outcomes k).countP RetryEntry.isCall = 0 := rfl

/-- The last call, after which there is nothing but one event. -/
theorem retryFrom_last (left k : ℕ) (err : String) (trace : List RetryEntry)
    (hcalls : trace.countP RetryEntry.isCall = k) (hmax : pol.maxAttempts = k + (left + 1 : ℕ))
    (hlast : pol.Ends (outcomes k) ∨ left = 0) :
    retryFrom seen pol taskId tid (fromStream outcomes) (k + 1) (left + 1) err trace =
      (verdict taskId outcomes (k + 1),
        trace ++ (List.range' k 1).flatMap (roundAt pol tid outcomes (k + 1))) := by
  have hround : (List.range' k 1).flatMap (roundAt pol tid outcomes (k + 1)) =
      .call :: closing tid outcomes k := by
    simp [roundAt]
  rw [hround]
  unfold retryFrom
  simp only [fromStream, hcalls]
  cases hk : outcomes k with
  | ok result => simp [verdict, closing, hk]
  | error e =>
    cases hexc : e.isException with
    | false => simp [verdict, closing, hk, hexc]
    | true =>
      have hstop : pol.isRetryable e = false ∨ pol.maxAttempts ≤ ((k + 1 : ℕ) : ℤ) := by
        rcases hlast with hends | rfl
        · left
          rw [hk] at hends
          refine (pol.isRetryable_false_iff e).2 (hends.resolve_left fun hnot => ?_)
          rw [hexc] at hnot
          cases hnot
        · right
          omega
      simp only [if_pos hstop]
      simp [verdict, closing, hk, hexc, seen, lastError]

variable (taskId) in
/-- A call after which there is another. -/
theorem retryFrom_next (left k : ℕ) (err : String) (trace : List RetryEntry)
    (hcalls : trace.countP RetryEntry.isCall = k)
    (hmax : pol.maxAttempts = k + (left + 1 + 1 : ℕ)) (hopen : ¬ pol.Ends (outcomes k)) :
    ∃ err', retryFrom seen pol taskId tid (fromStream outcomes) (k + 1) (left + 1 + 1) err trace =
      retryFrom seen pol taskId tid (fromStream outcomes) (k + 1 + 1) (left + 1) err'
        (trace ++ .call :: between pol tid outcomes k) := by
  cases hk : outcomes k with
  | ok result =>
    rw [hk] at hopen
    exact absurd trivial hopen
  | error e =>
    rw [hk] at hopen
    obtain ⟨hexc, hhit⟩ := not_or.1 hopen
    have hgoes : ¬ (pol.isRetryable e = false ∨ pol.maxAttempts ≤ ((k + 1 : ℕ) : ℤ)) := by
      rintro (hmiss | hle)
      · exact hhit ((pol.isRetryable_false_iff e).1 hmiss)
      · omega
    refine ⟨e.name ++ ": " ++ e.text, ?_⟩
    conv_lhs => unfold retryFrom
    simp only [fromStream, hcalls, hk]
    rw [if_pos (Bool.eq_true_of_not_eq_false hexc), if_neg hgoes, backOff_seen k e hk]
    simp only [List.append_assoc, List.singleton_append]

variable (pol taskId tid outcomes) in
/-- **The loop** makes calls until an outcome ends it, or as many as are left. -/
theorem retryFrom_tries (left k : ℕ) (err : String) (trace : List RetryEntry)
    (hcalls : trace.countP RetryEntry.isCall = k) (hmax : pol.maxAttempts = k + (left + 1 : ℕ)) :
    ∃ n, Tries (fun i => pol.Ends (outcomes (k + i))) (left + 1) n ∧
      retryFrom seen pol taskId tid (fromStream outcomes) (k + 1) (left + 1) err trace =
        (verdict taskId outcomes (k + n),
          trace ++ (List.range' k n).flatMap (roundAt pol tid outcomes (k + n))) := by
  induction left generalizing k err trace with
  | zero => exact ⟨1, .single, retryFrom_last 0 k err trace hcalls hmax (.inr rfl)⟩
  | succ left ih =>
    by_cases hends : pol.Ends (outcomes k)
    · exact ⟨1, .decided hends, retryFrom_last (left + 1) k err trace hcalls hmax (.inl hends)⟩
    · obtain ⟨err', hnext⟩ := retryFrom_next taskId left k err trace hcalls hmax hends
      have hcalls' : (trace ++ .call :: between pol tid outcomes k).countP RetryEntry.isCall =
          k + 1 := by
        rw [List.countP_append, List.countP_cons, countP_between, hcalls]
        rfl
      obtain ⟨n, htries, hrun⟩ := ih (k + 1) err' _ hcalls' (by omega)
      have hpos := htries.pos
      have hshift : ∀ i, k + 1 + i = k + (i + 1) := by omega
      simp only [hshift] at htries
      refine ⟨n + 1, .next hends htries, ?_⟩
      have hround : roundAt pol tid outcomes (k + (n + 1)) k =
          .call :: between pol tid outcomes k := by
        have hlt : k + 1 < k + (n + 1) := by omega
        unfold roundAt
        rw [if_pos hlt]
      rw [hnext, hrun, hshift n, List.range'_succ, List.flatMap_cons, hround, List.append_assoc]

/-- **The calls of a run**: they end with the first that returns, the first that raises what the
allow-list does not name or what is no `Exception`, or with as many as the policy has attempts.
Between a call and the next there is one event, and one sleep of the capped delay. What the last call
returns is returned. Of what it raises there is one event and an error with the number of calls, but
what is no `Exception` is raised as it is. -/
theorem retry_spec (outcomes : ℕ → Except PyExc α) (policy : Option ResilienceRetryPolicy)
    (taskId : Option String) (uuid : String) (hmax : 1 ≤ (policy.getD {}).maxAttempts) :
    ∃ n, Tries (fun k => (policy.getD {}).Ends (outcomes k)) (policy.getD {}).maxAttempts.toNat n ∧
      retry seen taskId (fromStream outcomes) policy uuid [] =
        (verdict taskId outcomes n, (List.range n).flatMap
          (roundAt (policy.getD {}) (orElse taskId uuid) outcomes n)) := by
  obtain ⟨left, hleft⟩ : ∃ left, (policy.getD {}).maxAttempts.toNat = left + 1 :=
    ⟨(policy.getD {}).maxAttempts.toNat - 1, by omega⟩
  obtain ⟨n, htries, hrun⟩ := retryFrom_tries (policy.getD {}) taskId
    (orElse taskId uuid) outcomes left 0 "" [] rfl (by omega)
  simp only [Nat.zero_add, List.nil_append, ← List.range_eq_range'] at htries hrun
  refine ⟨n, hleft ▸ htries, ?_⟩
  rw [← hrun, ← hleft]
  rfl

/-- Two attempts, of which none succeeds. -/
theorem retry_spec_two : ∃ n, Tries (fun k => ResilienceRetryPolicy.Ends { maxAttempts := 2 }
      ((fun _ => .error (runtimeSubclass "RuntimeError" "down") : ℕ → Except PyExc Unit) k)) 2 n ∧
    retry seen none (fromStream fun _ => (.error (runtimeSubclass "RuntimeError" "down") :
        Except PyExc Unit)) (some { maxAttempts := 2 }) "id" [] =
      (verdict none (fun _ => .error (runtimeSubclass "RuntimeError" "down")) n,
        (List.range n).flatMap (roundAt { maxAttempts := 2 } "id"
          (fun _ => (.error (runtimeSubclass "RuntimeError" "down") : Except PyExc Unit)) n)) :=
  retry_spec (fun _ => .error (runtimeSubclass "RuntimeError" "down")) (some { maxAttempts := 2 })
    none "id" (by decide)

/-- `CancelledError`, which is no `Exception`. -/
def cancelledError : PyExc := ⟨["CancelledError", "BaseException", "object"], ""⟩

/-- **A cancelled call** ends the run as it is: the policy would allow other calls, nothing is emitted
and there is no `RetryExhaustedError`. -/
theorem retry_cancelled :
    retry seen none (fromStream fun _ => (.error cancelledError : Except PyExc Unit)) none "id" [] =
      (.error cancelledError, [.call]) ∧
    ∀ attempts err, cancelledError ≠ retryExhaustedError none attempts err := by
  refine ⟨rfl, fun attempts err h => ?_⟩
  have hmro : cancelledError.mro = (retryExhaustedError none attempts err).mro := congrArg PyExc.mro h
  have hnames : (["CancelledError", "BaseException", "object"] : List String) ≠
      ["RetryExhaustedError", "RuntimeError", "Exception", "BaseException", "object"] := by decide
  exact hnames hmro

end Hermes

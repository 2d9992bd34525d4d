import Hermes.Lib.History
import Hermes.Spec.AgentLife

/-!
# Executions are accounted for

* `Grows`: what calls of the engine do to the counter of executions, to the count of errors, and to the
  spans that are there.
* `observeEnd_ends`: what is observed when an execution ends.
* `Accounts`, `Accounts.step`: what holds of a runtime at any time, and one step of it.
* `executions_accounted`: in every interleaving of executions, the counter, the count of errors, the spans,
  the calls of agents and the usage of the guard agree with the executions themselves.
-/

namespace Hermes

open Observability

/-! ## The engine -/

namespace ObservabilityEngine

variable {V τ : Type}

/-- A span that is started comes in, and one may go. -/
theorem get?_startSpan [LinearOrder τ] (e : ObservabilityEngine V τ) (r : TraceSpan τ) (id : String) :
    (e.startSpan r).spans.get? id = none ∨
      (e.startSpan r).spans.get? id = if id = r.spanId then some r else e.spans.get? id := by
  unfold ObservabilityEngine.startSpan
  simp only
  split
  · split
    · rename_i oldest _
      rw [Index.get?_erase]
      split
      · exact .inl rfl
      · exact .inr (Index.get?_put _ _ _)
    · exact .inr (Index.get?_put _ _ _)
  · exact .inr (Index.get?_put _ _ _)

theorem get?_finishSpan (e : ObservabilityEngine V τ) (spanId : String) (now : τ) (id : String) :
    (e.finishSpan spanId "ok" now).2.spans.get? id =
      if id = spanId then (e.spans.get? id).map fun span => { span with endTime := some now, status := "ok" }
      else e.spans.get? id := by
  unfold ObservabilityEngine.finishSpan
  split
  · rename_i hnone
    split
    · rename_i hid
      subst hid
      rw [hnone]
      rfl
    · rfl
  · rename_i span hspan
    have hkey : span.spanId = spanId := Index.key_of_get? hspan
    simp only [show ("ok" : String) ≠ "error" by decide, if_false]
    rw [Index.get?_put]
    show (if id = span.spanId then _ else _) = _
    rw [hkey]
    split
    · rename_i hid
      subst hid
      rw [hspan, Option.map_some, hkey]
    · rfl

theorem finishSpan_counts (e : ObservabilityEngine V τ) (spanId : String) (now : τ) :
    (e.finishSpan spanId "ok" now).2.counters = e.counters ∧
      (e.finishSpan spanId "ok" now).2.errorCount = e.errorCount := by
  unfold ObservabilityEngine.finishSpan
  split
  · exact ⟨rfl, rfl⟩
  · simp

end ObservabilityEngine

namespace AgentExecutions

variable {V τ : Type} [AddMonoidWithOne V]

/-- The counter of executions. -/
def counted (o : Observed V τ) : V := (o.engine.counters.get? "agent.executions").getD 0

/-- So many executions and errors have come in. Spans that are there stay as they are, or go. -/
structure Grows (o o' : Observed V τ) (executions errors : ℕ) : Prop where
  counted : counted o' = counted o + executions
  errors : o'.engine.errorCount = o.engine.errorCount + errors
  issued : ∀ id ∈ o.issued, id ∈ o'.issued
  spans : ∀ id ∈ o.issued, o'.engine.spans.get? id = none ∨
    o'.engine.spans.get? id = o.engine.spans.get? id

theorem Grows.refl (o : Observed V τ) : Grows o o 0 0 where
  counted := by simp
  errors := rfl
  issued _ h := h
  spans _ _ := .inr rfl

theorem Grows.trans {o o' o'' : Observed V τ} {m n j k : ℕ} (h : Grows o o' m j) (h' : Grows o' o'' n k) :
    Grows o o'' (m + n) (j + k) where
  counted := by rw [h'.counted, h.counted, Nat.cast_add, add_assoc]
  errors := by rw [h'.errors, h.errors, add_assoc]
  issued id hid := h'.issued id (h.issued id hid)
  spans id hid := by
    rcases h'.spans id (h.issued id hid) with hnone | hsame
    · exact .inl hnone
    · rw [hsame]
      exact h.spans id hid

section Engine

variable [LinearOrder τ] {ids : IdSource String}

/-- **A call of others** leaves the counter and the count as they are. -/
theorem grows_foreign {o : Observed V τ} {c : ObservedCall V τ} (h : foreign c = true) :
    Grows o (o.call ids c).2 0 0 := by
  have hissued : ∀ id ∈ o.issued, id ∈ (o.call ids c).2.issued := fun id hid => List.mem_cons_of_mem _ hid
  cases c with
  | recordMetric name value labels mtype now =>
    have hname : name ≠ "agent.executions" := by simpa [foreign] using h
    refine ⟨?_, rfl, hissued, fun _ _ => .inr rfl⟩
    rw [Nat.cast_zero, add_zero]
    show ((ObservabilityEngine.count _ _).get? _).getD 0 = _
    unfold ObservabilityEngine.count
    simp only
    split
    · rw [Dict.get?_insert_of_ne _ hname.symm]
      rfl
    · rfl
  | log level message correlationId context now =>
    have hlevel : level ≠ "error" := by simpa [foreign] using h
    have hlog : (o.call ids (.log level message correlationId context now)).2.engine.errorCount =
        o.engine.errorCount ∧ counted (o.call ids (.log level message correlationId context now)).2 =
          counted o ∧ (o.call ids (.log level message correlationId context now)).2.engine.spans =
            o.engine.spans := by
      simp [Observed.call, Observed.record, Observed.take, ObservabilityEngine.log, AgentExecutions.counted,
        hlevel]
    refine ⟨?_, hlog.1, hissued, fun _ _ => .inr (by rw [hlog.2.2])⟩
    rw [hlog.2.1, Nat.cast_zero, add_zero]
  | startSpan traceId spanName parentId correlationId now =>
    refine ⟨by rw [Nat.cast_zero, add_zero]; rfl, rfl, hissued, fun id hid => ?_⟩
    have hne : id ≠ ids.next o.issued := fun heq => ids.not_mem o.issued (heq ▸ hid)
    have hspan := ObservabilityEngine.get?_startSpan o.engine
      ({ spanId := ids.next o.issued, traceId, spanName, parentId, startTime := now, correlationId } :
        TraceSpan τ) id
    rw [if_neg hne] at hspan
    exact hspan
  | auditRecord who action resource result detail now =>
    exact ⟨by rw [Nat.cast_zero, add_zero]; rfl, rfl, hissued, fun _ _ => .inr rfl⟩

theorem grows_metric (o : Observed V τ) (x : Execution) (now : τ) :
    Grows o (o.call ids (executionMetric x now)).2 1 0 where
  counted := by
    show ((ObservabilityEngine.count _ _).get? "agent.executions").getD 0 = _
    unfold ObservabilityEngine.count
    simp only [if_true]
    rw [Dict.get?_insert_self, Nat.cast_one]
    rfl
  errors := rfl
  issued _ h := List.mem_cons_of_mem _ h
  spans _ _ := .inr rfl

theorem grows_error (o : Observed V τ) (message : String) (correlationId : Option String)
    (context : Option (List (String × Value))) (now : τ) :
    Grows o (o.call ids (.log "error" message correlationId context now)).2 0 1 where
  counted := by
    rw [Nat.cast_zero, add_zero]
    rfl
  errors := rfl
  issued _ h := List.mem_cons_of_mem _ h
  spans _ _ := .inr rfl

/-- What an ended execution adds to the counter, and to the count of errors. -/
def ExecResult.counts : ExecResult → ℕ × ℕ
  | .returned => (1, 0)
  | .raised (some _) => (0, 1)
  | _ => (0, 0)

variable (ids) in
/-- **The end of an execution**: its result is counted, its span has ended unless it is gone, and the other
spans stay as they are. -/
theorem observeEnd_ends (o : Observed V τ) {x : Execution} {spanId : String} (hspan : x.spanId = some spanId)
    (result : ExecResult) (now : τ) :
    counted (observeEnd ids x result now o) = counted o + (ExecResult.counts result).1 ∧
      (observeEnd ids x result now o).engine.errorCount =
        o.engine.errorCount + (ExecResult.counts result).2 ∧
      (∀ id ∈ o.issued, id ∈ (observeEnd ids x result now o).issued) ∧
      (∀ id ∈ o.issued, id ≠ spanId → (observeEnd ids x result now o).engine.spans.get? id = none ∨
        (observeEnd ids x result now o).engine.spans.get? id = o.engine.spans.get? id) ∧
      ∀ span, (observeEnd ids x result now o).engine.spans.get? spanId = some span → span.endTime ≠ none := by
  have hkey : ∀ {o' : Observed V τ} {m n : ℕ}, Grows o o' m n →
      (∀ id ∈ o.issued, id ≠ spanId → (o'.engine.finishSpan spanId "ok" now).2.spans.get? id = none ∨
        (o'.engine.finishSpan spanId "ok" now).2.spans.get? id = o.engine.spans.get? id) ∧
      ∀ span, (o'.engine.finishSpan spanId "ok" now).2.spans.get? spanId = some span →
        span.endTime ≠ none := by
    intro o' m n h
    refine ⟨fun id hid hne => ?_, fun span hs => ?_⟩
    · rw [ObservabilityEngine.get?_finishSpan, if_neg hne]
      exact h.spans id hid
    · rw [ObservabilityEngine.get?_finishSpan, if_pos rfl] at hs
      obtain ⟨before, -, rfl⟩ := Option.map_eq_some_iff.1 hs
      simp
  obtain ⟨o', hgrows, heq⟩ : ∃ o', Grows o o' (ExecResult.counts result).1 (ExecResult.counts result).2 ∧
      observeEnd ids x result now o = { o' with engine := (o'.engine.finishSpan spanId "ok" now).2 } := by
    unfold observeEnd
    simp only [hspan]
    cases result with
    | returned => exact ⟨_, grows_metric o x now, rfl⟩
    | delegated toAgent => exact ⟨_, Grows.refl o, rfl⟩
    | raised text =>
      cases text with
      | none => exact ⟨_, Grows.refl o, rfl⟩
      | some text => exact ⟨_, grows_error o _ _ _ now, rfl⟩
  rw [heq]
  obtain ⟨hcounters, herrors⟩ := ObservabilityEngine.finishSpan_counts o'.engine spanId now
  obtain ⟨hothers, hown⟩ := hkey hgrows
  refine ⟨?_, ?_, hgrows.issued, hothers, hown⟩
  · unfold counted
    rw [hcounters]
    exact hgrows.counted
  · rw [herrors]
    exact hgrows.errors

end Engine

/-! ## Executions -/

/-- The attempts that an execution may make. -/
def maxAttempts (retry : Bool) : ℕ := if retry then 3 else 1

theorem one_le_maxAttempts (retry : Bool) : 1 ≤ maxAttempts retry := by
  unfold maxAttempts
  split <;> omega

/-- How often the agent of an execution was called, by where the execution is. -/
def Limited (retry : Bool) (x : Execution) : Prop :=
  match x.phase with
  | .mcp => x.spanId = none ∧ x.package = none ∧ x.bodies = 0
  | .guarded packageId => x.spanId.isSome = true ∧ x.package = some packageId ∧ x.bodies = 1
  | .attempt n => x.spanId.isSome = true ∧ x.package = none ∧ x.bodies = n ∧ 1 ≤ n ∧ n ≤ maxAttempts retry
  | .backOff n => x.spanId.isSome = true ∧ x.package = none ∧ x.bodies = n ∧ 1 ≤ n ∧ n < maxAttempts retry
  | .ended result => x.bodies ≤ maxAttempts retry ∧ (x.package.isSome = true → x.bodies ≤ 1) ∧
      (x.spanId = none → x.package = none ∧ x.bodies = 0) ∧
      (x.spanId.isSome = true → result = .returned → 1 ≤ x.bodies)

/-- The calls of a package that a guard has counted. -/
def guardCalls (guard : Option Guard) (packageId : String) : ℤ :=
  guard.elim 0 fun guard => ((guard.usage.get? packageId).getD {}).calls

/-- What holds of a runtime at any time, when its guard had counted so many calls at the start. -/
structure Accounts (calls : String → ℤ) (s : AgentExecutions V τ) : Prop where
  counted : counted s.obs = (s.executions.countP Execution.succeeded : V)
  errors : s.obs.engine.errorCount = s.executions.countP Execution.failed
  issued : ∀ (n : ℕ) (x : Execution), s.executions[n]? = some x → ∀ id, x.spanId = some id → id ∈ s.obs.issued
  distinct : ∀ (m n : ℕ) (x y : Execution), s.executions[m]? = some x → s.executions[n]? = some y → m ≠ n →
    ∀ id, x.spanId = some id → y.spanId ≠ some id
  spans : ∀ (n : ℕ) (x : Execution), s.executions[n]? = some x → ∀ id, x.spanId = some id →
    ∀ span, s.obs.engine.spans.get? id = some span → (span.endTime = none ↔ x.underWay = true)
  limited : ∀ (n : ℕ) (x : Execution), s.executions[n]? = some x → Limited s.resilience x
  wired : s.guard = none → ∀ (n : ℕ) (x : Execution), s.executions[n]? = some x → x.package = none
  usage : ∀ packageId, guardCalls s.guard packageId =
    calls packageId + s.executions.countP (·.leftGuard packageId)

variable {calls : String → ℤ} {s s' : AgentExecutions V τ} {n : ℕ} {x x' : Execution}

/-- The number of those that satisfy `p`, when one that does not is changed. -/
theorem countP_set_new {p : Execution → Bool} {xs : List Execution} (hx : xs[n]? = some x)
    (hp : p x = false) (x' : Execution) :
    (xs.set n x').countP p = xs.countP p + if p x' = true then 1 else 0 := by
  obtain ⟨hn, rfl⟩ := List.getElem?_eq_some_iff.1 hx
  rw [List.countP_set hn, hp]
  simp

theorem countP_add {p : Execution → Bool} (xs : List Execution) (x : Execution) :
    (xs ++ [x]).countP p = xs.countP p + if p x = true then 1 else 0 := by
  rw [List.countP_append, List.countP_singleton]

theorem getElem?_add {xs : List Execution} {m : ℕ} {y : Execution} :
    (xs ++ [x])[m]? = some y ↔ xs[m]? = some y ∨ m = xs.length ∧ y = x := by
  rcases lt_trichotomy m xs.length with hm | rfl | hm
  · rw [List.getElem?_append_left hm]
    simp [hm.ne]
  · rw [List.getElem?_concat_length]
    simp [eq_comm]
  · rw [List.getElem?_eq_none (by simp; omega), List.getElem?_eq_none (by omega)]
    simp [hm.ne']

/-- Spans that stay as they are, or go, tell the same of those that are there. -/
theorem Accounts.spans_of (h : Accounts calls s) {obs : Observed V τ} {y : Execution} {m : ℕ}
    (hy : s.executions[m]? = some y) {id : String} (hid : y.spanId = some id)
    (hsame : obs.engine.spans.get? id = none ∨ obs.engine.spans.get? id = s.obs.engine.spans.get? id) :
    ∀ span, obs.engine.spans.get? id = some span → (span.endTime = none ↔ y.underWay = true) := by
  intro span hspan
  rcases hsame with hnone | hsame
  · rw [hnone] at hspan
    cases hspan
  · rw [hsame] at hspan
    exact h.spans m y hy id hid span hspan

/-- **Something else is observed.** -/
theorem Accounts.observed (h : Accounts calls s) {obs : Observed V τ} (hgrows : Grows s.obs obs 0 0) :
    Accounts calls { s with obs } where
  counted := by
    rw [hgrows.counted, h.counted, Nat.cast_zero, add_zero]
  errors := hgrows.errors.trans h.errors
  issued m y hy id hid := hgrows.issued id (h.issued m y hy id hid)
  distinct := h.distinct
  spans m y hy id hid := h.spans_of hy hid (hgrows.spans id (h.issued m y hy id hid))
  limited := h.limited
  wired := h.wired
  usage := h.usage

/-- **An execution comes in**, with what has been observed of it. -/
theorem Accounts.add (h : Accounts calls s) (hexecutions : s'.executions = s.executions ++ [x])
    (hresilience : s'.resilience = s.resilience) (hguard : s'.guard = s.guard)
    (hgrows : Grows s.obs s'.obs (if x.succeeded = true then 1 else 0) (if x.failed = true then 1 else 0))
    (hspan : ∀ id, x.spanId = some id → id ∉ s.obs.issued ∧ id ∈ s'.obs.issued ∧
      ∀ span, s'.obs.engine.spans.get? id = some span → (span.endTime = none ↔ x.underWay = true))
    (hlimited : Limited s.resilience x) (hpackage : s.guard = none → x.package = none)
    (hleft : ∀ packageId, x.leftGuard packageId = false) : Accounts calls s' where
  counted := by
    rw [hgrows.counted, h.counted, hexecutions, countP_add]
    exact (Nat.cast_add _ _).symm
  errors := by rw [hgrows.errors, h.errors, hexecutions, countP_add]
  issued m y hy id hid := by
    rw [hexecutions] at hy
    rcases getElem?_add.1 hy with hy | ⟨-, rfl⟩
    · exact hgrows.issued id (h.issued m y hy id hid)
    · exact (hspan id hid).2.1
  distinct m k y z hy hz hmk id hid hid' := by
    rw [hexecutions] at hy hz
    rcases getElem?_add.1 hy with hold | ⟨hm, rfl⟩
    · rcases getElem?_add.1 hz with hold' | ⟨-, rfl⟩
      · exact h.distinct m k y z hold hold' hmk id hid hid'
      · exact (hspan id hid').1 (h.issued m y hold id hid)
    · rcases getElem?_add.1 hz with hold' | ⟨hk, -⟩
      · exact (hspan id hid).1 (h.issued k z hold' id hid')
      · exact hmk (hm.trans hk.symm)
  spans m y hy id hid := by
    rw [hexecutions] at hy
    rcases getElem?_add.1 hy with hy | ⟨-, rfl⟩
    · exact h.spans_of hy hid (hgrows.spans id (h.issued m y hy id hid))
    · exact (hspan id hid).2.2
  limited m y hy := by
    rw [hexecutions] at hy
    rw [hresilience]
    rcases getElem?_add.1 hy with hy | ⟨-, rfl⟩
    · exact h.limited m y hy
    · exact hlimited
  wired hnone m y hy := by
    rw [hexecutions] at hy
    rw [hguard] at hnone
    rcases getElem?_add.1 hy with hy | ⟨-, rfl⟩
    · exact h.wired hnone m y hy
    · exact hpackage hnone
  usage packageId := by
    rw [hguard, h.usage, hexecutions, countP_add, hleft]
    simp

/-- **An execution goes on**, and with it what has been observed. -/
theorem Accounts.change (h : Accounts calls s) (hx : s.executions[n]? = some x)
    (hway : x.underWay = true) (hexecutions : s'.executions = s.executions.set n x')
    (hresilience : s'.resilience = s.resilience) (hguard : s'.guard = none → s.guard = none)
    (hspanId : x'.spanId = x.spanId) (hpackage : x'.package = x.package)
    (hcounted : AgentExecutions.counted s'.obs =
      AgentExecutions.counted s.obs + ((if x'.succeeded = true then 1 else 0 : ℕ) : V))
    (herrors : s'.obs.engine.errorCount = s.obs.engine.errorCount + if x'.failed = true then 1 else 0)
    (hissued : ∀ id ∈ s.obs.issued, id ∈ s'.obs.issued)
    (hothers : ∀ id ∈ s.obs.issued, x.spanId ≠ some id → s'.obs.engine.spans.get? id = none ∨
      s'.obs.engine.spans.get? id = s.obs.engine.spans.get? id)
    (hown : ∀ id, x.spanId = some id → ∀ span, s'.obs.engine.spans.get? id = some span →
      (span.endTime = none ↔ x'.underWay = true))
    (hlimited : Limited s.resilience x')
    (husage : ∀ packageId, guardCalls s'.guard packageId =
      guardCalls s.guard packageId + if x'.leftGuard packageId = true then 1 else 0) :
    Accounts calls s' := by
  have hget : ∀ {m : ℕ} {y : Execution}, s'.executions[m]? = some y →
      s.executions[m]? = some y ∧ m ≠ n ∨ m = n ∧ y = x' := by
    intro m y hy
    rw [hexecutions, List.getElem?_set] at hy
    split at hy
    · rename_i hm
      split at hy
      · cases hy
        exact .inr ⟨hm.symm, rfl⟩
      · cases hy
    · rename_i hm
      exact .inl ⟨hy, fun heq => hm heq.symm⟩
  have hnot : ∀ p : Execution → Bool, (∀ y, p y = true → y.underWay = false) → p x = false := by
    intro p hp
    by_contra hpx
    rw [Bool.not_eq_false] at hpx
    rw [hp x hpx] at hway
    cases hway
  have hsucceeded : x.succeeded = false := hnot _ fun y hy => by
    unfold Execution.succeeded at hy
    have hphase : y.phase = .ended .returned := by simpa using (Bool.and_eq_true_iff.1 hy).2
    simp [Execution.underWay, hphase]
  have hfailed : x.failed = false := hnot _ fun y hy => by
    unfold Execution.failed at hy
    have hphase := (Bool.and_eq_true_iff.1 hy).2
    unfold Execution.underWay
    split at hphase
    · rename_i heq
      rw [heq]
    · cases hphase
  have hleft : ∀ packageId, x.leftGuard packageId = false := fun packageId =>
    hnot (·.leftGuard packageId) fun y hy => (decide_eq_true_iff.1 hy).2.2
  have hids : ∀ {m : ℕ} {y : Execution}, s'.executions[m]? = some y → ∃ y', s.executions[m]? = some y' ∧
      y'.spanId = y.spanId ∧ y'.package = y.package := by
    intro m y hy
    rcases hget hy with ⟨hy, -⟩ | ⟨rfl, rfl⟩
    · exact ⟨y, hy, rfl, rfl⟩
    · exact ⟨x, hx, hspanId.symm, hpackage.symm⟩
  refine ⟨?_, ?_, fun m y hy id hid => ?_, fun m k y z hy hz hmk id hid => ?_, fun m y hy id hid => ?_,
    fun m y hy => ?_, fun hnone m y hy => ?_, fun packageId => ?_⟩
  · rw [hcounted, h.counted, hexecutions, countP_set_new hx hsucceeded]
    exact (Nat.cast_add _ _).symm
  · rw [herrors, h.errors, hexecutions, countP_set_new hx hfailed]
  · obtain ⟨y', hy', heq, -⟩ := hids hy
    exact hissued id (h.issued m y' hy' id (heq.trans hid))
  · obtain ⟨y', hy', heq, -⟩ := hids hy
    obtain ⟨z', hz', heq', -⟩ := hids hz
    rw [← heq']
    exact h.distinct m k y' z' hy' hz' hmk id (heq.trans hid)
  · rcases hget hy with ⟨hy, hm⟩ | ⟨rfl, rfl⟩
    · exact h.spans_of hy hid (hothers id (h.issued m y hy id hid) fun heq =>
        h.distinct n m x y hx hy (Ne.symm hm) id heq hid)
    · exact hown id (hspanId ▸ hid)
  · rw [hresilience]
    rcases hget hy with ⟨hy, -⟩ | ⟨-, rfl⟩
    · exact h.limited m y hy
    · exact hlimited
  · obtain ⟨y', hy', -, heq⟩ := hids hy
    rw [← heq]
    exact h.wired (hguard hnone) m y' hy'
  · rw [husage, h.usage, hexecutions, countP_set_new hx (hleft packageId), Nat.cast_add, add_assoc]
    simp

/-! ## Steps -/

/-- What an ended execution adds to the numbers. -/
theorem counts_ended {spanId : String} (hspan : x.spanId = some spanId) (result : ExecResult) :
    (ExecResult.counts result).1 =
        (if ({ x with phase := .ended result } : Execution).succeeded = true then 1 else 0) ∧
      (ExecResult.counts result).2 =
        if ({ x with phase := .ended result } : Execution).failed = true then 1 else 0 := by
  cases result with
  | returned => simp [ExecResult.counts, Execution.succeeded, Execution.failed, hspan]
  | delegated toAgent => simp [ExecResult.counts, Execution.succeeded, Execution.failed, hspan]
  | raised text => cases text <;> simp [ExecResult.counts, Execution.succeeded, Execution.failed, hspan]

/-- An execution that is not guarded has nothing to do with the usage of the guard. -/
theorem leftGuard_unguarded (hpackage : x.package = none) (packageId : String) :
    x.leftGuard packageId = false := by
  simp [Execution.leftGuard, hpackage]

/-- The guard counts a call when its context is left. -/
theorem guardCalls_leave {guard : Option Guard} (hguard : guard ≠ none) (packageId p : String) (ms : ℤ) :
    guardCalls (guard.map fun guard => guard.accrue packageId (max 0 ms)) p =
      guardCalls guard p + if packageId = p then 1 else 0 := by
  cases guard with
  | none => exact absurd rfl hguard
  | some guard =>
    show (((guard.usage.insert packageId _).get? p).getD {}).calls = ((guard.usage.get? p).getD {}).calls + _
    rw [Dict.get?_insert]
    by_cases hp : p = packageId
    · subst hp
      simp
    · rw [if_neg hp, if_neg (Ne.symm hp), add_zero]

/-- What is known of an execution in its attempts. -/
theorem Accounts.attempting (h : Accounts calls s) (hx : s.executions[n]? = some x) {k : ℕ}
    (hphase : x.phase = .attempt k ∨ x.phase = .backOff k) :
    x.underWay = true ∧ (∃ spanId, x.spanId = some spanId) ∧ x.package = none ∧ x.bodies = k ∧ 1 ≤ k ∧
      k ≤ maxAttempts s.resilience := by
  have hlimited := h.limited n x hx
  unfold Limited at hlimited
  rcases hphase with hphase | hphase
  · simp only [hphase] at hlimited
    obtain ⟨hspan, hpackage, hbodies, hpos, hle⟩ := hlimited
    exact ⟨by simp [Execution.underWay, hphase], Option.isSome_iff_exists.1 hspan, hpackage, hbodies, hpos,
      hle⟩
  · simp only [hphase] at hlimited
    obtain ⟨hspan, hpackage, hbodies, hpos, hlt⟩ := hlimited
    exact ⟨by simp [Execution.underWay, hphase], Option.isSome_iff_exists.1 hspan, hpackage, hbodies, hpos,
      hlt.le⟩

/-- An execution moves on where nothing is observed. -/
theorem Accounts.move (h : Accounts calls s) (hx : s.executions[n]? = some x) (hway : x.underWay = true)
    (hspanId : x'.spanId = x.spanId) (hpackage : x'.package = x.package) (hpack : x.package = none)
    (hended : x.spanId = none ∨ x'.underWay = true) (hlimited : Limited s.resilience x') :
    Accounts calls (s.setExecution n x') := by
  have hno : x'.succeeded = false ∧ x'.failed = false := by
    rcases hended with hspan | hway'
    · simp [Execution.succeeded, Execution.failed, hspanId, hspan]
    · unfold Execution.underWay at hway'
      unfold Execution.succeeded Execution.failed
      cases hphase : x'.phase with
      | ended result =>
        rw [hphase] at hway'
        cases hway'
      | _ => simp
  refine h.change hx hway rfl rfl id hspanId hpackage ?_ ?_ (fun _ hid => hid) (fun _ _ _ => .inr rfl) ?_
    hlimited fun packageId => ?_
  · simp [hno.1, AgentExecutions.setExecution]
  · simp [hno.2, AgentExecutions.setExecution]
  · intro id hid span hs
    rcases hended with hspan | hway'
    · rw [hspan] at hid
      cases hid
    · rw [h.spans n x hx id hid span hs, hway, hway']
  · rw [leftGuard_unguarded (hpackage.trans hpack)]
    simp [AgentExecutions.setExecution]

omit [AddMonoidWithOne V] in
/-- A guard without which there is no package. -/
theorem guardFor_eq_some {capability : Option String} {guard : Guard} {packageId name : String}
    (h : s.guardFor capability = some (guard, packageId, name)) : s.guard = some guard := by
  unfold guardFor at h
  split at h
  · rename_i heq _ _
    obtain ⟨p, -, hp⟩ := Option.map_eq_some_iff.1 h
    cases hp
    exact heq
  · cases h

/-- The last execution is as given. -/
theorem set_last (xs : List Execution) (x x' : Execution) : (xs ++ [x]).set xs.length x' = xs ++ [x'] := by
  rw [List.set_append_right _ _ le_rfl, Nat.sub_self]
  rfl

/-- What no account is about. -/
theorem Accounts.rewired (h : Accounts calls s) (agents : Dict String RunnableAgent)
    (swarmIds : Dict String String) (swarm : Option Coordinator) :
    Accounts calls { s with agents, swarmIds, swarm } :=
  ⟨h.counted, h.errors, h.issued, h.distinct, h.spans, h.limited, h.wired, h.usage⟩

variable [LinearOrder τ] {ids : IdSource String}

/-- **An execution ends in its `try`**, after what the guard has counted. -/
theorem Accounts.settle (h : Accounts calls s) (hx : s.executions[n]? = some x) (hway : x.underWay = true)
    {spanId : String} (hspan : x.spanId = some spanId) (result : ExecResult) (now : τ)
    {g : Option Guard} (hguard : g = none → s.guard = none)
    (hlimited : Limited s.resilience { x with phase := .ended result })
    (husage : ∀ packageId, guardCalls g packageId = guardCalls s.guard packageId +
      if ({ x with phase := .ended result } : Execution).leftGuard packageId = true then 1 else 0) :
    Accounts calls ({ s with guard := g }.settle ids n x result now) := by
  obtain ⟨hcounted, herrors, hissued, hothers, hown⟩ := observeEnd_ends ids s.obs hspan result now
  obtain ⟨hsucceeded, hfailed⟩ := counts_ended hspan result
  refine h.change hx hway rfl rfl hguard rfl rfl ?_ ?_ hissued ?_ ?_ hlimited husage
  · rw [← hsucceeded]
    exact hcounted
  · rw [← hfailed]
    exact herrors
  · exact fun id hid hne => hothers id hid fun heq => hne (heq ▸ hspan)
  · intro id hid span hs
    rw [hspan] at hid
    cases hid
    exact iff_of_false (hown span hs) (by simp [Execution.underWay])

theorem Accounts.settle_unguarded (h : Accounts calls s) (hx : s.executions[n]? = some x)
    (hway : x.underWay = true) {spanId : String} (hspan : x.spanId = some spanId)
    (hpackage : x.package = none) (result : ExecResult) (now : τ)
    (hlimited : Limited s.resilience { x with phase := .ended result }) :
    Accounts calls (s.settle ids n x result now) := by
  refine h.settle hx hway hspan result now (g := s.guard) id hlimited fun packageId => ?_
  rw [leftGuard_unguarded (x := { x with phase := .ended result }) hpackage]
  simp

theorem Accounts.settle_guarded (h : Accounts calls s) (hx : s.executions[n]? = some x)
    {packageId : String} (hphase : x.phase = .guarded packageId) (result : ExecResult) (ms : ℤ) (now : τ) :
    Accounts calls ((s.leaveGuard packageId ms).settle ids n x result now) := by
  have hlimited := h.limited n x hx
  unfold Limited at hlimited
  simp only [hphase] at hlimited
  obtain ⟨hspan, hpackage, hbodies⟩ := hlimited
  obtain ⟨spanId, hspanId⟩ := Option.isSome_iff_exists.1 hspan
  have hguard : s.guard ≠ none := fun hnone => by
    rw [h.wired hnone n x hx] at hpackage
    cases hpackage
  refine h.settle hx (by simp [Execution.underWay, hphase]) hspanId result now
    (g := s.guard.map fun guard => guard.accrue packageId (max 0 ms)) (by simp) ?_ fun p => ?_
  · unfold Limited maxAttempts
    simp only [hbodies, hspanId, hpackage]
    refine ⟨?_, fun _ => le_rfl, by simp, fun _ _ => le_rfl⟩
    split <;> omega
  · rw [guardCalls_leave hguard]
    simp [Execution.leftGuard, hpackage, hbodies, Execution.underWay]

theorem Accounts.settle_attempt (h : Accounts calls s) (hx : s.executions[n]? = some x) {k : ℕ}
    (hphase : x.phase = .attempt k ∨ x.phase = .backOff k) (result : ExecResult) (now : τ) :
    Accounts calls (s.settle ids n x result now) := by
  obtain ⟨hway, ⟨spanId, hspan⟩, hpackage, hbodies, hpos, hle⟩ := h.attempting hx hphase
  refine h.settle_unguarded hx hway hspan hpackage result now ?_
  unfold Limited
  simp only [hbodies, hspan, hpackage]
  exact ⟨hle, by simp, by simp, fun _ _ => hpos⟩

variable (ids) in
/-- **The start of an execution**: nothing is counted, and a new span is open, unless it is gone at once. -/
theorem observeStart_starts (o : Observed V τ) (x : Execution) (now : τ) :
    Grows o (observeStart ids x now o) 0 0 ∧ ids.next o.issued ∈ (observeStart ids x now o).issued ∧
      ∀ span, (observeStart ids x now o).engine.spans.get? (ids.next o.issued) = some span →
        span.endTime = none := by
  have hstart : Grows o (o.call ids (.startSpan x.corr "agent.execute" none (some x.corr) now)).2 0 0 :=
    grows_foreign rfl
  have hlog : Grows (o.call ids (.startSpan x.corr "agent.execute" none (some x.corr) now)).2
      (observeStart ids x now o) 0 0 := grows_foreign rfl
  have hissued : ids.next o.issued ∈
      (o.call ids (.startSpan x.corr "agent.execute" none (some x.corr) now)).2.issued := List.mem_cons_self
  refine ⟨hstart.trans hlog, hlog.issued _ hissued, fun span hs => ?_⟩
  have hkept : (o.call ids (.startSpan x.corr "agent.execute" none (some x.corr) now)).2.engine.spans.get?
      (ids.next o.issued) = some span := by
    rcases hlog.spans _ hissued with hnone | hsame
    · rw [show observeStart ids x now o = _ from rfl] at hs
      exact absurd (hs.symm.trans hnone) (by simp)
    · exact hsame.symm.trans hs
  rcases ObservabilityEngine.get?_startSpan o.engine
    ({ spanId := ids.next o.issued, traceId := x.corr, spanName := "agent.execute", startTime := now,
       correlationId := some x.corr } : TraceSpan τ) (ids.next o.issued) with hnone | hput
  · exact absurd (hkept.symm.trans hnone) (by simp)
  · rw [if_pos rfl] at hput
    cases hkept.symm.trans hput
    rfl

/-- **An execution comes to its `try`**: its span is started, and the guard is asked, if there is one. -/
theorem Accounts.executeLocal (h : Accounts calls s) (x : Execution) (hbodies : x.bodies = 0)
    (hpackage : x.package = none) (now : τ) : Accounts calls (s.executeLocal ids x now) := by
  have hnew : ids.next s.obs.issued ∉ s.obs.issued := ids.not_mem _
  unfold AgentExecutions.executeLocal
  simp only
  obtain ⟨hgrows, hissued, hopen⟩ := observeStart_starts ids s.obs
    { x with spanId := some (ids.next s.obs.issued) } now
  split
  · refine h.add (x := { x with spanId := some (ids.next s.obs.issued), phase := .attempt 1, bodies := 1 })
      (set_last _ _ _) rfl rfl ?_ ?_ ?_ (fun _ => hpackage) fun p => ?_
    · show Grows s.obs (observeStart ids { x with spanId := some (ids.next s.obs.issued) } now s.obs) _ _
      simpa [Execution.succeeded, Execution.failed] using hgrows
    · rintro id ⟨⟩
      exact ⟨hnew, hissued, fun span hs => iff_of_true (hopen span hs) rfl⟩
    · exact ⟨rfl, hpackage, rfl, le_rfl, one_le_maxAttempts _⟩
    · simp [Execution.leftGuard, Execution.underWay]
  · rename_i guard packageId name hguard
    have hwired : s.guard = some guard := guardFor_eq_some hguard
    split
    · rename_i e _
      -- refused: the execution ends before its agent is called
      have hspan : ({ x with spanId := some (ids.next s.obs.issued), package := some packageId } :
          Execution).spanId = some (ids.next s.obs.issued) := rfl
      obtain ⟨hcounted, herrors, hissued', hothers, hown⟩ := observeEnd_ends ids
        (observeStart ids { x with spanId := some (ids.next s.obs.issued) } now s.obs) hspan
        (.raised (some e.text)) now
      refine h.add (x := { x with spanId := some (ids.next s.obs.issued), package := some packageId,
                                  phase := .ended (.raised (some e.text)) })
        (set_last _ _ _) rfl rfl ?_ ?_ ?_ (fun hnone => ?_) fun p => ?_
      · refine ⟨?_, ?_, fun id hid => hissued' id (hgrows.issued id hid), fun id hid => ?_⟩
        · refine hcounted.trans ?_
          rw [hgrows.counted]
          simp [ExecResult.counts, Execution.succeeded]
        · refine herrors.trans ?_
          rw [hgrows.errors]
          simp [ExecResult.counts, Execution.failed]
        · have hne : id ≠ ids.next s.obs.issued := fun heq => hnew (heq ▸ hid)
          rcases hothers id (hgrows.issued id hid) hne with hnone | hsame
          · exact .inl hnone
          · exact (hgrows.spans id hid).imp hsame.trans hsame.trans
      · rintro id ⟨⟩
        exact ⟨hnew, hissued' _ hissued, fun span hs => iff_of_false (hown span hs) (by
          simp [Execution.underWay])⟩
      · unfold Limited
        simp only [hbodies]
        exact ⟨Nat.zero_le _, fun _ => Nat.zero_le _, by simp, by simp⟩
      · rw [hwired] at hnone
        cases hnone
      · simp [Execution.leftGuard, hbodies]
    · refine h.add (x := { x with spanId := some (ids.next s.obs.issued), package := some packageId,
                                  phase := .guarded packageId, bodies := 1 })
        (set_last _ _ _) rfl rfl ?_ ?_ ⟨rfl, rfl, rfl⟩ (fun hnone => ?_) fun p => ?_
      · show Grows s.obs (observeStart ids { x with spanId := some (ids.next s.obs.issued) } now s.obs) _ _
        simpa [Execution.succeeded, Execution.failed] using hgrows
      · rintro id ⟨⟩
        exact ⟨hnew, hissued, fun span hs => iff_of_true (hopen span hs) rfl⟩
      · rw [hwired] at hnone
        cases hnone
      · simp [Execution.leftGuard, Execution.underWay]

omit [LinearOrder τ] in
/-- An execution that does not come to its `try`. -/
theorem Accounts.addExecution (h : Accounts calls s) (hspan : x.spanId = none) (hpackage : x.package = none)
    (hbodies : x.bodies = 0) (hphase : x.phase = .mcp ∨ ∃ result, x.phase = .ended result) :
    Accounts calls (s.addExecution x) := by
  refine h.add rfl rfl rfl ?_ (by simp [hspan]) ?_ (fun _ => hpackage) (leftGuard_unguarded hpackage)
  · have hno : x.succeeded = false ∧ x.failed = false := by
      simp [Execution.succeeded, Execution.failed, hspan]
    show Grows s.obs s.obs _ _
    rw [hno.1, hno.2]
    exact Grows.refl s.obs
  · unfold Limited
    rcases hphase with hphase | ⟨result, hphase⟩
    · simp only [hphase]
      exact ⟨hspan, hpackage, hbodies⟩
    · simp only [hphase, hspan, hpackage, hbodies]
      exact ⟨Nat.zero_le _, by simp, by simp, by simp⟩

theorem Accounts.execute (h : Accounts calls s) (agentId : String) (task : Task)
    (workflowId : Option String) (delegationId : String) (now : τ) :
    Accounts calls (s.execute ids agentId task workflowId delegationId now) := by
  unfold AgentExecutions.execute
  split
  · exact h
  · simp only
    split
    · split
      · exact h.addExecution rfl rfl rfl (.inl rfl)
      · exact h.addExecution rfl rfl rfl (.inr ⟨_, rfl⟩)
    · split
      · exact (h.rewired s.agents s.swarmIds _).addExecution rfl rfl rfl (.inr ⟨_, rfl⟩)
      · exact (h.rewired s.agents s.swarmIds _).executeLocal _ rfl rfl now

theorem Accounts.bodyEnds (h : Accounts calls s) (n : ℕ) (how : BodyEnd) (sandboxText : String) (ms : ℤ)
    (now : τ) : Accounts calls (s.bodyEnds ids n how sandboxText ms now) := by
  unfold AgentExecutions.bodyEnds
  split
  · exact h
  · rename_i x hx
    split
    · rename_i hphase
      exact h.settle_guarded hx hphase _ ms now
    · rename_i hphase
      exact h.settle_guarded hx hphase _ ms now
    · rename_i hphase
      exact h.settle_attempt hx (.inl hphase) _ now
    · rename_i k e hphase
      split
      · exact h.settle_attempt hx (.inl hphase) _ now
      · split
        · exact h.settle_attempt hx (.inl hphase) _ now
        · rename_i hagain
          -- there is another attempt, so not all were made
          obtain ⟨hway, ⟨spanId, hspan⟩, hpackage, hbodies, hpos, hle⟩ := h.attempting hx (.inl hphase)
          have hlt : k < maxAttempts s.resilience := by
            unfold attemptsOver at hagain
            simp only [Bool.or_eq_true, not_or, decide_eq_true_eq] at hagain
            have hresilience : s.resilience = true := by simpa using hagain.1.1
            have hmax : ¬ (3 : ℤ) ≤ k := hagain.2
            unfold maxAttempts
            rw [hresilience, if_pos rfl]
            omega
          exact h.move hx hway rfl rfl hpackage (.inr rfl)
            ⟨Option.isSome_iff_exists.2 ⟨spanId, hspan⟩, hpackage, hbodies, hpos, hlt⟩
    · rename_i hphase
      split
      · exact h.settle_attempt hx (.inl hphase) _ now
      · exact h
    · rename_i hphase
      split
      · exact h.settle_attempt hx (.inr hphase) _ now
      · exact h
    · exact h

omit [LinearOrder τ] in
/-- What is known of an execution that waits for a tool. -/
theorem Accounts.tool (h : Accounts calls s) (hx : s.executions[n]? = some x) (hphase : x.phase = .mcp)
    (result : ExecResult) : Accounts calls (s.setExecution n { x with phase := .ended result }) := by
  have hlimited := h.limited n x hx
  unfold Limited at hlimited
  simp only [hphase] at hlimited
  obtain ⟨hspan, hpackage, hbodies⟩ := hlimited
  refine h.move hx (by simp [Execution.underWay, hphase]) rfl rfl hpackage (.inl hspan) ?_
  unfold Limited
  simp only [hspan, hpackage, hbodies]
  exact ⟨Nat.zero_le _, by simp, by simp, by simp⟩

omit [LinearOrder τ] in
theorem Accounts.toolEnds (h : Accounts calls s) (n : ℕ) (result : Except (Option String) Unit) :
    Accounts calls (s.toolEnds n result) := by
  unfold AgentExecutions.toolEnds
  split
  · exact h
  · rename_i x hx
    split
    · rename_i hphase
      exact h.tool hx hphase _
    · rename_i hphase
      exact h.tool hx hphase _
    · exact h

omit [LinearOrder τ] in
theorem Accounts.wake (h : Accounts calls s) (n : ℕ) : Accounts calls (s.wake n) := by
  unfold AgentExecutions.wake
  split
  · exact h
  · rename_i x hx
    split
    · rename_i k hphase
      obtain ⟨hway, ⟨spanId, hspan⟩, hpackage, hbodies, hpos, -⟩ := h.attempting hx (.inr hphase)
      have hlimited := h.limited n x hx
      unfold Limited at hlimited
      simp only [hphase] at hlimited
      refine h.move hx hway rfl rfl hpackage (.inr rfl)
        ⟨Option.isSome_iff_exists.2 ⟨spanId, hspan⟩, hpackage, ?_, Nat.succ_pos k, hlimited.2.2.2.2⟩
      show x.bodies + 1 = k + 1
      rw [hbodies]
    · exact h

theorem Accounts.cancel (h : Accounts calls s) (n : ℕ) (ms : ℤ) (now : τ) :
    Accounts calls (s.cancel ids n ms now) := by
  unfold AgentExecutions.cancel
  split
  · exact h
  · rename_i x hx
    cases hphase : x.phase with
    | mcp => exact h.tool hx hphase _
    | guarded packageId => exact h.settle_guarded hx hphase _ ms now
    | attempt k => exact h.settle_attempt hx (.inl hphase) _ now
    | backOff k => exact h.settle_attempt hx (.inr hphase) _ now
    | ended result => exact h

/-- **One step.** -/
theorem Accounts.step (h : Accounts calls s) (e : ExecStep V τ) : Accounts calls (s.step ids e) := by
  cases e with
  | execute agentId task workflowId delegationId now =>
    exact h.execute agentId task workflowId delegationId now
  | bodyEnds n how sandboxText ms now => exact h.bodyEnds n how sandboxText ms now
  | toolEnds n result => exact h.toolEnds n result
  | wake n => exact h.wake n
  | cancel n ms now => exact h.cancel n ms now
  | change agents swarmIds => exact h.rewired agents swarmIds s.swarm
  | observed call =>
    unfold AgentExecutions.step
    simp only
    split
    · rename_i hforeign
      exact h.observed (grows_foreign hforeign)
    · exact h

variable (ids) in
theorem accounts_run (s : AgentExecutions V τ) (metricsLimit logsLimit spansLimit auditLimit : ℕ)
    (steps : List (ExecStep V τ)) : Accounts (guardCalls s.guard)
      (run ids s metricsLimit logsLimit spansLimit auditLimit steps) := by
  refine History.run_invariant (AgentExecutions.step ids) (Accounts (guardCalls s.guard))
    (fun _ e h => h.step e) steps _ ?_
  refine ⟨?_, rfl, by simp, by simp, by simp, by simp, by simp, by simp⟩
  show ((∅ : Dict String V).get? _).getD 0 = ((0 : ℕ) : V)
  rw [Nat.cast_zero]
  rfl

/-- What the phases say of the calls of an agent, for all of them. -/
theorem Limited.bounds {retry : Bool} {x : Execution} (h : Limited retry x) :
    x.bodies ≤ maxAttempts retry ∧ (x.package.isSome = true → x.bodies ≤ 1) ∧
      (x.spanId = none → x.package = none ∧ x.bodies = 0) ∧ (x.succeeded = true → 1 ≤ x.bodies) := by
  have hmax := one_le_maxAttempts retry
  unfold Limited at h
  cases hphase : x.phase with
  | mcp =>
    simp only [hphase] at h
    obtain ⟨hspan, hpackage, hbodies⟩ := h
    simp [Execution.succeeded, hspan, hpackage, hbodies]
  | guarded packageId =>
    simp only [hphase] at h
    obtain ⟨hspan, hpackage, hbodies⟩ := h
    refine ⟨by omega, fun _ => hbodies.le, fun hnone => ?_, fun _ => hbodies.ge⟩
    rw [hnone] at hspan
    cases hspan
  | attempt n =>
    simp only [hphase] at h
    obtain ⟨hspan, hpackage, hbodies, hpos, hle⟩ := h
    refine ⟨by omega, fun hsome => ?_, fun hnone => ?_, fun _ => by omega⟩
    · rw [hpackage] at hsome
      cases hsome
    · rw [hnone] at hspan
      cases hspan
  | backOff n =>
    simp only [hphase] at h
    obtain ⟨hspan, hpackage, hbodies, hpos, hlt⟩ := h
    refine ⟨by omega, fun hsome => ?_, fun hnone => ?_, fun _ => by omega⟩
    · rw [hpackage] at hsome
      cases hsome
    · rw [hnone] at hspan
      cases hspan
  | ended result =>
    simp only [hphase] at h
    obtain ⟨hle, hguarded, hnone, hreturned⟩ := h
    refine ⟨hle, hguarded, hnone, fun hsucceeded => ?_⟩
    unfold Execution.succeeded at hsucceeded
    rw [Bool.and_eq_true, hphase] at hsucceeded
    exact hreturned hsucceeded.1 (by simpa using hsucceeded.2)

/-- **Executions are accounted for.** However executions, the ends of their waits, their cancellations and
what else is observed interleave: the counter is the number of executions that came to their `try` and
returned, and the count of errors the number of those that raised an `Exception` there. Of each execution
the span is open just as long as it is under way, and is nobody else's. Its agent was called at most three
times, or once if there is no retry or a guard let it through, and at least once if it succeeded. The guard
has counted, for every package, one call for each execution that it let through and that has ended. -/
theorem executions_accounted (s : AgentExecutions V τ) (metricsLimit logsLimit spansLimit auditLimit : ℕ)
    (steps : List (ExecStep V τ)) :
    let s' := run ids s metricsLimit logsLimit spansLimit auditLimit steps
    (s'.obs.engine.counters.get? "agent.executions").getD 0 = (s'.executions.countP Execution.succeeded : V) ∧
      s'.obs.engine.errorCount = s'.executions.countP Execution.failed ∧
      (∀ (n : ℕ) (x : Execution), s'.executions[n]? = some x →
        (∀ id, x.spanId = some id →
          (∀ span, s'.obs.engine.spans.get? id = some span → (span.endTime = none ↔ x.underWay = true)) ∧
          ∀ (m : ℕ) (y : Execution), s'.executions[m]? = some y → n ≠ m → y.spanId ≠ some id) ∧
        x.bodies ≤ (if s'.resilience = true then 3 else 1) ∧ (x.package.isSome = true → x.bodies ≤ 1) ∧
        (x.spanId = none → x.package = none ∧ x.bodies = 0) ∧ (x.succeeded = true → 1 ≤ x.bodies)) ∧
      ∀ packageId, guardCalls s'.guard packageId =
        guardCalls s.guard packageId + s'.executions.countP (·.leftGuard packageId) := by
  have h := accounts_run ids s metricsLimit logsLimit spansLimit auditLimit steps
  exact ⟨h.counted, h.errors, fun n x hx => ⟨fun id hid => ⟨h.spans n x hx id hid,
    fun m y hy hne => h.distinct n m x y hx hy hne id hid⟩, (h.limited n x hx).bounds⟩, h.usage⟩

end AgentExecutions

end Hermes

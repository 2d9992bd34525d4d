import Hermes.Lib.Tries
import Hermes.Proof.PlanTurns

/-!
# The retries of a planned step

`_execute_step_with_retry` with an executor that returns outcomes, of any kind and in any order.

* `outcomeAt`, `callAt`: the `k`-th call and what it returns.
* `AfterTries`: what `n` tries leave behind: calls, outcomes on record, events and sleeps.
* `retryLoop_tries`: the loop makes tries until a success, or as many as it may.
* `recover_follows`: what follows the loop makes one replan and no call of the loop.
* `retry_discipline`: both together.
-/

namespace Hermes

variable {σ : Type}

/-- An executor that returns outcomes. -/
def returning (answers : PlanStep → σ → ExecutionOutcome × σ) : Executor σ :=
  fun step x => (.ok (answers step x).1, (answers step x).2)

section

variable (answers : PlanStep → σ → ExecutionOutcome × σ) (plan : Plan) (ahead : List String)
  (step : PlanStep)

/-- The state of the executor after `k` calls for the step. -/
def hostAt (x : σ) (k : ℕ) : σ := (fun x => (answers step x).2)^[k] x

/-- The outcome of the `k`-th call. -/
def outcomeAt (x : σ) (k : ℕ) : ExecutionOutcome := (answers step (hostAt answers step x k)).1

/-- The `k`-th call of the loop. -/
def callAt (x : σ) (k : ℕ) : Call σ :=
  ⟨plan, step, .ordered, ahead, hostAt answers step x k, .ok (outcomeAt answers step x k),
    hostAt answers step x (k + 1)⟩

/-- What is put on record after the `k`-th call, in a loop that has counted `retry` retries before. -/
def recordAt (retry : ℕ) (x : σ) (k : ℕ) : ExecutionOutcome :=
  { outcomeAt answers step x k with retryCount := retry + k }

/-- What is emitted and waited for after the `k`-th of `n` calls. -/
def eventsAt (retry n : ℕ) (x : σ) (k : ℕ) : List PlannerEvent :=
  let o := outcomeAt answers step x k
  if o.status = .success then
    [.stepExecuted plan.planId step.stepId .success o.durationMs (retry + k)]
  else if k + 1 < n then
    [.stepExecuted plan.planId step.stepId o.status o.durationMs (retry + k + 1),
      .sleep (2 ^ (retry + k))]
  else []

end

/-- Outcomes are put on record one after the other. -/
def Planner.recordAll (p : Planner) (os : List ExecutionOutcome) : Planner :=
  os.foldl Planner.recordOutcome p

/-- The seconds of a sleep. -/
def PlannerEvent.sleep? : PlannerEvent → Option ℕ
  | .sleep seconds => some seconds
  | _ => none

def PlannerEvent.isReplan : PlannerEvent → Bool
  | .replanTriggered _ _ _ _ => true
  | _ => false

/-- `n` tries of a step were made, in a loop that has counted `retry` retries before. -/
structure AfterTries (answers : PlanStep → σ → ExecutionOutcome × σ) (plan : Plan) (ahead : List String)
    (step : PlanStep) (retry n : ℕ) (s s' : Session σ) : Prop where
  host : s'.host = hostAt answers step s.host n
  log : s'.log = s.log ++
    (List.range n).map fun k => .call (callAt answers plan ahead step s.host k)
  planner : s'.planner =
    { s.planner.recordAll ((List.range n).map (recordAt answers step retry s.host)) with
      events := s.planner.events ++
        (List.range n).flatMap (eventsAt answers plan step retry n s.host) }

variable {answers : PlanStep → σ → ExecutionOutcome × σ} {plan : Plan} {ahead : List String}
  {step : PlanStep}

/-! ## One call after the other -/

theorem hostAt_succ (x : σ) (k : ℕ) :
    hostAt answers step x (k + 1) = hostAt answers step (answers step x).2 k :=
  Function.iterate_succ_apply _ _ _

theorem outcomeAt_succ (x : σ) (k : ℕ) :
    outcomeAt answers step x (k + 1) = outcomeAt answers step (answers step x).2 k :=
  congrArg (fun y => (answers step y).1) (hostAt_succ x k)

theorem callAt_succ (x : σ) (k : ℕ) : callAt answers plan ahead step x (k + 1) =
    callAt answers plan ahead step (answers step x).2 k := by
  unfold callAt
  rw [hostAt_succ x k, hostAt_succ x (k + 1), outcomeAt_succ]

theorem recordAt_succ (retry : ℕ) (x : σ) (k : ℕ) : recordAt answers step retry x (k + 1) =
    recordAt answers step (retry + 1) (answers step x).2 k := by
  unfold recordAt
  rw [outcomeAt_succ, Nat.add_right_comm, Nat.add_assoc]

theorem eventsAt_succ (retry n : ℕ) (x : σ) (k : ℕ) :
    eventsAt answers plan step retry (n + 1) x (k + 1) =
      eventsAt answers plan step (retry + 1) n (answers step x).2 k := by
  have hcount : retry + (k + 1) = retry + 1 + k := by omega
  unfold eventsAt
  rw [outcomeAt_succ, hcount]
  simp only [Nat.add_lt_add_iff_right]

theorem recordAll_events (p : Planner) (events : List PlannerEvent) (os : List ExecutionOutcome) :
    Planner.recordAll { p with events } os = { p.recordAll os with events } := by
  induction os generalizing p with
  | nil => rfl
  | cons o os ih => exact ih (p.recordOutcome o)

/-- One call, its outcome on record, and what is emitted then. -/
def triedOnce (answers : PlanStep → σ → ExecutionOutcome × σ) (plan : Plan) (ahead : List String)
    (step : PlanStep) (retry : ℕ) (s : Session σ) (events : List PlannerEvent) : Session σ where
  planner :=
    { s.planner.recordOutcome { (answers step s.host).1 with retryCount := retry } with
      events := s.planner.events ++ events }
  host := (answers step s.host).2
  log := s.log ++ [.call ⟨plan, step, .ordered, ahead, s.host, .ok (answers step s.host).1,
    (answers step s.host).2⟩]

/-- A loop of one try. -/
theorem tried_one {retry : ℕ} {s : Session σ} :
    AfterTries answers plan ahead step retry 1 s
      (triedOnce answers plan ahead step retry s (eventsAt answers plan step retry 1 s.host 0)) where
  host := rfl
  log := rfl
  planner := by
    simp only [triedOnce, List.range_one, List.map_cons, List.map_nil, List.flatMap_cons,
      List.flatMap_nil, List.append_nil]
    rfl

/-- Another try before the others. -/
theorem AfterTries.cons {retry n : ℕ} {s s' : Session σ}
    (h : AfterTries answers plan ahead step (retry + 1) n
      (triedOnce answers plan ahead step retry s
        (eventsAt answers plan step retry (n + 1) s.host 0)) s') :
    AfterTries answers plan ahead step retry (n + 1) s s' where
  host := by
    rw [h.host, hostAt_succ]
    rfl
  log := by
    rw [h.log, List.range_succ_eq_map, List.map_cons, List.map_map]
    simp only [Function.comp_def, Nat.succ_eq_add_one, callAt_succ]
    unfold triedOnce
    simp only [List.append_assoc, List.singleton_append]
    rfl
  planner := by
    rw [h.planner, List.range_succ_eq_map, List.map_cons, List.map_map, List.flatMap_cons,
      List.flatMap_map]
    simp only [Function.comp_def, Nat.succ_eq_add_one, recordAt_succ, eventsAt_succ]
    unfold triedOnce
    rw [recordAll_events]
    simp only [List.append_assoc]
    rfl

variable (answers plan ahead step) in
/-- **The retry loop** makes tries until a success, or as many as the budget allows. -/
theorem retryLoop_tries (budget retry : ℕ) (s : Session σ) : ∃ n s',
    Tries (fun k => (outcomeAt answers step s.host k).status = .success) (budget + 1) n ∧
      retryLoop (returning answers) plan ahead step budget retry s =
        (.ok (recordAt answers step retry s.host (n - 1)), s') ∧
      AfterTries answers plan ahead step retry n s s' := by
  induction budget generalizing retry s with
  | zero =>
    refine ⟨1, _, .single, ?_, tried_one⟩
    unfold retryLoop
    by_cases ho : (answers step s.host).1.status = .success
    · simp [callExecutor, returning, triedOnce, eventsAt, recordAt, outcomeAt, hostAt, ho,
        Session.emit, Planner.emit, Planner.recordOutcome]
    · simp [callExecutor, returning, triedOnce, eventsAt, recordAt, outcomeAt, hostAt, ho,
        Planner.recordOutcome]
  | succ budget ih =>
    by_cases ho : (answers step s.host).1.status = .success
    · refine ⟨1, _, .decided ho, ?_, tried_one⟩
      unfold retryLoop
      simp [callExecutor, returning, triedOnce, eventsAt, recordAt, outcomeAt, hostAt, ho,
        Session.emit, Planner.emit, Planner.recordOutcome]
    · obtain ⟨n, s', htries, hloop, htried⟩ := ih (retry + 1)
        (triedOnce answers plan ahead step retry s
          [.stepExecuted plan.planId step.stepId (answers step s.host).1.status
            (answers step s.host).1.durationMs (retry + 1), .sleep (2 ^ retry)])
      have hpos := htries.pos
      have hnext : ∀ k, outcomeAt answers step s.host (k + 1) =
          outcomeAt answers step (answers step s.host).2 k := outcomeAt_succ s.host
      refine ⟨n + 1, s', ?_, ?_, ?_⟩
      · refine .next ho ?_
        simp only [hnext]
        exact htries
      · have hlast : n + 1 - 1 = n - 1 + 1 := by omega
        rw [hlast, recordAt_succ]
        refine Eq.trans ?_ hloop
        conv_lhs => unfold retryLoop
        simp [callExecutor, returning, triedOnce, ho, Session.emit, Planner.emit,
          Planner.recordOutcome]
      · refine AfterTries.cons ?_
        have hevents : eventsAt answers plan step retry (n + 1) s.host 0 =
            [.stepExecuted plan.planId step.stepId (answers step s.host).1.status
              (answers step s.host).1.durationMs (retry + 1), .sleep (2 ^ retry)] := by
          unfold eventsAt
          have hmore : 0 + 1 < n + 1 := by omega
          have hfail : (outcomeAt answers step s.host 0).status ≠ .success := ho
          simp only [if_neg hfail, if_pos hmore]
          rfl
        rw [hevents]
        exact htried

/-- **The sleeps between the calls** are of 1, 2, 4, … seconds. -/
theorem sleeps_eq {n limit : ℕ} {x : σ}
    (h : Tries (fun k => (outcomeAt answers step x k).status = .success) limit n) :
    ((List.range n).flatMap (eventsAt answers plan step 0 n x)).filterMap PlannerEvent.sleep? =
      (List.range (n - 1)).map (2 ^ ·) := by
  obtain ⟨m, rfl⟩ : ∃ m, n = m + 1 := ⟨n - 1, by have hpos := h.pos; omega⟩
  have hlast : (eventsAt answers plan step 0 (m + 1) x m).filterMap PlannerEvent.sleep? = [] := by
    unfold eventsAt
    simp only [lt_irrefl, if_false]
    split
    · rfl
    · rfl
  have hbefore : ∀ k ∈ List.range m,
      (eventsAt answers plan step 0 (m + 1) x k).filterMap PlannerEvent.sleep? = [2 ^ k] := by
    intro k hk
    have hlt : k + 1 < m + 1 := Nat.succ_lt_succ (List.mem_range.1 hk)
    unfold eventsAt
    simp only [if_neg (h.undecided k hlt), if_pos hlt, Nat.zero_add]
    rfl
  rw [List.range_succ, List.flatMap_append, List.filterMap_append, List.flatMap_singleton, hlast,
    List.append_nil, List.filterMap_flatMap, List.flatMap_congr hbefore, Nat.add_sub_cancel,
    List.map_eq_flatMap]

/-! ## After the loop -/

/-- What comes after a loop: so many replans, and no call of the loop. -/
structure Followed (s s' : Session σ) (replans : ℕ) : Prop where
  log : ∃ later, s'.log = s.log ++ later ∧ later.countP LogEntry.isReplan = replans ∧
    ∀ c, .call c ∈ later → c.phase = .recovery
  events : ∃ later, s'.planner.events = s.planner.events ++ later ∧
    later.countP PlannerEvent.isReplan = replans

/-- One entry and some events. -/
theorem followed_entry {s s' : Session σ} {e : LogEntry σ} {E : List PlannerEvent} {n : ℕ}
    (hlog : s'.log = s.log ++ [e]) (hevents : s'.planner.events = s.planner.events ++ E)
    (hphase : ∀ c, e = .call c → c.phase = .recovery) (hentry : [e].countP LogEntry.isReplan = n)
    (hcount : E.countP PlannerEvent.isReplan = n) : Followed s s' n where
  log := ⟨[e], hlog, hentry, fun c hc => hphase c (List.mem_singleton.1 hc).symm⟩
  events := ⟨E, hevents, hcount⟩

theorem followed_self (s : Session σ) : Followed s s 0 where
  log := ⟨[], (List.append_nil _).symm, rfl, fun _ hc => absurd hc List.not_mem_nil⟩
  events := ⟨[], (List.append_nil _).symm, rfl⟩

theorem Followed.trans {s t u : Session σ} {m n : ℕ} (h : Followed s t m) (h' : Followed t u n) :
    Followed s u (m + n) := by
  obtain ⟨⟨first, hfirst, hm, hphase⟩, ⟨early, hearly, hm'⟩⟩ := h
  obtain ⟨⟨later, hlater, hn, hphase'⟩, ⟨late, hlate, hn'⟩⟩ := h'
  refine ⟨⟨first ++ later, ?_, ?_, ?_⟩, ⟨early ++ late, ?_, ?_⟩⟩
  · rw [hlater, hfirst, List.append_assoc]
  · rw [List.countP_append, hm, hn]
  · intro c hc
    rcases List.mem_append.1 hc with hc | hc
    · exact hphase c hc
    · exact hphase' c hc
  · rw [hlate, hearly, List.append_assoc]
  · rw [List.countP_append, hm', hn']

/-- **The walk over the adapted plan** makes no replan. -/
theorem recoveryLoop_follows (exec : Executor σ) (adapted : Plan) (ahead : List String) :
    ∀ steps (s : Session σ), Followed s (recoveryLoop exec adapted ahead steps s).2 0 := by
  intro steps
  induction steps with
  | nil => intro s; exact followed_self s
  | cons step steps ih =>
    intro s
    have hcalled : ∀ (r : Except Exc ExecutionOutcome) (x : σ) (c : Call σ),
        (.call ⟨adapted, step, .recovery, ahead, s.host, r, x⟩ : LogEntry σ) = .call c →
        c.phase = .recovery := by
      rintro r x c ⟨⟩
      rfl
    unfold recoveryLoop
    cases s.planner.alreadySucceeded adapted step with
    | some o =>
      have hskip : Followed s { s with log := s.log ++ [.skip adapted step o] } 0 :=
        followed_entry rfl (List.append_nil _).symm (by rintro c ⟨⟩) rfl rfl
      exact hskip.trans (ih _)
    | none =>
      simp only
      rw [callExecutor_eq]
      cases (exec step s.host).1 with
      | error e =>
        exact followed_entry (E := []) rfl (List.append_nil _).symm (hcalled _ _) rfl rfl
      | ok o =>
        refine Followed.trans (m := 0) (n := 0) ?_ (ih _)
        exact followed_entry (E := [_]) rfl rfl (hcalled _ _) rfl rfl

theorem setPlan_events (p : Planner) (plan : Plan) : (p.setPlan plan).events = p.events := by
  unfold Planner.setPlan
  split
  · rfl
  · rfl

/-- `_replan` emits that the plan was adapted. -/
theorem replan_events (P : PlannerEnv) (plan : Plan) (t : ReplanTrigger) (p : Planner) :
    ∃ planId version changes, (replan P plan t p).2.events =
      p.events ++ [.planAdapted planId plan.version version changes] :=
  ⟨_, _, _, rfl⟩

/-- **When the retries are used up** there is one replan. -/
theorem recover_follows (P : PlannerEnv) (exec : Executor σ) (plan : Plan) (ahead : List String)
    (step : PlanStep) (status : OutcomeStatus) (s : Session σ) :
    Followed s (recover P exec plan ahead step status s).2 1 := by
  have hreplan : ∀ (t : ReplanTrigger) (p : Planner) (adapted : Plan) (x : σ),
      p.events = s.planner.events ++ [.replanTriggered t.triggerId plan.planId "step_failed" step.stepId] →
      Followed s ⟨(replan P plan t p).2.setPlan { plan with status := .adapted }, x,
        s.log ++ [.replan step adapted]⟩ 1 := by
    intro t p adapted x hp
    obtain ⟨planId, version, changes, hevents⟩ := replan_events P plan t p
    refine followed_entry (e := .replan step adapted)
      (E := [.replanTriggered t.triggerId plan.planId "step_failed" step.stepId,
        .planAdapted planId plan.version version changes]) rfl ?_ (by rintro c ⟨⟩) rfl rfl
    show ((replan P plan t p).2.setPlan _).events = _
    rw [setPlan_events, hevents, hp, List.append_assoc]
    rfl
  unfold recover
  simp only
  split
  · exact hreplan _ _ _ _ rfl
  · exact (hreplan _ _ _ _ rfl).trans (recoveryLoop_follows exec _ ahead _ _)

/-- **The retries of a step**: the loop calls the executor until the first success, or once and then
once more for each retry of the budget. It sleeps 1, 2, 4, … seconds between the calls and puts their
outcomes on record with 0, 1, 2, … retries. One replan follows if no call succeeded, else none. -/
theorem retry_discipline (P : PlannerEnv) (answers : PlanStep → σ → ExecutionOutcome × σ)
    (plan : Plan) (ahead : List String) (step : PlanStep) (s : Session σ) :
    ∃ n s', Tries (fun k => (outcomeAt answers step s.host k).status = .success)
        (1 + (max step.retryBudget 0).toNat) n ∧
      retryLoop (returning answers) plan ahead step step.retryBudget.toNat 0 s =
        (.ok (recordAt answers step 0 s.host (n - 1)), s') ∧
      AfterTries answers plan ahead step 0 n s s' ∧
      ((List.range n).flatMap (eventsAt answers plan step 0 n s.host)).filterMap
        PlannerEvent.sleep? = (List.range (n - 1)).map (2 ^ ·) ∧
      Followed s' (executeStepWithRetry P (returning answers) plan ahead step s).2
        (if (outcomeAt answers step s.host (n - 1)).status = .success then 0 else 1) := by
  obtain ⟨n, s', htries, hloop, htried⟩ :=
    retryLoop_tries answers plan ahead step step.retryBudget.toNat 0 s
  have hlimit : step.retryBudget.toNat + 1 = 1 + (max step.retryBudget 0).toNat := by omega
  rw [hlimit] at htries
  refine ⟨n, s', htries, hloop, htried, sleeps_eq htries, ?_⟩
  unfold executeStepWithRetry
  rw [hloop]
  simp only
  have hstatus : (recordAt answers step 0 s.host (n - 1)).status =
      (outcomeAt answers step s.host (n - 1)).status := rfl
  rw [hstatus]
  split
  · exact followed_self s'
  · have hfollow := recover_follows P (returning answers) plan ahead step
      (outcomeAt answers step s.host (n - 1)).status s'
    generalize recover P (returning answers) plan ahead step
      (outcomeAt answers step s.host (n - 1)).status s' = R at hfollow ⊢
    obtain ⟨r, s''⟩ := R
    cases r with
    | error e => exact hfollow
    | ok _ => exact hfollow

end Hermes

import Hermes.Lib.Latch
import Hermes.Spec.HealthMonitor

/-!
# The status of a component, told from its probes

The two counters of a record are the streaks at the end of the history of its results, and its
status is the latch that these set and reset; an event is published each time the latch changes.

* `Told`: what a record and the events about it say of a history of results.
* `told_step`: one more result.
* `told_run`: any steps of the monitor.
* `health_history`: a registered component, from its registration on.
-/

namespace Hermes

namespace HealthMonitor

open Latch

/-- The failures in succession that make a component unhealthy, as a number of results. -/
def down (check : HealthCheck) : ℕ := check.failureThreshold.toNat

/-- The successes in succession that make it healthy. -/
def up (check : HealthCheck) : ℕ := check.successThreshold.toNat

/-- What the record and the events of a registration say of its results. -/
structure Told (check : HealthCheck) (record : HealthRecord) (events : List HealthEvent)
    (t : List Bool) : Prop where
  failures : record.consecutiveFailures = streak false t
  successes : record.consecutiveSuccesses = streak true t
  status : record.status = .unhealthy ↔ Latched (down check) (up check) t
  alternating : Alternating events
  parity : record.status = .unhealthy ↔ events.length % 2 = 1

variable {check : HealthCheck} {record : HealthRecord} {events : List HealthEvent} {t : List Bool}

/-- A record that has seen no probe. -/
theorem told_new (hdown : 1 ≤ check.failureThreshold) (componentId componentType : String) :
    Told check { componentId, componentType } [] [] where
  failures := rfl
  successes := rfl
  status := by
    have hpos : 1 ≤ down check := by unfold down; omega
    exact iff_of_false nofun (not_latched_nil hpos)
  alternating := History.always_nil
  parity := iff_of_false nofun (by simp)

/-- What is noted of a probe that raises leaves all that is told. -/
theorem Told.note (h : Told check record events t) (outcome : ProbeOutcome) :
    Told check (outcome.note record) events t := by
  cases outcome with
  | returned healthy => exact h
  | raised text className => exact ⟨h.failures, h.successes, h.status, h.alternating, h.parity⟩

/-! ## The status after a result -/

/-- After a failure. -/
theorem status_false (record : HealthRecord) (check : HealthCheck) :
    (record.applyResult check false).status = .unhealthy ↔
      record.status = .unhealthy ∨ check.failureThreshold ≤ record.consecutiveFailures + 1 := by
  unfold HealthRecord.applyResult
  simp only [Nat.cast_add, Nat.cast_one]
  by_cases hlimit : check.failureThreshold ≤ record.consecutiveFailures + 1
  · simp [hlimit]
  · rw [if_neg hlimit]
    by_cases hgood : record.status = .healthy ∨ record.status = .unknown
    · rw [if_pos hgood]
      rcases hgood with h | h
      · simp [h, hlimit]
      · simp [h, hlimit]
    · rw [if_neg hgood]
      simp [hlimit]

/-- After a success. -/
theorem status_true (record : HealthRecord) (check : HealthCheck) :
    (record.applyResult check true).status = .unhealthy ↔
      record.status = .unhealthy ∧ record.consecutiveSuccesses + 1 < check.successThreshold := by
  unfold HealthRecord.applyResult
  simp only [Nat.cast_add, Nat.cast_one]
  by_cases hlimit : check.successThreshold ≤ record.consecutiveSuccesses + 1
  · simp [hlimit]
  · rw [if_neg hlimit]
    simp [not_le.1 hlimit]

theorem counters_step (record : HealthRecord) (check : HealthCheck) (healthy : Bool) :
    (record.applyResult check healthy).consecutiveFailures =
        (if healthy = false then record.consecutiveFailures + 1 else 0) ∧
      (record.applyResult check healthy).consecutiveSuccesses =
        (if healthy = true then record.consecutiveSuccesses + 1 else 0) := by
  unfold HealthRecord.applyResult
  cases healthy with
  | true =>
    dsimp only
    split
    · exact ⟨rfl, rfl⟩
    · exact ⟨rfl, rfl⟩
  | false =>
    dsimp only
    split
    · exact ⟨rfl, rfl⟩
    · split
      · exact ⟨rfl, rfl⟩
      · exact ⟨rfl, rfl⟩

/-- A component that was unhealthy and is so no more is healthy. -/
theorem healthy_of_left (record : HealthRecord) (check : HealthCheck) (healthy : Bool)
    (hbefore : record.status = .unhealthy)
    (hafter : (record.applyResult check healthy).status ≠ .unhealthy) :
    (record.applyResult check healthy).status = .healthy := by
  cases healthy with
  | false => exact absurd ((status_false record check).2 (.inl hbefore)) hafter
  | true =>
    unfold HealthRecord.applyResult at hafter ⊢
    dsimp only at hafter ⊢
    split at hafter
    · next hlimit => rw [if_pos hlimit]
    · exact absurd hbefore hafter

/-! ## The events -/

/-- **What is published** when the status goes from `prev` on. -/
theorem transition_cases (record : HealthRecord) (prev : HealthStatus)
    (hleft : prev = .unhealthy → record.status ≠ .unhealthy → record.status = .healthy) :
    (record.status = .unhealthy ↔ prev = .unhealthy) ∧ record.transition prev = [] ∨
      record.status = .unhealthy ∧ prev ≠ .unhealthy ∧
        (∃ e, record.transition prev = [e] ∧ e.recovery = false) ∨
      record.status ≠ .unhealthy ∧ prev = .unhealthy ∧
        (∃ e, record.transition prev = [e] ∧ e.recovery = true) := by
  unfold HealthRecord.transition
  by_cases hsame : record.status = prev
  · left
    rw [if_pos hsame, hsame]
    exact ⟨Iff.rfl, rfl⟩
  · rw [if_neg hsame]
    by_cases hprev : prev = .unhealthy
    · right; right
      have hnot : record.status ≠ .unhealthy := fun h => hsame (h.trans hprev.symm)
      have hhealthy := hleft hprev hnot
      refine ⟨hnot, hprev, ?_⟩
      rw [hhealthy]
      dsimp only
      rw [if_pos hprev]
      exact ⟨_, rfl, rfl⟩
    · by_cases hnow : record.status = .unhealthy
      · right; left
        refine ⟨hnow, hprev, ?_⟩
        rw [hnow]
        exact ⟨_, rfl, rfl⟩
      · left
        refine ⟨iff_of_false hnow hprev, ?_⟩
        split
        · contradiction
        · exact if_neg hprev
        · rfl

/-- Events that alternate go on doing so, as the status changes. -/
theorem alternating_step (record : HealthRecord) (prev : HealthStatus)
    (hleft : prev = .unhealthy → record.status ≠ .unhealthy → record.status = .healthy)
    (h : Alternating events) (hparity : prev = .unhealthy ↔ events.length % 2 = 1) :
    Alternating (events ++ record.transition prev) ∧
      (record.status = .unhealthy ↔ (events ++ record.transition prev).length % 2 = 1) := by
  rcases transition_cases record prev hleft with
    ⟨hsame, hnone⟩ | ⟨hnow, hprev, e, he, hkind⟩ | ⟨hnow, hprev, e, he, hkind⟩
  · rw [hnone, List.append_nil]
    exact ⟨h, hsame.trans hparity⟩
  · have heven : ¬ events.length % 2 = 1 := fun hodd => hprev (hparity.2 hodd)
    rw [he]
    refine ⟨History.always_snoc.2 ⟨h, ?_⟩, ?_⟩
    · rw [hkind]
      exact iff_of_false nofun heven
    · rw [List.length_append, List.length_singleton]
      exact iff_of_true hnow (by omega)
  · have hodd := hparity.1 hprev
    rw [he]
    refine ⟨History.always_snoc.2 ⟨h, iff_of_true hkind hodd⟩, ?_⟩
    rw [List.length_append, List.length_singleton]
    exact iff_of_false hnow (by omega)

/-! ## The history -/

/-- **One more result.** -/
theorem told_step (hdown : 1 ≤ check.failureThreshold) (hup : 1 ≤ check.successThreshold)
    (h : Told check record events t) (healthy : Bool) :
    Told check (record.applyResult check healthy)
      (events ++ (record.applyResult check healthy).transition record.status) (t ++ [healthy]) := by
  obtain ⟨hfailures, hsuccesses⟩ := counters_step record check healthy
  have hleft := healthy_of_left record check healthy
  obtain ⟨halternating, hparity⟩ := alternating_step _ _ hleft h.alternating h.parity
  refine ⟨?_, ?_, ?_, halternating, hparity⟩
  · rw [hfailures, h.failures, streak_snoc]
  · rw [hsuccesses, h.successes, streak_snoc]
  · cases healthy with
    | false =>
      have hpos : 1 ≤ up check := by unfold up; omega
      rw [status_false, h.status, latched_bad hpos, streak_snoc, if_pos rfl, h.failures]
      have hreach : check.failureThreshold ≤ (streak false t : ℤ) + 1 ↔
          down check ≤ streak false t + 1 := by
        unfold down
        omega
      rw [hreach]
    | true =>
      have hpos : 1 ≤ down check := by unfold down; omega
      rw [status_true, h.status, latched_good hpos, streak_snoc, if_pos rfl, h.successes]
      have hshort : (streak true t : ℤ) + 1 < check.successThreshold ↔
          streak true t + 1 < up check := by
        unfold up
        omega
      rw [hshort]

/-! ## Runs of the monitor -/

theorem eventsOf_append (m m' : HealthMonitor) (a b : ℕ) (es : List HealthEvent)
    (h : m'.published = m.published ++ es.map (b, ·)) :
    m'.eventsOf a = m.eventsOf a ++ if b = a then es else [] := by
  unfold eventsOf
  rw [h, List.filterMap_append, List.filterMap_map]
  by_cases hab : b = a
  · subst hab
    simp
  · simp [hab]

/-- A probe that ends for a registration. -/
theorem probed_some {m : HealthMonitor} {a : ℕ} {reg : Registration} (h : m.objects[a]? = some reg)
    (outcome : ProbeOutcome) :
    m.step (.probed a outcome) =
      { m with
        objects := m.objects.set a
          ⟨reg.check, (outcome.note reg.record).applyResult reg.check outcome.healthy⟩
        published := m.published ++
          (((outcome.note reg.record).applyResult reg.check outcome.healthy).transition
            reg.record.status).map (a, ·) } := by
  simp only [step, probed, h]

theorem probed_none {m : HealthMonitor} {a : ℕ} (h : m.objects[a]? = none)
    (outcome : ProbeOutcome) : m.step (.probed a outcome) = m := by
  simp only [step, probed, h]

/-- **The steps of a monitor** tell one registration its own results only. -/
theorem told_run {a : ℕ} (hdown : 1 ≤ check.failureThreshold) (hup : 1 ≤ check.successThreshold)
    (steps : List MonitorStep) : ∀ (m : HealthMonitor) record t,
      m.objects[a]? = some ⟨check, record⟩ → Told check record (m.eventsOf a) t →
        ∃ record', (steps.foldl step m).objects[a]? = some ⟨check, record'⟩ ∧
          Told check record' ((steps.foldl step m).eventsOf a)
            (t ++ MonitorStep.results a steps) := by
  induction steps with
  | nil =>
    intro m record t hreg htold
    exact ⟨record, hreg, by simpa [MonitorStep.results] using htold⟩
  | cons s steps ih =>
    intro m record t hreg htold
    cases s with
    | register componentId componentType check' =>
      have hlt := (List.getElem?_eq_some_iff.1 hreg).1
      refine ih _ record t ?_ htold
      show (m.objects ++ _)[a]? = _
      rw [List.getElem?_append_left hlt, hreg]
    | unregister componentId => exact ih _ record t hreg htold
    | probed b outcome =>
      cases hb : m.objects[b]? with
      | none =>
        have hne : b ≠ a := by
          rintro rfl
          rw [hb] at hreg
          cases hreg
        have hresults : MonitorStep.results a (.probed b outcome :: steps) =
            MonitorStep.results a steps := by simp [MonitorStep.results, hne]
        rw [List.foldl_cons, probed_none hb, hresults]
        exact ih m record t hreg htold
      | some reg =>
        have hevents := eventsOf_append m (m.step (.probed b outcome)) a b
          (((outcome.note reg.record).applyResult reg.check outcome.healthy).transition
            reg.record.status) (by rw [probed_some hb])
        by_cases hba : b = a
        · subst hba
          obtain rfl := Option.some.inj (hb.symm.trans hreg)
          have hlt := (List.getElem?_eq_some_iff.1 hreg).1
          have hstatus : (outcome.note record).status = record.status := by
            cases outcome with
            | returned healthy => rfl
            | raised text className => rfl
          have hnext := told_step hdown hup (htold.note outcome) outcome.healthy
          rw [hstatus] at hnext
          rw [if_pos rfl] at hevents
          have hresults : t ++ MonitorStep.results b (.probed b outcome :: steps) =
              t ++ [outcome.healthy] ++ MonitorStep.results b steps := by
            simp [MonitorStep.results]
          rw [List.foldl_cons, hresults]
          refine ih _ ((outcome.note record).applyResult check outcome.healthy) _ ?_ ?_
          · rw [probed_some hb]
            exact List.getElem?_set_self hlt
          · rw [← hevents] at hnext
            exact hnext
        · have hresults : MonitorStep.results a (.probed b outcome :: steps) =
              MonitorStep.results a steps := by simp [MonitorStep.results, hba]
          rw [if_neg hba, List.append_nil] at hevents
          rw [List.foldl_cons, hresults]
          refine ih _ record t ?_ ?_
          · rw [probed_some hb]
            exact (List.getElem?_set_ne hba).trans hreg
          · rw [hevents]
            exact htold

/-- The events of a monitor are about registrations that it has. -/
theorem published_lt (steps : List MonitorStep) :
    ∀ e ∈ (steps.foldl step {}).published, e.1 < (steps.foldl step {}).objects.length := by
  refine History.run_invariant step (fun m => ∀ e ∈ m.published, e.1 < m.objects.length) ?_ steps {}
    (by simp)
  intro m s h e he
  cases s with
  | register componentId componentType check =>
    have hlt := h e he
    show e.1 < (m.objects ++ _).length
    rw [List.length_append]
    omega
  | unregister componentId => exact h e he
  | probed a outcome =>
    cases ha : m.objects[a]? with
    | none =>
      rw [probed_none ha] at he ⊢
      exact h e he
    | some reg =>
      have hlt := (List.getElem?_eq_some_iff.1 ha).1
      rw [probed_some ha] at he ⊢
      simp only [List.mem_append, List.mem_map, List.length_set] at he ⊢
      rcases he with he | ⟨e', -, rfl⟩
      · exact h e he
      · exact hlt

/-- **A registered component**: after any steps, its status is told from the results of its probes,
and the events that these led to alternate. -/
theorem health_history (before after : List MonitorStep) (componentId componentType : String)
    (check : HealthCheck) (hdown : 1 ≤ check.failureThreshold)
    (hup : 1 ≤ check.successThreshold) :
    let a := (before.foldl step {}).objects.length
    let m := (before ++ .register componentId componentType check :: after).foldl step {}
    (∃ record, m.recordAt a = some record ∧
        (record.status = .unhealthy ↔ ∃ xs ys, MonitorStep.results a after =
            xs ++ List.replicate check.failureThreshold.toNat false ++ ys ∧
              ¬ List.replicate check.successThreshold.toNat true <:+: ys)) ∧
      Alternating (m.eventsOf a) := by
  intro a m
  have hnone : (before.foldl step {}).eventsOf a = [] := by
    unfold eventsOf
    rw [List.filterMap_eq_nil_iff]
    intro e he
    have hlt := published_lt before e he
    rw [if_neg (by omega)]
  have hreg : ((before.foldl step {}).register componentId componentType check).objects[a]? =
      some ⟨check, { componentId, componentType }⟩ := by
    simp [register, a]
  have hnew : Told check { componentId, componentType }
      (((before.foldl step {}).register componentId componentType check).eventsOf a) [] := by
    show Told check _ ((before.foldl step {}).eventsOf a) []
    rw [hnone]
    exact told_new hdown componentId componentType
  obtain ⟨record, hrecord, htold⟩ := told_run hdown hup after _ _ [] hreg hnew
  have hm : m = after.foldl step ((before.foldl step {}).register componentId componentType check) := by
    simp only [m, List.foldl_append, List.foldl_cons]
    rfl
  rw [hm]
  refine ⟨⟨record, ?_, ?_⟩, htold.alternating⟩
  · unfold recordAt
    rw [hrecord]
    rfl
  · exact htold.status

/-- Two failures, and successes that never come twice in succession. -/
theorem health_history_flapping :
    let m := [MonitorStep.register "a1" "agent" ⟨2, 2⟩, .probed 0 (.returned false),
      .probed 0 (.raised "" "TimeoutError"), .probed 0 (.returned true), .probed 0 (.returned false),
      .probed 0 (.returned true)].foldl step {}
    (∃ record, m.recordAt 0 = some record ∧ record.status = .unhealthy) ∧
      Alternating (m.eventsOf 0) := by
  obtain ⟨⟨record, hrecord, hstatus⟩, halternating⟩ :=
    health_history [] [.probed 0 (.returned false), .probed 0 (.raised "" "TimeoutError"),
      .probed 0 (.returned true), .probed 0 (.returned false), .probed 0 (.returned true)]
      "a1" "agent" ⟨2, 2⟩ (by decide) (by decide)
  exact ⟨⟨record, hrecord, hstatus.2 ⟨[], [true, false, true], rfl, by decide⟩⟩, halternating⟩

end HealthMonitor

end Hermes

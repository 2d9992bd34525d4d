import Hermes.Spec.Recovery

/-!
# The restarts of a component

A call reads the count of its component when it begins, and writes the next number when the agent
has been stopped and started. A call that another restart of the component came in between writes a
number that is too low.

* `budget_step_iff`: a step keeps the budget exactly when the restart that it completes, if any, is
  timely.
* `restart_budget_iff`: any interleaving of calls.
-/

namespace Hermes

namespace RecoveryEngine

open Flight

variable {s : RecoveryEngine}

/-- No restart of the component succeeds between the begin and the end of one that does. -/
def Timely (s : RecoveryEngine) : RecoveryStep → Prop
  | .started n .returned _ => ∀ call ∈ s.calls[n]?, call.phase = .starting →
      call.componentId ∉ s.restarts.drop call.begun
  | _ => True

instance (s : RecoveryEngine) (e : RecoveryStep) : Decidable (Timely s e) := by
  unfold Timely
  split
  · exact inferInstance
  · exact inferInstance

/-- What a call that waits has read: the number of the restarts before it, which is below the
limit. -/
structure Reads (s : RecoveryEngine) : Prop where
  below : ∀ call ∈ s.calls, call.phase ≠ .over → (call.restarts : ℤ) < s.maxRestarts
  read : ∀ call ∈ s.calls, call.phase ≠ .over →
    call.begun ≤ s.restarts.length ∧
      call.restarts = (s.restarts.take call.begun).count call.componentId

/-! ## What the parts of a step do -/

theorem restartCount_restarted (componentId c : String) (n : ℕ) :
    (s.restarted componentId n).restartCount c =
      if c = componentId then n + 1 else s.restartCount c := by
  unfold restartCount restarted
  rw [Dict.get?_insert]
  split
  · rfl
  · rfl

theorem restarts_restarted (componentId : String) (n : ℕ) :
    (s.restarted componentId n).restarts = s.restarts ++ [componentId] := by
  unfold restarts restarted
  rw [List.map_append, List.map_singleton]

/-- The budget does not look at the dead letters and at the calls. -/
theorem withinBudget_congr {s' : RecoveryEngine} (hmax : s'.maxRestarts = s.maxRestarts)
    (hcounts : s'.restartCounts = s.restartCounts) (hrecovered : s'.recovered = s.recovered) :
    s'.WithinBudget ↔ s.WithinBudget := by
  have hcount : ∀ c, s'.restartCount c = s.restartCount c := by
    intro c
    unfold restartCount
    rw [hcounts]
  have hrestarts : s'.restarts = s.restarts := by
    unfold restarts
    rw [hrecovered]
  constructor
  · rintro ⟨hcounted, hbounded⟩
    exact ⟨by simpa only [hcount, hrestarts] using hcounted,
      by simpa only [hmax, hrestarts] using hbounded⟩
  · rintro ⟨hcounted, hbounded⟩
    exact ⟨by simpa only [hcount, hrestarts] using hcounted,
      by simpa only [hmax, hrestarts] using hbounded⟩

/-- **A restart that succeeds** after its call read `n`. -/
theorem withinBudget_restarted (h : s.WithinBudget) {componentId : String} {n : ℕ}
    (hn : (n : ℤ) < s.maxRestarts) :
    (s.restarted componentId n).WithinBudget ↔ n = s.restarts.count componentId := by
  obtain ⟨hcounted, hbounded⟩ := h
  constructor
  · rintro ⟨hcounted', -⟩
    have hsame := hcounted' componentId
    rw [restartCount_restarted, if_pos rfl, restarts_restarted, List.count_append,
      List.count_singleton_self] at hsame
    omega
  · intro hread
    refine ⟨fun c => ?_, fun c => ?_⟩
    · rw [restartCount_restarted, restarts_restarted, List.count_append]
      by_cases hc : c = componentId
      · subst hc
        rw [if_pos rfl, List.count_singleton_self, hread]
      · have hzero : List.count c [componentId] = 0 :=
          List.count_eq_zero.2 fun hmem => hc (List.mem_singleton.1 hmem)
        rw [if_neg hc, hzero, hcounted c, Nat.add_zero]
    · rw [restarts_restarted, List.count_append]
      by_cases hc : c = componentId
      · subst hc
        have hmax : (s.restarted c n).maxRestarts = s.maxRestarts := rfl
        rw [List.count_singleton_self, hmax]
        push_cast
        omega
      · have hzero : List.count c [componentId] = 0 :=
          List.count_eq_zero.2 fun hmem => hc (List.mem_singleton.1 hmem)
        rw [hzero, Nat.add_zero]
        exact hbounded c

/-- What a call read is the count now exactly when no restart of the component came in between. -/
theorem read_iff (h : Reads s) {call : RecoveryCall} (hcall : call ∈ s.calls)
    (hphase : call.phase ≠ .over) :
    call.restarts = s.restarts.count call.componentId ↔
      call.componentId ∉ s.restarts.drop call.begun := by
  obtain ⟨-, hread⟩ := h.read call hcall hphase
  have hsplit : s.restarts.count call.componentId =
      (s.restarts.take call.begun).count call.componentId +
        (s.restarts.drop call.begun).count call.componentId := by
    rw [← List.count_append, List.take_append_drop]
  rw [← List.count_eq_zero, hread, hsplit]
  omega

/-! ## Steps -/

/-- The counts, and what is known of restarts, are the same. -/
structure SameCounts (s s' : RecoveryEngine) : Prop where
  max : s'.maxRestarts = s.maxRestarts
  counts : s'.restartCounts = s.restartCounts
  recovered : s'.recovered = s.recovered

/-- A step completes a restart of a component, whose call read `n`. -/
inductive Completes (s : RecoveryEngine) : RecoveryStep → String → ℕ → Prop where
  | workflow {componentId componentType lookup lastError}
      (below : (s.restartCount componentId : ℤ) < s.maxRestarts) :
      Completes s (.unhealthy componentId componentType lookup lastError) componentId
        (s.restartCount componentId)
  | agent {n call lastError} (waits : s.calls[n]? = some call) (starting : call.phase = .starting) :
      Completes s (.started n .returned lastError) call.componentId call.restarts

/-- A call that waits has waited before, or has just read the count of its component. -/
def WaitsFrom (s : RecoveryEngine) (call : RecoveryCall) : Prop :=
  (∃ old ∈ s.calls, old.phase ≠ .over ∧ old.componentId = call.componentId ∧
      old.restarts = call.restarts ∧ old.begun = call.begun) ∨
    call.restarts = s.restartCount call.componentId ∧ call.begun = s.recovered.length ∧
      (call.restarts : ℤ) < s.maxRestarts

/-- What a step comes to: it leaves the counts alone, or completes a restart; and its calls wait as
they did, or have just read a count. -/
def Moves (s : RecoveryEngine) (e : RecoveryStep) (s' : RecoveryEngine) : Prop :=
  (SameCounts s s' ∧ Timely s e ∨
      ∃ componentId n, Completes s e componentId n ∧ SameCounts (s.restarted componentId n) s') ∧
    ∀ c ∈ s'.calls, c.phase ≠ .over → WaitsFrom s c

theorem waitsFrom_await {s' : RecoveryEngine} (hcalls : s'.calls = s.calls) {call : RecoveryCall}
    (hcall : call.phase = .over ∨ WaitsFrom s call) :
    ∀ c ∈ (s'.await call).calls, c.phase ≠ .over → WaitsFrom s c := by
  intro c hc hphase
  unfold await at hc
  rw [hcalls] at hc
  rcases List.mem_append.1 hc with hc | hc
  · exact .inl ⟨c, hc, hphase, rfl, rfl, rfl⟩
  · rw [List.mem_singleton.1 hc] at hphase ⊢
    exact hcall.resolve_left hphase

theorem waitsFrom_goOn {s' : RecoveryEngine} (hcalls : s'.calls = s.calls) {n : ℕ}
    {call : RecoveryCall} (hn : s.calls[n]? = some call) (hwaits : call.phase ≠ .over)
    (phase : RecoveryPhase) :
    ∀ c ∈ (s'.goOn n call phase).calls, c.phase ≠ .over → WaitsFrom s c := by
  intro c hc hphase
  unfold goOn at hc
  rw [hcalls] at hc
  rcases List.mem_or_eq_of_mem_set hc with hc | rfl
  · exact .inl ⟨c, hc, hphase, rfl, rfl, rfl⟩
  · exact .inl ⟨call, List.mem_of_getElem? hn, hwaits, rfl, rfl, rfl⟩

theorem waitsFrom_self : ∀ c ∈ s.calls, c.phase ≠ .over → WaitsFrom s c :=
  fun c hc hphase => .inl ⟨c, hc, hphase, rfl, rfl, rfl⟩

/-- A call begins. -/
theorem unhealthy_moves (s : RecoveryEngine) (componentId componentType : String)
    (lookup : RecoveryLookup) (lastError : Option String) :
    Moves s (.unhealthy componentId componentType lookup lastError)
      (s.unhealthy componentId componentType lookup lastError) := by
  unfold unhealthy
  by_cases hlimit : s.maxRestarts ≤ s.restartCount componentId
  · rw [if_pos hlimit]
    exact ⟨.inl ⟨⟨rfl, rfl, rfl⟩, trivial⟩, waitsFrom_await rfl (.inl rfl)⟩
  · rw [if_neg hlimit]
    have hbelow := not_le.1 hlimit
    by_cases htype : componentType = "workflow"
    · rw [if_pos htype]
      cases lookup with
      | raised => exact ⟨.inl ⟨⟨rfl, rfl, rfl⟩, trivial⟩, waitsFrom_await rfl (.inl rfl)⟩
      | found =>
        refine ⟨.inr ⟨_, _, .workflow hbelow, rfl, rfl, rfl⟩, ?_⟩
        apply waitsFrom_await
        · rfl
        · exact .inl rfl
      | missing =>
        refine ⟨.inr ⟨_, _, .workflow hbelow, rfl, rfl, rfl⟩, ?_⟩
        apply waitsFrom_await
        · rfl
        · exact .inl rfl
    · rw [if_neg htype]
      cases lookup with
      | raised => exact ⟨.inl ⟨⟨rfl, rfl, rfl⟩, trivial⟩, waitsFrom_await rfl (.inl rfl)⟩
      | missing => exact ⟨.inl ⟨⟨rfl, rfl, rfl⟩, trivial⟩, waitsFrom_await rfl (.inl rfl)⟩
      | found =>
        refine ⟨.inl ⟨⟨rfl, rfl, rfl⟩, trivial⟩, waitsFrom_await rfl (.inr (.inr ?_))⟩
        exact ⟨rfl, rfl, hbelow⟩

theorem step_stopped {n : ℕ} {call : RecoveryCall} (hn : s.calls[n]? = some call)
    (hphase : call.phase = .stopping) (how : Ending) (lastError : Option String) :
    s.step (.stopped n how lastError) =
      match how with
      | .returned => s.goOn n call .starting
      | .raised => (s.escalate call.componentId call.componentType lastError).goOn n call .over
      | .cancelled => s.goOn n call .over := by
  cases how with
  | returned => simp only [step, hn, if_pos hphase]
  | raised => simp only [step, hn, if_pos hphase]
  | cancelled => simp only [step, hn, if_pos hphase]

theorem step_started {n : ℕ} {call : RecoveryCall} (hn : s.calls[n]? = some call)
    (hphase : call.phase = .starting) (how : Ending) (lastError : Option String) :
    s.step (.started n how lastError) =
      match how with
      | .returned => (s.restarted call.componentId call.restarts).goOn n call .over
      | .raised => (s.escalate call.componentId call.componentType lastError).goOn n call .over
      | .cancelled => s.goOn n call .over := by
  cases how with
  | returned => simp only [step, hn, if_pos hphase]
  | raised => simp only [step, hn, if_pos hphase]
  | cancelled => simp only [step, hn, if_pos hphase]

/-- Nothing happens to a call that is not there, or not at that await. -/
theorem step_idle {n : ℕ} (how : Ending) (lastError : Option String) :
    ((∀ call ∈ s.calls[n]?, call.phase ≠ .stopping) → s.step (.stopped n how lastError) = s) ∧
      ((∀ call ∈ s.calls[n]?, call.phase ≠ .starting) →
        s.step (.started n how lastError) = s ∧ Timely s (.started n how lastError)) := by
  cases hn : s.calls[n]? with
  | none =>
    refine ⟨fun _ => by simp only [step, hn], fun _ => ⟨by simp only [step, hn], ?_⟩⟩
    cases how with
    | returned => simp [Timely, hn]
    | raised => trivial
    | cancelled => trivial
  | some call =>
    refine ⟨fun h => ?_, fun h => ⟨?_, ?_⟩⟩
    · simp only [step, hn, if_neg (h call rfl)]
    · simp only [step, hn, if_neg (h call rfl)]
    · cases how with
      | returned => simp [Timely, hn, h call rfl]
      | raised => trivial
      | cancelled => trivial

/-- **What a step does.** -/
theorem step_cases (s : RecoveryEngine) (e : RecoveryStep) : Moves s e (s.step e) := by
  cases e with
  | unhealthy componentId componentType lookup lastError =>
    exact unhealthy_moves s componentId componentType lookup lastError
  | stopped n how lastError =>
    by_cases hidle : ∀ call ∈ s.calls[n]?, call.phase ≠ .stopping
    · rw [(step_idle how lastError).1 hidle]
      exact ⟨.inl ⟨⟨rfl, rfl, rfl⟩, trivial⟩, waitsFrom_self⟩
    · push Not at hidle
      obtain ⟨call, hn, hphase⟩ := hidle
      have hwaits : call.phase ≠ .over := by rw [hphase]; exact nofun
      rw [step_stopped hn hphase]
      cases how with
      | returned => exact ⟨.inl ⟨⟨rfl, rfl, rfl⟩, trivial⟩, waitsFrom_goOn rfl hn hwaits _⟩
      | raised => exact ⟨.inl ⟨⟨rfl, rfl, rfl⟩, trivial⟩, waitsFrom_goOn rfl hn hwaits _⟩
      | cancelled => exact ⟨.inl ⟨⟨rfl, rfl, rfl⟩, trivial⟩, waitsFrom_goOn rfl hn hwaits _⟩
  | started n how lastError =>
    by_cases hidle : ∀ call ∈ s.calls[n]?, call.phase ≠ .starting
    · obtain ⟨hstep, htimely⟩ := (step_idle how lastError).2 hidle
      rw [hstep]
      exact ⟨.inl ⟨⟨rfl, rfl, rfl⟩, htimely⟩, waitsFrom_self⟩
    · push Not at hidle
      obtain ⟨call, hn, hphase⟩ := hidle
      have hwaits : call.phase ≠ .over := by rw [hphase]; exact nofun
      rw [step_started hn hphase]
      cases how with
      | returned =>
        exact ⟨.inr ⟨_, _, .agent hn hphase, rfl, rfl, rfl⟩, waitsFrom_goOn rfl hn hwaits _⟩
      | raised => exact ⟨.inl ⟨⟨rfl, rfl, rfl⟩, trivial⟩, waitsFrom_goOn rfl hn hwaits _⟩
      | cancelled => exact ⟨.inl ⟨⟨rfl, rfl, rfl⟩, trivial⟩, waitsFrom_goOn rfl hn hwaits _⟩

/-- **A step keeps the budget** exactly when the restart that it completes is timely. -/
theorem budget_step_iff (hreads : Reads s) (h : s.WithinBudget) (e : RecoveryStep) :
    (s.step e).WithinBudget ↔ Timely s e := by
  obtain ⟨⟨hsame, htimely⟩ | ⟨componentId, n, hcompletes, hsame⟩, -⟩ := step_cases s e
  · rw [withinBudget_congr hsame.max hsame.counts hsame.recovered]
    exact iff_of_true h htimely
  · rw [withinBudget_congr hsame.max hsame.counts hsame.recovered]
    cases hcompletes with
    | workflow hbelow =>
      rw [withinBudget_restarted h hbelow]
      exact iff_of_true (h.counted componentId) trivial
    | agent hn hphase =>
      rename_i k call lastError
      have hcall := List.mem_of_getElem? hn
      have hwaits : call.phase ≠ .over := by rw [hphase]; exact nofun
      rw [withinBudget_restarted h (hreads.below call hcall hwaits), read_iff hreads hcall hwaits]
      simp [Timely, hn, hphase]

/-- **A step keeps what the waiting calls read.** -/
theorem reads_step (hreads : Reads s) (h : s.WithinBudget) (e : RecoveryStep) :
    Reads (s.step e) := by
  obtain ⟨hmoves, hwaits⟩ := step_cases s e
  have hmax : (s.step e).maxRestarts = s.maxRestarts := by
    rcases hmoves with ⟨hsame, -⟩ | ⟨_, _, -, hsame⟩
    · exact hsame.max
    · exact hsame.max
  have hrestarts : s.restarts <+: (s.step e).restarts := by
    unfold restarts
    rcases hmoves with ⟨hsame, -⟩ | ⟨_, _, -, hsame⟩
    · rw [hsame.recovered]
    · rw [hsame.recovered]
      exact (List.prefix_append _ _).map _
  obtain ⟨later, hlater⟩ := hrestarts
  refine ⟨fun call hcall hphase => ?_, fun call hcall hphase => ?_⟩
  · rw [hmax]
    rcases hwaits call hcall hphase with ⟨old, hold, hwait, -, hread, -⟩ | ⟨-, -, hbelow⟩
    · rw [← hread]
      exact hreads.below old hold hwait
    · exact hbelow
  · rw [← hlater, List.length_append]
    rcases hwaits call hcall hphase with
      ⟨old, hold, hwait, hcomponent, hread, hbegun⟩ | ⟨hread, hbegun, -⟩
    · obtain ⟨hle, hcount⟩ := hreads.read old hold hwait
      rw [← hbegun, List.take_append_of_le_length hle, ← hcomponent, ← hread]
      exact ⟨by omega, hcount⟩
    · have hlen : call.begun = s.restarts.length := by
        rw [hbegun]
        exact List.length_map _ |>.symm
      rw [hlen, List.take_left, hread]
      exact ⟨by omega, h.counted _⟩

/-! ## Runs -/

/-- At the limit, a call leaves a dead letter. -/
theorem escalatesAtLimit (h : s.WithinBudget) (e : RecoveryStep) : s.EscalatesAtLimit e := by
  cases e with
  | stopped n how lastError => trivial
  | started n how lastError => trivial
  | unhealthy componentId componentType lookup lastError =>
    intro hlimit
    rw [← h.counted] at hlimit
    have hstep : s.step (.unhealthy componentId componentType lookup lastError) =
        (s.escalate componentId componentType lastError).await
          { componentId, componentType, restarts := s.restartCount componentId,
            begun := s.recovered.length, phase := .over } := by
      show s.unhealthy componentId componentType lookup lastError = _
      unfold unhealthy
      exact if_pos hlimit
    rw [hstep]
    exact ⟨_, _, rfl, rfl, rfl⟩

/-- A new engine. -/
theorem withinBudget_new (maxRestarts : ℤ) : WithinBudget { maxRestarts } where
  counted _ := rfl
  bounded _ := le_max_right _ _

theorem reads_new (maxRestarts : ℤ) : Reads { maxRestarts } where
  below := by simp
  read := by simp

/-- **The restart budget**, over every interleaving of calls. -/
theorem restart_budget_iff (maxRestarts : ℤ) (es : List RecoveryStep) :
    History.Throughout step WithinBudget { maxRestarts } es ∧
        History.EachStep step EscalatesAtLimit { maxRestarts } es ↔
      History.EachStep step Timely { maxRestarts } es := by
  have hiff := History.throughout_iff_eachStep (A := fun _ _ => True) (I := Reads)
    (P := WithinBudget) (C := Timely) (fun s e _ hreads h _ => reads_step hreads h e)
    (fun s e _ hreads h => budget_step_iff hreads h e) es { maxRestarts }
    (History.eachStep_of_mem (fun _ _ _ => trivial) _) (reads_new maxRestarts)
    (withinBudget_new maxRestarts)
  rw [hiff, and_iff_left_iff_imp]
  intro htimely
  exact (hiff.2 htimely).eachStep_of fun s e h => escalatesAtLimit h e

/-- Two calls for one agent, which both stop and start it. -/
theorem overlapping_restarts :
    ¬ (History.Throughout step WithinBudget { maxRestarts := 1 }
          [.unhealthy "a1" "agent" .found none, .unhealthy "a1" "agent" .found none,
            .stopped 0 .returned none, .stopped 1 .returned none, .started 0 .returned none,
            .started 1 .returned none] ∧
        History.EachStep step EscalatesAtLimit { maxRestarts := 1 }
          [.unhealthy "a1" "agent" .found none, .unhealthy "a1" "agent" .found none,
            .stopped 0 .returned none, .stopped 1 .returned none, .started 0 .returned none,
            .started 1 .returned none]) := by
  rintro ⟨⟨-, -, -, -, -, -, hlast⟩, -⟩
  have hcounted := hlast.counted "a1"
  revert hcounted
  decide

end RecoveryEngine

end Hermes

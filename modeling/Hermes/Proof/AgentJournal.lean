import Hermes.Spec.AgentLife

/-!
# The journal knows which agents run

* `publish_cases`: what a publication does; the event is in the journal even if `append` raises.
* `journal_knows`: whatever starts and stops overlap, and whatever others write, a projection of the
  journal tells at any time which agents run; nothing is on the bus before it is in the journal, and the
  monitor watches the agents that run, and no others.
-/

namespace Hermes

namespace AgentLife

variable {τ : Type} {codec : EventCodec LifePayload τ} {s : AgentLife τ}

theorem replayAgents_snoc (events : List (DomainEvent LifePayload τ)) (e : DomainEvent LifePayload τ)
    (agentId : String) : replayAgents (events ++ [e]) agentId =
      if e.aggregateId = agentId then
        if e.type = "agent.started" then e.payload.lookup "agent_type"
        else if e.type = "agent.stopped" then none
        else replayAgents events agentId
      else replayAgents events agentId := by
  unfold replayAgents
  rw [List.foldl_append]
  rfl

variable (codec) in
/-- An event is in the journal of the store even if `append` raises. -/
theorem events_append (store : EventStore LifePayload τ) (e : DomainEvent LifePayload τ) :
    (store.append codec (.event e)).2.events = store.events ++ [e] := by
  unfold EventStore.append
  simp only
  split
  · rfl
  · split
    · rfl
    · split <;> rfl

variable (codec) in
/-- **What a publication does**: the event is in the journal, if there is one, and then it may be on the
bus. Nothing else changes. -/
theorem publish_cases (s : AgentLife τ) (e : DomainEvent LifePayload τ) :
    (s.publish codec e).agents = s.agents ∧ (s.publish codec e).health = s.health ∧
      (s.publish codec e).store.map (·.events) = s.store.map (·.events ++ [e]) ∧
      ((s.publish codec e).published = s.published ++ [e] ∨
        s.store.isSome = true ∧ (s.publish codec e).published = s.published) := by
  unfold publish
  cases hstore : s.store with
  | none => exact ⟨rfl, rfl, by simp, .inl rfl⟩
  | some store =>
    simp only
    have hevents := events_append codec store e
    split
    · rename_i heq
      rw [heq] at hevents
      exact ⟨rfl, rfl, by simpa using hevents, .inr ⟨rfl, rfl⟩⟩
    · rename_i heq
      rw [heq] at hevents
      exact ⟨rfl, rfl, by simpa using hevents, .inl rfl⟩

/-- The monitor watches the agents that run, and no others. -/
def Watches (m : HealthMonitor) (agents : Dict String LiveAgent) : Prop :=
  ∀ agentId, (m.registry.get? agentId).isSome = (agents.get? agentId).isSome

/-- What holds of a runtime at any time. -/
structure Journaled (s : AgentLife τ) : Prop where
  replay : ∀ store ∈ s.store, ∀ agentId,
    replayAgents store.events agentId = (s.agents.get? agentId).map (·.className)
  published : ∀ store ∈ s.store, s.published.Sublist store.events
  watched : ∀ m ∈ s.health, Watches m s.agents

/-- A change of the agents, with the event that tells of it. -/
theorem Journaled.publish (h : Journaled s) {agents : Dict String LiveAgent} {health : Option HealthMonitor}
    {e : DomainEvent LifePayload τ} {l : List String}
    (hreplay : ∀ events, (∀ agentId, replayAgents events agentId =
        (s.agents.get? agentId).map (·.className)) → ∀ agentId,
      replayAgents (events ++ [e]) agentId = (agents.get? agentId).map (·.className))
    (hwatched : ∀ m ∈ health, Watches m agents) :
    Journaled ({ s with agents, health, stopping := l }.publish codec e) := by
  obtain ⟨hagents, hhealth, hevents, hpublished⟩ :=
    publish_cases codec { s with agents, health, stopping := l } e
  have hstore : ∀ store' ∈ ({ s with agents, health, stopping := l }.publish codec e).store,
      ∃ store ∈ s.store, store'.events = store.events ++ [e] := by
    intro store' hstore'
    rw [Option.mem_def.1 hstore'] at hevents
    obtain ⟨store, hstore, heq⟩ := Option.map_eq_some_iff.1 hevents.symm
    exact ⟨store, hstore, heq.symm⟩
  refine ⟨fun store' hs => ?_, fun store' hs => ?_, fun m hm => ?_⟩
  · obtain ⟨store, hold, heq⟩ := hstore store' hs
    rw [heq, hagents]
    exact hreplay _ (h.replay store hold)
  · obtain ⟨store, hold, heq⟩ := hstore store' hs
    rw [heq]
    rcases hpublished with hp | ⟨-, hp⟩
    · rw [hp]
      exact (h.published store hold).append (List.Sublist.refl [e])
    · rw [hp]
      exact (h.published store hold).trans (List.sublist_append_left _ _)
  · rw [hagents]
    rw [hhealth] at hm
    exact hwatched m hm

theorem Journaled.started (h : Journaled s) (agent : LiveAgent) (agentId eventId : String) (now : τ) :
    Journaled (s.started codec agent agentId eventId now) := by
  refine h.publish (fun events hevents j => ?_) fun m hm j => ?_
  · rw [replayAgents_snoc, Dict.get?_insert]
    by_cases hj : j = agentId
    · subst hj
      simp
    · rw [if_neg (Ne.symm hj), if_neg hj]
      exact hevents j
  · obtain ⟨m', hm', rfl⟩ := Option.map_eq_some_iff.1 hm
    have := h.watched m' hm' j
    show ((m'.registry.insert agentId _).get? j).isSome = _
    rw [Dict.get?_insert, Dict.get?_insert]
    split
    · rfl
    · exact this

theorem Journaled.stopped (h : Journaled s) (agentId eventId : String) (now : τ) (stopping : List String) :
    Journaled ({ s with stopping }.stopped codec agentId eventId now) := by
  refine h.publish (fun events hevents j => ?_) fun m hm j => ?_
  · rw [replayAgents_snoc, Dict.get?_erase]
    by_cases hj : j = agentId
    · subst hj
      simp
    · rw [if_neg (Ne.symm hj), if_neg hj]
      exact hevents j
  · obtain ⟨m', hm', rfl⟩ := Option.map_eq_some_iff.1 hm
    have := h.watched m' hm' j
    show ((m'.registry.erase agentId).get? j).isSome = _
    rw [Dict.get?_erase, Dict.get?_erase]
    split
    · rfl
    · exact this

/-- What others write does not change what is known of the agents. -/
theorem Journaled.other (h : Journaled s) (e : { e : DomainEvent LifePayload τ // e.type ∉ lifecycleTypes }) :
    Journaled (s.publish codec e.1) := by
  refine h.publish (l := s.stopping) (fun events hevents j => ?_) h.watched
  have htypes : e.1.type ≠ "agent.started" ∧ e.1.type ≠ "agent.stopped" := by
    simpa [lifecycleTypes] using e.2
  rw [replayAgents_snoc, if_neg htypes.1, if_neg htypes.2, ite_self]
  exact hevents j

/-- **One step.** -/
theorem Journaled.step (h : Journaled s) (e : LifeStep τ) : Journaled (s.step codec e) := by
  cases e with
  | started agent agentId eventId now => exact h.started agent agentId eventId now
  | stop agentId =>
    show Journaled (if _ then _ else _)
    split
    · exact ⟨h.replay, h.published, h.watched⟩
    · exact h
  | stopped n eventId now =>
    simp only [AgentLife.step, stopReturns]
    split
    · exact h
    · exact h.stopped _ eventId now _
  | stopFailed n => exact ⟨h.replay, h.published, h.watched⟩
  | probed a outcome =>
    refine ⟨h.replay, h.published, fun m hm => ?_⟩
    obtain ⟨m', hm', rfl⟩ := Option.map_eq_some_iff.1 hm
    have hregistry : (m'.probed a outcome).registry = m'.registry := by
      unfold HealthMonitor.probed
      split <;> rfl
    intro j
    rw [hregistry]
    exact h.watched m' hm' j
  | other e => exact h.other e

variable (codec) in
theorem journaled_run (health : Bool) (journal : Option (Option (Index EventRow.id)))
    (steps : List (LifeStep τ)) : Journaled (run codec health journal steps) := by
  refine History.run_invariant (AgentLife.step codec) Journaled (fun _ e h => h.step e) steps _ ?_
  refine ⟨fun store hs agentId => ?_, fun store hs => List.nil_sublist _, fun m hm j => ?_⟩
  · obtain ⟨db, -, rfl⟩ := Option.map_eq_some_iff.1 hs
    rfl
  · unfold new at hm
    simp only at hm
    split at hm
    · cases hm
      rfl
    · cases hm

/-- A journal stays wired. -/
theorem store_isSome (s : AgentLife τ) (e : LifeStep τ) : (s.step codec e).store.isSome = s.store.isSome := by
  have hpublish : ∀ (s : AgentLife τ) (e : DomainEvent LifePayload τ),
      (s.publish codec e).store.isSome = s.store.isSome := by
    intro s e
    have := congrArg Option.isSome (publish_cases codec s e).2.2.1
    simpa using this
  cases e with
  | started agent agentId eventId now => exact hpublish _ _
  | stop agentId =>
    show (if _ then _ else _ : AgentLife τ).store.isSome = _
    split <;> rfl
  | stopped n eventId now =>
    simp only [AgentLife.step, stopReturns]
    split
    · rfl
    · exact hpublish _ _
  | stopFailed n => rfl
  | probed a outcome => rfl
  | other e => exact hpublish _ _

/-- **The journal knows which agents run**: at any time of any run, a projection of it gives the class of each
agent that runs, and of no other; what is on the bus is in the journal, in the same order; and the monitor
watches exactly the agents that are listed. -/
theorem journal_knows (health : Bool) (db : Option (Index EventRow.id)) (steps : List (LifeStep τ)) :
    ∃ store, (run codec health (some db) steps).store = some store ∧
      (∀ agentId, replayAgents store.events agentId =
        ((run codec health (some db) steps).agents.get? agentId).map (·.className)) ∧
      (run codec health (some db) steps).published.Sublist store.events ∧
      ∀ m, (run codec health (some db) steps).health = some m → ∀ agentId,
        (m.registry.get? agentId).isSome = true ↔ agentId ∈ (run codec health (some db) steps).list := by
  have h := journaled_run codec health (some db) steps
  have hwired : (run codec health (some db) steps).store.isSome = true :=
    History.run_invariant (AgentLife.step codec) (fun s => s.store.isSome = true)
      (fun s e hs => (store_isSome s e).trans hs) steps _ rfl
  obtain ⟨store, hstore⟩ := Option.isSome_iff_exists.1 hwired
  refine ⟨store, hstore, h.replay store hstore, h.published store hstore, fun m hm agentId => ?_⟩
  rw [h.watched m hm agentId]
  unfold AgentLife.list
  rw [← not_iff_not, ← Dict.get?_eq_none_iff, Option.not_isSome_iff_eq_none]

end AgentLife

end Hermes

import Hermes.Lib.History
import Hermes.Spec.EventBus

/-!
# What the event bus delivers

* `resolve_kept`, `resolve_matched`, `resolve_waits`: what the loop over the waiters does.
* `Waiting`, `decides`: a future that waits is decided by the first step that may decide it.
* `Delivering`: the handlers that a dispatch has called, and those it still has to call.
* `event_delivery`: each handler is called once, and each waiter gets its first event.
-/

namespace Hermes

namespace EventBus

variable {ε η : Type} (ids : IdSource String) (typeOf : ε → String)

/-! ## The loop over the waiters -/

variable {typeOf} {event : ε} {waiters : List (List String × ℕ)} {types : List String} {w : ℕ}

theorem listed_rest {waiter : List String × ℕ} (hne : waiter.2 ≠ w)
    (hmem : (types, w) ∈ waiter :: waiters) : (types, w) ∈ waiters := by
  rcases List.mem_cons.1 hmem with heq | hrest
  · exact absurd (congrArg Prod.snd heq).symm hne
  · exact hrest

theorem resolve_length : ∀ {futures : List (WaitState ε)},
    (resolveWaiters typeOf event waiters futures).2.length = futures.length := by
  induction waiters with
  | nil => exact rfl
  | cons waiter waiters ih =>
    intro futures
    unfold resolveWaiters
    split
    · split
      · rw [ih, List.length_set]
      · exact ih
    · exact ih

theorem resolve_sublist : ∀ {futures : List (WaitState ε)},
    (resolveWaiters typeOf event waiters futures).1.Sublist waiters := by
  induction waiters with
  | nil => exact List.Sublist.refl _
  | cons waiter waiters ih =>
    intro futures
    unfold resolveWaiters
    split
    · split
      · exact ih.cons _
      · exact ih.cons_cons _
    · exact ih.cons _

/-- What is done stays. -/
theorem resolve_kept : ∀ {futures : List (WaitState ε)}, futures[w]? ≠ some .pending →
    (resolveWaiters typeOf event waiters futures).2[w]? = futures[w]? := by
  induction waiters with
  | nil => exact fun _ => rfl
  | cons waiter waiters ih =>
    intro futures hdone
    unfold resolveWaiters
    split
    · rename_i hpending
      have hne : waiter.2 ≠ w := fun heq => hdone (heq ▸ hpending)
      split
      · have hsame : (futures.set waiter.2 (.resolved event))[w]? = futures[w]? :=
          List.getElem?_set_ne hne
        rw [ih (by rwa [hsame]), hsame]
      · exact ih hdone
    · exact ih hdone

/-- A waiter for the type of the event is resolved. -/
theorem resolve_matched (htypes : typeOf event ∈ types) : ∀ {futures : List (WaitState ε)},
    futures[w]? = some .pending → (types, w) ∈ waiters → (∀ t, (t, w) ∈ waiters → t = types) →
      (resolveWaiters typeOf event waiters futures).2[w]? = some (.resolved event) := by
  induction waiters with
  | nil => exact fun _ hmem => absurd hmem List.not_mem_nil
  | cons waiter waiters ih =>
    intro futures hpending hmem honly
    obtain ⟨t, fut⟩ := waiter
    unfold resolveWaiters
    by_cases hfut : fut = w
    · -- it is this waiter, and what is resolved stays
      subst hfut
      have ht : t = types := honly t List.mem_cons_self
      simp only [hpending, ht, if_pos htypes]
      have hlt : fut < futures.length := (List.getElem?_eq_some_iff.1 hpending).1
      have hset : (futures.set fut (WaitState.resolved event))[fut]? = some (.resolved event) :=
        List.getElem?_set_self hlt
      rw [resolve_kept (by rw [hset]; nofun), hset]
    · have hrest : (types, w) ∈ waiters := listed_rest hfut hmem
      have honly' : ∀ t, (t, w) ∈ waiters → t = types := fun t ht => honly t (List.mem_cons_of_mem _ ht)
      split
      · split
        · exact ih ((List.getElem?_set_ne hfut).trans hpending) hrest honly'
        · exact ih hpending hrest honly'
      · exact ih hpending hrest honly'

/-- A waiter for other types goes on waiting. -/
theorem resolve_waits (htypes : typeOf event ∉ types) : ∀ {futures : List (WaitState ε)},
    futures[w]? = some .pending → (∀ t, (t, w) ∈ waiters → t = types) →
      (resolveWaiters typeOf event waiters futures).2[w]? = some .pending ∧
        ((types, w) ∈ waiters → (types, w) ∈ (resolveWaiters typeOf event waiters futures).1) := by
  induction waiters with
  | nil => exact fun hpending _ => ⟨hpending, id⟩
  | cons waiter waiters ih =>
    intro futures hpending honly
    obtain ⟨t, fut⟩ := waiter
    have honly' : ∀ t, (t, w) ∈ waiters → t = types := fun t ht => honly t (List.mem_cons_of_mem _ ht)
    unfold resolveWaiters
    by_cases hfut : fut = w
    · subst hfut
      have ht : t = types := honly t List.mem_cons_self
      simp only [hpending, ht, if_neg htypes]
      exact ⟨(ih hpending honly').1, fun _ => List.mem_cons_self⟩
    · have hrest : (types, w) ∈ (t, fut) :: waiters → (types, w) ∈ waiters := listed_rest hfut
      split
      · split
        · obtain ⟨hfuture, hlisted⟩ := ih ((List.getElem?_set_ne hfut).trans hpending) honly'
          exact ⟨hfuture, fun hmem => hlisted (hrest hmem)⟩
        · obtain ⟨hfuture, hlisted⟩ := ih hpending honly'
          exact ⟨hfuture, fun hmem => List.mem_cons_of_mem _ (hlisted (hrest hmem))⟩
      · obtain ⟨hfuture, hlisted⟩ := ih hpending honly'
        exact ⟨hfuture, fun hmem => hlisted (hrest hmem)⟩

/-! ## What a step may change -/

theorem settle_self {s : EventBus ε η} {state : WaitState ε} (hpending : s.futures[w]? = some .pending) :
    (s.settle w state).futures[w]? = some state := by
  have hlt : w < s.futures.length := (List.getElem?_eq_some_iff.1 hpending).1
  unfold settle
  simp only [hpending]
  exact List.getElem?_set_self hlt

theorem settle_other {s : EventBus ε η} {fut : ℕ} {state : WaitState ε} (hne : fut ≠ w) :
    (s.settle fut state).futures[w]? = s.futures[w]? := by
  unfold settle
  split
  · exact List.getElem?_set_ne hne
  · rfl

theorem settle_done {s : EventBus ε η} {fut : ℕ} {state : WaitState ε}
    (hdone : s.futures[w]? ≠ some .pending) : (s.settle fut state).futures[w]? = s.futures[w]? := by
  by_cases hfut : fut = w
  · subst hfut
    unfold settle
    split
    · rename_i hpending
      exact absurd hpending hdone
    · rfl
  · exact settle_other hfut

@[simp] theorem settle_futures_length (s : EventBus ε η) (fut : ℕ) (state : WaitState ε) :
    (s.settle fut state).futures.length = s.futures.length := by
  unfold settle
  split
  · exact List.length_set
  · rfl

@[simp] theorem settle_waiters (s : EventBus ε η) (fut : ℕ) (state : WaitState ε) :
    (s.settle fut state).waiters = s.waiters := by
  unfold settle
  split <;> rfl

@[simp] theorem settle_dispatches (s : EventBus ε η) (fut : ℕ) (state : WaitState ε) :
    (s.settle fut state).dispatches = s.dispatches := by
  unfold settle
  split <;> rfl

@[simp] theorem settle_calls (s : EventBus ε η) (fut : ℕ) (state : WaitState ε) :
    (s.settle fut state).calls = s.calls := by
  unfold settle
  split <;> rfl

/-- The loop of `clear`. -/
def cancelAll (s : EventBus ε η) (waiters : List (List String × ℕ)) : EventBus ε η :=
  waiters.foldl (fun s waiter => s.settle waiter.2 .cancelled) s

theorem cancelAll_keeps {γ : Type} {f : EventBus ε η → γ}
    (h : ∀ s fut, f (settle s fut .cancelled) = f s) (s : EventBus ε η)
    (waiters : List (List String × ℕ)) : f (s.cancelAll waiters) = f s :=
  History.run_invariant _ (fun t => f t = f s) (fun t _ ht => (h t _).trans ht) waiters s rfl

theorem cancelAll_done {s : EventBus ε η} {o : WaitState ε} (ho : o ≠ .pending)
    (hw : s.futures[w]? = some o) : (s.cancelAll waiters).futures[w]? = some o := by
  refine History.run_invariant _ (fun t : EventBus ε η => t.futures[w]? = some o) ?_ waiters s hw
  intro t waiter ht
  have hdone : t.futures[w]? ≠ some .pending := by
    rw [ht]
    exact fun heq => ho (Option.some.inj heq)
  rw [settle_done hdone, ht]

theorem cancelAll_listed (hlisted : (types, w) ∈ waiters) : ∀ {s : EventBus ε η},
    s.futures[w]? = some .pending → (s.cancelAll waiters).futures[w]? = some .cancelled := by
  induction waiters with
  | nil => exact absurd hlisted List.not_mem_nil
  | cons waiter waiters ih =>
    intro s hpending
    by_cases hfut : waiter.2 = w
    · have hcancelled : (s.settle waiter.2 .cancelled).futures[w]? = some .cancelled := by
        rw [hfut]
        exact settle_self hpending
      exact cancelAll_done (s := s.settle waiter.2 .cancelled) nofun hcancelled
    · have hrest : (types, w) ∈ waiters := listed_rest hfut hlisted
      exact ih hrest ((settle_other hfut).trans hpending)

/-! ## One future -/

/-- A future that waits for its types. -/
structure Waiting (s : EventBus ε η) (types : List String) (w : ℕ) : Prop where
  pending : s.futures[w]? = some .pending
  listed : (types, w) ∈ s.waiters
  only : ∀ t, (t, w) ∈ s.waiters → t = types

variable (typeOf)

/-- The event with which a step comes to the waiters. -/
def reaches (s : EventBus ε η) : BusStep ε η → Option ε
  | .start d => match s.dispatches[d]? with
    | some { event, phase := .scheduled } => match s.handlersOf (typeOf event) with
      | [] => some event
      | _ :: _ => none
    | _ => none
  | .finish d _ => match s.dispatches[d]? with
    | some { event, phase := .running [] } => some event
    | _ => none
  | _ => none

/-- What a step makes of a future that waits for these types. -/
def decides (types : List String) (w : ℕ) (s : EventBus ε η) : BusStep ε η → Option (WaitState ε)
  | .timeout fut => if fut = w then some .timedOut else none
  | .cancelFuture fut => if fut = w then some .cancelled else none
  | .clear => some .cancelled
  | b => match reaches typeOf s b with
    | some event => if typeOf event ∈ types then some (.resolved event) else none
    | none => none

variable {s : EventBus ε η}

/-- **A step comes to the waiters** with an event, or leaves the futures and the waiters alone. -/
theorem advance_cases (s : EventBus ε η) (d : ℕ) (event : ε) (handlers : List η) :
    (handlers = [] ∧ (s.advance typeOf d event handlers).waiters =
        (resolveWaiters typeOf event s.waiters s.futures).1 ∧
      (s.advance typeOf d event handlers).futures =
        (resolveWaiters typeOf event s.waiters s.futures).2) ∨
    ((∃ handler later, handlers = handler :: later) ∧
      (s.advance typeOf d event handlers).waiters = s.waiters ∧
      (s.advance typeOf d event handlers).futures = s.futures) := by
  cases handlers with
  | nil => exact .inl ⟨rfl, rfl, rfl⟩
  | cons handler later => exact .inr ⟨⟨handler, later, rfl⟩, rfl, rfl⟩

/-- What a step does to the futures and the waiters, and what that makes of one of them. -/
theorem step_futures (types : List String) (w : ℕ) (s : EventBus ε η) (b : BusStep ε η) :
    (∃ event, decides typeOf types w s b =
        (if typeOf event ∈ types then some (.resolved event) else none) ∧
      (step ids typeOf s b).waiters = (resolveWaiters typeOf event s.waiters s.futures).1 ∧
      (step ids typeOf s b).futures = (resolveWaiters typeOf event s.waiters s.futures).2) ∨
    (decides typeOf types w s b = none ∧ (step ids typeOf s b).waiters = s.waiters ∧
      (step ids typeOf s b).futures = s.futures) ∨
    (∃ types, b = .waitFor types) ∨ (∃ fut, b = .timeout fut) ∨ (∃ fut, b = .cancelFuture fut) ∨
      b = .clear := by
  cases b with
  | subscribe eventType handler => exact .inr (.inl ⟨rfl, rfl, rfl⟩)
  | unsubscribe subscriptionId =>
    refine .inr (.inl ⟨rfl, ?_⟩)
    simp only [step]
    unfold unsubscribe
    split <;> exact ⟨rfl, rfl⟩
  | publish event => exact .inr (.inl ⟨rfl, rfl, rfl⟩)
  | waitFor types => exact .inr (.inr (.inl ⟨types, rfl⟩))
  | timeout fut => exact .inr (.inr (.inr (.inl ⟨fut, rfl⟩)))
  | cancelFuture fut => exact .inr (.inr (.inr (.inr (.inl ⟨fut, rfl⟩))))
  | start d =>
    simp only [decides, reaches, step]
    cases hd : s.dispatches[d]? with
    | none => exact .inr (.inl ⟨rfl, rfl, rfl⟩)
    | some dispatch =>
      obtain ⟨event, phase⟩ := dispatch
      cases phase with
      | scheduled =>
        rcases advance_cases typeOf s d event (s.handlersOf (typeOf event)) with
          ⟨hnone, hwaiters, hfutures⟩ | ⟨⟨handler, later, hsome⟩, hwaiters, hfutures⟩
        · refine .inl ⟨event, ?_, hwaiters, hfutures⟩
          simp only [hnone]
        · refine .inr (.inl ⟨?_, hwaiters, hfutures⟩)
          simp only [hsome]
      | running later => exact .inr (.inl ⟨rfl, rfl, rfl⟩)
      | done => exact .inr (.inl ⟨rfl, rfl, rfl⟩)
      | cancelled => exact .inr (.inl ⟨rfl, rfl, rfl⟩)
  | finish d raised =>
    simp only [decides, reaches, step]
    cases hd : s.dispatches[d]? with
    | none => exact .inr (.inl ⟨rfl, rfl, rfl⟩)
    | some dispatch =>
      obtain ⟨event, phase⟩ := dispatch
      cases phase with
      | running later =>
        rcases advance_cases typeOf s d event later with
          ⟨rfl, hwaiters, hfutures⟩ | ⟨⟨handler, later, rfl⟩, hwaiters, hfutures⟩
        · exact .inl ⟨event, rfl, hwaiters, hfutures⟩
        · exact .inr (.inl ⟨rfl, hwaiters, hfutures⟩)
      | scheduled => exact .inr (.inl ⟨rfl, rfl, rfl⟩)
      | done => exact .inr (.inl ⟨rfl, rfl, rfl⟩)
      | cancelled => exact .inr (.inl ⟨rfl, rfl, rfl⟩)
  | abort d =>
    refine .inr (.inl ⟨rfl, ?_⟩)
    simp only [step]
    split <;> exact ⟨rfl, rfl⟩
  | clear => exact .inr (.inr (.inr (.inr (.inr rfl))))

variable {typeOf}

/-- What is decided of a future stays. -/
theorem step_kept (o : WaitState ε) (b : BusStep ε η) (ho : o ≠ .pending)
    (hw : s.futures[w]? = some o) : (step ids typeOf s b).futures[w]? = some o := by
  have hdone : s.futures[w]? ≠ some .pending := by
    rw [hw]
    exact fun heq => ho (Option.some.inj heq)
  rcases step_futures ids typeOf [] w s b with
    ⟨event, -, -, hfutures⟩ | ⟨-, -, hfutures⟩ | ⟨types, rfl⟩ | ⟨fut, rfl⟩ | ⟨fut, rfl⟩ | rfl
  · rw [hfutures, resolve_kept hdone, hw]
  · rw [hfutures, hw]
  · have hlt : w < s.futures.length := (List.getElem?_eq_some_iff.1 hw).1
    exact (List.getElem?_append_left hlt).trans hw
  · exact (settle_done hdone).trans hw
  · exact (settle_done hdone).trans hw
  · exact cancelAll_done ho hw

/-- A future that waits is settled by the step that decides it. -/
theorem step_decided {o : WaitState ε} {b : BusStep ε η} (hwaits : Waiting s types w)
    (hb : decides typeOf types w s b = some o) :
    (step ids typeOf s b).futures[w]? = some o ∧ o ≠ .pending := by
  rcases step_futures ids typeOf types w s b with
    ⟨event, hdecides, -, hfutures⟩ | ⟨hnone, -, -⟩ | ⟨types, rfl⟩ | ⟨fut, rfl⟩ | ⟨fut, rfl⟩ | rfl
  · rw [hdecides] at hb
    split at hb
    · rename_i htypes
      cases hb
      rw [hfutures]
      exact ⟨resolve_matched htypes hwaits.pending hwaits.listed hwaits.only, nofun⟩
    · cases hb
  · rw [hnone] at hb
    cases hb
  · cases hb
  · simp only [decides] at hb
    split at hb
    · rename_i hfut
      subst hfut
      cases hb
      exact ⟨settle_self hwaits.pending, nofun⟩
    · cases hb
  · simp only [decides] at hb
    split at hb
    · rename_i hfut
      subst hfut
      cases hb
      exact ⟨settle_self hwaits.pending, nofun⟩
    · cases hb
  · cases hb
    exact ⟨cancelAll_listed hwaits.listed hwaits.pending, nofun⟩

theorem settle_waits {fut : ℕ} {state : WaitState ε} (hwaits : Waiting s types w) (hne : fut ≠ w) :
    Waiting (s.settle fut state) types w where
  pending := (settle_other hne).trans hwaits.pending
  listed := (settle_waiters s fut state).symm ▸ hwaits.listed
  only := fun t ht => hwaits.only t (settle_waiters s fut state ▸ ht)

/-- Any other step leaves it among the waiters. -/
theorem step_waits {b : BusStep ε η} (hwaits : Waiting s types w)
    (hb : decides typeOf types w s b = none) : Waiting (step ids typeOf s b) types w := by
  obtain ⟨hpending, hlisted, honly⟩ := hwaits
  have hlt : w < s.futures.length := (List.getElem?_eq_some_iff.1 hpending).1
  rcases step_futures ids typeOf types w s b with
    ⟨event, hdecides, hwaiters, hfutures⟩ | ⟨-, hwaiters, hfutures⟩ | ⟨ts, rfl⟩ | ⟨fut, rfl⟩ | ⟨fut, rfl⟩ | rfl
  · rw [hdecides] at hb
    split at hb
    · cases hb
    · rename_i htypes
      obtain ⟨hstill, hkept⟩ := resolve_waits htypes hpending honly
      refine ⟨hfutures ▸ hstill, hwaiters ▸ hkept hlisted, fun t ht => honly t ?_⟩
      exact resolve_sublist.subset (hwaiters ▸ ht)
  · exact ⟨hfutures ▸ hpending, hwaiters ▸ hlisted, fun t ht => honly t (hwaiters ▸ ht)⟩
  · refine ⟨(List.getElem?_append_left hlt).trans hpending, List.mem_append_left _ hlisted, ?_⟩
    intro t ht
    rcases List.mem_append.1 ht with ht | hnew
    · exact honly t ht
    · have heq : w = s.futures.length := congrArg Prod.snd (List.mem_singleton.1 hnew)
      omega
  · refine settle_waits ⟨hpending, hlisted, honly⟩ ?_
    rintro rfl
    simp only [decides, if_pos] at hb
    cases hb
  · refine settle_waits ⟨hpending, hlisted, honly⟩ ?_
    rintro rfl
    simp only [decides, if_pos] at hb
    cases hb
  · cases hb

/-- The waiters wait for futures that were created. -/
theorem step_bounded (s : EventBus ε η) (b : BusStep ε η)
    (hbounded : ∀ waiter ∈ s.waiters, waiter.2 < s.futures.length) :
    ∀ waiter ∈ (step ids typeOf s b).waiters, waiter.2 < (step ids typeOf s b).futures.length := by
  rcases step_futures ids typeOf [] 0 s b with
    ⟨event, -, hwaiters, hfutures⟩ | ⟨-, hwaiters, hfutures⟩ | ⟨types, rfl⟩ | ⟨fut, rfl⟩ | ⟨fut, rfl⟩ | rfl
  · rw [hwaiters, hfutures, resolve_length]
    exact fun waiter hwaiter => hbounded waiter (resolve_sublist.subset hwaiter)
  · rw [hwaiters, hfutures]
    exact hbounded
  · intro waiter hwaiter
    have hlength : (s.futures ++ [WaitState.pending]).length = s.futures.length + 1 :=
      List.length_append
    refine lt_of_lt_of_eq ?_ hlength.symm
    rcases List.mem_append.1 hwaiter with hold | hnew
    · have hlt := hbounded waiter hold
      omega
    · rw [List.mem_singleton.1 hnew]
      exact Nat.lt_succ_self _
  · simp only [step, settle_waiters, settle_futures_length]
    exact hbounded
  · simp only [step, settle_waiters, settle_futures_length]
    exact hbounded
  · exact fun waiter hwaiter => absurd hwaiter List.not_mem_nil

/-! ## One dispatch -/

/-- The handlers that a dispatch has called. -/
def callsOf (s : EventBus ε η) (d : ℕ) : List η :=
  (s.calls.filter fun call => call.1 = d).map Prod.snd

variable (typeOf)

/-- The bus after these steps. -/
def run (bs : List (BusStep ε η)) : EventBus ε η := bs.foldl (step ids typeOf) {}

/-- Dispatch `d` of the event began among these steps, with these handlers subscribed to its type. -/
def Began (bs : List (BusStep ε η)) (d : ℕ) (event : ε) (handlers : List η) : Prop :=
  ∃ before after, bs = before ++ .start d :: after ∧
    (run ids typeOf before).dispatches[d]? = some { event } ∧
    handlers = (run ids typeOf before).handlersOf (typeOf event)

/-- **What a dispatch has called**, and what it still has to call. -/
def Delivering (bs : List (BusStep ε η)) (s : EventBus ε η) (d : ℕ) : Prop :=
  match s.dispatches[d]? with
  | none | some { event := _, phase := .scheduled } => s.callsOf d = []
  | some { event, phase := .running later } => Began ids typeOf bs d event (s.callsOf d ++ later)
  | some { event, phase := .done } => Began ids typeOf bs d event (s.callsOf d)
  | some { event := _, phase := .cancelled } => True

variable {typeOf} {bs : List (BusStep ε η)} {d : ℕ} {handlers : List η}

theorem run_snoc (b : BusStep ε η) :
    run ids typeOf (bs ++ [b]) = step ids typeOf (run ids typeOf bs) b := by
  simp only [run, List.foldl_append, List.foldl_cons, List.foldl_nil]

theorem Began.snoc (h : Began ids typeOf bs d event handlers) (b : BusStep ε η) :
    Began ids typeOf (bs ++ [b]) d event handlers := by
  obtain ⟨before, after, rfl, hscheduled, hhandlers⟩ := h
  refine ⟨before, after ++ [b], ?_, hscheduled, hhandlers⟩
  rw [List.append_assoc, List.cons_append]

/-- A step that leaves the dispatch alone. -/
theorem Delivering.frame {s' : EventBus ε η} (h : Delivering ids typeOf bs s d) (b : BusStep ε η)
    (hdispatch : s'.dispatches[d]? = s.dispatches[d]?) (hcalls : s'.callsOf d = s.callsOf d) :
    Delivering ids typeOf (bs ++ [b]) s' d := by
  unfold Delivering at h ⊢
  rw [hdispatch, hcalls]
  split at h
  · exact h
  · exact h
  · exact h.snoc ids b
  · exact h.snoc ids b
  · trivial

theorem advance_other {d' : ℕ} (hne : d' ≠ d) :
    (s.advance typeOf d' event handlers).dispatches[d]? = s.dispatches[d]? ∧
      (s.advance typeOf d' event handlers).callsOf d = s.callsOf d := by
  cases handlers with
  | nil => exact ⟨List.getElem?_set_ne hne, rfl⟩
  | cons handler later =>
    refine ⟨List.getElem?_set_ne hne, ?_⟩
    have hfilter : [(d', handler)].filter (fun call => call.1 = d) = [] := by
      simp only [List.filter_singleton, hne, decide_false, cond_false]
    simp only [callsOf, advance, List.filter_append, hfilter, List.append_nil]

/-- The dispatch calls the next of its handlers. -/
theorem delivering_advance (hlt : d < s.dispatches.length)
    (h : Began ids typeOf bs d event (s.callsOf d ++ handlers)) :
    Delivering ids typeOf bs (s.advance typeOf d event handlers) d := by
  unfold Delivering
  cases handlers with
  | nil =>
    have hdone : (s.advance typeOf d event ([] : List η)).dispatches[d]? =
        some { event, phase := .done } := List.getElem?_set_self hlt
    rw [hdone]
    rw [List.append_nil] at h
    exact h
  | cons handler later =>
    have hrunning : (s.advance typeOf d event (handler :: later)).dispatches[d]? =
        some { event, phase := .running later } := List.getElem?_set_self hlt
    have hcalls : (s.advance typeOf d event (handler :: later)).callsOf d = s.callsOf d ++ [handler] := by
      simp only [callsOf, advance, List.filter_append, List.filter_singleton, decide_true, cond_true,
        List.map_append, List.map_cons, List.map_nil]
    rw [hrunning]
    simp only [hcalls]
    rw [List.append_assoc]
    exact h

/-- Some dispatch, maybe this one, goes on. -/
theorem Delivering.advance {b : BusStep ε η} {d' : ℕ} {dispatch : Dispatch ε η}
    (h : Delivering ids typeOf bs s d) (hd' : s.dispatches[d']? = some dispatch)
    (hbegan : d' = d → Began ids typeOf (bs ++ [b]) d event (s.callsOf d ++ handlers)) :
    Delivering ids typeOf (bs ++ [b]) (s.advance typeOf d' event handlers) d := by
  by_cases hd : d' = d
  · subst hd
    have hlt := (List.getElem?_eq_some_iff.1 hd').1
    exact delivering_advance ids hlt (hbegan rfl)
  · obtain ⟨hdispatch, hcalls⟩ := advance_other hd
    exact h.frame ids _ hdispatch hcalls

theorem Delivering.cancel (h : Delivering ids typeOf bs s d) (b : BusStep ε η) {d' : ℕ}
    {dispatch : Dispatch ε η} (hd' : s.dispatches[d']? = some dispatch) :
    Delivering ids typeOf (bs ++ [b])
      { s with dispatches := s.dispatches.set d' { event, phase := .cancelled } } d := by
  by_cases hd : d' = d
  · subst hd
    unfold Delivering
    simp only [List.getElem?_set_self (List.getElem?_eq_some_iff.1 hd').1]
  · exact h.frame ids _ (List.getElem?_set_ne hd) rfl

theorem delivering_publish (event : ε) (h : Delivering ids typeOf bs s d) :
    Delivering ids typeOf (bs ++ [.publish event]) (step ids typeOf s (.publish event)) d := by
  rcases Nat.lt_trichotomy d s.dispatches.length with hlt | heq | hgt
  · exact h.frame ids _ (List.getElem?_append_left hlt) rfl
  · -- the new dispatch has not called any handler
    subst heq
    have hnone : s.dispatches[s.dispatches.length]? = none := List.getElem?_eq_none (le_refl _)
    have hnew : (step ids typeOf s (.publish event)).dispatches[s.dispatches.length]? =
        some { event } := List.getElem?_concat_length
    unfold Delivering at h ⊢
    rw [hnone] at h
    rw [hnew]
    exact h
  · refine h.frame ids _ ?_ rfl
    have hle : (s.dispatches ++ [({ event } : Dispatch ε η)]).length ≤ d := by
      rw [List.length_append, List.length_singleton]
      omega
    exact (List.getElem?_eq_none hle).trans (List.getElem?_eq_none hgt.le).symm

/-- **One step delivers** what `Delivering` says. -/
theorem delivering_step (b : BusStep ε η) (h : Delivering ids typeOf bs (run ids typeOf bs) d) :
    Delivering ids typeOf (bs ++ [b]) (step ids typeOf (run ids typeOf bs) b) d := by
  cases b with
  | subscribe eventType handler => exact h.frame ids _ rfl rfl
  | unsubscribe subscriptionId =>
    simp only [step]
    unfold unsubscribe
    split
    · exact h.frame ids _ rfl rfl
    · exact h.frame ids _ rfl rfl
  | publish event => exact delivering_publish ids event h
  | waitFor types => exact h.frame ids _ rfl rfl
  | timeout fut =>
    refine h.frame ids _ ?_ ?_
    · simp only [step, settle_dispatches]
    · simp only [step, callsOf, settle_calls]
  | cancelFuture fut =>
    refine h.frame ids _ ?_ ?_
    · simp only [step, settle_dispatches]
    · simp only [step, callsOf, settle_calls]
  | start d' =>
    simp only [step]
    split
    · rename_i event hd'
      refine h.advance ids hd' ?_
      rintro rfl
      unfold Delivering at h
      rw [hd'] at h
      refine ⟨bs, [], rfl, hd', ?_⟩
      rw [h, List.nil_append]
    · exact h.frame ids _ rfl rfl
  | finish d' raised =>
    simp only [step]
    split
    · rename_i event later hd'
      refine h.advance ids hd' ?_
      rintro rfl
      unfold Delivering at h
      rw [hd'] at h
      exact h.snoc ids _
    · exact h.frame ids _ rfl rfl
  | abort d' =>
    simp only [step]
    split
    · rename_i event hd'
      exact h.cancel ids _ hd'
    · rename_i event later hd'
      exact h.cancel ids _ hd'
    · exact h.frame ids _ rfl rfl
  | clear =>
    refine h.frame ids _ ?_ ?_
    · have hkeeps := cancelAll_keeps (fun s fut => settle_dispatches s fut .cancelled)
        (run ids typeOf bs) (run ids typeOf bs).waiters
      exact congrArg (·[d]?) hkeeps
    · have hkeeps := cancelAll_keeps (fun s fut => settle_calls s fut .cancelled)
        (run ids typeOf bs) (run ids typeOf bs).waiters
      exact congrArg (fun calls => (calls.filter fun call => call.1 = d).map Prod.snd) hkeeps

theorem delivering_run (bs : List (BusStep ε η)) (d : ℕ) :
    Delivering ids typeOf bs (run ids typeOf bs) d := by
  induction bs using List.reverseRecOn with
  | nil => exact rfl
  | append_singleton bs b ih =>
    rw [run_snoc]
    exact delivering_step ids b ih

/-! ## The event bus -/

variable (typeOf)

/-- What becomes of a future that is created before these steps. -/
def fate (types : List String) (w : ℕ) (s : EventBus ε η) (after : List (BusStep ε η)) : WaitState ε :=
  (History.firstDecided (step ids typeOf) (decides typeOf types w) s after).getD .pending

/-- A future that waits is settled by the first step that decides it, and as it was decided. -/
theorem fate_spec (after : List (BusStep ε η)) (s : EventBus ε η) (hwaits : Waiting s types w) :
    (∀ o, History.firstDecided (step ids typeOf) (decides typeOf types w) s after = some o →
      (after.foldl (step ids typeOf) s).futures[w]? = some o ∧ o ≠ .pending) ∧
    (History.firstDecided (step ids typeOf) (decides typeOf types w) s after = none →
      Waiting (after.foldl (step ids typeOf) s) types w) := by
  refine History.firstDecided_spec (W := fun s => Waiting s types w)
    (S := fun o s => s.futures[w]? = some o ∧ o ≠ .pending) ?_ ?_ ?_ after s hwaits
  · exact fun s b o hs hb => step_decided ids hs hb
  · exact fun s b hs hb => step_waits ids hs hb
  · exact fun o s b hs => ⟨step_kept ids o b hs.2 hs.1, hs.2⟩

/-- **The event bus delivers**: a dispatch that runs to its end has called each handler that was
subscribed to the type of its event when it started, once; a future of `wait_for` gets the event
of the first dispatch for one of its types that comes to the waiters, unless it times out or is
cancelled before, and until then it is among the waiters. -/
theorem event_delivery :
    (∀ (bs : List (BusStep ε η)) (d : ℕ) (event : ε),
      (run ids typeOf bs).dispatches[d]? = some { event, phase := .done } →
        Began ids typeOf bs d event ((run ids typeOf bs).callsOf d)) ∧
    (∀ (before : List (BusStep ε η)) (types : List String) (after : List (BusStep ε η)),
      let registered := run ids typeOf (before ++ [.waitFor types])
      let w := (run ids typeOf before).futures.length
      let s := run ids typeOf (before ++ .waitFor types :: after)
      s.futures[w]? = some (fate ids typeOf types w registered after) ∧
        (fate ids typeOf types w registered after = .pending → (types, w) ∈ s.waiters)) := by
  constructor
  · intro bs d event hdone
    have hdelivering : Delivering ids typeOf bs (run ids typeOf bs) d := delivering_run ids bs d
    unfold Delivering at hdelivering
    rw [hdone] at hdelivering
    exact hdelivering
  · intro before types after
    simp only
    set w := (run ids typeOf before).futures.length with hw
    have hsplit : run ids typeOf (before ++ .waitFor types :: after) =
        after.foldl (step ids typeOf) (run ids typeOf (before ++ [.waitFor types])) := by
      simp only [run, List.foldl_append, List.foldl_cons, List.foldl_nil]
    have hbounded : ∀ waiter ∈ (run ids typeOf before).waiters, waiter.2 < w :=
      History.run_invariant _ _ (step_bounded ids) before {} nofun
    have hwaits : Waiting (run ids typeOf (before ++ [.waitFor types])) types w := by
      rw [run_snoc]
      refine ⟨List.getElem?_concat_length, List.mem_append_right _ List.mem_cons_self, ?_⟩
      intro t ht
      rcases List.mem_append.1 ht with hold | hnew
      · have hlt := hbounded _ hold
        omega
      · exact congrArg Prod.fst (List.mem_singleton.1 hnew)
    obtain ⟨hdecided, hopen⟩ := fate_spec ids typeOf after _ hwaits
    rw [hsplit]
    unfold fate
    cases hfirst : History.firstDecided (step ids typeOf) (decides typeOf types w)
        (run ids typeOf (before ++ [.waitFor types])) after with
    | some o =>
      obtain ⟨hfuture, hne⟩ := hdecided o hfirst
      exact ⟨hfuture, fun heq => absurd heq hne⟩
    | none =>
      have hstill := hopen hfirst
      exact ⟨hstill.pending, fun _ => hstill.listed⟩

end EventBus

end Hermes

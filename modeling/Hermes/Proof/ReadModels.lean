import Hermes.Proof.EventDelivery
import Hermes.Spec.EventPlatform

/-!
# Read models and the journal

A read model is started in the middle of a run: it folds the journal, subscribes, and is called by
the bus. The events that it has folded when the bus is quiet are compared with the journal.

* `bus_cases`: what one step does to the dispatches and the calls.
* `Owes`: a dispatch has called the handler, and will call it, as often as it owes: once if it is
  about one of the types and had not begun when the read model was started.
* `owes_run`: so it is after every run that leaves the subscriptions of the read model.
* `read_model_agrees`: what was folded is the journal, and once more what was in flight when the
  read model was started.
-/

namespace Hermes

/-! ## Dispatches and calls -/

namespace EventBus

variable {ε η : Type} {ids : IdSource String} {typeOf : ε → String}

variable (ids typeOf) in
/-- **What a step does** to the dispatches and the calls: nothing, or it adds a dispatch, takes one
further, or cancels one. -/
theorem bus_cases (s : EventBus ε η) (b : BusStep ε η) :
    ((step ids typeOf s b).dispatches = s.dispatches ∧ (step ids typeOf s b).calls = s.calls ∧
        ∀ event, b ≠ .publish event) ∨
      (∃ event, b = .publish event ∧
        (step ids typeOf s b).dispatches = s.dispatches ++ [({ event } : Dispatch ε η)] ∧
        (step ids typeOf s b).calls = s.calls) ∨
      (∃ d event, b = .start d ∧ s.dispatches[d]? = some { event } ∧
        step ids typeOf s b = s.advance typeOf d event (s.handlersOf (typeOf event))) ∨
      (∃ d event later raised, b = .finish d raised ∧
        s.dispatches[d]? = some { event, phase := .running later } ∧
        step ids typeOf s b = s.advance typeOf d event later) ∨
      ∃ d x, b = .abort d ∧ s.dispatches[d]? = some x ∧
        (step ids typeOf s b).dispatches = s.dispatches.set d { x with phase := .cancelled } ∧
        (step ids typeOf s b).calls = s.calls := by
  cases b with
  | subscribe eventType handler => exact .inl ⟨rfl, rfl, by simp⟩
  | unsubscribe subscriptionId =>
    left
    simp only [step]
    unfold unsubscribe
    split
    · exact ⟨rfl, rfl, by simp⟩
    · exact ⟨rfl, rfl, by simp⟩
  | publish event => exact .inr (.inl ⟨event, rfl, rfl, rfl⟩)
  | waitFor types => exact .inl ⟨rfl, rfl, by simp⟩
  | timeout fut => exact .inl ⟨settle_dispatches s fut _, settle_calls s fut _, by simp⟩
  | cancelFuture fut => exact .inl ⟨settle_dispatches s fut _, settle_calls s fut _, by simp⟩
  | start d =>
    simp only [step]
    split
    · rename_i event hd
      exact .inr (.inr (.inl ⟨d, event, rfl, hd, rfl⟩))
    · exact .inl ⟨rfl, rfl, by simp⟩
  | finish d raised =>
    simp only [step]
    split
    · rename_i event later hd
      exact .inr (.inr (.inr (.inl ⟨d, event, later, raised, rfl, hd, rfl⟩)))
    · exact .inl ⟨rfl, rfl, by simp⟩
  | abort d =>
    simp only [step]
    split
    · rename_i event hd
      exact .inr (.inr (.inr (.inr ⟨d, _, rfl, hd, rfl, rfl⟩)))
    · rename_i event later hd
      exact .inr (.inr (.inr (.inr ⟨d, _, rfl, hd, rfl, rfl⟩)))
    · exact .inl ⟨rfl, rfl, by simp⟩
  | clear =>
    refine .inl ⟨?_, ?_, by simp⟩
    · exact cancelAll_keeps (fun s fut => settle_dispatches s fut .cancelled) s s.waiters
    · exact cancelAll_keeps (fun s fut => settle_calls s fut .cancelled) s s.waiters

/-- A dispatch that goes on or ends keeps its event. -/
theorem map_event_set {l : List (Dispatch ε η)} {d : ℕ} {x : Dispatch ε η} (hd : l[d]? = some x)
    (phase : DispatchPhase η) :
    (l.set d { x with phase }).map Dispatch.event = l.map Dispatch.event := by
  obtain ⟨hlt, rfl⟩ := List.getElem?_eq_some_iff.1 hd
  rw [List.map_set]
  refine List.ext_getElem? fun i => ?_
  rw [List.getElem?_set]
  split
  · rename_i hi
    subst hi
    simp [hlt]
  · rfl

theorem map_event_advance (s : EventBus ε η) {d : ℕ} {x : Dispatch ε η}
    (hd : s.dispatches[d]? = some x) (handlers : List η) :
    (s.advance typeOf d x.event handlers).dispatches.map Dispatch.event =
      s.dispatches.map Dispatch.event := by
  cases handlers with
  | nil => exact map_event_set hd .done
  | cons handler later => exact map_event_set hd (.running later)

variable (ids typeOf) in
/-- Only `publish` adds a dispatch, and none changes its event. -/
theorem events_step (s : EventBus ε η) (b : BusStep ε η) :
    (∃ event, b = .publish event ∧ (step ids typeOf s b).dispatches.map Dispatch.event =
        s.dispatches.map Dispatch.event ++ [event]) ∨
      (∀ event, b ≠ .publish event) ∧ (step ids typeOf s b).dispatches.map Dispatch.event =
        s.dispatches.map Dispatch.event := by
  rcases bus_cases ids typeOf s b with
    ⟨hdispatches, -, hb⟩ | ⟨event, hb, hdispatches, -⟩ | ⟨d, event, rfl, hd, hs⟩ |
      ⟨d, event, later, raised, rfl, hd, hs⟩ | ⟨d, x, rfl, hd, hdispatches, -⟩
  · exact .inr ⟨hb, by rw [hdispatches]⟩
  · exact .inl ⟨event, hb, by rw [hdispatches, List.map_append, List.map_singleton]⟩
  · exact .inr ⟨by simp, by rw [hs]; exact map_event_advance s hd _⟩
  · exact .inr ⟨by simp, by rw [hs]; exact map_event_advance s hd _⟩
  · exact .inr ⟨by simp, by rw [hdispatches]; exact map_event_set hd .cancelled⟩

variable (typeOf) in
/-- A dispatch that goes on has called or will call the handlers that it is given. -/
theorem count_advance [DecidableEq η] (s : EventBus ε η) {d : ℕ} {x : Dispatch ε η}
    (hd : s.dispatches[d]? = some x) (event : ε) (handlers : List η) (h : η) :
    ∃ later, ((s.advance typeOf d event handlers).callsOf d).count h + later.count h =
        (s.callsOf d).count h + handlers.count h ∧
      ((s.advance typeOf d event handlers).dispatches[d]? = some { event, phase := .running later } ∨
        later = [] ∧
          (s.advance typeOf d event handlers).dispatches[d]? = some { event, phase := .done }) := by
  have hlt := (List.getElem?_eq_some_iff.1 hd).1
  cases handlers with
  | nil => exact ⟨[], rfl, .inr ⟨rfl, List.getElem?_set_self hlt⟩⟩
  | cons handler later =>
    refine ⟨later, ?_, .inl (List.getElem?_set_self hlt)⟩
    have hcalls : (s.advance typeOf d event (handler :: later)).callsOf d = s.callsOf d ++ [handler] := by
      simp only [callsOf, advance, List.filter_append, List.filter_singleton, decide_true, cond_true,
        List.map_append, List.map_cons, List.map_nil]
    have hcons : (handler :: later).count h = [handler].count h + later.count h := by
      rw [← List.count_append, List.singleton_append]
    rw [hcalls, List.count_append, hcons, Nat.add_assoc]

end EventBus

namespace EventPlatform

open EventBus History

variable {π τ η : Type} {codec : EventCodec π τ} {ids : IdSource String} {types : List String}
  {s s' : EventPlatform π τ η} {d : ℕ}

/-! ## The journal and what is published -/

/-- An event of these types is published and appended together, or not at all. -/
def Recorded (codec : EventCodec π τ) (types : List String) (s : EventPlatform π τ η) :
    PlatformStep π τ η → Prop
  | .publishEvent event => event.type ∈ types → (s.store.append codec (.event event)).1 = .ok ()
  | .append a => ∀ event, a = .event event → event.type ∉ types
  | .bus b => ∀ event, b = .publish event → event.type ∉ types

/-- The events that were published. -/
def published (s : EventPlatform π τ η) : List (DomainEvent π τ) :=
  s.bus.dispatches.map Dispatch.event

theorem eventAt_eq (s : EventPlatform π τ η) (d : ℕ) : s.eventAt d = s.published[d]? :=
  (List.getElem?_map ..).symm

theorem length_published (s : EventPlatform π τ η) : s.published.length = s.bus.dispatches.length :=
  List.length_map ..

/-- The events of these types. -/
def about (types : List String) (es : List (DomainEvent π τ)) : List (DomainEvent π τ) :=
  es.filter fun e => e.type ∈ types

/-- The journal holds what was published. -/
def Told (types : List String) (s : EventPlatform π τ η) : Prop :=
  s.journal types = about types s.published

theorem about_snoc (es : List (DomainEvent π τ)) (event : DomainEvent π τ) :
    about types (es ++ [event]) = about types es ++ if event.type ∈ types then [event] else [] := by
  unfold about
  rw [List.filter_append, List.filter_singleton]
  by_cases h : event.type ∈ types
  · simp [h]
  · simp [h]

variable (codec) in
/-- An event is in the journal in memory, whatever `append` raises. -/
theorem events_append (store : EventStore π τ) (event : DomainEvent π τ) :
    (store.append codec (.event event)).2.events = store.events ++ [event] := by
  unfold EventStore.append
  simp only
  split
  · rfl
  · split
    · rfl
    · split
      · rfl
      · rfl

variable (codec ids) in
/-- **`publish_event`** appends and publishes, or raises and does not publish. -/
theorem publishEvent_cases (event : DomainEvent π τ) (s : EventPlatform π τ η) :
    ∃ store : EventStore π τ, store.events = s.store.events ++ [event] ∧
      ((s.store.append codec (.event event)).1 = .ok () ∧
          (s.publishEvent codec ids event).2 = busStep ids { s with store } (.publish event) ∨
        (s.store.append codec (.event event)).1 ≠ .ok () ∧
          (s.publishEvent codec ids event).2 = { s with store }) := by
  have hevents := events_append codec s.store event
  unfold publishEvent
  revert hevents
  rcases s.store.append codec (.event event) with ⟨err | ok, store⟩ <;> intro hevents
  · exact ⟨store, hevents, .inr ⟨by simp, rfl⟩⟩
  · exact ⟨store, hevents, .inl ⟨rfl, rfl⟩⟩

theorem told_step (h : Told types s) (b : PlatformStep π τ η) (hb : Recorded codec types s b) :
    Told types (s.step codec ids b) := by
  cases b with
  | publishEvent event =>
    show Told types (s.publishEvent codec ids event).2
    obtain ⟨store, hevents, ⟨-, hs⟩ | ⟨hraised, hs⟩⟩ := publishEvent_cases codec ids event s
    · have hpublished : (busStep ids { s with store } (.publish event)).published =
          s.published ++ [event] := List.map_append
      rw [hs]
      show about types store.events = about types _
      rw [hpublished, hevents, about_snoc, about_snoc]
      exact congrArg (· ++ _) h
    · -- it is not published, and so it is of another type
      rw [hs]
      show about types store.events = about types s.published
      rw [hevents, about_snoc, if_neg fun htype => hraised (hb htype), List.append_nil]
      exact h
  | append a =>
    show about types (s.store.step codec a).events = about types s.published
    cases a with
    | event event =>
      unfold EventStore.step
      rw [events_append codec, about_snoc, if_neg (hb event rfl), List.append_nil]
      exact h
    | other typeName => exact h
  | bus b =>
    show about types s.store.events = about types ((s.bus.step ids _ b).dispatches.map Dispatch.event)
    rcases events_step ids DomainEvent.type s.bus b with
      ⟨event, rfl, hpublished⟩ | ⟨-, hpublished⟩
    · rw [hpublished, about_snoc, if_neg (hb event rfl), List.append_nil]
      exact h
    · rw [hpublished]
      exact h

/-! ## What a dispatch owes -/

section Owing

variable [DecidableEq η] {h : η} {begun : ℕ → Prop} [DecidablePred begun]

/-- The subscriptions of the read model stay, and no dispatch is cancelled that is about its
types. -/
def Undisturbed (ids : IdSource String) (types : List String) (h : η) (s : EventPlatform π τ η) :
    PlatformStep π τ η → Prop
  | .bus b =>
    (∀ t, ((s.bus.step ids DomainEvent.type b).handlersOf t).count h =
      (s.bus.handlersOf t).count h) ∧
    ∀ d x, b = .abort d → s.bus.dispatches[d]? = some x → x.event.type ∉ types
  | _ => True

/-- How often a dispatch still calls the handler if nothing comes in between. -/
def toCome (types : List String) (h : η) : Option (Dispatch (DomainEvent π τ) η) → ℕ
  | some { event, phase := .scheduled } => if event.type ∈ types then 1 else 0
  | some { event := _, phase := .running later } => later.count h
  | _ => 0

/-- How often it should call the handler in all: once for an event of these types, if it had not
begun when the read model was started. -/
def dues (types : List String) (begun : ℕ → Prop) [DecidablePred begun] (d : ℕ)
    (event : Option (DomainEvent π τ)) : ℕ :=
  match event with
  | some event => if event.type ∈ types ∧ ¬begun d then 1 else 0
  | none => 0

/-- The read model is subscribed once to each of its types, and each dispatch owes what it should. -/
structure Owes (types : List String) (h : η) (begun : ℕ → Prop) [DecidablePred begun]
    (s : EventPlatform π τ η) : Prop where
  subscribed : ∀ t, (s.bus.handlersOf t).count h = if t ∈ types then 1 else 0
  known : ∀ d, begun d → d < s.bus.dispatches.length
  owed : ∀ d, (s.bus.callsOf d).count h + toCome types h s.bus.dispatches[d]? =
    dues types begun d (s.eventAt d)

/-- A step that changes one dispatch, and no other. -/
theorem Owes.only {s s' : EventPlatform π τ η} (hs : Owes types h begun s)
    (hsubs : ∀ t, (s'.bus.handlersOf t).count h = (s.bus.handlersOf t).count h)
    (hpublished : s'.published = s.published) (d₀ : ℕ)
    (hother : ∀ d, d ≠ d₀ → s'.bus.dispatches[d]? = s.bus.dispatches[d]? ∧
      s'.bus.callsOf d = s.bus.callsOf d)
    (hself : (s'.bus.callsOf d₀).count h + toCome types h s'.bus.dispatches[d₀]? =
      (s.bus.callsOf d₀).count h + toCome types h s.bus.dispatches[d₀]?) :
    Owes types h begun s' := by
  have hevent : ∀ d, s'.eventAt d = s.eventAt d := fun d => by
    rw [eventAt_eq, eventAt_eq, hpublished]
  refine ⟨fun t => (hsubs t).trans (hs.subscribed t), fun d hd => ?_, fun d => ?_⟩
  · rw [← length_published, hpublished, length_published]
    exact hs.known d hd
  · rw [hevent, ← hs.owed d]
    by_cases hd : d = d₀
    · rw [hd]
      exact hself
    · rw [(hother d hd).1, (hother d hd).2]

/-- **One step of the bus** changes nothing about what is owed. -/
theorem owes_busStep (hs : Owes types h begun s) (b : BusStep (DomainEvent π τ) η)
    (hb : Undisturbed ids types h s (.bus b)) : Owes types h begun (s.busStep ids b) := by
  obtain ⟨hsubs, habort⟩ := hb
  have hpublished := events_step ids DomainEvent.type s.bus b
  have hsame : (∀ event, b ≠ .publish event) → (s.busStep ids b).published = s.published := by
    intro hne
    rcases hpublished with ⟨event, hb, -⟩ | ⟨-, hsame⟩
    · exact absurd hb (hne event)
    · exact hsame
  rcases bus_cases ids DomainEvent.type s.bus b with
    ⟨hdispatches, hcalls, hne⟩ | ⟨event, rfl, hdispatches, hcalls⟩ | ⟨d, event, rfl, hd, hstep⟩ |
      ⟨d, event, later, raised, rfl, hd, hstep⟩ | ⟨d, x, rfl, hd, hdispatches, hcalls⟩
  · have hcallsOf : ∀ d, (s.busStep ids b).bus.callsOf d = s.bus.callsOf d := fun d =>
      congrArg (fun calls => (calls.filter fun call => call.1 = d).map Prod.snd) hcalls
    refine hs.only hsubs (hsame hne) 0 (fun d _ => ⟨congrArg (·[d]?) hdispatches, hcallsOf d⟩) ?_
    rw [hcallsOf]
    exact congrArg (fun ds => _ + toCome types h ds[0]?) hdispatches
  · refine ⟨fun t => (hsubs t).trans (hs.subscribed t), fun d hd => ?_, fun d => ?_⟩
    · show d < (s.bus.dispatches ++ [({ event } : Dispatch _ η)]).length
      have hlt := hs.known d hd
      rw [List.length_append]
      omega
    · show (s.bus.callsOf d).count h +
        toCome types h (s.bus.dispatches ++ [({ event } : Dispatch _ η)])[d]? =
          dues types begun d (((s.bus.dispatches ++ [({ event } : Dispatch _ η)])[d]?).map
            Dispatch.event)
      have howed := hs.owed d
      unfold eventAt at howed
      rcases Nat.lt_trichotomy d s.bus.dispatches.length with hlt | rfl | hgt
      · rw [List.getElem?_append_left hlt]
        exact howed
      · -- the new dispatch has not begun
        have hbegun : ¬begun s.bus.dispatches.length := fun hbegun =>
          lt_irrefl _ (hs.known _ hbegun)
        rw [List.getElem?_eq_none le_rfl] at howed
        have hnone : (s.bus.callsOf s.bus.dispatches.length).count h = 0 := howed
        rw [List.getElem?_concat_length, hnone, Nat.zero_add]
        simp only [toCome, dues, Option.map_some, hbegun, not_false_eq_true, and_true]
      · have hnone : (s.bus.dispatches ++ [({ event } : Dispatch _ η)])[d]? = none := by
          refine List.getElem?_eq_none ?_
          rw [List.length_append, List.length_singleton]
          omega
        rw [List.getElem?_eq_none hgt.le] at howed
        rw [hnone]
        exact howed
  · -- the handlers are those that are subscribed
    obtain ⟨later, hcount, hphase⟩ := count_advance DomainEvent.type s.bus hd event
      (s.bus.handlersOf event.type) h
    refine hs.only hsubs (hsame (by simp)) d (fun d' hne => ?_) ?_
    · unfold busStep
      rw [hstep]
      exact advance_other (Ne.symm hne)
    · unfold busStep
      rw [hstep, hd]
      rw [hs.subscribed] at hcount
      rcases hphase with hphase | ⟨rfl, hphase⟩
      · rw [hphase]
        exact hcount
      · rw [hphase]
        exact hcount
  · obtain ⟨later', hcount, hphase⟩ := count_advance DomainEvent.type s.bus hd event
      later h
    refine hs.only hsubs (hsame (by simp)) d (fun d' hne => ?_) ?_
    · unfold busStep
      rw [hstep]
      exact advance_other (Ne.symm hne)
    · unfold busStep
      rw [hstep, hd]
      rcases hphase with hphase | ⟨rfl, hphase⟩
      · rw [hphase]
        exact hcount
      · rw [hphase]
        exact hcount
  · -- a dispatch about another type owes nothing
    have hcallsOf : ∀ d', (s.busStep ids (.abort d)).bus.callsOf d' = s.bus.callsOf d' := fun d' =>
      congrArg (fun calls => (calls.filter fun call => call.1 = d').map Prod.snd) hcalls
    have hlt := (List.getElem?_eq_some_iff.1 hd).1
    have hafter : (s.busStep ids (.abort d)).bus.dispatches[d]? = some { x with phase := .cancelled } :=
      (congrArg (·[d]?) hdispatches).trans (List.getElem?_set_self hlt)
    have howed := hs.owed d
    unfold eventAt at howed
    rw [hd] at howed
    have hdues : dues types begun d (some x.event) = 0 := if_neg fun hx => habort d x rfl hd hx.1
    refine hs.only hsubs (hsame (by simp)) d (fun d' hne => ⟨?_, hcallsOf d'⟩) ?_
    · exact (congrArg (·[d']?) hdispatches).trans (List.getElem?_set_ne (Ne.symm hne))
    · rw [hcallsOf, hafter, hd]
      have hzero := howed.trans hdues
      have hcancelled : toCome types h (some { x with phase := .cancelled }) = 0 := rfl
      omega

theorem owes_step (hs : Owes types h begun s) (b : PlatformStep π τ η)
    (hb : Undisturbed ids types h s b) : Owes types h begun (s.step codec ids b) := by
  cases b with
  | publishEvent event =>
    show Owes types h begun (s.publishEvent codec ids event).2
    obtain ⟨store, -, ⟨-, hafter⟩ | ⟨-, hafter⟩⟩ := publishEvent_cases codec ids event s
    · rw [hafter]
      refine owes_busStep (s := { s with store }) ⟨hs.subscribed, hs.known, hs.owed⟩ (.publish event)
        ⟨fun _ => rfl, ?_⟩
      rintro _ _ ⟨⟩
    · rw [hafter]
      exact ⟨hs.subscribed, hs.known, hs.owed⟩
  | append a => exact ⟨hs.subscribed, hs.known, hs.owed⟩
  | bus b => exact owes_busStep hs b hb

/-- **A run** that leaves the subscriptions changes nothing about what is owed. -/
theorem owes_run (steps : List (PlatformStep π τ η)) : ∀ {s : EventPlatform π τ η},
    Owes types h begun s → EachStep (step codec ids) (Undisturbed ids types h) s steps →
      Owes types h begun (steps.foldl (step codec ids) s) := by
  induction steps with
  | nil =>
    intro s hs _
    exact hs
  | cons b steps ih =>
    intro s hs hsteps
    exact ih (owes_step hs b hsteps.1) hsteps.2

/-! ## A read model is started -/

/-- The dispatch has begun. -/
def begunIn (s : EventPlatform π τ η) (d : ℕ) : Bool :=
  match s.bus.dispatches[d]? with
  | some { event := _, phase := .scheduled } => false
  | some _ => true
  | none => false

omit [DecidableEq η] in
/-- The handler comes behind those that are subscribed to the type. -/
theorem handlersOf_subscribe (bus : EventBus (DomainEvent π τ) η) (eventType t : String) (h : η) :
    (bus.subscribe ids eventType h).handlersOf t =
      bus.handlersOf t ++ if t = eventType then [h] else [] := by
  unfold handlersOf EventBus.subscribe
  simp only
  rw [Dict.get?_insert]
  by_cases ht : t = eventType
  · subst ht
    have hfresh : ids.next bus.subscriptionIds ∉ ((bus.subs.get? t).getD ∅).keys := by
      intro hmem
      cases hget : bus.subs.get? t with
      | none =>
        rw [hget] at hmem
        cases hmem
      | some handlers =>
        rw [hget] at hmem
        refine ids.not_mem bus.subscriptionIds (List.mem_flatMap.2 ⟨handlers, ?_, hmem⟩)
        exact List.mem_map.2 ⟨_, Dict.mem_of_get? hget, rfl⟩
    rw [if_pos rfl, if_pos rfl]
    unfold Dict.values
    rw [Option.getD_some, Dict.entries_insert_of_not_mem hfresh, List.map_append, List.map_singleton]
  · rw [if_neg ht, if_neg ht, List.append_nil]

theorem count_subscribeAll (hnodup : types.Nodup) (s : EventPlatform π τ η) (t : String) :
    ((s.subscribeAll ids types h).bus.handlersOf t).count h =
      (s.bus.handlersOf t).count h + if t ∈ types then 1 else 0 := by
  have hcount : ∀ (types : List String) (s : EventPlatform π τ η),
      ((s.subscribeAll ids types h).bus.handlersOf t).count h =
        (s.bus.handlersOf t).count h + types.count t := by
    intro types
    induction types with
    | nil =>
      intro s
      rfl
    | cons eventType types ih =>
      intro s
      have hfirst : ((s.busStep ids (.subscribe eventType h)).bus.handlersOf t).count h =
          (s.bus.handlersOf t).count h + [eventType].count t := by
        show ((s.bus.subscribe ids eventType h).handlersOf t).count h = _
        rw [handlersOf_subscribe, List.count_append]
        by_cases ht : t = eventType
        · subst ht
          simp
        · simp [ht, Ne.symm ht]
      have hcons : (eventType :: types).count t = [eventType].count t + types.count t := by
        rw [← List.count_append, List.singleton_append]
      exact (ih _).trans (by rw [hfirst, hcons, Nat.add_assoc])
  rw [hcount, List.Nodup.count hnodup]

variable (ids) in
omit [DecidableEq η] in
/-- Subscriptions change neither the dispatches nor the calls nor the journal. -/
theorem subscribeAll_rest (types : List String) (h : η) : ∀ s : EventPlatform π τ η,
    (s.subscribeAll ids types h).bus.dispatches = s.bus.dispatches ∧
      (s.subscribeAll ids types h).bus.calls = s.bus.calls ∧
      (s.subscribeAll ids types h).store = s.store := by
  induction types with
  | nil => exact fun _ => ⟨rfl, rfl, rfl⟩
  | cons eventType types ih =>
    intro s
    exact ih (s.busStep ids (.subscribe eventType h))

variable (ids) in
/-- **The read model is started**: what it is owed from then on. -/
theorem owes_start (hnodup : types.Nodup) (hs : Owes [] h (fun _ => False) s) :
    Owes types h (fun d => begunIn s d = true) (s.subscribeAll ids types h) := by
  obtain ⟨hdispatches, hcalls, -⟩ := subscribeAll_rest ids types h s
  refine ⟨fun t => ?_, fun d hd => ?_, fun d => ?_⟩
  · rw [count_subscribeAll hnodup, hs.subscribed t, if_neg List.not_mem_nil, Nat.zero_add]
  · rw [hdispatches]
    by_contra hle
    unfold begunIn at hd
    rw [List.getElem?_eq_none (not_lt.1 hle)] at hd
    cases hd
  · have howed := hs.owed d
    unfold eventAt callsOf at howed ⊢
    rw [hcalls, hdispatches]
    cases hd : s.bus.dispatches[d]? with
    | none =>
      rw [hd] at howed
      exact howed
    | some x =>
      rw [hd] at howed
      obtain ⟨event, phase⟩ := x
      cases phase with
      | scheduled => simpa [toCome, dues, begunIn, hd] using howed
      | running later => simpa [toCome, dues, begunIn, hd] using howed
      | done => simpa [toCome, dues, begunIn, hd] using howed
      | cancelled => simpa [toCome, dues, begunIn, hd] using howed

/-! ## What was folded when the bus is quiet -/

/-- No dispatch is under way. -/
def Quiet (s : EventPlatform π τ η) : Prop :=
  ∀ x ∈ s.bus.dispatches, x.phase = .done ∨ x.phase = .cancelled

/-- How often the handler was called by a dispatch. -/
theorem count_calls (calls : List (ℕ × η)) (h : η) (d : ℕ) :
    ((calls.filter fun call => call.2 = h).map Prod.fst).count d =
      ((calls.filter fun call => call.1 = d).map Prod.snd).count h := by
  induction calls with
  | nil => rfl
  | cons call calls ih =>
    obtain ⟨d', h'⟩ := call
    by_cases hh : h' = h
    · by_cases hd : d' = d
      · simp [hh, hd, ih]
      · simp [hh, hd, ih]
    · by_cases hd : d' = d
      · simp [hh, hd, ih]
      · simp [hh, hd, ih]

omit [DecidableEq η] in
/-- A list read place by place. -/
theorem filterMap_range {α β : Type} (l : List α) (f : α → Option β) :
    (List.range l.length).filterMap (fun d => l[d]?.bind f) = l.filterMap f := by
  have hread : (List.range l.length).map (fun d => l[d]?) = l.map some := by
    refine List.ext_getElem? fun i => ?_
    rw [List.getElem?_map, List.getElem?_map]
    by_cases hi : i < l.length
    · rw [List.getElem?_range hi]
      simp [List.getElem?_eq_getElem hi]
    · rw [List.getElem?_eq_none (by simpa using hi), List.getElem?_eq_none (not_lt.1 hi)]
      rfl
  calc (List.range l.length).filterMap (fun d => l[d]?.bind f)
      = ((List.range l.length).map (fun d => l[d]?)).filterMap (fun o => o.bind f) := by
        rw [List.filterMap_map]
        rfl
    _ = l.filterMap f := by
        rw [hread, List.filterMap_map]
        rfl

/-- **The calls of a quiet bus**: the handler was called once for each dispatch that owed it. -/
theorem handled_perm (hs : Owes types h begun s) (hquiet : Quiet s) :
    (s.handled h).Perm ((List.range s.published.length).filterMap fun d =>
      (s.published[d]?).bind fun event => if event.type ∈ types ∧ ¬begun d then some event else none) := by
  have hcount : ∀ d, (s.bus.callsOf d).count h = dues types begun d (s.eventAt d) := by
    intro d
    have howed := hs.owed d
    have hzero : toCome types h s.bus.dispatches[d]? = 0 := by
      cases hd : s.bus.dispatches[d]? with
      | none => rfl
      | some x =>
        obtain ⟨event, phase⟩ := x
        obtain hdone | hcancelled := hquiet _ (List.mem_of_getElem? hd)
        · obtain rfl : phase = .done := hdone
          rfl
        · obtain rfl : phase = .cancelled := hcancelled
          rfl
    omega
  have hperm : ((s.bus.calls.filter fun call => call.2 = h).map Prod.fst).Perm
      ((List.range s.published.length).filter fun d => dues types begun d (s.eventAt d) = 1) := by
    refine List.perm_iff_count.2 fun d => ?_
    have hcalls : ((s.bus.calls.filter fun call => call.2 = h).map Prod.fst).count d =
        dues types begun d (s.eventAt d) := (count_calls _ _ _).trans (hcount d)
    rw [hcalls]
    by_cases hd : dues types begun d (s.eventAt d) = 1
    · have hlt : d < s.published.length := by
        by_contra hle
        rw [eventAt_eq, List.getElem?_eq_none (not_lt.1 hle)] at hd
        cases hd
      rw [List.count_filter (by simpa using hd), hd, List.Nodup.count List.nodup_range,
        if_pos (List.mem_range.2 hlt)]
    · have hzero : dues types begun d (s.eventAt d) = 0 := by
        unfold dues at hd ⊢
        split
        · split
          · rename_i hevent htype
            rw [hevent] at hd
            exact absurd (if_pos htype) hd
          · rfl
        · rfl
      rw [hzero]
      exact (List.count_eq_zero.2 fun hmem => hd (by simpa using (List.mem_filter.1 hmem).2)).symm
  refine (hperm.filterMap s.eventAt).trans (List.Perm.of_eq ?_)
  rw [List.filterMap_filter]
  refine List.filterMap_congr fun d _ => ?_
  rw [eventAt_eq]
  cases s.published[d]? with
  | none => simp [dues]
  | some event =>
    by_cases htype : event.type ∈ types ∧ ¬begun d
    · simp [dues, htype]
    · simp [dues, htype]

omit [DecidableEq η] in
/-- Every run only adds to what was published, and keeps the journal in step with it. -/
theorem told_run (steps : List (PlatformStep π τ η)) : ∀ {s : EventPlatform π τ η}, Told types s →
    EachStep (step codec ids) (Recorded codec types) s steps →
      Told types (steps.foldl (step codec ids) s) ∧
        ∃ more, (steps.foldl (step codec ids) s).published = s.published ++ more := by
  induction steps with
  | nil =>
    intro s hs _
    exact ⟨hs, [], (List.append_nil _).symm⟩
  | cons b steps ih =>
    intro s hs hsteps
    obtain ⟨htold, more, hmore⟩ := ih (told_step hs b hsteps.1) hsteps.2
    refine ⟨htold, ?_⟩
    have hone : ∃ first, (s.step codec ids b).published = s.published ++ first := by
      cases b with
      | publishEvent event =>
        obtain ⟨store, -, ⟨-, hafter⟩ | ⟨-, hafter⟩⟩ := publishEvent_cases codec ids event s
        · exact ⟨[event], (congrArg published hafter).trans List.map_append⟩
        · exact ⟨[], (congrArg published hafter).trans (List.append_nil _).symm⟩
      | append a => exact ⟨[], (List.append_nil _).symm⟩
      | bus b =>
        rcases events_step ids DomainEvent.type s.bus b with
          ⟨event, -, hpublished⟩ | ⟨-, hpublished⟩
        · exact ⟨[event], hpublished⟩
        · exact ⟨[], hpublished.trans (List.append_nil _).symm⟩
    obtain ⟨first, hfirst⟩ := hone
    exact ⟨first ++ more, by rw [List.foldl_cons, hmore, hfirst, List.append_assoc]⟩

omit [DecidableEq η] in
/-- What was published before the read model was started owes it what was in flight. -/
theorem owed_before (start : EventPlatform π τ η) (more : List (DomainEvent π τ)) :
    ((List.range start.published.length).filterMap fun d =>
      ((start.published ++ more)[d]?).bind fun event =>
        if event.type ∈ types ∧ ¬begunIn start d = true then some event else none) =
      start.inFlight types := by
  unfold inFlight
  rw [length_published, ← filterMap_range start.bus.dispatches]
  refine List.filterMap_congr fun d hd => ?_
  have hlt : d < start.bus.dispatches.length := List.mem_range.1 hd
  rw [List.getElem?_append_left (by rw [length_published]; exact hlt), ← eventAt_eq]
  unfold eventAt begunIn
  rw [List.getElem?_eq_getElem hlt]
  obtain ⟨event, phase⟩ := start.bus.dispatches[d]
  cases phase with
  | scheduled => simp
  | running later => simp
  | done => simp
  | cancelled => simp

omit [DecidableEq η] in
/-- What is published later owes it everything. -/
theorem owed_after (start : EventPlatform π τ η) (more : List (DomainEvent π τ)) :
    ((List.range more.length).filterMap fun d =>
      ((start.published ++ more)[start.published.length + d]?).bind fun event =>
        if event.type ∈ types ∧ ¬begunIn start (start.published.length + d) = true then some event
        else none) = about types more := by
  unfold about
  rw [← List.filterMap_eq_filter, ← filterMap_range more]
  refine List.filterMap_congr fun d _ => ?_
  have hnot : begunIn start (start.published.length + d) = false := by
    unfold begunIn
    rw [List.getElem?_eq_none (by rw [length_published]; omega)]
  rw [List.getElem?_append_right (Nat.le_add_right _ _), Nat.add_sub_cancel_left]
  simp only [hnot]
  refine congrArg (more[d]?).bind (funext fun event => ?_)
  by_cases htype : event.type ∈ types
  · simp [htype, Option.guard]
  · simp [htype, Option.guard]

/-- **A read model agrees with the journal**, whose events it folds when it is started and then as
the bus calls it. When the bus is quiet it has folded the events of the journal, in whatever order,
and once more those that were in flight when it was started. So each was folded once exactly if
none was in flight, and then a projection that does not mind the order is that of the journal. -/
theorem read_model_agrees (codec : EventCodec π τ) (ids : IdSource String) (types : List String)
    (hnodup : types.Nodup) (h : η) (before after : List (PlatformStep π τ η))
    (hbefore : EachStep (step codec ids) (Recorded codec types) {} before)
    (hnew : EachStep (step codec ids) (Undisturbed ids [] h) {} before)
    (hafter : EachStep (step codec ids) (Recorded codec types)
      ((before.foldl (step codec ids) {}).subscribeAll ids types h) after)
    (hkept : EachStep (step codec ids) (Undisturbed ids types h)
      ((before.foldl (step codec ids) {}).subscribeAll ids types h) after)
    (hquiet : Quiet (after.foldl (step codec ids)
      ((before.foldl (step codec ids) {}).subscribeAll ids types h))) :
    let start := before.foldl (step codec ids) {}
    let s := after.foldl (step codec ids) (start.subscribeAll ids types h)
    let folded := start.journal types ++ s.handled h
    folded.Perm (s.journal types ++ start.inFlight types) ∧
      (folded.Perm (s.journal types) ↔ start.inFlight types = []) ∧
      ∀ {σ : Type} (f : σ → DomainEvent π τ → σ) (init : σ),
        (∀ x a b, f (f x a) b = f (f x b) a) → start.inFlight types = [] →
          folded.foldl f init = (s.journal types).foldl f init := by
  intro start s folded
  obtain ⟨hdispatches, -, hstore⟩ := subscribeAll_rest ids types h start
  -- the two parts of the run
  have hempty : Owes [] h (fun _ => False) ({} : EventPlatform π τ η) :=
    ⟨fun _ => rfl, fun _ hd => hd.elim, fun _ => rfl⟩
  have howes := owes_run after (owes_start ids hnodup (owes_run before hempty hnew)) hkept
  have hnothing : Told types ({} : EventPlatform π τ η) := rfl
  obtain ⟨htold, -⟩ := told_run before hnothing hbefore
  have hstart : Told types (start.subscribeAll ids types h) := by
    unfold Told journal published
    rw [hdispatches, hstore]
    exact htold
  obtain ⟨htold', more, hmore⟩ := told_run after hstart hafter
  have hpublished : (start.subscribeAll ids types h).published = start.published :=
    congrArg (List.map Dispatch.event) hdispatches
  rw [hpublished] at hmore
  have hjournal : s.journal types = start.journal types ++ about types more := by
    rw [show s.journal types = about types s.published from htold', hmore]
    unfold about
    rw [List.filter_append]
    exact congrArg (· ++ _) htold.symm
  -- what was called is what was in flight, and what came later
  have hcalled : (s.handled h).Perm (start.inFlight types ++ about types more) := by
    refine (handled_perm howes hquiet).trans (List.Perm.of_eq ?_)
    rw [hmore, List.length_append, List.range_add, List.filterMap_append, List.filterMap_map]
    exact congrArg₂ (· ++ ·) (owed_before start more) (owed_after start more)
  have hperm : folded.Perm (s.journal types ++ start.inFlight types) := by
    rw [hjournal, List.append_assoc]
    exact (hcalled.trans List.perm_append_comm).append_left _
  have honce : start.inFlight types = [] → folded.Perm (s.journal types) := by
    intro hnone
    rw [hnone, List.append_nil] at hperm
    exact hperm
  refine ⟨hperm, ⟨fun hsame => ?_, honce⟩, fun f init hcomm hnone => ?_⟩
  · have hlength := (hsame.symm.trans hperm).length_eq
    rw [List.length_append] at hlength
    exact List.length_eq_zero_iff.1 (by omega)
  · exact (honce hnone).foldl_eq' (fun a _ b _ x => hcomm x a b) init

end Owing

/-! ## Two notes -/

namespace Notes

def jsonCodec : EventCodec Unit ℕ := { dumps := fun _ => .ok "null", isoformat := fun _ => "" }

def note (id : String) (timestamp : ℕ) : DomainEvent Unit ℕ :=
  { id, type := "note", payload := (), timestamp }

/-- The first note is delivered to nobody. -/
def before : List (PlatformStep Unit ℕ ℕ) := [.publishEvent (note "a" 1), .bus (.start 0)]

def after : List (PlatformStep Unit ℕ ℕ) :=
  [.publishEvent (note "b" 2), .bus (.start 1), .bus (.finish 1 false)]

end Notes

theorem read_model_agrees_notes :
    let start := Notes.before.foldl (step Notes.jsonCodec .longer) {}
    let s := Notes.after.foldl (step Notes.jsonCodec .longer) (start.subscribeAll .longer ["note"] 7)
    (start.journal ["note"] ++ s.handled 7).Perm (s.journal ["note"] ++ start.inFlight ["note"]) := by
  refine (read_model_agrees Notes.jsonCodec .longer ["note"] (by decide) 7 Notes.before Notes.after
    ?_ ?_ ?_ ?_ ?_).1
  · exact ⟨fun _ => rfl, by rintro _ ⟨⟩, trivial⟩
  · exact ⟨trivial, ⟨fun _ => rfl, by rintro _ _ ⟨⟩⟩, trivial⟩
  · exact ⟨fun _ => rfl, by rintro _ ⟨⟩, by rintro _ ⟨⟩, trivial⟩
  · exact ⟨trivial, ⟨fun _ => rfl, by rintro _ _ ⟨⟩⟩, ⟨fun _ => rfl, by rintro _ _ ⟨⟩⟩, trivial⟩
  · unfold Quiet
    decide

end EventPlatform

end Hermes

import Mathlib.Data.List.Basic
import Mathlib.Data.List.TakeDrop
import Mathlib.Tactic

/-!
# Properties of finite histories

A run of a system leaves a finite list of entries behind. The safety properties
of such a list compare each entry with the entries before it.

* `Always P t`: every entry `a` of `t` satisfies `P h a`, where `h` is the part
  of `t` before it.
* `always_append`: a history is extended by checking the new entries only.
* `always_iff`: two properties agree on a history when they do so entry by entry.
* `run_invariant`: what holds at the start and is kept by each step holds after
  any list of steps.
* `throughout_iff_eachStep`, `throughout_iff`: a property holds throughout a run
  exactly when each step meets the condition under which one step keeps it.
* `throughout_of_invariant`: an invariant holds throughout every run.
* `Throughout.eachStep_of`: what a property in every state says of each step.
* `eachStep_iff`: two conditions on the steps of a run agree.
* `throughout_of_eachStep`: an invariant of the steps that meet a condition.
* `firstDecided`: what the first step of a run decides that decides anything.
-/

namespace History

variable {α β : Type*} {P Q : List α → α → Prop}

/-- Every entry of the history satisfies `P` together with the entries before it. -/
def Always (P : List α → α → Prop) (t : List α) : Prop :=
  ∀ n (h : n < t.length), P (t.take n) t[n]

instance [∀ h a, Decidable (P h a)] (t : List α) : Decidable (Always P t) :=
  inferInstanceAs (Decidable (∀ n (h : n < t.length), P (t.take n) t[n]))

theorem always_nil : Always P [] := fun _ h => absurd h (Nat.not_lt_zero _)

/-- `Always` by splitting the history at each of its entries. -/
theorem always_iff_split {t : List α} : Always P t ↔ ∀ h a u, t = h ++ a :: u → P h a := by
  constructor
  · intro H h a u ht
    have hn : h.length < t.length := by simp [ht]
    have := H h.length hn
    simpa [ht] using this
  · intro H n hn
    apply H _ _ (t.drop (n + 1))
    rw [← List.drop_eq_getElem_cons hn, List.take_append_drop]

theorem always_snoc {t : List α} {a : α} : Always P (t ++ [a]) ↔ Always P t ∧ P t a := by
  constructor
  · intro H
    refine ⟨fun n hn => ?_, ?_⟩
    · have := H n (by simp; omega)
      rwa [List.take_append_of_le_length (by omega), List.getElem_append_left hn] at this
    · have := H t.length (by simp)
      simpa using this
  · rintro ⟨H, ha⟩ n hn
    rcases Nat.lt_or_ge n t.length with h | h
    · rw [List.take_append_of_le_length (by omega), List.getElem_append_left h]
      exact H n h
    · have : n = t.length := by simp at hn; omega
      subst this; simpa using ha

/-- **A history is extended entry by entry.** -/
theorem always_append {t u : List α} :
    Always P (t ++ u) ↔ Always P t ∧ Always (fun h a => P (t ++ h) a) u := by
  induction u using List.reverseRecOn with
  | nil => simp [always_nil]
  | append_singleton u a ih => rw [← List.append_assoc, always_snoc, ih, always_snoc, and_assoc]

theorem Always.mono (hPQ : ∀ h a, P h a → Q h a) {t : List α} (H : Always P t) : Always Q t :=
  fun n hn => hPQ _ _ (H n hn)

theorem Always.left {t u : List α} (H : Always P (t ++ u)) : Always P t := (always_append.1 H).1

/-- `Always` over an extension none of whose entries depends on its own part. -/
theorem always_append_of_forall {t u : List α} (H : Always P t)
    (hu : ∀ h a, h <+: u → a ∈ u → P (t ++ h) a) : Always P (t ++ u) := by
  refine always_append.2 ⟨H, always_iff_split.2 fun h a v hv => ?_⟩
  exact hu h a ⟨_, hv.symm⟩ (by simp [hv])

theorem always_of_forall {A : α → Prop} {t : List α} (h : ∀ a ∈ t, A a) : Always (fun _ a => A a) t :=
  fun _ hn => h _ (List.getElem_mem hn)

/-- What holds of each entry and every entry before it. -/
theorem always_of_pairwise {R : α → α → Prop} {t : List α} (h : t.Pairwise R) :
    Always (fun h a => ∀ b ∈ h, R b a) t := by
  rw [always_iff_split]
  rintro h a u rfl b hb
  exact (List.pairwise_append.1 h).2.2 b hb a List.mem_cons_self

/-- **Two properties of histories agree** when they do so for each entry after a history with the
second, by what `I` says of such histories. `A` is what is known of the entries. -/
theorem always_iff {A : List α → α → Prop} {I : List α → Prop} (h0 : I [])
    (hI : ∀ t a, A t a → I t → Q t a → I (t ++ [a])) (hPQ : ∀ t a, A t a → I t → (P t a ↔ Q t a))
    {t : List α} (hA : Always A t) : Always P t ↔ Always Q t := by
  have key : (Always P t ↔ Always Q t) ∧ (Always Q t → I t) := by
    induction t using List.reverseRecOn with
    | nil => exact ⟨iff_of_true always_nil always_nil, fun _ => h0⟩
    | append_singleton t a ih =>
      obtain ⟨hA, ha⟩ := always_snoc.1 hA
      obtain ⟨hiff, hinv⟩ := ih hA
      rw [always_snoc, always_snoc, hiff]
      refine ⟨and_congr_right fun hQ => hPQ t a ha (hinv hQ), ?_⟩
      rintro ⟨hQ, hqa⟩
      exact hI t a ha (hinv hQ) hqa
  exact key.1

/-! ## The end of a history -/

/-- How many entries at the end of a history satisfy `p` in succession. -/
def trailing (p : α → Bool) (t : List α) : ℕ := (t.reverse.takeWhile p).length

/-- The last entry that satisfies `p`. -/
def lastOf (p : α → Bool) (t : List α) : Option α := t.reverse.find? p

theorem trailing_snoc (p : α → Bool) (t : List α) (a : α) :
    trailing p (t ++ [a]) = if p a then trailing p t + 1 else 0 := by
  unfold trailing
  rw [List.reverse_append, List.reverse_singleton, List.singleton_append, List.takeWhile_cons]
  split
  · rw [List.length_cons]
  · rfl

theorem lastOf_snoc (p : α → Bool) (t : List α) (a : α) :
    lastOf p (t ++ [a]) = if p a then some a else lastOf p t := by
  unfold lastOf
  rw [List.reverse_append, List.reverse_singleton, List.singleton_append, List.find?_cons]
  cases p a with
  | false => rfl
  | true => rfl

theorem mem_of_lastOf {p : α → Bool} {t : List α} {a : α} (h : lastOf p t = some a) : a ∈ t :=
  List.mem_reverse.1 (List.mem_of_find?_eq_some h)

/-! ## Runs -/

/-- **Invariants of runs.** -/
theorem run_invariant {σ : Type*} (step : σ → β → σ) (I : σ → Prop)
    (hstep : ∀ s b, I s → I (step s b)) (bs : List β) : ∀ s, I s → I (bs.foldl step s) := by
  induction bs with
  | nil => intro s h; exact h
  | cons b bs ih => intro s h; exact ih _ (hstep s b h)

/-- An invariant that the steps of a run keep, by what is known of its inputs. -/
theorem run_invariant_of_mem {σ : Type*} (step : σ → β → σ) (I : σ → Prop) (bs : List β)
    (hstep : ∀ s, ∀ b ∈ bs, I s → I (step s b)) : ∀ s, I s → I (bs.foldl step s) := by
  induction bs with
  | nil => intro s h; exact h
  | cons b bs ih =>
    intro s h
    refine ih (fun s c hc => hstep s c (List.mem_cons_of_mem _ hc)) _ ?_
    exact hstep s b List.mem_cons_self h

/-- **Runs in lockstep**: what relates two states, and is kept by steps on related inputs, relates
the states after them. -/
theorem run_lockstep {σ τ γ : Type*} {step : σ → β → σ} {step' : τ → γ → τ} {S : σ → τ → Prop}
    {R : β → γ → Prop} (hstep : ∀ s t b c, S s t → R b c → S (step s b) (step' t c))
    {bs : List β} {cs : List γ} (hR : List.Forall₂ R bs cs) :
    ∀ {s t}, S s t → S (bs.foldl step s) (cs.foldl step' t) := by
  induction hR with
  | nil => intro s t h; exact h
  | cons hbc _ ih => intro s t h; exact ih (hstep _ _ _ _ h hbc)

/-- Two runs on the same inputs. -/
theorem run_together {σ τ : Type*} {step : σ → β → σ} {step' : τ → β → τ} {S : σ → τ → Prop}
    (hstep : ∀ {s t} b, S s t → S (step s b) (step' t b)) (bs : List β) {s : σ} {t : τ}
    (h : S s t) : S (bs.foldl step s) (bs.foldl step' t) :=
  run_lockstep (R := Eq) (fun _ _ _ _ hst hbc => hbc ▸ hstep _ hst) (List.forall₂_same.2 fun _ _ => rfl) h

/-- `P` holds in every state of a run. -/
def Throughout {σ : Type*} (step : σ → β → σ) (P : σ → Prop) : σ → List β → Prop
  | s, [] => P s
  | s, b :: bs => P s ∧ Throughout step P (step s b) bs

/-- Each step of a run meets `C`, a condition on the state before it. -/
def EachStep {σ : Type*} (step : σ → β → σ) (C : σ → β → Prop) : σ → List β → Prop
  | _, [] => True
  | s, b :: bs => C s b ∧ EachStep step C (step s b) bs

theorem eachStep_congr {σ : Type*} {step : σ → β → σ} {C D : σ → β → Prop}
    (h : ∀ s b, C s b ↔ D s b) (s : σ) (bs : List β) : EachStep step C s bs ↔ EachStep step D s bs := by
  have hCD : C = D := by
    funext s b
    exact propext (h s b)
  rw [hCD]

instance decidableThroughout {σ : Type*} (step : σ → β → σ) (P : σ → Prop) [DecidablePred P] :
    ∀ s bs, Decidable (Throughout step P s bs)
  | s, [] => inferInstanceAs (Decidable (P s))
  | s, b :: bs =>
    have := decidableThroughout step P (step s b) bs
    inferInstanceAs (Decidable (P s ∧ Throughout step P (step s b) bs))

instance decidableEachStep {σ : Type*} (step : σ → β → σ) (C : σ → β → Prop)
    [∀ s b, Decidable (C s b)] : ∀ s bs, Decidable (EachStep step C s bs)
  | _, [] => inferInstanceAs (Decidable True)
  | s, b :: bs =>
    have := decidableEachStep step C (step s b) bs
    inferInstanceAs (Decidable (C s b ∧ EachStep step C (step s b) bs))

theorem eachStep_of_mem {σ : Type*} {step : σ → β → σ} {C : σ → β → Prop} {bs : List β}
    (h : ∀ s, ∀ b ∈ bs, C s b) : ∀ s, EachStep step C s bs := by
  induction bs with
  | nil => intro s; trivial
  | cons b bs ih =>
    intro s
    have hrest : ∀ s, ∀ c ∈ bs, C s c := fun s c hc => h s c (List.mem_cons_of_mem _ hc)
    exact ⟨h s b List.mem_cons_self, ih hrest _⟩

/-- What holds throughout a run holds after each of its steps. -/
theorem Throughout.eachStep {σ : Type*} {step : σ → β → σ} {P : σ → Prop} {bs : List β} :
    ∀ {s}, Throughout step P s bs → EachStep step (fun s b => P (step s b)) s bs := by
  induction bs with
  | nil => intro s _; trivial
  | cons b bs ih =>
    intro s h
    obtain ⟨-, hrest⟩ := h
    refine ⟨?_, ih hrest⟩
    cases bs with
    | nil => exact hrest
    | cons c bs => exact hrest.1

/-- What holds of a step wherever `P` does. -/
theorem Throughout.eachStep_of {σ : Type*} {step : σ → β → σ} {P : σ → Prop} {C : σ → β → Prop}
    (hC : ∀ s b, P s → C s b) {bs : List β} : ∀ {s}, Throughout step P s bs → EachStep step C s bs := by
  induction bs with
  | nil => intro s _; trivial
  | cons b bs ih =>
    intro s h
    obtain ⟨hnow, hrest⟩ := h
    exact ⟨hC s b hnow, ih hrest⟩

/-- **A property holds throughout a run** exactly when each of its steps meets the condition under
which one step keeps it. `A` is what is known of the steps, `I` an invariant of the steps that meet
the condition. -/
theorem throughout_iff_eachStep {σ : Type*} {step : σ → β → σ} {A C : σ → β → Prop}
    {I P : σ → Prop} (hI : ∀ s b, A s b → I s → P s → C s b → I (step s b))
    (hP : ∀ s b, A s b → I s → P s → (P (step s b) ↔ C s b)) :
    ∀ bs s, EachStep step A s bs → I s → P s →
      (Throughout step P s bs ↔ EachStep step C s bs) := by
  intro bs
  induction bs with
  | nil => intro s _ _ h; exact ⟨fun _ => trivial, fun _ => h⟩
  | cons b bs ih =>
    intro s hA hi h
    obtain ⟨hb, hbs⟩ := hA
    have hstep := hP s b hb hi h
    have hrest := fun hc => ih (step s b) hbs (hI s b hb hi h hc)
    -- the rest of the run begins in a state with `P` exactly when this step meets `C`
    constructor
    · intro hrun
      obtain ⟨hp, -⟩ := hrun.eachStep
      obtain ⟨-, hall⟩ := hrun
      have hc := hstep.1 hp
      exact ⟨hc, (hrest hc hp).1 hall⟩
    · rintro ⟨hc, hall⟩
      exact ⟨h, (hrest hc (hstep.2 hc)).2 hall⟩

/-- `throughout_iff_eachStep` for allowed steps and an invariant of all runs. -/
theorem throughout_iff {σ : Type*} {step : σ → β → σ} {A : β → Prop} {I P : σ → Prop}
    {C : σ → β → Prop} (hI : ∀ s b, A b → I s → I (step s b))
    (hP : ∀ s b, A b → I s → P s → (P (step s b) ↔ C s b)) (bs : List β) (s : σ)
    (hA : ∀ b ∈ bs, A b) : I s → P s → (Throughout step P s bs ↔ EachStep step C s bs) :=
  throughout_iff_eachStep (A := fun _ b => A b) (fun s b hb hi _ _ => hI s b hb hi) hP bs s
    (eachStep_of_mem (fun _ => hA) s)

/-- An invariant holds throughout every run. -/
theorem throughout_of_invariant {σ : Type*} {step : σ → β → σ} {I : σ → Prop}
    (hI : ∀ s b, I s → I (step s b)) : ∀ bs s, I s → Throughout step I s bs := by
  intro bs
  induction bs with
  | nil => intro s hi; exact hi
  | cons b bs ih => intro s hi; exact ⟨hi, ih _ (hI s b hi)⟩

/-- **Two conditions on steps** agree along a run when they do so in every state that steps with
the second lead to. `A` is what is known of the steps. -/
theorem eachStep_iff {σ : Type*} {step : σ → β → σ} {A C D : σ → β → Prop} {I : σ → Prop}
    (hI : ∀ s b, A s b → I s → C s b → I (step s b)) (hDC : ∀ s b, A s b → I s → (D s b ↔ C s b)) :
    ∀ bs s, I s → EachStep step A s bs → (EachStep step D s bs ↔ EachStep step C s bs) := by
  intro bs
  induction bs with
  | nil => intro s _ _; exact Iff.rfl
  | cons b bs ih =>
    intro s hi hA
    obtain ⟨hb, hbs⟩ := hA
    unfold EachStep
    rw [hDC s b hb hi]
    exact and_congr_right fun hc => ih _ (hI s b hb hi hc) hbs

/-- What an invariant implies holds throughout a run whose steps meet the condition under which
they keep it. -/
theorem throughout_of_eachStep {σ : Type*} {step : σ → β → σ} {C : σ → β → Prop} {I P : σ → Prop}
    (hI : ∀ s b, C s b → I s → I (step s b)) (hP : ∀ s, I s → P s) :
    ∀ bs s, I s → EachStep step C s bs → Throughout step P s bs := by
  intro bs
  induction bs with
  | nil => intro s hi _; exact hP s hi
  | cons b bs ih =>
    intro s hi hC
    obtain ⟨hb, hbs⟩ := hC
    exact ⟨hP s hi, ih _ (hI s b hb hi) hbs⟩

/-- What is decided by the first step of a run that decides something. -/
def firstDecided {σ ω : Type*} (step : σ → β → σ) (decides : σ → β → Option ω) :
    σ → List β → Option ω
  | _, [] => none
  | s, b :: bs => match decides s b with
    | some o => some o
    | none => firstDecided step decides (step s b) bs

/-- **The first decision stays**: a state is open until a step decides, and then as it was decided. -/
theorem firstDecided_spec {σ ω : Type*} {step : σ → β → σ} {decides : σ → β → Option ω}
    {W : σ → Prop} {S : ω → σ → Prop}
    (hdecided : ∀ s b o, W s → decides s b = some o → S o (step s b))
    (hopen : ∀ s b, W s → decides s b = none → W (step s b))
    (hkept : ∀ o s b, S o s → S o (step s b)) (bs : List β) : ∀ s, W s →
      (∀ o, firstDecided step decides s bs = some o → S o (bs.foldl step s)) ∧
        (firstDecided step decides s bs = none → W (bs.foldl step s)) := by
  induction bs with
  | nil => intro s hw; exact ⟨nofun, fun _ => hw⟩
  | cons b bs ih =>
    intro s hw
    unfold firstDecided
    cases hb : decides s b with
    | some o =>
      refine ⟨?_, nofun⟩
      rintro o' ⟨⟩
      exact run_invariant step (S o) (hkept o) bs _ (hdecided s b o hw hb)
    | none => exact ih _ (hopen s b hw hb)

end History

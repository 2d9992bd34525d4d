import Mathlib.Data.List.Basic
import Mathlib.Tactic

/-!
# Loops that may raise

A `for` loop over a list whose body changes a state, may raise and collects what it
yields. What a round has changed stays when a later round raises.

* `andThen`: a round, and the rounds after it if it returns.
* `andThen_returns_iff`, `andThen_snd`: when both return, and the state then.
* `forEach_cons`, `forEach_append`, `forEach_nested`: a loop by its rounds, and two
  nested loops as one.
* `forEach_returns`, `forEach_keeps`, `forEach_keeps_of_returns`: invariants of loops.
* `forEach_proj`: a loop on a part of the state.
* `forEach_each`: what each round brings about, for its own item, and no round undoes.
* `forEach_first`: the first round that does something.
* `forEach_yields_iff`: one thing for each item.
* `allPass_raises_iff`: a loop that ends at the first item that fails, and when it raises.
-/

namespace Loops

variable {ε ω α β σ : Type*}

/-- What comes after a round, if the round returns. -/
def andThen (r : Except ε (List ω) × σ) (k : σ → Except ε (List ω) × σ) : Except ε (List ω) × σ :=
  match r.1 with
  | .error e => (.error e, r.2)
  | .ok xs => ((k r.2).1.map (xs ++ ·), (k r.2).2)

/-- `for a in as: f(a)`, with all that the rounds yield. -/
def forEach (f : α → σ → Except ε (List ω) × σ) : List α → σ → Except ε (List ω) × σ
  | [], s => (.ok [], s)
  | a :: as, s => andThen (f a s) (forEach f as)

/-! ## One round after the other -/

theorem ok_andThen (xs : List ω) (s : σ) (k : σ → Except ε (List ω) × σ) :
    andThen (.ok xs, s) k = ((k s).1.map (xs ++ ·), (k s).2) := rfl

theorem ok_nil_andThen (s : σ) (k : σ → Except ε (List ω) × σ) :
    andThen (.ok [], s) k = k s := by
  rw [ok_andThen]
  cases k s with
  | mk r s' =>
    cases r with
    | error e => rfl
    | ok ys => rfl

theorem andThen_assoc (r : Except ε (List ω) × σ) (k l : σ → Except ε (List ω) × σ) :
    andThen (andThen r k) l = andThen r fun s => andThen (k s) l := by
  obtain ⟨r, s⟩ := r
  cases r with
  | error e => rfl
  | ok xs =>
    rw [ok_andThen, ok_andThen]
    cases k s with
    | mk r s' =>
      cases r with
      | error e => rfl
      | ok ys =>
        refine (ok_andThen (xs ++ ys) s' l).trans ?_
        rw [ok_andThen]
        cases (l s').1 with
        | error e => rfl
        | ok zs => simp only [Except.map, List.append_assoc]

/-- A loop returns when its first round does and then the others do. -/
theorem andThen_returns_iff (r : Except ε (List ω) × σ) (k : σ → Except ε (List ω) × σ) :
    (∃ xs, (andThen r k).1 = .ok xs) ↔ (∃ xs, r.1 = .ok xs) ∧ ∃ xs, (k r.2).1 = .ok xs := by
  obtain ⟨r, s⟩ := r
  cases r with
  | error e =>
    refine iff_of_false (fun h => ?_) fun h => ?_
    · obtain ⟨xs, hxs⟩ := h
      cases hxs
    · obtain ⟨⟨xs, hxs⟩, -⟩ := h
      cases hxs
  | ok xs =>
    unfold andThen
    simp only
    cases (k s).1 with
    | error e =>
      refine iff_of_false (fun h => ?_) fun h => ?_
      · obtain ⟨ys, hys⟩ := h
        cases hys
      · obtain ⟨-, ys, hys⟩ := h
        cases hys
    | ok ys => exact iff_of_true ⟨_, rfl⟩ ⟨⟨xs, rfl⟩, ys, rfl⟩

/-- The state after a loop whose first round returns. -/
theorem andThen_snd {r : Except ε (List ω) × σ} (hr : ∃ xs, r.1 = .ok xs)
    (k : σ → Except ε (List ω) × σ) : (andThen r k).2 = (k r.2).2 := by
  obtain ⟨r, s⟩ := r
  obtain ⟨xs, rfl⟩ := hr
  rfl

theorem andThen_keeps {I : σ → Prop} {r : Except ε (List ω) × σ} {k : σ → Except ε (List ω) × σ}
    (hr : I r.2) (hk : I (k r.2).2) : I (andThen r k).2 := by
  obtain ⟨r, s⟩ := r
  cases r with
  | error e => exact hr
  | ok xs => exact hk

/-! ## Loops -/

theorem forEach_cons (f : α → σ → Except ε (List ω) × σ) (a : α) (as : List α) (s : σ) :
    forEach f (a :: as) s = andThen (f a s) (forEach f as) := rfl

/-- **A loop keeps** what each round keeps, whether a round raises or not. -/
theorem forEach_keeps {f : α → σ → Except ε (List ω) × σ} {I : σ → Prop}
    (hf : ∀ a s, I s → I (f a s).2) (as : List α) : ∀ s, I s → I (forEach f as s).2 := by
  induction as with
  | nil => intro s h; exact h
  | cons a as ih =>
    intro s h
    rw [forEach_cons]
    exact andThen_keeps (hf a s h) (ih _ (hf a s h))

/-- A loop that returns keeps what each round that returns keeps. -/
theorem forEach_keeps_of_returns {f : α → σ → Except ε (List ω) × σ} {I : σ → Prop}
    (hf : ∀ a s, I s → (∃ xs, (f a s).1 = .ok xs) → I (f a s).2) (as : List α) :
    ∀ s, I s → (∃ xs, (forEach f as s).1 = .ok xs) → I (forEach f as s).2 := by
  induction as with
  | nil => intro s h _; exact h
  | cons a as ih =>
    intro s h hok
    rw [forEach_cons, andThen_returns_iff] at hok
    rw [forEach_cons, andThen_snd hok.1]
    exact ih _ (hf a s h hok.1) hok.2

/-- Two loops whose rounds do the same to a part of the state. -/
theorem forEach_proj {τ : Type*} {f : α → σ → Except ε (List ω) × σ}
    {g : α → τ → Except ε (List ω) × τ} {π : σ → τ}
    (hfg : ∀ a s, (f a s).1 = (g a (π s)).1 ∧ π (f a s).2 = (g a (π s)).2) (as : List α) :
    ∀ s, (forEach f as s).1 = (forEach g as (π s)).1 ∧
      π (forEach f as s).2 = (forEach g as (π s)).2 := by
  induction as with
  | nil => intro s; exact ⟨rfl, rfl⟩
  | cons a as ih =>
    intro s
    obtain ⟨hround, hstate⟩ := hfg a s
    obtain ⟨hrest, hend⟩ := ih (f a s).2
    rw [hstate] at hrest hend
    rw [forEach_cons, forEach_cons]
    unfold andThen
    rw [← hround]
    cases (f a s).1 with
    | error e => exact ⟨rfl, hstate⟩
    | ok xs =>
      refine ⟨?_, hend⟩
      show Except.map _ _ = Except.map _ _
      rw [hrest]

/-- A loop returns when each round does, by what the rounds before it keep. -/
theorem forEach_returns {f : α → σ → Except ε (List ω) × σ} {I : σ → Prop} {as : List α}
    (hf : ∀ a ∈ as, ∀ s, I s → (∃ xs, (f a s).1 = .ok xs) ∧ I (f a s).2) :
    ∀ s, I s → (∃ xs, (forEach f as s).1 = .ok xs) ∧ I (forEach f as s).2 := by
  induction as with
  | nil => intro s h; exact ⟨⟨[], rfl⟩, h⟩
  | cons a as ih =>
    intro s h
    obtain ⟨hok, hkeep⟩ := hf a List.mem_cons_self s h
    have hrest := ih (fun b hb => hf b (List.mem_cons_of_mem _ hb)) _ hkeep
    rw [forEach_cons, andThen_returns_iff, andThen_snd hok]
    exact ⟨⟨hok, hrest.1⟩, hrest.2⟩

/-- **What each round brings about** for its item holds of all items after a loop whose rounds
return, when no round undoes it. -/
theorem forEach_each {f : α → σ → Except ε (List ω) × σ} {I : σ → Prop} {Q : α → σ → Prop}
    {as : List α} (hf : ∀ a ∈ as, ∀ s, I s → (∃ xs, (f a s).1 = .ok xs) ∧ I (f a s).2)
    (hown : ∀ a ∈ as, ∀ s, I s → Q a (f a s).2)
    (hstay : ∀ a ∈ as, ∀ s, I s → ∀ b, Q b s → Q b (f a s).2) :
    ∀ s, I s → ∀ b, (b ∈ as ∨ Q b s) → Q b (forEach f as s).2 := by
  induction as with
  | nil =>
    intro s _ b hb
    rcases hb with hb | hb
    · cases hb
    · exact hb
  | cons a as ih =>
    intro s h b hb
    obtain ⟨hok, hkeep⟩ := hf a List.mem_cons_self s h
    rw [forEach_cons, andThen_snd hok]
    refine ih (fun c hc => hf c (List.mem_cons_of_mem _ hc))
      (fun c hc => hown c (List.mem_cons_of_mem _ hc))
      (fun c hc => hstay c (List.mem_cons_of_mem _ hc)) _ hkeep b ?_
    rcases hb with hb | hb
    · rcases List.mem_cons.1 hb with rfl | hb
      · exact Or.inr (hown b List.mem_cons_self s h)
      · exact Or.inl hb
    · exact Or.inr (hstay a List.mem_cons_self s h b hb)

/-- **The first round that does something**: the rounds before it are idle. -/
theorem forEach_first {f : α → σ → Except ε (List ω) × σ} {Idle : α → Prop} {as : List α} {s : σ}
    (hidle : ∀ a ∈ as, Idle a → (∃ xs, (f a s).1 = .ok xs) ∧ (f a s).2 = s)
    (has : ∃ a ∈ as, ¬Idle a) : ∃ a ∈ as, ¬Idle a ∧ ∃ rest,
      (∃ xs, (f a s).1 = .ok xs) → (forEach f as s).2 = (forEach f rest (f a s).2).2 := by
  induction as with
  | nil =>
    obtain ⟨a, ha, -⟩ := has
    cases ha
  | cons b bs ih =>
    rw [forEach_cons]
    by_cases hb : Idle b
    · obtain ⟨hok, hsame⟩ := hidle b List.mem_cons_self hb
      have has' : ∃ a ∈ bs, ¬Idle a := by
        obtain ⟨a, ha, hna⟩ := has
        rcases List.mem_cons.1 ha with rfl | ha
        · exact absurd hb hna
        · exact ⟨a, ha, hna⟩
      obtain ⟨a, ha, hna, rest, hrest⟩ :=
        ih (fun a ha => hidle a (List.mem_cons_of_mem _ ha)) has'
      refine ⟨a, List.mem_cons_of_mem _ ha, hna, rest, fun h => ?_⟩
      rw [andThen_snd hok, hsame]
      exact hrest h
    · refine ⟨b, List.mem_cons_self, hb, bs, fun h => ?_⟩
      rw [andThen_snd h]

/-- Each round yields one thing, as `R` has it of the round. -/
def Yields (f : α → σ → Except ε (List ω) × σ) (R : α → σ → ω → σ → Prop) :
    List α → σ → List ω → Prop
  | [], _, xs => xs = []
  | a :: as, s, xs => ∃ x rest, xs = x :: rest ∧ R a s x (f a s).2 ∧ Yields f R as (f a s).2 rest

/-- **A loop yields one thing for each item**, just when no round raises, where no round changes
which items raise. -/
theorem forEach_yields_iff {f : α → σ → Except ε (List ω) × σ} {R : α → σ → ω → σ → Prop}
    {C : α → σ → Prop} (hok : ∀ a s, C a s → ∃ x, (f a s).1 = .ok [x] ∧ R a s x (f a s).2)
    (hraise : ∀ a s, ¬ C a s → ∃ e, (f a s).1 = .error e)
    (hkeep : ∀ a b s, C b (f a s).2 ↔ C b s) (as : List α) :
    ∀ s, (∃ xs, (forEach f as s).1 = .ok xs ∧ Yields f R as s xs) ↔ ∀ a ∈ as, C a s := by
  induction as with
  | nil =>
    intro s
    exact iff_of_true ⟨[], rfl, rfl⟩ nofun
  | cons a as ih =>
    intro s
    have hrest : (∀ b ∈ as, C b (f a s).2) ↔ ∀ b ∈ as, C b s :=
      forall₂_congr fun b _ => hkeep a b s
    rw [List.forall_mem_cons, forEach_cons, ← hrest, ← ih (f a s).2]
    unfold andThen
    by_cases hC : C a s
    · obtain ⟨x, hx, hR⟩ := hok a s hC
      rw [hx]
      simp only
      constructor
      · rintro ⟨xs, hxs, x', rest, rfl, -, hyields⟩
        cases hloop : (forEach f as (f a s).2).1 with
        | error e =>
          rw [hloop] at hxs
          cases hxs
        | ok ys =>
          rw [hloop] at hxs
          have hys : [x] ++ ys = x' :: rest := Except.ok.inj hxs
          obtain ⟨-, rfl⟩ := List.cons.inj hys
          exact ⟨hC, ys, rfl, hyields⟩
      · rintro ⟨-, xs, hxs, hyields⟩
        rw [hxs]
        exact ⟨x :: xs, rfl, x, xs, rfl, hR, hyields⟩
    · obtain ⟨e, he⟩ := hraise a s hC
      rw [he]
      refine iff_of_false ?_ fun h => hC h.1
      rintro ⟨xs, hxs, -⟩
      cases hxs

theorem forEach_append (f : α → σ → Except ε (List ω) × σ) (as bs : List α) (s : σ) :
    forEach f (as ++ bs) s = andThen (forEach f as s) (forEach f bs) := by
  induction as generalizing s with
  | nil => exact (ok_nil_andThen _ _).symm
  | cons a as ih =>
    rw [List.cons_append, forEach_cons, forEach_cons, andThen_assoc]
    exact congrArg _ (funext ih)

theorem forEach_map (f : β → σ → Except ε (List ω) × σ) (g : α → β) (as : List α) (s : σ) :
    forEach f (as.map g) s = forEach (fun a => f (g a)) as s := by
  induction as generalizing s with
  | nil => rfl
  | cons a as ih =>
    rw [List.map_cons, forEach_cons, forEach_cons]
    exact congrArg _ (funext ih)

/-- Two nested loops are one loop. -/
theorem forEach_nested (f : α → β → σ → Except ε (List ω) × σ) (g : α → List β) (as : List α) (s : σ) :
    forEach (fun a => forEach (f a) (g a)) as s =
      forEach (fun p => f p.1 p.2) (as.flatMap fun a => (g a).map fun b => (a, b)) s := by
  induction as generalizing s with
  | nil => rfl
  | cons a as ih =>
    rw [List.flatMap_cons, forEach_append, forEach_map, forEach_cons]
    exact congrArg _ (funext ih)

/-! ## Loops that end early -/

/-- `for a in as: if not p(a): return False`, then `return True`. -/
def allPass (p : α → Except ε Bool) : List α → Except ε Bool
  | [] => .ok true
  | a :: as =>
    match p a with
    | .error e => .error e
    | .ok false => .ok false
    | .ok true => allPass p as

/-- The first item that does not pass raises. -/
def FirstRaises (p : α → Except ε Bool) (as : List α) : Prop :=
  ∃ before a after, as = before ++ a :: after ∧ (∀ b ∈ before, p b = .ok true) ∧ ∃ e, p a = .error e

/-- **The loop raises** exactly when the first item that does not pass does. -/
theorem allPass_raises_iff {p : α → Except ε Bool} (as : List α) :
    (∃ e, allPass p as = .error e) ↔ FirstRaises p as := by
  induction as with
  | nil =>
    refine iff_of_false (by simp [allPass]) ?_
    rintro ⟨before, a, after, has, -⟩
    simp at has
  | cons a as ih =>
    unfold allPass
    cases ha : p a with
    | error e => exact iff_of_true ⟨e, rfl⟩ ⟨[], a, as, rfl, by simp, e, ha⟩
    | ok passed =>
      cases passed with
      | false =>
        refine iff_of_false (by simp) ?_
        rintro ⟨before, b, after, has, hbefore, e, hb⟩
        cases before with
        | nil =>
          obtain ⟨rfl, -⟩ := List.cons.inj has
          rw [ha] at hb
          cases hb
        | cons c before =>
          obtain ⟨rfl, -⟩ := List.cons.inj has
          have hc := hbefore a List.mem_cons_self
          rw [ha] at hc
          cases hc
      | true =>
        refine ih.trans ⟨?_, ?_⟩
        · rintro ⟨before, b, after, rfl, hbefore, hb⟩
          refine ⟨a :: before, b, after, rfl, fun c hc => ?_, hb⟩
          rcases List.mem_cons.1 hc with rfl | hc
          · exact ha
          · exact hbefore c hc
        · rintro ⟨before, b, after, has, hbefore, e, hb⟩
          cases before with
          | nil =>
            obtain ⟨rfl, -⟩ := List.cons.inj has
            rw [ha] at hb
            cases hb
          | cons c before =>
            obtain ⟨-, rfl⟩ := List.cons.inj has
            exact ⟨before, b, after, rfl, fun d hd => hbefore d (List.mem_cons_of_mem _ hd), e, hb⟩

theorem allPass_true_iff {p : α → Except ε Bool} (as : List α) :
    allPass p as = .ok true ↔ ∀ a ∈ as, p a = .ok true := by
  induction as with
  | nil => simp [allPass]
  | cons a as ih =>
    unfold allPass
    cases ha : p a with
    | error e => simp [ha]
    | ok passed => cases passed <;> simp [ha, ih]

end Loops

import Hermes.Lib.Tries
import Hermes.Proof.StepActs

/-!
# The retry budget of a step

A step that needs an approval spends its first attempt on the gate. Its body is run in the attempts
after it.

* `SpendsBudget`, `KeepsBudget`: what a policy promises, and when the promise is kept.
* `acts_eq_iff`: when a call does what is promised.
* `approve_execution`: an approval executes the step first.
* `step_budget_iff`: when an execution spends the budget of the policy.
-/

namespace Hermes

open World

variable {E : Env} {i k : String} {w w' : World}

/-! ## What the policy promises -/

/-- The attempts of the policy. -/
def WorkflowStep.budget (step : WorkflowStep) : ℕ := step.retryPolicy.maxAttempts.toNat

section

variable (step : WorkflowStep) (out : ℕ → Except Exc Artifact)

/-- What a policy promises of the `k + 1`-th of `n` runs: a run that fails is announced, and if
another follows it, this is said, and there is a wait of `b * 2 ^ k` seconds, or of `b`. -/
def promisedAt (n k : ℕ) : List StepAct :=
  .ran (out k) :: if k + 1 < n then
      [.failed true, .waited (if step.retryPolicy.exponential
        then step.retryPolicy.backoffSeconds * 2 ^ k else step.retryPolicy.backoffSeconds)]
    else match out k with
      | .ok _ => []
      | .error _ => [.failed false]

/-- **The promise of the policy**: the body is run until it succeeds, or has failed as often as the
policy has attempts. -/
def SpendsBudget (acts : List StepAct) : Prop :=
  ∃ n out, Tries (fun k => ∃ artifact, out k = .ok artifact) step.budget n ∧
    acts = (List.range n).flatMap (promisedAt step out n)

/-- **When the promise is kept**, if the bodies of the attempts end as `ran` says, in a sandbox or not.
Of the attempts up to the first success, or as many as the policy has, each comes to run the body, no
run fails in a sandbox or raises the exception of one, and none but the last that is allowed raises one
of the guard. If the step has a gate, the policy has one attempt only, or a run succeeds while another
is still allowed after it: the first, unless all waits are the same. -/
structure KeepsBudget (boxed : Bool) (ran : ℕ → Option (Except Exc Artifact)) : Prop where
  comes : ∀ k < step.budget, (∀ j < k, ∀ artifact, ran j ≠ some (.ok artifact)) → ran k ≠ none
  ordinary : ∀ k e, k < step.budget → (∀ j < k, ∀ artifact, ran j ≠ some (.ok artifact)) →
    ran k = some (.error e) →
      boxed = false ∧ e.kind ≠ .sandboxError ∧ (k + 1 < step.budget → ¬ e.IsDenial)
  gate : step.requiresApproval = true → step.budget = 1 ∨
    (∃ k artifact, k + 1 < step.budget ∧ ran k = some (.ok artifact)) ∧
      ((∃ artifact, ran 0 = some (.ok artifact)) ∨ step.retryPolicy.exponential = false ∨
        step.retryPolicy.backoffSeconds = 0)

/-- What the policy promises after the last run. -/
def promisedLast : Except Exc Artifact → List StepAct
  | .ok _ => []
  | .error _ => [.failed false]

end

section

variable {step : WorkflowStep} {boxed : Bool} {ran : ℕ → Option (Except Exc Artifact)}
  {out out' : ℕ → Except Exc Artifact}

/-- The runs before the last, and the last. -/
theorem flatMap_promisedAt (n : ℕ) : (List.range (n + 1)).flatMap (promisedAt step out (n + 1)) =
    (List.range n).flatMap (triedAt step (fun k => some (out k)) 0) ++
      .ran (out n) :: promisedLast (out n) := by
  have hbefore : ∀ k ∈ List.range n,
      promisedAt step out (n + 1) k = triedAt step (fun k => some (out k)) 0 k := by
    intro k hk
    have hlt : k + 1 < n + 1 := Nat.succ_lt_succ (List.mem_range.1 hk)
    unfold promisedAt triedAt RetryPolicy.backoff
    rw [if_pos hlt, Nat.zero_add, Nat.add_sub_cancel]
    rfl
  rw [List.range_succ, List.flatMap_append, List.flatMap_congr hbefore, List.flatMap_singleton]
  unfold promisedAt
  rw [if_neg (lt_irrefl _)]
  rfl

/-- If the first wait is the promised one, all are. -/
theorem backoff_shift {p : RetryPolicy} {a : ℕ} (h : p.backoff (a + 1) = p.backoff 1) (k : ℕ) :
    p.backoff (a + k + 1) = p.backoff (0 + k + 1) := by
  unfold RetryPolicy.backoff at h ⊢
  cases hexp : p.exponential with
  | false => rfl
  | true =>
    simp only [hexp, if_true, Nat.add_sub_cancel, Nat.sub_self, pow_zero, mul_one, Nat.zero_add] at h ⊢
    rw [pow_add, ← mul_assoc, h]

/-! ### Runs and waits -/

def StepAct.isRan : StepAct → Bool
  | .ran _ => true
  | _ => false

def StepAct.isWaited : StepAct → Bool
  | .waited _ => true
  | _ => false

/-- There is a wait after each attempt that is retried. -/
theorem waited_tried (a m : ℕ) :
    ((List.range m).flatMap (triedAt step ran a)).countP StepAct.isWaited = m := by
  induction m with
  | zero => rfl
  | succ m ih =>
    have hone : (triedAt step ran a m).countP StepAct.isWaited = 1 := by
      unfold triedAt ranActs
      cases ran m <;> rfl
    rw [List.range_succ, List.flatMap_append, List.countP_append, ih, List.flatMap_singleton, hone]

variable (step ran) in
/-- There is one run at most in an attempt. -/
theorem ran_tried_one (a k : ℕ) : (triedAt step ran a k).countP StepAct.isRan = (ranActs (ran k)).length ∧
    (ranActs (ran k)).length ≤ 1 := by
  unfold triedAt ranActs
  cases ran k with
  | none => exact ⟨rfl, Nat.zero_le 1⟩
  | some r => exact ⟨rfl, le_rfl⟩

theorem came_of_length {r : Option (Except Exc Artifact)} (h : 1 ≤ (ranActs r).length) : r ≠ none := by
  rintro rfl
  exact absurd h (Nat.not_succ_le_zero 0)

variable (step ran) in
theorem ran_tried_le (a m : ℕ) :
    ((List.range m).flatMap (triedAt step ran a)).countP StepAct.isRan ≤ m := by
  induction m with
  | zero => exact le_rfl
  | succ m ih =>
    obtain ⟨hone, hle⟩ := ran_tried_one step ran a m
    rw [List.range_succ, List.flatMap_append, List.countP_append, List.flatMap_singleton, hone]
    exact Nat.add_le_add ih hle

/-- Where there are as many runs as attempts, every attempt came to its body. -/
theorem came_of_ran {a m : ℕ}
    (h : m ≤ ((List.range m).flatMap (triedAt step ran a)).countP StepAct.isRan) :
    ∀ k < m, ran k ≠ none := by
  induction m with
  | zero => exact fun k hk => absurd hk (Nat.not_lt_zero k)
  | succ m ih =>
    obtain ⟨hone, hle⟩ := ran_tried_one step ran a m
    rw [List.range_succ, List.flatMap_append, List.countP_append, List.flatMap_singleton, hone] at h
    have hbefore := ran_tried_le step ran a m
    intro k hk
    rcases Nat.lt_succ_iff_lt_or_eq.1 hk with hlt | rfl
    · exact ih (by omega) k hlt
    · exact came_of_length (by omega)

theorem ran_tried_some (out : ℕ → Except Exc Artifact) (m : ℕ) :
    ((List.range m).flatMap (triedAt step (fun k => some (out k)) 0)).countP StepAct.isRan = m := by
  induction m with
  | zero => rfl
  | succ m ih =>
    rw [List.range_succ, List.flatMap_append, List.countP_append, ih, List.flatMap_singleton]
    rfl

/-- Three things are done in an attempt that runs the body and is retried. -/
theorem length_tried {a m : ℕ} (h : ∀ k < m, ran k ≠ none) :
    ((List.range m).flatMap (triedAt step ran a)).length = 3 * m := by
  induction m with
  | zero => rfl
  | succ m ih =>
    obtain ⟨r, hr⟩ := Option.ne_none_iff_exists'.1 (h m (Nat.lt_succ_self m))
    have hthree : (triedAt step ran a m).length = 3 := by
      unfold triedAt
      rw [hr]
      rfl
    rw [List.range_succ, List.flatMap_append, List.length_append, List.flatMap_singleton, hthree,
      ih fun k hk => h k (Nat.lt_succ_of_lt hk)]
    omega

theorem tried_inj {a m : ℕ} (h : ∀ k < m, ran k ≠ none)
    (heq : (List.range m).flatMap (triedAt step ran a) =
      (List.range m).flatMap (triedAt step (fun k => some (out k)) 0)) :
    ∀ k < m, triedAt step ran a k = triedAt step (fun k => some (out k)) 0 k := by
  induction m with
  | zero => exact fun k hk => absurd hk (Nat.not_lt_zero k)
  | succ m ih =>
    have hcame : ∀ k < m, ran k ≠ none := fun k hk => h k (Nat.lt_succ_of_lt hk)
    simp only [List.range_succ, List.flatMap_append, List.flatMap_singleton] at heq
    obtain ⟨hbefore, hlast⟩ := List.append_inj heq
      ((length_tried hcame).trans (length_tried fun k _ => Option.some_ne_none _).symm)
    intro k hk
    rcases Nat.lt_succ_iff_lt_or_eq.1 hk with hlt | rfl
    · exact ih hcame hbefore k hlt
    · exact hlast

/-- There is neither a run nor a wait in what follows the last attempt. -/
theorem Closes.counts {r : Option (Except Exc Artifact)} {last : List StepAct} (h : Closes boxed r last) :
    last.countP StepAct.isWaited = 0 ∧ last.countP StepAct.isRan = 0 := by
  cases h with
  | silent => exact ⟨rfl, rfl⟩
  | refused => exact ⟨rfl, rfl⟩
  | ran r =>
    unfold lastActs
    cases r with
    | ok artifact => exact ⟨rfl, rfl⟩
    | error e =>
      simp only
      split
      · exact ⟨rfl, rfl⟩
      · exact ⟨rfl, rfl⟩

theorem promisedLast_counts (r : Except Exc Artifact) :
    (promisedLast r).countP StepAct.isWaited = 0 ∧ (promisedLast r).countP StepAct.isRan = 0 := by
  cases r with
  | ok artifact => exact ⟨rfl, rfl⟩
  | error e => exact ⟨rfl, rfl⟩

theorem ranActs_counts (r : Option (Except Exc Artifact)) :
    (ranActs r).countP StepAct.isWaited = 0 ∧
      (ranActs r).countP StepAct.isRan = (ranActs r).length := by
  cases r with
  | none => exact ⟨rfl, rfl⟩
  | some r => exact ⟨rfl, rfl⟩

/-- **To do what is promised** is to come to the body in every attempt, to make the same runs with the
same waits, and to announce the last failure. -/
theorem acts_eq_iff {a retries m : ℕ} {acts : List StepAct}
    (h : CallActs step boxed ran a retries m acts) (n : ℕ) :
    acts = (List.range (n + 1)).flatMap (promisedAt step out (n + 1)) ↔
      m = n ∧ (∀ k ≤ m, ran k = some (out k)) ∧
        (0 < m → step.retryPolicy.backoff (a + 1) = step.retryPolicy.backoff 1) ∧
        lastActs boxed (out m) = promisedLast (out m) := by
  obtain ⟨last, hcloses, hacts⟩ := h.acts
  rw [hacts, flatMap_promisedAt]
  constructor
  · intro heq
    have hwaited := congrArg (List.countP StepAct.isWaited) heq
    have hran := congrArg (List.countP StepAct.isRan) heq
    simp only [List.countP_append, List.countP_cons, waited_tried, ran_tried_some] at hwaited hran
    have hlast := hcloses.counts
    have hpromised := promisedLast_counts (out n)
    have hranActs := ranActs_counts (ran m)
    have hle := (ran_tried_one step ran a m).2
    have hbefore := ran_tried_le step ran a m
    simp only [StepAct.isWaited, StepAct.isRan] at hwaited hran
    obtain rfl : m = n := by
      rw [hlast.1, hpromised.1, hranActs.1] at hwaited
      simpa using hwaited
    rw [hlast.2, hpromised.2, hranActs.2] at hran
    simp only [if_true] at hran
    have hruns : m ≤ ((List.range m).flatMap (triedAt step ran a)).countP StepAct.isRan := by omega
    have hcame : ∀ k < m, ran k ≠ none := came_of_ran hruns
    obtain ⟨r, hr⟩ := Option.ne_none_iff_exists'.1 (came_of_length (r := ran m) (by omega))
    obtain ⟨hfront, hback⟩ := List.append_inj heq
      ((length_tried hcame).trans (length_tried fun k _ => Option.some_ne_none _).symm)
    have hblocks := tried_inj hcame hfront
    have hsame : ∀ k < m, ran k = some (out k) ∧
        step.retryPolicy.backoff (a + k + 1) = step.retryPolicy.backoff (0 + k + 1) := by
      intro k hk
      obtain ⟨r, hr⟩ := Option.ne_none_iff_exists'.1 (hcame k hk)
      have hblock := hblocks k hk
      unfold triedAt at hblock
      rw [hr] at hblock ⊢
      simpa [ranActs] using hblock
    rw [hr] at hback hcloses
    cases hcloses with
    | ran =>
      obtain ⟨hrun, hlast⟩ := List.cons.inj hback
      obtain rfl : r = out m := by
        cases hrun
        rfl
      refine ⟨rfl, fun k hk => ?_, fun hpos => ?_, hlast⟩
      · rcases Nat.lt_or_eq_of_le hk with hlt | rfl
        · exact (hsame k hlt).1
        · exact hr
      · exact (hsame 0 hpos).2
  · rintro ⟨rfl, hran, hwait, hlast⟩
    have hfront : (List.range m).flatMap (triedAt step ran a) =
        (List.range m).flatMap (triedAt step (fun k => some (out k)) 0) := by
      refine List.flatMap_congr fun k hk => ?_
      have hlt := List.mem_range.1 hk
      unfold triedAt
      rw [hran k hlt.le, backoff_shift (hwait (by omega)) k]
    rw [hran m le_rfl] at hcloses ⊢
    cases hcloses with
    | ran =>
      rw [hfront, hlast]
      rfl

theorem lastActs_eq_iff (r : Except Exc Artifact) :
    lastActs boxed r = promisedLast r ↔
      ∀ e, r = .error e → boxed = false ∧ e.kind ≠ .sandboxError := by
  cases r with
  | ok artifact => simp [lastActs, promisedLast]
  | error e =>
    unfold lastActs promisedLast
    simp only [Except.error.injEq, forall_eq']
    split
    · rename_i hsilent
      simp only [reduceCtorEq, false_iff, not_and_or, not_not, Bool.not_eq_false]
      exact hsilent
    · rename_i hannounced
      simp only [true_iff]
      exact ⟨Bool.eq_false_iff.2 fun hb => hannounced (.inl hb), fun hk => hannounced (.inr hk)⟩

/-- **The budget of a call** with `retries` left, the first attempt of it after `a` others. -/
theorem spends_iff_keeps {a retries m : ℕ} {acts : List StepAct} (hpos : 0 < step.budget)
    (hplain : step.requiresApproval = false → a = 0 ∧ retries + 1 = step.budget)
    (hgated : step.requiresApproval = true → a = 1 ∧ retries + 1 = max 1 (step.budget - 1))
    (h : CallActs step boxed ran a retries m acts) :
    SpendsBudget step acts ↔ KeepsBudget step boxed ran := by
  have hretries : retries + 1 ≤ step.budget := by
    cases hgate : step.requiresApproval with
    | false => exact (hplain hgate).2.le
    | true =>
      have hmax := (hgated hgate).2
      omega
  have hle := h.le
  constructor
  · rintro ⟨n, out, htries, hacts⟩
    have hnpos := htries.pos
    obtain ⟨n, rfl⟩ : ∃ n', n = n' + 1 := ⟨n - 1, by omega⟩
    obtain ⟨rfl, hran, hwait, hlast⟩ := (acts_eq_iff h n).1 hacts
    have hends := htries.ends
    rw [Nat.add_sub_cancel] at hends
    -- an attempt without a success before it was made
    have hmade : ∀ k < step.budget, (∀ j < k, ∀ artifact, ran j ≠ some (.ok artifact)) → k ≤ m := by
      intro k hk hfailed
      by_contra hlt
      rcases hends with ⟨artifact, hok⟩ | hfull
      · exact hfailed m (by omega) artifact (by rw [hran m le_rfl, hok])
      · omega
    refine ⟨fun k hk hfailed => ?_, fun k e hk hfailed hraised => ?_, fun hgate => ?_⟩
    · rw [hran k (hmade k hk hfailed)]
      exact Option.some_ne_none _
    · have hkm := hmade k hk hfailed
      have hout : out k = .error e := Option.some.inj ((hran k hkm).symm.trans hraised)
      rcases Nat.lt_or_eq_of_le hkm with hlt | rfl
      · obtain ⟨e', hout', hbare, hordinary⟩ := not_endsStep (h.retried k hlt _ (hran k hkm))
        obtain rfl : e' = e := Except.error.inj (hout'.symm.trans hout)
        exact ⟨hbare, hordinary.2, fun _ => hordinary.1⟩
      · obtain ⟨hbare, hk⟩ := (lastActs_eq_iff _).1 hlast e hout
        refine ⟨hbare, hk, fun hmore => ?_⟩
        rcases hends with ⟨artifact, hok⟩ | hfull
        · rw [hout] at hok
          cases hok
        · omega
    · obtain ⟨rfl, hmax⟩ := hgated hgate
      by_cases hone : step.budget = 1
      · exact .inl hone
      · right
        obtain ⟨artifact, hok⟩ : ∃ artifact, out m = .ok artifact := hends.resolve_right (by omega)
        have hsuccess : ran m = some (.ok artifact) := by rw [hran m le_rfl, hok]
        refine ⟨⟨m, artifact, by omega, hsuccess⟩, ?_⟩
        rcases Nat.eq_zero_or_pos m with rfl | hlater
        · exact .inl ⟨artifact, hsuccess⟩
        · right
          have hdouble := hwait hlater
          unfold RetryPolicy.backoff at hdouble
          cases hexp : step.retryPolicy.exponential with
          | false => exact .inl rfl
          | true =>
            right
            simp only [hexp, if_true] at hdouble
            norm_num at hdouble
            linarith
  · intro hkeeps
    have hfailed : ∀ k ≤ m, ∀ j < k, ∀ artifact, ran j ≠ some (.ok artifact) := fun k hk j hj artifact hok =>
      h.retried j (by omega) _ hok trivial
    have hcame : ∀ k ≤ m, ∃ r, ran k = some r := fun k hk =>
      Option.ne_none_iff_exists'.1 (hkeeps.comes k (by omega) (hfailed k hk))
    obtain ⟨out, hran⟩ : ∃ out : ℕ → Except Exc Artifact, ∀ k ≤ m, ran k = some (out k) := by
      refine ⟨fun k => (ran k).getD (.error ⟨.cancelled, ""⟩), fun k hk => ?_⟩
      obtain ⟨r, hr⟩ := hcame k hk
      simp only [hr, Option.getD_some]
    have hundecided : ∀ k < m, ¬ ∃ artifact, out k = .ok artifact := by
      rintro k hk ⟨artifact, hok⟩
      exact hfailed m le_rfl k hk artifact (by rw [hran k hk.le, hok])
    have hordinary : ∀ e, out m = .error e →
        boxed = false ∧ e.kind ≠ .sandboxError ∧ (m + 1 < step.budget → ¬ e.IsDenial) :=
      fun e hout => hkeeps.ordinary m e (by omega) (hfailed m le_rfl) (by rw [hran m le_rfl, hout])
    -- the attempts that are made are the promised ones
    have hended : EndsStep boxed (out m) →
        (∃ artifact, out m = .ok artifact) ∨ m + 1 = step.budget := by
      intro hstop
      cases hout : out m with
      | ok artifact => exact .inl ⟨artifact, rfl⟩
      | error e =>
        right
        rw [hout] at hstop
        obtain ⟨hbare, hsandbox, hdenial⟩ := hordinary e hout
        by_contra hne
        rcases hstop with hboxed | hstop
        · rw [hbare] at hboxed
          cases hboxed
        · exact hstop ⟨hdenial (by omega), hsandbox⟩
    have hlimit : (∃ artifact, out m = .ok artifact) ∨ m + 1 = step.budget := by
      rcases h.ends with hfull | hstop
      · cases hgate : step.requiresApproval with
        | false => exact .inr ((congrArg (· + 1) hfull).trans (hplain hgate).2)
        | true =>
          have hmax := (hgated hgate).2
          rcases hkeeps.gate hgate with hone | ⟨⟨k, artifact, hk, hok⟩, -⟩
          · right
            omega
          · left
            have hkm : ¬ k < m := fun hlt => hfailed m le_rfl k hlt artifact hok
            obtain rfl : k = m := by omega
            exact ⟨artifact, Option.some.inj ((hran k le_rfl).symm.trans hok)⟩
      · exact hended (hstop _ (hran m le_rfl))
    refine ⟨m + 1, out, ⟨Nat.succ_pos m, by omega, fun k hk => hundecided k (by omega), hlimit⟩,
      (acts_eq_iff h m).2 ⟨rfl, hran, fun hlater => ?_, ?_⟩⟩
    · cases hgate : step.requiresApproval with
      | false => rw [(hplain hgate).1]
      | true =>
        obtain ⟨rfl, hmax⟩ := hgated hgate
        rcases hkeeps.gate hgate with hone | ⟨-, ⟨artifact, hok⟩ | hexp | hzero⟩
        · omega
        · exact absurd hok (hfailed m le_rfl 0 hlater artifact)
        · unfold RetryPolicy.backoff
          rw [hexp]
          rfl
        · unfold RetryPolicy.backoff
          simp [hzero]
    · rw [lastActs_eq_iff]
      intro e hout
      obtain ⟨hbare, hsandbox, -⟩ := hordinary e hout
      exact ⟨hbare, hsandbox⟩

end

/-! ## Executions -/

section

variable {step : WorkflowStep} {a : ℕ} {inst : WorkflowInstance}

/-- The world in which an approval of the step executes it. -/
def approvedWorld (E : Env) (i : String) (step : WorkflowStep) (agent : Option String)
    (policy : Option SandboxPolicy) (w : World) : World :=
  ((executeStep E i agent policy w).2.record (.approve i step.id true)).setStatus i .running

/-- One execution of a step: `execute_step`, and if the step is gated, the call of it that an approval
begins with. -/
def stepExecution (E : Env) (i : String) (step : WorkflowStep) (agent : Option String)
    (policy : Option SandboxPolicy) (w : World) : Except Exc Artifact × World :=
  if step.requiresApproval then executeStep E i none none (approvedWorld E i step agent policy w)
  else executeStep E i agent policy w

/-- How the bodies of the attempts of an execution end, when they come to be run. -/
def executionRan (E : Env) (i : String) (step : WorkflowStep) (agent : Option String)
    (policy : Option SandboxPolicy) (w : World) : ℕ → Option (Except Exc Artifact) :=
  if step.requiresApproval then
    runAt E i none none ((approvedWorld E i step agent policy w).record (.enter i))
  else runAt E i agent policy (w.record (.enter i))

theorem executeStep_acts (agent : Option String) (policy : Option SandboxPolicy)
    (h : Poised i step a w) : ∃ m acts,
      CallActs step (w.boxes step) (runAt E i agent policy (w.record (.enter i))) a
        (step.retryPolicy.maxAttempts - (a + 1 : ℕ)).toNat m acts ∧
      (executeStep E i agent policy w).2.acts i step.id = w.acts i step.id ++ acts := by
  obtain ⟨inst, hi, hcurrent, hattempts⟩ := h.current
  have hentered : Poised i step a (w.record (.enter i)) := ⟨⟨inst, hi, hcurrent, hattempts⟩, h.passed⟩
  obtain ⟨m, acts, hcall, hacts⟩ := executeStepFrom_acts (E := E) agent inst.retries policy hentered
  have hretries : inst.retries = (step.retryPolicy.maxAttempts - (a + 1 : ℕ)).toNat := by
    unfold WorkflowInstance.retries
    rw [hcurrent]
    simp only
    rw [hattempts]
    rfl
  rw [hretries] at hcall
  refine ⟨m, acts, hcall, ?_⟩
  unfold executeStep
  rw [hi]
  simp only
  rw [acts_quiet _ rfl, hacts, acts_quiet w rfl]

/-- **The gate**: the first call for a gated step pauses the instance, and counts as an attempt. -/
theorem executeStep_gate (agent : Option String) (policy : Option SandboxPolicy)
    (hi : w.instances.get? i = some inst) (hcurrent : inst.currentStep = some step)
    (hfresh : inst.attempts step.id = 0) (hgated : step.requiresApproval = true) :
    ∃ inst', (executeStep E i agent policy w).2.instances.get? i = some inst' ∧
      inst'.status = .paused ∧ inst'.workflow = inst.workflow ∧
      inst'.currentStepId = inst.currentStepId ∧ inst'.attempts step.id = 1 ∧
      inst'.stepResults = inst.stepResults ∧
      (executeStep E i agent policy w).2.parts = w.parts ∧
      (executeStep E i agent policy w).2.bodies = w.bodies ∧
      (executeStep E i agent policy w).2.acts i step.id = w.acts i step.id := by
  set count : WorkflowInstance → WorkflowInstance := fun cur =>
    { cur with stepAttempts := cur.stepAttempts.insert step.id 1 } with hcount
  set w₁ := ((((w.record (.enter i)).update i count).record (.attempt i step.id 1)).setStatus i
    .paused).emit (.stepAwaitingApproval i step.id "requires_approval") with hw₁
  have hcall : (executeStep E i agent policy w).2 = { w₁ with tick := w₁.tick + 1 }.record (.leave i) := by
    have hattempt : attemptStep E i agent inst.retries policy (w.record (.enter i)) =
        (some (w₁.reply E "approval_required" [("step_id", .str step.id)] none).1,
          { w₁ with tick := w₁.tick + 1 }) := by
      unfold attemptStep
      rw [record_instances, hi]
      unfold passStep
      simp only [hcurrent, hfresh, Nat.zero_add, hgated, and_self, if_true]
      rfl
    unfold executeStep
    rw [hi]
    simp only
    rw [executeStepFrom_eq, hattempt]
  have hcounted : (((w.record (.enter i)).update i count).record (.attempt i step.id 1)).instances.get?
      i = some (count inst) := update_get? (w := w.record (.enter i)) count hi
  have hinst := setStatus_get? hcounted .paused
  have hparts : w₁.parts = w.parts := (update_parts _ _ _).trans (update_parts _ i count)
  have hbodies : w₁.bodies = w.bodies := (update_bodies _ _).trans (update_bodies _ count)
  rw [hcall]
  refine ⟨_, hinst, rfl, rfl, rfl, ?_, rfl, hparts, hbodies, ?_⟩
  · show ((inst.stepAttempts.insert step.id 1).get? step.id).getD 0 = 1
    rw [Dict.get?_insert_self]
    rfl
  · rw [acts_quiet _ rfl]
    refine (acts_same (w := w₁) rfl).trans ?_
    rw [hw₁]
    refine (acts_quiet _ rfl).trans ((acts_setStatus _ _).trans ((acts_quiet _ rfl).trans ?_))
    exact (acts_update _ count).trans (acts_quiet w rfl)

/-- **Past the gate** the step is attempted for the second time. -/
theorem approvedWorld_poised (agent : Option String) (policy : Option SandboxPolicy)
    (hi : w.instances.get? i = some inst) (hcurrent : inst.currentStep = some step)
    (hfresh : inst.attempts step.id = 0) (hgated : step.requiresApproval = true) :
    Poised i step 1 (approvedWorld E i step agent policy w) ∧
      (approvedWorld E i step agent policy w).acts i step.id = w.acts i step.id ∧
      (approvedWorld E i step agent policy w).parts = w.parts ∧
      (approvedWorld E i step agent policy w).bodies = w.bodies ∧
      ∃ inst', (approvedWorld E i step agent policy w).instances.get? i = some inst' ∧
        resolveInputs step inst' = resolveInputs step inst := by
  obtain ⟨inst', hi', hstatus, hworkflow, hcursor, hattempts, hresults, hparts, hbodies, hsame⟩ :=
    executeStep_gate (E := E) agent policy hi hcurrent hfresh hgated
  have hinst : (approvedWorld E i step agent policy w).instances.get? i =
      some { inst' with status := .running } :=
    setStatus_get? (w := (executeStep E i agent policy w).2.record (.approve i step.id true)) hi' .running
  refine ⟨⟨⟨_, hinst, ?_, hattempts⟩, fun _ => Nat.one_ne_zero⟩, ?_, (update_parts _ _ _).trans hparts,
    (update_bodies _ _).trans hbodies, _, hinst, ?_⟩
  · show inst'.currentStepId.bind (stepById inst'.workflow.steps) = some step
    rw [hcursor, hworkflow]
    exact hcurrent
  · exact (acts_setStatus _ _).trans ((acts_quiet _ rfl).trans hsame)
  · show (step.inputMapping.map fun entry => (entry.1, resolveRef inst'.stepResults entry.2)) = _
    rw [hresults]
    rfl

/-- **An execution of a step**, gated or not. -/
theorem stepExecution_acts (agent : Option String) (policy : Option SandboxPolicy)
    (hi : w.instances.get? i = some inst) (hcurrent : inst.currentStep = some step)
    (hfresh : inst.attempts step.id = 0) (hmax : 1 ≤ step.retryPolicy.maxAttempts) :
    ∃ a retries m acts, (step.requiresApproval = false → a = 0 ∧ retries + 1 = step.budget) ∧
      (step.requiresApproval = true → a = 1 ∧ retries + 1 = max 1 (step.budget - 1)) ∧
      CallActs step (w.boxes step) (executionRan E i step agent policy w) a retries m acts ∧
      (stepExecution E i step agent policy w).2.acts i step.id = w.acts i step.id ++ acts := by
  unfold stepExecution executionRan
  cases hgate : step.requiresApproval with
  | false =>
    have hpoised : Poised i step 0 w :=
      ⟨⟨inst, hi, hcurrent, hfresh⟩, fun hgated => by rw [hgate] at hgated; cases hgated⟩
    obtain ⟨m, acts, hcall, hacts⟩ := executeStep_acts (E := E) agent policy hpoised
    have hbudget : (step.retryPolicy.maxAttempts - (0 + 1 : ℕ)).toNat + 1 = step.budget := by
      unfold WorkflowStep.budget
      omega
    exact ⟨0, _, m, acts, fun _ => ⟨rfl, hbudget⟩, (nomatch ·), hcall, hacts⟩
  | true =>
    obtain ⟨hpoised, hsame, hparts, -⟩ :=
      approvedWorld_poised (E := E) agent policy hi hcurrent hfresh hgate
    obtain ⟨m, acts, hcall, hacts⟩ := executeStep_acts (E := E) none none hpoised
    have hbudget : (step.retryPolicy.maxAttempts - (1 + 1 : ℕ)).toNat + 1 = max 1 (step.budget - 1) := by
      unfold WorkflowStep.budget
      omega
    rw [boxes_congr (congrArg Parts.wiring hparts)] at hcall
    exact ⟨1, _, m, acts, (nomatch ·), fun _ => ⟨rfl, hbudget⟩, hcall, hsame ▸ hacts⟩

/-- **The runs of an execution** of a bare step are its bodies, one after the other, as long as they are
retried. -/
theorem executionRan_bare (agent : Option String) (policy : Option SandboxPolicy)
    (hi : w.instances.get? i = some inst) (hcurrent : inst.currentStep = some step)
    (hfresh : inst.attempts step.id = 0) (hbare : Bare w step) (n : ℕ) :
    let out := bodyAt E i step (resolveInputs step inst) (if step.requiresApproval then none else agent) w
    (∀ m < n, ¬ EndsStep false (out m)) →
      executionRan E i step agent policy w n = some (out n) := by
  intro out hopen
  unfold executionRan
  cases hgate : step.requiresApproval with
  | false =>
    have hpoised : Poised i step 0 (w.record (.enter i)) :=
      ⟨⟨inst, hi, hcurrent, hfresh⟩, fun hgated => by rw [hgate] at hgated; cases hgated⟩
    have hout : bodyAt E i step (resolveInputs step inst) agent (w.record (.enter i)) = out := by
      show _ = bodyAt E i step _ (if step.requiresApproval then none else agent) w
      rw [hgate]
      rfl
    have hran := runAt_bare (E := E) agent policy hpoised (hbare.congr rfl) hi n
    rw [hout] at hran
    exact hran hopen
  | true =>
    obtain ⟨hpoised, -, hparts, hbodies, inst', hi', hinputs⟩ :=
      approvedWorld_poised (E := E) agent policy hi hcurrent hfresh hgate
    have hentered : Poised i step 1 ((approvedWorld E i step agent policy w).record (.enter i)) :=
      ⟨hpoised.current, hpoised.passed⟩
    have hout : bodyAt E i step (resolveInputs step inst') none
        ((approvedWorld E i step agent policy w).record (.enter i)) = out := by
      show _ = bodyAt E i step _ (if step.requiresApproval then none else agent) w
      rw [hgate, hinputs]
      have hcount : ((approvedWorld E i step agent policy w).record (.enter i)).bodies = w.bodies := hbodies
      unfold bodyAt
      rw [hcount]
      rfl
    have hran := runAt_bare (E := E) none none hentered (hbare.congr hparts) hi' n
    rw [hout] at hran
    exact hran hopen

/-- **An approval executes the step** before anything else: what `approve` does is that execution, and
then the steps after it. -/
theorem approve_execution (agent : Option String) (policy : Option SandboxPolicy) (fuel : ℕ)
    (hi : w.instances.get? i = some inst) (hcurrent : inst.currentStep = some step)
    (hfresh : inst.attempts step.id = 0) (hgated : step.requiresApproval = true) :
    approve E i step.id true (fuel + 1) (executeStep E i agent policy w).2 =
      match stepExecution E i step agent policy w with
      | (.error e, w) => (.error e, w)
      | (.ok _, w) =>
        match runLoop E i fuel w with
        | (.error e, w) => (.error e, w)
        | (.ok _, w) => (.ok (), w) := by
  obtain ⟨inst', hi', hstatus, hworkflow, hcursor, -⟩ :=
    executeStep_gate (E := E) agent policy hi hcurrent hfresh hgated
  have hsome : inst'.currentStepId ≠ none := by
    intro hnone
    unfold WorkflowInstance.currentStep at hcurrent
    rw [← hcursor, hnone] at hcurrent
    cases hcurrent
  set w₁ := (executeStep E i agent policy w).2 with hw₁
  set w₂ := (w₁.record (.approve i step.id true)).setStatus i .running with hw₂
  have hinst : w₂.instances.get? i = some { inst' with status := .running } :=
    setStatus_get? (w := w₁.record (.approve i step.id true)) hi' .running
  have hexecution : stepExecution E i step agent policy w = executeStep E i none none w₂ := by
    unfold stepExecution
    rw [hgated]
    rfl
  have hloop : runLoop E i (fuel + 1) w₂ =
      match executeStep E i none none w₂ with
      | (.error e, w) => (.error e, w)
      | (.ok artifact, w) =>
        match runLoop E i fuel w with
        | (.error e, w) => (.error e, w)
        | (.ok artifacts, w) => (.ok (artifact :: artifacts), w) := by
    conv_lhs => unfold runLoop
    rw [hinst]
    exact if_pos ⟨rfl, hsome⟩
  rw [hexecution]
  unfold approve
  rw [hi']
  simp only [hstatus, if_true]
  rw [← hw₂, hloop]
  generalize executeStep E i none none w₂ = R
  obtain ⟨r, w₃⟩ := R
  cases r with
  | error e => rfl
  | ok artifact =>
    simp only
    generalize runLoop E i fuel w₃ = R
    obtain ⟨r, w₄⟩ := R
    cases r <;> rfl

/-- **An execution of a step keeps the promise of its policy** exactly under the conditions of
`KeepsBudget`. -/
theorem step_budget_iff (E : Env) (i : String) (agent : Option String) (policy : Option SandboxPolicy)
    (w : World) (inst : WorkflowInstance) (step : WorkflowStep)
    (hi : w.instances.get? i = some inst) (hcurrent : inst.currentStep = some step)
    (hfresh : inst.attempts step.id = 0) (hmax : 1 ≤ step.retryPolicy.maxAttempts) :
    (∃ acts, (stepExecution E i step agent policy w).2.acts i step.id = w.acts i step.id ++ acts ∧
      SpendsBudget step acts) ↔
    KeepsBudget step (w.boxes step) (executionRan E i step agent policy w) := by
  obtain ⟨a, retries, m, acts, hplain, hgated, hcall, hacts⟩ :=
    stepExecution_acts (E := E) agent policy hi hcurrent hfresh hmax
  have hpos : 0 < step.budget := by
    unfold WorkflowStep.budget
    omega
  rw [← spends_iff_keeps hpos hplain hgated hcall]
  constructor
  · rintro ⟨acts', heq, hspends⟩
    rw [hacts] at heq
    exact List.append_cancel_left heq ▸ hspends
  · exact fun hspends => ⟨_, hacts, hspends⟩

end

/-! ### A gated step -/

/-- A step that needs an approval, and may be attempted twice. -/
def gatedStep : WorkflowStep where
  id := "s"
  capability := "c"
  requiresApproval := true
  retryPolicy := { maxAttempts := 2 }

/-- An instance of a workflow that is this step. -/
def gatedInstance : WorkflowInstance where
  workflow := { id := "w", steps := [gatedStep] }
  status := .running
  currentStepId := some "s"
  startedAt := 0

/-- The world after the start of the workflow. -/
def gatedWorld (E : Env) : World := (start E gatedInstance.workflow {}).2

/-- Bodies that all succeed. -/
def neverFailing : Env := .scripted fun _ => true

/-- Bodies of which the first fails. -/
def firstFailing : Env := .scripted fun n => n ≠ 0

/-- A body that succeeds at once. -/
theorem step_budget_succeeding :
    ∃ acts, (stepExecution neverFailing "" gatedStep none none (gatedWorld neverFailing)).2.acts "" "s" =
        (gatedWorld neverFailing).acts "" "s" ++ acts ∧ SpendsBudget gatedStep acts := by
  obtain ⟨artifact, hok⟩ : ∃ artifact, executionRan neverFailing "" gatedStep none none
      (gatedWorld neverFailing) 0 = some (.ok artifact) := ⟨_, rfl⟩
  refine (step_budget_iff neverFailing "" none none (gatedWorld neverFailing) gatedInstance gatedStep
    rfl rfl rfl (by decide)).2 ⟨fun k _ hfailed => ?_, fun k e _ hfailed hraised => ?_, fun _ => ?_⟩
  · cases k with
    | zero =>
      rw [hok]
      exact Option.some_ne_none _
    | succ k => exact absurd hok (hfailed 0 (Nat.succ_pos k) artifact)
  · cases k with
    | zero =>
      rw [hok] at hraised
      cases hraised
    | succ k => exact absurd hok (hfailed 0 (Nat.succ_pos k) artifact)
  · exact .inr ⟨⟨0, artifact, by decide, hok⟩, .inl ⟨artifact, hok⟩⟩

/-- **The gate costs an attempt**: the body of a step that needs an approval and may be attempted twice
fails once, and is not run again. -/
theorem gated_step_runs_once :
    ¬ ∃ acts, (stepExecution firstFailing "" gatedStep none none (gatedWorld firstFailing)).2.acts "" "s" =
        (gatedWorld firstFailing).acts "" "s" ++ acts ∧ SpendsBudget gatedStep acts := by
  rintro ⟨acts, hacts, hspends⟩
  obtain ⟨a, retries, m, done, hplain, hgated, hcall, hdone⟩ :=
    stepExecution_acts (E := firstFailing) none none
      (show (gatedWorld firstFailing).instances.get? "" = some gatedInstance from rfl)
      (show gatedInstance.currentStep = some gatedStep from rfl) rfl (by decide)
  have hsame : acts = done := List.append_cancel_left (hacts.symm.trans hdone)
  rw [hsame] at hspends
  have hkeeps := (spends_iff_keeps (by decide) hplain hgated hcall).1 hspends
  rcases hkeeps.gate rfl with hone | ⟨⟨k, artifact, hk, hok⟩, -⟩
  · exact absurd hone (by decide)
  · have hbudget : gatedStep.budget = 2 := rfl
    obtain rfl : k = 0 := by omega
    cases hok

end Hermes

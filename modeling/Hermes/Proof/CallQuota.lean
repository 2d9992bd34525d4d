import Hermes.Lib.History
import Hermes.Spec.Guard

/-!
# The call quota of a package

* `Accounted`: the handlers that were started are those that a guard has counted,
  those in flight, and those that raised when they were called.
* `accounted_step`: every event keeps the account.
* `quota_iff`: the quota holds along a run exactly when no call is let in while the
  handlers that are not counted use up what the count leaves.
* `overlap_exceeds`, `raise_exceeds`: two calls at once, and a handler that raises.
-/

namespace Hermes

open History

namespace GuardCalls

variable {s : GuardCalls} {packageId : String} {n : ℤ}

/-- The calls that the guard has counted for a package. -/
def counted (s : GuardCalls) (packageId : String) : ℤ :=
  ((s.guard.usage.get? packageId).getD {}).calls

/-- The handlers of a package that were started and are not counted. -/
def uncounted (s : GuardCalls) (packageId : String) : ℕ :=
  s.inFlight.count packageId + s.raised.count packageId

/-- The package has a policy with `n` calls, and its handlers are accounted for. -/
structure Accounted (packageId : String) (n : ℤ) (s : GuardCalls) : Prop where
  policy : ∃ policy, s.guard.policies.get? packageId = some policy ∧ policy.maxCalls = n
  counted : 0 ≤ s.counted packageId
  started : (s.started.count packageId : ℤ) = s.counted packageId + s.uncounted packageId

/-- No more handlers of the package were started than its quota. -/
def WithinQuota (packageId : String) (n : ℤ) (s : GuardCalls) : Prop :=
  s.started.count packageId ≤ n.toNat

/-- A policy that is registered again keeps the quota. -/
def KeepsQuota (packageId : String) (n : ℤ) : GuardEvent → Prop
  | .registerPolicy packageId' policy => packageId' = packageId → policy.maxCalls = n
  | _ => True

/-- A call of the package that the guard lets in finds room: what the count leaves is more than
the handlers that are not counted. -/
def FindsRoom (packageId : String) (n : ℤ) (s : GuardCalls) : GuardEvent → Prop
  | .enter packageId' action resource _ => packageId' = packageId →
    s.guard.pre packageId action resource = .ok () →
      (s.uncounted packageId : ℤ) < n - s.counted packageId
  | _ => True

instance (packageId : String) (n : ℤ) : DecidablePred (WithinQuota packageId n) := fun s =>
  inferInstanceAs (Decidable (s.started.count packageId ≤ n.toNat))

/-! ## One event -/

/-- The account does not look at other packages. -/
theorem Accounted.frame {s' : GuardCalls} (h : Accounted packageId n s)
    (hpolicy : s'.guard.policies.get? packageId = s.guard.policies.get? packageId)
    (husage : s'.guard.usage.get? packageId = s.guard.usage.get? packageId)
    (hinFlight : s'.inFlight.count packageId = s.inFlight.count packageId)
    (hraised : s'.raised.count packageId = s.raised.count packageId)
    (hstarted : s'.started.count packageId = s.started.count packageId) :
    Accounted packageId n s' := by
  have hcount : s'.counted packageId = s.counted packageId := by
    unfold GuardCalls.counted
    rw [husage]
  have hun : s'.uncounted packageId = s.uncounted packageId := by
    unfold uncounted
    rw [hinFlight, hraised]
  refine ⟨by rw [hpolicy]; exact h.policy, by rw [hcount]; exact h.counted, ?_⟩
  rw [hstarted, hcount, hun]
  exact h.started

/-- **Entering**: refused, or a handler is started. -/
theorem enter_cases (s : GuardCalls) (packageId action resource : String) (raises : Bool) :
    (s.guard.pre packageId action resource ≠ .ok () ∧
        s.enter packageId action resource raises = s) ∨
      (s.guard.pre packageId action resource = .ok () ∧
        (s.enter packageId action resource raises).guard = s.guard ∧
        (s.enter packageId action resource raises).started = s.started ++ [packageId] ∧
        ∀ p, (s.enter packageId action resource raises).uncounted p =
          s.uncounted p + [packageId].count p) := by
  unfold enter
  cases hpre : s.guard.pre packageId action resource with
  | error x => exact Or.inl ⟨by simp, rfl⟩
  | ok u =>
    right
    cases raises with
    | true =>
      refine ⟨rfl, rfl, rfl, fun p => ?_⟩
      unfold uncounted
      simp only [if_true, List.count_append]
      omega
    | false =>
      refine ⟨rfl, rfl, rfl, fun p => ?_⟩
      unfold uncounted
      simp only [Bool.false_eq_true, if_false, List.count_append]
      omega

/-- **Leaving**: a handler in flight is counted. -/
theorem accounted_leave (h : Accounted packageId n s) (m : ℕ) (ms : ℤ) :
    Accounted packageId n (s.leave m ms) := by
  unfold leave
  cases hm : s.inFlight[m]? with
  | none => exact h
  | some p =>
    -- one of the calls in flight is taken out
    have hcount : s.inFlight.count packageId = (s.inFlight.eraseIdx m).count packageId +
        [p].count packageId := by
      obtain ⟨hlt, rfl⟩ := List.getElem?_eq_some_iff.1 hm
      rw [← (List.getElem_cons_eraseIdx_perm hlt).count_eq packageId, List.count_cons,
        List.count_singleton]
    by_cases hp : p = packageId
    · subst hp
      have hstarted := h.started
      have hcounted := h.counted
      unfold GuardCalls.counted uncounted at hstarted
      unfold GuardCalls.counted at hcounted
      rw [List.count_singleton_self] at hcount
      have hnew : ((s.guard.accrue p (max 0 ms)).usage.get? p).getD {} =
          ⟨((s.guard.usage.get? p).getD {}).calls + 1,
            ((s.guard.usage.get? p).getD {}).cpuMs + max 0 ms⟩ := by
        unfold Guard.accrue
        simp only [Dict.get?_insert_self, Option.getD_some]
      refine ⟨h.policy, ?_, ?_⟩
      · unfold GuardCalls.counted
        rw [hnew]
        show 0 ≤ ((s.guard.usage.get? p).getD {}).calls + 1
        omega
      · unfold GuardCalls.counted uncounted
        rw [hnew]
        show (s.started.count p : ℤ) = ((s.guard.usage.get? p).getD {}).calls + 1 +
          (((s.inFlight.eraseIdx m).count p + s.raised.count p : ℕ) : ℤ)
        omega
    · rw [List.count_singleton, if_neg (by simpa using hp), Nat.add_zero] at hcount
      -- a call of another package
      refine h.frame rfl ?_ hcount.symm rfl rfl
      exact Dict.get?_insert_of_ne _ (Ne.symm hp) _

theorem accounted_registerPolicy (h : Accounted packageId n s) (packageId' : String)
    (policy : GuardPolicy) (hn : packageId' = packageId → policy.maxCalls = n) :
    Accounted packageId n { s with guard := s.guard.registerPolicy packageId' policy } := by
  by_cases hp : packageId' = packageId
  · subst hp
    have hcount : GuardCalls.counted { s with guard := s.guard.registerPolicy packageId' policy }
        packageId' = s.counted packageId' := by
      unfold GuardCalls.counted Guard.registerPolicy
      simp
    refine ⟨⟨policy, Dict.get?_insert_self _ _ _, hn rfl⟩, ?_, ?_⟩
    · rw [hcount]
      exact h.counted
    · rw [hcount]
      exact h.started
  · refine h.frame ?_ ?_ rfl rfl rfl
    · exact Dict.get?_insert_of_ne _ (Ne.symm hp) _
    · exact Dict.get?_insert_of_ne _ (Ne.symm hp) _

/-- **The account is kept** by every event. -/
theorem accounted_step (s : GuardCalls) (ev : GuardEvent) (hev : KeepsQuota packageId n ev)
    (h : Accounted packageId n s) : Accounted packageId n (s.step ev) := by
  cases ev with
  | registerPolicy packageId' policy => exact accounted_registerPolicy h packageId' policy hev
  | grant packageId' permission =>
    refine h.frame ?_ ?_ ?_ ?_ ?_
    all_goals rfl
  | enter packageId' action resource raises =>
    show Accounted packageId n (s.enter packageId' action resource raises)
    obtain ⟨-, hsame⟩ | ⟨-, hguard, hstarted, hun⟩ :=
      enter_cases s packageId' action resource raises
    · rw [hsame]
      exact h
    · have hcount : (s.enter packageId' action resource raises).counted packageId =
          s.counted packageId := by
        unfold GuardCalls.counted
        rw [hguard]
      refine ⟨by rw [hguard]; exact h.policy, by rw [hcount]; exact h.counted, ?_⟩
      -- a call that is let in adds one to what is started, and one to what is not counted
      have hold := h.started
      have hnew := hun packageId
      rw [hstarted, hcount, List.count_append]
      omega
  | leave m ms => exact accounted_leave h m ms

/-- **One event keeps the quota** exactly when a call that it lets in finds room. -/
theorem withinQuota_iff (s : GuardCalls) (ev : GuardEvent) (h : Accounted packageId n s)
    (hq : WithinQuota packageId n s) :
    WithinQuota packageId n (s.step ev) ↔ FindsRoom packageId n s ev := by
  have hother : ∀ s' : GuardCalls, s'.started.count packageId = s.started.count packageId →
      WithinQuota packageId n s' := by
    intro s' hs'
    unfold WithinQuota
    rw [hs']
    exact hq
  cases ev with
  | registerPolicy packageId' policy => exact iff_of_true (hother _ rfl) trivial
  | grant packageId' permission => exact iff_of_true (hother _ rfl) trivial
  | leave m ms =>
    refine iff_of_true (hother _ ?_) trivial
    show (s.leave m ms).started.count packageId = _
    unfold leave
    split
    · rfl
    · rfl
  | enter packageId' action resource raises =>
    show WithinQuota packageId n (s.enter packageId' action resource raises) ↔ _
    obtain ⟨hpre, hsame⟩ | ⟨hpre, -, hstarted, -⟩ :=
      enter_cases s packageId' action resource raises
    · rw [hsame]
      refine iff_of_true hq fun hp hpre' => ?_
      subst hp
      exact absurd hpre' hpre
    · by_cases hp : packageId' = packageId
      · subst hp
        have hacc := h.started
        have hcounted := h.counted
        unfold WithinQuota at hq ⊢
        rw [hstarted, List.count_append, List.count_singleton_self]
        constructor
        · intro hlt _ _
          omega
        · intro hroom
          have hlt := hroom rfl hpre
          omega
      · refine iff_of_true (hother _ ?_) fun heq => absurd heq hp
        rw [hstarted, List.count_append, List.count_singleton, if_neg (by simpa using hp),
          Nat.add_zero]

/-! ## All events -/

/-- A new guard on which the policy of the package is registered. -/
def sandboxing (packageId : String) (policy : GuardPolicy) : GuardCalls :=
  { guard := Guard.registerPolicy {} packageId policy }

theorem accounted_sandboxing (packageId : String) (policy : GuardPolicy) :
    Accounted packageId policy.maxCalls (sandboxing packageId policy) := by
  have hzero : (sandboxing packageId policy).counted packageId = 0 := by
    unfold GuardCalls.counted sandboxing Guard.registerPolicy
    simp
  refine ⟨⟨policy, Dict.get?_insert_self _ _ _, rfl⟩, hzero.ge, ?_⟩
  rw [hzero]
  rfl

/-- **The quota of a package holds** along any run of overlapping calls exactly when every call of
the package that the guard lets in finds room for it. -/
theorem quota_iff (packageId : String) (policy : GuardPolicy) (events : List GuardEvent)
    (hkeeps : ∀ ev ∈ events, KeepsQuota packageId policy.maxCalls ev) :
    Throughout step (WithinQuota packageId policy.maxCalls) (sandboxing packageId policy) events ↔
      EachStep step (FindsRoom packageId policy.maxCalls) (sandboxing packageId policy) events :=
  throughout_iff (I := Accounted packageId policy.maxCalls) accounted_step
    (fun s ev _ h hq => withinQuota_iff s ev h hq) events _ hkeeps
    (accounted_sandboxing packageId policy) (Nat.zero_le _)

/-- One call after the other finds room, as long as no handler raises when it is called. -/
theorem findsRoom_of_idle (h : Accounted packageId n s) (hidle : s.uncounted packageId = 0)
    (ev : GuardEvent) : FindsRoom packageId n s ev := by
  cases ev with
  | enter packageId' action resource raises =>
    rintro - hpre
    obtain ⟨policy, hpolicy, rfl⟩ := h.policy
    -- the call was let in, so no limit is used up
    have hlimit : s.guard.exceeded packageId = none := by
      unfold Guard.pre at hpre
      split at hpre
      · cases hl : s.guard.exceeded packageId with
        | none => rfl
        | some limit => rw [hl] at hpre; cases hpre
      · cases hpre
    unfold Guard.exceeded at hlimit
    simp only [hpolicy] at hlimit
    split at hlimit
    · cases hlimit
    · rw [hidle]
      unfold GuardCalls.counted
      omega
  | registerPolicy _ _ => trivial
  | grant _ _ => trivial
  | leave _ _ => trivial

/-- A package that may execute one call. -/
def once : GuardPolicy := { permissions := [⟨"execute", "*"⟩], maxCalls := 1 }

theorem quota_once :
    Throughout step (WithinQuota "pkg" 1) (sandboxing "pkg" once)
        [.enter "pkg" "execute" "plugin:x" false, .leave 0 5,
          .enter "pkg" "execute" "plugin:x" false] ↔
      EachStep step (FindsRoom "pkg" 1) (sandboxing "pkg" once)
        [.enter "pkg" "execute" "plugin:x" false, .leave 0 5,
          .enter "pkg" "execute" "plugin:x" false] := by
  refine quota_iff "pkg" once _ fun ev hev => ?_
  simp only [List.mem_cons, List.not_mem_nil, or_false] at hev
  rcases hev with rfl | rfl | rfl
  all_goals trivial

/-- Both of two calls at once are started, with a quota of one. -/
theorem overlap_exceeds : ¬Throughout step (WithinQuota "pkg" 1) (sandboxing "pkg" once)
    [.enter "pkg" "execute" "plugin:x" false, .enter "pkg" "execute" "plugin:x" false] := by decide

/-- A handler that raises when it is called is not counted, so that it can be called again. -/
theorem raise_exceeds : ¬Throughout step (WithinQuota "pkg" 1) (sandboxing "pkg" once)
    [.enter "pkg" "execute" "plugin:x" true, .enter "pkg" "execute" "plugin:x" true] := by decide

end GuardCalls

end Hermes

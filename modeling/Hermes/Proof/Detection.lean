import Hermes.Lib.History
import Hermes.Proof.MemberSteps

/-!
# Failure detection

The age of a member of a swarm is the time since its last sign of life: a join of that
swarm by its agent, or a heartbeat of its agent on its node. The coordinator keeps one
time per agent instead.

* `ExactCheck`: a check returns, and leaves each member with the health that its age
  calls for.
* `Revealed`: no sign of the same agent in another place hides an age from the check.
* `Watching`, `watching_apply`: what the coordinator knows after any operations.
* `exactCheck_iff`, `detection_iff`: a check is exact exactly when no age is hidden.
-/

namespace Hermes

open History

/-! ## Signs of life -/

/-- The reading of the clock by an operation. -/
def SwarmOp.time? : SwarmOp → Option ℚ
  | .join _ _ _ _ _ now => some now
  | .heartbeat _ _ _ now => some now
  | .check now => some now
  | _ => none

/-- A sign of an agent on a node as a member of a swarm. -/
def SwarmOp.isSign (i a n : String) : SwarmOp → Bool
  | .join i' a' _ _ _ _ => i' = i ∧ a' = a
  | .heartbeat n' a' _ _ => n' = n ∧ a' = a
  | _ => false

/-- A sign of an agent, wherever it comes from. -/
def SwarmOp.isHeard (a : String) : SwarmOp → Bool
  | .join _ a' _ _ _ _ => a' = a
  | .heartbeat _ a' _ _ => a' = a
  | _ => false

/-- When a member gave its last sign. -/
def lastSign (h : List SwarmOp) (i a n : String) : Option ℚ :=
  (lastOf (SwarmOp.isSign i a n) h).bind SwarmOp.time?

/-- When an agent was last heard of. -/
def lastHeard (h : List SwarmOp) (a : String) : Option ℚ :=
  (lastOf (SwarmOp.isHeard a) h).bind SwarmOp.time?

/-- The time from one reading of the clock to another, in milliseconds. -/
def elapsedMs (since now : ℚ) : ℚ := now * 1000 - since * 1000

namespace Coordinator

/-- A coordinator after some operations. -/
def after (suspicionMs failureMs : ℤ) (h : List SwarmOp) : Coordinator :=
  h.foldl apply { suspicionMs, failureMs }

end Coordinator

section Detection

variable (suspicionMs failureMs : ℤ)

/-- **A check is exact** if it returns and each member is unhealthy or suspected after it exactly
when its age says so. -/
def ExactCheck (h : List SwarmOp) : SwarmOp → Prop
  | .check now =>
    let (result, c) := (Coordinator.after suspicionMs failureMs h).checkPartitions now
    (∃ partitioned, result = .ok partitioned) ∧
      ∀ i a m, c.memberOf i a = some m → ∃ own, lastSign h i a m.nodeId = some own ∧
        (m.health = .unhealthy ↔ (failureMs : ℚ) ≤ elapsedMs own now) ∧
        (m.health = .suspected ↔
          (suspicionMs : ℚ) ≤ elapsedMs own now ∧ elapsedMs own now < (failureMs : ℚ))
  | _ => True

/-- The health that the age of a member calls for is its health already, or is called for by the
time since its agent was heard of. With a suspicion timeout of zero, no healthy member is below the
failure timeout. -/
def Revealed (h : List SwarmOp) : SwarmOp → Prop
  | .check now => ∀ i a m, (Coordinator.after suspicionMs failureMs h).memberOf i a = some m →
      ∀ own heard, lastSign h i a m.nodeId = some own → lastHeard h a = some heard →
        due suspicionMs failureMs (elapsedMs own now) ≤
            m.health ⊔ due suspicionMs failureMs (elapsedMs heard now) ∧
          ¬(suspicionMs = 0 ∧ m.health = .healthy ∧ elapsedMs heard now < (failureMs : ℚ))
  | _ => True

/-! ## What the coordinator knows -/

/-- No reading of the clock is later. -/
def NotBefore (h : List SwarmOp) (t : ℚ) : Prop := ∀ op ∈ h, ∀ u, op.time? = some u → u ≤ t

/-- A member is not in a worse health than its age calls for. -/
def Seen (h : List SwarmOp) (i a : String) (m : SwarmMember) : Prop :=
  ∃ own heard, lastSign h i a m.nodeId = some own ∧ lastHeard h a = some heard ∧ own ≤ heard ∧
    ∀ t, NotBefore h t → m.health ≤ due suspicionMs failureMs (elapsedMs own t)

/-- What a coordinator knows after some operations. -/
structure Watching (h : List SwarmOp) (c : Coordinator) : Prop where
  suspicion : c.suspicionMs = suspicionMs
  failure : c.failureMs = failureMs
  beats : ∀ a, c.lastBeat.get? a = lastHeard h a
  members : ∀ i a m, c.memberOf i a = some m → Seen suspicionMs failureMs h i a m

end Detection

variable {suspicionMs failureMs : ℤ} {h : List SwarmOp} {op : SwarmOp} {i a n : String}
  {m : SwarmMember} {c : Coordinator} {now : ℚ}

theorem lastSign_snoc (h : List SwarmOp) (op : SwarmOp) (i a n : String) :
    lastSign (h ++ [op]) i a n = if op.isSign i a n then op.time? else lastSign h i a n := by
  unfold lastSign
  rw [lastOf_snoc]
  split
  · rfl
  · rfl

theorem lastHeard_snoc (h : List SwarmOp) (op : SwarmOp) (a : String) :
    lastHeard (h ++ [op]) a = if op.isHeard a then op.time? else lastHeard h a := by
  unfold lastHeard
  rw [lastOf_snoc]
  split
  · rfl
  · rfl

theorem isHeard_of_isSign (hop : op.isSign i a n) : op.isHeard a := by
  cases op <;> simp_all [SwarmOp.isSign, SwarmOp.isHeard]

theorem NotBefore.snoc {t : ℚ} (ht : NotBefore (h ++ [op]) t) : NotBefore h t :=
  fun op' hop' => ht op' (List.mem_append_left _ hop')

theorem NotBefore.last {t : ℚ} (ht : NotBefore (h ++ [op]) t) (hop : op.time? = some now) : now ≤ t :=
  ht op (List.mem_append_right _ List.mem_cons_self) now hop

theorem NotBefore.heard {t heard : ℚ} (ht : NotBefore h t) (ha : lastHeard h a = some heard) :
    heard ≤ t := by
  obtain ⟨op, hop, htime⟩ := Option.bind_eq_some_iff.1 ha
  exact ht op (mem_of_lastOf hop) heard htime

theorem elapsedMs_mono {x y s t : ℚ} (hxy : y ≤ x) (hst : s ≤ t) : elapsedMs x s ≤ elapsedMs y t := by
  unfold elapsedMs
  linarith

/-- The member that gives a sign is healthy. -/
theorem Seen.of_sign (hop : op.isSign i a m.nodeId) (htime : op.time? = some now)
    (hhealthy : m.health = .healthy) : Seen suspicionMs failureMs (h ++ [op]) i a m := by
  refine ⟨now, now, ?_, ?_, le_rfl, fun t _ => ?_⟩
  · rw [lastSign_snoc, if_pos hop, htime]
  · rw [lastHeard_snoc, if_pos (isHeard_of_isSign hop), htime]
  · rw [hhealthy]
    exact Health.healthy_le _

/-- The other members only get older. -/
theorem Seen.snoc (hm : Seen suspicionMs failureMs h i a m) (hop : op.isSign i a m.nodeId = false)
    (hclock : ∀ t, op.time? = some t → NotBefore h t) :
    Seen suspicionMs failureMs (h ++ [op]) i a m := by
  obtain ⟨own, heard, hown, hheard, hle, hhealth⟩ := hm
  have hown' : lastSign (h ++ [op]) i a m.nodeId = some own := by
    rw [lastSign_snoc, hop]
    exact hown
  have hhealth' : ∀ t, NotBefore (h ++ [op]) t →
      m.health ≤ due suspicionMs failureMs (elapsedMs own t) := fun t ht => hhealth t ht.snoc
  by_cases hsame : op.isHeard a
  · -- the agent gives a sign in another place
    obtain ⟨now, hnow⟩ : ∃ now, op.time? = some now := by
      cases op <;> simp_all [SwarmOp.isHeard, SwarmOp.time?]
    refine ⟨own, now, hown', ?_, ?_, hhealth'⟩
    · rw [lastHeard_snoc, if_pos hsame, hnow]
    · exact hle.trans ((hclock now hnow).heard hheard)
  · refine ⟨own, heard, hown', ?_, hle, hhealth'⟩
    rw [lastHeard_snoc, if_neg hsame]
    exact hheard

namespace Watching

/-- An operation that reads no clock leaves the members that stay as they are. -/
theorem quiet (hw : Watching suspicionMs failureMs h c) {c' : Coordinator} (hsteady : c.Steady c')
    (htime : op.time? = none) (hmembers : ∀ j b m, c'.memberOf j b = some m → c.memberOf j b = some m) :
    Watching suspicionMs failureMs (h ++ [op]) c' := by
  have hheard : ∀ a, op.isHeard a = false := by
    cases op <;> simp_all [SwarmOp.isHeard, SwarmOp.time?]
  have hsign : ∀ i a n, op.isSign i a n = false := by
    cases op <;> simp_all [SwarmOp.isSign, SwarmOp.time?]
  refine ⟨hsteady.suspicionMs.trans hw.suspicion, hsteady.failureMs.trans hw.failure, fun a => ?_, ?_⟩
  · rw [lastHeard_snoc, hheard, hsteady.lastBeat]
    exact hw.beats a
  · intro i a m hm
    refine (hw.members i a m (hmembers i a m hm)).snoc (hsign i a m.nodeId) fun t ht => ?_
    rw [htime] at ht
    cases ht

/-- The new last heartbeat of the agent that gives a sign. -/
theorem beats_insert (hw : Watching suspicionMs failureMs h c) (htime : op.time? = some now)
    (hop : ∀ b, op.isHeard b = decide (a = b)) (b : String) :
    (c.lastBeat.insert a now).get? b = lastHeard (h ++ [op]) b := by
  rw [lastHeard_snoc, hop, htime, Dict.get?_insert, hw.beats]
  by_cases hb : b = a
  · rw [if_pos hb, if_pos (decide_eq_true hb.symm)]
  · rw [if_neg hb, if_neg fun h => hb (of_decide_eq_true h).symm]

theorem join (hw : Watching suspicionMs failureMs h c) {i a n role : String}
    {capabilities : List String} (hclock : NotBefore h now) :
    Watching suspicionMs failureMs (h ++ [.join i a n role capabilities now])
      (c.joinSwarm i a n role capabilities now).2 := by
  have hensure := Coordinator.steady_ensureSwarm c i
  have hsteady := Coordinator.steady_joinSwarm c i a n role capabilities now
  refine ⟨hsteady.suspicionMs.trans (hensure.suspicionMs.trans hw.suspicion),
    hsteady.failureMs.trans (hensure.failureMs.trans hw.failure), fun b => ?_, ?_⟩
  · rw [hsteady.lastBeat]
    simp only
    rw [hensure.lastBeat]
    exact hw.beats_insert rfl (fun _ => rfl) b
  · intro j b m hm
    rw [Coordinator.memberOf_joinSwarm] at hm
    split at hm
    · rename_i hjb
      obtain ⟨rfl, rfl⟩ := hjb
      cases hm
      exact Seen.of_sign (by simp [SwarmOp.isSign]) rfl rfl
    · rename_i hjb
      refine (hw.members j b m hm).snoc ?_ fun t ht => ?_
      · simp only [SwarmOp.isSign, decide_eq_false_iff_not]
        exact fun hij => hjb ⟨hij.1.symm, hij.2.symm⟩
      · cases ht
        exact hclock

theorem heartbeat (hw : Watching suspicionMs failureMs h c) {n a : String} {loadScore : ℚ}
    (hclock : NotBefore h now) :
    Watching suspicionMs failureMs (h ++ [.heartbeat n a loadScore now])
      (c.handleHeartbeat n a loadScore now) := by
  refine ⟨hw.suspicion, hw.failure, fun b => ?_, ?_⟩
  · exact hw.beats_insert rfl (fun _ => rfl) b
  · intro j b m hm
    rw [Coordinator.memberOf_heartbeat] at hm
    have hlater : ∀ t, (SwarmOp.heartbeat n a loadScore now).time? = some t → NotBefore h t := by
      intro t ht
      cases ht
      exact hclock
    split at hm
    · rename_i hb
      obtain ⟨m', hm', rfl⟩ := Option.map_eq_some_iff.1 hm
      unfold Coordinator.beatMember
      split
      · rename_i hnode
        exact Seen.of_sign (by simp [SwarmOp.isSign, hnode, hb]) rfl rfl
      · rename_i hnode
        refine (hw.members j b m' hm').snoc ?_ hlater
        simp only [SwarmOp.isSign, decide_eq_false_iff_not]
        exact fun h => hnode h.1.symm
    · rename_i hb
      refine (hw.members j b m hm).snoc ?_ hlater
      simp only [SwarmOp.isSign, decide_eq_false_iff_not]
      exact fun h => hb h.2.symm

theorem age_eq (hw : Watching suspicionMs failureMs h c) (hm : c.memberOf i a = some m) {heard : ℚ}
    (hheard : lastHeard h a = some heard) : c.age now m.agentId = elapsedMs heard now := by
  rw [Coordinator.agentId_of_memberOf hm]
  unfold Coordinator.age
  rw [hw.beats, hheard]
  rfl

/-- A member after a check is not in a worse health than its age calls for. -/
theorem seen_watched (hw : Watching suspicionMs failureMs h c)
    (hm : c.memberOf i a = some m) :
    Seen suspicionMs failureMs (h ++ [.check now]) i a (c.watched now m) := by
  obtain ⟨own, heard, hown, hheard, hle, hhealth⟩ := hw.members i a m hm
  refine ⟨own, heard, ?_, ?_, hle, fun t ht => ?_⟩
  · rw [lastSign_snoc]
    exact hown
  · rw [lastHeard_snoc]
    exact hheard
  · refine sup_le (hhealth t ht.snoc) ?_
    rw [hw.suspicion, hw.failure, hw.age_eq hm hheard]
    exact due_mono (elapsedMs_mono hle (ht.last rfl))

theorem check (hw : Watching suspicionMs failureMs h c)
    (hreturns : ∃ xs, (c.checkPartitions now).1 = .ok xs) :
    Watching suspicionMs failureMs (h ++ [.check now]) (c.checkPartitions now).2 := by
  have hsteady := Coordinator.steady_check hreturns
  refine ⟨hsteady.suspicionMs.trans hw.suspicion, hsteady.failureMs.trans hw.failure, fun b => ?_, ?_⟩
  · rw [lastHeard_snoc, hsteady.lastBeat]
    exact hw.beats b
  · intro j b m hm
    rw [Coordinator.memberOf_check hreturns] at hm
    obtain ⟨m', hm', rfl⟩ := Option.map_eq_some_iff.1 hm
    exact hw.seen_watched hm'

theorem watched_health (hw : Watching suspicionMs failureMs h c) (hm : c.memberOf i a = some m)
    {heard : ℚ} (hheard : lastHeard h a = some heard) :
    (c.watched now m).health = m.health ⊔ due suspicionMs failureMs (elapsedMs heard now) := by
  unfold Coordinator.watched
  rw [hw.age_eq hm hheard, hw.suspicion, hw.failure]

theorem raises_iff (hw : Watching suspicionMs failureMs h c) (hclock : NotBefore h now)
    (hm : c.memberOf i a = some m) {heard : ℚ} (hheard : lastHeard h a = some heard) :
    c.Raises now m ↔
      suspicionMs = 0 ∧ m.health = .healthy ∧ elapsedMs heard now < (failureMs : ℚ) := by
  have hpast : 0 ≤ elapsedMs heard now := by
    have hle := hclock.heard hheard
    unfold elapsedMs
    linarith
  unfold Coordinator.Raises
  rw [hw.age_eq hm hheard, hw.suspicion, hw.failure]
  exact and_congr_right fun _ => and_congr_right fun _ => and_iff_right hpast

end Watching

/-! ## One operation -/

/-- The health that an age calls for, as the two thresholds. -/
theorem eq_due_iff {health : Health} {x : ℚ} :
    ((health = .unhealthy ↔ (failureMs : ℚ) ≤ x) ∧
      (health = .suspected ↔ (suspicionMs : ℚ) ≤ x ∧ x < (failureMs : ℚ))) ↔
      health = due suspicionMs failureMs x := by
  unfold due
  by_cases hfail : (failureMs : ℚ) ≤ x
  · simp only [hfail, if_true, iff_true, not_lt.2 hfail, and_false, iff_false]
    refine and_iff_left_of_imp fun h => ?_
    rw [h]
    decide
  · simp only [hfail, if_false, iff_false, not_le.1 hfail, and_true]
    by_cases hsus : (suspicionMs : ℚ) ≤ x
    · simp only [hsus, if_true, iff_true]
      refine and_iff_right_of_imp fun h => ?_
      rw [h]
      decide
    · simp only [hsus, if_false, iff_false]
      cases health <;> decide

/-- **A check is exact** exactly when it hides no age. -/
theorem exactCheck_iff (hw : Watching suspicionMs failureMs h (.after suspicionMs failureMs h))
    (hclock : ∀ t, op.time? = some t → NotBefore h t) :
    ExactCheck suspicionMs failureMs h op ↔ Revealed suspicionMs failureMs h op := by
  cases op with
  | check now =>
    have hnow : NotBefore h now := hclock now rfl
    unfold ExactCheck Revealed
    simp only
    constructor
    · -- a member after the check is the member before it with another health
      rintro ⟨hreturns, hexact⟩ i a m hm own heard hown hheard
      have hafter := (Coordinator.memberOf_check hreturns i a).trans (congrArg _ hm)
      obtain ⟨own', hown', hiff⟩ := hexact i a _ hafter
      cases hown.symm.trans hown'
      have hhealth := eq_due_iff.1 hiff
      rw [hw.watched_health hm hheard] at hhealth
      refine ⟨hhealth.ge, ?_⟩
      rw [← hw.raises_iff hnow hm hheard]
      exact (Coordinator.check_returns_iff _ now).1 hreturns i a m hm
    · intro hrevealed
      have hreturns := (Coordinator.check_returns_iff (.after suspicionMs failureMs h) now).2 <| by
        intro i a m hm
        obtain ⟨own, heard, hown, hheard, -⟩ := hw.members i a m hm
        rw [hw.raises_iff hnow hm hheard]
        exact (hrevealed i a m hm own heard hown hheard).2
      refine ⟨hreturns, fun i a m' hm' => ?_⟩
      rw [Coordinator.memberOf_check hreturns] at hm'
      obtain ⟨m, hm, rfl⟩ := Option.map_eq_some_iff.1 hm'
      obtain ⟨own, heard, hown, hheard, hle, hhealth⟩ := hw.members i a m hm
      refine ⟨own, hown, eq_due_iff.2 ?_⟩
      rw [hw.watched_health hm hheard]
      refine le_antisymm (sup_le (hhealth now hnow) ?_) (hrevealed i a m hm own heard hown hheard).1
      exact due_mono (elapsedMs_mono hle le_rfl)
  | _ => exact Iff.rfl

/-- **One operation** keeps what the coordinator knows. -/
theorem watching_apply (hw : Watching suspicionMs failureMs h c)
    (hclock : ∀ t, op.time? = some t → NotBefore h t)
    (hreturns : ∀ now, op = .check now → ∃ xs, (c.checkPartitions now).1 = .ok xs) :
    Watching suspicionMs failureMs (h ++ [op]) (c.apply op) := by
  cases op with
  | create i topology =>
    refine hw.quiet (Coordinator.steady_createSwarm c i topology) rfl fun j b m hm => ?_
    rw [Coordinator.apply, Coordinator.memberOf_createSwarm] at hm
    split at hm
    · cases hm
    · exact hm
  | join i a n role capabilities now => exact hw.join (hclock now rfl)
  | leave i a reason =>
    refine hw.quiet (Coordinator.steady_leaveSwarm c i a reason) rfl fun j b m hm => ?_
    rw [Coordinator.apply, Coordinator.memberOf_leaveSwarm] at hm
    split at hm
    · cases hm
    · exact hm
  | heartbeat n a loadScore now => exact hw.heartbeat (hclock now rfl)
  | check now => exact hw.check (hreturns now rfl)
  | delegate i task fromAgent delegationId =>
    obtain ⟨rr, hsteady, -⟩ := Coordinator.steady_delegateTask c i task fromAgent delegationId
    have hw' : Watching suspicionMs failureMs h { c with rr } :=
      ⟨hw.suspicion, hw.failure, hw.beats, hw.members⟩
    refine hw'.quiet hsteady rfl fun j b m hm => ?_
    exact (Coordinator.memberOf_delegateTask c i task fromAgent delegationId j b).symm.trans hm
  | complete delegationId resultSummary =>
    refine hw.quiet (Coordinator.steady_completeDelegation c delegationId resultSummary) rfl
      fun j b m hm => ?_
    exact (Coordinator.memberOf_completeDelegation c delegationId resultSummary j b).symm.trans hm

theorem watching_nil : Watching suspicionMs failureMs [] (.after suspicionMs failureMs []) where
  suspicion := rfl
  failure := rfl
  beats _ := rfl
  members i a m hm := by
    cases hm

/-! ## Sequences of operations -/

/-- **Every check is exact** in a sequence of operations with a clock that does not go back,
exactly when no check has an age hidden from it. -/
theorem detection_iff (suspicionMs failureMs : ℤ) (ops : List SwarmOp)
    (hclock : (ops.filterMap SwarmOp.time?).Pairwise (· ≤ ·)) :
    Always (ExactCheck suspicionMs failureMs) ops ↔ Always (Revealed suspicionMs failureMs) ops := by
  have hpast : Always (fun h op => ∀ t, op.time? = some t → NotBefore h t) ops := by
    refine (always_of_pairwise (List.pairwise_filterMap.1 hclock)).mono fun h op hop t ht op' hop' u hu => ?_
    exact hop op' hop' u hu t ht
  refine always_iff (I := fun h => Watching suspicionMs failureMs h (.after suspicionMs failureMs h))
    watching_nil ?_ (fun h op hop hw => exactCheck_iff hw hop) hpast
  intro h op hop hw hrevealed
  have hafter : Coordinator.after suspicionMs failureMs (h ++ [op]) =
      (Coordinator.after suspicionMs failureMs h).apply op := List.foldl_append
  rw [hafter]
  refine watching_apply hw hop ?_
  rintro now rfl
  exact ((exactCheck_iff hw hop).2 hrevealed).1

/-- An agent that nobody else is named after. -/
theorem detection_alone :
    Always (ExactCheck 3000 10000) [.join "s" "a" "n1" "worker" [] 0, .check 4] := by
  refine (detection_iff 3000 10000 _ (by decide +kernel)).2 ?_
  refine (always_snoc (t := [SwarmOp.join "s" "a" "n1" "worker" [] 0])).2 ⟨?_, ?_⟩
  · exact (always_snoc (t := [])).2 ⟨always_nil, trivial⟩
  · intro i a m hm own heard hown hheard
    have hjoin := (Coordinator.memberOf_joinSwarm { suspicionMs := 3000, failureMs := 10000 } "s" "a" "n1"
      "worker" [] 0 i a).symm.trans hm
    split at hjoin
    · rename_i hia
      obtain ⟨rfl, rfl⟩ := hia
      cases hjoin
      have hboth : lastSign [.join "s" "a" "n1" "worker" [] 0] "s" "a" "n1" = some 0 ∧
          lastHeard [.join "s" "a" "n1" "worker" [] 0] "a" = some 0 := by decide +kernel
      cases hown.symm.trans hboth.1
      cases hheard.symm.trans hboth.2
      exact ⟨le_sup_right, by decide⟩
    · cases hjoin

/-- Another node sends heartbeats for the agent of a node that is gone. -/
def overheard : List SwarmOp :=
  [.join "s" "a" "n1" "worker" [] 0, .heartbeat "n2" "a" 0 9, .check 12]

theorem not_detected : ¬Always (ExactCheck 3000 10000) overheard := by
  intro hexact
  obtain ⟨m, hm, hnode, hhealth⟩ : ∃ m ∈ ((Coordinator.after 3000 10000
      (overheard.take 2)).checkPartitions 12).2.memberOf "s" "a",
        m.nodeId = "n1" ∧ m.health = .suspected := by decide +kernel
  obtain ⟨own, hown, hunhealthy, -⟩ := (hexact 2 (by decide)).2 "s" "a" m hm
  have hjoined : lastSign (overheard.take 2) "s" "a" "n1" = some 0 := by decide +kernel
  rw [hnode, hjoined] at hown
  cases hown
  have hgone : ((10000 : ℤ) : ℚ) ≤ elapsedMs 0 12 := by decide +kernel
  rw [hunhealthy.2 hgone] at hhealth
  cases hhealth

end Hermes

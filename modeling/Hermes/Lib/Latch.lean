import Hermes.Lib.History

/-!
# A latch with two thresholds

A history of good (`true`) and bad (`false`) results sets a latch once there are `down`
bad results in succession, and resets it once there are `up` good ones in succession.

* `Latched`: the latch after a history, told from its runs of results.
* `replicate_suffix_iff`: a run at the end of a history, by its length.
* `latched_bad`, `latched_good`: what one more result does.
-/

namespace Latch

variable {down up : ℕ} {t : List Bool}

/-- A run of `down` bad results, and no run of `up` good results after it. -/
def Latched (down up : ℕ) (t : List Bool) : Prop :=
  ∃ a b, t = a ++ List.replicate down false ++ b ∧ ¬ List.replicate up true <:+: b

/-- How many results at the end of a history are `r`, in succession. -/
def streak (r : Bool) (t : List Bool) : ℕ := History.trailing (· == r) t

@[simp] theorem streak_nil (r : Bool) : streak r [] = 0 := rfl

theorem streak_snoc (r x : Bool) (t : List Bool) :
    streak r (t ++ [x]) = if x = r then streak r t + 1 else 0 := by
  unfold streak
  rw [History.trailing_snoc]
  simp only [beq_iff_eq]

/-- A streak begins anew after another result. -/
theorem streak_after {r x : Bool} (hx : x ≠ r) (s b : List Bool) :
    streak r (s ++ [x] ++ b) = streak r b := by
  induction b using List.reverseRecOn with
  | nil => rw [List.append_nil, streak_snoc, if_neg hx, streak_nil]
  | append_singleton b y ih => rw [← List.append_assoc, streak_snoc, streak_snoc, ih]

/-- **A run at the end** of a history. -/
theorem replicate_suffix_iff (r : Bool) (t : List Bool) :
    ∀ n, List.replicate n r <:+ t ↔ n ≤ streak r t := by
  induction t using List.reverseRecOn with
  | nil =>
    intro n
    rw [List.suffix_nil, List.replicate_eq_nil_iff, streak_nil]
    omega
  | append_singleton t x ih =>
    intro n
    rw [streak_snoc]
    cases n with
    | zero => simp
    | succ n =>
      rw [List.replicate_succ', List.suffix_concat_iff]
      by_cases hx : x = r
      · subst hx
        rw [if_pos rfl, Nat.add_le_add_iff_right, ← ih n]
        simp
      · rw [if_neg hx]
        refine iff_of_false ?_ (by omega)
        rintro (hnil | ⟨s, hs, -⟩)
        · simp at hnil
        · have hlast := (List.append_inj' hs rfl).2
          exact hx (List.cons.inj hlast).1.symm

theorem not_latched_nil (hdown : 1 ≤ down) : ¬ Latched down up [] := by
  rintro ⟨a, b, h, -⟩
  have hlen := congrArg List.length h
  simp at hlen
  omega

/-- **A bad result** keeps the latch set, or sets it with the run that it ends. -/
theorem latched_bad (hup : 1 ≤ up) :
    Latched down up (t ++ [false]) ↔ Latched down up t ∨ down ≤ streak false (t ++ [false]) := by
  constructor
  · rintro ⟨a, b, h, hb⟩
    rcases List.eq_nil_or_concat b with rfl | ⟨b, x, rfl⟩
    · right
      rw [← replicate_suffix_iff, h, List.append_nil]
      exact List.suffix_append _ _
    · left
      rw [List.concat_eq_append, ← List.append_assoc] at h
      obtain ⟨ht, -⟩ := List.append_inj' h rfl
      refine ⟨a, b, ht, fun hrun => hb ?_⟩
      rw [List.concat_eq_append]
      exact hrun.trans (List.prefix_append _ _).isInfix
  · rintro (⟨a, b, rfl, hb⟩ | hrun)
    · refine ⟨a, b ++ [false], by simp, fun hgood => ?_⟩
      -- a run of good results does not end with a bad one
      rcases List.infix_concat_iff.1 hgood with hsuffix | hinfix
      · rw [replicate_suffix_iff, streak_snoc, if_neg nofun] at hsuffix
        omega
      · exact hb hinfix
    · obtain ⟨a, ha⟩ := (replicate_suffix_iff false _ down).2 hrun
      refine ⟨a, [], by simp [ha], fun hgood => ?_⟩
      have hlen := hgood.length_le
      simp at hlen
      omega

/-- **A good result** keeps the latch set until it ends a run. -/
theorem latched_good (hdown : 1 ≤ down) :
    Latched down up (t ++ [true]) ↔ Latched down up t ∧ streak true (t ++ [true]) < up := by
  have hbad : List.replicate down false = List.replicate (down - 1) false ++ [false] := by
    rw [← List.replicate_succ', Nat.sub_add_cancel hdown]
  constructor
  · rintro ⟨a, b, h, hb⟩
    rcases List.eq_nil_or_concat b with rfl | ⟨b, x, rfl⟩
    · -- the last result of the run would be good
      rw [List.append_nil, hbad, ← List.append_assoc] at h
      have hlast := (List.append_inj' h rfl).2
      cases hlast
    · rw [List.concat_eq_append] at h hb
      have hsplit := h
      rw [← List.append_assoc] at hsplit
      obtain ⟨ht, -⟩ := List.append_inj' hsplit rfl
      refine ⟨⟨a, b, ht, fun hrun => hb ?_⟩, ?_⟩
      · exact hrun.trans (List.prefix_append _ _).isInfix
      · by_contra hlong
        rw [h, hbad, ← List.append_assoc a, streak_after Bool.false_ne_true] at hlong
        exact hb ((replicate_suffix_iff true (b ++ [x]) up).2 (by omega)).isInfix
  · rintro ⟨⟨a, b, rfl, hb⟩, hshort⟩
    refine ⟨a, b ++ [true], by simp, fun hgood => ?_⟩
    rcases List.infix_concat_iff.1 hgood with hsuffix | hinfix
    · have hlong := hsuffix.trans (List.suffix_append (a ++ List.replicate down false) _)
      rw [← List.append_assoc, replicate_suffix_iff] at hlong
      omega
    · exact hb hinfix

end Latch

import Mathlib.Data.List.Nodup
import Mathlib.Order.Basic
import Mathlib.Tactic

/-!
# The best ones of a list

* `Ranked`: a list with the higher scores first. `Ranked.unique`: there is one when no two scores
  are the same.
* `upTo`: a list up to a place that may be counted from its end.
-/

variable {α β σ : Type*}

/-- The higher scores come first. -/
def Ranked [LE σ] (score : α → σ) (l : List α) : Prop := l.Pairwise fun a b => score b ≤ score a

/-- `l[:k]`. -/
def List.upTo (k : ℤ) (l : List α) : List α :=
  if 0 ≤ k then l.take k.toNat else l.take (l.length - (-k).toNat)

theorem List.upTo_sublist (k : ℤ) (l : List α) : (l.upTo k).Sublist l := by
  unfold List.upTo
  split <;> exact List.take_sublist _ _

namespace Ranked

variable [LinearOrder σ] {score : α → σ} {l l' : List α}

theorem mergeSort (score : α → σ) (l : List α) :
    Ranked score (l.mergeSort fun a b => score b ≤ score a) := by
  have h := @List.pairwise_mergeSort α (fun a b => decide (score b ≤ score a))
    (fun a b c hab hbc => by
      rw [decide_eq_true_eq] at hab hbc ⊢
      exact hbc.trans hab)
    (fun a b => by
      rw [Bool.or_eq_true, decide_eq_true_eq, decide_eq_true_eq]
      exact le_total _ _) l
  exact h.imp of_decide_eq_true

theorem map (f : β → α) {l : List β} (h : Ranked (score ∘ f) l) : Ranked score (l.map f) :=
  List.pairwise_map.2 h

/-- **One ranking**: no two scores are the same. -/
theorem unique (hperm : l.Perm l') (hscores : (l.map score).Nodup) (h : Ranked score l)
    (h' : Ranked score l') : l = l' := by
  refine hperm.eq_of_pairwise (fun a b ha hb hab hba => ?_) h h'
  have hsame : score a = score b := le_antisymm hba hab
  exact List.inj_on_of_nodup_map hscores ha (hperm.mem_iff.2 hb) hsame

end Ranked

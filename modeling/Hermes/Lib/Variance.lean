import Mathlib.Algebra.Order.Field.Basic
import Mathlib.Algebra.Order.BigOperators.Group.List
import Mathlib.Tactic

/-!
# How far values are spread

The mean and the variance of a list of values.

* `sum_sq_sub`: the squares of the distances from any value.
* `variance_le`: the variance of values between two bounds.
-/

namespace Variance

variable {K : Type*} [Field K]

def mean (xs : List K) : K := xs.sum / xs.length

def variance (xs : List K) : K := (xs.map fun x => (x - mean xs) ^ 2).sum / xs.length

theorem sum_sq_sub (xs : List K) (m : K) : (xs.map fun x => (x - m) ^ 2).sum =
    (xs.map fun x => x ^ 2).sum - 2 * m * xs.sum + xs.length * m ^ 2 := by
  induction xs with
  | nil => simp
  | cons x xs ih =>
    rw [List.map_cons, List.map_cons, List.sum_cons, List.sum_cons, List.sum_cons, ih,
      List.length_cons]
    push_cast
    ring

variable [LinearOrder K] [IsStrictOrderedRing K]

theorem sum_sq_le {xs : List K} {a b : K} (h : ∀ x ∈ xs, a ≤ x ∧ x ≤ b) :
    (xs.map fun x => x ^ 2).sum ≤ (a + b) * xs.sum - xs.length * (a * b) := by
  induction xs with
  | nil => simp
  | cons x xs ih =>
    obtain ⟨⟨ha, hb⟩, hxs⟩ := List.forall_mem_cons.1 h
    have hx : 0 ≤ (x - a) * (b - x) := mul_nonneg (sub_nonneg.2 ha) (sub_nonneg.2 hb)
    have hrest := ih hxs
    rw [List.map_cons, List.sum_cons, List.sum_cons, List.length_cons]
    push_cast
    linarith

/-- **The variance of values between two bounds** is at most the square of half their distance. -/
theorem variance_le {xs : List K} {a b : K} (h : ∀ x ∈ xs, a ≤ x ∧ x ≤ b) :
    variance xs ≤ ((b - a) / 2) ^ 2 := by
  rcases xs.eq_nil_or_concat with rfl | ⟨init, last, hlast⟩
  · unfold variance
    simp only [List.map_nil, List.sum_nil, zero_div]
    exact sq_nonneg _
  · have hlength : (0 : K) < xs.length := by
      rw [hlast]
      simp only [List.concat_eq_append, List.length_append, List.length_singleton]
      positivity
    have hmean : xs.sum = xs.length * mean xs := by
      unfold mean
      field_simp
    have hsquares := sum_sq_le h
    have hdistance : 0 ≤ (mean xs - (a + b) / 2) ^ 2 := sq_nonneg _
    have hbound : (xs.map fun x => (x - mean xs) ^ 2).sum ≤
        xs.length * (((b - a) / 2) ^ 2 - (mean xs - (a + b) / 2) ^ 2) := by
      calc (xs.map fun x => (x - mean xs) ^ 2).sum
          = (xs.map fun x => x ^ 2).sum - 2 * mean xs * xs.sum + xs.length * mean xs ^ 2 :=
            sum_sq_sub xs _
        _ ≤ (a + b) * xs.sum - xs.length * (a * b) - 2 * mean xs * xs.sum +
              xs.length * mean xs ^ 2 := by gcongr
        _ = xs.length * (((b - a) / 2) ^ 2 - (mean xs - (a + b) / 2) ^ 2) := by
            rw [hmean]
            ring
    unfold variance
    rw [div_le_iff₀ hlength, mul_comm]
    refine hbound.trans ?_
    gcongr
    exact sub_le_self _ hdistance

end Variance

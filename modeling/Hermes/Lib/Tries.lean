import Mathlib.Data.List.Range
import Mathlib.Tactic

/-!
# Tries up to a limit

Something is tried again and again, until a try decides it or there were as many as are allowed.

* `Tries`: so many tries are made.
* `Tries.decided`, `Tries.next`: the first try ends it, or others follow it.
-/

/-- `n` tries are made, of `limit` that are allowed. -/
structure Tries (decides : ℕ → Prop) (limit n : ℕ) : Prop where
  pos : 0 < n
  le : n ≤ limit
  undecided : ∀ k, k + 1 < n → ¬ decides k
  ends : decides (n - 1) ∨ n = limit

namespace Tries

variable {decides : ℕ → Prop} {limit n : ℕ}

/-- The first try decides. -/
theorem decided (h : decides 0) : Tries decides (limit + 1) 1 where
  pos := Nat.one_pos
  le := Nat.le_add_left 1 limit
  undecided k hk := by omega
  ends := .inl h

/-- No more than one try is allowed. -/
theorem single : Tries decides 1 1 where
  pos := Nat.one_pos
  le := le_rfl
  undecided k hk := by omega
  ends := .inr rfl

/-- The first try leaves it open. -/
theorem next (hfirst : ¬ decides 0) (h : Tries (fun k => decides (k + 1)) limit n) :
    Tries decides (limit + 1) (n + 1) where
  pos := Nat.succ_pos n
  le := Nat.succ_le_succ h.le
  undecided k hk := by
    cases k with
    | zero => exact hfirst
    | succ k => exact h.undecided k (by omega)
  ends := by
    have hpos := h.pos
    rcases h.ends with hlast | hlast
    · left
      have hn : n + 1 - 1 = n - 1 + 1 := by omega
      rw [hn]
      exact hlast
    · exact .inr (congrArg (· + 1) hlast)

end Tries

import Mathlib.Data.List.Perm.Basic
import Mathlib.Data.List.Perm.Subperm
import Mathlib.Order.Defs.LinearOrder
import Mathlib.Tactic

/-!
# Turns by one remembered choice

Somebody of a list is chosen again and again: the least, but for the one who was chosen
last, who comes after all others.

* `NextTurn`, `TakeTurns`: one choice, and a sequence of them.
* `third_turn`: the choice before the last one comes back.
* `turns_perm_iff`: a round gives everyone one turn exactly when there are at most two.
-/

namespace Turns

variable {α : Type*} [LinearOrder α] {ids : List α} {last : Option α} {x y z : α} {xs : List α}

/-- `x` is chosen: the others had the last turn, or are greater and `x` did not have it. -/
def NextTurn (ids : List α) (last : Option α) (x : α) : Prop :=
  x ∈ ids ∧ ∀ y ∈ ids, y ≠ x → last = some y ∨ (last ≠ some x ∧ x ≤ y)

/-- Choices one after the other. -/
def TakeTurns (ids : List α) : Option α → List α → Prop
  | _, [] => True
  | last, x :: xs => NextTurn ids last x ∧ TakeTurns ids (some x) xs

theorem TakeTurns.subset (h : TakeTurns ids last xs) : xs ⊆ ids := by
  induction xs generalizing last with
  | nil => exact List.nil_subset _
  | cons x xs ih => exact List.cons_subset.2 ⟨h.1.1, ih h.2⟩

/-- Nobody has two turns in succession if there is somebody else. -/
theorem NextTurn.ne (h : NextTurn ids (some x) y) {w : α} (hw : w ∈ ids) (hwx : w ≠ x) : y ≠ x := by
  rintro rfl
  rcases h.2 w hw hwx with heq | ⟨hne, -⟩
  · exact hwx (Option.some.inj heq).symm
  · exact hne rfl

/-- **After two turns** it is the turn of the first again. -/
theorem third_turn (hx : NextTurn ids last x) (hy : NextTurn ids (some x) y)
    (hz : NextTurn ids (some y) z) (hyx : y ≠ x) : z = x := by
  have hzy : z ≠ y := hz.ne hx.1 hyx.symm
  by_contra hzx
  have hyz : y ≤ z := by
    rcases hy.2 z hz.1 hzy with heq | ⟨-, hle⟩
    · exact absurd (Option.some.inj heq).symm hzx
    · exact hle
  have hzx' : z ≤ x := by
    rcases hz.2 x hx.1 (Ne.symm hzx) with heq | ⟨-, hle⟩
    · exact absurd (Option.some.inj heq) hyx
    · exact hle
  have hlt : z < x := lt_of_le_of_ne hzx' hzx
  -- the first choice passed over two smaller ones, and only one of them had the turn before
  have hlast : ∀ w ∈ ids, w < x → last = some w := by
    intro w hw hwx
    rcases hx.2 w hw hwx.ne with heq | ⟨-, hle⟩
    · exact heq
    · exact absurd hle hwx.not_ge
  have hsame := (hlast y hy.1 (hyz.trans_lt hlt)).symm.trans (hlast z hz.1 hlt)
  exact hzy (Option.some.inj hsame).symm

/-- **One round gives everyone one turn** exactly when there are at most two. -/
theorem turns_perm_iff (hnodup : ids.Nodup) (h : TakeTurns ids last xs) (hlen : xs.length = ids.length) :
    xs.Perm ids ↔ ids.length ≤ 2 := by
  constructor
  · -- the third turn is the first again
    intro hperm
    have hxs : xs.Nodup := hperm.nodup_iff.2 hnodup
    rw [← hlen]
    by_contra hmore
    obtain ⟨x, y, z, zs, rfl⟩ : ∃ x y z zs, xs = x :: y :: z :: zs := by
      rcases xs with - | ⟨x, - | ⟨y, - | ⟨z, zs⟩⟩⟩
      · exact absurd (Nat.zero_le _) hmore
      · exact absurd (by simp) hmore
      · exact absurd (by simp) hmore
      · exact ⟨x, y, z, zs, rfl⟩
    obtain ⟨hx, hy, hz, -⟩ := h
    have hyx : y ≠ x := by
      rintro rfl
      simp at hxs
    rw [third_turn hx hy hz hyx] at hxs
    simp at hxs
  · -- nobody of two has two turns in succession
    intro hfew
    have hxs : xs.Nodup := by
      rw [← hlen] at hfew
      rcases xs with - | ⟨x, - | ⟨y, - | ⟨z, zs⟩⟩⟩
      · exact List.nodup_nil
      · exact List.nodup_singleton x
      · obtain ⟨hx, hy, -⟩ := h
        obtain ⟨a, b, rfl⟩ := List.length_eq_two.1 hlen.symm
        have hab : a ≠ b := by simpa using hnodup
        have hother : ∃ w ∈ [a, b], w ≠ x := by
          by_cases hax : a = x
          · exact ⟨b, by simp, fun hbx => hab (hax.trans hbx.symm)⟩
          · exact ⟨a, by simp, hax⟩
        obtain ⟨w, hw, hwx⟩ := hother
        simpa using (hy.ne hw hwx).symm
      · simp at hfew
    exact (List.subperm_of_subset hxs h.subset).perm_of_length_le hlen.ge

end Turns

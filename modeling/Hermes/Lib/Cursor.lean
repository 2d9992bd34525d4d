import Mathlib.Data.List.Nodup
import Mathlib.Tactic

/-!
# A cursor that moves by first match

A cursor stands on an element of a list and moves to the element that follows the
first occurrence of the one it is on.

* `after_idxOf`: without duplicates each move goes one place on.
* `exists_lasso`: with a duplicate the moves from the first element never end.
-/

namespace Cursor

variable {α : Type*} [DecidableEq α] {l : List α} {a b : α}

/-- Where a cursor on `a` moves. -/
def after (l : List α) (a : α) : Option α := l[l.idxOf a + 1]?

/-- **Without duplicates** a move goes one place on. -/
theorem after_idxOf (h : l.Nodup) (hb : after l a = some b) : l.idxOf b = l.idxOf a + 1 := by
  obtain ⟨hlt, hget⟩ := List.getElem?_eq_some_iff.1 hb
  rw [← hget]
  exact h.idxOf_getElem _ hlt

/-- Behind the first occurrence. -/
theorem after_append (h : a ∉ l) (m : List α) : after (l ++ a :: m) a = m.head? := by
  have hidx : (l ++ a :: m).idxOf a = l.length := by
    rw [List.idxOf_append_of_notMem h, List.idxOf_cons_self, Nat.add_zero]
  unfold after
  rw [hidx, List.getElem?_append_right (by omega)]
  have hone : l.length + 1 - l.length = 1 := by omega
  rw [hone, List.getElem?_cons_succ, List.head?_eq_getElem?]

/-- The first duplicate of a list. -/
theorem exists_duplicate (h : ¬ l.Nodup) : ∃ pre a post, l = pre ++ a :: post ∧ a ∈ pre := by
  induction l with
  | nil => exact absurd List.nodup_nil h
  | cons b l ih =>
    by_cases hb : b ∈ l
    · obtain ⟨pre, post, rfl⟩ := List.append_of_mem hb
      exact ⟨b :: pre, b, post, rfl, List.mem_cons_self⟩
    · have hl : ¬ l.Nodup := fun hl => h (List.nodup_cons.2 ⟨hb, hl⟩)
      obtain ⟨pre, a, post, rfl, ha⟩ := ih hl
      exact ⟨b :: pre, a, post, rfl, List.mem_cons_of_mem _ ha⟩

/-- **With a duplicate** some elements, the first among them, lead only to each other. -/
theorem exists_lasso (h : ¬ l.Nodup) : ∃ s : List α, (∃ a ∈ s, l.head? = some a) ∧
    ∀ a ∈ s, ∃ b ∈ s, after l a = some b := by
  obtain ⟨pre, d, post, rfl, hd⟩ := exists_duplicate h
  refine ⟨pre, ?_, fun a ha => ?_⟩
  · cases pre with
    | nil => cases hd
    | cons b pre => exact ⟨b, List.mem_cons_self, rfl⟩
  · have hlt : pre.idxOf a < pre.length := List.idxOf_lt_length_iff.2 ha
    have hidx : (pre ++ d :: post).idxOf a = pre.idxOf a := List.idxOf_append_of_mem ha
    unfold after
    rw [hidx]
    by_cases hin : pre.idxOf a + 1 < pre.length
    · refine ⟨pre[pre.idxOf a + 1], List.getElem_mem hin, ?_⟩
      rw [List.getElem?_append_left hin, List.getElem?_eq_getElem hin]
    -- the last one leads back to the duplicate
    · have hlast : pre.idxOf a + 1 = pre.length := by omega
      refine ⟨d, hd, ?_⟩
      rw [hlast, List.getElem?_append_right le_rfl, Nat.sub_self, List.getElem?_cons_zero]

end Cursor

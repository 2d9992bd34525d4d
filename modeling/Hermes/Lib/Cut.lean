import Mathlib.Data.List.Infix
import Mathlib.Tactic

/-!
# Cutting a list at a separator

* `cut`: the parts before and after the first occurrence of a separator.
* `cut_eq_some`, `cut_eq_none_iff`: what a cut says of the list.
* `cut_append_iff`: two parts that are joined by the separator are cut apart again exactly when
  the separator does not begin before the end of the first one.
-/

namespace Cut

variable {α : Type*} [DecidableEq α] {sep xs ys : List α}

/-- The parts of a list before and after the first occurrence of `sep`. -/
def cut (sep : List α) : List α → Option (List α × List α)
  | [] => if sep = [] then some ([], []) else none
  | x :: xs =>
    if sep <+: x :: xs then some ([], (x :: xs).drop sep.length)
    else (cut sep xs).map fun p => (x :: p.1, p.2)

/-- `sep` begins nowhere in `xs`, even if it may go on behind it. -/
def Clear (sep xs : List α) : Prop := ¬ sep <:+: xs ++ sep.dropLast

instance (sep xs : List α) : Decidable (Clear sep xs) := inferInstanceAs (Decidable (¬ _))

theorem cut_eq_some {l : List α} : ∀ {a b}, cut sep l = some (a, b) → l = a ++ sep ++ b := by
  induction l with
  | nil =>
    intro a b h
    unfold cut at h
    split at h
    · rename_i hsep
      cases h
      simp [hsep]
    · cases h
  | cons x l ih =>
    intro a b h
    unfold cut at h
    split at h
    · rename_i hsep
      cases h
      obtain ⟨t, ht⟩ := hsep
      rw [← ht, List.drop_left]
      rfl
    · obtain ⟨⟨a', b'⟩, hcut, hab⟩ := Option.map_eq_some_iff.1 h
      cases hab
      rw [ih hcut]
      rfl

theorem cut_eq_none_iff {l : List α} : cut sep l = none ↔ ¬ sep <:+: l := by
  induction l with
  | nil =>
    unfold cut
    by_cases hsep : sep = []
    · simp [hsep]
    · simp [hsep]
  | cons x l ih =>
    unfold cut
    rw [List.infix_cons_iff]
    by_cases hsep : sep <+: x :: l
    · simp [hsep]
    · simp [hsep, ih]

/-- **What is joined is cut apart again.** -/
theorem cut_append_iff (hsep : sep ≠ []) (xs ys : List α) :
    cut sep (xs ++ sep ++ ys) = some (xs, ys) ↔ Clear sep xs := by
  have hdrop : sep.dropLast.length + 1 = sep.length := by
    rw [List.length_dropLast]
    have := List.length_pos_iff.2 hsep
    omega
  unfold Clear
  induction xs with
  | nil =>
    obtain ⟨s, rest, rfl⟩ := List.exists_cons_of_ne_nil hsep
    refine iff_of_true ?_ fun hin => ?_
    · show (if s :: rest <+: s :: (rest ++ ys) then _ else _) = _
      have hpre : s :: rest <+: s :: (rest ++ ys) := ⟨ys, rfl⟩
      rw [if_pos hpre]
      simp
    · have := hin.length_le
      rw [List.nil_append] at this
      omega
  | cons x xs ih =>
    -- what the separator can begin with in the joined list, and in its beginning
    have hpre : x :: xs ++ sep.dropLast <+: x :: (xs ++ sep ++ ys) := by
      obtain ⟨t, ht⟩ := List.dropLast_prefix sep
      refine ⟨t ++ ys, ?_⟩
      rw [← List.append_assoc, List.append_assoc (x :: xs), ht]
      rfl
    have hstart : sep <+: x :: (xs ++ sep ++ ys) ↔ sep <+: x :: (xs ++ sep.dropLast) := by
      constructor
      · intro h
        refine List.prefix_of_prefix_length_le h hpre ?_
        simp only [List.length_cons, List.length_append]
        omega
      · exact fun h => h.trans hpre
    show cut sep (x :: (xs ++ sep ++ ys)) = _ ↔ ¬ sep <:+: x :: (xs ++ sep.dropLast)
    unfold cut
    rw [List.infix_cons_iff]
    by_cases h : sep <+: x :: (xs ++ sep ++ ys)
    · rw [if_pos h]
      simp [hstart.1 h]
    · rw [if_neg h, not_or]
      have hnot := fun h' => h (hstart.2 h')
      refine Iff.trans ?_ (ih.trans (iff_and_self.2 fun _ => hnot))
      simp

end Cut

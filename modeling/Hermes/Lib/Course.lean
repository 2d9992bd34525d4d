import Mathlib.Data.List.Basic
import Mathlib.Tactic

/-!
# Courses of a system

A run of a system is often quiet: nothing happens but at certain points. A course
lists these points between two states, each with the state before and after it.

* `Course`: from one state to another through a list of points.
* `Course.invariant_of`: what quiet stretches and points keep holds at every point.
* `Course.iff`: a property of the states holds at the end exactly when it held at the
  start and each point meets the condition under which a point keeps it.
* `Course.collect`: what the points add up to.
-/

variable {σ π : Type*}

/-- From one state to another through the points of a list. `quiet` relates two states between
which there is no point. -/
inductive Course (quiet : σ → σ → Prop) (before after : π → σ) : σ → List π → σ → Prop where
  | quiet {s t : σ} : quiet s t → Course quiet before after s [] t
  | point (p : π) : Course quiet before after (before p) [p] (after p)
  | trans {s t u : σ} {ps qs : List π} : Course quiet before after s ps t →
    Course quiet before after t qs u → Course quiet before after s (ps ++ qs) u

namespace Course

variable {quiet : σ → σ → Prop} {before after : π → σ} {s t u : σ} {ps qs : List π}

/-- A quiet stretch follows. -/
theorem hush (h : Course quiet before after s ps t) (hq : quiet t u) :
    Course quiet before after s ps u := by
  rw [← List.append_nil ps]
  exact h.trans (.quiet hq)

/-- A course follows a quiet stretch. -/
theorem wake (hq : quiet s t) (h : Course quiet before after t ps u) :
    Course quiet before after s ps u := by
  rw [← List.nil_append ps]
  exact (Course.quiet hq).trans h

/-- **Invariants** hold at the end and before each point, when each point of the course keeps
them. -/
theorem invariant_of {I : σ → Prop} (hq : ∀ s t, quiet s t → I s → I t)
    (h : Course quiet before after s ps t) (hp : ∀ p ∈ ps, I (before p) → I (after p)) (hs : I s) :
    I t ∧ ∀ p ∈ ps, I (before p) := by
  induction h with
  | quiet hst => exact ⟨hq _ _ hst hs, by simp⟩
  | point p =>
    refine ⟨hp p List.mem_cons_self hs, fun q hq => ?_⟩
    rw [List.mem_singleton.1 hq]
    exact hs
  | trans _ _ ih₁ ih₂ =>
    obtain ⟨ht, h₁⟩ := ih₁ (fun p hm => hp p (List.mem_append_left _ hm)) hs
    obtain ⟨hu, h₂⟩ := ih₂ (fun p hm => hp p (List.mem_append_right _ hm)) ht
    refine ⟨hu, fun p hp => ?_⟩
    rcases List.mem_append.1 hp with hp | hp
    · exact h₁ p hp
    · exact h₂ p hp

/-- What every point keeps. -/
theorem invariant {I : σ → Prop} (hq : ∀ s t, quiet s t → I s → I t)
    (hp : ∀ p, I (before p) → I (after p)) (h : Course quiet before after s ps t) (hs : I s) :
    I t ∧ ∀ p ∈ ps, I (before p) :=
  h.invariant_of hq (fun p _ => hp p) hs

/-- **A property of the states** that quiet stretches neither break nor mend holds at the end
exactly when it held at the start and each point meets `C`. -/
theorem iff {I G : σ → Prop} {C : π → Prop} (hI : ∀ s t, quiet s t → I s → I t)
    (hIp : ∀ p, I (before p) → I (after p)) (hq : ∀ s t, quiet s t → I s → (G t ↔ G s))
    (hp : ∀ p, I (before p) → (G (after p) ↔ G (before p) ∧ C p))
    (h : Course quiet before after s ps t) (hs : I s) : G t ↔ G s ∧ ∀ p ∈ ps, C p := by
  induction h with
  | quiet hst => simp [hq _ _ hst hs]
  | point p => simp [hp p hs]
  | trans h₁ _ ih₁ ih₂ =>
    have ht := (h₁.invariant hI hIp hs).1
    rw [ih₂ ht, ih₁ hs, List.forall_mem_append, and_assoc]

/-- **What the points add up to.** -/
theorem collect {α : Type*} {f : σ → List α} {g : π → List α} (hq : ∀ s t, quiet s t → f t = f s)
    (hp : ∀ p, f (after p) = f (before p) ++ g p) (h : Course quiet before after s ps t) :
    f t = f s ++ ps.flatMap g := by
  induction h with
  | quiet hst => simp [hq _ _ hst]
  | point p => simp [hp p]
  | trans _ _ ih₁ ih₂ => rw [ih₂, ih₁, List.flatMap_append, List.append_assoc]

end Course

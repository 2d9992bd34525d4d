import Mathlib.Data.List.Basic
import Mathlib.Tactic

/-!
# Counters that are read before a wait and written after it

An update reads the number of a counter when it begins, waits, and writes the number
that it has read and not the one that is there. Updates overlap in any way.

* `Counter`, `step`: updates begin, finish and are abandoned.
* `Timely`: nothing was written while the update waited.
* `Current`: what is written is below the next number, and an update that waits has
  the next number or missed a write.
* `increasing_step_iff`, `current_step`: the numbers written increase exactly as long
  as every update is timely.
* `getLast_of_max`: the highest number is then the last one.
-/

namespace Overlap

/-- An update that waits: the number that it will write, and how many were written when it began. -/
structure Update where
  number : ℤ
  seen : ℕ
  deriving DecidableEq, Repr

/-- A counter: the number that an update which begins now will write, the updates that wait, and
what was written. -/
structure Counter where
  next : ℤ
  waiting : List Update := []
  written : List ℤ := []

inductive Event where
  | begin
  /-- The `n`-th update that waits writes its number. -/
  | finish (n : ℕ)
  /-- The `n`-th update that waits gives up. -/
  | abandon (n : ℕ)

def step (c : Counter) : Event → Counter
  | .begin => { c with waiting := c.waiting ++ [⟨c.next, c.written.length⟩] }
  | .finish n =>
    match c.waiting[n]? with
    | none => c
    | some u =>
      { next := u.number + 1, waiting := c.waiting.eraseIdx n, written := c.written ++ [u.number] }
  | .abandon n => { c with waiting := c.waiting.eraseIdx n }

/-- Each number is above those that were written before it. -/
def Increasing (c : Counter) : Prop := c.written.Pairwise (· < ·)

/-- An update that finishes has missed no write. -/
def Timely (c : Counter) : Event → Prop
  | .finish n => ∀ u ∈ c.waiting[n]?, u.seen = c.written.length
  | _ => True

/-- The counter after updates that were timely. -/
structure Current (c : Counter) : Prop where
  below : ∀ k ∈ c.written, k < c.next
  last : ∀ k ∈ c.written.getLast?, k + 1 = c.next
  waiting : ∀ u ∈ c.waiting, (u.seen = c.written.length ∧ u.number = c.next) ∨
    (u.seen < c.written.length ∧ u.number < c.next)

variable {c : Counter}

theorem current_init (k : ℤ) : Current { next := k } where
  below := by simp
  last := by simp
  waiting := by simp

theorem step_finish {n : ℕ} {u : Update} (h : c.waiting[n]? = some u) : step c (.finish n) =
    ⟨u.number + 1, c.waiting.eraseIdx n, c.written ++ [u.number]⟩ := by
  unfold step
  simp only [h]

theorem step_finish_none {n : ℕ} (h : c.waiting[n]? = none) : step c (.finish n) = c := by
  unfold step
  simp only [h]

/-- **The number of an update** is above those written exactly when it is timely. -/
theorem above_iff (h : Current c) {u : Update} (hu : u ∈ c.waiting) :
    (∀ k ∈ c.written, k < u.number) ↔ u.seen = c.written.length := by
  obtain ⟨hseen, hnumber⟩ | ⟨hseen, hnumber⟩ := h.waiting u hu
  · rw [hnumber]
    exact iff_of_true h.below hseen
  · refine iff_of_false (fun habove => ?_) (by omega)
    -- it missed the last write, which has the number that it would write or a higher one
    have hne : c.written ≠ [] := by
      intro hnil
      rw [hnil, List.length_nil] at hseen
      omega
    have hlast := h.last _ (List.getLast?_eq_some_getLast hne)
    have hbelow := habove _ (List.getLast_mem hne)
    omega

/-- **The numbers go on increasing** exactly when the update is timely. -/
theorem increasing_step_iff (h : Current c) (hinc : Increasing c) (e : Event) :
    Increasing (step c e) ↔ Timely c e := by
  cases e with
  | begin => exact iff_of_true hinc trivial
  | abandon n => exact iff_of_true hinc trivial
  | finish n =>
    show _ ↔ ∀ u ∈ c.waiting[n]?, u.seen = c.written.length
    cases hn : c.waiting[n]? with
    | none =>
      rw [step_finish_none hn]
      exact iff_of_true hinc (by simp)
    | some u =>
      have habove := above_iff h (List.mem_of_getElem? hn)
      rw [step_finish hn]
      unfold Increasing at hinc ⊢
      simp only [List.pairwise_append, hinc, List.pairwise_singleton, List.mem_singleton,
        forall_eq, true_and, habove, Option.mem_def, Option.some.injEq, forall_eq']

/-- **A timely step keeps the counter current.** -/
theorem current_step (h : Current c) {e : Event} (ht : Timely c e) : Current (step c e) := by
  obtain ⟨hbelow, hlast, hwaiting⟩ := h
  cases e with
  | begin =>
    refine ⟨hbelow, hlast, fun u hu => ?_⟩
    rcases List.mem_append.1 hu with hu | hu
    · exact hwaiting u hu
    · obtain rfl := List.mem_singleton.1 hu
      exact Or.inl ⟨rfl, rfl⟩
  | abandon n => exact ⟨hbelow, hlast, fun u hu => hwaiting u (List.mem_of_mem_eraseIdx hu)⟩
  | finish n =>
    unfold Timely at ht
    cases hn : c.waiting[n]? with
    | none =>
      rw [step_finish_none hn]
      exact ⟨hbelow, hlast, hwaiting⟩
    | some u =>
      rw [step_finish hn]
      have hseen := ht u hn
      have hnumber : u.number = c.next := by
        obtain ⟨-, hnumber⟩ | ⟨hless, -⟩ := hwaiting u (List.mem_of_getElem? hn)
        · exact hnumber
        · omega
      refine ⟨fun k hk => ?_, by simp, fun w hw => Or.inr ?_⟩
      · rcases List.mem_append.1 hk with hk | hk
        · have hlt := hbelow k hk
          show k < u.number + 1
          omega
        · obtain rfl := List.mem_singleton.1 hk
          exact lt_add_one _
      · -- every other update has missed this write
        simp only [List.length_append, List.length_singleton]
        obtain ⟨hw, hwn⟩ | ⟨hw, hwn⟩ := hwaiting w (List.mem_of_mem_eraseIdx hw)
        · constructor
          · omega
          · omega
        · constructor
          · omega
          · omega

/-- The highest of increasing numbers is the last. -/
theorem getLast_of_max {α : Type*} {f : α → ℤ} {l : List α} (h : (l.map f).Pairwise (· < ·))
    {a : α} (ha : a ∈ l) (hmax : ∀ b ∈ l, f b ≤ f a) : l.getLast? = some a := by
  induction l using List.reverseRecOn with
  | nil => cases ha
  | append_singleton l b _ =>
    rw [List.map_append, List.pairwise_append] at h
    rcases List.mem_append.1 ha with ha | ha
    · have hlt := h.2.2 (f a) (List.mem_map_of_mem ha) (f b) (by simp)
      have hle := hmax b (by simp)
      omega
    · obtain rfl := List.mem_singleton.1 ha
      simp

end Overlap

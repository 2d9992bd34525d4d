import Mathlib.Data.List.Basic
import Mathlib.Tactic

/-!
# Sliding windows over a list

A list is read through windows of one size. Each window begins some places before the end of the one
before it, and the last one ends with the list.

* `Sliding`: such windows, from a place on.
* `Sliding.next_window`, `Sliding.last_window`: what holds of two in succession, and of the last one.
* `Sliding.joined`: what the windows show, without what they show twice, is the list.
-/

namespace Windows

variable {α : Type*} {size overlap n start : ℕ} {ws : List (ℕ × ℕ)}

/-- Windows of a size over `n` places, from `start` on. -/
inductive Sliding (size overlap n : ℕ) : ℕ → List (ℕ × ℕ) → Prop where
  | last {start : ℕ} : start < n → n ≤ start + size → Sliding size overlap n start [(start, n)]
  | next {start : ℕ} {ws : List (ℕ × ℕ)} : start + size < n →
    Sliding size overlap n (start + (size - overlap)) ws →
    Sliding size overlap n start ((start, start + size) :: ws)

/-- What a window shows. -/
def slice (xs : List α) (w : ℕ × ℕ) : List α := (xs.drop w.1).take (w.2 - w.1)

theorem length_slice {xs : List α} {w : ℕ × ℕ} (hw : w.2 ≤ xs.length) :
    (slice xs w).length = w.2 - w.1 := by
  unfold slice
  rw [List.length_take, List.length_drop]
  omega

/-- The windows begin at the place. -/
theorem Sliding.head (h : Sliding size overlap n start ws) :
    ∃ stop rest, ws = (start, stop) :: rest ∧ stop ≤ n ∧ (rest = [] → stop = n) ∧
      (rest ≠ [] → stop = start + size) := by
  cases h with
  | last _ _ => exact ⟨n, [], rfl, le_rfl, fun _ => rfl, fun hne => absurd rfl hne⟩
  | @next _ rest hmore hrest =>
    refine ⟨start + size, rest, rfl, hmore.le, ?_, fun _ => rfl⟩
    rintro rfl
    cases hrest

theorem Sliding.mem (hsize : 0 < size) (h : Sliding size overlap n start ws) :
    ∀ w ∈ ws, w.1 < w.2 ∧ w.2 ≤ n := by
  induction h with
  | last hlt _ =>
    intro w hw
    rw [List.mem_singleton.1 hw]
    exact ⟨hlt, le_rfl⟩
  | @next start _ hmore _ ih =>
    intro w hw
    rcases List.mem_cons.1 hw with rfl | hw
    · exact ⟨Nat.lt_add_of_pos_right hsize, hmore.le⟩
    · exact ih w hw

/-- **A window that another follows** is of full size, and shares so many places with it. -/
theorem Sliding.next_window (hlt : overlap < size) (h : Sliding size overlap n start ws)
    {before later : List (ℕ × ℕ)} {w v : ℕ × ℕ} (hws : ws = before ++ w :: v :: later) :
    w.2 = w.1 + size ∧ w.2 = v.1 + overlap ∧ w.2 < n := by
  induction h generalizing before with
  | last _ _ =>
    have hlength := congrArg List.length hws
    simp at hlength
    omega
  | @next start rest hmore hrest ih =>
    cases before with
    | nil =>
      obtain ⟨rfl, rfl⟩ := List.cons.inj hws
      obtain ⟨stop, rest, heq, -⟩ := hrest.head
      rw [(List.cons.inj heq).1]
      refine ⟨rfl, ?_, hmore⟩
      show start + size = start + (size - overlap) + overlap
      omega
    | cons u before =>
      obtain ⟨-, hrest'⟩ := List.cons.inj hws
      exact ih hrest'

/-- **The last window** ends with the list, and shows what no other one does. -/
theorem Sliding.last_window (h : Sliding size overlap n start ws) {before : List (ℕ × ℕ)}
    {w : ℕ × ℕ} (hws : ws = before ++ [w]) : w.2 = n ∧ ∀ v ∈ before, v.2 < n := by
  induction h generalizing before with
  | last _ _ =>
    cases before with
    | nil =>
      rw [← List.singleton_inj.1 hws]
      exact ⟨rfl, nofun⟩
    | cons u before =>
      have hlength := congrArg List.length hws
      simp at hlength
  | @next start rest hmore hrest ih =>
    cases before with
    | nil =>
      obtain ⟨-, rfl⟩ := List.cons.inj hws
      cases hrest
    | cons u before =>
      obtain ⟨rfl, hrest'⟩ := List.cons.inj hws
      obtain ⟨hend, hbefore⟩ := ih hrest'
      refine ⟨hend, fun v hv => ?_⟩
      rcases List.mem_cons.1 hv with rfl | hv
      · exact hmore
      · exact hbefore v hv

/-- Texts that share so many places with the ones before them, put together. -/
def join (overlap : ℕ) : List (List α) → List α
  | [] => []
  | t :: ts => t ++ ts.flatMap (·.drop overlap)

/-- **What the windows show**, put together, is the list. -/
theorem Sliding.joined (hlt : overlap < size) (xs : List α) {start : ℕ} {ws : List (ℕ × ℕ)}
    (h : Sliding size overlap xs.length start ws) :
    join overlap (ws.map (slice xs)) = xs.drop start := by
  induction h with
  | @last start _ _ =>
    have hall : (slice xs (start, xs.length)) = xs.drop start := by
      unfold slice
      exact List.take_of_length_le (by rw [List.length_drop])
    simp only [join, List.map_cons, List.map_nil, List.flatMap_nil, List.append_nil, hall]
  | @next start ws hmore hrest ih =>
    obtain ⟨stop, rest, rfl, hstop, hlast, hfull⟩ := hrest.head
    set second := slice xs (start + (size - overlap), stop) with hsecond
    -- the second text holds all that the first one shares with it
    have hlong : overlap ≤ second.length := by
      rw [hsecond, length_slice hstop]
      by_cases hnil : rest = []
      · rw [hlast hnil]
        show overlap ≤ xs.length - (start + (size - overlap))
        omega
      · rw [hfull hnil]
        show overlap ≤ start + (size - overlap) + size - (start + (size - overlap))
        omega
    have hdrop : second.drop overlap ++ (rest.map (slice xs)).flatMap (·.drop overlap) =
        xs.drop (start + size) := by
      have hplace : start + size = start + (size - overlap) + overlap := by omega
      rw [hplace, ← List.drop_drop, ← ih]
      exact (List.drop_append_of_le_length hlong).symm
    have hfirst : slice xs (start, start + size) = (xs.drop start).take size := by
      unfold slice
      simp only [Nat.add_sub_cancel_left]
    simp only [join, List.map_cons, List.flatMap_cons, ← hsecond, hdrop, hfirst]
    rw [← List.drop_drop, List.take_append_drop]

end Windows

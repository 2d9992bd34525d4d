import Mathlib.Data.List.TakeDrop
import Mathlib.Tactic

/-!
# Reading from a stream that comes in chunks

* `Reader`: what has come of a stream, and the chunks that have not; after them it ends.
* `readUntil`, `readExactly`: up to a separator, within a limit; so many elements.
* `readUntil_eq`, `readExactly_eq`: what is read depends on the stream, not on its chunks.
* `readUntil_rest`, `readUntil_incomplete`: a line is what the stream begins with.
-/

namespace Chunks

variable {α : Type*}

/-- What has come of a stream, and the chunks that have not. -/
structure Reader (α : Type*) where
  buffer : List α := []
  pending : List (List α) := []
  deriving DecidableEq

namespace Reader

/-- All that is still to be read. -/
def rest (r : Reader α) : List α := r.buffer ++ r.pending.flatten

/-- So many more chunks come. -/
def arrive (n : ℕ) (r : Reader α) : Reader α :=
  { buffer := r.buffer ++ (r.pending.take n).flatten, pending := r.pending.drop n }

@[simp] theorem rest_arrive (n : ℕ) (r : Reader α) : (r.arrive n).rest = r.rest := by
  unfold arrive rest
  simp only
  rw [List.append_assoc, ← List.flatten_append, List.take_append_drop]

/-- Wait for chunks until the buffer is as it should be, or the stream ends. -/
def fill (ready : List α → Bool) : List α → List (List α) → Reader α
  | buffer, [] => { buffer, pending := [] }
  | buffer, chunk :: pending =>
    if ready buffer then { buffer, pending := chunk :: pending }
    else fill ready (buffer ++ chunk) pending

theorem rest_fill (ready : List α → Bool) (pending : List (List α)) : ∀ buffer,
    (fill ready buffer pending).rest = buffer ++ pending.flatten := by
  induction pending with
  | nil => exact fun _ => rfl
  | cons chunk pending ih =>
    intro buffer
    unfold fill
    split
    · rfl
    · rw [ih, List.flatten_cons, List.append_assoc]

theorem ready_or_ended (ready : List α → Bool) (pending : List (List α)) : ∀ buffer,
    ready (fill ready buffer pending).buffer = true ∨ (fill ready buffer pending).pending = [] := by
  induction pending with
  | nil => exact fun _ => .inr rfl
  | cons chunk pending ih =>
    intro buffer
    unfold fill
    split
    · rename_i hready
      exact .inl hready
    · exact ih _

end Reader

/-- What may go wrong: the stream ends too early, or there is no separator within the limit. -/
inductive Fault (α : Type*) where
  | incomplete (part : List α)
  | overrun (consumed : ℕ)
  deriving DecidableEq

/-! ## Up to a separator -/

variable [DecidableEq α]

/-- What has come once the separator is there, or too much is. -/
def untilFilled (limit : ℕ) (sep : α) (r : Reader α) : Reader α :=
  .fill (fun buffer => decide (sep ∈ buffer ∨ limit < buffer.length)) r.buffer r.pending

/-- Read up to a separator, which is read as well. -/
def readUntil (limit : ℕ) (sep : α) (r : Reader α) : Except (Fault α) (List α) × Reader α :=
  let r := untilFilled limit sep r
  let line := r.buffer.takeWhile (· ≠ sep)
  if sep ∈ r.buffer then
    if limit < line.length then (.error (.overrun line.length), r)
    else (.ok (line ++ [sep]), { r with buffer := r.buffer.drop (line.length + 1) })
  else if limit < r.buffer.length then (.error (.overrun r.buffer.length), r)
  else (.error (.incomplete r.buffer), { r with buffer := [] })

variable {limit : ℕ} {sep : α} {r r' : Reader α} {line data rest : List α}

theorem takeWhile_cut (hsep : sep ∉ line) (rest : List α) :
    (line ++ sep :: rest).takeWhile (· ≠ sep) = line := by
  have hline : ∀ x ∈ line, decide (x ≠ sep) = true := by
    intro x hx
    exact decide_eq_true fun h => hsep (h ▸ hx)
  rw [List.takeWhile_append_of_pos hline]
  simp

/-- A list with the separator is cut at its first one. -/
theorem exists_cut {xs : List α} (h : sep ∈ xs) :
    ∃ line rest, xs = line ++ sep :: rest ∧ sep ∉ line ∧ xs.takeWhile (· ≠ sep) = line := by
  obtain ⟨line, rest, rfl, hline⟩ := List.eq_append_cons_of_mem h
  exact ⟨line, rest, rfl, hline, takeWhile_cut hline rest⟩

omit [DecidableEq α] in
/-- What a buffer holds that begins as the stream does, once the separator is in it. -/
theorem buffer_of_mem {buffer later : List α} (hsep : sep ∉ line) (hmem : sep ∈ buffer)
    (h : buffer ++ later = line ++ sep :: rest) :
    ∃ more, buffer = line ++ sep :: more ∧ rest = more ++ later := by
  rcases List.append_eq_append_iff.1 h with ⟨t, hline, -⟩ | ⟨t, hbuffer, hrest⟩
  · exact absurd (hline ▸ List.mem_append_left t hmem) hsep
  · cases t with
    | nil =>
      rw [List.append_nil] at hbuffer
      exact absurd (hbuffer ▸ hmem) hsep
    | cons x more =>
      rw [List.cons_append] at hrest
      obtain ⟨rfl, hmore⟩ := List.cons.inj hrest
      exact ⟨more, hbuffer, hmore⟩

/-- **Reading a line** that is within the limit gives it, whatever the chunks. -/
theorem readUntil_eq (hrest : r.rest = line ++ sep :: rest) (hsep : sep ∉ line)
    (hlimit : line.length ≤ limit) :
    ∃ r', readUntil limit sep r = (.ok (line ++ [sep]), r') ∧ r'.rest = rest := by
  have hfilled : (untilFilled limit sep r).rest = line ++ sep :: rest :=
    (Reader.rest_fill ..).trans hrest
  have hready : sep ∈ (untilFilled limit sep r).buffer ∨
        limit < (untilFilled limit sep r).buffer.length ∨ (untilFilled limit sep r).pending = [] := by
    rcases Reader.ready_or_ended (fun buffer => decide (sep ∈ buffer ∨ limit < buffer.length))
      r.pending r.buffer with hready | hended
    · rcases of_decide_eq_true hready with hmem | hlong
      · exact .inl hmem
      · exact .inr (.inl hlong)
    · exact .inr (.inr hended)
  have hmem : sep ∈ (untilFilled limit sep r).buffer := by
    rcases hready with hmem | hlong | hended
    · exact hmem
    · -- more than the line has come, so the separator has
      by_contra hno
      unfold Reader.rest at hfilled
      rcases List.append_eq_append_iff.1 hfilled with ⟨t, hline, -⟩ | ⟨t, hbuffer, hrest'⟩
      · have hlength := congrArg List.length hline
        rw [List.length_append] at hlength
        omega
      · cases t with
        | nil =>
          rw [List.append_nil] at hbuffer
          rw [hbuffer] at hlong
          omega
        | cons x t =>
          rw [List.cons_append] at hrest'
          obtain ⟨rfl, -⟩ := List.cons.inj hrest'
          exact hno (hbuffer ▸ by simp)
    · unfold Reader.rest at hfilled
      rw [hended, List.flatten_nil, List.append_nil] at hfilled
      rw [hfilled]
      simp
  obtain ⟨more, hbuffer, hmore⟩ := buffer_of_mem hsep hmem hfilled
  have hline : (untilFilled limit sep r).buffer.takeWhile (· ≠ sep) = line := by
    rw [hbuffer, takeWhile_cut hsep]
  unfold readUntil
  simp only [hline]
  rw [if_pos hmem, if_neg (by omega)]
  refine ⟨_, rfl, ?_⟩
  unfold Reader.rest
  simp only
  rw [hbuffer, hmore, List.drop_append]
  simp

/-- At the end of the stream there is no line. -/
theorem readUntil_ended (limit : ℕ) (sep : α) (hrest : r.rest = []) :
    ∃ r', readUntil limit sep r = (.error (.incomplete []), r') ∧ r'.rest = [] := by
  have hfilled : (untilFilled limit sep r).rest = [] := (Reader.rest_fill ..).trans hrest
  obtain ⟨hbuffer, hpending⟩ := List.append_eq_nil_iff.1 hfilled
  unfold readUntil
  simp only [hbuffer, List.not_mem_nil, if_false, List.length_nil, Nat.not_lt_zero]
  exact ⟨_, rfl, hpending⟩

/-- A line that is read is what the stream begins with. -/
theorem readUntil_rest (h : readUntil limit sep r = (.ok line, r')) :
    r.rest = line ++ r'.rest ∧ line ≠ [] := by
  have hfilled : (untilFilled limit sep r).rest = r.rest := Reader.rest_fill ..
  unfold readUntil at h
  simp only at h
  split at h
  · rename_i hmem
    obtain ⟨line', rest', hbuffer, -, hline⟩ := exists_cut hmem
    rw [hline] at h
    split at h
    · cases h
    · cases h
      refine ⟨?_, by simp⟩
      rw [← hfilled]
      unfold Reader.rest
      simp only
      rw [hbuffer, List.drop_append]
      simp
  · split at h <;> cases h

/-- What is left when the stream has ended within a line is all there was. -/
theorem readUntil_incomplete (h : readUntil limit sep r = (.error (.incomplete line), r')) :
    r.rest = line ∧ r'.rest = [] := by
  have hfilled : (untilFilled limit sep r).rest = r.rest := Reader.rest_fill ..
  have hready := Reader.ready_or_ended (fun buffer => decide (sep ∈ buffer ∨ limit < buffer.length))
    r.pending r.buffer
  unfold readUntil at h
  simp only at h
  split at h
  · split at h <;> cases h
  · rename_i hmem
    split at h
    · cases h
    · rename_i hshort
      cases h
      have hended : (untilFilled limit sep r).pending = [] := by
        rcases hready with hready | hended
        · rcases of_decide_eq_true hready with h | h
          · exact absurd h hmem
          · exact absurd h hshort
        · exact hended
      unfold Reader.rest at hfilled ⊢
      rw [hended, List.flatten_nil, List.append_nil] at hfilled
      exact ⟨hfilled.symm, by simp [hended]⟩

/-- Where no separator is within the limit, nothing is read, and more has come than the limit. -/
theorem readUntil_overrun {consumed : ℕ} (h : readUntil limit sep r = (.error (.overrun consumed), r')) :
    r'.rest = r.rest ∧ limit < r'.buffer.length := by
  have hfilled : (untilFilled limit sep r).rest = r.rest := Reader.rest_fill ..
  unfold readUntil at h
  simp only at h
  split at h
  · rename_i hmem
    split at h
    · rename_i hlong
      cases h
      obtain ⟨line', rest', hbuffer, -, hline⟩ := exists_cut hmem
      refine ⟨hfilled, ?_⟩
      rw [hline] at hlong
      have hlength := congrArg List.length hbuffer
      rw [List.length_append] at hlength
      omega
    · cases h
  · split at h
    · rename_i hlong
      cases h
      exact ⟨hfilled, hlong⟩
    · cases h

/-! ## So many elements -/

omit [DecidableEq α]

/-- Read so many elements. -/
def readExactly (n : ℕ) (r : Reader α) : Except (Fault α) (List α) × Reader α :=
  let r := Reader.fill (fun buffer => decide (n ≤ buffer.length)) r.buffer r.pending
  if n ≤ r.buffer.length then (.ok (r.buffer.take n), { r with buffer := r.buffer.drop n })
  else (.error (.incomplete r.buffer), { r with buffer := [] })

/-- What is left was there before. -/
theorem readExactly_le (n : ℕ) (r : Reader α) : (readExactly n r).2.rest.length ≤ r.rest.length := by
  have hfilled := congrArg List.length
    (Reader.rest_fill (fun buffer => decide (n ≤ buffer.length)) r.pending r.buffer)
  unfold readExactly
  simp only
  generalize Reader.fill (fun buffer => decide (n ≤ buffer.length)) r.buffer r.pending = s at hfilled ⊢
  unfold Reader.rest at hfilled ⊢
  rw [List.length_append] at hfilled
  split
  · simp only [List.length_append, List.length_drop]
    rw [List.length_append] at hfilled
    omega
  · simp only [List.length_append, List.length_nil]
    rw [List.length_append] at hfilled
    omega

/-- **Reading as many elements as there are** gives them, whatever the chunks. -/
theorem readExactly_eq (hrest : r.rest = data ++ rest) :
    ∃ r', readExactly data.length r = (.ok data, r') ∧ r'.rest = rest := by
  have hready := Reader.ready_or_ended (fun buffer => decide (data.length ≤ buffer.length))
    r.pending r.buffer
  have hfilled := (Reader.rest_fill (fun buffer => decide (data.length ≤ buffer.length))
    r.pending r.buffer).trans hrest
  unfold readExactly
  simp only
  generalize Reader.fill (fun buffer => decide (data.length ≤ buffer.length)) r.buffer r.pending = s
    at hready hfilled ⊢
  unfold Reader.rest at hfilled
  have hlength : data.length ≤ s.buffer.length := by
    rcases hready with hready | hended
    · exact of_decide_eq_true hready
    · rw [hended, List.flatten_nil, List.append_nil] at hfilled
      rw [hfilled, List.length_append]
      omega
  rw [if_pos hlength]
  have htake : s.buffer.take data.length = data := by
    have h := congrArg (List.take data.length) hfilled
    rwa [List.take_append_of_le_length hlength, List.take_left] at h
  have hdrop : s.buffer.drop data.length ++ s.pending.flatten = rest := by
    have h := congrArg (List.drop data.length) hfilled
    rwa [List.drop_append_of_le_length hlength, List.drop_left] at h
  exact ⟨{ s with buffer := s.buffer.drop data.length }, by rw [htake], hdrop⟩

end Chunks

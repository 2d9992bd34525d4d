import Hermes.Lib.Dict
import Mathlib.Data.Set.Function
import Hermes.Lib.Index

/-!
# Rows under a key that is computed from them

A row that is written takes the place of the row that has its key.

* `Keyed`: each row is under its own key.
* `write_kept`: a row is kept when no other row that is written has its key.
* `all_kept_iff`: nothing is lost exactly when different rows have different keys.
-/

namespace LastWrite

variable {κ ν : Type*} [DecidableEq κ] {key : ν → κ} {rows : Dict κ ν} {vs : List ν} {v : ν}

/-- Each row is under its own key. -/
def Keyed (key : ν → κ) (rows : Dict κ ν) : Prop := ∀ k v, rows.get? k = some v → key v = k

/-- The rows are written one after the other. -/
def writeAll (key : ν → κ) (rows : Dict κ ν) (vs : List ν) : Dict κ ν :=
  vs.foldl (fun rows v => rows.replace (key v) v) rows

theorem keyed_empty (key : ν → κ) : Keyed key (∅ : Dict κ ν) := nofun

theorem Keyed.replace (h : Keyed key rows) (v : ν) : Keyed key (rows.replace (key v) v) := by
  intro k w hw
  rw [Dict.get?_replace] at hw
  split at hw
  · rename_i hk
    rw [← Option.some.inj hw]
    exact hk.symm
  · exact h k w hw

theorem Keyed.writeAll (h : Keyed key rows) (vs : List ν) : Keyed key (writeAll key rows vs) := by
  induction vs generalizing rows with
  | nil => exact h
  | cons w vs ih => exact ih (h.replace w)

theorem Keyed.mem_values (h : Keyed key rows) : v ∈ rows.values ↔ rows.get? (key v) = some v := by
  rw [Dict.mem_values]
  constructor
  · rintro ⟨k, hk⟩
    rw [h k v hk]
    exact hk
  · exact fun hv => ⟨key v, hv⟩

/-- What is there was there before or was written. -/
theorem mem_of_mem_writeAll (h : v ∈ (writeAll key rows vs).values) : v ∈ rows.values ∨ v ∈ vs := by
  induction vs generalizing rows with
  | nil => exact .inl h
  | cons w vs ih =>
    rcases ih h with hv | hv
    · obtain ⟨k, hk⟩ := Dict.mem_values.1 hv
      rw [Dict.get?_replace] at hk
      split at hk
      · rw [← Option.some.inj hk]
        exact .inr List.mem_cons_self
      · exact .inl (Dict.mem_values.2 ⟨k, hk⟩)
    · exact .inr (List.mem_cons_of_mem _ hv)

/-- **A row is kept** when no other row that is written has its key. -/
theorem write_kept (hv : rows.get? (key v) = some v ∨ v ∈ vs)
    (hother : ∀ w ∈ vs, key w = key v → w = v) :
    (writeAll key rows vs).get? (key v) = some v := by
  induction vs generalizing rows with
  | nil => exact hv.resolve_right List.not_mem_nil
  | cons w vs ih =>
    refine ih ?_ fun w' hw' => hother w' (List.mem_cons_of_mem _ hw')
    by_cases hk : key v = key w
    · left
      rw [Dict.get?_replace, if_pos hk, hother w List.mem_cons_self hk.symm]
    · rcases hv with hv | hv
      · left
        rw [Dict.get?_replace, if_neg hk]
        exact hv
      · refine .inr ((List.mem_cons.1 hv).resolve_left fun heq => hk ?_)
        rw [heq]

/-- **Nothing is lost** exactly when different rows have different keys. -/
theorem all_kept_iff (h : Keyed key rows) (vs : List ν) :
    (∀ v, v ∈ rows.values ∨ v ∈ vs → v ∈ (writeAll key rows vs).values) ↔
      Set.InjOn key {v | v ∈ rows.values ∨ v ∈ vs} := by
  have hend := h.writeAll vs
  constructor
  · intro hkept v hv w hw hkey
    have hgetv := hend.mem_values.1 (hkept v hv)
    have hgetw := hend.mem_values.1 (hkept w hw)
    rw [hkey, hgetw] at hgetv
    exact (Option.some.inj hgetv).symm
  · intro hinj v hv
    refine hend.mem_values.2 (write_kept ?_ fun w hw hkey => hinj (.inr hw) hv hkey)
    exact hv.imp_left h.mem_values.1

end LastWrite

/-!
## Rows and the places they belong to

A table holds rows under the keys of their values, each with the place that it belongs
to. `Rows t cells` says that it holds the cells of the places and nothing else.

* `Rows.write`: all values of a place are written anew, and none is taken away.
* `Rows.drop`: the rows of a place are deleted.
* `get?_write`: what a look-up sees after the values of a place are written.
* `get?_load`: the rows of a place, read back.
* `get?_foldl_at`: each row is read into its place, if that is there.
-/


/-- The table holds the cells of the places. -/
def Rows {ι κ ν : Type*} [DecidableEq κ] {key : ν → κ}
    (t : Index fun row : ι × ν => key row.2) (cells : ι → κ → Option ν) : Prop :=
  ∀ k j v, t.get? k = some (j, v) ↔ cells j k = some v

namespace Rows

variable {ι κ ν : Type*} [DecidableEq κ] {key : ν → κ}
  {t : Index fun row : ι × ν => key row.2} {cells cells' : ι → κ → Option ν}

theorem get?_write (t : Index fun row : ι × ν => key row.2) (i : ι) (x : Index key) (k : κ) :
    (x.values.foldl (fun t v => t.replace (i, v)) t).get? k =
      ((x.get? k).map (i, ·)).or (t.get? k) :=
  Index.get?_foldl x (f := fun v => (i, v)) (fun _ => rfl) Index.get?_replace t k

/-- **A place is written**: it keeps its keys, and its new keys belong to no other place. -/
theorem write (h : Rows t cells) {i : ι} {x : Index key} (hi : ∀ k, cells' i k = x.get? k)
    (hother : ∀ j, j ≠ i → ∀ k, cells' j k = cells j k)
    (hkeep : ∀ k, (cells i k).isSome → (x.get? k).isSome)
    (hnew : ∀ k, (x.get? k).isSome → (cells i k).isSome ∨ ∀ j, j ≠ i → cells j k = none) :
    Rows (x.values.foldl (fun t v => t.replace (i, v)) t) cells' := by
  intro k j v
  rw [get?_write]
  by_cases hj : j = i
  · subst hj
    rw [hi]
    cases hx : x.get? k with
    | some w => simp
    | none =>
      -- an old row of this place would be a key that it did not keep
      refine iff_of_false (fun hrow => ?_) fun hv => ?_
      · have hold := hkeep k (by rw [(h k j v).1 hrow]; rfl)
        rw [hx] at hold
        cases hold
      · cases hv
  · rw [hother j hj, ← h k j v]
    cases hx : x.get? k with
    | none => simp
    | some w =>
      refine iff_of_false (fun hrow => ?_) fun hrow => ?_
      · have hpair : (i, w) = (j, v) := Option.some.inj hrow
        exact hj (Prod.mk.inj hpair).1.symm
      · rcases hnew k (by rw [hx]; rfl) with hmine | hnone
        · obtain ⟨u, hu⟩ := Option.isSome_iff_exists.1 hmine
          have hpair := Option.some.inj (hrow.symm.trans ((h k i u).2 hu))
          exact hj (Prod.mk.inj hpair).1
        · have hcell := (h k j v).1 hrow
          rw [hnone j hj] at hcell
          cases hcell

variable [DecidableEq ι]

/-- **A place is deleted** with its rows. -/
theorem drop (h : Rows t cells) {i : ι} (hi : ∀ k, cells' i k = none)
    (hother : ∀ j, j ≠ i → ∀ k, cells' j k = cells j k) :
    Rows (t.filter fun row => row.1 ≠ i) cells' := by
  intro k j v
  rw [Index.get?_filter, Option.filter_eq_some_iff, h k j v, decide_eq_true_eq]
  by_cases hj : j = i
  · subst hj
    rw [hi]
    refine iff_of_false (fun hrow => hrow.2 rfl) fun hv => ?_
    cases hv
  · rw [hother j hj]
    exact and_iff_left hj

/-- **The rows of a place**, read back over the values that are there. -/
theorem get?_load (t : Index fun row : ι × ν => key row.2) (j : ι) (x : Index key) (k : κ) :
    ((t.values.filter fun row => row.1 = j).foldl (fun x row => x.put row.2) x).get? k =
      (((t.get? k).filter fun row => row.1 = j).map Prod.snd).or (x.get? k) := by
  rw [← Index.values_filter, ← Index.get?_filter]
  exact Index.get?_foldl (t.filter fun row => row.1 = j) (f := Prod.snd) (fun _ => rfl)
    Index.get?_put x k

theorem load_eq (h : Rows t cells) (j : ι) (k : κ) :
    ((t.get? k).filter fun row => row.1 = j).map Prod.snd = cells j k := by
  cases hc : cells j k with
  | some v =>
    rw [(h k j v).2 hc]
    simp
  | none =>
    rw [Option.map_eq_none_iff, Option.filter_eq_none_iff]
    rintro ⟨i, v⟩ hrow hi
    have hij : i = j := by simpa using hi
    have hcell := (h k i v).1 hrow
    rw [hij, hc] at hcell
    cases hcell

omit [DecidableEq ι] in
/-- **Rows read into their places**: each place takes its own rows in their order. -/
theorem get?_foldl_at {β : Type*} (load : Index key → κ × β → Index key) {f : ν → β → ν}
    (hf : ∀ v b, key (f v b) = key v)
    (hnone : ∀ mem row, mem.get? row.1 = none → load mem row = mem)
    (hsome : ∀ mem row v, mem.get? row.1 = some v → load mem row = mem.put (f v row.2))
    (rows : List (κ × β)) (j : κ) : ∀ mem, (rows.foldl load mem).get? j =
      (mem.get? j).map fun v => (rows.filter fun row => row.1 = j).foldl (fun v row => f v row.2) v := by
  induction rows with
  | nil =>
    intro mem
    exact Option.map_id'.symm
  | cons row rows ih =>
    intro mem
    rw [List.foldl_cons, ih]
    cases hrow : mem.get? row.1 with
    | none =>
      rw [hnone mem row hrow]
      by_cases hj : row.1 = j
      · subst hj
        simp [hrow]
      · simp [hj]
    | some v =>
      have hkey : key (f v row.2) = row.1 := (hf v row.2).trans (Index.key_of_get? hrow)
      rw [hsome mem row v hrow, Index.get?_put, hkey]
      by_cases hj : row.1 = j
      · subst hj
        simp [hrow]
      · simp [hj, Ne.symm hj]

end Rows

import Hermes.Lib.Dict

/-!
# A row for each object

A table keeps what is in memory, encoded, one row under each key.

* `Mirrors`: each key has the row of its value, and no other key has a row.
* `MirrorsBut`: one value has changed since its row was written.
* `MirrorsBut.write`: its row is written.
* `Mirrors.load`: what the rows are read back as.
-/

namespace WriteThrough

variable {κ ν δ ε : Type*} [DecidableEq κ]

/-- The rows, read one after the other into a dictionary. -/
def load (key : κ → ν → κ) (decode : δ → Except ε ν) (rows : List (κ × δ)) : Except ε (Dict κ ν) :=
  rows.foldlM (fun d row => (decode row.2).map fun v => d.insert (key row.1 v) v) ∅

/-- The table has the row of each value, and no other rows. -/
def Mirrors (encode : ν → δ) (rows : Dict κ δ) (live : κ → Option ν) : Prop :=
  ∀ k, rows.get? k = (live k).map encode

/-- The table has the row of each value but perhaps one. -/
def MirrorsBut (k : κ) (encode : ν → δ) (rows : Dict κ δ) (live : κ → Option ν) : Prop :=
  ∀ j, j ≠ k → rows.get? j = (live j).map encode

variable {encode : ν → δ} {decode : δ → Except ε ν} {rows : Dict κ δ} {live live' : κ → Option ν}
  {k : κ} {v : ν}

theorem Mirrors.but (h : Mirrors encode rows live) (k : κ) : MirrorsBut k encode rows live :=
  fun j _ => h j

/-- The value of a key changes. -/
theorem MirrorsBut.change (h : MirrorsBut k encode rows live) (hother : ∀ j, j ≠ k → live' j = live j) :
    MirrorsBut k encode rows live' := by
  intro j hj
  rw [hother j hj]
  exact h j hj

/-- **The row of a value is written.** -/
theorem MirrorsBut.write (h : MirrorsBut k encode rows live) (hown : live' k = some v)
    (hother : ∀ j, j ≠ k → live' j = live j) : Mirrors encode (rows.replace k (encode v)) live' := by
  intro j
  rw [Dict.get?_replace]
  by_cases hj : j = k
  · rw [if_pos hj, hj, hown, Option.map_some]
  · rw [if_neg hj, hother j hj]
    exact h j hj

theorem foldlM_insert {key : κ → ν → κ} : ∀ (rows : List (κ × δ)) (d : Dict κ ν),
    (∀ row ∈ rows, ∃ v, live row.1 = some v ∧ decode row.2 = .ok v ∧ key row.1 v = row.1) →
      ∃ d', rows.foldlM (fun d row => (decode row.2).map fun v => d.insert (key row.1 v) v) d = .ok d' ∧
        ∀ j, d'.get? j = if j ∈ rows.map Prod.fst then live j else d.get? j := by
  intro rows
  induction rows with
  | nil =>
    intro d _
    exact ⟨d, rfl, fun j => rfl⟩
  | cons row rows ih =>
    intro d hrows
    obtain ⟨v, hlive, hdecode, hkey⟩ := hrows row List.mem_cons_self
    obtain ⟨d', hd', hget⟩ := ih (d.insert row.1 v) fun r hr => hrows r (List.mem_cons_of_mem _ hr)
    refine ⟨d', ?_, fun j => ?_⟩
    · rw [List.foldlM_cons, hdecode]
      show rows.foldlM _ (d.insert (key row.1 v) v) = _
      rw [hkey]
      exact hd'
    · rw [hget, Dict.get?_insert, List.map_cons]
      by_cases hmem : j ∈ rows.map Prod.fst
      · rw [if_pos hmem, if_pos (List.mem_cons_of_mem _ hmem)]
      · rw [if_neg hmem]
        by_cases hj : j = row.1
        · rw [if_pos hj, if_pos (hj ▸ List.mem_cons_self), hj, hlive]
        · rw [if_neg hj, if_neg fun h => (List.mem_cons.1 h).elim hj hmem]

/-- **The rows are read back** as the values. -/
theorem Mirrors.load (key : κ → ν → κ) (decode : δ → Except ε ν) (h : Mirrors encode rows live)
    (hcodec : ∀ v, decode (encode v) = .ok v) (hkey : ∀ k v, live k = some v → key k v = k) :
    ∃ d, load key decode rows.entries = .ok d ∧ ∀ k, d.get? k = live k := by
  have hrows : ∀ row ∈ rows.entries,
      ∃ v, live row.1 = some v ∧ decode row.2 = .ok v ∧ key row.1 v = row.1 := by
    intro row hrow
    have hget := Dict.get?_of_mem hrow
    rw [h row.1] at hget
    obtain ⟨v, hv, hencode⟩ := Option.map_eq_some_iff.1 hget
    exact ⟨v, hv, hencode ▸ hcodec v, hkey row.1 v hv⟩
  obtain ⟨d, hd, hget⟩ := foldlM_insert rows.entries ∅ hrows
  refine ⟨d, hd, fun k => ?_⟩
  rw [hget]
  split
  · rfl
  · rename_i hnot
    have hnone : rows.get? k = none := Dict.get?_eq_none_iff.2 hnot
    rw [h k, Option.map_eq_none_iff] at hnone
    rw [hnone]
    rfl

end WriteThrough

import Hermes.Lib.Dict

/-!
# Lists under keys

A dictionary of lists, in which a key that is not there has the empty list.

* `bucket`, `push`: the list of a key, and one more value for it.
* `bucket_foldl_push`: values that are put into their lists one by one.
* `groupBy`: the values by their keys.
-/

namespace Dict

variable {κ α : Type*} [DecidableEq κ]

/-- `d.get(k, [])`. -/
def bucket (d : Dict κ (List α)) (k : κ) : List α := (d.get? k).getD []

/-- `d.setdefault(k, []).append(v)`. -/
def push (d : Dict κ (List α)) (k : κ) (v : α) : Dict κ (List α) := d.insert k (d.bucket k ++ [v])

/-- `d.setdefault(k, [])`. -/
def ensure (d : Dict κ (List α)) (k : κ) : Dict κ (List α) :=
  if (d.get? k).isSome then d else d.insert k []

/-- The values by their keys, each list in the order of the values. -/
def groupBy (f : α → κ) (vs : List α) : Dict κ (List α) := vs.foldl (fun d v => d.push (f v) v) ∅

@[simp] theorem bucket_empty (k : κ) : (∅ : Dict κ (List α)).bucket k = [] := rfl

theorem bucket_insert (d : Dict κ (List α)) (k j : κ) (vs : List α) :
    (d.insert k vs).bucket j = if j = k then vs else d.bucket j := by
  unfold bucket
  rw [get?_insert]
  split
  · rfl
  · rfl

theorem bucket_push (d : Dict κ (List α)) (k j : κ) (v : α) :
    (d.push k v).bucket j = d.bucket j ++ if k = j then [v] else [] := by
  unfold push
  rw [bucket_insert]
  by_cases h : j = k
  · rw [if_pos h, if_pos h.symm, h]
  · rw [if_neg h, if_neg (Ne.symm h), List.append_nil]

theorem bucket_ensure (d : Dict κ (List α)) (k j : κ) : (d.ensure k).bucket j = d.bucket j := by
  unfold ensure
  split
  · rfl
  · next h =>
    rw [bucket_insert]
    by_cases hj : j = k
    · have hnone : d.get? k = none := Option.not_isSome_iff_eq_none.1 h
      rw [if_pos hj, hj]
      unfold bucket
      rw [hnone]
      rfl
    · exact if_neg hj

theorem isSome_ensure (d : Dict κ (List α)) (k j : κ) :
    ((d.ensure k).get? j).isSome ↔ j = k ∨ (d.get? j).isSome := by
  unfold ensure
  split
  · next h =>
    refine (or_iff_right_of_imp ?_).symm
    rintro rfl
    exact h
  · rw [get?_insert]
    by_cases hj : j = k
    · simp [hj]
    · simp [hj]

/-- **Values put into their lists.** -/
theorem bucket_foldl_push (f : α → κ) (j : κ) (vs : List α) : ∀ d : Dict κ (List α),
    (vs.foldl (fun d v => d.push (f v) v) d).bucket j = d.bucket j ++ vs.filter fun v => f v = j := by
  induction vs with
  | nil =>
    intro d
    exact (List.append_nil _).symm
  | cons v vs ih =>
    intro d
    rw [List.foldl_cons, ih, bucket_push, List.append_assoc, List.filter_cons]
    by_cases h : f v = j
    · simp [h]
    · simp [h]

theorem bucket_groupBy (f : α → κ) (vs : List α) (j : κ) :
    (groupBy f vs).bucket j = vs.filter fun v => f v = j := by
  unfold groupBy
  rw [bucket_foldl_push, bucket_empty, List.nil_append]

theorem get?_groupBy (f : α → κ) (vs : List α) (j : κ) :
    (groupBy f vs).get? j =
      if ∃ v ∈ vs, f v = j then some (vs.filter fun v => f v = j) else none := by
  have hsome : ∀ d : Dict κ (List α),
      ((vs.foldl (fun d v => d.push (f v) v) d).get? j).isSome ↔
        (∃ v ∈ vs, f v = j) ∨ (d.get? j).isSome := by
    induction vs with
    | nil =>
      intro d
      simp
    | cons v vs ih =>
      intro d
      rw [List.foldl_cons, ih, push, get?_insert]
      by_cases h : j = f v
      · simp [h]
      · simp [h, Ne.symm h]
  have hbucket := bucket_groupBy f vs j
  unfold bucket at hbucket
  cases hget : (groupBy f vs).get? j with
  | some ws =>
    rw [hget] at hbucket
    have hex := (hsome ∅).1 (by unfold groupBy at hget; rw [hget]; rfl)
    rw [if_pos (hex.resolve_right (by simp)), ← hbucket]
    rfl
  | none =>
    rw [if_neg]
    intro hex
    have hget' := (hsome ∅).2 (.inl hex)
    unfold groupBy at hget
    rw [hget] at hget'
    cases hget'

theorem foldl_ensure (js : List κ) (j : κ) : ∀ d : Dict κ (List α),
    (js.foldl ensure d).bucket j = d.bucket j ∧
      (((js.foldl ensure d).get? j).isSome ↔ j ∈ js ∨ (d.get? j).isSome) := by
  induction js with
  | nil =>
    intro d
    simp
  | cons k js ih =>
    intro d
    obtain ⟨hbucket, hsome⟩ := ih (d.ensure k)
    rw [List.foldl_cons, hbucket, hsome, bucket_ensure, isSome_ensure, List.mem_cons]
    exact ⟨rfl, by tauto⟩

/-- The lists of a dictionary take the place of those that are there. -/
theorem bucket_foldl_replace (e : Dict κ (List α)) (j : κ) : ∀ d : Dict κ (List α),
    (e.entries.foldl (fun d kv => if (d.get? kv.1).isSome then d.insert kv.1 kv.2 else d)
        d).bucket j =
      if (d.get? j).isSome then (e.get? j).getD (d.bucket j) else d.bucket j := by
  have key : ∀ entries : List (κ × List α), (entries.map Prod.fst).Nodup → ∀ d : Dict κ (List α),
      (entries.foldl (fun d kv => if (d.get? kv.1).isSome then d.insert kv.1 kv.2 else d)
          d).bucket j =
        if (d.get? j).isSome then ((entries.find? (·.1 = j)).map Prod.snd).getD (d.bucket j)
        else d.bucket j := by
    intro entries
    induction entries with
    | nil =>
      intro _ d
      simp
    | cons kv entries ih =>
      intro hnodup d
      obtain ⟨hfresh, hnodup⟩ := List.nodup_cons.1 hnodup
      rw [List.foldl_cons, ih hnodup]
      by_cases hj : kv.1 = j
      · subst hj
        -- the other lists are for other keys
        have hnone : entries.find? (·.1 = kv.1) = none := by
          rw [List.find?_eq_none]
          intro kv' hkv' heq
          exact hfresh (of_decide_eq_true heq ▸ List.mem_map_of_mem hkv')
        by_cases hsome : (d.get? kv.1).isSome
        · simp [hsome, hnone, bucket_insert]
        · simp [hsome]
      · rw [List.find?_cons_of_neg (by simpa using hj)]
        by_cases hsome : (d.get? kv.1).isSome
        · rw [if_pos hsome, get?_insert, if_neg (Ne.symm hj), bucket_insert, if_neg (Ne.symm hj)]
        · rw [if_neg hsome]
  exact key e.entries e.nodup

end Dict

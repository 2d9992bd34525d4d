import Hermes.Lib.Index

/-!
# Values that are merged by name

A list that holds one value for each name. A value under a name that is there is merged into the
one that has it, in its place. A new name comes behind the others.

* `nodup_note`: no name is there twice.
* `map_note`: values that are read as others.
* `values_put_known`, `values_put_new`: the values of an index, where a value keeps its key when
  another one is merged into it.
-/

namespace Merging

variable {α β ν κ : Type*} [DecidableEq ν]

section

variable (name : α → ν) (merge : α → α → α)

/-- One value more. -/
def note (l : List α) (a : α) : List α :=
  if name a ∈ l.map name then l.map fun b => if name b = name a then merge b a else b
  else l ++ [a]

end

variable {name : α → ν} {merge : α → α → α} {l : List α} {a : α}

/-- **The names** stay, and the new one is behind them if it was not there. -/
theorem map_name_note (hname : ∀ b a, name (merge b a) = name b) :
    (note name merge l a).map name =
      if name a ∈ l.map name then l.map name else l.map name ++ [name a] := by
  unfold note
  split
  · rw [List.map_map]
    refine List.map_congr_left fun b _ => ?_
    rw [Function.comp_apply]
    split
    · exact hname b a
    · rfl
  · rw [List.map_append, List.map_singleton]

theorem nodup_note (hname : ∀ b a, name (merge b a) = name b) (h : (l.map name).Nodup) :
    ((note name merge l a).map name).Nodup := by
  rw [map_name_note hname]
  split
  · exact h
  · rename_i hnew
    exact List.nodup_append.2 ⟨h, List.nodup_singleton _, fun x hx y hy hxy => by
      rw [List.mem_singleton] at hy
      exact hnew (hy ▸ hxy ▸ hx)⟩

/-- **Values read as others**: merging them is merging what they are read as. -/
theorem map_note {name' : β → ν} {merge' : β → β → β} {f : α → β} (hname : ∀ a, name' (f a) = name a)
    (hmerge : ∀ b a, f (merge b a) = merge' (f b) (f a)) :
    (note name merge l a).map f = note name' merge' (l.map f) (f a) := by
  have hnames : (l.map f).map name' = l.map name := by
    rw [List.map_map]
    exact List.map_congr_left fun b _ => hname b
  unfold note
  rw [hnames, hname]
  split
  · rw [List.map_map, List.map_map]
    refine List.map_congr_left fun b _ => ?_
    simp only [Function.comp_apply, hname]
    split
    · exact hmerge b a
    · rfl
  · rw [List.map_append, List.map_singleton]

/-! ## Values under keys -/

variable [DecidableEq κ] {key : α → κ} {x : Index key}

variable (merge) in
/-- **A known name**: the value that has it takes the other one over, under its own key. -/
theorem values_put_known (hkey : ∀ b a, key (merge b a) = key b) (h : (x.values.map name).Nodup)
    {b : α} (hb : x.values.find? (fun c => name c = name a) = some b) :
    (x.put (merge b a)).values = note name merge x.values a := by
  have hmem := List.mem_of_find?_eq_some hb
  have hbname : name b = name a := by simpa using List.find?_some hb
  have hknown : name a ∈ x.values.map name := hbname ▸ List.mem_map_of_mem hmem
  have hthere : key (merge b a) ∈ x.keys := by
    rw [hkey, x.keys_eq]
    exact List.mem_map_of_mem hmem
  unfold note
  rw [if_pos hknown, Index.values_put_of_mem hthere]
  refine List.map_congr_left fun c hc => ?_
  -- the key of `b` and its name pick out the same value
  have hiff : key c = key (merge b a) ↔ name c = name a := by
    rw [hkey, ← hbname]
    constructor
    · intro hkeys
      rw [List.inj_on_of_nodup_map x.nodup_keys hc hmem hkeys]
    · intro hnames
      rw [List.inj_on_of_nodup_map h hc hmem hnames]
  by_cases hname : name c = name a
  · have hcb : c = b := List.inj_on_of_nodup_map h hc hmem (hname.trans hbname.symm)
    rw [if_pos (hiff.2 hname), if_pos hname, hcb]
  · rw [if_neg (fun hk => hname (hiff.1 hk)), if_neg hname]

/-- **A new name** comes in under a new key. -/
theorem values_put_new (hnone : x.values.find? (fun c => name c = name a) = none)
    (hfresh : key a ∉ x.keys) : (x.put a).values = note name merge x.values a := by
  have hnew : name a ∉ x.values.map name := by
    intro hmem
    obtain ⟨b, hb, hname⟩ := List.mem_map.1 hmem
    exact List.find?_eq_none.1 hnone b hb (decide_eq_true hname)
  unfold note
  rw [if_neg hnew, Index.values_put_new (Index.get?_eq_none_iff.2 hfresh)]

end Merging

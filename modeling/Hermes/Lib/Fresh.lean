import Mathlib.Data.List.Basic
import Mathlib.Tactic

/-!
# Ids that are not in use

A source of ids gives, for the ids in use, one that is not among them.

* `longer`: texts that are longer than all those in use.
-/

/-- A source of new ids. -/
structure IdSource (κ : Type*) where
  next : List κ → κ
  not_mem : ∀ used, next used ∉ used

namespace IdSource

/-- One more than the length of the longest text. -/
def room (used : List String) : ℕ := (used.map fun s => s.toList.length + 1).sum

theorem length_lt_room {used : List String} {s : String} (h : s ∈ used) :
    s.toList.length < room used :=
  List.single_le_sum (fun _ _ => Nat.zero_le _) _
    (List.mem_map_of_mem (f := fun s : String => s.toList.length + 1) h)

/-- A text that is longer than those in use. -/
def longer : IdSource String where
  next used := String.ofList (List.replicate (room used) 'x')
  not_mem used h := by
    have hlt := length_lt_room h
    rw [String.toList_ofList, List.length_replicate] at hlt
    exact lt_irrefl _ hlt

end IdSource

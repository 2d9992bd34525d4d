import Mathlib.Data.List.Sort
import Mathlib.Tactic

/-!
# Reading a log from a number on

The entries of a log have increasing numbers. Some of them are saved, in any order, and some are in
a queue.

* `eq_of_mem_iff`: lists in the order of the numbers are equal when they have the same entries.
* `insertionSort_eq`: entries that are sorted by their keys.
* `backlog_append_queued`: what is saved from a number on, and what is queued behind it, is the log
  from that number on.
-/

namespace Backlog

variable {α : Type*} (key : α → ℕ)

/-- The entries are in the order of their numbers. -/
def Increasing (l : List α) : Prop := l.Pairwise fun a b => key a < key b

/-- The entries above a number. -/
def above (n : ℕ) (l : List α) : List α := l.filter fun a => n < key a

/-- The entries above a number, in the order of their numbers. -/
def backlog (n : ℕ) (saved : List α) : List α :=
  (above key n saved).insertionSort fun a b => key a ≤ key b

/-- The largest number of a list, or `n` if it is larger. -/
def reach (n : ℕ) (l : List α) : ℕ := (l.map key).foldr max n

variable {key} {l l' saved queued log : List α} {n : ℕ}

theorem mem_above {a : α} : a ∈ above key n l ↔ a ∈ l ∧ n < key a := by
  unfold above
  rw [List.mem_filter, decide_eq_true_eq]

theorem mem_backlog {a : α} : a ∈ backlog key n saved ↔ a ∈ saved ∧ n < key a := by
  unfold backlog
  rw [List.mem_insertionSort, mem_above]

theorem Increasing.nodup (h : Increasing key l) : l.Nodup :=
  List.Pairwise.imp (fun hlt heq => absurd (heq ▸ hlt) (lt_irrefl _)) h

theorem Increasing.above (h : Increasing key l) : Increasing key (above key n l) :=
  List.Pairwise.filter _ h

/-- Lists in the order of the numbers, with the same entries. -/
theorem eq_of_mem_iff (hl : Increasing key l) (hl' : Increasing key l')
    (h : ∀ a, a ∈ l ↔ a ∈ l') : l = l' := by
  have hperm : l.Perm l' := (List.perm_ext_iff_of_nodup hl.nodup hl'.nodup).2 h
  refine hperm.eq_of_pairwise (fun a b _ _ hab hba => ?_) hl hl'
  exact absurd (hab.trans hba) (lt_irrefl _)

theorem le_reach : n ≤ reach key n l := by
  unfold reach
  induction l with
  | nil => exact le_rfl
  | cons a l ih => exact ih.trans (le_max_right _ _)

theorem key_le_reach {a : α} (h : a ∈ l) : key a ≤ reach key n l := by
  unfold reach
  induction l with
  | nil => cases h
  | cons b l ih =>
    rcases List.mem_cons.1 h with rfl | h
    · exact le_max_left _ _
    · exact (ih h).trans (le_max_right _ _)

theorem reach_le {m : ℕ} (hn : n ≤ m) (hl : ∀ a ∈ l, key a ≤ m) : reach key n l ≤ m := by
  unfold reach
  induction l with
  | nil => exact hn
  | cons a l ih =>
    rw [List.forall_mem_cons] at hl
    exact max_le hl.1 (ih hl.2)

/-- An increasing list has one entry for a number. -/
theorem Increasing.eq_of_key (h : Increasing key l) {a b : α} (ha : a ∈ l) (hb : b ∈ l)
    (hkey : key a = key b) : a = b := by
  have hmap : (l.map key).Pairwise (· < ·) := List.pairwise_map.2 h
  have hnodup : (l.map key).Nodup := hmap.imp fun hlt => hlt.ne
  exact List.inj_on_of_nodup_map hnodup ha hb hkey

/-- The entries in any order, sorted by their keys. -/
theorem insertionSort_eq {β : Type*} [LinearOrder β] (rank : α → β) (hperm : l.Perm l')
    (hl' : l'.Pairwise fun a b => rank a < rank b) :
    l.insertionSort (fun a b => rank a ≤ rank b) = l' := by
  have htotal : Std.Total fun a b : α => rank a ≤ rank b := ⟨fun a b => le_total _ _⟩
  have htrans : IsTrans α fun a b : α => rank a ≤ rank b := ⟨fun a b c => le_trans⟩
  have hsorted := List.pairwise_insertionSort (fun a b : α => rank a ≤ rank b) l
  have hall : (l.insertionSort fun a b => rank a ≤ rank b).Perm l' :=
    (List.perm_insertionSort _ _).trans hperm
  have hinj : ∀ a ∈ l', ∀ b ∈ l', rank a = rank b → a = b := by
    have hnodup : (l'.map rank).Nodup :=
      (List.pairwise_map.2 hl' : (l'.map rank).Pairwise (· < ·)).imp fun hlt => hlt.ne
    exact fun a ha b hb => List.inj_on_of_nodup_map hnodup ha hb
  refine hall.eq_of_pairwise (fun a b ha hb hab hba => ?_) hsorted (hl'.imp fun hlt => hlt.le)
  exact hinj a (hall.subset ha) b hb (le_antisymm hab hba)

/-- A backlog is in the order of the numbers. -/
theorem backlog_increasing (hlog : Increasing key log) (hsaved : ∀ a ∈ saved, a ∈ log)
    (hnodup : saved.Nodup) : Increasing key (backlog key n saved) := by
  have htotal : Std.Total fun a b : α => key a ≤ key b := ⟨fun a b => le_total _ _⟩
  have htrans : IsTrans α fun a b : α => key a ≤ key b := ⟨fun a b c => le_trans⟩
  have hsorted : (backlog key n saved).Pairwise fun a b => key a ≤ key b :=
    List.pairwise_insertionSort _ _
  have hdistinct : (backlog key n saved).Nodup :=
    (List.perm_insertionSort _ _).nodup_iff.2 (hnodup.filter _)
  have hmem : ∀ a ∈ backlog key n saved, a ∈ log := fun a ha => hsaved a (mem_backlog.1 ha).1
  have hboth : (backlog key n saved).Pairwise fun a b => key a ≤ key b ∧ a ≠ b :=
    List.pairwise_and_iff.2 ⟨hsorted, hdistinct⟩
  refine hboth.imp_of_mem fun {a b} ha hb hab => ?_
  rcases Nat.lt_or_ge (key a) (key b) with hlt | hge
  · exact hlt
  · exact absurd (hlog.eq_of_key (hmem a ha) (hmem b hb) (le_antisymm hab.1 hge)) hab.2

/-- **Replay and queue**: when each entry above a number is saved, or queued above all that is saved,
the backlog and what is queued above it are the log above that number. -/
theorem backlog_append_queued (hlog : Increasing key log) (hsaved : ∀ a ∈ saved, a ∈ log)
    (hnodup : saved.Nodup) (hqueued : queued.Sublist log)
    (hall : ∀ a ∈ log, n < key a → a ∈ saved ∨ a ∈ queued ∧ ∀ b ∈ saved, key b < key a) :
    backlog key n saved ++ above key (reach key n (backlog key n saved)) queued =
      above key n log := by
  have hleft : Increasing key (backlog key n saved ++
      above key (reach key n (backlog key n saved)) queued) := by
    refine List.pairwise_append.2 ⟨backlog_increasing hlog hsaved hnodup, ?_, ?_⟩
    · exact (List.Pairwise.sublist hqueued hlog).filter _
    · intro a ha b hb
      exact lt_of_le_of_lt (key_le_reach ha) (mem_above.1 hb).2
  refine eq_of_mem_iff hleft hlog.above fun a => ?_
  rw [List.mem_append, mem_backlog, mem_above, mem_above]
  constructor
  · rintro (⟨ha, hn⟩ | ⟨ha, hreach⟩)
    · exact ⟨hsaved a ha, hn⟩
    · exact ⟨hqueued.subset ha, le_reach.trans_lt hreach⟩
  · rintro ⟨ha, hn⟩
    rcases hall a ha hn with hin | ⟨hin, hover⟩
    · exact .inl ⟨hin, hn⟩
    · refine .inr ⟨hin, ?_⟩
      -- it is above all that is saved, so above the backlog
      have hreach : reach key n (backlog key n saved) ≤ key a - 1 := by
        refine reach_le (by omega) fun b hb => ?_
        have hlt := hover b (mem_backlog.1 hb).1
        omega
      omega

end Backlog

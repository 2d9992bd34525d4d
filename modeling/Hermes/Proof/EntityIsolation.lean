import Hermes.Spec.Persistence

/-!
# What one workspace writes, and another one reads

Rows are read by workspace and written by id, whatever the workspace: the row of an id goes over to
the workspace that saves it last. Markers are looked up by their key alone.

* `rowsOf_run`: the rows of a workspace after calls for another one.
* `marked_run`: the markers after any calls.
* `entity_isolation_iff`: when nothing that the other workspace reads has changed.
-/

namespace Hermes

namespace PersistenceRegistry

variable {ε δ : Type} {codec : EntityCodec ε δ} {w w' : String}

/-- The calls, one after the other. -/
def run (codec : EntityCodec ε δ) (s : PersistenceRegistry δ) (calls : List (PersistCall ε)) :
    PersistenceRegistry δ :=
  calls.foldl (PersistCall.apply codec) s

/-- The ids that are saved. -/
def savedIds (codec : EntityCodec ε δ) (calls : List (PersistCall ε)) : List String :=
  calls.filterMap fun
    | .save entity => some (codec.id entity)
    | .mark _ _ _ => none

/-- The keys that are marked. -/
def markedKeys (calls : List (PersistCall ε)) : List String :=
  calls.filterMap fun
    | .save _ => none
    | .mark key _ _ => some key

theorem rowsOf_save (s : PersistenceRegistry δ) {entity : ε} (h : codec.workspaceId entity ≠ w') :
    (s.save codec entity).rowsOf w' = (s.rowsOf w').filter fun row => row.id ≠ codec.id entity := by
  have hrow : decide ((row codec entity).workspaceId = w') = false := decide_eq_false h
  exact Index.filter_values_put (p := fun r : EntityRow δ => decide (r.workspaceId = w')) hrow
    s.entities

/-- **The rows of the other workspace** are those whose ids were not saved. -/
theorem rowsOf_run (hne : w ≠ w') (calls : List (PersistCall ε)) :
    ∀ s : PersistenceRegistry δ, (∀ call ∈ calls, call.workspace codec = w) →
      (run codec s calls).rowsOf w' =
        (s.rowsOf w').filter fun row => row.id ∉ savedIds codec calls := by
  induction calls with
  | nil =>
    intro s _
    simp [run, savedIds]
  | cons call calls ih =>
    intro s hw
    have hrest := ih (call.apply codec s) fun c hc => hw c (List.mem_cons_of_mem _ hc)
    have hcall := hw call List.mem_cons_self
    refine hrest.trans ?_
    cases call with
    | mark key workspaceId value => rfl
    | save entity =>
      have hother : codec.workspaceId entity ≠ w' := fun h => hne (hcall.symm.trans h)
      show ((s.save codec entity).rowsOf w').filter _ = _
      rw [rowsOf_save s hother, List.filter_filter]
      have hids : savedIds codec (.save entity :: calls) =
          codec.id entity :: savedIds codec calls := rfl
      refine List.filter_congr fun row _ => ?_
      rw [hids, Bool.eq_iff_iff]
      simp only [Bool.and_eq_true, decide_eq_true_eq, List.mem_cons, not_or]
      exact and_comm

/-- **The markers** after any calls. -/
theorem marked_run (codec : EntityCodec ε δ) (key : String) (calls : List (PersistCall ε)) :
    ∀ s : PersistenceRegistry δ, (run codec s calls).shared = s.shared ∧
      (((run codec s calls).markers.get? key).isSome ↔
        (s.markers.get? key).isSome ∨ key ∈ markedKeys calls) := by
  induction calls with
  | nil =>
    intro s
    simp [run, markedKeys]
  | cons call calls ih =>
    intro s
    obtain ⟨hshared, hmarked⟩ := ih (call.apply codec s)
    cases call with
    | save entity => exact ⟨hshared, hmarked⟩
    | mark key' workspaceId value =>
      refine ⟨hshared, hmarked.trans ?_⟩
      show ((s.markers.replace _).get? key).isSome ∨ _ ↔ _
      rw [Index.get?_replace]
      by_cases hkey : key = key'
      · simp [hkey, markedKeys]
      · simp [hkey, markedKeys]

/-- What the other workspace reads: its entities, their number, and the markers. -/
def SameReads (codec : EntityCodec ε δ) (w' : String) (s s' : PersistenceRegistry δ) : Prop :=
  (∀ entityType, s'.list codec w' entityType = s.list codec w' entityType) ∧
    s'.count w' = s.count w' ∧ ∀ key, s'.containsMarker key = s.containsMarker key

/-- **Isolation of workspaces**: calls for `w` change nothing that `w'` reads exactly when they save
no id of a row of `w'`, and mark no new key, if another connection sees that. -/
theorem entity_isolation_iff (codec : EntityCodec ε δ) (s : PersistenceRegistry δ)
    (calls : List (PersistCall ε)) (hne : w ≠ w')
    (hw : ∀ call ∈ calls, call.workspace codec = w) :
    SameReads codec w' s (run codec s calls) ↔
      (∀ row ∈ s.rowsOf w', row.id ∉ savedIds codec calls) ∧
        (s.shared = true → ∀ key ∈ markedKeys calls, (s.markers.get? key).isSome) := by
  have hrows := rowsOf_run hne calls s hw
  have hmarkers : (∀ key, (run codec s calls).containsMarker key = s.containsMarker key) ↔
      (s.shared = true → ∀ key ∈ markedKeys calls, (s.markers.get? key).isSome) := by
    constructor
    · intro hsame hshared key hkey
      have hlook := hsame key
      obtain ⟨hshared', hmarked⟩ := marked_run codec key calls s
      unfold containsMarker at hlook
      rw [hshared', hshared, Bool.true_and, Bool.true_and, hmarked.2 (.inr hkey)] at hlook
      exact hlook.symm
    · intro hall key
      obtain ⟨hshared', hmarked⟩ := marked_run codec key calls s
      unfold containsMarker
      rw [hshared']
      cases hshared : s.shared with
      | false => rfl
      | true =>
        rw [Bool.true_and, Bool.true_and, Bool.eq_iff_iff, hmarked]
        exact or_iff_left_of_imp (hall hshared key)
  unfold SameReads
  rw [hmarkers]
  constructor
  · rintro ⟨-, hcount, hmarked⟩
    refine ⟨fun row hrow => ?_, hmarked⟩
    unfold count at hcount
    rw [hrows] at hcount
    have hkept := List.length_filter_eq_length_iff.1 hcount row hrow
    exact of_decide_eq_true hkept
  · rintro ⟨hfree, hmarked⟩
    have hsame : (run codec s calls).rowsOf w' = s.rowsOf w' := by
      rw [hrows, List.filter_eq_self]
      exact fun row hrow => decide_eq_true (hfree row hrow)
    refine ⟨fun entityType => ?_, ?_, hmarked⟩
    · unfold list
      rw [hsame]
    · unfold count
      rw [hsame]

/-- An entity is its own text. -/
def plainCodec : EntityCodec (String × String) (String × String) where
  id e := e.1
  type _ := "KnowledgeNode"
  workspaceId e := e.2
  dump e := e
  rehydrate _ e := .ok e

/-- A workspace that saves ids of its own reads and writes apart from the other one. -/
theorem entity_isolation_own : SameReads plainCodec "beta"
    (run plainCodec { shared := true } [.save ("n1", "beta")])
    (run plainCodec (run plainCodec { shared := true } [.save ("n1", "beta")])
      [.save ("n2", "alpha")]) := by
  refine (entity_isolation_iff plainCodec _ [.save ("n2", "alpha")]
    (show "alpha" ≠ "beta" by decide) (by simp [PersistCall.workspace, plainCodec])).2 ?_
  refine ⟨?_, by simp [markedKeys]⟩
  decide

/-- A workspace saves the id of a row of the other one. -/
theorem id_taken_over : ¬ SameReads plainCodec "beta"
    (run plainCodec { shared := true } [.save ("n1", "beta")])
    (run plainCodec (run plainCodec { shared := true } [.save ("n1", "beta")])
      [.save ("n1", "alpha")]) := by
  rintro ⟨-, hcount, -⟩
  revert hcount
  decide

end PersistenceRegistry

end Hermes

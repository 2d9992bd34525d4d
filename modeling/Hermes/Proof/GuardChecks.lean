import Hermes.Lib.Fresh
import Hermes.Spec.Guard
import Hermes.Lib.Rows

/-!
# What a guard allows

* `check_iff`: a package is not sandboxed, or one of its permissions matches.
* `exists_denied`: a sandboxed package is denied some action.
* `restart_iff`: a new guard on the store of an old one decides as the old one did
  exactly when there was nothing to remember.
* `grant_keeps`: a grant revokes nothing from a sandboxed package; the first grant to
  a package that is not sandboxed leaves it that permission alone.
-/

namespace Hermes

namespace Guard

variable {g : Guard} {packageId action resource : String} {p : Permission}

/-- The permissions of a package: those of its policy, and its grants. -/
def permissions (g : Guard) (packageId : String) : List Permission :=
  ((g.policies.get? packageId).map (·.permissions)).getD [] ++ (g.grants.get? packageId).getD []

/-- The package has a policy or a grant. -/
def Sandboxed (g : Guard) (packageId : String) : Prop :=
  (g.policies.get? packageId).isSome ∨ (g.grants.get? packageId).getD [] ≠ []

instance (g : Guard) : DecidablePred g.Sandboxed := fun packageId =>
  inferInstanceAs (Decidable ((g.policies.get? packageId).isSome ∨
    (g.grants.get? packageId).getD [] ≠ []))

theorem permits_iff : p.permits action resource = true ↔
    p.action = action ∧ (p.resource = resource ∨ p.resource = "*") := by
  unfold Permission.permits
  rw [decide_eq_true_eq]

/-- **The decision of a guard.** -/
theorem check_iff : g.check packageId action resource = true ↔
    ¬g.Sandboxed packageId ∨ ∃ p ∈ g.permissions packageId, p.permits action resource = true := by
  unfold check Sandboxed permissions
  generalize (g.grants.get? packageId).getD [] = grants
  cases hp : g.policies.get? packageId with
  | some policy => simp [GuardPolicy.allows, or_and_right, exists_or]
  | none =>
    cases grants with
    | nil => simp
    | cons a as => simp

/-- **No list of permissions allows everything.** -/
theorem exists_denied (h : g.Sandboxed packageId) :
    ∃ action, ∀ resource, g.check packageId action resource = false := by
  -- an action that no permission names
  refine ⟨IdSource.longer.next ((g.permissions packageId).map (·.action)), fun resource => ?_⟩
  rw [← Bool.not_eq_true, check_iff]
  rintro (hnot | ⟨p, hp, hpermits⟩)
  · exact hnot h
  · have haction := (permits_iff.1 hpermits).1
    refine IdSource.longer.not_mem ((g.permissions packageId).map (·.action)) ?_
    rw [← haction]
    exact List.mem_map_of_mem (f := (·.action)) hp

/-! ## Grants -/

theorem permissions_grant (p : Permission) :
    (g.grant packageId p).permissions packageId = g.permissions packageId ++ [p] := by
  unfold permissions grant
  simp only [Dict.get?_insert_self, Option.getD_some, List.append_assoc]

theorem sandboxed_grant (p : Permission) : (g.grant packageId p).Sandboxed packageId := by
  right
  unfold grant
  simp

/-- **A grant** to a sandboxed package revokes nothing; the first grant to a package that is not
sandboxed leaves it nothing but that permission. -/
theorem grant_keeps (g : Guard) (packageId : String) (p : Permission) :
    (g.Sandboxed packageId → ∀ action resource, g.check packageId action resource = true →
      (g.grant packageId p).check packageId action resource = true) ∧
    (¬g.Sandboxed packageId → ∀ action resource,
      (g.grant packageId p).check packageId action resource = p.permits action resource) := by
  refine ⟨fun h action resource hcheck => ?_, fun h action resource => ?_⟩
  · obtain ⟨q, hq, hpermits⟩ := (check_iff.1 hcheck).resolve_left (not_not_intro h)
    rw [check_iff, permissions_grant]
    exact Or.inr ⟨q, List.mem_append_left _ hq, hpermits⟩
  · have hnone : g.permissions packageId = [] := by
      unfold Sandboxed at h
      rw [not_or, Bool.not_eq_true, Option.isSome_eq_false_iff, Option.isNone_iff_eq_none,
        not_not] at h
      unfold permissions
      rw [h.1, h.2]
      rfl
    rw [Bool.eq_iff_iff, check_iff, permissions_grant, hnone, List.nil_append]
    simp only [sandboxed_grant, not_true_eq_false, false_or, List.mem_singleton, exists_eq_left]

/-- A grant to a new package takes from it what it could do before. -/
theorem grant_revokes : ¬∀ (g : Guard) (packageId : String) (p : Permission)
    (action resource : String), g.check packageId action resource = true →
      (g.grant packageId p).check packageId action resource = true := by
  intro h
  have hlost := h {} "pkg" ⟨"execute", "plugin:x"⟩ "network" "*" (by decide)
  exact absurd hlost (by decide)

end Guard

/-! ## Restarts -/

namespace CapabilityGuard

/-- Two guards decide alike. -/
def DecidesAs (g g' : CapabilityGuard) : Prop :=
  ∀ principal action resource,
    g.check principal action resource = g'.check principal action resource

/-- The guard after a restart, on the same store. -/
def restarted (g : CapabilityGuard) : CapabilityGuard := init g.store

/-- The guard after a restart, on a store that is opened again. -/
def reopened (g : CapabilityGuard) : CapabilityGuard := init (g.store.map (·.reopened))

/-- A new guard allows everything. -/
theorem check_init (store : Option SecurityStore) (principal action resource : String) :
    (init store).check principal action resource = true := rfl

theorem sandboxed_apply (g : CapabilityGuard) (op : GuardOp) :
    (g.apply op).Sandboxed op.packageId := by
  cases op with
  | registerPolicy packageId policy =>
    left
    show ((g.toGuard.registerPolicy packageId policy).policies.get? packageId).isSome = true
    unfold Guard.registerPolicy
    simp
  | grant packageId permission => exact Guard.sandboxed_grant permission

/-- **Decisions survive a restart**, on the same store and on one that is opened again, exactly
when no policy was registered and nothing was granted. -/
theorem restart_iff (store : SecurityStore) (history : List GuardOp) :
    ((history.foldl apply (init (some store))).DecidesAs
        (history.foldl apply (init (some store))).restarted ∧
      (history.foldl apply (init (some store))).DecidesAs
        (history.foldl apply (init (some store))).reopened) ↔ history = [] := by
  constructor
  · rintro ⟨hsame, -⟩
    rcases List.eq_nil_or_concat history with hnil | ⟨before, op, rfl⟩
    · exact hnil
    · -- the last operation sandboxes its package, and the new guard denies nothing
      have hsandboxed := sandboxed_apply (before.foldl apply (init (some store))) op
      obtain ⟨action, hdenied⟩ := Guard.exists_denied hsandboxed
      have hallowed := hsame op.packageId action "*"
      rw [List.concat_eq_append, List.foldl_append] at hallowed
      have hnew := hallowed.trans (check_init _ op.packageId action "*")
      exact absurd ((hdenied "*").symm.trans hnew) Bool.false_ne_true
  · rintro rfl
    exact ⟨fun _ _ _ => rfl, fun _ _ _ => rfl⟩

/-- The policy of `pkg` does not let it use the network, but after a restart it may. -/
theorem denial_forgotten :
    ¬∀ (store : SecurityStore) (history : List GuardOp),
      (history.foldl apply (init (some store))).DecidesAs
          (history.foldl apply (init (some store))).restarted ∧
        (history.foldl apply (init (some store))).DecidesAs
          (history.foldl apply (init (some store))).reopened := by
  intro h
  obtain ⟨hsame, -⟩ := h {} [.registerPolicy "pkg" { permissions := [⟨"execute", "plugin:x"⟩] }]
  have hallowed := hsame "pkg" "network" "*"
  exact absurd hallowed (by decide)

end CapabilityGuard

/-!
## Grants after a restart

A grant is kept in memory in the list of its package, and in the database in a row whose `id` is its
action, its resource and its package, joined by colons.

* `mem_getGrant_reopen`: what a store reads when it is opened.
* `db_putGrants`, `mem_getGrant_putGrants`: what is in the database and in memory after some grants.
* `keyed_putGrants`: the database that is left can be opened again.
* `grants_survive_iff`: nothing is lost exactly when different grants have different ids.
-/

open LastWrite

/-- The `id` of the row of a grant. -/
def grantId (g : String × Permission) : String := g.2.action ++ ":" ++ g.2.resource ++ ":" ++ g.1

/-- Each row of the table of grants is under its `id`. -/
def SecurityDb.Keyed (db : SecurityDb) : Prop := LastWrite.Keyed grantId db.grants

namespace SecurityStore

variable {s : SecurityStore} {packageId : String} {p : Permission}

/-- The grants are put into a store, one after the other. -/
def putGrants (s : SecurityStore) (gs : List (String × Permission)) : SecurityStore :=
  gs.foldl (fun s g => s.putGrant g.1 g.2) s

/-- The packages have the same sets of permissions. -/
def SameGrants (s t : SecurityStore) : Prop :=
  ∀ packageId p, p ∈ s.getGrant packageId ↔ p ∈ t.getGrant packageId

/-! ## Memory -/

theorem mem_append {grants : Dict String (List Permission)} {g : String × Permission} :
    p ∈ ((append grants g.1 g.2).get? packageId).getD [] ↔
      p ∈ (grants.get? packageId).getD [] ∨ (packageId, p) = g := by
  unfold append
  rw [Dict.get?_insert]
  split
  · rename_i hpackage
    rw [Option.getD_some, hpackage, List.mem_append, List.mem_singleton, Prod.ext_iff]
    simp only [true_and]
  · rename_i hpackage
    refine (or_iff_left fun heq => hpackage ?_).symm
    rw [← heq]

theorem mem_foldl_append (gs : List (String × Permission)) :
    ∀ {grants : Dict String (List Permission)},
      p ∈ ((gs.foldl (fun m g => append m g.1 g.2) grants).get? packageId).getD [] ↔
        p ∈ (grants.get? packageId).getD [] ∨ (packageId, p) ∈ gs := by
  induction gs with
  | nil => intro grants; simp
  | cons g gs ih =>
    intro grants
    rw [List.foldl_cons, ih, mem_append, List.mem_cons, or_assoc]

/-- **What is read from the database.** -/
theorem mem_getGrant_reopen {db : SecurityDb} :
    p ∈ (reopen db).getGrant packageId ↔ (packageId, p) ∈ db.grants.values := by
  unfold getGrant reopen
  simp only [mem_foldl_append]
  exact or_iff_right List.not_mem_nil

/-- **What is in memory** after some grants. -/
theorem mem_getGrant_putGrants (gs : List (String × Permission)) : ∀ {s : SecurityStore},
    p ∈ (s.putGrants gs).getGrant packageId ↔
      p ∈ s.getGrant packageId ∨ (packageId, p) ∈ gs := by
  induction gs with
  | nil => intro s; simp [putGrants]
  | cons g gs ih =>
    intro s
    have hput : p ∈ (s.putGrant g.1 g.2).getGrant packageId ↔
        p ∈ s.getGrant packageId ∨ (packageId, p) = g := mem_append
    show p ∈ ((s.putGrant g.1 g.2).putGrants gs).getGrant packageId ↔ _
    rw [ih, hput, List.mem_cons, or_assoc]

/-! ## The database -/

/-- **What is in the database** after some grants. -/
theorem db_putGrants (gs : List (String × Permission)) : ∀ {s : SecurityStore} {db : SecurityDb},
    s.db = some db →
      (s.putGrants gs).db = some { db with grants := writeAll grantId db.grants gs } := by
  induction gs with
  | nil => intro s db hdb; exact hdb
  | cons g gs ih =>
    intro s db hdb
    refine @ih (s.putGrant g.1 g.2) { db with grants := db.grants.replace (grantId g) g } ?_
    unfold putGrant
    rw [hdb]
    rfl

/-- A store leaves the rows under their ids. -/
theorem keyed_putGrants {db : SecurityDb} (hdb : db.Keyed) (gs : List (String × Permission)) :
    ∃ db', ((reopen db).putGrants gs).db = some db' ∧ db'.Keyed :=
  ⟨_, db_putGrants gs rfl, hdb.writeAll gs⟩

theorem keyed_empty : SecurityDb.Keyed {} := LastWrite.keyed_empty grantId

/-- **Grants survive a restart** exactly when no two different ones, in the database before or put
into it, have the same id. -/
theorem grants_survive_iff {db : SecurityDb} (hdb : db.Keyed) (gs : List (String × Permission)) :
    SameGrants ((reopen db).putGrants gs).reopened ((reopen db).putGrants gs) ↔
      Set.InjOn grantId {g | g ∈ db.grants.values ∨ g ∈ gs} := by
  have hreopened : ((reopen db).putGrants gs).reopened =
      reopen { db with grants := writeAll grantId db.grants gs } := by
    unfold reopened
    rw [db_putGrants gs rfl]
    rfl
  rw [hreopened, ← all_kept_iff hdb gs]
  have hmemory : ∀ packageId p, p ∈ ((reopen db).putGrants gs).getGrant packageId ↔
      (packageId, p) ∈ db.grants.values ∨ (packageId, p) ∈ gs := by
    intro packageId p
    rw [mem_getGrant_putGrants, mem_getGrant_reopen]
  unfold SameGrants
  simp only [mem_getGrant_reopen, hmemory]
  constructor
  · exact fun hsame g hg => (hsame g.1 g.2).2 hg
  · exact fun hkept packageId p => ⟨mem_of_mem_writeAll, hkept (packageId, p)⟩

theorem grants_survive_two : SameGrants
    ((reopen {}).putGrants [("a", ⟨"read", "file"⟩), ("b", ⟨"read", "file"⟩)]).reopened
    ((reopen {}).putGrants [("a", ⟨"read", "file"⟩), ("b", ⟨"read", "file"⟩)]) := by
  refine (grants_survive_iff keyed_empty _).2 ?_
  rintro g (hg | hg) h (hh | hh) hkey
  · cases hg
  · cases hg
  · cases hh
  · simp only [List.mem_cons, List.not_mem_nil, or_false] at hg hh
    rcases hg with rfl | rfl <;> rcases hh with rfl | rfl
    · rfl
    · exact absurd hkey (by decide)
    · exact absurd hkey (by decide)
    · rfl

/-- Reading `file:tmp` for `pkg`, and `file` for `tmp:pkg`: the second row takes the place of the
first one. -/
theorem grant_lost : ¬ SameGrants
    ((reopen {}).putGrants [("pkg", ⟨"read", "file:tmp"⟩), ("tmp:pkg", ⟨"read", "file"⟩)]).reopened
    ((reopen {}).putGrants [("pkg", ⟨"read", "file:tmp"⟩), ("tmp:pkg", ⟨"read", "file"⟩)]) := by
  intro hsame
  have hlost := (hsame "pkg" ⟨"read", "file:tmp"⟩).2 (by decide)
  revert hlost
  decide

end SecurityStore

end Hermes

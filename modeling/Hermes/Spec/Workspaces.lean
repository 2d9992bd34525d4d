import Hermes.Spec.Persistence

/-!
# Workspaces (`kernel/workspace.py`)

The workspaces of a `WorkspaceRegistry`, and any number of registries that share a
`PersistenceRegistry`. Calls come one after the other; `uuid` is the id that a new workspace gets.
How a workspace is written and read is a parameter. Left out: `get` and `get_by_name`, and the fields
of `BaseEntity` that nothing here reads.
-/

namespace Hermes

/-- A `Workspace`. -/
structure Workspace where
  id : String
  name : String
  ownerId : String := ""
  settings : List (String × Value) := []
  updatedAt : String := ""
  workspaceId : String := "default"

/-- How a `PersistenceRegistry` writes and reads workspaces. -/
def Workspace.codec {δ : Type} (dump : Workspace → δ)
    (rehydrate : String → δ → Except Exc Workspace) : EntityCodec Workspace δ where
  id := Workspace.id
  type _ := "Workspace"
  workspaceId := Workspace.workspaceId
  dump := dump
  rehydrate := rehydrate

/-- A `WorkspaceRegistry`. -/
structure WorkspaceRegistry where
  workspaces : Index Workspace.id := ∅
  activeId : Option String := none

namespace WorkspaceRegistry

variable (r : WorkspaceRegistry)

/-- A new workspace, which is active if none is. -/
def add (ws : Workspace) : WorkspaceRegistry where
  workspaces := r.workspaces.put ws
  activeId := r.activeId.or (some ws.id)

/-- `_ensure_default`. -/
def ensureDefault (uuid now : String) : WorkspaceRegistry :=
  if r.workspaces.values = [] then
    r.add { id := uuid, name := "default", ownerId := "system", updatedAt := now }
  else r

/-- `create`. -/
def create (name ownerId : String) (settings : Option (List (String × Value))) (uuid now : String) :
    Except Exc Workspace × WorkspaceRegistry :=
  if r.workspaces.values.any fun w => w.name = name then
    (.error ⟨.valueError, "workspace name " ++ pyRepr name ++ " already exists"⟩, r)
  else
    let ws : Workspace :=
      { id := uuid, name, ownerId, settings := settings.getD [], updatedAt := now }
    (.ok ws, r.add ws)

/-- `list`. -/
def list (uuid now : String) : List Workspace × WorkspaceRegistry :=
  ((r.ensureDefault uuid now).workspaces.values, r.ensureDefault uuid now)

/-- `update`: the fields that are given. -/
def update (id : String) (name ownerId : Option String) (settings : Option (List (String × Value)))
    (now : String) : Except Exc (Option Workspace) × WorkspaceRegistry :=
  match r.workspaces.get? id with
  | none => (.ok none, r)
  | some ws =>
    if name.any fun newName => r.workspaces.values.any fun w => w.name = newName ∧ w.id ≠ id then
      (.error ⟨.valueError, "workspace name " ++ pyRepr (name.getD "") ++ " already exists"⟩, r)
    else
      let updated : Workspace :=
        { ws with
          name := name.getD ws.name
          ownerId := ownerId.getD ws.ownerId
          settings := settings.getD ws.settings
          updatedAt := now }
      (.ok (some updated), { r with workspaces := r.workspaces.put updated })

/-- `delete`. -/
def delete (id : String) : Bool × WorkspaceRegistry :=
  if (r.workspaces.get? id).isSome then
    (true,
      { workspaces := r.workspaces.erase id
        activeId := if r.activeId = some id then none else r.activeId })
  else (false, r)

/-- `set_active`. -/
def setActive (workspaceId : String) : Except Exc (Option String) × WorkspaceRegistry :=
  if (r.workspaces.get? workspaceId).isSome then
    (.ok r.activeId, { r with activeId := some workspaceId })
  else (.error ⟨.valueError, "workspace " ++ pyRepr workspaceId ++ " not found"⟩, r)

variable {δ : Type} (codec : EntityCodec Workspace δ)

/-- `save_to_db`. -/
def saveToDb (db : PersistenceRegistry δ) : ℕ × PersistenceRegistry δ :=
  (r.workspaces.values.length, r.workspaces.values.foldl (fun db w => db.save codec w) db)

/-- What `load_from_db` does with the workspaces that it has read. -/
def merge (rows : List Workspace) : WorkspaceRegistry where
  workspaces := rows.foldl Index.put r.workspaces
  activeId := r.activeId.or (rows.foldl Index.put r.workspaces).keys.head?

/-- `load_from_db`. -/
def loadFromDb (db : PersistenceRegistry δ) : Except Exc ℕ × WorkspaceRegistry :=
  match db.listAll codec (some "Workspace") with
  | .ok rows => (.ok rows.length, r.merge rows)
  | .error e => (.error e, r)

/-- Workspaces of one name are one workspace, and the active one is there. -/
structure Sound : Prop where
  names : ∀ v ∈ r.workspaces.values, ∀ w ∈ r.workspaces.values, v.name = w.name → v.id = w.id
  active : ∀ id ∈ r.activeId, id ∈ r.workspaces.keys

end WorkspaceRegistry

/-- A call on a registry. -/
inductive WorkspaceCall where
  | create (name ownerId : String) (settings : Option (List (String × Value))) (uuid now : String)
  | update (id : String) (name ownerId : Option String) (settings : Option (List (String × Value)))
      (now : String)
  | delete (id : String)
  | setActive (workspaceId : String)
  | list (uuid now : String)
  | saveToDb
  | loadFromDb

/-- Registries and the database that they share. -/
structure SharedWorkspaces (δ : Type) where
  registries : ℕ → WorkspaceRegistry := fun _ => {}
  db : PersistenceRegistry δ

namespace SharedWorkspaces

variable {δ : Type} (codec : EntityCodec Workspace δ)

/-- The `n`-th registry is `r` now. -/
def set (s : SharedWorkspaces δ) (n : ℕ) (r : WorkspaceRegistry) : SharedWorkspaces δ :=
  { s with registries := Function.update s.registries n r }

/-- A call on the `n`-th registry. -/
def step (s : SharedWorkspaces δ) : ℕ × WorkspaceCall → SharedWorkspaces δ
  | (n, .create name ownerId settings uuid now) =>
    s.set n ((s.registries n).create name ownerId settings uuid now).2
  | (n, .update id name ownerId settings now) =>
    s.set n ((s.registries n).update id name ownerId settings now).2
  | (n, .delete id) => s.set n ((s.registries n).delete id).2
  | (n, .setActive workspaceId) => s.set n ((s.registries n).setActive workspaceId).2
  | (n, .list uuid now) => s.set n ((s.registries n).list uuid now).2
  | (n, .saveToDb) => { s with db := ((s.registries n).saveToDb codec s.db).2 }
  | (n, .loadFromDb) => s.set n ((s.registries n).loadFromDb codec s.db).2

/-- Every registry is sound. -/
def Sound (s : SharedWorkspaces δ) : Prop := ∀ n, (s.registries n).Sound

/-- What is loaded has pairwise distinct names, and none of them is the name of another workspace of
the registry. -/
def Mergeable (s : SharedWorkspaces δ) : ℕ × WorkspaceCall → Prop
  | (n, .loadFromDb) => ∀ rows, s.db.listAll codec (some "Workspace") = .ok rows →
    (∀ v ∈ rows, ∀ w ∈ rows, v.name = w.name → v.id = w.id) ∧
      ∀ v ∈ rows, ∀ w ∈ (s.registries n).workspaces.values, w.id ∉ rows.map Workspace.id →
        v.name ≠ w.name
  | _ => True

end SharedWorkspaces

end Hermes

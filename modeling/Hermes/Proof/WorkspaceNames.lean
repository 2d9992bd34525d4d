import Hermes.Lib.History
import Hermes.Spec.Workspaces

/-!
# The names of workspaces

`create` and `update` look whether a name is taken. A workspace that is loaded is put under its id,
whatever its name.

* `merge_sound_iff`: what is merged into a sound registry.
* `listAll_ids`: what is read from the database has pairwise distinct ids.
* `sound_step_iff`, `workspaces_sound_iff`: steps and runs of registries that share a database.
-/

namespace Hermes

open History

namespace WorkspaceRegistry

variable {r : WorkspaceRegistry}

theorem sound_new : ({} : WorkspaceRegistry).Sound where
  names v hv := by cases hv
  active id hid := by cases hid

/-- A workspace with a name that no other has. -/
theorem Sound.put (h : r.Sound) {ws : Workspace}
    (hname : ∀ w ∈ r.workspaces.values, w.id ≠ ws.id → w.name ≠ ws.name) {activeId : Option String}
    (hactive : ∀ id ∈ activeId, id = ws.id ∨ id ∈ r.workspaces.keys) :
    Sound { workspaces := r.workspaces.put ws, activeId } where
  names := by
    intro v hv w hw hvw
    rcases Index.mem_values_put.1 hv with rfl | ⟨hvold, hvne⟩
    · rcases Index.mem_values_put.1 hw with rfl | ⟨hwold, hwne⟩
      · rfl
      · exact absurd hvw.symm (hname w hwold hwne)
    · rcases Index.mem_values_put.1 hw with rfl | ⟨hwold, -⟩
      · exact absurd hvw (hname v hvold hvne)
      · exact h.names v hvold w hwold hvw
  active := by
    intro id hid
    rw [Index.mem_keys, Index.get?_put]
    split
    · rfl
    · rename_i hne
      exact Index.mem_keys.1 ((hactive id hid).resolve_left hne)

/-- A new workspace. -/
theorem Sound.add (h : r.Sound) {ws : Workspace}
    (hname : ∀ w ∈ r.workspaces.values, w.name ≠ ws.name) : (r.add ws).Sound := by
  refine h.put (fun w hw _ => hname w hw) fun id hid => ?_
  rcases Option.or_eq_some_iff.1 (Option.mem_def.1 hid) with hid | ⟨-, hid⟩
  · exact .inr (h.active id hid)
  · exact .inl (Option.some.inj hid).symm

theorem Sound.create (h : r.Sound) (name ownerId : String)
    (settings : Option (List (String × Value))) (uuid now : String) :
    (r.create name ownerId settings uuid now).2.Sound := by
  unfold WorkspaceRegistry.create
  split
  · exact h
  · rename_i hfree
    refine h.add fun w hw hname => hfree ?_
    exact List.any_eq_true.2 ⟨w, hw, decide_eq_true hname⟩

theorem Sound.list (h : r.Sound) (uuid now : String) : (r.list uuid now).2.Sound := by
  show (r.ensureDefault uuid now).Sound
  unfold ensureDefault
  split
  · rename_i hempty
    refine h.add fun w hw => ?_
    rw [hempty] at hw
    cases hw
  · exact h

theorem Sound.update (h : r.Sound) (id : String) (name ownerId : Option String)
    (settings : Option (List (String × Value))) (now : String) :
    (r.update id name ownerId settings now).2.Sound := by
  unfold WorkspaceRegistry.update
  cases hget : r.workspaces.get? id with
  | none => exact h
  | some ws =>
    have hid : ws.id = id := Index.key_of_get? hget
    have hmem : ws ∈ r.workspaces.values := Index.mem_values.2 (by rw [hid]; exact hget)
    dsimp only
    split
    · exact h
    · rename_i hfree
      refine h.put (fun w hw hne hname => ?_) fun id' hid' => .inr (h.active id' hid')
      cases name with
      | none => exact hne (h.names w hw ws hmem hname)
      | some newName =>
        refine hfree (List.any_eq_true.2 ⟨w, hw, decide_eq_true ⟨hname, ?_⟩⟩)
        rw [← hid]
        exact hne

theorem Sound.delete (h : r.Sound) (id : String) : (r.delete id).2.Sound := by
  unfold WorkspaceRegistry.delete
  split
  · have hold : ∀ w ∈ (r.workspaces.erase id).values, w ∈ r.workspaces.values := by
      intro w hw
      rw [Index.mem_values, Index.get?_erase] at hw
      split at hw
      · cases hw
      · exact Index.mem_values.2 hw
    refine ⟨fun v hv w hw => h.names v (hold v hv) w (hold w hw), fun other hother => ?_⟩
    dsimp only at hother ⊢
    split at hother
    · cases hother
    · rename_i hne
      have hother' : other ≠ id := by
        rintro rfl
        exact hne hother
      rw [Index.mem_keys, Index.get?_erase, if_neg hother']
      exact Index.mem_keys.1 (h.active other hother)
  · exact h

theorem Sound.setActive (h : r.Sound) (workspaceId : String) :
    (r.setActive workspaceId).2.Sound := by
  unfold WorkspaceRegistry.setActive
  split
  · rename_i hthere
    refine ⟨h.names, fun id hid => ?_⟩
    rw [← Option.some.inj (Option.mem_def.1 hid)]
    exact Index.mem_keys.2 hthere
  · exact h

/-- **What is merged** into a sound registry leaves it sound exactly when names stay distinct. -/
theorem merge_sound_iff (h : r.Sound) {rows : List Workspace} (hids : (rows.map Workspace.id).Nodup) :
    (r.merge rows).Sound ↔ (∀ v ∈ rows, ∀ w ∈ rows, v.name = w.name → v.id = w.id) ∧
      ∀ v ∈ rows, ∀ w ∈ r.workspaces.values, w.id ∉ rows.map Workspace.id → v.name ≠ w.name := by
  have hmem := Index.mem_values_overwrite hids r.workspaces
  constructor
  · rintro ⟨hnames, -⟩
    refine ⟨fun v hv w hw => ?_, fun v hv w hw hout hname => hout ?_⟩
    · exact hnames v ((hmem v).2 (.inl hv)) w ((hmem w).2 (.inl hw))
    · rw [← hnames v ((hmem v).2 (.inl hv)) w ((hmem w).2 (.inr ⟨hw, hout⟩)) hname]
      exact List.mem_map_of_mem hv
  · rintro ⟨hrows, hothers⟩
    refine ⟨fun v hv w hw hname => ?_, fun id hid => ?_⟩
    · rcases (hmem v).1 hv with hv | ⟨hv, hvout⟩
      · rcases (hmem w).1 hw with hw | ⟨hw, hwout⟩
        · exact hrows v hv w hw hname
        · exact absurd hname (hothers v hv w hw hwout)
      · rcases (hmem w).1 hw with hw | ⟨hw, -⟩
        · exact absurd hname.symm (hothers w hw v hv hvout)
        · exact h.names v hv w hw hname
    · rcases Option.or_eq_some_iff.1 (Option.mem_def.1 hid) with hid | ⟨-, hid⟩
      · exact Index.mem_keys_overwrite hids (h.active id hid)
      · exact List.mem_of_head? hid

end WorkspaceRegistry

namespace SharedWorkspaces

variable {δ : Type} {codec : EntityCodec Workspace δ} {s : SharedWorkspaces δ}

/-- What is read as a workspace has the id of its row. -/
def Readable (codec : EntityCodec Workspace δ) (db : PersistenceRegistry δ) : Prop :=
  ∀ row ∈ db.entities.values, row.type = "Workspace" →
    ∀ w, codec.rehydrate row.type row.data = .ok w → w.id = row.id

theorem mapM_ids {rows : List (EntityRow δ)}
    (hread : ∀ row ∈ rows, ∀ w, codec.rehydrate row.type row.data = .ok w → w.id = row.id) :
    ∀ {ws}, rows.mapM (fun row => codec.rehydrate row.type row.data) = .ok ws →
      ws.map Workspace.id = rows.map EntityRow.id := by
  induction rows with
  | nil =>
    intro ws h
    cases h
    rfl
  | cons row rows ih =>
    intro ws h
    rw [List.mapM_cons] at h
    cases hw : codec.rehydrate row.type row.data with
    | error e =>
      rw [hw] at h
      cases h
    | ok w =>
      rw [hw] at h
      cases hws : rows.mapM fun row => codec.rehydrate row.type row.data with
      | error e =>
        rw [hws] at h
        cases h
      | ok ws' =>
        rw [hws] at h
        cases h
        rw [List.map_cons, List.map_cons, hread row List.mem_cons_self w hw,
          ih (fun row' hrow' => hread row' (List.mem_cons_of_mem _ hrow')) hws]

/-- **What is read** has pairwise distinct ids. -/
theorem listAll_ids {db : PersistenceRegistry δ} (hdb : Readable codec db) {ws : List Workspace}
    (h : db.listAll codec (some "Workspace") = .ok ws) : (ws.map Workspace.id).Nodup := by
  have htruthy : truthy (some "Workspace") = some "Workspace" := rfl
  unfold PersistenceRegistry.listAll at h
  simp only [htruthy] at h
  have hperm := List.mergeSort_perm (db.entities.values.filter fun row => row.type = "Workspace")
    fun a b => decide (a.id ≤ b.id)
  rw [mapM_ids (fun row hrow => ?_) h, (hperm.map EntityRow.id).nodup_iff]
  · exact (db.entities.nodup_keys).sublist (List.filter_sublist.map EntityRow.id)
  · obtain ⟨hmem, htype⟩ := List.mem_filter.1 (hperm.mem_iff.1 hrow)
    exact hdb row hmem (of_decide_eq_true htype)

/-- Workspaces that are saved are readable. -/
theorem Readable.saveAll
    (hid : ∀ w w', codec.rehydrate (codec.type w) (codec.dump w) = .ok w' → w'.id = codec.id w)
    (ws : List Workspace) : ∀ {db : PersistenceRegistry δ}, Readable codec db →
      Readable codec (ws.foldl (fun db w => db.save codec w) db) := by
  induction ws with
  | nil => intro db h; exact h
  | cons w ws ih =>
    intro db h
    refine ih fun row hrow htype w' hw' => ?_
    rcases Index.mem_values_put.1 hrow with rfl | ⟨hrow, -⟩
    · exact hid w w' hw'
    · exact h row hrow htype w' hw'

/-- Only one registry changes. -/
theorem sound_set_iff (h : s.Sound) {n : ℕ} {r : WorkspaceRegistry} :
    (s.set n r).Sound ↔ r.Sound := by
  constructor
  · intro hall
    have hn : (Function.update s.registries n r n).Sound := hall n
    rwa [Function.update_self] at hn
  · intro hr m
    unfold set
    dsimp only
    by_cases hmn : m = n
    · subst hmn
      rwa [Function.update_self]
    · rw [Function.update_of_ne hmn]
      exact h m

/-- **A step keeps the registries sound** exactly when what it loads can be merged. -/
theorem sound_step_iff (hdb : Readable codec s.db) (h : s.Sound) (c : ℕ × WorkspaceCall) :
    (s.step codec c).Sound ↔ s.Mergeable codec c := by
  obtain ⟨n, c⟩ := c
  have hn := h n
  cases c with
  | create name ownerId settings uuid now =>
    exact iff_of_true ((sound_set_iff h).2 (hn.create name ownerId settings uuid now)) trivial
  | update id name ownerId settings now =>
    exact iff_of_true ((sound_set_iff h).2 (hn.update id name ownerId settings now)) trivial
  | delete id => exact iff_of_true ((sound_set_iff h).2 (hn.delete id)) trivial
  | setActive workspaceId =>
    exact iff_of_true ((sound_set_iff h).2 (hn.setActive workspaceId)) trivial
  | list uuid now => exact iff_of_true ((sound_set_iff h).2 (hn.list uuid now)) trivial
  | saveToDb => exact iff_of_true h trivial
  | loadFromDb =>
    refine (sound_set_iff h).trans ?_
    unfold WorkspaceRegistry.loadFromDb Mergeable
    dsimp only
    cases hread : s.db.listAll codec (some "Workspace") with
    | error e => exact iff_of_true hn nofun
    | ok rows =>
      refine (WorkspaceRegistry.merge_sound_iff hn (listAll_ids hdb hread)).trans ?_
      exact ⟨by rintro hrows _ ⟨⟩; exact hrows, fun hrows => hrows rows rfl⟩

/-- **A step keeps the database readable.** -/
theorem readable_step
    (hid : ∀ w w', codec.rehydrate (codec.type w) (codec.dump w) = .ok w' → w'.id = codec.id w)
    (hdb : Readable codec s.db) (c : ℕ × WorkspaceCall) : Readable codec (s.step codec c).db := by
  obtain ⟨n, c⟩ := c
  cases c with
  | saveToDb => exact Readable.saveAll hid _ hdb
  | _ => exact hdb

/-- **Registries that share a database stay sound** exactly when each time what is loaded can be
merged. -/
theorem workspaces_sound_iff {dump : Workspace → δ} {rehydrate : String → δ → Except Exc Workspace}
    (hid : ∀ w w', rehydrate "Workspace" (dump w) = .ok w' → w'.id = w.id)
    (db : PersistenceRegistry δ) (hdb : Readable (Workspace.codec dump rehydrate) db)
    (calls : List (ℕ × WorkspaceCall)) :
    Throughout (step (Workspace.codec dump rehydrate)) Sound { db } calls ↔
      EachStep (step (Workspace.codec dump rehydrate)) (Mergeable (Workspace.codec dump rehydrate))
        { db } calls := by
  -- `Readable` is kept by every step, so it is an invariant of all runs
  have hI := fun (s : SharedWorkspaces δ) (c : ℕ × WorkspaceCall)
    (h : Readable (Workspace.codec dump rehydrate) s.db) => readable_step hid h c
  exact throughout_iff (A := fun _ => True)
    (I := fun s : SharedWorkspaces δ => Readable (Workspace.codec dump rehydrate) s.db)
    (fun s c _ h => hI s c h) (fun s c _ hs h => sound_step_iff hs h c) calls { db }
    (fun _ _ => trivial) hdb fun _ => WorkspaceRegistry.sound_new

/-- Workspaces as their own text. -/
def plainCodec : EntityCodec Workspace Workspace := Workspace.codec id fun _ w => .ok w

theorem workspaces_sound_handover :
    Throughout (step plainCodec) Sound { db := { shared := true } }
        [(0, .create "team" "ann" none "u0" "t"), (0, .saveToDb), (1, .loadFromDb)] ↔
      EachStep (step plainCodec) (Mergeable plainCodec) { db := { shared := true } }
        [(0, .create "team" "ann" none "u0" "t"), (0, .saveToDb), (1, .loadFromDb)] := by
  refine @workspaces_sound_iff _ id (fun _ w => .ok w) ?_ { shared := true } ?_ _
  · rintro w w' ⟨⟩
    rfl
  · intro row hrow
    cases hrow

/-- Two registries, each with its own default workspace, of which the first one is saved. -/
def twoDefaults : SharedWorkspaces Workspace :=
  [(0, .list "u0" "t"), (1, .list "u1" "t"), (0, .saveToDb)].foldl (step plainCodec)
    { db := { shared := true } }

/-- The second registry loads what the first one has saved. -/
theorem default_twice : ¬ (twoDefaults.step plainCodec (1, .loadFromDb)).Sound := by
  intro h
  have hread : twoDefaults.db.listAll plainCodec (some "Workspace") =
      .ok [{ id := "u0", name := "default", ownerId := "system", updatedAt := "t" }] := by
    show ([_].mergeSort _).mapM _ = _
    rw [List.mergeSort_singleton]
    rfl
  have hone := h 1
  unfold step WorkspaceRegistry.loadFromDb at hone
  rw [hread] at hone
  have hids : "u0" = "u1" := hone.names
    { id := "u0", name := "default", ownerId := "system", updatedAt := "t" } (Index.mem_values.2 rfl)
    { id := "u1", name := "default", ownerId := "system", updatedAt := "t" } (Index.mem_values.2 rfl)
    rfl
  exact absurd hids (by decide)

end SharedWorkspaces

end Hermes

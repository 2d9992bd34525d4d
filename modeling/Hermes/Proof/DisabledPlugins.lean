import Hermes.Lib.History
import Hermes.Spec.PluginRegistry

/-!
# Plugins that are disabled

`disable` marks a plugin. `get_sync` looks at the mark; `get` and `get_by_capability` do not, and
`unregister` leaves it behind.

* `getSync_of_disabled`: the look-up that honours the mark.
* `disabledKnown_step_iff`, `disabled_known_iff`: when the marks are of registered plugins.
* `disabled_unreachable_iff`: when a disabled plugin is out of reach.
-/

namespace Hermes

namespace PluginRegistry

open History

variable {ι : Type} {r : PluginRegistry ι}

/-- `get_sync` returns nothing for a plugin that is disabled. -/
theorem getSync_of_disabled {pluginId : String} (h : pluginId ∈ r.disabled) :
    r.getSync pluginId = none := by
  unfold getSync
  exact if_pos h

/-- The step marks a plugin. -/
def Disables (r : PluginRegistry ι) : PluginCall ι → Prop
  | .disable pluginId _ _ => pluginId ∈ r.plugins.keys
  | _ => False

/-- The step takes a marked plugin out. -/
def LeavesMark (r : PluginRegistry ι) : PluginCall ι → Prop
  | .unregister pluginId => pluginId ∈ r.disabled
  | _ => False

/-! ## What a step does -/

theorem registerSync_cases (manifest : PluginManifest) (inst : ι) :
    (r.registerSync manifest inst).2 = r ∨ (r.registerSync manifest inst).2 =
      { r with
        plugins := r.plugins.put ⟨manifest, inst⟩, disabled := r.disabled.erase manifest.name } := by
  unfold registerSync
  dsimp only
  split
  · exact .inl rfl
  · split
    · exact .inl rfl
    · exact .inr rfl

theorem disable_of_mem {pluginId : String} (h : pluginId ∈ r.plugins.keys) (imported running : Bool) :
    (r.disable pluginId imported running).2.plugins = r.plugins ∧
      (r.disable pluginId imported running).2.disabled = insert pluginId r.disabled := by
  obtain ⟨p, hp⟩ := Option.isSome_iff_exists.1 (Index.mem_keys.1 h)
  unfold disable
  rw [hp]
  exact ⟨rfl, rfl⟩

theorem disable_of_notMem {pluginId : String} (h : pluginId ∉ r.plugins.keys)
    (imported running : Bool) : (r.disable pluginId imported running).2 = r := by
  unfold disable
  rw [Index.get?_eq_none_iff.2 h]

theorem enable_cases (pluginId : String) : (r.enable pluginId).2 = r ∨
    (r.enable pluginId).2 = { r with disabled := r.disabled.erase pluginId } := by
  unfold enable
  split
  · exact .inr rfl
  · exact .inl rfl

/-- **A step marks nothing** but what it disables. -/
theorem step_disabled (c : PluginCall ι) (h : ¬ r.Disables c) :
    (r.step c).disabled ⊆ r.disabled := by
  cases c with
  | register manifest inst | registerSync manifest inst =>
    show (r.registerSync manifest inst).2.disabled ⊆ _
    rcases registerSync_cases (r := r) manifest inst with heq | heq
    · rw [heq]
    · rw [heq]
      exact Finset.erase_subset _ _
  | disable pluginId imported running =>
    show (r.disable pluginId imported running).2.disabled ⊆ _
    rw [disable_of_notMem h]
  | enable pluginId =>
    show (r.enable pluginId).2.disabled ⊆ _
    rcases enable_cases (r := r) pluginId with heq | heq
    · rw [heq]
    · rw [heq]
      exact Finset.erase_subset _ _
  | unregister pluginId => exact Finset.Subset.refl _
  | clear => exact Finset.empty_subset _

/-- **A step keeps the marks those of registered plugins** exactly when it leaves no mark behind. -/
theorem disabledKnown_step_iff (h : r.DisabledKnown) (c : PluginCall ι) :
    (r.step c).DisabledKnown ↔ ¬ r.LeavesMark c := by
  cases c with
  | register manifest inst | registerSync manifest inst =>
    refine iff_of_true ?_ not_false
    show (r.registerSync manifest inst).2.DisabledKnown
    rcases registerSync_cases (r := r) manifest inst with heq | heq
    · rw [heq]
      exact h
    · rw [heq]
      intro pluginId hmem
      have hold := Index.mem_keys.1 (h pluginId (Finset.mem_of_mem_erase hmem))
      rw [Index.mem_keys, Index.get?_put]
      split
      · rfl
      · exact hold
  | disable pluginId imported running =>
    refine iff_of_true ?_ not_false
    show (r.disable pluginId imported running).2.DisabledKnown
    by_cases hknown : pluginId ∈ r.plugins.keys
    · obtain ⟨hplugins, hdisabled⟩ := disable_of_mem hknown imported running
      intro other hmem
      rw [hdisabled] at hmem
      rw [hplugins]
      rcases Finset.mem_insert.1 hmem with rfl | hmem
      · exact hknown
      · exact h other hmem
    · rw [disable_of_notMem hknown]
      exact h
  | enable pluginId =>
    refine iff_of_true ?_ not_false
    show (r.enable pluginId).2.DisabledKnown
    rcases enable_cases (r := r) pluginId with heq | heq
    · rw [heq]
      exact h
    · rw [heq]
      exact fun other hmem => h other (Finset.mem_of_mem_erase hmem)
  | unregister pluginId =>
    show (r.unregister pluginId).2.DisabledKnown ↔ pluginId ∉ r.disabled
    constructor
    · intro hafter hmem
      have hkey := Index.mem_keys.1 (hafter pluginId hmem)
      have hgone : (r.plugins.erase pluginId).get? pluginId = none := by
        rw [Index.get?_erase, if_pos rfl]
      unfold unregister at hkey
      rw [hgone] at hkey
      exact Bool.noConfusion hkey
    · intro hout other hmem
      have hne : other ≠ pluginId := fun heq => hout (heq ▸ hmem)
      unfold unregister
      rw [Index.mem_keys, Index.get?_erase, if_neg hne]
      exact Index.mem_keys.1 (h other hmem)
  | clear => exact iff_of_true (fun _ hmem => absurd hmem (Finset.notMem_empty _)) not_false

/-- The marked plugins of a registry are out of reach exactly when there are none. -/
theorem unreachable_iff (h : r.DisabledKnown) : r.Unreachable ↔ r.disabled = ∅ := by
  constructor
  · intro hunreachable
    by_contra hne
    obtain ⟨pluginId, hmem⟩ := Finset.nonempty_iff_ne_empty.2 hne
    obtain ⟨p, hp⟩ := Option.isSome_iff_exists.1 (Index.mem_keys.1 (h pluginId hmem))
    refine hunreachable.get pluginId (p.manifest, p.instance') ?_ ⟨pluginId, hmem, p, hp, rfl⟩
    unfold get
    rw [hp]
    rfl
  · intro hempty
    have hnone : ∀ inst, ¬ r.OfDisabled inst := by
      rintro inst ⟨pluginId, hmem, -⟩
      rw [hempty] at hmem
      exact absurd hmem (Finset.notMem_empty pluginId)
    exact ⟨fun _ inst _ => hnone inst, fun _ entry _ => hnone entry.2, fun _ inst _ => hnone inst⟩

/-! ## Runs -/

/-- **The marks are those of registered plugins** exactly when no marked plugin is taken out. -/
theorem disabled_known_iff (bus : Bool) (calls : List (PluginCall ι)) :
    Throughout step DisabledKnown { bus } calls ↔
      EachStep step (fun r c => ¬ r.LeavesMark c) { bus } calls :=
  throughout_iff (A := fun _ => True) (I := fun _ => True) (P := DisabledKnown)
    (C := fun r c => ¬ r.LeavesMark c) (fun _ _ _ _ => trivial)
    (fun _ c _ _ h => disabledKnown_step_iff h c) calls { bus } (fun _ _ => trivial) trivial
    fun _ hmem => absurd hmem (Finset.notMem_empty _)

/-- **Disabled plugins are out of reach** exactly when none is disabled. -/
theorem disabled_unreachable_iff (bus : Bool) (calls : List (PluginCall ι)) :
    Throughout step (fun r => r.Unreachable ∧ r.DisabledKnown) { bus } calls ↔
      EachStep step (fun r c => ¬ r.Disables c) { bus } calls := by
  refine throughout_iff_eachStep (A := fun _ _ => True)
    (I := fun r : PluginRegistry ι => r.disabled = ∅) (P := fun r => r.Unreachable ∧ r.DisabledKnown)
    (C := fun r c => ¬ r.Disables c) (fun r c _ hempty _ hnot => ?_) (fun r c _ hempty hnow => ?_)
    calls { bus } (eachStep_of_mem (fun _ _ _ => trivial) _) rfl ⟨?_, ?_⟩
  · exact Finset.subset_empty.1 (hempty ▸ step_disabled c hnot)
  · constructor
    · rintro ⟨hunreachable, hknown⟩ hdisables
      have hafter := (unreachable_iff hknown).1 hunreachable
      cases c with
      | disable pluginId imported running =>
        obtain ⟨-, hdisabled⟩ := disable_of_mem hdisables imported running
        have hmem : pluginId ∈ (r.step (.disable pluginId imported running)).disabled :=
          hdisabled ▸ Finset.mem_insert_self _ _
        rw [hafter] at hmem
        exact absurd hmem (Finset.notMem_empty _)
      | _ => exact hdisables
    · intro hnot
      have hafter : (r.step c).disabled = ∅ :=
        Finset.subset_empty.1 (hempty ▸ step_disabled c hnot)
      have hknown : (r.step c).DisabledKnown := by
        intro pluginId hmem
        rw [hafter] at hmem
        exact absurd hmem (Finset.notMem_empty _)
      exact ⟨(unreachable_iff hknown).2 hafter, hknown⟩
  · exact (unreachable_iff fun _ hmem => absurd hmem (Finset.notMem_empty _)).2 rfl
  · exact fun _ hmem => absurd hmem (Finset.notMem_empty _)

/-- A plugin that is disabled, and that `get` and `get_by_capability` return; and one whose mark is
left behind. -/
theorem disabled_reachable :
    ¬ ([.registerSync { name := "alpha", capabilities := ["hermes.search"], entrypoint := "m:p" } 7,
        .disable "alpha" false false].foldl step ({} : PluginRegistry ℕ)).Unreachable ∧
      ¬ ([.registerSync { name := "alpha", entrypoint := "m:p" } 7, .disable "alpha" false false,
        .unregister "alpha"].foldl step ({} : PluginRegistry ℕ)).DisabledKnown := by
  constructor
  · intro h
    refine h.getByCapability "hermes.search" 7 (by decide) ⟨"alpha", by decide, ?_⟩
    exact ⟨_, rfl, rfl⟩
  · intro h
    exact absurd (h "alpha" (by decide)) (by decide)

end PluginRegistry

end Hermes

import Hermes.Lib.History
import Hermes.Spec.Scanner

/-!
# What sweeps publish

`scan_once` passes over the paths that are marked, whoever they are marked for. `_scan_new` passes
over those that its scanner has come upon, and does not look at marks.

* `scanOnce_eq`, `scanNew_spec`: what each of the two publishes.
* `known_perform`: the marks and the paths that are seen are those of the run so far.
* `scanner_sweeps`: the sweeps of every run.
-/

namespace Hermes

namespace FileScanner

variable {T : PathTexts} {sc : FileScanner} {dirs : Directories} {δ : Type}

/-- The files that a sweep goes over. -/
theorem mem_iterFiles {path : String} :
    path ∈ (sc.iterFiles T dirs).map FileEntry.resolved ↔ sc.Finds T dirs path := by
  unfold iterFiles Finds
  simp only [List.mem_map, List.mem_flatMap]
  constructor
  · rintro ⟨p, ⟨base, hbase, hp⟩, hpath⟩
    split at hp
    · rename_i hpresent
      obtain ⟨hp, hmatch⟩ := List.mem_filter.1 hp
      rw [Bool.and_eq_true, List.contains_iff_mem] at hmatch
      exact ⟨base, hbase, hpresent, p, hp, hmatch.1, hmatch.2, hpath⟩
    · cases hp
  · rintro ⟨base, hbase, hpresent, p, hp, hfile, hsuffix, hpath⟩
    refine ⟨p, ⟨base, hbase, ?_⟩, hpath⟩
    rw [if_pos hpresent, List.mem_filter, Bool.and_eq_true, List.contains_iff_mem]
    exact ⟨hp, hfile, hsuffix⟩

/-- The scanner has come upon more paths. -/
def seeAll (sc : FileScanner) (ps : List FileEntry) : FileScanner :=
  { sc with seen := sc.seen ∪ (ps.map FileEntry.resolved).toFinset }

theorem seeAll_cons (p : FileEntry) (ps : List FileEntry) :
    sc.seeAll (p :: ps) = (sc.see p.resolved).seeAll ps := by
  unfold seeAll see
  rw [List.map_cons, List.toFinset_cons, Finset.union_insert, Finset.insert_union]

theorem seeAll_cons_of_mem {p : FileEntry} (h : p.resolved ∈ sc.seen) (ps : List FileEntry) :
    sc.seeAll (p :: ps) = sc.seeAll ps := by
  rw [seeAll_cons]
  unfold see
  rw [Finset.insert_eq_of_mem h]

/-- A sweep of `scan_once` from where it is. -/
theorem foldl_scanOnce (marked : String → Bool) (ps : List FileEntry) :
    ∀ (events : List ScannedEvent) (sc : FileScanner),
      ps.foldl (fun acc p =>
          if marked p.resolved then (acc.1, acc.2.see p.resolved)
          else (acc.1 ++ [acc.2.makeEvent T p], acc.2.see p.resolved)) (events, sc) =
        (events ++ (ps.filter fun p => !marked p.resolved).map (sc.makeEvent T), sc.seeAll ps) := by
  induction ps with
  | nil =>
    intro events sc
    simp [seeAll]
  | cons p ps ih =>
    intro events sc
    rw [List.foldl_cons, seeAll_cons]
    split
    · rename_i hmarked
      rw [ih, List.filter_cons_of_neg (by simp [hmarked])]
      rfl
    · rename_i hmarked
      rw [ih, List.filter_cons_of_pos (by simp [hmarked]), List.map_cons, List.append_assoc]
      rfl

/-- **`scan_once`** publishes the files that are not marked. -/
theorem scanOnce_eq (db : PersistenceRegistry δ) :
    sc.scanOnce T true (some db) dirs =
      (((sc.iterFiles T dirs).filter fun p => !db.containsMarker ("scanned:" ++ p.resolved)).map
        (sc.makeEvent T), sc.seeAll (sc.iterFiles T dirs)) :=
  foldl_scanOnce (fun path => db.containsMarker ("scanned:" ++ path)) _ [] sc

/-- A sweep of `_scan_new` from where it is. -/
theorem foldl_scanNew (ps : List FileEntry) : ∀ (events : List ScannedEvent) (sc : FileScanner),
    ∃ fresh, ps.foldl (fun acc p =>
          if p.resolved ∈ acc.2.seen then acc
          else (acc.1 ++ [(acc.2.see p.resolved).makeEvent T p], acc.2.see p.resolved)) (events, sc) =
        (events ++ fresh, sc.seeAll ps) ∧
      (∀ ev ∈ fresh, ev.workspaceId = sc.workspaceId) ∧
      ∀ path, (∃ ev ∈ fresh, ev.path = path) ↔
        path ∈ ps.map FileEntry.resolved ∧ path ∉ sc.seen := by
  induction ps with
  | nil =>
    intro events sc
    exact ⟨[], by simp [seeAll], by simp, by simp⟩
  | cons p ps ih =>
    intro events sc
    by_cases hseen : p.resolved ∈ sc.seen
    · obtain ⟨fresh, heq, hworkspace, hpaths⟩ := ih events sc
      refine ⟨fresh, ?_, hworkspace, fun path => ?_⟩
      · rw [List.foldl_cons, if_pos hseen, heq, seeAll_cons_of_mem hseen]
      · rw [hpaths, List.map_cons, List.mem_cons]
        refine and_congr_left fun hnew => (or_iff_right ?_).symm
        rintro rfl
        exact hnew hseen
    · set ev : ScannedEvent := (sc.see p.resolved).makeEvent T p with hev
      obtain ⟨fresh, heq, hworkspace, hpaths⟩ := ih (events ++ [ev]) (sc.see p.resolved)
      refine ⟨ev :: fresh, ?_, ?_, fun path => ?_⟩
      · rw [List.foldl_cons, if_neg hseen, heq, seeAll_cons, List.append_assoc]
        rfl
      · exact List.forall_mem_cons.2 ⟨rfl, hworkspace⟩
      · have hpath : ev.path = p.resolved := rfl
        have hsee : path ∈ (sc.see p.resolved).seen ↔ path = p.resolved ∨ path ∈ sc.seen :=
          Finset.mem_insert
        rw [List.exists_mem_cons_iff, hpaths, hsee, hpath, List.map_cons, List.mem_cons]
        constructor
        · rintro (rfl | ⟨hmem, hnew⟩)
          · exact ⟨.inl rfl, hseen⟩
          · exact ⟨.inr hmem, fun h => hnew (.inr h)⟩
        · rintro ⟨rfl | hmem, hnew⟩
          · exact .inl rfl
          · by_cases hsame : path = p.resolved
            · exact .inl hsame.symm
            · exact .inr ⟨hmem, by rintro (h | h); exacts [hsame h, hnew h]⟩

/-- **`_scan_new`** publishes the files that are new to its scanner. -/
theorem scanNew_spec (T : PathTexts) (sc : FileScanner) (dirs : Directories) :
    (sc.scanNew T dirs).2 = sc.seeAll (sc.iterFiles T dirs) ∧
    (∀ ev ∈ (sc.scanNew T dirs).1, ev.workspaceId = sc.workspaceId) ∧
    ∀ path, (∃ ev ∈ (sc.scanNew T dirs).1, ev.path = path) ↔
      sc.Finds T dirs path ∧ path ∉ sc.seen := by
  obtain ⟨fresh, heq, hworkspace, hpaths⟩ := foldl_scanNew (T := T) (sc.iterFiles T dirs) [] sc
  rw [List.nil_append] at heq
  unfold scanNew
  rw [heq]
  refine ⟨rfl, hworkspace, fun path => ?_⟩
  rw [hpaths, mem_iterFiles]

end FileScanner

namespace Scanners

open History

variable {T : PathTexts} {δ : Type} {s : Scanners δ}

/-- The database and the scanners know what the run so far has marked and come upon. -/
structure Known (s : Scanners δ) : Prop where
  shared : s.db.shared = true
  marks : ∀ key, s.db.containsMarker key = true ↔ ∃ workspaceId, (key, workspaceId) ∈ s.marks
  seen : ∀ n path, path ∈ (s.scanners n).seen ↔ (n, path) ∈ s.found

theorem known_init (args : ℕ → ScannerArgs) : (Scanners.init (δ := δ) T args).Known where
  shared := rfl
  marks key := iff_of_false nofun (by rintro ⟨_, ⟨⟩⟩)
  seen n path := iff_of_false (Finset.notMem_empty path) (by rintro ⟨⟩)

/-- A path is marked. -/
theorem Known.mark (h : s.Known) (key workspaceId value : String) :
    (s.step T (.mark key workspaceId value)).Known where
  shared := h.shared
  marks key' := by
    show (s.db.mark key workspaceId value).containsMarker key' = true ↔
      ∃ w, (key', w) ∈ s.marks ++ [(key, workspaceId)]
    have hold := h.marks key'
    unfold PersistenceRegistry.containsMarker PersistenceRegistry.mark at *
    rw [h.shared, Bool.true_and] at hold ⊢
    simp only [List.mem_append, List.mem_singleton, Prod.mk.injEq, exists_or, Index.get?_replace]
    split
    · rename_i heq
      exact iff_of_true rfl (.inr ⟨workspaceId, heq, rfl⟩)
    · rename_i hne
      rw [hold]
      refine (or_iff_left ?_).symm
      rintro ⟨w, heq, -⟩
      exact hne heq
  seen := h.seen

/-- A scanner has made a sweep. -/
theorem Known.swept (h : s.Known) (n : ℕ) (dirs : Directories) {after : FileScanner}
    (hseen : after.seen = ((s.scanners n).seeAll ((s.scanners n).iterFiles T dirs)).seen) :
    (s.swept T n dirs after).Known where
  shared := h.shared
  marks := h.marks
  seen m path := by
    unfold Scanners.swept
    dsimp only
    rw [List.mem_append, ← h.seen]
    by_cases hmn : m = n
    · subst hmn
      rw [Function.update_self, hseen]
      unfold FileScanner.seeAll
      simp
    · have hout : (m, path) ∉ ((s.scanners n).iterFiles T dirs).map fun p => (n, p.resolved) := by
        intro hmem
        obtain ⟨p, -, heq⟩ := List.mem_map.1 hmem
        exact hmn (congrArg Prod.fst heq).symm
      rw [Function.update_of_ne hmn, or_iff_left hout]

/-! ## Steps -/

theorem perform_start_of_running {n : ℕ} (h : (s.scanners n).running = true) (dirs : Directories) :
    s.perform T (.start n dirs) = ([], s) := if_pos h

theorem perform_start {n : ℕ} (h : ¬ (s.scanners n).running = true) (dirs : Directories) :
    s.perform T (.start n dirs) = (((s.scanners n).scanNew T dirs).1,
      s.swept T n dirs { ((s.scanners n).scanNew T dirs).2 with running := true }) := if_neg h

theorem perform_watch {n : ℕ} (h : (s.scanners n).running = true) (dirs : Directories) :
    s.perform T (.watch n dirs) = (((s.scanners n).scanNew T dirs).1,
      s.swept T n dirs ((s.scanners n).scanNew T dirs).2) := if_pos h

theorem perform_watch_of_stopped {n : ℕ} (h : ¬ (s.scanners n).running = true)
    (dirs : Directories) : s.perform T (.watch n dirs) = ([], s) := if_neg h

/-- **A step keeps what is known.** -/
theorem known_step (h : s.Known) (e : ScanStep) : (s.step T e).Known := by
  unfold step
  cases e with
  | mark key workspaceId value => exact h.mark key workspaceId value
  | scanOnce n dirs =>
    have hseen : ((s.scanners n).scanOnce T true (some s.db) dirs).2.seen =
        ((s.scanners n).seeAll ((s.scanners n).iterFiles T dirs)).seen := by
      rw [FileScanner.scanOnce_eq]
    exact h.swept n dirs hseen
  | start n dirs =>
    by_cases hrunning : (s.scanners n).running = true
    · rw [perform_start_of_running hrunning]
      exact h
    · rw [perform_start hrunning]
      refine h.swept n dirs ?_
      show ((s.scanners n).scanNew T dirs).2.seen = _
      rw [(FileScanner.scanNew_spec T (s.scanners n) dirs).1]
  | watch n dirs =>
    by_cases hrunning : (s.scanners n).running = true
    · rw [perform_watch hrunning]
      exact h.swept n dirs
        (congrArg FileScanner.seen (FileScanner.scanNew_spec T (s.scanners n) dirs).1)
    · rw [perform_watch_of_stopped hrunning]
      exact h
  | stop n =>
    refine ⟨h.shared, h.marks, fun m path => ?_⟩
    show path ∈ (Function.update s.scanners n _ m).seen ↔ (m, path) ∈ s.found
    rw [← h.seen]
    by_cases hmn : m = n
    · subst hmn
      rw [Function.update_self]
    · rw [Function.update_of_ne hmn]

/-- A sweep of `_scan_new`. -/
theorem publishes_scanNew (h : s.Known) (n : ℕ) (dirs : Directories) :
    s.Publishes n ((s.scanners n).scanNew T dirs).1 fun path =>
      (s.scanners n).Finds T dirs path ∧ (n, path) ∉ s.found := by
  obtain ⟨-, hworkspace, hpaths⟩ := FileScanner.scanNew_spec T (s.scanners n) dirs
  refine ⟨hworkspace, fun path => ?_⟩
  rw [hpaths, h.seen]

/-- Nothing is published where no sweep is made. -/
theorem publishes_nil {n : ℕ} {paths : String → Prop} (h : ∀ path, ¬ paths path) :
    s.Publishes n [] paths where
  workspace := nofun
  paths path := iff_of_false (by rintro ⟨_, ⟨⟩, -⟩) (h path)

/-- **What a step publishes.** -/
theorem newOnly_of_known (h : s.Known) (e : ScanStep) : s.NewOnly T e := by
  cases e with
  | mark key workspaceId value => trivial
  | stop n => trivial
  | scanOnce n dirs =>
    have hevents : (s.perform T (.scanOnce n dirs)).1 =
        (((s.scanners n).iterFiles T dirs).filter fun p =>
          !s.db.containsMarker ("scanned:" ++ p.resolved)).map ((s.scanners n).makeEvent T) :=
      congrArg Prod.fst (FileScanner.scanOnce_eq s.db)
    show (∀ ev ∈ (s.perform T (.scanOnce n dirs)).1, _ ∧ _ ∧ _) ∧
      ∀ path, _ → _ → ∃ ev ∈ (s.perform T (.scanOnce n dirs)).1, _
    rw [hevents]
    refine ⟨fun ev hev => ?_, fun path hfinds hunmarked => ?_⟩
    · obtain ⟨p, hp, rfl⟩ := List.mem_map.1 hev
      obtain ⟨hmem, hunmarked⟩ := List.mem_filter.1 hp
      refine ⟨rfl, FileScanner.mem_iterFiles.1 (List.mem_map_of_mem hmem), fun hmarked => ?_⟩
      have hcontains := (h.marks ("scanned:" ++ p.resolved)).2 ⟨_, hmarked⟩
      rw [hcontains] at hunmarked
      cases hunmarked
    · obtain ⟨p, hp, rfl⟩ := List.mem_map.1 (FileScanner.mem_iterFiles.2 hfinds)
      refine ⟨_, List.mem_map_of_mem (List.mem_filter.2 ⟨hp, ?_⟩), rfl⟩
      rw [Bool.not_eq_true', Bool.eq_false_iff]
      intro hcontains
      obtain ⟨workspaceId, hmarked⟩ := (h.marks _).1 hcontains
      exact hunmarked workspaceId hmarked
  | start n dirs =>
    show s.Publishes n (s.perform T (.start n dirs)).1 _
    by_cases hrunning : (s.scanners n).running = true
    · rw [perform_start_of_running hrunning]
      refine publishes_nil fun path hpath => ?_
      rw [hrunning] at hpath
      exact Bool.noConfusion hpath.1
    · rw [perform_start hrunning]
      obtain ⟨hworkspace, hpaths⟩ := publishes_scanNew (T := T) h n dirs
      refine ⟨hworkspace, fun path => (hpaths path).trans ?_⟩
      exact (and_iff_right (Bool.eq_false_iff.2 hrunning)).symm
  | watch n dirs =>
    show s.Publishes n (s.perform T (.watch n dirs)).1 _
    by_cases hrunning : (s.scanners n).running = true
    · rw [perform_watch hrunning]
      obtain ⟨hworkspace, hpaths⟩ := publishes_scanNew (T := T) h n dirs
      refine ⟨hworkspace, fun path => (hpaths path).trans ?_⟩
      exact (and_iff_right hrunning).symm
    · rw [perform_watch_of_stopped hrunning]
      exact publishes_nil fun path hpath => hrunning hpath.1

/-- **The sweeps of every run**, of any scanners that share a database in a file. -/
theorem scanner_sweeps (T : PathTexts) (args : ℕ → ScannerArgs) (steps : List ScanStep) :
    EachStep (step T) (NewOnly T) (Scanners.init (δ := δ) T args) steps := by
  have hall : Throughout (step T) Known (Scanners.init (δ := δ) T args) steps :=
    throughout_of_invariant (I := Known) (fun s e h => (known_step h e : (s.step T e).Known)) steps _
      (known_init args)
  exact hall.eachStep_of fun _ e h => newOnly_of_known h e

/-- One file, and a scanner that starts when it is marked for its workspace. -/
theorem marked_published :
    ¬ EachStep (step { lower := id, guessType := fun _ => none })
      (UnmarkedOnly { lower := id, guessType := fun _ => none })
      (Scanners.init (δ := Unit) { lower := id, guessType := fun _ => none }
        fun _ => { workspaceId := "w1", paths := ["/d"] })
      [.mark "scanned:/d/a.md" "w1" "1",
        .start 0
          { present := fun _ => true
            rglob := fun _ => [{ path := "/d/a.md", suffix := ".md", resolved := "/d/a.md" }]
            glob := fun _ => [] }] := by
  rintro ⟨-, hstart, -⟩
  obtain ⟨-, hpaths⟩ := hstart rfl
  obtain ⟨-, hunmarked, -⟩ := (hpaths "/d/a.md").1
    ⟨{ source := "scanner:w1", path := "/d/a.md", mimeType := some "text/markdown",
       workspaceId := "w1" }, by decide, rfl⟩
  exact hunmarked List.mem_cons_self

end Scanners

end Hermes

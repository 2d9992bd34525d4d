import Hermes.Lib.History
import Hermes.Proof.MarketSteps

/-!
# What a marketplace lists as installed

* `expected`: what an operation should make of `list_installed`.
* `shelf_put`, `shelf_erase`: both wirings, with a store and without one.
* `stored_install`, `memory_install`, `discover_stored`, `discover_memory`: where the two
  differ.
* `Abreast`: a marketplace with a store and one without it, after the same operations.
* `wellListed_iff`, `listing_iff`: the list is as expected, and the same in both, exactly
  when nothing that is refused or discovered has the id of an installed package, and
  both accept the same packages.
* `discover_unlists`: a catalog unlists what is installed.
-/

namespace Hermes

open History

namespace Marketplace

variable {sha256 : String → String} {m m' : Marketplace} {s : MarketplaceStore} {now i : ℕ}
  {vault : SecretAnswers} {x y : String} {p : Plugin}

/-! ## What should be listed -/

/-- `install` returns a package that is installed. -/
def installs (sha256 : String → String) (m : Marketplace) (now : ℕ) (vault : SecretAnswers)
    (i : ℕ) : Bool :=
  match m.install sha256 now vault i with
  | (.ok j, m') => m'.hasStatus .installed j
  | (.error _, _) => false

/-- What `list_installed` should have under each id after an operation: it grows by what is
installed or registered, and shrinks by what is uninstalled. -/
def expected (sha256 : String → String) (m : Marketplace) : ℕ × MarketOp → String → Option ℕ
  | (now, .install vault i) =>
    match m.idOf i with
    | some x =>
      if m.installs sha256 now vault i then Function.update m.installedAs x (some i)
      else m.installedAs
    | none => m.installedAs
  | (_, .registerLocal entrypoint _ _) =>
    Function.update m.installedAs entrypoint (some m.objects.length)
  | (_, .uninstall packageId) => Function.update m.installedAs packageId none
  | (_, .create _) => m.installedAs
  | (_, .discover _ _) => m.installedAs
  | (_, .discoverMcpTools _ _) => m.installedAs

theorem installs_iff (sha256 : String → String) (m : Marketplace) (now : ℕ)
    (vault : SecretAnswers) (i : ℕ) :
    m.installs sha256 now vault i = true ↔ m.fate sha256 vault i = .accepted := by
  unfold installs
  obtain ⟨hfate, herror, -⟩ | ⟨p, hp, hok, -, hcases⟩ := install_cases sha256 m now vault i
  · rw [hfate]
    cases hr : m.install sha256 now vault i with
    | mk r m' =>
      cases r with
      | error x => simp
      | ok j =>
        rw [hr] at herror
        exact absurd rfl (herror j)
  · cases hr : m.install sha256 now vault i with
    | mk r m' =>
      rw [hr] at hok hcases
      obtain rfl : r = .ok i := hok
      obtain ⟨hfate, hobjects, -⟩ | ⟨hfate, hobjects, -⟩ := hcases
      · have hget : m'.objects[i]? = _ := getElem?_assigned hp hobjects i
        rw [hfate]
        unfold hasStatus
        simp [hget]
      · have hget : m'.objects[i]? = _ := getElem?_assigned hp hobjects i
        rw [hfate]
        unfold hasStatus
        simp [hget]

/-! ## The shelf -/

/-- A package that goes to the marketplace and to its store. -/
theorem shelf_put (hinstalled : m'.installed = m.installed.insert x i)
    (hstore : m'.store = m.store.map (·.putPackage x i)) (y : String) :
    m'.shelf.get? y = if y = x then some i else m.shelf.get? y := by
  cases hs : m.store with
  | none =>
    rw [hs] at hstore
    rw [shelf_of_none hs, shelf_of_none hstore, hinstalled, Dict.get?_insert]
  | some s =>
    rw [hs] at hstore
    rw [shelf_of_store hs, shelf_of_store hstore]
    exact Dict.get?_insert _ _ _ _

/-- A package that goes to the store. -/
theorem shelf_putPackage (hs : m.store = some s)
    (hstore : m'.store = m.store.map (·.putPackage x i)) (y : String) :
    m'.shelf.get? y = if y = x then some i else m.shelf.get? y := by
  rw [hs] at hstore
  rw [shelf_of_store hs, shelf_of_store hstore]
  exact Dict.get?_insert _ _ _ _

/-- The catalog is not the shelf. -/
theorem shelf_same (hinstalled : m'.installed = m.installed)
    (hstore : m'.store.map (·.packages) = m.store.map (·.packages)) : m'.shelf = m.shelf := by
  unfold shelf
  cases hs : m.store with
  | none =>
    rw [hs] at hstore
    rw [Option.map_eq_none_iff.1 hstore]
    exact hinstalled
  | some s =>
    rw [hs] at hstore
    obtain ⟨s', hs', hpackages⟩ := Option.map_eq_some_iff.1 hstore
    rw [hs']
    exact hpackages

theorem uninstall_objects (packageId : String) :
    (m.uninstall packageId).2.objects = m.objects := by
  unfold uninstall
  simp only
  split
  · rfl
  · rfl

theorem shelf_uninstall (packageId : String) (y : String) :
    (m.uninstall packageId).2.shelf.get? y = if y = packageId then none else m.shelf.get? y := by
  unfold uninstall
  simp only
  cases hs : m.store with
  | none =>
    rw [shelf_of_none hs, ← Dict.get?_erase]
    split
    · rfl
    · rfl
  | some s =>
    rw [shelf_of_store hs]
    split
    · -- it is neither in the marketplace nor in the store
      rename_i hnone
      rw [Option.or_eq_none_iff] at hnone
      have hempty : s.packages.get? packageId = none := hnone.2
      show s.packages.get? y = _
      by_cases hy : y = packageId
      · rw [if_pos hy, hy, hempty]
      · rw [if_neg hy]
    · exact Dict.get?_erase _ _ _

/-! ## One operation -/

section

variable (hf : m.Filed)
include hf

theorem filed_create (p : Plugin) :
    (m.allocate p).Filed ∧ (m.allocate p).installedAs = m.installedAs :=
  filed_of_same hf (keepsObjects_append rfl) fun _ => rfl

theorem filed_registerLocal (now : ℕ) (entrypoint : String) (capabilities : List String)
    (name : Option String) : (m.registerLocal now entrypoint capabilities name).Filed ∧
      (m.registerLocal now entrypoint capabilities name).installedAs =
        Function.update m.installedAs entrypoint (some m.objects.length) := by
  have hshelf : ∀ y, (m.registerLocal now entrypoint capabilities name).shelf.get? y =
      if y = entrypoint then some m.objects.length else m.shelf.get? y :=
    fun y => shelf_put rfl rfl y
  obtain ⟨p, hobjects, hid, hstatus⟩ : ∃ p,
      (m.registerLocal now entrypoint capabilities name).objects = m.objects ++ [p] ∧
        p.packageId = entrypoint ∧ p.status = .installed := ⟨_, rfl, rfl, rfl⟩
  exact filed_of_new hf hobjects hid (by rw [if_pos hstatus]) hshelf

theorem filed_uninstall (packageId : String) : (m.uninstall packageId).2.Filed ∧
    (m.uninstall packageId).2.installedAs = Function.update m.installedAs packageId none :=
  filed_of_erased hf (uninstall_objects packageId) (shelf_uninstall packageId)

/-- A new entry of the catalog. -/
theorem filed_entry (entry : CatalogEntry) (ev : MarketEvent) :
    ((m.putCatalogEntry entry).emit ev).Filed ∧
      ((m.putCatalogEntry entry).emit ev).installedAs = m.installedAs := by
  have hshelf : ((m.putCatalogEntry entry).emit ev).shelf = m.shelf := by
    refine shelf_same rfl ?_
    show (m.store.map _).map _ = _
    rw [Option.map_map]
    rfl
  exact filed_of_same hf (fun _ _ => rfl) fun y => by rw [hshelf]

theorem filed_mcp (sourceUrl : String) (tools : Except Exc (List String)) :
    (m.discoverMcpTools sourceUrl tools).2.Filed ∧
      (m.discoverMcpTools sourceUrl tools).2.installedAs = m.installedAs ∧
      (m.discoverMcpTools sourceUrl tools).2.objects = m.objects ∧
      (m.discoverMcpTools sourceUrl tools).2.store.isSome = m.store.isSome := by
  cases tools with
  | error x => exact ⟨hf, rfl, rfl, rfl⟩
  | ok tools =>
    unfold discoverMcpTools
    simp only
    refine run_invariant _ (fun m' : Marketplace => m'.Filed ∧ m'.installedAs = m.installedAs ∧
      m'.objects = m.objects ∧ m'.store.isSome = m.store.isSome) (fun m' tool h => ?_) tools m
      ⟨hf, rfl, rfl, rfl⟩
    obtain ⟨hf', hlisted, hobjects, hstore⟩ := h
    obtain ⟨hf'', hlisted'⟩ := filed_entry hf'
      ⟨"mcp:" ++ sourceUrl ++ "::" ++ tool, sourceUrl⟩ (.pluginDiscovered
        ("mcp:" ++ sourceUrl ++ "::" ++ tool) tool PluginSource.mcpServer.value "0.0.0" sourceUrl)
    refine ⟨hf'', hlisted'.trans hlisted, hobjects, ?_⟩
    show (m'.store.map _).isSome = _
    rw [Option.isSome_map, hstore]

/-- **`install` with a store.** -/
theorem stored_install (sha256 : String → String) (hs : m.store.isSome) (now : ℕ)
    (vault : SecretAnswers) (i : ℕ) :
    (m.install sha256 now vault i).2.Filed ∧
      (m.install sha256 now vault i).2.installedAs =
        match m.fate sha256 vault i, m.idOf i with
        | .accepted, some x => Function.update m.installedAs x (some i)
        | .refused, some x => Function.update m.installedAs x none
        | _, _ => m.installedAs := by
  obtain ⟨s, hs⟩ := Option.isSome_iff_exists.1 hs
  obtain ⟨hfate, -, hsame⟩ | ⟨p, hp, -, hstore, hcases⟩ := install_cases sha256 m now vault i
  · rw [hsame, hfate]
    exact ⟨hf, rfl⟩
  · have hid : m.idOf i = some p.packageId := by
      unfold idOf
      rw [hp]
      rfl
    rw [hid]
    obtain ⟨hfate, hobjects, -⟩ | ⟨hfate, hobjects, -⟩ := hcases
    · rw [hfate]
      refine filed_of_assigned hf hp ?_ hobjects (shelf_putPackage hs hstore)
      rfl
    · rw [hfate]
      refine filed_of_assigned hf hp ?_ hobjects (shelf_putPackage hs hstore)
      rfl

/-- **`install` without a store.** -/
theorem memory_install (sha256 : String → String) (hs : m.store = none) (now : ℕ)
    (vault : SecretAnswers) (i : ℕ) :
    (m.install sha256 now vault i).2.Filed ∧
      (m.install sha256 now vault i).2.installedAs =
        match m.fate sha256 vault i, m.idOf i with
        | .accepted, some x => Function.update m.installedAs x (some i)
        | .refused, some _ => fun x => (m.installedAs x).filter (· ≠ i)
        | _, _ => m.installedAs := by
  obtain ⟨hfate, -, hsame⟩ | ⟨p, hp, -, hstore, hcases⟩ := install_cases sha256 m now vault i
  · rw [hsame, hfate]
    exact ⟨hf, rfl⟩
  · have hid : m.idOf i = some p.packageId := by
      unfold idOf
      rw [hp]
      rfl
    have hnone : (m.install sha256 now vault i).2.store = none := by
      rw [hstore, hs]
      rfl
    rw [hid]
    obtain ⟨hfate, hobjects, hinstalled, -⟩ | ⟨hfate, hobjects, hinstalled, -⟩ := hcases
    · rw [hfate]
      refine filed_of_set hf hp ?_ ?_ hobjects ?_
      · rfl
      · exact fun h => by cases h
      · rw [shelf_of_none hs, shelf_of_none hnone, hinstalled]
    · rw [hfate]
      refine filed_of_assigned hf hp ?_ hobjects (shelf_put hinstalled hstore)
      rfl

end

/-- The items of a catalog before one that is rejected. -/
def recorded : List (Except Exc CatalogItem) → List CatalogItem
  | .ok item :: items => item :: recorded items
  | _ => []

/-- **`discover` with a store** puts what it finds over what is there. -/
theorem discover_stored (now : ℕ) (sourceUrl : String) (items : List (Except Exc CatalogItem)) :
    ∀ m : Marketplace, m.Filed → m.store.isSome →
      (m.discover now sourceUrl items).2.Filed ∧
        ((m.discover now sourceUrl items).2.installedAs = fun x =>
          if x ∈ (recorded items).map (·.packageId) then none else m.installedAs x) ∧
        (m.discover now sourceUrl items).2.store.isSome := by
  induction items with
  | nil => intro m hf hs; exact ⟨hf, by simp [discover, recorded], hs⟩
  | cons item items ih =>
    intro m hf hs
    cases item with
    | error x => exact ⟨hf, by simp [discover, recorded], hs⟩
    | ok item =>
      obtain ⟨s, hs⟩ := Option.isSome_iff_exists.1 hs
      have hstore : (m.discoverItem now sourceUrl item).store =
          some ((s.putCatalogEntry ⟨item.packageId, sourceUrl⟩).putPackage item.packageId
            m.objects.length) := by
        show ((m.store.map _).map _) = _
        rw [hs]
        rfl
      have hshelf : ∀ y, (m.discoverItem now sourceUrl item).shelf.get? y =
          if y = item.packageId then some m.objects.length else m.shelf.get? y := by
        intro y
        rw [shelf_of_store hs, shelf_of_store hstore]
        exact Dict.get?_insert _ _ _ _
      obtain ⟨p, hobjects, hid, hstatus⟩ : ∃ p,
          (m.discoverItem now sourceUrl item).objects = m.objects ++ [p] ∧
            p.packageId = item.packageId ∧ p.status = .available := ⟨_, rfl, rfl, rfl⟩
      have hnone : none = if p.status = .installed then some m.objects.length else none := by
        rw [hstatus]
        rfl
      obtain ⟨hf', hlisted⟩ := filed_of_new hf hobjects hid hnone hshelf
      obtain ⟨hfinal, hafter, hsome⟩ := ih _ hf' (by rw [hstore]; rfl)
      refine ⟨hfinal, hafter.trans (funext fun x => ?_), hsome⟩
      rw [hlisted]
      by_cases hx : x ∈ (recorded items).map (·.packageId)
      · simp only [recorded, List.map_cons, List.mem_cons, hx, if_true, or_true]
      · simp only [recorded, List.map_cons, List.mem_cons, hx, if_false, or_false,
          Function.update_apply]

/-- **`discover` without a store** leaves what is installed. -/
theorem discover_memory (now : ℕ) (sourceUrl : String) (items : List (Except Exc CatalogItem)) :
    ∀ m : Marketplace, m.Filed → m.store = none →
      (m.discover now sourceUrl items).2.Filed ∧
        (m.discover now sourceUrl items).2.installedAs = m.installedAs ∧
        (m.discover now sourceUrl items).2.store = none := by
  induction items with
  | nil => intro m hf hs; exact ⟨hf, rfl, hs⟩
  | cons item items ih =>
    intro m hf hs
    cases item with
    | error x => exact ⟨hf, rfl, hs⟩
    | ok item =>
      have hstore : (m.discoverItem now sourceUrl item).store = none := by
        show ((m.store.map _).map _) = _
        rw [hs]
        rfl
      have hshelf : ∀ y, (m.discoverItem now sourceUrl item).shelf.get? y = m.shelf.get? y := by
        intro y
        rw [shelf_of_none hs, shelf_of_none hstore]
        rfl
      obtain ⟨hf', hlisted⟩ := filed_of_same hf (keepsObjects_append rfl) hshelf
      obtain ⟨hfinal, hafter, hnone⟩ := ih _ hf' hstore
      exact ⟨hfinal, hafter.trans hlisted, hnone⟩

/-! ## The same objects -/

/-- A package without what an installation changes. -/
def blank (p : Plugin) : Plugin := { p with status := .available, installedAt := none }

theorem blank_set (hp : m.objects[i]? = some p) {q : Plugin} (hq : blank q = blank p) :
    (m.objects.set i q).map blank = m.objects.map blank := by
  refine List.ext_getElem? fun j => ?_
  rw [List.getElem?_map, List.getElem?_map, List.getElem?_set]
  by_cases hij : i = j
  · subst hij
    rw [hp, if_pos rfl, if_pos (List.getElem?_eq_some_iff.1 hp).1, Option.map_some, Option.map_some,
      hq]
  · rw [if_neg hij]

theorem blank_discover (now : ℕ) (sourceUrl : String) (items : List (Except Exc CatalogItem)) :
    ∃ ps, ∀ m : Marketplace,
      (m.discover now sourceUrl items).2.objects.map blank = m.objects.map blank ++ ps := by
  induction items with
  | nil => exact ⟨[], fun m => (List.append_nil _).symm⟩
  | cons item items ih =>
    cases item with
    | error x => exact ⟨[], fun m => (List.append_nil _).symm⟩
    | ok item =>
      obtain ⟨ps, hps⟩ := ih
      obtain ⟨p, hp⟩ : ∃ p, ∀ m : Marketplace,
          (m.discoverItem now sourceUrl item).objects = m.objects ++ [p] := ⟨_, fun _ => rfl⟩
      refine ⟨blank p :: ps, fun m => ?_⟩
      show ((m.discoverItem now sourceUrl item).discover now sourceUrl items).2.objects.map blank = _
      rw [hps, hp, List.map_append, List.append_assoc]
      rfl

/-- **The objects of an operation** are the same in every marketplace. -/
theorem blank_apply (sha256 : String → String) (op : ℕ × MarketOp) : ∃ ps, ∀ m : Marketplace,
    m.Filed → (m.apply sha256 op).objects.map blank = m.objects.map blank ++ ps := by
  obtain ⟨now, op⟩ := op
  cases op with
  | create p => exact ⟨[blank p], fun m _ => List.map_append⟩
  | discover sourceUrl items =>
    obtain ⟨ps, hps⟩ := blank_discover now sourceUrl items
    exact ⟨ps, fun m _ => hps m⟩
  | registerLocal entrypoint capabilities name =>
    obtain ⟨p, hp⟩ : ∃ p, ∀ m : Marketplace,
        (m.registerLocal now entrypoint capabilities name).objects = m.objects ++ [p] :=
      ⟨_, fun _ => rfl⟩
    refine ⟨[blank p], fun m _ => ?_⟩
    show (m.registerLocal now entrypoint capabilities name).objects.map blank = _
    rw [hp, List.map_append]
    rfl
  | install vault i =>
    refine ⟨[], fun m _ => ?_⟩
    show (m.install sha256 now vault i).2.objects.map blank = _
    rw [List.append_nil]
    obtain ⟨-, -, hsame⟩ | ⟨p, hp, -, -, ⟨-, hobjects, -⟩ | ⟨-, hobjects, -⟩⟩ :=
      install_cases sha256 m now vault i
    · rw [hsame]
    · rw [hobjects]
      exact blank_set hp rfl
    · rw [hobjects]
      exact blank_set hp rfl
  | uninstall packageId =>
    refine ⟨[], fun m _ => ?_⟩
    show (m.uninstall packageId).2.objects.map blank = _
    rw [uninstall_objects, List.append_nil]
  | discoverMcpTools sourceUrl tools =>
    refine ⟨[], fun m hf => ?_⟩
    show (m.discoverMcpTools sourceUrl tools).2.objects.map blank = _
    rw [(filed_mcp hf sourceUrl tools).2.2.1, List.append_nil]

/-- The secrets of an accepted package were resolved, those of another one may not be. -/
theorem not_raised (sha256 : String → String) (vault : SecretAnswers) (i : ℕ)
    (hobjects : m.objects.map blank = m'.objects.map blank)
    (h : m.fate sha256 vault i = .accepted) : m'.fate sha256 vault i ≠ .raised := by
  -- the secrets are asked for by both, or the package is refused before
  have hget := congrArg (·[i]?) hobjects
  simp only [List.getElem?_map] at hget
  unfold fate refusal at h ⊢
  cases hp : m.objects[i]? with
  | none =>
    rw [hp] at h
    cases h
  | some p =>
    rw [hp] at h hget
    obtain ⟨p', hp', hblank⟩ := Option.map_eq_some_iff.1 hget.symm
    have hsame : (blank p').requiredSecrets = (blank p).requiredSecrets := by rw [hblank]
    have hsecrets : p'.requiredSecrets = p.requiredSecrets := hsame
    rw [hp']
    simp only at h ⊢
    cases hv : m'.validatePackage sha256 p' with
    | some reason => simp
    | none =>
      cases hvalid : m.validatePackage sha256 p with
      | some reason =>
        rw [hvalid] at h
        cases h
      | none =>
        rw [hvalid] at h
        cases vault with
        | none => simp
        | some resolve =>
          simp only [hsecrets] at h ⊢
          cases hm : missingSecrets resolve p.requiredSecrets with
          | error x =>
            rw [hm] at h
            cases h
          | ok missing =>
            by_cases hnil : missing = []
            · simp [Except.map, hnil]
            · simp [Except.map, hnil]

end Marketplace

/-! ## With a store and without -/

/-- A marketplace with a store and one without it, after the same operations. -/
structure Markets where
  stored : Marketplace
  memory : Marketplace

namespace Markets

open Marketplace

def apply (sha256 : String → String) (t : Markets) (op : ℕ × MarketOp) : Markets :=
  ⟨t.stored.apply sha256 op, t.memory.apply sha256 op⟩

/-- Two new marketplaces. -/
def init (guard : Option Guard) : Markets := ⟨{ store := some {}, guard }, { guard }⟩

/-- What should hold after an operation: each of the two lists what is expected, and they list the
same. -/
structure WellListed (sha256 : String → String) (t : Markets) (op : ℕ × MarketOp) : Prop where
  stored : (t.stored.apply sha256 op).installedAs = expected sha256 t.stored op
  memory : (t.memory.apply sha256 op).installedAs = expected sha256 t.memory op
  same : (t.stored.apply sha256 op).installedAs = (t.memory.apply sha256 op).installedAs

/-- A package is accepted by both or by none, nothing is refused while its id is listed, and
nothing is discovered whose id is listed. -/
def Undisturbed (sha256 : String → String) (t : Markets) : ℕ × MarketOp → Prop
  | (_, .install vault i) =>
    (t.stored.fate sha256 vault i = .accepted ↔ t.memory.fate sha256 vault i = .accepted) ∧
      (t.stored.fate sha256 vault i = .refused →
        ∀ x, t.stored.idOf i = some x → t.stored.installedAs x = none) ∧
      (t.memory.fate sha256 vault i = .refused → ∀ x, t.memory.installedAs x ≠ some i)
  | (_, .discover _ items) => ∀ item ∈ recorded items, t.stored.installedAs item.packageId = none
  | _ => True

/-- The two have the same objects, and list the same. -/
structure Abreast (t : Markets) : Prop where
  store : t.stored.store.isSome
  none : t.memory.store = none
  filed : t.stored.Filed
  filed' : t.memory.Filed
  objects : t.stored.objects.map blank = t.memory.objects.map blank
  same : t.stored.installedAs = t.memory.installedAs

variable {sha256 : String → String} {t : Markets}

theorem Abreast.idOf (h : t.Abreast) (i : ℕ) : t.stored.idOf i = t.memory.idOf i := by
  have hget := congrArg (fun ps => (ps[i]?).map fun p : Plugin => p.packageId) h.objects
  simp only [List.getElem?_map, Option.map_map] at hget
  exact hget

theorem fate_of_idOf_none {m : Marketplace} {i : ℕ} (sha256 : String → String)
    (h : m.idOf i = .none) (vault : SecretAnswers) : m.fate sha256 vault i = .raised := by
  unfold Marketplace.idOf at h
  unfold fate
  rw [Option.map_eq_none_iff.1 h]

theorem filter_ne_eq_iff {L : String → Option ℕ} {i : ℕ} :
    (fun x => (L x).filter (· ≠ i)) = L ↔ ∀ x, L x ≠ some i := by
  constructor
  · intro h x hx
    have hfilter := congrFun h x
    simp only [hx] at hfilter
    simp [Option.filter] at hfilter
  · intro h
    funext x
    cases hx : L x with
    | none => rfl
    | some j =>
      have hne : j ≠ i := fun hj => h x (by rw [hx, hj])
      simp [Option.filter, hne]

/-- What `install` makes of the two lists, for an object that is there. -/
theorem install_lists (sha256 : String → String) (h : t.Abreast) (now : ℕ)
    (vault : SecretAnswers) {i : ℕ} {x : String} (hx : t.stored.idOf i = some x) :
    (t.stored.install sha256 now vault i).2.installedAs =
      (match t.stored.fate sha256 vault i with
      | .accepted => Function.update t.stored.installedAs x (some i)
      | .refused => Function.update t.stored.installedAs x none
      | .raised => t.stored.installedAs) ∧
    (t.memory.install sha256 now vault i).2.installedAs =
      (match t.memory.fate sha256 vault i with
      | .accepted => Function.update t.stored.installedAs x (some i)
      | .refused => fun x => (t.stored.installedAs x).filter (· ≠ i)
      | .raised => t.stored.installedAs) ∧
    expected sha256 t.stored (now, .install vault i) =
      (if t.stored.fate sha256 vault i = .accepted then
        Function.update t.stored.installedAs x (some i) else t.stored.installedAs) ∧
    expected sha256 t.memory (now, .install vault i) =
      (if t.memory.fate sha256 vault i = .accepted then
        Function.update t.stored.installedAs x (some i) else t.stored.installedAs) := by
  have hids := h.idOf i
  rw [hx] at hids
  obtain ⟨-, hs⟩ := stored_install h.filed sha256 h.store now vault i
  obtain ⟨-, hm⟩ := memory_install h.filed' sha256 h.none now vault i
  refine ⟨?_, ?_, ?_, ?_⟩
  · rw [hs, hx]
    cases t.stored.fate sha256 vault i with
    | accepted => rfl
    | refused => rfl
    | raised => rfl
  · rw [hm, ← hids, ← h.same]
    cases t.memory.fate sha256 vault i with
    | accepted => rfl
    | refused => rfl
    | raised => rfl
  · unfold expected
    simp only [hx, installs_iff]
  · unfold expected
    simp only [← hids, installs_iff, h.same]

/-- Two lists that start as one are as expected, and the same, after a package meets its two fates,
exactly when these agree and nothing that is refused was listed. -/
theorem fates_iff {L : String → Option ℕ} {x : String} {i : ℕ} {f f' : Fate} :
    (f = .accepted → f' ≠ .raised) → (f' = .accepted → f ≠ .raised) →
    (((match f with
        | .accepted => Function.update L x (some i)
        | .refused => Function.update L x none
        | .raised => L) = (if f = .accepted then Function.update L x (some i) else L) ∧
      (match f' with
        | .accepted => Function.update L x (some i)
        | .refused => fun x => (L x).filter (· ≠ i)
        | .raised => L) = (if f' = .accepted then Function.update L x (some i) else L) ∧
      (match f with
        | .accepted => Function.update L x (some i)
        | .refused => Function.update L x none
        | .raised => L) =
      (match f' with
        | .accepted => Function.update L x (some i)
        | .refused => fun x => (L x).filter (· ≠ i)
        | .raised => L)) ↔
    (f = .accepted ↔ f' = .accepted) ∧ (f = .refused → L x = none) ∧
      (f' = .refused → ∀ y, L y ≠ some i)) := by
  intro hraised hraised'
  have hkeep : Function.update L x none = L ↔ L x = none := by
    rw [Function.update_eq_self_iff, eq_comm]
  cases f with
  | accepted =>
    cases f' with
    | accepted => simp
    | raised => exact absurd rfl (hraised rfl)
    | refused =>
      refine iff_of_false ?_ fun hu => by simp at hu
      -- the package is listed with the store, and not without it
      rintro ⟨-, hmemory, hsame⟩
      have hne := filter_ne_eq_iff.1 hmemory x
      have hlisted := congrFun (hsame.trans hmemory) x
      simp only [Function.update_self] at hlisted
      exact hne hlisted.symm
  | refused =>
    cases f' with
    | accepted =>
      refine iff_of_false ?_ fun hu => by simp at hu
      rintro ⟨-, -, hsame⟩
      have hlisted := congrFun hsame x
      simp only [Function.update_self] at hlisted
      cases hlisted
    | raised =>
      simp only [reduceCtorEq, if_false, true_and, and_true, and_self, hkeep, forall_const,
        false_implies]
    | refused =>
      simp only [reduceCtorEq, if_false, true_and, hkeep, filter_ne_eq_iff, forall_const]
      refine and_congr_right fun hnone => and_iff_left_of_imp fun hne => ?_
      rw [hkeep.2 hnone, filter_ne_eq_iff.2 hne]
  | raised =>
    cases f' with
    | accepted => exact absurd rfl (hraised' rfl)
    | raised => simp
    | refused =>
      simp only [reduceCtorEq, if_false, true_and, filter_ne_eq_iff, forall_const, false_implies]
      exact and_iff_left_of_imp fun hne => (filter_ne_eq_iff.2 hne).symm

/-- There is no such object, and nothing happens. -/
theorem install_missing (h : t.Abreast) (now : ℕ) (vault : SecretAnswers) {i : ℕ}
    (hx : t.stored.idOf i = none) :
    WellListed sha256 t (now, .install vault i) ∧
      Undisturbed sha256 t (now, .install vault i) := by
  have hids := h.idOf i
  rw [hx] at hids
  have hfs := fate_of_idOf_none sha256 hx vault
  have hfm := fate_of_idOf_none sha256 hids.symm vault
  obtain ⟨-, hs⟩ := stored_install h.filed sha256 h.store now vault i
  obtain ⟨-, hm⟩ := memory_install h.filed' sha256 h.none now vault i
  rw [hfs, hx] at hs
  rw [hfm, ← hids] at hm
  have hes : expected sha256 t.stored (now, .install vault i) = t.stored.installedAs := by
    unfold expected
    simp only [hx]
  have hem : expected sha256 t.memory (now, .install vault i) = t.memory.installedAs := by
    unfold expected
    simp only [← hids]
  refine ⟨⟨hs.trans hes.symm, hm.trans hem.symm, hs.trans (h.same.trans hm.symm)⟩, ?_⟩
  unfold Undisturbed
  simp only
  rw [hfs, hfm]
  refine ⟨Iff.rfl, fun hf => ?_, fun hf => ?_⟩
  · cases hf
  · cases hf

/-- **`install`** goes well in both marketplaces exactly when they agree, and nothing that is
refused is listed. -/
theorem wellListed_install (h : t.Abreast) (now : ℕ) (vault : SecretAnswers) (i : ℕ) :
    WellListed sha256 t (now, .install vault i) ↔
      Undisturbed sha256 t (now, .install vault i) := by
  cases hx : t.stored.idOf i with
  | none =>
    obtain ⟨hlisted, hundisturbed⟩ := install_missing h now vault hx
    exact iff_of_true hlisted hundisturbed
  | some x =>
    obtain ⟨hs, hm, hes, hem⟩ := install_lists sha256 h now vault hx
    have hiff : WellListed sha256 t (now, .install vault i) ↔
        (t.stored.install sha256 now vault i).2.installedAs =
          expected sha256 t.stored (now, .install vault i) ∧
        (t.memory.install sha256 now vault i).2.installedAs =
          expected sha256 t.memory (now, .install vault i) ∧
        (t.stored.install sha256 now vault i).2.installedAs =
          (t.memory.install sha256 now vault i).2.installedAs :=
      ⟨fun w => ⟨w.stored, w.memory, w.same⟩, fun w => ⟨w.1, w.2.1, w.2.2⟩⟩
    have hfates := fates_iff (L := t.stored.installedAs) (x := x) (i := i)
      (not_raised sha256 vault i h.objects) (not_raised sha256 vault i h.objects.symm)
    rw [hiff, hs, hm, hes, hem, hfates]
    unfold Undisturbed
    simp only [hx, Option.some.injEq, forall_eq', h.same]

/-- **`discover`** goes well exactly when it finds nothing whose id is listed. -/
theorem wellListed_discover (h : t.Abreast) (now : ℕ) (sourceUrl : String)
    (items : List (Except Exc CatalogItem)) :
    WellListed sha256 t (now, .discover sourceUrl items) ↔
      Undisturbed sha256 t (now, .discover sourceUrl items) := by
  obtain ⟨-, hs, -⟩ := discover_stored now sourceUrl items t.stored h.filed h.store
  obtain ⟨-, hm, -⟩ := discover_memory now sourceUrl items t.memory h.filed' h.none
  constructor
  · rintro ⟨hstored, -, -⟩ item hitem
    have hlisted := congrFun (hs.symm.trans hstored) item.packageId
    simp only [List.mem_map_of_mem (f := fun item : CatalogItem => item.packageId) hitem,
      if_true] at hlisted
    exact hlisted.symm
  · intro hnew
    have hsame : (t.stored.discover now sourceUrl items).2.installedAs = t.stored.installedAs := by
      rw [hs]
      funext x
      by_cases hx : x ∈ (recorded items).map (·.packageId)
      · obtain ⟨item, hitem, rfl⟩ := List.mem_map.1 hx
        rw [if_pos hx]
        exact (hnew item hitem).symm
      · rw [if_neg hx]
    exact ⟨hsame, hm, hsame.trans (h.same.trans hm.symm)⟩

theorem length_objects (h : t.Abreast) : t.stored.objects.length = t.memory.objects.length := by
  have hlen := congrArg List.length h.objects
  rw [List.length_map, List.length_map] at hlen
  exact hlen

/-- **One operation** leaves the list as expected, and the same in both, exactly when it disturbs
nothing. -/
theorem wellListed_iff (h : t.Abreast) (op : ℕ × MarketOp) :
    WellListed sha256 t op ↔ Undisturbed sha256 t op := by
  obtain ⟨now, op⟩ := op
  cases op with
  | install vault i => exact wellListed_install h now vault i
  | discover sourceUrl items => exact wellListed_discover h now sourceUrl items
  | create p =>
    obtain ⟨-, hs⟩ := filed_create h.filed p
    obtain ⟨-, hm⟩ := filed_create h.filed' p
    exact iff_of_true ⟨hs, hm, hs.trans (h.same.trans hm.symm)⟩ trivial
  | registerLocal entrypoint capabilities name =>
    obtain ⟨-, hs⟩ := filed_registerLocal h.filed now entrypoint capabilities name
    obtain ⟨-, hm⟩ := filed_registerLocal h.filed' now entrypoint capabilities name
    refine iff_of_true ⟨hs, hm, hs.trans ?_⟩ trivial
    rw [h.same, length_objects h]
    exact hm.symm
  | uninstall packageId =>
    obtain ⟨-, hs⟩ := filed_uninstall h.filed packageId
    obtain ⟨-, hm⟩ := filed_uninstall h.filed' packageId
    refine iff_of_true ⟨hs, hm, hs.trans ?_⟩ trivial
    rw [h.same]
    exact hm.symm
  | discoverMcpTools sourceUrl tools =>
    obtain ⟨-, hs, -⟩ := filed_mcp h.filed sourceUrl tools
    obtain ⟨-, hm, -⟩ := filed_mcp h.filed' sourceUrl tools
    exact iff_of_true ⟨hs, hm, hs.trans (h.same.trans hm.symm)⟩ trivial

/-- Every operation files its objects, and leaves the store where there is one. -/
theorem filed_apply {m : Marketplace} (sha256 : String → String) (hf : m.Filed) (op : ℕ × MarketOp) :
    (m.apply sha256 op).Filed ∧ (m.apply sha256 op).store.isSome = m.store.isSome := by
  obtain ⟨now, op⟩ := op
  cases op with
  | create p => exact ⟨(filed_create hf p).1, rfl⟩
  | registerLocal entrypoint capabilities name =>
    refine ⟨(filed_registerLocal hf now entrypoint capabilities name).1, ?_⟩
    show (m.store.map _).isSome = _
    rw [Option.isSome_map]
  | discoverMcpTools sourceUrl tools =>
    obtain ⟨hf', -, -, hstore⟩ := filed_mcp hf sourceUrl tools
    exact ⟨hf', hstore⟩
  | uninstall packageId =>
    refine ⟨(filed_uninstall hf packageId).1, ?_⟩
    show (m.uninstall packageId).2.store.isSome = _
    unfold uninstall
    simp only
    split
    · rfl
    · exact Option.isSome_map ..
  | install vault i =>
    have hstore : (m.install sha256 now vault i).2.store.isSome = m.store.isSome := by
      obtain ⟨-, -, hsame⟩ | ⟨p, -, -, hstore, -⟩ := install_cases sha256 m now vault i
      · rw [hsame]
      · rw [hstore, Option.isSome_map]
    cases hs : m.store with
    | none =>
      have hnone := hstore
      rw [hs] at hnone
      exact ⟨(memory_install hf sha256 hs now vault i).1, hnone⟩
    | some s =>
      have hsome := hstore
      rw [hs] at hsome
      exact ⟨(stored_install hf sha256 (by rw [hs]; rfl) now vault i).1, hsome⟩
  | discover sourceUrl items =>
    cases hs : m.store with
    | none =>
      obtain ⟨hf', -, hstore⟩ := discover_memory now sourceUrl items m hf hs
      exact ⟨hf', congrArg Option.isSome hstore⟩
    | some s =>
      obtain ⟨hf', -, hstore⟩ := discover_stored now sourceUrl items m hf (by rw [hs]; rfl)
      exact ⟨hf', hstore⟩

theorem abreast_apply (h : t.Abreast) {op : ℕ × MarketOp} (hw : WellListed sha256 t op) :
    (t.apply sha256 op).Abreast := by
  obtain ⟨hf, hs⟩ := filed_apply sha256 h.filed op
  obtain ⟨hf', hn⟩ := filed_apply sha256 h.filed' op
  obtain ⟨ps, hps⟩ := blank_apply sha256 op
  refine ⟨hs.trans h.store, ?_, hf, hf', ?_, hw.same⟩
  · rw [h.none] at hn
    exact Option.isSome_eq_false_iff.1 hn |> Option.isNone_iff_eq_none.1
  · show (t.stored.apply sha256 op).objects.map blank = (t.memory.apply sha256 op).objects.map blank
    rw [hps _ h.filed, hps _ h.filed', h.objects]

/-- **What is listed as installed** is as expected throughout a run, and the same with a store and
without one, exactly when no operation of the run disturbs it. -/
theorem listing_iff (sha256 : String → String) (guard : Option Guard) (ops : List (ℕ × MarketOp)) :
    EachStep (Markets.apply sha256) (WellListed sha256) (Markets.init guard) ops ↔
      EachStep (Markets.apply sha256) (Undisturbed sha256) (Markets.init guard) ops := by
  have hinit : (Markets.init guard).Abreast := by
    refine ⟨rfl, rfl, ?_, ?_, rfl, rfl⟩
    · intro x i hi
      cases hi
    · intro x i hi
      cases hi
  refine eachStep_iff (A := fun _ _ => True) (I := Abreast) (fun t op _ h hu => ?_)
    (fun t op _ h => wellListed_iff h op) ops _ hinit (eachStep_of_mem (fun _ _ _ => trivial) _)
  exact abreast_apply h ((wellListed_iff h op).2 hu)

/-- **A discovered item unlists** the package that is installed under its id, with a store. -/
theorem discover_unlists : ¬ EachStep (Markets.apply id) (WellListed id) (Markets.init none)
    [(0, .registerLocal "pkg" [] none),
      (1, .discover "http://catalog" [.ok { packageId := "pkg", name := "pkg" }])] := by
  intro h
  obtain ⟨-, hlisted, -⟩ := h
  -- `registerLocal` has listed it
  have hx := congrFun hlisted.stored "pkg"
  revert hx
  decide

end Markets

end Hermes

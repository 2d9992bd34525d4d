import Hermes.Lib.Dag
import Hermes.Proof.MarketStatus

/-!
# The dependencies of installed packages

`validate_package` looks for the dependencies of a package once, among the rows of the store or the
keys of `_installed`, whatever their status. Later operations take packages away, and do not look
for those that depend on them.

* `DependenciesMet`: every dependency of an installed package is installed or in the catalog.
* `dependenciesMet_iff`: the same by what is listed under each id.
* `met_added`, `met_removed`, `met_kept`: what an operation does to it; `met_apply`: every one.
* `dependency_closure_iff`: over every run, with a store and without one.
-/

namespace Hermes

open History Closure

namespace Marketplace

variable {sha256 : String → String} {m m' : Marketplace} {now i : ℕ} {vault : SecretAnswers}
  {x : String} {p : Plugin}

/-- The dependencies of the object at a reference. -/
def dependenciesOf (m : Marketplace) (i : ℕ) : List String :=
  ((m.objects[i]?).map (·.dependencies)).getD []

/-- The ids of the packages that `list_installed` lists. -/
def installedIds (m : Marketplace) : List String := m.listInstalled.filterMap m.idOf

/-- Every dependency of an installed package is installed or offered in the catalog. -/
def DependenciesMet (m : Marketplace) : Prop :=
  ∀ i ∈ m.listInstalled, ∀ d ∈ m.dependenciesOf i, d ∈ m.installedIds ∨ d ∈ m.catalogIds

/-- No installed package but the one with this id depends on it. -/
def NoDependents (m : Marketplace) (x : String) : Prop :=
  ∀ i ∈ m.listInstalled, m.idOf i ≠ some x → x ∉ m.dependenciesOf i

/-- What an operation must not do: install a package whose dependency is known by a failed
installation only, or take away a package that another one depends on, without it being in the
catalog. A refusal takes away the package that is replaced in the store, or whose own object it
is. -/
def LeavesDependencies (sha256 : String → String) (m : Marketplace) : ℕ × MarketOp → Prop
  | (_, .install vault i) => ∀ p, m.objects[i]? = some p →
    (m.refusal sha256 vault p = .ok none →
      ∀ d ∈ p.dependencies, d = p.packageId ∨ d ∈ m.installedIds ∨ d ∈ m.catalogIds) ∧
    (∀ reason, m.refusal sha256 vault p = .ok (some reason) → m.store.isSome ∨ i ∈ m.listInstalled →
      p.packageId ∈ m.catalogIds ∨ m.NoDependents p.packageId)
  | (_, .uninstall packageId) => packageId ∈ m.catalogIds ∨ m.NoDependents packageId
  | _ => True

instance (m : Marketplace) : Decidable m.DependenciesMet :=
  inferInstanceAs (Decidable (∀ i ∈ m.listInstalled, ∀ d ∈ m.dependenciesOf i,
    d ∈ m.installedIds ∨ d ∈ m.catalogIds))

/-! ## By id -/

/-- **What is listed** is listed under its id. -/
theorem mem_listInstalled (hf : m.Filed) :
    i ∈ m.listInstalled ↔ ∃ x, m.installedAs x = some i := by
  rw [listInstalled_eq, List.mem_filter, Dict.mem_values]
  constructor
  · rintro ⟨⟨x, hx⟩, hstatus⟩
    exact ⟨x, by rw [installedAs_of_shelf hf hx, if_pos hstatus]⟩
  · rintro ⟨x, hx⟩
    rw [installedAs_eq hf] at hx
    obtain ⟨hshelf, hstatus⟩ := Option.filter_eq_some_iff.1 hx
    exact ⟨⟨x, hshelf⟩, hstatus⟩

theorem idOf_installedAs (hf : m.Filed) (h : m.installedAs x = some i) : m.idOf i = some x := by
  rw [installedAs_eq hf] at h
  exact hf x i (Option.filter_eq_some_iff.1 h).1

theorem mem_installedIds (hf : m.Filed) : x ∈ m.installedIds ↔ (m.installedAs x).isSome := by
  unfold installedIds
  rw [List.mem_filterMap, Option.isSome_iff_exists]
  constructor
  · rintro ⟨i, hi, hid⟩
    obtain ⟨y, hy⟩ := (mem_listInstalled hf).1 hi
    have hxy : y = x := Option.some.inj ((idOf_installedAs hf hy).symm.trans hid)
    exact ⟨i, hxy ▸ hy⟩
  · rintro ⟨i, hi⟩
    exact ⟨i, (mem_listInstalled hf).2 ⟨x, hi⟩, idOf_installedAs hf hi⟩

/-- **The dependencies are met** when the table of what is listed under each id is closed. -/
theorem dependenciesMet_iff (hf : m.Filed) :
    m.DependenciesMet ↔ Closed m.installedAs m.dependenciesOf (· ∈ m.catalogIds) := by
  unfold DependenciesMet Closed
  simp only [mem_installedIds hf, mem_listInstalled hf]
  constructor
  · exact fun h x i hi d hd => h i ⟨x, hi⟩ d hd
  · rintro h i ⟨x, hi⟩ d hd
    exact h x i hi d hd

theorem noDependents_iff (hf : m.Filed) :
    m.NoDependents x ↔ Unneeded m.installedAs m.dependenciesOf x := by
  unfold NoDependents Unneeded
  simp only [mem_listInstalled hf]
  constructor
  · intro h y i hy hi
    refine h i ⟨y, hi⟩ fun hid => hy ?_
    exact Option.some.inj ((idOf_installedAs hf hi).symm.trans hid)
  · rintro h i ⟨y, hi⟩ hid
    refine h y i (fun hy => hid ?_) hi
    rw [idOf_installedAs hf hi, hy]

/-! ## What the operations leave alone -/

/-- The objects keep their dependencies. -/
theorem dependenciesOf_apply (sha256 : String → String) (hf : m.Filed) (op : ℕ × MarketOp)
    (hi : i < m.objects.length) : (m.apply sha256 op).dependenciesOf i = m.dependenciesOf i := by
  obtain ⟨ps, hps⟩ := blank_apply sha256 op
  have hblank := congrArg (·[i]?) (hps m hf)
  simp only [List.getElem?_map] at hblank
  rw [List.getElem?_append_left (by simpa using hi), List.getElem?_map] at hblank
  -- an object and the one in its place are alike but for what an installation changes
  have hdeps : ∀ o : Option Plugin,
      (o.map (·.dependencies)).getD [] = ((o.map blank).map (·.dependencies)).getD [] := by
    intro o
    cases o with
    | none => rfl
    | some p => rfl
  unfold dependenciesOf
  rw [hdeps, hblank, ← hdeps]

theorem installed_lt (hf : m.Filed) (h : m.installedAs x = some i) : i < m.objects.length :=
  idOf_lt (idOf_installedAs hf h)

/-- After an operation, the old objects may be asked for their dependencies before it. -/
theorem closed_apply (sha256 : String → String) (hf : m.Filed) (op : ℕ × MarketOp)
    {L : String → Option ℕ} {C : String → Prop}
    (hL : ∀ x i, L x = some i → i < m.objects.length) :
    Closed L (m.apply sha256 op).dependenciesOf C ↔ Closed L m.dependenciesOf C :=
  closed_congr fun x i hi => dependenciesOf_apply sha256 hf op (hL x i hi)

/-- The catalog is in the store where there is one. -/
theorem catalogIds_congr (hcatalog : m'.catalog = m.catalog)
    (hstore : m'.store.map (·.catalog) = m.store.map (·.catalog)) : m'.catalogIds = m.catalogIds := by
  unfold catalogIds
  cases hs : m.store with
  | none =>
    rw [hs] at hstore
    rw [Option.map_eq_none_iff.1 hstore, hcatalog]
  | some s =>
    rw [hs] at hstore
    obtain ⟨s', hs', hcat⟩ := Option.map_eq_some_iff.1 hstore
    rw [hs']
    exact congrArg (List.map _) hcat

theorem catalogIds_install (sha256 : String → String) (m : Marketplace) (now : ℕ)
    (vault : SecretAnswers) (i : ℕ) : (m.install sha256 now vault i).2.catalogIds = m.catalogIds := by
  have hcatalog : (m.install sha256 now vault i).2.catalog = m.catalog := by
    unfold install
    cases m.objects[i]? with
    | none => rfl
    | some p =>
      simp only
      cases m.refusal sha256 vault p with
      | error x => rfl
      | ok reason =>
        cases reason with
        | some reason => rfl
        | none =>
          show (m.registerPolicy p).catalog = m.catalog
          unfold registerPolicy
          cases p.policy with
          | none => rfl
          | some policy => rfl
  refine catalogIds_congr hcatalog ?_
  obtain ⟨-, -, hsame⟩ | ⟨p, -, -, hstore, -⟩ := install_cases sha256 m now vault i
  · rw [hsame]
  · rw [hstore, Option.map_map]
    rfl

theorem catalogIds_uninstall (packageId : String) :
    (m.uninstall packageId).2.catalogIds = m.catalogIds := by
  unfold uninstall
  simp only
  split
  · rfl
  · refine catalogIds_congr rfl ?_
    show (m.store.map _).map _ = _
    rw [Option.map_map]
    rfl

/-- A new entry of the catalog. -/
theorem mem_catalogIds_entry (entry : CatalogEntry) (x : String) :
    x ∈ (m.putCatalogEntry entry).catalogIds ↔ x ∈ m.catalogIds ∨ x = entry.packageId := by
  unfold catalogIds putCatalogEntry
  cases m.store with
  | none => simp
  | some s => simp [MarketplaceStore.putCatalogEntry]

theorem catalogIds_mcp (sourceUrl : String) (tools : Except Exc (List String)) (hx : x ∈ m.catalogIds) :
    x ∈ (m.discoverMcpTools sourceUrl tools).2.catalogIds := by
  cases tools with
  | error e => exact hx
  | ok tools =>
    unfold discoverMcpTools
    refine run_invariant _ (fun m' : Marketplace => x ∈ m'.catalogIds) (fun m' tool h => ?_) tools m hx
    exact (mem_catalogIds_entry _ _).2 (.inl h)

/-- What `discover` has recorded is in the catalog. -/
theorem catalogIds_discover (now : ℕ) (sourceUrl : String) (items : List (Except Exc CatalogItem)) :
    ∀ {m : Marketplace}, x ∈ m.catalogIds ∨ x ∈ (recorded items).map (·.packageId) →
      x ∈ (m.discover now sourceUrl items).2.catalogIds := by
  induction items with
  | nil => exact fun hor => hor.resolve_right (by simp [recorded])
  | cons item items ih =>
    intro m hor
    cases item with
    | error e => exact hor.resolve_right (by simp [recorded])
    | ok item =>
      have hitem : ∀ y, y ∈ (m.discoverItem now sourceUrl item).catalogIds ↔
          y ∈ m.catalogIds ∨ y = item.packageId := by
        intro y
        -- a package that is put into the store is not in its catalog
        have hsame : (m.discoverItem now sourceUrl item).catalogIds =
            (m.putCatalogEntry ⟨item.packageId, sourceUrl⟩).catalogIds := by
          refine catalogIds_congr rfl ?_
          unfold discoverItem putPackage putCatalogEntry allocate emit
          simp only [Option.map_map]
          rfl
        rw [hsame, mem_catalogIds_entry]
      refine ih ?_
      rw [hitem]
      simp only [recorded, List.map_cons, List.mem_cons] at hor
      tauto

/-! ## One operation -/

/-- What is listed after a package is accepted. -/
theorem installedAs_accepted (hf : m.Filed) (hid : m.idOf i = some x)
    (hfate : m.fate sha256 vault i = .accepted) (now : ℕ) :
    (m.install sha256 now vault i).2.installedAs = Function.update m.installedAs x (some i) := by
  cases hs : m.store with
  | none =>
    have h := (memory_install hf sha256 hs now vault i).2
    rwa [hfate, hid] at h
  | some s =>
    have h := (stored_install hf sha256 (by rw [hs]; rfl) now vault i).2
    rwa [hfate, hid] at h

/-- What is listed after a package is refused: it takes the place of another one in the store, and
without a store its object is listed no more. -/
theorem installedAs_refused (hf : m.Filed) (hid : m.idOf i = some x)
    (hfate : m.fate sha256 vault i = .refused) (now : ℕ) :
    (m.install sha256 now vault i).2.installedAs =
      if m.store.isSome ∨ i ∈ m.listInstalled then Function.update m.installedAs x none
      else m.installedAs := by
  cases hs : m.store with
  | some s =>
    have h := (stored_install hf sha256 (by rw [hs]; rfl) now vault i).2
    rw [hfate, hid] at h
    rw [if_pos (.inl rfl)]
    exact h
  | none =>
    have h : (m.install sha256 now vault i).2.installedAs =
        fun z => (m.installedAs z).filter (· ≠ i) := by
      have h := (memory_install hf sha256 hs now vault i).2
      rwa [hfate, hid] at h
    refine h.trans ?_
    by_cases hi : i ∈ m.listInstalled
    · rw [if_pos (.inr hi)]
      -- the object is listed, under its own id and no other
      obtain ⟨y, hy⟩ := (mem_listInstalled hf).1 hi
      have hyx : y = x := Option.some.inj ((idOf_installedAs hf hy).symm.trans hid)
      funext z
      by_cases hz : z = x
      · rw [hz, Function.update_self, ← hyx, hy]
        simp
      · rw [Function.update_of_ne hz]
        cases hj : m.installedAs z with
        | none => rfl
        | some j =>
          have hne : j ≠ i := by
            rintro rfl
            exact hz (Option.some.inj ((idOf_installedAs hf hj).symm.trans hid))
          simp [Option.filter, hne]
    · rw [if_neg (by simp [hi])]
      exact Markets.filter_ne_eq_iff.2 fun z hz => hi ((mem_listInstalled hf).2 ⟨z, hz⟩)

/-- Whatever is put under an id or taken from it is one of the old objects. -/
theorem updated_lt (hf : m.Filed) {r : Option ℕ} (hr : ∀ j, r = some j → j < m.objects.length)
    (y : String) (j : ℕ) (hj : Function.update m.installedAs x r y = some j) :
    j < m.objects.length := by
  by_cases hy : y = x
  · rw [hy, Function.update_self] at hj
    exact hr j hj
  · rw [Function.update_of_ne hy] at hj
    exact installed_lt hf hj

/-- **A package is taken away** by an operation that leaves the catalog. -/
theorem met_removed (hf : m.Filed) (hmet : m.DependenciesMet) (op : ℕ × MarketOp)
    (hlist : (m.apply sha256 op).installedAs = Function.update m.installedAs x none)
    (hcatalog : (m.apply sha256 op).catalogIds = m.catalogIds) :
    (m.apply sha256 op).DependenciesMet ↔ x ∈ m.catalogIds ∨ m.NoDependents x := by
  have hclosed := (dependenciesMet_iff hf).1 hmet
  have hlt := updated_lt (x := x) hf (r := none) (by simp)
  rw [dependenciesMet_iff (Markets.filed_apply sha256 hf op).1, hlist, hcatalog, closed_apply sha256 hf op hlt,
    closed_remove hclosed, noDependents_iff hf]

/-- **A package is put in** by an operation that leaves the catalog. -/
theorem met_added (hf : m.Filed) (hmet : m.DependenciesMet) (op : ℕ × MarketOp)
    (hi : i < m.objects.length)
    (hlist : (m.apply sha256 op).installedAs = Function.update m.installedAs x (some i))
    (hcatalog : (m.apply sha256 op).catalogIds = m.catalogIds) :
    (m.apply sha256 op).DependenciesMet ↔
      ∀ d ∈ m.dependenciesOf i, d = x ∨ d ∈ m.installedIds ∨ d ∈ m.catalogIds := by
  have hclosed := (dependenciesMet_iff hf).1 hmet
  have hlt := updated_lt (x := x) hf (r := some i) fun j hj => Option.some.inj hj ▸ hi
  rw [dependenciesMet_iff (Markets.filed_apply sha256 hf op).1, hlist, hcatalog, closed_apply sha256 hf op hlt,
    closed_update hclosed]
  simp only [mem_installedIds hf]

/-- An operation after which the same is listed, or less of what is in the catalog, and the catalog
has not shrunk. -/
theorem met_kept (hf : m.Filed) (hmet : m.DependenciesMet) (op : ℕ × MarketOp)
    (hlist : ∀ y j, (m.apply sha256 op).installedAs y = some j → m.installedAs y = some j)
    (hcatalog : ∀ y, y ∈ m.catalogIds → y ∈ (m.apply sha256 op).catalogIds)
    (hgone : ∀ y, (m.installedAs y).isSome →
      ((m.apply sha256 op).installedAs y).isSome ∨ y ∈ (m.apply sha256 op).catalogIds) :
    (m.apply sha256 op).DependenciesMet := by
  have hclosed := (dependenciesMet_iff hf).1 hmet
  rw [dependenciesMet_iff (Markets.filed_apply sha256 hf op).1, closed_apply sha256 hf op
    fun y j hj => installed_lt hf (hlist y j hj)]
  exact hclosed.shrink hlist hcatalog hgone

/-- An operation after which the same is listed. -/
theorem met_unchanged (hf : m.Filed) (hmet : m.DependenciesMet) (op : ℕ × MarketOp)
    (hlist : (m.apply sha256 op).installedAs = m.installedAs)
    (hcatalog : ∀ y, y ∈ m.catalogIds → y ∈ (m.apply sha256 op).catalogIds) :
    (m.apply sha256 op).DependenciesMet := by
  refine met_kept hf hmet op (fun y j hj => ?_) hcatalog fun y hy => .inl ?_
  · rwa [hlist] at hj
  · rwa [hlist]

theorem leaves_install (hp : m.objects[i]? = some p) :
    LeavesDependencies sha256 m (now, .install vault i) ↔
      (m.refusal sha256 vault p = .ok none →
        ∀ d ∈ p.dependencies, d = p.packageId ∨ d ∈ m.installedIds ∨ d ∈ m.catalogIds) ∧
      (∀ reason, m.refusal sha256 vault p = .ok (some reason) →
        m.store.isSome ∨ i ∈ m.listInstalled →
          p.packageId ∈ m.catalogIds ∨ m.NoDependents p.packageId) := by
  constructor
  · exact fun h => h p hp
  · intro h p' hp'
    obtain rfl : p = p' := Option.some.inj (hp.symm.trans hp')
    exact h

/-- **`install`** meets the dependencies exactly when it leaves them. -/
theorem met_install (hf : m.Filed) (hmet : m.DependenciesMet) (now : ℕ) (vault : SecretAnswers)
    (i : ℕ) : (m.apply sha256 (now, .install vault i)).DependenciesMet ↔
      LeavesDependencies sha256 m (now, .install vault i) := by
  have hcatalog := catalogIds_install sha256 m now vault i
  have hraised : m.fate sha256 vault i = .raised →
      (m.apply sha256 (now, .install vault i)).DependenciesMet := by
    intro hfate
    obtain ⟨-, -, hsame⟩ | ⟨p, -, -, -, ⟨hfate', -⟩ | ⟨hfate', -⟩⟩ :=
      install_cases sha256 m now vault i
    · show (m.install sha256 now vault i).2.DependenciesMet
      rw [hsame]
      exact hmet
    · rw [hfate] at hfate'
      cases hfate'
    · rw [hfate] at hfate'
      cases hfate'
  cases hp : m.objects[i]? with
  | none =>
    refine iff_of_true (hraised ?_) fun p hp' => ?_
    · unfold fate
      rw [hp]
    · rw [hp] at hp'
      cases hp'
  | some p =>
    have hid : m.idOf i = some p.packageId := by
      unfold idOf
      rw [hp]
      rfl
    rw [leaves_install hp]
    cases hr : m.refusal sha256 vault p with
    | error e =>
      refine iff_of_true (hraised ?_) ⟨nofun, nofun⟩
      unfold fate
      simp only [hp, hr]
    | ok reason =>
      cases reason with
      | none =>
        have hfate : m.fate sha256 vault i = .accepted := by
          unfold fate
          simp only [hp, hr]
        have hdeps : m.dependenciesOf i = p.dependencies := by
          unfold dependenciesOf
          rw [hp]
          rfl
        have hlt := (List.getElem?_eq_some_iff.1 hp).1
        rw [met_added hf hmet (now, .install vault i) hlt (installedAs_accepted hf hid hfate now) hcatalog, hdeps]
        exact ⟨fun h => ⟨fun _ => h, nofun⟩, fun h => h.1 rfl⟩
      | some reason =>
        have hfate : m.fate sha256 vault i = .refused := by
          unfold fate
          simp only [hp, hr]
        have hlist := installedAs_refused hf hid hfate now
        by_cases hgone : m.store.isSome ∨ i ∈ m.listInstalled
        · rw [if_pos hgone] at hlist
          rw [met_removed hf hmet (now, .install vault i) hlist hcatalog]
          exact ⟨fun h => ⟨nofun, fun _ _ _ => h⟩, fun h => h.2 reason rfl hgone⟩
        · rw [if_neg hgone] at hlist
          refine iff_of_true ?_ ⟨nofun, fun _ _ hgone' => absurd hgone' hgone⟩
          exact met_unchanged hf hmet _ hlist fun y hy => hcatalog ▸ hy

/-- **A discovery** meets them: what it finds takes the place of what is installed, and is in the
catalog. -/
theorem met_discover (hf : m.Filed) (hmet : m.DependenciesMet) (now : ℕ) (sourceUrl : String)
    (items : List (Except Exc CatalogItem)) :
    (m.apply sha256 (now, .discover sourceUrl items)).DependenciesMet := by
  have hadded : ∀ y, y ∈ m.catalogIds ∨ y ∈ (recorded items).map (·.packageId) →
      y ∈ (m.apply sha256 (now, .discover sourceUrl items)).catalogIds :=
    fun y => catalogIds_discover now sourceUrl items
  cases hs : m.store with
  | none =>
    exact met_unchanged hf hmet _ (discover_memory now sourceUrl items m hf hs).2.1
      fun y hy => hadded y (.inl hy)
  | some s =>
    have hlist : (m.apply sha256 (now, .discover sourceUrl items)).installedAs = fun y =>
        if y ∈ (recorded items).map (·.packageId) then none else m.installedAs y :=
      (discover_stored now sourceUrl items m hf (by rw [hs]; rfl)).2.1
    refine met_kept hf hmet _ (fun y j hj => ?_) (fun y hy => hadded y (.inl hy)) fun y hy => ?_
    · rw [hlist] at hj
      simp only at hj
      split at hj
      · cases hj
      · exact hj
    · by_cases hfound : y ∈ (recorded items).map (·.packageId)
      · exact .inr (hadded y (.inr hfound))
      · rw [hlist]
        simp only [if_neg hfound]
        exact .inl hy

/-- **A local entrypoint** has no dependencies. -/
theorem met_registerLocal (hf : m.Filed) (hmet : m.DependenciesMet) (now : ℕ) (entrypoint : String)
    (capabilities : List String) (name : Option String) :
    (m.apply sha256 (now, .registerLocal entrypoint capabilities name)).DependenciesMet := by
  have hclosed := (dependenciesMet_iff hf).1 hmet
  obtain ⟨hf', hlist⟩ := filed_registerLocal hf now entrypoint capabilities name
  have hnew : (m.registerLocal now entrypoint capabilities name).dependenciesOf m.objects.length =
      [] := by
    unfold dependenciesOf registerLocal
    show (((m.objects ++ [_])[m.objects.length]?).map _).getD [] = _
    rw [List.getElem?_append_right le_rfl, Nat.sub_self]
    rfl
  have hcatalog : (m.registerLocal now entrypoint capabilities name).catalogIds = m.catalogIds := by
    refine catalogIds_congr rfl ?_
    show (m.store.map _).map _ = _
    rw [Option.map_map]
    rfl
  show (m.registerLocal now entrypoint capabilities name).DependenciesMet
  rw [dependenciesMet_iff hf', hlist, hcatalog]
  refine (closed_update ?_ _ _).2 (by simp [hnew])
  exact (closed_apply sha256 hf (now, .registerLocal entrypoint capabilities name)
    fun y j hj => installed_lt hf hj).2 hclosed

/-- **One operation** meets the dependencies exactly when it leaves them. -/
theorem met_apply (hf : m.Filed) (hmet : m.DependenciesMet) (op : ℕ × MarketOp) :
    (m.apply sha256 op).DependenciesMet ↔ LeavesDependencies sha256 m op := by
  obtain ⟨now, op⟩ := op
  cases op with
  | install vault i => exact met_install hf hmet now vault i
  | uninstall packageId =>
    exact met_removed hf hmet _ (filed_uninstall hf packageId).2 (catalogIds_uninstall packageId)
  | create p =>
    exact iff_of_true (met_unchanged hf hmet _ (filed_create hf p).2 fun y hy => hy) trivial
  | discoverMcpTools sourceUrl tools =>
    refine iff_of_true (met_unchanged hf hmet _ (filed_mcp hf sourceUrl tools).2.1 ?_) trivial
    exact fun y hy => catalogIds_mcp sourceUrl tools hy
  | discover sourceUrl items => exact iff_of_true (met_discover hf hmet now sourceUrl items) trivial
  | registerLocal entrypoint capabilities name =>
    exact iff_of_true (met_registerLocal hf hmet now entrypoint capabilities name) trivial

/-! ## Runs -/

/-- A new marketplace, with a store or without one. -/
def new (hasStore : Bool) (guard : Option Guard) : Marketplace :=
  { store := if hasStore then some {} else none, guard := guard }

theorem filed_new (hasStore : Bool) (guard : Option Guard) : (new hasStore guard).Filed := by
  intro x i hi
  cases hasStore with
  | false => cases hi
  | true => cases hi

/-- **The dependencies of installed packages** are installed or in the catalog throughout a run
exactly when no operation leaves them. -/
theorem dependency_closure_iff (sha256 : String → String) (hasStore : Bool) (guard : Option Guard)
    (ops : List (ℕ × MarketOp)) :
    Throughout (apply sha256) DependenciesMet (new hasStore guard) ops ↔
      EachStep (apply sha256) (LeavesDependencies sha256) (new hasStore guard) ops := by
  have hstart : (new hasStore guard).DependenciesMet := by
    cases hasStore with
    | false => nofun
    | true => nofun
  exact throughout_iff (A := fun _ => True) (fun _ op _ hf => (Markets.filed_apply sha256 hf op).1)
    (fun _ op _ hf hmet => met_apply hf hmet op) ops _ (fun _ _ => trivial)
    (filed_new hasStore guard) hstart

/-- A package that a caller makes, with one dependency. -/
def dependent (packageId dependency : String) : Plugin :=
  { packageId := packageId, capabilities := [], name := packageId, source := .remote,
    entrypoint := packageId, dependencies := [dependency] }

/-- A package that fails to install, and one that depends on it. -/
def dependsOnFailed : List (ℕ × MarketOp) :=
  [(0, .create (dependent "a" "missing")), (1, .install none 0), (2, .create (dependent "b" "a")),
    (3, .install none 1)]

/-- **The failed package counts as installed** for the one that depends on it. -/
theorem failed_dependency_known :
    ¬ Throughout (apply id) DependenciesMet (new true none) dependsOnFailed := by
  rintro ⟨-, -, -, -, hmet⟩
  revert hmet
  decide

end Marketplace

end Hermes

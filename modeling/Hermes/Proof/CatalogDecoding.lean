import Hermes.Spec.Catalog

/-!
# What is left of a package in a catalog

`discover` reads an item field by field, and two fields are not among them.

* `decode_toJson`: what is decoded of the JSON of a package.
* `Declared`: two packages declare the same.
* `discover_recorded`: what a marketplace has of an item after `discover`.
* `discover_complete_iff`: when that is all that the package declares.
-/

namespace Hermes

namespace Catalog

variable {num : Numbers} {iso : ℕ → String} {now i : ℕ} {sourceUrl : String} {p q : PluginPackage}
  {d : Discoveries}

/-! ## One field after the other -/

theorem asStr_textJson (s : String) : asStr (textJson s) = .ok s := by
  have hchars : ∀ cs : List Char, chars? (cs.map .char) = some cs := by
    intro cs
    induction cs with
    | nil => rfl
    | cons c cs ih =>
      show (chars? (cs.map .char)).map (c :: ·) = _
      rw [ih]
      rfl
  have htext : chars? (py s) = some s.toList := hchars s.toList
  unfold asStr textJson
  simp only [htext]
  exact congrArg Except.ok String.ofList_toList

theorem asTexts_textsJson (xs : List String) : asTexts (xs.map textJson) = .ok xs := by
  induction xs with
  | nil => rfl
  | cons x xs ih =>
    rw [List.map_cons]
    unfold asTexts
    rw [asStr_textJson, ih]
    rfl

theorem asOptional_orNull (x : Option String) : asOptional (orNull (x.map textJson)) = .ok x := by
  cases x with
  | none => rfl
  | some s =>
    show (asStr (textJson s)).map some = _
    rw [asStr_textJson]
    rfl

theorem sourceOf_textJson (source : PluginSource) : sourceOf (textJson source.value) = .ok source := by
  cases source <;> rfl

theorem asDict_entries (d : Dict String Json) (kvs : List (String × Json)) :
    asDict d ((kvs.map fun kv => (py kv.1, kv.2)).map fun kv => (.str kv.1, kv.2)) =
      .ok (kvs.foldl (fun d kv => d.insert kv.1 kv.2) d) := by
  induction kvs generalizing d with
  | nil => rfl
  | cons kv kvs ih =>
    rw [List.map_cons, List.map_cons]
    unfold asDict
    have hkey : asStr (.str (py kv.1)) = .ok kv.1 := asStr_textJson kv.1
    rw [hkey]
    exact ih (d.insert kv.1 kv.2)

/-- What `discover` makes of the JSON of a package. -/
def PluginPackage.discovered (now : ℕ) (p : PluginPackage) : PluginPackage :=
  { p with status := .available, installedAt := none, createdAt := now, policy := none,
           requiredSecrets := [] }

/-- **What is decoded** of the JSON of a package: all but how far it was installed, its policy and the
secrets that it requires. -/
theorem packageOf_fields (p : PluginPackage) : packageOf now i (p.fields iso) = .ok (p.discovered now) := by
  have hid : (p.fields iso).lookup (py "package_id") = some (textJson p.packageId) := rfl
  have hname : (p.fields iso).lookup (py "name") = some (textJson p.name) := rfl
  have hversion : (p.fields iso).lookup (py "version") = some (textJson p.version) := rfl
  have hsource : (p.fields iso).lookup (py "source") = some (textJson p.source.value) := rfl
  have hentrypoint : (p.fields iso).lookup (py "entrypoint") = some (textJson p.entrypoint) := rfl
  have hcapabilities : (p.fields iso).lookup (py "capabilities") =
      some (.arr (p.capabilities.map textJson)) := rfl
  have hdependencies : (p.fields iso).lookup (py "dependencies") =
      some (.arr (p.dependencies.map textJson)) := rfl
  have hchecksum : (p.fields iso).lookup (py "checksum") = some (orNull (p.checksum.map textJson)) := rfl
  have hsignature : (p.fields iso).lookup (py "signature") =
      some (orNull (p.signature.map textJson)) := rfl
  have hmetadata : (p.fields iso).lookup (py "metadata") =
      some (.obj (p.metadata.entries.map fun kv => (py kv.1, kv.2))) := rfl
  simp only [packageOf, get, index, hid, hname, hversion, hsource, hentrypoint, hcapabilities, hdependencies,
    hchecksum, hsignature, hmetadata, Option.getD_some, sourceOf_textJson, pyList, pyDict,
    asStr_textJson, asTexts_textsJson, asOptional_orNull, asDict_entries, Dict.foldl_insert_entries,
    bind, Except.bind, pure, Except.pure]
  rfl

theorem decode_toJson (p : PluginPackage) : decode num now i sourceUrl (p.toJson iso) =
    .ok (p.discovered now,
      { packageId := p.packageId, sourceUrl, rating := ⟨"0.0", some 0⟩, downloadCount := 0 }) := by
  show (packageOf now i (p.fields iso) >>= fun package =>
    entryOf num sourceUrl package.packageId (p.fields iso) >>= fun entry => pure (package, entry)) = _
  rw [packageOf_fields]
  rfl

/-! ## What is declared -/

/-- `q` declares what `p` does. -/
structure Declared (p q : PluginPackage) : Prop where
  packageId : q.packageId = p.packageId
  name : q.name = p.name
  version : q.version = p.version
  source : q.source = p.source
  entrypoint : q.entrypoint = p.entrypoint
  capabilities : q.capabilities = p.capabilities
  dependencies : q.dependencies = p.dependencies
  checksum : q.checksum = p.checksum
  signature : q.signature = p.signature
  metadata : q.metadata = p.metadata
  policy : q.policy = p.policy
  requiredSecrets : q.requiredSecrets = p.requiredSecrets

theorem declared_discovered_iff (now : ℕ) (p : PluginPackage) :
    Declared p (p.discovered now) ↔ p.policy = none ∧ p.requiredSecrets = [] := by
  constructor
  · intro h
    exact ⟨h.policy.symm, h.requiredSecrets.symm⟩
  · rintro ⟨hpolicy, hsecrets⟩
    exact ⟨rfl, rfl, rfl, rfl, rfl, rfl, rfl, rfl, rfl, rfl, hpolicy.symm, hsecrets.symm⟩

/-! ## A whole catalog -/

/-- The package is on record under its id: in memory, and in the store, if there is one. -/
def Discoveries.Has (d : Discoveries) (q : PluginPackage) : Prop :=
  d.available.get? q.packageId = some q ∧
    ∀ catalog packages, d.store = some (catalog, packages) → packages.get? q.packageId = some q

theorem Discoveries.record_has (d : Discoveries) (sourceUrl : String) (q : PluginPackage)
    (entry : Entry) : (d.record sourceUrl q entry).Has q := by
  refine ⟨Dict.get?_insert_self .., fun catalog packages hstore => ?_⟩
  obtain ⟨⟨catalog', packages'⟩, -, heq⟩ := Option.map_eq_some_iff.1 hstore
  cases heq
  exact Dict.get?_insert_self ..

/-- A package with another id leaves it there. -/
theorem Discoveries.Has.record (h : d.Has q) (sourceUrl : String) (entry : Entry)
    (hother : p.packageId ≠ q.packageId) : (d.record sourceUrl p entry).Has q := by
  refine ⟨(Dict.get?_insert_of_ne _ (Ne.symm hother) _).trans h.1, fun catalog packages hstore => ?_⟩
  obtain ⟨⟨catalog', packages'⟩, hstore', heq⟩ := Option.map_eq_some_iff.1 hstore
  cases heq
  exact (Dict.get?_insert_of_ne _ (Ne.symm hother) _).trans (h.2 catalog' packages' hstore')

/-- No item, from the `i`-th on, is of a package with this id. -/
def Others (num : Numbers) (now : ℕ) (sourceUrl packageId : String) (i : ℕ) (items : List Json) : Prop :=
  ∀ j item r, items[j]? = some item → decode num now (i + j) sourceUrl item = .ok r →
    r.1.packageId ≠ packageId

/-- All items, from the `i`-th on, can be decoded. -/
def Readable (num : Numbers) (now : ℕ) (sourceUrl : String) (i : ℕ) (items : List Json) : Prop :=
  ∀ j item, items[j]? = some item → ∃ r, decode num now (i + j) sourceUrl item = .ok r

theorem Others.tail {packageId : String} {item : Json} {items : List Json}
    (h : Others num now sourceUrl packageId i (item :: items)) :
    Others num now sourceUrl packageId (i + 1) items := by
  intro j item' r hitem hr
  have hplace : i + 1 + j = i + (j + 1) := by omega
  rw [hplace] at hr
  exact h (j + 1) item' r hitem hr

theorem Readable.tail {item : Json} {items : List Json}
    (h : Readable num now sourceUrl i (item :: items)) :
    Readable num now sourceUrl (i + 1) items := by
  intro j item' hitem
  have hplace : i + 1 + j = i + (j + 1) := by omega
  rw [hplace]
  exact h (j + 1) item' hitem

/-- Items of other packages leave a package on record. -/
theorem discover_keeps (items : List Json) (hothers : Others num now sourceUrl q.packageId i items)
    (h : d.Has q) : (discover num now sourceUrl i items d).2.Has q := by
  induction items generalizing i d with
  | nil => exact h
  | cons item items ih =>
    unfold discover
    cases hdecode : decode num now i sourceUrl item with
    | error e => exact h
    | ok r =>
      obtain ⟨p, entry⟩ := r
      exact ih hothers.tail (h.record sourceUrl entry (hothers 0 item _ rfl hdecode))

/-- **What is on record** of an item that is reached and whose package is not recorded anew. -/
theorem discover_recorded (before after : List Json) (p : PluginPackage)
    (hbefore : Readable num now sourceUrl i before)
    (hafter : Others num now sourceUrl p.packageId (i + before.length + 1) after) :
    (discover num now sourceUrl i (before ++ p.toJson iso :: after) d).2.Has (p.discovered now) := by
  induction before generalizing i d with
  | nil =>
    rw [List.nil_append]
    unfold discover
    rw [decode_toJson]
    exact discover_keeps after hafter (Discoveries.record_has _ _ _ _)
  | cons item before ih =>
    obtain ⟨⟨r, entry⟩, hr⟩ := hbefore 0 item rfl
    rw [List.cons_append]
    unfold discover
    have hdecode : decode num now i sourceUrl item = .ok (r, entry) := hr
    rw [hdecode]
    refine ih hbefore.tail ?_
    have hplace : i + 1 + before.length + 1 = i + (item :: before).length + 1 := by
      rw [List.length_cons]
      omega
    rw [hplace]
    exact hafter

/-- **A package comes through a catalog** as it was declared exactly when it declares no policy and
requires no secrets. The items before it can be decoded, so that it is reached, and none after it is of
a package with its id. -/
theorem discover_complete_iff (num : Numbers) (iso : ℕ → String) (now : ℕ) (sourceUrl : String)
    (d : Discoveries) (before after : List Json) (p : PluginPackage)
    (hbefore : Readable num now sourceUrl 0 before)
    (hafter : Others num now sourceUrl p.packageId (before.length + 1) after) :
    (∃ q, (discover num now sourceUrl 0 (before ++ p.toJson iso :: after) d).2.Has q ∧ Declared p q) ↔
      p.policy = none ∧ p.requiredSecrets = [] := by
  have hrecorded : (discover num now sourceUrl 0 (before ++ p.toJson iso :: after) d).2.Has
      (p.discovered now) :=
    discover_recorded before after p hbefore (by rwa [Nat.zero_add])
  rw [← declared_discovered_iff now p]
  constructor
  · rintro ⟨q, hq, hdeclared⟩
    have hsame : some q = some (p.discovered now) := by
      rw [← hq.1, hdeclared.packageId]
      exact hrecorded.1
    exact Option.some.inj hsame ▸ hdeclared
  · exact fun h => ⟨p.discovered now, hrecorded, h⟩

/-- A package that may read files, and requires a token. -/
def readerPackage : PluginPackage where
  packageId := "pkg.reader"
  name := "reader"
  version := "1.0"
  source := .remote
  entrypoint := "plugins.reader"
  createdAt := 0
  policy := some { permissions := [⟨"file.read", "*"⟩] }
  requiredSecrets := ["token"]

/-- Conversions that always raise. -/
def noNumbers : Numbers where
  float _ := .error (typeError "no number")
  int _ := .error (typeError "no number")

/-- A package without policy and secrets, alone in a catalog. -/
theorem discover_complete_plain :
    ∃ q, (discover noNumbers 1 "https://catalog" 0 ([] ++ PluginPackage.toJson (fun _ => "")
        { readerPackage with policy := none, requiredSecrets := [] } :: []) {}).2.Has q ∧
      Declared { readerPackage with policy := none, requiredSecrets := [] } q :=
  (discover_complete_iff noNumbers (fun _ => "") 1 "https://catalog" {} [] []
    { readerPackage with policy := none, requiredSecrets := [] } (fun j item h => by simp at h)
    (fun j item r h => by simp at h)).2 ⟨rfl, rfl⟩

/-- **A policy and a secret are lost**: a package that may only read files, and requires a token, is on
record without either. -/
theorem discover_drops_policy :
    ∃ q, (discover noNumbers 1 "https://catalog" 0 [readerPackage.toJson fun _ => ""] {}).2.Has q ∧
      q.policy = none ∧ q.requiredSecrets = [] ∧ ¬ Declared readerPackage q := by
  refine ⟨readerPackage.discovered 1, ?_, rfl, rfl, fun h => ?_⟩
  · exact discover_recorded [] [] readerPackage (fun j item h => by simp at h)
      (fun j item r h => by simp at h)
  · cases h.policy

end Catalog

/-!
## Installing what a catalog had

The marketplace whose packages are objects does with the items of a catalog what `discover` does with
their JSON. What it installs of them then is under no policy and asks for no secret.

* `Shows`: the objects of a marketplace are what it has discovered.
* `discover_shows`: `discover` keeps it so.
* `discovered_unguarded`: the installation of a package that came through a catalog.
-/

namespace Catalog

variable {num : Numbers} {iso : ℕ → String} {now i : ℕ} {sourceUrl : String} {q : PluginPackage}
  {d : Discoveries} {m : Marketplace} {plugin : Plugin} {objects : List Plugin}
  {packages : Dict String PluginPackage} {refs : Dict String ℕ}

/-- The object has the fields of the package. -/
structure Mirrors (q : PluginPackage) (plugin : Plugin) : Prop where
  packageId : plugin.packageId = q.packageId
  name : plugin.name = q.name
  version : plugin.version = q.version
  source : plugin.source = q.source
  entrypoint : plugin.entrypoint = q.entrypoint
  capabilities : plugin.capabilities = q.capabilities
  dependencies : plugin.dependencies = q.dependencies
  checksum : plugin.checksum = q.checksum
  status : plugin.status = q.status
  installedAt : plugin.installedAt = q.installedAt
  createdAt : plugin.createdAt = q.createdAt
  policy : Option.Rel (fun s g => g.permissions = s.permissions ∧
    g.maxCalls = s.resourceLimits.maxCalls ∧ s.resourceLimits.cpuMs.value = some (g.cpuMs : ℚ))
    q.policy plugin.policy
  requiredSecrets : plugin.requiredSecrets = q.requiredSecrets

/-- The references are to objects that have the fields of the packages. -/
structure Holds (packages : Dict String PluginPackage) (objects : List Plugin) (refs : Dict String ℕ) :
    Prop where
  placed : ∀ id j, refs.get? id = some j → j < objects.length
  mirrors : ∀ id, Option.Rel Mirrors (packages.get? id) ((refs.get? id).bind (objects[·]?))

/-- The marketplace has what was discovered. -/
structure Shows (d : Discoveries) (m : Marketplace) : Prop where
  catalog : m.catalog = d.catalog.map (·.toCatalogEntry)
  available : Holds d.available m.objects m.available
  store : Option.Rel (fun s t => t.catalog = s.1.map (·.toCatalogEntry) ∧
    Holds s.2 m.objects t.packages) d.store m.store
  events : m.events = d.events

/-- A package as an item of a catalog. -/
def PluginPackage.toItem (q : PluginPackage) : CatalogItem where
  packageId := q.packageId
  name := q.name
  version := q.version
  source := q.source
  entrypoint := q.entrypoint
  capabilities := q.capabilities
  dependencies := q.dependencies
  checksum := q.checksum

/-- The items of a catalog, from the `i`-th on, up to the first that raises. -/
def decoded (num : Numbers) (now : ℕ) (sourceUrl : String) : ℕ → List Json → List (Except Exc CatalogItem)
  | _, [] => []
  | i, item :: items => (decode num now i sourceUrl item).map (·.1.toItem) ::
      decoded num now sourceUrl (i + 1) items

/-! ## One item -/

/-- A new object, under its id. -/
theorem Holds.insert (h : Holds packages objects refs) (hmirrors : Mirrors q plugin) :
    Holds (packages.insert q.packageId q) (objects ++ [plugin])
      (refs.insert q.packageId objects.length) where
  placed id j hj := by
    rw [List.length_append, List.length_singleton]
    rw [Dict.get?_insert] at hj
    split at hj
    · cases hj
      omega
    · have hlt := h.placed id j hj
      omega
  mirrors id := by
    rw [Dict.get?_insert, Dict.get?_insert]
    split
    · rw [Option.bind_some, List.getElem?_concat_length]
      exact .some hmirrors
    · cases hj : refs.get? id with
      | none =>
        have hid := h.mirrors id
        rw [hj] at hid
        exact hid
      | some j =>
        have hid := h.mirrors id
        rw [hj, Option.bind_some] at hid
        rw [Option.bind_some, List.getElem?_append_left (h.placed id j hj)]
        exact hid

theorem rel_map {α β α' β' : Type} {R : α → β → Prop} {S : α' → β' → Prop} {f : α → α'} {g : β → β'}
    {a : Option α} {b : Option β} (h : Option.Rel R a b) (hfg : ∀ x y, R x y → S (f x) (g y)) :
    Option.Rel S (a.map f) (b.map g) := by
  cases h with
  | some h => exact .some (hfg _ _ h)
  | none => exact .none

theorem bind_ok {α β : Type} {x : Except Exc α} {f : α → Except Exc β} {b : β}
    (h : (x >>= f) = .ok b) : ∃ a, x = .ok a ∧ f a = .ok b := by
  cases x with
  | error e => cases h
  | ok a => exact ⟨a, rfl, h⟩

/-- **A package of a catalog** is available, and under no policy and no precondition. -/
theorem packageOf_new {kvs : List (PyStr × Json)} (h : packageOf now i kvs = .ok q) :
    q.status = .available ∧ q.installedAt = none ∧ q.createdAt = now ∧ q.policy = none ∧
      q.requiredSecrets = [] := by
  simp only [packageOf] at h
  -- no field that is read ends up in one of these
  repeat obtain ⟨_, -, h⟩ := bind_ok h
  cases h
  exact ⟨rfl, rfl, rfl, rfl, rfl⟩

theorem entryOf_new {packageId : String} {kvs : List (PyStr × Json)} {entry : Entry}
    (h : entryOf num sourceUrl packageId kvs = .ok entry) :
    entry.toCatalogEntry = ⟨packageId, sourceUrl⟩ := by
  simp only [entryOf] at h
  obtain ⟨_, -, h⟩ := bind_ok h
  obtain ⟨_, -, h⟩ := bind_ok h
  cases h
  rfl

/-- **One item**, recorded on either side. -/
theorem record_shows (h : Shows d m) {item : Json} {entry : Entry}
    (hdecode : decode num now i sourceUrl item = .ok (q, entry)) :
    Shows (d.record sourceUrl q entry) (m.discoverItem now sourceUrl q.toItem) := by
  cases item with
  | obj kvs =>
    obtain ⟨q', hq, hentry⟩ := bind_ok hdecode
    obtain ⟨entry', hentry', heq⟩ := bind_ok hentry
    cases heq
    obtain ⟨hstatus, hinstalled, hcreated, hpolicy, hsecrets⟩ := packageOf_new hq
    have hcatalog := entryOf_new hentry'
    have hmirrors : Mirrors q
        { packageId := q.packageId, capabilities := q.capabilities, name := q.name,
          version := q.version, source := q.source, entrypoint := q.entrypoint,
          dependencies := q.dependencies, checksum := q.checksum, createdAt := now } :=
      ⟨rfl, rfl, rfl, rfl, rfl, rfl, rfl, rfl, hstatus.symm, hinstalled.symm, hcreated.symm,
        by rw [hpolicy]; exact .none, hsecrets.symm⟩
    refine ⟨?_, h.available.insert hmirrors, ?_, ?_⟩
    · show m.catalog ++ [_] = (d.catalog ++ [entry]).map (·.toCatalogEntry)
      rw [List.map_append, List.map_singleton, hcatalog, h.catalog]
      rfl
    · show Option.Rel _ (d.store.map _) ((m.store.map _).map _)
      rw [Option.map_map]
      refine rel_map h.store fun s t hst => ⟨?_, hst.2.insert hmirrors⟩
      show t.catalog ++ [_] = (s.1 ++ [entry]).map (·.toCatalogEntry)
      rw [List.map_append, List.map_singleton, hcatalog, hst.1]
      rfl
    · show m.events ++ [_] = d.events ++ [_]
      rw [h.events]
      rfl
  | _ => cases hdecode

/-! ## Both marketplaces -/

/-- **The items of a catalog**, recorded on either side. -/
theorem discover_shows (items : List Json) (h : Shows d m) :
    (m.discover now sourceUrl (decoded num now sourceUrl i items)).1 =
        (discover num now sourceUrl i items d).1 ∧
      Shows (discover num now sourceUrl i items d).2
        (m.discover now sourceUrl (decoded num now sourceUrl i items)).2 := by
  induction items generalizing i d m with
  | nil => exact ⟨rfl, h⟩
  | cons item items ih =>
    unfold decoded discover Marketplace.discover
    cases hdecode : decode num now i sourceUrl item with
    | error e => exact ⟨rfl, h⟩
    | ok r => exact ih (record_shows h hdecode)

/-- The installation of an object without policy and required secrets. -/
theorem install_unguarded (sha256 : String → String) (moment : ℕ) (vault : SecretAnswers) {j : ℕ}
    (hobject : m.objects[j]? = some plugin) (hpolicy : plugin.policy = none)
    (hsecrets : plugin.requiredSecrets = []) :
    m.install sha256 moment vault j = m.install sha256 moment none j ∧
      (m.install sha256 moment vault j).2.guard = m.guard := by
  have hrefusal : m.refusal sha256 vault plugin = m.refusal sha256 none plugin := by
    unfold Marketplace.refusal
    cases m.validatePackage sha256 plugin with
    | some reason => rfl
    | none =>
      cases vault with
      | none => rfl
      | some resolve =>
        rw [hsecrets]
        rfl
  have hregister : m.registerPolicy plugin = m := by
    unfold Marketplace.registerPolicy
    rw [hpolicy]
  unfold Marketplace.install
  simp only [hobject, hrefusal, hregister]
  cases m.refusal sha256 none plugin with
  | error e => exact ⟨rfl, rfl⟩
  | ok reason =>
    cases reason with
    | some reason => exact ⟨rfl, rfl⟩
    | none =>
      simp only [hsecrets, ne_eq, not_true_eq_false, false_and]
      exact ⟨trivial, rfl⟩

/-- **A package that came through a catalog** is installed without its policy, and whatever the vault
would say about its secrets. -/
theorem discovered_unguarded (sha256 : String → String) (h : Shows d m) (before after : List Json)
    (p : PluginPackage) (hbefore : Readable num now sourceUrl 0 before)
    (hafter : Others num now sourceUrl p.packageId (before.length + 1) after) :
    let items := decoded num now sourceUrl 0 (before ++ p.toJson iso :: after)
    let m' := (m.discover now sourceUrl items).2
    ∃ j, m'.available.get? p.packageId = some j ∧ ∀ moment vault,
      m'.install sha256 moment vault j = m'.install sha256 moment none j ∧
        (m'.install sha256 moment vault j).2.guard = m'.guard := by
  intro items m'
  have hshows : Shows (discover num now sourceUrl 0 (before ++ p.toJson iso :: after) d).2 m' :=
    (discover_shows _ h).2
  have hrecorded : (discover num now sourceUrl 0 (before ++ p.toJson iso :: after) d).2.Has
      (p.discovered now) := discover_recorded before after p hbefore
    (by rwa [Nat.zero_add])
  have hmirrors := hshows.available.mirrors p.packageId
  have hget : (discover num now sourceUrl 0 (before ++ p.toJson iso :: after) d).2.available.get?
      p.packageId = some (p.discovered now) := hrecorded.1
  rw [hget] at hmirrors
  obtain ⟨plugin, hplugin, hfields⟩ : ∃ plugin, (m'.available.get? p.packageId).bind
      (m'.objects[·]?) = some plugin ∧ Mirrors (p.discovered now) plugin := by
    generalize (m'.available.get? p.packageId).bind (m'.objects[·]?) = found at hmirrors
    cases hmirrors with
    | some hfields => exact ⟨_, rfl, hfields⟩
  obtain ⟨j, hj, hobject⟩ := Option.bind_eq_some_iff.1 hplugin
  have hpolicy : plugin.policy = none := by
    have hrel := hfields.policy
    generalize plugin.policy = policy at hrel
    cases hrel
    rfl
  exact ⟨j, hj, fun moment vault =>
    install_unguarded sha256 moment vault hobject hpolicy hfields.requiredSecrets⟩

end Catalog

end Hermes

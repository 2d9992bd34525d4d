import Hermes.Lib.History
import Hermes.Proof.StoreContents
import Hermes.Proof.VaultIsolation

/-!
# The versions of three vaults

* `cachedAt`, `storedAt`, `foundAt`: the entry of the cache, of the store, and the one
  that an operation finds.
* `set_cachedAt`, `get_answer`, `delete_shared`: what an operation makes of them.
* `Trio`: vaults without a store, over the in-memory store and over SQLite, after the
  same operations.
* `Uniform`: they answer alike, emit the same, and raise a version by one.
* `Unshared`: a `set` finds the same version everywhere, a `get` finds an entry in the
  cache or nowhere, a `delete` finds none.
* `uniform_of_unshared`, `unshared_of_uniform`, `uniform_iff`: a run of such operations
  is uniform, and no other run is, but for a `delete` that finds different objects in the
  cache and in the store.
* `delete_counts_twice`: a `delete` over the in-memory store.
-/

namespace Hermes

open History

namespace Vault

variable {s : Vault} {now : ℕ} {t u : Triple} {value changedBy : String}

/-! ## What a vault finds -/

/-- The cached entry under a key. -/
def cachedAt (s : Vault) (k : String) : Option ConfigEntry := (s.config.get? k).bind s.heap

/-- The entry that the store has for a triple. -/
def storedAt (s : Vault) (t : Triple) : Option ConfigEntry :=
  (s.store.getConfig s.heap 0 t).map (·.2)

/-- The cached entry, else the stored one. -/
def foundAt (s : Vault) (t : Triple) : Option ConfigEntry :=
  (s.cachedAt (ckey t)).or (s.storedAt t)

/-- The version of an entry, if there is one; the first version is 1. -/
def versionOf (e : Option ConfigEntry) : ℤ := (e.map (·.version)).getD 0

/-- The addresses that the cache and an in-memory store hold are older than `now`. -/
structure Dated (s : Vault) (now : ℕ) : Prop where
  cache : ∀ k i, s.config.get? k = some i → i.time < now
  store : ∀ config secrets audit, s.store = .memory config secrets audit →
    ∀ k i, config.get? k = some i → i.time < now

theorem map_cached (s : Vault) (t : Triple) : (s.cached t).map (·.2) = s.cachedAt (ckey t) := by
  unfold cached cachedAt
  cases s.config.get? (ckey t) with
  | none => rfl
  | some i =>
    cases hi : s.heap i with
    | none => simp [hi]
    | some e => simp [hi]

/-- The clock gives a new object its address, and nothing else. -/
theorem map_getConfig (s : Vault) (now : ℕ) (t : Triple) :
    (s.store.getConfig s.heap now t).map (·.2) = s.storedAt t := by
  unfold storedAt Store.getConfig
  cases s.store with
  | none => rfl
  | memory config secrets audit => rfl
  | sqlite config secrets audit =>
    simp only [Option.map_map]
    rfl

theorem map_lookup (s : Vault) (now : ℕ) (t : Triple) :
    (s.lookup now t).map (·.2) = s.foundAt t := by
  unfold lookup foundAt
  rw [Option.map_or, map_cached, map_getConfig]

/-! ## What an operation makes of it -/

/-- The entry that `set` makes. -/
def nextEntry (s : Vault) (now : ℕ) (t : Triple) (value : String) : ConfigEntry :=
  { t with value, version := versionOf (s.foundAt t) + 1, updatedAt := now }

/-- The vault once an entry for a triple is written to the cache and the store. -/
def written (s : Vault) (now : ℕ) (t : Triple) (e : ConfigEntry) : Vault :=
  (s.bind (ckey t) ⟨now, ckey t⟩ e).putConfig ⟨now, ckey t⟩ e

theorem set_eq (s : Vault) (now : ℕ) (t : Triple) (value changedBy : String) :
    s.set now t value changedBy = (s.nextEntry now t value,
      (s.written now t (s.nextEntry now t value)).emit
        (.configChanged t.scope t.scopeId t.key (s.nextEntry now t value).version changedBy)) := by
  unfold Vault.set nextEntry
  rw [← map_lookup s now t]
  cases s.lookup now t with
  | none => rfl
  | some x => rfl

theorem written_store (s : Vault) (now : ℕ) (t : Triple) (e : ConfigEntry) :
    (s.written now t e).store = match s.store with
      | .none => .none
      | .memory config secrets audit =>
        .memory (config.insert (skey e.toTriple) ⟨now, ckey t⟩) secrets audit
      | .sqlite config secrets audit =>
        .sqlite (Store.replace config (pk e.toTriple) e.toRow) secrets audit := by
  unfold written Vault.putConfig Vault.bind Store.putConfig
  cases s.store with
  | none => rfl
  | memory config secrets audit => rfl
  | sqlite config secrets audit => rfl

theorem written_heap (s : Vault) (now : ℕ) (t : Triple) (e : ConfigEntry) (j : ObjId) :
    (s.written now t e).heap j = if j = ⟨now, ckey t⟩ then some e else s.heap j := by
  unfold written Vault.putConfig Store.putConfig Vault.bind Heap.put
  cases s.store with
  | none => rfl
  | sqlite config secrets audit => rfl
  | memory config secrets audit =>
    simp only
    split
    · rfl
    · rfl

/-- What older addresses hold is still there. -/
theorem written_old {k : String} {d : Dict String ObjId}
    (hd : ∀ k i, d.get? k = some i → i.time < now) (e : ConfigEntry) :
    (d.get? k).bind (s.written now t e).heap = (d.get? k).bind s.heap := by
  cases hi : d.get? k with
  | none => rfl
  | some i =>
    have hne : i ≠ ⟨now, ckey t⟩ := by
      rintro rfl
      exact absurd (hd k _ hi) (lt_irrefl _)
    exact (written_heap s now t e i).trans (if_neg hne)

/-- **An entry that is written** is in the cache, -/
theorem written_cachedAt (hd : s.Dated now) (e : ConfigEntry) :
    (s.written now t e).cachedAt = Function.update s.cachedAt (ckey t) (some e) := by
  funext k
  unfold cachedAt
  show ((s.config.insert (ckey t) ⟨now, ckey t⟩).get? k).bind _ = _
  rw [Dict.get?_insert, Function.update_apply]
  by_cases hk : k = ckey t
  · rw [if_pos hk, if_pos hk, Option.bind_some, written_heap, if_pos rfl]
  · rw [if_neg hk, if_neg hk]
    exact written_old hd.cache e

/-- and in an in-memory store under its composed key, -/
theorem written_memory {config secrets audit} (hstore : s.store = .memory config secrets audit)
    (hd : s.Dated now) {e : ConfigEntry} (he : e.toTriple = t) :
    (s.written now t e).storedAt =
      fun u => if skey u = skey t then some e else s.storedAt u := by
  have hshape : (s.written now t e).store =
      .memory (config.insert (skey t) ⟨now, ckey t⟩) secrets audit := by
    rw [written_store, hstore, he]
  funext u
  unfold storedAt Store.getConfig
  simp only [hshape, hstore, Dict.get?_insert]
  by_cases hu : skey u = skey t
  · simp only [hu, if_true, Option.bind_some, written_heap]
    rfl
  · have hold := written_old (s := s) (t := t) (k := skey u) (hd.store config secrets audit hstore) e
    simp only [hu, if_false]
    cases hi : config.get? (skey u) with
    | none => rfl
    | some i =>
      rw [hi] at hold
      simp only [Option.bind_some] at hold ⊢
      rw [hold]

/-- or in a SQLite store under its primary key. -/
theorem written_sqlite {config secrets audit} (hstore : s.store = .sqlite config secrets audit)
    {e : ConfigEntry} (he : e.toTriple = t) :
    (s.written now t e).storedAt = fun u =>
      if pk u = pk t then some (rowToConfig (pk t) e.toRow) else s.storedAt u := by
  have hshape : (s.written now t e).store =
      .sqlite (Store.replace config (pk t) e.toRow) secrets audit := by
    rw [written_store, hstore, he]
  funext u
  unfold storedAt Store.getConfig
  simp only [hshape, hstore, ConfigStore.get?_replace]
  by_cases hu : pk u = pk t
  · simp [hu]
  · simp [hu]

/-- **`set`** is an update of the cache. -/
theorem set_cachedAt (hd : s.Dated now) (t : Triple) (value changedBy : String) :
    (s.set now t value changedBy).2.cachedAt =
      Function.update s.cachedAt (ckey t) (some (s.nextEntry now t value)) := by
  rw [set_eq]
  exact written_cachedAt hd _

theorem set_events (s : Vault) (now : ℕ) (t : Triple) (value changedBy : String) :
    (s.set now t value changedBy).2.events = s.events ++
      [.configChanged t.scope t.scopeId t.key (s.nextEntry now t value).version changedBy] := by
  rw [set_eq]
  rfl

/-- **`set`** is an update of an in-memory store under the composed key, -/
theorem set_memory {config secrets audit} (hstore : s.store = .memory config secrets audit)
    (hd : s.Dated now) (t : Triple) (value changedBy : String) :
    (s.set now t value changedBy).2.storedAt = fun u =>
      if skey u = skey t then some (s.nextEntry now t value) else s.storedAt u := by
  have htriple : (s.nextEntry now t value).toTriple = t := rfl
  rw [set_eq]
  exact written_memory hstore hd htriple

/-- and of a SQLite store under the primary key. -/
theorem set_sqlite {config secrets audit} (hstore : s.store = .sqlite config secrets audit)
    (now : ℕ) (t : Triple) (value changedBy : String) :
    (s.set now t value changedBy).2.storedAt = fun u =>
      if pk u = pk t then some (rowToConfig (pk t) (s.nextEntry now t value).toRow)
      else s.storedAt u := by
  have htriple : (s.nextEntry now t value).toTriple = t := rfl
  rw [set_eq]
  exact written_sqlite hstore htriple

theorem Dated.mono {now' : ℕ} (hd : s.Dated now) (h : now ≤ now') : s.Dated now' :=
  ⟨fun k i hi => (hd.cache k i hi).trans_le h,
    fun config secrets audit hstore k i hi =>
      (hd.store config secrets audit hstore k i hi).trans_le h⟩

theorem Dated.written (hd : s.Dated now) (t : Triple) (e : ConfigEntry) :
    (s.written now t e).Dated (now + 1) := by
  have hinsert : ∀ (d : Dict String ObjId) (k : String), (∀ k i, d.get? k = some i → i.time < now) →
      ∀ j i, (d.insert k ⟨now, ckey t⟩).get? j = some i → i.time < now + 1 := by
    intro d k hold j i hi
    rw [Dict.get?_insert] at hi
    split at hi
    · obtain rfl := Option.some.inj hi
      exact lt_add_one now
    · exact (hold j i hi).trans (lt_add_one now)
  refine ⟨hinsert s.config (ckey t) hd.cache, fun config secrets audit hstore => ?_⟩
  rw [written_store] at hstore
  cases hs : s.store with
  | none =>
    rw [hs] at hstore
    cases hstore
  | sqlite config' secrets' audit' =>
    rw [hs] at hstore
    cases hstore
  | memory config' secrets' audit' =>
    rw [hs] at hstore
    obtain ⟨rfl, -, -⟩ := Store.memory.inj hstore
    exact hinsert config' _ (hd.store config' secrets' audit' hs)

theorem Dated.set (hd : s.Dated now) (t : Triple) (value changedBy : String) :
    (s.set now t value changedBy).2.Dated (now + 1) := by
  have hwritten := hd.written t (s.nextEntry now t value)
  rw [set_eq]
  exact ⟨hwritten.cache, hwritten.store⟩

/-- **`get`** gives the value of what it finds. -/
theorem get_answer (s : Vault) (now : ℕ) (t : Triple) (default : Option String) :
    (s.get now t default).1 = match s.foundAt t with
      | none => default
      | some e => if e.deleted then default else some e.value := by
  rw [← map_lookup s now t]
  unfold Vault.get
  cases s.lookup now t with
  | none => rfl
  | some x => rfl

theorem lookup_eq_none (h : s.foundAt t = none) (now : ℕ) : s.lookup now t = none := by
  rw [← map_lookup s now t] at h
  exact Option.map_eq_none_iff.1 h

theorem get_missing (h : s.foundAt t = none) (now : ℕ) (default : Option String) :
    s.get now t default = (default, s) := by
  unfold Vault.get
  rw [lookup_eq_none h]

theorem delete_missing (h : s.foundAt t = none) (now : ℕ) (changedBy : String) :
    s.delete now t changedBy = (false, s) := by
  unfold Vault.delete
  rw [lookup_eq_none h]

/-- **`delete`** returns whether it finds an entry. -/
theorem delete_answer (s : Vault) (now : ℕ) (t : Triple) (changedBy : String) :
    (s.delete now t changedBy).1 = (s.foundAt t).isSome := by
  rw [← map_lookup s now t, Option.isSome_map]
  unfold Vault.delete
  cases s.lookup now t with
  | none => rfl
  | some x => rfl

/-- A cached entry has an address. -/
theorem lookup_of_cached {e : ConfigEntry} (h : s.cachedAt (ckey t) = some e) :
    ∃ i, s.config.get? (ckey t) = some i ∧ s.heap i = some e ∧
      ∀ now, s.lookup now t = some (i, e) := by
  obtain ⟨i, hi, he⟩ := Option.bind_eq_some_iff.1 h
  refine ⟨i, hi, he, fun now => ?_⟩
  unfold lookup cached
  rw [hi, Option.bind_some, he]
  rfl

/-- **`get` of a cached entry** changes nothing. -/
theorem get_cached {e : ConfigEntry} (h : s.cachedAt (ckey t) = some e) (now : ℕ)
    (default : Option String) :
    (s.get now t default).2.cachedAt = s.cachedAt ∧
      (s.get now t default).2.storedAt = s.storedAt ∧
      (s.get now t default).2.store = s.store ∧ (s.get now t default).2.events = s.events ∧
      (s.Dated now → (s.get now t default).2.Dated now) := by
  obtain ⟨i, hi, he, hlookup⟩ := lookup_of_cached h
  have hstate : (s.get now t default).2 = s.bind (ckey t) i e := by
    unfold Vault.get
    rw [hlookup now]
  have hheap : s.heap.put i e = s.heap := by
    funext j
    unfold Heap.put
    split
    · rename_i hj
      rw [hj, he]
    · rfl
  have hget : ∀ k, (s.config.insert (ckey t) i).get? k = s.config.get? k := by
    intro k
    rw [Dict.get?_insert]
    split
    · rename_i hk
      rw [hk, hi]
    · rfl
  rw [hstate]
  refine ⟨funext fun k => ?_, funext fun u => ?_, rfl, rfl, fun hd => ⟨fun k j hj => ?_, hd.store⟩⟩
  · unfold cachedAt Vault.bind
    simp only [hheap, hget]
  · unfold storedAt Vault.bind
    simp only [hheap]
  · exact hd.cache k j ((hget k).symm.trans hj)

/-- `delete` without a store emits the next version. -/
theorem delete_bare {e : ConfigEntry} (hstore : s.store = .none)
    (h : s.cachedAt (ckey t) = some e) (now : ℕ) (changedBy : String) :
    (s.delete now t changedBy).2.events = s.events ++
      [.configChanged t.scope t.scopeId t.key (e.version + 1) changedBy] := by
  obtain ⟨i, hi, he, hlookup⟩ := lookup_of_cached h
  unfold Vault.delete
  rw [hlookup now]
  simp only
  unfold Vault.deleteConfig Store.deleteConfig Store.getConfig Vault.bind
  simp [hstore, Heap.put, Vault.emit, Store.markDeleted]

/-- The address of the entry that an in-memory store has for a triple. -/
def storeAddress (s : Vault) (t : Triple) : Option ObjId :=
  match s.store with
  | .memory config _ _ => config.get? (skey t)
  | _ => none

/-- A stored entry has an address, in memory. -/
theorem storeAddress_of_stored {e : ConfigEntry} {config secrets audit}
    (hstore : s.store = .memory config secrets audit) (h : s.storedAt t = some e) :
    ∃ i, s.storeAddress t = some i := by
  unfold storedAt Store.getConfig at h
  simp only [hstore] at h
  obtain ⟨x, hx, -⟩ := Option.map_eq_some_iff.1 h
  obtain ⟨i, hi, -⟩ := Option.bind_eq_some_iff.1 hx
  refine ⟨i, ?_⟩
  unfold storeAddress
  simp only [hstore]
  exact hi

/-- **`delete` of an object that the store holds, too**, raises its version twice. -/
theorem delete_shared {e : ConfigEntry} {i : ObjId} (h : s.cachedAt (ckey t) = some e)
    (hi : s.config.get? (ckey t) = some i) (hshared : s.storeAddress t = some i) (now : ℕ)
    (changedBy : String) :
    (s.delete now t changedBy).2.events = s.events ++
      [.configChanged t.scope t.scopeId t.key (e.version + 2) changedBy] := by
  obtain ⟨j, hj, he, hlookup⟩ := lookup_of_cached h
  obtain rfl : i = j := Option.some.inj (hi.symm.trans hj)
  unfold storeAddress at hshared
  cases hs : s.store with
  | none =>
    rw [hs] at hshared
    cases hshared
  | sqlite config secrets audit =>
    rw [hs] at hshared
    cases hshared
  | memory config secrets audit =>
    rw [hs] at hshared
    simp only at hshared
    unfold Vault.delete
    rw [hlookup now]
    simp only
    unfold Vault.deleteConfig Store.deleteConfig Store.getConfig Vault.bind
    simp [hs, hshared, Heap.put, Store.putConfig, Vault.emit, Store.markDeleted]
    ring

/-- `delete` of a cached entry that the store does not have leaves the store. -/
theorem delete_unstored {e : ConfigEntry} {config secrets audit}
    (hstore : s.store = .memory config secrets audit) (h : s.cachedAt (ckey t) = some e)
    (hnone : s.storedAt t = none) (now : ℕ) (changedBy : String) :
    (s.delete now t changedBy).2.storedAt t = none := by
  obtain ⟨i, hi, he, hlookup⟩ := lookup_of_cached h
  have hget : s.store.getConfig (s.heap.put i (Store.markDeleted now e)) now t = none := by
    unfold storedAt Store.getConfig at hnone
    unfold Store.getConfig
    simp only [hstore, Option.map_eq_none_iff, Option.bind_eq_none_iff] at hnone ⊢
    intro j hj
    have hdangling := hnone j hj
    have hne : j ≠ i := by
      rintro rfl
      rw [he] at hdangling
      cases hdangling
    unfold Heap.put
    rw [if_neg hne, hdangling]
  have hdelete : s.store.deleteConfig (s.heap.put i (Store.markDeleted now e)) now t =
      (s.heap.put i (Store.markDeleted now e), s.store) := by
    unfold Store.deleteConfig
    rw [hget]
  have hstate : ((s.delete now t changedBy).2.store, (s.delete now t changedBy).2.heap) =
      (s.store, s.heap.put i (Store.markDeleted now e)) := by
    unfold Vault.delete
    rw [hlookup now]
    simp only
    unfold Vault.deleteConfig Vault.bind Vault.emit
    simp only [hdelete]
  obtain ⟨hs, hh⟩ := Prod.mk.inj hstate
  rw [← map_getConfig _ now, hs, hh, hget]
  rfl

end Vault

/-! ## Three vaults -/

/-- An operation; a `get` is asked with every default. -/
inductive TrioOp where
  | set (t : Triple) (value changedBy : String)
  | get (t : Triple)
  | delete (t : Triple) (changedBy : String)
  deriving DecidableEq, Repr

/-- Vaults without a store, over the in-memory store and over SQLite, after the same operations. -/
structure Trio where
  bare : Vault := Backend.none.vault
  memory : Vault := Backend.memory.vault
  sqlite : Vault := Backend.sqlite.vault
  now : ℕ := 0

namespace Trio

open Vault

/-- The vault after an operation. What a `get` leaves does not depend on the default. -/
def after (now : ℕ) (v : Vault) : TrioOp → Vault
  | .set t value changedBy => (v.set now t value changedBy).2
  | .get t => (v.get now t none).2
  | .delete t changedBy => (v.delete now t changedBy).2

def step (s : Trio) (op : TrioOp) : Trio :=
  ⟨after s.now s.bare op, after s.now s.memory op, after s.now s.sqlite op, s.now + 1⟩

/-- Two vaults answer an operation alike. -/
def AnswerAlike (now : ℕ) (v v' : Vault) : TrioOp → Prop
  | .set t value changedBy => (v'.set now t value changedBy).1 = (v.set now t value changedBy).1
  | .get t => ∀ default, (v'.get now t default).1 = (v.get now t default).1
  | .delete t changedBy => (v'.delete now t changedBy).1 = (v.delete now t changedBy).1

/-- The version of a key is one higher in the vault, and in its store. -/
def RaisedByOne (v v' : Vault) (t : Triple) : Prop :=
  versionOf (v'.foundAt t) = versionOf (v.foundAt t) + 1 ∧
    (v.store.isNone = false → versionOf (v'.storedAt t) = versionOf (v.storedAt t) + 1)

/-- A `set`, and a `delete` that returns true, raise the version by one. -/
def Raises (now : ℕ) (v : Vault) : TrioOp → Prop
  | .set t value changedBy => RaisedByOne v (v.set now t value changedBy).2 t
  | .get _ => True
  | .delete t changedBy => (v.delete now t changedBy).1 = true →
      RaisedByOne v (v.delete now t changedBy).2 t

/-- **The three vaults are uniform** in an operation. -/
structure Uniform (s : Trio) (op : TrioOp) : Prop where
  memory : AnswerAlike s.now s.bare s.memory op
  sqlite : AnswerAlike s.now s.bare s.sqlite op
  memoryEvents : (s.step op).memory.events = (s.step op).bare.events
  sqliteEvents : (s.step op).sqlite.events = (s.step op).bare.events
  raises : ∀ v ∈ [s.bare, s.memory, s.sqlite], Raises s.now v op

/-- A `set` finds the same version in the cache and in both stores, a `get` finds an entry in the
cache or nothing in the store, a `delete` finds nothing. -/
def Unshared (s : Trio) : TrioOp → Prop
  | .set t _ _ => versionOf (s.memory.storedAt t) = versionOf (s.bare.cachedAt (ckey t)) ∧
      versionOf (s.sqlite.storedAt t) = versionOf (s.bare.cachedAt (ckey t))
  | .get t => s.bare.cachedAt (ckey t) ≠ none ∨ s.memory.storedAt t = none
  | .delete t _ => s.bare.cachedAt (ckey t) = none ∧ s.memory.storedAt t = none

/-- A `delete` finds one object in the cache and in the in-memory store, if there is one in each. -/
def OneObject (s : Trio) : TrioOp → Prop
  | .delete t _ => ∀ i j, s.memory.config.get? (ckey t) = some i →
      s.memory.storeAddress t = some j → i = j
  | _ => True

/-- What the operations keep that share no object that they change. -/
structure InStep (s : Trio) : Prop where
  bareStore : s.bare.store = .none
  memoryStore : ∃ config secrets audit, s.memory.store = .memory config secrets audit
  sqliteStore : ∃ config secrets audit, s.sqlite.store = .sqlite config secrets audit
  bareDated : s.bare.Dated s.now
  memoryDated : s.memory.Dated s.now
  sqliteDated : s.sqlite.Dated s.now
  memoryCache : s.memory.cachedAt = s.bare.cachedAt
  sqliteCache : s.sqlite.cachedAt = s.bare.cachedAt
  alive : ∀ t e, s.memory.storedAt t = some e → e.deleted = false
  rows : ∀ t, s.memory.storedAt t = none → s.sqlite.storedAt t = none
  memoryEvents : s.memory.events = s.bare.events
  sqliteEvents : s.sqlite.events = s.bare.events

theorem dated_vault (b : Backend) (now : ℕ) : b.vault.Dated now := by
  have hempty : ∀ k i, (∅ : Dict String ObjId).get? k = some i → i.time < now := by
    intro k i hi
    cases hi
  cases b with
  | none =>
    refine ⟨hempty, fun config secrets audit hstore => ?_⟩
    cases hstore
  | memory =>
    refine ⟨hempty, fun config secrets audit hstore => ?_⟩
    obtain ⟨rfl, -, -⟩ := Store.memory.inj hstore
    exact hempty
  | sqlite =>
    refine ⟨hempty, fun config secrets audit hstore => ?_⟩
    cases hstore

theorem inStep_init : ({} : Trio).InStep where
  bareStore := rfl
  memoryStore := ⟨∅, ∅, [], rfl⟩
  sqliteStore := ⟨∅, ∅, ∅, rfl⟩
  bareDated := dated_vault .none 0
  memoryDated := dated_vault .memory 0
  sqliteDated := dated_vault .sqlite 0
  memoryCache := rfl
  sqliteCache := rfl
  alive := fun t e h => by cases h
  rows := fun t h => rfl
  memoryEvents := rfl
  sqliteEvents := rfl

variable {s : Trio} {t : Triple}

theorem storedAt_bare (h : s.InStep) (t : Triple) : s.bare.storedAt t = none := by
  unfold storedAt Store.getConfig
  rw [h.bareStore]
  rfl

theorem foundAt_bare (h : s.InStep) (t : Triple) : s.bare.foundAt t = s.bare.cachedAt (ckey t) := by
  unfold foundAt
  rw [storedAt_bare h, Option.or_none]

/-- A version that is in the store as well is the one that is found. -/
theorem versionOf_or {a b : Option ConfigEntry} (h : versionOf b = versionOf a) :
    versionOf (a.or b) = versionOf a := by
  cases a with
  | none => exact h
  | some e => rfl

/-! ## `set` -/

/-- The entry that `set` makes is the same in two vaults exactly when they find one version. -/
theorem nextEntry_eq_iff {v v' : Vault} {now : ℕ} {value : String} :
    v'.nextEntry now t value = v.nextEntry now t value ↔
      versionOf (v'.foundAt t) = versionOf (v.foundAt t) := by
  constructor
  · intro h
    have hversion := congrArg (·.version) h
    unfold nextEntry at hversion
    simp only at hversion
    omega
  · intro h
    unfold nextEntry
    rw [h]

theorem answerAlike_set_iff {v v' : Vault} {now : ℕ} {value changedBy : String} :
    AnswerAlike now v v' (.set t value changedBy) ↔
      versionOf (v'.foundAt t) = versionOf (v.foundAt t) := by
  show (v'.set now t value changedBy).1 = (v.set now t value changedBy).1 ↔ _
  rw [set_eq, set_eq]
  exact nextEntry_eq_iff

/-- The version that a store has after `set`. -/
theorem storedAt_set {v : Vault} {now : ℕ} (hd : v.Dated now) (hstore : v.store.isNone = false)
    (value changedBy : String) :
    versionOf ((v.set now t value changedBy).2.storedAt t) = versionOf (v.foundAt t) + 1 := by
  cases hs : v.store with
  | none =>
    rw [hs] at hstore
    cases hstore
  | memory config secrets audit =>
    rw [set_memory hs hd]
    simp only [if_true]
    rfl
  | sqlite config secrets audit =>
    rw [set_sqlite hs]
    simp only [if_true]
    rfl

/-- **`set` raises the version by one** exactly when the store has the version that is found. -/
theorem raises_set_iff {v : Vault} {now : ℕ} (hd : v.Dated now) (value changedBy : String) :
    Raises now v (.set t value changedBy) ↔
      (v.store.isNone = false → versionOf (v.storedAt t) = versionOf (v.foundAt t)) := by
  have hfound : (v.set now t value changedBy).2.foundAt t = some (v.nextEntry now t value) := by
    unfold foundAt
    rw [set_cachedAt hd, Function.update_self]
    rfl
  show versionOf ((v.set now t value changedBy).2.foundAt t) = _ ∧ _ ↔ _
  rw [hfound]
  refine (and_iff_right rfl).trans ?_
  constructor
  · intro h hstore
    have hraised := h hstore
    rw [storedAt_set hd hstore] at hraised
    omega
  · intro h hstore
    rw [storedAt_set hd hstore, h hstore]

/-- **Vaults are uniform in a `set`** exactly when the cache and both stores have one version. -/
theorem uniform_set_iff (h : s.InStep) (t : Triple) (value changedBy : String) :
    Uniform s (.set t value changedBy) ↔ Unshared s (.set t value changedBy) := by
  obtain ⟨config, secrets, audit, hmemory⟩ := h.memoryStore
  obtain ⟨config', secrets', audit', hsqlite⟩ := h.sqliteStore
  have hbare := foundAt_bare h t
  have hm : s.memory.foundAt t = (s.bare.cachedAt (ckey t)).or (s.memory.storedAt t) := by
    unfold foundAt
    rw [h.memoryCache]
  have hq : s.sqlite.foundAt t = (s.bare.cachedAt (ckey t)).or (s.sqlite.storedAt t) := by
    unfold foundAt
    rw [h.sqliteCache]
  have hraises := fun (v : Vault) (hd : v.Dated s.now) =>
    raises_set_iff (t := t) hd value changedBy
  constructor
  · rintro ⟨hmem, hsql, -, -, hall⟩
    have hm' := answerAlike_set_iff.1 hmem
    have hq' := answerAlike_set_iff.1 hsql
    have hms := (hraises _ h.memoryDated).1 (hall s.memory (by simp)) (by rw [hmemory]; rfl)
    have hqs := (hraises _ h.sqliteDated).1 (hall s.sqlite (by simp)) (by rw [hsqlite]; rfl)
    rw [hbare] at hm' hq'
    exact ⟨hms.trans hm', hqs.trans hq'⟩
  · rintro ⟨hms, hqs⟩
    have hm' : versionOf (s.memory.foundAt t) = versionOf (s.bare.foundAt t) := by
      rw [hm, hbare, versionOf_or hms]
    have hq' : versionOf (s.sqlite.foundAt t) = versionOf (s.bare.foundAt t) := by
      rw [hq, hbare, versionOf_or hqs]
    -- all three write one entry
    have hme : s.memory.nextEntry s.now t value = s.bare.nextEntry s.now t value :=
      nextEntry_eq_iff.2 hm'
    have hqe : s.sqlite.nextEntry s.now t value = s.bare.nextEntry s.now t value :=
      nextEntry_eq_iff.2 hq'
    refine ⟨answerAlike_set_iff.2 hm', answerAlike_set_iff.2 hq', ?_, ?_, fun v hv => ?_⟩
    · show (s.memory.set s.now t value changedBy).2.events =
        (s.bare.set s.now t value changedBy).2.events
      rw [set_events, set_events, hme, h.memoryEvents]
    · show (s.sqlite.set s.now t value changedBy).2.events =
        (s.bare.set s.now t value changedBy).2.events
      rw [set_events, set_events, hqe, h.sqliteEvents]
    · simp only [List.mem_cons, List.not_mem_nil, or_false] at hv
      rcases hv with rfl | rfl | rfl
      · refine (hraises _ h.bareDated).2 fun hstore => ?_
        rw [h.bareStore] at hstore
        cases hstore
      · refine (hraises _ h.memoryDated).2 fun _ => ?_
        rw [hm', hbare]
        exact hms
      · refine (hraises _ h.sqliteDated).2 fun _ => ?_
        rw [hq', hbare]
        exact hqs

theorem inStep_set (h : s.InStep) {t : Triple} {value changedBy : String}
    (hu : Unshared s (.set t value changedBy)) : (s.step (.set t value changedBy)).InStep := by
  have huniform := (uniform_set_iff h t value changedBy).2 hu
  obtain ⟨config, secrets, audit, hmemory⟩ := h.memoryStore
  obtain ⟨config', secrets', audit', hsqlite⟩ := h.sqliteStore
  have hme : s.memory.nextEntry s.now t value = s.bare.nextEntry s.now t value :=
    nextEntry_eq_iff.2 (answerAlike_set_iff.1 huniform.memory)
  have hqe : s.sqlite.nextEntry s.now t value = s.bare.nextEntry s.now t value :=
    nextEntry_eq_iff.2 (answerAlike_set_iff.1 huniform.sqlite)
  have hstore : ∀ v : Vault, (v.set s.now t value changedBy).2.store =
      (v.written s.now t (v.nextEntry s.now t value)).store := by
    intro v
    rw [set_eq]
    rfl
  refine ⟨?_, ?_, ?_, h.bareDated.set t value changedBy, h.memoryDated.set t value changedBy,
    h.sqliteDated.set t value changedBy, ?_, ?_, fun u e he => ?_, fun u hu => ?_,
    huniform.memoryEvents, huniform.sqliteEvents⟩
  · refine (hstore s.bare).trans ?_
    rw [written_store, h.bareStore]
  · have hafter := hstore s.memory
    rw [written_store, hmemory] at hafter
    exact ⟨_, _, _, hafter⟩
  · have hafter := hstore s.sqlite
    rw [written_store, hsqlite] at hafter
    exact ⟨_, _, _, hafter⟩
  · show (s.memory.set s.now t value changedBy).2.cachedAt =
      (s.bare.set s.now t value changedBy).2.cachedAt
    rw [set_cachedAt h.memoryDated, set_cachedAt h.bareDated, hme, h.memoryCache]
  · show (s.sqlite.set s.now t value changedBy).2.cachedAt =
      (s.bare.set s.now t value changedBy).2.cachedAt
    rw [set_cachedAt h.sqliteDated, set_cachedAt h.bareDated, hqe, h.sqliteCache]
  · have he' : (s.memory.set s.now t value changedBy).2.storedAt u = some e := he
    rw [set_memory hmemory h.memoryDated] at he'
    simp only at he'
    split at he'
    · obtain rfl := Option.some.inj he'
      rfl
    · exact h.alive u e he'
  · have hu' : (s.memory.set s.now t value changedBy).2.storedAt u = none := hu
    show (s.sqlite.set s.now t value changedBy).2.storedAt u = none
    rw [set_memory hmemory h.memoryDated] at hu'
    rw [set_sqlite hsqlite]
    simp only at hu' ⊢
    split at hu'
    · cases hu'
    · rename_i hne
      have hpk : pk u ≠ pk t := by
        intro hpk
        refine hne ?_
        rw [skey_eq_skey, skey_eq_skey, hpk]
      rw [if_neg hpk]
      exact h.rows u hu'

/-! ## `get` -/

/-- What is neither cached nor in the in-memory store is nowhere. -/
theorem missing (h : s.InStep) (hcached : s.bare.cachedAt (ckey t) = none)
    (hstored : s.memory.storedAt t = none) :
    s.bare.foundAt t = none ∧ s.memory.foundAt t = none ∧ s.sqlite.foundAt t = none := by
  refine ⟨?_, ?_, ?_⟩
  · rw [foundAt_bare h, hcached]
  · unfold foundAt
    rw [h.memoryCache, hcached, hstored]
    rfl
  · unfold foundAt
    rw [h.sqliteCache, hcached, h.rows t hstored]
    rfl

theorem get_events (v : Vault) (now : ℕ) (t : Triple) (default : Option String) :
    (v.get now t default).2.events = v.events := by
  unfold Vault.get
  cases v.lookup now t with
  | none => rfl
  | some x => rfl

/-- The vaults find the same entry. -/
theorem foundAt_of_unshared (h : s.InStep) (hu : Unshared s (.get t)) :
    s.memory.foundAt t = s.bare.foundAt t ∧ s.sqlite.foundAt t = s.bare.foundAt t := by
  cases hc : s.bare.cachedAt (ckey t) with
  | some e =>
    unfold foundAt
    rw [h.memoryCache, h.sqliteCache, hc]
    exact ⟨rfl, rfl⟩
  | none =>
    have hstored := hu.resolve_left fun hne => hne hc
    obtain ⟨hb, hm, hq⟩ := missing h hc hstored
    rw [hb, hm, hq]
    exact ⟨rfl, rfl⟩

/-- **Vaults are uniform in a `get`** exactly when it finds the entry in the cache, or nothing. -/
theorem uniform_get_iff (h : s.InStep) (t : Triple) :
    Uniform s (.get t) ↔ Unshared s (.get t) := by
  constructor
  · rintro ⟨hmem, -, -, -, -⟩
    by_contra hu
    obtain ⟨hc, hstored⟩ := not_or.1 hu
    rw [not_not] at hc
    obtain ⟨e, he⟩ := Option.ne_none_iff_exists'.1 hstored
    have hfound : s.memory.foundAt t = some e := by
      unfold foundAt
      rw [h.memoryCache, hc, he]
      rfl
    -- the in-memory store has an entry that the vault without a store does not have
    have hanswer : (s.memory.get s.now t none).1 = (s.bare.get s.now t none).1 := hmem none
    rw [get_answer, get_answer, hfound, foundAt_bare h, hc] at hanswer
    simp only [h.alive t e he] at hanswer
    cases hanswer
  · intro hu
    obtain ⟨hm, hq⟩ := foundAt_of_unshared h hu
    refine ⟨fun default => ?_, fun default => ?_, ?_, ?_, fun v _ => trivial⟩
    · rw [get_answer, get_answer, hm]
    · rw [get_answer, get_answer, hq]
    · show (s.memory.get s.now t none).2.events = (s.bare.get s.now t none).2.events
      rw [get_events, get_events, h.memoryEvents]
    · show (s.sqlite.get s.now t none).2.events = (s.bare.get s.now t none).2.events
      rw [get_events, get_events, h.sqliteEvents]

/-- Time goes by. -/
theorem InStep.later (h : s.InStep) : ({ s with now := s.now + 1 } : Trio).InStep :=
  { h with
    bareDated := h.bareDated.mono (Nat.le_succ _)
    memoryDated := h.memoryDated.mono (Nat.le_succ _)
    sqliteDated := h.sqliteDated.mono (Nat.le_succ _) }

theorem inStep_get (h : s.InStep) {t : Triple} (hu : Unshared s (.get t)) :
    (s.step (.get t)).InStep := by
  cases hc : s.bare.cachedAt (ckey t) with
  | none =>
    obtain ⟨hb, hm, hq⟩ := missing h hc (hu.resolve_left fun hne => hne hc)
    have hsame : s.step (.get t) = { s with now := s.now + 1 } := by
      unfold step after
      simp only [get_missing hb, get_missing hm, get_missing hq]
    rw [hsame]
    exact h.later
  | some e =>
    have hcm : s.memory.cachedAt (ckey t) = some e := by rw [h.memoryCache, hc]
    have hcq : s.sqlite.cachedAt (ckey t) = some e := by rw [h.sqliteCache, hc]
    obtain ⟨hb, hbs, hbstore, hbe, hbd⟩ := get_cached hc s.now none
    obtain ⟨hm, hms, hmstore, hme, hmd⟩ := get_cached hcm s.now none
    obtain ⟨hq, hqs, hqstore, hqe, hqd⟩ := get_cached hcq s.now none
    refine ⟨hbstore.trans h.bareStore, ?_, ?_, (hbd h.bareDated).mono (Nat.le_succ _),
      (hmd h.memoryDated).mono (Nat.le_succ _), (hqd h.sqliteDated).mono (Nat.le_succ _),
      hm.trans (h.memoryCache.trans hb.symm), hq.trans (h.sqliteCache.trans hb.symm),
      fun u e' he' => ?_, fun u hnone => ?_, hme.trans (h.memoryEvents.trans hbe.symm),
      hqe.trans (h.sqliteEvents.trans hbe.symm)⟩
    · obtain ⟨config, secrets, audit, hstore⟩ := h.memoryStore
      exact ⟨config, secrets, audit, hmstore.trans hstore⟩
    · obtain ⟨config, secrets, audit, hstore⟩ := h.sqliteStore
      exact ⟨config, secrets, audit, hqstore.trans hstore⟩
    · exact h.alive u e' ((congrFun hms u).symm.trans he')
    · exact (congrFun hqs u).trans (h.rows u ((congrFun hms u).symm.trans hnone))

/-! ## `delete` -/

/-- A version of the in-memory store is not raised where it has no entry. -/
theorem stored_of_uniform_delete (h : s.InStep) {t : Triple} {changedBy : String} {e : ConfigEntry}
    (hc : s.memory.cachedAt (ckey t) = some e) (hu : Uniform s (.delete t changedBy)) :
    ∃ e', s.memory.storedAt t = some e' := by
  obtain ⟨config, secrets, audit, hstore⟩ := h.memoryStore
  by_contra hstored
  have hnone : s.memory.storedAt t = none :=
    Option.eq_none_iff_forall_ne_some.2 (not_exists.1 hstored)
  have hfound : s.memory.foundAt t = some e := by
    unfold foundAt
    rw [hc]
    rfl
  have hraised : Raises s.now s.memory (.delete t changedBy) := hu.raises s.memory (by simp)
  have htrue : (s.memory.delete s.now t changedBy).1 = true := by
    rw [delete_answer, hfound]
    rfl
  obtain ⟨-, hone⟩ := hraised htrue
  have hnext := hone (by rw [hstore]; rfl)
  rw [delete_unstored hstore hc hnone, hnone] at hnext
  revert hnext
  decide

/-- **Vaults are not uniform in a `delete`** that finds an entry, if the cache and the in-memory
store hold one object. -/
theorem unshared_of_uniform_delete (h : s.InStep) {t : Triple} {changedBy : String}
    (hone : OneObject s (.delete t changedBy)) (hu : Uniform s (.delete t changedBy)) :
    Unshared s (.delete t changedBy) := by
  obtain ⟨config, secrets, audit, hstore⟩ := h.memoryStore
  have hanswer : (s.memory.delete s.now t changedBy).1 = (s.bare.delete s.now t changedBy).1 :=
    hu.memory
  rw [delete_answer, delete_answer, foundAt_bare h] at hanswer
  cases hc : s.bare.cachedAt (ckey t) with
  | none =>
    refine ⟨hc, ?_⟩
    unfold foundAt at hanswer
    rw [h.memoryCache, hc, Option.none_or] at hanswer
    exact Option.isNone_iff_eq_none.1 (Option.isSome_eq_false_iff.1 hanswer)
  | some e =>
    exfalso
    have hcm : s.memory.cachedAt (ckey t) = some e := by rw [h.memoryCache, hc]
    obtain ⟨i, hi, he, -⟩ := lookup_of_cached hcm
    obtain ⟨e', hstored⟩ := stored_of_uniform_delete h hcm hu
    obtain ⟨j, hj⟩ := storeAddress_of_stored hstore hstored
    obtain rfl : i = j := hone i j hi hj
    -- the shared object is marked twice
    have hemitted : (s.memory.delete s.now t changedBy).2.events =
        (s.bare.delete s.now t changedBy).2.events := hu.memoryEvents
    rw [delete_shared hcm hi hj, delete_bare h.bareStore hc, h.memoryEvents] at hemitted
    have hlast := List.append_cancel_left hemitted
    simp only [List.cons.injEq, VaultEvent.configChanged.injEq, and_true, true_and] at hlast
    omega

theorem uniform_delete_of_unshared (h : s.InStep) {t : Triple} {changedBy : String}
    (hu : Unshared s (.delete t changedBy)) : Uniform s (.delete t changedBy) := by
  obtain ⟨hc, hstored⟩ := hu
  obtain ⟨hb, hm, hq⟩ := missing h hc hstored
  refine ⟨?_, ?_, ?_, ?_, fun v hv => ?_⟩
  · show (s.memory.delete s.now t changedBy).1 = (s.bare.delete s.now t changedBy).1
    rw [delete_missing hb, delete_missing hm]
  · show (s.sqlite.delete s.now t changedBy).1 = (s.bare.delete s.now t changedBy).1
    rw [delete_missing hb, delete_missing hq]
  · show (s.memory.delete s.now t changedBy).2.events = (s.bare.delete s.now t changedBy).2.events
    rw [delete_missing hb, delete_missing hm, h.memoryEvents]
  · show (s.sqlite.delete s.now t changedBy).2.events = (s.bare.delete s.now t changedBy).2.events
    rw [delete_missing hb, delete_missing hq, h.sqliteEvents]
  · show (v.delete s.now t changedBy).1 = true → _
    have hnone : v.foundAt t = none := by
      simp only [List.mem_cons, List.not_mem_nil, or_false] at hv
      rcases hv with rfl | rfl | rfl
      · exact hb
      · exact hm
      · exact hq
    intro htrue
    rw [delete_answer, hnone] at htrue
    cases htrue

theorem inStep_delete (h : s.InStep) {t : Triple} {changedBy : String}
    (hu : Unshared s (.delete t changedBy)) : (s.step (.delete t changedBy)).InStep := by
  obtain ⟨hc, hstored⟩ := hu
  obtain ⟨hb, hm, hq⟩ := missing h hc hstored
  have hsame : s.step (.delete t changedBy) = { s with now := s.now + 1 } := by
    unfold step after
    simp only [delete_missing hb, delete_missing hm, delete_missing hq]
  rw [hsame]
  exact h.later

/-! ## Runs -/

theorem uniform_of_unshared (h : s.InStep) {op : TrioOp} (hu : Unshared s op) : Uniform s op := by
  cases op with
  | set t value changedBy => exact (uniform_set_iff h t value changedBy).2 hu
  | get t => exact (uniform_get_iff h t).2 hu
  | delete t changedBy => exact uniform_delete_of_unshared h hu

theorem unshared_of_uniform (h : s.InStep) {op : TrioOp} (hone : OneObject s op)
    (hu : Uniform s op) : Unshared s op := by
  cases op with
  | set t value changedBy => exact (uniform_set_iff h t value changedBy).1 hu
  | get t => exact (uniform_get_iff h t).1 hu
  | delete t changedBy => exact unshared_of_uniform_delete h hone hu

theorem inStep_step (h : s.InStep) {op : TrioOp} (hu : Unshared s op) : (s.step op).InStep := by
  cases op with
  | set t value changedBy => exact inStep_set h hu
  | get t => exact inStep_get h hu
  | delete t changedBy => exact inStep_delete h hu

/-- **The three vaults are uniform** in a run in which nothing that is shared is changed: each `set`
finds one version everywhere, each `get` the cached entry or none, and no `delete` an entry. Where
every `delete` finds one object in the cache and in the in-memory store, they are in no other run. -/
theorem uniform_iff (ops : List TrioOp) :
    (EachStep step Unshared {} ops → EachStep step Uniform {} ops) ∧
      (EachStep step OneObject {} ops →
        (EachStep step Uniform {} ops ↔ EachStep step Unshared {} ops)) := by
  constructor
  · intro hrun
    refine (eachStep_iff (A := Unshared) (I := InStep) (fun s op _ h hu => inStep_step h hu)
      (fun s op hu h => ?_) ops _ inStep_init hrun).2 hrun
    exact iff_of_true (uniform_of_unshared h hu) hu
  · intro hone
    refine eachStep_iff (A := OneObject) (I := InStep) (fun s op _ h hu => inStep_step h hu)
      (fun s op hone h => ?_) ops _ inStep_init hone
    exact ⟨unshared_of_uniform h hone, uniform_of_unshared h⟩

/-- **A `delete` over the in-memory store** raises the version twice. -/
theorem delete_counts_twice : ¬ EachStep step Uniform {}
    [.set ⟨.agent, some "a", "k"⟩ "v" "", .delete ⟨.agent, some "a", "k"⟩ ""] := by
  rintro ⟨-, hdelete, -⟩
  have hevents := hdelete.memoryEvents
  revert hevents
  decide +kernel

end Trio

end Hermes

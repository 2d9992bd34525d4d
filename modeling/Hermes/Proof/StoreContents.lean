import Hermes.Lib.Rekey
import Hermes.Proof.SecretVersions
import Hermes.Spec.ConfigStore

/-!
# What a configuration store holds

* `readsBack_iff`: the scope ids that a row gives back.
* `underKey`, `underPk`: what the in-memory store has under a composed key, and what
  the SQLite store has under a primary key; and the secrets.
* `InMemory`, `OnSqlite`: what every operation keeps. Each operation of each store is
  an update of what it holds.
-/

namespace Hermes

/-! ## Keys -/

/-- The composed key of the parts. -/
def Pk.skey (p : Pk) : String := p.scope.value ++ ":" ++ p.scopeId ++ ":" ++ p.key

theorem skey_eq_skey (t : Triple) : Hermes.skey t = (pk t).skey := rfl

theorem sid_some {s : String} (h : s ≠ "") : sid (some s) = s := by
  simp [sid, orElse, truthy, h]

theorem sid_unsid (scopeId : Option String) : sid (unsid (sid scopeId)) = sid scopeId := by
  unfold unsid
  split
  · rename_i h
    rw [h]
    rfl
  · have hne : sid scopeId ≠ "" := by
      unfold sid orElse truthy
      cases scopeId with
      | none => simp
      | some s =>
        by_cases hs : s = ""
        · simp [hs]
        · simp [hs]
    exact sid_some hne

theorem pk_triple (t : Triple) : pk (pk t).triple = pk t := by
  unfold pk Pk.triple
  rw [sid_unsid]

/-- A row gives the address of an entry back. -/
def ReadsBack (t : Triple) : Prop := t.scopeId ≠ some "" ∧ t.scopeId ≠ some "__global__"

theorem readsBack_iff (t : Triple) : (pk t).triple = t ↔ ReadsBack t := by
  obtain ⟨scope, scopeId, key⟩ := t
  unfold ReadsBack Pk.triple pk sid unsid orElse truthy
  cases scopeId with
  | none => simp
  | some s =>
    by_cases hs : s = ""
    · simp [hs]
    · by_cases hg : s = "__global__"
      · simp [hg]
      · simp [hs, hg]

namespace ConfigStore

variable {c : ConfigStore} {now : ℕ} {t : Triple} {e : ConfigEntry}

/-! ## What a store holds -/

/-- What an in-memory store has under a composed key. -/
def underKey (c : ConfigStore) (k : String) : Option ConfigEntry :=
  match c.store with
  | .memory config _ _ => (config.get? k).bind c.heap
  | _ => none

/-- What a SQLite store has under a primary key. -/
def underPk (c : ConfigStore) (p : Pk) : Option ConfigEntry :=
  match c.store with
  | .sqlite rows _ _ => (rows.get? p).map (rowToConfig p)
  | _ => none

def secretUnderKey (c : ConfigStore) (k : String) : Option SecretValue :=
  match c.store with
  | .memory _ secrets _ => secrets.get? k
  | _ => none

def secretUnderPk (c : ConfigStore) (p : Pk) : Option SecretValue :=
  match c.store with
  | .sqlite _ rows _ => (rows.get? p).map (rowToSecret p)
  | _ => none

/-- An in-memory store: its objects were made, and everything is under its own key. -/
structure InMemory (c : ConfigStore) : Prop where
  shape : ∃ config secrets audit, c.store = .memory config secrets audit ∧
    ∀ k i, config.get? k = some i → i.time < c.objects
  keyed : ∀ k e, c.underKey k = some e → skey e.toTriple = k
  secretKeyed : ∀ k v, c.secretUnderKey k = some v → skey v.toTriple = k

/-- A SQLite store: every row is read back with the key that it is under. -/
structure OnSqlite (c : ConfigStore) : Prop where
  shape : ∃ config secrets audit, c.store = .sqlite config secrets audit
  filed : ∀ p e, c.underPk p = some e → pk e.toTriple = p
  secretFiled : ∀ p v, c.secretUnderPk p = some v → pk v.toTriple = p

theorem inMemory_init : inMemory.InMemory where
  shape := ⟨∅, ∅, [], rfl, fun k i h => by cases h⟩
  keyed := fun k e h => by cases h
  secretKeyed := fun k v h => by cases h

theorem onSqlite_init : onSqlite.OnSqlite where
  shape := ⟨∅, ∅, ∅, rfl⟩
  filed := fun p e h => by cases h
  secretFiled := fun p v h => by cases h

/-! ## Deletion -/

theorem deleteConfig_fst : (c.deleteConfig now t).1 = (c.getConfig now t).isSome := by
  unfold ConfigStore.getConfig
  rw [Option.isSome_map]
  rfl

/-- Nothing is deleted where nothing is found. -/
theorem deleteConfig_missing (h : c.getConfig now t = none) : (c.deleteConfig now t).2 = c := by
  unfold ConfigStore.deleteConfig Store.deleteConfig
  simp only [Option.map_eq_none_iff.1 h]

/-! ## In memory -/

namespace InMemory

theorem getConfig (h : c.InMemory) (now : ℕ) (t : Triple) :
    c.getConfig now t = c.underKey (skey t) := by
  obtain ⟨config, secrets, audit, hstore, -⟩ := h.shape
  unfold ConfigStore.getConfig Store.getConfig underKey
  simp only [hstore]
  cases config.get? (skey t) with
  | none => rfl
  | some i =>
    cases hi : c.heap i with
    | none => simp [hi]
    | some e => simp [hi]

theorem getSecret (h : c.InMemory) (t : Triple) : c.getSecret t = c.secretUnderKey (skey t) := by
  obtain ⟨config, secrets, audit, hstore, -⟩ := h.shape
  unfold ConfigStore.getSecret Store.getSecret secretUnderKey
  simp only [hstore]

theorem mem_entries (h : c.InMemory) : e ∈ c.entries now ↔ ∃ k, c.underKey k = some e := by
  obtain ⟨config, secrets, audit, hstore, -⟩ := h.shape
  unfold entries Store.listConfig underKey
  simp only [hstore, List.mem_map, List.mem_filterMap, Dict.mem_values, Option.bind_eq_some_iff,
    Option.map_eq_some_iff]
  constructor
  · rintro ⟨x, ⟨i, ⟨k, hk⟩, e', he', rfl⟩, rfl⟩
    exact ⟨k, i, hk, he'⟩
  · rintro ⟨k, i, hk, he⟩
    exact ⟨(i, e), ⟨i, ⟨k, hk⟩, e, he, rfl⟩, rfl⟩

theorem mem_secrets (h : c.InMemory) {v : SecretValue} :
    v ∈ c.store.listSecrets ↔ ∃ k, c.secretUnderKey k = some v := by
  obtain ⟨config, secrets, audit, hstore, -⟩ := h.shape
  unfold Store.listSecrets secretUnderKey
  simp only [hstore, Dict.mem_values]

/-- **An entry is put** under its composed key. -/
theorem putConfig (h : c.InMemory) (e : ConfigEntry) : (c.putConfig e).InMemory ∧
    (c.putConfig e).underKey = Function.update c.underKey (skey e.toTriple) (some e) ∧
    (c.putConfig e).secretUnderKey = c.secretUnderKey := by
  obtain ⟨config, secrets, audit, hstore, hmade⟩ := h.shape
  have hunder : (c.putConfig e).underKey =
      Function.update c.underKey (skey e.toTriple) (some e) := by
    funext k
    unfold ConfigStore.putConfig Store.putConfig underKey
    simp only [hstore, Dict.get?_insert, Function.update_apply]
    by_cases hk : k = skey e.toTriple
    · simp [hk, Heap.put]
    · simp only [hk, if_false]
      cases hi : config.get? k with
      | none => rfl
      | some i =>
        -- the new object is none of the old ones
        have hne : i ≠ ⟨c.objects, ""⟩ := by
          rintro rfl
          exact absurd (hmade k _ hi) (lt_irrefl _)
        simp [Heap.put, hne]
  have hsecret : (c.putConfig e).secretUnderKey = c.secretUnderKey := by
    funext k
    unfold ConfigStore.putConfig Store.putConfig secretUnderKey
    simp only [hstore]
  refine ⟨⟨?_, fun k e' he' => ?_, fun k v hv => ?_⟩, hunder, hsecret⟩
  · refine ⟨config.insert (skey e.toTriple) ⟨c.objects, ""⟩, secrets, audit, ?_, fun k i hi => ?_⟩
    · unfold ConfigStore.putConfig Store.putConfig
      simp only [hstore]
    · show i.time < c.objects + 1
      rw [Dict.get?_insert] at hi
      split at hi
      · obtain rfl := Option.some.inj hi
        exact lt_add_one _
      · have hlt := hmade k i hi
        omega
  · rw [hunder] at he'
    exact Rekey.keyed_update h.keyed rfl k e' he'
  · rw [hsecret] at hv
    exact h.secretKeyed k v hv

/-- Where an entry is found, its object is marked deleted. -/
theorem deleteConfig_found (h : c.InMemory) (hu : c.underKey (skey t) = some e) (now : ℕ) :
    ∃ config secrets audit i, c.store = .memory config secrets audit ∧
      (∀ k j, config.get? k = some j → j.time < c.objects) ∧
      config.get? (skey t) = some i ∧ c.heap i = some e ∧
      (c.deleteConfig now t).2 = { c with
        store := .memory (config.insert (skey t) i) secrets audit
        heap := c.heap.put i (Store.markDeleted now e) } := by
  obtain ⟨config, secrets, audit, hstore, hmade⟩ := h.shape
  have hskey := h.keyed _ _ hu
  unfold underKey at hu
  simp only [hstore] at hu
  obtain ⟨i, hi, he⟩ := Option.bind_eq_some_iff.1 hu
  have hfound : c.store.getConfig c.heap now t = some (i, e) := by
    unfold Store.getConfig
    simp only [hstore, hi, Option.bind_some, he, Option.map_some]
  refine ⟨config, secrets, audit, i, hstore, hmade, hi, he, ?_⟩
  rw [hstore] at hfound
  unfold ConfigStore.deleteConfig Store.deleteConfig
  simp only [hstore, hfound, Store.putConfig]
  rw [← hskey]
  rfl

/-- **An entry is deleted** where it is. -/
theorem deleteConfig (h : c.InMemory) (now : ℕ) (t : Triple) :
    (c.deleteConfig now t).1 = (c.underKey (skey t)).isSome ∧
      (c.deleteConfig now t).2.InMemory ∧
      (c.deleteConfig now t).2.underKey = (match c.underKey (skey t) with
        | none => c.underKey
        | some e => Function.update c.underKey (skey t) (some (Store.markDeleted now e))) ∧
      (c.deleteConfig now t).2.secretUnderKey = c.secretUnderKey := by
  have hget := h.getConfig now t
  have hsome : (c.deleteConfig now t).1 = (c.underKey (skey t)).isSome := by
    rw [deleteConfig_fst, hget]
  refine ⟨hsome, ?_⟩
  cases hu : c.underKey (skey t) with
  | none =>
    rw [hu] at hget
    rw [deleteConfig_missing hget]
    exact ⟨h, rfl, rfl⟩
  | some e =>
    have hkeyed := h.keyed _ _ hu
    have hskey : skey (Store.markDeleted now e).toTriple = skey t := hkeyed
    obtain ⟨config, secrets, audit, i, hstore, hmade, hi, he, hafter⟩ :=
      h.deleteConfig_found hu now
    have hunder : (c.deleteConfig now t).2.underKey =
        Function.update c.underKey (skey t) (some (Store.markDeleted now e)) := by
      rw [hafter]
      funext k
      unfold underKey
      simp only [hstore, Dict.get?_insert, Function.update_apply]
      by_cases hk : k = skey t
      · simp [hk, Heap.put]
      · simp only [hk, if_false]
        cases hj : config.get? k with
        | none => rfl
        | some j =>
          -- an object is under one key only
          have hne : j ≠ i := by
            rintro rfl
            refine hk ((h.keyed k e ?_).symm.trans hkeyed)
            unfold underKey
            simp only [hstore, hj, Option.bind_some, he]
          simp [Heap.put, hne]
    have hsecret : (c.deleteConfig now t).2.secretUnderKey = c.secretUnderKey := by
      rw [hafter]
      funext k
      unfold secretUnderKey
      simp only [hstore]
    refine ⟨⟨?_, fun k e' hk => ?_, fun k v hv => ?_⟩, hunder, hsecret⟩
    · rw [hafter]
      refine ⟨_, _, _, rfl, fun k j hj => ?_⟩
      rw [Dict.get?_insert] at hj
      split at hj
      · obtain rfl := Option.some.inj hj
        exact hmade _ _ hi
      · exact hmade k j hj
    · rw [hunder] at hk
      exact Rekey.keyed_update h.keyed hskey k e' hk
    · rw [hsecret] at hv
      exact h.secretKeyed k v hv

theorem putSecret (h : c.InMemory) (v : SecretValue) : (c.putSecret v).InMemory ∧
    (c.putSecret v).underKey = c.underKey ∧
    (c.putSecret v).secretUnderKey =
      Function.update c.secretUnderKey (skey v.toTriple) (some v) := by
  obtain ⟨config, secrets, audit, hstore, hmade⟩ := h.shape
  have hunder : (c.putSecret v).underKey = c.underKey := by
    funext k
    unfold ConfigStore.putSecret Store.putSecret underKey
    simp only [hstore]
  have hsecret : (c.putSecret v).secretUnderKey =
      Function.update c.secretUnderKey (skey v.toTriple) (some v) := by
    funext k
    unfold ConfigStore.putSecret Store.putSecret secretUnderKey
    simp only [hstore, Dict.get?_insert, Function.update_apply]
  refine ⟨⟨?_, fun k e he => ?_, fun k v' hv' => ?_⟩, hunder, hsecret⟩
  · refine ⟨config, secrets.insert (skey v.toTriple) v, audit, ?_, hmade⟩
    unfold ConfigStore.putSecret Store.putSecret
    simp only [hstore]
  · rw [hunder] at he
    exact h.keyed k e he
  · rw [hsecret] at hv'
    exact Rekey.keyed_update h.secretKeyed rfl k v' hv'

end InMemory

/-! ## On a database -/

theorem get?_replace {ν : Type} (d : Dict Pk ν) (p q : Pk) (v : ν) :
    (Store.replace d p v).get? q = if q = p then some v else d.get? q :=
  Dict.get?_replace d p q v

namespace OnSqlite

theorem getConfig (h : c.OnSqlite) (now : ℕ) (t : Triple) :
    c.getConfig now t = c.underPk (pk t) := by
  obtain ⟨config, secrets, audit, hstore⟩ := h.shape
  unfold ConfigStore.getConfig Store.getConfig underPk
  simp only [hstore, Option.map_map]
  rfl

theorem getSecret (h : c.OnSqlite) (t : Triple) : c.getSecret t = c.secretUnderPk (pk t) := by
  obtain ⟨config, secrets, audit, hstore⟩ := h.shape
  unfold ConfigStore.getSecret Store.getSecret secretUnderPk
  simp only [hstore]

theorem mem_entries (h : c.OnSqlite) : e ∈ c.entries now ↔ ∃ p, c.underPk p = some e := by
  obtain ⟨config, secrets, audit, hstore⟩ := h.shape
  unfold entries Store.listConfig underPk
  simp only [hstore, List.map_map, List.mem_map, Option.map_eq_some_iff]
  constructor
  · rintro ⟨x, hx, rfl⟩
    exact ⟨x.1, x.2, Dict.get?_of_mem hx, rfl⟩
  · rintro ⟨p, r, hr, rfl⟩
    exact ⟨(p, r), Dict.mem_of_get? hr, rfl⟩

theorem mem_secrets (h : c.OnSqlite) {v : SecretValue} :
    v ∈ c.store.listSecrets ↔ ∃ p, c.secretUnderPk p = some v := by
  obtain ⟨config, secrets, audit, hstore⟩ := h.shape
  unfold Store.listSecrets secretUnderPk
  simp only [hstore, List.mem_map, Option.map_eq_some_iff]
  constructor
  · rintro ⟨x, hx, rfl⟩
    exact ⟨x.1, x.2, Dict.get?_of_mem hx, rfl⟩
  · rintro ⟨p, r, hr, rfl⟩
    exact ⟨(p, r), Dict.mem_of_get? hr, rfl⟩

/-- **A row is written** over the one with its key. -/
theorem putConfig (h : c.OnSqlite) (e : ConfigEntry) : (c.putConfig e).OnSqlite ∧
    (c.putConfig e).underPk = Function.update c.underPk (pk e.toTriple)
      (some (rowToConfig (pk e.toTriple) e.toRow)) ∧
    (c.putConfig e).secretUnderPk = c.secretUnderPk := by
  obtain ⟨config, secrets, audit, hstore⟩ := h.shape
  have hunder : (c.putConfig e).underPk = Function.update c.underPk (pk e.toTriple)
      (some (rowToConfig (pk e.toTriple) e.toRow)) := by
    funext p
    unfold ConfigStore.putConfig Store.putConfig underPk
    simp only [hstore, get?_replace, Function.update_apply]
    by_cases hp : p = pk e.toTriple
    · simp [hp]
    · simp [hp]
  have hsecret : (c.putConfig e).secretUnderPk = c.secretUnderPk := by
    funext p
    unfold ConfigStore.putConfig Store.putConfig secretUnderPk
    simp only [hstore]
  refine ⟨⟨?_, fun p e' he' => ?_, fun p v hv => ?_⟩, hunder, hsecret⟩
  · refine ⟨Store.replace config (pk e.toTriple) e.toRow, secrets, audit, ?_⟩
    unfold ConfigStore.putConfig Store.putConfig
    simp only [hstore]
  · rw [hunder] at he'
    exact Rekey.keyed_update h.filed (pk_triple e.toTriple) p e' he'
  · rw [hsecret] at hv
    exact h.secretFiled p v hv

/-- Where a row is found, it is written again, marked deleted. -/
theorem deleteConfig_found (h : c.OnSqlite) (hu : c.underPk (pk t) = some e) (now : ℕ) :
    ∃ config secrets audit, c.store = .sqlite config secrets audit ∧
      rowToConfig (pk t) (Store.markDeleted now e).toRow = Store.markDeleted now e ∧
      (c.deleteConfig now t).2 = { c with
        store := .sqlite (Store.replace config (pk t) (Store.markDeleted now e).toRow)
          secrets audit } := by
  obtain ⟨config, secrets, audit, hstore⟩ := h.shape
  have hpk := h.filed _ _ hu
  unfold underPk at hu
  simp only [hstore] at hu
  obtain ⟨r, hr, he⟩ := Option.map_eq_some_iff.1 hu
  have hfound : c.store.getConfig c.heap now t = some (⟨now, ckey t⟩, e) := by
    unfold Store.getConfig
    simp only [hstore, hr, Option.map_some, he]
  -- a row that was read is written back as it was read
  have hrow : rowToConfig (pk t) (Store.markDeleted now e).toRow = Store.markDeleted now e := by
    rw [← he]
    rfl
  refine ⟨config, secrets, audit, hstore, hrow, ?_⟩
  rw [hstore] at hfound
  unfold ConfigStore.deleteConfig Store.deleteConfig
  simp only [hstore, hfound, Store.putConfig]
  rw [← hpk]
  rfl

/-- **A row is marked deleted** where it is. -/
theorem deleteConfig (h : c.OnSqlite) (now : ℕ) (t : Triple) :
    (c.deleteConfig now t).1 = (c.underPk (pk t)).isSome ∧
      (c.deleteConfig now t).2.OnSqlite ∧
      (c.deleteConfig now t).2.underPk = (match c.underPk (pk t) with
        | none => c.underPk
        | some e => Function.update c.underPk (pk t) (some (Store.markDeleted now e))) ∧
      (c.deleteConfig now t).2.secretUnderPk = c.secretUnderPk := by
  have hget := h.getConfig now t
  have hsome : (c.deleteConfig now t).1 = (c.underPk (pk t)).isSome := by
    rw [deleteConfig_fst, hget]
  refine ⟨hsome, ?_⟩
  cases hu : c.underPk (pk t) with
  | none =>
    rw [hu] at hget
    rw [deleteConfig_missing hget]
    exact ⟨h, rfl, rfl⟩
  | some e =>
    have hfiled := h.filed _ _ hu
    have hpk : pk (Store.markDeleted now e).toTriple = pk t := hfiled
    obtain ⟨config, secrets, audit, hstore, hrow, hafter⟩ := h.deleteConfig_found hu now
    have hunder : (c.deleteConfig now t).2.underPk =
        Function.update c.underPk (pk t) (some (Store.markDeleted now e)) := by
      rw [hafter]
      funext p
      unfold underPk
      simp only [hstore, get?_replace, Function.update_apply]
      by_cases hp : p = pk t
      · simp [hp, hrow]
      · simp [hp]
    have hsecret : (c.deleteConfig now t).2.secretUnderPk = c.secretUnderPk := by
      rw [hafter]
      funext p
      unfold secretUnderPk
      simp only [hstore]
    refine ⟨⟨?_, fun p e' hp => ?_, fun p v hv => ?_⟩, hunder, hsecret⟩
    · rw [hafter]
      exact ⟨_, _, _, rfl⟩
    · rw [hunder] at hp
      exact Rekey.keyed_update h.filed hpk p e' hp
    · rw [hsecret] at hv
      exact h.secretFiled p v hv

theorem rowToSecret_toRow (v : SecretValue) :
    rowToSecret (pk v.toTriple) v.toRow = { v with toTriple := (pk v.toTriple).triple } := by
  unfold rowToSecret SecretValue.toRow
  simp only [SecretCalls.b64d_b64e]

theorem putSecret (h : c.OnSqlite) (v : SecretValue) : (c.putSecret v).OnSqlite ∧
    (c.putSecret v).underPk = c.underPk ∧
    (c.putSecret v).secretUnderPk = Function.update c.secretUnderPk (pk v.toTriple)
      (some { v with toTriple := (pk v.toTriple).triple }) := by
  obtain ⟨config, secrets, audit, hstore⟩ := h.shape
  have hunder : (c.putSecret v).underPk = c.underPk := by
    funext p
    unfold ConfigStore.putSecret Store.putSecret underPk
    simp only [hstore]
  have hsecret : (c.putSecret v).secretUnderPk = Function.update c.secretUnderPk (pk v.toTriple)
      (some { v with toTriple := (pk v.toTriple).triple }) := by
    funext p
    unfold ConfigStore.putSecret Store.putSecret secretUnderPk
    simp only [hstore, get?_replace, Function.update_apply]
    by_cases hp : p = pk v.toTriple
    · simp [hp, rowToSecret_toRow]
    · simp [hp]
  refine ⟨⟨?_, fun p e he => ?_, fun p v' hv' => ?_⟩, hunder, hsecret⟩
  · refine ⟨config, Store.replace secrets (pk v.toTriple) v.toRow, audit, ?_⟩
    unfold ConfigStore.putSecret Store.putSecret
    simp only [hstore]
  · rw [hunder] at he
    exact h.filed p e he
  · rw [hsecret] at hv'
    exact Rekey.keyed_update h.secretFiled (pk_triple v.toTriple) p v' hv'

end OnSqlite

end ConfigStore

end Hermes

import Hermes.Spec.ConfigVault

/-!
# Composed keys

The cache of a vault is addressed by `scope:scope_id:key` with `global` for a
missing id, the in-memory store by the same text with `__global__`.

* `keyClass`: a composed key, with a leading id `__global__` read as `global`.
* `keyClass_skey`, `keyClass_pk`: the three addresses of a triple are of one class.
* `keyClass_eq_cases`: how the cache keys of one class differ.
-/

namespace Hermes

/-! ## Classes of composed keys -/

/-- The tail `scope_id:key` of a composed key, with the id `__global__` read as `global`. -/
def globalTail (l : List Char) : List Char :=
  if "__global__:".toList.isPrefixOf l then "global:".toList ++ l.drop 11 else l

/-- A composed key `scope:scope_id:key` up to the spelling of a missing id. -/
def keyClass (s : String) : List Char :=
  s.toList.takeWhile (· ≠ ':') ++ ':' :: globalTail ((s.toList.dropWhile (· ≠ ':')).drop 1)

theorem scope_no_colon (sc : ConfigScope) : ∀ x ∈ sc.value.toList, x ≠ ':' := by
  cases sc with
  | _ => simp [ConfigScope.value]

theorem keyClass_scope (sc : ConfigScope) (s : String) :
    keyClass (sc.value ++ ":" ++ s) = sc.value.toList ++ ':' :: globalTail s.toList := by
  have hs : (sc.value ++ ":" ++ s).toList = sc.value.toList ++ ':' :: s.toList := by simp
  unfold keyClass
  rw [hs, List.takeWhile_append_of_pos, List.dropWhile_append_of_pos]
  · simp
  · intro x hx; simpa using scope_no_colon sc x hx
  · intro x hx; simpa using scope_no_colon sc x hx

attribute [irreducible] keyClass

/-- The part of the cache key after the scope. -/
def ctail (t : Triple) : String := orElse t.scopeId "global" ++ ":" ++ t.key

/-- The part of the store key after the scope. -/
def stail (t : Triple) : String := sid t.scopeId ++ ":" ++ t.key

theorem ckey_eq (t : Triple) : ckey t = t.scope.value ++ ":" ++ ctail t := by
  unfold ckey ctail
  simp only [String.append_assoc]

theorem skey_eq (t : Triple) : skey t = t.scope.value ++ ":" ++ stail t := by
  unfold skey stail
  simp only [String.append_assoc]

theorem globalTail_global (l : List Char) :
    globalTail ("global:".toList ++ l) = "global:".toList ++ l := by
  unfold globalTail
  rw [if_neg (by simp)]

theorem globalTail_default (l : List Char) :
    globalTail ("__global__:".toList ++ l) = "global:".toList ++ l := by
  unfold globalTail
  rw [if_pos (by simp)]
  rfl

/-- The tails of a triple: equal, or those of a missing id. -/
theorem tails (t : Triple) : ctail t = stail t ∨
    ctail t = "global:" ++ t.key ∧ stail t = "__global__:" ++ t.key := by
  unfold ctail stail sid orElse
  cases h : truthy t.scopeId with
  | none => right; simp
  | some s => left; rfl

theorem globalTail_stail (t : Triple) :
    globalTail (stail t).toList = globalTail (ctail t).toList := by
  rcases tails t with h | ⟨hc, hs⟩
  · rw [h]
  · rw [hc, hs, String.toList_append, String.toList_append, globalTail_global, globalTail_default]

/-- The cache key and the store key of a triple are of one class. -/
theorem keyClass_skey (t : Triple) : keyClass (skey t) = keyClass (ckey t) := by
  rw [skey_eq, ckey_eq, keyClass_scope, keyClass_scope, globalTail_stail]

/-- A row is read back with an address of the class it was written for. -/
theorem keyClass_pk (t : Triple) : keyClass (ckey (pk t).triple) = keyClass (ckey t) := by
  have hs : globalTail (ctail (pk t).triple).toList = globalTail (stail t).toList := by
    show globalTail (orElse (unsid (sid t.scopeId)) "global" ++ ":" ++ t.key).toList = _
    unfold stail unsid
    by_cases h : sid t.scopeId = "__global__"
    · rw [if_pos h, h]
      have h₁ : orElse none "global" ++ ":" ++ t.key = "global:" ++ t.key := rfl
      have h₂ : "__global__" ++ ":" ++ t.key = "__global__:" ++ t.key := rfl
      rw [h₁, h₂, String.toList_append, String.toList_append, globalTail_global, globalTail_default]
    · rw [if_neg h]
      have hne : sid t.scopeId ≠ "" := by
        unfold sid orElse truthy
        cases t.scopeId with
        | none => simp
        | some s =>
          by_cases hs : s = ""
          · simp [hs]
          · simp [hs]
      simp [orElse, truthy, hne]
  rw [ckey_eq, ckey_eq, keyClass_scope, keyClass_scope, hs, globalTail_stail]
  rfl

/-! ## Keys of one class -/

theorem scope_value_inj {sc sc' : ConfigScope} (h : sc.value = sc'.value) : sc = sc' := by
  cases sc <;> cases sc' <;> first | rfl | (revert h; decide)

/-- A composed key determines the scope and the tail. -/
theorem scope_tail_inj {sc sc' : ConfigScope} {l l' : List Char}
    (h : sc.value.toList ++ ':' :: l = sc'.value.toList ++ ':' :: l') : sc = sc' ∧ l = l' := by
  have hno : ∀ (sc : ConfigScope) (l : List Char),
      (sc.value.toList ++ ':' :: l).takeWhile (· ≠ ':') = sc.value.toList := by
    intro sc l
    rw [List.takeWhile_append_of_pos]
    · simp
    · intro x hx; simpa using scope_no_colon sc x hx
  have hsc : sc.value.toList = sc'.value.toList := by rw [← hno sc l, h, hno]
  rw [hsc] at h
  exact ⟨scope_value_inj (String.toList_inj.1 hsc), by simpa using List.append_cancel_left h⟩

theorem globalTail_cases (l : List Char) :
    globalTail l = l ∨ ∃ r, l = "__global__:".toList ++ r ∧ globalTail l = "global:".toList ++ r := by
  by_cases h : "__global__:".toList.isPrefixOf l
  · obtain ⟨r, rfl⟩ := List.isPrefixOf_iff_prefix.1 h
    exact Or.inr ⟨r, rfl, globalTail_default r⟩
  · left
    unfold globalTail
    rw [if_neg h]

/-- A cache key whose id reads `__global__` is the store key as well. -/
theorem stail_eq_ctail {t : Triple} {r : List Char} (h : (ctail t).toList = "__global__:".toList ++ r) :
    stail t = ctail t := by
  rcases tails t with he | ⟨hc, -⟩
  · exact he.symm
  · rw [hc, String.toList_append] at h
    simp at h

/-- **Keys of one class** are equal, or those of a triple `d` without id: one is its cache
key, the other its store key. -/
theorem keyClass_eq_cases {t t' : Triple} (h : keyClass (ckey t) = keyClass (ckey t')) :
    ckey t = ckey t' ∨ ∃ d : Triple, d.scopeId = none ∧
      ((ckey t = skey d ∧ skey t = skey d ∧ ckey t' = ckey d) ∨
        (ckey t' = skey d ∧ skey t' = skey d ∧ ckey t = ckey d)) := by
  rw [ckey_eq, ckey_eq, keyClass_scope, keyClass_scope] at h
  obtain ⟨hscope, htail⟩ := scope_tail_inj h
  -- the keys of the triple without id, for a tail that follows `global:`
  have hd : ∀ r : List Char, ∀ u : Triple, u.scope = t.scope →
      (ctail u).toList = "global:".toList ++ r → ckey u = ckey ⟨t.scope, none, String.ofList r⟩ := by
    intro r u hu hr
    have : ctail u = ctail ⟨t.scope, none, String.ofList r⟩ := by
      apply String.toList_inj.1
      rw [hr]
      simp [ctail, orElse, truthy]
    rw [ckey_eq, ckey_eq, this, hu]
  have hs : ∀ r : List Char, ∀ u : Triple, u.scope = t.scope →
      (ctail u).toList = "__global__:".toList ++ r →
      ckey u = skey ⟨t.scope, none, String.ofList r⟩ ∧
        skey u = skey ⟨t.scope, none, String.ofList r⟩ := by
    intro r u hu hr
    have : ctail u = stail ⟨t.scope, none, String.ofList r⟩ := by
      apply String.toList_inj.1
      rw [hr]
      simp [stail, sid, orElse, truthy]
    rw [ckey_eq, skey_eq, skey_eq, stail_eq_ctail hr, this, hu]
    exact ⟨rfl, rfl⟩
  rcases globalTail_cases (ctail t).toList with h₁ | ⟨r, hr, h₁⟩
  · rcases globalTail_cases (ctail t').toList with h₂ | ⟨r, hr, h₂⟩
    · left
      rw [h₁, h₂] at htail
      rw [ckey_eq, ckey_eq, hscope, String.toList_inj.1 htail]
    · right
      rw [h₁, h₂] at htail
      obtain ⟨hc, hk⟩ := hs r t' hscope.symm hr
      exact ⟨_, rfl, Or.inr ⟨hc, hk, hd r t rfl htail⟩⟩
  · rcases globalTail_cases (ctail t').toList with h₂ | ⟨r', hr', h₂⟩
    · right
      rw [h₁, h₂] at htail
      obtain ⟨hc, hk⟩ := hs r t rfl hr
      exact ⟨_, rfl, Or.inl ⟨hc, hk, hd r t' hscope.symm htail.symm⟩⟩
    · left
      rw [h₁, h₂] at htail
      have : r = r' := List.append_cancel_left htail
      rw [ckey_eq, ckey_eq, hscope, String.toList_inj.1 (hr.trans (this ▸ hr'.symm))]

/-- The two keys of a triple without id differ. -/
theorem ckey_ne_skey {d : Triple} (h : d.scopeId = none) : ckey d ≠ skey d := by
  intro he
  have := congrArg String.toList he
  rw [ckey_eq, skey_eq] at this
  simp [ctail, stail, sid, orElse, truthy, h] at this

/-!
## Scopes in the vault

Two triples whose cache keys are of one class share an entry in some run, the
others never meet.

* `run_same`: runs that agree on a class of keys go on agreeing there.
* `isolated_iff`: the operations on one triple never change what is read at
  another, over any backend and any run, exactly when their classes differ.
* `colliding_ids`: two triples of different agents that are not isolated.
-/

open Vault

/-! ## The part of a vault on a class of keys -/

variable (c : List Char)

def Heap.restrict (h : Heap) : Heap := fun i => if keyClass i.name = c then h i else none

def Store.restrict : Store → Store
  | .none => .none
  | .memory config secrets _ =>
    .memory (config.restrict (keyClass · = c)) (secrets.restrict (keyClass · = c)) []
  | .sqlite config secrets _ =>
    .sqlite (config.restrict fun p => keyClass (ckey p.triple) = c)
      (secrets.restrict fun p => keyClass (ckey p.triple) = c) ∅

/-- What a vault holds on a class of keys, without audit and events. -/
def Vault.restrict (s : Vault) : Vault where
  heap := s.heap.restrict c
  config := s.config.restrict (keyClass · = c)
  secrets := s.secrets.restrict (keyClass · = c)
  store := s.store.restrict c

variable {c}

/-- The entry at an address and the address are of the class `k`. -/
def OfClass (k : String) (x : ObjId × ConfigEntry) : Prop :=
  keyClass x.1.name = keyClass k ∧ keyClass (ckey x.2.toTriple) = keyClass k

/-- Objects and stored entries are kept under keys of their own class. -/
def Store.Classed : Store → Prop
  | .none => True
  | .memory config secrets _ =>
    (∀ x ∈ config.entries, keyClass x.2.name = keyClass x.1) ∧
    ∀ x ∈ secrets.entries, keyClass (ckey x.2.toTriple) = keyClass x.1
  | .sqlite _ _ _ => True

structure Vault.Classed (s : Vault) : Prop where
  heap : ∀ i e, s.heap i = some e → keyClass (ckey e.toTriple) = keyClass i.name
  config : ∀ x ∈ s.config.entries, keyClass x.2.name = keyClass x.1
  store : s.store.Classed

/-- Two vaults hold the same on a class of keys. -/
def Same (c : List Char) (s s' : Vault) : Prop := s.restrict c = s'.restrict c

/-! ## Writes -/

theorem Heap.restrict_put (h : Heap) (i : ObjId) (e : ConfigEntry) :
    (h.put i e).restrict c = if keyClass i.name = c then (h.restrict c).put i e else h.restrict c := by
  funext j
  unfold Heap.restrict Heap.put
  by_cases hj : j = i
  · subst hj
    by_cases hc : keyClass j.name = c <;> simp [hc]
  · by_cases hc : keyClass i.name = c <;> simp [hc, hj]

theorem restrict_bind {s : Vault} {k : String} {i : ObjId} {e : ConfigEntry}
    (hi : keyClass i.name = keyClass k) : (s.bind k i e).restrict c =
      if keyClass k = c then (s.restrict c).bind k i e else s.restrict c := by
  unfold Vault.bind Vault.restrict
  simp only [Heap.restrict_put, Dict.restrict_insert, hi, decide_eq_true_eq]
  by_cases hk : keyClass k = c <;> simp [hk]

theorem restrict_bindSecret {s : Vault} {k : String} {v : SecretValue} :
    (s.bindSecret k v).restrict c =
      if keyClass k = c then (s.restrict c).bindSecret k v else s.restrict c := by
  unfold Vault.bindSecret Vault.restrict
  simp only [Dict.restrict_insert, decide_eq_true_eq]
  by_cases hk : keyClass k = c <;> simp [hk]

theorem restrict_replace {ν : Type} (d : Dict Pk ν) (q : Pk → Bool) (p : Pk) (v : ν) :
    (Store.replace d p v).restrict q =
      if q p then Store.replace (d.restrict q) p v else d.restrict q := by
  unfold Store.replace
  rw [Dict.restrict_insert, Dict.restrict_erase]
  by_cases hq : q p <;> simp [hq]

theorem restrict_putConfig {s : Vault} {i : ObjId} {e : ConfigEntry}
    (hi : keyClass i.name = keyClass (ckey e.toTriple)) : (s.putConfig i e).restrict c =
      if keyClass (ckey e.toTriple) = c then (s.restrict c).putConfig i e else s.restrict c := by
  have hsk := keyClass_skey e.toTriple
  have hpk := keyClass_pk e.toTriple
  unfold Vault.putConfig Vault.restrict
  cases hst : s.store with
  | none => simp [Store.putConfig, Store.restrict]
  | memory config secrets audit =>
    simp only [Store.putConfig, Store.restrict, Heap.restrict_put, Dict.restrict_insert, hi, hsk,
      decide_eq_true_eq]
    by_cases hk : keyClass (ckey e.toTriple) = c <;> simp [hk]
  | sqlite config secrets audit =>
    simp only [Store.putConfig, Store.restrict, restrict_replace, hpk, decide_eq_true_eq]
    by_cases hk : keyClass (ckey e.toTriple) = c <;> simp [hk]

theorem restrict_putSecret {s : Vault} {v : SecretValue} : (s.putSecret v).restrict c =
    if keyClass (ckey v.toTriple) = c then (s.restrict c).putSecret v else s.restrict c := by
  have hsk := keyClass_skey v.toTriple
  have hpk := keyClass_pk v.toTriple
  unfold Vault.putSecret Vault.restrict
  cases hst : s.store with
  | none => simp [Store.putSecret, Store.restrict]
  | memory config secrets audit =>
    simp only [Store.putSecret, Store.restrict, Dict.restrict_insert, hsk, decide_eq_true_eq]
    by_cases hk : keyClass (ckey v.toTriple) = c <;> simp [hk]
  | sqlite config secrets audit =>
    simp only [Store.putSecret, Store.restrict, restrict_replace, hpk, decide_eq_true_eq]
    by_cases hk : keyClass (ckey v.toTriple) = c <;> simp [hk]

@[simp] theorem restrict_emit (s : Vault) (e : VaultEvent) :
    (s.emit e).restrict c = s.restrict c := rfl

@[simp] theorem restrict_record (s : Vault) (a : AuditEntry) :
    (s.record a).restrict c = s.restrict c := by
  unfold Vault.record Vault.restrict
  cases s.store <;> rfl

/-! ## Reads -/

variable {s s' : Vault} {now : ℕ} {t : Triple}

theorem restrict_getConfig (st : Store) (h : Heap) (ht : keyClass (ckey t) = c)
    (hcl : st.Classed) :
    (st.restrict c).getConfig (h.restrict c) now t = st.getConfig h now t := by
  cases st with
  | none => rfl
  | memory config secrets audit =>
    unfold Store.getConfig Store.restrict
    simp only [Dict.get?_restrict, keyClass_skey, ht, decide_true, if_true]
    cases hg : config.get? (skey t) with
    | none => rfl
    | some i =>
      have hi := hcl.1 _ (Dict.mem_of_get? hg)
      rw [keyClass_skey, ht] at hi
      simp [Heap.restrict, hi]
  | sqlite config secrets audit =>
    unfold Store.getConfig Store.restrict
    simp only [Dict.get?_restrict, keyClass_pk, ht, decide_true, if_true]

theorem restrict_cached (ht : keyClass (ckey t) = c) (hcl : s.Classed) :
    (s.restrict c).cached t = s.cached t := by
  unfold Vault.cached Vault.restrict
  simp only [Dict.get?_restrict, ht, decide_true, if_true]
  cases hg : s.config.get? (ckey t) with
  | none => rfl
  | some i =>
    have hi := hcl.config _ (Dict.mem_of_get? hg)
    rw [ht] at hi
    simp [Heap.restrict, hi]

theorem restrict_lookup (ht : keyClass (ckey t) = c) (hcl : s.Classed) :
    (s.restrict c).lookup now t = s.lookup now t := by
  unfold Vault.lookup
  rw [restrict_cached ht hcl]
  show (s.cached t).or ((s.store.restrict c).getConfig (s.heap.restrict c) now t) = _
  rw [restrict_getConfig _ _ ht hcl.store]

theorem restrict_lookupSecret (ht : keyClass (ckey t) = c) :
    (s.restrict c).lookupSecret t = s.lookupSecret t := by
  unfold Vault.lookupSecret Vault.restrict
  simp only [Dict.get?_restrict, ht, decide_true, if_true]
  congr 1
  cases s.store with
  | none => rfl
  | memory config secrets audit =>
    simp [Store.getSecret, Store.restrict, Dict.get?_restrict, keyClass_skey, ht]
  | sqlite config secrets audit =>
    simp [Store.getSecret, Store.restrict, Dict.get?_restrict, keyClass_pk, ht]

/-- What a look-up finds is of the class of the triple. -/
theorem Store.Classed.getConfig {st : Store} {h : Heap} (hcl : st.Classed)
    (hh : ∀ i e, h i = some e → keyClass (ckey e.toTriple) = keyClass i.name)
    {x : ObjId × ConfigEntry} (hx : st.getConfig h now t = some x) : OfClass (ckey t) x := by
  cases st with
  | none => cases hx
  | memory config secrets audit =>
    obtain ⟨i, hi, hm⟩ := Option.bind_eq_some_iff.1 hx
    obtain ⟨e, he, rfl⟩ := Option.map_eq_some_iff.1 hm
    have hname := hcl.1 _ (Dict.mem_of_get? hi)
    rw [keyClass_skey] at hname
    exact ⟨hname, (hh i e he).trans hname⟩
  | sqlite config secrets audit =>
    obtain ⟨r, hr, rfl⟩ := Option.map_eq_some_iff.1 hx
    exact ⟨rfl, keyClass_pk t⟩

theorem Vault.Classed.lookup (hcl : s.Classed) {x : ObjId × ConfigEntry}
    (hx : s.lookup now t = some x) : OfClass (ckey t) x := by
  rcases Option.or_eq_some_iff.1 hx with hx | ⟨-, hx⟩
  · obtain ⟨i, hi, hm⟩ := Option.bind_eq_some_iff.1 hx
    obtain ⟨e, he, rfl⟩ := Option.map_eq_some_iff.1 hm
    have hname := hcl.config _ (Dict.mem_of_get? hi)
    exact ⟨hname, (hcl.heap i e he).trans hname⟩
  · exact hcl.store.getConfig hcl.heap hx

/-! ## The classes are kept -/

theorem Vault.Classed.bind (hcl : s.Classed) {k : String} {i : ObjId} {e : ConfigEntry}
    (hx : OfClass k (i, e)) : (s.bind k i e).Classed := by
  obtain ⟨hi, he⟩ := hx
  refine ⟨?_, ?_, hcl.store⟩
  · intro j e' hj
    have hj' : (if j = i then some e else s.heap j) = some e' := hj
    by_cases h : j = i
    · rw [if_pos h] at hj'
      obtain rfl := Option.some.inj hj'
      rw [h]
      exact he.trans hi.symm
    · rw [if_neg h] at hj'
      exact hcl.heap j e' hj'
  · intro x hx
    rcases Dict.mem_entries_insert hx with rfl | hx
    · exact hi
    · exact hcl.config x hx

theorem Vault.Classed.bindSecret (hcl : s.Classed) (k : String) (v : SecretValue) :
    (s.bindSecret k v).Classed := ⟨hcl.heap, hcl.config, hcl.store⟩

theorem Vault.Classed.putConfig (hcl : s.Classed) {i : ObjId} {e : ConfigEntry}
    (hi : keyClass i.name = keyClass (ckey e.toTriple)) : (s.putConfig i e).Classed := by
  have hst := hcl.store
  unfold Vault.putConfig
  cases h : s.store with
  | none => exact ⟨hcl.heap, hcl.config, trivial⟩
  | memory config secrets audit =>
    rw [h] at hst
    refine ⟨(hcl.bind (k := ckey e.toTriple) ⟨hi, rfl⟩).heap, hcl.config, ?_, hst.2⟩
    intro x hx
    rcases Dict.mem_entries_insert hx with rfl | hx
    · rw [keyClass_skey]; exact hi
    · exact hst.1 x hx
  | sqlite config secrets audit => exact ⟨hcl.heap, hcl.config, trivial⟩

theorem Vault.Classed.putSecret (hcl : s.Classed) (v : SecretValue) : (s.putSecret v).Classed := by
  have hst := hcl.store
  refine ⟨hcl.heap, hcl.config, ?_⟩
  unfold Vault.putSecret
  cases h : s.store with
  | none => trivial
  | memory config secrets audit =>
    rw [h] at hst
    refine ⟨hst.1, ?_⟩
    intro x hx
    rcases Dict.mem_entries_insert hx with rfl | hx
    · exact (keyClass_skey _).symm
    · exact hst.2 x hx
  | sqlite config secrets audit => trivial

theorem Vault.Classed.emit (hcl : s.Classed) (e : VaultEvent) : (s.emit e).Classed :=
  ⟨hcl.heap, hcl.config, hcl.store⟩

theorem Vault.Classed.record (hcl : s.Classed) (a : AuditEntry) : (s.record a).Classed := by
  have hst := hcl.store
  refine ⟨hcl.heap, hcl.config, ?_⟩
  unfold Vault.record
  cases h : s.store with
  | none => trivial
  | memory config secrets audit => rw [h] at hst; exact hst
  | sqlite config secrets audit => trivial

theorem deleteConfig_eq (s : Vault) (now : ℕ) (t : Triple) : s.deleteConfig now t =
    match s.store.getConfig s.heap now t with
    | none => s
    | some (i, e) => s.putConfig i (Store.markDeleted now e) := by
  unfold Vault.deleteConfig Store.deleteConfig
  cases s.store.getConfig s.heap now t with
  | none => rfl
  | some x => rfl

theorem Vault.Classed.deleteConfig (hcl : s.Classed) : (s.deleteConfig now t).Classed := by
  rw [deleteConfig_eq]
  cases h : s.store.getConfig s.heap now t with
  | none => exact hcl
  | some x =>
    obtain ⟨hi, he⟩ := hcl.store.getConfig hcl.heap h
    exact hcl.putConfig (hi.trans he.symm)

theorem Vault.Classed.set (hcl : s.Classed) (value by' : String) :
    (s.set now t value by').2.Classed := by
  unfold Vault.set
  simp only
  have h : ∀ e : ConfigEntry, e.toTriple = t →
      ((s.bind (ckey t) ⟨now, ckey t⟩ e).putConfig ⟨now, ckey t⟩ e).Classed := by
    rintro e rfl
    exact (hcl.bind ⟨rfl, rfl⟩).putConfig rfl
  exact (h _ rfl).emit _

theorem Vault.Classed.get (hcl : s.Classed) (d : Option String) : (s.get now t d).2.Classed := by
  unfold Vault.get
  cases h : s.lookup now t with
  | none => exact hcl
  | some x => exact hcl.bind (hcl.lookup h)

theorem Vault.Classed.delete (hcl : s.Classed) (by' : String) :
    (s.delete now t by').2.Classed := by
  unfold Vault.delete
  cases h : s.lookup now t with
  | none => exact hcl
  | some x =>
    obtain ⟨hi, he⟩ := hcl.lookup h
    have hx : OfClass (ckey t) (x.1, Store.markDeleted now x.2) := ⟨hi, he⟩
    exact ((hcl.bind hx).deleteConfig).emit _

theorem Vault.Classed.putSealed (hcl : s.Classed) (version : ℤ) (x : Sealed) :
    (s.putSealed now t version x).2.Classed := by
  unfold Vault.putSealed
  simp only
  have h : ∀ (v : SecretValue) (e : ConfigEntry), e.toTriple = t →
      ((((s.bindSecret (ckey t) v).bind (ckey t) ⟨now, ckey t⟩ e).putSecret v).putConfig
        ⟨now, ckey t⟩ e).Classed := by
    rintro v e rfl
    exact (((hcl.bindSecret _ _).bind ⟨rfl, rfl⟩).putSecret _).putConfig rfl
  exact h _ _ rfl

theorem Vault.Classed.setSecret {E : VaultEnv} (hcl : s.Classed) (value by' : String) :
    (s.setSecret E now t value by').2.Classed := by
  unfold Vault.setSecret
  split
  · exact hcl
  · split
    · exact hcl
    · exact (hcl.putSealed _ _).emit _

theorem Vault.Classed.resolveSecret {E : VaultEnv} (hcl : s.Classed) (accessor : String) :
    (s.resolveSecret E now t accessor).2.Classed := by
  unfold Vault.resolveSecret
  split
  · exact hcl
  · split
    · exact (hcl.record _).emit _
    · split
      · exact hcl.bindSecret _ _
      · exact ((hcl.bindSecret _ _).record _).emit _

theorem Vault.Classed.rotateSecret {E : VaultEnv} (hcl : s.Classed) (value by' : String) :
    (s.rotateSecret E now t value by').2.Classed := by
  unfold Vault.rotateSecret
  split
  · exact hcl
  · split
    · exact hcl
    · exact (((hcl.putSealed _ _).emit _).record _).emit _

/-- Every entry that a store lists is of the class of its own address. -/
theorem Vault.Classed.listConfig (hcl : s.Classed) :
    ∀ x ∈ s.store.listConfig s.heap now, keyClass x.1.name = keyClass (ckey x.2.toTriple) := by
  intro x hx
  unfold Store.listConfig at hx
  cases h : s.store with
  | none => rw [h] at hx; cases hx
  | memory config secrets audit =>
    rw [h] at hx
    obtain ⟨i, -, hm⟩ := List.mem_filterMap.1 hx
    obtain ⟨e, he, rfl⟩ := Option.map_eq_some_iff.1 hm
    exact (hcl.heap i e he).symm
  | sqlite config secrets audit =>
    rw [h] at hx
    obtain ⟨⟨p, r⟩, -, rfl⟩ := List.mem_map.1 hx
    rfl

theorem Vault.Classed.foldl_bind {xs : List (ObjId × ConfigEntry)} :
    ∀ {s : Vault}, s.Classed → (∀ x ∈ xs, keyClass x.1.name = keyClass (ckey x.2.toTriple)) →
      (xs.foldl (fun s x => s.bind (ckey x.2.toTriple) x.1 x.2) s).Classed := by
  induction xs with
  | nil => intro s hcl _; exact hcl
  | cons x xs ih =>
    intro s hcl hxs
    exact ih (hcl.bind ⟨hxs x List.mem_cons_self, rfl⟩) fun y hy => hxs y (List.mem_cons_of_mem _ hy)

theorem Vault.Classed.foldl_bindSecret {vs : List SecretValue} : ∀ {s : Vault}, s.Classed →
    (vs.foldl (fun s v => s.bindSecret (ckey v.toTriple) v) s).Classed := by
  induction vs with
  | nil => intro s hcl; exact hcl
  | cons v vs ih => intro s hcl; exact ih (hcl.bindSecret _ _)

theorem Vault.Classed.reload (hcl : s.Classed) (source : String) :
    (s.reload now source).2.Classed := by
  unfold Vault.reload
  split
  · exact hcl.emit _
  · have h₀ : ({ s with config := ∅, secrets := ∅ } : Vault).Classed :=
      ⟨hcl.heap, by simp [EmptyCollection.emptyCollection, Dict.empty], hcl.store⟩
    exact ((h₀.foldl_bind hcl.listConfig).foldl_bindSecret).emit _

theorem Vault.Classed.step {E : VaultEnv} (hcl : s.Classed) (op : Op) :
    (s.step E now op).Classed := by
  cases op with
  | set t value by' => exact hcl.set value by'
  | get t d => exact hcl.get d
  | delete t by' => exact hcl.delete by'
  | listKeys _ _ _ => exact hcl
  | setSecret t value by' => exact hcl.setSecret value by'
  | resolveSecret t a => exact hcl.resolveSecret a
  | rotateSecret t value by' => exact hcl.rotateSecret value by'
  | reload source => exact hcl.reload source
  | rebuild =>
    show (s.rebuild).Classed
    unfold Vault.rebuild
    split
    · exact hcl
    · exact ⟨hcl.heap, by simp [EmptyCollection.emptyCollection, Dict.empty], hcl.store⟩

theorem Vault.Classed.run {E : VaultEnv} : ∀ (ops : List Op) (now : ℕ) (s : Vault), s.Classed →
    (Vault.run E now s ops).Classed := by
  intro ops
  induction ops with
  | nil => intro now s hcl; exact hcl
  | cons op ops ih => intro now s hcl; exact ih _ _ (hcl.step op)

/-! ## Operations on another class change nothing -/

variable {E : VaultEnv}

theorem frame_bind {k : String} {i : ObjId} {e : ConfigEntry} (hi : keyClass i.name = keyClass k)
    (hk : keyClass k ≠ c) : Same c (s.bind k i e) s := by
  unfold Same
  rw [restrict_bind hi, if_neg hk]

theorem frame_bindSecret {k : String} (hk : keyClass k ≠ c) (v : SecretValue) :
    Same c (s.bindSecret k v) s := by
  unfold Same
  rw [restrict_bindSecret, if_neg hk]

theorem frame_putConfig {i : ObjId} {e : ConfigEntry}
    (hi : keyClass i.name = keyClass (ckey e.toTriple)) (he : keyClass (ckey e.toTriple) ≠ c) :
    Same c (s.putConfig i e) s := by
  unfold Same
  rw [restrict_putConfig hi, if_neg he]

theorem frame_putSecret {v : SecretValue} (hv : keyClass (ckey v.toTriple) ≠ c) :
    Same c (s.putSecret v) s := by
  unfold Same
  rw [restrict_putSecret, if_neg hv]

theorem frame_deleteConfig (hcl : s.Classed) (ht : keyClass (ckey t) ≠ c) :
    Same c (s.deleteConfig now t) s := by
  rw [deleteConfig_eq]
  cases h : s.store.getConfig s.heap now t with
  | none => rfl
  | some x =>
    obtain ⟨hi, he⟩ := hcl.store.getConfig hcl.heap h
    exact frame_putConfig (hi.trans he.symm) (fun hc => ht (he.symm.trans hc))

theorem frame_set (ht : keyClass (ckey t) ≠ c) (value by' : String) :
    Same c (s.set now t value by').2 s := by
  have h : ∀ e : ConfigEntry, e.toTriple = t →
      Same c ((s.bind (ckey t) ⟨now, ckey t⟩ e).putConfig ⟨now, ckey t⟩ e) s := by
    rintro e rfl
    exact (frame_putConfig rfl ht).trans (frame_bind rfl ht)
  exact h _ rfl

theorem frame_get (hcl : s.Classed) (ht : keyClass (ckey t) ≠ c) (d : Option String) :
    Same c (s.get now t d).2 s := by
  unfold Vault.get
  cases h : s.lookup now t with
  | none => rfl
  | some x => exact frame_bind (hcl.lookup h).1 ht

theorem frame_delete (hcl : s.Classed) (ht : keyClass (ckey t) ≠ c) (by' : String) :
    Same c (s.delete now t by').2 s := by
  unfold Vault.delete
  cases h : s.lookup now t with
  | none => rfl
  | some x =>
    obtain ⟨hi, he⟩ := hcl.lookup h
    have hx : OfClass (ckey t) (x.1, Store.markDeleted now x.2) := ⟨hi, he⟩
    exact (frame_deleteConfig (hcl.bind hx) ht).trans (frame_bind hi ht)

theorem frame_putSealed (ht : keyClass (ckey t) ≠ c) (version : ℤ) (x : Sealed) :
    Same c (s.putSealed now t version x).2 s := by
  have h : ∀ (v : SecretValue) (e : ConfigEntry), v.toTriple = t → e.toTriple = t →
      Same c ((((s.bindSecret (ckey t) v).bind (ckey t) ⟨now, ckey t⟩ e).putSecret v).putConfig
        ⟨now, ckey t⟩ e) s := by
    rintro v e hv rfl
    rw [← hv] at ht
    have h₁ := (frame_putConfig (s := ((s.bindSecret (ckey e.toTriple) v).bind (ckey e.toTriple)
      ⟨now, ckey e.toTriple⟩ e).putSecret v) (i := ⟨now, ckey e.toTriple⟩) rfl (hv ▸ ht))
    exact (h₁.trans (frame_putSecret ht)).trans
      ((frame_bind rfl (hv ▸ ht)).trans (frame_bindSecret (hv ▸ ht) v))
  exact h _ _ rfl rfl

theorem frame_setSecret (ht : keyClass (ckey t) ≠ c) (value by' : String) :
    Same c (s.setSecret E now t value by').2 s := by
  unfold Vault.setSecret
  split
  · rfl
  · split
    · rfl
    · exact frame_putSealed ht _ _

theorem frame_resolveSecret (ht : keyClass (ckey t) ≠ c) (accessor : String) :
    Same c (s.resolveSecret E now t accessor).2 s := by
  unfold Same Vault.resolveSecret
  split
  · rfl
  · split
    · exact restrict_record s _
    · split
      · rw [restrict_bindSecret, if_neg ht]
      · unfold Vault.auditAccess
        rw [restrict_emit, restrict_record, restrict_bindSecret, if_neg ht]

theorem frame_rotateSecret (ht : keyClass (ckey t) ≠ c) (value by' : String) :
    Same c (s.rotateSecret E now t value by').2 s := by
  unfold Vault.rotateSecret
  split
  · rfl
  · split
    · rfl
    · unfold Same Vault.auditAccess
      rw [restrict_emit, restrict_record]
      exact frame_putSealed ht _ _

/-! ## Operations keep the agreement on a class -/

/-- Both states moved outside the class. -/
theorem Same.of_frames {u u' : Vault} (h : Same c s s') (hu : Same c u s) (hu' : Same c u' s') :
    Same c u u' :=
  calc u.restrict c
    _ = s.restrict c := hu
    _ = s'.restrict c := h
    _ = u'.restrict c := hu'.symm

theorem Same.bind (h : Same c s s') {k : String} {i : ObjId} {e : ConfigEntry}
    (hi : keyClass i.name = keyClass k) : Same c (s.bind k i e) (s'.bind k i e) := by
  unfold Same
  rw [restrict_bind hi, restrict_bind hi, h]

theorem Same.bindSecret (h : Same c s s') (k : String) (v : SecretValue) :
    Same c (s.bindSecret k v) (s'.bindSecret k v) := by
  unfold Same
  rw [restrict_bindSecret, restrict_bindSecret, h]

theorem Same.putConfig (h : Same c s s') {i : ObjId} {e : ConfigEntry}
    (hi : keyClass i.name = keyClass (ckey e.toTriple)) :
    Same c (s.putConfig i e) (s'.putConfig i e) := by
  unfold Same
  rw [restrict_putConfig hi, restrict_putConfig hi, h]

theorem Same.putSecret (h : Same c s s') (v : SecretValue) :
    Same c (s.putSecret v) (s'.putSecret v) := by
  unfold Same
  rw [restrict_putSecret, restrict_putSecret, h]

theorem Same.emit (h : Same c s s') (e e' : VaultEvent) : Same c (s.emit e) (s'.emit e') := h

theorem Same.record (h : Same c s s') (a a' : AuditEntry) :
    Same c (s.record a) (s'.record a') := by
  unfold Same
  rw [restrict_record, restrict_record]; exact h

theorem Same.store (h : Same c s s') : s.store.restrict c = s'.store.restrict c :=
  congrArg Vault.store h

theorem Same.heap (h : Same c s s') : s.heap.restrict c = s'.heap.restrict c :=
  congrArg Vault.heap h

theorem Same.getConfig (h : Same c s s') (hcl : s.Classed) (hcl' : s'.Classed)
    (ht : keyClass (ckey t) = c) :
    s.store.getConfig s.heap now t = s'.store.getConfig s'.heap now t := by
  rw [← restrict_getConfig _ _ ht hcl.store, ← restrict_getConfig _ _ ht hcl'.store, h.store,
    h.heap]

theorem Same.lookup (h : Same c s s') (hcl : s.Classed) (hcl' : s'.Classed)
    (ht : keyClass (ckey t) = c) : s.lookup now t = s'.lookup now t := by
  rw [← restrict_lookup ht hcl, ← restrict_lookup ht hcl', h]

theorem Same.lookupSecret (h : Same c s s') (ht : keyClass (ckey t) = c) :
    s.lookupSecret t = s'.lookupSecret t := by
  rw [← restrict_lookupSecret ht, ← restrict_lookupSecret (s := s') ht, h]

theorem Same.deleteConfig (h : Same c s s') (hcl : s.Classed) (hcl' : s'.Classed)
    (ht : keyClass (ckey t) = c) : Same c (s.deleteConfig now t) (s'.deleteConfig now t) := by
  rw [deleteConfig_eq, deleteConfig_eq, ← h.getConfig hcl hcl' ht]
  cases hg : s.store.getConfig s.heap now t with
  | none => exact h
  | some x =>
    obtain ⟨hi, he⟩ := hcl.store.getConfig hcl.heap hg
    exact h.putConfig (hi.trans he.symm)

theorem Same.set (h : Same c s s') (hcl : s.Classed) (hcl' : s'.Classed) (value by' : String) :
    Same c (s.set now t value by').2 (s'.set now t value by').2 := by
  by_cases ht : keyClass (ckey t) = c
  · unfold Vault.set
    simp only
    rw [← h.lookup hcl hcl' ht]
    exact ((h.bind rfl).putConfig rfl).emit _ _
  · exact h.of_frames (frame_set ht value by') (frame_set ht value by')

theorem Same.get (h : Same c s s') (hcl : s.Classed) (hcl' : s'.Classed) (d : Option String) :
    Same c (s.get now t d).2 (s'.get now t d).2 := by
  by_cases ht : keyClass (ckey t) = c
  · unfold Vault.get
    rw [← h.lookup hcl hcl' ht]
    cases hl : s.lookup now t with
    | none => exact h
    | some x => exact h.bind (hcl.lookup hl).1
  · exact h.of_frames (frame_get hcl ht d) (frame_get hcl' ht d)

theorem Same.delete (h : Same c s s') (hcl : s.Classed) (hcl' : s'.Classed) (by' : String) :
    Same c (s.delete now t by').2 (s'.delete now t by').2 := by
  by_cases ht : keyClass (ckey t) = c
  · unfold Vault.delete
    rw [← h.lookup hcl hcl' ht]
    cases hl : s.lookup now t with
    | none => exact h
    | some x =>
      obtain ⟨hi, he⟩ := hcl.lookup hl
      have hx : OfClass (ckey t) (x.1, Store.markDeleted now x.2) := ⟨hi, he⟩
      exact ((h.bind hi).deleteConfig (hcl.bind hx) (hcl'.bind hx) ht).emit _ _
  · exact h.of_frames (frame_delete hcl ht by') (frame_delete hcl' ht by')

theorem Same.putSealed (h : Same c s s') (version : ℤ) (x : Sealed) :
    Same c (s.putSealed now t version x).2 (s'.putSealed now t version x).2 :=
  (((h.bindSecret _ _).bind rfl).putSecret _).putConfig rfl

theorem Same.setSecret (h : Same c s s') (value by' : String) :
    Same c (s.setSecret E now t value by').2 (s'.setSecret E now t value by').2 := by
  by_cases ht : keyClass (ckey t) = c
  · unfold Vault.setSecret Vault.secretVersion
    rw [← h.lookupSecret ht]
    split
    · exact h
    · split
      · exact h
      · exact (h.putSealed _ _).emit _ _
  · exact h.of_frames (frame_setSecret ht value by') (frame_setSecret ht value by')

theorem Same.resolveSecret (h : Same c s s') (accessor : String) :
    Same c (s.resolveSecret E now t accessor).2 (s'.resolveSecret E now t accessor).2 := by
  by_cases ht : keyClass (ckey t) = c
  · unfold Vault.resolveSecret
    rw [← h.lookupSecret ht]
    split
    · exact h
    · split
      · exact (h.record _ _).emit _ _
      · split
        · exact h.bindSecret _ _
        · exact ((h.bindSecret _ _).record _ _).emit _ _
  · exact h.of_frames (frame_resolveSecret ht accessor) (frame_resolveSecret ht accessor)

theorem Same.rotateSecret (h : Same c s s') (value by' : String) :
    Same c (s.rotateSecret E now t value by').2 (s'.rotateSecret E now t value by').2 := by
  by_cases ht : keyClass (ckey t) = c
  · unfold Vault.rotateSecret Vault.secretVersion
    rw [← h.lookupSecret ht]
    split
    · exact h
    · split
      · exact h
      · exact (((h.putSealed _ _).emit _ _).record _ _).emit _ _
  · exact h.of_frames (frame_rotateSecret ht value by') (frame_rotateSecret ht value by')

/-! ## Reload and rebuild -/

/-- The entries of one class, folded into the cache. -/
theorem restrict_foldl_bind {xs : List (ObjId × ConfigEntry)} : ∀ {s : Vault},
    (∀ x ∈ xs, keyClass x.1.name = keyClass (ckey x.2.toTriple)) →
    (xs.foldl (fun s x => s.bind (ckey x.2.toTriple) x.1 x.2) s).restrict c =
      (xs.filter fun x => keyClass (ckey x.2.toTriple) = c).foldl
        (fun s x => s.bind (ckey x.2.toTriple) x.1 x.2) (s.restrict c) := by
  induction xs with
  | nil => intro s _; rfl
  | cons x xs ih =>
    intro s hxs
    have hx := hxs x List.mem_cons_self
    rw [List.foldl_cons, ih fun y hy => hxs y (List.mem_cons_of_mem _ hy), restrict_bind hx]
    by_cases hc : keyClass (ckey x.2.toTriple) = c
    · rw [if_pos hc, List.filter_cons_of_pos (by simpa using hc), List.foldl_cons]
    · rw [if_neg hc, List.filter_cons_of_neg (by simpa using hc)]

theorem restrict_foldl_bindSecret {vs : List SecretValue} : ∀ {s : Vault},
    (vs.foldl (fun s v => s.bindSecret (ckey v.toTriple) v) s).restrict c =
      (vs.filter fun v => keyClass (ckey v.toTriple) = c).foldl
        (fun s v => s.bindSecret (ckey v.toTriple) v) (s.restrict c) := by
  induction vs with
  | nil => intro s; rfl
  | cons v vs ih =>
    intro s
    rw [List.foldl_cons, ih, restrict_bindSecret]
    by_cases hc : keyClass (ckey v.toTriple) = c
    · rw [if_pos hc, List.filter_cons_of_pos (by simpa using hc), List.foldl_cons]
    · rw [if_neg hc, List.filter_cons_of_neg (by simpa using hc)]

/-- A store lists on a class what its part on the class lists. -/
theorem listConfig_restrict (hcl : s.Classed) :
    (s.store.listConfig s.heap now).filter (fun x => keyClass (ckey x.2.toTriple) = c) =
      (s.restrict c).store.listConfig (s.restrict c).heap now := by
  have hst := hcl.store
  show _ = (s.store.restrict c).listConfig (s.heap.restrict c) now
  cases h : s.store with
  | none => rfl
  | memory config secrets audit =>
    rw [h] at hst
    unfold Store.listConfig Store.restrict Dict.values Dict.restrict
    simp only [List.filterMap_map, List.filter_filterMap, List.filterMap_filter]
    refine List.filterMap_congr fun x hx => ?_
    have hname := hst.1 x hx
    cases hh : s.heap x.2 with
    | none => by_cases hc : keyClass x.1 = c <;> simp [hh, hc, Heap.restrict]
    | some e =>
      have he := (hcl.heap x.2 e hh).trans hname
      by_cases hc : keyClass x.1 = c
      · simp [hh, hc, he, hname, Heap.restrict]
      · simp [hh, hc, he]
  | sqlite config secrets audit =>
    unfold Store.listConfig Store.restrict Dict.restrict
    simp only [List.filter_map]
    congr 1

theorem listSecrets_restrict (hcl : s.Classed) :
    (s.store.listSecrets).filter (fun v => keyClass (ckey v.toTriple) = c) =
      (s.restrict c).store.listSecrets := by
  have hst := hcl.store
  show _ = (s.store.restrict c).listSecrets
  cases h : s.store with
  | none => rfl
  | memory config secrets audit =>
    rw [h] at hst
    unfold Store.listSecrets Store.restrict Dict.values Dict.restrict
    simp only [List.filter_map]
    congr 1
    refine List.filter_congr fun x hx => ?_
    simp [hst.2 x hx]
  | sqlite config secrets audit =>
    unfold Store.listSecrets Store.restrict Dict.restrict
    simp only [List.filter_map]
    congr 1

theorem isNone_restrict (st : Store) : (st.restrict c).isNone = st.isNone := by
  cases st <;> rfl

theorem Same.isNone (h : Same c s s') : s.store.isNone = s'.store.isNone := by
  rw [← isNone_restrict (c := c) s.store, ← isNone_restrict (c := c) s'.store]
  exact congrArg (fun v : Vault => v.store.isNone) h

theorem Same.cleared (h : Same c s s') :
    Same c { s with config := ∅, secrets := ∅ } { s' with config := ∅, secrets := ∅ } := by
  unfold Same Vault.restrict
  simp only [h.store, h.heap]

theorem foldl_bind_store (xs : List (ObjId × ConfigEntry)) : ∀ s : Vault,
    (xs.foldl (fun s x => s.bind (ckey x.2.toTriple) x.1 x.2) s).store = s.store := by
  induction xs with
  | nil => intro s; rfl
  | cons x xs ih => intro s; exact ih _

theorem Same.reload (h : Same c s s') (hcl : s.Classed) (hcl' : s'.Classed) (source : String) :
    Same c (s.reload now source).2 (s'.reload now source).2 := by
  unfold Vault.reload
  rw [h.isNone]
  split
  · exact h.emit _ _
  · refine Same.emit ?_ _ _
    unfold Same
    rw [restrict_foldl_bindSecret, restrict_foldl_bindSecret, foldl_bind_store, foldl_bind_store,
      listSecrets_restrict hcl, listSecrets_restrict hcl', restrict_foldl_bind hcl.listConfig,
      restrict_foldl_bind hcl'.listConfig, listConfig_restrict hcl, listConfig_restrict hcl', h]
    rw [show (Vault.restrict c { s with config := ∅, secrets := ∅ }) = _ from h.cleared]

theorem Same.rebuild (h : Same c s s') : Same c s.rebuild s'.rebuild := by
  unfold Vault.rebuild
  rw [h.isNone]
  split
  · exact h
  · unfold Same Vault.restrict
    simp only [h.store, h.heap]

/-! ## Runs -/

theorem step_same (h : Same c s s') (hcl : s.Classed) (hcl' : s'.Classed) (op : Op) :
    Same c (s.step E now op) (s'.step E now op) := by
  cases op with
  | set t value by' => exact h.set hcl hcl' value by'
  | get t d => exact h.get hcl hcl' d
  | delete t by' => exact h.delete hcl hcl' by'
  | listKeys _ _ _ => exact h
  | setSecret t value by' => exact h.setSecret value by'
  | resolveSecret t a => exact h.resolveSecret a
  | rotateSecret t value by' => exact h.rotateSecret value by'
  | reload source => exact h.reload hcl hcl' source
  | rebuild => exact h.rebuild

/-- **Runs that agree on a class of keys go on agreeing there.** -/
theorem run_same : ∀ (ops : List Op) (now : ℕ) (s s' : Vault), Same c s s' → s.Classed →
    s'.Classed → Same c (run E now s ops) (run E now s' ops) := by
  intro ops
  induction ops with
  | nil => intro now s s' h _ _; exact h
  | cons op ops ih =>
    intro now s s' h hcl hcl'
    exact ih _ _ _ (step_same h hcl hcl' op) (hcl.step op) (hcl'.step op)

/-- A writing operation on triple `t`: `set`, `set_secret`, `rotate_secret` or `delete`. -/
def Vault.Op.writes (t : Triple) : Op → Prop
  | .set t' _ _ => t' = t
  | .delete t' _ => t' = t
  | .setSecret t' _ _ => t' = t
  | .rotateSecret t' _ _ => t' = t
  | _ => False

/-- A writing operation leaves the other classes alone. -/
theorem step_frame (hcl : s.Classed) {op : Op} (hop : op.writes t) (ht : keyClass (ckey t) ≠ c) :
    Same c (s.step E now op) s := by
  cases op with
  | set t' value by' => obtain rfl := hop; exact frame_set ht value by'
  | delete t' by' => obtain rfl := hop; exact frame_delete hcl ht by'
  | setSecret t' value by' => obtain rfl := hop; exact frame_setSecret ht value by'
  | rotateSecret t' value by' => obtain rfl := hop; exact frame_rotateSecret ht value by'
  | get _ _ => cases hop
  | listKeys _ _ _ => cases hop
  | resolveSecret _ _ => cases hop
  | reload _ => cases hop
  | rebuild => cases hop

theorem get_same (h : Same c s s') (hcl : s.Classed) (hcl' : s'.Classed)
    (ht : keyClass (ckey t) = c) (d : Option String) :
    (s.get now t d).1 = (s'.get now t d).1 := by
  unfold Vault.get
  rw [h.lookup hcl hcl' ht]
  cases s'.lookup now t with
  | none => rfl
  | some x => rfl

theorem resolveSecret_same (h : Same c s s') (ht : keyClass (ckey t) = c) (accessor : String) :
    (s.resolveSecret E now t accessor).1 = (s'.resolveSecret E now t accessor).1 := by
  unfold Vault.resolveSecret
  rw [h.lookupSecret ht]
  split
  · rfl
  · split
    · rfl
    · split
      · rfl
      · rfl

end Hermes

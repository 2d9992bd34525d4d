import Hermes.Proof.VaultScope

/-!
# Isolation of the vault's scopes

* `colliding_ids`: two triples of different agents that are not isolated.
* `isolated_iff`: the operations on one triple never change what is read at
  another, over any store and any run, exactly when the classes of their cache
  keys differ.
-/

namespace Hermes

open Vault

/-- The store that a vault is built on. -/
inductive Backend where
  | none | memory | sqlite
  deriving DecidableEq, Repr

/-- A new vault on an empty store. -/
def Backend.vault : Backend → Vault
  | .none => {}
  | .memory => { store := .memory ∅ ∅ [] }
  | .sqlite => { store := .sqlite ∅ ∅ ∅ }

theorem Backend.classed (b : Backend) : b.vault.Classed := by
  have hc : ∀ x ∈ (∅ : Dict String ObjId).entries, keyClass x.2.name = keyClass x.1 := by
    intro x hx; cases hx
  have hs : ∀ x ∈ (∅ : Dict String SecretValue).entries,
      keyClass (ckey x.2.toTriple) = keyClass x.1 := by
    intro x hx; cases hx
  have hh : ∀ (i : ObjId) (e : ConfigEntry), (fun _ => Option.none : Heap) i = some e →
      keyClass (ckey e.toTriple) = keyClass i.name := by
    intro i e h; cases h
  cases b with
  | none => exact ⟨hh, hc, trivial⟩
  | memory => exact ⟨hh, hc, hc, hs⟩
  | sqlite => exact ⟨hh, hc, trivial⟩

/-- In no run of a vault does a writing operation on `t` change what a later `get` or
`resolve_secret` of `t'` returns: the run with the operation and the run without it,
all other operations made at the same moments, read the same there. -/
def Isolated (t t' : Triple) : Prop :=
  ∀ (E : VaultEnv) (b : Backend) (pre post : List Op) (op : Op), op.writes t →
    let n := pre.length
    let s := run E 0 b.vault pre
    let u := run E (n + 1) (s.step E n op) post
    let u' := run E (n + 1) s post
    let m := n + 1 + post.length
    (∀ d, (u.get m t' d).1 = (u'.get m t' d).1) ∧
      ∀ a, (u.resolveSecret E m t' a).1 = (u'.resolveSecret E m t' a).1

variable {t t' : Triple}

/-- Triples of different classes are isolated. -/
theorem isolated_of_ne (h : keyClass (ckey t) ≠ keyClass (ckey t')) : Isolated t t' := by
  intro E b pre post op hop n s u u' m
  have hs : s.Classed := b.classed.run pre 0 _
  have hframe : Same (keyClass (ckey t')) (s.step E n op) s := step_frame hs hop h
  have hsame : Same (keyClass (ckey t')) u u' :=
    run_same post (n + 1) _ _ hframe (hs.step op) hs
  have hu : u.Classed := (hs.step op).run post (n + 1) _
  have hu' : u'.Classed := hs.run post (n + 1) _
  exact ⟨get_same hsame hu hu' rfl, resolveSecret_same hsame rfl⟩

/-- Triples with one cache key share the cached entry. -/
theorem not_isolated_of_ckey (h : ckey t = ckey t') : ¬ Isolated t t' := by
  intro H
  have := (H { cipher := none } .none [] [] (.set t "v" "") rfl).1 none
  simp [Vault.run, Vault.step, Vault.set, Vault.get, Vault.lookup, Vault.cached, Vault.bind,
    Vault.putConfig, Vault.emit, Backend.vault, Store.putConfig, Store.getConfig, Heap.put, ← h] at this

/-- The object that a set of `d` leaves in the cache and in the in-memory store is found
under both keys of `d`: a deletion under one is seen under the other. -/
theorem not_isolated_of_alias {d : Triple} (hd : d.scopeId = none)
    (h : (ckey t = skey d ∧ skey t = skey d ∧ ckey t' = ckey d) ∨
      (ckey t' = skey d ∧ skey t' = skey d ∧ ckey t = ckey d)) : ¬ Isolated t t' := by
  intro H
  have hne := ckey_ne_skey hd
  have := (H { cipher := none } .memory [.set d "v" ""] [] (.delete t "") rfl).1 none
  rcases h with ⟨h₁, h₂, h₃⟩ | ⟨h₁, h₂, h₃⟩
  · simp [Vault.run, Vault.step, Vault.set, Vault.get, Vault.delete, Vault.lookup, Vault.cached,
      Vault.bind, Vault.putConfig, Vault.deleteConfig, Vault.emit, Backend.vault, Store.putConfig,
      Store.getConfig, Store.deleteConfig, Store.markDeleted, Heap.put, Dict.get?_insert,
      h₁, h₂, h₃, hne, hne.symm] at this
  · -- the store finds the object under the key of `t`, or has nothing to delete there
    by_cases h₄ : skey t = skey d
    all_goals
      simp [Vault.run, Vault.step, Vault.set, Vault.get, Vault.delete, Vault.lookup, Vault.cached,
        Vault.bind, Vault.putConfig, Vault.deleteConfig, Vault.emit, Backend.vault, Store.putConfig,
        Store.getConfig, Store.deleteConfig, Store.markDeleted, Heap.put, Dict.get?_insert,
        h₁, h₂, h₃, h₄, hne.symm] at this

/-- **Isolation.** Two triples are isolated exactly when the classes of their cache keys
differ. -/
theorem isolated_iff (t t' : Triple) : Isolated t t' ↔ keyClass (ckey t) ≠ keyClass (ckey t') := by
  constructor
  · intro H h
    rcases keyClass_eq_cases h with hc | ⟨d, hd, hal⟩
    · exact not_isolated_of_ckey hc H
    · exact not_isolated_of_alias hd hal H
  · exact isolated_of_ne

/-- **Two agents that are not isolated**: `a:b` with the key `k`, and `a` with the key `b:k`. -/
theorem colliding_ids :
    ¬ ∀ t t' : Triple, t ≠ t' → Isolated t t' := by
  intro H
  have hkey : ckey ⟨.agent, some "a:b", "k"⟩ = ckey ⟨.agent, some "a", "b:k"⟩ := by decide
  exact not_isolated_of_ckey hkey (H _ _ (by decide))

end Hermes

/-!
## Deleted secrets

`delete` marks the configuration entry of a secret. `get` and `list_keys` honour
the mark, `resolve_secret` does not look at it.

* `lookupSecret_delete`: a deletion leaves the secrets as they are.
* `delete_revokes_nothing`: after a successful deletion of a secret it is still
  resolved, over any store and after any run.
* `deleted_secret_resolves`: an instance of it.
-/


namespace Hermes

open Vault

variable {s : Vault} {now : ℕ} {t : Triple}

/-- An operation that stores a secret at `t`. -/
def Vault.Op.stores (t : Triple) : Op → Prop
  | .setSecret t' _ _ => t' = t
  | .rotateSecret t' _ _ => t' = t
  | _ => False

/-- From this state on `resolve_secret` of `t` raises `KeyError`, until a secret is stored
at `t` again. -/
def Revoked (E : VaultEnv) (now : ℕ) (s : Vault) (t : Triple) : Prop :=
  ∀ (ops : List Op) (accessor : String), (∀ op ∈ ops, ¬ op.stores t) → ∃ e : Exc,
    ((run E now s ops).resolveSecret E (now + ops.length) t accessor).1 = .error e ∧
      e.kind = .keyError

/-- The claim on a vault: a secret that is deleted is revoked. -/
def RevokesOnDelete (E : VaultEnv) (now : ℕ) (s : Vault) (t : Triple) (changedBy : String) : Prop :=
  (s.delete now t changedBy).1 = true → Revoked E (now + 1) (s.delete now t changedBy).2 t

/-! ## What a deletion leaves alone -/

theorem getSecret_putConfig (st : Store) (h : Heap) (i : ObjId) (e : ConfigEntry) (u : Triple) :
    (st.putConfig h i e).2.getSecret u = st.getSecret u := by
  cases st with
  | none => rfl
  | memory config secrets audit => rfl
  | sqlite config secrets audit => rfl

theorem lookupSecret_deleteConfig (s : Vault) (now : ℕ) (t u : Triple) :
    (s.deleteConfig now t).lookupSecret u = s.lookupSecret u := by
  rw [deleteConfig_eq]
  cases s.store.getConfig s.heap now t with
  | none => rfl
  | some x =>
    unfold Vault.lookupSecret
    congr 1
    exact getSecret_putConfig s.store s.heap x.1 (Store.markDeleted now x.2) u

/-- **A deletion leaves the secrets as they are.** -/
theorem lookupSecret_delete (s : Vault) (now : ℕ) (t u : Triple) (changedBy : String) :
    (s.delete now t changedBy).2.lookupSecret u = s.lookupSecret u := by
  unfold Vault.delete
  cases s.lookup now t with
  | none => rfl
  | some x =>
    show ((s.bind (ckey t) x.1 (Store.markDeleted now x.2)).deleteConfig now t).lookupSecret u = _
    rw [lookupSecret_deleteConfig]
    rfl

/-- What `resolve_secret` returns depends on the secret alone. -/
theorem resolveSecret_congr {E : VaultEnv} {s s' : Vault} (h : s.lookupSecret t = s'.lookupSecret t)
    (now now' : ℕ) (accessor accessor' : String) :
    (s.resolveSecret E now t accessor).1 = (s'.resolveSecret E now' t accessor').1 := by
  unfold Vault.resolveSecret
  rw [h]
  cases E.cipher with
  | none => rfl
  | some C =>
    cases s'.lookupSecret t with
    | none => rfl
    | some v =>
      simp only
      cases C.decrypt v.ciphertext with
      | error e => rfl
      | ok plaintext => rfl

/-- **Deleted secrets resolve.** Over any store and after any run, a secret that is deleted
is still resolved to the same plaintext: no deletion of a secret revokes it. -/
theorem delete_revokes_nothing (E : VaultEnv) (b : Backend) (ops : List Op) (t : Triple)
    (accessor changedBy plaintext : String)
    (hlive : ((run E 0 b.vault ops).resolveSecret E ops.length t accessor).1 = .ok plaintext)
    (hdel : ((run E 0 b.vault ops).delete ops.length t changedBy).1 = true) :
    (((run E 0 b.vault ops).delete ops.length t changedBy).2.resolveSecret E (ops.length + 1) t
        accessor).1 = .ok plaintext ∧
      ¬ RevokesOnDelete E ops.length (run E 0 b.vault ops) t changedBy := by
  set s := run E 0 b.vault ops
  have hsame := lookupSecret_delete s ops.length t t changedBy
  have hok : ((s.delete ops.length t changedBy).2.resolveSecret E (ops.length + 1) t accessor).1 =
      .ok plaintext := by
    rw [← hlive]
    exact resolveSecret_congr hsame _ _ _ _
  refine ⟨hok, fun H => ?_⟩
  -- the first `resolve_secret` after the deletion already returns the plaintext
  obtain ⟨e, he, -⟩ := H hdel [] accessor (by simp)
  have hnil : (s.delete ops.length t changedBy).2.resolveSecret E (ops.length + 1) t accessor =
    (run E (ops.length + 1) (s.delete ops.length t changedBy).2 []).resolveSecret E
      (ops.length + 1 + ([] : List Op).length) t accessor := rfl
  rw [← hnil, hok] at he
  cases he

/-! ## A deleted token -/

theorem base64Cipher_inverts (now : ℕ) (p : String) (x : Sealed)
    (h : base64Cipher.encrypt now p = .ok x) : base64Cipher.decrypt x.ciphertext = .ok p := by
  have hx : x.ciphertext = Base64.toAscii (Base64.encode p.toUTF8.data.toList) := by
    unfold base64Cipher at h
    cases h; rfl
  unfold base64Cipher
  simp only [hx]
  rw [Base64.ofAscii_toAscii (Base64.encode_lt _), Base64.decode_encode]
  have hp : String.fromUTF8? p.toUTF8 = some p := by
    unfold String.fromUTF8?
    have hv : p.toUTF8.IsValidUTF8 := p.isValidUTF8
    rw [dif_pos hv]
    rfl
  have hb : (⟨p.toUTF8.data.toList.toArray⟩ : ByteArray) = p.toUTF8 := rfl
  rw [hb, hp]

def token : Triple := ⟨.agent, some "a", "token"⟩

/-- A vault with a SQLite store after a `set_secret`. -/
def tokenVault : Vault :=
  run { cipher := some base64Cipher } 0 Backend.sqlite.vault [.setSecret token "s3cret" ""]

theorem delete_revokes_nothing_sqlite :
    ((tokenVault.delete 1 token "").2.resolveSecret { cipher := some base64Cipher } 2 token "").1 =
        .ok "s3cret" ∧
      ¬ RevokesOnDelete { cipher := some base64Cipher } 1 tokenVault token "" :=
  delete_revokes_nothing _ .sqlite [.setSecret token "s3cret" ""] token "" "" "s3cret"
    (by decide +kernel) (by decide +kernel)

/-- **A deleted secret is resolved**: set, delete, resolve on a SQLite store. -/
theorem deleted_secret_resolves :
    ¬ ∀ (E : VaultEnv) (b : Backend) (ops : List Op) (t : Triple) (changedBy : String),
      (∃ C, E.cipher = some C ∧ ∀ now p x, C.encrypt now p = .ok x → C.decrypt x.ciphertext = .ok p) →
      (∃ a p, ((run E 0 b.vault ops).resolveSecret E ops.length t a).1 = .ok p) →
      RevokesOnDelete E ops.length (run E 0 b.vault ops) t changedBy := by
  intro H
  have hrev := H { cipher := some base64Cipher } .sqlite [.setSecret token "s3cret" ""] token ""
    ⟨base64Cipher, rfl, base64Cipher_inverts⟩ ⟨"", "s3cret", by decide +kernel⟩
  obtain ⟨e, he, -⟩ := hrev (by decide +kernel) [] "" (by simp)
  have hok : ((tokenVault.delete 1 token "").2.resolveSecret
      { cipher := some base64Cipher } 2 token "").1 = .ok "s3cret" := by decide +kernel
  cases hok.symm.trans he

end Hermes

import Hermes.Spec.ConfigVault
import Hermes.Lib.History
import Hermes.Lib.Overlap
import Hermes.Proof.VaultIsolation

/-!
# The audit trail of the secrets

`resolve_secret` returns the plaintext and says so in the trail, or finds no secret and says so. A
secret that cannot be decrypted leaves no trace.

* `putAudit_rows`: a new entry of a store.
* `record_trail`: a new entry of a vault, whatever is asked for.
* `AuditedOnce`: what the trail has after a call.
* `audited_once_iff`: when a call is audited.
-/

namespace Hermes

namespace Vault

variable {E : VaultEnv} {s : Vault} {now : ℕ} {t : Triple} {accessor : String}

/-- No entry of the store's table has this id. -/
def AuditIdUnused (st : Store) (entryId : String) : Prop :=
  match st with
  | .sqlite _ _ audit => entryId ∉ audit.keys
  | _ => True

/-- The call has left one entry for the accessor and the key, and no other: in memory, and in the
log, for any key, accessor and time that it is asked for. It says `allowed` if the plaintext was
returned, and only then. -/
def AuditedOnce (s : Vault) (t : Triple) (accessor : String) (call : Except Exc String × Vault) : Prop :=
  ∃ entry : AuditEntry, entry.who = accessor ∧ entry.resource = "secret:" ++ t.key ∧
    (entry.result = "allowed" ↔ ∃ plaintext, call.1 = .ok plaintext) ∧
    call.2.audit = s.audit ++ [entry] ∧
    ∀ key who since, (call.2.getAuditLog key who since).Perm
      ((s.getAuditLog key who since) ++ [entry].filter fun a => a.asked key who since none)

/-! ## New entries -/

/-- **A new entry of a store** is among those of the others. -/
theorem putAudit_rows {st : Store} {a : AuditEntry} (hstore : st.isNone = false)
    (hunused : AuditIdUnused st a.entryId) : (st.putAudit a).auditRows.Perm (st.auditRows ++ [a]) := by
  cases st with
  | none => cases hstore
  | memory config secrets audit => exact List.Perm.refl _
  | sqlite config secrets audit =>
    have hvalues : ((audit.erase a.entryId).insert a.entryId a).values = audit.values ++ [a] := by
      have hentries := Dict.entries_replace_of_not_mem hunused a
      unfold Dict.replace at hentries
      unfold Dict.values
      rw [hentries, List.map_append]
      rfl
    unfold Store.putAudit Store.auditRows
    simp only
    rw [hvalues]
    exact (List.mergeSort_perm _ _).trans ((List.mergeSort_perm _ _).symm.append_right [a])

/-- **A new entry of a vault**, in the log. -/
theorem record_trail (a : AuditEntry) (hunused : AuditIdUnused s.store a.entryId)
    (key who : Option String) (since : Option ℕ) :
    ((s.record a).getAuditLog key who since).Perm
      (s.getAuditLog key who since ++ [a].filter fun a => a.asked key who since none) := by
  have hkind : (s.store.putAudit a).isNone = s.store.isNone := by
    cases s.store <;> rfl
  unfold getAuditLog record
  simp only
  rw [hkind]
  cases hstore : s.store.isNone with
  | true =>
    simp only [if_true, List.filter_append]
    exact List.Perm.refl _
  | false =>
    simp only [Bool.false_eq_true, if_false]
    unfold Store.listAudit
    rw [← List.filter_append]
    exact (putAudit_rows hstore hunused).filter _

/-- What a call records, and emits then. -/
theorem audited_record (a : AuditEntry) (e : VaultEvent) (r : Except Exc String)
    (hunused : AuditIdUnused s.store a.entryId) (hwho : a.who = accessor)
    (hresource : a.resource = "secret:" ++ t.key)
    (hresult : a.result = "allowed" ↔ ∃ plaintext, r = .ok plaintext) :
    AuditedOnce s t accessor (r, (s.record a).emit e) :=
  ⟨a, hwho, hresource, hresult, rfl, record_trail a hunused⟩

/-- **A call is audited** exactly when it does not come upon a secret that cannot be decrypted. -/
theorem audited_once_iff (E : VaultEnv) (s : Vault) (now : ℕ) (t : Triple) (accessor : String)
    {C : Cipher} (hcipher : E.cipher = some C) (hunused : AuditIdUnused s.store (E.uuid now)) :
    AuditedOnce s t accessor (s.resolveSecret E now t accessor) ↔
      ∀ v, s.lookupSecret t = some v → ∃ plaintext, C.decrypt v.ciphertext = .ok plaintext := by
  unfold resolveSecret
  rw [hcipher]
  simp only
  cases hv : s.lookupSecret t with
  | none =>
    have hdenied : "denied" ≠ "allowed" := by decide
    refine iff_of_true (audited_record _ _ _ hunused rfl rfl (iff_of_false hdenied ?_)) (by simp)
    rintro ⟨plaintext, h⟩
    cases h
  | some v =>
    simp only [Option.some.injEq, forall_eq']
    cases hdecrypt : C.decrypt v.ciphertext with
    | error e =>
      refine iff_of_false ?_ (by simp)
      -- nothing was recorded
      rintro ⟨entry, -, -, -, haudit, -⟩
      have hlen : s.audit.length = (s.audit ++ [entry]).length := congrArg List.length haudit
      rw [List.length_append, List.length_singleton] at hlen
      omega
    | ok plaintext =>
      have hallowed : AuditedOnce (s.bindSecret (ckey t) v) t accessor
          (.ok plaintext, (s.bindSecret (ckey t) v).auditAccess E now t.key accessor "resolve") :=
        audited_record _ _ _ hunused rfl rfl (iff_of_true rfl ⟨plaintext, rfl⟩)
      -- to keep the secret in the cache changes nothing about the trail
      exact iff_of_true hallowed ⟨plaintext, rfl⟩

def token : Triple := ⟨.global, none, "token"⟩

/-- A vault with one secret, and no store. -/
def tokenVault : Vault :=
  { secrets := (∅ : Dict String SecretValue).insert (ckey token)
      { token with ciphertext := [], nonce := [], tag := [], version := 1, rotatedAt := 0 } }

/-- A vault whose cipher answers like this. -/
def tokenEnv (answer : Except Exc String) : VaultEnv where
  cipher := some { encrypt := fun _ _ => .ok { ciphertext := [] }, decrypt := fun _ => answer }

/-- A secret that can be decrypted. -/
theorem audited_once_token : AuditedOnce tokenVault token "reader"
    (tokenVault.resolveSecret (tokenEnv (.ok "hunter2")) 0 token "reader") :=
  (audited_once_iff (tokenEnv (.ok "hunter2")) tokenVault 0 token "reader" rfl trivial).2
    fun _ _ => ⟨"hunter2", rfl⟩

/-- **A call that goes unnoticed**: `resolve_secret("token", accessor="reader")` with a cipher that
cannot decrypt. -/
theorem undecrypted_unaudited : ¬ AuditedOnce tokenVault token "reader"
    (tokenVault.resolveSecret (tokenEnv (.error ⟨.valueError, "bad tag"⟩)) 0 token "reader") := by
  rintro ⟨entry, -, -, -, haudit, -⟩
  cases haudit

end Vault

/-!
## Versions of a secret that is set at the same time

* `begin_finish`: a call that nothing overlaps is `set_secret` or `rotate_secret`.
* `counter`: the versions are a counter that is read before a wait and written after it.
* `Latest`: the cache and the store have the secret that was written last.
* `secrets_iff`: the versions increase, and the highest is what is resolved, exactly
  when no call writes between the reading and the write of another one.
* `overlap_repeats`: two calls write the same version.
-/

open History

namespace SecretCalls

variable {E : VaultEnv} {t : Triple} {s : SecretCalls}

/-! ## A call alone -/

/-- **A call that nothing overlaps** does what `rotate_secret` or `set_secret` does. -/
theorem begin_finish {C : Cipher} (hC : E.cipher = some C) (s : SecretCalls) (now : ℕ)
    (rotate : Bool) {value : String} {x : Sealed} (hx : C.encrypt now value = .ok x)
    (changedBy : String) :
    ((s.step E t (now, .begin rotate value changedBy)).step E t
      (now, .finish s.inFlight.length x.nonce x.tag)).vault =
    if rotate then (s.vault.rotateSecret E now t value changedBy).2
    else (s.vault.setSecret E now t value changedBy).2 := by
  have hbegin : s.step E t (now, .begin rotate value changedBy) = { s with
      inFlight := s.inFlight ++
        [⟨rotate, value, changedBy, now, s.vault.secretVersion t, s.written.length⟩] } := by
    unfold step begin
    simp only [hC]
  rw [hbegin]
  unfold step finish Vault.rotateSecret Vault.setSecret
  simp only [hC, List.getElem?_append_right le_rfl, Nat.sub_self, List.getElem?_cons_zero, hx]
  cases rotate with
  | true => rfl
  | false => rfl

/-! ## The counter of versions -/

/-- The versions as a counter. -/
def counter (t : Triple) (s : SecretCalls) : Overlap.Counter where
  next := s.vault.secretVersion t
  waiting := s.inFlight.map fun call => ⟨call.version, call.seen⟩
  written := s.written.map (·.1.version)

/-- What an event is for the counter, if it is anything. -/
def counts (E : VaultEnv) (s : SecretCalls) : ℕ × SecretEvent → Option Overlap.Event
  | (_, .begin _ _ _) => E.cipher.map fun _ => .begin
  | (_, .finish n _ _) =>
    match E.cipher, s.inFlight[n]? with
    | some C, some call =>
      match C.encrypt call.begun call.value with
      | .error _ => some (.abandon n)
      | .ok _ => some (.finish n)
    | _, _ => none

/-- The versions written increase. -/
def Increasing (s : SecretCalls) : Prop := (s.written.map (·.1.version)).Pairwise (· < ·)

/-- When every call has finished, the secret with the highest version is resolved, and stored. -/
def Resolves (E : VaultEnv) (t : Triple) (s : SecretCalls) : Prop :=
  s.inFlight = [] → ∀ w ∈ s.written, (∀ u ∈ s.written, u.1.version ≤ w.1.version) →
    (∀ now accessor, (s.vault.resolveSecret E now t accessor).1 = .ok w.2) ∧
      (s.vault.store.isNone = false → ∃ u C, s.vault.store.getSecret t = some u ∧
        u.version = w.1.version ∧ E.cipher = some C ∧ C.decrypt u.ciphertext = .ok w.2)

/-- A call that writes has seen every write before it. -/
def Timely (E : VaultEnv) (s : SecretCalls) : ℕ × SecretEvent → Prop
  | (_, .finish n _ _) => ∀ call ∈ s.inFlight[n]?, ∀ C ∈ E.cipher,
    ∀ x, C.encrypt call.begun call.value = .ok x → call.seen = s.written.length
  | _ => True

/-- The cache and the store have what was written last. -/
def Latest (E : VaultEnv) (t : Triple) (s : SecretCalls) : Prop :=
  ∀ w ∈ s.written.getLast?, s.vault.secrets.get? (ckey t) = some w.1 ∧
    (∃ C, E.cipher = some C ∧ C.decrypt w.1.ciphertext = .ok w.2) ∧
    (s.vault.store.isNone = false → ∃ u, s.vault.store.getSecret t = some u ∧
      u.version = w.1.version ∧ u.ciphertext = w.1.ciphertext)

/-! ## A write -/

theorem getSecret_putAudit (st : Store) (a : AuditEntry) (u : Triple) :
    (st.putAudit a).getSecret u = st.getSecret u := by
  cases st with
  | none => rfl
  | memory config secrets audit => rfl
  | sqlite config secrets audit => rfl

theorem isNone_putAudit (st : Store) (a : AuditEntry) : (st.putAudit a).isNone = st.isNone := by
  cases st with
  | none => rfl
  | memory config secrets audit => rfl
  | sqlite config secrets audit => rfl

/-- What a call announces leaves the secrets. -/
theorem announce_secrets (E : VaultEnv) (t : Triple) (v : Vault) (now : ℕ) (call : SecretCall) :
    (announce E t v now call).secrets = v.secrets ∧
      (announce E t v now call).store.isNone = v.store.isNone ∧
      ∀ u, (announce E t v now call).store.getSecret u = v.store.getSecret u := by
  unfold announce
  split
  · exact ⟨rfl, isNone_putAudit _ _, fun u => getSecret_putAudit _ _ u⟩
  · exact ⟨rfl, rfl, fun u => rfl⟩

theorem b64d_b64e (data : Bytes) : b64d (b64e data) = data := by
  unfold b64d b64e
  rw [String.toList_ofList, Base64.decode_encode]

/-- A store gives back the secret that it was given. -/
theorem getSecret_putSecret {st : Store} (hst : st.isNone = false) (v : SecretValue) :
    ∃ u, (st.putSecret v).getSecret v.toTriple = some u ∧ u.version = v.version ∧
      u.ciphertext = v.ciphertext := by
  cases st with
  | none => cases hst
  | memory config secrets audit => exact ⟨v, Dict.get?_insert_self _ _ _, rfl, rfl⟩
  | sqlite config secrets audit =>
    refine ⟨rowToSecret (pk v.toTriple) v.toRow, ?_, rfl, b64d_b64e _⟩
    unfold Store.putSecret Store.getSecret Store.replace
    simp only [Dict.get?_insert_self]
    rfl

theorem isNone_putConfig (st : Store) (h : Heap) (i : ObjId) (e : ConfigEntry) :
    (st.putConfig h i e).2.isNone = st.isNone := by
  cases st with
  | none => rfl
  | memory config secrets audit => rfl
  | sqlite config secrets audit => rfl

theorem isNone_putSecret (st : Store) (v : SecretValue) :
    (st.putSecret v).isNone = st.isNone := by
  cases st with
  | none => rfl
  | memory config secrets audit => rfl
  | sqlite config secrets audit => rfl

/-- **A secret that is written** is in the cache, and in the store. -/
theorem putSealed_secrets (v : Vault) (now : ℕ) (t : Triple) (version : ℤ) (x : Sealed) :
    (v.putSealed now t version x).1.version = version ∧
      (v.putSealed now t version x).1.ciphertext = x.ciphertext ∧
      (v.putSealed now t version x).2.secrets.get? (ckey t) =
        some (v.putSealed now t version x).1 ∧
      ((v.putSealed now t version x).2.store.isNone = false →
        ∃ u, (v.putSealed now t version x).2.store.getSecret t = some u ∧
          u.version = version ∧ u.ciphertext = x.ciphertext) := by
  refine ⟨rfl, rfl, Dict.get?_insert_self _ _ _, fun hstore => ?_⟩
  unfold Vault.putSealed Vault.putConfig Vault.putSecret at hstore ⊢
  simp only at hstore ⊢
  rw [isNone_putConfig, isNone_putSecret] at hstore
  rw [getSecret_putConfig]
  exact getSecret_putSecret hstore _

/-! ## One event -/

theorem begin_eq (now : ℕ) (rotate : Bool) (value changedBy : String) :
    s.step E t (now, .begin rotate value changedBy) =
      if E.cipher.isSome then { s with
        inFlight := s.inFlight ++
          [⟨rotate, value, changedBy, now, s.vault.secretVersion t, s.written.length⟩] } else s := by
  unfold step begin
  cases E.cipher with
  | none => rfl
  | some C => rfl

/-- **The end of a call**: it is not there, the cipher raises, or it writes. -/
theorem finish_cases (E : VaultEnv) (t : Triple) (s : SecretCalls) (now n : ℕ) (nonce tag : Bytes) :
    (counts E s (now, .finish n nonce tag) = none ∧ s.step E t (now, .finish n nonce tag) = s) ∨
      (counts E s (now, .finish n nonce tag) = some (.abandon n) ∧
        s.step E t (now, .finish n nonce tag) = { s with inFlight := s.inFlight.eraseIdx n }) ∨
      ∃ C call x v, E.cipher = some C ∧ s.inFlight[n]? = some call ∧
        C.encrypt call.begun call.value = .ok x ∧
        counts E s (now, .finish n nonce tag) = some (.finish n) ∧
        v = s.vault.putSealed now t call.version { x with nonce, tag } ∧
        s.step E t (now, .finish n nonce tag) =
          ⟨announce E t v.2 now call, s.inFlight.eraseIdx n, s.written ++ [(v.1, call.value)]⟩ := by
  have hfinish : s.step E t (now, .finish n nonce tag) = s.finish E t now n nonce tag := rfl
  rw [hfinish]
  unfold finish counts
  cases hC : E.cipher with
  | none => exact Or.inl ⟨rfl, rfl⟩
  | some C =>
    simp only
    cases hn : s.inFlight[n]? with
    | none => exact Or.inl ⟨rfl, rfl⟩
    | some call =>
      simp only
      cases hx : C.encrypt call.begun call.value with
      | error e => exact Or.inr (Or.inl ⟨rfl, rfl⟩)
      | ok x => exact Or.inr (Or.inr ⟨C, call, x, _, rfl, rfl, hx, rfl, rfl, rfl⟩)

theorem secretVersion_of_cached {v : Vault} {w : SecretValue}
    (h : v.secrets.get? (ckey t) = some w) : v.secretVersion t = w.version + 1 := by
  unfold Vault.secretVersion Vault.lookupSecret
  rw [h]
  rfl

/-- **The versions are a counter** that is read before a wait and written after it. -/
theorem counter_step (E : VaultEnv) (t : Triple) (s : SecretCalls) (op : ℕ × SecretEvent) :
    counter t (s.step E t op) =
      (counts E s op).elim (counter t s) (Overlap.step (counter t s)) := by
  obtain ⟨now, ev⟩ := op
  cases ev with
  | begin rotate value changedBy =>
    rw [begin_eq]
    unfold counts
    cases E.cipher with
    | none => rfl
    | some C =>
      unfold counter Overlap.step
      simp
  | finish n nonce tag =>
    obtain ⟨hcounts, hsame⟩ | ⟨hcounts, hgone⟩ | ⟨C, call, x, v, -, hn, -, hcounts, hv, hstep⟩ :=
      finish_cases E t s now n nonce tag
    · rw [hcounts, hsame]
      rfl
    · rw [hcounts, hgone]
      unfold counter Overlap.step
      simp [List.eraseIdx_map]
    · have hget : (counter t s).waiting[n]? = some ⟨call.version, call.seen⟩ := by
        unfold counter
        rw [List.getElem?_map, hn]
        rfl
      obtain ⟨hversion, -, hcached, -⟩ :=
        putSealed_secrets s.vault now t call.version { x with nonce, tag }
      rw [← hv] at hversion hcached
      have hnext : (announce E t v.2 now call).secretVersion t = call.version + 1 := by
        rw [← hversion]
        refine secretVersion_of_cached ?_
        rw [(announce_secrets E t v.2 now call).1]
        exact hcached
      rw [hcounts, hstep, Option.elim_some, Overlap.step_finish hget]
      unfold counter
      simp only [hnext, List.map_append, List.map_cons, List.map_nil, hversion, List.eraseIdx_map]

theorem timely_iff (op : ℕ × SecretEvent) :
    Timely E s op ↔ ∀ e ∈ counts E s op, Overlap.Timely (counter t s) e := by
  obtain ⟨now, ev⟩ := op
  cases ev with
  | begin rotate value changedBy =>
    refine iff_of_true trivial fun e he => ?_
    obtain ⟨C, -, rfl⟩ := Option.map_eq_some_iff.1 he
    trivial
  | finish n nonce tag =>
    have hlength : (counter t s).written.length = s.written.length := List.length_map _
    have hget : (counter t s).waiting[n]? =
        (s.inFlight[n]?).map fun call => ⟨call.version, call.seen⟩ := List.getElem?_map ..
    unfold Timely counts
    cases hC : E.cipher with
    | none => simp
    | some C =>
      cases hn : s.inFlight[n]? with
      | none => simp [hn]
      | some call =>
        cases hx : C.encrypt call.begun call.value with
        | error e => simp [hn, hx, Overlap.Timely]
        | ok x => simp [hn, hx, Overlap.Timely, hget, hlength]

/-- **Every event keeps** what was written last in the cache and the store. -/
theorem latest_step (hcipher : ∀ C ∈ E.cipher, ∀ now p x, C.encrypt now p = .ok x →
    C.decrypt x.ciphertext = .ok p) (h : Latest E t s) (op : ℕ × SecretEvent) :
    Latest E t (s.step E t op) := by
  obtain ⟨now, ev⟩ := op
  cases ev with
  | begin rotate value changedBy =>
    rw [begin_eq]
    split
    · exact h
    · exact h
  | finish n nonce tag =>
    obtain ⟨-, hsame⟩ | ⟨-, hgone⟩ | ⟨C, call, x, v, hC, -, hx, -, hv, hstep⟩ :=
      finish_cases E t s now n nonce tag
    · rw [hsame]
      exact h
    · rw [hgone]
      exact h
    · obtain ⟨hversion, hciphertext, hcached, hstored⟩ :=
        putSealed_secrets s.vault now t call.version { x with nonce, tag }
      -- what is announced after the write leaves the secret as it is
      obtain ⟨hsecrets, hnone, hgetSecret⟩ := announce_secrets E t v.2 now call
      rw [← hv] at hversion hciphertext hcached hstored
      rw [hstep]
      intro w hw
      obtain rfl : (v.1, call.value) = w := by simpa using hw
      refine ⟨?_, ⟨C, hC, ?_⟩, fun hsome => ?_⟩
      · show (announce E t v.2 now call).secrets.get? _ = _
        rw [hsecrets]
        exact hcached
      · rw [hciphertext]
        exact hcipher C hC call.begun call.value x hx
      · show ∃ u, (announce E t v.2 now call).store.getSecret t = _ ∧ _
        rw [hgetSecret, hversion, hciphertext]
        refine hstored ?_
        rw [← hnone]
        exact hsome

/-! ## Runs -/

/-- The last secret that was written is resolved, and it is the one with the highest version. -/
theorem resolves_of_latest (h : Latest E t s) (hinc : Increasing s) : Resolves E t s := by
  intro _ w hw hmax
  -- versions increase, so the highest one was written last
  have hlast := Overlap.getLast_of_max hinc hw hmax
  obtain ⟨hcached, ⟨C, hC, hdecrypt⟩, hstored⟩ := h w hlast
  refine ⟨fun now accessor => ?_, fun hsome => ?_⟩
  · have hlookup : s.vault.lookupSecret t = some w.1 := by
      unfold Vault.lookupSecret
      rw [hcached]
      rfl
    unfold Vault.resolveSecret
    simp only [hC, hlookup, hdecrypt]
  · obtain ⟨u, hu, hversion, hciphertext⟩ := hstored hsome
    refine ⟨u, C, hu, hversion, hC, ?_⟩
    rw [hciphertext]
    exact hdecrypt

/-- **The versions written increase**, and the highest of them is what is resolved and stored when
every call has finished, exactly when no call writes between the reading and the write of another
one. -/
theorem secrets_iff (E : VaultEnv) (t : Triple) (hcipher : ∀ C ∈ E.cipher, ∀ now p x,
    C.encrypt now p = .ok x → C.decrypt x.ciphertext = .ok p) (vault : Vault)
    (ops : List (ℕ × SecretEvent)) :
    Throughout (step E t) (fun s => Increasing s ∧ Resolves E t s) { vault } ops ↔
      EachStep (step E t) (Timely E) { vault } ops := by
  have hinc : ∀ s op, Overlap.Current (counter t s) → Increasing s →
      (Increasing (s.step E t op) ↔ Timely E s op) := by
    intro s op hcurrent hs
    show Overlap.Increasing (counter t (s.step E t op)) ↔ _
    rw [counter_step, timely_iff (t := t)]
    cases counts E s op with
    | none => exact iff_of_true hs (by simp)
    | some e =>
      rw [Option.elim_some, Overlap.increasing_step_iff hcurrent hs e]
      simp
  refine throughout_iff_eachStep (A := fun _ _ => True)
    (I := fun s => Overlap.Current (counter t s) ∧ Latest E t s) ?_ ?_ ops _
    (eachStep_of_mem (fun _ _ _ => trivial) _) ?_ ?_
  · -- a timely step keeps the counter current
    rintro s op - ⟨hcurrent, hlatest⟩ ⟨hs, -⟩ htimely
    refine ⟨?_, latest_step hcipher hlatest op⟩
    rw [counter_step]
    rw [timely_iff (t := t)] at htimely
    cases hcounts : counts E s op with
    | none => exact hcurrent
    | some e => exact Overlap.current_step hcurrent (htimely e hcounts)
  · rintro s op - ⟨hcurrent, hlatest⟩ ⟨hs, -⟩
    rw [hinc s op hcurrent hs]
    refine and_iff_left_of_imp fun htimely => ?_
    exact resolves_of_latest (latest_step hcipher hlatest op) ((hinc s op hcurrent hs).2 htimely)
  · exact ⟨Overlap.current_init _, fun w hw => by cases hw⟩
  · exact ⟨List.Pairwise.nil, fun _ w hw => by cases hw⟩

/-- A secret is set, and then rotated. -/
theorem secrets_in_turn :
    Throughout (step { cipher := some base64Cipher } ⟨.agent, some "a", "token"⟩)
      (fun s => Increasing s ∧
        Resolves { cipher := some base64Cipher } ⟨.agent, some "a", "token"⟩ s)
      { vault := { store := .sqlite ∅ ∅ ∅ } }
      [(0, .begin false "old" ""), (1, .finish 0 [] []), (2, .begin true "new" ""),
        (3, .finish 0 [] [])] := by
  refine (secrets_iff { cipher := some base64Cipher } ⟨.agent, some "a", "token"⟩ ?_
    { store := .sqlite ∅ ∅ ∅ } _).2 ⟨trivial, ?_, trivial, ?_, trivial⟩
  · intro C hC
    obtain rfl : base64Cipher = C := Option.some.inj hC
    exact base64Cipher_inverts
  · intro call hcall C hC x hx
    obtain rfl := Option.some.inj hcall
    rfl
  · intro call hcall C hC x hx
    obtain rfl := Option.some.inj hcall
    rfl

/-- **Two calls that overlap write the same version**: both have read that there is no secret. -/
theorem overlap_repeats :
    ¬ Throughout (step { cipher := some base64Cipher } ⟨.agent, some "a", "token"⟩)
      (fun s => Increasing s ∧
        Resolves { cipher := some base64Cipher } ⟨.agent, some "a", "token"⟩ s)
      { vault := { store := .sqlite ∅ ∅ ∅ } }
      [(0, .begin false "one" ""), (1, .begin false "two" ""), (2, .finish 0 [] []),
        (3, .finish 0 [] [])] := by
  rintro ⟨-, -, -, -, hincreasing, -⟩
  revert hincreasing
  unfold Increasing
  decide +kernel

end SecretCalls

end Hermes

import Hermes.Spec.Interpolate

/-!
# Vaults that differ in their plaintexts

Two vaults with the same keys, versions and times, whose secrets were encrypted from
different plaintexts.

* `Vault.Twin`: such vaults. `get`, `set` and `resolve_secret` keep them so.
* `interpolateDict_twin`: they interpolate parameters alike, up to the values of what
  was made by reading a secret.
-/

namespace Hermes

variable {E : VaultEnv}

/-- The same outcome, but for the value. Without a secret the value is the same, too. -/
structure Alike {α : Type} (secret : Bool) (r r' : Except Exc α) : Prop where
  shape : (r.map fun _ => ()) = r'.map fun _ => ()
  same : secret = false → r = r'

theorem Alike.refl {α : Type} (secret : Bool) (r : Except Exc α) : Alike secret r r :=
  ⟨rfl, fun _ => rfl⟩

/-- Outcomes that are alike raise the same, or return both. -/
theorem Alike.cases {α : Type} {secret : Bool} {r r' : Except Exc α} (h : Alike secret r r') :
    (∃ e, r = .error e ∧ r' = .error e) ∨
      ∃ v v', r = .ok v ∧ r' = .ok v' ∧ (secret = false → v = v') := by
  obtain ⟨hshape, hsame⟩ := h
  cases r with
  | error e =>
    cases r' with
    | error e' => cases hshape; exact .inl ⟨e, rfl, rfl⟩
    | ok v' => cases hshape
  | ok v =>
    cases r' with
    | error e' => cases hshape
    | ok v' => exact .inr ⟨v, v', rfl, rfl, fun hs => Except.ok.inj (hsame hs)⟩

theorem Alike.map {α β : Type} {secret : Bool} {r r' : Except Exc α} (h : Alike secret r r')
    (f : α → β) : Alike secret (r.map f) (r'.map f) := by
  rcases h.cases with ⟨e, rfl, rfl⟩ | ⟨v, v', rfl, rfl, hv⟩
  · exact .refl _ _
  · refine ⟨rfl, fun hs => ?_⟩
    rw [hv hs]

/-! ## Entries, rows and stores -/

/-- Only the value differs, and only in the marker of a secret. -/
def ConfigEntry.Twin (e e' : ConfigEntry) : Prop :=
  e' = { e with value := e'.value } ∧ (e.encrypted = false → e'.value = e.value)

def ConfigRow.Twin (r r' : ConfigRow) : Prop :=
  r' = { r with value := r'.value } ∧ (r.encrypted = false → r'.value = r.value)

/-- Ciphertexts that decrypt alike. -/
def CipherTwin (E : VaultEnv) (c c' : Bytes) : Prop :=
  ∀ C, E.cipher = some C → Alike true (C.decrypt c) (C.decrypt c')

/-- Only what was made of the plaintext differs. -/
def SecretValue.Twin (E : VaultEnv) (v v' : SecretValue) : Prop :=
  v' = { v with ciphertext := v'.ciphertext, nonce := v'.nonce, tag := v'.tag } ∧
    CipherTwin E v.ciphertext v'.ciphertext

def SecretRow.Twin (E : VaultEnv) (r r' : SecretRow) : Prop :=
  r' = { r with ciphertext := r'.ciphertext, nonce := r'.nonce, tag := r'.tag } ∧
    CipherTwin E (b64d r.ciphertext) (b64d r'.ciphertext)

inductive Store.Twin (E : VaultEnv) : Store → Store → Prop where
  | none : Twin E .none .none
  | memory {config : Dict String ObjId} {secrets secrets' : Dict String SecretValue}
    {audit audit' : List AuditEntry} : Dict.Rel (SecretValue.Twin E) secrets secrets' →
    Twin E (.memory config secrets audit) (.memory config secrets' audit')
  | sqlite {config config' : Dict Pk ConfigRow} {secrets secrets' : Dict Pk SecretRow}
    {audit audit' : Dict String AuditEntry} : Dict.Rel ConfigRow.Twin config config' →
    Dict.Rel (SecretRow.Twin E) secrets secrets' →
    Twin E (.sqlite config secrets audit) (.sqlite config' secrets' audit')

/-- **Vaults that differ in their plaintexts.** What they have told of their use does not
matter. -/
structure Vault.Twin (E : VaultEnv) (v v' : Vault) : Prop where
  heap : ∀ i, Option.Rel ConfigEntry.Twin (v.heap i) (v'.heap i)
  config : v'.config = v.config
  secrets : Dict.Rel (SecretValue.Twin E) v.secrets v'.secrets
  store : v.store.Twin E v'.store

theorem ConfigEntry.Twin.refl (e : ConfigEntry) : e.Twin e := ⟨rfl, fun _ => rfl⟩

theorem ConfigEntry.Twin.toRow {e e' : ConfigEntry} (h : e.Twin e') : e.toRow.Twin e'.toRow := by
  refine ⟨?_, h.2⟩
  unfold ConfigEntry.toRow
  rw [h.1]

theorem SecretValue.Twin.refl (v : SecretValue) : v.Twin E v := ⟨rfl, fun _ _ => .refl _ _⟩

theorem SecretValue.Twin.toRow {v v' : SecretValue} (h : v.Twin E v') :
    v.toRow.Twin E v'.toRow := by
  obtain ⟨hsame, hcipher⟩ := h
  refine ⟨?_, ?_⟩
  · unfold SecretValue.toRow
    rw [hsame]
  · unfold SecretValue.toRow b64d b64e
    simpa [Base64.decode_encode] using hcipher

theorem Store.Twin.refl (st : Store) : st.Twin E st := by
  have hself : ∀ {κ ν : Type} [DecidableEq κ] {R : ν → ν → Prop}, (∀ v, R v v) →
      ∀ d : Dict κ ν, Dict.Rel R d d := by
    intro κ ν _ R hR d k
    cases d.get? k with
    | none => exact .none
    | some v => exact .some (hR v)
  cases st with
  | none => exact .none
  | memory config secrets audit => exact .memory (hself (fun v => .refl v) secrets)
  | sqlite config secrets audit =>
    exact .sqlite (hself (fun r => ⟨rfl, fun _ => rfl⟩) config)
      (hself (fun r => ⟨rfl, fun _ _ => .refl _ _⟩) secrets)

/-- An address and its entry. -/
def AtTwin (x x' : ObjId × ConfigEntry) : Prop := x'.1 = x.1 ∧ x.2.Twin x'.2

namespace Vault.Twin

variable {v v' : Vault} {i : ObjId} {e e' : ConfigEntry} {t : Triple}

theorem refl (v : Vault) : v.Twin E v := by
  refine ⟨fun i => ?_, rfl, fun k => ?_, .refl _⟩
  · cases v.heap i with
    | none => exact .none
    | some e => exact .some (.refl e)
  · cases v.secrets.get? k with
    | none => exact .none
    | some s => exact .some (.refl s)

/-! ## Small updates -/

theorem put_heap (h : v.Twin E v') (i : ObjId) (he : e.Twin e') :
    ∀ j, Option.Rel ConfigEntry.Twin (v.heap.put i e j) (v'.heap.put i e' j) := by
  intro j
  unfold Heap.put
  split
  · exact .some he
  · exact h.heap j

theorem bind (h : v.Twin E v') (k : String) (i : ObjId) (he : e.Twin e') :
    (v.bind k i e).Twin E (v'.bind k i e') := by
  refine ⟨h.put_heap i he, ?_, h.secrets, h.store⟩
  unfold Vault.bind
  rw [h.config]

theorem bindSecret (h : v.Twin E v') (k : String) {s s' : SecretValue} (hs : s.Twin E s') :
    (v.bindSecret k s).Twin E (v'.bindSecret k s') :=
  ⟨h.heap, h.config, h.secrets.insert k hs, h.store⟩

theorem emit (h : v.Twin E v') (x y : VaultEvent) : (v.emit x).Twin E (v'.emit y) :=
  ⟨h.heap, h.config, h.secrets, h.store⟩

theorem record (h : v.Twin E v') (a a' : AuditEntry) : (v.record a).Twin E (v'.record a') := by
  refine ⟨h.heap, h.config, h.secrets, ?_⟩
  have hstore := h.store
  unfold Vault.record Store.putAudit
  generalize v.store = st at hstore ⊢
  generalize v'.store = st' at hstore ⊢
  cases hstore with
  | none => exact .none
  | memory hs => exact .memory hs
  | sqlite hc hs => exact .sqlite hc hs

/-- The store is given an entry. -/
theorem putConfig (h : v.Twin E v') (i : ObjId) (he : e.Twin e') :
    (v.putConfig i e).Twin E (v'.putConfig i e') := by
  have hput := h.put_heap i he
  have hstore := h.store
  have htriple : e'.toTriple = e.toTriple := by rw [he.1]
  obtain ⟨hheap, hconfig, hsecrets, -⟩ := h
  unfold Vault.putConfig Store.putConfig
  generalize v.store = st at hstore ⊢
  generalize v'.store = st' at hstore ⊢
  rw [htriple]
  cases hstore with
  | none => exact ⟨hheap, hconfig, hsecrets, .none⟩
  -- an in-memory store keeps the object itself, a database a row of it
  | memory hs => exact ⟨hput, hconfig, hsecrets, .memory hs⟩
  | sqlite hc hs =>
    refine ⟨hheap, hconfig, hsecrets, .sqlite ?_ hs⟩
    unfold Store.replace
    exact (hc.erase _).insert _ he.toRow

/-- The store is given a secret. -/
theorem putSecret (h : v.Twin E v') {s s' : SecretValue} (hs : s.Twin E s') :
    (v.putSecret s).Twin E (v'.putSecret s') := by
  refine ⟨h.heap, h.config, h.secrets, ?_⟩
  have hstore := h.store
  have htriple : s'.toTriple = s.toTriple := by rw [hs.1]
  unfold Vault.putSecret Store.putSecret
  generalize v.store = st at hstore ⊢
  generalize v'.store = st' at hstore ⊢
  rw [htriple]
  cases hstore with
  | none => exact .none
  | memory hm => exact .memory (hm.insert _ hs)
  | sqlite hc hm =>
    refine .sqlite hc ?_
    unfold Store.replace
    exact (hm.erase _).insert _ hs.toRow

/-! ## Look-ups -/

theorem lookup (h : v.Twin E v') (now : ℕ) (t : Triple) :
    Option.Rel AtTwin (v.lookup now t) (v'.lookup now t) := by
  have hat : ∀ i : ObjId, Option.Rel AtTwin ((v.heap i).map (i, ·)) ((v'.heap i).map (i, ·)) := by
    intro i
    have hi := h.heap i
    generalize v.heap i = o at hi ⊢
    generalize v'.heap i = o' at hi ⊢
    cases hi with
    | none => exact .none
    | some he => exact .some ⟨rfl, he⟩
  have hbind : ∀ o : Option ObjId, Option.Rel AtTwin (o.bind fun i => (v.heap i).map (i, ·))
      (o.bind fun i => (v'.heap i).map (i, ·)) := by
    intro o
    cases o with
    | none => exact .none
    | some i => exact hat i
  have hcached : Option.Rel AtTwin (v.cached t) (v'.cached t) := by
    unfold Vault.cached
    rw [h.config]
    exact hbind _
  have hstored : Option.Rel AtTwin (v.store.getConfig v.heap now t)
      (v'.store.getConfig v'.heap now t) := by
    have hstore := h.store
    unfold Store.getConfig
    generalize v.store = st at hstore ⊢
    generalize v'.store = st' at hstore ⊢
    cases hstore with
    | none => exact .none
    | memory => exact hbind _
    | sqlite hc _ =>
      have hrow := hc (pk t)
      simp only
      generalize Dict.get? _ (pk t) = o at hrow ⊢
      generalize Dict.get? _ (pk t) = o' at hrow ⊢
      cases hrow with
      | none => exact .none
      | @some r r' hr =>
        refine .some ⟨rfl, ?_, hr.2⟩
        unfold rowToConfig
        rw [hr.1]
  -- both vaults find the cached entry, or both ask their stores
  unfold Vault.lookup
  generalize v.cached t = o at hcached ⊢
  generalize v'.cached t = o' at hcached ⊢
  cases hcached with
  | none => exact hstored
  | some hx => exact .some hx

theorem lookupSecret (h : v.Twin E v') (t : Triple) :
    Option.Rel (SecretValue.Twin E) (v.lookupSecret t) (v'.lookupSecret t) := by
  have hcached := h.secrets (ckey t)
  have hstored : Option.Rel (SecretValue.Twin E) (v.store.getSecret t) (v'.store.getSecret t) := by
    have hstore := h.store
    unfold Store.getSecret
    generalize v.store = st at hstore ⊢
    generalize v'.store = st' at hstore ⊢
    cases hstore with
    | none => exact .none
    | memory hs => exact hs (skey t)
    | sqlite _ hs =>
      have hrow := hs (pk t)
      simp only
      generalize Dict.get? _ (pk t) = o at hrow ⊢
      generalize Dict.get? _ (pk t) = o' at hrow ⊢
      cases hrow with
      | none => exact .none
      | @some r r' hr =>
        refine .some ⟨?_, hr.2⟩
        unfold rowToSecret
        rw [hr.1]
  unfold Vault.lookupSecret
  generalize v.secrets.get? (ckey t) = o at hcached ⊢
  generalize v'.secrets.get? (ckey t) = o' at hcached ⊢
  cases hcached with
  | none => exact hstored
  | some hx => exact .some hx

/-! ## Operations -/

/-- `set` stores the same entry in both. -/
theorem set (h : v.Twin E v') (now : ℕ) (t : Triple) (value changedBy : String) :
    (v.set now t value changedBy).2.Twin E (v'.set now t value changedBy).2 := by
  have hlook := h.lookup now t
  unfold Vault.set
  generalize v.lookup now t = o at hlook ⊢
  generalize v'.lookup now t = o' at hlook ⊢
  cases hlook with
  | none => exact ((h.bind _ _ (.refl _)).putConfig _ (.refl _)).emit _ _
  | @some x x' hx =>
    obtain ⟨i, e⟩ := x
    obtain ⟨i', e'⟩ := x'
    obtain ⟨-, he, -⟩ := hx
    -- the versions agree, so both write the same new entry
    have hversion : e'.version = e.version := by
      simp only at he
      rw [he]
    simp only [hversion]
    exact ((h.bind _ _ (.refl _)).putConfig _ (.refl _)).emit _ _

/-- `resolve_secret` decrypts in both, or raises the same in both. -/
theorem resolveSecret (h : v.Twin E v') (now : ℕ) (t : Triple) (accessor : String) :
    Alike true (v.resolveSecret E now t accessor).1 (v'.resolveSecret E now t accessor).1 ∧
      (v.resolveSecret E now t accessor).2.Twin E (v'.resolveSecret E now t accessor).2 := by
  unfold Vault.resolveSecret
  cases hC : E.cipher with
  | none => exact ⟨.refl _ _, h⟩
  | some C =>
    have hlook := h.lookupSecret t
    simp only
    generalize v.lookupSecret t = o at hlook ⊢
    generalize v'.lookupSecret t = o' at hlook ⊢
    cases hlook with
    | none => exact ⟨.refl _ _, (h.record _ _).emit _ _⟩
    | @some s s' hs =>
      have hbound := h.bindSecret (ckey t) hs
      simp only
      rcases (hs.2 C hC).cases with ⟨e, he, he'⟩ | ⟨p, p', hp, hp', -⟩
      · rw [he, he']
        exact ⟨.refl _ _, hbound⟩
      · rw [hp, hp']
        exact ⟨⟨rfl, fun hno => by cases hno⟩, (hbound.record _ _).emit _ _⟩

/-- **`set_secret` of two plaintexts**, with a cipher that reads back what it has encrypted. -/
theorem setSecret (h : v.Twin E v') {C : Cipher} (hC : E.cipher = some C)
    (hinv : ∀ now p x, C.encrypt now p = .ok x → C.decrypt x.ciphertext = .ok p) (now : ℕ)
    (t : Triple) {plain plain' : String} {x x' : Sealed} (hx : C.encrypt now plain = .ok x)
    (hx' : C.encrypt now plain' = .ok x') (changedBy : String) :
    (v.setSecret E now t plain changedBy).2.Twin E (v'.setSecret E now t plain' changedBy).2 := by
  -- the plaintexts decide neither the version nor whether the ciphertext is read back
  have hversion : v'.secretVersion t = v.secretVersion t := by
    have hlook := h.lookupSecret t
    unfold Vault.secretVersion
    generalize v.lookupSecret t = o at hlook ⊢
    generalize v'.lookupSecret t = o' at hlook ⊢
    cases hlook with
    | none => rfl
    | some hs =>
      simp only
      rw [hs.1]
  have hcipher : CipherTwin E x.ciphertext x'.ciphertext := by
    intro D hD
    obtain rfl : C = D := Option.some.inj (hC.symm.trans hD)
    rw [hinv now _ x hx, hinv now _ x' hx']
    exact ⟨rfl, fun hno => by cases hno⟩
  unfold Vault.setSecret Vault.putSealed
  rw [hC, hversion]
  simp only [hx, hx']
  refine Vault.Twin.emit (Vault.Twin.putConfig (Vault.Twin.putSecret ?_ ?_) _ ?_) _ _
  · exact (h.bindSecret _ ⟨rfl, hcipher⟩).bind _ _ ⟨rfl, fun hno => by cases hno⟩
  · exact ⟨rfl, hcipher⟩
  · exact ⟨rfl, fun hno => by cases hno⟩

end Vault.Twin

/-! ## Interpolation -/

/-- Readings of two vaults that have come equally far. -/
structure Reading.Twin (E : VaultEnv) (s s' : Reading) : Prop where
  vault : s.vault.Twin E s'.vault
  tick : s'.tick = s.tick
  secret : s'.secret = s.secret

/-- **Read alike** from `s` on: the outcomes are alike, as far as a secret has been read. -/
structure ReadAlike {α : Type} (E : VaultEnv) (s : Reading) (X X' : Except Exc α × Reading) :
    Prop where
  outcome : Alike X.2.secret X.1 X'.1
  reading : X.2.Twin E X'.2
  grows : s.secret = true → X.2.secret = true

variable {L : Lookup} {s s' : Reading}

theorem ReadAlike.still {α : Type} (h : s.Twin E s') (r : Except Exc α) :
    ReadAlike E s (r, s) (r, s') :=
  ⟨.refl _ _, h, id⟩

theorem resolveToken_twin (h : s.Twin L.env s') (t : Token) :
    ReadAlike L.env s (resolveToken L t s) (resolveToken L t s') := by
  unfold resolveToken
  simp only
  split
  · have hres := h.vault.resolveSecret s.tick ⟨L.scope, L.scopeId, String.ofList t.name⟩ L.accessor
    rw [h.tick]
    refine ⟨hres.1.map _, ⟨hres.2, rfl, rfl⟩, fun _ => rfl⟩
  · have hlook := h.vault.lookup s.tick ⟨L.scope, L.scopeId, String.ofList t.name⟩
    unfold Vault.get
    rw [h.tick, h.secret]
    generalize s.vault.lookup s.tick _ = o at hlook ⊢
    generalize s'.vault.lookup s.tick _ = o' at hlook ⊢
    cases hlook with
    | none => exact ⟨.refl _ _, ⟨h.vault, rfl, rfl⟩, fun hs => by simp [hs]⟩
    | @some x x' hx =>
      obtain ⟨i, e⟩ := x
      obtain ⟨i', e'⟩ := x'
      obtain ⟨hi, he⟩ := hx
      simp only at hi he ⊢
      subst hi
      -- without a marker the entry holds the same value in both vaults
      have hmarker : e'.encrypted = e.encrypted := by rw [he.1]
      have hdeleted : e'.deleted = e.deleted := by rw [he.1]
      rw [hmarker, hdeleted]
      refine ⟨⟨rfl, fun hno => ?_⟩, ⟨h.vault.bind _ _ he, rfl, rfl⟩, fun hs => by simp [hs]⟩
      simp only [Bool.or_eq_false_iff] at hno
      rw [he.2 hno.2]

theorem resolveAll_twin (ts : List Token) : ∀ {s s' : Reading} (out out' : List Char),
    s.Twin L.env s' → (s.secret = false → out = out') →
    ReadAlike L.env s (resolveAll L ts out s) (resolveAll L ts out' s') := by
  induction ts with
  | nil =>
    intro s s' out out' h hout
    refine ⟨⟨rfl, fun hs => ?_⟩, h, id⟩
    exact congrArg Except.ok (hout hs)
  | cons t ts ih =>
    intro s s' out out' h hout
    obtain ⟨hone, hr, hgrow⟩ := resolveToken_twin h t
    unfold resolveAll
    generalize resolveToken L t s = R at hone hr hgrow ⊢
    generalize resolveToken L t s' = R' at hone hr ⊢
    obtain ⟨r, s₁⟩ := R
    obtain ⟨r', s₁'⟩ := R'
    simp only at hone hr hgrow
    rcases hone.cases with ⟨e, rfl, rfl⟩ | ⟨v, v', rfl, rfl, hv⟩
    · exact ⟨.refl _ _, hr, hgrow⟩
    · -- what has been put together so far is the same until a secret is read
      have hrest := ih (replaceFrom t.text v 0 out) (replaceFrom t.text v' 0 out') hr fun hs => by
        have hs₀ : s.secret = false := by
          cases h₀ : s.secret with
          | false => rfl
          | true => rw [hgrow h₀] at hs; cases hs
        rw [hv hs, hout hs₀]
      exact ⟨hrest.outcome, hrest.reading, fun hs => hrest.grows (hgrow hs)⟩

theorem interpolateText_twin (h : s.Twin L.env s') (text : List Char) :
    ReadAlike L.env s (interpolateText L text s) (interpolateText L text s') := by
  unfold interpolateText
  split
  · exact .still h _
  · split
    · exact resolveToken_twin h _
    · exact resolveAll_twin _ _ _ h fun _ => rfl
  · exact resolveAll_twin _ _ _ h fun _ => rfl

/-- The value is put into another one. -/
theorem ReadAlike.wrap {α β : Type} {X X' : Except Exc α × Reading} (h : ReadAlike E s X X')
    (f : α → β) : ReadAlike E s (X.1.map f, X.2) (X'.1.map f, X'.2) :=
  ⟨h.outcome.map f, h.reading, h.grows⟩

/-- One value after another. -/
def readBoth {α β γ : Type} (f : α → β → γ) (X : Except Exc α × Reading)
    (Y : Reading → Except Exc β × Reading) : Except Exc γ × Reading :=
  match X with
  | (.error e, s) => (.error e, s)
  | (.ok v, s) => ((Y s).1.map (f v), (Y s).2)

theorem ReadAlike.both {α β γ : Type} {X X' : Except Exc α × Reading}
    {Y : Reading → Except Exc β × Reading} (f : α → β → γ) (h : ReadAlike E s X X')
    (hY : ∀ {s₁ s₁' : Reading}, s₁.Twin E s₁' → ReadAlike E s₁ (Y s₁) (Y s₁')) :
    ReadAlike E s (readBoth f X Y) (readBoth f X' Y) := by
  obtain ⟨r, s₁⟩ := X
  obtain ⟨r', s₁'⟩ := X'
  obtain ⟨ho, hr, hg⟩ := h
  simp only at ho hr hg
  rcases ho.cases with ⟨e, rfl, rfl⟩ | ⟨v, v', rfl, rfl, hv⟩
  · exact ⟨.refl _ _, hr, hg⟩
  · obtain ⟨ho₁, hr₁, hg₁⟩ := hY hr
    unfold readBoth
    simp only
    refine ⟨?_, hr₁, fun hs => hg₁ (hg hs)⟩
    simp only
    rcases ho₁.cases with ⟨e, he, he'⟩ | ⟨u, u', hu, hu', heq⟩
    · rw [he, he']
      exact .refl _ _
    · rw [hu, hu']
      refine ⟨rfl, fun hs => ?_⟩
      have hs₁ : s₁.secret = false := by
        cases h₁ : s₁.secret with
        | false => rfl
        | true => rw [hg₁ h₁] at hs; cases hs
      rw [hv hs₁, heq hs]

theorem interpolateValue_dict (kvs : List (String × Value)) (s : Reading) :
    interpolateValue L (.dict kvs) s =
      ((interpolateDict L kvs s).1.map Value.dict, (interpolateDict L kvs s).2) := by
  rw [interpolateValue]
  rcases interpolateDict L kvs s with ⟨r, s₁⟩
  cases r with
  | error e => rfl
  | ok kvs => rfl

theorem interpolateValue_list (xs : List Value) (s : Reading) :
    interpolateValue L (.list xs) s =
      ((interpolateList L xs s).1.map Value.list, (interpolateList L xs s).2) := by
  rw [interpolateValue]
  rcases interpolateList L xs s with ⟨r, s₁⟩
  cases r with
  | error e => rfl
  | ok xs => rfl

theorem interpolateValue_str (t : String) (s : Reading) :
    interpolateValue L (.str t) s =
      ((interpolateText L t.toList s).1.map fun t => Value.str (String.ofList t),
        (interpolateText L t.toList s).2) := by
  rw [interpolateValue]
  rcases interpolateText L t.toList s with ⟨r, s₁⟩
  cases r with
  | error e => rfl
  | ok t => rfl

theorem interpolateDict_cons (k : String) (v : Value) (kvs : List (String × Value)) (s : Reading) :
    interpolateDict L ((k, v) :: kvs) s =
      readBoth (fun v kvs => (k, v) :: kvs) (interpolateValue L v s) (interpolateDict L kvs) := by
  rw [interpolateDict]
  unfold readBoth
  rcases interpolateValue L v s with ⟨r, s₁⟩
  cases r with
  | error e => rfl
  | ok v =>
    simp only
    rcases interpolateDict L kvs s₁ with ⟨q, s₂⟩
    cases q with
    | error e => rfl
    | ok kvs => rfl

theorem interpolateList_cons (v : Value) (vs : List Value) (s : Reading) :
    interpolateList L (v :: vs) s =
      readBoth (fun v vs => v :: vs) (interpolateValue L v s) (interpolateList L vs) := by
  rw [interpolateList]
  unfold readBoth
  rcases interpolateValue L v s with ⟨r, s₁⟩
  cases r with
  | error e => rfl
  | ok v =>
    simp only
    rcases interpolateList L vs s₁ with ⟨q, s₂⟩
    cases q with
    | error e => rfl
    | ok vs => rfl

mutual

/-- **Values are interpolated alike.** -/
theorem interpolateValue_twin {s s' : Reading} (h : s.Twin L.env s') (v : Value) :
    ReadAlike L.env s (interpolateValue L v s) (interpolateValue L v s') := by
  cases v with
  | dict kvs =>
    rw [interpolateValue_dict, interpolateValue_dict]
    exact (interpolateDict_twin h kvs).wrap Value.dict
  | list xs =>
    rw [interpolateValue_list, interpolateValue_list]
    exact (interpolateList_twin h xs).wrap Value.list
  | str t =>
    rw [interpolateValue_str, interpolateValue_str]
    exact (interpolateText_twin h t.toList).wrap _
  | none => rw [interpolateValue, interpolateValue]; exact .still h _
  | bool b => rw [interpolateValue, interpolateValue]; exact .still h _
  | int n => rw [interpolateValue, interpolateValue]; exact .still h _

theorem interpolateDict_twin {s s' : Reading} (h : s.Twin L.env s') (kvs : List (String × Value)) :
    ReadAlike L.env s (interpolateDict L kvs s) (interpolateDict L kvs s') := by
  cases kvs with
  | nil => rw [interpolateDict, interpolateDict]; exact .still h _
  | cons kv kvs =>
    obtain ⟨k, v⟩ := kv
    rw [interpolateDict_cons, interpolateDict_cons]
    exact (interpolateValue_twin h v).both _ fun h₁ => interpolateDict_twin h₁ kvs

theorem interpolateList_twin {s s' : Reading} (h : s.Twin L.env s') (vs : List Value) :
    ReadAlike L.env s (interpolateList L vs s) (interpolateList L vs s') := by
  cases vs with
  | nil => rw [interpolateList, interpolateList]; exact .still h _
  | cons v vs =>
    rw [interpolateList_cons, interpolateList_cons]
    exact (interpolateValue_twin h v).both _ fun h₁ => interpolateList_twin h₁ vs

end

end Hermes

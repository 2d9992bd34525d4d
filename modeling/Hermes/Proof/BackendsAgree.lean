import Hermes.Lib.History
import Hermes.Lib.Rekey
import Hermes.Proof.StoreContents

/-!
# The two backends of a configuration store

* `Backends`: an in-memory store and one on SQLite, after the same operations.
* `Agreeing`: they answer an operation alike, and hold the same entries then.
* `InStep`: what they hold is paired, by composed keys and by primary keys.
* `agreeing_iff`, `backends_iff`: they agree exactly when every entry is put with a
  scope id that a row gives back, and no operation has the composed key of an entry with
  other parts.
* `keys_collide`: two entries with one composed key.
-/

namespace Hermes

open History Rekey

/-! ## Agreement -/

/-- Both stores after the same operations. Each reads a clock of its own. -/
structure Backends where
  memory : ConfigStore
  sqlite : ConfigStore
  /-- What the two clocks read when an entry was deleted. -/
  deletions : List (ℕ × ℕ) := []

/-- The same entry, but for a timestamp that a deletion has set. -/
def SameEntry (deletions : List (ℕ × ℕ)) (e e' : ConfigEntry) : Prop :=
  e' = { e with updatedAt := e'.updatedAt } ∧
    (e'.updatedAt = e.updatedAt ∨ (e.updatedAt, e'.updatedAt) ∈ deletions)

/-- Two lists as sets. -/
def SameSet {α β : Type} (S : α → β → Prop) (as : List α) (bs : List β) : Prop :=
  (∀ a ∈ as, ∃ b ∈ bs, S a b) ∧ ∀ b ∈ bs, ∃ a ∈ as, S a b

/-- The same answer. -/
def SameAnswer (deletions : List (ℕ × ℕ)) : StoreAnswer → StoreAnswer → Prop
  | .nothing, .nothing => True
  | .entry e, .entry e' => Option.Rel (SameEntry deletions) e e'
  | .success b, .success b' => b = b'
  | .entries es, .entries es' => SameSet (SameEntry deletions) es es'
  | .secret v, .secret v' => v = v'
  | .secrets vs, .secrets vs' => SameSet Eq vs vs'
  | _, _ => False

section

variable {R : List (ℕ × ℕ)}

theorem SameEntry.triple {e e' : ConfigEntry} (h : SameEntry R e e') :
    e.toTriple = e'.toTriple := by
  obtain ⟨heq, -⟩ := h
  rw [heq]

theorem SameEntry.mono {R' : List (ℕ × ℕ)} (hR : R ⊆ R') {e e' : ConfigEntry}
    (h : SameEntry R e e') : SameEntry R' e e' := by
  obtain ⟨heq, htime⟩ := h
  exact ⟨heq, htime.imp_right fun hmem => hR hmem⟩

/-- A deletion sets both timestamps. -/
theorem SameEntry.markDeleted {e e' : ConfigEntry} (h : SameEntry R e e') (now now' : ℕ) :
    SameEntry ((now, now') :: R) (Store.markDeleted now e) (Store.markDeleted now' e') := by
  obtain ⟨heq, -⟩ := h
  refine ⟨?_, Or.inr List.mem_cons_self⟩
  unfold Store.markDeleted
  rw [heq]

/-- An entry and its row. -/
theorem sameEntry_row_iff (e : ConfigEntry) :
    SameEntry R e (rowToConfig (pk e.toTriple) e.toRow) ↔ ReadsBack e.toTriple := by
  rw [← readsBack_iff]
  constructor
  · intro h
    exact h.triple.symm
  · intro h
    have hrow : rowToConfig (pk e.toTriple) e.toRow = e := by
      unfold rowToConfig ConfigEntry.toRow
      rw [h]
    rw [hrow]
    exact ⟨rfl, Or.inl rfl⟩

end

namespace Backends

def init : Backends := ⟨.inMemory, .onSqlite, []⟩

/-- One operation, with the readings of the two clocks. -/
def step (s : Backends) : (ℕ × ℕ) × StoreOp → Backends
  | (now, op) =>
    { memory := (s.memory.call now.1 op).2
      sqlite := (s.sqlite.call now.2 op).2
      deletions := match op with
        | .deleteConfig _ => now :: s.deletions
        | _ => s.deletions }

/-- What is put is what a look-up gives back, in both stores. -/
def GivesBack (s : Backends) : StoreOp → Prop
  | .putConfig e => ∀ now, s.memory.getConfig now e.toTriple = some e ∧
      s.sqlite.getConfig now e.toTriple = some e
  | .putSecret v => s.memory.getSecret v.toTriple = some v ∧
      s.sqlite.getSecret v.toTriple = some v
  | .rotateSecret v => s.memory.getSecret v.toTriple = some v ∧
      s.sqlite.getSecret v.toTriple = some v
  | _ => True

/-- **The stores agree** on an operation: they give the same answer, list the same entries and
secrets then, and give back what was put. -/
structure Agreeing (s : Backends) (op : (ℕ × ℕ) × StoreOp) : Prop where
  answers : SameAnswer (s.step op).deletions (s.memory.call op.1.1 op.2).1
    (s.sqlite.call op.1.2 op.2).1
  entries : ∀ now, SameSet (SameEntry (s.step op).deletions) ((s.step op).memory.entries now)
    ((s.step op).sqlite.entries now)
  secrets : SameSet Eq (s.step op).memory.store.listSecrets (s.step op).sqlite.store.listSecrets
  last : (s.step op).GivesBack op.2

/-- No entry has the composed key of a triple and other parts. -/
def Unmistaken (s : Backends) (t : Triple) : Prop :=
  ∀ e ∈ s.memory.entries 0, skey e.toTriple = skey t → pk e.toTriple = pk t

/-- No secret has the composed key of a triple and other parts. -/
def SecretUnmistaken (s : Backends) (t : Triple) : Prop :=
  ∀ v ∈ s.memory.store.listSecrets, skey v.toTriple = skey t → pk v.toTriple = pk t

/-- The scope id of what is put is neither empty nor the one that stands for a missing one, and
nothing is taken for something else. -/
def Distinct (s : Backends) : (ℕ × ℕ) × StoreOp → Prop
  | (_, .putConfig e) => s.Unmistaken e.toTriple ∧ ReadsBack e.toTriple
  | (_, .getConfig t) => s.Unmistaken t
  | (_, .deleteConfig t) => s.Unmistaken t
  | (_, .putSecret v) => s.SecretUnmistaken v.toTriple ∧ ReadsBack v.toTriple
  | (_, .rotateSecret v) => s.SecretUnmistaken v.toTriple ∧ ReadsBack v.toTriple
  | (_, .getSecret t) => s.SecretUnmistaken t
  | _ => True

/-- What the two stores hold is paired. -/
structure InStep (s : Backends) : Prop where
  memory : s.memory.InMemory
  sqlite : s.sqlite.OnSqlite
  config : Paired Pk.skey (fun e : ConfigEntry => pk e.toTriple) (SameEntry s.deletions)
    s.memory.underKey s.sqlite.underPk
  secrets : Paired Pk.skey (fun v : SecretValue => pk v.toTriple) Eq s.memory.secretUnderKey
    s.sqlite.secretUnderPk

theorem inStep_init : init.InStep where
  memory := ConfigStore.inMemory_init
  sqlite := ConfigStore.onSqlite_init
  config := paired_empty
  secrets := paired_empty

variable {s : Backends} {c c' : ConfigStore} {R : List (ℕ × ℕ)}

/-! ## Entries -/

/-- **The stores list the same entries** exactly when what they hold is paired. -/
theorem sameEntries_iff (hc : c.InMemory) (hc' : c'.OnSqlite) (now : ℕ) :
    SameSet (SameEntry R) (c.entries now) (c'.entries now) ↔
      Paired Pk.skey (fun e : ConfigEntry => pk e.toTriple) (SameEntry R) c.underKey c'.underPk := by
  rw [paired_iff (fun e : ConfigEntry => pk e.toTriple) hc.keyed hc'.filed
    fun e e' h => congrArg pk h.triple]
  unfold SameSet
  simp only [hc.mem_entries, hc'.mem_entries]

theorem sameSecrets_iff (hc : c.InMemory) (hc' : c'.OnSqlite) :
    SameSet Eq c.store.listSecrets c'.store.listSecrets ↔
      Paired Pk.skey (fun v : SecretValue => pk v.toTriple) Eq c.secretUnderKey
        c'.secretUnderPk := by
  rw [paired_iff (fun v : SecretValue => pk v.toTriple) hc.secretKeyed hc'.secretFiled
    fun v v' h => by rw [h]]
  unfold SameSet
  simp only [hc.mem_secrets, hc'.mem_secrets]

theorem unmistaken_iff (h : s.memory.InMemory) (t : Triple) : s.Unmistaken t ↔
    Clear Pk.skey (fun e : ConfigEntry => pk e.toTriple) s.memory.underKey (pk t) := by
  unfold Unmistaken Clear
  constructor
  · intro hall e he
    exact hall e (h.mem_entries.2 ⟨_, he⟩) (h.keyed _ e he)
  · intro hclear e he hkey
    obtain ⟨k, hk⟩ := h.mem_entries.1 he
    obtain rfl : skey e.toTriple = k := h.keyed k e hk
    exact hclear e (by rw [← skey_eq_skey, ← hkey]; exact hk)

theorem secretUnmistaken_iff (h : s.memory.InMemory) (t : Triple) : s.SecretUnmistaken t ↔
    Clear Pk.skey (fun v : SecretValue => pk v.toTriple) s.memory.secretUnderKey (pk t) := by
  unfold SecretUnmistaken Clear
  constructor
  · intro hall v hv
    exact hall v (h.mem_secrets.2 ⟨_, hv⟩) (h.secretKeyed _ v hv)
  · intro hclear v hv hkey
    obtain ⟨k, hk⟩ := h.mem_secrets.1 hv
    obtain rfl : skey v.toTriple = k := h.secretKeyed k v hk
    exact hclear v (by rw [← skey_eq_skey, ← hkey]; exact hk)

/-! ## One operation -/

/-- Every operation keeps each of the stores in order. -/
theorem backed_step (h : s.InStep) (op : (ℕ × ℕ) × StoreOp) :
    (s.step op).memory.InMemory ∧ (s.step op).sqlite.OnSqlite := by
  obtain ⟨now, op⟩ := op
  cases op with
  | putConfig e => exact ⟨(h.memory.putConfig e).1, (h.sqlite.putConfig e).1⟩
  | deleteConfig t =>
    exact ⟨(h.memory.deleteConfig now.1 t).2.1, (h.sqlite.deleteConfig now.2 t).2.1⟩
  | putSecret v => exact ⟨(h.memory.putSecret v).1, (h.sqlite.putSecret v).1⟩
  | rotateSecret v => exact ⟨(h.memory.putSecret v).1, (h.sqlite.putSecret v).1⟩
  | getConfig t => exact ⟨h.memory, h.sqlite⟩
  | listConfig scope scopeId includeDeleted => exact ⟨h.memory, h.sqlite⟩
  | getSecret t => exact ⟨h.memory, h.sqlite⟩
  | listSecrets scope scopeId => exact ⟨h.memory, h.sqlite⟩

/-- **The stores agree** when they answer alike, and what they hold is paired. -/
theorem agreeing_iff_paired (h : s.InStep) (op : (ℕ × ℕ) × StoreOp) : Agreeing s op ↔
    (SameAnswer (s.step op).deletions (s.memory.call op.1.1 op.2).1
      (s.sqlite.call op.1.2 op.2).1 ∧ (s.step op).InStep) ∧ (s.step op).GivesBack op.2 := by
  obtain ⟨hm, hs⟩ := backed_step h op
  constructor
  · rintro ⟨hanswers, hentries, hsecrets, hlast⟩
    exact ⟨⟨hanswers, hm, hs, (sameEntries_iff hm hs 0).1 (hentries 0),
      (sameSecrets_iff hm hs).1 hsecrets⟩, hlast⟩
  · rintro ⟨⟨hanswers, hstep⟩, hlast⟩
    exact ⟨hanswers, fun now => (sameEntries_iff hm hs now).2 hstep.config,
      (sameSecrets_iff hm hs).2 hstep.secrets, hlast⟩

theorem agreeing_putConfig (h : s.InStep) (now : ℕ × ℕ) (e : ConfigEntry) :
    Agreeing s (now, .putConfig e) ↔ Distinct s (now, .putConfig e) := by
  rw [agreeing_iff_paired h]
  obtain ⟨hm, hmu, hms⟩ := h.memory.putConfig e
  obtain ⟨hs, hsu, hss⟩ := h.sqlite.putConfig e
  have hpaired := h.config.update_iff (a := e) (b := rowToConfig (pk e.toTriple) e.toRow) rfl
  rw [← unmistaken_iff h.memory, sameEntry_row_iff] at hpaired
  constructor
  · rintro ⟨⟨-, hstep⟩, -⟩
    refine hpaired.1 ?_
    have hconfig := hstep.config
    rw [show (s.step (now, .putConfig e)).memory.underKey = _ from hmu,
      show (s.step (now, .putConfig e)).sqlite.underPk = _ from hsu] at hconfig
    exact hconfig
  · intro hdistinct
    refine ⟨⟨trivial, hm, hs, ?_, ?_⟩, fun now => ⟨?_, ?_⟩⟩
    · show Paired _ _ _ (s.memory.putConfig e).underKey (s.sqlite.putConfig e).underPk
      rw [hmu, hsu]
      exact hpaired.2 hdistinct
    · show Paired _ _ _ (s.memory.putConfig e).secretUnderKey (s.sqlite.putConfig e).secretUnderPk
      rw [hms, hss]
      exact h.secrets
    · show (s.memory.putConfig e).getConfig now e.toTriple = some e
      rw [hm.getConfig, hmu, Function.update_self]
    · show (s.sqlite.putConfig e).getConfig now e.toTriple = some e
      rw [hs.getConfig, hsu, Function.update_self]
      unfold rowToConfig ConfigEntry.toRow
      rw [(readsBack_iff e.toTriple).2 hdistinct.2]

theorem agreeing_deleteConfig (h : s.InStep) (now : ℕ × ℕ) (t : Triple) :
    Agreeing s (now, .deleteConfig t) ↔ Distinct s (now, .deleteConfig t) := by
  rw [agreeing_iff_paired h]
  obtain ⟨hm, hmi, hmu, hms⟩ := h.memory.deleteConfig now.1 t
  obtain ⟨hs, hsi, hsu, hss⟩ := h.sqlite.deleteConfig now.2 t
  have hclear := h.config.clear_iff (p := pk t)
  rw [← unmistaken_iff h.memory, ← skey_eq_skey] at hclear
  show (((s.memory.deleteConfig now.1 t).1 = (s.sqlite.deleteConfig now.2 t).1 ∧ _) ∧ True) ↔
    s.Unmistaken t
  rw [and_true, hm, hs, ← hclear]
  refine and_iff_left_of_imp fun hunmistaken => ⟨hmi, hsi, ?_, ?_⟩
  · -- both find an entry, or neither does
    show Paired _ _ (SameEntry (now :: s.deletions)) (s.memory.deleteConfig now.1 t).2.underKey
      (s.sqlite.deleteConfig now.2 t).2.underPk
    rw [hmu, hsu]
    have hclear' := (unmistaken_iff h.memory t).1 hunmistaken
    -- the two timestamps of this deletion join those that may differ
    have hgrown := h.config.mono fun e e' he => he.mono (List.subset_cons_self now s.deletions)
    have hrel := h.config.rel hclear'
    rw [skey_eq_skey]
    cases he : s.memory.underKey (pk t).skey with
    | none =>
      rw [he] at hrel
      cases he' : s.sqlite.underPk (pk t) with
      | none => exact hgrown
      | some e' =>
        rw [he'] at hrel
        cases hrel
    | some e =>
      rw [he] at hrel
      cases he' : s.sqlite.underPk (pk t) with
      | none =>
        rw [he'] at hrel
        cases hrel
      | some e' =>
        rw [he'] at hrel
        obtain hsame : SameEntry s.deletions e e' := by
          cases hrel with
          | some hsame => exact hsame
        have hpk : pk (Store.markDeleted now.1 e).toTriple = pk t := hclear' e he
        exact hgrown.update hclear' hpk (hsame.markDeleted now.1 now.2)
  · show Paired _ _ _ (s.memory.deleteConfig now.1 t).2.secretUnderKey
      (s.sqlite.deleteConfig now.2 t).2.secretUnderPk
    rw [hms, hss]
    exact h.secrets

theorem agreeing_getConfig (h : s.InStep) (now : ℕ × ℕ) (t : Triple) :
    Agreeing s (now, .getConfig t) ↔ Distinct s (now, .getConfig t) := by
  rw [agreeing_iff_paired h]
  have hrel := h.config.rel_iff (p := pk t)
  rw [← unmistaken_iff h.memory, ← skey_eq_skey, ← h.memory.getConfig now.1,
    ← h.sqlite.getConfig now.2] at hrel
  refine (and_iff_left trivial).trans ((and_iff_left ?_).trans hrel)
  exact ⟨h.memory, h.sqlite, h.config, h.secrets⟩

/-- A filter on entries that are the same. -/
theorem sameSet_filter {α β : Type} {S : α → β → Prop} {as : List α} {bs : List β}
    (h : SameSet S as bs) {f : α → Bool} {g : β → Bool} (hfg : ∀ a b, S a b → f a = g b) :
    SameSet S (as.filter f) (bs.filter g) := by
  obtain ⟨hleft, hright⟩ := h
  refine ⟨fun a ha => ?_, fun b hb => ?_⟩
  · obtain ⟨ha, hfa⟩ := List.mem_filter.1 ha
    obtain ⟨b, hb, hab⟩ := hleft a ha
    exact ⟨b, List.mem_filter.2 ⟨hb, (hfg a b hab).symm.trans hfa⟩, hab⟩
  · obtain ⟨hb, hgb⟩ := List.mem_filter.1 hb
    obtain ⟨a, ha, hab⟩ := hright b hb
    exact ⟨a, List.mem_filter.2 ⟨ha, (hfg a b hab).trans hgb⟩, hab⟩

theorem agreeing_listConfig (h : s.InStep) (now : ℕ × ℕ) (scope : Option ConfigScope)
    (scopeId : Option String) (includeDeleted : Bool) :
    Agreeing s (now, .listConfig scope scopeId includeDeleted) := by
  rw [agreeing_iff_paired h]
  refine ⟨⟨?_, h.memory, h.sqlite, h.config, h.secrets⟩, trivial⟩
  have hentries := (sameEntries_iff h.memory h.sqlite now.1).2 h.config
  -- the clock does not matter for what is listed
  have hclock : ∀ e, e ∈ s.sqlite.entries now.1 ↔ e ∈ s.sqlite.entries now.2 := by
    intro e
    rw [h.sqlite.mem_entries, h.sqlite.mem_entries]
  have hboth : SameSet (SameEntry s.deletions) (s.memory.entries now.1)
      (s.sqlite.entries now.2) := by
    obtain ⟨hleft, hright⟩ := hentries
    refine ⟨fun e he => ?_, fun e' he' => hright e' ((hclock e').2 he')⟩
    obtain ⟨e', he', hsame⟩ := hleft e he
    exact ⟨e', (hclock e').1 he', hsame⟩
  refine sameSet_filter hboth fun e e' hsame => ?_
  obtain ⟨heq, -⟩ := hsame
  rw [heq]

theorem agreeing_putSecret (h : s.InStep) (v : SecretValue) :
    ((s.memory.putSecret v).InMemory ∧ (s.sqlite.putSecret v).OnSqlite) ∧
      (((Backends.mk (s.memory.putSecret v) (s.sqlite.putSecret v) s.deletions).InStep ∧
        (s.memory.putSecret v).getSecret v.toTriple = some v ∧
        (s.sqlite.putSecret v).getSecret v.toTriple = some v) ↔
      s.SecretUnmistaken v.toTriple ∧ ReadsBack v.toTriple) := by
  obtain ⟨hm, hmu, hms⟩ := h.memory.putSecret v
  obtain ⟨hs, hsu, hss⟩ := h.sqlite.putSecret v
  have hpaired := h.secrets.update_iff (a := v)
    (b := { v with toTriple := (pk v.toTriple).triple }) rfl
  have hrow : v = { v with toTriple := (pk v.toTriple).triple } ↔ ReadsBack v.toTriple := by
    rw [← readsBack_iff]
    constructor
    · intro heq
      exact (congrArg (·.toTriple) heq).symm
    · intro heq
      rw [heq]
  rw [← secretUnmistaken_iff h.memory, hrow] at hpaired
  refine ⟨⟨hm, hs⟩, fun hstep => ?_, fun hdistinct => ⟨⟨hm, hs, ?_, ?_⟩, ?_, ?_⟩⟩
  · refine hpaired.1 ?_
    have hsecrets := hstep.1.secrets
    simp only [hms, hss] at hsecrets
    exact hsecrets
  · simp only [hmu, hsu]
    exact h.config
  · simp only [hms, hss]
    exact hpaired.2 hdistinct
  · rw [hm.getSecret, hms, Function.update_self]
  · rw [hs.getSecret, hss, Function.update_self, ← hrow.2 hdistinct.2]

theorem rel_eq_iff {α : Type} {a b : Option α} : Option.Rel Eq a b ↔ a = b := by
  constructor
  · intro h
    cases h with
    | none => rfl
    | some hab => rw [hab]
  · rintro rfl
    cases a with
    | none => exact .none
    | some x => exact .some rfl

theorem agreeing_getSecret (h : s.InStep) (now : ℕ × ℕ) (t : Triple) :
    Agreeing s (now, .getSecret t) ↔ Distinct s (now, .getSecret t) := by
  rw [agreeing_iff_paired h]
  have hrel := h.secrets.rel_iff (p := pk t)
  rw [← secretUnmistaken_iff h.memory, ← skey_eq_skey, ← h.memory.getSecret,
    ← h.sqlite.getSecret, rel_eq_iff] at hrel
  refine (and_iff_left trivial).trans ((and_iff_left ?_).trans hrel)
  exact ⟨h.memory, h.sqlite, h.config, h.secrets⟩

/-- **The stores agree on an operation** exactly when it takes nothing for something else. -/
theorem agreeing_iff (h : s.InStep) (op : (ℕ × ℕ) × StoreOp) : Agreeing s op ↔ Distinct s op := by
  obtain ⟨now, op⟩ := op
  cases op with
  | putConfig e => exact agreeing_putConfig h now e
  | getConfig t => exact agreeing_getConfig h now t
  | deleteConfig t => exact agreeing_deleteConfig h now t
  | listConfig scope scopeId includeDeleted =>
    exact iff_of_true (agreeing_listConfig h now scope scopeId includeDeleted) trivial
  | putSecret v =>
    rw [agreeing_iff_paired h]
    refine Iff.trans ?_ (agreeing_putSecret h v).2
    exact and_congr_left fun _ => and_iff_right trivial
  | rotateSecret v =>
    rw [agreeing_iff_paired h]
    refine Iff.trans ?_ (agreeing_putSecret h v).2
    exact and_congr_left fun _ => and_iff_right trivial
  | getSecret t => exact agreeing_getSecret h now t
  | listSecrets scope scopeId =>
    refine iff_of_true ((agreeing_iff_paired h _).2 ⟨⟨?_, ?_⟩, trivial⟩) trivial
    · refine sameSet_filter ((sameSecrets_iff h.memory h.sqlite).2 h.secrets) fun v v' hv => ?_
      rw [hv]
    · exact ⟨h.memory, h.sqlite, h.config, h.secrets⟩

end Backends

end Hermes

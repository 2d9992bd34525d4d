import Hermes.Lib.Substitution
import Hermes.Proof.ThreeVaults
import Hermes.Proof.TwinVaults
import Mathlib.Data.List.TakeWhile

/-!
# Interpolation as a simultaneous substitution

The tokens of a text are replaced one after the other, each throughout the text as the replacements
before it have left it.

* `segments`: a text with its tokens as marks.
* `answer_after`: what one token is resolved to is the same before and after any other.
* `substitute`: a value with each token of its strings replaced, and nothing else.
* `interpolate_answers`: `_interpolate_value` as a function of the answers of the vault.
* `interpolate_simultaneous_iff`: when it is the substitution.
-/

namespace Hermes

open Substitution Vault

/-! ## Tokens -/

/-- A text with its tokens as marks, after `skip` characters that an earlier token has taken. -/
def segmentsFrom : ℕ → List Char → List (Mark Char Token)
  | _, [] => []
  | skip + 1, _ :: cs => segmentsFrom skip cs
  | 0, c :: cs =>
    match tokenAt (c :: cs) with
    | some t => .tok t :: segmentsFrom (t.text.length - 1) cs
    | none => .lit c :: segmentsFrom 0 cs

def segments (text : List Char) : List (Mark Char Token) := segmentsFrom 0 text

theorem tokenWith_text {secret : Bool} {head l : List Char} {t : Token}
    (h : tokenWith secret head l = some t) (hhead : '}' ∉ head) :
    t.text <+: l ∧ ∃ init, t.text = init ++ ['}'] ∧ '}' ∉ init := by
  unfold tokenWith at h
  split at h
  · rename_i hpre
    obtain ⟨rest, rfl⟩ := List.isPrefixOf_iff_prefix.1 hpre
    have hsplit := List.takeWhile_append_dropWhile (p := (· ≠ '}')) (l := rest)
    have hno : '}' ∉ rest.takeWhile (· ≠ '}') := by
      intro hmem
      simpa using List.mem_takeWhile_imp hmem
    simp only [List.drop_left, ← List.drop_drop] at h
    generalize rest.takeWhile (· ≠ '}') = name at h hsplit hno
    generalize rest.dropWhile (· ≠ '}') = after at hsplit
    subst hsplit
    rw [List.drop_left] at h
    split at h
    · rename_i hname
      obtain rfl := Option.some.inj h
      obtain ⟨tail, htail⟩ := List.head?_eq_some_iff.1 hname.2
      refine ⟨⟨tail, ?_⟩, head ++ name, rfl, by simp [hhead, hno]⟩
      show head ++ name ++ ['}'] ++ tail = head ++ (name ++ after)
      rw [htail]
      simp
    · cases h
  · cases h

theorem tokenAt_text {l : List Char} {t : Token} (h : tokenAt l = some t) :
    t.text <+: l ∧ ∃ init, t.text = init ++ ['}'] ∧ '}' ∉ init := by
  unfold tokenAt at h
  rcases Option.or_eq_some_iff.1 h with h | ⟨-, h⟩
  · exact tokenWith_text h (by decide)
  · exact tokenWith_text h (by decide)

theorem marks_segmentsFrom (skip : ℕ) (l : List Char) :
    marks (segmentsFrom skip l) = tokensFrom skip l := by
  fun_induction segmentsFrom skip l with
  | case1 skip => rw [tokensFrom]; rfl
  | case2 skip c cs ih => rw [tokensFrom]; exact ih
  | case3 c cs t ht ih =>
    rw [tokensFrom, ht]
    exact congrArg (t :: ·) ih
  | case4 c cs ht ih =>
    rw [tokensFrom, ht]
    exact ih

theorem fill_segmentsFrom (skip : ℕ) (l : List Char) :
    fill Token.text (segmentsFrom skip l) = l.drop skip := by
  fun_induction segmentsFrom skip l with
  | case1 skip => simp [fill]
  | case2 skip c cs ih => exact ih
  | case3 c cs t ht ih =>
    obtain ⟨⟨rest, hrest⟩, init, htext, -⟩ := tokenAt_text ht
    show t.text ++ fill Token.text (segmentsFrom (t.text.length - 1) cs) = c :: cs
    have hpos : t.text ≠ [] := by
      rw [htext]
      simp
    obtain ⟨x, name, hname⟩ := List.exists_cons_of_ne_nil hpos
    rw [hname] at hrest
    obtain ⟨rfl, rfl⟩ := List.cons.inj hrest
    rw [ih, hname]
    simp
  | case4 c cs ht ih => exact congrArg (c :: ·) ih

/-- **The tokens of a text** are its marks. -/
theorem marks_segments (text : List Char) : marks (segments text) = tokensFrom 0 text :=
  marks_segmentsFrom 0 text

theorem fill_segments (text : List Char) : fill Token.text (segments text) = text :=
  fill_segmentsFrom 0 text

/-- A token does not overlap itself: it has a brace at its end only. -/
theorem unbordered_of_mem {skip : ℕ} {l : List Char} {t : Token} (h : t ∈ tokensFrom skip l) :
    t.text ≠ [] ∧ Unbordered t.text := by
  fun_induction tokensFrom skip l with
  | case1 skip => cases h
  | case2 skip c cs ih => exact ih h
  | case3 c cs u hu ih =>
    rcases List.mem_cons.1 h with rfl | h
    · obtain ⟨-, init, htext, hinit⟩ := tokenAt_text hu
      rw [htext]
      exact ⟨by simp, unbordered_of_last hinit⟩
    · exact ih h
  | case4 c cs hu ih => exact ih h

/-- `str.replace` is the replacement of the library. -/
theorem replaceFrom_eq_scan (old new : List Char) (skip : ℕ) (l : List Char) :
    replaceFrom old new skip l = scan old new skip l := by
  fun_induction replaceFrom old new skip l with
  | case1 skip => rw [scan]
  | case2 skip c cs ih => exact ih
  | case3 c cs h ih => rw [scan, if_pos h, ih]
  | case4 c cs h ih => rw [scan, if_neg h, ih]

/-! ## What a token is resolved to -/

/-- The address of the name of a token. -/
def Lookup.triple (L : Lookup) (t : Token) : Triple := ⟨L.scope, L.scopeId, String.ofList t.name⟩

/-- What a token is resolved to. -/
def answer (L : Lookup) (s : Reading) (t : Token) : Except Exc (List Char) := (resolveToken L t s).1

variable {L : Lookup} {s s' : Reading}

theorem resolveToken_secret {t : Token} (h : t.secret = true) (s : Reading) : resolveToken L t s =
    ((s.vault.resolveSecret L.env s.tick (L.triple t) L.accessor).1.map String.toList,
      ⟨(s.vault.resolveSecret L.env s.tick (L.triple t) L.accessor).2, s.tick + 1, true⟩) := by
  unfold resolveToken
  rw [if_pos h]
  rfl

theorem resolveToken_config {t : Token} (h : t.secret = false) (s : Reading) : ∃ marker,
    resolveToken L t s =
      (.ok ((s.vault.get s.tick (L.triple t) none).1.getD "").toList,
        ⟨(s.vault.get s.tick (L.triple t) none).2, s.tick + 1, marker⟩) := by
  unfold resolveToken
  rw [if_neg (by simp [h])]
  exact ⟨_, rfl⟩

/-- Two vaults have the same for the tokens. -/
structure SameAnswers (L : Lookup) (v v' : Vault) : Prop where
  found : ∀ t, v.foundAt (L.triple t) = v'.foundAt (L.triple t)
  secret : ∀ t, v.lookupSecret (L.triple t) = v'.lookupSecret (L.triple t)

theorem SameAnswers.answer (h : SameAnswers L s.vault s'.vault) (t : Token) :
    answer L s t = answer L s' t := by
  unfold Hermes.answer
  cases hsecret : t.secret with
  | true =>
    rw [resolveToken_secret hsecret, resolveToken_secret hsecret]
    refine congrArg (Except.map String.toList) ?_
    unfold Vault.resolveSecret
    rw [h.secret t]
    split
    · rfl
    · split
      · rfl
      · split
        · rfl
        · rfl
  | false =>
    obtain ⟨_, hleft⟩ := resolveToken_config (L := L) hsecret s
    obtain ⟨_, hright⟩ := resolveToken_config (L := L) hsecret s'
    rw [hleft, hright, get_answer, get_answer, h.found t]

/-- The keys of a scope begin alike. -/
theorem head_ctail (t u : Token) :
    (ctail (L.triple t)).toList.head? = (ctail (L.triple u)).toList.head? := by
  unfold ctail
  simp only [String.toList_append, List.append_assoc]
  show ((orElse L.scopeId "global").toList ++ _).head? = ((orElse L.scopeId "global").toList ++ _).head?
  cases (orElse L.scopeId "global").toList with
  | nil => rfl
  | cons c cs => rfl

/-- Two names of a scope are of different classes. -/
theorem keyClass_triple {t u : Token} (h : L.triple t ≠ L.triple u) :
    keyClass (ckey (L.triple t)) ≠ keyClass (ckey (L.triple u)) := by
  intro heq
  have htail : ∀ {x d : Triple} {tail : String}, ckey x = d.scope.value ++ ":" ++ tail →
      (ctail x).toList = tail.toList := by
    intro x d tail hx
    rw [ckey_eq] at hx
    have hlists := congrArg String.toList hx
    simp only [String.toList_append, List.append_assoc] at hlists
    exact (scope_tail_inj hlists).2
  rcases keyClass_eq_cases heq with hkey | ⟨d, hd, hcases⟩
  · have hsame := htail (hkey.trans (ckey_eq _))
    unfold ctail at hsame
    simp only [String.toList_append] at hsame
    have hname := List.append_cancel_left hsame
    exact h (congrArg (Triple.mk L.scope L.scopeId) (String.toList_inj.1 hname))
  · -- one begins with the id of no agent in the store, and the other with that in the cache
    have hstail : (stail d).toList.head? = some '_' := by
      unfold stail sid orElse truthy
      rw [hd]
      simp
    have hctail : (ctail d).toList.head? = some 'g' := by
      unfold ctail orElse truthy
      rw [hd]
      simp
    have hhead := head_ctail (L := L) t u
    rcases hcases with ⟨ht, -, hu⟩ | ⟨hu, -, ht⟩
    · rw [htail (ht.trans (skey_eq d)), htail (hu.trans (ckey_eq d)), hstail, hctail] at hhead
      cases hhead
    · rw [htail (ht.trans (ckey_eq d)), htail (hu.trans (skey_eq d)), hstail, hctail] at hhead
      cases hhead

/-- A secret that was looked up is in the cache. -/
theorem lookupSecret_bindSecret {v : Vault} {t u : Token} {x : SecretValue}
    (hx : v.lookupSecret (L.triple t) = some x) :
    (v.bindSecret (ckey (L.triple t)) x).lookupSecret (L.triple u) = v.lookupSecret (L.triple u) := by
  by_cases htu : L.triple t = L.triple u
  · rw [← htu, hx]
    show ((v.secrets.insert _ x).get? _).or _ = some x
    rw [Dict.get?_insert_self]
    rfl
  · have hne : ckey (L.triple u) ≠ ckey (L.triple t) := fun heq =>
      keyClass_triple htu (congrArg keyClass heq.symm)
    show ((v.secrets.insert _ x).get? _).or _ = _
    rw [Dict.get?_insert_of_ne _ hne]
    rfl

theorem sameAnswers_record (v : Vault) (a : AuditEntry) : SameAnswers L (v.record a) v := by
  refine ⟨fun t => ?_, fun t => ?_⟩
  · unfold foundAt cachedAt storedAt record Store.putAudit
    cases v.store with
    | none => rfl
    | memory config secrets audit => rfl
    | sqlite config secrets audit => rfl
  · exact congrArg (Option.or _) (SecretCalls.getSecret_putAudit v.store a (L.triple t))

theorem SameAnswers.trans {v v' v'' : Vault} (h : SameAnswers L v v') (h' : SameAnswers L v' v'') :
    SameAnswers L v v'' :=
  ⟨fun t => (h.found t).trans (h'.found t), fun t => (h.secret t).trans (h'.secret t)⟩

theorem sameAnswers_resolveSecret (v : Vault) (now : ℕ) (t : Token) :
    SameAnswers L (v.resolveSecret L.env now (L.triple t) L.accessor).2 v := by
  unfold Vault.resolveSecret
  split
  · exact ⟨fun _ => rfl, fun _ => rfl⟩
  · split
    · exact ⟨(sameAnswers_record v _).found, (sameAnswers_record v _).secret⟩
    · rename_i x hx
      have hbound : SameAnswers L (v.bindSecret (ckey (L.triple t)) x) v :=
        ⟨fun _ => rfl, fun _ => lookupSecret_bindSecret hx⟩
      split
      · exact hbound
      · have haudit : ∀ w : Vault,
            SameAnswers L (w.auditAccess L.env now (L.triple t).key L.accessor "resolve") w :=
          fun w => ⟨(sameAnswers_record w _).found, (sameAnswers_record w _).secret⟩
        exact (haudit _).trans hbound

theorem sameAnswers_get {v : Vault} (hcl : v.Classed) (now : ℕ) (t : Token) :
    SameAnswers L (v.get now (L.triple t) none).2 v := by
  refine ⟨fun u => ?_, fun u => ?_⟩
  · by_cases htu : L.triple t = L.triple u
    · rw [← htu, ← map_lookup v now]
      unfold Vault.get
      cases hlookup : v.lookup now (L.triple t) with
      | none =>
        simp only
        rw [← map_lookup v now, hlookup]
      | some x =>
        show (((v.config.insert (ckey (L.triple t)) x.1).get? _).bind _).or _ = some x.2
        rw [Dict.get?_insert_self]
        show (if x.1 = x.1 then some x.2 else v.heap x.1).or _ = some x.2
        rw [if_pos rfl]
        rfl
    · have hsame : Same (keyClass (ckey (L.triple u))) (v.get now (L.triple t) none).2 v :=
        frame_get hcl (keyClass_triple htu) none
      rw [← map_lookup _ 0, ← map_lookup _ 0, hsame.lookup (hcl.get none) hcl rfl]
  · unfold Vault.get
    cases v.lookup now (L.triple t) with
    | none => rfl
    | some x => rfl

/-- **Resolving a token** leaves what any is resolved to. -/
theorem answer_after (hcl : s.vault.Classed) (t : Token) :
    (resolveToken L t s).2.vault.Classed ∧
      ∀ u, answer L (resolveToken L t s).2 u = answer L s u := by
  cases hsecret : t.secret with
  | true =>
    rw [resolveToken_secret hsecret]
    exact ⟨hcl.resolveSecret L.accessor,
      (sameAnswers_resolveSecret s.vault s.tick t : SameAnswers L _ s.vault).answer⟩
  | false =>
    obtain ⟨_, heq⟩ := resolveToken_config (L := L) hsecret s
    rw [heq]
    exact ⟨hcl.get none, (sameAnswers_get hcl s.tick t : SameAnswers L _ s.vault).answer⟩

/-! ## One token after the other -/

/-- The tokens are resolved, until one raises. -/
def resolveEach (L : Lookup) : List Token → Reading → Except Exc Unit × Reading
  | [], s => (.ok (), s)
  | t :: ts, s =>
    match resolveToken L t s with
    | (.error e, s) => (.error e, s)
    | (.ok _, s) => resolveEach L ts s

theorem resolveEach_append (ts ts' : List Token) (s : Reading) :
    resolveEach L (ts ++ ts') s =
      match resolveEach L ts s with
      | (.error e, s) => (.error e, s)
      | (.ok _, s) => resolveEach L ts' s := by
  induction ts generalizing s with
  | nil => rfl
  | cons t ts ih =>
    rw [List.cons_append, resolveEach, resolveEach]
    rcases resolveToken L t s with ⟨r, s₁⟩
    cases r with
    | error e => rfl
    | ok x => exact ih s₁

/-- What the tokens of a vault are resolved to. -/
structure Steady (L : Lookup) (A : Token → Except Exc (List Char)) (s : Reading) : Prop where
  classed : s.vault.Classed
  answers : ∀ t, answer L s t = A t

variable {A : Token → Except Exc (List Char)}

theorem Steady.resolveToken (h : Steady L A s) (t : Token) :
    Steady L A (Hermes.resolveToken L t s).2 where
  classed := (answer_after h.classed t).1
  answers u := ((answer_after h.classed t).2 u).trans (h.answers u)

theorem Steady.resolveEach (h : Steady L A s) (ts : List Token) :
    Steady L A (Hermes.resolveEach L ts s).2 := by
  induction ts generalizing s with
  | nil => exact h
  | cons t ts ih =>
    rw [Hermes.resolveEach]
    have hnext := h.resolveToken t
    generalize Hermes.resolveToken L t s = R at hnext ⊢
    obtain ⟨r, s₁⟩ := R
    cases r with
    | error e => exact hnext
    | ok x => exact ih hnext

/-- A result is what the answers make it, and the tokens were resolved for it and no others. -/
structure Reads {β : Type} (L : Lookup) (ts : List Token) (s : Reading)
    (X : Except Exc β × Reading) (r : Except Exc β) : Prop where
  value : X.1 = r
  reading : X.2 = (resolveEach L ts s).2
  raised : (resolveEach L ts s).1 = r.map fun _ => ()

section Reads

variable {β γ δ : Type} {ts ts' : List Token} {X : Except Exc β × Reading} {r : Except Exc β}

theorem reads_ok (s : Reading) (x : β) : Reads L [] s (.ok x, s) (.ok x) := ⟨rfl, rfl, rfl⟩

theorem Reads.steady (hX : Reads L ts s X r) (h : Steady L A s) : Steady L A X.2 :=
  hX.reading ▸ h.resolveEach ts

theorem Reads.map (h : Reads L ts s X r) (f : β → γ) :
    Reads L ts s (X.1.map f, X.2) (r.map f) where
  value := congrArg (Except.map f) h.value
  reading := h.reading
  raised := by
    rw [h.raised]
    cases r with
    | error e => rfl
    | ok x => rfl

/-- One result after another, that depends on it. -/
def readThen (X : Except Exc β × Reading) (Y : β → Reading → Except Exc γ × Reading) :
    Except Exc γ × Reading :=
  match X with
  | (.error e, s) => (.error e, s)
  | (.ok x, s) => Y x s

theorem readBoth_eq (f : β → γ → δ) (X : Except Exc β × Reading)
    (Y : Reading → Except Exc γ × Reading) :
    readBoth f X Y = readThen X fun x s => ((Y s).1.map (f x), (Y s).2) := by
  obtain ⟨x, s⟩ := X
  cases x with
  | error e => rfl
  | ok x => rfl

theorem Reads.andThen {Y : β → Reading → Except Exc γ × Reading} {q : β → Except Exc γ}
    (h : Reads L ts s X r) (hY : ∀ x, Reads L ts' X.2 (Y x X.2) (q x)) :
    Reads L (ts ++ ts') s (readThen X Y) (r.bind q) := by
  obtain ⟨x, s₁⟩ := X
  obtain ⟨hvalue, hreading, hraised⟩ := h
  simp only at hvalue hreading hY
  subst hvalue
  rcases heach : Hermes.resolveEach L ts s with ⟨u, s₂⟩
  rw [heach] at hreading hraised
  simp only at hreading hraised
  subst hreading hraised
  cases x with
  | error e =>
    have hends : Hermes.resolveEach L (ts ++ ts') s = (.error e, s₁) := by
      rw [resolveEach_append, heach]
      rfl
    exact ⟨rfl, by rw [hends]; rfl, by rw [hends]; rfl⟩
  | ok x =>
    have hnext : Hermes.resolveEach L (ts ++ ts') s = Hermes.resolveEach L ts' s₁ := by
      rw [resolveEach_append, heach]
      rfl
    obtain ⟨hvalue', hreading', hraised'⟩ := hY x
    exact ⟨hvalue', by rw [hnext]; exact hreading', by rw [hnext]; exact hraised'⟩

end Reads

theorem Steady.token (h : Steady L A s) (t : Token) :
    Reads L [t] s (Hermes.resolveToken L t s) (A t) := by
  have hanswer := h.answers t
  unfold answer at hanswer
  have heach : Hermes.resolveEach L [t] s =
      ((Hermes.resolveToken L t s).1.map fun _ => (), (Hermes.resolveToken L t s).2) := by
    rw [Hermes.resolveEach]
    rcases Hermes.resolveToken L t s with ⟨r, s₁⟩
    cases r with
    | error e => rfl
    | ok x => rfl
  rw [← hanswer]
  exact ⟨rfl, by rw [heach], by rw [heach]⟩

/-- The tokens of a text, each replaced throughout it by the answer. -/
def replaceAnswers (A : Token → Except Exc (List Char)) : List Token → List Char →
    Except Exc (List Char)
  | [], out => .ok out
  | t :: ts, out => (A t).bind fun x => replaceAnswers A ts (replaceFrom t.text x 0 out)

theorem Steady.all (h : Steady L A s) (ts : List Token) (out : List Char) :
    Reads L ts s (resolveAll L ts out s) (replaceAnswers A ts out) := by
  induction ts generalizing s out with
  | nil => exact reads_ok s out
  | cons t ts ih =>
    have heq : resolveAll L (t :: ts) out s = readThen (Hermes.resolveToken L t s) fun x s =>
        resolveAll L ts (replaceFrom t.text x 0 out) s := by
      rw [resolveAll]
      unfold readThen
      rcases Hermes.resolveToken L t s with ⟨r, s₁⟩
      cases r with
      | error e => rfl
      | ok x => rfl
    rw [heq]
    exact (h.token t).andThen fun x => ih (h.resolveToken t) _

theorem Steady.text (h : Steady L A s) (text : List Char) :
    Reads L (tokensFrom 0 text) s (interpolateText L text s)
      (replaceAnswers A (tokensFrom 0 text) text) := by
  unfold interpolateText
  split
  · rename_i hts
    rw [hts]
    exact reads_ok s text
  · rename_i t hts
    rw [hts]
    split
    · -- the whole text is the token
      rename_i htext
      have hwhole : replaceAnswers A [t] text = A t := by
        have hne : t.text ≠ [] := (unbordered_of_mem (hts ▸ List.mem_singleton_self t)).1
        show ((A t).bind fun x => .ok (replaceFrom t.text x 0 text)) = A t
        cases A t with
        | error e => rfl
        | ok x =>
          show Except.ok (replaceFrom t.text x 0 text) = .ok x
          have hscan : scan t.text x 0 (t.text ++ []) = x ++ scan t.text x 0 [] := scan_hit hne []
          rw [List.append_nil] at hscan
          rw [replaceFrom_eq_scan, ← htext, hscan]
          exact congrArg Except.ok (List.append_nil x)
      rw [hwhole]
      exact h.token t
    · exact h.all [t] text
  · exact h.all _ text

/-! ## Values -/

mutual

/-- A value with its strings changed, from the first to the last. -/
def mapTexts (F : List Char → Except Exc (List Char)) : Value → Except Exc Value
  | .dict kvs => (mapDict F kvs).map .dict
  | .list xs => (mapList F xs).map .list
  | .str t => (F t.toList).map fun t => .str (String.ofList t)
  | .none => .ok .none
  | .bool b => .ok (.bool b)
  | .int n => .ok (.int n)

def mapDict (F : List Char → Except Exc (List Char)) :
    List (String × Value) → Except Exc (List (String × Value))
  | [] => .ok []
  | (k, v) :: kvs => (mapTexts F v).bind fun v => (mapDict F kvs).map ((k, v) :: ·)

def mapList (F : List Char → Except Exc (List Char)) : List Value → Except Exc (List Value)
  | [] => .ok []
  | v :: vs => (mapTexts F v).bind fun v => (mapList F vs).map (v :: ·)

end

mutual

/-- The strings of a value, in their order. -/
def Value.texts : Value → List (List Char)
  | .dict kvs => dictTexts kvs
  | .list xs => listTexts xs
  | .str t => [t.toList]
  | .none => []
  | .bool _ => []
  | .int _ => []

def dictTexts : List (String × Value) → List (List Char)
  | [] => []
  | (_, v) :: kvs => v.texts ++ dictTexts kvs

def listTexts : List Value → List (List Char)
  | [] => []
  | v :: vs => v.texts ++ listTexts vs

end

/-- The tokens in some strings. -/
def tokensIn (texts : List (List Char)) : List Token := texts.flatMap (tokensFrom 0)

mutual

/-- **`_interpolate_value`** goes by the answers of the vault. -/
theorem Steady.value {s : Reading} (h : Steady L A s) (v : Value) :
    Reads L (tokensIn v.texts) s (interpolateValue L v s)
      (mapTexts (fun text => replaceAnswers A (tokensFrom 0 text) text) v) := by
  cases v with
  | dict kvs =>
    rw [interpolateValue_dict, mapTexts, Value.texts]
    exact (h.dict kvs).map Value.dict
  | list xs =>
    rw [interpolateValue_list, mapTexts, Value.texts]
    exact (h.list xs).map Value.list
  | str t =>
    rw [interpolateValue_str, mapTexts, Value.texts]
    have htokens : tokensIn [t.toList] = tokensFrom 0 t.toList := List.append_nil _
    rw [htokens]
    exact (h.text t.toList).map fun t => Value.str (String.ofList t)
  | none =>
    rw [interpolateValue, mapTexts, Value.texts]
    exact reads_ok s _
  | bool b =>
    rw [interpolateValue, mapTexts, Value.texts]
    exact reads_ok s _
  | int n =>
    rw [interpolateValue, mapTexts, Value.texts]
    exact reads_ok s _

theorem Steady.dict {s : Reading} (h : Steady L A s) (kvs : List (String × Value)) :
    Reads L (tokensIn (dictTexts kvs)) s (interpolateDict L kvs s)
      (mapDict (fun text => replaceAnswers A (tokensFrom 0 text) text) kvs) := by
  cases kvs with
  | nil =>
    rw [interpolateDict, mapDict, dictTexts]
    exact reads_ok s _
  | cons kv kvs =>
    obtain ⟨k, v⟩ := kv
    rw [interpolateDict_cons, readBoth_eq, mapDict, dictTexts, tokensIn, List.flatMap_append]
    have hvalue := h.value v
    exact hvalue.andThen fun v' => ((hvalue.steady h).dict kvs).map ((k, v') :: ·)

theorem Steady.list {s : Reading} (h : Steady L A s) (vs : List Value) :
    Reads L (tokensIn (listTexts vs)) s (interpolateList L vs s)
      (mapList (fun text => replaceAnswers A (tokensFrom 0 text) text) vs) := by
  cases vs with
  | nil =>
    rw [interpolateList, mapList, listTexts]
    exact reads_ok s _
  | cons v vs =>
    rw [interpolateList_cons, readBoth_eq, mapList, listTexts, tokensIn, List.flatMap_append]
    have hvalue := h.value v
    exact hvalue.andThen fun v' => ((hvalue.steady h).list vs).map (v' :: ·)

end

/-! ## The substitution -/

/-- A text with each of its tokens replaced by the answer. -/
def fillAnswers (A : Token → Except Exc (List Char)) : List (Mark Char Token) →
    Except Exc (List Char)
  | [] => .ok []
  | .lit c :: ms => (fillAnswers A ms).map (c :: ·)
  | .tok t :: ms => (A t).bind fun x => (fillAnswers A ms).map (x ++ ·)

/-- A value with each token in its strings replaced by the answer, and nothing else changed. -/
def substitute (A : Token → Except Exc (List Char)) (v : Value) : Except Exc Value :=
  mapTexts (fun text => fillAnswers A (segments text)) v

/-- The first answer that is an exception. -/
def firstRaised (A : Token → Except Exc (List Char)) : List Token → Except Exc Unit
  | [] => .ok ()
  | t :: ts => (A t).bind fun _ => firstRaised A ts

/-- What a token is resolved to, if it is. -/
def resolved (A : Token → Except Exc (List Char)) (t : Token) : List Char :=
  (A t).toOption.getD []

def Resolves (A : Token → Except Exc (List Char)) (ts : List Token) : Prop :=
  ∀ t ∈ ts, A t = .ok (resolved A t)

theorem firstRaised_append (ts ts' : List Token) :
    firstRaised A (ts ++ ts') = (firstRaised A ts).bind fun _ => firstRaised A ts' := by
  induction ts with
  | nil => rfl
  | cons t ts ih =>
    rw [List.cons_append, firstRaised, firstRaised]
    cases A t with
    | error e => rfl
    | ok x => exact ih

theorem firstRaised_eq_ok_iff (ts : List Token) : firstRaised A ts = .ok () ↔ Resolves A ts := by
  induction ts with
  | nil => exact ⟨fun _ t ht => absurd ht List.not_mem_nil, fun _ => rfl⟩
  | cons t ts ih =>
    unfold firstRaised Resolves
    rw [List.forall_mem_cons]
    unfold resolved
    cases A t with
    | error e =>
      constructor
      · intro h
        cases h
      · rintro ⟨h, -⟩
        cases h
    | ok x => exact ⟨fun h => ⟨rfl, ih.1 h⟩, fun h => ih.2 h.2⟩

theorem raised_map {β γ : Type} (f : β → γ) (r : Except Exc β) :
    ((r.map f).map fun _ => ()) = r.map fun _ => () := by
  cases r with
  | error e => rfl
  | ok x => rfl

theorem replaceAnswers_raised (ts : List Token) (out : List Char) :
    ((replaceAnswers A ts out).map fun _ => ()) = firstRaised A ts := by
  induction ts generalizing out with
  | nil => rfl
  | cons t ts ih =>
    unfold replaceAnswers firstRaised
    cases A t with
    | error e => rfl
    | ok x => exact ih _

theorem fillAnswers_raised (ms : List (Mark Char Token)) :
    ((fillAnswers A ms).map fun _ => ()) = firstRaised A (marks ms) := by
  induction ms with
  | nil => rfl
  | cons m ms ih =>
    cases m with
    | lit c => exact (raised_map _ _).trans ih
    | tok t =>
      unfold fillAnswers marks firstRaised
      cases A t with
      | error e => rfl
      | ok x => exact (raised_map _ _).trans ih

theorem replaceAnswers_ok {ts : List Token} (h : Resolves A ts) (out : List Char) :
    replaceAnswers A ts out = .ok (replaceEach Token.text (resolved A) ts out) := by
  induction ts generalizing out with
  | nil => rfl
  | cons t ts ih =>
    unfold replaceAnswers
    rw [h t List.mem_cons_self]
    show replaceAnswers A ts (replaceFrom t.text (resolved A t) 0 out) = _
    rw [ih fun u hu => h u (List.mem_cons_of_mem t hu), replaceFrom_eq_scan]
    rfl

theorem fillAnswers_ok {ms : List (Mark Char Token)} (h : Resolves A (marks ms)) :
    fillAnswers A ms = .ok (fill (resolved A) ms) := by
  induction ms with
  | nil => rfl
  | cons m ms ih =>
    cases m with
    | lit c =>
      unfold fillAnswers
      rw [ih h]
      rfl
    | tok t =>
      unfold fillAnswers
      rw [h t List.mem_cons_self, ih fun u hu => h u (List.mem_cons_of_mem t hu)]
      rfl

section Values

variable {F G : List Char → Except Exc (List Char)}

mutual

theorem mapTexts_congr (v : Value) (h : ∀ text ∈ v.texts, F text = G text) :
    mapTexts F v = mapTexts G v := by
  cases v with
  | dict kvs =>
    rw [Value.texts] at h
    rw [mapTexts, mapTexts, mapDict_congr kvs h]
  | list xs =>
    rw [Value.texts] at h
    rw [mapTexts, mapTexts, mapList_congr xs h]
  | str t =>
    rw [Value.texts] at h
    rw [mapTexts, mapTexts, h _ (List.mem_singleton_self _)]
  | none => rw [mapTexts, mapTexts]
  | bool b => rw [mapTexts, mapTexts]
  | int n => rw [mapTexts, mapTexts]

theorem mapDict_congr (kvs : List (String × Value)) (h : ∀ text ∈ dictTexts kvs, F text = G text) :
    mapDict F kvs = mapDict G kvs := by
  cases kvs with
  | nil => rw [mapDict, mapDict]
  | cons kv kvs =>
    obtain ⟨k, v⟩ := kv
    rw [dictTexts, List.forall_mem_append] at h
    rw [mapDict, mapDict, mapTexts_congr v h.1, mapDict_congr kvs h.2]

theorem mapList_congr (vs : List Value) (h : ∀ text ∈ listTexts vs, F text = G text) :
    mapList F vs = mapList G vs := by
  cases vs with
  | nil => rw [mapList, mapList]
  | cons v vs =>
    rw [listTexts, List.forall_mem_append] at h
    rw [mapList, mapList, mapTexts_congr v h.1, mapList_congr vs h.2]

end

/-- What changes the strings raises the first exception that is an answer. -/
def GoesBy (A : Token → Except Exc (List Char)) (F : List Char → Except Exc (List Char)) : Prop :=
  ∀ text, ((F text).map fun _ => ()) = firstRaised A (tokensFrom 0 text)

theorem raised_bind {β γ : Type} {r : Except Exc β} {q : Except Exc γ} {ts ts' : List Token}
    (h : (r.map fun _ => ()) = firstRaised A ts) (h' : (q.map fun _ => ()) = firstRaised A ts')
    {δ : Type} (f : β → γ → δ) :
    ((r.bind fun x => q.map (f x)).map fun _ => ()) = firstRaised A (ts ++ ts') := by
  rw [firstRaised_append, ← h, ← h']
  cases r with
  | error e => rfl
  | ok x => exact raised_map _ _

mutual

theorem mapTexts_raised (hF : GoesBy A F) (v : Value) :
    ((mapTexts F v).map fun _ => ()) = firstRaised A (tokensIn v.texts) := by
  cases v with
  | dict kvs =>
    rw [mapTexts, Value.texts, raised_map]
    exact mapDict_raised hF kvs
  | list xs =>
    rw [mapTexts, Value.texts, raised_map]
    exact mapList_raised hF xs
  | str t =>
    have htokens : tokensIn [t.toList] = tokensFrom 0 t.toList := List.append_nil _
    rw [mapTexts, Value.texts, raised_map, htokens]
    exact hF t.toList
  | none => rw [mapTexts, Value.texts]; rfl
  | bool b => rw [mapTexts, Value.texts]; rfl
  | int n => rw [mapTexts, Value.texts]; rfl

theorem mapDict_raised (hF : GoesBy A F) (kvs : List (String × Value)) :
    ((mapDict F kvs).map fun _ => ()) = firstRaised A (tokensIn (dictTexts kvs)) := by
  cases kvs with
  | nil => rw [mapDict, dictTexts]; rfl
  | cons kv kvs =>
    obtain ⟨k, v⟩ := kv
    rw [mapDict, dictTexts, tokensIn, List.flatMap_append]
    exact raised_bind (mapTexts_raised hF v) (mapDict_raised hF kvs) _

theorem mapList_raised (hF : GoesBy A F) (vs : List Value) :
    ((mapList F vs).map fun _ => ()) = firstRaised A (tokensIn (listTexts vs)) := by
  cases vs with
  | nil => rw [mapList, listTexts]; rfl
  | cons v vs =>
    rw [mapList, listTexts, tokensIn, List.flatMap_append]
    exact raised_bind (mapTexts_raised hF v) (mapList_raised hF vs) _

end

/-- A value with a token that is not resolved. -/
theorem mapTexts_unresolved (hF : GoesBy A F) (hG : GoesBy A G) {v : Value}
    (h : ¬ Resolves A (tokensIn v.texts)) : mapTexts F v = mapTexts G v := by
  rw [← firstRaised_eq_ok_iff] at h
  have hf := mapTexts_raised hF v
  have hg := mapTexts_raised hG v
  cases hraised : firstRaised A (tokensIn v.texts) with
  | ok x => exact absurd hraised h
  | error e =>
    rw [hraised] at hf hg
    have herror : ∀ r : Except Exc Value, (r.map fun _ => ()) = .error e → r = .error e := by
      intro r hr
      cases r with
      | error e' => exact congrArg _ (Except.error.inj hr)
      | ok x => cases hr
    rw [herror _ hf, herror _ hg]

end Values

/-! ## When it is simultaneous -/

/-- **Simultaneous substitution**: each token is replaced by what the vault has for it when the
interpolation begins, and nothing else is changed. -/
structure Simultaneous (L : Lookup) (v : Value) (s : Reading) : Prop where
  result : (interpolateValue L v s).1 = substitute (answer L s) v
  /-- The tokens that are resolved are those of the value. -/
  calls : (interpolateValue L v s).2 = (resolveEach L (tokensIn v.texts) s).2
  /-- No replacement changes what an earlier one has put in. -/
  rounds : Resolves (answer L s) (tokensIn v.texts) → ∀ text ∈ v.texts,
    ∀ k ≤ (tokensFrom 0 text).length,
      (resolveAll L ((tokensFrom 0 text).take k) text s).1 =
        .ok (fill (upTo Token.text (resolved (answer L s)) ((tokensFrom 0 text).take k))
          (segments text))

/-- At the turn of each token, its text stands in the places of the token only, or is its own value;
or a token of the value cannot be resolved. -/
def Undisturbed (A : Token → Except Exc (List Char)) (v : Value) : Prop :=
  Resolves A (tokensIn v.texts) → ∀ text ∈ v.texts, ∀ k (hk : k < (tokensFrom 0 text).length),
    resolved A (tokensFrom 0 text)[k] = (tokensFrom 0 text)[k].text ∨
      Clean (tokensFrom 0 text)[k].text
        (pieces Token.text (resolved A) ((tokensFrom 0 text).take k) (tokensFrom 0 text)[k]
          (segments text))

theorem Resolves.text {v : Value} (h : Resolves A (tokensIn v.texts)) {text : List Char}
    (htext : text ∈ v.texts) : Resolves A (tokensFrom 0 text) :=
  fun t ht => h t (List.mem_flatMap.2 ⟨text, htext, ht⟩)

/-- **The rounds of a text**. -/
theorem rounds_text_iff (hs : Steady L A s) {text : List Char}
    (hres : Resolves A (tokensFrom 0 text)) :
    (∀ k ≤ (tokensFrom 0 text).length, (resolveAll L ((tokensFrom 0 text).take k) text s).1 =
        .ok (fill (upTo Token.text (resolved A) ((tokensFrom 0 text).take k)) (segments text))) ↔
      ∀ k (hk : k < (tokensFrom 0 text).length),
        resolved A (tokensFrom 0 text)[k] = (tokensFrom 0 text)[k].text ∨
          Clean (tokensFrom 0 text)[k].text
            (pieces Token.text (resolved A) ((tokensFrom 0 text).take k) (tokensFrom 0 text)[k]
              (segments text)) := by
  rw [← rounds_iff fun t ht => unbordered_of_mem ht]
  refine forall₂_congr fun k hk => ?_
  have htake : Resolves A ((tokensFrom 0 text).take k) := fun t ht => hres t (List.mem_of_mem_take ht)
  rw [(hs.all _ text).value, replaceAnswers_ok htake, fill_segments]
  exact ⟨Except.ok.inj, congrArg Except.ok⟩

/-- **Interpolation is the simultaneous substitution** exactly when no token meets its text in a
place that is not its own. -/
theorem interpolate_simultaneous_iff (L : Lookup) (v : Value) (s : Reading)
    (hs : s.vault.Classed) : Simultaneous L v s ↔ Undisturbed (answer L s) v := by
  have hsteady : Steady L (answer L s) s := ⟨hs, fun _ => rfl⟩
  have hcode := hsteady.value v
  constructor
  · intro h hres text htext
    exact (rounds_text_iff hsteady (hres.text htext)).1 (h.rounds hres text htext)
  · intro h
    refine ⟨hcode.value.trans ?_, hcode.reading, fun hres text htext =>
      (rounds_text_iff hsteady (hres.text htext)).2 (h hres text htext)⟩
    by_cases hres : Resolves (answer L s) (tokensIn v.texts)
    · refine mapTexts_congr v fun text htext => ?_
      have htokens := hres.text htext
      -- what the last round leaves
      have hlast := (rounds_iff (fun t ht => unbordered_of_mem ht) (segments text)).2
        (h hres text htext) _ le_rfl
      rw [List.take_length, fill_segments] at hlast
      have hmarks : Resolves (answer L s) (marks (segments text)) := by rwa [marks_segments]
      rw [replaceAnswers_ok htokens, fillAnswers_ok hmarks, hlast]
      refine congrArg Except.ok (fill_congr fun t ht => ?_)
      rw [marks_segments] at ht
      exact if_pos ht
    · refine mapTexts_unresolved (fun text => replaceAnswers_raised _ _) (fun text => ?_) hres
      rw [fillAnswers_raised, marks_segments]

/-! ## A value that is a token -/

/-- An agent that interpolates. -/
def agentLookup : Lookup where
  env := { cipher := none }
  scope := .agent
  scopeId := some "r"
  accessor := "r"

/-- What the agent has for the name `b`, and `text` for the name `a`. -/
def twoNames (text : String) : Vault :=
  let v := (({} : Vault).set 0 ⟨.agent, some "r", "a"⟩ text "").2
  (v.set 1 ⟨.agent, some "r", "b"⟩ "x" "").2

theorem twoNames_classed (text : String) : (twoNames text).Classed :=
  ((Backend.none.classed).set text "").set "x" ""

/-- A string with two tokens. -/
def bothTokens : Value := .str "$\x7bconfig.a\x7d$\x7bconfig.b\x7d"

/-- One value after the other. -/
theorem interpolate_simultaneous_two :
    Simultaneous agentLookup bothTokens ⟨twoNames "y", 2, false⟩ :=
  (interpolate_simultaneous_iff agentLookup bothTokens ⟨twoNames "y", 2, false⟩
    (twoNames_classed "y")).2 fun _ text htext => by
      have htexts : bothTokens.texts = ["$\x7bconfig.a\x7d$\x7bconfig.b\x7d".toList] := by
        unfold bothTokens
        rw [Value.texts]
      rw [htexts] at htext
      rw [List.mem_singleton.1 htext]
      decide

/-- **A resolved value is scanned again**: it is the token that comes next. -/
theorem resolved_rescanned :
    ¬ Simultaneous agentLookup bothTokens ⟨twoNames "$\x7bconfig.b\x7d", 2, false⟩ := by
  intro h
  have hresult := h.result
  have hcode : (interpolateValue agentLookup bothTokens
      ⟨twoNames "$\x7bconfig.b\x7d", 2, false⟩).1 = .ok (.str "xx") := by
    unfold bothTokens
    rw [interpolateValue_str]
    rfl
  have hspec : substitute (answer agentLookup ⟨twoNames "$\x7bconfig.b\x7d", 2, false⟩) bothTokens =
      .ok (.str "$\x7bconfig.b\x7dx") := by
    unfold substitute bothTokens
    rw [mapTexts]
    rfl
  rw [hcode, hspec] at hresult
  exact absurd (Value.str.inj (Except.ok.inj hresult)) (by decide)

end Hermes

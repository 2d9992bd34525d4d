import Mathlib.Data.List.Nodup
import Mathlib.Data.List.Basic
import Mathlib.Tactic

/-!
# Insertion-ordered dictionaries

A dictionary keeps its entries in the order in which the keys were first
inserted. Overwriting a key keeps its place. The keys are distinct by
construction (`nodup`).

* `get?_insert`: what a look-up sees after an insertion.
* `restrict`: the part of a dictionary on a set of keys, which commutes with
  insertion (`restrict_insert`) and determines the look-ups there
  (`get?_restrict`).
* `filter`, `replace`, `update`: selection by value, rows, bulk insertion.
* `Rel`: dictionaries that cannot be told apart but for values in a relation.
* `Aligned`: the same in the same order, for two kinds of values.
-/

/-- An insertion-ordered dictionary. -/
structure Dict (κ ν : Type*) where
  entries : List (κ × ν)
  nodup : (entries.map Prod.fst).Nodup

namespace Dict

variable {κ ν : Type*}

@[ext] theorem ext {d e : Dict κ ν} (h : d.entries = e.entries) : d = e := by
  cases d; cases e; simp_all

/-- The empty dictionary. -/
def empty : Dict κ ν := ⟨[], List.nodup_nil⟩

instance : EmptyCollection (Dict κ ν) := ⟨empty⟩

/-- The keys, oldest first. -/
def keys (d : Dict κ ν) : List κ := d.entries.map Prod.fst

/-- The values, in key order. -/
def values (d : Dict κ ν) : List ν := d.entries.map Prod.snd

variable [DecidableEq κ]

/-- Look-up. -/
def get? (d : Dict κ ν) (k : κ) : Option ν := (d.entries.find? (·.1 = k)).map Prod.snd

/-- Overwrite the first entry of a key, or append one. -/
def put (k : κ) (v : ν) : List (κ × ν) → List (κ × ν)
  | [] => [(k, v)]
  | e :: es => if e.1 = k then (k, v) :: es else e :: put k v es

theorem mem_keys_put {k j : κ} {v : ν} : ∀ {es : List (κ × ν)},
    j ∈ (put k v es).map Prod.fst ↔ j = k ∨ j ∈ es.map Prod.fst := by
  intro es
  induction es with
  | nil => simp [put]
  | cons e es ih =>
    unfold put
    split
    · rename_i h; simp [h]
    · simp only [List.map_cons, List.mem_cons, ih]; tauto

theorem nodup_put {k : κ} {v : ν} {es : List (κ × ν)} (h : (es.map Prod.fst).Nodup) :
    ((put k v es).map Prod.fst).Nodup := by
  induction es with
  | nil => simp [put]
  | cons e es ih =>
    rw [List.map_cons, List.nodup_cons] at h
    unfold put
    split
    · rename_i hk; simpa [← hk] using h
    · rename_i hk
      rw [List.map_cons, List.nodup_cons, mem_keys_put]
      exact ⟨fun hm => hm.elim hk h.1, ih h.2⟩

/-- `d[k] = v`. -/
def insert (d : Dict κ ν) (k : κ) (v : ν) : Dict κ ν := ⟨put k v d.entries, nodup_put d.nodup⟩

@[simp] theorem get?_empty (k : κ) : (∅ : Dict κ ν).get? k = none := rfl

/-- **Look-up after insertion.** -/
theorem get?_insert (d : Dict κ ν) (k j : κ) (v : ν) :
    (d.insert k v).get? j = if j = k then some v else d.get? j := by
  unfold get? insert
  simp only
  induction d.entries with
  | nil => by_cases h : j = k <;> simp [put, h, eq_comm]
  | cons e es ih =>
    unfold put
    split
    · rename_i he
      by_cases h : j = k
      · simp [h]
      · have : k ≠ j := fun h' => h h'.symm
        simp [h, he, this]
    · rename_i he
      by_cases hj : e.1 = j
      · have : j ≠ k := fun h => he (hj.trans h)
        simp [hj, this]
      · simp only [List.find?_cons, hj, decide_false]
        exact ih

@[simp] theorem get?_insert_self (d : Dict κ ν) (k : κ) (v : ν) :
    (d.insert k v).get? k = some v := by simp [get?_insert]

theorem get?_insert_of_ne (d : Dict κ ν) {k j : κ} (h : j ≠ k) (v : ν) :
    (d.insert k v).get? j = d.get? j := by simp [get?_insert, h]

theorem mem_of_get? {d : Dict κ ν} {k : κ} {v : ν} (h : d.get? k = some v) :
    (k, v) ∈ d.entries := by
  unfold get? at h
  obtain ⟨⟨k', v'⟩, he, rfl⟩ := Option.map_eq_some_iff.1 h
  have hk := List.find?_some he
  simp only [decide_eq_true_eq] at hk
  subst hk
  exact List.mem_of_find?_eq_some he

theorem get?_of_mem {d : Dict κ ν} {e : κ × ν} (h : e ∈ d.entries) : d.get? e.1 = some e.2 := by
  have hfound : (d.entries.find? (·.1 = e.1)).isSome :=
    List.find?_isSome.2 ⟨e, h, decide_eq_true rfl⟩
  obtain ⟨e', he'⟩ := Option.isSome_iff_exists.1 hfound
  have hkey : e'.1 = e.1 := by simpa using List.find?_some he'
  have hsame : e' = e := List.inj_on_of_nodup_map d.nodup (List.mem_of_find?_eq_some he') h hkey
  unfold get?
  rw [he', hsame]
  rfl

/-- **The keys** are what a look-up finds something for. -/
theorem get?_eq_none_iff {d : Dict κ ν} {k : κ} : d.get? k = none ↔ k ∉ d.keys := by
  constructor
  · rintro hnone hmem
    obtain ⟨e, he, rfl⟩ := List.mem_map.1 hmem
    rw [get?_of_mem he] at hnone
    cases hnone
  · intro hnot
    by_contra hsome
    obtain ⟨v, hv⟩ := Option.ne_none_iff_exists'.1 hsome
    exact hnot (List.mem_map.2 ⟨(k, v), mem_of_get? hv, rfl⟩)

/-- **The values** are what the look-ups give. -/
theorem mem_values {d : Dict κ ν} {v : ν} : v ∈ d.values ↔ ∃ k, d.get? k = some v := by
  constructor
  · intro hv
    obtain ⟨e, he, rfl⟩ := List.mem_map.1 hv
    exact ⟨e.1, get?_of_mem he⟩
  · rintro ⟨k, hk⟩
    exact List.mem_map.2 ⟨(k, v), mem_of_get? hk, rfl⟩

theorem mem_entries_insert {d : Dict κ ν} {k : κ} {v : ν} {e : κ × ν}
    (h : e ∈ (d.insert k v).entries) : e = (k, v) ∨ e ∈ d.entries := by
  have key : ∀ {es : List (κ × ν)}, e ∈ put k v es → e = (k, v) ∨ e ∈ es := by
    intro es
    induction es with
    | nil => intro h; left; simpa [put] using h
    | cons a es ih =>
      intro h
      unfold put at h
      split at h
      · rw [List.mem_cons] at h
        exact h.imp_right (List.mem_cons_of_mem _)
      · rw [List.mem_cons] at h
        rcases h with h | h
        · right; rw [h]; exact List.mem_cons_self
        · exact (ih h).imp_right (List.mem_cons_of_mem _)
  exact key h

/-- **An insertion changes nothing** exactly when the key has the value. -/
theorem insert_eq_self_iff {d : Dict κ ν} {k : κ} {v : ν} :
    d.insert k v = d ↔ d.get? k = some v := by
  constructor
  · intro h
    rw [← h, get?_insert_self]
  · intro h
    have key : ∀ {es : List (κ × ν)}, (es.find? (·.1 = k)).map Prod.snd = some v →
        put k v es = es := by
      intro es
      induction es with
      | nil => intro h; cases h
      | cons e es ih =>
        intro h
        unfold put
        by_cases hk : e.1 = k
        · rw [List.find?_cons_of_pos (by simpa using hk)] at h
          rw [if_pos hk, ← hk, ← Option.some.inj h]
        · rw [List.find?_cons_of_neg (by simpa using hk)] at h
          rw [if_neg hk, ih h]
    exact ext (key h)

/-! ## Restriction to a set of keys -/

/-- The entries whose key satisfies `p`. -/
def restrict (p : κ → Bool) (d : Dict κ ν) : Dict κ ν :=
  ⟨d.entries.filter fun e => p e.1, d.nodup.sublist (List.filter_sublist.map _)⟩

theorem get?_restrict (d : Dict κ ν) (p : κ → Bool) (k : κ) :
    (d.restrict p).get? k = if p k then d.get? k else none := by
  unfold get? restrict
  simp only
  induction d.entries with
  | nil => simp
  | cons e es ih =>
    by_cases he : e.1 = k
    · subst he
      by_cases hp : p e.1
      · simp [hp]
      · simp only [List.filter_cons, hp, Bool.false_eq_true, if_false] at ih ⊢; exact ih
    · by_cases hp : p e.1
      · simp only [List.filter_cons, hp, if_true, List.find?_cons, he, decide_false]; exact ih
      · simp only [List.filter_cons, hp, Bool.false_eq_true, if_false, List.find?_cons, he,
          decide_false]
        exact ih

omit [DecidableEq κ] in
theorem restrict_comm (d : Dict κ ν) (p q : κ → Bool) :
    (d.restrict p).restrict q = (d.restrict q).restrict p := by
  apply ext
  unfold restrict
  simp only [List.filter_filter, Bool.and_comm]

theorem filter_put {p : κ → Bool} {k : κ} {v : ν} (es : List (κ × ν)) :
    (put k v es).filter (fun e => p e.1) =
      if p k then put k v (es.filter fun e => p e.1) else es.filter fun e => p e.1 := by
  induction es with
  | nil => by_cases hp : p k <;> simp [put, hp]
  | cons e es ih =>
    by_cases he : e.1 = k
    · subst he
      by_cases hp : p e.1 <;> simp [put, hp]
    · by_cases hp : p e.1 <;> by_cases hk : p k <;> simp_all [put]

/-- **Restriction commutes with insertion.** -/
theorem restrict_insert (d : Dict κ ν) (p : κ → Bool) (k : κ) (v : ν) :
    (d.insert k v).restrict p = if p k then (d.restrict p).insert k v else d.restrict p := by
  apply ext
  unfold insert restrict
  simp only
  rw [filter_put]
  by_cases hp : p k <;> simp [hp]

/-- Erase a key. -/
def erase (d : Dict κ ν) (k : κ) : Dict κ ν := d.restrict fun j => j ≠ k

omit [DecidableEq κ] in
theorem restrict_restrict_of_imp (d : Dict κ ν) {p q : κ → Bool} (h : ∀ k, p k → q k) :
    (d.restrict q).restrict p = d.restrict p := by
  apply ext
  unfold restrict
  simp only [List.filter_filter]
  refine List.filter_congr fun e _ => ?_
  by_cases hp : p e.1
  · simp [hp, h e.1 hp]
  · simp [hp]

/-- Restriction commutes with erasing a key. -/
theorem restrict_erase (d : Dict κ ν) (p : κ → Bool) (k : κ) :
    (d.erase k).restrict p = if p k then (d.restrict p).erase k else d.restrict p := by
  unfold erase
  by_cases hk : p k
  · rw [if_pos hk, restrict_comm]
  · rw [if_neg hk]
    refine restrict_restrict_of_imp d fun j hj => ?_
    rw [decide_eq_true_eq]
    rintro rfl
    exact hk hj

theorem get?_erase (d : Dict κ ν) (k j : κ) :
    (d.erase k).get? j = if j = k then none else d.get? j := by
  unfold erase; rw [get?_restrict]
  by_cases h : j = k <;> simp [h]

/-! ## Selection by value, rows and bulk insertion -/

omit [DecidableEq κ] in
/-- The entries whose value satisfies `p`. -/
def filter (p : ν → Bool) (d : Dict κ ν) : Dict κ ν :=
  ⟨d.entries.filter fun e => p e.2, d.nodup.sublist (List.filter_sublist.map _)⟩

theorem get?_filter (d : Dict κ ν) (p : ν → Bool) (k : κ) :
    (d.filter p).get? k = (d.get? k).filter p := by
  obtain ⟨es, hnodup⟩ := d
  unfold get? filter
  simp only
  induction es with
  | nil => rfl
  | cons e es ih =>
    rw [List.map_cons, List.nodup_cons] at hnodup
    have hrest := ih hnodup.2
    by_cases he : e.1 = k
    · subst he
      -- no other entry has this key
      have hnone : es.find? (·.1 = e.1) = none := by
        rw [List.find?_eq_none]
        intro x hx hkey
        rw [decide_eq_true_eq] at hkey
        exact hnodup.1 (hkey ▸ List.mem_map_of_mem hx)
      rw [hnone] at hrest
      by_cases hp : p e.2
      · simp [hp, Option.filter]
      · simp only [List.filter_cons, hp, Bool.false_eq_true, if_false, List.find?_cons, decide_true,
          Option.map_some, Option.filter]
        exact hrest
    · by_cases hp : p e.2
      · simp only [List.filter_cons, hp, if_true, List.find?_cons, he, decide_false]
        exact hrest
      · simp only [List.filter_cons, hp, Bool.false_eq_true, if_false, List.find?_cons, he,
          decide_false]
        exact hrest

/-- A row is written anew, behind the others. -/
def replace (d : Dict κ ν) (k : κ) (v : ν) : Dict κ ν := (d.erase k).insert k v

theorem get?_replace (d : Dict κ ν) (k j : κ) (v : ν) :
    (d.replace k v).get? j = if j = k then some v else d.get? j := by
  unfold replace
  rw [get?_insert, get?_erase]
  split
  · rfl
  · rfl

/-- `d.update(e)`. -/
def update (d e : Dict κ ν) : Dict κ ν := e.entries.foldl (fun d kv => d.insert kv.1 kv.2) d

/-- A new key comes last. -/
theorem entries_insert_of_not_mem {d : Dict κ ν} {k : κ} (h : k ∉ d.keys) (v : ν) :
    (d.insert k v).entries = d.entries ++ [(k, v)] := by
  have key : ∀ es : List (κ × ν), k ∉ es.map Prod.fst → put k v es = es ++ [(k, v)] := by
    intro es
    induction es with
    | nil => intro _; rfl
    | cons e es ih =>
      intro hk
      rw [List.map_cons, List.mem_cons, not_or] at hk
      unfold put
      rw [if_neg (Ne.symm hk.1), ih hk.2, List.cons_append]
  exact key _ h

/-- **To write all entries** of a dictionary is to copy it. -/
theorem foldl_insert_entries (d : Dict κ ν) :
    d.entries.foldl (fun d kv => d.insert kv.1 kv.2) ∅ = d := by
  have key : ∀ (es : List (κ × ν)) (e : Dict κ ν), (e.keys ++ es.map Prod.fst).Nodup →
      (es.foldl (fun d kv => d.insert kv.1 kv.2) e).entries = e.entries ++ es := by
    intro es
    induction es with
    | nil => intro e _; exact (List.append_nil _).symm
    | cons kv es ih =>
      intro e hnodup
      have hnew : kv.1 ∉ e.keys := fun hmem =>
        (List.nodup_append.1 hnodup).2.2 kv.1 hmem kv.1 List.mem_cons_self rfl
      have hentries := entries_insert_of_not_mem hnew kv.2
      rw [List.foldl_cons, ih, hentries, List.append_assoc, List.singleton_append]
      unfold keys
      rw [hentries, List.map_append, List.append_assoc]
      exact hnodup
  exact ext (key d.entries ∅ d.nodup)

/-- A new row comes last. -/
theorem entries_replace_of_not_mem {d : Dict κ ν} {k : κ} (h : k ∉ d.keys) (v : ν) :
    (d.replace k v).entries = d.entries ++ [(k, v)] := by
  have herase : (d.erase k).entries = d.entries := by
    refine List.filter_eq_self.2 fun e he => decide_eq_true fun hk => h ?_
    exact hk ▸ List.mem_map_of_mem (f := Prod.fst) he
  have hkey : k ∉ (d.erase k).keys := by
    unfold keys
    rw [herase]
    exact h
  unfold replace
  rw [entries_insert_of_not_mem hkey, herase]

/-! ## Dictionaries in a relation -/

variable {R : ν → ν → Prop} {d e : Dict κ ν}

/-- The same keys, with values in the relation `R`. -/
def Rel (R : ν → ν → Prop) (d e : Dict κ ν) : Prop := ∀ k, Option.Rel R (d.get? k) (e.get? k)

theorem Rel.insert (h : Rel R d e) (k : κ) {v w : ν} (hvw : R v w) :
    Rel R (d.insert k v) (e.insert k w) := by
  intro j
  rw [get?_insert, get?_insert]
  split
  · exact .some hvw
  · exact h j

theorem Rel.erase (h : Rel R d e) (k : κ) : Rel R (d.erase k) (e.erase k) := by
  intro j
  rw [get?_erase, get?_erase]
  split
  · exact .none
  · exact h j

/-! ## Aligned dictionaries -/

section Aligned

variable {μ : Type*} {S T : κ → ν → μ → Prop} {d : Dict κ ν} {e : Dict κ μ}

omit [DecidableEq κ] in
/-- The same keys in the same order, with values that `S` relates at each key. -/
def Aligned (S : κ → ν → μ → Prop) (d : Dict κ ν) (e : Dict κ μ) : Prop :=
  List.Forall₂ (fun x y => x.1 = y.1 ∧ S x.1 x.2 y.2) d.entries e.entries

theorem Aligned.get? (h : Aligned S d e) (k : κ) : Option.Rel (S k) (d.get? k) (e.get? k) := by
  have key : ∀ {xs : List (κ × ν)} {ys : List (κ × μ)},
      List.Forall₂ (fun x y => x.1 = y.1 ∧ S x.1 x.2 y.2) xs ys →
      Option.Rel (S k) ((xs.find? (·.1 = k)).map Prod.snd) ((ys.find? (·.1 = k)).map Prod.snd) := by
    intro xs ys hxys
    induction hxys with
    | nil => exact .none
    | @cons x y _ _ hxy _ ih =>
      obtain ⟨hkey, hS⟩ := hxy
      rw [List.find?_cons, List.find?_cons, ← hkey]
      by_cases hx : x.1 = k
      · subst hx
        simpa using Option.Rel.some hS
      · simpa [hx] using ih
  exact key h

/-- **Insertion at the same key** of related values. The relation at the other keys may be
replaced by a weaker one. -/
theorem Aligned.insert (h : Aligned S d e) (k : κ) {v : ν} {w : μ} (hvw : T k v w)
    (hST : ∀ j v w, j ≠ k → S j v w → T j v w) : Aligned T (d.insert k v) (e.insert k w) := by
  -- the entries whose key is not `k`
  have hother : ∀ {xs : List (κ × ν)} {ys : List (κ × μ)}, k ∉ xs.map Prod.fst →
      List.Forall₂ (fun x y => x.1 = y.1 ∧ S x.1 x.2 y.2) xs ys →
      List.Forall₂ (fun x y => x.1 = y.1 ∧ T x.1 x.2 y.2) xs ys := by
    intro xs ys hk hxys
    induction hxys with
    | nil => exact .nil
    | cons hxy _ ih =>
      rw [List.map_cons, List.mem_cons, not_or] at hk
      exact .cons ⟨hxy.1, hST _ _ _ (Ne.symm hk.1) hxy.2⟩ (ih hk.2)
  have key : ∀ {xs : List (κ × ν)} {ys : List (κ × μ)}, (xs.map Prod.fst).Nodup →
      List.Forall₂ (fun x y => x.1 = y.1 ∧ S x.1 x.2 y.2) xs ys →
      List.Forall₂ (fun x y => x.1 = y.1 ∧ T x.1 x.2 y.2) (put k v xs) (put k w ys) := by
    intro xs ys hnodup hxys
    induction hxys with
    | nil => exact .cons ⟨rfl, hvw⟩ .nil
    | @cons x y xs ys hxy hrest ih =>
      obtain ⟨hkey, hS⟩ := hxy
      rw [List.map_cons, List.nodup_cons] at hnodup
      unfold put
      by_cases hx : x.1 = k
      · rw [if_pos hx, if_pos (hkey ▸ hx)]
        exact .cons ⟨rfl, hvw⟩ (hother (hx ▸ hnodup.1) hrest)
      · rw [if_neg hx, if_neg (hkey ▸ hx)]
        exact .cons ⟨hkey, hST _ _ _ hx hS⟩ (ih hnodup.2)
  exact key d.nodup h

omit [DecidableEq κ] in
theorem Aligned.restrict (h : Aligned S d e) (p : κ → Bool) :
    Aligned S (d.restrict p) (e.restrict p) := by
  have key : ∀ {xs : List (κ × ν)} {ys : List (κ × μ)},
      List.Forall₂ (fun x y => x.1 = y.1 ∧ S x.1 x.2 y.2) xs ys →
      List.Forall₂ (fun x y => x.1 = y.1 ∧ S x.1 x.2 y.2) (xs.filter fun x => p x.1)
        (ys.filter fun y => p y.1) := by
    intro xs ys hxys
    induction hxys with
    | nil => exact .nil
    | @cons x y _ _ hxy _ ih =>
      rw [List.filter_cons, List.filter_cons, ← hxy.1]
      split
      · exact .cons hxy ih
      · exact ih
  exact key h

omit [DecidableEq κ] in
theorem Aligned.mono (h : Aligned S d e) (hST : ∀ k v w, S k v w → T k v w) : Aligned T d e :=
  List.Forall₂.imp (fun _ _ hxy => ⟨hxy.1, hST _ _ _ hxy.2⟩) h

omit [DecidableEq κ] in
theorem Aligned.exists_left (h : Aligned S d e) {y : κ × μ} (hy : y ∈ e.entries) :
    ∃ v, S y.1 v y.2 := by
  unfold Aligned at h
  obtain ⟨n, hn, rfl⟩ := List.getElem_of_mem hy
  have hxy := h.get (h.length_eq ▸ hn) hn
  exact ⟨(d.entries.get ⟨n, h.length_eq ▸ hn⟩).2, hxy.1 ▸ hxy.2⟩

omit [DecidableEq κ] in
theorem Aligned.values (h : Aligned S d e) :
    List.Forall₂ (fun v w => ∃ k, S k v w) d.values e.values := by
  unfold Dict.values
  rw [List.forall₂_map_left_iff, List.forall₂_map_right_iff]
  exact List.Forall₂.imp (fun x _ hxy => ⟨x.1, hxy.2⟩) h

end Aligned

end Dict

import Hermes.Lib.Dict

/-!
# Values under their own keys

An `Index key` is an insertion-ordered dictionary in which every value is under the
key that it carries. A value is put under its key, so no other place for it exists.

* `get?_put`, `get?_erase`, `get?_foldl_erase`, `get?_map`: what a look-up sees after
  each operation.
* `put_put`, `put_self`, `foldl_put_map`: what is put where a value is.
* `mem_values`: the values are what the look-ups of their keys give.
* `mem_values_overwrite`: the values when others are written over them.
* `get?_foldl`: an index into which another one is written.
-/

/-- An insertion-ordered dictionary of values under their own keys. -/
structure Index {κ ν : Type*} (key : ν → κ) where
  dict : Dict κ ν := ∅
  own : ∀ e ∈ dict.entries, key e.2 = e.1 := by
    rintro _ ⟨⟩

namespace Index

variable {κ ν : Type*} {key : ν → κ}

instance : EmptyCollection (Index key) := ⟨{}⟩

/-- The values, in the order in which their keys came in. -/
def values (x : Index key) : List ν := x.dict.values

def keys (x : Index key) : List κ := x.dict.keys

theorem keys_eq (x : Index key) : x.keys = x.values.map key := by
  unfold keys values Dict.keys Dict.values
  rw [List.map_map]
  exact List.map_congr_left fun e he => (x.own e he).symm

theorem nodup_keys (x : Index key) : (x.values.map key).Nodup := by
  rw [← x.keys_eq]
  exact x.dict.nodup

variable [DecidableEq κ]

def get? (x : Index key) (k : κ) : Option ν := x.dict.get? k

/-- `d[key(v)] = v`. -/
def put (x : Index key) (v : ν) : Index key where
  dict := x.dict.insert (key v) v
  own := by
    intro e he
    rcases Dict.mem_entries_insert he with rfl | he
    · rfl
    · exact x.own e he

/-- `del d[k]`. -/
def erase (x : Index key) (k : κ) : Index key where
  dict := x.dict.erase k
  own e he := x.own e (List.mem_of_mem_filter he)

/-- The value is put behind the others. -/
def replace (x : Index key) (v : ν) : Index key where
  dict := x.dict.replace (key v) v
  own := by
    intro e he
    rcases Dict.mem_entries_insert he with rfl | he
    · rfl
    · exact x.own e (List.mem_of_mem_filter he)

/-- The values that satisfy `p`. -/
def filter (p : ν → Bool) (x : Index key) : Index key where
  dict := x.dict.filter p
  own e he := x.own e (List.mem_of_mem_filter he)

/-- Every value is changed in its place. -/
def map (x : Index key) (f : ν → ν) (hf : ∀ v, key (f v) = key v) : Index key where
  dict :=
    { entries := x.dict.entries.map fun e => (e.1, f e.2)
      nodup := by
        rw [List.map_map]
        exact x.dict.nodup }
  own := by
    intro e he
    obtain ⟨e', he', rfl⟩ := List.mem_map.1 he
    exact (hf e'.2).trans (x.own e' he')

@[simp] theorem get?_empty (k : κ) : (∅ : Index key).get? k = none := rfl

theorem mem_keys {x : Index key} {k : κ} : k ∈ x.keys ↔ (x.get? k).isSome := by
  unfold keys Dict.keys
  constructor
  · intro hk
    obtain ⟨e, he, rfl⟩ := List.mem_map.1 hk
    exact Option.isSome_iff_exists.2 ⟨_, Dict.get?_of_mem he⟩
  · intro hk
    obtain ⟨v, hv⟩ := Option.isSome_iff_exists.1 hk
    exact List.mem_map.2 ⟨_, Dict.mem_of_get? hv, rfl⟩

theorem key_of_get? {x : Index key} {k : κ} {v : ν} (h : x.get? k = some v) : key v = k :=
  x.own _ (Dict.mem_of_get? h)

/-- **Look-up after a put.** -/
theorem get?_put (x : Index key) (v : ν) (k : κ) :
    (x.put v).get? k = if k = key v then some v else x.get? k := Dict.get?_insert _ _ _ _

theorem get?_eq_none_iff {x : Index key} {k : κ} : x.get? k = none ↔ k ∉ x.keys :=
  Dict.get?_eq_none_iff

/-- A new value comes behind the others. -/
theorem values_put_new {x : Index key} {v : ν} (h : x.get? (key v) = none) :
    (x.put v).values = x.values ++ [v] := by
  have hentries := Dict.entries_insert_of_not_mem (get?_eq_none_iff.1 h) v
  unfold values put Dict.values
  rw [hentries, List.map_append, List.map_singleton]

/-- A value takes the place of the one under its key. -/
theorem values_put_of_mem {x : Index key} {v : ν} (h : key v ∈ x.keys) :
    (x.put v).values = x.values.map fun w => if key w = key v then v else w := by
  have hput : ∀ es : List (κ × ν), (∀ e ∈ es, key e.2 = e.1) → (es.map Prod.fst).Nodup →
      key v ∈ es.map Prod.fst → (Dict.put (key v) v es).map Prod.snd =
        (es.map Prod.snd).map fun w => if key w = key v then v else w := by
    intro es
    induction es with
    | nil =>
      intro _ _ hmem
      cases hmem
    | cons e es ih =>
      intro hown hnodup hmem
      rw [List.map_cons, List.nodup_cons] at hnodup
      have hself : key e.2 = e.1 := hown e List.mem_cons_self
      have hrest : ∀ e' ∈ es, key e'.2 = e'.1 := fun e' he' => hown e' (List.mem_cons_of_mem _ he')
      unfold Dict.put
      by_cases he : e.1 = key v
      · -- no other value has that key
        have hsame : ((es.map Prod.snd).map fun w => if key w = key v then v else w) =
            es.map Prod.snd := by
          rw [List.map_map]
          refine List.map_congr_left fun e' he' => if_neg fun hkey => hnodup.1 ?_
          rw [he, ← hkey, hrest e' he']
          exact List.mem_map_of_mem he'
        rw [if_pos he, List.map_cons, List.map_cons, List.map_cons, hsame, if_pos (hself.trans he)]
      · have hmem' : key v ∈ es.map Prod.fst := by
          rcases List.mem_cons.1 hmem with hv | hv
          · exact absurd hv.symm he
          · exact hv
        rw [if_neg he, List.map_cons, List.map_cons, List.map_cons, ih hrest hnodup.2 hmem',
          if_neg (hself ▸ he)]
  exact hput x.dict.entries x.own x.dict.nodup h

omit [DecidableEq κ] in
theorem ext {x y : Index key} (h : x.dict.entries = y.dict.entries) : x = y := by
  obtain ⟨d, hd⟩ := x
  obtain ⟨e, he⟩ := y
  obtain rfl : d = e := Dict.ext h
  rfl

/-- The entry of a key is overwritten in its place. -/
theorem put_append {es : List (κ × ν)} {e : κ × ν} {v : ν} (hfresh : e.1 ∉ es.map Prod.fst)
    (rest : List (κ × ν)) : Dict.put e.1 v (es ++ e :: rest) = es ++ (e.1, v) :: rest := by
  induction es with
  | nil => exact if_pos rfl
  | cons e' es ih =>
    rw [List.map_cons, List.mem_cons, not_or] at hfresh
    rw [List.cons_append, Dict.put, if_neg (Ne.symm hfresh.1), ih hfresh.2]
    rfl

/-- What is put anew is put once. -/
theorem put_put {v w : ν} (h : key v = key w) (x : Index key) : (x.put v).put w = x.put w := by
  have hput : ∀ es : List (κ × ν),
      Dict.put (key w) w (Dict.put (key w) v es) = Dict.put (key w) w es := by
    intro es
    induction es with
    | nil =>
      unfold Dict.put
      exact if_pos rfl
    | cons e es ih =>
      by_cases he : e.1 = key w
      · have hfirst : ∀ u, Dict.put (key w) u (e :: es) = (key w, u) :: es := fun u => if_pos he
        rw [hfirst, hfirst]
        exact if_pos rfl
      · have hlater : ∀ (u : ν) (es : List (κ × ν)),
            Dict.put (key w) u (e :: es) = e :: Dict.put (key w) u es := fun u es => if_neg he
        rw [hlater, hlater, hlater, ih]
  refine ext ?_
  show Dict.put (key w) w (Dict.put (key v) v x.dict.entries) = Dict.put (key w) w x.dict.entries
  rw [h, hput]

/-- A value is put where it is already. -/
theorem put_self {x : Index key} {v : ν} (h : x.get? (key v) = some v) : x.put v = x := by
  have hmem := Dict.mem_of_get? h
  obtain ⟨es, rest, hes⟩ := List.append_of_mem hmem
  have hnodup := x.dict.nodup
  rw [hes, List.map_append, List.map_cons] at hnodup
  have hfresh : key v ∉ es.map Prod.fst := fun hk =>
    (List.nodup_append.1 hnodup).2.2 _ hk _ List.mem_cons_self rfl
  refine ext ?_
  show Dict.put (key v) v x.dict.entries = x.dict.entries
  rw [hes]
  exact put_append (e := (key v, v)) hfresh rest

theorem get?_erase (x : Index key) (j k : κ) :
    (x.erase j).get? k = if k = j then none else x.get? k := Dict.get?_erase _ _ _

theorem get?_replace (x : Index key) (v : ν) (k : κ) :
    (x.replace v).get? k = if k = key v then some v else x.get? k := Dict.get?_replace _ _ _ _

theorem get?_filter (x : Index key) (p : ν → Bool) (k : κ) :
    (x.filter p).get? k = (x.get? k).filter p := Dict.get?_filter _ _ _

omit [DecidableEq κ] in
theorem values_filter (x : Index key) (p : ν → Bool) : (x.filter p).values = x.values.filter p := by
  unfold values filter Dict.values Dict.filter
  rw [List.filter_map]
  rfl

theorem values_erase (x : Index key) (k : κ) :
    (x.erase k).values = x.values.filter fun v => key v ≠ k := by
  unfold values erase Dict.erase Dict.restrict Dict.values
  rw [List.filter_map]
  refine congrArg (List.map Prod.snd) (List.filter_congr fun e he => ?_)
  rw [Function.comp_apply, x.own e he]

/-- The first value is erased. -/
theorem values_erase_first {x : Index key} {v : ν} {vs : List ν} (h : x.values = v :: vs) :
    (x.erase (key v)).values = vs := by
  have hnodup := x.nodup_keys
  rw [h, List.map_cons] at hnodup
  have hfresh : ∀ w ∈ vs, key w ≠ key v := by
    intro w hw hkey
    exact (List.nodup_cons.1 hnodup).1 (hkey ▸ List.mem_map_of_mem hw)
  rw [values_erase, h, List.filter_cons_of_neg (by simp)]
  exact List.filter_eq_self.2 fun w hw => decide_eq_true (hfresh w hw)

/-- A value that does not satisfy `p` takes the place of one that may. -/
theorem filter_values_put {p : ν → Bool} {v : ν} (hv : p v = false) (x : Index key) :
    (x.put v).values.filter p = (x.values.filter p).filter fun w => key w ≠ key v := by
  have hput : ∀ es : List (κ × ν), (es.map Prod.fst).Nodup → (∀ e ∈ es, key e.2 = e.1) →
      ((Dict.put (key v) v es).map Prod.snd).filter p =
        ((es.map Prod.snd).filter p).filter fun w => key w ≠ key v := by
    intro es
    induction es with
    | nil =>
      intro _ _
      simp [Dict.put, hv]
    | cons e es ih =>
      intro hnodup hown
      obtain ⟨hfresh, hnodup⟩ := List.nodup_cons.1 hnodup
      have hrest : ∀ e' ∈ es, key e'.2 = e'.1 := fun e' he' => hown e' (List.mem_cons_of_mem _ he')
      unfold Dict.put
      by_cases he : e.1 = key v
      · -- no other entry has that key
        have hall : ∀ w ∈ (es.map Prod.snd).filter p, key w ≠ key v := by
          intro w hw hkey
          obtain ⟨e', he', rfl⟩ := List.mem_map.1 (List.mem_of_mem_filter hw)
          rw [hrest e' he', ← he] at hkey
          exact hfresh (hkey ▸ List.mem_map_of_mem he')
        have hself : key e.2 = key v := (hown e List.mem_cons_self).trans he
        rw [if_pos he, List.map_cons, List.map_cons, List.filter_cons_of_neg (by simp [hv]),
          List.filter_cons]
        split
        · rw [List.filter_cons_of_neg (by simp [hself]),
            List.filter_eq_self.2 fun w hw => decide_eq_true (hall w hw)]
        · rw [List.filter_eq_self.2 fun w hw => decide_eq_true (hall w hw)]
      · have hself : key e.2 ≠ key v := by
          rw [hown e List.mem_cons_self]
          exact he
        rw [if_neg he, List.map_cons, List.map_cons, List.filter_cons, List.filter_cons,
          ih hnodup hrest]
        split
        · rw [List.filter_cons_of_pos (by simp [hself])]
        · rfl
  exact hput x.dict.entries x.dict.nodup x.own

theorem get?_foldl_erase (js : List κ) (x : Index key) (k : κ) :
    (js.foldl erase x).get? k = if k ∈ js then none else x.get? k := by
  induction js generalizing x with
  | nil => rfl
  | cons j js ih =>
    rw [List.foldl_cons, ih, get?_erase]
    by_cases hjs : k ∈ js
    · simp [hjs]
    · by_cases hj : k = j
      · simp [hj]
      · simp [hjs, hj]

theorem get?_map (x : Index key) (f : ν → ν) (hf : ∀ v, key (f v) = key v) (k : κ) :
    (x.map f hf).get? k = (x.get? k).map f := by
  unfold get? map Dict.get?
  simp only
  rw [List.find?_map, Option.map_map, Option.map_map]
  rfl

omit [DecidableEq κ] in
theorem keys_map (x : Index key) (f : ν → ν) (hf : ∀ v, key (f v) = key v) :
    (x.map f hf).keys = x.keys := by
  unfold keys map Dict.keys
  simp only [List.map_map]
  rfl

/-- **Every value is put anew**, one after the other. -/
theorem foldl_put_map (x : Index key) (f : ν → ν) (hf : ∀ v, key (f v) = key v)
    {step : Index key → ν → Index key}
    (hstep : ∀ t v, t.get? (key v) = some v → step t v = t.put (f v)) :
    x.values.foldl step x = x.map f hf := by
  -- the entries before this place are changed, and the others are as they were
  have hloop : ∀ (rest es : List (κ × ν)) (t : Index key),
      t.dict.entries = es.map (fun e => (e.1, f e.2)) ++ rest →
        ((rest.map Prod.snd).foldl step t).dict.entries =
          (es ++ rest).map fun e => (e.1, f e.2) := by
    intro rest
    induction rest with
    | nil =>
      intro es t ht
      rw [List.append_nil] at ht ⊢
      exact ht
    | cons e rest ih =>
      intro es t ht
      have hmem : e ∈ t.dict.entries := by
        rw [ht]
        exact List.mem_append_right _ List.mem_cons_self
      have hkey : key e.2 = e.1 := t.own e hmem
      have hget : t.get? (key e.2) = some e.2 := by
        rw [hkey]
        exact Dict.get?_of_mem hmem
      have hnodup := t.dict.nodup
      rw [ht, List.map_append, List.map_cons] at hnodup
      have hfresh : e.1 ∉ (es.map fun e => (e.1, f e.2)).map Prod.fst := fun hk =>
        (List.nodup_append.1 hnodup).2.2 _ hk _ List.mem_cons_self rfl
      have hput : (t.put (f e.2)).dict.entries =
          (es ++ [e]).map (fun e => (e.1, f e.2)) ++ rest := by
        show Dict.put (key (f e.2)) (f e.2) t.dict.entries = _
        rw [hf, hkey, ht, put_append hfresh, List.map_append, List.append_assoc]
        rfl
      rw [List.map_cons, List.foldl_cons, hstep t e.2 hget, ih (es ++ [e]) _ hput,
        List.append_assoc]
      rfl
  refine ext ?_
  exact hloop x.dict.entries [] x rfl

/-- **The values** are what the look-ups give. -/
theorem mem_values {x : Index key} {v : ν} : v ∈ x.values ↔ x.get? (key v) = some v := by
  constructor
  · intro hv
    obtain ⟨e, he, rfl⟩ := List.mem_map.1 hv
    rw [x.own e he]
    exact Dict.get?_of_mem he
  · intro h
    exact List.mem_map.2 ⟨_, Dict.mem_of_get? h, rfl⟩

/-- **Values put one by one**: no value takes the place of another one when a key has one value. -/
theorem mem_values_foldl_put (vs : List ν) : ∀ x : Index key,
    (∀ v w, v ∈ vs ∨ v ∈ x.values → w ∈ vs ∨ w ∈ x.values → key v = key w → v = w) →
      ∀ w, w ∈ (vs.foldl put x).values ↔ w ∈ vs ∨ w ∈ x.values := by
  induction vs with
  | nil =>
    intro x _ w
    simp
  | cons v vs ih =>
    intro x hone w
    have hput : ∀ w, w ∈ (x.put v).values ↔ w = v ∨ w ∈ x.values := by
      intro w
      rw [mem_values, get?_put, mem_values]
      by_cases hkey : key w = key v
      · rw [if_pos hkey, Option.some.injEq]
        constructor
        · intro h
          exact .inl h.symm
        · rintro (h | h)
          · exact h.symm
          · exact (hone w v (.inr (mem_values.2 h)) (.inl List.mem_cons_self) hkey).symm
      · rw [if_neg hkey]
        refine (or_iff_right ?_).symm
        rintro rfl
        exact hkey rfl
    have hrest : ∀ a b, a ∈ vs ∨ a ∈ (x.put v).values → b ∈ vs ∨ b ∈ (x.put v).values →
        key a = key b → a = b := by
      intro a b ha hb
      simp only [hput] at ha hb
      refine hone a b ?_ ?_
      · simp only [List.mem_cons]
        tauto
      · simp only [List.mem_cons]
        tauto
    rw [List.foldl_cons, ih (x.put v) hrest w, hput, List.mem_cons]
    tauto

theorem mem_values_put {x : Index key} {v w : ν} :
    w ∈ (x.put v).values ↔ w = v ∨ w ∈ x.values ∧ key w ≠ key v := by
  rw [mem_values, get?_put, mem_values]
  split
  · rename_i hkey
    rw [Option.some.injEq]
    constructor
    · intro h
      exact .inl h.symm
    · rintro (h | ⟨-, hne⟩)
      · exact h.symm
      · exact absurd hkey hne
  · rename_i hkey
    refine ⟨fun h => .inr ⟨h, hkey⟩, ?_⟩
    rintro (rfl | ⟨h, -⟩)
    · exact absurd rfl hkey
    · exact h

/-- **Values written over others**: those that are put, and the others whose keys they do not have. -/
theorem mem_values_overwrite {vs : List ν} (hnodup : (vs.map key).Nodup) : ∀ (x : Index key) (w : ν),
    w ∈ (vs.foldl put x).values ↔ w ∈ vs ∨ w ∈ x.values ∧ key w ∉ vs.map key := by
  induction vs with
  | nil =>
    intro x w
    simp
  | cons v vs ih =>
    intro x w
    rw [List.map_cons, List.nodup_cons] at hnodup
    obtain ⟨hfresh, hnodup⟩ := hnodup
    rw [List.foldl_cons, ih hnodup, mem_values_put, List.map_cons, List.mem_cons, List.mem_cons]
    have hv : w = v → key w ∉ vs.map key := fun h => h ▸ hfresh
    tauto

/-- The keys that are there stay. -/
theorem mem_keys_overwrite {vs : List ν} (hnodup : (vs.map key).Nodup) {x : Index key} {k : κ}
    (hk : k ∈ x.keys) : k ∈ (vs.foldl put x).keys := by
  rw [keys_eq] at hk ⊢
  obtain ⟨w, hw, rfl⟩ := List.mem_map.1 hk
  by_cases hin : key w ∈ vs.map key
  · obtain ⟨v, hv, hkey⟩ := List.mem_map.1 hin
    exact List.mem_map.2 ⟨v, (mem_values_overwrite hnodup x v).2 (.inl hv), hkey⟩
  · exact List.mem_map.2 ⟨w, (mem_values_overwrite hnodup x w).2 (.inr ⟨hw, hin⟩), rfl⟩

theorem find?_values (x : Index key) (k : κ) : x.values.find? (key · = k) = x.get? k := by
  cases hk : x.get? k with
  | none =>
    rw [List.find?_eq_none]
    intro v hv hkey
    rw [decide_eq_true_eq] at hkey
    have hget := mem_values.1 hv
    rw [hkey, hk] at hget
    cases hget
  | some v =>
    have hkey := key_of_get? hk
    obtain ⟨w, hw⟩ : ∃ w, x.values.find? (key · = k) = some w := by
      rw [← Option.isSome_iff_exists, List.find?_isSome]
      exact ⟨v, mem_values.2 (by rw [hkey]; exact hk), by simpa using hkey⟩
    have hwk : key w = k := by simpa using List.find?_some hw
    have hget := mem_values.1 (List.mem_of_find?_eq_some hw)
    rw [hwk, hk] at hget
    rw [hw]
    exact hget.symm

/-- **The values of an index** written into another one, over those that are there. -/
theorem get?_foldl {μ : Type*} {key' : μ → κ} (y : Index key') {f : μ → ν}
    (hf : ∀ v, key (f v) = key' v) {step : Index key → ν → Index key}
    (hstep : ∀ t v k, (step t v).get? k = if k = key v then some v else t.get? k)
    (x : Index key) (k : κ) :
    (y.values.foldl (fun t v => step t (f v)) x).get? k = ((y.get? k).map f).or (x.get? k) := by
  have hloop : ∀ (vs : List μ) (t : Index key), (vs.map key').Nodup →
      (vs.foldl (fun t v => step t (f v)) t).get? k =
        ((vs.find? (key' · = k)).map f).or (t.get? k) := by
    intro vs
    induction vs with
    | nil => intro t _; rfl
    | cons v vs ih =>
      intro t hnodup
      rw [List.map_cons, List.nodup_cons] at hnodup
      rw [List.foldl_cons, ih _ hnodup.2, hstep, hf]
      by_cases hv : key' v = k
      · subst hv
        -- the values after this one have other keys
        have hnone : vs.find? (key' · = key' v) = none := by
          rw [List.find?_eq_none]
          intro w hw hkey
          rw [decide_eq_true_eq] at hkey
          exact hnodup.1 (hkey ▸ List.mem_map_of_mem hw)
        simp [hnone]
      · simp [hv, Ne.symm hv]
  rw [hloop _ _ y.nodup_keys, find?_values]

end Index

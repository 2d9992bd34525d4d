import Mathlib.Data.List.Basic
import Mathlib.Logic.Function.Iterate
import Mathlib.Tactic

/-!
# Objects that are shared

A heap is the list of the objects made so far, a reference is a position in it.
Two lists of references share the objects that are in both, so what is assigned
through one list is seen through the other.

* `sweep`: a loop over references that assigns to each object in turn, and
  `getElem?_sweep`: each object after it, by how often it was visited.
* `later_sweep`, `later_sweep_iff`: what relates each object to itself after a loop.
* `read_sweep_iff`: references read the same after a loop over them exactly when
  it has nothing to assign.
* `rebuild`: a loop that replaces some objects by new ones, and `rebuild_spec`:
  what its references read, where they come from, and that no object changes.
-/

namespace Heap

variable {α β : Type*}

/-- The objects that a list of references stands for. -/
def read (h : List α) (as : List ℕ) : List α := as.filterMap (h[·]?)

/-- References to objects that exist. -/
def Valid (h : List α) (as : List ℕ) : Prop := ∀ a ∈ as, a < h.length

theorem mem_read {h : List α} {as : List ℕ} {x : α} : x ∈ read h as ↔ ∃ a ∈ as, h[a]? = some x :=
  List.mem_filterMap

theorem Valid.mono {h h' : List α} {as : List ℕ} (hv : Valid h as) (hlen : h.length ≤ h'.length) :
    Valid h' as := fun a ha => (hv a ha).trans_le hlen

theorem read_congr {h h' : List α} {as : List ℕ} (hsame : ∀ a ∈ as, h'[a]? = h[a]?) :
    read h' as = read h as := List.filterMap_congr hsame

/-- **Reading determines the objects.** -/
theorem read_eq_iff {h h' : List α} {as : List ℕ} (hv : Valid h as) (hv' : Valid h' as) :
    read h' as = read h as ↔ ∀ a ∈ as, h'[a]? = h[a]? := by
  refine ⟨?_, read_congr⟩
  induction as with
  | nil => exact fun _ a ha => absurd ha List.not_mem_nil
  | cons b as ih =>
    intro hread
    have hb := List.getElem?_eq_getElem (hv b List.mem_cons_self)
    have hb' := List.getElem?_eq_getElem (hv' b List.mem_cons_self)
    unfold read at hread
    rw [List.filterMap_cons_some hb, List.filterMap_cons_some hb', List.cons.injEq] at hread
    obtain ⟨hhead, htail⟩ := hread
    intro a ha
    rcases List.mem_cons.1 ha with rfl | ha
    · rw [hb, hb', hhead]
    · exact ih (fun c hc => hv c (List.mem_cons_of_mem _ hc))
        (fun c hc => hv' c (List.mem_cons_of_mem _ hc)) htail a ha

theorem getElem?_of_grows {h h' : List α} (hp : h <+: h') {a : ℕ} (ha : a < h.length) :
    h'[a]? = h[a]? := by
  obtain ⟨xs, rfl⟩ := hp
  exact List.getElem?_append_left ha

theorem read_of_grows {h h' : List α} (hp : h <+: h') {as : List ℕ} (hv : Valid h as) :
    read h' as = read h as := read_congr fun a ha => getElem?_of_grows hp (hv a ha)

theorem read_append_refs (h : List α) (as bs : List ℕ) :
    read h (as ++ bs) = read h as ++ read h bs := List.filterMap_append

/-- References to nothing read nothing. -/
theorem read_filter (h : List α) (as : List ℕ) :
    read h (as.filter (· < h.length)) = read h as := by
  unfold read
  rw [List.filterMap_filter]
  refine List.filterMap_congr fun a _ => ?_
  split
  · rfl
  · rename_i ha
    exact (List.getElem?_eq_none (by simpa using ha)).symm

/-- New objects are read by the references after the old ones. -/
theorem read_new (h ys : List α) : read (h ++ ys) (List.range' h.length ys.length) = ys := by
  induction ys generalizing h with
  | nil => rfl
  | cons y ys ih =>
    have hhead : (h ++ y :: ys)[h.length]? = some y := by simp
    have htail := ih (h ++ [y])
    rw [List.append_assoc, List.singleton_append, List.length_append,
      List.length_singleton] at htail
    unfold read at htail ⊢
    rw [List.length_cons, List.range'_succ, List.filterMap_cons_some hhead, htail]

/-! ## Objects over time -/

/-- Each object is still there, and `R` relates it to what it was. -/
def Later (R : α → α → Prop) (h h' : List α) : Prop :=
  ∀ (a : ℕ) (x : α), h[a]? = some x → ∃ y, h'[a]? = some y ∧ R x y

variable {R : α → α → Prop}

theorem later_of_grows (hrefl : ∀ x, R x x) {h h' : List α} (hp : h <+: h') : Later R h h' := by
  intro a x hx
  obtain ⟨ha, -⟩ := List.getElem?_eq_some_iff.1 hx
  exact ⟨x, by rw [getElem?_of_grows hp ha, hx], hrefl x⟩

theorem Later.length_le {h h' : List α} (hl : Later R h h') : h.length ≤ h'.length := by
  by_contra hlt
  have ha : h'.length < h.length := by omega
  obtain ⟨y, hy, -⟩ := hl h'.length _ (List.getElem?_eq_getElem ha)
  rw [List.getElem?_eq_none le_rfl] at hy
  cases hy

/-- What an object is related to itself by, the objects of a list of references read. -/
theorem map_read_of_later {γ : Type*} {f : α → γ} {h h' : List α}
    (hl : Later (fun x y => f x = f y) h h') {as : List ℕ} (hv : Valid h as) :
    (read h' as).map f = (read h as).map f := by
  induction as with
  | nil => rfl
  | cons a as ih =>
    have hx := List.getElem?_eq_getElem (hv a List.mem_cons_self)
    obtain ⟨y, hy, hxy⟩ := hl a _ hx
    have hrest := ih fun b hb => hv b (List.mem_cons_of_mem _ hb)
    unfold read at hrest ⊢
    rw [List.filterMap_cons_some hx, List.filterMap_cons_some hy, List.map_cons, List.map_cons,
      hrest, hxy]

/-! ## Loops that assign -/

/-- One round of a loop over references: the rule gives what is assigned to the
object, and what is noted on the way. -/
def visit (rule : α → α × List β) (h : List α × List β) (a : ℕ) : List α × List β :=
  match h.1[a]? with
  | none => h
  | some x => (h.1.set a (rule x).1, h.2 ++ (rule x).2)

/-- A loop over references. -/
def sweep (rule : α → α × List β) (as : List ℕ) (h : List α × List β) : List α × List β :=
  as.foldl (visit rule) h

variable {rule : α → α × List β} {h : List α × List β}

theorem getElem?_visit (a b : ℕ) :
    (visit rule h b).1[a]? = if b = a then h.1[a]?.map fun x => (rule x).1 else h.1[a]? := by
  unfold visit
  split
  · rename_i hb
    split
    · rename_i hba
      subst hba
      rw [hb]
      rfl
    · rfl
  · rename_i x hb
    rw [List.getElem?_set]
    split
    · rename_i hba
      subst hba
      obtain ⟨hlt, -⟩ := List.getElem?_eq_some_iff.1 hb
      rw [if_pos hlt, hb]
      rfl
    · rfl

/-- **Each object after a loop**: the rule was applied as often as it was visited. -/
theorem getElem?_sweep (as : List ℕ) (a : ℕ) : (sweep rule as h).1[a]? =
    h.1[a]?.map (fun x => (rule x).1)^[as.count a] := by
  induction as generalizing h with
  | nil =>
    unfold sweep
    rw [List.foldl_nil, List.count_nil, Function.iterate_zero, Option.map_id]
    rfl
  | cons b as ih =>
    -- the first visit, then those that the induction counts
    have hstep : (sweep rule (b :: as) h).1[a]? = (sweep rule as (visit rule h b)).1[a]? := rfl
    rw [hstep, ih, getElem?_visit, List.count_cons]
    by_cases hba : b = a
    · rw [if_pos hba, if_pos (beq_iff_eq.2 hba), Option.map_map]
      rfl
    · rw [if_neg hba, if_neg (by simpa using hba)]
      rfl

theorem getElem?_sweep_of_not_mem {as : List ℕ} {a : ℕ} (ha : a ∉ as) :
    (sweep rule as h).1[a]? = h.1[a]? := by
  rw [getElem?_sweep, List.count_eq_zero.2 ha, Function.iterate_zero, Option.map_id]
  rfl

theorem length_sweep (rule : α → α × List β) (as : List ℕ) (h : List α × List β) :
    (sweep rule as h).1.length = h.1.length := by
  have hsame : ∀ a, (sweep rule as h).1.length ≤ a ↔ h.1.length ≤ a := by
    intro a
    -- there is nothing at an address after the loop when there was nothing before
    rw [← List.getElem?_eq_none_iff, ← List.getElem?_eq_none_iff, getElem?_sweep,
      Option.map_eq_none_iff]
  have hle := hsame h.1.length
  have hge := hsame (sweep rule as h).1.length
  omega

/-- What one round keeps of each object, a loop keeps. -/
theorem later_sweep (hrefl : ∀ x, R x x) (htrans : ∀ x y z, R x y → R y z → R x z)
    (hrule : ∀ x, R x (rule x).1) (as : List ℕ) : Later R h.1 (sweep rule as h).1 := by
  have hiter : ∀ n x, R x ((fun x => (rule x).1)^[n] x) := by
    intro n x
    induction n with
    | zero => exact hrefl x
    | succ n ih =>
      rw [Function.iterate_succ_apply']
      exact htrans _ _ _ ih (hrule _)
  intro a x hx
  rw [getElem?_sweep, hx]
  exact ⟨_, rfl, hiter _ x⟩

theorem iterate_succ_of_idem {f : α → α} (hf : ∀ x, f (f x) = f x) (n : ℕ) (x : α) :
    f^[n + 1] x = f x := by
  induction n with
  | zero => rfl
  | succ n ih => rw [Function.iterate_succ_apply', ih, hf]

/-- An object that is visited has been assigned to. -/
theorem exists_iterate (rule : α → α × List β) (h : List α × List β) {as : List ℕ} {a : ℕ}
    (ha : a ∈ as) :
    ∃ n, (sweep rule as h).1[a]? = h.1[a]?.map (fun x => (rule x).1)^[n + 1] := by
  obtain ⟨n, hn⟩ := Nat.exists_eq_add_one.2 (List.count_pos_iff.2 ha)
  exact ⟨n, by rw [getElem?_sweep, hn]⟩

/-- **A loop with a rule that does nothing the second time** relates each object to what it was
exactly when the rule does so with those that are visited. -/
theorem later_sweep_iff (hrefl : ∀ x, R x x) (hidem : ∀ x, (rule (rule x).1).1 = (rule x).1)
    (as : List ℕ) : Later R h.1 (sweep rule as h).1 ↔ ∀ x ∈ read h.1 as, R x (rule x).1 := by
  constructor
  · intro hl x hx
    obtain ⟨a, ha, hax⟩ := mem_read.1 hx
    obtain ⟨n, hn⟩ := exists_iterate rule h ha
    obtain ⟨y, hy, hxy⟩ := hl a x hax
    rw [hn, hax, Option.map_some, iterate_succ_of_idem hidem, Option.some.injEq] at hy
    rwa [hy]
  · intro hread a x hax
    by_cases ha : a ∈ as
    · obtain ⟨n, hn⟩ := exists_iterate rule h ha
      rw [hn, hax, Option.map_some, iterate_succ_of_idem hidem]
      exact ⟨_, rfl, hread x (mem_read.2 ⟨a, ha, hax⟩)⟩
    · rw [getElem?_sweep_of_not_mem ha, hax]
      exact ⟨x, rfl, hrefl x⟩

/-- **References read the same after a loop over them** exactly when the rule has nothing to assign
to their objects. `hback`: repeating the rule does not undo it. -/
theorem read_sweep_iff {as : List ℕ} (hv : Valid h.1 as)
    (hback : ∀ n x, (fun x => (rule x).1)^[n + 1] x = x → (rule x).1 = x) :
    read (sweep rule as h).1 as = read h.1 as ↔ ∀ x ∈ read h.1 as, (rule x).1 = x := by
  rw [read_eq_iff hv (hv.mono (length_sweep rule as h).ge)]
  constructor
  · intro hsame x hx
    obtain ⟨a, ha, hax⟩ := mem_read.1 hx
    obtain ⟨n, hn⟩ := exists_iterate rule h ha
    have hcell := hsame a ha
    rw [hn, hax, Option.map_some, Option.some.injEq] at hcell
    exact hback n x hcell
  · intro hread a ha
    obtain ⟨x, hx⟩ : ∃ x, h.1[a]? = some x := ⟨_, List.getElem?_eq_getElem (hv a ha)⟩
    have hfix := hread x (mem_read.2 ⟨a, ha, hx⟩)
    rw [getElem?_sweep, hx, Option.map_some, Function.iterate_fixed hfix]

/-! ## Loops that build new lists -/

/-- One round of a loop that replaces an object by the new objects that `parts`
gives, if any, and else takes over the reference. -/
def place (parts : α → Option (List α)) (s : List α × List ℕ) (a : ℕ) : List α × List ℕ :=
  match s.1[a]? with
  | none => s
  | some x =>
    match parts x with
    | none => (s.1, s.2 ++ [a])
    | some ys => (s.1 ++ ys, s.2 ++ List.range' s.1.length ys.length)

/-- A loop that makes a new list of references. -/
def rebuild (parts : α → Option (List α)) (as : List ℕ) (h : List α) : List α × List ℕ :=
  as.foldl (place parts) (h, [])

/-- Where a reference of a rebuilt list comes from: it was taken over, or it is a
new object, one of the parts of an old one. -/
inductive Origin (parts : α → Option (List α)) (h h' : List α) (a b : ℕ) : Prop where
  | same (hab : b = a)
  | part {x y : α} {ys : List α} (hx : h[a]? = some x) (hys : parts x = some ys) (hy : y ∈ ys)
      (hnew : h.length ≤ b) (hb : h'[b]? = some y)

/-- What a loop that makes a new list of references does. -/
structure Rebuilt (parts : α → Option (List α)) (as : List ℕ) (h h' : List α) (new : List ℕ) :
    Prop where
  /-- No object changes. -/
  grows : h <+: h'
  valid : Valid h' new
  read_eq : read h' new = (read h as).flatMap fun x => (parts x).getD [x]
  origin : ∀ b ∈ new, ∃ a ∈ as, Origin parts h h' a b

theorem Origin.mono {parts : α → Option (List α)} {h h' h'' : List α} {a b : ℕ}
    (ho : Origin parts h h' a b) (hp : h' <+: h'') : Origin parts h h'' a b := by
  cases ho with
  | same hab => exact .same hab
  | part hx hys hy hnew hb =>
    obtain ⟨hlt, -⟩ := List.getElem?_eq_some_iff.1 hb
    exact .part hx hys hy hnew (by rw [getElem?_of_grows hp hlt, hb])

theorem Rebuilt.place {parts : α → Option (List α)} {as : List ℕ} {h h' : List α} {new : List ℕ}
    (hr : Rebuilt parts as h h' new) {a : ℕ} (ha : a < h.length) :
    Rebuilt parts (as ++ [a]) h (place parts (h', new) a).1 (place parts (h', new) a).2 := by
  have hget := List.getElem?_eq_getElem ha
  have hget' : h'[a]? = some h[a] := by rw [getElem?_of_grows hr.grows ha, hget]
  have hread : read h (as ++ [a]) = read h as ++ [h[a]] := by
    rw [read_append_refs]
    unfold read
    rw [List.filterMap_cons_some hget, List.filterMap_nil]
  have holds : ∀ {h''}, h' <+: h'' → ∀ b ∈ new, ∃ c ∈ as ++ [a], Origin parts h h'' c b := by
    intro h'' hp b hb
    obtain ⟨c, hc, ho⟩ := hr.origin b hb
    exact ⟨c, List.mem_append_left _ hc, ho.mono hp⟩
  unfold Heap.place
  simp only [hget']
  cases hparts : parts h[a] with
  | none =>
    -- the reference is taken over
    have hlast : read h' [a] = [h[a]] := by
      unfold read
      rw [List.filterMap_cons_some hget', List.filterMap_nil]
    refine ⟨hr.grows, ?_, ?_, ?_⟩
    · intro b hb
      rcases List.mem_append.1 hb with hb | hb
      · exact hr.valid b hb
      · rw [List.mem_singleton.1 hb]
        exact ha.trans_le hr.grows.length_le
    · rw [read_append_refs, hr.read_eq, hread, List.flatMap_append, List.flatMap_singleton, hparts,
        hlast]
      rfl
    · intro b hb
      rcases List.mem_append.1 hb with hb | hb
      · exact holds List.prefix_rfl b hb
      · have hba : b = a := List.mem_singleton.1 hb
        exact ⟨a, List.mem_append_right _ (List.mem_singleton.2 rfl), .same hba⟩
  | some ys =>
    -- the parts go behind all objects, their references behind those so far
    have hp : h' <+: h' ++ ys := List.prefix_append _ _
    refine ⟨hr.grows.trans hp, ?_, ?_, ?_⟩
    · intro b hb
      rw [List.length_append]
      rcases List.mem_append.1 hb with hb | hb
      · have hold := hr.valid b hb
        omega
      · have hnew := List.mem_range'_1.1 hb
        omega
    · rw [read_append_refs, read_of_grows hp hr.valid, hr.read_eq, hread, List.flatMap_append,
        List.flatMap_singleton, hparts, read_new]
      rfl
    · intro b hb
      rcases List.mem_append.1 hb with hb | hb
      · exact holds hp b hb
      · -- a new object, at its place among the parts
        have hnew := List.mem_range'_1.1 hb
        have hlt : b - h'.length < ys.length := by omega
        have hcell : (h' ++ ys)[b]? = some ys[b - h'.length] := by
          rw [List.getElem?_append_right hnew.1, List.getElem?_eq_getElem hlt]
        refine ⟨a, List.mem_append_right _ (List.mem_singleton.2 rfl), ?_⟩
        exact .part hget hparts (List.getElem_mem hlt) (hr.grows.length_le.trans hnew.1) hcell

/-- **A loop that makes a new list** leaves the objects alone; its references read the parts of the
old objects in their order. -/
theorem rebuild_spec (parts : α → Option (List α)) {as : List ℕ} {h : List α} (hv : Valid h as) :
    Rebuilt parts as h (rebuild parts as h).1 (rebuild parts as h).2 := by
  induction as using List.reverseRecOn with
  | nil =>
    refine ⟨List.prefix_rfl, ?_, rfl, ?_⟩
    · exact fun a ha => absurd ha List.not_mem_nil
    · exact fun a ha => absurd ha List.not_mem_nil
  | append_singleton as a ih =>
    have hrest := ih fun b hb => hv b (List.mem_append_left _ hb)
    have hlast : rebuild parts (as ++ [a]) h = place parts (rebuild parts as h) a := by
      unfold rebuild
      rw [List.foldl_append, List.foldl_cons, List.foldl_nil]
    rw [hlast]
    exact hrest.place (hv a (List.mem_append_right _ (List.mem_singleton.2 rfl)))

end Heap

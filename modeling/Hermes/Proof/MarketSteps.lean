import Hermes.Lib.Heap
import Hermes.Spec.Marketplace

/-!
# What the operations of a marketplace do

* `shelf`: the map that `list_installed` reads, of the store or of the marketplace.
* `Filed`: the shelf has every object under its own id.
* `installedAs`: what `list_installed` has under an id; `installedAs_eq`: read off the
  shelf.
* `filed_of_new`, `filed_of_assigned`, `filed_of_set`, `filed_of_erased`: what is listed
  after a new object, an assignment, a removal.
* `install_cases`: a package is accepted, refused, or resolving a secret raises.
-/

namespace Hermes

namespace Marketplace

variable {sha256 : String → String} {m m' : Marketplace} {now i j : ℕ} {x y : String} {p : Plugin}

/-- The map that `list_installed` reads. -/
def shelf (m : Marketplace) : Dict String ℕ :=
  match m.store with
  | some s => s.packages
  | none => m.installed

/-- The id of the object at a reference. -/
def idOf (m : Marketplace) (i : ℕ) : Option String := (m.objects[i]?).map (·.packageId)

/-- Every object of the shelf is there, under its own id. -/
def Filed (m : Marketplace) : Prop := ∀ x i, m.shelf.get? x = some i → m.idOf i = some x

/-- The package that `list_installed` has under an id. -/
def installedAs (m : Marketplace) (x : String) : Option ℕ :=
  m.listInstalled.find? fun i => m.idOf i = some x

theorem listInstalled_eq (m : Marketplace) :
    m.listInstalled = m.shelf.values.filter (m.hasStatus .installed) := by
  unfold listInstalled shelf
  cases m.store with
  | none => rfl
  | some s => rfl

/-- **What is listed under an id** is what the shelf has there, if it is installed. -/
theorem installedAs_eq (hf : m.Filed) (x : String) :
    m.installedAs x = (m.shelf.get? x).filter (m.hasStatus .installed) := by
  unfold installedAs
  rw [listInstalled_eq]
  have honly : ∀ j ∈ m.shelf.values.filter (m.hasStatus .installed), m.idOf j = some x →
      m.shelf.get? x = some j := by
    intro j hj hid
    obtain ⟨k, hk⟩ := Dict.mem_values.1 (List.mem_of_mem_filter hj)
    have hkx : k = x := Option.some.inj ((hf k j hk).symm.trans hid)
    rw [← hkx]
    exact hk
  cases hx : (m.shelf.get? x).filter (m.hasStatus .installed) with
  | none =>
    rw [List.find?_eq_none]
    intro j hj hid
    have hjx := honly j hj (by simpa using hid)
    rw [hjx, Option.filter_eq_none_iff] at hx
    exact hx j rfl (List.mem_filter.1 hj).2
  | some i =>
    obtain ⟨hi, hstatus⟩ := Option.filter_eq_some_iff.1 hx
    have hmem : i ∈ m.shelf.values.filter (m.hasStatus .installed) :=
      List.mem_filter.2 ⟨Dict.mem_values.2 ⟨x, hi⟩, hstatus⟩
    obtain ⟨j, hj⟩ : ∃ j, (m.shelf.values.filter (m.hasStatus .installed)).find?
        (fun i => m.idOf i = some x) = some j := by
      rw [← Option.isSome_iff_exists, List.find?_isSome]
      exact ⟨i, hmem, by simpa using hf x i hi⟩
    have hjx := honly j (List.mem_of_find?_eq_some hj) (by simpa using List.find?_some hj)
    rw [hj, ← hjx, hi]

/-- Nothing but the shelf and the status of its objects matters. -/
theorem installedAs_congr (hf : m.Filed) (hf' : m'.Filed) (hshelf : m'.shelf.get? x = m.shelf.get? x)
    (hstatus : ∀ i, m.shelf.get? x = some i →
      m'.hasStatus .installed i = m.hasStatus .installed i) :
    m'.installedAs x = m.installedAs x := by
  rw [installedAs_eq hf, installedAs_eq hf', hshelf]
  cases hx : m.shelf.get? x with
  | none => rfl
  | some i =>
    have hi := hstatus i hx
    simp only [Option.filter, hi]

theorem installedAs_of_shelf (hf : m.Filed) (hx : m.shelf.get? x = some i) :
    m.installedAs x = if m.hasStatus .installed i then some i else none := by
  rw [installedAs_eq hf, hx]
  rfl

theorem idOf_lt (h : m.idOf i = some x) : i < m.objects.length := by
  unfold idOf at h
  obtain ⟨p, hp, -⟩ := Option.map_eq_some_iff.1 h
  exact (List.getElem?_eq_some_iff.1 hp).1

/-! ## Objects -/

/-- The objects of `m` are in `m'`, and have the statuses that they had. -/
def KeepsObjects (m m' : Marketplace) : Prop :=
  ∀ i, i < m.objects.length → m'.objects[i]? = m.objects[i]?

theorem KeepsObjects.idOf (h : KeepsObjects m m') (hi : m.idOf i = some x) :
    m'.idOf i = some x := by
  unfold Marketplace.idOf
  rw [h i (idOf_lt hi)]
  exact hi

theorem KeepsObjects.hasStatus (h : KeepsObjects m m') (hi : i < m.objects.length)
    (status : PluginStatus) : m'.hasStatus status i = m.hasStatus status i := by
  unfold Marketplace.hasStatus
  rw [h i hi]

theorem keepsObjects_append {ps : List Plugin} (h : m'.objects = m.objects ++ ps) :
    KeepsObjects m m' := by
  intro i hi
  rw [h, List.getElem?_append_left hi]

/-- An operation that adds objects and leaves the shelf as it is. -/
theorem filed_of_same (hf : m.Filed) (hobjects : KeepsObjects m m')
    (hshelf : ∀ x, m'.shelf.get? x = m.shelf.get? x) :
    m'.Filed ∧ m'.installedAs = m.installedAs := by
  have hf' : m'.Filed := fun x i hi => hobjects.idOf (hf x i (by rw [← hshelf]; exact hi))
  refine ⟨hf', funext fun x => installedAs_congr hf hf' (hshelf x) fun i hi => ?_⟩
  exact hobjects.hasStatus (idOf_lt (hf x i hi)) .installed

/-- **A new object** is put on the shelf. -/
theorem filed_of_new (hf : m.Filed) (hobjects : m'.objects = m.objects ++ [p])
    (hid : p.packageId = x) {r : Option ℕ}
    (hr : r = if p.status = .installed then some m.objects.length else none)
    (hshelf : ∀ y, m'.shelf.get? y = if y = x then some m.objects.length else m.shelf.get? y) :
    m'.Filed ∧ m'.installedAs = Function.update m.installedAs x r := by
  -- the old objects stay, and the new one comes last
  have hkeeps := keepsObjects_append hobjects
  have hlast : m'.objects[m.objects.length]? = some p := by
    rw [hobjects, List.getElem?_append_right le_rfl, Nat.sub_self]
    rfl
  have hf' : m'.Filed := by
    intro y i hi
    rw [hshelf] at hi
    split at hi
    · rename_i hy
      obtain rfl := Option.some.inj hi
      unfold idOf
      rw [hlast, hy, ← hid]
      rfl
    · exact hkeeps.idOf (hf y i hi)
  refine ⟨hf', funext fun y => ?_⟩
  by_cases hy : y = x
  · subst hy
    rw [Function.update_self, installedAs_of_shelf hf' (by rw [hshelf, if_pos rfl]), hr]
    unfold Marketplace.hasStatus
    rw [hlast]
    simp
  · rw [Function.update_of_ne hy]
    refine installedAs_congr hf hf' (by rw [hshelf, if_neg hy]) fun i hi => ?_
    exact hkeeps.hasStatus (idOf_lt (hf y i hi)) .installed

theorem getElem?_assigned (hp : m.objects[i]? = some p) {q : Plugin}
    (hobjects : m'.objects = m.objects.set i q) (j : ℕ) :
    m'.objects[j]? = if i = j then some q else m.objects[j]? := by
  have hlt := (List.getElem?_eq_some_iff.1 hp).1
  rw [hobjects, List.getElem?_set]
  by_cases hij : i = j
  · subst hij
    simp [hlt]
  · simp [hij]

theorem idOf_assigned (hp : m.objects[i]? = some p) {q : Plugin}
    (hid : q.packageId = p.packageId) (hobjects : m'.objects = m.objects.set i q) (j : ℕ) :
    m'.idOf j = m.idOf j := by
  unfold idOf
  rw [getElem?_assigned hp hobjects]
  split
  · rename_i hij
    rw [← hij, hp]
    exact congrArg some hid
  · rfl

/-- **An object that is assigned** is put on the shelf under its id. -/
theorem filed_of_assigned (hf : m.Filed) (hp : m.objects[i]? = some p) {q : Plugin}
    (hid : q.packageId = p.packageId) (hobjects : m'.objects = m.objects.set i q)
    (hshelf : ∀ x, m'.shelf.get? x = if x = p.packageId then some i else m.shelf.get? x) :
    m'.Filed ∧ m'.installedAs = Function.update m.installedAs p.packageId
      (if q.status = .installed then some i else none) := by
  have hget := getElem?_assigned hp hobjects
  have hf' : m'.Filed := by
    intro x j hj
    rw [idOf_assigned hp hid hobjects]
    rw [hshelf] at hj
    split at hj
    · rename_i hx
      obtain rfl := Option.some.inj hj
      unfold idOf
      rw [hp, hx]
      rfl
    · exact hf x j hj
  refine ⟨hf', funext fun x => ?_⟩
  by_cases hx : x = p.packageId
  · subst hx
    rw [Function.update_self, installedAs_of_shelf hf' (by rw [hshelf, if_pos rfl])]
    unfold Marketplace.hasStatus
    rw [hget, if_pos rfl]
    simp
  · rw [Function.update_of_ne hx]
    refine installedAs_congr hf hf' (by rw [hshelf, if_neg hx]) fun j hj => ?_
    -- another id has another object
    have hne : i ≠ j := by
      rintro rfl
      have hidj := hf x i hj
      unfold idOf at hidj
      rw [hp] at hidj
      exact hx (Option.some.inj hidj).symm
    unfold Marketplace.hasStatus
    rw [hget, if_neg hne]

/-- An object is assigned, and the shelf stays. -/
theorem filed_of_set (hf : m.Filed) (hp : m.objects[i]? = some p) {q : Plugin}
    (hid : q.packageId = p.packageId) (hstatus : q.status ≠ .installed)
    (hobjects : m'.objects = m.objects.set i q) (hshelf : m'.shelf = m.shelf) :
    m'.Filed ∧ m'.installedAs = fun x => (m.installedAs x).filter (· ≠ i) := by
  have hget := getElem?_assigned hp hobjects
  have hf' : m'.Filed := by
    intro x j hj
    rw [hshelf] at hj
    rw [idOf_assigned hp hid hobjects]
    exact hf x j hj
  refine ⟨hf', funext fun x => ?_⟩
  rw [installedAs_eq hf', installedAs_eq hf, hshelf]
  cases hx : m.shelf.get? x with
  | none => rfl
  | some j =>
    by_cases hij : i = j
    · subst hij
      -- the object that failed is listed no more
      have hfail : m'.hasStatus .installed i = false := by
        unfold Marketplace.hasStatus
        rw [hget, if_pos rfl]
        simpa using hstatus
      cases hinst : m.hasStatus .installed i with
      | false => simp [Option.filter, hfail, hinst]
      | true => simp [Option.filter, hfail, hinst]
    · have hsame : m'.hasStatus .installed j = m.hasStatus .installed j := by
        unfold Marketplace.hasStatus
        rw [hget, if_neg hij]
      cases hinst : m.hasStatus .installed j with
      | false => simp [Option.filter, hsame, hinst]
      | true => simp [Option.filter, hsame, hinst, Ne.symm hij]

/-- **An id is taken** from the shelf. -/
theorem filed_of_erased (hf : m.Filed) (hobjects : m'.objects = m.objects)
    (hshelf : ∀ x, m'.shelf.get? x = if x = y then none else m.shelf.get? x) :
    m'.Filed ∧ m'.installedAs = Function.update m.installedAs y none := by
  have hkeeps : KeepsObjects m m' := fun i _ => by rw [hobjects]
  have hf' : m'.Filed := by
    intro x i hi
    rw [hshelf] at hi
    split at hi
    · cases hi
    · exact hkeeps.idOf (hf x i hi)
  refine ⟨hf', funext fun x => ?_⟩
  by_cases hx : x = y
  · subst hx
    rw [Function.update_self, installedAs_eq hf', hshelf, if_pos rfl]
    rfl
  · rw [Function.update_of_ne hx]
    refine installedAs_congr hf hf' (by rw [hshelf, if_neg hx]) fun i hi => ?_
    exact hkeeps.hasStatus (idOf_lt (hf x i hi)) .installed

/-! ## Operations -/

/-- What becomes of a package that is to be installed. -/
inductive Fate where
  | accepted | refused | raised
  deriving DecidableEq, Repr

/-- The fate of the object at `i`, by the validation and the secrets. -/
def fate (sha256 : String → String) (m : Marketplace) (vault : SecretAnswers) (i : ℕ) : Fate :=
  match m.objects[i]? with
  | none => .raised
  | some p =>
    match m.refusal sha256 vault p with
    | .error _ => .raised
    | .ok (some _) => .refused
    | .ok none => .accepted

/-- **`install`** by the fate of the package. -/
theorem install_cases (sha256 : String → String) (m : Marketplace) (now : ℕ)
    (vault : SecretAnswers) (i : ℕ) :
    (m.fate sha256 vault i = .raised ∧ (∀ j, (m.install sha256 now vault i).1 ≠ .ok j) ∧
        (m.install sha256 now vault i).2 = m) ∨
      ∃ p, m.objects[i]? = some p ∧ (m.install sha256 now vault i).1 = .ok i ∧
        (m.install sha256 now vault i).2.store = m.store.map (·.putPackage p.packageId i) ∧
        ((m.fate sha256 vault i = .refused ∧
            (m.install sha256 now vault i).2.objects = m.objects.set i { p with status := .failed } ∧
            (m.install sha256 now vault i).2.installed = m.installed ∧
            (m.install sha256 now vault i).2.guard = m.guard) ∨
          (m.fate sha256 vault i = .accepted ∧
            (m.install sha256 now vault i).2.objects =
              m.objects.set i { p with status := .installed, installedAt := some now } ∧
            (m.install sha256 now vault i).2.installed = m.installed.insert p.packageId i ∧
            (m.install sha256 now vault i).2.guard = (m.registerPolicy p).guard)) := by
  unfold fate install
  cases hp : m.objects[i]? with
  | none => exact Or.inl ⟨rfl, by simp, rfl⟩
  | some p =>
    simp only
    cases hr : m.refusal sha256 vault p with
    | error x => exact Or.inl ⟨rfl, by simp, rfl⟩
    | ok reason =>
      right
      cases reason with
      | some reason => exact ⟨p, rfl, rfl, rfl, Or.inl ⟨rfl, rfl, rfl, rfl⟩⟩
      | none =>
        have hobjects : (m.registerPolicy p).objects = m.objects ∧
            (m.registerPolicy p).installed = m.installed ∧
            (m.registerPolicy p).store = m.store := by
          unfold registerPolicy
          cases p.policy with
          | none => exact ⟨rfl, rfl, rfl⟩
          | some policy => exact ⟨rfl, rfl, rfl⟩
        refine ⟨p, rfl, rfl, ?_, Or.inr ⟨rfl, ?_, ?_, rfl⟩⟩
        · show (m.registerPolicy p).store.map _ = _
          rw [hobjects.2.2]
        · show (m.registerPolicy p).objects.set _ _ = _
          rw [hobjects.1]
        · show (m.registerPolicy p).installed.insert _ _ = _
          rw [hobjects.2.1]

theorem shelf_of_store {s : MarketplaceStore} (h : m.store = some s) : m.shelf = s.packages := by
  unfold shelf
  rw [h]

theorem shelf_of_none (h : m.store = none) : m.shelf = m.installed := by
  unfold shelf
  rw [h]

end Marketplace

end Hermes

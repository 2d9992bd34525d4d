import Hermes.Lib.History

/-!
# Depth-first topological sort

`deps k` lists what `k` depends on, or is `none` when there is no node `k`. A
visit appends the dependencies of a node before the node itself. It fails when
it meets a node that is still being visited.

* `Sorted`: a list of distinct nodes, each after the nodes it depends on.
* `visit_ok`: what a visit that succeeds does to a sorted list.
* `sort_sorted`, `mem_sort`: the result of `sort` is sorted and holds the nodes
  it was started from.
* `sort_of_leaves`: nodes without dependencies keep their order.
* `sort_returns`: without cycles, every sort succeeds.
* `sort_returns_iff`: a sort of all nodes succeeds exactly when there is no cycle.
-/

namespace Toposort

open History

variable {κ : Type*} {deps : κ → Option (List κ)}

/-- Visit node `k`. `stack` holds the nodes being visited, `order` the finished
ones; the first argument bounds the depth. -/
def visit [DecidableEq κ] (deps : κ → Option (List κ)) : ℕ → List κ → List κ → κ → Except κ (List κ)
  | 0, _, _, k => .error k
  | n + 1, stack, order, k =>
    if k ∈ order then .ok order
    else if k ∈ stack then .error k
    else match deps k with
      | none => .ok order
      | some ds => (ds.foldlM (visit deps n (k :: stack)) order).map (· ++ [k])

/-- Visit the nodes `keys` in turn. A node under visit is one of them, so the
depth never exceeds their number. -/
def sort [DecidableEq κ] (deps : κ → Option (List κ)) (keys : List κ) : Except κ (List κ) :=
  keys.foldlM (visit deps (keys.length + 1) []) []

/-- Distinct nodes, each after everything it depends on. -/
def Sorted (deps : κ → Option (List κ)) (order : List κ) : Prop :=
  Always (fun h k => k ∉ h ∧ ∃ ds, deps k = some ds ∧ ∀ d ∈ ds, (deps d).isSome → d ∈ h) order

theorem sorted_nil : Sorted deps [] := always_nil

theorem Sorted.isSome {order : List κ} (h : Sorted deps order) {k : κ} (hk : k ∈ order) :
    (deps k).isSome := by
  obtain ⟨l, u, rfl⟩ := List.append_of_mem hk
  obtain ⟨-, ds, hds, -⟩ := always_iff_split.1 h l k u rfl
  simp [hds]

/-- What a successful visit of `ks` does to a list of finished nodes. -/
structure Visited (deps : κ → Option (List κ)) (stack ks order order' : List κ) : Prop where
  grows : order <+: order'
  sorted : Sorted deps order'
  mem : ∀ k ∈ ks, (deps k).isSome → k ∈ order'
  /-- Nodes under visit are not finished by it. -/
  fresh : ∀ x ∈ stack, x ∈ order' → x ∈ order

theorem Visited.trans {stack ks js o₁ o₂ o₃ : List κ} (h : Visited deps stack ks o₁ o₂)
    (h' : Visited deps stack js o₂ o₃) : Visited deps stack (ks ++ js) o₁ o₃ where
  grows := h.grows.trans h'.grows
  sorted := h'.sorted
  mem := by
    intro k hk hs
    rcases List.mem_append.1 hk with hk | hk
    · exact h'.grows.subset (h.mem k hk hs)
    · exact h'.mem k hk hs
  fresh := fun x hx hm => h.fresh x hx (h'.fresh x hx hm)

/-- A list of visits, given what each of them does. -/
theorem foldlM_visited {stack : List κ} {f : List κ → κ → Except κ (List κ)}
    (hf : ∀ o k o', Sorted deps o → f o k = .ok o' → Visited deps stack [k] o o') :
    ∀ (ks : List κ) o o', Sorted deps o → ks.foldlM f o = .ok o' → Visited deps stack ks o o' := by
  intro ks
  induction ks with
  | nil =>
    intro o o' ho h
    have : o = o' := by simpa [pure, Except.pure] using h
    subst this
    exact ⟨List.prefix_rfl, ho, by simp, fun _ _ h => h⟩
  | cons k ks ih =>
    intro o o' ho h
    rw [List.foldlM_cons] at h
    cases hk : f o k with
    | error e => rw [hk] at h; cases h
    | ok o₁ =>
      rw [hk] at h
      have h₁ := hf o k o₁ ho hk
      exact h₁.trans (ih o₁ o' h₁.sorted h)

theorem foldlM_returns {f : List κ → κ → Except κ (List κ)} {ks : List κ}
    (hf : ∀ o, ∀ k ∈ ks, ∃ o', f o k = .ok o') : ∀ o, ∃ o', ks.foldlM f o = .ok o' := by
  induction ks with
  | nil => intro o; exact ⟨o, rfl⟩
  | cons k ks ih =>
    intro o
    obtain ⟨o₁, ho₁⟩ := hf o k List.mem_cons_self
    rw [List.foldlM_cons, ho₁]
    exact ih (fun o j hj => hf o j (List.mem_cons_of_mem _ hj)) o₁

/-- `k` is a node that depends on `d`. -/
def Needs (deps : κ → Option (List κ)) (k d : κ) : Prop := ∃ ds, deps k = some ds ∧ d ∈ ds

/-- No node depends on itself, directly or over others. -/
def Acyclic (deps : κ → Option (List κ)) : Prop := ∀ k, ¬Relation.TransGen (Needs deps) k k

theorem acyclic_of_le {r : κ → κ → Prop} (h : ∀ k d, Needs deps k d → r k d)
    (hr : ∀ k, ¬Relation.TransGen r k k) : Acyclic deps :=
  fun k hk => hr k (Relation.TransGen.mono h k k hk)

variable [DecidableEq κ]

/-- **A successful visit keeps the list sorted and finishes the node.** -/
theorem visit_ok : ∀ n (stack o : List κ) k o', Sorted deps o →
    visit deps n stack o k = .ok o' → Visited deps stack [k] o o' := by
  intro n
  induction n with
  | zero => intro stack o k o' _ h; cases h
  | succ n ih =>
    intro stack o k o' ho h
    unfold visit at h
    split at h
    · rename_i hk
      cases h
      exact ⟨List.prefix_rfl, ho, by simpa using fun _ => hk, fun _ _ h => h⟩
    rename_i hko
    split at h
    · cases h
    rename_i hks
    split at h
    · rename_i hd
      cases h
      exact ⟨List.prefix_rfl, ho, by simp [hd], fun _ _ h => h⟩
    rename_i ds hd
    -- the dependencies are visited with `k` itself on the stack
    cases hf : ds.foldlM (visit deps n (k :: stack)) o with
    | error e => rw [hf] at h; cases h
    | ok o₁ =>
      rw [hf] at h
      cases h
      have hv := foldlM_visited (fun o j o' => ih _ o j o') ds o o₁ ho hf
      have hk : k ∉ o₁ := fun hm => hko (hv.fresh k List.mem_cons_self hm)
      refine ⟨hv.grows.trans (List.prefix_append _ _), ?_, by simp, ?_⟩
      · exact always_snoc.2 ⟨hv.sorted, hk, ds, hd, hv.mem⟩
      · intro x hx hm
        rcases List.mem_append.1 hm with hm | hm
        · exact hv.fresh x (List.mem_cons_of_mem _ hx) hm
        · rw [List.mem_singleton] at hm
          exact absurd (hm ▸ hx) hks

theorem sort_visited {keys order : List κ} (h : sort deps keys = .ok order) :
    Visited deps [] keys [] order :=
  foldlM_visited (fun o k o' => visit_ok _ [] o k o') keys [] order sorted_nil h

/-- **The result is sorted.** -/
theorem sort_sorted {keys order : List κ} (h : sort deps keys = .ok order) : Sorted deps order :=
  (sort_visited h).sorted

/-- **The result holds every node it was started from.** -/
theorem mem_sort {keys order : List κ} (h : sort deps keys = .ok order) {k : κ} (hk : k ∈ keys)
    (hs : (deps k).isSome) : k ∈ order := (sort_visited h).mem k hk hs

theorem visit_leaf {k : κ} (hk : deps k = some []) (n : ℕ) {o : List κ} (ho : k ∉ o) :
    visit deps (n + 1) [] o k = .ok (o ++ [k]) := by
  unfold visit
  rw [if_neg ho, if_neg List.not_mem_nil, hk]
  rfl

/-- **Nodes without dependencies keep their order.** -/
theorem sort_of_leaves {keys : List κ} (hleaf : ∀ k ∈ keys, deps k = some []) (hd : keys.Nodup) :
    sort deps keys = .ok keys := by
  have key : ∀ n (ks o : List κ), (∀ k ∈ ks, deps k = some []) → (o ++ ks).Nodup →
      ks.foldlM (visit deps (n + 1) []) o = .ok (o ++ ks) := by
    intro n ks
    induction ks with
    | nil => intro o _ _; rw [List.append_nil]; rfl
    | cons k ks ih =>
      intro o hks hn
      have hfresh : k ∉ o := fun hm => List.disjoint_of_nodup_append hn hm List.mem_cons_self
      rw [List.foldlM_cons, visit_leaf (hks k List.mem_cons_self) n hfresh]
      rw [List.append_cons] at hn
      have hrest := ih _ (fun j hj => hks j (List.mem_cons_of_mem _ hj)) hn
      rwa [← List.append_cons] at hrest
  exact key _ keys [] hleaf hd

/-! ## Graphs without cycles -/

/-- **Without cycles a visit succeeds**: the nodes under visit lead to the one that is visited, so
it is not among them, and they are too few to use up the bound. -/
theorem visit_returns {keys : List κ} (hkeys : ∀ k, (deps k).isSome → k ∈ keys)
    (hacyclic : Acyclic deps) : ∀ n (stack o : List κ) k,
      stack.Nodup → (∀ x ∈ stack, (deps x).isSome ∧ Relation.TransGen (Needs deps) x k) →
      keys.length < n + stack.length → ∃ o', visit deps n stack o k = .ok o' := by
  intro n
  induction n with
  | zero =>
    intro stack o k hnodup hstack hlen
    have hsub : stack ⊆ keys := fun x hx => hkeys x (hstack x hx).1
    have hle := (List.subperm_of_subset hnodup hsub).length_le
    omega
  | succ n ih =>
    intro stack o k hnodup hstack hlen
    have hk : k ∉ stack := fun hk => hacyclic k (hstack k hk).2
    unfold visit
    by_cases ho : k ∈ o
    · exact ⟨o, if_pos ho⟩
    rw [if_neg ho, if_neg hk]
    cases hds : deps k with
    | none => exact ⟨o, rfl⟩
    | some ds =>
      have hdeps : ∀ o, ∀ d ∈ ds, ∃ o', visit deps n (k :: stack) o d = .ok o' := by
        intro o d hd
        have hkd : Needs deps k d := ⟨ds, hds, hd⟩
        refine ih (k :: stack) o d (List.nodup_cons.2 ⟨hk, hnodup⟩) (fun x hx => ?_) ?_
        · rcases List.mem_cons.1 hx with rfl | hx
          · exact ⟨by rw [hds]; rfl, .single hkd⟩
          · obtain ⟨hsome, hpath⟩ := hstack x hx
            exact ⟨hsome, hpath.tail hkd⟩
        · rw [List.length_cons]
          omega
      obtain ⟨o', ho'⟩ := foldlM_returns hdeps o
      exact ⟨o' ++ [k], by simp only [ho']; rfl⟩

/-- **Without cycles every sort succeeds.** -/
theorem sort_returns {keys : List κ} (hkeys : ∀ k, (deps k).isSome → k ∈ keys)
    (hacyclic : Acyclic deps) : ∃ order, sort deps keys = .ok order := by
  refine foldlM_returns (fun o k _ => ?_) []
  refine visit_returns hkeys hacyclic (keys.length + 1) [] o k List.nodup_nil ?_ ?_
  · exact fun x hx => absurd hx List.not_mem_nil
  · rw [List.length_nil]
    omega

/-! ## Graphs with cycles -/

/-- In a sorted list, what a node depends on stands before it. -/
theorem Sorted.idxOf_lt {order : List κ} (h : Sorted deps order) {k d : κ} (hk : k ∈ order)
    (hkd : Needs deps k d) (hd : (deps d).isSome) : order.idxOf d < order.idxOf k := by
  have hlt : order.idxOf k < order.length := List.idxOf_lt_length_iff.2 hk
  obtain ⟨-, ds, hds, hbefore⟩ := h (order.idxOf k) hlt
  rw [List.getElem_idxOf hlt] at hds
  obtain ⟨ds', hds', hmem⟩ := hkd
  rw [hds] at hds'
  cases hds'
  have hin : d ∈ order.take (order.idxOf k) := hbefore d hmem hd
  have hle : order.idxOf d ≤ (order.take (order.idxOf k)).idxOf d := by
    conv_lhs => rw [← List.take_append_drop (order.idxOf k) order]
    rw [List.idxOf_append_of_mem hin]
  have hshort := List.idxOf_lt_length_iff.2 hin
  rw [List.length_take] at hshort
  omega

/-- **All nodes sorted**: there is no cycle. -/
theorem Sorted.acyclic {order : List κ} (h : Sorted deps order)
    (hall : ∀ k, (deps k).isSome → k ∈ order) : Acyclic deps := by
  have hnode : ∀ {k d}, Needs deps k d → (deps k).isSome := by
    rintro k d ⟨ds, hds, -⟩
    rw [hds]
    rfl
  have hfirst : ∀ {k d}, Relation.TransGen (Needs deps) k d → (deps k).isSome := by
    intro k d hkd
    induction hkd with
    | single hkd => exact hnode hkd
    | tail _ _ ih => exact ih
  intro k hk
  have hdown : ∀ d, Relation.TransGen (Needs deps) k d → (deps d).isSome →
      order.idxOf d < order.idxOf k := by
    intro d hkd
    induction hkd with
    | single hkd => exact fun hd => h.idxOf_lt (hall k (hfirst hk)) hkd hd
    | tail _ hmd ih =>
      intro hd
      have hm := hnode hmd
      exact (h.idxOf_lt (hall _ hm) hmd hd).trans (ih hm)
  exact lt_irrefl _ (hdown k hk (hfirst hk))

/-- **A sort of all nodes succeeds** exactly when there is no cycle. -/
theorem sort_returns_iff {keys : List κ} (hkeys : ∀ k, (deps k).isSome → k ∈ keys) :
    (∃ order, sort deps keys = .ok order) ↔ Acyclic deps := by
  refine ⟨?_, sort_returns hkeys⟩
  rintro ⟨order, horder⟩
  exact (sort_sorted horder).acyclic fun k hk => mem_sort horder (hkeys k hk) hk

end Toposort

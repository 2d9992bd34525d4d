import Mathlib.Logic.Function.Basic
import Mathlib.Tactic
import Mathlib.Data.List.Flatten
import Mathlib.Logic.Relation

/-!
# Closed tables

A table has members under keys, and each member needs some keys. The table is closed when every
key that a member needs is in the table, or given otherwise.

* `closed_update`: what a member that is put in has to need.
* `closed_remove`: what the members that stay may not need.
* `Closed.shrink`: keys that are given may leave the table.
-/

namespace Closure

variable {κ ι : Type*} {L : κ → Option ι} {D : ι → List κ} {C : κ → Prop}

/-- Every key that a member needs is in the table, or given. -/
def Closed (L : κ → Option ι) (D : ι → List κ) (C : κ → Prop) : Prop :=
  ∀ x i, L x = some i → ∀ d ∈ D i, (L d).isSome ∨ C d

/-- No member under another key needs `x`. -/
def Unneeded (L : κ → Option ι) (D : ι → List κ) (x : κ) : Prop :=
  ∀ y i, y ≠ x → L y = some i → x ∉ D i

/-- Only the needs of the members matter. -/
theorem closed_congr {D' : ι → List κ} (h : ∀ x i, L x = some i → D' i = D i) :
    Closed L D' C ↔ Closed L D C := by
  unfold Closed
  refine forall₂_congr fun x i => forall_congr' fun hi => ?_
  rw [h x i hi]

/-- Keys that are given may leave the table, when no other ones do. -/
theorem Closed.shrink {L' : κ → Option ι} {C' : κ → Prop} (h : Closed L D C)
    (hL : ∀ x i, L' x = some i → L x = some i) (hC : ∀ x, C x → C' x)
    (hgone : ∀ x, (L x).isSome → (L' x).isSome ∨ C' x) : Closed L' D C' := by
  intro x i hi d hd
  rcases h x i (hL x i hi) d hd with hsome | hgiven
  · exact hgone d hsome
  · exact .inr (hC d hgiven)

variable [DecidableEq κ]

/-- **A member is put in**: what it needs is there, or is its own key. -/
theorem closed_update (h : Closed L D C) (x : κ) (i : ι) :
    Closed (Function.update L x (some i)) D C ↔ ∀ d ∈ D i, d = x ∨ (L d).isSome ∨ C d := by
  have hsome : ∀ d, (Function.update L x (some i) d).isSome ↔ d = x ∨ (L d).isSome := by
    intro d
    rw [Function.update_apply]
    by_cases hd : d = x <;> simp [hd]
  unfold Closed
  simp only [hsome, or_assoc]
  constructor
  · intro hall
    exact hall x i (Function.update_self ..)
  · intro hnew y j hj d hd
    by_cases hy : y = x
    · rw [hy, Function.update_self] at hj
      exact hnew d (Option.some.inj hj ▸ hd)
    · rw [Function.update_of_ne hy] at hj
      exact .inr (h y j hj d hd)

/-- **A member is removed**: it is given, or no other one needs it. -/
theorem closed_remove (h : Closed L D C) (x : κ) :
    Closed (Function.update L x none) D C ↔ C x ∨ Unneeded L D x := by
  constructor
  · intro hall
    by_contra hno
    rw [not_or] at hno
    obtain ⟨hgiven, hneeded⟩ := hno
    refine hneeded fun y i hy hi hd => ?_
    have hstays : Function.update L x none y = some i := by rw [Function.update_of_ne hy, hi]
    rcases hall y i hstays x hd with hsome | hgiven'
    · rw [Function.update_self] at hsome
      cases hsome
    · exact hgiven hgiven'
  · intro hor y i hi d hd
    have hy : y ≠ x := by
      rintro rfl
      rw [Function.update_self] at hi
      cases hi
    rw [Function.update_of_ne hy] at hi
    by_cases hdx : d = x
    · rcases hor with hgiven | hneeded
      · exact .inr (hdx ▸ hgiven)
      · exact absurd (hdx ▸ hd) (hneeded y i hy hi)
    · rw [Function.update_of_ne hdx]
      exact h y i hi d hd

end Closure

/-!
## Dependency graphs as lists

A graph is the list of its nodes, each with the nodes that it depends on.

* `WellFormed`: distinct nodes, dependencies on nodes, and no cycle.
* `split`: a node is replaced by two, the second of which depends on the first and
  on what the node depends on.
* `dependsOn_split`: what depends in the new graph does so in the old one, with the
  halves put together.
* `wellFormed_split_iff`: the new graph is well-formed exactly when nothing depends
  on the node and the names of the halves are not in use.
-/


namespace Dag

open Relation

variable {κ : Type*}

def nodes (g : List (κ × List κ)) : List κ := g.map Prod.fst

/-- `k` depends on `d`. -/
def Edge (g : List (κ × List κ)) (k d : κ) : Prop := ∃ ds, (k, ds) ∈ g ∧ d ∈ ds

/-- `k` depends on `d`, directly or over others. -/
def DependsOn (g : List (κ × List κ)) : κ → κ → Prop := TransGen (Edge g)

structure WellFormed (g : List (κ × List κ)) : Prop where
  nodup : (nodes g).Nodup
  named : ∀ k d, Edge g k d → d ∈ nodes g
  acyclic : ∀ k, ¬DependsOn g k k

theorem Edge.mem_nodes {g : List (κ × List κ)} {k d : κ} (h : Edge g k d) : k ∈ nodes g := by
  obtain ⟨ds, hmem, -⟩ := h
  exact List.mem_map_of_mem hmem

/-- No cycle: each node is above those that it depends on. -/
theorem acyclic_of_rank {g : List (κ × List κ)} (rank : κ → ℕ)
    (h : ∀ k d, Edge g k d → rank d < rank k) (k : κ) : ¬DependsOn g k k := by
  have hlt : ∀ {k d}, DependsOn g k d → rank d < rank k := by
    intro k d hkd
    induction hkd with
    | single hkd => exact h _ _ hkd
    | tail _ hmd ih => exact (h _ _ hmd).trans ih
  exact fun hk => lt_irrefl _ (hlt hk)

/-- What no node depends on, none does over others. -/
theorem not_dependsOn {g : List (κ × List κ)} {f : κ} (h : ∀ k, ¬Edge g k f) (k : κ) :
    ¬DependsOn g k f := by
  intro hk
  cases hk with
  | single hkf => exact h _ hkf
  | tail _ hmf => exact h _ hmf

variable [DecidableEq κ] {f a b : κ} {g : List (κ × List κ)}

/-- Node `f` is replaced by `a` and `b`. -/
def split (f a b : κ) (g : List (κ × List κ)) : List (κ × List κ) :=
  g.flatMap fun e => if e.1 = f then [(a, e.2), (b, e.2 ++ [a])] else [e]

theorem split_of_not_mem (hf : f ∉ nodes g) : split f a b g = g := by
  have hsame : ∀ e ∈ g, (if e.1 = f then [(a, e.2), (b, e.2 ++ [a])] else [e]) = [e] := by
    intro e he
    refine if_neg fun h => hf ?_
    exact h ▸ List.mem_map_of_mem he
  unfold split
  rw [List.flatMap_congr hsame, List.flatMap_singleton']

/-- **The nodes around a node that is split.** -/
theorem nodes_split (hg : (nodes g).Nodup) (hf : f ∈ nodes g) :
    ∃ l r, nodes g = l ++ f :: r ∧ nodes (split f a b g) = l ++ a :: b :: r := by
  obtain ⟨e, he, rfl⟩ := List.mem_map.1 hf
  obtain ⟨l, r, rfl⟩ := List.append_of_mem he
  unfold nodes at hg ⊢
  rw [List.map_append, List.map_cons, List.nodup_append, List.nodup_cons] at hg
  obtain ⟨-, ⟨hr, -⟩, hl⟩ := hg
  have hl' : e.1 ∉ nodes l := fun h => hl _ h _ List.mem_cons_self rfl
  refine ⟨l.map Prod.fst, r.map Prod.fst, by rw [List.map_append, List.map_cons], ?_⟩
  have hsplit : split e.1 a b (l ++ e :: r) =
      split e.1 a b l ++ ((a, e.2) :: (b, e.2 ++ [a]) :: split e.1 a b r) := by
    unfold split
    rw [List.flatMap_append, List.flatMap_cons, if_pos rfl]
    rfl
  rw [hsplit, split_of_not_mem hl', split_of_not_mem hr, List.map_append, List.map_cons,
    List.map_cons]

/-- **What a node of the new graph depends on.** -/
theorem edge_split {k d : κ} (h : Edge (split f a b g) k d) :
    (k ≠ f ∧ Edge g k d) ∨ (k = a ∧ Edge g f d) ∨ (k = b ∧ (Edge g f d ∨ d = a)) := by
  obtain ⟨ds, hmem, hd⟩ := h
  obtain ⟨e, he, hes⟩ := List.mem_flatMap.1 hmem
  split at hes
  · rename_i hef
    have hold : (f, e.2) ∈ g := hef ▸ he
    simp only [List.mem_cons, List.not_mem_nil, or_false, Prod.mk.injEq] at hes
    rcases hes with ⟨rfl, rfl⟩ | ⟨rfl, rfl⟩
    · exact .inr (.inl ⟨rfl, e.2, hold, hd⟩)
    · rcases List.mem_append.1 hd with hd | hd
      · exact .inr (.inr ⟨rfl, .inl ⟨e.2, hold, hd⟩⟩)
      · exact .inr (.inr ⟨rfl, .inr (List.mem_singleton.1 hd)⟩)
  · rename_i hef
    rw [List.mem_singleton] at hes
    subst hes
    exact .inl ⟨hef, ds, he, hd⟩

/-- The nodes that are kept depend on what they depended on. -/
theorem edge_split_of_ne {k d : κ} (hk : k ≠ f) (h : Edge g k d) : Edge (split f a b g) k d := by
  obtain ⟨ds, hmem, hd⟩ := h
  refine ⟨ds, List.mem_flatMap.2 ⟨(k, ds), hmem, ?_⟩, hd⟩
  rw [if_neg hk]
  exact List.mem_singleton.2 rfl

/-- The node that a node of the new graph stands for. -/
def whole (f a b k : κ) : κ := if k = a ∨ k = b then f else k

theorem whole_of_mem (ha : a ∉ nodes g) (hb : b ∉ nodes g) {k : κ} (hk : k ∈ nodes g) :
    whole f a b k = k := by
  refine if_neg ?_
  rintro (rfl | rfl)
  · exact ha hk
  · exact hb hk

/-- **What depends in the new graph** does so in the old one, but for the step between the
halves. -/
theorem dependsOn_split (hg : WellFormed g) (ha : a ∉ nodes g) (hb : b ∉ nodes g) {k d : κ}
    (h : DependsOn (split f a b g) k d) :
    DependsOn g (whole f a b k) (whole f a b d) ∨ (k = b ∧ d = a) := by
  have hwa : whole f a b a = f := if_pos (.inl rfl)
  have hwb : whole f a b b = f := if_pos (.inr rfl)
  have hold : ∀ {k d}, Edge g k d → Edge g k (whole f a b d) := by
    intro k d hkd
    rwa [whole_of_mem ha hb (hg.named k d hkd)]
  -- one step
  have hstep : ∀ {k d}, Edge (split f a b g) k d →
      Edge g (whole f a b k) (whole f a b d) ∨ (k = b ∧ d = a) := by
    intro k d hnew
    rcases edge_split hnew with ⟨-, hkd⟩ | ⟨rfl, hfd⟩ | ⟨rfl, hfd | rfl⟩
    · left
      rw [whole_of_mem ha hb hkd.mem_nodes]
      exact hold hkd
    · left
      rw [hwa]
      exact hold hfd
    · left
      rw [hwb]
      exact hold hfd
    · exact .inr ⟨rfl, rfl⟩
  -- the step between the halves is no step in the old graph, and `a` does not lead back to `b`
  induction h with
  | single hkd =>
    rcases hstep hkd with hkd | hkd
    · exact .inl (.single hkd)
    · exact .inr hkd
  | tail _ hmd ih =>
    rcases ih with hkm | ⟨rfl, rfl⟩
    · rcases hstep hmd with hmd | ⟨rfl, rfl⟩
      · exact .inl (hkm.tail hmd)
      · rw [hwa]
        rw [hwb] at hkm
        exact .inl hkm
    · rcases hstep hmd with hmd | ⟨rfl, rfl⟩
      · rw [hwa] at hmd
        rw [hwb]
        exact .inl (.single hmd)
      · exact .inr ⟨rfl, rfl⟩

/-- The nodes of the new graph. -/
theorem mem_nodes_split {k : κ} (hnodup : (nodes g).Nodup) (hf : f ∈ nodes g) :
    k ∈ nodes (split f a b g) ↔ k = a ∨ k = b ∨ k ∈ nodes g ∧ k ≠ f := by
  obtain ⟨l, r, hnodes, hsplit⟩ := nodes_split (a := a) (b := b) hnodup hf
  rw [hnodes, List.nodup_append, List.nodup_cons] at hnodup
  obtain ⟨-, ⟨hfr, -⟩, hlr⟩ := hnodup
  rw [hsplit, hnodes]
  simp only [List.mem_append, List.mem_cons]
  constructor
  · rintro (h | h | h | h)
    · exact .inr (.inr ⟨.inl h, fun heq => hlr k h f List.mem_cons_self heq⟩)
    · exact .inl h
    · exact .inr (.inl h)
    · exact .inr (.inr ⟨.inr (.inr h), fun heq => hfr (heq ▸ h)⟩)
  · rintro (h | h | ⟨h | h | h, hne⟩)
    · exact .inr (.inl h)
    · exact .inr (.inr (.inl h))
    · exact .inl h
    · exact absurd h hne
    · exact .inr (.inr (.inr h))

/-- **The names are distinct** exactly when those of the halves are not in use. -/
theorem nodup_nodes_split_iff (hnodup : (nodes g).Nodup) (hf : f ∈ nodes g) (hab : a ≠ b)
    (haf : a ≠ f) (hbf : b ≠ f) :
    (nodes (split f a b g)).Nodup ↔ a ∉ nodes g ∧ b ∉ nodes g := by
  obtain ⟨l, r, hnodes, hsplit⟩ := nodes_split (a := a) (b := b) hnodup hf
  rw [hnodes, List.nodup_append, List.nodup_cons] at hnodup
  obtain ⟨hl, ⟨hfr, hr⟩, hlr⟩ := hnodup
  rw [hsplit, hnodes, List.nodup_append, List.nodup_cons, List.nodup_cons]
  simp only [List.mem_append, List.mem_cons, not_or]
  constructor
  · rintro ⟨-, ⟨⟨-, har⟩, hbr, -⟩, hdisj⟩
    exact ⟨⟨fun h => hdisj a h a (.inl rfl) rfl, haf, har⟩,
      fun h => hdisj b h b (.inr (.inl rfl)) rfl, hbf, hbr⟩
  · rintro ⟨⟨hal, -, har⟩, hbl, -, hbr⟩
    refine ⟨hl, ⟨⟨hab, har⟩, hbr, hr⟩, ?_⟩
    rintro x hx y (rfl | rfl | hy) rfl
    · exact hal hx
    · exact hbl hx
    · exact hlr x hx x (List.mem_cons_of_mem _ hy) rfl

/-- **Splitting a node** of a well-formed graph gives one exactly when nothing depends on the node
and the names of its halves are not in use. -/
theorem wellFormed_split_iff (hg : WellFormed g) (hf : f ∈ nodes g) (hab : a ≠ b) (haf : a ≠ f)
    (hbf : b ≠ f) : WellFormed (split f a b g) ↔
      (∀ k, ¬Edge g k f) ∧ a ∉ nodes g ∧ b ∉ nodes g := by
  constructor
  · intro hs
    refine ⟨fun k hk => ?_, (nodup_nodes_split_iff hg.nodup hf hab haf hbf).1 hs.nodup⟩
    -- a node that depends on `f` is kept, and `f` is gone
    have hkf : k ≠ f := by
      rintro rfl
      exact hg.acyclic k (.single hk)
    have hgone := hs.named k f (edge_split_of_ne hkf hk)
    rcases (mem_nodes_split hg.nodup hf).1 hgone with h | h | ⟨-, h⟩
    · exact haf h.symm
    · exact hbf h.symm
    · exact h rfl
  · rintro ⟨hnone, ha, hb⟩
    refine ⟨(nodup_nodes_split_iff hg.nodup hf hab haf hbf).2 ⟨ha, hb⟩, ?_, ?_⟩
    · -- what is depended on was a node before, and is not the one that is gone
      intro k d hnew
      have hnamed : ∀ {k}, Edge g k d → d ∈ nodes (split f a b g) := by
        intro k hkd
        have hdf : d ≠ f := fun h => hnone k (h ▸ hkd)
        exact (mem_nodes_split hg.nodup hf).2 (.inr (.inr ⟨hg.named k d hkd, hdf⟩))
      rcases edge_split hnew with ⟨-, hkd⟩ | ⟨-, hkd⟩ | ⟨-, hkd | rfl⟩
      · exact hnamed hkd
      · exact hnamed hkd
      · exact hnamed hkd
      · exact (mem_nodes_split hg.nodup hf).2 (.inl rfl)
    · -- a cycle would be one in the old graph
      intro k hk
      rcases dependsOn_split hg ha hb hk with hcycle | ⟨rfl, hba⟩
      · exact hg.acyclic _ hcycle
      · exact hab hba.symm

end Dag

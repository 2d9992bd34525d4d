import Hermes.Lib.Dict
import Hermes.Lib.History

/-!
# Breadth-first search

`next k` lists the neighbours of a node, each with the edge that leads to it. The
search keeps a queue, the nodes it has seen, and for each of these but the first the
node and the edge it was found by.

* `Reaches`: there is a way from one node to another.
* `Way`: the edges of a way.
* `mem_seen_run`: the search sees the goal exactly when the start reaches it.
* `back_way`: from each node seen, the way back to the start is a way from it.
-/

namespace Search

open History

variable {κ ε : Type*} {next : κ → List (κ × ε)} {start goal : κ}

/-- There is a way from one node to the other. -/
def Reaches (next : κ → List (κ × ε)) : κ → κ → Prop :=
  Relation.ReflTransGen fun a b => ∃ e, (b, e) ∈ next a

/-- The edges lead from one node to the other. -/
inductive Way (next : κ → List (κ × ε)) (start : κ) : κ → List ε → Prop where
  | nil : Way next start start []
  | snoc {a b : κ} {es : List ε} {e : ε} :
    Way next start a es → (b, e) ∈ next a → Way next start b (es ++ [e])

theorem Way.reaches {k : κ} {es : List ε} (h : Way next start k es) : Reaches next start k := by
  induction h with
  | nil => exact .refl
  | snoc _ he ih => exact ih.tail ⟨_, he⟩

structure State (κ ε : Type*) where
  queue : List κ
  seen : List κ
  prev : Dict κ (κ × ε) := ∅

variable [DecidableEq κ]

/-- A neighbour of `cur` that was not seen yet goes into the queue. -/
def look (cur : κ) (s : State κ ε) (n : κ × ε) : State κ ε :=
  if n.1 ∈ s.seen then s
  else
    { queue := s.queue ++ [n.1]
      seen := n.1 :: s.seen
      prev := s.prev.insert n.1 (cur, n.2) }

/-- The search, for at most the given number of rounds. -/
def run (next : κ → List (κ × ε)) (goal : κ) : ℕ → State κ ε → State κ ε
  | 0, s => s
  | n + 1, s =>
    match s.queue with
    | [] => s
    | cur :: queue =>
      if cur = goal then { s with queue }
      else run next goal n ((next cur).foldl (look cur) { s with queue })

/-- The edges by which a node was found, from the start on. -/
def back (prev : Dict κ (κ × ε)) (start : κ) : ℕ → κ → Option (List ε)
  | 0, _ => none
  | n + 1, k =>
    if k = start then some []
    else match prev.get? k with
      | none => none
      | some (p, e) => (back prev start n p).map (· ++ [e])

/-! ## What the search keeps -/

/-- What holds between two rounds, and while the neighbours of a node are looked at. -/
structure Found (next : κ → List (κ × ε)) (start : κ) (s : State κ ε) : Prop where
  origin : start ∈ s.seen
  queued : ∀ k ∈ s.queue, k ∈ s.seen
  distinct : s.queue.Nodup
  reached : ∀ k ∈ s.seen, Reaches next start k
  /-- Every node that was seen, but the start, has the node and the edge it was found by. -/
  entry : ∀ k, k ∈ s.prev.keys ↔ k ∈ s.seen ∧ k ≠ start
  /-- It was found from the start, or from a node that was found before. -/
  order : Always (fun h x => (x.2.1 = start ∨ x.2.1 ∈ h.map Prod.fst) ∧ (x.1, x.2.2) ∈ next x.2.1)
    s.prev.entries

omit [DecidableEq κ] in
theorem found_start : Found next start ({ queue := [start], seen := [start] } : State κ ε) where
  origin := List.mem_singleton_self _
  queued k hk := hk
  distinct := List.nodup_singleton _
  reached k hk := by
    rw [List.mem_singleton.1 hk]
    exact .refl
  entry k := by
    refine iff_of_false List.not_mem_nil ?_
    rintro ⟨hk, hne⟩
    exact hne (List.mem_singleton.1 hk)
  order := always_nil

variable {s : State κ ε} {cur : κ}

omit [DecidableEq κ] in
/-- A node leaves the queue. -/
theorem Found.pop (h : Found next start s) {queue : List κ} (hq : s.queue = cur :: queue) :
    Found next start { s with queue } where
  origin := h.origin
  queued k hk := h.queued k (by rw [hq]; exact List.mem_cons_of_mem _ hk)
  distinct := by
    have hnodup := h.distinct
    rw [hq, List.nodup_cons] at hnodup
    exact hnodup.2
  reached := h.reached
  entry := h.entry
  order := h.order

theorem mem_seen_look {n : κ × ε} {k : κ} : k ∈ (look cur s n).seen ↔ k = n.1 ∨ k ∈ s.seen := by
  unfold look
  split
  · rename_i hseen
    constructor
    · exact Or.inr
    · rintro (rfl | hk)
      · exact hseen
      · exact hk
  · exact List.mem_cons

theorem Found.look (h : Found next start s) (hcur : cur ∈ s.seen) {n : κ × ε}
    (hn : n ∈ next cur) : Found next start (look cur s n) := by
  unfold Search.look
  split
  · exact h
  · rename_i hnew
    have hne : n.1 ≠ start := by
      intro heq
      exact hnew (heq ▸ h.origin)
    have hkey : n.1 ∉ s.prev.keys := fun hk => hnew ((h.entry n.1).1 hk).1
    have hentries := Dict.entries_insert_of_not_mem hkey (cur, n.2)
    refine ⟨List.mem_cons_of_mem _ h.origin, fun k hk => ?_, ?_, fun k hk => ?_, fun k => ?_, ?_⟩
    · rcases List.mem_append.1 hk with hk | hk
      · exact List.mem_cons_of_mem _ (h.queued k hk)
      · rw [List.mem_singleton.1 hk]
        exact List.mem_cons_self
    · refine h.distinct.append (List.nodup_singleton _) (List.disjoint_singleton.2 fun hq => ?_)
      exact hnew (h.queued _ hq)
    · rcases List.mem_cons.1 hk with rfl | hk
      · exact (h.reached cur hcur).tail ⟨n.2, hn⟩
      · exact h.reached k hk
    · have hkeys : (s.prev.insert n.1 (cur, n.2)).keys = s.prev.keys ++ [n.1] := by
        unfold Dict.keys
        rw [hentries, List.map_append]
        rfl
      show k ∈ (s.prev.insert n.1 (cur, n.2)).keys ↔ k ∈ n.1 :: s.seen ∧ k ≠ start
      rw [hkeys, List.mem_append, List.mem_singleton, List.mem_cons, h.entry]
      constructor
      · rintro (⟨hk, hks⟩ | rfl)
        · exact ⟨Or.inr hk, hks⟩
        · exact ⟨Or.inl rfl, hne⟩
      · rintro ⟨rfl | hk, hks⟩
        · exact Or.inr rfl
        · exact Or.inl ⟨hk, hks⟩
    · show Always _ (s.prev.insert n.1 (cur, n.2)).entries
      rw [hentries]
      refine always_snoc.2 ⟨h.order, ?_, hn⟩
      by_cases hstart : cur = start
      · exact Or.inl hstart
      · exact Or.inr ((h.entry cur).2 ⟨hcur, hstart⟩)

/-- The neighbours of a node, one after the other. -/
theorem Found.looks {ns : List (κ × ε)} (hns : ∀ n ∈ ns, n ∈ next cur) :
    ∀ {s : State κ ε}, Found next start s → cur ∈ s.seen → Found next start (ns.foldl (Search.look cur) s) := by
  induction ns with
  | nil => intro s h _; exact h
  | cons n ns ih =>
    intro s h hcur
    have hlook := h.look hcur (hns n List.mem_cons_self)
    refine ih (fun n hn => hns n (List.mem_cons_of_mem _ hn)) hlook ?_
    exact mem_seen_look.2 (Or.inr hcur)

theorem mem_seen_looks {ns : List (κ × ε)} {k : κ} : ∀ {s : State κ ε},
    k ∈ (ns.foldl (look cur) s).seen ↔ k ∈ ns.map Prod.fst ∨ k ∈ s.seen := by
  induction ns with
  | nil => intro s; simp
  | cons n ns ih =>
    intro s
    rw [List.foldl_cons, ih, mem_seen_look, List.map_cons, List.mem_cons]
    tauto

/-- The nodes seen that are not in the queue any more have all their neighbours seen. -/
def Closed (next : κ → List (κ × ε)) (s : State κ ε) : Prop :=
  ∀ k ∈ s.seen, k ∉ s.queue → ∀ n ∈ next k, n.1 ∈ s.seen

theorem not_mem_queue_look {n : κ × ε} {k : κ} (hk : k ∈ (look cur s n).seen)
    (hq : k ∉ (look cur s n).queue) : k ∈ s.seen ∧ k ∉ s.queue := by
  unfold look at hk hq
  split at hk
  · rename_i hseen
    rw [if_pos hseen] at hq
    exact ⟨hk, hq⟩
  · rename_i hnew
    rw [if_neg hnew, List.mem_append, List.mem_singleton, not_or] at hq
    rcases List.mem_cons.1 hk with hk | hk
    · exact absurd hk hq.2
    · exact ⟨hk, hq.1⟩

theorem not_mem_queue_looks {ns : List (κ × ε)} {k : κ} : ∀ {s : State κ ε},
    k ∈ (ns.foldl (look cur) s).seen → k ∉ (ns.foldl (look cur) s).queue →
      k ∈ s.seen ∧ k ∉ s.queue := by
  induction ns with
  | nil => intro s hk hq; exact ⟨hk, hq⟩
  | cons n ns ih =>
    intro s hk hq
    obtain ⟨hk', hq'⟩ := ih hk hq
    exact not_mem_queue_look hk' hq'

/-- **One round** closes the node that it takes from the queue. -/
theorem Closed.round (h : Closed next s) {queue : List κ} (hq : s.queue = cur :: queue) :
    Closed next ((next cur).foldl (look cur) { s with queue }) := by
  intro k hk hnq n hn
  obtain ⟨hseen, hqueue⟩ := not_mem_queue_looks hk hnq
  refine mem_seen_looks.2 ?_
  by_cases hcur : k = cur
  · rw [hcur] at hn
    exact Or.inl (List.mem_map_of_mem hn)
  · refine Or.inr (h k hseen ?_ n hn)
    rw [hq, List.mem_cons, not_or]
    exact ⟨hcur, hqueue⟩

/-! ## Enough rounds -/

/-- How many rounds are left at most: the queue, and the nodes that are not seen yet. -/
def remaining (nodes : List κ) (s : State κ ε) : ℕ :=
  (nodes.filter (· ∉ s.seen)).length + s.queue.length

theorem remaining_look {nodes : List κ} {n : κ × ε} (hn : n.1 ∈ nodes) :
    remaining nodes (look cur s n) ≤ remaining nodes s := by
  unfold look
  split
  · exact le_rfl
  · rename_i hnew
    unfold remaining
    simp only [List.length_append, List.length_singleton]
    -- the node is not among the unseen ones any more
    have hfewer : (nodes.filter (· ∉ n.1 :: s.seen)).length < (nodes.filter (· ∉ s.seen)).length := by
      have hsub : (nodes.filter (· ∉ n.1 :: s.seen)).Sublist (nodes.filter (· ∉ s.seen)) := by
        refine List.monotone_filter_right nodes fun k hk => ?_
        rw [decide_eq_true_eq, List.mem_cons, not_or] at hk
        exact decide_eq_true hk.2
      refine lt_of_le_of_ne hsub.length_le fun hlen => ?_
      have hmem : n.1 ∈ nodes.filter (· ∉ s.seen) := List.mem_filter.2 ⟨hn, decide_eq_true hnew⟩
      rw [← hsub.eq_of_length hlen] at hmem
      have hout := (List.mem_filter.1 hmem).2
      rw [decide_eq_true_eq] at hout
      exact hout List.mem_cons_self
    omega

theorem remaining_looks {nodes : List κ} {ns : List (κ × ε)} (hns : ∀ n ∈ ns, n.1 ∈ nodes) :
    ∀ {s : State κ ε}, remaining nodes (ns.foldl (look cur) s) ≤ remaining nodes s := by
  induction ns with
  | nil => intro s; exact le_rfl
  | cons n ns ih =>
    intro s
    have hrest := @ih (fun n hn => hns n (List.mem_cons_of_mem _ hn)) (look cur s n)
    exact hrest.trans (remaining_look (hns n List.mem_cons_self))

/-- **The end of a search** with enough rounds: the goal is seen, or all that is seen is closed. -/
theorem run_spec (goal : κ) {nodes : List κ} (hnodes : ∀ k, ∀ n ∈ next k, n.1 ∈ nodes) :
    ∀ (n : ℕ) {s : State κ ε}, Found next start s → Closed next s → remaining nodes s ≤ n →
      Found next start (run next goal n s) ∧
        (goal ∈ (run next goal n s).seen ∨ ∀ k ∈ (run next goal n s).seen,
          ∀ x ∈ next k, x.1 ∈ (run next goal n s).seen) := by
  intro n
  induction n with
  | zero =>
    intro s h hclosed hn
    have hqueue : s.queue = [] := by
      unfold remaining at hn
      exact List.eq_nil_of_length_eq_zero (by omega)
    refine ⟨h, Or.inr fun k hk => hclosed k hk ?_⟩
    rw [hqueue]
    exact List.not_mem_nil
  | succ n ih =>
    intro s h hclosed hn
    unfold run
    split
    · rename_i hqueue
      refine ⟨h, Or.inr fun k hk => hclosed k hk ?_⟩
      rw [hqueue]
      exact List.not_mem_nil
    · rename_i cur queue hqueue
      have hcur : cur ∈ s.seen := h.queued cur (by rw [hqueue]; exact List.mem_cons_self)
      split
      · rename_i hgoal
        exact ⟨h.pop hqueue, Or.inl (hgoal ▸ hcur)⟩
      · have hself : ∀ x ∈ next cur, x ∈ next cur := fun _ hx => hx
        have hround := (h.pop hqueue).looks hself hcur
        refine ih hround (hclosed.round hqueue) ?_
        have hless := @remaining_looks κ ε _ cur nodes (next cur) (hnodes cur) { s with queue }
        have hpopped : remaining nodes { s with queue } + 1 = remaining nodes s := by
          unfold remaining
          rw [hqueue, List.length_cons]
          exact Nat.add_assoc _ _ _
        omega

/-- **The search sees the goal** exactly when the start reaches it. -/
theorem mem_seen_run (start goal : κ) {nodes : List κ} (hnodes : ∀ k, ∀ n ∈ next k, n.1 ∈ nodes) {n : ℕ}
    (hn : nodes.length + 1 ≤ n) :
    Found next start (run next goal n { queue := [start], seen := [start] }) ∧
      (goal ∈ (run next goal n { queue := [start], seen := [start] }).seen ↔
        Reaches next start goal) := by
  have hclosed : Closed next ({ queue := [start], seen := [start] } : State κ ε) :=
    fun k hk hq => absurd hk hq
  have hfuel : remaining nodes ({ queue := [start], seen := [start] } : State κ ε) ≤ n := by
    unfold remaining
    have hle := List.length_filter_le (fun k => decide (k ∉ [start])) nodes
    simp only [List.length_singleton]
    omega
  obtain ⟨hfound, hend⟩ := run_spec goal hnodes n found_start hclosed hfuel
  refine ⟨hfound, hfound.reached goal, fun hreach => ?_⟩
  rcases hend with hgoal | hall
  · exact hgoal
  · have hseen : ∀ k, Reaches next start k →
        k ∈ (run next goal n { queue := [start], seen := [start] }).seen := by
      intro k hk
      induction hk with
      | refl => exact hfound.origin
      | tail _ he ih =>
        obtain ⟨e, he⟩ := he
        exact hall _ ih _ he
    exact hseen goal hreach

/-! ## The way back -/

/-- **The way back** from a node that was seen is a way from the start to it. -/
theorem Found.back_way (h : Found next start s) {n : ℕ} (hn : s.prev.entries.length < n) {k : κ}
    (hk : k ∈ s.seen) : ∃ es, back s.prev start n k = some es ∧ Way next start k es := by
  have key : ∀ (l : List (κ × κ × ε)), l <+: s.prev.entries → ∀ n, l.length < n → ∀ k,
      k = start ∨ k ∈ l.map Prod.fst → ∃ es, back s.prev start n k = some es ∧ Way next start k es := by
    intro l
    induction l using List.reverseRecOn with
    | nil =>
      intro _ n hn k hk
      obtain ⟨m, rfl⟩ : ∃ m, n = m + 1 := ⟨n - 1, by have := hn; simp at this; omega⟩
      rcases hk with rfl | hk
      · refine ⟨[], ?_, .nil⟩
        unfold back
        exact if_pos rfl
      · cases hk
    | append_singleton l x ih =>
      intro hpre n hn k hk
      have hbefore : l <+: s.prev.entries := (List.prefix_append l [x]).trans hpre
      rw [List.length_append, List.length_singleton] at hn
      by_cases hold : k = start ∨ k ∈ l.map Prod.fst
      · exact ih hbefore n (by omega) k hold
      · rw [not_or] at hold
        have hkx : k = x.1 := by
          rcases hk with hk | hk
          · exact absurd hk hold.1
          · rw [List.map_append, List.mem_append, List.map_singleton, List.mem_singleton] at hk
            exact hk.resolve_left hold.2
        obtain ⟨rest, hrest⟩ := hpre
        rw [List.append_assoc] at hrest
        obtain ⟨hparent, hedge⟩ := always_iff_split.1 h.order l x rest hrest.symm
        obtain ⟨m, rfl⟩ : ∃ m, n = m + 1 := ⟨n - 1, by omega⟩
        obtain ⟨es, hes, hway⟩ := ih hbefore m (by omega) x.2.1 hparent
        have hmem : x ∈ s.prev.entries := by
          rw [← hrest]
          simp
        refine ⟨es ++ [x.2.2], ?_, ?_⟩
        · unfold back
          rw [if_neg hold.1, hkx, Dict.get?_of_mem hmem]
          simp only [hes, Option.map_some]
        · rw [hkx]
          exact hway.snoc hedge
  refine key _ List.prefix_rfl n hn k ?_
  by_cases hstart : k = start
  · exact Or.inl hstart
  · exact Or.inr ((h.entry k).2 ⟨hk, hstart⟩)

end Search

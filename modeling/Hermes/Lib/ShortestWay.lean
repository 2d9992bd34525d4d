import Hermes.Lib.Search

/-!
# Breadth-first search finds shortest ways

Each node that the search has seen is on a level: the start is on level 0, and a node is one level
above the node it was found from.

* `Levelled`: the queue is in the order of the levels, and goes up by one level at most.
* `Looking`: what holds while the neighbours of a node are looked at.
* `Levelled.le_length`: no way to a node is shorter than its level, when nothing below it waits.
* `back_shortest`: the way back from the goal is a shortest one.
-/

namespace Search

open History

variable {κ ε : Type*} [DecidableEq κ] {next : κ → List (κ × ε)} {start goal cur : κ}
  {s : State κ ε} {level : κ → ℕ}

/-- The levels of the nodes seen, between two rounds. -/
structure Levelled (next : κ → List (κ × ε)) (start : κ) (level : κ → ℕ) (s : State κ ε) : Prop where
  origin : level start = 0
  entry : ∀ x ∈ s.prev.entries, level x.1 = level x.2.1 + 1
  sorted : s.queue.Pairwise fun a b => level a ≤ level b
  span : ∀ u ∈ s.queue, ∀ k ∈ s.seen, level k ≤ level u + 1
  closed : ∀ k ∈ s.seen, k ∉ s.queue → ∀ n ∈ next k, n.1 ∈ s.seen ∧ level n.1 ≤ level k + 1

/-- The levels of the nodes seen, while the neighbours of `cur` are looked at. -/
structure Looking (next : κ → List (κ × ε)) (start cur : κ) (level : κ → ℕ) (s : State κ ε) :
    Prop where
  here : cur ∈ s.seen
  origin : level start = 0
  entry : ∀ x ∈ s.prev.entries, level x.1 = level x.2.1 + 1
  sorted : s.queue.Pairwise fun a b => level a ≤ level b
  high : ∀ k ∈ s.seen, level k ≤ level cur + 1
  low : ∀ u ∈ s.queue, level cur ≤ level u
  closed : ∀ k ∈ s.seen, k ∉ s.queue → k ≠ cur → ∀ n ∈ next k,
    n.1 ∈ s.seen ∧ level n.1 ≤ level k + 1

omit [DecidableEq κ] in
theorem levelled_start : Levelled next start (fun _ => 0) { queue := [start], seen := [start] } where
  origin := rfl
  entry _ hx := absurd hx List.not_mem_nil
  sorted := List.pairwise_singleton _ _
  span _ _ _ _ := Nat.zero_le _
  closed _ hk hq := absurd hk hq

omit [DecidableEq κ] in
/-- A node leaves the queue, and its neighbours are looked at. -/
theorem Levelled.pop (h : Levelled next start level s) (hfound : Found next start s)
    {queue : List κ} (hq : s.queue = cur :: queue) :
    Looking next start cur level { s with queue } := by
  have hsorted := h.sorted
  rw [hq, List.pairwise_cons] at hsorted
  have hhead : cur ∈ s.queue := by rw [hq]; exact List.mem_cons_self
  refine ⟨hfound.queued cur hhead, h.origin, h.entry, hsorted.2, h.span cur hhead, hsorted.1, ?_⟩
  intro k hk hnq hne
  refine h.closed k hk ?_
  rw [hq, List.mem_cons, not_or]
  exact ⟨hne, hnq⟩

/-- **A neighbour is looked at.** If it is new, it goes one level above `cur`. -/
theorem Looking.look (h : Looking next start cur level s) (hfound : Found next start s)
    (n : κ × ε) : ∃ level', Looking next start cur level' (look cur s n) := by
  unfold Search.look
  split
  · exact ⟨level, h⟩
  · rename_i hnew
    have hkey : n.1 ∉ s.prev.keys := fun hk => hnew ((hfound.entry n.1).1 hk).1
    have hentries := Dict.entries_insert_of_not_mem hkey (cur, n.2)
    have hold : ∀ k ∈ s.seen, Function.update level n.1 (level cur + 1) k = level k := by
      intro k hk
      have hne : k ≠ n.1 := by
        rintro rfl
        exact hnew hk
      exact Function.update_of_ne hne _ _
    have hself : Function.update level n.1 (level cur + 1) n.1 = level cur + 1 :=
      Function.update_self _ _ _
    have hcur := hold cur h.here
    refine ⟨Function.update level n.1 (level cur + 1), List.mem_cons_of_mem _ h.here, ?_, ?_, ?_,
      ?_, ?_, ?_⟩
    · rw [hold start hfound.origin]
      exact h.origin
    · intro x hx
      rw [hentries] at hx
      rcases List.mem_append.1 hx with hx | hx
      · -- both ends of an older entry were seen before
        have hchild : x.1 ∈ s.seen := ((hfound.entry x.1).1 (List.mem_map_of_mem hx)).1
        have hparent : x.2.1 ∈ s.seen := by
          obtain ⟨before, after, hsplit⟩ := List.append_of_mem hx
          rcases (always_iff_split.1 hfound.order _ _ _ hsplit).1 with hstart | hmem
          · exact hstart ▸ hfound.origin
          · refine ((hfound.entry x.2.1).1 ?_).1
            unfold Dict.keys
            rw [hsplit, List.map_append]
            exact List.mem_append_left _ hmem
        rw [hold _ hchild, hold _ hparent]
        exact h.entry x hx
      · obtain rfl := List.mem_singleton.1 hx
        rw [hself, hcur]
    · rw [List.pairwise_append]
      refine ⟨?_, List.pairwise_singleton _ _, fun a ha b hb => ?_⟩
      · refine h.sorted.imp_of_mem fun {a b} ha hb hab => ?_
        rw [hold a (hfound.queued a ha), hold b (hfound.queued b hb)]
        exact hab
      · rw [List.mem_singleton.1 hb, hself, hold a (hfound.queued a ha)]
        exact h.high a (hfound.queued a ha)
    · intro k hk
      rw [hcur]
      rcases List.mem_cons.1 hk with rfl | hk
      · rw [hself]
      · rw [hold k hk]
        exact h.high k hk
    · intro u hu
      rw [hcur]
      rcases List.mem_append.1 hu with hu | hu
      · rw [hold u (hfound.queued u hu)]
        exact h.low u hu
      · rw [List.mem_singleton.1 hu, hself]
        exact Nat.le_succ _
    · intro k hk hnq hne m hm
      rw [List.mem_append, List.mem_singleton, not_or] at hnq
      have hk' : k ∈ s.seen := (List.mem_cons.1 hk).resolve_left hnq.2
      obtain ⟨hseen, hle⟩ := h.closed k hk' hnq.1 hne m hm
      rw [hold k hk', hold m.1 hseen]
      exact ⟨List.mem_cons_of_mem _ hseen, hle⟩

/-- The neighbours of a node, one after the other. -/
theorem Looking.looks {ns : List (κ × ε)} (hns : ∀ n ∈ ns, n ∈ next cur) :
    ∀ {s : State κ ε} {level : κ → ℕ}, Looking next start cur level s → Found next start s →
      ∃ level', Looking next start cur level' (ns.foldl (Search.look cur) s) := by
  induction ns with
  | nil => intro s level h _; exact ⟨level, h⟩
  | cons n ns ih =>
    intro s level h hfound
    obtain ⟨level', h'⟩ := h.look hfound n
    have hfound' := hfound.look h.here (hns n List.mem_cons_self)
    exact ih (fun n hn => hns n (List.mem_cons_of_mem _ hn)) h' hfound'

/-- **One round** keeps the levels. -/
theorem Levelled.round (h : Levelled next start level s) (hfound : Found next start s)
    {queue : List κ} (hq : s.queue = cur :: queue) :
    ∃ level', Levelled next start level' ((next cur).foldl (Search.look cur) { s with queue }) := by
  obtain ⟨level', h'⟩ := (h.pop hfound hq).looks (fun _ hn => hn) (hfound.pop hq)
  refine ⟨level', h'.origin, h'.entry, h'.sorted, fun u hu k hk => ?_, fun k hk hnq n hn => ?_⟩
  · exact (h'.high k hk).trans (Nat.succ_le_succ (h'.low u hu))
  · by_cases hcur : k = cur
    · subst hcur
      have hseen : n.1 ∈ ((next k).foldl (Search.look k) { s with queue }).seen :=
        mem_seen_looks.2 (.inl (List.mem_map_of_mem hn))
      exact ⟨hseen, h'.high n.1 hseen⟩
    · exact h'.closed k hk hnq hcur n hn

omit [DecidableEq κ] in
/-- **No way is shorter than the level**, when nothing that waits is below it. -/
theorem Levelled.le_length (h : Levelled next start level s) (hfound : Found next start s)
    (hqueue : ∀ u ∈ s.queue, level goal ≤ level u) {es : List ε} (hes : Way next start goal es) :
    level goal ≤ es.length := by
  -- along a shorter way all nodes are closed
  have hbelow : ∀ {k es}, Way next start k es → es.length < level goal →
      k ∈ s.seen ∧ level k ≤ es.length := by
    intro k es hway
    induction hway with
    | nil => exact fun _ => ⟨hfound.origin, h.origin.le⟩
    | @snoc a b es e _ he ih =>
      intro hlt
      rw [List.length_append, List.length_singleton] at hlt ⊢
      obtain ⟨ha, hlevel⟩ := ih (by omega)
      have hnq : a ∉ s.queue := fun hq => by
        have hle := hqueue a hq
        omega
      obtain ⟨hb, hnext⟩ := h.closed a ha hnq _ he
      exact ⟨hb, by simp only at hnext; omega⟩
  by_contra hlt
  rw [not_le] at hlt
  have hle := (hbelow hes hlt).2
  omega

/-- The way back from a node is as long as its level. -/
theorem Levelled.length_back (h : Levelled next start level s) :
    ∀ (n : ℕ) {k : κ} {es : List ε}, back s.prev start n k = some es → es.length = level k := by
  intro n
  induction n with
  | zero => intro k es hes; cases hes
  | succ n ih =>
    intro k es hes
    unfold back at hes
    split at hes
    · rename_i hstart
      rw [hstart, h.origin, ← Option.some.inj hes]
      rfl
    · split at hes
      · cases hes
      · rename_i p e hget
        obtain ⟨es', hes', rfl⟩ := Option.map_eq_some_iff.1 hes
        have hlevel := h.entry _ (Dict.mem_of_get? hget)
        rw [List.length_append, List.length_singleton, ih hes', hlevel]

/-- **The end of a search** with enough rounds: the levels of what is seen, with nothing below the
goal that waits. -/
theorem run_levelled (goal : κ) {nodes : List κ} (hnodes : ∀ k, ∀ n ∈ next k, n.1 ∈ nodes) :
    ∀ (n : ℕ) {s : State κ ε} {level : κ → ℕ}, Levelled next start level s → Found next start s →
      remaining nodes s ≤ n → ∃ s' level', Levelled next start level' s' ∧ Found next start s' ∧
        (∀ u ∈ s'.queue, level' goal ≤ level' u) ∧ (run next goal n s).prev = s'.prev := by
  intro n
  induction n with
  | zero =>
    intro s level h hfound hn
    have hqueue : s.queue = [] := by
      unfold remaining at hn
      exact List.eq_nil_of_length_eq_zero (by omega)
    refine ⟨s, level, h, hfound, ?_, rfl⟩
    rw [hqueue]
    exact fun u hu => absurd hu List.not_mem_nil
  | succ n ih =>
    intro s level h hfound hn
    unfold run
    split
    · rename_i hqueue
      refine ⟨s, level, h, hfound, ?_, rfl⟩
      rw [hqueue]
      exact fun u hu => absurd hu List.not_mem_nil
    · rename_i cur queue hqueue
      have hcur : cur ∈ s.seen := hfound.queued cur (by rw [hqueue]; exact List.mem_cons_self)
      split
      · rename_i hgoal
        have hsorted := h.sorted
        rw [hqueue, List.pairwise_cons, hgoal] at hsorted
        refine ⟨s, level, h, hfound, fun u hu => ?_, rfl⟩
        rw [hqueue, hgoal] at hu
        rcases List.mem_cons.1 hu with rfl | hu
        · exact le_rfl
        · exact hsorted.1 u hu
      · have hround := (hfound.pop hqueue).looks (fun _ hx => hx) hcur
        obtain ⟨level', h'⟩ := h.round hfound hqueue
        refine ih h' hround ?_
        have hless := @remaining_looks κ ε _ cur nodes (next cur) (hnodes cur) { s with queue }
        have hpopped : remaining nodes { s with queue } + 1 = remaining nodes s := by
          unfold remaining
          rw [hqueue, List.length_cons]
          exact Nat.add_assoc _ _ _
        omega

/-- **The way back from the goal is a shortest one.** -/
theorem back_shortest {nodes : List κ} (hnodes : ∀ k, ∀ n ∈ next k, n.1 ∈ nodes) {rounds n : ℕ}
    (hrounds : nodes.length + 1 ≤ rounds) {es : List ε}
    (hback : back (run next goal rounds { queue := [start], seen := [start] }).prev start n goal =
      some es) {es' : List ε} (hes' : Way next start goal es') : es.length ≤ es'.length := by
  have hfuel : remaining nodes ({ queue := [start], seen := [start] } : State κ ε) ≤ rounds := by
    unfold remaining
    have hle := List.length_filter_le (fun k => decide (k ∉ [start])) nodes
    simp only [List.length_singleton]
    omega
  obtain ⟨s, level, h, hfound, hqueue, hprev⟩ :=
    run_levelled goal hnodes rounds levelled_start found_start hfuel
  rw [hprev] at hback
  rw [h.length_back n hback]
  exact h.le_length hfound hqueue hes'

end Search

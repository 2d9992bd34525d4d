import Mathlib.Data.List.Infix
import Mathlib.Tactic

/-!
# Substitution by one replacement after another

A text with marks is to get a value in the place of each mark, of all of them at once. It is done
by replacements throughout the text, one mark after the other, each in what the one before has left.

* `scan`: such a replacement.
* `Piece`, `Clean`: a text with holes, in which a word occurs in the holes only.
* `scan_render_iff`: one replacement fills the holes exactly when the text is clean, or the word is
  replaced by itself.
* `Mark`, `fill`: a text with marks, and what comes of it when they are filled.
* `rounds_iff`: when all replacements leave what they ought to.
-/

namespace Substitution

variable {α : Type*}

/-! ## Words that do not overlap themselves -/

variable {old new : List α}

/-- No end of a word but the whole of it is a beginning of it. -/
def Unbordered (old : List α) : Prop := ∀ r, r ≠ [] → r <+: old → r <:+ old → r = old

/-- A word with a letter that stands at its end only. -/
theorem unbordered_of_last {init : List α} {c : α} (h : c ∉ init) : Unbordered (init ++ [c]) := by
  intro r hne hpre hsuf
  obtain ⟨front, hfront⟩ := hsuf
  obtain ⟨r', x, rfl⟩ : ∃ r' x, r = r' ++ [x] := ⟨_, _, (List.dropLast_append_getLast hne).symm⟩
  rw [← List.append_assoc] at hfront
  obtain ⟨hinit, hx⟩ := List.append_inj' hfront rfl
  obtain rfl : x = c := by simpa using hx
  obtain ⟨rest, hrest⟩ := hpre
  rcases List.eq_nil_or_concat rest with rfl | ⟨rest', y, rfl⟩
  · rwa [List.append_nil] at hrest
  · -- the letter at the end of `r` would stand before the end of the word
    rw [List.concat_eq_append, ← List.append_assoc] at hrest
    obtain ⟨hin, -⟩ := List.append_inj' hrest rfl
    exact absurd (by rw [← hin]; simp) h

/-! ## Texts with holes -/

/-- A letter of a text, or a hole in it. -/
inductive Piece (α : Type*) where
  | lit (c : α)
  | hole

/-- The text with a word in its holes. -/
def render (x : List α) : List (Piece α) → List α
  | [] => []
  | .lit c :: ps => c :: render x ps
  | .hole :: ps => x ++ render x ps

def holes : List (Piece α) → ℕ
  | [] => 0
  | .lit _ :: ps => holes ps
  | .hole :: ps => holes ps + 1

/-- With a word in the holes, it begins at no letter of the text. -/
def Clean (old : List α) : List (Piece α) → Prop
  | [] => True
  | .lit c :: ps => ¬ old <+: c :: render old ps ∧ Clean old ps
  | .hole :: ps => Clean old ps

instance decidableClean [DecidableEq α] (old : List α) : ∀ ps, Decidable (Clean old ps)
  | [] => inferInstanceAs (Decidable True)
  | .lit c :: ps =>
    haveI := decidableClean old ps
    inferInstanceAs (Decidable (¬ old <+: c :: render old ps ∧ Clean old ps))
  | .hole :: ps => decidableClean old ps

theorem render_lits (x l : List α) (ps : List (Piece α)) :
    render x (l.map .lit ++ ps) = l ++ render x ps := by
  induction l with
  | nil => rfl
  | cons c cs ih => exact congrArg (c :: ·) ih

theorem render_append (x : List α) (ps qs : List (Piece α)) :
    render x (ps ++ qs) = render x ps ++ render x qs := by
  induction ps with
  | nil => rfl
  | cons p ps ih =>
    cases p with
    | lit c => exact congrArg (c :: ·) ih
    | hole =>
      show x ++ render x (ps ++ qs) = x ++ render x ps ++ render x qs
      rw [ih, List.append_assoc]

theorem holes_lits (l : List α) (ps : List (Piece α)) : holes (l.map .lit ++ ps) = holes ps := by
  induction l with
  | nil => rfl
  | cons c cs ih => exact ih

theorem length_render (x y : List α) (ps : List (Piece α)) :
    (render x ps).length + holes ps * y.length = (render y ps).length + holes ps * x.length := by
  induction ps with
  | nil => simp [render, holes]
  | cons p ps ih =>
    cases p with
    | lit c =>
      show (render x ps).length + 1 + holes ps * y.length =
        (render y ps).length + 1 + holes ps * x.length
      omega
    | hole =>
      show (x ++ render x ps).length + (holes ps + 1) * y.length =
        (y ++ render y ps).length + (holes ps + 1) * x.length
      rw [List.length_append, List.length_append, Nat.succ_mul, Nat.succ_mul]
      omega

/-- An occurrence of an end of the word does not run into a hole. -/
theorem lits_of_suffix (hunb : Unbordered old) : ∀ (r : List α) (ps : List (Piece α)),
    r <:+ old → r ≠ old → r <+: render old ps → ∃ qs, ps = r.map .lit ++ qs := by
  intro r
  induction r with
  | nil => exact fun ps _ _ _ => ⟨ps, rfl⟩
  | cons x r ih =>
    intro ps hsuf hne hpre
    cases ps with
    | nil => exact absurd (List.prefix_nil.1 hpre) (List.cons_ne_nil x r)
    | cons p ps =>
      cases p with
      | lit c =>
        obtain ⟨rfl, hpre'⟩ := List.cons_prefix_cons.1 hpre
        have hlength : (x :: r).length ≤ old.length := hsuf.length_le
        have hne' : r ≠ old := by
          rintro rfl
          simp at hlength
        obtain ⟨qs, rfl⟩ := ih ps ((List.suffix_cons x r).trans hsuf) hne' hpre'
        exact ⟨qs, rfl⟩
      | hole =>
        -- it would be a beginning of the word that fills the hole
        have hpre' : x :: r <+: old :=
          List.prefix_of_prefix_length_le hpre (List.prefix_append _ _) hsuf.length_le
        exact absurd (hunb _ (List.cons_ne_nil x r) hpre' hsuf) hne

/-- **An occurrence that begins at a letter** is made of letters. -/
theorem lits_of_prefix (hunb : Unbordered old) {c : α} {ps : List (Piece α)} (hold : old ≠ [])
    (h : old <+: c :: render old ps) : ∃ qs, .lit c :: ps = old.map .lit ++ qs := by
  obtain ⟨x, r, rfl⟩ := List.exists_cons_of_ne_nil hold
  obtain ⟨rfl, hpre⟩ := List.cons_prefix_cons.1 h
  have hne : r ≠ x :: r := fun heq => by simpa using congrArg List.length heq
  obtain ⟨qs, rfl⟩ := lits_of_suffix hunb r ps (List.suffix_cons x r) hne hpre
  exact ⟨qs, rfl⟩

/-! ## Texts with marks -/

/-- A letter of a text, or a mark in it. -/
inductive Mark (α τ : Type*) where
  | lit (c : α)
  | tok (t : τ)

variable {τ : Type*}

/-- The text with its marks filled. -/
def fill (f : τ → List α) : List (Mark α τ) → List α
  | [] => []
  | .lit c :: ms => c :: fill f ms
  | .tok t :: ms => f t ++ fill f ms

/-- The marks of a text, in their order. -/
def marks : List (Mark α τ) → List τ
  | [] => []
  | .lit _ :: ms => marks ms
  | .tok t :: ms => t :: marks ms

theorem fill_congr {f g : τ → List α} {ms : List (Mark α τ)} (h : ∀ t ∈ marks ms, f t = g t) :
    fill f ms = fill g ms := by
  induction ms with
  | nil => rfl
  | cons m ms ih =>
    cases m with
    | lit c => exact congrArg (c :: ·) (ih h)
    | tok t =>
      show f t ++ fill f ms = g t ++ fill g ms
      rw [h t List.mem_cons_self, ih fun u hu => h u (List.mem_cons_of_mem t hu)]

variable [DecidableEq τ] (text val : τ → List α)

/-- A mark is filled with its value if it is one of those, and else with its own text. -/
def upTo (done : List τ) (t : τ) : List α := if t ∈ done then val t else text t

/-- The text with the values of some marks, and a hole for each `t` that is not among them. -/
def pieces (done : List τ) (t : τ) : List (Mark α τ) → List (Piece α)
  | [] => []
  | .lit c :: ms => .lit c :: pieces done t ms
  | .tok u :: ms =>
    (if u ∈ done then (val u).map .lit else if u = t then [.hole] else (text u).map .lit) ++
      pieces done t ms

variable {text val}

/-- The pieces with a word in the holes. -/
theorem render_pieces (x : List α) (done : List τ) (t : τ) (ms : List (Mark α τ)) :
    render x (pieces text val done t ms) =
      fill (fun u => if u ∈ done then val u else if u = t then x else text u) ms := by
  have hlits : ∀ l : List α, render x (l.map .lit) = l := fun l => by
    rw [← List.append_nil (List.map _ _), render_lits]
    exact List.append_nil l
  induction ms with
  | nil => rfl
  | cons m ms ih =>
    cases m with
    | lit c => exact congrArg (c :: ·) ih
    | tok u =>
      unfold pieces fill
      rw [render_append, ih]
      refine congrArg (· ++ _) ?_
      split
      · exact hlits (val u)
      · split
        · exact List.append_nil x
        · exact hlits (text u)

theorem render_pieces_text (done : List τ) (t : τ) (ms : List (Mark α τ)) :
    render (text t) (pieces text val done t ms) = fill (upTo text val done) ms := by
  rw [render_pieces]
  refine fill_congr fun u _ => ?_
  unfold upTo
  by_cases hut : u = t
  · rw [if_pos hut, hut]
  · rw [if_neg hut]

theorem render_pieces_val (done : List τ) (t : τ) (ms : List (Mark α τ)) :
    render (val t) (pieces text val done t ms) = fill (upTo text val (done ++ [t])) ms := by
  rw [render_pieces]
  refine fill_congr fun u _ => ?_
  unfold upTo
  by_cases hdone : u ∈ done
  · rw [if_pos hdone, if_pos (List.mem_append_left _ hdone)]
  · rw [if_neg hdone]
    by_cases hut : u = t
    · rw [if_pos hut, if_pos (by simp [hut]), hut]
    · rw [if_neg hut, if_neg (by simp [hdone, hut])]

/-! ## One replacement -/

variable [DecidableEq α]

/-- `old` is replaced where it occurs, from left to right, after `skip` letters. -/
def scan (old new : List α) : ℕ → List α → List α
  | _, [] => []
  | skip + 1, _ :: cs => scan old new skip cs
  | 0, c :: cs =>
    if old.isPrefixOf (c :: cs) then new ++ scan old new (old.length - 1) cs
    else c :: scan old new 0 cs

/-- How many occurrences are replaced. -/
def taken (old : List α) : ℕ → List α → ℕ
  | _, [] => 0
  | skip + 1, _ :: cs => taken old skip cs
  | 0, c :: cs =>
    if old.isPrefixOf (c :: cs) then taken old (old.length - 1) cs + 1 else taken old 0 cs

theorem scan_skip (l₁ l₂ : List α) :
    scan old new l₁.length (l₁ ++ l₂) = scan old new 0 l₂ := by
  induction l₁ with
  | nil => rfl
  | cons c cs ih => exact ih

theorem taken_skip (l₁ l₂ : List α) : taken old l₁.length (l₁ ++ l₂) = taken old 0 l₂ := by
  induction l₁ with
  | nil => rfl
  | cons c cs ih => exact ih

theorem scan_hit (hold : old ≠ []) (l : List α) :
    scan old new 0 (old ++ l) = new ++ scan old new 0 l := by
  obtain ⟨c, cs, rfl⟩ := List.exists_cons_of_ne_nil hold
  have hprefix : (c :: cs).isPrefixOf (c :: (cs ++ l)) = true :=
    List.isPrefixOf_iff_prefix.2 ⟨l, rfl⟩
  rw [List.cons_append]
  conv_lhs => unfold scan
  rw [if_pos hprefix]
  exact congrArg (new ++ ·) (scan_skip cs l)

theorem taken_hit (hold : old ≠ []) (l : List α) :
    taken old 0 (old ++ l) = taken old 0 l + 1 := by
  obtain ⟨c, cs, rfl⟩ := List.exists_cons_of_ne_nil hold
  have hprefix : (c :: cs).isPrefixOf (c :: (cs ++ l)) = true :=
    List.isPrefixOf_iff_prefix.2 ⟨l, rfl⟩
  rw [List.cons_append]
  conv_lhs => unfold taken
  rw [if_pos hprefix]
  exact congrArg (· + 1) (taken_skip cs l)

theorem scan_miss {c : α} {cs : List α} (h : ¬ old <+: c :: cs) :
    scan old new 0 (c :: cs) = c :: scan old new 0 cs := by
  conv_lhs => unfold scan
  rw [if_neg fun hp => h (List.isPrefixOf_iff_prefix.1 hp)]

theorem taken_miss {c : α} {cs : List α} (h : ¬ old <+: c :: cs) :
    taken old 0 (c :: cs) = taken old 0 cs := by
  conv_lhs => unfold taken
  rw [if_neg fun hp => h (List.isPrefixOf_iff_prefix.1 hp)]

/-- **The scan goes** from one occurrence to the next. -/
theorem scan_induction {P : List α → Prop} (hold : old ≠ []) (nil : P [])
    (hit : ∀ l, P l → P (old ++ l)) (miss : ∀ c cs, ¬ old <+: c :: cs → P cs → P (c :: cs))
    (l : List α) : P l := by
  induction hn : l.length using Nat.strong_induction_on generalizing l with
  | _ n ih =>
    cases l with
    | nil => exact nil
    | cons c cs =>
      by_cases h : old <+: c :: cs
      · obtain ⟨rest, hrest⟩ := h
        have hpos : 0 < old.length := List.length_pos_of_ne_nil hold
        have hlength := congrArg List.length hrest
        rw [List.length_append] at hlength
        rw [← hrest]
        exact hit rest (ih rest.length (by omega) rest rfl)
      · have hlt : cs.length < n := by
          rw [List.length_cons] at hn
          omega
        exact miss c cs h (ih cs.length hlt cs rfl)

theorem scan_self (hold : old ≠ []) (l : List α) : scan old old 0 l = l := by
  induction l using scan_induction hold with
  | nil => rfl
  | hit l ih => rw [scan_hit hold, ih]
  | miss c cs h ih => rw [scan_miss h, ih]

variable (new) in
theorem length_scan (hold : old ≠ []) (l : List α) :
    (scan old new 0 l).length + taken old 0 l * old.length =
      l.length + taken old 0 l * new.length := by
  induction l using scan_induction hold with
  | nil => simp [scan, taken]
  | hit l ih =>
    rw [scan_hit hold, taken_hit hold, List.length_append, List.length_append, Nat.succ_mul,
      Nat.succ_mul]
    omega
  | miss c cs h ih =>
    rw [scan_miss h, taken_miss h, List.length_cons, List.length_cons]
    omega

/-- **Every hole is an occurrence**, and if there are no others the text is clean. -/
theorem holes_le_taken (hold : old ≠ []) (hunb : Unbordered old) (ps : List (Piece α)) :
    holes ps ≤ taken old 0 (render old ps) ∧
      (taken old 0 (render old ps) = holes ps → Clean old ps) := by
  induction hn : ps.length using Nat.strong_induction_on generalizing ps with
  | _ n ih =>
    cases ps with
    | nil => exact ⟨le_rfl, fun _ => trivial⟩
    | cons p ps =>
      have hlt : ps.length < n := by
        rw [List.length_cons] at hn
        omega
      obtain ⟨hle, hclean⟩ := ih ps.length hlt ps rfl
      cases p with
      | hole =>
        have htaken : taken old 0 (render old (.hole :: ps)) = taken old 0 (render old ps) + 1 :=
          taken_hit hold _
        have hholes : holes (.hole :: ps) = holes ps + 1 := rfl
        refine ⟨by omega, fun heq => ?_⟩
        show Clean old ps
        exact hclean (by omega)
      | lit c =>
        have hholes : holes (.lit c :: ps) = holes ps := rfl
        by_cases hhit : old <+: c :: render old ps
        · obtain ⟨qs, hqs⟩ := lits_of_prefix hunb hold hhit
          have hpos : 0 < old.length := List.length_pos_of_ne_nil hold
          have hlength := congrArg List.length hqs
          rw [List.length_append, List.length_map, hn] at hlength
          obtain ⟨hle', -⟩ := ih qs.length (by omega) qs rfl
          rw [hqs, render_lits, taken_hit hold, holes_lits]
          refine ⟨by omega, fun heq => by omega⟩
        · have htaken : taken old 0 (render old (.lit c :: ps)) = taken old 0 (render old ps) :=
            taken_miss hhit
          refine ⟨by omega, fun heq => ⟨hhit, hclean (by omega)⟩⟩

theorem Clean.scan_render (hold : old ≠ []) {ps : List (Piece α)} (h : Clean old ps) :
    scan old new 0 (render old ps) = render new ps := by
  induction ps with
  | nil => rfl
  | cons p ps ih =>
    cases p with
    | lit c => exact (scan_miss h.1).trans (congrArg (c :: ·) (ih h.2))
    | hole => exact (scan_hit hold _).trans (congrArg (new ++ ·) (ih h))

/-- A word is not told from one of its length that takes its place elsewhere. -/
theorem clean_of_scan (hold : old ≠ []) (hunb : Unbordered old) (hlength : new.length = old.length)
    (hne : new ≠ old) {ps : List (Piece α)} (h : scan old new 0 (render old ps) = render new ps) :
    Clean old ps := by
  induction ps with
  | nil => trivial
  | cons p ps ih =>
    cases p with
    | hole => exact ih (List.append_cancel_left ((scan_hit hold _).symm.trans h))
    | lit c =>
      by_cases hhit : old <+: c :: render old ps
      · obtain ⟨qs, hqs⟩ := lits_of_prefix hunb hold hhit
        rw [hqs, render_lits, render_lits, scan_hit hold] at h
        exact absurd (List.append_inj_left h hlength) hne
      · have hrest := (scan_miss hhit).symm.trans h
        exact ⟨hhit, ih (List.cons.inj hrest).2⟩

/-- **One replacement** fills the holes and changes nothing else exactly when the word occurs in the
holes only, or is replaced by itself. -/
theorem scan_render_iff (hold : old ≠ []) (hunb : Unbordered old) (ps : List (Piece α)) :
    scan old new 0 (render old ps) = render new ps ↔ new = old ∨ Clean old ps := by
  constructor
  · intro h
    by_cases hne : new = old
    · exact .inl hne
    by_cases hlength : new.length = old.length
    · exact .inr (clean_of_scan hold hunb hlength hne h)
    · -- every occurrence that is replaced shifts the length by as much as a hole does
      right
      obtain ⟨hle, hclean⟩ := holes_le_taken hold hunb ps
      have hscan := length_scan new hold (render old ps)
      have hrender := length_render new old ps
      rw [h] at hscan
      obtain ⟨d, hd⟩ := Nat.exists_eq_add_of_le hle
      rw [hd, Nat.add_mul, Nat.add_mul] at hscan
      have hshift : d * old.length = d * new.length := by omega
      refine hclean ?_
      rcases Nat.eq_zero_or_pos d with rfl | hpos
      · omega
      · exact absurd (Nat.eq_of_mul_eq_mul_left hpos hshift).symm hlength
  · rintro (rfl | hclean)
    · exact scan_self hold _
    · exact hclean.scan_render hold

/-! ## All replacements -/

variable (text val) in
/-- One replacement after the other. -/
def replaceEach (ts : List τ) (l : List α) : List α :=
  ts.foldl (fun l t => scan (text t) (val t) 0 l) l

/-- **All replacements**: each of them leaves the text with the values of the marks up to it, and
nothing else changed, exactly when at the turn of each mark its word occurs in the text in the places
of the mark only, or is its own value. -/
theorem rounds_iff {ts : List τ} (htext : ∀ t ∈ ts, text t ≠ [] ∧ Unbordered (text t))
    (ms : List (Mark α τ)) :
    (∀ k ≤ ts.length, replaceEach text val (ts.take k) (fill text ms) =
        fill (upTo text val (ts.take k)) ms) ↔
      ∀ k (hk : k < ts.length), val ts[k] = text ts[k] ∨
        Clean (text ts[k]) (pieces text val (ts.take k) ts[k] ms) := by
  have hone : ∀ k (hk : k < ts.length),
      scan (text ts[k]) (val ts[k]) 0 (fill (upTo text val (ts.take k)) ms) =
          fill (upTo text val (ts.take (k + 1))) ms ↔
        val ts[k] = text ts[k] ∨ Clean (text ts[k]) (pieces text val (ts.take k) ts[k] ms) := by
    intro k hk
    obtain ⟨hne, hunb⟩ := htext ts[k] (List.getElem_mem hk)
    rw [← scan_render_iff hne hunb, render_pieces_text, render_pieces_val,
      List.take_append_getElem hk]
  have hnext : ∀ k (hk : k < ts.length) (l : List α), replaceEach text val (ts.take (k + 1)) l =
      scan (text ts[k]) (val ts[k]) 0 (replaceEach text val (ts.take k) l) := by
    intro k hk l
    unfold replaceEach
    rw [← List.take_append_getElem hk, List.foldl_append]
    rfl
  constructor
  · intro h k hk
    rw [← hone k hk, ← h k hk.le, ← hnext k hk]
    exact h (k + 1) hk
  · intro h k
    induction k with
    | zero =>
      intro _
      refine fill_congr fun t _ => ?_
      exact (if_neg List.not_mem_nil).symm
    | succ k ih =>
      intro hk
      rw [hnext k hk, ih (by omega)]
      exact (hone k hk).2 (h k hk)

end Substitution

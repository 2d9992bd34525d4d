import Hermes.Spec.Behavior
import Mathlib.Data.List.Chain

/-!
# Scrolling and typing

`scroll_page` counts a scroll down as negative, and `scroll_to_element` scrolls down when the element is
at a larger y. So each scroll leads away from the element, unless the distance that was drawn is negative.

* `scrollPage_position`: a scroll changes the position by the distance that it draws.
* `toward_iff`, `approaches_iff`: when one scroll, and each scroll of a loop, leads to the element.
* `typeText_types`: the keys leave the text, and there are as many backspaces as errors.
-/

namespace Hermes

namespace BehaviorEngine

variable {σ : Type} {R : Rng σ} {b b' : BehaviorEngine σ}

/-! ## What drawing leaves alone -/

/-- The generator may have gone on; the wheel may have been turned. -/
structure Drawn (b b' : BehaviorEngine σ) : Prop where
  profile : b'.profile = b.profile
  position : b'.scrollPosition = b.scrollPosition
  scrolled : b'.scrolled = b.scrolled
  keys : b'.keys = b.keys

theorem Drawn.refl (b : BehaviorEngine σ) : Drawn b b := ⟨rfl, rfl, rfl, rfl⟩

theorem Drawn.trans {b'' : BehaviorEngine σ} (h : Drawn b b') (h' : Drawn b' b'') : Drawn b b'' :=
  ⟨h'.profile.trans h.profile, h'.position.trans h.position, h'.scrolled.trans h.scrolled,
    h'.keys.trans h.keys⟩

theorem randMs_drawn (span : ℤ × ℤ) (b : BehaviorEngine σ) : Drawn b (b.randMs R span).2 := by
  unfold randMs
  split
  · exact Drawn.refl b
  · exact ⟨rfl, rfl, rfl, rfl⟩

theorem mistypes_drawn (ch : PyChar) (b : BehaviorEngine σ) : Drawn b (b.mistypes R ch).2 := by
  unfold mistypes
  split
  · exact Drawn.refl b
  · exact ⟨rfl, rfl, rfl, rfl⟩

theorem scrollChunk_drawn (sign total : ℤ) (b : BehaviorEngine σ) (w : ℚ) :
    Drawn b (b.scrollChunk R sign total w) := by
  have hturned : Drawn b { b with wheel := b.wheel ++ [sign * max 1 (pyRound (total * w))] } :=
    ⟨rfl, rfl, rfl, rfl⟩
  unfold scrollChunk
  simp only
  split
  · exact hturned.trans (randMs_drawn _ _)
  · exact hturned

theorem scrollChunks_drawn (sign total : ℤ) (ws : List ℚ) : ∀ b : BehaviorEngine σ,
    Drawn b (ws.foldl (scrollChunk R sign total) b) := by
  induction ws with
  | nil => exact Drawn.refl
  | cons w ws ih => exact fun b => (scrollChunk_drawn sign total b w).trans (ih _)

/-! ## Scrolling -/

/-- The distance that the next scroll draws. -/
def distance (R : Rng σ) (b : BehaviorEngine σ) : ℤ := (b.randMs R b.profile.scrollDistancePx).1

/-- **A scroll** changes the position by its distance, downwards to smaller ones. -/
theorem scrollPage_spec (R : Rng σ) (direction : String) (b : BehaviorEngine σ) :
    (b.scrollPage R direction).2.profile = b.profile ∧
      (b.scrollPage R direction).2.scrollPosition =
        b.scrollPosition + (if direction = "down" then -1 else 1) * b.distance R ∧
      (b.scrollPage R direction).2.scrolled =
        b.scrolled ++ [(b.scrollPosition, (b.scrollPage R direction).2.scrollPosition)] := by
  have hscroll : ∃ b', Drawn b b' ∧ (b.scrollPage R direction).2 =
      { b' with
        scrollPosition := b'.scrollPosition + (if direction = "down" then -1 else 1) * b.distance R
        scrolled := b'.scrolled ++ [(b'.scrollPosition,
          b'.scrollPosition + (if direction = "down" then -1 else 1) * b.distance R)] } := by
    refine ⟨_, ?_, rfl⟩
    have hdistance := randMs_drawn (R := R) b.profile.scrollDistancePx b
    have hchunks : Drawn b { (b.randMs R b.profile.scrollDistancePx).2 with
        rng := (R.randint 3 6 (b.randMs R b.profile.scrollDistancePx).2.rng).2 } :=
      ⟨hdistance.profile, hdistance.position, hdistance.scrolled, hdistance.keys⟩
    exact (hchunks.trans (scrollChunks_drawn _ _ _ _)).trans (randMs_drawn _ _)
  obtain ⟨b', hdrawn, hb'⟩ := hscroll
  rw [hb']
  simp only [hdrawn.profile, hdrawn.position, hdrawn.scrolled, and_self]

/-- A change of the position is in the direction of the target. -/
def Toward (target before after : ℤ) : Prop :=
  before < target ∧ before < after ∨ target < before ∧ after < before

/-- The position is near enough for the loop to end. -/
def Near (target : ℤ) (b : BehaviorEngine σ) : Prop := |b.scrollPosition - target| < 100

instance (target before after : ℤ) : Decidable (Toward target before after) :=
  inferInstanceAs (Decidable (_ ∨ _))

instance (target : ℤ) (b : BehaviorEngine σ) : Decidable (b.Near target) :=
  inferInstanceAs (Decidable (_ < _))

/-- **One scroll of the loop** is in the direction of the target only if its distance is negative. -/
theorem toward_iff {target : ℤ} (h : ¬ b.Near target) :
    Toward target b.scrollPosition (b.scrollPage R (b.directionTo target)).2.scrollPosition ↔
      b.distance R < 0 := by
  rw [(scrollPage_spec R _ b).2.1]
  unfold Near at h
  unfold Toward directionTo
  by_cases hbelow : b.scrollPosition < target
  · rw [if_pos hbelow, if_pos rfl]
    omega
  · have hup : ¬ ("up" = "down") := by decide
    have hne : b.scrollPosition ≠ target := by
      rintro heq
      rw [heq, sub_self, abs_zero] at h
      exact h (by norm_num)
    rw [if_neg hbelow, if_neg hup]
    omega

/-- The states in which the loop of `scroll_to_element` scrolls. -/
def scrolls (R : Rng σ) (target : ℤ) : ℕ → BehaviorEngine σ → List (BehaviorEngine σ)
  | 0, _ => []
  | n + 1, b =>
    if b.Near target then []
    else b :: scrolls R target n (b.scrollPage R (b.directionTo target)).2

/-- **The scrolls of the loop**, from before each to after it. -/
theorem scrollLoop_scrolled (R : Rng σ) (target : ℤ) (n : ℕ) : ∀ b : BehaviorEngine σ,
    (scrollLoop R target n b).2.scrolled = b.scrolled ++ (scrolls R target n b).map fun s =>
      (s.scrollPosition, (s.scrollPage R (s.directionTo target)).2.scrollPosition) := by
  induction n with
  | zero => exact fun _ => (List.append_nil _).symm
  | succ n ih =>
    intro b
    unfold scrollLoop scrolls
    by_cases hnear : b.Near target
    · rw [if_pos hnear]
      simp only [if_pos (show |b.scrollPosition - target| < 100 from hnear)]
      exact (List.append_nil _).symm
    · rw [if_neg hnear]
      simp only [if_neg (show ¬ |b.scrollPosition - target| < 100 from hnear)]
      rw [ih, (scrollPage_spec R _ b).2.2, List.append_assoc, List.singleton_append, List.map_cons]

theorem mem_scrolls {target : ℤ} {n : ℕ} : ∀ {b s : BehaviorEngine σ},
    s ∈ scrolls R target n b → ¬ s.Near target ∧ s.profile = b.profile := by
  induction n with
  | zero => exact fun hs => absurd hs List.not_mem_nil
  | succ n ih =>
    intro b s hs
    unfold scrolls at hs
    split at hs
    · cases hs
    · rename_i hnear
      rcases List.mem_cons.1 hs with rfl | hs
      · exact ⟨hnear, rfl⟩
      · obtain ⟨hnot, hprofile⟩ := ih hs
        exact ⟨hnot, hprofile.trans (scrollPage_spec R _ b).1⟩

/-- The distance lies in the range of the profile. -/
theorem le_distance (R : Rng σ) (b : BehaviorEngine σ) :
    b.profile.scrollDistancePx.1 ≤ b.distance R := by
  unfold distance randMs
  split
  · exact le_rfl
  · rename_i hrange
    exact (R.randint_mem (not_le.1 hrange).le _).1

/-- Each scroll of `scroll_to_element` is in the direction of the element. -/
def Approaches (R : Rng σ) (bbox : Option (ℤ × ℤ × ℤ × ℤ)) (maxScrolls : ℤ)
    (b : BehaviorEngine σ) : Prop :=
  ∃ made, (b.scrollToElement R bbox maxScrolls).2.scrolled = b.scrolled ++ made ∧
    ∀ p ∈ made, Toward (targetY bbox) p.1 p.2

/-- **Scrolling to an element** goes in its direction just when each distance that is drawn is negative;
with distances that are not, just when there is no scroll. -/
theorem approaches_iff (R : Rng σ) (bbox : Option (ℤ × ℤ × ℤ × ℤ)) (maxScrolls : ℤ)
    (b : BehaviorEngine σ) :
    (Approaches R bbox maxScrolls b ↔
        ∀ s ∈ scrolls R (targetY bbox) maxScrolls.toNat b, s.distance R < 0) ∧
      (0 ≤ b.profile.scrollDistancePx.1 →
        (Approaches R bbox maxScrolls b ↔ maxScrolls ≤ 0 ∨ b.Near (targetY bbox))) := by
  have hiff : Approaches R bbox maxScrolls b ↔
      ∀ s ∈ scrolls R (targetY bbox) maxScrolls.toNat b, s.distance R < 0 := by
    have hmade := scrollLoop_scrolled R (targetY bbox) maxScrolls.toNat b
    unfold Approaches scrollToElement
    rw [hmade]
    simp only [List.append_cancel_left_eq, exists_eq_left', List.forall_mem_map]
    exact forall₂_congr fun _ hs => toward_iff (mem_scrolls hs).1
  refine ⟨hiff, fun hrange => hiff.trans ⟨fun h => ?_, fun h => ?_⟩⟩
  · by_contra hscroll
    rw [not_or] at hscroll
    obtain ⟨n, hn⟩ := Nat.exists_eq_succ_of_ne_zero (n := maxScrolls.toNat) (by omega)
    have hfirst : b ∈ scrolls R (targetY bbox) maxScrolls.toNat b := by
      rw [hn]
      unfold scrolls
      rw [if_neg hscroll.2]
      exact List.mem_cons_self
    have hle := le_distance R b
    have hlt := h b hfirst
    omega
  · have hnone : scrolls R (targetY bbox) maxScrolls.toNat b = [] := by
      rcases h with hzero | hnear
      · rw [Int.toNat_of_nonpos hzero]
        rfl
      · cases maxScrolls.toNat with
        | zero => rfl
        | succ n => exact if_pos hnear
    rw [hnone]
    exact fun s hs => absurd hs List.not_mem_nil

/-- A generator that draws the least of what it may. -/
def leastRng : Rng Unit where
  random s := (0, s)
  uniform low _ s := (low, s)
  randint low _ s := (low, s)
  choice text s := (text.headD (.char ' '), s)
  random_mem _ := by norm_num
  randint_mem h _ := ⟨le_rfl, h⟩
  choice_mem {text} h _ := by
    cases text with
    | nil => exact absurd rfl h
    | cons c text => exact List.mem_cons_self

/-- An element below, and one scroll, which goes up. -/
theorem not_approaches_below : ¬ Approaches leastRng (some (0, 500, 100, 40)) 1 { rng := () } := by
  rintro ⟨made, hmade, htoward⟩
  have hscroll : (scrollToElement leastRng (some (0, 500, 100, 40)) 1 { rng := () }).2.scrolled =
      [(0, -300)] := by rfl
  have hmade' : made = [(0, -300)] := (hmade.symm.trans hscroll)
  rw [hmade'] at htoward
  exact absurd (htoward _ List.mem_cons_self) (by decide)

theorem approaches_near : Approaches leastRng (some (0, 50, 100, 40)) 10 { rng := () } :=
  ((approaches_iff leastRng (some (0, 50, 100, 40)) 10 { rng := () }).2 (by decide)).2
    (.inr (by decide))

/-! ## Typing -/

/-- What a key does to a text. -/
def typed (text : PyStr) : Keystroke → PyStr
  | .write ch => text ++ [ch]
  | .backspace => text.dropLast

/-- The keys that are pressed leave the text, and there are as many backspaces as errors. -/
structure Types (text : PyStr) (errors : ℕ) (keys : List Keystroke) : Prop where
  text : ∀ before, keys.foldl typed before = before ++ text
  errors : errors = keys.count .backspace

theorem Types.append {text text' : PyStr} {errors errors' : ℕ} {keys keys' : List Keystroke}
    (h : Types text errors keys) (h' : Types text' errors' keys') :
    Types (text ++ text') (errors + errors') (keys ++ keys') where
  text before := by rw [List.foldl_append, h.text, h'.text, List.append_assoc]
  errors := by rw [List.count_append, h.errors, h'.errors]

theorem types_write (ch : PyChar) : Types [ch] 0 [.write ch] := ⟨fun _ => rfl, rfl⟩

/-- A wrong character is taken back. -/
theorem types_mistake (wrong : PyChar) : Types [] 1 [.write wrong, .backspace] where
  text before := by
    show (before ++ [wrong]).dropLast = before ++ []
    rw [List.dropLast_concat, List.append_nil]
  errors := rfl

/-- What comes before a character: a mistake, or nothing. -/
theorem mistake_types (R : Rng σ) (wrong : Bool) (errors : ℕ) (b : BehaviorEngine σ) :
    ∃ made keys, Types [] made keys ∧
      (if wrong then (errors + 1, b.mistype R) else (errors, b)).1 = errors + made ∧
      (if wrong then (errors + 1, b.mistype R) else (errors, b)).2.keys = b.keys ++ keys := by
  cases wrong with
  | false => exact ⟨0, [], ⟨fun before => (List.append_nil before).symm, rfl⟩, rfl,
      (List.append_nil _).symm⟩
  | true =>
    refine ⟨1, [.write (R.choice (py "abcdefghijklmnopqrstuvwxyz") b.rng).1, .backspace],
      types_mistake _, rfl, ?_⟩
    show b.keys ++ [_] ++ [_] = _
    rw [List.append_assoc]
    rfl

/-- **The loop of `type_text`**: what it presses, and how many errors it counts. -/
theorem typeLoop_types (R : Rng σ) (text : PyStr) : ∀ errors burst (b : BehaviorEngine σ),
    ∃ made keys, Types text made keys ∧ (typeLoop R text errors burst b).1 = errors + made ∧
      (typeLoop R text errors burst b).2.keys = b.keys ++ keys := by
  induction text with
  | nil => exact fun errors burst b => ⟨0, [], ⟨fun before => (List.append_nil before).symm, rfl⟩, rfl,
      (List.append_nil _).symm⟩
  | cons ch text ih =>
    intro errors burst b
    have hmistypes := (mistypes_drawn (R := R) ch b).keys
    obtain ⟨made, keys, htypes, herrors, hkeys⟩ :=
      mistake_types R (b.mistypes R ch).1 errors (b.mistypes R ch).2
    unfold typeLoop
    simp only
    generalize (if (b.mistypes R ch).1 then (errors + 1, (b.mistypes R ch).2.mistype R)
      else (errors, (b.mistypes R ch).2)) = r at herrors hkeys ⊢
    -- the character, and the rest of the text
    have hnext : ∀ burst (next : BehaviorEngine σ), next.keys = r.2.keys ++ [.write ch] →
        ∃ made keys, Types (ch :: text) made keys ∧
          (typeLoop R text r.1 burst next).1 = errors + made ∧
          (typeLoop R text r.1 burst next).2.keys = b.keys ++ keys := by
      intro burst next hwrite
      obtain ⟨made', keys', htypes', herrors', hkeys'⟩ := ih r.1 burst next
      have hchar : Types (ch :: text) (0 + made') (.write ch :: keys') :=
        (types_write ch).append htypes'
      refine ⟨made + (0 + made'), keys ++ .write ch :: keys', htypes.append hchar, ?_, ?_⟩
      · rw [herrors', herrors]
        omega
      · rw [hkeys', hwrite, hkeys, hmistypes]
        simp only [List.append_assoc, List.singleton_append]
    split
    · refine hnext _ _ ?_
      exact ((randMs_drawn _ _).trans (randMs_drawn _ _)).keys
    · exact hnext _ _ rfl

/-- **Typing** leaves the text, and its `error_count` is the number of backspaces. -/
theorem typeText_types (R : Rng σ) (text : PyStr) (b : BehaviorEngine σ) :
    ∃ keys, (b.typeText R text).2.keys = b.keys ++ keys ∧ keys.foldl typed [] = text ∧
      (b.typeText R text).1.2 = keys.count .backspace := by
  obtain ⟨made, keys, htypes, herrors, hkeys⟩ := typeLoop_types R text 0
    (b.randMs R b.profile.typingBurstSize).1 (b.randMs R b.profile.typingBurstSize).2
  have hdrawn := (randMs_drawn (R := R) b.profile.typingBurstSize b).keys
  refine ⟨keys, hkeys.trans (by rw [hdrawn]), htypes.text [], ?_⟩
  exact herrors.trans ((Nat.zero_add _).trans htypes.errors)

end BehaviorEngine

/-!
## Reading to the end

Each round of `read_text` goes forward, or goes back and uses up one of the regressions that there are.

* `flatten_groupsOf`: the groups are the words.
* `round_cases`: what a round does.
* `Reads`, `reads_round`: what is known of the rounds so far.
* `loop_reads`: three rounds for each group are enough.
* `readText_reads`: the loop ends, and has fixated each group.
-/

/-! ## Groups -/

theorem flatten_groupsOf {n : ℕ} (hn : 0 < n) (words : List PyStr) :
    (groupsOf n words).flatten = words := by
  have htake : ∀ m, ((List.range m).map fun k => (words.drop (k * n)).take n).flatten =
      words.take (m * n) := by
    intro m
    induction m with
    | zero => simp
    | succ m ih =>
      rw [List.range_succ, List.map_append, List.flatten_append, ih, Nat.succ_mul, List.take_add]
      simp
  have hall : words.length ≤ (words.length + n - 1) / n * n := by
    have hdiv := Nat.div_add_mod (words.length + n - 1) n
    have hmod := Nat.mod_lt (words.length + n - 1) hn
    rw [mul_comm] at hdiv
    omega
  unfold groupsOf
  rw [htake, List.take_of_length_le hall]

namespace ReadLoop

variable {σ : Type} {R : Rng σ} {groups : List (List PyStr)} {region : ℤ × ℤ × ℤ × ℤ}
  {s : ReadLoop σ}

/-- **What a round does**: the eyes go back, where they may, or on. -/
theorem round_cases (R : Rng σ) (groups : List (List PyStr)) (region : ℤ × ℤ × ℤ × ℤ)
    (s : ReadLoop σ) :
    (0 < s.i ∧ s.justRegressed = false ∧ s.regressions < groups.length ∧
        (s.round R groups region).i = s.i - 1 ∧
        (s.round R groups region).regressions = s.regressions + 1 ∧
        (s.round R groups region).justRegressed = true ∧
        (s.round R groups region).rounds = s.rounds ++ [⟨s.i, true⟩]) ∨
      ((s.round R groups region).i = s.i + 1 ∧
        (s.round R groups region).regressions = s.regressions ∧
        (s.round R groups region).justRegressed = false ∧
        (s.round R groups region).rounds = s.rounds ++ [⟨s.i, false⟩]) := by
  have hback : ∀ b : BehaviorEngine σ, (s.regresses R groups b).1 = true →
      0 < s.i ∧ s.justRegressed = false ∧ s.regressions < groups.length := by
    intro b h
    unfold regresses at h
    split at h
    · assumption
    · cases h
  unfold round
  simp only
  split
  · rename_i hregress
    obtain ⟨hi, hjust, hless⟩ := hback _ hregress
    exact .inl ⟨hi, hjust, hless, rfl, rfl, rfl, by rw [hregress]⟩
  · rename_i hregress
    exact .inr ⟨rfl, rfl, rfl, by rw [Bool.eq_false_of_not_eq_true hregress]⟩

/-! ## Invariant -/

/-- What is known of the rounds so far: the groups before this one have been fixated; the regressions are
counted, and are not more than the groups; no two of them follow each other. -/
structure Reads (groups : List (List PyStr)) (s : ReadLoop σ) : Prop where
  place : s.i ≤ groups.length
  fixated : ∀ k < s.i, ∃ r ∈ s.rounds, r.group = k
  counted : s.regressions = (s.rounds.filter (·.regressed)).length
  bounded : s.regressions ≤ groups.length
  apart : s.rounds.IsChain fun r r' => ¬ (r.regressed = true ∧ r'.regressed = true)
  last : ∀ r ∈ s.rounds.getLast?, r.regressed = s.justRegressed

theorem reads_new (groups : List (List PyStr)) (b : BehaviorEngine σ) :
    Reads groups { engine := b } where
  place := Nat.zero_le _
  fixated k hk := absurd hk (Nat.not_lt_zero k)
  counted := rfl
  bounded := Nat.zero_le _
  apart := .nil
  last := nofun

/-- **A round keeps** what is known. -/
theorem reads_round (h : Reads groups s) (hi : s.i < groups.length) :
    Reads groups (s.round R groups region) := by
  have hcovers : ∀ back k, k < s.i + 1 → ∃ r ∈ s.rounds ++ [⟨s.i, back⟩], r.group = k := by
    intro back k hk
    rcases Nat.lt_succ_iff_lt_or_eq.1 hk with hlt | rfl
    · obtain ⟨r, hr, hgroup⟩ := h.fixated k hlt
      exact ⟨r, List.mem_append_left _ hr, hgroup⟩
    · exact ⟨_, List.mem_append_right _ (List.mem_singleton.2 rfl), rfl⟩
  have hchain : ∀ back, (back = true → s.justRegressed = false) →
      (s.rounds ++ [Fixation.mk s.i back]).IsChain fun r r' => ¬ (r.regressed = true ∧ r'.regressed = true) := by
    intro back hback
    refine List.isChain_append.2 ⟨h.apart, .singleton _, fun r hr r' hr' => ?_⟩
    obtain rfl : _ = r' := Option.some.inj hr'
    rintro ⟨hfirst, hsecond⟩
    rw [h.last r hr, hback hsecond] at hfirst
    exact Bool.noConfusion hfirst
  have hlast : ∀ back, ∀ r ∈ (s.rounds ++ [Fixation.mk s.i back]).getLast?, r.regressed = back := by
    intro back r hr
    rw [List.getLast?_concat] at hr
    obtain rfl := Option.some.inj hr
    rfl
  rcases round_cases R groups region s with
    ⟨hpos, hjust, hless, hi', hcount, hjust', hrounds⟩ | ⟨hi', hcount, hjust', hrounds⟩
  · refine ⟨by omega, fun k hk => ?_, ?_, by omega, ?_, ?_⟩
    · rw [hrounds]
      exact hcovers true k (by omega)
    · rw [hcount, hrounds, List.filter_append, List.length_append, h.counted]
      rfl
    · rw [hrounds]
      exact hchain true fun _ => hjust
    · rw [hrounds, hjust']
      exact hlast true
  · refine ⟨by omega, fun k hk => ?_, ?_, by rw [hcount]; exact h.bounded, ?_, ?_⟩
    · rw [hrounds]
      exact hcovers false k (by omega)
    · rw [hcount, hrounds, List.filter_append, List.length_append, h.counted]
      rfl
    · rw [hrounds]
      exact hchain false nofun
    · rw [hrounds, hjust']
      exact hlast false

/-- The rounds that may still come. -/
def left (groups : List (List PyStr)) (s : ReadLoop σ) : ℕ :=
  2 * (groups.length - s.regressions) + (groups.length - s.i)

variable (R region) in
theorem left_round (hi : s.i < groups.length) :
    left groups (s.round R groups region) < left groups s := by
  unfold left
  rcases round_cases R groups region s with ⟨hpos, -, hless, hi', hcount, -⟩ | ⟨hi', hcount, -⟩
  · rw [hi', hcount]
    omega
  · rw [hi', hcount]
    omega

variable (R region) in
/-- **The loop ends**, after as many rounds as may still come. -/
theorem loop_reads (n : ℕ) : ∀ {s : ReadLoop σ}, Reads groups s → left groups s ≤ n →
    ∃ s', loop R groups region n s = some s' ∧ Reads groups s' ∧ s'.i = groups.length := by
  induction n with
  | zero =>
    intro s h hleft
    unfold left at hleft
    have hplace := h.place
    exact ⟨s, if_neg (by omega), h, by omega⟩
  | succ n ih =>
    intro s h hleft
    unfold loop
    by_cases hi : s.i < groups.length
    · rw [if_pos hi]
      have hless := left_round R region hi
      exact ih (reads_round h hi) (by omega)
    · rw [if_neg hi]
      exact ⟨s, rfl, h, le_antisymm h.place (not_lt.1 hi)⟩

end ReadLoop

/-! ## The whole text -/

/-- Each group is fixated; there are not more regressions than groups, and no two follow each other. -/
structure ReadThrough {σ : Type} (groups : List (List PyStr)) (s : ReadLoop σ) : Prop where
  fixated : ∀ k < groups.length, ∃ r ∈ s.rounds, r.group = k
  counted : s.regressions = (s.rounds.filter (·.regressed)).length
  bounded : s.regressions ≤ groups.length
  apart : s.rounds.IsChain fun r r' => ¬ (r.regressed = true ∧ r'.regressed = true)

/-- **Reading a text**: the loop ends within three rounds for each group of words, and reads it
through; the groups are the words of the text. -/
theorem BehaviorEngine.readText_reads {σ : Type} (R : Rng σ) (U : Unicode) (text : PyStr)
    (region : ℤ × ℤ × ℤ × ℤ) (b : BehaviorEngine σ) :
    (b.groups U text).flatten = text.split U ∧
      ∃ s, b.readText R U (3 * (b.groups U text).length) text region = some s ∧
        ReadThrough (b.groups U text) s := by
  have hpositive : 0 < (max 1 b.profile.readingWordsPerFixation).toNat := by omega
  have hwords : (b.groups U text).flatten = text.split U := flatten_groupsOf hpositive _
  refine ⟨hwords, ?_⟩
  have hnew := ReadLoop.reads_new (b.groups U text) b
  unfold readText
  split
  · rename_i hnone
    have hgroups : b.groups U text = [] := by
      unfold BehaviorEngine.groups groupsOf
      rw [hnone, List.length_nil, Nat.zero_add, Nat.div_eq_of_lt (by omega)]
      rfl
    refine ⟨_, rfl, ?_, hnew.counted, hnew.bounded, hnew.apart⟩
    rw [hgroups]
    exact fun k hk => absurd hk (Nat.not_lt_zero k)
  · have hleft : ReadLoop.left (b.groups U text) { engine := b } ≤ 3 * (b.groups U text).length := by
      unfold ReadLoop.left
      simp only
      omega
    obtain ⟨s, hloop, hreads, hend⟩ := ReadLoop.loop_reads R region _ hnew hleft
    exact ⟨s, hloop, hend ▸ hreads.fixated, hreads.counted, hreads.bounded, hreads.apart⟩

end Hermes

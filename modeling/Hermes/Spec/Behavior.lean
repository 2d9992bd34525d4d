import Mathlib.Data.Rat.Floor
import Hermes.Spec.McpFraming

/-!
# Human-like behavior (`plugins/builtin/desktop_control/behavior.py`)

Scrolling, typing and reading of a `BehaviorEngine`, with what is done to `pyautogui`. Each draw takes
the generator on. Floats are rationals. Left out: the mouse, sleeps, durations and events.
-/

namespace Hermes

/-- A `random.Random`: what it draws in a state, and the state after that. -/
structure Rng (σ : Type) where
  random : σ → ℚ × σ
  uniform : ℚ → ℚ → σ → ℚ × σ
  randint : ℤ → ℤ → σ → ℤ × σ
  choice : PyStr → σ → PyChar × σ
  random_mem : ∀ s, 0 ≤ (random s).1 ∧ (random s).1 < 1
  randint_mem : ∀ {lo hi}, lo ≤ hi → ∀ s, lo ≤ (randint lo hi s).1 ∧ (randint lo hi s).1 ≤ hi
  choice_mem : ∀ {text}, text ≠ [] → ∀ s, (choice text s).1 ∈ text

/-- The fields of a `BehaviorProfile` that are read here. -/
structure BehaviorProfile where
  mousePauseMs : ℤ × ℤ := (50, 150)
  scrollMomentum : Bool := true
  scrollDistancePx : ℤ × ℤ := (300, 800)
  scrollPauseMs : ℤ × ℤ := (500, 2000)
  scrollReadingPauseMs : ℤ × ℤ := (2000, 5000)
  typingWpm : ℤ := 40
  typingErrorRate : ℚ := 2 / 100
  typingBurstSize : ℤ × ℤ := (3, 8)
  gazeFixationMs : ℤ × ℤ := (150, 400)
  gazeSaccadeMs : ℤ × ℤ := (20, 80)
  readingWordsPerFixation : ℤ := 2
  readingRegressionRate : ℚ := 1 / 10

/-- What is done to the keyboard. -/
inductive Keystroke where
  | write (ch : PyChar)
  | backspace
  deriving DecidableEq, Repr

/-- A `BehaviorEngine`, with the generator, the keys that it has pressed, the turns of the wheel, and the
positions before and after each scroll. -/
structure BehaviorEngine (σ : Type) where
  profile : BehaviorProfile := {}
  scrollPosition : ℤ := 0
  gazeTarget : Option (ℤ × ℤ) := none
  rng : σ
  keys : List Keystroke := []
  wheel : List ℤ := []
  scrolled : List (ℤ × ℤ) := []

/-- `round`, half to even. -/
def pyRound (x : ℚ) : ℤ :=
  let below := x.floor
  if x - below < 1 / 2 then below
  else if 1 / 2 < x - below then below + 1
  else if below % 2 = 0 then below else below + 1

namespace BehaviorEngine

variable {σ : Type} (R : Rng σ)

/-- `_rand_ms`. -/
def randMs (span : ℤ × ℤ) (b : BehaviorEngine σ) : ℤ × BehaviorEngine σ :=
  if span.2 ≤ span.1 then (span.1, b)
  else
    let (ms, rng) := R.randint span.1 span.2 b.rng
    (ms, { b with rng })

/-- `_pause_ms`. -/
def pauseMs (span : ℤ × ℤ) (b : BehaviorEngine σ) : BehaviorEngine σ := (b.randMs R span).2

/-! ## Scrolling -/

/-- `_momentum_weights`. -/
def momentumWeights (chunks : ℤ) : List ℚ :=
  let half : ℚ := (chunks - 1) / 2
  let raw := (List.range chunks.toNat).map fun i : ℕ => 1 - |(i : ℚ) - half| / (half + 1)
  let s := if raw.sum = 0 then 1 else raw.sum
  raw.map (· / s)

/-- One chunk of a scroll. -/
def scrollChunk (sign total : ℤ) (b : BehaviorEngine σ) (w : ℚ) : BehaviorEngine σ :=
  let step := max 1 (pyRound (total * w))
  let b := { b with wheel := b.wheel ++ [sign * step] }
  if b.profile.scrollMomentum then b.pauseMs R b.profile.scrollPauseMs else b

/-- `scroll_page`. -/
def scrollPage (direction : String) (b : BehaviorEngine σ) : ℤ × BehaviorEngine σ :=
  let (total, b) := b.randMs R b.profile.scrollDistancePx
  let sign := if direction = "down" then -1 else 1
  let (chunks, rng) := R.randint 3 6 b.rng
  let b := (momentumWeights chunks).foldl (scrollChunk R sign total) { b with rng }
  let b := b.pauseMs R b.profile.scrollReadingPauseMs
  let position := b.scrollPosition + sign * total
  (sign * total, { b with
    scrollPosition := position
    scrolled := b.scrolled ++ [(b.scrollPosition, position)] })

/-- The y of an element, by its `bbox`. -/
def targetY (bbox : Option (ℤ × ℤ × ℤ × ℤ)) : ℤ :=
  match bbox with
  | some (_, y, _, height) => y + height / 2
  | none => 0

/-- Where the loop of `scroll_to_element` scrolls. -/
def directionTo (target : ℤ) (b : BehaviorEngine σ) : String :=
  if b.scrollPosition < target then "down" else "up"

/-- The loop of `scroll_to_element`. -/
def scrollLoop (target : ℤ) : ℕ → BehaviorEngine σ → Bool × BehaviorEngine σ
  | 0, b => (decide (|b.scrollPosition - target| < 200), b)
  | n + 1, b =>
    if |b.scrollPosition - target| < 100 then (true, b)
    else scrollLoop target n (b.scrollPage R (b.directionTo target)).2

/-- `scroll_to_element`. -/
def scrollToElement (bbox : Option (ℤ × ℤ × ℤ × ℤ)) (maxScrolls : ℤ) (b : BehaviorEngine σ) :
    Bool × BehaviorEngine σ :=
  scrollLoop R (targetY bbox) maxScrolls.toNat b

/-! ## Typing -/

def press (key : Keystroke) (b : BehaviorEngine σ) : BehaviorEngine σ :=
  { b with keys := b.keys ++ [key] }

/-- The sleep of a `_char_interval`. -/
def charInterval (b : BehaviorEngine σ) : BehaviorEngine σ :=
  { b with rng := (R.uniform (6 / 10) (14 / 10) b.rng).2 }

/-- Whether a character is mistyped first. -/
def mistypes (ch : PyChar) (b : BehaviorEngine σ) : Bool × BehaviorEngine σ :=
  if ch = .char ' ' then (false, b)
  else
    let (x, rng) := R.random b.rng
    (decide (x < b.profile.typingErrorRate), { b with rng })

/-- A wrong character, and the backspace. -/
def mistype (b : BehaviorEngine σ) : BehaviorEngine σ :=
  let (wrong, rng) := R.choice (py "abcdefghijklmnopqrstuvwxyz") b.rng
  let b := ({ b with rng } : BehaviorEngine σ)
  let b := (b.press (.write wrong)).charInterval R
  (b.press .backspace).charInterval R

/-- The loop of `type_text`: the errors, and the engine after it. -/
def typeLoop : PyStr → ℕ → ℤ → BehaviorEngine σ → ℕ × BehaviorEngine σ
  | [], errors, _, b => (errors, b)
  | ch :: text, errors, burst, b =>
    let (wrong, b) := b.mistypes R ch
    let (errors, b) := if wrong then (errors + 1, b.mistype R) else (errors, b)
    let b := (b.press (.write ch)).charInterval R
    if burst - 1 ≤ 0 then
      let (burst, b) := (b.pauseMs R b.profile.mousePauseMs).randMs R b.profile.typingBurstSize
      typeLoop text errors burst b
    else typeLoop text errors (burst - 1) b

/-- `type_text`: its `wpm` and `error_count`. -/
def typeText (text : PyStr) (b : BehaviorEngine σ) : (ℤ × ℕ) × BehaviorEngine σ :=
  let (burst, b) := b.randMs R b.profile.typingBurstSize
  let (errors, b) := typeLoop R text 0 burst b
  ((b.profile.typingWpm, errors), b)

/-! ## Reading -/

/-- `gaze_at`, with a duration. -/
def gazeAt (x y : ℤ) (b : BehaviorEngine σ) : BehaviorEngine σ :=
  { b.pauseMs R b.profile.gazeSaccadeMs with gazeTarget := some (x, y) }

end BehaviorEngine

/-- `text.split()`. -/
def PyStr.split (U : Unicode) (text : PyStr) : List PyStr :=
  (text.splitOnP (PyStr.isSpace U)).filter (· ≠ [])

/-- `words[i : i + n] for i in range(0, len(words), n)`, for a positive `n`. -/
def groupsOf (n : ℕ) (words : List PyStr) : List (List PyStr) :=
  (List.range ((words.length + n - 1) / n)).map fun k => (words.drop (k * n)).take n

/-- A round of the loop of `read_text`: the group that is fixated, and whether the eyes go back. -/
structure Fixation where
  group : ℕ
  regressed : Bool
  deriving DecidableEq, Repr

/-- The loop of `read_text`, with its rounds so far. -/
structure ReadLoop (σ : Type) where
  engine : BehaviorEngine σ
  i : ℕ := 0
  regressions : ℕ := 0
  justRegressed : Bool := false
  wordsRead : ℕ := 0
  rounds : List Fixation := []

namespace ReadLoop

variable {σ : Type} (R : Rng σ) (groups : List (List PyStr)) (region : ℤ × ℤ × ℤ × ℤ)

/-- Where a group is. -/
def position (i : ℕ) : ℤ × ℤ :=
  let (rx, ry, rw, rh) := region
  let frac : ℚ := (i : ℚ) / (max 1 (groups.length - 1) : ℕ)
  (rx + pyRound (rw * frac), ry + rh / 2)

/-- Whether the eyes go back. -/
def regresses (s : ReadLoop σ) (b : BehaviorEngine σ) : Bool × BehaviorEngine σ :=
  if 0 < s.i ∧ s.justRegressed = false ∧ s.regressions < groups.length then
    let (x, rng) := R.random b.rng
    (decide (x < b.profile.readingRegressionRate), { b with rng })
  else (false, b)

/-- One round. -/
def round (s : ReadLoop σ) : ReadLoop σ :=
  let (gx, gy) := position groups region s.i
  let (_, b) := s.engine.randMs R s.engine.profile.gazeFixationMs
  let b := b.gazeAt R gx gy
  let wordsRead := s.wordsRead + (groups.getD s.i []).length
  let (back, b) := s.regresses R groups b
  let rounds := s.rounds ++ [{ group := s.i, regressed := back }]
  if back then
    { engine := b, i := s.i - 1, regressions := s.regressions + 1, justRegressed := true,
      wordsRead, rounds }
  else
    { engine := b, i := s.i + 1, regressions := s.regressions, justRegressed := false,
      wordsRead, rounds }

/-- The loop, for at most so many rounds. -/
def loop : ℕ → ReadLoop σ → Option (ReadLoop σ)
  | 0, s => if s.i < groups.length then none else some s
  | n + 1, s => if s.i < groups.length then loop n (s.round R groups region) else some s

end ReadLoop

/-- The groups of words that `read_text` makes. -/
def BehaviorEngine.groups {σ : Type} (U : Unicode) (text : PyStr) (b : BehaviorEngine σ) :
    List (List PyStr) :=
  groupsOf (max 1 b.profile.readingWordsPerFixation).toNat (text.split U)

/-- `read_text`, if so many rounds are enough for it. Without words nothing is done. -/
def BehaviorEngine.readText {σ : Type} (R : Rng σ) (U : Unicode) (rounds : ℕ) (text : PyStr)
    (region : ℤ × ℤ × ℤ × ℤ) (b : BehaviorEngine σ) : Option (ReadLoop σ) :=
  if text.split U = [] then some { engine := b }
  else ReadLoop.loop R (b.groups U text) region rounds { engine := b }

end Hermes

import Mathlib.Data.List.Infix
import Mathlib.Tactic

/-!
# Event streams

A stream of events, each of which is a few lines `name: value` and then an empty line.

* `encode`: the text of an event.
* `decode`: the events that are complete in what has come of a stream.
* `decode_flatMap_encode`: a stream of well-formed events is read as these events.
* `decode_prefix`: what comes later does not change the events that are complete.
-/

namespace EventStream

/-- The characters that structure a stream. -/
structure Marks (α : Type*) where
  newline : α
  colon : α
  space : α
  colon_ne : colon ≠ newline
  space_ne : space ≠ newline

variable {α : Type*} [DecidableEq α] (M : Marks α)

/-- The text of a line with its end. -/
def encodeField (f : List α × List α) : List α := f.1 ++ M.colon :: M.space :: (f.2 ++ [M.newline])

/-- The text of an event. -/
def encode (e : List (List α × List α)) : List α := e.flatMap (encodeField M) ++ [M.newline]

/-- A line that is read: what is before its first colon, and what is behind it, without one space. -/
def readField (line : List α) : List α × List α :=
  let name := line.takeWhile (· ≠ M.colon)
  let value := line.drop (name.length + 1)
  (name, if value.head? = some M.space then value.tail else value)

/-- The events in a stream, after a part of a line and the fields of an event. An empty line ends the
event, if there are fields. -/
def scan : List α → List (List α × List α) → List α → List (List (List α × List α))
  | _, _, [] => []
  | line, event, c :: cs =>
    if c = M.newline then
      if line = [] then
        if event = [] then scan [] [] cs else event :: scan [] [] cs
      else scan [] (event ++ [readField M line]) cs
    else scan (line ++ [c]) event cs

/-- The events that are complete in what has come of a stream. -/
def decode (stream : List α) : List (List (List α × List α)) := scan M [] [] stream

/-- No line of the event ends early, and no name goes on into its value. -/
structure WellFormed (e : List (List α × List α)) : Prop where
  nonempty : e ≠ []
  name_line : ∀ f ∈ e, M.newline ∉ f.1
  name_colon : ∀ f ∈ e, M.colon ∉ f.1
  value_line : ∀ f ∈ e, M.newline ∉ f.2

instance (e : List (List α × List α)) : Decidable (WellFormed M e) :=
  decidable_of_iff (e ≠ [] ∧ (∀ f ∈ e, M.newline ∉ f.1) ∧ (∀ f ∈ e, M.colon ∉ f.1) ∧
      ∀ f ∈ e, M.newline ∉ f.2)
    ⟨fun h => ⟨h.1, h.2.1, h.2.2.1, h.2.2.2⟩, fun h => ⟨h.1, h.2, h.3, h.4⟩⟩

variable {M} {e : List (List α × List α)} {event : List (List α × List α)} {line stream : List α}

theorem readField_encode {name : List α} (hname : M.colon ∉ name) (value : List α) :
    readField M (name ++ M.colon :: M.space :: value) = (name, value) := by
  have htake : (name ++ M.colon :: M.space :: value).takeWhile (· ≠ M.colon) = name := by
    rw [List.takeWhile_append_of_pos]
    · simp
    · intro c hc
      exact decide_eq_true (ne_of_mem_of_not_mem hc hname)
  unfold readField
  simp only [htake]
  rw [← List.drop_drop, List.drop_left]
  simp

/-- The characters of a line are collected until it ends. -/
theorem scan_line {rest : List α} (hrest : M.newline ∉ rest) (hline : line ++ rest ≠ []) :
    scan M line event (rest ++ M.newline :: stream) =
      scan M [] (event ++ [readField M (line ++ rest)]) stream := by
  induction rest generalizing line with
  | nil =>
    rw [List.append_nil] at hline ⊢
    rw [List.nil_append, scan, if_pos rfl, if_neg hline]
  | cons c rest ih =>
    have hc : c ≠ M.newline := fun h => hrest (h ▸ List.mem_cons_self)
    rw [List.cons_append, scan, if_neg hc, ih (fun h => hrest (List.mem_cons_of_mem _ h)) (by simp),
      List.append_assoc]
    rfl

theorem scan_field {f : List α × List α} (hname : M.newline ∉ f.1) (hcolon : M.colon ∉ f.1)
    (hvalue : M.newline ∉ f.2) :
    scan M [] event (encodeField M f ++ stream) = scan M [] (event ++ [f]) stream := by
  have hsplit : encodeField M f ++ stream =
      (f.1 ++ M.colon :: M.space :: f.2) ++ M.newline :: stream := by
    unfold encodeField
    simp
  have hrest : M.newline ∉ f.1 ++ M.colon :: M.space :: f.2 := by
    simp only [List.mem_append, List.mem_cons, not_or]
    exact ⟨hname, M.colon_ne.symm, M.space_ne.symm, hvalue⟩
  rw [hsplit, scan_line hrest (by simp), List.nil_append, readField_encode hcolon]

/-- The fields of an event are collected until it ends. -/
theorem scan_fields (hname : ∀ f ∈ e, M.newline ∉ f.1) (hcolon : ∀ f ∈ e, M.colon ∉ f.1)
    (hvalue : ∀ f ∈ e, M.newline ∉ f.2) :
    scan M [] event (e.flatMap (encodeField M) ++ stream) = scan M [] (event ++ e) stream := by
  induction e generalizing event with
  | nil => simp
  | cons f e ih =>
    rw [List.flatMap_cons, List.append_assoc,
      scan_field (hname f List.mem_cons_self) (hcolon f List.mem_cons_self)
        (hvalue f List.mem_cons_self),
      ih (fun g hg => hname g (List.mem_cons_of_mem _ hg))
        (fun g hg => hcolon g (List.mem_cons_of_mem _ hg))
        (fun g hg => hvalue g (List.mem_cons_of_mem _ hg)),
      List.append_assoc]
    rfl

theorem decode_encode_append (h : WellFormed M e) (stream : List α) :
    decode M (encode M e ++ stream) = e :: decode M stream := by
  unfold decode encode
  rw [List.append_assoc, scan_fields h.name_line h.name_colon h.value_line, List.nil_append,
    List.singleton_append, scan, if_pos rfl, if_pos rfl, if_neg h.nonempty]

/-- **A stream of events is read as these events.** -/
theorem decode_flatMap_encode {es : List (List (List α × List α))} (h : ∀ e ∈ es, WellFormed M e) :
    decode M (es.flatMap (encode M)) = es := by
  induction es with
  | nil => rfl
  | cons e es ih =>
    rw [List.flatMap_cons, decode_encode_append (h e List.mem_cons_self),
      ih fun e' he' => h e' (List.mem_cons_of_mem _ he')]

theorem scan_prefix (stream more : List α) : ∀ (line : List α) (event : List (List α × List α)),
    scan M line event stream <+: scan M line event (stream ++ more) := by
  induction stream with
  | nil => exact fun _ _ => List.nil_prefix
  | cons c stream ih =>
    intro line event
    rw [List.cons_append]
    unfold scan
    split
    · split
      · split
        · exact ih [] []
        · exact (List.prefix_cons_inj event).2 (ih [] [])
      · exact ih [] _
    · exact ih _ event

/-- **What comes later does not change the events that are complete.** -/
theorem decode_prefix {s t : List α} (h : s <+: t) : decode M s <+: decode M t := by
  obtain ⟨more, rfl⟩ := h
  exact scan_prefix s more [] []

end EventStream

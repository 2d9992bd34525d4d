import Hermes.Lib.History
import Hermes.Proof.FramingRoundTrip
import Hermes.Spec.McpStreamable

/-!
# What a GET with a `Last-Event-ID` delivers

* `frameKey_render`, `replaySince_eq`: the backlog is what is saved above a number, in order.
* `Consistent`: what a session keeps, and what each of its GETs has got and is still to get.
* `Fits`: no step gives a GET what its backlog had, or takes from the queue what another GET is to
  get, and a GET ends only when nothing is on its way to it.
* `resumable_delivery`: then each GET delivers what it should.
-/

namespace Hermes

open Backlog

/-! ## The backlog -/

theorem renderFrame_eq (seq : ℕ) {data : PyStr} (hdata : ¬ py "id:" <+: data) :
    ∃ rest, renderFrame seq data = py "id" ++ .char ':' ::
      ((py " " ++ (Nat.toDigits 10 seq).map .char) ++ .char '\n' :: rest) := by
  have hdigits : (toString seq).toList = Nat.toDigits 10 seq := Nat.toList_repr
  have hname : "id: ".toList = "id".toList ++ [':', ' '] := by decide
  have hblank : " ".toList = [' '] := by decide
  have hend : "\n".toList = ['\n'] := by decide
  have hbase : ∀ after : PyStr, py ("id: " ++ toString seq ++ "\n") ++ data ++ after =
      py "id" ++ .char ':' :: ((py " " ++ (Nat.toDigits 10 seq).map .char) ++
        .char '\n' :: (data ++ after)) := by
    intro after
    unfold py
    rw [String.toList_append, String.toList_append, hdigits, hname, hblank, hend]
    simp
  unfold renderFrame
  rw [if_neg hdata]
  simp only
  split
  · have h := hbase []
    rw [List.append_nil] at h
    exact ⟨_, h⟩
  · split
    · exact ⟨_, hbase _⟩
    · exact ⟨_, hbase _⟩

theorem PyStr.int_congr (U : Unicode) {a b : PyStr} (h : PyStr.strip U a = PyStr.strip U b) :
    PyStr.int U a = PyStr.int U b := by
  unfold PyStr.int
  rw [h]

/-- The key of a frame that is given its number is that number. -/
theorem frameKey_render (U : Unicode) (seq : ℕ) {data : PyStr} (hdata : ¬ py "id:" <+: data) :
    frameKey U (renderFrame seq data) = some (seq : ℤ) := by
  obtain ⟨rest, htext⟩ := renderFrame_eq seq hdata
  have hcolon : .char ':' ∉ py "id" := by decide
  have hnewline : .char '\n' ∉ py " " ++ (Nat.toDigits 10 seq).map PyChar.char := by
    intro h
    rcases List.mem_append.1 h with h | h
    · revert h
      decide
    · obtain ⟨ch, hch, heq⟩ := List.mem_map.1 h
      have hdigit := PyStr.ascii_of_digit (PyStr.digits_of_toDigits seq ch hch)
      rw [PyChar.char.inj heq] at hdigit
      revert hdigit
      decide
  have hspace : ∀ c ∈ py " ", PyStr.isSpace U c = true := by
    intro c hc
    have hc : c = .char ' ' := by simpa [py] using hc
    rw [hc]
    show U.space ' ' = true
    rw [U.space_ascii ' ' (by decide)]
    decide
  have hdigits : ∀ c ∈ (Nat.toDigits 10 seq).map PyChar.char, PyStr.isSpace U c = false := by
    intro c hc
    obtain ⟨ch, hch, rfl⟩ := List.mem_map.1 hc
    exact PyStr.isSpace_digit U (PyStr.digits_of_toDigits seq ch hch)
  have hstrip : ∀ a : PyStr, (∀ c ∈ a, PyStr.isSpace U c = true) →
      PyStr.strip U (a ++ (Nat.toDigits 10 seq).map .char) =
        (Nat.toDigits 10 seq).map .char := by
    intro a ha
    have h := PyStr.strip_padded U ha (b := []) nofun hdigits (by simp)
    rwa [List.append_nil] at h
  unfold frameKey
  rw [htext]
  simp only [PyStr.partition_cut hcolon, PyStr.partition_cut hnewline]
  rw [PyStr.int_congr U ((hstrip _ hspace).trans (hstrip [] nofun).symm)]
  exact PyStr.int_digits U seq

theorem Frame.text_eq (f : Frame) : f.text = renderFrame f.seq f.body.1 := by
  unfold Frame.text renderFrame
  rw [if_neg f.body.2.1]

theorem frameKey_text (U : Unicode) (f : Frame) : frameKey U f.text = some (f.seq : ℤ) := by
  rw [f.text_eq]
  exact frameKey_render U f.seq f.body.2.1

theorem replaySince_eq (U : Unicode) (rows : List Frame) (n : ℕ) :
    replaySince U rows n = some (backlog Frame.seq n rows) := by
  unfold replaySince backlog above
  simp only [frameKey_text, Option.isSome_some, Option.getD_some, Nat.cast_le]
  rw [if_pos (List.all_eq_true.2 fun _ _ => rfl)]

/-! ## What is delivered -/

/-- A GET delivers each frame at most once, in the order of the numbers, none up to its
`Last-Event-ID`, and none that was not pushed; when it ends, it has missed none. -/
structure Resumed (log : List Frame) (g : Get) : Prop where
  increasing : Increasing Frame.seq g.got
  above : ∀ f ∈ g.got, g.lastSeq < f.seq
  pushed : ∀ f ∈ g.got, f ∈ log
  complete : ∀ m, g.left = some m → ∀ f ∈ log.take m, g.lastSeq < f.seq → f ∈ g.got

namespace StreamableSession

/-- Each GET with a `Last-Event-ID` delivers what it should. -/
def Resumable (s : StreamableSession) : Prop := ∀ g ∈ s.gets, 0 < g.lastSeq → Resumed s.log g

/-- The frames in the queue. -/
def queued (s : StreamableSession) : List Frame := s.events.filterMap id

end StreamableSession

namespace Get

/-- The last number of the backlog, or the `Last-Event-ID`. -/
def resume (g : Get) : ℕ := reach Frame.seq g.lastSeq g.backlog

/-- The GET is to get this frame from the queue. -/
def Awaits (g : Get) (f : Frame) : Prop :=
  g.left = none ∧ 0 < g.lastSeq ∧ g.phase ≠ .connected ∧ g.resume < f.seq

/-- What is left of the backlog. -/
def todo (g : Get) : List Frame :=
  match g.phase with
  | .streaming todo => todo
  | _ => []

/-- Nothing is on its way to the GET. -/
def Settled (log queue : List Frame) (g : Get) : Prop :=
  if g.phase = .connected then ∀ f ∈ log, f.seq ≤ g.lastSeq
  else g.todo = [] ∧ ∀ f ∈ queue, f.seq ≤ g.resume

instance (g : Get) (f : Frame) : Decidable (g.Awaits f) := inferInstanceAs (Decidable (_ ∧ _))

instance (log queue : List Frame) (g : Get) : Decidable (g.Settled log queue) :=
  inferInstanceAs (Decidable (ite _ _ _))

end Get

namespace StreamableSession

/-- The step suits the GETs with a `Last-Event-ID` whose clients are there: a backlog is read when
each frame above the `Last-Event-ID` is saved, or queued above all that is saved; what a GET takes
from the queue is above its backlog, and no other GET is to get it; what is thrown away no GET is to
get; and a GET ends when nothing is on its way to it. -/
def Fits (s : StreamableSession) (e : StreamEvent) : Prop :=
  match e with
  | .replay g => ∀ get ∈ s.gets[g]?, get.phase = .connected → get.left = none → 0 < get.lastSeq →
      ∀ f ∈ s.log, get.lastSeq < f.seq → f ∈ s.rows ∨ f ∈ s.queued ∧ ∀ r ∈ s.rows, r.seq < f.seq
  | .replayFails g => ∀ get ∈ s.gets[g]?, get.phase = .connected → get.left = none →
      0 < get.lastSeq → ∀ f ∈ s.log, get.lastSeq < f.seq → f ∈ s.queued
  | .take g _ => ∀ get ∈ s.gets[g]?, get.phase = .streaming [] → ∀ f ∈ s.events.head?.join,
      (get.left = none → 0 < get.lastSeq → get.resume < f.seq) ∧
        ∀ other ∈ s.gets.eraseIdx g, ¬ other.Awaits f
  | .drain g => ∀ get ∈ s.gets[g]?, get.phase = .closing → s.ended = false →
      ∀ f ∈ s.events.head?.join, ∀ other ∈ s.gets, ¬ other.Awaits f
  | .leave g => ∀ get ∈ s.gets[g]?, get.left = none → 0 < get.lastSeq →
      get.Settled s.log s.queued
  | .finish g => ∀ get ∈ s.gets[g]?, get.phase = .closing → get.left = none → 0 < get.lastSeq →
      get.Settled s.log s.queued
  | _ => True

instance (s : StreamableSession) : DecidablePred s.Fits
  | .replay _ | .replayFails _ | .take _ _ | .drain _ | .leave _ | .finish _ =>
    inferInstanceAs (Decidable (∀ _ ∈ _, _))
  | .push _ | .saved | .evict _ | .endSession | .connect _ | .abort _ | .writeBacklog _ _
  | .timeout _ => inferInstanceAs (Decidable True)

/-! ## What each GET has got -/

end StreamableSession

namespace Get

variable {log queue : List Frame} {f : Frame} {g : Get}

/-- What a GET has got, what is left of its backlog and what it is to get from the queue make up the
log above its `Last-Event-ID`. -/
structure Whole (log queue : List Frame) (g : Get) (todo : List Frame) : Prop where
  all : g.got ++ todo ++ above Frame.seq g.resume queue = above Frame.seq g.lastSeq log
  backlog : ∀ f ∈ g.backlog, f ∈ log

/-- A GET whose client is there. -/
def There (log queue : List Frame) (g : Get) : Prop :=
  match g.phase with
  | .connected => g.got = [] ∧ g.backlog = []
  | .streaming todo => Whole log queue g todo
  | .closing => Whole log queue g []
  | .done => False

/-- What a GET has got so far. -/
structure Sound (log queue : List Frame) (g : Get) : Prop where
  away : ∀ m, g.left = some m → m ≤ log.length ∧ g.got = above Frame.seq g.lastSeq (log.take m)
  there : g.left = none → There log queue g

theorem Sound.resumed (hlog : Increasing Frame.seq log) (h : Sound log queue g) : Resumed log g := by
  have hpart : ∃ l, (g.got ++ l).Sublist (above Frame.seq g.lastSeq log) ∧
      ∀ m, g.left = some m → g.got = above Frame.seq g.lastSeq (log.take m) := by
    cases hleft : g.left with
    | some m =>
      obtain ⟨-, hgot⟩ := h.away m hleft
      refine ⟨[], ?_, ?_⟩
      · rw [List.append_nil, hgot]
        exact (List.take_sublist m log).filter _
      · rintro m' ⟨⟩
        exact hgot
    | none =>
      have hthere := h.there hleft
      unfold There at hthere
      cases hphase : g.phase with
      | connected =>
        rw [hphase] at hthere
        exact ⟨[], by rw [hthere.1]; exact List.nil_sublist _, nofun⟩
      | streaming todo =>
        rw [hphase] at hthere
        exact ⟨todo ++ above Frame.seq g.resume queue,
          by rw [← List.append_assoc, hthere.all], nofun⟩
      | closing =>
        rw [hphase] at hthere
        exact ⟨[] ++ above Frame.seq g.resume queue,
          by rw [← List.append_assoc, hthere.all], nofun⟩
      | done =>
        rw [hphase] at hthere
        exact hthere.elim
  obtain ⟨l, hsub, hleft⟩ := hpart
  have hgot : g.got.Sublist (above Frame.seq g.lastSeq log) :=
    (List.sublist_append_left _ _).trans hsub
  refine ⟨hlog.above.sublist hgot, ?_, ?_, ?_⟩
  · exact fun f hf => (mem_above.1 (hgot.subset hf)).2
  · exact fun f hf => (mem_above.1 (hgot.subset hf)).1
  · intro m hm f hf hlt
    rw [hleft m hm]
    exact mem_above.2 ⟨hf, hlt⟩

theorem resume_le {m : ℕ} (hlog : ∀ f ∈ log, f.seq ≤ m) (hlast : g.lastSeq ≤ m)
    (hbacklog : ∀ f ∈ g.backlog, f ∈ log) : g.resume ≤ m :=
  reach_le hlast fun f hf => hlog f (hbacklog f hf)

/-- A frame is pushed. -/
theorem Whole.push {todo : List Frame} (h : Whole log queue g todo)
    (hf : ∀ f' ∈ log, f'.seq < f.seq) : Whole (log ++ [f]) (queue ++ [f]) g todo := by
  have hiff : g.resume < f.seq ↔ g.lastSeq < f.seq := by
    constructor
    · exact fun hlt => le_reach.trans_lt hlt
    · intro hlt
      have hbefore : ∀ f' ∈ log, f'.seq ≤ f.seq - 1 := by
        intro f' hf'
        have hlt' := hf f' hf'
        omega
      have hle : g.resume ≤ f.seq - 1 := resume_le hbefore (by omega) h.backlog
      omega
  refine ⟨?_, fun f' hf' => List.mem_append_left _ (h.backlog f' hf')⟩
  have hone : above Frame.seq g.resume [f] = above Frame.seq g.lastSeq [f] := by
    unfold above
    refine List.filter_congr fun a ha => ?_
    rw [List.mem_singleton.1 ha]
    exact decide_eq_decide.2 hiff
  calc g.got ++ todo ++ above Frame.seq g.resume (queue ++ [f])
      = g.got ++ todo ++ above Frame.seq g.resume queue ++ above Frame.seq g.lastSeq [f] := by
        rw [← hone]
        unfold above
        rw [List.filter_append]
        simp only [List.append_assoc]
    _ = above Frame.seq g.lastSeq (log ++ [f]) := by
        rw [h.all]
        unfold above
        rw [List.filter_append]

theorem Sound.push (h : Sound log queue g) (hf : ∀ f' ∈ log, f'.seq < f.seq) :
    Sound (log ++ [f]) (queue ++ [f]) g := by
  constructor
  · intro m hm
    obtain ⟨hle, hgot⟩ := h.away m hm
    refine ⟨?_, ?_⟩
    · rw [List.length_append]
      omega
    · rw [List.take_append_of_le_length hle, hgot]
  · intro hleft
    have hthere := h.there hleft
    unfold There at hthere ⊢
    cases hphase : g.phase with
    | connected => rwa [hphase] at hthere
    | streaming todo =>
      rw [hphase] at hthere
      exact hthere.push hf
    | closing =>
      rw [hphase] at hthere
      exact hthere.push hf
    | done => rwa [hphase] at hthere

/-- A frame that the GET does not await goes from the queue. -/
theorem Sound.pop (h : Sound log (f :: queue) g) (hlast : 0 < g.lastSeq) (hf : ¬ g.Awaits f) :
    Sound log queue g := by
  refine ⟨h.away, fun hleft => ?_⟩
  have hthere := h.there hleft
  have hqueue : g.phase ≠ .connected → above Frame.seq g.resume (f :: queue) =
      above Frame.seq g.resume queue := by
    intro hphase
    have hno : ¬ g.resume < f.seq := fun hlt => hf ⟨hleft, hlast, hphase, hlt⟩
    unfold above
    rw [List.filter_cons_of_neg (by simpa using hno)]
  unfold There at hthere ⊢
  cases hphase : g.phase with
  | connected => rwa [hphase] at hthere
  | streaming todo =>
    rw [hphase] at hthere
    exact ⟨by rw [← hqueue (by rw [hphase]; nofun)]; exact hthere.all, hthere.backlog⟩
  | closing =>
    rw [hphase] at hthere
    exact ⟨by rw [← hqueue (by rw [hphase]; nofun)]; exact hthere.all, hthere.backlog⟩
  | done => rwa [hphase] at hthere

/-! ### What its own handler does -/

/-- Nothing is owed to a client that is away. -/
theorem Sound.of_away {g' : Get} (h : Sound log queue g) (hleft : g.left.isSome = true)
    (hleft' : g'.left = g.left) (hgot : g'.got = g.got) (hlast : g'.lastSeq = g.lastSeq) :
    Sound log queue g' := by
  refine ⟨?_, ?_⟩
  · rw [hleft', hgot, hlast]
    exact h.away
  · intro hnone
    rw [← hleft', hnone] at hleft
    cases hleft

/-- What is not awaited from the queue. -/
theorem Whole.got_eq (h : Whole log queue g []) (hqueue : ∀ f ∈ queue, f.seq ≤ g.resume) :
    g.got = above Frame.seq g.lastSeq log := by
  have hnone : above Frame.seq g.resume queue = [] := by
    unfold above
    rw [List.filter_eq_nil_iff]
    intro f hf
    have hle := hqueue f hf
    simpa using hle
  have hall := h.all
  rwa [hnone, List.append_nil, List.append_nil] at hall

/-- The client goes away when nothing is on its way to it. -/
theorem Sound.leave {seq : ℕ} (h : Sound log queue g) (hseq : log.length = seq)
    (hsettled : g.left = none → g.Settled log queue) : Sound log queue (g.leave seq) := by
  constructor
  · intro m hm
    cases hleft : g.left with
    | some m' =>
      have hm' : m' = m := by simpa [Get.leave, hleft] using hm
      exact h.away m (by rw [hleft, hm'])
    | none =>
      have hm' : seq = m := by simpa [Get.leave, hleft] using hm
      have hthere := h.there hleft
      have hquiet := hsettled hleft
      have hgot : g.got = above Frame.seq g.lastSeq log := by
        unfold There at hthere
        unfold Settled todo at hquiet
        cases hphase : g.phase with
        | connected =>
          rw [hphase] at hthere
          rw [hphase, if_pos rfl] at hquiet
          have hnone : above Frame.seq g.lastSeq log = [] := by
            unfold above
            rw [List.filter_eq_nil_iff]
            intro f hf
            have hle := hquiet f hf
            simpa using hle
          rw [hthere.1, hnone]
        | streaming todo =>
          rw [hphase] at hthere
          rw [hphase, if_neg nofun] at hquiet
          obtain ⟨htodo, hqueue⟩ := hquiet
          simp only at htodo
          rw [htodo] at hthere
          exact hthere.got_eq hqueue
        | closing =>
          rw [hphase] at hthere
          rw [hphase, if_neg nofun] at hquiet
          exact hthere.got_eq hquiet.2
        | done =>
          rw [hphase] at hthere
          exact hthere.elim
      rw [← hm', ← hseq, List.take_length]
      exact ⟨le_rfl, hgot⟩
  · intro hnone
    cases hnone

/-- The backlog is read. -/
theorem Sound.replay {rows : List Frame} (h : Sound log queue g) (hphase : g.phase = .connected)
    (hlog : Increasing Frame.seq log) (hqueue : queue.Sublist log) (hrows : ∀ f ∈ rows, f ∈ log)
    (hnodup : rows.Nodup) (hall : g.left = none → ∀ f ∈ log, g.lastSeq < f.seq →
      f ∈ rows ∨ f ∈ queue ∧ ∀ r ∈ rows, r.seq < f.seq) :
    Sound log queue { g with
      phase := .streaming (Backlog.backlog Frame.seq g.lastSeq rows)
      backlog := Backlog.backlog Frame.seq g.lastSeq rows } := by
  refine ⟨h.away, fun hleft => ?_⟩
  have hthere := h.there hleft
  unfold There at hthere
  rw [hphase] at hthere
  refine ⟨?_, fun f hf => hrows f (mem_backlog.1 hf).1⟩
  show g.got ++ _ ++ _ = _
  rw [hthere.1, List.nil_append]
  exact backlog_append_queued hlog hrows hnodup hqueue (hall hleft)

/-- There is no backlog. -/
theorem Sound.skip (h : Sound log queue g) (hphase : g.phase = .connected)
    (hlog : Increasing Frame.seq log) (hqueue : queue.Sublist log)
    (hall : g.left = none → ∀ f ∈ log, g.lastSeq < f.seq → f ∈ queue) :
    Sound log queue { g with phase := .streaming [] } := by
  refine ⟨h.away, fun hleft => ?_⟩
  have hthere := h.there hleft
  unfold There at hthere
  rw [hphase] at hthere
  have hnone : g.resume = g.lastSeq := by
    unfold resume
    rw [hthere.2]
    rfl
  refine ⟨?_, ?_⟩
  · show g.got ++ [] ++ above Frame.seq g.resume queue = _
    rw [hthere.1, hnone]
    have hsaved : ∀ f ∈ ([] : List Frame), f ∈ log := nofun
    refine backlog_append_queued hlog hsaved List.nodup_nil hqueue fun f hf hlt => ?_
    exact .inr ⟨hall hleft f hf hlt, nofun⟩
  · show ∀ f ∈ g.backlog, f ∈ log
    rw [hthere.2]
    nofun

/-- A frame of the backlog is written. -/
theorem Sound.writeBacklog {todo : List Frame} (h : Sound log queue g)
    (hphase : g.phase = .streaming (f :: todo)) :
    Sound log queue { g.write f with phase := .streaming todo } := by
  cases hleft : g.left with
  | some m =>
    refine h.of_away (by rw [hleft]; rfl) rfl ?_ rfl
    unfold write
    rw [hleft]
    rfl
  | none =>
    have hthere := h.there hleft
    unfold There at hthere
    rw [hphase] at hthere
    have hgot : (g.write f).got = g.got ++ [f] := by
      unfold write
      rw [hleft]
      rfl
    refine ⟨fun m hm => ?_, fun _ => ⟨?_, hthere.backlog⟩⟩
    · rw [show (g.write f).left = g.left from rfl, hleft] at hm
      cases hm
    · show (g.write f).got ++ todo ++ above Frame.seq g.resume queue = above Frame.seq g.lastSeq log
      rw [hgot]
      have hall := hthere.all
      simpa using hall

/-- A frame from the queue is written. -/
theorem Sound.take (h : Sound log (f :: queue) g) (hphase : g.phase = .streaming [])
    (hresume : g.left = none → g.resume < f.seq) : Sound log queue (g.write f) := by
  cases hleft : g.left with
  | some m =>
    have haway : Sound log queue g := ⟨h.away, fun hnone => by rw [hleft] at hnone; cases hnone⟩
    refine haway.of_away (by rw [hleft]; rfl) rfl ?_ rfl
    unfold write
    rw [hleft]
    rfl
  | none =>
    have hthere := h.there hleft
    unfold There at hthere
    rw [hphase] at hthere
    have hgot : (g.write f).got = g.got ++ [f] := by
      unfold write
      rw [hleft]
      rfl
    refine ⟨fun m hm => ?_, fun _ => ?_⟩
    · rw [show (g.write f).left = g.left from rfl, hleft] at hm
      cases hm
    · unfold There
      rw [show (g.write f).phase = .streaming [] from hphase]
      refine ⟨?_, hthere.backlog⟩
      show (g.write f).got ++ [] ++ above Frame.seq g.resume queue = above Frame.seq g.lastSeq log
      have hall := hthere.all
      unfold above at hall ⊢
      rw [List.filter_cons_of_pos (by simpa using hresume hleft)] at hall
      rw [hgot]
      simpa using hall

/-- The live loop is left. -/
theorem Sound.close (h : Sound log queue g) (hphase : g.phase = .streaming []) :
    Sound log queue { g with phase := .closing } := by
  refine ⟨h.away, fun hleft => ?_⟩
  have hthere := h.there hleft
  unfold There at hthere
  rw [hphase] at hthere
  exact ⟨hthere.all, hthere.backlog⟩

end Get

namespace StreamableSession

variable (U : Unicode) {s : StreamableSession}

/-! ## What a session keeps -/

/-- The frames are numbered in order; those in the queue and those saved are among them, none twice;
and each GET has got what it should have so far. -/
structure Consistent (s : StreamableSession) : Prop where
  length : s.log.length = s.seq
  numbers : ∀ f ∈ s.log, f.seq ≤ s.seq
  increasing : Increasing Frame.seq s.log
  queued : s.queued.Sublist s.log
  saved : ∀ f ∈ s.rows ++ s.pushing.toList, f ∈ s.log
  nodup : (s.rows ++ s.pushing.toList).Nodup
  gets : ∀ (i : ℕ) (g : Get), s.gets[i]? = some g → 0 < g.lastSeq → Get.Sound s.log s.queued g

theorem consistent_new : Consistent {} :=
  ⟨rfl, nofun, List.Pairwise.nil, List.nil_sublist _, nofun, List.nodup_nil, nofun⟩

theorem Consistent.resumable (h : Consistent s) : s.Resumable := by
  intro g hg hlast
  obtain ⟨i, hi⟩ := List.mem_iff_getElem?.1 hg
  exact (h.gets i g hi hlast).resumed h.increasing

/-- A handler changes the queue and the GETs only. -/
theorem Consistent.change (h : Consistent s) {events : List (Option Frame)} {gets : List Get}
    (hqueued : (events.filterMap id).Sublist s.queued)
    (hgets : ∀ (i : ℕ) (g : Get), gets[i]? = some g → 0 < g.lastSeq → Get.Sound s.log (events.filterMap id) g) :
    Consistent { s with events, gets } :=
  ⟨h.length, h.numbers, h.increasing, hqueued.trans h.queued, h.saved, h.nodup, hgets⟩

/-- One GET changes. -/
theorem Consistent.setGet (h : Consistent s) {g : ℕ} {get : Get}
    (hget : 0 < get.lastSeq → Get.Sound s.log s.queued get) : Consistent (s.setGet g get) := by
  refine h.change (List.Sublist.refl _) fun i get' hi hlast => ?_
  rw [List.getElem?_set] at hi
  split at hi
  · split at hi
    · cases hi
      exact hget hlast
    · cases hi
  · exact h.gets i get' hi hlast

theorem queued_cons {f : Frame} {rest : List (Option Frame)} (hevents : s.events = some f :: rest) :
    s.queued = f :: rest.filterMap id := by
  unfold queued
  rw [hevents]
  rfl

/-! ## Steps -/

theorem Consistent.push (h : Consistent s) (hidle : s.pushing = none) (body : Body) :
    Consistent (s.push body) := by
  have hnew : ∀ f ∈ s.log, f.seq < s.seq + 1 := fun f hf => Nat.lt_succ_of_le (h.numbers f hf)
  have hqueued : (s.push body).queued = s.queued ++ [{ seq := s.seq + 1, body }] := by
    unfold StreamableSession.queued StreamableSession.push
    rw [List.filterMap_append]
    rfl
  have hsaved := h.saved
  have hnodup := h.nodup
  rw [hidle, Option.toList_none, List.append_nil] at hsaved hnodup
  refine ⟨?_, ?_, ?_, ?_, ?_, ?_, ?_⟩
  · show (s.log ++ [_]).length = s.seq + 1
    rw [List.length_append, h.length]
    rfl
  · intro f hf
    rcases List.mem_append.1 hf with hf | hf
    · exact (hnew f hf).le
    · rw [List.mem_singleton.1 hf]
      exact le_rfl
  · refine List.pairwise_append.2 ⟨h.increasing, List.pairwise_singleton _ _, fun f hf g hg => ?_⟩
    rw [List.mem_singleton.1 hg]
    exact hnew f hf
  · rw [hqueued]
    exact h.queued.append (List.Sublist.refl _)
  · intro f hf
    rcases List.mem_append.1 hf with hf | hf
    · exact List.mem_append_left _ (hsaved f hf)
    · exact List.mem_append_right _ (by simpa [StreamableSession.push] using hf)
  · refine List.nodup_append.2 ⟨hnodup, List.nodup_singleton _, fun f hf g hg heq => ?_⟩
    have hlt := hnew f (hsaved f hf)
    rw [heq, List.mem_singleton.1 hg] at hlt
    exact absurd hlt (lt_irrefl _)
  · intro i g hi hlast
    rw [hqueued]
    exact (h.gets i g hi hlast).push hnew

theorem Consistent.saved_step (h : Consistent s) {f : Frame} (hf : s.pushing = some f) :
    Consistent { s with rows := s.rows ++ [f], pushing := none } := by
  have hsaved := h.saved
  have hnodup := h.nodup
  rw [hf] at hsaved hnodup
  refine ⟨h.length, h.numbers, h.increasing, h.queued, ?_, ?_, h.gets⟩
  · simpa using hsaved
  · simpa using hnodup

theorem Consistent.evict (h : Consistent s) (old : List ℕ) :
    Consistent { s with rows := s.rows.filter fun f => f.seq ∉ old } := by
  have hsub : ((s.rows.filter fun f => f.seq ∉ old) ++ s.pushing.toList).Sublist
      (s.rows ++ s.pushing.toList) := List.filter_sublist.append (List.Sublist.refl _)
  exact ⟨h.length, h.numbers, h.increasing, h.queued, fun f hf => h.saved f (hsub.subset hf),
    h.nodup.sublist hsub, h.gets⟩

theorem Consistent.endSession (h : Consistent s) :
    Consistent { s with events := s.events ++ [none], ended := true } := by
  have hqueued : (s.events ++ [none]).filterMap id = s.queued := by
    rw [List.filterMap_append]
    exact List.append_nil _
  refine ⟨h.length, h.numbers, h.increasing, ?_, h.saved, h.nodup, ?_⟩
  · show ((s.events ++ [none]).filterMap id).Sublist s.log
    rw [hqueued]
    exact h.queued
  · intro i g hi hlast
    show Get.Sound s.log ((s.events ++ [none]).filterMap id) g
    rw [hqueued]
    exact h.gets i g hi hlast

theorem Consistent.connect (h : Consistent s) (lastSeq : ℕ) :
    Consistent { s with gets := s.gets ++ [{ lastSeq }] } := by
  refine ⟨h.length, h.numbers, h.increasing, h.queued, h.saved, h.nodup, ?_⟩
  intro i g hi hlast
  rcases Nat.lt_or_ge i s.gets.length with hlt | hge
  · rw [List.getElem?_append_left hlt] at hi
    exact h.gets i g hi hlast
  · rw [List.getElem?_append_right hge] at hi
    have hnew := List.mem_singleton.1 (List.mem_of_getElem? hi)
    rw [hnew]
    exact ⟨nofun, fun _ => ⟨rfl, rfl⟩⟩

/-- A GET takes an item from the queue. -/
theorem Consistent.take (h : Consistent s) {g : ℕ} {get : Get} {ok : Bool}
    (hget : s.gets[g]? = some get) (hphase : get.phase = .streaming [])
    (hok : ok = true ∨ get.left.isSome = true) (hfits : s.Fits (.take g ok)) :
    Consistent (s.take g get ok) := by
  have hsound := h.gets g get hget
  unfold StreamableSession.take
  split
  · exact h
  · rename_i rest hevents
    have hqueued : rest.filterMap id = s.queued := by
      unfold StreamableSession.queued
      rw [hevents]
      rfl
    have hrest : Consistent { s with events := rest } := by
      refine h.change (by rw [hqueued]) fun i g' hi hlast => ?_
      rw [hqueued]
      exact h.gets i g' hi hlast
    refine hrest.setGet fun hlast => ?_
    show Get.Sound s.log (rest.filterMap id) _
    rw [hqueued]
    exact (hsound hlast).close hphase
  · rename_i f rest hevents
    have hqueued := queued_cons hevents
    obtain ⟨hown, hothers⟩ := hfits get hget hphase f (by rw [hevents]; rfl)
    refine h.change ?_ fun i g' hi hlast => ?_
    · rw [hqueued]
      exact List.sublist_cons_self _ _
    · rw [List.getElem?_set] at hi
      rw [hqueued] at hsound
      split at hi
      · split at hi
        · cases hi
          cases ok with
          | true => exact (hsound hlast).take hphase fun hleft => hown hleft hlast
          | false =>
            have hleft : get.left.isSome = true := by simpa using hok
            have hpop : Get.Sound s.log (rest.filterMap id) get := by
              refine (hsound hlast).pop hlast fun hawaits => ?_
              rw [hawaits.1] at hleft
              cases hleft
            exact hpop.of_away hleft rfl rfl rfl
        · cases hi
      · rename_i hne
        have hother := h.gets i g' hi hlast
        rw [hqueued] at hother
        refine hother.pop hlast (hothers g' ?_)
        exact List.mem_eraseIdx_iff_getElem?.2 ⟨i, fun heq => hne heq.symm, hi⟩

/-- An item is thrown away. -/
theorem Consistent.drain (h : Consistent s)
    (hfits : ∀ f rest, s.events = some f :: rest → ∀ other ∈ s.gets, ¬ other.Awaits f) :
    Consistent { s with events := s.events.tail } := by
  cases hevents : s.events with
  | nil =>
    refine h.change (List.nil_sublist _) fun i g hi hlast => ?_
    have hsound := h.gets i g hi hlast
    unfold StreamableSession.queued at hsound
    rwa [hevents] at hsound
  | cons item rest =>
    cases item with
    | none =>
      have hqueued : rest.filterMap id = s.queued := by
        unfold StreamableSession.queued
        rw [hevents]
        rfl
      refine h.change (by rw [List.tail_cons, hqueued]) fun i g hi hlast => ?_
      rw [List.tail_cons, hqueued]
      exact h.gets i g hi hlast
    | some f =>
      have hqueued := queued_cons hevents
      refine h.change ?_ fun i g hi hlast => ?_
      · rw [hqueued]
        exact List.sublist_cons_self _ _
      · have hsound := h.gets i g hi hlast
        rw [hqueued] at hsound
        exact hsound.pop hlast (hfits f rest hevents g (List.mem_of_getElem? hi))

variable {g : ℕ} {get : Get} {U}

theorem Consistent.leave (h : Consistent s) (hget : s.gets[g]? = some get)
    (hfits : s.Fits (.leave g)) : Consistent (s.handlerStep U g get (.leave g)) := by
  simp only [StreamableSession.handlerStep]
  split
  · exact h
  · refine h.setGet fun hlast => ?_
    exact (h.gets g get hget hlast).leave h.length fun hleft => hfits get hget hleft hlast

theorem Consistent.abort (h : Consistent s) (hget : s.gets[g]? = some get) :
    Consistent (s.handlerStep U g get (.abort g)) := by
  simp only [StreamableSession.handlerStep]
  split
  · rename_i hleft
    exact h.setGet fun hlast => (h.gets g get hget hlast).of_away hleft.2 rfl rfl rfl
  · exact h

theorem Consistent.replay (h : Consistent s) (hget : s.gets[g]? = some get)
    (hfits : s.Fits (.replay g)) : Consistent (s.handlerStep U g get (.replay g)) := by
  have hrows : ∀ f ∈ s.rows, f ∈ s.log := fun f hf => h.saved f (List.mem_append_left _ hf)
  have hnodup : s.rows.Nodup := (List.nodup_append.1 h.nodup).1
  simp only [StreamableSession.handlerStep]
  split
  · rename_i hphase
    by_cases hlast : 0 < get.lastSeq
    · rw [if_pos hlast, replaySince_eq]
      refine h.setGet fun _ => ?_
      exact (h.gets g get hget hlast).replay hphase h.increasing h.queued hrows hnodup
        fun hleft => hfits get hget hphase hleft hlast
    · rw [if_neg hlast]
      exact h.setGet fun hlast' => absurd hlast' hlast
  · exact h

theorem Consistent.replayFails (h : Consistent s) (hget : s.gets[g]? = some get)
    (hfits : s.Fits (.replayFails g)) : Consistent (s.handlerStep U g get (.replayFails g)) := by
  simp only [StreamableSession.handlerStep]
  split
  · rename_i hphase
    refine h.setGet fun hlast => ?_
    exact (h.gets g get hget hlast).skip hphase h.increasing h.queued
      fun hleft => hfits get hget hphase hleft hlast
  · exact h

theorem Consistent.writeBacklog (h : Consistent s) (hget : s.gets[g]? = some get) (ok : Bool) :
    Consistent (s.handlerStep U g get (.writeBacklog g ok)) := by
  simp only [StreamableSession.handlerStep]
  split
  · rename_i f todo hphase
    split
    · exact h.setGet fun hlast => (h.gets g get hget hlast).writeBacklog hphase
    · split
      · rename_i hleft
        exact h.setGet fun hlast => (h.gets g get hget hlast).of_away hleft rfl rfl rfl
      · exact h
  · exact h

theorem Consistent.timeout (h : Consistent s) (hget : s.gets[g]? = some get) :
    Consistent (s.handlerStep U g get (.timeout g)) := by
  simp only [StreamableSession.handlerStep]
  split
  · rename_i hphase
    exact h.setGet fun hlast => (h.gets g get hget hlast).close hphase.1
  · exact h

theorem Consistent.finish (h : Consistent s) (hget : s.gets[g]? = some get)
    (hfits : s.Fits (.finish g)) : Consistent (s.handlerStep U g get (.finish g)) := by
  simp only [StreamableSession.handlerStep]
  split
  · rename_i hphase
    refine h.setGet fun hlast => ?_
    have hleave := (h.gets g get hget hlast).leave h.length
      fun hleft => hfits get hget hphase.1 hleft hlast
    exact hleave.of_away rfl rfl rfl rfl
  · exact h

/-- The step of a GET handler, if it is there. -/
def handlerEvent (U : Unicode) (s : StreamableSession) (g : ℕ) (e : StreamEvent) : StreamableSession :=
  match s.gets[g]? with
  | some get => s.handlerStep U g get e
  | none => s

/-- A step that fits keeps what a session keeps. -/
theorem Consistent.step (h : Consistent s) (e : StreamEvent) (hfits : s.Fits e) :
    Consistent (s.step U e) := by
  have hgets : ∀ (g : ℕ) (e : StreamEvent),
      (∀ get, s.gets[g]? = some get → Consistent (s.handlerStep U g get e)) →
      Consistent (s.handlerEvent U g e) := by
    intro g e hstep
    unfold handlerEvent
    split
    · rename_i get hget
      exact hstep get hget
    · exact h
  unfold StreamableSession.step
  cases e with
  | push body =>
    simp only
    split
    · exact h
    · rename_i hidle
      exact h.push (by simpa using hidle) body
  | saved =>
    simp only
    split
    · rename_i f hf
      exact h.saved_step hf
    · exact h
  | evict old => exact h.evict old
  | endSession =>
    simp only
    split
    · exact h
    · exact h.endSession
  | connect lastSeq =>
    simp only
    split
    · exact h
    · exact h.connect lastSeq
  | leave g => exact hgets g _ fun get hget => h.leave hget hfits
  | abort g => exact hgets g _ fun get hget => h.abort hget
  | replay g => exact hgets g _ fun get hget => h.replay hget hfits
  | replayFails g => exact hgets g _ fun get hget => h.replayFails hget hfits
  | writeBacklog g ok => exact hgets g _ fun get hget => h.writeBacklog hget ok
  | take g ok =>
    refine hgets g _ fun get hget => ?_
    simp only [StreamableSession.handlerStep]
    split
    · rename_i hphase
      exact h.take hget hphase.1 hphase.2 hfits
    · exact h
  | timeout g => exact hgets g _ fun get hget => h.timeout hget
  | drain g =>
    refine hgets g _ fun get hget => ?_
    simp only [StreamableSession.handlerStep]
    split
    · rename_i hphase
      exact h.drain fun f rest hevents => hfits get hget hphase.1 hphase.2 f (by rw [hevents]; rfl)
    · exact h
  | finish g => exact hgets g _ fun get hget => h.finish hget hfits

/-- **Resumable delivery**: in a run whose steps suit the GETs, each GET with a `Last-Event-ID`
delivers what it should. -/
theorem resumable_delivery (U : Unicode) {es : List StreamEvent}
    (hfits : History.EachStep (step U) Fits {} es) :
    History.Throughout (step U) Resumable {} es :=
  History.throughout_of_eachStep (I := Consistent) (fun _ e hfits h => h.step e hfits) (fun _ h => h.resumable) es {}
    consistent_new hfits

/-- A letter as a body. -/
def letter (ch : Char) (h : ch ≠ 'i') : Body :=
  ⟨[.char ch], by
    refine ⟨?_, PyStr.encodable_chars [ch]⟩
    have hid : py "id:" = [.char 'i', .char 'd', .char ':'] := by decide
    rw [hid]
    rintro ⟨rest, hrest⟩
    cases hrest⟩

/-- A client goes away after two frames, and comes back when the queue has been cleaned up. -/
def comesBack : List StreamEvent :=
  [.connect 0, .replay 0, .push (letter 'a' (by decide)), .take 0 true, .saved,
    .push (letter 'b' (by decide)), .saved, .leave 0, .take 0 true, .timeout 0, .finish 0,
    .connect 1, .replay 1, .writeBacklog 1 true, .push (letter 'c' (by decide)), .take 1 true,
    .saved, .leave 1]

theorem resumable_delivery_comesBack : History.EachStep (step McpServer.asciiTables) Fits {} comesBack ∧
    History.Throughout (step McpServer.asciiTables) Resumable {} comesBack := by
  have hfits : History.EachStep (step McpServer.asciiTables) Fits {} comesBack := by decide
  exact ⟨hfits, resumable_delivery McpServer.asciiTables hfits⟩

/-- Two frames are pushed while no GET is at work, and then a client comes with the first. -/
def pushedBefore : List StreamEvent :=
  [.push (letter 'a' (by decide)), .saved, .push (letter 'b' (by decide)), .saved, .connect 1,
    .replay 0, .writeBacklog 0 true, .take 0 true]

/-- **The first frame is delivered after the second**, to the client that has it already. -/
theorem queued_frame_delivered :
    ¬ History.Throughout (step McpServer.asciiTables) Resumable {} pushedBefore := by
  intro h
  have hlast : Resumable (pushedBefore.foldl (step McpServer.asciiTables) {}) := h.2.2.2.2.2.2.2.2
  have habove : ∀ g ∈ (pushedBefore.foldl (step McpServer.asciiTables) {}).gets, 0 < g.lastSeq →
      ∀ f ∈ g.got, g.lastSeq < f.seq := fun g hg hpos => (hlast g hg hpos).above
  revert habove
  decide

end StreamableSession

/-!
## What a new server knows of the sessions of the old one

* `Resumes`: a GET for a session is answered with what is saved of it, and later frames get higher
  numbers.
* `forgotten`: a server never takes up a session that it has not opened.
* `sessions_lost`: so no session resumes after a restart.
-/

namespace StreamableServer

variable (ids : IdSource String) (U : Unicode) {s : StreamableServer} {sid : String}

/-- A GET for the session is taken up and may get each saved frame above the number, and the next
frame of the session has a number above all that are saved. -/
def Resumes (s : StreamableServer) (sid : String) (n : ℕ) : Prop :=
  (∃ s' session, s.handleGetEvents U (some sid) n = some s' ∧ s'.session (some sid) = some session ∧
    ∃ (es : List StreamEvent) (get : Get),
      (es.foldl (StreamableSession.step U) session).gets[session.gets.length - 1]? = some get ∧
        ∀ f ∈ s.saved sid, n < f.seq → f ∈ get.got) ∧
  ∀ session ∈ s.session (some sid), ∀ f ∈ s.saved sid, f.seq ≤ session.seq

/-- The id has been given, and the server has no session with it. -/
def Forgotten (sid : String) (s : StreamableServer) : Prop :=
  sid ∈ s.issued ∧ s.sessions.get? sid = none

theorem Forgotten.createSession (h : Forgotten sid s) : Forgotten sid (s.createSession ids) := by
  obtain ⟨hissued, hnone⟩ := h
  have hne : sid ≠ ids.next s.issued := fun heq => ids.not_mem s.issued (heq ▸ hissued)
  refine ⟨List.mem_cons_of_mem _ hissued, ?_⟩
  show (s.sessions.insert _ _).get? sid = none
  rw [Dict.get?_insert_of_ne _ hne, hnone]

theorem Forgotten.sessionStep (h : Forgotten sid s) (sid' : String) (e : StreamEvent) :
    Forgotten sid (s.sessionStep U sid' e) := by
  unfold StreamableServer.sessionStep
  cases hsession : s.sessions.get? sid' with
  | none => exact h
  | some session =>
    obtain ⟨hissued, hnone⟩ := h
    have hne : sid ≠ sid' := by
      rintro rfl
      rw [hnone] at hsession
      cases hsession
    refine ⟨hissued, ?_⟩
    show (s.sessions.insert _ _).get? sid = none
    rw [Dict.get?_insert_of_ne _ hne, hnone]

/-- **A forgotten session stays forgotten**, whatever comes in. -/
theorem Forgotten.step (h : Forgotten sid s) (e : ServerEvent) : Forgotten sid (s.step ids U e) := by
  cases e with
  | post header =>
    unfold StreamableServer.step
    simp only
    split
    · exact h
    · exact h.createSession ids
  | getEvents header lastSeq =>
    unfold StreamableServer.step handleGetEvents
    simp only
    split
    · exact h.sessionStep U _ _
    · exact h
  | session sid' e => exact h.sessionStep U sid' e
  | restart => exact ⟨h.1, rfl⟩

/-- The sessions that a server has were opened with ids that had been given. -/
def Issued (s : StreamableServer) : Prop :=
  ∀ sid, s.sessions.get? sid ≠ none → sid ∈ s.issued

theorem Issued.sessionStep (h : Issued s) (sid : String) (e : StreamEvent) :
    Issued (s.sessionStep U sid e) := by
  unfold StreamableServer.sessionStep
  cases hsession : s.sessions.get? sid with
  | none => exact h
  | some session =>
    intro sid' hsid'
    by_cases heq : sid' = sid
    · rw [heq]
      refine h sid ?_
      rw [hsession]
      nofun
    · refine h sid' ?_
      have hget : (s.sessions.insert sid (session.step U e)).get? sid' = s.sessions.get? sid' :=
        Dict.get?_insert_of_ne _ heq _
      exact hget ▸ hsid'

theorem Issued.step (h : Issued s) (e : ServerEvent) : Issued (s.step ids U e) := by
  cases e with
  | post header =>
    unfold StreamableServer.step
    simp only
    split
    · exact h
    · intro sid hsid
      by_cases heq : sid = ids.next s.issued
      · rw [heq]
        exact List.mem_cons_self
      · refine List.mem_cons_of_mem _ (h sid ?_)
        have hget : (s.createSession ids).sessions.get? sid = s.sessions.get? sid :=
          Dict.get?_insert_of_ne _ heq _
        rwa [hget] at hsid
  | getEvents header lastSeq =>
    unfold StreamableServer.step handleGetEvents
    simp only
    split
    · exact h.sessionStep U _ _
    · exact h
  | session sid e => exact h.sessionStep U sid e
  | restart => exact fun sid hsid => absurd rfl hsid

/-- A session that the server does not know does not resume. -/
theorem Forgotten.not_resumes (h : Forgotten sid s) (n : ℕ) : ¬ Resumes U s sid n := by
  rintro ⟨⟨s', session, hget, -⟩, -⟩
  have hsession : s.session (some sid) = none := by
    unfold StreamableServer.session
    simp only
    rw [h.2]
    split <;> rfl
  unfold handleGetEvents at hget
  rw [hsession] at hget
  cases hget

/-- **No session resumes after a restart**, whatever is saved of it, from whatever number on, and
whatever the new server has done. -/
theorem sessions_lost {before : List ServerEvent}
    (hsid : (before.foldl (step ids U) {}).sessions.get? sid ≠ none) (after : List ServerEvent)
    (n : ℕ) : ¬ Resumes U ((before ++ .restart :: after).foldl (step ids U) {}) sid n := by
  have hissued : Issued (before.foldl (step ids U) {}) :=
    History.run_invariant _ Issued (fun _ e h => h.step ids U e) before {} fun _ h => absurd rfl h
  have hforgotten : Forgotten sid ((before.foldl (step ids U) {}).step ids U .restart) :=
    ⟨hissued sid hsid, rfl⟩
  rw [List.foldl_append, List.foldl_cons]
  have hafter := History.run_invariant _ (Forgotten sid) (fun _ e h => h.step ids U e) after _
    hforgotten
  exact hafter.not_resumes U n

theorem a_ne_i : 'a' ≠ 'i' := by decide

theorem b_ne_i : 'b' ≠ 'i' := by decide

/-- Two frames of the second session of a server are saved. -/
def twoSaved : List ServerEvent :=
  [.post none, .post none, .session "x" (.push (StreamableSession.letter 'a' a_ne_i)),
    .session "x" .saved, .session "x" (.push (StreamableSession.letter 'b' b_ne_i)),
    .session "x" .saved]

theorem sessions_lost_twoSaved : ¬ Resumes McpServer.asciiTables
    ((twoSaved ++ ServerEvent.restart :: [.post none]).foldl (step .longer McpServer.asciiTables) {})
    "x" 1 :=
  @sessions_lost .longer McpServer.asciiTables "x" twoSaved (by decide) _ 1

/-- **The second frame can be had** before the restart, and cannot after it. -/
theorem lost_by_restart :
    Resumes McpServer.asciiTables (twoSaved.foldl (step .longer McpServer.asciiTables) {}) "x" 1 ∧
      ¬ Resumes McpServer.asciiTables
        ((twoSaved ++ [ServerEvent.restart]).foldl (step .longer McpServer.asciiTables) {}) "x" 1 := by
  constructor
  · refine ⟨⟨_, _, rfl, rfl, [.replay 0, .writeBacklog 0 true], _, rfl, by decide⟩, ?_⟩
    decide
  · rintro ⟨⟨s', session, hget, -⟩, -⟩
    cases hget

end StreamableServer

end Hermes

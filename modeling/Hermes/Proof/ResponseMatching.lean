import Hermes.Lib.History
import Hermes.Spec.McpClient

/-!
# Each request of the MCP client gets its response, or an error

* `Owed`, `owe`: what each request is to get, by what arrives and by when the connection ends.
* `handleMessage_futures`: the future that a message completes.
* `Tracked`: the requests in `_pending` are those that wait.
* `responses_matched_iff`: each future gets what it is to get exactly when no request waits while the
  connection ends, nor the first one when a response comes with `true` as its id.
-/

namespace Hermes

namespace McpClient

variable (printable : Char → Bool) {s : McpClient}

/-! ## What requests are to get -/

/-- What a request is to get. -/
inductive Owed where
  | waiting
  | answered (outcome : RpcOutcome)
  | lost

/-- A value is this number. -/
def IsNumber (k : ℕ) : Json → Prop
  | .int n => n = k
  | .float x => x.value = some (k : ℚ)
  | _ => False

instance (k : ℕ) : DecidablePred (IsNumber k)
  | .int n => inferInstanceAs (Decidable (n = (k : ℤ)))
  | .float x => inferInstanceAs (Decidable (x.value = some (k : ℚ)))
  | .null | .bool _ | .str _ | .arr _ | .obj _ => inferInstanceAs (Decidable False)

/-- The message ends the read loop: it is no object, or its id cannot be a key. -/
def Crashes (s : McpClient) : Json → Prop
  | .obj msg => s.pending.entries ≠ [] ∧ (Json.field msg "id").hashable = false
  | _ => True

/-- The connection ends. -/
def Ends (s : McpClient) : ClientEvent → Prop
  | .broken _ => s.reading = true
  | .message msg => s.reading = true ∧ Crashes s msg
  | .eof => s.reading = true ∧ s.shutdown = false
  | .disconnected => s.disconnecting ≠ 0 ∧ s.connected = true
  | _ => False

instance (s : McpClient) : DecidablePred (Crashes s)
  | .obj _ => inferInstanceAs (Decidable (_ ∧ _))
  | .null | .bool _ | .int _ | .float _ | .str _ | .arr _ => inferInstanceAs (Decidable True)

instance (s : McpClient) : DecidablePred (Ends s)
  | .broken _ => inferInstanceAs (Decidable (s.reading = true))
  | .message _ | .eof | .disconnected => inferInstanceAs (Decidable (_ ∧ _))
  | .connect | .rpc _ _ _ | .skipped | .disconnect => inferInstanceAs (Decidable False)

/-- A waiting request gets the response that carries its id. -/
def Owed.answer (k : ℕ) (msg : List (PyStr × Json)) : Owed → Owed
  | .waiting => if IsNumber k (Json.field msg "id") then .answered (outcomeOf printable msg) else .waiting
  | o => o

/-- A waiting request is lost. -/
def Owed.lose : Owed → Owed
  | .waiting => .lost
  | o => o

/-- What the requests are to get after a step. -/
def owe (s : McpClient) (e : ClientEvent) (owed : List Owed) : List Owed :=
  let owed := match e with
    | .rpc _ _ _ => if s.connected then owed ++ [.waiting] else owed
    | .message (.obj msg) =>
      if s.reading then owed.mapIdx fun i o => o.answer printable (i + 1) msg else owed
    | _ => owed
  if Ends s e then owed.map Owed.lose else owed

/-- A future is as it is to be. -/
def Kept : Owed → Option RpcOutcome → Prop
  | .waiting, f => f = none
  | .answered outcome, f => f = some outcome
  | .lost, f => ∃ text, f = some (.error text)

/-- Each future is as it is to be. -/
def Matched (owed : List Owed) (futures : List (Option RpcOutcome)) : Prop :=
  ∀ i : ℕ, Option.Rel Kept owed[i]? futures[i]?

/-- The client, and what its requests are to get. -/
def stepOwed (p : McpClient × List Owed) (e : ClientEvent) : McpClient × List Owed :=
  (p.1.step printable e, owe printable p.1 e p.2)

/-- No request waits when the connection ends, and the first does not when a response comes whose
id is `true`, which is equal to 1. -/
def NoneWaits (s : McpClient) (e : ClientEvent) : Prop :=
  (Ends s e → ∀ f ∈ s.futures, f ≠ none) ∧
    ∀ msg, e = .message (.obj msg) → s.reading = true → Json.field msg "id" = .bool true →
      s.futures[0]? ≠ some none

/-! ## Keys -/

/-- A number is the key that it is equal to; the other value with that key is `true`. -/
theorem isNumber_iff {k : ℕ} (hk : 0 < k) (v : Json) :
    IsNumber k v ↔ pyKey v = some k ∧ v ≠ .bool true := by
  cases v with
  | int n =>
    unfold IsNumber pyKey
    simp only [ne_eq, reduceCtorEq, not_false_eq_true, and_true]
    split
    · rw [Option.some.injEq]
      omega
    · exact iff_of_false (by omega) nofun
  | float x =>
    unfold IsNumber pyKey
    simp only [ne_eq, reduceCtorEq, not_false_eq_true, and_true]
    cases x.value with
    | none => simp
    | some q =>
      simp only [Option.some.injEq, Option.bind_some]
      constructor
      · rintro rfl
        rw [if_pos ⟨Rat.den_natCast k, Nat.cast_nonneg k⟩, Rat.num_natCast]
        rfl
      · intro h
        split at h
        · rename_i hq
          have hnum := Option.some.inj h
          have hpos : 0 ≤ q.num := Rat.num_nonneg.2 hq.2
          have hq' : q = (q.num : ℚ) := (Rat.den_eq_one_iff q).1 hq.1 |>.symm
          have hint : q.num = (k : ℤ) := by omega
          rw [hq', hint]
          rfl
        · cases h
  | bool b =>
    refine iff_of_false id ?_
    rintro ⟨hkey, hne⟩
    cases b with
    | true => exact hne rfl
    | false =>
      have hzero : 0 = k := Option.some.inj hkey
      omega
  | _ => exact iff_of_false id nofun

/-- A key has a hash, and is not `None`. -/
theorem hashable_of_pyKey {v : Json} {k : ℕ} (hkey : pyKey v = some k) :
    v.hashable = true ∧ v.isNull = false := by
  cases v with
  | null => cases hkey
  | arr xs => cases hkey
  | obj kvs => cases hkey
  | _ => exact ⟨rfl, rfl⟩

/-! ## What steps do to futures -/

/-- The end of the read loop changes no request. -/
theorem endLoop_frame (s : McpClient) : s.endLoop.futures = s.futures ∧
    s.endLoop.pending = s.pending ∧ s.endLoop.reqId = s.reqId ∧ s.endLoop.reading = false := by
  unfold endLoop
  simp only
  split
  · exact ⟨rfl, rfl, rfl, rfl⟩
  · exact ⟨rfl, rfl, rfl, rfl⟩

theorem crash_frame (s : McpClient) (text : PyStr) : (s.crash text).futures = s.futures ∧
    (s.crash text).pending = s.pending ∧ (s.crash text).reqId = s.reqId ∧
      (s.crash text).reading = false := endLoop_frame (s.emitError text)

/-- The requests are numbered as their futures are created, and those in `_pending` are those that
wait. -/
structure Tracked (s : McpClient) : Prop where
  reqId : s.reqId = s.futures.length
  reading : s.reading = true → s.connected = true
  pending : ∀ k i, s.pending.get? k = some i ↔ k = i + 1 ∧ s.futures[i]? = some none

/-- The end of the read loop keeps what is tracked. -/
theorem Tracked.of_frame {s' : McpClient} (h : Tracked s) (hframe : s'.futures = s.futures ∧
    s'.pending = s.pending ∧ s'.reqId = s.reqId ∧ s'.reading = false) : Tracked s' := by
  obtain ⟨hfutures, hpending, hreqId, hreading⟩ := hframe
  refine ⟨?_, ?_, ?_⟩
  · rw [hreqId, hfutures, h.reqId]
  · rw [hreading]
    nofun
  · rw [hpending, hfutures]
    exact h.pending

/-- The future that a message completes. -/
def completed (s : McpClient) (msg : List (PyStr × Json)) : Option ℕ :=
  (pyKey (Json.field msg "id")).bind s.pending.get?

theorem completed_eq_some {msg : List (PyStr × Json)} {i : ℕ} (h : Tracked s) :
    s.completed msg = some i ↔
      pyKey (Json.field msg "id") = some (i + 1) ∧ s.futures[i]? = some none := by
  unfold completed
  rw [Option.bind_eq_some_iff]
  constructor
  · rintro ⟨k, hk, hget⟩
    obtain ⟨rfl, hnone⟩ := (h.pending k i).1 hget
    exact ⟨hk, hnone⟩
  · rintro ⟨hk, hnone⟩
    exact ⟨i + 1, hk, (h.pending _ i).2 ⟨rfl, hnone⟩⟩

/-- What a message does when it completes a future. -/
theorem handleMessage_completes {msg : List (PyStr × Json)} {i : ℕ} (h : Tracked s)
    (hi : s.completed msg = some i) : s.handleMessage printable (.obj msg) =
      { s with
        pending := s.pending.erase (i + 1)
        futures := s.futures.set i (some (outcomeOf printable msg)) } := by
  obtain ⟨hkey, hnone⟩ := (completed_eq_some h).1 hi
  obtain ⟨hhash, hnull⟩ := hashable_of_pyKey hkey
  have hget := (h.pending (i + 1) i).2 ⟨rfl, hnone⟩
  unfold handleMessage
  simp only [hnull, hhash, hkey, hget, Bool.false_eq_true, if_false, Bool.true_eq_false, and_false]
  unfold complete
  simp only [hnone]

/-- What a message does otherwise: nothing, or it ends the loop. -/
theorem handleMessage_none {msg : List (PyStr × Json)} (hi : s.completed msg = none) :
    (Crashes s (.obj msg) ∧ ∃ text, s.handleMessage printable (.obj msg) = s.crash text) ∨
      (¬ Crashes s (.obj msg) ∧ s.handleMessage printable (.obj msg) = s) := by
  unfold handleMessage Crashes
  simp only
  split
  · rename_i hnull
    refine .inr ⟨fun hcrash => ?_, rfl⟩
    cases hfield : Json.field msg "id" with
    | null =>
      rw [hfield] at hcrash
      cases hcrash.2
    | _ =>
      rw [hfield] at hnull
      cases hnull
  · split
    · rename_i hcrash
      exact .inl ⟨hcrash, _, rfl⟩
    · rename_i hcrash
      refine .inr ⟨hcrash, ?_⟩
      unfold completed at hi
      split
      · rfl
      · rename_i k hk
        rw [hk, Option.bind_some] at hi
        rw [hi]

theorem Tracked.rpc (h : Tracked s) (hconnected : s.connected = true) (method : PyStr)
    (params : Option Json) (ok : Bool) : Tracked (s.rpc method params ok) := by
  unfold McpClient.rpc
  refine ⟨?_, fun _ => hconnected, fun k i => ?_⟩
  · show s.reqId + 1 = (s.futures ++ [none]).length
    rw [List.length_append, h.reqId]
    rfl
  · show (s.pending.insert _ _).get? k = some i ↔ k = i + 1 ∧ (s.futures ++ [none])[i]? = some none
    rw [h.reqId]
    rcases Nat.lt_trichotomy i s.futures.length with hlt | heq | hgt
    · rw [List.getElem?_append_left hlt]
      by_cases hk : k = s.futures.length + 1
      · rw [hk, Dict.get?_insert_self]
        exact iff_of_false (by simp; omega) (by omega)
      · rw [Dict.get?_insert_of_ne _ hk, h.pending]
    · rw [heq, List.getElem?_append_right le_rfl]
      by_cases hk : k = s.futures.length + 1
      · rw [hk, Dict.get?_insert_self]
        simp
      · rw [Dict.get?_insert_of_ne _ hk, h.pending]
        simp [hk]
    · have hnone : (s.futures ++ [none])[i]? = none := by
        rw [List.getElem?_eq_none_iff, List.length_append, List.length_singleton]
        omega
      rw [hnone]
      refine iff_of_false (fun hget => ?_) (by simp)
      by_cases hk : k = s.futures.length + 1
      · rw [hk, Dict.get?_insert_self] at hget
        have hi := Option.some.inj hget
        omega
      · rw [Dict.get?_insert_of_ne _ hk, h.pending, List.getElem?_eq_none_iff.2 (by omega)] at hget
        cases hget.2

theorem Tracked.completes (h : Tracked s) {i : ℕ} (hi : s.futures[i]? = some none)
    (outcome : RpcOutcome) : Tracked { s with
      pending := s.pending.erase (i + 1)
      futures := s.futures.set i (some outcome) } := by
  refine ⟨?_, h.reading, fun k j => ?_⟩
  · show s.reqId = (s.futures.set i _).length
    rw [List.length_set, h.reqId]
  · show (s.pending.erase (i + 1)).get? k = some j ↔
      k = j + 1 ∧ (s.futures.set i (some outcome))[j]? = some none
    rw [Dict.get?_erase, List.getElem?_set]
    by_cases hij : i = j
    · rw [if_pos hij]
      have hlt : i < s.futures.length := (List.getElem?_eq_some_iff.1 hi).1
      rw [if_pos hlt]
      refine iff_of_false ?_ (by simp)
      split
      · intro hnone
        cases hnone
      · rename_i hk
        rw [h.pending]
        rintro ⟨rfl, -⟩
        exact hk (by rw [hij])
    · rw [if_neg hij, ← h.pending]
      split
      · rename_i hk
        refine iff_of_false ?_ fun hget => ?_
        · intro hnone
          cases hnone
        · have hkey := ((h.pending k j).1 hget).1
          omega
      · exact Iff.rfl

/-- **Every step keeps what is tracked.** -/
theorem Tracked.step (h : Tracked s) (e : ClientEvent) : Tracked (s.step printable e) := by
  unfold McpClient.step
  cases e with
  | connect =>
    simp only
    split
    · exact h
    · exact ⟨h.reqId, fun _ => rfl, h.pending⟩
  | rpc method params ok =>
    simp only
    split
    · rename_i hconnected
      exact h.rpc hconnected method params ok
    · exact h
  | skipped => exact h
  | broken text =>
    simp only
    split
    · exact h.of_frame (crash_frame s text)
    · exact h
  | message msg =>
    simp only
    split
    · cases msg with
      | obj msg =>
        cases hi : s.completed msg with
        | some i =>
          rw [handleMessage_completes printable h hi]
          exact h.completes ((completed_eq_some h).1 hi).2 _
        | none =>
          rcases handleMessage_none printable hi with ⟨-, text, hcrash⟩ | ⟨-, hsame⟩
          · rw [hcrash]
            exact h.of_frame (crash_frame s text)
          · rw [hsame]
            exact h
      | _ => exact h.of_frame (crash_frame s _)
    · exact h
  | eof =>
    simp only
    split
    · exact h.of_frame (endLoop_frame s)
    · exact h
  | disconnect => exact ⟨h.reqId, h.reading, h.pending⟩
  | disconnected =>
    simp only
    split
    · exact h
    · exact h.of_frame ⟨rfl, rfl, rfl, rfl⟩

/-! ## Futures as they are to be -/

variable {owed : List Owed} {futures : List (Option RpcOutcome)}

/-- The future of a request that is owed something. -/
theorem Matched.future (h : Matched owed futures) {i : ℕ} {o : Owed} (ho : owed[i]? = some o) :
    ∃ f, futures[i]? = some f ∧ Kept o f := by
  have hi := h i
  rw [ho] at hi
  cases hf : futures[i]? with
  | none =>
    rw [hf] at hi
    cases hi
  | some f =>
    rw [hf] at hi
    cases hi with
    | some hkept => exact ⟨f, rfl, hkept⟩

/-- What the request of a future is owed. -/
theorem Matched.request (h : Matched owed futures) {i : ℕ} {f : Option RpcOutcome}
    (hf : futures[i]? = some f) : ∃ o, owed[i]? = some o ∧ Kept o f := by
  have hi := h i
  rw [hf] at hi
  cases ho : owed[i]? with
  | none =>
    rw [ho] at hi
    cases hi
  | some o =>
    rw [ho] at hi
    cases hi with
    | some hkept => exact ⟨o, rfl, hkept⟩

theorem Matched.length_eq (h : Matched owed futures) : owed.length = futures.length := by
  by_contra hne
  rcases Nat.lt_or_gt_of_ne hne with hlt | hgt
  · obtain ⟨o, ho, -⟩ := h.request (List.getElem?_eq_getElem hlt)
    have hlength := (List.getElem?_eq_some_iff.1 ho).1
    omega
  · obtain ⟨f, hf, -⟩ := h.future (List.getElem?_eq_getElem hgt)
    have hlength := (List.getElem?_eq_some_iff.1 hf).1
    omega

/-- A new request waits. -/
theorem Matched.push (h : Matched owed futures) : Matched (owed ++ [.waiting]) (futures ++ [none]) := by
  intro i
  have hlength := h.length_eq
  rcases Nat.lt_trichotomy i owed.length with hlt | heq | hgt
  · rw [List.getElem?_append_left hlt, List.getElem?_append_left (by omega)]
    exact h i
  · rw [heq, List.getElem?_append_right le_rfl, hlength, List.getElem?_append_right le_rfl,
      Nat.sub_self]
    exact .some rfl
  · rw [List.getElem?_eq_none_iff.2, List.getElem?_eq_none_iff.2]
    · exact .none
    · rw [List.length_append, List.length_singleton]
      omega
    · rw [List.length_append, List.length_singleton]
      omega

/-- When the connection ends with nothing done to the futures, none may wait. -/
theorem matched_lose_iff (h : Matched owed futures) :
    Matched (owed.map Owed.lose) futures ↔ ∀ f ∈ futures, f ≠ none := by
  constructor
  · intro hlose f hf hnone
    obtain ⟨i, hi⟩ := List.mem_iff_getElem?.1 hf
    obtain ⟨o, ho, hkept⟩ := hlose.request hi
    rw [List.getElem?_map] at ho
    obtain ⟨o', -, rfl⟩ := Option.map_eq_some_iff.1 ho
    rw [hnone] at hkept
    cases o' with
    | waiting =>
      obtain ⟨text, htext⟩ := hkept
      cases htext
    | answered outcome => cases hkept
    | lost =>
      obtain ⟨text, htext⟩ := hkept
      cases htext
  · intro hall i
    rw [List.getElem?_map]
    cases ho : owed[i]? with
    | none =>
      have hi := h i
      rw [ho] at hi
      exact hi
    | some o =>
      obtain ⟨f, hf, hkept⟩ := h.future ho
      rw [hf]
      refine .some ?_
      cases o with
      | waiting => exact absurd hkept (hall f (List.mem_of_getElem? hf))
      | answered outcome => exact hkept
      | lost => exact hkept

/-- A message that completes no future answers no request that waits. -/
theorem answer_none (h : Tracked s) (hm : Matched owed s.futures) {msg : List (PyStr × Json)}
    (hi : s.completed msg = none) :
    (owed.mapIdx fun i o => o.answer printable (i + 1) msg) = owed := by
  refine List.ext_getElem? fun i => ?_
  rw [List.getElem?_mapIdx]
  cases ho : owed[i]? with
  | none => rfl
  | some o =>
    cases o with
    | waiting =>
      obtain ⟨f, hf, hkept⟩ := hm.future ho
      have hnumber : ¬ IsNumber (i + 1) (Json.field msg "id") := by
        intro hnumber
        have hkey := ((isNumber_iff (Nat.succ_pos i) _).1 hnumber).1
        have hsome := (completed_eq_some h).2 ⟨hkey, hkept ▸ hf⟩
        rw [hi] at hsome
        cases hsome
      show some (if _ then _ else _) = _
      rw [if_neg hnumber]
    | answered outcome => rfl
    | lost => rfl

/-- A message that completes a future answers its request, unless its id is `true`. -/
theorem answer_some_iff (h : Tracked s) (hm : Matched owed s.futures) {msg : List (PyStr × Json)}
    {j : ℕ} (hj : s.completed msg = some j) :
    Matched (owed.mapIdx fun i o => o.answer printable (i + 1) msg)
      (s.futures.set j (some (outcomeOf printable msg))) ↔ Json.field msg "id" ≠ .bool true := by
  obtain ⟨hkey, hnone⟩ := (completed_eq_some h).1 hj
  obtain ⟨o, ho, hkept⟩ := hm.request hnone
  have hlt : j < s.futures.length := (List.getElem?_eq_some_iff.1 hnone).1
  have hwaiting : o = .waiting := by
    cases o with
    | waiting => rfl
    | answered outcome => cases hkept
    | lost =>
      obtain ⟨text, htext⟩ := hkept
      cases htext
  constructor
  · intro hmatched htrue
    have hjth := hmatched j
    have hno : ¬ IsNumber (j + 1) (Json.field msg "id") := by
      rw [htrue]
      exact id
    rw [List.getElem?_mapIdx, ho, hwaiting, List.getElem?_set, if_pos rfl, if_pos hlt] at hjth
    simp only [Option.map_some, Owed.answer, if_neg hno] at hjth
    cases hjth with
    | some hkept => cases hkept
  · intro htrue i
    rw [List.getElem?_mapIdx, List.getElem?_set]
    by_cases hij : j = i
    · rw [if_pos hij, ← hij, if_pos hlt, ho, hwaiting]
      have hnumber := (isNumber_iff (Nat.succ_pos j) _).2 ⟨hkey, htrue⟩
      simp only [Option.map_some, Owed.answer, if_pos hnumber]
      exact .some rfl
    · rw [if_neg hij]
      have hi := hm i
      cases ho' : owed[i]? with
      | none =>
        rw [ho'] at hi
        exact hi
      | some o' =>
        have hsame : o'.answer printable (i + 1) msg = o' := by
          cases o' with
          | waiting =>
            have hnumber : ¬ IsNumber (i + 1) (Json.field msg "id") := by
              intro hnumber
              have hkey' := ((isNumber_iff (Nat.succ_pos i) _).1 hnumber).1
              rw [hkey] at hkey'
              have heq := Option.some.inj hkey'
              omega
            exact if_neg hnumber
          | answered outcome => rfl
          | lost => rfl
        rw [Option.map_some, hsame, ← ho']
        exact hi

/-- A step that does nothing to the futures, and brings no response. -/
theorem matched_quiet_iff {s' : McpClient} {e : ClientEvent} (hm : Matched owed s.futures)
    (hfutures : s'.futures = s.futures)
    (hmsg : ∀ msg, e = .message (.obj msg) → s.reading = true →
      Json.field msg "id" = .bool true → s.futures[0]? ≠ some none) :
    Matched (if Ends s e then owed.map Owed.lose else owed) s'.futures ↔ NoneWaits s e := by
  rw [hfutures]
  have hwaits : NoneWaits s e ↔ (Ends s e → ∀ f ∈ s.futures, f ≠ none) :=
    and_iff_left hmsg
  rw [hwaits]
  by_cases hends : Ends s e
  · rw [if_pos hends, matched_lose_iff hm]
    exact ⟨fun h _ => h, fun h => h hends⟩
  · rw [if_neg hends]
    exact ⟨fun _ h => absurd h hends, fun _ => hm⟩

/-- A message that the client does not read. -/
theorem matched_unread (hm : Matched owed s.futures) (hreading : s.reading = false) (msg : Json) :
    Matched (owe printable s (.message msg) owed) (s.step printable (.message msg)).futures ↔
      NoneWaits s (.message msg) := by
  have hends : ¬ Ends s (.message msg) := by
    rintro ⟨htrue, -⟩
    rw [hreading] at htrue
    cases htrue
  have hsame : owe printable s (.message msg) owed = owed := by
    unfold owe
    rw [if_neg hends]
    cases msg with
    | obj kvs => simp only [hreading, Bool.false_eq_true, if_false]
    | _ => rfl
  rw [hsame]
  unfold step
  simp only [hreading, Bool.false_eq_true, if_false]
  refine iff_of_true hm ⟨fun h => absurd h hends, ?_⟩
  intro kvs _ htrue
  rw [hreading] at htrue
  cases htrue

/-- A response that completes a future. -/
theorem matched_completed_iff (h : Tracked s) (hm : Matched owed s.futures)
    (hreading : s.reading = true) {msg : List (PyStr × Json)} {j : ℕ}
    (hj : s.completed msg = some j) :
    Matched (owe printable s (.message (.obj msg)) owed)
      (s.step printable (.message (.obj msg))).futures ↔ NoneWaits s (.message (.obj msg)) := by
  obtain ⟨hkey, hnone⟩ := (completed_eq_some h).1 hj
  have hends : ¬ Ends s (.message (.obj msg)) := by
    rintro ⟨-, -, hhash⟩
    rw [(hashable_of_pyKey hkey).1] at hhash
    cases hhash
  unfold step owe
  simp only [hreading, if_true]
  rw [handleMessage_completes printable h hj, if_neg hends, answer_some_iff printable h hm hj]
  constructor
  · intro hne
    refine ⟨fun h => absurd h hends, ?_⟩
    rintro msg' heq - htrue
    cases heq
    exact absurd htrue hne
  · rintro ⟨-, hfirst⟩ htrue
    -- `true` is the key of the first request
    rw [htrue] at hkey
    have hzero : j = 0 := by
      have hone : (1 : ℕ) = j + 1 := Option.some.inj hkey
      omega
    rw [hzero] at hnone
    exact hfirst msg rfl hreading htrue hnone

/-- An object that completes none. -/
theorem matched_uncompleted_iff (h : Tracked s) (hm : Matched owed s.futures)
    (hreading : s.reading = true) {msg : List (PyStr × Json)} (hj : s.completed msg = none) :
    Matched (owe printable s (.message (.obj msg)) owed)
      (s.step printable (.message (.obj msg))).futures ↔ NoneWaits s (.message (.obj msg)) := by
  unfold step owe
  simp only [hreading, if_true]
  rw [answer_none printable h hm hj]
  refine matched_quiet_iff hm ?_ ?_
  · rcases handleMessage_none printable hj with ⟨-, text, hcrash⟩ | ⟨-, hsame⟩
    · rw [hcrash]
      exact (crash_frame s text).1
    · rw [hsame]
  · rintro msg' heq - htrue hnone
    cases heq
    have hkey : pyKey (Json.field msg "id") = some (0 + 1) := by
      rw [htrue]
      rfl
    have hsome := (completed_eq_some h).2 ⟨hkey, hnone⟩
    rw [hj] at hsome
    cases hsome

/-- **One step**: the futures stay as they are to be exactly when no request waits that should not. -/
theorem matched_step_iff (h : Tracked s) (hm : Matched owed s.futures) (e : ClientEvent) :
    Matched (owe printable s e owed) (s.step printable e).futures ↔ NoneWaits s e := by
  cases e with
  | connect =>
    refine matched_quiet_iff (e := .connect) hm ?_ nofun
    unfold step
    simp only
    split <;> rfl
  | rpc method params ok =>
    have hends : ¬ Ends s (.rpc method params ok) := id
    unfold owe step
    simp only
    rw [if_neg hends]
    refine iff_of_true ?_ ⟨fun h => absurd h hends, nofun⟩
    split
    · exact hm.push
    · exact hm
  | skipped => exact matched_quiet_iff (e := .skipped) hm rfl nofun
  | broken text =>
    refine matched_quiet_iff (e := .broken text) hm ?_ nofun
    unfold step
    simp only
    split
    · exact (crash_frame s text).1
    · rfl
  | message msg =>
    cases hreading : s.reading with
    | false => exact matched_unread printable hm hreading msg
    | true =>
      cases msg with
      | obj msg =>
        cases hj : s.completed msg with
        | some j => exact matched_completed_iff printable h hm hreading hj
        | none => exact matched_uncompleted_iff printable h hm hreading hj
      | _ =>
        unfold step
        simp only [hreading, if_true]
        exact matched_quiet_iff hm (crash_frame s _).1 nofun
  | eof =>
    refine matched_quiet_iff (e := .eof) hm ?_ nofun
    unfold step
    simp only
    split
    · exact (endLoop_frame s).1
    · rfl
  | disconnect => exact matched_quiet_iff (e := .disconnect) hm rfl nofun
  | disconnected =>
    refine matched_quiet_iff (e := .disconnected) hm ?_ nofun
    unfold step
    simp only
    split <;> rfl

/-- **Responses are matched**: along a run each future gets what it is to get, the response with its
id or an error when the connection ends, exactly when no request waits as the connection ends, nor
the first one when a response has the id `true`. -/
theorem responses_matched_iff (es : List ClientEvent) :
    History.Throughout (stepOwed printable) (fun p => Matched p.2 p.1.futures) ({}, []) es ↔
      History.EachStep (stepOwed printable) (fun p e => NoneWaits p.1 e) ({}, []) es := by
  have hnew : Tracked {} := ⟨rfl, nofun, fun k i => iff_of_false nofun nofun⟩
  exact History.throughout_iff (A := fun _ => True) (I := fun p : McpClient × List Owed => Tracked p.1)
    (fun p e _ h => h.step printable e) (fun p e _ h hm => matched_step_iff printable h hm e) es _
    (fun _ _ => trivial) hnew fun _ => .none

/-- **The process ends while a request waits**: the client is no longer connected, and the future
stays pending. -/
theorem lost_request_waits :
    let es : List ClientEvent := [.connect, .rpc (py "tools/list") none true, .eof]
    (es.foldl (step fun _ => true) {}).connected = false ∧
      (es.foldl (step fun _ => true) {}).futures = [none] ∧
      ¬ History.Throughout (stepOwed fun _ => true) (fun p => Matched p.2 p.1.futures) ({}, []) es := by
  refine ⟨rfl, rfl, fun h => ?_⟩
  have hlast : Matched [.lost] [none] := h.2.2.2
  obtain ⟨o, ho, hkept⟩ := hlast.request (i := 0) rfl
  cases ho
  obtain ⟨text, htext⟩ := hkept
  cases htext

end McpClient

end Hermes

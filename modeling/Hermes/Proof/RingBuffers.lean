import Hermes.Spec.Observability

/-!
# What ring buffers keep

* `foldl_appendTo`, `foldl_appendTo_zero`: what is kept of a limit above zero, and of zero.
* `Ran`, `callAll_ran`: what calls do to the buffers, as loops over what they record.
* `startSpan_spans`: the span that goes is the oldest.
* `kept_iff`: all buffers keep the last records just when nothing is recorded where the limit is zero.
-/

namespace Hermes

/-! ## The last entries of a list -/

/-- The last entries, when others come behind the last entries. -/
theorem rtake_rtake_append {α : Type*} (xs ys : List α) (n : ℕ) :
    (xs.rtake n ++ ys).rtake n = (xs ++ ys).rtake n := by
  simp only [List.rtake_eq_reverse_take_reverse, List.reverse_append, List.reverse_reverse]
  rw [List.take_append, List.take_append, List.take_take, min_eq_left (Nat.sub_le _ _)]

theorem rtake_eq_self {α : Type*} {xs : List α} {n : ℕ} (h : xs.length ≤ n) : xs.rtake n = xs := by
  unfold List.rtake
  rw [Nat.sub_eq_zero_of_le h, List.drop_zero]

theorem length_rtake_le {α : Type*} (xs : List α) (n : ℕ) : (xs.rtake n).length ≤ n := by
  unfold List.rtake
  rw [List.length_drop]
  omega

namespace Observability

variable {α : Type}

theorem appendTo_eq {limit : ℕ} (hlimit : 0 < limit) (xs : List α) (x : α) :
    appendTo limit xs x = (xs ++ [x]).rtake limit := by
  unfold appendTo
  simp only
  split
  · rename_i hlt
    have hstart : (-(limit : ℤ)) < 0 := by omega
    unfold sliceFrom List.rtake
    rw [if_pos hstart]
    congr 1
    omega
  · rename_i hle
    exact (rtake_eq_self (not_lt.1 hle)).symm

/-- `xs[-0:]` is all of `xs`. -/
theorem appendTo_zero (xs : List α) (x : α) : appendTo 0 xs x = xs ++ [x] := by
  unfold appendTo sliceFrom
  simp

theorem foldl_appendTo {limit : ℕ} (hlimit : 0 < limit) (ys : List α) : ∀ xs : List α,
    ys.foldl (appendTo limit) (xs.rtake limit) = (xs ++ ys).rtake limit := by
  induction ys with
  | nil => intro xs; rw [List.append_nil]; rfl
  | cons y ys ih =>
    intro xs
    rw [List.foldl_cons, appendTo_eq hlimit, rtake_rtake_append, ih, List.append_assoc,
      List.singleton_append]

theorem foldl_appendTo_zero (ys : List α) : ∀ xs : List α, ys.foldl (appendTo 0) xs = xs ++ ys := by
  induction ys with
  | nil => intro xs; exact (List.append_nil xs).symm
  | cons y ys ih =>
    intro xs
    rw [List.foldl_cons, appendTo_zero, ih, List.append_assoc, List.singleton_append]

/-- **A buffer keeps the last entries** unless its limit is zero and there are some. -/
theorem foldl_appendTo_iff (limit : ℕ) (ys : List α) :
    ys.foldl (appendTo limit) [] = ys.rtake limit ↔ (limit = 0 → ys = []) := by
  rcases Nat.eq_zero_or_pos limit with rfl | hlimit
  · rw [foldl_appendTo_zero, List.nil_append, List.rtake_zero]
    exact ⟨fun h _ => h, fun h => h rfl⟩
  · have hkept := foldl_appendTo hlimit ys []
    rw [List.rtake_nil, List.nil_append] at hkept
    exact iff_of_true hkept fun h => absurd h hlimit.ne'

end Observability

open Observability

/-! ## Spans -/

namespace ObservabilityEngine

variable {V τ : Type} [LinearOrder τ] {e : ObservabilityEngine V τ}

/-- The first of entries in the order of `f` is least. -/
theorem argmin_cons_of_le {α : Type*} {f : α → τ} {a : α} {as : List α} (h : ∀ b ∈ as, f a ≤ f b) :
    (a :: as).argmin f = some a := by
  rw [List.argmin_cons]
  cases hrest : as.argmin f with
  | none => rfl
  | some b => exact if_neg (not_lt.2 (h b (List.argmin_mem hrest)))

/-- A last entry that is not before the others. -/
theorem pairwise_concat_of_le {α : Type*} {f : α → τ} {as : List α} {a : α}
    (h : as.Pairwise fun b c => f b ≤ f c) (hlast : ∀ b ∈ as, f b ≤ f a) :
    (as ++ [a]).Pairwise fun b c => f b ≤ f c := by
  refine List.pairwise_append.2 ⟨h, List.pairwise_singleton _ _, fun b hb c hc => ?_⟩
  rw [List.mem_singleton.1 hc]
  exact hlast b hb

/-- **A new span** comes behind the others, and the oldest goes when there are too many. -/
theorem startSpan_spans {r : TraceSpan τ}
    (hsorted : e.spans.values.Pairwise fun a b => a.startTime ≤ b.startTime)
    (hlast : ∀ a ∈ e.spans.values, a.startTime ≤ r.startTime)
    (hnew : e.spans.get? r.spanId = none) (hlength : e.spans.values.length ≤ e.spansLimit) :
    (e.startSpan r).spans.values = (e.spans.values ++ [r]).rtake e.spansLimit := by
  have hvalues : (e.spans.put r).values = e.spans.values ++ [r] := Index.values_put_new hnew
  have hall : (e.spans.values ++ [r]).Pairwise fun a b => a.startTime ≤ b.startTime :=
    pairwise_concat_of_le hsorted hlast
  unfold startSpan
  simp only
  split
  · rename_i hlt
    cases hspans : (e.spans.put r).values with
    | nil => exact absurd (hvalues.symm.trans hspans) (List.append_ne_nil_of_right_ne_nil _ nofun)
    | cons first rest =>
      rw [← hvalues, hspans] at hall
      rw [argmin_cons_of_le fun b hb => List.rel_of_pairwise_cons hall hb]
      simp only
      -- there is one more than there may be
      have hlt' : e.spansLimit < (first :: rest).length := hspans ▸ hlt
      have hone : (first :: rest).length = e.spans.values.length + 1 := by
        rw [← hspans, hvalues, List.length_append, List.length_singleton]
      have hdrop : (first :: rest).length - e.spansLimit = 1 := by omega
      rw [Index.values_erase_first hspans, ← hvalues, hspans]
      unfold List.rtake
      rw [hdrop]
      rfl
  · rename_i hle
    rw [hvalues, rtake_eq_self (by rw [← hvalues]; exact not_lt.1 hle)]

end ObservabilityEngine

/-! ## Runs -/

namespace Observed

variable {V τ : Type} [Zero V] [Add V] [LinearOrder τ] {ids : IdSource String}
  {s s' s'' : Observed V τ} {rs rs' : List (Record V τ)}

/-- What the buffers without spans, and the counters, are after records were taken in. -/
structure Ran (s s' : Observed V τ) (rs : List (Record V τ)) : Prop where
  limits : s'.engine.metricsLimit = s.engine.metricsLimit ∧ s'.engine.logsLimit = s.engine.logsLimit ∧
    s'.engine.spansLimit = s.engine.spansLimit ∧ s'.guard.auditLimit = s.guard.auditLimit
  metrics : s'.engine.metrics =
    (rs.filterMap Record.metric?).foldl (appendTo s.engine.metricsLimit) s.engine.metrics
  logs : s'.engine.logs = (rs.filterMap Record.log?).foldl (appendTo s.engine.logsLimit) s.engine.logs
  audit : s'.guard.audit =
    (rs.filterMap Record.audit?).foldl (appendTo s.guard.auditLimit) s.guard.audit
  counters : s'.engine.counters =
    (rs.filterMap Record.metric?).foldl ObservabilityEngine.count s.engine.counters

omit [LinearOrder τ] in
theorem Ran.refl (s : Observed V τ) : Ran s s [] := ⟨⟨rfl, rfl, rfl, rfl⟩, rfl, rfl, rfl, rfl⟩

omit [LinearOrder τ] in
theorem Ran.trans (h : Ran s s' rs) (h' : Ran s' s'' rs') : Ran s s'' (rs ++ rs') := by
  obtain ⟨hmetrics, hlogs, hspans, haudit⟩ := h.limits
  obtain ⟨hmetrics', hlogs', hspans', haudit'⟩ := h'.limits
  refine ⟨⟨hmetrics'.trans hmetrics, hlogs'.trans hlogs, hspans'.trans hspans,
    haudit'.trans haudit⟩, ?_, ?_, ?_, ?_⟩
  · rw [h'.metrics, h.metrics, hmetrics, List.filterMap_append, List.foldl_append]
  · rw [h'.logs, h.logs, hlogs, List.filterMap_append, List.foldl_append]
  · rw [h'.audit, h.audit, haudit, List.filterMap_append, List.foldl_append]
  · rw [h'.counters, h.counters, List.filterMap_append, List.foldl_append]

theorem take_ran (s : Observed V τ) (r : Record V τ) : Ran s (s.take r) [r] := by
  cases r with
  | metric r => exact ⟨⟨rfl, rfl, rfl, rfl⟩, rfl, rfl, rfl, rfl⟩
  | log r =>
    unfold take ObservabilityEngine.log
    simp only
    split
    · exact ⟨⟨rfl, rfl, rfl, rfl⟩, rfl, rfl, rfl, rfl⟩
    · exact ⟨⟨rfl, rfl, rfl, rfl⟩, rfl, rfl, rfl, rfl⟩
  | span r => exact ⟨⟨rfl, rfl, rfl, rfl⟩, rfl, rfl, rfl, rfl⟩
  | audit r => exact ⟨⟨rfl, rfl, rfl, rfl⟩, rfl, rfl, rfl, rfl⟩

variable (ids) in
theorem call_ran (c : ObservedCall V τ) (s : Observed V τ) :
    Ran s (s.call ids c).2 [(s.call ids c).1] := by
  obtain ⟨hlimits, hmetrics, hlogs, haudit, hcounters⟩ := take_ran s (record (ids.next s.issued) c)
  exact ⟨hlimits, hmetrics, hlogs, haudit, hcounters⟩

variable (ids) in
/-- **Calls one by one**: each buffer takes in what is recorded for it. -/
theorem callAll_ran (calls : List (ObservedCall V τ)) : ∀ s : Observed V τ,
    Ran s (s.callAll ids calls).2 (s.callAll ids calls).1 := by
  induction calls with
  | nil => exact Ran.refl
  | cons c calls ih => exact fun s => (call_ran ids c s).trans (ih _)

/-! ### Spans -/

/-- The time of a `start_span`. -/
def spanTime : ObservedCall V τ → Option τ
  | .startSpan _ _ _ _ now => some now
  | _ => none

/-- The spans are in the order of their times, none of which is after those that are still to come, and
their ids are not new. -/
structure InOrder (s : Observed V τ) (calls : List (ObservedCall V τ)) : Prop where
  sorted : s.engine.spans.values.Pairwise fun a b => a.startTime ≤ b.startTime
  before : ∀ a ∈ s.engine.spans.values, ∀ now ∈ calls.filterMap spanTime, a.startTime ≤ now
  issued : ∀ a ∈ s.engine.spans.values, a.spanId ∈ s.issued
  length : s.engine.spans.values.length ≤ s.engine.spansLimit

omit [Zero V] [Add V] in
/-- A call that starts no span. -/
theorem InOrder.other {c : ObservedCall V τ} {calls : List (ObservedCall V τ)}
    (h : InOrder s (c :: calls)) (hspans : s'.engine.spans = s.engine.spans)
    (hlimit : s'.engine.spansLimit = s.engine.spansLimit) (hissued : s.issued ⊆ s'.issued)
    (hc : spanTime c = none) : InOrder s' calls := by
  have hbefore := h.before
  rw [List.filterMap_cons_none hc] at hbefore
  refine ⟨?_, ?_, ?_, ?_⟩
  · rw [hspans]
    exact h.sorted
  · rw [hspans]
    exact hbefore
  · rw [hspans]
    exact fun a ha => hissued (h.issued a ha)
  · rw [hspans, hlimit]
    exact h.length

variable (ids) in
theorem call_other {c : ObservedCall V τ} (hc : spanTime c = none) (s : Observed V τ) :
    (s.call ids c).2.engine.spans = s.engine.spans ∧ Record.span? (s.call ids c).1 = none := by
  cases c with
  | recordMetric name value labels mtype now => exact ⟨rfl, rfl⟩
  | log level message correlationId context now =>
    refine ⟨?_, rfl⟩
    unfold call take record ObservabilityEngine.log
    simp only
    split
    · rfl
    · rfl
  | startSpan traceId spanName parentId correlationId now => cases hc
  | auditRecord who action resource result detail now => exact ⟨rfl, rfl⟩

variable (ids) in
/-- **One call**: the spans stay in order, and the last of them are kept. -/
theorem call_inOrder {c : ObservedCall V τ} {calls : List (ObservedCall V τ)}
    (hclock : ((c :: calls).filterMap spanTime).Pairwise (· ≤ ·)) (h : InOrder s (c :: calls)) :
    InOrder (s.call ids c).2 calls ∧ (s.call ids c).2.engine.spans.values =
      (s.engine.spans.values ++ [(s.call ids c).1].filterMap Record.span?).rtake
        s.engine.spansLimit := by
  cases htime : spanTime c with
  | none =>
    obtain ⟨hspans, hnone⟩ := call_other ids htime s
    refine ⟨h.other hspans (call_ran ids c s).limits.2.2.1 (List.subset_cons_self _ _) htime, ?_⟩
    rw [hspans, List.filterMap_cons_none hnone, List.filterMap_nil, List.append_nil,
      rtake_eq_self h.length]
  | some now =>
    cases c with
    | startSpan traceId spanName parentId correlationId now =>
      let r : TraceSpan τ :=
        { spanId := ids.next s.issued, traceId, spanName, parentId, startTime := now, correlationId }
      have hlast : ∀ a ∈ s.engine.spans.values, a.startTime ≤ now := fun a ha =>
        h.before a ha now List.mem_cons_self
      have hnew : s.engine.spans.get? r.spanId = none := by
        refine Index.get?_eq_none_iff.2 fun hmem => ?_
        rw [Index.keys_eq] at hmem
        obtain ⟨a, ha, hid⟩ := List.mem_map.1 hmem
        have hold : r.spanId ∈ s.issued := hid ▸ h.issued a ha
        exact ids.not_mem s.issued hold
      have hvalues : (s.engine.startSpan r).spans.values =
          (s.engine.spans.values ++ [r]).rtake s.engine.spansLimit :=
        ObservabilityEngine.startSpan_spans h.sorted hlast hnew h.length
      have hsub : ∀ a ∈ (s.engine.startSpan r).spans.values, a ∈ s.engine.spans.values ∨ a = r := by
        intro a ha
        rw [hvalues] at ha
        exact (List.mem_append.1 (List.mem_of_mem_drop ha)).imp_right List.mem_singleton.1
      have hafter := List.pairwise_cons.1 hclock
      refine ⟨⟨?_, ?_, ?_, ?_⟩, hvalues⟩
      · show (s.engine.startSpan r).spans.values.Pairwise _
        rw [hvalues]
        refine List.Pairwise.sublist (List.drop_sublist _ _) ?_
        exact ObservabilityEngine.pairwise_concat_of_le h.sorted hlast
      · intro a ha time htime
        rcases hsub a ha with ha | rfl
        · exact h.before a ha time (List.mem_cons_of_mem _ htime)
        · exact hafter.1 time htime
      · intro a ha
        rcases hsub a ha with ha | rfl
        · exact List.mem_cons_of_mem _ (h.issued a ha)
        · exact List.mem_cons_self
      · show (s.engine.startSpan r).spans.values.length ≤ _
        rw [hvalues]
        exact length_rtake_le _ _
    | _ => cases htime

variable (ids) in
/-- **The spans after calls** are the last of those that were started. -/
theorem callAll_spans (calls : List (ObservedCall V τ)) : ∀ {s : Observed V τ},
    (calls.filterMap spanTime).Pairwise (· ≤ ·) → InOrder s calls →
      (s.callAll ids calls).2.engine.spans.values =
        (s.engine.spans.values ++ (s.callAll ids calls).1.filterMap Record.span?).rtake
          s.engine.spansLimit := by
  induction calls with
  | nil =>
    intro s _ h
    show s.engine.spans.values = _
    rw [callAll, List.filterMap_nil, List.append_nil, rtake_eq_self h.length]
  | cons c calls ih =>
    intro s hclock h
    obtain ⟨hnext, hvalues⟩ := call_inOrder ids hclock h
    have hlimit := (call_ran ids c s).limits.2.2.1
    have hrest : (calls.filterMap spanTime).Pairwise (· ≤ ·) :=
      hclock.sublist ((List.sublist_cons_self c calls).filterMap _)
    have hall := ih hrest hnext
    rw [hvalues, hlimit, rtake_rtake_append, List.append_assoc, ← List.filterMap_append] at hall
    exact hall

/-! ### Counters -/

/-- The values of the counters of a name. -/
def counted (rs : List (MetricRecord V τ)) (name : String) : List V :=
  (rs.filter fun r => r.type = .counter ∧ r.name = name).map (·.value)

omit [LinearOrder τ] in
theorem foldl_count (rs : List (MetricRecord V τ)) (name : String) : ∀ counters : Dict String V,
    ((rs.foldl ObservabilityEngine.count counters).get? name).getD 0 =
      (counted rs name).foldl (· + ·) ((counters.get? name).getD 0) := by
  induction rs with
  | nil => exact fun _ => rfl
  | cons r rs ih =>
    intro counters
    rw [List.foldl_cons, ih]
    unfold counted ObservabilityEngine.count
    by_cases htype : r.type = .counter
    · rw [if_pos htype, Dict.get?_insert]
      by_cases hname : r.name = name
      · rw [if_pos hname.symm, List.filter_cons_of_pos (by simp [htype, hname]), hname]
        rfl
      · rw [if_neg (Ne.symm hname), List.filter_cons_of_neg (by simp [hname])]
    · rw [if_neg htype, List.filter_cons_of_neg (by simp [htype])]

/-! ### All buffers -/

/-- Each buffer holds the last records, as many as its limit, and the counters are the sums of what was
recorded for them. -/
structure Kept (s : Observed V τ) (rs : List (Record V τ)) : Prop where
  metrics : s.engine.metrics = (rs.filterMap Record.metric?).rtake s.engine.metricsLimit
  logs : s.engine.logs = (rs.filterMap Record.log?).rtake s.engine.logsLimit
  spans : s.engine.spans.values = (rs.filterMap Record.span?).rtake s.engine.spansLimit
  audit : s.guard.audit = (rs.filterMap Record.audit?).rtake s.guard.auditLimit
  counters : ∀ name, (s.engine.counters.get? name).getD 0 =
    (counted (rs.filterMap Record.metric?) name).foldl (· + ·) 0

/-- The limit of the buffer that a call's record comes to is not zero, unless it is that of the spans. -/
def Limited (metricsLimit logsLimit auditLimit : ℕ) : ObservedCall V τ → Prop
  | .recordMetric _ _ _ _ _ => metricsLimit ≠ 0
  | .log _ _ _ _ _ => logsLimit ≠ 0
  | .startSpan _ _ _ _ _ => True
  | .auditRecord _ _ _ _ _ _ => auditLimit ≠ 0

/-- A call makes a record of this kind. -/
def Makes {β : Type} (p : Record V τ → Option β) (c : ObservedCall V τ) : Prop :=
  ∀ id, (p (record id c)).isSome

/-- A buffer whose limit is zero is right when no call makes a record for it. -/
theorem callAll_none_iff {β : Type} {p : Record V τ → Option β}
    (hp : ∀ id id' (c : ObservedCall V τ), (p (record id c)).isSome = (p (record id' c)).isSome)
    (calls : List (ObservedCall V τ)) : ∀ s : Observed V τ,
      (s.callAll ids calls).1.filterMap p = [] ↔ ∀ c ∈ calls, ¬ Makes p c := by
  induction calls with
  | nil => exact fun s => iff_of_true rfl nofun
  | cons c calls ih =>
    intro s
    rw [List.forall_mem_cons, ← ih (s.call ids c).2]
    show (List.filterMap p (record (ids.next s.issued) c :: _)) = [] ↔ _
    cases hrecord : p (record (ids.next s.issued) c) with
    | none =>
      rw [List.filterMap_cons_none hrecord]
      refine (and_iff_right fun hmakes => ?_).symm
      have hsome := hmakes (ids.next s.issued)
      rw [hrecord] at hsome
      cases hsome
    | some b =>
      rw [List.filterMap_cons_some hrecord]
      refine iff_of_false nofun fun h => h.1 fun id => ?_
      rw [hp id (ids.next s.issued), hrecord]
      rfl

variable (ids) in
/-- **A buffer after calls** holds the last of its records, unless its limit is zero and a call makes one. -/
theorem callAll_buffer_iff {β : Type} {p : Record V τ → Option β}
    (hp : ∀ id id' (c : ObservedCall V τ), (p (record id c)).isSome = (p (record id' c)).isSome)
    (limit : ℕ) (calls : List (ObservedCall V τ)) (s : Observed V τ) :
    ((s.callAll ids calls).1.filterMap p).foldl (appendTo limit) [] =
        ((s.callAll ids calls).1.filterMap p).rtake limit ↔
      ∀ c ∈ calls, limit = 0 → ¬ Makes p c := by
  rw [foldl_appendTo_iff, callAll_none_iff hp]
  exact ⟨fun h c hc hzero => h hzero c hc, fun h hzero c hc => h c hc hzero⟩

omit [Zero V] [Add V] [LinearOrder τ] in
theorem limited_iff (metricsLimit logsLimit auditLimit : ℕ) (c : ObservedCall V τ) :
    Limited metricsLimit logsLimit auditLimit c ↔
      (metricsLimit = 0 → ¬ Makes Record.metric? c) ∧ (logsLimit = 0 → ¬ Makes Record.log? c) ∧
        (auditLimit = 0 → ¬ Makes Record.audit? c) := by
  cases c <;> simp [Limited, Makes, record, Record.metric?, Record.log?, Record.audit?]

/-- **Ring buffers**, over calls whose clock does not go back. -/
theorem kept_iff (ids : IdSource String) (metricsLimit logsLimit spansLimit auditLimit : ℕ)
    {calls : List (ObservedCall V τ)} (hclock : (calls.filterMap spanTime).Pairwise (· ≤ ·)) :
    Kept ((withLimits metricsLimit logsLimit spansLimit auditLimit).callAll ids calls).2
        ((withLimits metricsLimit logsLimit spansLimit auditLimit).callAll ids calls).1 ↔
      ∀ c ∈ calls, Limited metricsLimit logsLimit auditLimit c := by
  have hran := callAll_ran ids calls
    (withLimits metricsLimit logsLimit spansLimit auditLimit)
  obtain ⟨hmetrics, hlogs, hspans, haudit⟩ := hran.limits
  have hall := callAll_spans ids calls hclock
    (s := withLimits metricsLimit logsLimit spansLimit auditLimit) ⟨.nil, nofun, nofun, Nat.zero_le _⟩
  have hmetric := callAll_buffer_iff ids (p := Record.metric?) (fun _ _ c => by cases c <;> rfl)
    metricsLimit calls (withLimits metricsLimit logsLimit spansLimit auditLimit)
  have hlog := callAll_buffer_iff ids (p := Record.log?) (fun _ _ c => by cases c <;> rfl)
    logsLimit calls (withLimits metricsLimit logsLimit spansLimit auditLimit)
  have hentry := callAll_buffer_iff ids (p := Record.audit?) (fun _ _ c => by cases c <;> rfl)
    auditLimit calls (withLimits metricsLimit logsLimit spansLimit auditLimit)
  simp only [limited_iff]
  constructor
  · intro h c hc
    have hm := h.metrics
    have hl := h.logs
    have ha := h.audit
    rw [hran.metrics, hmetrics] at hm
    rw [hran.logs, hlogs] at hl
    rw [hran.audit, haudit] at ha
    exact ⟨hmetric.1 hm c hc, hlog.1 hl c hc, hentry.1 ha c hc⟩
  · intro h
    refine ⟨?_, ?_, ?_, ?_, fun name => ?_⟩
    · rw [hran.metrics, hmetrics]
      exact hmetric.2 fun c hc => (h c hc).1
    · rw [hran.logs, hlogs]
      exact hlog.2 fun c hc => (h c hc).2.1
    · rw [hall, hspans]
      rfl
    · rw [hran.audit, haudit]
      exact hentry.2 fun c hc => (h c hc).2.2
    · rw [hran.counters, foldl_count]
      rfl

/-- Two metrics and two spans. -/
def fourCalls : List (ObservedCall ℤ ℕ) :=
  [.recordMetric "m" 1 none .counter 1, .startSpan "t" "a" none none 2,
    .recordMetric "m" 2 none .counter 2, .startSpan "t" "b" none none 3]

/-- With a limit of zero all metrics are kept. -/
theorem not_kept_zero :
    ¬ Kept ((withLimits 0 1000 1000 1000).callAll IdSource.longer fourCalls).2
        ((withLimits 0 1000 1000 1000).callAll IdSource.longer fourCalls).1 := by
  intro h
  exact absurd h.metrics (by decide)

theorem kept_one :
    Kept ((withLimits 1 0 1 1).callAll IdSource.longer fourCalls).2
      ((withLimits 1 0 1 1).callAll IdSource.longer fourCalls).1 :=
  (kept_iff IdSource.longer 1 0 1 1 (by decide)).2 (by simp [fourCalls, Limited])

end Observed

end Hermes

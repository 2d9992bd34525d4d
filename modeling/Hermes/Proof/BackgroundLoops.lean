import Hermes.Proof.ScannerSweeps
import Hermes.Spec.BackgroundLoops

/-!
# Loops in the background start and end

* `coordinator_loops`: the loops of a coordinator, and a coordinator that was stopped.
* `SweptOnce`, `scanner_watches`: the sweeps of a scanner, and a scanner that runs.
* `Beating`, `monitor_beats`: the heartbeats of a monitor, and a monitor whose loop has raised or was stopped.
-/

namespace Hermes

open Polling

/-! ## The coordinator -/

/-- **The check loops of a coordinator.** However `start`, `stop`, the turns of the loops and all other
operations interleave, one loop is alive, and one more for each `start` that came while a `stop` was waiting.
If there was none, then a coordinator whose `stop` has returned detects nothing until it is started: it goes on
just as without loops. And wherever a `stop` still waits for a loop that is alive, a `start`, and another
`stop`, may leave a loop that is alive, is not cancelled, and that no `stop` waits for. -/
theorem coordinator_loops (c : Coordinator) (es : List (Step ℚ (Coordinator → Coordinator))) :
    let s := run Coordinator.checkLoop c es
    s.loops.countP Loop.live ≤ 1 + s.loops.countP Loop.overlapping ∧
      (s.Apart → s.running = false → s.waiting = false → ∀ es' : List (Step ℚ (Coordinator → Coordinator)),
        (∀ e ∈ es', e.starts = false) →
        (run Coordinator.checkLoop c (es ++ es')).inner =
          (es'.filterMap Step.other?).foldl (fun c f => f c) s.inner) ∧
      ∀ (j n : ℕ) (l : Loop) (now : ℚ), s.running = false → s.stops[j]? = some (some n) →
        s.loops[n]? = some l → l.live = true →
        let s' := run Coordinator.checkLoop c (es ++ [.start now, .cancelled n, .stopped j, .stop])
        s'.running = false ∧ s'.handle = none ∧ some s.loops.length ∉ s'.stops ∧
          ∃ l', s'.loops[s.loops.length]? = some l' ∧ l'.live = true ∧ l'.cancelling = false := by
  have hsound := sound_run Coordinator.checkLoop c es
  refine ⟨hsound.live_le, fun hapart hdown hwaits es' hes' => ?_, fun j n l now hdown hj hl hlive => ?_⟩
  · unfold run
    rw [List.foldl_append]
    exact (run_settled es' hes' (hsound.settled hapart hdown hwaits)).2
  · unfold run
    rw [List.foldl_append]
    exact orphaned rfl hsound hdown hj hl hlive now

/-! ## The scanner -/

namespace FileScanner

variable {δ : Type} {T : PathTexts} {sc : FileScanner} {w : WatchingScanner}

/-- What the sweeps have published was new to the scanner, and is known to it. -/
structure SweptOnce (sc : FileScanner) (w : WatchingScanner) : Prop where
  nodup : (w.swept.map ScannedEvent.path).Nodup
  known : ∀ ev ∈ w.swept, ev.path ∈ w.scanner.seen
  fresh : ∀ ev ∈ w.swept, ev.path ∉ sc.seen
  kept : sc.seen ⊆ w.scanner.seen

/-- A file is published by a sweep. -/
theorem SweptOnce.publish (h : SweptOnce sc w) {p : FileEntry} (hp : p.resolved ∉ w.scanner.seen) :
    SweptOnce sc { w with
      scanner := w.scanner.see p.resolved
      swept := w.swept ++ [(w.scanner.see p.resolved).makeEvent T p] } where
  nodup := by
    rw [List.map_append, List.map_singleton, List.nodup_append]
    refine ⟨h.nodup, List.nodup_singleton _, fun path hpath path' hpath' => ?_⟩
    obtain ⟨ev, hev, rfl⟩ := List.mem_map.1 hpath
    cases List.mem_singleton.1 hpath'
    intro heq
    have hpath : ev.path = p.resolved := heq
    exact hp (hpath ▸ h.known ev hev)
  known ev hev := by
    rcases List.mem_append.1 hev with hev | hev
    · exact Finset.mem_insert_of_mem (h.known ev hev)
    · cases List.mem_singleton.1 hev
      exact Finset.mem_insert_self _ _
  fresh ev hev := by
    rcases List.mem_append.1 hev with hev | hev
    · exact h.fresh ev hev
    · cases List.mem_singleton.1 hev
      exact fun hmem => hp (h.kept hmem)
  kept := h.kept.trans (Finset.subset_insert _ _)

/-- **A sweep keeps it.** -/
theorem SweptOnce.scanNew (h : SweptOnce sc w) (dirs : Directories) :
    SweptOnce sc { w with
      scanner := (w.scanner.scanNew T dirs).2
      swept := w.swept ++ (w.scanner.scanNew T dirs).1 } := by
  unfold FileScanner.scanNew
  refine History.run_invariant _
    (fun acc : List ScannedEvent × FileScanner => SweptOnce sc { w with
      scanner := acc.2
      swept := w.swept ++ acc.1 }) (fun acc p hacc => ?_)
    (w.scanner.iterFiles T dirs) ([], w.scanner) (by simpa using h)
  split
  · exact hacc
  · rename_i hp
    have := hacc.publish (T := T) hp
    simpa [List.append_assoc] using this

/-- A path that is seen is known from then on. -/
theorem SweptOnce.scanOnce (h : SweptOnce sc w) (skipPersisted : Bool)
    (persistence : Option (PersistenceRegistry δ)) (dirs : Directories) (once : List ScannedEvent) :
    SweptOnce sc { w with
      scanner := (w.scanner.scanOnce T skipPersisted persistence dirs).2
      once } := by
  unfold FileScanner.scanOnce
  refine History.run_invariant _ (fun acc : List ScannedEvent × FileScanner => SweptOnce sc { w with scanner := acc.2, once })
    (fun acc p hacc => ?_) (w.scanner.iterFiles T dirs) ([], w.scanner) ?_
  swap
  · exact ⟨h.nodup, h.known, h.fresh, h.kept⟩
  have hsee : SweptOnce sc { w with scanner := acc.2.see p.resolved, once } :=
    ⟨hacc.nodup, fun ev hev => Finset.mem_insert_of_mem (hacc.known ev hev), hacc.fresh,
      hacc.kept.trans (Finset.subset_insert _ _)⟩
  split
  · exact hsee
  · exact hsee

end FileScanner

/-! ## The monitor -/

namespace DistributedHealthMonitor

variable {nodeId : String} {evStore bus : Bool} {d : DistributedHealthMonitor}

/-- What a monitor has counted, made and published. -/
structure Beating (nodeId : String) (evStore bus : Bool) (d : DistributedHealthMonitor) : Prop where
  own : d.nodeId = nodeId ∧ d.evStore = evStore ∧ d.bus = bus
  counted : d.beatCount = d.made.length
  made : ∀ e ∈ d.made, ∃ ts load, e.1 = .heartbeatReceived nodeId nodeId ts load
  published : d.published = if bus = true then (d.made.filter fun e => !e.2).map Prod.fst else []

/-- A record of a heartbeat changes only what is known of the nodes. -/
theorem recordHeartbeat_frame (d : DistributedHealthMonitor) (n : String) (load now : ℚ) :
    (d.recordHeartbeat n load now).nodeId = d.nodeId ∧ (d.recordHeartbeat n load now).evStore = d.evStore ∧
      (d.recordHeartbeat n load now).bus = d.bus ∧
      (d.recordHeartbeat n load now).beatCount = d.beatCount ∧
      (d.recordHeartbeat n load now).made = d.made ∧
      (d.recordHeartbeat n load now).published = d.published := by
  unfold recordHeartbeat
  simp only
  split
  · exact ⟨rfl, rfl, rfl, rfl, rfl, rfl⟩
  · exact ⟨rfl, rfl, rfl, rfl, rfl, rfl⟩

/-- **A heartbeat keeps it.** -/
theorem Beating.send (h : Beating nodeId evStore bus d) (load : ℚ) (beat : Beat) :
    Beating nodeId evStore bus (d.sendHeartbeat load beat).2 := by
  obtain ⟨⟨hnode, hstore, hbus⟩, hcounted, hmade, hpublished⟩ := h
  obtain ⟨h₁, h₂, h₃, h₄, h₅, h₆⟩ :=
    recordHeartbeat_frame { d with beatCount := d.beatCount + 1 } d.nodeId load beat.now
  unfold sendHeartbeat
  simp only
  obtain ⟨r, hr⟩ : ∃ r, { d with beatCount := d.beatCount + 1 }.recordHeartbeat d.nodeId load beat.now = r :=
    ⟨_, rfl⟩
  rw [hr] at h₁ h₂ h₃ h₄ h₅ h₆ ⊢
  simp only at h₁ h₂ h₃ h₄ h₅ h₆
  have hcounted' : r.beatCount = r.made.length + 1 := by rw [h₄, h₅, hcounted]
  have hevents : ∀ raised, ∀ e ∈ r.made ++ [(SwarmEvent.heartbeatReceived r.nodeId r.nodeId beat.ts load, raised)],
      ∃ ts load, e.1 = .heartbeatReceived nodeId nodeId ts load := by
    intro raised e he
    rcases List.mem_append.1 he with he | he
    · exact hmade e (h₅ ▸ he)
    · cases List.mem_singleton.1 he
      exact ⟨beat.ts, load, by rw [h₁, hnode]⟩
  cases hraised : (r.evStore && beat.raises) with
  | true =>
    refine ⟨⟨h₁.trans hnode, h₂.trans hstore, h₃.trans hbus⟩, ?_, hevents true, ?_⟩
    · simpa using hcounted'
    · show r.published = if bus = true then ((r.made ++ [(_, true)]).filter fun e : SwarmEvent × Bool => !e.2).map Prod.fst else []
      rw [h₆, hpublished, h₅, List.filter_append]
      simp
  | false =>
    refine ⟨⟨h₁.trans hnode, h₂.trans hstore, h₃.trans hbus⟩, ?_, hevents false, ?_⟩
    · simpa using hcounted'
    · show (if r.bus = true then r.published ++ [_] else r.published) =
        if bus = true then ((r.made ++ [(_, false)]).filter fun e : SwarmEvent × Bool => !e.2).map Prod.fst else []
      rw [h₆, hpublished, h₅, h₃, hbus, List.filter_append]
      split
      · simp
      · rfl

theorem Beating.perform (h : Beating nodeId evStore bus d) (op : MonitorOp) :
    Beating nodeId evStore bus (perform op d) := by
  cases op with
  | trackNode n capabilities now => exact ⟨h.own, h.counted, h.made, h.published⟩
  | recordHeartbeat n load now =>
    obtain ⟨h₁, h₂, h₃, h₄, h₅, h₆⟩ := recordHeartbeat_frame d n load now
    obtain ⟨⟨hnode, hstore, hbus⟩, hcounted, hmade, hpublished⟩ := h
    refine ⟨⟨h₁.trans hnode, h₂.trans hstore, h₃.trans hbus⟩, ?_, ?_, ?_⟩
    · show (d.recordHeartbeat n load now).beatCount = _
      exact h₄.trans (hcounted.trans (congrArg List.length h₅.symm))
    · show ∀ e ∈ (d.recordHeartbeat n load now).made, _
      rw [h₅]
      exact hmade
    · show (d.recordHeartbeat n load now).published = if bus = true then
        ((d.recordHeartbeat n load now).made.filter fun e => !e.2).map Prod.fst else []
      rw [h₅, h₆]
      exact hpublished
  | sendHeartbeat load beat => exact h.send load beat

/-- What is done about other nodes leaves it open what is known of a node. -/
theorem getNodeHealth_perform {op : MonitorOp} {n : String} (hop : notAbout n d.nodeId op) (now : ℚ) :
    (perform op d).getNodeHealth n now = d.getNodeHealth n now ∧ (perform op d).nodeId = d.nodeId := by
  have hput : ∀ {node : TrackedNode} {m : String} {t : ℚ} {e : DistributedHealthMonitor}, node.nodeId = m →
      m ≠ n → getNodeHealth { e with nodes := e.nodes.put node, lastSeenTs := e.lastSeenTs.insert m t } n now =
        e.getNodeHealth n now := by
    intro node m t e hnode hne
    unfold getNodeHealth
    rw [Index.get?_put, if_neg (by rw [hnode]; exact hne.symm), Dict.get?_insert_of_ne _ hne.symm]
  have hrecord : ∀ (e : DistributedHealthMonitor) {m : String} (load t : ℚ), m ≠ n →
      (e.recordHeartbeat m load t).getNodeHealth n now = e.getNodeHealth n now := by
    intro e m load t hne
    unfold recordHeartbeat
    simp only
    split
    · exact hput rfl hne
    · exact (hput rfl hne).trans (hput rfl hne)
  cases op with
  | trackNode m capabilities t => exact ⟨hput rfl hop, rfl⟩
  | recordHeartbeat m load t =>
    exact ⟨hrecord d load t hop, (recordHeartbeat_frame d m load t).1⟩
  | sendHeartbeat load beat =>
    have hsame := hrecord { d with beatCount := d.beatCount + 1 } load beat.now hop
    have hnode := (recordHeartbeat_frame { d with beatCount := d.beatCount + 1 } d.nodeId load beat.now).1
    show ((d.sendHeartbeat load beat).2).getNodeHealth n now = _ ∧ ((d.sendHeartbeat load beat).2).nodeId = _
    unfold sendHeartbeat
    simp only
    split
    · exact ⟨hsame, hnode⟩
    · exact ⟨hsame, hnode⟩

/-- A monitor that was stopped, and is not started; or whose loop has raised, and that is not stopped. -/
def Silent (s : Polling.State DistributedHealthMonitor) (es : List (Step Beat MonitorOp)) : Prop :=
  s.running = false ∧ s.waiting = false ∧ (∀ e ∈ es, e.starts = false) ∨
    s.running = true ∧ (∃ n l, s.handle = some n ∧ s.loops[n]? = some l ∧ l.phase = .ended true) ∧
      ∀ e ∈ es, e.isStop = false

/-- **The heartbeats of a node.** However `start`, `stop`, the turns of the loops and all other calls
interleave: the count of heartbeats is the number of events made, each of the monitor's own node, and those
that the store has taken are published, in their order. While no `start` has come during a `stop`, a monitor
that runs has a loop that is alive and not cancelled, or one that has raised. One that has raised sends
nothing more until `stop`, whatever is started, and one that was stopped nothing until `start`: its node is
then as old as it is, and unhealthy after ten seconds, unless it is told of it. -/
theorem monitor_beats (nodeId : String) (evStore bus : Bool) (es : List (Step Beat MonitorOp)) :
    let s := run beatLoop { nodeId, evStore, bus } es
    s.inner.beatCount = s.inner.made.length ∧
      (∀ e ∈ s.inner.made, ∃ ts load, e.1 = .heartbeatReceived nodeId nodeId ts load) ∧
      s.inner.published = (if bus = true then (s.inner.made.filter fun e => !e.2).map Prod.fst else []) ∧
      (s.Apart → s.running = true → ∃ n l, s.handle = some n ∧ s.loops[n]? = some l ∧
        (l.live = true ∧ l.cancelling = false ∨ l.phase = .ended true)) ∧
      (s.Apart → ∀ es', Silent s es' →
        (run beatLoop { nodeId, evStore, bus } (es ++ es')).inner =
            (es'.filterMap Step.other?).foldl (fun d op => perform op d) s.inner ∧
          ((∀ op ∈ es'.filterMap Step.other?, notAbout nodeId nodeId op) → ∀ now ts,
            s.inner.lastSeenTs.get? nodeId = some ts → (s.inner.nodes.get? nodeId).isSome = true →
            10 < now - ts →
            (run beatLoop { nodeId, evStore, bus } (es ++ es')).inner.getNodeHealth nodeId now =
              some .unhealthy)) := by
  have hbeating : Beating nodeId evStore bus (run beatLoop { nodeId, evStore, bus } es).inner := by
    refine inner_run beatLoop (Beating nodeId evStore bus) (fun beat d h => h.send 0 beat)
      (fun op d h => h.perform op) _ es ⟨⟨rfl, rfl, rfl⟩, rfl, List.forall_mem_nil _, ?_⟩
    split <;> rfl
  have hsound := sound_run beatLoop { nodeId, evStore, bus } es
  have hawake := awake_run beatLoop { nodeId, evStore, bus } es
  have hfailed := not_failed_run (P := beatLoop) rfl { nodeId, evStore, bus } es
  refine ⟨hbeating.counted, hbeating.made, hbeating.published,
    fun hapart hup => (hawake hapart hup hfailed).2, fun hapart es' hsilent => ?_⟩
  have hinner : (run beatLoop { nodeId, evStore, bus } (es ++ es')).inner =
      (es'.filterMap Step.other?).foldl (fun d op => perform op d)
        (run beatLoop { nodeId, evStore, bus } es).inner := by
    rcases hsilent with ⟨hdown, hwaits, hes'⟩ | ⟨hup, ⟨n, l, hkept, hl, hraised⟩, hes'⟩
    · have hsettled := hsound.settled hapart hdown hwaits
      unfold run at hsettled ⊢
      rw [List.foldl_append]
      exact (run_settled es' hes' hsettled).2
    · have hstuck := hsound.stuck hapart hup (hawake hapart hup hfailed).1 hkept hl hraised
      unfold run at hstuck ⊢
      rw [List.foldl_append]
      exact run_stuck es' hes' hstuck
  refine ⟨hinner, fun hops now ts hts hknown hage => ?_⟩
  -- what is told of other nodes changes nothing for its own
  have hsame : (run beatLoop { nodeId, evStore, bus } (es ++ es')).inner.getNodeHealth nodeId now =
      (run beatLoop { nodeId, evStore, bus } es).inner.getNodeHealth nodeId now := by
    rw [hinner]
    refine (History.run_invariant_of_mem _
      (fun d : DistributedHealthMonitor => d.getNodeHealth nodeId now = _ ∧ d.nodeId = nodeId) _
      (fun d op hop hd => ?_) _ ⟨rfl, hbeating.own.1⟩).1
    obtain ⟨hsame, hnode⟩ := getNodeHealth_perform (d := d) (n := nodeId)
      (by rw [hd.2]; exact hops op hop) now
    exact ⟨hsame.trans hd.1, hnode.trans hd.2⟩
  rw [hsame]
  unfold getNodeHealth
  obtain ⟨node, hnode⟩ := Option.isSome_iff_exists.1 hknown
  rw [hnode, hts]
  simp only [Option.getD_some]
  rw [if_pos (by linarith)]

end DistributedHealthMonitor

end Hermes

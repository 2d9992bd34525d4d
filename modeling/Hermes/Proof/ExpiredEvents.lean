import Hermes.Proof.StoredEntities
import Hermes.Spec.McpStreamable

/-!
# Events that are expired

A sweep lists the workspaces of the sessions that are in `_sessions`, and deletes what is expired
there.

* `rehydrate_event`, `RowsOf.event`: the rows of events.
* `sweepSession_holds`, `sweep_holds`: what the sweep of one session, and of all, leaves.
* `evict_expired_iff`: when nothing that is expired is left.
-/

namespace Hermes

namespace StreamableRetention

open PersistenceRegistry

variable {φ : EntityClass → Type} {δ : Type} {P : Pydantic φ δ} {D : Datetime}
  {createdAt : φ .mcpSessionEvent → String} {sessionTtl : ℤ} {now : ℚ}
  {db db' : PersistenceRegistry δ}

/-- Each row is that of an entity. -/
def RowsOf (P : Pydantic φ δ) (db : PersistenceRegistry δ) : Prop :=
  ∀ r ∈ db.entities.values, ∃ e : Σ c, φ c, r = row P.codec e

theorem name_injective : Function.Injective EntityClass.name := by
  intro c c' h
  revert h
  cases c <;> cases c' <;> decide

/-- An entity is known by its row. -/
theorem row_inj (hrt : P.RoundTrips) {e e' : Σ c, φ c} (h : row P.codec e = row P.codec e') :
    e = e' := by
  obtain ⟨c, f⟩ := e
  obtain ⟨c', f'⟩ := e'
  have hname : c.name = c'.name := congrArg EntityRow.type h
  obtain rfl : c = c' := name_injective hname
  have hdump : P.dumpJson f = P.dumpJson f' := congrArg EntityRow.data h
  have hvalid := hrt c f
  rw [hdump, hrt c f'] at hvalid
  rw [Except.ok.inj hvalid]

/-- The row of an event is read back. -/
theorem rehydrate_event (hrt : P.RoundTrips) (f : φ .mcpSessionEvent) :
    P.codec.rehydrate "McpSessionEvent" (P.dumpJson f) = .ok ⟨.mcpSessionEvent, f⟩ := by
  show (P.validateJson .mcpSessionEvent (P.dumpJson f)).map (Sigma.mk _) = _
  rw [hrt]
  rfl

/-- A row of the type of events is that of an event. -/
theorem RowsOf.event (h : RowsOf P db) {r : EntityRow δ} (hr : r ∈ db.entities.values)
    (htype : r.type = "McpSessionEvent") :
    ∃ f : φ .mcpSessionEvent, r = row P.codec ⟨.mcpSessionEvent, f⟩ := by
  obtain ⟨⟨c, f⟩, rfl⟩ := h r hr
  have hname : c.name = EntityClass.name .mcpSessionEvent := htype
  obtain rfl : c = .mcpSessionEvent := name_injective hname
  exact ⟨f, rfl⟩

/-- **An event of a sweep** that is expired goes. -/
theorem sweepEvent_ok {ev : Σ c, φ c}
    (h : sweepEvent P D createdAt (now - sessionTtl) db ev = .ok db') :
    Expired D createdAt sessionTtl now ev ∧ db' = (db.delete (P.codec.id ev)).2 ∨
      ¬ Expired D createdAt sessionTtl now ev ∧ db' = db := by
  by_cases hclass : ∃ f, ev = ⟨.mcpSessionEvent, f⟩
  · obtain ⟨f, rfl⟩ := hclass
    unfold sweepEvent at h
    dsimp only at h
    have hexpired : Expired D createdAt sessionTtl now ⟨.mcpSessionEvent, f⟩ ↔
        ∃ created ∈ D.fromisoformat (createdAt f), ∃ cutoffDt,
          D.fromtimestamp (now - sessionTtl) = .ok cutoffDt ∧ created.instant < cutoffDt := by
      constructor
      · rintro ⟨f', heq, hold⟩
        obtain rfl : f = f' := eq_of_heq (Sigma.mk.inj heq).2
        exact hold
      · exact fun hold => ⟨f, rfl, hold⟩
    rw [hexpired]
    cases hcreated : D.fromisoformat (createdAt f) with
    | none =>
      rw [hcreated] at h
      cases h
      exact .inr ⟨by rintro ⟨_, ⟨⟩, -⟩, rfl⟩
    | some created =>
      rw [hcreated] at h
      dsimp only at h
      cases hcutoff : D.fromtimestamp (now - sessionTtl) with
      | error e =>
        rw [hcutoff] at h
        cases h
      | ok cutoffDt =>
        rw [hcutoff] at h
        dsimp only at h
        split at h
        · rename_i hlt
          cases h
          exact .inl ⟨⟨created, rfl, cutoffDt, rfl, hlt⟩, rfl⟩
        · rename_i hge
          cases h
          refine .inr ⟨?_, rfl⟩
          rintro ⟨_, ⟨⟩, _, ⟨⟩, hlt⟩
          exact hge hlt
  · have hsame : sweepEvent P D createdAt (now - sessionTtl) db ev = .ok db := by
      obtain ⟨c, f⟩ := ev
      unfold sweepEvent
      split
      · rename_i f' heq
        exact absurd ⟨f', heq⟩ hclass
      · rfl
    rw [hsame] at h
    cases h
    exact .inr ⟨fun ⟨f, heq, _⟩ => hclass ⟨f, heq⟩, rfl⟩

/-- **The events of a sweep**: the rows of those that are expired go. -/
theorem sweepEvents_ok {evs : List (Σ c, φ c)} : ∀ {db db'},
    evs.foldlM (sweepEvent P D createdAt (now - sessionTtl)) db = .ok db' → ∀ id r,
      db'.entities.get? id = some r ↔ db.entities.get? id = some r ∧
        ∀ ev ∈ evs, Expired D createdAt sessionTtl now ev → P.codec.id ev ≠ id := by
  induction evs with
  | nil =>
    intro db db' h id r
    cases h
    simp
  | cons ev evs ih =>
    intro db db' h id r
    rw [List.foldlM_cons] at h
    cases hev : sweepEvent P D createdAt (now - sessionTtl) db ev with
    | error e =>
      rw [hev] at h
      cases h
    | ok mid =>
      rw [hev] at h
      rw [ih h, List.forall_mem_cons, ← and_assoc]
      refine and_congr_left fun _ => ?_
      rcases sweepEvent_ok hev with ⟨hexpired, rfl⟩ | ⟨hfresh, rfl⟩
      · show (db.entities.erase (P.codec.id ev)).get? id = some r ↔ _
        rw [Index.get?_erase]
        split
        · rename_i hid
          refine iff_of_false ?_ fun hkept => hkept.2 hexpired hid.symm
          intro hnone
          cases hnone
        · rename_i hid
          exact (and_iff_left fun _ heq => hid heq.symm).symm
      · exact (and_iff_left fun hexpired => absurd hexpired hfresh).symm

/-- The entities when the rows of some are gone. -/
theorem RowsOf.sweep (h : RowsOf P db) (hsub : ∀ id r, db'.entities.get? id = some r →
    db.entities.get? id = some r) : RowsOf P db' :=
  fun r hr => h r (Index.mem_values.2 (hsub _ r (Index.mem_values.1 hr)))

/-- An entity whose row has the id of an entity that is held is that entity. -/
theorem Holds.eq_of_id (hrt : P.RoundTrips) {e e' : Σ c, φ c} (h : Holds P db e) (h' : Holds P db e')
    (hid : P.codec.id e = P.codec.id e') : e = e' := by
  unfold Holds at h h'
  rw [hid, h'] at h
  exact (row_inj hrt (Option.some.inj h)).symm

/-- What is listed for a session are its events that are held. -/
theorem mem_sessionEvents (hrt : P.RoundTrips) (hrows : RowsOf P db) {sid : String}
    {evs : List (Σ c, φ c)}
    (h : db.list P.codec ("mcp:" ++ sid) (some "McpSessionEvent") = .ok evs) {e : Σ c, φ c} :
    e ∈ evs ↔ Holds P db e ∧ P.codec.workspaceId e = "mcp:" ++ sid ∧ e.1 = .mcpSessionEvent := by
  rw [mem_list h]
  constructor
  · rintro ⟨r, hr, hworkspace, htype, he⟩
    obtain ⟨f, rfl⟩ := hrows.event hr (htype _ rfl)
    have hsame := (rehydrate_event hrt f).symm.trans he
    obtain rfl : (⟨.mcpSessionEvent, f⟩ : Σ c, φ c) = e := Except.ok.inj hsame
    exact ⟨Index.mem_values.1 hr, hworkspace, rfl⟩
  · obtain ⟨c, f⟩ := e
    rintro ⟨hheld, hworkspace, hclass⟩
    obtain rfl : c = .mcpSessionEvent := hclass
    refine ⟨row P.codec ⟨.mcpSessionEvent, f⟩, Index.mem_values.2 hheld, hworkspace, ?_,
      rehydrate_event hrt f⟩
    rintro name ⟨⟩
    rfl

/-- **The sweep of a session** takes away its expired events. -/
theorem sweepSession_holds (hrt : P.RoundTrips) (hrows : RowsOf P db) {sid : String}
    (h : sweepSession P D createdAt (now - sessionTtl) db sid = .ok db') :
    RowsOf P db' ∧ ∀ e, Holds P db' e ↔ Holds P db e ∧
      ¬ (Expired D createdAt sessionTtl now e ∧ P.codec.workspaceId e = "mcp:" ++ sid) := by
  have hclass : ∀ e, Expired D createdAt sessionTtl now e → e.1 = .mcpSessionEvent := by
    rintro e ⟨f, rfl, -⟩
    rfl
  obtain ⟨evs, hevs⟩ := exists_list P.codec db ("mcp:" ++ sid) (some "McpSessionEvent")
    fun r hr htype => by
      obtain ⟨f, rfl⟩ := hrows.event hr (htype _ rfl)
      exact ⟨⟨.mcpSessionEvent, f⟩, rehydrate_event hrt f⟩
  unfold sweepSession at h
  rw [hevs] at h
  have hleft := sweepEvents_ok h
  refine ⟨hrows.sweep fun id r hr => ((hleft id r).1 hr).1, fun e => ?_⟩
  refine (hleft _ _).trans (and_congr_right fun hheld => ?_)
  constructor
  · rintro hnone ⟨hexpired, hworkspace⟩
    refine hnone e ?_ hexpired rfl
    exact (mem_sessionEvents hrt hrows hevs).2 ⟨hheld, hworkspace, hclass e hexpired⟩
  · intro hnot ev hev hexpired hid
    obtain ⟨hheld', hworkspace, -⟩ := (mem_sessionEvents hrt hrows hevs).1 hev
    obtain rfl := Holds.eq_of_id hrt hheld' hheld hid
    exact hnot ⟨hexpired, hworkspace⟩

/-- **The sweep of sessions** takes away their expired events. -/
theorem sweep_holds (hrt : P.RoundTrips) {sids : List String} : ∀ {db db'}, RowsOf P db →
    sids.foldlM (sweepSession P D createdAt (now - sessionTtl)) db = .ok db' → ∀ e,
      Holds P db' e ↔ Holds P db e ∧ ¬ (Expired D createdAt sessionTtl now e ∧
        ∃ sid ∈ sids, P.codec.workspaceId e = "mcp:" ++ sid) := by
  induction sids with
  | nil =>
    intro db db' _ h e
    cases h
    simp
  | cons sid sids ih =>
    intro db db' hrows h e
    rw [List.foldlM_cons] at h
    cases hsid : sweepSession P D createdAt (now - sessionTtl) db sid with
    | error exc =>
      rw [hsid] at h
      cases h
    | ok mid =>
      rw [hsid] at h
      obtain ⟨hmid, hholds⟩ := sweepSession_holds hrt hrows hsid
      rw [ih hmid h, hholds, List.exists_mem_cons_iff, and_or_left, not_or, and_assoc]

/-- **After a sweep** what is expired is gone, and nothing else, exactly when it was in the
workspaces of sessions in `_sessions`. -/
theorem evict_expired_iff (hrt : P.RoundTrips) {s : StreamableRetention δ}
    (hpersistence : s.persistence = some db) (httl : 0 < s.sessionTtl) (hrows : RowsOf P db)
    (hdone : evictExpired P D createdAt s now = .ok (some db')) :
    Retains P D createdAt s.sessionTtl now db db' ↔
      ∀ e, Holds P db e → Expired D createdAt s.sessionTtl now e →
        ∃ sid ∈ s.sessions, P.codec.workspaceId e = "mcp:" ++ sid := by
  unfold evictExpired at hdone
  rw [hpersistence] at hdone
  dsimp only at hdone
  rw [if_neg (not_le.2 httl)] at hdone
  have hswept : s.sessions.foldlM (sweepSession P D createdAt (now - s.sessionTtl)) db =
      .ok db' := by
    cases hfold : s.sessions.foldlM (sweepSession P D createdAt (now - s.sessionTtl)) db with
    | error e =>
      rw [hfold] at hdone
      cases hdone
    | ok left =>
      rw [hfold] at hdone
      cases hdone
      rfl
  have hholds := sweep_holds hrt hrows hswept
  constructor
  · rintro ⟨hgone, -⟩ e hheld hexpired
    by_contra hout
    exact hgone e ((hholds e).2 ⟨hheld, fun ⟨_, hin⟩ => hout hin⟩) hexpired
  · intro hknown
    refine ⟨fun e hheld hexpired => ?_, fun e hheld hfresh => ?_⟩
    · obtain ⟨hheld, hnot⟩ := (hholds e).1 hheld
      exact hnot ⟨hexpired, hknown e hheld hexpired⟩
    · exact (hholds e).2 ⟨hheld, fun ⟨hexpired, _⟩ => hfresh hexpired⟩

/-- Entities of an `id`, a `workspace_id` and a `created_at`, with themselves as their JSON. -/
def plainEntities : Pydantic (fun _ => String × String × String) (String × String × String) where
  id f := f.1
  workspaceId f := f.2.1
  dumpJson f := f
  validateJson _ data := .ok data

/-- Two days, and how a number of seconds is a time. -/
def plainDatetime : Datetime where
  fromisoformat text :=
    if text = "1970-01-01T00:00:00+00:00" then some { wall := 0, utcoffset := some 0 }
    else if text = "1970-01-02T00:00:00+00:00" then
      some { wall := 86400000000, utcoffset := some 0 }
    else none
  fromtimestamp t := .ok ⌊t * 1000000⌋

/-- An event of each day, each of its own session. -/
def twoEvents : PersistenceRegistry (String × String × String) :=
  [⟨.mcpSessionEvent, ("e1", "mcp:s1", "1970-01-01T00:00:00+00:00")⟩,
    ⟨.mcpSessionEvent, ("e2", "mcp:s2", "1970-01-02T00:00:00+00:00")⟩].foldl
      (fun db e => db.save plainEntities.codec e) { shared := true }

theorem rowsOf_twoEvents : RowsOf plainEntities twoEvents := by
  intro r hr
  rcases List.mem_cons.1 hr with rfl | hr
  · exact ⟨⟨.mcpSessionEvent, ("e1", "mcp:s1", "1970-01-01T00:00:00+00:00")⟩, rfl⟩
  · rw [List.mem_singleton.1 hr]
    exact ⟨⟨.mcpSessionEvent, ("e2", "mcp:s2", "1970-01-02T00:00:00+00:00")⟩, rfl⟩

/-- The one event of a session is listed. -/
theorem list_twoEvents :
    twoEvents.list plainEntities.codec ("mcp:" ++ "s1") (some "McpSessionEvent") =
        .ok [⟨.mcpSessionEvent, ("e1", "mcp:s1", "1970-01-01T00:00:00+00:00")⟩] ∧
      twoEvents.list plainEntities.codec ("mcp:" ++ "s2") (some "McpSessionEvent") =
        .ok [⟨.mcpSessionEvent, ("e2", "mcp:s2", "1970-01-02T00:00:00+00:00")⟩] := by
  constructor
  · show ([_].mergeSort _).mapM _ = _
    rw [List.mergeSort_singleton]
    rfl
  · show ([_].mergeSort _).mapM _ = _
    rw [List.mergeSort_singleton]
    rfl

/-- The cutoff of a day at a point of the next day. -/
theorem cutoff_twoEvents :
    plainDatetime.fromtimestamp (100000 - ((86400 : ℤ) : ℚ)) = .ok 13600000000 := by
  unfold plainDatetime
  norm_num

/-- The older event goes when its session is there. -/
theorem evict_expired_live :
    Retains plainEntities plainDatetime (fun f => f.2.2) 86400 100000 twoEvents
        (twoEvents.delete "e1").2 ↔
      ∀ e, Holds plainEntities twoEvents e →
        Expired plainDatetime (fun f : String × String × String => f.2.2) 86400 100000 e →
          ∃ sid ∈ ["s1"], plainEntities.codec.workspaceId e = "mcp:" ++ sid := by
  refine evict_expired_iff (P := plainEntities) (D := plainDatetime) (fun _ _ => rfl)
    (s := { persistence := some twoEvents, sessions := ["s1"] }) rfl (by decide) rowsOf_twoEvents ?_
  show (([_].foldlM (sweepSession _ _ _ _) _).map some : Except Exc _) = _
  rw [List.foldlM_cons]
  unfold sweepSession
  rw [list_twoEvents.1]
  dsimp only [List.foldlM]
  unfold sweepEvent
  dsimp only
  rw [cutoff_twoEvents]
  rfl

/-- It stays when its session has ended. -/
theorem ended_session_kept :
    evictExpired plainEntities plainDatetime (fun f => f.2.2)
        { persistence := some twoEvents, sessions := ["s2"] } 100000 = .ok (some twoEvents) ∧
      ¬ Retains plainEntities plainDatetime (fun f => f.2.2) 86400 100000 twoEvents twoEvents := by
  constructor
  · show (([_].foldlM (sweepSession _ _ _ _) _).map some : Except Exc _) = _
    rw [List.foldlM_cons]
    unfold sweepSession
    rw [list_twoEvents.2]
    dsimp only [List.foldlM]
    unfold sweepEvent
    dsimp only
    rw [cutoff_twoEvents]
    rfl
  · intro h
    exact h.gone ⟨.mcpSessionEvent, ("e1", "mcp:s1", "1970-01-01T00:00:00+00:00")⟩ rfl
      ⟨_, rfl, { wall := 0, utcoffset := some 0 }, rfl, 13600000000, cutoff_twoEvents, by decide⟩

end StreamableRetention

end Hermes

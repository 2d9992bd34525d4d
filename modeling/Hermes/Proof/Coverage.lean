import Hermes.Proof.Journal

/-!
# Which bodies a guard and a sandbox cover

Bodies are reached in an attempt, under a guard or in a sandbox or as they are, and in
a rollback.

* `run_bodies`: the bodies of a run are those of its points.
* `Point.origin`: how each of them was run.
* `guard_coverage_iff`, `sandbox_coverage_iff`: the guard, and the sandbox with its
  policy, cover a run exactly when its bodies are reached on the path that has them.
* `rollback_unguarded`, `guarded_unsandboxed`: paths that have them not.
-/

namespace Hermes

open World

variable {E : Env} {i : String} {w w' : World} {ns ms : List Note}

/-- The bodies run at a point. -/
def Point.bodies (E : Env) (p : Point) : List BodyRun := bodiesRun (notes (p.actions E))

/-! ## How a body was run -/

/-- **Where a body comes from**, in an attempt or a rollback of `i` that begins in `w`. -/
inductive Origin (w : World) (i : String) (policy : Option SandboxPolicy) (b : BodyRun) :
    Prop where
  | guarded {packageId : String} {rules : Dict String GuardPolicy × Dict String (List Permission)} :
    b.call.kind = .forward → guardedPackage w b.call.step = some packageId →
    w.parts.wiring.rules = some rules →
    rulesAllow rules packageId "execute" ("capability:" ++ b.call.step.capability) = true →
    b.guarded = some packageId → b.sandboxed = none → Origin w i policy b
  | unguarded {inst : WorkflowInstance} : w.instances.get? i = some inst →
    inst.currentStep = some b.call.step → b.call.kind = .forward → guardedPackage w b.call.step = none → b.guarded = none →
    b.sandboxed = (if w.parts.sandbox then
      some (policy.getD (resolvePolicy b.call.step inst.workflow)) else none) →
    Origin w i policy b
  | rollback : b.call.kind = .compensation → b.guarded = none → b.sandboxed = none →
    Origin w i policy b

theorem Undone.origin {policy : Option SandboxPolicy} (h : Undone i ns) :
    ∀ b ∈ bodiesRun ns, Origin w i policy b := by
  intro b hb
  obtain ⟨b', hb', -, hk, hg, hs⟩ := h _ (mem_bodiesRun.1 hb)
  cases hb'
  exact .rollback hk hg hs

theorem Tried.plan {p : BodyPlan} {cut : Bool} {R : Prop} {r : Except Exc Artifact}
    (h : Tried E p cut R r ns) : ∀ b ∈ bodiesRun ns, ns ≠ [] ∧ b.call = p.call ∧
      b.guarded = p.guarded ∧ b.sandboxed = p.sandboxed := by
  cases h with
  | refused => simp [bodiesRun]
  | ran _ hc hg hs _ =>
    intro b' hb'
    rw [List.mem_singleton.1 hb']
    exact ⟨by simp, hc, hg, hs⟩

/-- Without a guard no package is guarded. -/
theorem guardedPackage_unruled (h : w.parts.wiring.rules = none) (step : WorkflowStep) :
    guardedPackage w step = none := by
  have hg : w.parts.guard = none := by simpa [Parts.wiring] using h
  unfold guardedPackage
  simp [hg]

theorem RanBody.origin {agent : Option String} {policy : Option SandboxPolicy}
    {inst : WorkflowInstance} {step : WorkflowStep} {r : Except Exc Artifact} {st : Standing}
    (hi : w.instances.get? i = some inst) (hcur : inst.currentStep = some step)
    (h : RanBody E i agent policy w inst step r ms st) :
    ∀ b ∈ bodiesRun ms, Origin w i policy b := by
  obtain ⟨params, hdone⟩ := h.done
  -- without rules there is no guard, so no package is guarded either
  have hnone : guardedPackage w step = none ∨ w.parts.wiring.rules = none →
      guardedPackage w step = none := fun h => h.elim id fun hr => guardedPackage_unruled hr step
  have hboxed : ∀ {cut : Bool} {R : Prop} {r : Except Exc Artifact} {ms : List Note},
      guardedPackage w step = none ∨ w.parts.wiring.rules = none → w.parts.wiring.sandbox = true →
      Tried E ⟨i, inst.workflow.id, ⟨.forward, some i, step, params, agent⟩, none,
        some (policy.getD (resolvePolicy step inst.workflow))⟩ cut R r ms →
      ∀ b ∈ bodiesRun ms, Origin w i policy b := by
    intro cut R r ms hg hs htried b hb
    obtain ⟨-, hc, hgb, hsb⟩ := htried.plan b hb
    refine .unguarded hi (by rw [hc]; exact hcur) (by rw [hc]) (by rw [hc]; exact hnone hg) hgb ?_
    have hwired : w.parts.sandbox = true := hs
    rw [hsb, hc, if_pos hwired]
  cases hdone with
  | @guarded packageId rules _ _ hg hr htried hallow =>
    intro b hb
    obtain ⟨hne, hc, hgb, hsb⟩ := htried.plan b hb
    exact .guarded (by rw [hc]) (by rw [hc]; exact hg) hr (by rw [hc]; exact hallow hne) hgb hsb
  | plain hg hs htried =>
    intro b hb
    obtain ⟨-, hc, hgb, hsb⟩ := htried.plan b hb
    refine .unguarded hi (by rw [hc]; exact hcur) (by rw [hc]) (by rw [hc]; exact hnone hg) hgb ?_
    have hunwired : ¬ w.parts.sandbox = true := Bool.eq_false_iff.1 hs
    rw [hsb, if_neg hunwired]
  | boxed hg hs htried _ => exact hboxed hg hs htried
  | broken hg hs _ htried hus _ =>
    intro b hb
    rw [bodiesRun_append] at hb
    rcases List.mem_append.1 hb with hb | hb
    · exact hboxed hg hs htried b hb
    · exact hus.origin b hb

theorem Noted.bodies {p : Point} (h : Noted p.before (p.after E) ns) :
    p.bodies E = bodiesRun ns := by
  obtain ⟨u, hu, hn⟩ := h
  unfold Point.bodies Point.actions
  rw [hu, List.drop_left, hn]

/-- The policy that the attempt is given. -/
def Point.policy : Point → Option SandboxPolicy
  | .attempt _ _ _ policy _ _ => policy
  | .rejection _ _ _ => none

/-- The policy that the call of `execute_step` was given. -/
def Point.called : Point → Option SandboxPolicy
  | .attempt _ _ called _ _ _ => called
  | .rejection _ _ _ => none

/-- What an attempt notes down, with the origin of its bodies. -/
theorem attemptStep_origin (w : World) (i : String) (agent : Option String) (retries : ℕ)
    (policy : Option SandboxPolicy) : ∃ ns, Noted w (attemptStep E i agent retries policy w).2 ns ∧
      ∀ b ∈ bodiesRun ns, Origin w i policy b := by
  rcases attemptStep_cases (E := E) w i agent retries policy with hidle | ⟨inst, step, hi, hcur, h⟩
  · exact ⟨[], hidle.noted, by simp [bodiesRun]⟩
  · generalize attemptStep E i agent retries policy w = R at h ⊢
    have hran : ∀ {r : Except Exc Artifact} {ms : List Note} {st : Standing} (us : List Note),
        RanBody E i agent policy w inst step r ms st →
        (∀ b ∈ bodiesRun us, Origin w i policy b) →
        ∀ b ∈ bodiesRun (Note.started i step.id :: ms ++ us), Origin w i policy b := by
      intro r ms st us hran hus b hb
      have hsplit : bodiesRun (Note.started i step.id :: ms ++ us) = bodiesRun ms ++ bodiesRun us :=
        bodiesRun_append ms us
      rw [hsplit] at hb
      rcases List.mem_append.1 hb with hb | hb
      · exact hran.origin hi hcur b hb
      · exact hus b hb
    cases h with
    | paused _ _ _ hw => exact ⟨_, hw.noted, by simp [bodiesRun]⟩
    | unresolved _ _ hw => exact ⟨_, hw.noted, by simp [bodiesRun]⟩
    | unwired _ _ _ _ _ hw => exact ⟨_, hw.noted, by simp [bodiesRun]⟩
    | completed h hw => exact ⟨_, hw.noted, hran _ h (by simp [bodiesRun])⟩
    | denied _ h _ hw => exact ⟨_, hw.noted, hran _ h (by simp [bodiesRun])⟩
    | broken _ h hw =>
      rw [← List.append_nil (_ :: _)] at hw
      exact ⟨_, hw.noted, hran [] h (by simp [bodiesRun])⟩
    | exhausted _ h _ hus hw =>
      rw [List.append_assoc] at hw
      exact ⟨_, hw.noted, hran _ h fun b hb => hus.origin b hb⟩
    | again _ h hw => exact ⟨_, hw.noted, hran _ h (by simp [bodiesRun])⟩

theorem Point.noted (p : Point) : ∃ ns, Noted p.before (p.after E) ns ∧
    ∀ b ∈ bodiesRun ns, Origin p.before p.inst p.policy b := by
  cases p with
  | attempt i agent called policy retries w => exact attemptStep_origin w i agent retries policy
  | rejection i stepId w =>
    obtain ⟨us, hus, hnoted⟩ := compensate_noted (E := E) w i stepId
    exact ⟨us, hnoted, fun b hb => hus.origin b hb⟩

/-- **How each body of a point was run.** -/
theorem Point.origin {p : Point} {b : BodyRun} (hb : b ∈ p.bodies E) :
    Origin p.before p.inst p.policy b := by
  obtain ⟨ns, hnoted, hall⟩ := p.noted (E := E)
  rw [hnoted.bodies] at hb
  exact hall b hb

/-- **The bodies of a run are those of its points.** -/
theorem run_bodies (E : Env) (ops : List EngineOp) :
    bodiesRun (notes (World.run E ops).trace) = (runPoints E ops).flatMap (Point.bodies E) := by
  refine (World.run_through E ops).collect (f := fun w => bodiesRun (notes w.trace)) ?_ ?_
  · intro w w' hq
    obtain ⟨ms, hms, hleft⟩ := hq.notes
    have hnone : bodiesRun ms = [] := by
      refine List.filterMap_eq_nil_iff.2 fun n hn => ?_
      obtain ⟨j, rfl⟩ := hleft n hn
      rfl
    rw [hms, bodiesRun_append, hnone, List.append_nil]
  · intro p
    obtain ⟨ns, hnoted, -⟩ := p.noted (E := E)
    rw [hnoted.bodies, hnoted.eq, bodiesRun_append]

/-! ## The guard -/

def PluginPackage.backs (pkg : PluginPackage) (capability : String) : Bool :=
  pkg.capabilities.any fun cap =>
    cap = capability ∨ (cap ++ ".").toList.isPrefixOf capability.toList

/-- The installed packages that back a capability and have a registered policy. -/
def World.policed (w : World) (capability : String) : List PluginPackage :=
  match w.parts.guard, w.parts.installed with
  | some g, some pkgs =>
    pkgs.filter fun pkg => pkg.backs capability ∧ (g.policies.get? pkg.packageId).isSome
  | _, _ => []

/-- `CapabilityGuard.check` of a capability. -/
def World.permits (w : World) (packageId capability : String) : Bool :=
  match w.parts.guard with
  | some g => g.check packageId "execute" ("capability:" ++ capability)
  | none => true

/-- **The guard has allowed this execution** for each package that it should have asked. -/
def GuardCovered (w : World) (b : BodyRun) : Prop :=
  ∀ pkg ∈ w.policed b.call.step.capability, b.guarded = some pkg.packageId ∧
    w.permits pkg.packageId b.call.step.capability = true

/-- The body is reached where the guard is asked: in an attempt, and for the package that
`_step_package_id` finds. -/
def GuardReached (w : World) (b : BodyRun) : Prop :=
  ∀ pkg ∈ w.policed b.call.step.capability, b.call.kind = .forward ∧
    guardedPackage w b.call.step = some pkg.packageId

instance (w : World) : DecidablePred (GuardCovered w) := fun b =>
  inferInstanceAs (Decidable (∀ pkg ∈ w.policed b.call.step.capability,
    b.guarded = some pkg.packageId ∧ w.permits pkg.packageId b.call.step.capability = true))

theorem Origin.guard_iff {policy : Option SandboxPolicy} {b : BodyRun} (h : Origin w i policy b) :
    GuardCovered w b ↔ GuardReached w b := by
  refine forall₂_congr fun pkg hpkg => ?_
  cases h with
  | @guarded packageId rules hk hp hr hallow hg _ =>
    -- a body that was run under its guard was permitted by it
    have hcheck : w.permits packageId b.call.step.capability = true := by
      unfold permits
      cases hguard : w.parts.guard with
      | none => rfl
      | some g =>
        have hrules : rules = (g.policies, g.grants) := by
          simp only [Parts.wiring, hguard, Option.map_some, Option.some.injEq] at hr
          exact hr.symm
        rw [hrules] at hallow
        exact hallow
    rw [hg, hp]
    constructor
    · rintro ⟨hid, -⟩
      exact ⟨hk, hid⟩
    · rintro ⟨-, hid⟩
      cases hid
      exact ⟨rfl, hcheck⟩
  | unguarded _ _ _ hp hg _ =>
    rw [hg, hp]
    constructor
    · rintro ⟨hid, -⟩
      cases hid
    · rintro ⟨-, hid⟩
      cases hid
  | rollback hk hg _ =>
    rw [hk, hg]
    constructor
    · rintro ⟨hid, -⟩
      cases hid
    · rintro ⟨hf, -⟩
      cases hf

/-- **The guard covers a run** exactly when every body backed by a package with a policy is
reached where the guard is asked for that package. -/
theorem guard_coverage_iff (E : Env) (ops : List EngineOp) :
    bodiesRun (notes (World.run E ops).trace) = (runPoints E ops).flatMap (Point.bodies E) ∧
      ((∀ p ∈ runPoints E ops, ∀ b ∈ p.bodies E, GuardCovered p.before b) ↔
        ∀ p ∈ runPoints E ops, ∀ b ∈ p.bodies E, GuardReached p.before b) :=
  ⟨run_bodies E ops, forall₂_congr fun _ _ => forall₂_congr fun _ hb => (Point.origin hb).guard_iff⟩

/-- The first step fails, and its compensation is run. -/
def wipeWorkflow : Workflow :=
  { id := "w"
    steps := [{ id := "a", capability := "safe", retryPolicy := { maxAttempts := 1 }
                compensation := some "u" },
              { id := "u", capability := "wipe" }] }

/-- A package with a policy that allows nothing. -/
def strictParts : Parts :=
  { guard := some { policies := (∅ : Dict String GuardPolicy).insert "pkg" {} }
    installed := some [⟨"pkg", ["wipe"]⟩] }

/-- **A rollback is not guarded**: the compensation of a failed step is executed although the
policy of its package denies it. -/
theorem rollback_unguarded : ¬ ∀ (E : Env) (ops : List EngineOp), ∀ p ∈ runPoints E ops,
    ∀ b ∈ p.bodies E, GuardCovered p.before b := by
  intro H
  have hrun := H (Env.scripted fun _ => false)
    [.arrange strictParts, .start wipeWorkflow, .executeStep "" none none]
  revert hrun
  decide +kernel

/-! ## The sandbox -/

/-- **A sandbox runs the body**, under the policy that the call was given. -/
def SandboxCovered (p : Point) (b : BodyRun) : Prop :=
  p.before.parts.sandbox = true → b.sandboxed.isSome ∧
    (b.call.kind = .forward → ∀ P ∈ p.called, b.sandboxed = some P)

/-- The body is reached where the sandbox is: in an attempt, and without a guard. -/
def SandboxReached (p : Point) (b : BodyRun) : Prop :=
  p.before.parts.sandbox = true → b.call.kind = .forward ∧
    guardedPackage p.before b.call.step = none

instance (p : Point) : DecidablePred (SandboxCovered p) := fun b =>
  inferInstanceAs (Decidable (p.before.parts.sandbox = true → b.sandboxed.isSome ∧
    (b.call.kind = .forward → ∀ P ∈ p.called, b.sandboxed = some P)))

/-- The current step of `i` is guarded, or no sandbox is wired. -/
def GuardedOnly (w : World) (i : String) : Prop :=
  w.parts.sandbox = true → ∀ inst step, w.instances.get? i = some inst →
    inst.currentStep = some step → guardedPackage w step ≠ none

/-- **What comes out of a sandbox is not retried**: a call that goes on has a guarded step. -/
theorem guardedOnly_of_again {agent : Option String} {retries : ℕ} {policy : Option SandboxPolicy}
    (h : attemptStep E i agent retries policy w = (none, w')) : GuardedOnly w' i := by
  rcases attemptStep_cases (E := E) w i agent retries policy with hidle | ⟨inst, step, hi, hcur, hd⟩
  · obtain ⟨r, hr⟩ := hidle.ends
    rw [h] at hr
    cases hr
  · rw [h] at hd
    cases hd with
    | @again _ e ms _ hk hran hw =>
      intro hs inst' step' hi' hcur'
      have hs' : w.parts.wiring.sandbox = true := by
        rw [← hw.wiring]
        exact hs
      obtain ⟨inst'', hi'', hst⟩ := hw.inst
      rw [hi'] at hi''
      cases hi''
      have hsame : inst'.currentStep = inst.currentStep := by
        have hplace := congrArg Standing.place hst
        have hwf : inst'.workflow = inst.workflow := congrArg Place.workflow hplace
        have hid : inst'.currentStepId = inst.currentStepId := congrArg Place.cursor hplace
        exact currentStep_congr hwf hid
      rw [hsame, hcur] at hcur'
      cases hcur'
      rw [guardedPackage_congr hw.wiring]
      obtain ⟨params, hdone⟩ := hran.done
      -- a body that is not guarded would have come out of the sandbox
      generalize hr : (Except.error e : Except Exc Artifact) = r at hdone
      cases hdone with
      | guarded hg => rw [hg]; simp
      | plain _ hno => rw [hs'] at hno; cases hno
      | boxed _ _ _ hbox => exact absurd (hbox e hr.symm) hk
      | broken _ _ hbroken => cases hr; exact absurd hbroken hk

/-- An attempt is given the policy of its call, unless its step is guarded. -/
theorem attemptsFrom_policy (agent : Option String) (called : Option SandboxPolicy) :
    ∀ retries policy w, (policy = called ∨ GuardedOnly w i) →
      ∀ p ∈ attemptsFrom E i agent called retries policy w,
        p.policy = p.called ∨ GuardedOnly p.before p.inst := by
  intro retries
  induction retries with
  | zero =>
    intro policy w h p hp
    rw [List.mem_singleton.1 hp]
    exact h
  | succ retries ih =>
    intro policy w h p hp
    rcases List.mem_cons.1 hp with rfl | hp
    · exact h
    · cases hR : attemptStep E i agent (retries + 1) policy w with
      | mk o w' =>
        simp only [hR] at hp
        cases o with
        | some r => cases hp
        | none => exact ih none w' (.inr (guardedOnly_of_again hR)) p hp

theorem runPoints_policy (ops : List EngineOp) :
    ∀ p ∈ runPoints E ops, p.policy = p.called ∨ GuardedOnly p.before p.inst := by
  refine forall_runPoints ?_ (fun _ _ _ => .inl rfl) ops
  intro i agent policy w p hp
  unfold callPoints at hp
  cases hi : w.instances.get? i with
  | none => rw [hi] at hp; cases hp
  | some inst =>
    rw [hi] at hp
    exact attemptsFrom_policy agent policy _ policy _ (.inl rfl) p hp

theorem Origin.sandbox_iff {p : Point} {b : BodyRun} (h : Origin p.before p.inst p.policy b)
    (hpolicy : p.policy = p.called ∨ GuardedOnly p.before p.inst) :
    SandboxCovered p b ↔ SandboxReached p b := by
  refine forall_congr' fun hs => ?_
  cases h with
  | guarded hk hp _ _ _ hbox =>
    rw [hbox, hp]
    simp
  | @unguarded inst hi hcur hk hp _ hbox =>
    have hsame : p.policy = p.called := by
      rcases hpolicy with h | h
      · exact h
      · exact absurd hp (h hs inst _ hi hcur)
    rw [if_pos hs, hsame] at hbox
    rw [hbox, hk, hp]
    refine ⟨fun _ => ⟨rfl, rfl⟩, fun _ => ⟨rfl, fun _ P hP => ?_⟩⟩
    rw [Option.mem_def.1 hP]
    rfl
  | rollback hk _ hbox =>
    rw [hbox, hk]
    simp

/-- **The sandbox covers a run** exactly when no body is run under a guard or in a rollback. -/
theorem sandbox_coverage_iff (E : Env) (ops : List EngineOp) :
    bodiesRun (notes (World.run E ops).trace) = (runPoints E ops).flatMap (Point.bodies E) ∧
      ((∀ p ∈ runPoints E ops, ∀ b ∈ p.bodies E, SandboxCovered p b) ↔
        ∀ p ∈ runPoints E ops, ∀ b ∈ p.bodies E, SandboxReached p b) :=
  ⟨run_bodies E ops, forall₂_congr fun _ hp => forall₂_congr fun _ hb =>
    (Point.origin hb).sandbox_iff (runPoints_policy ops _ hp)⟩

def trustedPolicy : GuardPolicy := { permissions := [⟨"execute", "*"⟩] }

/-- A package that allows everything backs the only step. -/
def trustedParts : Parts :=
  { guard := some { policies := (∅ : Dict String GuardPolicy).insert "pkg" trustedPolicy }
    installed := some [⟨"pkg", ["wipe"]⟩]
    sandbox := true }

/-- **A guarded step is not sandboxed**, whatever policy its call is given. -/
theorem guarded_unsandboxed : ¬ ∀ (E : Env) (ops : List EngineOp), ∀ p ∈ runPoints E ops,
    ∀ b ∈ p.bodies E, SandboxCovered p b := by
  intro H
  have hrun := H (Env.scripted fun _ => true) [.arrange trustedParts,
    .start { id := "w", steps := [{ id := "a", capability := "wipe" }] },
    .executeStep "" none (some { timeoutSeconds := 1 })]
  revert hrun
  decide +kernel

end Hermes

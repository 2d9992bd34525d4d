import Hermes.Proof.MarketSteps
import Hermes.Spec.AgentRuntime

/-!
# Installed and guarded together

* `registerAll_ok_iff`, `registerAll_new_iff`: when all capabilities of a list are
  registered, and when any is.
* `Guarded`: the guard of the runtime has the policy of a package.
* `installCapability_cases`: a call by the fate of the package that it finds.
* `Secured`, `Secures`: capabilities come from an installed package, and an installed
  package is guarded.
* `secures_iff`: a call leaves it so exactly when the package is `Covered`.
* `refused_registers`: the capabilities of a refused package are registered.
-/

namespace Hermes

/-! ## The registry -/

namespace CapabilityRegistry

variable {r : CapabilityRegistry} {cap : Capability}

theorem registerAll_taken (h : cap.name ∈ r.names) (caps : List Capability) :
    ∃ x, registerAll (cap :: caps) r = (.error x, r) := by
  conv in registerAll _ _ => unfold registerAll register
  rw [if_pos h]
  exact ⟨_, rfl⟩

theorem registerAll_fresh (h : cap.name ∉ r.names) (caps : List Capability) :
    registerAll (cap :: caps) r = registerAll caps ⟨r.caps ++ [cap]⟩ := by
  conv_lhs => unfold registerAll register
  rw [if_neg h]

/-- **A list is registered** when its names are distinct, and new. -/
theorem registerAll_ok_iff (caps : List Capability) : ∀ r : CapabilityRegistry,
    (registerAll caps r).1 = .ok () ↔
      (caps.map (·.name)).Nodup ∧ ∀ name ∈ caps.map (·.name), name ∉ r.names := by
  induction caps with
  | nil => intro r; simp [registerAll]
  | cons cap caps ih =>
    intro r
    by_cases hname : cap.name ∈ r.names
    · obtain ⟨x, hraises⟩ := registerAll_taken hname caps
      rw [hraises]
      refine iff_of_false (by simp) ?_
      rintro ⟨-, hnew⟩
      exact hnew cap.name (by simp) hname
    · have hnames : (⟨r.caps ++ [cap]⟩ : CapabilityRegistry).names = r.names ++ [cap.name] := by
        unfold names
        rw [List.map_append]
        rfl
      rw [registerAll_fresh hname, ih, hnames, List.map_cons, List.nodup_cons]
      -- the name of this capability is new for the others
      constructor
      · rintro ⟨hnodup, hnew⟩
        refine ⟨⟨fun hmem => ?_, hnodup⟩, fun name hmem hold => ?_⟩
        · exact hnew cap.name hmem (by simp)
        · rcases List.mem_cons.1 hmem with rfl | hmem
          · exact hname hold
          · exact hnew name hmem (List.mem_append_left _ hold)
      · rintro ⟨⟨hfresh, hnodup⟩, hnew⟩
        refine ⟨hnodup, fun name hmem hold => ?_⟩
        rcases List.mem_append.1 hold with hold | hold
        · exact hnew name (List.mem_cons_of_mem _ hmem) hold
        · rw [List.mem_singleton] at hold
          exact hfresh (hold ▸ hmem)

theorem registerAll_keeps (caps : List Capability) : ∀ r : CapabilityRegistry,
    ∀ c ∈ r.caps, c ∈ (registerAll caps r).2.caps := by
  induction caps with
  | nil => intro r c hc; exact hc
  | cons cap caps ih =>
    intro r c hc
    unfold registerAll register
    split
    · exact hc
    · rename_i hok
      split at hok
      · cases hok
      · obtain rfl := Except.ok.inj hok
        exact ih _ c (List.mem_append_left _ hc)

/-- **Something is registered** when the first name is new. -/
theorem registerAll_new_iff (caps : List Capability) (r : CapabilityRegistry) :
    (∃ c ∈ (registerAll caps r).2.caps, c ∉ r.caps) ↔
      ∃ name ∈ (caps.map (·.name)).head?, name ∉ r.names := by
  cases caps with
  | nil => simp [registerAll]
  | cons cap caps =>
    by_cases hname : cap.name ∈ r.names
    · obtain ⟨x, hraises⟩ := registerAll_taken hname caps
      rw [hraises]
      refine iff_of_false ?_ ?_
      · rintro ⟨c, hc, hnew⟩
        exact hnew hc
      · rintro ⟨name, hhead, hnew⟩
        obtain rfl : cap.name = name := by simpa using hhead
        exact hnew hname
    · refine iff_of_true ⟨cap, ?_, fun hold => ?_⟩ ⟨cap.name, by simp, hname⟩
      · rw [registerAll_fresh hname]
        exact registerAll_keeps caps _ cap (by simp)
      · exact hname (List.mem_map_of_mem hold)

end CapabilityRegistry

/-! ## A call -/

namespace AgentRuntime

open Marketplace

variable {sha256 : String → String} {t t' : AgentRuntime} {call : InstallCall} {i : ℕ}
  {p q : Plugin} {mp : Marketplace}

/-- The package that a call finds, with its reference. -/
def found (t : AgentRuntime) (packageId : String) : Option (ℕ × Plugin) :=
  t.marketplace.bind fun mp => (mp.getPackage packageId).bind fun i =>
    (mp.objects[i]?).map (i, ·)

/-- What becomes of a package when it is installed. -/
def fateOf (sha256 : String → String) (t : AgentRuntime) (vault : SecretAnswers) (i : ℕ) :
    Option Fate :=
  t.marketplace.map (·.fate sha256 vault i)

/-- The object at `i` is installed. -/
def isInstalled (t : AgentRuntime) (i : ℕ) : Bool := t.marketplace.any (·.hasStatus .installed i)

/-- The guard of the runtime has the policy of a package, if both are there. -/
def Guarded (t : AgentRuntime) (p : Plugin) : Prop :=
  ∀ policy ∈ p.policy, ∀ g ∈ t.wiredGuard, g.policies.get? p.packageId = some policy

/-- The registry has a capability that it did not have. -/
def Grown (registry registry' : Option CapabilityRegistry) : Prop :=
  ∃ r ∈ registry, ∃ r' ∈ registry', ∃ c ∈ r'.caps, c ∉ r.caps

/-- What a call should leave: capabilities of an installed package only, and a package that is
guarded if it is installed. -/
structure Secured (sha256 : String → String) (t : AgentRuntime) (call : InstallCall) (i : ℕ)
    (p : Plugin) : Prop where
  registered : Grown call.registry (t.installCapability sha256 call).registry →
    (t.installCapability sha256 call).runtime.isInstalled i
  guarded : (t.installCapability sha256 call).runtime.isInstalled i →
    (t.installCapability sha256 call).runtime.Guarded p

/-- What a call should leave for the package that it finds; without one it registers nothing. -/
def Secures (sha256 : String → String) (t : AgentRuntime) (call : InstallCall) : Prop :=
  match t.found call.packageId with
  | none => ¬ Grown call.registry (t.installCapability sha256 call).registry
  | some (i, p) => Secured sha256 t call i p

/-- A package that is refused has nothing new to register, and one that is installed is guarded
already or nothing raises before it is. -/
def Covered (sha256 : String → String) (t : AgentRuntime) (call : InstallCall) (i : ℕ)
    (p : Plugin) : Prop :=
  match t.fateOf sha256 call.vault i with
  | some .accepted => t.Guarded p ∨ t.guard = .shared ∨
      ((∀ r ∈ call.registry, p.capabilities.Nodup ∧ ∀ name ∈ p.capabilities, name ∉ r.names) ∧
        call.observe = .ok ())
  | some .refused => ∀ r ∈ call.registry, ∀ name ∈ p.capabilities.head?, name ∈ r.names
  | _ => p.status = .installed → t.Guarded p

theorem names_capabilityOf (p : Plugin) :
    (p.capabilities.map (capabilityOf p)).map (·.name) = p.capabilities := by
  rw [List.map_map]
  exact List.map_id _

theorem registerCapabilities_ok_iff (p : Plugin) (registry : Option CapabilityRegistry) :
    (registerCapabilities p registry).1 = .ok () ↔
      ∀ r ∈ registry, p.capabilities.Nodup ∧ ∀ name ∈ p.capabilities, name ∉ r.names := by
  cases registry with
  | none => simp [registerCapabilities]
  | some r =>
    have hiff := CapabilityRegistry.registerAll_ok_iff (p.capabilities.map (capabilityOf p)) r
    rw [names_capabilityOf] at hiff
    simpa [registerCapabilities] using hiff

theorem grown_iff (p : Plugin) (registry : Option CapabilityRegistry) :
    Grown registry (registerCapabilities p registry).2 ↔
      ∃ r ∈ registry, ∃ name ∈ p.capabilities.head?, name ∉ r.names := by
  cases registry with
  | none => simp [Grown]
  | some r =>
    have hiff := CapabilityRegistry.registerAll_new_iff (p.capabilities.map (capabilityOf p)) r
    rw [names_capabilityOf] at hiff
    simpa [Grown, registerCapabilities] using hiff

theorem not_grown_self (registry : Option CapabilityRegistry) : ¬ Grown registry registry := by
  rintro ⟨r, hr, r', hr', c, hc, hnew⟩
  obtain rfl : r = r' := Option.some.inj (hr.symm.trans hr')
  exact hnew hc

/-! ## Policies -/

theorem guarded_registerPolicy (t : AgentRuntime) (p : Plugin) :
    (t.registerPolicy p).Guarded p := by
  intro policy hpolicy g hg
  have hp : p.policy = some policy := hpolicy
  unfold registerPolicy wiredGuard at hg
  rw [hp] at hg
  cases hw : t.guard with
  | none => simp [hw] at hg
  | own g' =>
    rw [hw] at hg
    obtain rfl : g'.registerPolicy p.packageId policy = g := by simpa using hg
    exact Dict.get?_insert_self _ _ _
  | shared =>
    rw [hw] at hg
    cases hm : t.marketplace with
    | none => simp [hm] at hg
    | some mp =>
      obtain ⟨g', -, rfl⟩ : ∃ g', mp.guard = some g' ∧ g'.registerPolicy p.packageId policy = g := by
        simpa [hw, hm, Marketplace.registerPolicy, hp] using hg
      exact Dict.get?_insert_self _ _ _

theorem isInstalled_registerPolicy (t : AgentRuntime) (p : Plugin) (i : ℕ) :
    (t.registerPolicy p).isInstalled i = t.isInstalled i := by
  unfold registerPolicy
  split
  · rfl
  · rfl
  · rfl
  · unfold isInstalled Marketplace.registerPolicy
    cases t.marketplace with
    | none => rfl
    | some mp =>
      cases p.policy with
      | none => rfl
      | some policy => rfl

/-- **The marketplace has guarded** what it has installed, if its guard is the guard. -/
theorem guarded_accepted {mp' : Marketplace}
    (hguard : mp'.guard = (mp.registerPolicy p).guard) :
    ({ t with marketplace := some mp' } : AgentRuntime).Guarded p ↔
      t.Guarded p ∨ t.guard = .shared := by
  unfold Guarded wiredGuard
  cases hw : t.guard with
  | none => simp
  | own g => simp
  | shared =>
    refine iff_of_true (fun policy hpolicy g hg => ?_) (Or.inr rfl)
    have hp : p.policy = some policy := hpolicy
    obtain ⟨g', -, rfl⟩ : ∃ g', mp.guard = some g' ∧ g'.registerPolicy p.packageId policy = g := by
      simpa [hguard, Marketplace.registerPolicy, hp] using hg
    exact Dict.get?_insert_self _ _ _

/-! ## The steps of a call -/

/-- What comes after `install`: the capabilities are registered, and the policy if nothing raises. -/
theorem finishInstall_cases (t : AgentRuntime) (call : InstallCall) (i : ℕ) (p : Plugin) :
    (t.finishInstall call i p).registry = (registerCapabilities p call.registry).2 ∧
      (((registerCapabilities p call.registry).1 = .ok () ∧ call.observe = .ok () ∧
          (t.finishInstall call i p).runtime = t.registerPolicy p) ∨
        (¬ ((registerCapabilities p call.registry).1 = .ok () ∧ call.observe = .ok ()) ∧
          (t.finishInstall call i p).runtime = t)) := by
  unfold finishInstall
  rcases registerCapabilities p call.registry with ⟨x | _, registry⟩
  · exact ⟨rfl, Or.inr ⟨by simp, rfl⟩⟩
  · cases call.observe with
    | error x => exact ⟨rfl, Or.inr ⟨by simp, rfl⟩⟩
    | ok _ => exact ⟨rfl, Or.inl ⟨rfl, rfl, rfl⟩⟩

/-- **A call** by the fate of the package that it finds. -/
theorem installCapability_cases (sha256 : String → String) (call : InstallCall)
    (hfound : t.found call.packageId = some (i, p)) :
    (t.fateOf sha256 call.vault i = some .raised ∧
        (t.installCapability sha256 call).registry = call.registry ∧
        (t.installCapability sha256 call).runtime = t ∧
        (t.isInstalled i = true ↔ p.status = .installed)) ∨
      ∃ mp mp' q, t.marketplace = some mp ∧ mp'.objects[i]? = some q ∧
        q.policy = p.policy ∧ q.packageId = p.packageId ∧ q.capabilities = p.capabilities ∧
        t.installCapability sha256 call =
          ({ t with marketplace := some mp' } : AgentRuntime).finishInstall call i q ∧
        ((t.fateOf sha256 call.vault i = some .refused ∧ q.status = .failed) ∨
          (t.fateOf sha256 call.vault i = some .accepted ∧ q.status = .installed ∧
            mp'.guard = (mp.registerPolicy p).guard)) := by
  unfold found at hfound
  obtain ⟨mp, hm, hget⟩ := Option.bind_eq_some_iff.1 hfound
  obtain ⟨j, hj, hobject⟩ := Option.bind_eq_some_iff.1 hget
  obtain ⟨q, hp, heq⟩ := Option.map_eq_some_iff.1 hobject
  obtain ⟨rfl, rfl⟩ := Prod.mk.inj heq
  unfold fateOf isInstalled installCapability
  rw [hm]
  simp only [hj, Option.map_some, Option.any_some]
  obtain ⟨hfate, herror, hsame⟩ | ⟨p, hp', hok, -, hcases⟩ :=
    install_cases sha256 mp call.now call.vault j
  · left
    cases hr : mp.install sha256 call.now call.vault j with
    | mk r mp' =>
      rw [hr] at hsame herror
      obtain rfl : mp' = mp := hsame
      cases r with
      | ok k => exact absurd rfl (herror k)
      | error x =>
        refine ⟨congrArg some hfate, rfl, ?_, ?_⟩
        · cases t
          simp only at hm
          rw [hm]
        · unfold hasStatus
          simp [hp]
  · right
    obtain rfl : q = p := Option.some.inj (hp.symm.trans hp')
    cases hr : mp.install sha256 call.now call.vault j with
    | mk r mp' =>
      rw [hr] at hok hcases
      -- refused or accepted, the package is returned
      obtain rfl : r = .ok j := hok
      obtain ⟨hfate, hobjects, -, -⟩ | ⟨hfate, hobjects, -, hguard⟩ := hcases
      · have hq := getElem?_assigned hp hobjects j
        rw [if_pos rfl] at hq
        refine ⟨mp, mp', _, rfl, hq, rfl, rfl, rfl, ?_, Or.inl ⟨congrArg some hfate, rfl⟩⟩
        simp only [hq]
      · have hq := getElem?_assigned hp hobjects j
        rw [if_pos rfl] at hq
        refine ⟨mp, mp', _, rfl, hq, rfl, rfl, rfl, ?_,
          Or.inr ⟨congrArg some hfate, rfl, hguard⟩⟩
        simp only [hq]

/-- A call that finds no package leaves the registry. -/
theorem not_grown_of_not_found (sha256 : String → String) (call : InstallCall)
    (hfound : ∀ i p, t.found call.packageId ≠ some (i, p)) :
    ¬ Grown call.registry (t.installCapability sha256 call).registry := by
  have hsame : (t.installCapability sha256 call).registry = call.registry := by
    unfold installCapability
    cases hm : t.marketplace with
    | none => rfl
    | some mp =>
      cases hget : mp.getPackage call.packageId with
      | none => simp only [hget]
      | some i =>
        have hobject : mp.objects[i]? = none := by
          cases hp : mp.objects[i]? with
          | none => rfl
          | some p =>
            refine absurd ?_ (hfound i p)
            unfold found
            rw [hm, Option.bind_some, hget, Option.bind_some, hp]
            rfl
        simp only [hget]
        unfold Marketplace.install
        rw [hobject]
  rw [hsame]
  exact not_grown_self _

/-! ## What a call leaves -/

theorem isInstalled_of_object {mp' : Marketplace} (hq : mp'.objects[i]? = some q) :
    ({ t with marketplace := some mp' } : AgentRuntime).isInstalled i = true ↔
      q.status = .installed := by
  unfold isInstalled hasStatus
  simp [hq]

/-- The object stays as `install` leaves it. -/
theorem isInstalled_finishInstall (t : AgentRuntime) (call : InstallCall) (i j : ℕ) (p : Plugin) :
    (t.finishInstall call i p).runtime.isInstalled j = t.isInstalled j := by
  obtain ⟨-, ⟨-, -, hruntime⟩ | ⟨-, hruntime⟩⟩ := finishInstall_cases t call i p
  · rw [hruntime, isInstalled_registerPolicy]
  · rw [hruntime]

/-- **A package is guarded in the end** if it is before, or nothing raises. -/
theorem guarded_finishInstall (t : AgentRuntime) (call : InstallCall) (i : ℕ) (p : Plugin) :
    (t.finishInstall call i p).runtime.Guarded p ↔
      t.Guarded p ∨ ((registerCapabilities p call.registry).1 = .ok () ∧ call.observe = .ok ()) := by
  obtain ⟨-, ⟨hok, hobserve, hruntime⟩ | ⟨hraises, hruntime⟩⟩ := finishInstall_cases t call i p
  · rw [hruntime]
    exact iff_of_true (guarded_registerPolicy t p) (Or.inr ⟨hok, hobserve⟩)
  · rw [hruntime]
    exact (or_iff_left hraises).symm

theorem guarded_congr (hpolicy : q.policy = p.policy) (hid : q.packageId = p.packageId) :
    t.Guarded q ↔ t.Guarded p := by
  unfold Guarded
  rw [hpolicy, hid]

theorem registerCapabilities_congr (h : q.capabilities = p.capabilities)
    (registry : Option CapabilityRegistry) :
    ((registerCapabilities q registry).1 = .ok () ↔ (registerCapabilities p registry).1 = .ok ()) ∧
      (Grown registry (registerCapabilities q registry).2 ↔
        Grown registry (registerCapabilities p registry).2) := by
  rw [registerCapabilities_ok_iff, registerCapabilities_ok_iff, grown_iff, grown_iff, h]
  exact ⟨Iff.rfl, Iff.rfl⟩

theorem secured_iff (sha256 : String → String) (call : InstallCall)
    (hfound : t.found call.packageId = some (i, p)) :
    Secured sha256 t call i p ↔ Covered sha256 t call i p := by
  have hiff : Secured sha256 t call i p ↔
      (Grown call.registry (t.installCapability sha256 call).registry →
        (t.installCapability sha256 call).runtime.isInstalled i = true) ∧
      ((t.installCapability sha256 call).runtime.isInstalled i = true →
        (t.installCapability sha256 call).runtime.Guarded p) :=
    ⟨fun h => ⟨h.registered, h.guarded⟩, fun h => ⟨h.1, h.2⟩⟩
  rw [hiff]
  unfold Covered
  obtain ⟨hfate, hregistry, hruntime, hstatus⟩ |
    ⟨mp, mp', q, hm, hq, hpolicy, hid, hcapabilities, hcall, hcases⟩ :=
      installCapability_cases sha256 call hfound
  · -- nothing has happened
    rw [hfate, hregistry, hruntime, hstatus]
    exact and_iff_right fun hgrown => absurd hgrown (not_grown_self _)
  · obtain ⟨hok, hgrown⟩ := registerCapabilities_congr hcapabilities call.registry
    -- `install` has returned a package with the id, policy and capabilities of the one found
    have hregistry := (finishInstall_cases
      ({ t with marketplace := some mp' } : AgentRuntime) call i q).1
    rw [hcall, isInstalled_finishInstall, isInstalled_of_object hq, hregistry, hgrown, grown_iff,
      ← guarded_congr hpolicy hid, guarded_finishInstall, hok, registerCapabilities_ok_iff,
      guarded_congr hpolicy hid]
    obtain ⟨hfate, hstatus⟩ | ⟨hfate, hstatus, hguard⟩ := hcases
    · rw [hfate, hstatus]
      simp only [reduceCtorEq, false_implies, and_true, imp_false, not_exists, not_and, not_not]
    · rw [hfate, hstatus, guarded_accepted hguard]
      simp only [true_implies, implies_true, true_and, or_assoc]

/-- **A call leaves a package installed and guarded together**, whether it returns or raises, exactly
when the package is covered. -/
theorem secures_iff (sha256 : String → String) (t : AgentRuntime) (call : InstallCall) :
    Secures sha256 t call ↔
      ∀ i p, t.found call.packageId = some (i, p) → Covered sha256 t call i p := by
  unfold Secures
  cases hfound : t.found call.packageId with
  | none =>
    refine iff_of_true (not_grown_of_not_found sha256 call fun i p => ?_) fun i p h => by cases h
    rw [hfound]
    exact Option.some_ne_none _ |>.symm
  | some ip =>
    obtain ⟨i, p⟩ := ip
    show Secured sha256 t call i p ↔ _
    rw [secured_iff sha256 call hfound]
    constructor
    · intro h j q hjq
      obtain ⟨rfl, rfl⟩ := Prod.mk.inj (Option.some.inj hjq)
      exact h
    · intro h
      exact h i p rfl

/-- **A package that is refused** has its capability registered: it depends on a package that is not
there. -/
theorem refused_registers : ¬ Secures id
    { marketplace := some {
        objects := [⟨⟨"pkg", ["pkg.run"]⟩, "pkg", "0.0.0", .marketplace, "pkg", ["base"], none,
          .available, none, 0, none, []⟩],
        available := (∅ : Dict String ℕ).insert "pkg" 0 } }
    { now := 0, packageId := "pkg", registry := some {} } := by
  intro h
  obtain ⟨hregistered, -⟩ := h
  have hgrown := hregistered ⟨{}, rfl, ⟨[⟨"pkg.run", "installed from pkg 0.0.0", []⟩]⟩, by decide,
    ⟨"pkg.run", "installed from pkg 0.0.0", []⟩, by decide, by decide⟩
  revert hgrown
  decide

end AgentRuntime

end Hermes

import Mathlib.Data.String.Basic
import Hermes.Lib.History
import Hermes.Lib.Turns
import Hermes.Proof.SwarmSteps

/-!
# Delegation in turns

Members with equal loads are told apart by whether they were chosen last, and then by
their ids.

* `delegateTask_chooses`: whom a delegation chooses, and what it leaves alone.
* `nextTurn_of_keyLe`: with equal loads the choice is that of `Lib.Turns`.
* `round_robin_iff`: as many delegations as there are eligible members reach each of
  them exactly when there are at most two.
-/

namespace Hermes

open History Turns

namespace Coordinator

variable {c : Coordinator} {s : Swarm} {i fromAgent : String} {capability : Option String}

/-! ## The order of the candidates -/

/-- The keys are in lexicographic order. -/
theorem keyLe_iff (x y : ℚ × Bool × String) :
    keyLe x y ↔ toLex (x.1, toLex x.2) ≤ toLex (y.1, toLex y.2) := by
  rw [Prod.Lex.toLex_le_toLex, Prod.Lex.toLex_le_toLex, Bool.lt_iff]
  rfl

instance : Std.Total keyLe where
  total x y := by
    rw [keyLe_iff, keyLe_iff]
    exact le_total _ _

instance : IsTrans (ℚ × Bool × String) keyLe where
  trans x y z := by
    rw [keyLe_iff, keyLe_iff, keyLe_iff]
    exact le_trans

/-- The load of an agent. -/
def loadOf (c : Coordinator) (agentId : String) : ℚ := (c.load.get? agentId).getD 0

/-- With equal loads a least key is the key of the next in turn. -/
theorem nextTurn_of_keyLe {ms : List SwarmMember} {m : SwarmMember} (hm : m ∈ ms)
    (hload : ∀ a ∈ ms, ∀ b ∈ ms, c.loadOf a.agentId = c.loadOf b.agentId)
    (hleast : ∀ a ∈ ms, keyLe (c.sortKey i m) (c.sortKey i a)) :
    NextTurn (ms.map (·.agentId)) (c.rr.get? i) m.agentId := by
  refine ⟨List.mem_map_of_mem hm, ?_⟩
  intro b hb hne
  obtain ⟨a, ha, rfl⟩ := List.mem_map.1 hb
  have hequal : (c.sortKey i m).1 = (c.sortKey i a).1 := hload m hm a ha
  rcases hleast a ha with hlt | ⟨-, hlast | ⟨hsame, hle⟩⟩
  · exact absurd hequal hlt.ne
  · exact .inl (of_decide_eq_true hlast.2)
  · right
    refine ⟨fun hm' => hne ?_, hle⟩
    have hlast : c.rr.get? i = some a.agentId := by
      have hboth : decide (c.rr.get? i = some m.agentId) = decide (c.rr.get? i = some a.agentId) := hsame
      exact of_decide_eq_true (hboth ▸ decide_eq_true hm')
    rw [hm'] at hlast
    exact (Option.some.inj hlast).symm

/-! ## Delegations -/

/-- **Whom a delegation chooses**, and what it leaves as it is. -/
theorem delegateTask_chooses (hs : c.getSwarm i = some s) {task : Task} (delegationId : String)
    (hne : eligible s task.capability fromAgent ≠ []) :
    ∃ m ∈ eligible s task.capability fromAgent,
      (∀ a ∈ eligible s task.capability fromAgent, keyLe (c.sortKey i m) (c.sortKey i a)) ∧
      ∃ d task' c', c.delegateTask i task fromAgent delegationId = (.ok (d, task'), c') ∧
        d.toAgent = m.agentId ∧ c'.getSwarm i = some s ∧ c'.load = c.load ∧
        c'.rr.get? i = some m.agentId := by
  have htotal : Std.Total fun a b : SwarmMember => keyLe (c.sortKey i a) (c.sortKey i b) :=
    ⟨fun _ _ => Std.Total.total _ _⟩
  have htrans : IsTrans SwarmMember fun a b => keyLe (c.sortKey i a) (c.sortKey i b) :=
    ⟨fun _ _ _ hab hbc => IsTrans.trans _ _ _ hab hbc⟩
  have hperm := List.perm_insertionSort (fun a b : SwarmMember => keyLe (c.sortKey i a) (c.sortKey i b))
    (eligible s task.capability fromAgent)
  have hsorted := List.pairwise_insertionSort
    (fun a b : SwarmMember => keyLe (c.sortKey i a) (c.sortKey i b))
    (eligible s task.capability fromAgent)
  unfold delegateTask
  rw [hs]
  simp only
  cases hsort : (eligible s task.capability fromAgent).insertionSort
      fun a b => keyLe (c.sortKey i a) (c.sortKey i b) with
  | nil =>
    rw [hsort] at hperm
    exact absurd hperm.symm.eq_nil hne
  | cons m ms =>
    rw [hsort] at hperm hsorted
    refine ⟨m, hperm.subset List.mem_cons_self, fun a ha => ?_, _, _, _, rfl, rfl, hs, rfl, ?_⟩
    · rcases List.mem_cons.1 (hperm.symm.subset ha) with rfl | hrest
      · exact (Std.Total.total (r := keyLe) _ _).elim id id
      · exact List.rel_of_pairwise_cons hsorted hrest
    · exact Dict.get?_insert_self _ _ _

/-- Whom an operation chooses for a task of a swarm. -/
def chosen (i : String) (c : Coordinator) : SwarmOp → List String
  | .delegate i' task fromAgent delegationId =>
    if i' = i then match (c.delegateTask i' task fromAgent delegationId).1 with
      | .ok (d, _) => [d.toAgent]
      | .error _ => []
    else []
  | _ => []

/-- Whom operations one after the other choose. -/
def picks (i : String) : List SwarmOp → Coordinator → List String
  | [], _ => []
  | op :: ops, c => c.chosen i op ++ picks i ops (c.apply op)

/-- The members eligible for a task of a swarm are these, and their loads are equal. -/
def Even (i : String) (capability : Option String) (fromAgent : String) (ms : List SwarmMember)
    (c : Coordinator) : Prop :=
  ∃ s ∈ c.getSwarm i, eligible s capability fromAgent = ms ∧
    ∀ a ∈ ms, ∀ b ∈ ms, c.loadOf a.agentId = c.loadOf b.agentId

instance (i : String) (capability : Option String) (fromAgent : String) (ms : List SwarmMember) :
    DecidablePred (Even i capability fromAgent ms) := fun c =>
  inferInstanceAs (Decidable (∃ s ∈ c.getSwarm i, eligible s capability fromAgent = ms ∧
    ∀ a ∈ ms, ∀ b ∈ ms, c.loadOf a.agentId = c.loadOf b.agentId))

end Coordinator

/-- A delegation in a swarm. -/
def SwarmOp.delegatesIn (i : String) : SwarmOp → Bool
  | .delegate i' _ _ _ => i' = i
  | _ => false

/-- A delegation in a swarm is for this capability and from this agent. -/
def SwarmOp.Asks (i : String) (capability : Option String) (fromAgent : String) : SwarmOp → Prop
  | .delegate i' task fromAgent' _ => i' = i → task.capability = capability ∧ fromAgent' = fromAgent
  | _ => True

namespace Coordinator

/-! ### The last choice -/

/-- An operation that does not delegate in a swarm leaves its last choice. -/
theorem rr_apply {op : SwarmOp} (hop : op.delegatesIn i = false) (c : Coordinator) :
    (c.apply op).rr.get? i = c.rr.get? i := by
  have hsame : ∀ {c' : Coordinator}, Steady c c' → c'.rr.get? i = c.rr.get? i :=
    fun h => congrArg (fun rr => Dict.get? rr i) h.rr
  cases op with
  | create i' topology => exact hsame (steady_createSwarm c i' topology)
  | join i' agentId nodeId role capabilities now =>
    have hjoin := (steady_joinSwarm c i' agentId nodeId role capabilities now).rr
    have hrr := hjoin.trans (steady_ensureSwarm c i').rr
    rw [apply, hrr]
  | leave i' agentId reason => exact hsame (steady_leaveSwarm c i' agentId reason)
  | heartbeat nodeId agentId loadScore now => rfl
  | check now =>
    have hrr : (c.checkPartitions now).2.rr = c.rr :=
      checkPartitions_keeps (I := fun c' => c'.rr = c.rr)
        (fun i a c' h => (steady_checkMember c' now i a).rr.trans h) rfl
    rw [apply, hrr]
  | delegate i' task fromAgent delegationId =>
    obtain ⟨rr, hsteady, hother⟩ := steady_delegateTask c i' task fromAgent delegationId
    rw [apply, hsteady.rr]
    exact hother i fun h => of_decide_eq_false hop h.symm
  | complete delegationId resultSummary =>
    exact hsame (steady_completeDelegation c delegationId resultSummary)

/-! ### Delegations in sequence -/

variable {ms : List SwarmMember}

theorem chosen_of_other {op : SwarmOp} (hop : op.delegatesIn i = false) (c : Coordinator) :
    c.chosen i op = [] := by
  cases op with
  | delegate i' task fromAgent delegationId => exact if_neg (of_decide_eq_false hop)
  | _ => rfl

/-- **Delegations take turns** among the eligible members. -/
theorem picks_turns (hne : ms ≠ []) {ops : List SwarmOp}
    (hasks : ∀ op ∈ ops, op.Asks i capability fromAgent) :
    ∀ c : Coordinator, Throughout apply (Even i capability fromAgent ms) c ops →
      TakeTurns (ms.map (·.agentId)) (c.rr.get? i) (c.picks i ops) ∧
        (c.picks i ops).length = (ops.filter (·.delegatesIn i)).length := by
  -- by induction on the operations, with the last choice of the state before them
  induction ops with
  | nil => intro c _; exact ⟨trivial, rfl⟩
  | cons op ops ih =>
    intro c heven
    obtain ⟨⟨s, hs, helig, hload⟩, heven⟩ := heven
    obtain ⟨hturns, hlen⟩ := ih (fun op hop => hasks op (List.mem_cons_of_mem _ hop)) _ heven
    unfold picks
    cases hop : op.delegatesIn i with
    | false =>
      rw [chosen_of_other hop, List.nil_append, List.filter_cons_of_neg (by rw [hop]; decide)]
      rw [rr_apply hop] at hturns
      exact ⟨hturns, hlen⟩
    | true =>
      cases op with
      | delegate i' task fromAgent' delegationId =>
        obtain rfl : i' = i := of_decide_eq_true hop
        obtain ⟨rfl, rfl⟩ := hasks _ List.mem_cons_self rfl
        subst helig
        obtain ⟨m, hm, hleast, d, task', c', hcall, hto, -, -, hlast⟩ :=
          delegateTask_chooses hs delegationId hne
        have hchosen : c.chosen i' (.delegate i' task fromAgent' delegationId) = [m.agentId] := by
          rw [chosen, if_pos rfl, hcall]
          exact congrArg (fun a => [a]) hto
        have hafter : c.apply (.delegate i' task fromAgent' delegationId) = c' := by
          rw [apply, hcall]
        rw [hafter, hlast] at hturns
        rw [hchosen, hafter, List.filter_cons_of_pos hop]
        rw [hafter] at hlen
        exact ⟨⟨nextTurn_of_keyLe hm hload hleast, hturns⟩, congrArg Nat.succ hlen⟩
      | _ => cases hop

end Coordinator

/-- **As many delegations as there are eligible members**, while these stay the same with equal
loads, choose each of them exactly once if and only if there are at most two. -/
theorem round_robin_iff (i : String) (capability : Option String) (fromAgent : String)
    {ms : List SwarmMember} (hne : ms ≠ []) {c : Coordinator} {ops : List SwarmOp}
    (hasks : ∀ op ∈ ops, op.Asks i capability fromAgent)
    (heven : Throughout Coordinator.apply (Coordinator.Even i capability fromAgent ms) c ops)
    (hlen : (ops.filter (·.delegatesIn i)).length = ms.length) :
    (c.picks i ops).Perm (ms.map (·.agentId)) ↔ ms.length ≤ 2 := by
  obtain ⟨hturns, hpicks⟩ := Coordinator.picks_turns hne hasks c heven
  obtain ⟨s, -, rfl, -⟩ : Coordinator.Even i capability fromAgent ms c := by
    cases ops with
    | nil => exact heven
    | cons op ops => exact heven.1
  have hnodup : ((Coordinator.eligible s capability fromAgent).map (·.agentId)).Nodup :=
    s.members.nodup_keys.sublist (List.filter_sublist.map _)
  have hround := turns_perm_iff hnodup hturns (by rw [hpicks, hlen, List.length_map])
  rwa [List.length_map] at hround

/-- A worker of a swarm on a node of its own. -/
def worker (agentId : String) : SwarmMember :=
  { agentId, nodeId := "node-" ++ agentId, capabilities := ["x"] }

/-- A coordinator with one swarm of workers. -/
def workers (ids : List String) : Coordinator :=
  ids.foldl (fun c a => c.apply (.join "s" a ("node-" ++ a) "worker" ["x"] 0)) {}

/-- A request for what the workers can do. -/
def request (n : ℕ) : SwarmOp :=
  .delegate "s" { id := "t" ++ toString n, capability := some "x" } "mgr" ("d" ++ toString n)

theorem round_robin_two :
    ((workers ["a", "b"]).picks "s" [request 1, .check 1, request 2]).Perm
      ([worker "a", worker "b"].map (·.agentId)) := by
  have hasks : ∀ op ∈ [request 1, .check 1, request 2], op.Asks "s" (some "x") "mgr" := by
    simp [request, SwarmOp.Asks]
  exact (round_robin_iff "s" (some "x") "mgr" (by simp) hasks (by decide +kernel) (by decide +kernel)).2
    le_rfl

/-- The third of three workers gets nothing. -/
theorem third_left_out :
    Throughout Coordinator.apply
        (Coordinator.Even "s" (some "x") "mgr" [worker "a", worker "b", worker "c"])
        (workers ["a", "b", "c"]) [request 1, request 2, request 3] ∧
      (workers ["a", "b", "c"]).picks "s" [request 1, request 2, request 3] = ["a", "b", "a"] ∧
      ¬((workers ["a", "b", "c"]).picks "s" [request 1, request 2, request 3]).Perm
        ([worker "a", worker "b", worker "c"].map (·.agentId)) := by
  decide +kernel

end Hermes

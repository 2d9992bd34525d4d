import Hermes.Lib.Index
import Hermes.Lib.Loops
import Hermes.Spec.Base

/-!
# Swarms (`kernel/domain.py`, `kernel/swarm.py`, `kernel/swarm_store.py`)

Operations of a `SwarmCoordinator` one after the other. A swarm is a mutable object
that the store and its callers share: here it is a value with the address of the
object. Left out: wall-clock stamps, `track_node` and its table, SQLite.
-/

namespace Hermes

/-! ## Domain -/

inductive SwarmTopology where
  | leaderWorker | mesh
  deriving DecidableEq, Repr

inductive Health where
  | healthy | suspected | unhealthy
  deriving DecidableEq, Repr

structure SwarmMember where
  agentId : String
  nodeId : String
  role : String := "worker"
  health : Health := .healthy
  capabilities : List String := []
  deriving DecidableEq, Repr

structure Swarm where
  /-- Which of the swarm objects made so far this is. -/
  address : ℕ
  swarmId : String
  topology : SwarmTopology := .leaderWorker
  members : Index SwarmMember.agentId := ∅
  leaderId : Option String := none

structure Task where
  id : String
  capability : Option String := none
  assignedTo : Option String := none
  deriving DecidableEq, Repr

structure TaskDelegation where
  delegationId : String
  taskId : String
  fromAgent : String
  toAgent : String
  swarmId : String
  status : String := "pending"
  deriving DecidableEq, Repr

inductive SwarmEvent where
  | joined (swarmId agentId nodeId role : String) (capabilities : List String)
  | left (swarmId agentId reason : String)
  | leaderElected (swarmId : String) (leader previous : Option String) (algorithm : String)
  | heartbeatReceived (nodeId agentId : String) (time loadScore : ℚ)
  | heartbeatMissed (nodeId agentId : String) (missed : ℤ) (health : Health)
  | nodePartitioned (nodeId reason : String) (affected : List String)
  | taskDelegated (delegationId taskId fromAgent toAgent swarmId : String)
  | taskCompleted (delegationId taskId resultSummary : String)
  deriving DecidableEq, Repr

/-- A `SwarmStore`. -/
structure SwarmStore where
  mem : Index Swarm.swarmId := ∅
  delegations : Index TaskDelegation.delegationId := ∅

structure Coordinator where
  store : SwarmStore := {}
  suspicionMs : ℤ := 3000
  failureMs : ℤ := 10000
  /-- The agent that was chosen last, by swarm. -/
  rr : Dict String String := ∅
  delegations : Index TaskDelegation.delegationId := ∅
  load : Dict String ℚ := ∅
  /-- The last heartbeat, in seconds, by agent. -/
  lastBeat : Dict String ℚ := ∅
  events : List SwarmEvent := []
  /-- How many swarm objects were made. -/
  made : ℕ := 0

namespace Coordinator

variable (c : Coordinator)

/-- `self._store.get(swarm_id)`. -/
def getSwarm (swarmId : String) : Option Swarm := c.store.mem.get? swarmId

/-- `self._store.list()`. -/
def listSwarms : List Swarm := c.store.mem.values

/-- `_persist_swarm`. -/
def persistSwarm (s : Swarm) : Coordinator :=
  { c with store := { c.store with mem := c.store.mem.put s } }

/-- `SwarmStore.delete`. -/
def deleteSwarm (swarmId : String) : Coordinator :=
  { c with store := { c.store with mem := c.store.mem.erase swarmId } }

/-- `_publish`. -/
def publish (e : SwarmEvent) : Coordinator := { c with events := c.events ++ [e] }

/-! ## Membership and leadership -/

/-- `swarm_id == swarm`: a text is not equal to a pydantic model. -/
def textIsSwarm (_ : String) (_ : Swarm) : Bool := false

/-- `create_swarm`. -/
def createSwarm (swarmId : String) (topology : SwarmTopology) : Swarm × Coordinator :=
  let existing := if c.listSwarms.any (textIsSwarm swarmId) then c.getSwarm swarmId else none
  match existing with
  | some s => (s, c)
  | none =>
    let s : Swarm := { address := c.made, swarmId, topology }
    (s, { c with made := c.made + 1 }.persistSwarm s)

/-- The candidates of an election: the healthy members. -/
def candidates (s : Swarm) : List SwarmMember := s.members.values.filter (·.health = .healthy)

/-- The last candidate by `agent_id`. -/
def bully (s : Swarm) : Option String :=
  (((candidates s).insertionSort fun a b => a.agentId ≤ b.agentId).getLast?).map (·.agentId)

/-- `_run_election`. -/
def runElection (swarmId : String) : Option String × Coordinator :=
  match c.getSwarm swarmId with
  | none => (none, c)
  | some s =>
    let previous := s.leaderId
    let newLeader := bully s
    if newLeader ≠ previous then
      let c := c.persistSwarm { s with leaderId := newLeader }
      (newLeader, c.publish (.leaderElected swarmId newLeader previous "bully"))
    else (newLeader, c.persistSwarm s)

/-- The swarm that an agent joins: it is created if there is none. -/
def ensureSwarm (swarmId : String) : Swarm × Coordinator :=
  match c.getSwarm swarmId with
  | some s => (s, c)
  | none => c.createSwarm swarmId .leaderWorker

/-- `join_swarm`. -/
def joinSwarm (swarmId agentId nodeId role : String) (capabilities : List String) (now : ℚ) :
    SwarmMember × Coordinator :=
  let (s, c) := c.ensureSwarm swarmId
  let member : SwarmMember := { agentId, nodeId, role, health := .healthy, capabilities }
  let s := { s with members := s.members.put member }
  let c := { c with lastBeat := c.lastBeat.insert agentId now }.persistSwarm s
  let c := c.publish (.joined swarmId agentId nodeId role member.capabilities)
  if s.topology = .leaderWorker ∧ s.leaderId = none then (member, (c.runElection swarmId).2)
  else (member, c)

/-- `leave_swarm`. -/
def leaveSwarm (swarmId agentId reason : String) : Coordinator :=
  match c.getSwarm swarmId with
  | none => c
  | some s =>
    if agentId ∈ s.members.keys then
      let wasLeader := s.leaderId = some agentId
      let s := { s with members := s.members.erase agentId }
      let c := c.publish (.left swarmId agentId reason)
      if wasLeader then ((c.persistSwarm { s with leaderId := none }).runElection swarmId).2
      else c.persistSwarm s
    else c

/-! ## Heartbeats and health -/

/-- What `handle_heartbeat` does to a swarm: a member of that agent on that node is healthy. -/
def beat (nodeId agentId : String) (s : Swarm) : Swarm :=
  match s.members.get? agentId with
  | some m => if m.nodeId = nodeId then { s with members := s.members.put { m with health := .healthy } }
    else s
  | none => s

theorem swarmId_beat (nodeId agentId : String) (s : Swarm) :
    (beat nodeId agentId s).swarmId = s.swarmId := by
  unfold beat
  split
  · split
    · rfl
    · rfl
  · rfl

/-- `handle_heartbeat`. -/
def handleHeartbeat (nodeId agentId : String) (loadScore now : ℚ) : Coordinator :=
  let mem := c.store.mem.map (beat nodeId agentId) (swarmId_beat nodeId agentId)
  let c := { c with
    store := { c.store with mem }
    load := c.load.insert agentId loadScore
    lastBeat := c.lastBeat.insert agentId now }
  c.publish (.heartbeatReceived nodeId agentId now loadScore)

/-- The time since an agent was last heard of, in milliseconds. -/
def age (now : ℚ) (agentId : String) : ℚ := now * 1000 - (c.lastBeat.get? agentId).getD 0 * 1000

/-- `m.health = health` for a member of a swarm in the store. -/
def setHealth (s : Swarm) (m : SwarmMember) (health : Health) : Swarm :=
  { s with members := s.members.put { m with health } }

/-- What `check_partitions` does with one member. -/
def checkMember (now : ℚ) (swarmId agentId : String) (c : Coordinator) :
    Except Exc (List String) × Coordinator :=
  match c.getSwarm swarmId with
  | none => (.ok [], c)
  | some s => match s.members.get? agentId with
    | none => (.ok [], c)
    | some m =>
      let age := c.age now agentId
      if (c.failureMs : ℚ) ≤ age ∧ m.health ≠ .unhealthy then
        let s := setHealth s m .unhealthy
        let affected := (s.members.values.filter (·.nodeId = m.nodeId)).map (·.agentId)
        let c := c.publish (.nodePartitioned m.nodeId "failure_timeout" affected)
        if s.leaderId = some agentId then
          (.ok [agentId], ((c.persistSwarm { s with leaderId := none }).runElection swarmId).2)
        else (.ok [agentId], c.persistSwarm s)
      else if (c.suspicionMs : ℚ) ≤ age ∧ m.health = .healthy then
        let c := c.persistSwarm (setHealth s m .suspected)
        if c.suspicionMs = 0 then (.error ⟨.other, "float floor division by zero"⟩, c)
        else
          let missed := (age / c.suspicionMs).floor
          (.ok [], c.publish (.heartbeatMissed m.nodeId agentId missed .suspected))
      else (.ok [], c)

/-- `check_partitions`. -/
def checkPartitions (now : ℚ) : Except Exc (List String) × Coordinator :=
  Loops.forEach (fun s c => Loops.forEach (checkMember now s.swarmId) s.members.keys c) c.listSwarms c

/-! ## Delegation -/

/-- `repr` of an optional text. -/
def reprText : Option String → String
  | none => "None"
  | some s => pyRepr s

/-- The members that may get a task. -/
def eligible (s : Swarm) (capability : Option String) (fromAgent : String) : List SwarmMember :=
  s.members.values.filter fun m => m.agentId ≠ fromAgent ∧ m.health ≠ .unhealthy ∧
    (capability.elim true fun cap => cap ∈ m.capabilities)

/-- The sort key of a member: its load, whether it was chosen last, its id. -/
def sortKey (swarmId : String) (m : SwarmMember) : ℚ × Bool × String :=
  ((c.load.get? m.agentId).getD 0, c.rr.get? swarmId = some m.agentId, m.agentId)

/-- `≤` of Python tuples. -/
def keyLe (x y : ℚ × Bool × String) : Prop :=
  x.1 < y.1 ∨ (x.1 = y.1 ∧ ((x.2.1 = false ∧ y.2.1 = true) ∨ (x.2.1 = y.2.1 ∧ x.2.2 ≤ y.2.2)))

instance : DecidableRel keyLe := fun x y =>
  inferInstanceAs (Decidable (x.1 < y.1 ∨ (x.1 = y.1 ∧
    ((x.2.1 = false ∧ y.2.1 = true) ∨ (x.2.1 = y.2.1 ∧ x.2.2 ≤ y.2.2)))))

/-- `delegate_task`, with the id that it makes up for the delegation. -/
def delegateTask (swarmId : String) (task : Task) (fromAgent delegationId : String) :
    Except Exc (TaskDelegation × Task) × Coordinator :=
  match c.getSwarm swarmId with
  | none => (.error ⟨.keyError, "swarm '" ++ swarmId ++ "' not found"⟩, c)
  | some s =>
    let members := (eligible s task.capability fromAgent).insertionSort fun a b =>
      keyLe (c.sortKey swarmId a) (c.sortKey swarmId b)
    match members.head? with
    | none => (.error ⟨.valueError, "no eligible member for capability " ++
        reprText task.capability ++ " in swarm " ++ swarmId⟩, c)
    | some chosen =>
      let d : TaskDelegation :=
        { delegationId, taskId := task.id, fromAgent, toAgent := chosen.agentId, swarmId }
      let c := { c with
        rr := c.rr.insert swarmId chosen.agentId
        delegations := c.delegations.put d
        store := { c.store with delegations := c.store.delegations.put d } }
      (.ok (d, { task with assignedTo := some chosen.agentId }),
        c.publish (.taskDelegated delegationId task.id fromAgent chosen.agentId swarmId))

/-- `complete_delegation`. -/
def completeDelegation (delegationId resultSummary : String) :
    Except Exc TaskDelegation × Coordinator :=
  match c.delegations.get? delegationId with
  | none => (.error ⟨.keyError, "delegation " ++ pyRepr delegationId ++ " not found"⟩, c)
  | some d =>
    let d := { d with status := "completed" }
    let c := { c with
      delegations := c.delegations.put d
      store := { c.store with delegations := c.store.delegations.put d } }
    (.ok d, c.publish (.taskCompleted delegationId d.taskId resultSummary))

end Coordinator

/-! ## Operations in sequence -/

/-- An operation of the coordinator, with the reading of its clock where it reads it. -/
inductive SwarmOp where
  | create (swarmId : String) (topology : SwarmTopology)
  | join (swarmId agentId nodeId role : String) (capabilities : List String) (now : ℚ)
  | leave (swarmId agentId reason : String)
  | heartbeat (nodeId agentId : String) (loadScore now : ℚ)
  | check (now : ℚ)
  | delegate (swarmId : String) (task : Task) (fromAgent delegationId : String)
  | complete (delegationId resultSummary : String)

def Coordinator.apply (c : Coordinator) : SwarmOp → Coordinator
  | .create swarmId topology => (c.createSwarm swarmId topology).2
  | .join swarmId agentId nodeId role capabilities now =>
    (c.joinSwarm swarmId agentId nodeId role capabilities now).2
  | .leave swarmId agentId reason => c.leaveSwarm swarmId agentId reason
  | .heartbeat nodeId agentId loadScore now => c.handleHeartbeat nodeId agentId loadScore now
  | .check now => (c.checkPartitions now).2
  | .delegate swarmId task fromAgent delegationId =>
    (c.delegateTask swarmId task fromAgent delegationId).2
  | .complete delegationId resultSummary => (c.completeDelegation delegationId resultSummary).2

end Hermes

import Hermes.Lib.WriteThrough
import Hermes.Spec.Team

/-!
# Swarms in a database (`kernel/swarm.py`, `kernel/swarm_store.py`)

A `SwarmCoordinator` with a `SwarmStore` on SQLite. A swarm that an operation changes in place has
changed in memory (`mutate`); its row changes when the store is told to `put` it (`persistSwarm`).
The JSON text of a model is any type. Left out as before: wall-clock stamps.
-/

namespace Hermes

/-- What a swarm is as JSON. -/
structure SwarmData where
  swarmId : String
  topology : SwarmTopology
  members : Index SwarmMember.agentId
  leaderId : Option String

def Swarm.data (s : Swarm) : SwarmData where
  swarmId := s.swarmId
  topology := s.topology
  members := s.members
  leaderId := s.leaderId

/-- The object that is made of it. -/
def SwarmData.object (x : SwarmData) (address : ℕ) : Swarm where
  address := address
  swarmId := x.swarmId
  topology := x.topology
  members := x.members
  leaderId := x.leaderId

/-- `model_dump_json` and `model_validate_json`. -/
structure SwarmCodec (δ : Type) where
  dumpSwarm : SwarmData → δ
  parseSwarm : δ → Except Exc SwarmData
  dumpDelegation : TaskDelegation → δ
  parseDelegation : δ → Except Exc TaskDelegation

/-- Models round-trip. -/
structure SwarmCodec.RoundTrips {δ : Type} (C : SwarmCodec δ) : Prop where
  swarm : ∀ x, C.parseSwarm (C.dumpSwarm x) = .ok x
  delegation : ∀ x, C.parseDelegation (C.dumpDelegation x) = .ok x

/-- A coordinator, and the tables `swarms` and `delegations` of its store. -/
structure SwarmDb (δ : Type) where
  coord : Coordinator := {}
  swarms : Dict String δ := ∅
  /-- With the column `swarm_id`. -/
  delegations : Dict String (String × δ) := ∅

namespace SwarmDb

open Coordinator

variable {δ : Type} (C : SwarmCodec δ) (d : SwarmDb δ)

/-! ## The store -/

/-- A swarm of the store is changed in place. -/
def mutate (s : Swarm) : SwarmDb δ := { d with coord := d.coord.persistSwarm s }

/-- `put`. -/
def persistSwarm (s : Swarm) : SwarmDb δ where
  coord := d.coord.persistSwarm s
  swarms := d.swarms.replace s.swarmId (C.dumpSwarm s.data)
  delegations := d.delegations

/-- `put_delegation`. -/
def putDelegation (x : TaskDelegation) : SwarmDb δ where
  coord :=
    let store := d.coord.store
    { d.coord with store := { store with delegations := store.delegations.put x } }
  swarms := d.swarms
  delegations := d.delegations.replace x.delegationId (x.swarmId, C.dumpDelegation x)

/-- What an operation changes outside the store. -/
def update (f : Coordinator → Coordinator) : SwarmDb δ := { d with coord := f d.coord }

/-- `_publish`. -/
def publish (e : SwarmEvent) : SwarmDb δ := d.update fun c => c.publish e

/-- The swarms that `_load_all` reads. -/
def loadSwarms : Except Exc (Dict String SwarmData) :=
  WriteThrough.load (fun swarmId _ => swarmId) C.parseSwarm d.swarms.entries

/-- The delegations that `_load_all` reads. -/
def loadDelegations : Except Exc (Dict String TaskDelegation) :=
  WriteThrough.load (fun _ x => x.delegationId) (fun row => C.parseDelegation row.2)
    d.delegations.entries

/-! ## Membership and leadership -/

/-- `create_swarm`. -/
def createSwarm (swarmId : String) (topology : SwarmTopology) : Swarm × SwarmDb δ :=
  let existing :=
    if d.coord.listSwarms.any (textIsSwarm swarmId) then d.coord.getSwarm swarmId else none
  match existing with
  | some s => (s, d)
  | none =>
    let s : Swarm := { address := d.coord.made, swarmId, topology }
    (s, (d.update fun c => { c with made := c.made + 1 }).persistSwarm C s)

/-- `_run_election`. -/
def runElection (swarmId : String) : Option String × SwarmDb δ :=
  match d.coord.getSwarm swarmId with
  | none => (none, d)
  | some s =>
    let previous := s.leaderId
    let newLeader := bully s
    if newLeader ≠ previous then
      let d := d.persistSwarm C { s with leaderId := newLeader }
      (newLeader, d.publish (.leaderElected swarmId newLeader previous "bully"))
    else (newLeader, d.persistSwarm C s)

/-- The swarm that an agent joins: it is created if there is none. -/
def ensureSwarm (swarmId : String) : Swarm × SwarmDb δ :=
  match d.coord.getSwarm swarmId with
  | some s => (s, d)
  | none => d.createSwarm C swarmId .leaderWorker

/-- `join_swarm`. -/
def joinSwarm (swarmId agentId nodeId role : String) (capabilities : List String) (now : ℚ) :
    SwarmMember × SwarmDb δ :=
  let (s, d) := d.ensureSwarm C swarmId
  let member : SwarmMember := { agentId, nodeId, role, health := .healthy, capabilities }
  let s := { s with members := s.members.put member }
  let d := (d.mutate s).update fun c => { c with lastBeat := c.lastBeat.insert agentId now }
  let d := d.persistSwarm C s
  let d := d.publish (.joined swarmId agentId nodeId role member.capabilities)
  if s.topology = .leaderWorker ∧ s.leaderId = none then (member, (d.runElection C swarmId).2)
  else (member, d)

/-- `leave_swarm`. -/
def leaveSwarm (swarmId agentId reason : String) : SwarmDb δ :=
  match d.coord.getSwarm swarmId with
  | none => d
  | some s =>
    if agentId ∈ s.members.keys then
      let wasLeader := s.leaderId = some agentId
      let s := { s with members := s.members.erase agentId }
      let d := (d.mutate s).publish (.left swarmId agentId reason)
      if wasLeader then ((d.mutate { s with leaderId := none }).runElection C swarmId).2
      else d.persistSwarm C s
    else d

/-! ## Heartbeats and health -/

/-- What `handle_heartbeat` does with a swarm. -/
def beatSwarm (nodeId agentId : String) (d : SwarmDb δ) (s : Swarm) : SwarmDb δ :=
  match s.members.get? agentId with
  | some m =>
    if m.nodeId = nodeId then
      d.persistSwarm C { s with members := s.members.put { m with health := .healthy } }
    else d
  | none => d

/-- `handle_heartbeat`. -/
def handleHeartbeat (nodeId agentId : String) (loadScore now : ℚ) : SwarmDb δ :=
  let d := d.coord.listSwarms.foldl (beatSwarm C nodeId agentId) d
  let d := d.update fun c => { c with
    load := c.load.insert agentId loadScore
    lastBeat := c.lastBeat.insert agentId now }
  d.publish (.heartbeatReceived nodeId agentId now loadScore)

/-- What `check_partitions` does with one member. -/
def checkMember (now : ℚ) (swarmId agentId : String) (d : SwarmDb δ) :
    Except Exc (List String) × SwarmDb δ :=
  match d.coord.getSwarm swarmId with
  | none => (.ok [], d)
  | some s => match s.members.get? agentId with
    | none => (.ok [], d)
    | some m =>
      let age := d.coord.age now agentId
      if (d.coord.failureMs : ℚ) ≤ age ∧ m.health ≠ .unhealthy then
        let s := setHealth s m .unhealthy
        let affected := (s.members.values.filter (·.nodeId = m.nodeId)).map (·.agentId)
        let d := (d.mutate s).publish (.nodePartitioned m.nodeId "failure_timeout" affected)
        if s.leaderId = some agentId then
          (.ok [agentId], ((d.mutate { s with leaderId := none }).runElection C swarmId).2)
        else (.ok [agentId], d.persistSwarm C s)
      else if (d.coord.suspicionMs : ℚ) ≤ age ∧ m.health = .healthy then
        let s := setHealth s m .suspected
        let d := d.mutate s
        if d.coord.suspicionMs = 0 then (.error ⟨.other, "float floor division by zero"⟩, d)
        else
          let missed := (age / d.coord.suspicionMs).floor
          let d := d.publish (.heartbeatMissed m.nodeId agentId missed .suspected)
          (.ok [], d.persistSwarm C s)
      else (.ok [], d)

/-- `check_partitions`. -/
def checkPartitions (now : ℚ) : Except Exc (List String) × SwarmDb δ :=
  Loops.forEach (fun s d => Loops.forEach (checkMember C now s.swarmId) s.members.keys d)
    d.coord.listSwarms d

/-! ## Delegation and roles -/

/-- `delegate_task`, with the id that it makes up for the delegation. -/
def delegateTask (swarmId : String) (task : Task) (fromAgent delegationId : String) :
    Except Exc (TaskDelegation × Task) × SwarmDb δ :=
  match d.coord.getSwarm swarmId with
  | none => (.error ⟨.keyError, "swarm '" ++ swarmId ++ "' not found"⟩, d)
  | some s =>
    let members := (eligible s task.capability fromAgent).insertionSort fun a b =>
      keyLe (d.coord.sortKey swarmId a) (d.coord.sortKey swarmId b)
    match members.head? with
    | none => (.error ⟨.valueError, "no eligible member for capability " ++
        reprText task.capability ++ " in swarm " ++ swarmId⟩, d)
    | some chosen =>
      let x : TaskDelegation :=
        { delegationId, taskId := task.id, fromAgent, toAgent := chosen.agentId, swarmId }
      let d := d.update fun c => { c with
        rr := c.rr.insert swarmId chosen.agentId
        delegations := c.delegations.put x }
      let d := d.putDelegation C x
      (.ok (x, { task with assignedTo := some chosen.agentId }),
        d.publish (.taskDelegated delegationId task.id fromAgent chosen.agentId swarmId))

/-- `complete_delegation`. The object is that of the store as well. -/
def completeDelegation (delegationId resultSummary : String) :
    Except Exc TaskDelegation × SwarmDb δ :=
  match d.coord.delegations.get? delegationId with
  | none => (.error ⟨.keyError, "delegation " ++ pyRepr delegationId ++ " not found"⟩, d)
  | some x =>
    let x := { x with status := "completed" }
    let d := (d.update fun c => { c with delegations := c.delegations.put x }).putDelegation C x
    (.ok x, d.publish (.taskCompleted delegationId x.taskId resultSummary))

/-- `TeamManager.assign_role`. -/
def assignRole (swarmId agentId role : String) : Except Exc Unit × SwarmDb δ :=
  let notIn : Except Exc Unit × SwarmDb δ :=
    (.error ⟨.keyError, "agent " ++ pyRepr agentId ++ " not in team " ++ pyRepr swarmId⟩, d)
  match d.coord.getSwarm swarmId with
  | none => notIn
  | some s => match s.members.get? agentId with
    | none => notIn
    | some m =>
      if role ∉ ["leader", "worker", "observer"] then
        (.error ⟨.valueError, "invalid role " ++ pyRepr role⟩, d)
      else
        let leaderId := if role = "leader" then some agentId else s.leaderId
        let s := { s with leaderId, members := s.members.put { m with role } }
        (.ok (), (d.mutate s).persistSwarm C s)

/-- An operation of the coordinator: whether it returns, and what it leaves. -/
def applyOp : SwarmOp → Except Exc Unit × SwarmDb δ
  | .create swarmId topology => (.ok (), (d.createSwarm C swarmId topology).2)
  | .join swarmId agentId nodeId role capabilities now =>
    (.ok (), (d.joinSwarm C swarmId agentId nodeId role capabilities now).2)
  | .leave swarmId agentId reason => (.ok (), d.leaveSwarm C swarmId agentId reason)
  | .heartbeat nodeId agentId loadScore now =>
    (.ok (), d.handleHeartbeat C nodeId agentId loadScore now)
  | .check now => ((d.checkPartitions C now).1.map fun _ => (), (d.checkPartitions C now).2)
  | .delegate swarmId task fromAgent delegationId =>
    ((d.delegateTask C swarmId task fromAgent delegationId).1.map fun _ => (),
      (d.delegateTask C swarmId task fromAgent delegationId).2)
  | .complete delegationId resultSummary =>
    ((d.completeDelegation C delegationId resultSummary).1.map fun _ => (),
      (d.completeDelegation C delegationId resultSummary).2)

/-- A new coordinator with a store that is opened on the database. -/
def reopen (suspicionMs failureMs : ℤ) : Except Exc (SwarmDb δ) := do
  let swarms ← d.loadSwarms C
  let delegations ← d.loadDelegations C
  let store : SwarmStore :=
    { mem := swarms.values.foldl (fun mem x => mem.put (x.object (swarms.keys.idxOf x.swarmId))) ∅
      delegations := delegations.values.foldl Index.put ∅ }
  return { d with coord := { store, suspicionMs, failureMs, made := swarms.values.length } }

end SwarmDb

/-- An operation, or a restart. -/
inductive SwarmDbOp where
  | swarm (op : SwarmOp)
  | assignRole (swarmId agentId role : String)
  | reopen (suspicionMs failureMs : ℤ)

namespace SwarmDbOp

variable {δ : Type} (C : SwarmCodec δ)

/-- What an operation leaves when it returns. -/
def complete (d : SwarmDb δ) : SwarmDbOp → Except Exc (SwarmDb δ)
  | swarm op => (d.applyOp C op).1.map fun _ => (d.applyOp C op).2
  | assignRole swarmId agentId role =>
    (d.assignRole C swarmId agentId role).1.map fun _ => (d.assignRole C swarmId agentId role).2
  | reopen suspicionMs failureMs => d.reopen C suspicionMs failureMs

end SwarmDbOp

end Hermes

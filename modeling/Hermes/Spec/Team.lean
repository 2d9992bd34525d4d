import Hermes.Lib.Fresh
import Hermes.Spec.Swarm
import Hermes.Spec.Workflow

/-!
# Teams (`kernel/team_manager.py`)

A `TeamManager` on top of a `SwarmCoordinator`. Its store is the coordinator's own
store or another one: what it keeps in another store, and in `_teams`, no operation
reads. `execute_distributed` calls the coordinator's `delegate_task` and
`complete_delegation` only, which are operations here; what it returns when no executor
is injected is at the end.
-/

namespace Hermes

structure TeamManager where
  coord : Coordinator := {}
  /-- Whether `store` is the store of the coordinator. -/
  sharesStore : Bool := false

namespace TeamManager

variable (t : TeamManager)

/-- The members of a new team, with the nodes they are on. -/
def placements (agentIds : List String) (nodeIds : Option (List String)) : List (String × String) :=
  let nodeIds := match nodeIds with
    | none | some [] => agentIds.map ("node-" ++ ·)
    | some nodeIds => nodeIds
  agentIds.zip nodeIds

/-- The joins of `create_team`, each with the next reading of the clock. -/
def joinAll (swarmId : String) (clock : ℕ → ℚ) : ℕ → List (String × String) → Coordinator → Coordinator
  | _, [], c => c
  | k, p :: ps, c =>
    joinAll swarmId clock (k + 1) ps (c.joinSwarm swarmId p.1 p.2 "worker" [] (clock k)).2

/-- `create_team`. -/
def createTeam (name : String) (topology : SwarmTopology) (agentIds : List String)
    (nodeIds : Option (List String)) (clock : ℕ → ℚ) : Swarm × TeamManager :=
  let (swarm, c) := t.coord.createSwarm name topology
  let c := joinAll swarm.swarmId clock 0 (placements agentIds nodeIds) c
  -- the same object, with the members that joined
  let swarm := (c.getSwarm swarm.swarmId).getD swarm
  (swarm, { t with coord := if t.sharesStore then c.persistSwarm swarm else c })

/-- `assign_role`. -/
def assignRole (swarmId agentId role : String) : Except Exc Unit × TeamManager :=
  let notIn : Except Exc Unit × TeamManager :=
    (.error ⟨.keyError, "agent " ++ pyRepr agentId ++ " not in team " ++ pyRepr swarmId⟩, t)
  match t.coord.getSwarm swarmId with
  | none => notIn
  | some s => match s.members.get? agentId with
    | none => notIn
    | some m =>
      if role ∉ ["leader", "worker", "observer"] then
        (.error ⟨.valueError, "invalid role " ++ pyRepr role⟩, t)
      else
        let leaderId := if role = "leader" then some agentId else s.leaderId
        let s := { s with leaderId, members := s.members.put { m with role } }
        (.ok (), { t with coord := t.coord.persistSwarm s })

/-- `disband_team`. -/
def disbandTeam (swarmId : String) : TeamManager :=
  match t.coord.getSwarm swarmId with
  | none => t
  | some s =>
    let c := s.members.keys.foldl (fun c agentId => c.leaveSwarm swarmId agentId "disband") t.coord
    { t with coord := if t.sharesStore then c.deleteSwarm swarmId else c }

end TeamManager

/-! ## Operations in sequence -/

/-- An operation of the coordinator or of the manager. -/
inductive TeamOp where
  | swarm (op : SwarmOp)
  | createTeam (name : String) (topology : SwarmTopology) (agentIds : List String)
      (nodeIds : Option (List String)) (clock : ℕ → ℚ)
  | assignRole (swarmId agentId role : String)
  | disbandTeam (swarmId : String)

def TeamManager.apply (t : TeamManager) : TeamOp → TeamManager
  | .swarm op => { t with coord := t.coord.apply op }
  | .createTeam name topology agentIds nodeIds clock =>
    (t.createTeam name topology agentIds nodeIds clock).2
  | .assignRole swarmId agentId role => (t.assignRole swarmId agentId role).2
  | .disbandTeam swarmId => t.disbandTeam swarmId

/-! ## Distributed execution -/

/-- What `task.swarm_id` gives. It is no field of a `Task`, which may have it among its extra ones: as a
text, as any other object that is false, or as one that is true, with a hash or without. -/
inductive SwarmIdAttr where
  | missing
  | text (s : String)
  | falsy
  | hashable
  | unhashable
  deriving DecidableEq, Repr

/-- A `Task` object, as `execute_distributed` reads and writes it. -/
structure DistributedTask where
  task : Task
  workflowId : Option String := none
  swarmId : SwarmIdAttr := .missing
  deriving DecidableEq, Repr

/-- The key that `task.swarm_id or workflow_id` looks up; no swarm has a key that is not a text. -/
def SwarmIdAttr.key (workflowId : String) : SwarmIdAttr → Except Exc (Option String)
  | .missing => .error ⟨.attributeError, "'Task' object has no attribute 'swarm_id'"⟩
  | .text s => .ok (some (if s = "" then workflowId else s))
  | .falsy => .ok (some workflowId)
  | .hashable => .ok none
  | .unhashable => .error ⟨.other, "unhashable type"⟩

/-- A manager at work: the task objects, by their addresses, and the ids that `uuid4` has given. -/
structure TeamRun where
  manager : TeamManager
  tasks : ℕ → DistributedTask
  issued : List String := []

namespace TeamRun

variable (ids : IdSource String) (workflowId : String)

def setTask (s : TeamRun) (ref : ℕ) (task : DistributedTask) : TeamRun :=
  { s with tasks := Function.update s.tasks ref task }

def setCoord (s : TeamRun) (coord : Coordinator) : TeamRun :=
  { s with manager := { s.manager with coord } }

/-- A new id. -/
def newId (s : TeamRun) : String × TeamRun :=
  (ids.next s.issued, { s with issued := ids.next s.issued :: s.issued })

/-- `Artifact(type="task", content=...)`. -/
def taskArtifact (s : TeamRun) (content : List (String × Value)) : Artifact × TeamRun :=
  let (id, s) := s.newId ids
  ({ id, type := "task", content := .dict content }, s)

/-- The artifact of a task that is not delegated. -/
def noMember (s : TeamRun) (taskId : String) : Except Exc (List Artifact) × TeamRun :=
  let (artifact, s) := s.taskArtifact ids
    [("error", .str "no eligible member"), ("task_id", .str taskId)]
  (.ok [artifact], s)

/-- What `execute_distributed` does with one task. -/
def executeTask (ref : ℕ) (s : TeamRun) : Except Exc (List Artifact) × TeamRun :=
  let task := { s.tasks ref with workflowId := some workflowId }
  let s := s.setTask ref task
  let fromAgent := orElse task.task.assignedTo "team-manager"
  match task.swarmId.key workflowId with
  | .error e => (.error e, s)
  | .ok none => s.noMember ids task.task.id
  | .ok (some swarmId) =>
    let (delegationId, s') := s.newId ids
    match s.manager.coord.delegateTask swarmId task.task fromAgent delegationId with
    | (.error e, c) =>
      if e.kind = .keyError ∨ e.kind = .valueError then (s.setCoord c).noMember ids task.task.id
      else (.error e, s.setCoord c)
    | (.ok (d, delegated), c) =>
      let s := (s'.setCoord c).setTask ref { task with task := delegated }
      let (artifact, s) := s.taskArtifact ids
        [("delegated_to", .str d.toAgent), ("task_id", .str task.task.id)]
      match s.manager.coord.completeDelegation d.delegationId ("ran on " ++ d.toAgent) with
      | (.error e, c) => (.error e, s.setCoord c)
      | (.ok _, c) => (.ok [artifact], s.setCoord c)

/-- `execute_distributed`, for task objects at these addresses. -/
def executeDistributed (refs : List ℕ) (s : TeamRun) : Except Exc (List Artifact) × TeamRun :=
  Loops.forEach (executeTask ids workflowId) refs s

end TeamRun

end Hermes

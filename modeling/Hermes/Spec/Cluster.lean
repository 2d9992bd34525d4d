import Hermes.Lib.Index
import Hermes.Spec.Base

/-!
# Cluster membership (`kernel/cluster.py`, `kernel/marketplace_domain.py`)

Operations of a `ClusterManager` one after the other. A clock reading is a point in
time in seconds, given with the operation that reads it. `events` holds what was
handed to `_emit`. Left out: `broadcast` and its transport.
-/

namespace Hermes

/-- The `NodeInfo` of ADR-026. -/
structure NodeInfo where
  nodeId : String
  address : String := "inproc"
  capabilities : List String := []
  lastHeartbeat : ℚ
  load : ℚ := 0
  deriving DecidableEq, Repr

structure ClusterTopology where
  clusterId : String
  nodes : Index NodeInfo.nodeId := ∅
  leaderId : Option String := none

inductive NodeEvent where
  | joined (nodeId address clusterId : String) (capabilities : List String)
  | left (nodeId clusterId reason : String)
  deriving DecidableEq, Repr

structure ClusterManager where
  clusterId : String := "default"
  /-- In seconds. -/
  nodeTimeout : ℚ := 30
  nodes : Index NodeInfo.nodeId := ∅
  /-- `_leader`, which is not set at first. -/
  leader : Option String := none
  events : List NodeEvent := []

namespace ClusterManager

variable (c : ClusterManager)

/-- `_emit`. -/
def emit (e : NodeEvent) : ClusterManager := { c with events := c.events ++ [e] }

def getTopology : ClusterTopology :=
  { clusterId := c.clusterId, nodes := c.nodes, leaderId := c.leader }

/-- `elect_leader`: the first node with the earliest heartbeat. -/
def electLeader : Option String × ClusterManager :=
  let leader := (c.nodes.values.argmin NodeInfo.lastHeartbeat).map (·.nodeId)
  (leader, { c with leader })

def joinCluster (nodeId address : String) (capabilities : List String) (now : ℚ) :
    NodeInfo × ClusterManager :=
  let node : NodeInfo := { nodeId, address, capabilities, lastHeartbeat := now, load := 0 }
  let c := { c with nodes := c.nodes.put node }
  let c := if c.getTopology.leaderId = none then c.electLeader.2 else c
  (node, c.emit (.joined nodeId address c.clusterId capabilities))

def leaveCluster (nodeId reason : String) : Bool × ClusterManager :=
  match c.nodes.get? nodeId with
  | none => (false, c)
  | some _ =>
    let c := { c with nodes := c.nodes.erase nodeId }
    let c := if c.getTopology.leaderId = some nodeId then c.electLeader.2 else c
    (true, c.emit (.left nodeId c.clusterId reason))

def heartbeat (nodeId : String) (now : ℚ) : ClusterManager :=
  match c.nodes.get? nodeId with
  | none => c
  | some node => { c with nodes := c.nodes.put { node with lastHeartbeat := now } }

/-- The node was last heard of more than `node_timeout` ago. -/
def timedOut (now : ℚ) (node : NodeInfo) : Bool := c.nodeTimeout < now - node.lastHeartbeat

def pruneTimedOut (now : ℚ) : List String × ClusterManager :=
  let dropped := (c.nodes.values.filter (c.timedOut now)).map (·.nodeId)
  let c := { c with nodes := dropped.foldl Index.erase c.nodes }
  (dropped, if c.leader.any (· ∈ dropped) then c.electLeader.2 else c)

end ClusterManager

/-! ## Operations in sequence -/

/-- An operation, with the reading of the clock where it reads it. -/
inductive ClusterOp where
  | join (nodeId address : String) (capabilities : List String) (now : ℚ)
  | leave (nodeId reason : String)
  | heartbeat (nodeId : String) (now : ℚ)
  | prune (now : ℚ)
  | elect
  deriving DecidableEq, Repr

def ClusterManager.apply (c : ClusterManager) : ClusterOp → ClusterManager
  | .join nodeId address capabilities now => (c.joinCluster nodeId address capabilities now).2
  | .leave nodeId reason => (c.leaveCluster nodeId reason).2
  | .heartbeat nodeId now => c.heartbeat nodeId now
  | .prune now => (c.pruneTimedOut now).2
  | .elect => c.electLeader.2

end Hermes

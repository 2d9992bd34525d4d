import Hermes.Lib.Polling
import Hermes.Spec.Scanner
import Hermes.Spec.Swarm

/-!
# Components with a loop in the background (`kernel/swarm.py`, `kernel/distributed_health.py`, `kernel/scanner.py`)

`start`, `stop` and the loop of a `SwarmCoordinator`, of a `DistributedHealthMonitor` and of a `FileScanner`.
Their event store is an `EventStore`, whose `append` has no wait of its own: a round of work goes through
without a wait. Left out: wall-clock stamps, logging, and the lengths of the pauses.
-/

namespace Hermes

open Polling

/-! ## The coordinator -/

/-- `_check_loop` of a `SwarmCoordinator`. A round reads the clock; whatever else is done to the coordinator
is an input. -/
def Coordinator.checkLoop : Poller Coordinator ℚ (Coordinator → Coordinator) where
  eager := false
  contains := false
  work now c :=
    let (result, c) := c.checkPartitions now
    (!result.isOk, c)
  perform f c := f c

/-! ## The monitor of nodes -/

/-- The `NodeInfo` of ADR-023. -/
structure TrackedNode where
  nodeId : String
  capabilities : List String := []
  loadScore : ℚ := 0
  deriving DecidableEq, Repr

/-- What a `send_heartbeat` meets: the readings of the clock, and whether the event store raises. -/
structure Beat where
  ts : ℚ
  now : ℚ
  raises : Bool := false
  deriving DecidableEq, Repr

/-- A `DistributedHealthMonitor`, with the events that it has made, each with whether the store has raised
for it, and what it has published. -/
structure DistributedHealthMonitor where
  nodeId : String := "local"
  /-- An event store is wired. -/
  evStore : Bool
  /-- An event bus is wired. -/
  bus : Bool
  nodes : Index TrackedNode.nodeId := ∅
  lastSeenTs : Dict String ℚ := ∅
  beatCount : ℕ := 0
  made : List (SwarmEvent × Bool) := []
  published : List SwarmEvent := []

namespace DistributedHealthMonitor

variable (d : DistributedHealthMonitor)

def trackNode (nodeId : String) (capabilities : List String) (now : ℚ) : DistributedHealthMonitor :=
  { d with
    nodes := d.nodes.put { nodeId, capabilities }
    lastSeenTs := d.lastSeenTs.insert nodeId now }

/-- `get_node_health`; `"unknown"` is `none`. -/
def getNodeHealth (nodeId : String) (now : ℚ) : Option Health :=
  match d.nodes.get? nodeId with
  | none => none
  | some _ =>
    let age := (now - (d.lastSeenTs.get? nodeId).getD 0) * 1000
    if 10000 < age then some .unhealthy
    else if 3000 < age then some .suspected
    else some .healthy

/-- `record_heartbeat`, with the last reading of the clock. -/
def recordHeartbeat (nodeId : String) (loadScore now : ℚ) : DistributedHealthMonitor :=
  let d := if (d.nodes.get? nodeId).isSome then d else d.trackNode nodeId [] now
  let info := (d.nodes.get? nodeId).getD { nodeId }
  { d with
    nodes := d.nodes.put { info with nodeId, loadScore }
    lastSeenTs := d.lastSeenTs.insert nodeId now }

/-- `send_heartbeat`: whether it raises, and the monitor then. -/
def sendHeartbeat (loadScore : ℚ) (beat : Beat) : Bool × DistributedHealthMonitor :=
  let d := { d with beatCount := d.beatCount + 1 }.recordHeartbeat d.nodeId loadScore beat.now
  let event := SwarmEvent.heartbeatReceived d.nodeId d.nodeId beat.ts loadScore
  let raised := d.evStore && beat.raises
  let d := { d with made := d.made ++ [(event, raised)] }
  if raised then (true, d)
  else (false, { d with published := if d.bus then d.published ++ [event] else d.published })

end DistributedHealthMonitor

/-- What is done to a monitor besides its loop. -/
inductive MonitorOp where
  | trackNode (nodeId : String) (capabilities : List String) (now : ℚ)
  | recordHeartbeat (nodeId : String) (loadScore now : ℚ)
  | sendHeartbeat (loadScore : ℚ) (beat : Beat)

namespace DistributedHealthMonitor

def perform : MonitorOp → DistributedHealthMonitor → DistributedHealthMonitor
  | .trackNode nodeId capabilities now, d => d.trackNode nodeId capabilities now
  | .recordHeartbeat nodeId loadScore now, d => d.recordHeartbeat nodeId loadScore now
  | .sendHeartbeat loadScore beat, d => (d.sendHeartbeat loadScore beat).2

/-- `_beat_loop`. -/
def beatLoop : Poller DistributedHealthMonitor Beat MonitorOp where
  eager := false
  contains := false
  work beat d := d.sendHeartbeat 0 beat
  perform := perform

/-- It is about another node. -/
def notAbout (nodeId own : String) : MonitorOp → Prop
  | .trackNode n _ _ => n ≠ nodeId
  | .recordHeartbeat n _ _ => n ≠ nodeId
  | .sendHeartbeat _ _ => own ≠ nodeId

end DistributedHealthMonitor

/-! ## The scanner -/

/-- A `FileScanner` with what `_scan_new` and what `scan_once` have published. -/
structure WatchingScanner where
  scanner : FileScanner
  swept : List ScannedEvent := []
  once : List ScannedEvent := []

namespace FileScanner

/-- `_watch_loop`, and `start`. A sweep finds what is there, and may raise after it. -/
def watchLoop {δ : Type} (T : PathTexts) :
    Poller WatchingScanner (Directories × Bool) (Bool × Option (PersistenceRegistry δ) × Directories) where
  eager := true
  contains := true
  work input w :=
    let (events, scanner) := w.scanner.scanNew T input.1
    (input.2, { w with scanner, swept := w.swept ++ events })
  perform args w :=
    let (events, scanner) := w.scanner.scanOnce T args.1 args.2.1 args.2.2
    { w with scanner, once := w.once ++ events }

end FileScanner

end Hermes

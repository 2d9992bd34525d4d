import Hermes.Lib.History
import Hermes.Lib.Dict
import Hermes.Lib.Toposort
import Hermes.Spec.Base
import Hermes.Spec.Planner
import Hermes.Proof.PlanRun
import Hermes.Proof.PlanOrder
import Hermes.Proof.PlanTurns
import Hermes.Proof.Verdicts
import Hermes.Spec.ConfigStore
import Hermes.Spec.ConfigVault
import Hermes.Proof.VaultScope
import Hermes.Proof.VaultIsolation
import Hermes.Lib.Base64
import Hermes.Spec.Interpolate
import Hermes.Spec.Guard
import Hermes.Spec.Resilience
import Hermes.Spec.Workflow
import Hermes.Spec.Engine
import Hermes.Spec.Lifecycle
import Hermes.Proof.EngineLife
import Hermes.Proof.EngineSteps
import Hermes.Proof.PlanHosts
import Hermes.Proof.EngineRun
import Hermes.Proof.Gate
import Hermes.Proof.Terminal
import Hermes.Proof.EngineMarks
import Hermes.Proof.Rollback
import Hermes.Proof.Attribution
import Hermes.Lib.Flight
import Hermes.Proof.HalfOpen
import Hermes.Spec.Breaker
import Hermes.Proof.SingleProbe
import Hermes.Lib.Course
import Hermes.Proof.Attempts
import Hermes.Proof.Notes
import Hermes.Proof.Journal
import Hermes.Proof.ErrorArtifacts
import Hermes.Proof.Bracketing
import Hermes.Proof.Coverage
import Hermes.Lib.Cursor
import Hermes.Proof.Calls
import Hermes.Proof.LoopEnds
import Hermes.Proof.LinearRun
import Hermes.Proof.Results
import Hermes.Proof.DataFlow
import Hermes.Proof.TwinVaults
import Hermes.Proof.TwinRuns
import Hermes.Proof.DeadLetters
import Hermes.Proof.BreakersAgree
import Hermes.Proof.BreakerHistory
import Hermes.Proof.StoresAgree
import Hermes.Proof.ReplayOnce
import Hermes.Spec.Gateway
import Hermes.Proof.Requests
import Hermes.Lib.Index
import Hermes.Spec.Swarm
import Hermes.Proof.Leadership
import Hermes.Proof.MemberSteps
import Hermes.Proof.Detection
import Hermes.Spec.Team
import Hermes.Proof.Creations
import Hermes.Lib.Turns
import Hermes.Proof.RoundRobin
import Hermes.Spec.Cluster
import Hermes.Proof.Membership
import Hermes.Lib.Search
import Hermes.Lib.Fresh
import Hermes.Spec.GraphStore
import Hermes.Spec.KnowledgeGraph
import Hermes.Proof.Merge
import Hermes.Proof.Inference
import Hermes.Proof.Versions
import Hermes.Lib.Rows
import Hermes.Proof.Reopen
import Hermes.Lib.Heap
import Hermes.Lib.Dag
import Hermes.Spec.Replan
import Hermes.Proof.ReplanSteps
import Hermes.Proof.OldVersions
import Hermes.Proof.RiskLevels
import Hermes.Proof.WellFormedPlans
import Hermes.Proof.Convergence
import Hermes.Proof.EntityNames
import Hermes.Proof.GuardChecks
import Hermes.Proof.CallQuota
import Hermes.Spec.Marketplace
import Hermes.Proof.MarketSteps
import Hermes.Proof.MarketStatus
import Hermes.Spec.AgentRuntime
import Hermes.Proof.InstalledCapabilities
import Hermes.Lib.Overlap
import Hermes.Proof.SecretVersions
import Hermes.Lib.Rekey
import Hermes.Proof.StoreContents
import Hermes.Proof.BackendsAgree
import Hermes.Proof.ThreeVaults
import Hermes.Lib.Cut
import Hermes.Spec.GatewaySessions
import Hermes.Proof.SessionIndex
import Hermes.Proof.AuthProvenance
import Hermes.Spec.McpCapabilities
import Hermes.Proof.CapabilityNames
import Hermes.Proof.DependencyClosure
import Hermes.Spec.Json
import Hermes.Spec.McpServer
import Hermes.Proof.ArgumentChecks
import Hermes.Proof.ServerAnswers
import Hermes.Lib.Chunks
import Hermes.Spec.McpFraming
import Hermes.Proof.FramingRoundTrip
import Hermes.Lib.Backlog
import Hermes.Spec.McpStreamable
import Hermes.Proof.Resumption
import Hermes.Spec.McpClient
import Hermes.Proof.ResponseMatching
import Hermes.Spec.EventBus
import Hermes.Proof.EventDelivery
import Hermes.Spec.EventStore
import Hermes.Proof.JournalAtomicity
import Hermes.Spec.Executor
import Hermes.Proof.TaskClosure
import Hermes.Lib.Latch
import Hermes.Spec.HealthMonitor
import Hermes.Proof.HealthHistory
import Hermes.Spec.Recovery
import Hermes.Proof.RestartBudget
import Hermes.Spec.Persistence
import Hermes.Proof.EntityIsolation
import Hermes.Lib.Buckets
import Hermes.Spec.SimilarityGraph
import Hermes.Proof.StoredEntities
import Hermes.Proof.GraphSteps
import Hermes.Proof.GraphEdges
import Hermes.Spec.KnowledgePipeline
import Hermes.Proof.TextSurvival
import Hermes.Lib.Ranked
import Hermes.Spec.RetrievalBackends
import Hermes.Proof.FaissAgreement
import Hermes.Proof.VssIsolation
import Hermes.Lib.WriteThrough
import Hermes.Spec.SwarmDatabase
import Hermes.Proof.SwarmRestart
import Hermes.Lib.ShortestWay
import Hermes.Proof.ShortestPaths
import Hermes.Spec.HealthDeadLetters
import Hermes.Proof.HandledOnce
import Hermes.Spec.Sandbox
import Hermes.Proof.BreachProtocol
import Hermes.Spec.PluginRegistry
import Hermes.Proof.DisabledPlugins
import Hermes.Spec.Workspaces
import Hermes.Proof.WorkspaceNames
import Hermes.Proof.ExpiredEvents
import Hermes.Spec.Scanner
import Hermes.Proof.ScannerSweeps
import Hermes.Lib.Tries
import Hermes.Lib.Windows
import Hermes.Proof.RetryDiscipline
import Hermes.Proof.RejectedPlans
import Hermes.Proof.RetryOutcomes
import Hermes.Spec.Catalog
import Hermes.Proof.CatalogDecoding
import Hermes.Proof.StepActs
import Hermes.Proof.StepBudget
import Hermes.Lib.Substitution
import Hermes.Proof.Interpolation
import Hermes.Proof.DurableReplay
import Hermes.Proof.Distribution
import Hermes.Proof.Escalation
import Hermes.Lib.Variance
import Hermes.Spec.Observability
import Hermes.Proof.RingBuffers
import Hermes.Spec.Behavior
import Hermes.Proof.HumanBehavior
import Hermes.Lib.EventStream
import Hermes.Spec.McpSse
import Hermes.Proof.SseStreams
import Hermes.Spec.AgentLife
import Hermes.Proof.AgentJournal
import Hermes.Proof.ExecutionAccounts
import Hermes.Lib.Polling
import Hermes.Spec.BackgroundLoops
import Hermes.Proof.BackgroundLoops
import Hermes.Lib.Merging
import Hermes.Spec.AgentMemory
import Hermes.Proof.MemoryRecall
import Hermes.Spec.EventPlatform
import Hermes.Proof.ReadModels
import Hermes.Spec.AccessControl
import Hermes.Proof.AccessHistory

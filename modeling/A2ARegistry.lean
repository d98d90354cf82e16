import A2ARegistry.Orchestration.Proofs.Effects
import A2ARegistry.Orchestration.Proofs.Loops
import A2ARegistry.Orchestration.Proofs.Rows
import A2ARegistry.Orchestration.Proofs.Runs
import A2ARegistry.Orchestration.Proofs.Readiness
import A2ARegistry.Orchestration.Proofs.Completeness
import A2ARegistry.Orchestration.Proofs.History
import A2ARegistry.Orchestration.Proofs.Lease
import A2ARegistry.Orchestration.Proofs.Fencing
import A2ARegistry.Orchestration.Proofs.RunHistory
import A2ARegistry.Orchestration.Proofs.RetryBound
import A2ARegistry.Orchestration.Models
import A2ARegistry.Orchestration.Routes
import A2ARegistry.Orchestration.Proofs.Ownership
import A2ARegistry.Base.Graph
import A2ARegistry.Orchestration.Proofs.Acyclic
import A2ARegistry.Orchestration.Store.Ops
import A2ARegistry.Orchestration.Proofs.Lifecycle
import A2ARegistry.Orchestration.Proofs.Audit
import A2ARegistry.Orchestration.Proofs.Backoff
import A2ARegistry.Orchestration.Store.Listing
import A2ARegistry.Orchestration.Proofs.Reports
import A2ARegistry.Server.State
import A2ARegistry.Server.Messages
import A2ARegistry.Server.Dispatch
import A2ARegistry.Server.Proofs.Entries
import A2ARegistry.Server.Proofs.Steps
import A2ARegistry.Server.Proofs.Terminal
import A2ARegistry.Server.Proofs.Watch
import A2ARegistry.Server.Proofs.Reconcile
import A2ARegistry.Server.Proofs.Outcomes
import A2ARegistry.Server.Proofs.Attempts
import A2ARegistry.Base.Dumps
import A2ARegistry.Base.RoundTrip
import A2ARegistry.Orchestration.Detail
import A2ARegistry.Orchestration.Proofs.Results
import A2ARegistry.Server.Proofs.Results
import A2ARegistry.Orchestration.FlowControl
import A2ARegistry.Server.Dispatcher
import A2ARegistry.Server.Inbox
import A2ARegistry.Server.Proofs.Rows
import A2ARegistry.Server.Proofs.Moves
import A2ARegistry.Server.Proofs.Blocks
import A2ARegistry.Server.Proofs.Accounting
import A2ARegistry.Server.Proofs.Isolation
import A2ARegistry.Server.Connections
import A2ARegistry.Server.Proofs.Connections
import A2ARegistry.Base.Base64
import A2ARegistry.Auth.Jwt
import A2ARegistry.Auth.Store
import A2ARegistry.Auth.Handlers
import A2ARegistry.Auth.Middleware
import A2ARegistry.Auth.Proofs.Steps
import A2ARegistry.Auth.Proofs.Codes
import A2ARegistry.Auth.Proofs.Revocation
import A2ARegistry.Auth.Proofs.Scopes
import A2ARegistry.Security.Dtm
import A2ARegistry.Security.PolicyEngine
import A2ARegistry.Security.Proofs.Replay
import A2ARegistry.Orchestration.Handlers
import A2ARegistry.Orchestration.Proofs.Depth
import A2ARegistry.Base.Run
import A2ARegistry.Orchestration.Proofs.Tenant
import A2ARegistry.Orchestration.Proofs.Confinement
import A2ARegistry.Security.Proofs.Attenuation
import A2ARegistry.Registry.Store
import A2ARegistry.Security.Proofs.Gate
import A2ARegistry.Security.Guardrail
import A2ARegistry.Security.Proofs.Redaction
import A2ARegistry.Security.Proofs.Detection
import A2ARegistry.Server.SyncCall
import A2ARegistry.Server.Proofs.SyncCall
import A2ARegistry.Base.Paths
import A2ARegistry.Orchestration.Workspace
import A2ARegistry.Orchestration.Proofs.Workspaces
import A2ARegistry.Orchestration.Blackboard
import A2ARegistry.Orchestration.Proofs.Blackboard
import A2ARegistry.Base.Transactions
import A2ARegistry.Orchestration.SharedEngine
import A2ARegistry.Orchestration.Proofs.SharedEngine
import A2ARegistry.Base.EventStream
import A2ARegistry.Events.EventBus
import A2ARegistry.Events.Proofs.Delivery
import A2ARegistry.Events.Proofs.Streams
import A2ARegistry.Orchestration.Swarm
import A2ARegistry.Orchestration.Proofs.SwarmBoard
import A2ARegistry.Orchestration.Proofs.BlackboardStore
import A2ARegistry.Base.Interleaving
import A2ARegistry.Orchestration.SharedWorkspace
import A2ARegistry.Orchestration.Proofs.Locks
import A2ARegistry.Orchestration.Proofs.Sharing
import A2ARegistry.Orchestration.Cron
import A2ARegistry.Orchestration.Proofs.CronExact
import A2ARegistry.Base.TopologicalSort
import A2ARegistry.Base.CyclePaths
import A2ARegistry.Orchestration.Workflow
import A2ARegistry.Orchestration.Proofs.WorkflowTasks
import A2ARegistry.Orchestration.Proofs.WorkflowChecks
import A2ARegistry.Orchestration.Proofs.Gates
import A2ARegistry.Orchestration.Proofs.SwarmOrder
import A2ARegistry.Base.TokenBucket
import A2ARegistry.RateLimit.Buckets
import A2ARegistry.RateLimit.Proofs.RateBound
import A2ARegistry.RateLimit.Proofs.Backends
import A2ARegistry.RateLimit.Proofs.RetryAfter
import A2ARegistry.Users.Store
import A2ARegistry.Users.Proofs.Admins
import A2ARegistry.Webhooks.Store
import A2ARegistry.Webhooks.Delivery
import A2ARegistry.Webhooks.Proofs.Circuit
import A2ARegistry.Webhooks.Proofs.Delivery
import A2ARegistry.Base.Outcomes
import A2ARegistry.Registry.Proofs.Sanitize
import A2ARegistry.Registry.Validation
import A2ARegistry.Registry.Cards
import A2ARegistry.Registry.Proofs.Cards
import A2ARegistry.Registry.Handlers
import A2ARegistry.Registry.Proofs.Names
import A2ARegistry.Registry.Proofs.Search
import A2ARegistry.Registry.Liveness
import A2ARegistry.Registry.Proofs.Liveness
import A2ARegistry.Admin.Hub
import A2ARegistry.Admin.Proofs.Hub
import A2ARegistry.Base.Like
import A2ARegistry.Base.TimedMap
import A2ARegistry.Orchestration.Dependency
import A2ARegistry.Orchestration.Memory
import A2ARegistry.Orchestration.Proofs.Dependency
import A2ARegistry.Orchestration.Proofs.Memory
import A2ARegistry.Orchestration.Proofs.MemoryVisibility
import A2ARegistry.Base.Letters
import A2ARegistry.Orchestration.Proofs.MemorySearch
import A2ARegistry.Orchestration.Proofs.Accessible
import A2ARegistry.Security.Proofs.Verdicts
import A2ARegistry.Server.Handshake
import A2ARegistry.Server.Proofs.Handshake
import A2ARegistry.Base.Records
import A2ARegistry.Server.Proofs.Envelope
import A2ARegistry.Registry.Models
import A2ARegistry.Registry.Proofs.Models
import A2ARegistry.Base.Yaml
import A2ARegistry.Orchestration.WorkflowFormat
import A2ARegistry.Orchestration.Proofs.WorkflowFormat
import A2ARegistry.Base.Breaker
import A2ARegistry.Orchestration.Proofs.Heartbeat
import A2ARegistry.Orchestration.Proofs.RetryBackoff
import A2ARegistry.Orchestration.Proofs.Recovery
import A2ARegistry.Orchestration.Proofs.Api
import A2ARegistry.Orchestration.Proofs.CircuitBreaker
import A2ARegistry.Server.Proofs.Contracts
import A2ARegistry.Server.PendingCalls
import A2ARegistry.Server.Proofs.PendingCalls
import A2ARegistry.Base.Paging
import A2ARegistry.Orchestration.Proofs.Listing
import A2ARegistry.Server.PollLoop
import A2ARegistry.Server.Proofs.PollLoop
import A2ARegistry.Server.StateSync
import A2ARegistry.Server.Proofs.StateSync
import A2ARegistry.Server.Proofs.Unregister
import A2ARegistry.Orchestration.Proofs.Batch
import A2ARegistry.Orchestration.AnomalyScanner
import A2ARegistry.Orchestration.Proofs.AnomalyScanner
import A2ARegistry.Orchestration.Sla
import A2ARegistry.Orchestration.Proofs.SlaWindows
import A2ARegistry.Orchestration.Proofs.SlaTrend
import A2ARegistry.Security.Provenance
import A2ARegistry.Orchestration.Provenance
import A2ARegistry.Orchestration.Proofs.Provenance
import A2ARegistry.Base.LeastSquares
import A2ARegistry.Orchestration.Proofs.StaleLocks
import A2ARegistry.Client.Reconnect
import A2ARegistry.Client.Proofs.Reconnect
import A2ARegistry.Base.Assign
import A2ARegistry.Config.Load
import A2ARegistry.Config.Proofs.Layers
import A2ARegistry.Orchestration.Proofs.Drain
import A2ARegistry.Users.Sessions
import A2ARegistry.Users.Proofs.Sessions
import A2ARegistry.Orchestration.Proofs.WorkflowReports
import A2ARegistry.Audit.Store
import A2ARegistry.Audit.Proofs.Log
import A2ARegistry.Client.Token
import A2ARegistry.Client.Proofs.Token
import A2ARegistry.Registry.RetryEngine
import A2ARegistry.Server.Envelope

import OpsCodex.Effect.Program
import OpsCodex.Effect.Pool
import OpsCodex.Error
import OpsCodex.Strings
import OpsCodex.Json
import OpsCodex.Json.Text
import OpsCodex.Runtime.Identifiers
import OpsCodex.Evidence
import OpsCodex.Evidence.Diagnosis
import OpsCodex.Runtime.Event
import OpsCodex.Extensions.Capability
import OpsCodex.Policy
import OpsCodex.Action
import OpsCodex.Store.Table
import OpsCodex.Store.Continuity
import OpsCodex.Store.Projection
import OpsCodex.Store.Sqlite
import OpsCodex.Runtime.Service
import OpsCodex.Runtime.Remediation
import OpsCodex.Runtime.Recovery
import OpsCodex.Runtime.Agent
import OpsCodex.Runtime.Frame
import OpsCodex.Store.ActionTable
import OpsCodex.Store.TurnTable
import OpsCodex.Remediation.System
import OpsCodex.Remediation.Protocol
import OpsCodex.Remediation.Steps
import OpsCodex.Remediation.SingleExecution
import OpsCodex.Remediation.KillSwitch
import OpsCodex.Remediation.LifeCycle
import OpsCodex.Turn.Classification
import OpsCodex.Turn.System
import OpsCodex.Turn.Protocol
import OpsCodex.Turn.Conformance
import OpsCodex.Turn.Steps
import OpsCodex.Turn.Sequential
import OpsCodex.Turn.StartedOnce
import OpsCodex.Storage.Framing
import OpsCodex.Storage.TornWrite
import OpsCodex.Store.Jsonl
import OpsCodex.Store.JsonlTears
import OpsCodex.Store.JsonlCreation
import OpsCodex.Store.ModelItems
import OpsCodex.Store.Fork
import OpsCodex.Sequence.Matching
import OpsCodex.Store.ModelContext
import OpsCodex.Runtime.Compaction
import OpsCodex.Action.Preimage
import OpsCodex.Remediation.ApprovalBinding
import OpsCodex.Turn.CompletedOnce
import OpsCodex.Runtime.AuditTrail
import OpsCodex.Turn.AuthorizationTrace
import OpsCodex.Turn.Span
import OpsCodex.Sequence.Blocks
import OpsCodex.Turn.Contiguous
import OpsCodex.Turn.Terminal
import OpsCodex.Store.Leases
import OpsCodex.Store.ForkAuthority
import OpsCodex.Store.Items
import OpsCodex.Store.EvidenceIndex
import OpsCodex.Store.Threads
import OpsCodex.Store.History
import OpsCodex.Store.ThreadStatus
import OpsCodex.Json.Record
import OpsCodex.Runtime.EventFormat
import OpsCodex.Runtime.EventText
import OpsCodex.Store.Export
import OpsCodex.Sequence.Transcript
import OpsCodex.Store.Ledger
import OpsCodex.Store.Backends
import OpsCodex.Turn.ResumeKeys
import OpsCodex.Turn.Grounding
import OpsCodex.Remediation.Announcements
import OpsCodex.Remediation.OnRecord
import OpsCodex.Action.HashPreimages
import OpsCodex.Encoding.HashChain
import OpsCodex.Sequence.Traversal
import OpsCodex.Store.AuditChain
import OpsCodex.Store.ImportFidelity
import OpsCodex.Store.Migration
import OpsCodex.Store.Retirement
import OpsCodex.Storage.FileTree
import OpsCodex.Evidence.Artifact
import OpsCodex.Extensions.Enablement
import OpsCodex.Tools.Registry
import OpsCodex.Extensions.Catalog
import OpsCodex.Extensions.FailedInstall
import OpsCodex.App.Tools
import OpsCodex.App.Ceiling
import OpsCodex.Web.Reducer
import OpsCodex.Web.Convergence
import OpsCodex.Web.Pairing
import OpsCodex.Server.Broadcast
import OpsCodex.Server.Delivery
import OpsCodex.Store.Recency
import OpsCodex.Store.RequestBinding
import OpsCodex.Server.TurnRegistry
import OpsCodex.Extensions.Supervisor
import OpsCodex.Evidence.Redact
import OpsCodex.Evidence.RedactJson
import OpsCodex.Evidence.Exposure
import OpsCodex.Evidence.Settled
import OpsCodex.Effect.Answers
import OpsCodex.Sequence.Pieces
import OpsCodex.Json.Print
import OpsCodex.Evidence.SummaryKeys
import OpsCodex.Turn.RedactedResults
import OpsCodex.Sequence.FirstSeen
import OpsCodex.Model.ResponseState
import OpsCodex.Extensions.McpFraming
import OpsCodex.Web.Snapshot
import OpsCodex.Sequence.Keyed
import OpsCodex.Sequence.BoundedSearch
import OpsCodex.Topology
import OpsCodex.Topology.Changes
import OpsCodex.Topology.Invariant
import OpsCodex.Topology.Freshness
import OpsCodex.Topology.ArtifactProjection
import OpsCodex.Topology.TraceResults
import OpsCodex.Evidence.ArtifactTears
import OpsCodex.Extensions.McpSession
import OpsCodex.Encoding.Utf8
import OpsCodex.Sequence.Delimited
import OpsCodex.Model.SseDecoder
import OpsCodex.Model.SseChunks
import OpsCodex.Sequence.Boundaries
import OpsCodex.Evidence.Summary
import OpsCodex.Encoding.Utf8Lossy
import OpsCodex.Tools.Output
import OpsCodex.Tools.BoundedReaders
import OpsCodex.Sequence.Reading
import OpsCodex.Net.Address
import OpsCodex.Ops.ListenAddr
import OpsCodex.Extensions.Skill
import OpsCodex.Effect.Monitor
import OpsCodex.Turn.Requests
import OpsCodex.Turn.Occupancy
import OpsCodex.Turn.Checkpoints
import OpsCodex.Turn.Isolation
import OpsCodex.Kubernetes.Sanitize
import OpsCodex.Sequence.Segments
import OpsCodex.Kubernetes.Routing
import OpsCodex.Sequence.Paging
import OpsCodex.Server.ThreadPages
import OpsCodex.Store.Schema
import OpsCodex.Runbook
import OpsCodex.Tools.Runbook
import OpsCodex.Effect.Traces
import OpsCodex.Tools.Connector
import OpsCodex.Tools.Queries
import OpsCodex.App.Configuration
import OpsCodex.Evidence.DiagnosisText
import OpsCodex.Turn.Answers

import AdmissionWatch.Category
import AdmissionWatch.Failure
import AdmissionWatch.Json.Kept
import AdmissionWatch.Json.Printer
import AdmissionWatch.Text.Hex
import AdmissionWatch.Time.Reading
import AdmissionWatch.Time.Span
import AdmissionWatch.Audit.Wire
import AdmissionWatch.Event.Wire
import AdmissionWatch.Violation.Wire
import AdmissionWatch.Event.OfAudit
import AdmissionWatch.Event.OfObject
import AdmissionWatch.Verdict
import AdmissionWatch.Dispatch.Forward
import AdmissionWatch.LogGroup.Poll
import AdmissionWatch.LogGroup.Backoff
import AdmissionWatch.Source.PolicyEvents
import AdmissionWatch.Telemetry.Snapshot
import AdmissionWatch.Dispatch.Dispatcher
import AdmissionWatch.Health.Server
import AdmissionWatch.Signing
import AdmissionWatch.Http.Url
import AdmissionWatch.LogGroup.Client
import AdmissionWatch.Source.ApiServer
import AdmissionWatch.Dispatch.Insights
import AdmissionWatch.Settings.Resolved
import AdmissionWatch.Source.Setup
import AdmissionWatch.Watcher.Pipeline
import AdmissionWatch.LogGroup.Poller
import AdmissionWatch.Watcher.Run
import AdmissionWatch.Program
import AdmissionWatch.Detection.MarkerSet
import AdmissionWatch.Main
import AdmissionWatch.Proofs.Basics
import AdmissionWatch.Proofs.Dict
import AdmissionWatch.Proofs.Dedup.Coherence
import AdmissionWatch.Proofs.Dedup.Journal
import AdmissionWatch.Proofs.Dedup.Readmission
import AdmissionWatch.Proofs.Intake
import AdmissionWatch.Proofs.Dispatch.Disposition
import AdmissionWatch.Proofs.Dispatch.Dispatcher
import AdmissionWatch.Proofs.Dispatch.AuditEvents
import AdmissionWatch.Proofs.Dispatch.TokenBucket
import AdmissionWatch.Proofs.Startup
import AdmissionWatch.Proofs.Source.Errand
import AdmissionWatch.Proofs.Watcher.Pipeline
import AdmissionWatch.Proofs.Watcher.Conservation
import AdmissionWatch.Proofs.Watcher.Traffic
import AdmissionWatch.Proofs.Watcher.AtMostOnce
import AdmissionWatch.Proofs.Watcher.Interleaving
import AdmissionWatch.Proofs.Watcher.StartStop
import AdmissionWatch.Proofs.LogGroup.Session
import AdmissionWatch.Proofs.LogGroup.Service
import AdmissionWatch.Proofs.LogGroup.Cover
import AdmissionWatch.Proofs.LogGroup.NoLoss
import AdmissionWatch.Proofs.LogGroup.Cursors
import AdmissionWatch.Proofs.LogGroup.Newest
import AdmissionWatch.Proofs.LogGroup.Advance
import AdmissionWatch.Proofs.LogGroup.Query
import AdmissionWatch.Proofs.Event.PolicyEvents
import AdmissionWatch.Proofs.Text.Search
import AdmissionWatch.Proofs.Dispatch.PolicyEvents
import AdmissionWatch.Proofs.Json.Grammar
import AdmissionWatch.Proofs.Source.PolicyEvents
import AdmissionWatch.Proofs.Json.Record
import AdmissionWatch.Proofs.Audit.Layout
import AdmissionWatch.Proofs.Json.Quoted
import AdmissionWatch.Proofs.Json.Written
import AdmissionWatch.Proofs.Time.Calendar
import AdmissionWatch.Proofs.Time.Reading
import AdmissionWatch.Proofs.Json.Fields
import AdmissionWatch.Proofs.Wire
import AdmissionWatch.Proofs.LogGroup.Course
import AdmissionWatch.Proofs.LogGroup.Reads
import AdmissionWatch.Proofs.Source.AuditLog
import AdmissionWatch.Proofs.LogGroup.LongestPrefix
import AdmissionWatch.Proofs.LogGroup.Pruning
import AdmissionWatch.Proofs.Dedup.Retiming
import AdmissionWatch.Proofs.LogGroup.Retiming
import AdmissionWatch.Proofs.LogGroup.Isolation
import AdmissionWatch.Proofs.LogGroup.Resumption
import AdmissionWatch.Proofs.Text.Occurrence
import AdmissionWatch.Proofs.Detection.MarkerSet
import AdmissionWatch.Proofs.Detection.Denial
import AdmissionWatch.Proofs.Text.Blank
import AdmissionWatch.Proofs.Policy.SinglePolicy
import AdmissionWatch.Proofs.Yaml.Scalar
import AdmissionWatch.Proofs.Yaml.Scanner
import AdmissionWatch.Proofs.Yaml.Node
import AdmissionWatch.Proofs.Yaml.Block
import AdmissionWatch.Proofs.Yaml.Value
import AdmissionWatch.Proofs.Policy.Kyverno
import AdmissionWatch.Proofs.Json.Spelling
import AdmissionWatch.Proofs.Policy.AuditFailures
import AdmissionWatch.Proofs.Policy.ScannedName
import AdmissionWatch.Proofs.Audit.Target
import AdmissionWatch.Proofs.Event.AuditTarget
import AdmissionWatch.Proofs.Event.Action
import AdmissionWatch.Proofs.Time.Shown
import AdmissionWatch.Proofs.Event.Times
import AdmissionWatch.Proofs.Dispatch.Routing
import AdmissionWatch.Proofs.Health.Readiness
import AdmissionWatch.Proofs.LogGroup.Attempts
import AdmissionWatch.Proofs.Time.Span
import AdmissionWatch.Proofs.Settings.Spans
import AdmissionWatch.Proofs.Text.Bytes
import AdmissionWatch.Proofs.Signing
import AdmissionWatch.Proofs.Http.Path
import AdmissionWatch.Proofs.Http.Edge
import AdmissionWatch.Proofs.Http.Parts
import AdmissionWatch.Proofs.Http.AddedSlash
import AdmissionWatch.Proofs.LogGroup.Endpoint
import AdmissionWatch.Proofs.Text.Pieces
import AdmissionWatch.Proofs.LogGroup.Backoff
import AdmissionWatch.Proofs.LogGroup.Refused
import AdmissionWatch.Proofs.Dedup.Changes
import AdmissionWatch.Proofs.Telemetry.Metrics

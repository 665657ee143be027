import TagRetention.Api.Config
import TagRetention.Api.Fault
import TagRetention.Api.Handler
import TagRetention.Api.MediaType
import TagRetention.Api.Message
import TagRetention.Api.Route
import TagRetention.Api.Service
import TagRetention.Catalog
import TagRetention.Client.Call
import TagRetention.Client.Config
import TagRetention.Client.Listing
import TagRetention.Client.LocalService
import TagRetention.Client.MessageKey
import TagRetention.Client.Mutation
import TagRetention.Client.Orchestrator
import TagRetention.Client.Remote
import TagRetention.Client.Request
import TagRetention.Client.Tracker
import TagRetention.Client.Transport
import TagRetention.Fault
import TagRetention.Json.Node
import TagRetention.Json.Printer
import TagRetention.Json.Reader
import TagRetention.Json.Record
import TagRetention.Json.Value
import TagRetention.Launcher
import TagRetention.Launcher.Executor
import TagRetention.Launcher.Journal
import TagRetention.Number.Binary64
import TagRetention.Number.Decimal
import TagRetention.Page
import TagRetention.Policy
import TagRetention.Policy.Check
import TagRetention.Proofs.Json.Same
import TagRetention.Proofs.Rule.Collision
import TagRetention.Proofs.Rule.NormalForm
import TagRetention.Proofs.Text.Trim
import TagRetention.Rule
import TagRetention.Rule.Form
import TagRetention.Rule.Validation
import TagRetention.Run
import TagRetention.Run.Outcome
import TagRetention.Schedule
import TagRetention.Selector
import TagRetention.Selector.Pattern
import TagRetention.Store
import TagRetention.Store.Operation
import TagRetention.Table
import TagRetention.Text.Blank
import TagRetention.Text.Numeral
import TagRetention.Text.Separated
import TagRetention.Time.Calendar
import TagRetention.Time.Duration
import TagRetention.Time.Instant
import TagRetention.Time.Rfc3339
import TagRetention.Wire.Catalog
import TagRetention.Wire.Form
import TagRetention.Wire.Policy
import TagRetention.Wire.Run
import TagRetention.Proofs.Policy.Acceptance
import TagRetention.Proofs.Policy.Duplicates
import TagRetention.Proofs.Client.Draft
import TagRetention.Proofs.Store.Numbered
import TagRetention.Proofs.Store.Invariant
import TagRetention.Proofs.Store.History
import TagRetention.Proofs.Store.Footprint
import TagRetention.Proofs.Api.Paths
import TagRetention.Proofs.Api.Steps
import TagRetention.Proofs.Api.FailedRequest
import TagRetention.Proofs.Api.Effects
import TagRetention.Proofs.Policy.Validity
import TagRetention.Proofs.Api.StoredPolicies
import TagRetention.Proofs.Api.Isolation
import TagRetention.Proofs.Store.TaskHistory
import TagRetention.Proofs.Run.Outcome
import TagRetention.Proofs.Store.RunLifecycle
import TagRetention.Proofs.Client.Endings
import TagRetention.Proofs.Client.LocalAnswers
import TagRetention.Proofs.Client.LocalCopy
import TagRetention.Proofs.Selector.Spacing
import TagRetention.Proofs.Launcher.Selection
import TagRetention.Proofs.Launcher.Targets
import TagRetention.Proofs.Launcher.TypedText
import TagRetention.Proofs.Client.Pause
import TagRetention.Proofs.Client.Shared
import TagRetention.Proofs.Store.Delivery
import TagRetention.Proofs.Client.OneMutation
import TagRetention.Proofs.Client.Ledger
import TagRetention.Proofs.Client.Tracking
import TagRetention.Proofs.Client.RunHistory
import TagRetention.Proofs.Client.TaskPanel
import TagRetention.Proofs.Client.Traffic
import TagRetention.Proofs.Client.Mirror
import TagRetention.Proofs.Client.FailedMutation
import TagRetention.Proofs.Client.OnePolicy
import TagRetention.Proofs.Client.OverlappingLoad
import TagRetention.Proofs.Store.NewTasks
import TagRetention.Proofs.Api.FanOut
import TagRetention.Proofs.Store.Listings
import TagRetention.Proofs.Launcher.Logs
import TagRetention.Proofs.Api.TaskLogs
import TagRetention.Proofs.Text.Numeral
import TagRetention.Proofs.Json.Scalars
import TagRetention.Proofs.Json.Reading
import TagRetention.Proofs.Api.Addresses
import TagRetention.Proofs.Client.Messages
import TagRetention.Proofs.Json.Decoding
import TagRetention.Proofs.Json.Widening
import TagRetention.Proofs.Wire.RoundTrip
import TagRetention.Proofs.Json.Yields
import TagRetention.Proofs.Store.Ranges
import TagRetention.Proofs.Api.ReportedNumbers
import TagRetention.Proofs.Wire.RunRecords
import TagRetention.Proofs.Wire.TooDeep
import TagRetention.Proofs.Client.Replies
import TagRetention.Proofs.Client.RemoteStore
import TagRetention.Proofs.Rule.Validated
import TagRetention.Proofs.Client.Scheduling
import TagRetention.Proofs.Client.Rejections
import TagRetention.Proofs.Json.Equality
import TagRetention.Proofs.Store.Reopening
import TagRetention.Proofs.Api.RunReports
import TagRetention.Proofs.Api.Interleaving
import TagRetention.Proofs.Api.Conduct
import TagRetention.Proofs.Api.FinishedRuns
import TagRetention.Proofs.Selector.Codec
import TagRetention.Proofs.Rule.Exclusion
import TagRetention.Proofs.Rule.Form
import TagRetention.Proofs.Launcher.Coverage
import TagRetention.Proofs.Run.Grouping
import TagRetention.Proofs.Store.Stopping
import TagRetention.Proofs.Store.Deletion
import TagRetention.Proofs.Store.Refusals
import TagRetention.Proofs.Time.Duration
import TagRetention.Proofs.Client.Release
import TagRetention.Proofs.Client.UnderWay
import TagRetention.Proofs.Client.LoadingFlag

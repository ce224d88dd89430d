import Piteka.Api.ActionRequests
import Piteka.Api.ActorRecords
import Piteka.Api.ReadModel
import Piteka.Api.ReadModelPaths
import Piteka.Api.Refusals
import Piteka.Api.WebhookEndpoint
import Piteka.Application.ActionRequest
import Piteka.Application.ActionRequestPaths
import Piteka.Application.Authorization
import Piteka.Application.BundleExport
import Piteka.Application.BundleExportPaths
import Piteka.Application.BundleScenario
import Piteka.Application.ControlledDemo
import Piteka.Application.ControlledDemoPaths
import Piteka.Application.Dispatch
import Piteka.Application.DispatchEffects
import Piteka.Application.DispatchPaths
import Piteka.Application.EventTime
import Piteka.Application.EvidenceFeed
import Piteka.Application.FeedContents
import Piteka.Application.IngestionEffects
import Piteka.Application.IngestionScenario
import Piteka.Application.Observation
import Piteka.Application.Points
import Piteka.Application.ProductionEffects
import Piteka.Application.ReceiptProduction
import Piteka.Application.ReceiptProductionPaths
import Piteka.Application.Reconciliation
import Piteka.Application.ReconciliationEffects
import Piteka.Application.ReconciliationPaths
import Piteka.Application.Scenario
import Piteka.Application.SessionAuthority
import Piteka.Application.StoreFaults
import Piteka.Application.System
import Piteka.Application.Tasks
import Piteka.Application.TerminalDeliveries
import Piteka.Application.ToolBoundary
import Piteka.Application.ToolBoundaryPaths
import Piteka.Application.ToolTransport
import Piteka.Application.UncontestedProduction
import Piteka.Application.WebhookIngestion
import Piteka.Application.WebhookIngestionPaths
import Piteka.Application.WebhookScenario
import Piteka.Calendar.Gregorian
import Piteka.Checks.Guards
import Piteka.Deploy.DeploymentEcho
import Piteka.Deploy.DeploymentEvent
import Piteka.Deploy.WellFormedEvent
import Piteka.Domain.Identity
import Piteka.Domain.Organization
import Piteka.Domain.Session
import Piteka.Feed.Exports
import Piteka.Feed.Server
import Piteka.Files.LocalEvidence
import Piteka.GitHub.AppAdapter
import Piteka.GitHub.AppClient
import Piteka.GitHub.AppToken
import Piteka.GitHub.DeploymentRequest
import Piteka.GitHub.Intent
import Piteka.GitHub.WebhookSignature
import Piteka.Infra.Anchor
import Piteka.Interleaving.Atomic
import Piteka.Interleaving.Expand
import Piteka.Interleaving.Fallible
import Piteka.Interleaving.Fault
import Piteka.Interleaving.Layer
import Piteka.Interleaving.Moment
import Piteka.Interleaving.Program
import Piteka.Interleaving.Run
import Piteka.Interleaving.Schedule
import Piteka.Interleaving.Session
import Piteka.Interleaving.Simulation
import Piteka.Interleaving.Trace
import Piteka.Interleaving.Versioned
import Piteka.Postgres.AuditLog
import Piteka.Postgres.Backends
import Piteka.Postgres.Database
import Piteka.Postgres.Deployment
import Piteka.Postgres.DeploymentPaths
import Piteka.Postgres.DeploymentScenario
import Piteka.Postgres.EvidenceNodes
import Piteka.Postgres.ExecutionAttempts
import Piteka.Postgres.MandateProjections
import Piteka.Postgres.ProtocolObjects
import Piteka.Postgres.ReceiptProjections
import Piteka.Postgres.Records
import Piteka.Postgres.Rows
import Piteka.Postgres.WebhookReceipts
import Piteka.Python.Values
import Piteka.Safety.AppAuthentication
import Piteka.Safety.ApprovedIntent
import Piteka.Safety.AssertedTimes
import Piteka.Safety.AtomicCompletion
import Piteka.Safety.AuditTrail
import Piteka.Safety.BundleEvidence
import Piteka.Safety.CanonicalDigests
import Piteka.Safety.ConsumerValidation
import Piteka.Safety.Deduplication
import Piteka.Safety.DeliveryOrder
import Piteka.Safety.DeploymentContract
import Piteka.Safety.DispatchBoundary
import Piteka.Safety.DispatchOutcomes
import Piteka.Safety.DispatchTiming
import Piteka.Safety.DisplayedTimes
import Piteka.Safety.DistinctIds
import Piteka.Safety.EventOrder
import Piteka.Safety.EvidenceProvenance
import Piteka.Safety.EvidencePuts
import Piteka.Safety.ExclusiveReconciliation
import Piteka.Safety.ExportableReceipts
import Piteka.Safety.FaithfulIndexes
import Piteka.Safety.FaultRecovery
import Piteka.Safety.FeedNumbering
import Piteka.Safety.FeedSnapshots
import Piteka.Safety.FeedStability
import Piteka.Safety.ImmutableObjects
import Piteka.Safety.InsertionOrder
import Piteka.Safety.IntentBinding
import Piteka.Safety.IntentGate
import Piteka.Safety.LineagePaths
import Piteka.Safety.LinearHistory
import Piteka.Safety.MandateAttempt
import Piteka.Safety.MandateChains
import Piteka.Safety.MandateLookups
import Piteka.Safety.ManifestAgreement
import Piteka.Safety.NodeRows
import Piteka.Safety.ObservationCompleteness
import Piteka.Safety.OneReceipt
import Piteka.Safety.PostgresSwaps
import Piteka.Safety.ProviderRequests
import Piteka.Safety.PublishedSchemas
import Piteka.Safety.ReceiptListing
import Piteka.Safety.RecordedActors
import Piteka.Safety.RecordedSuccess
import Piteka.Safety.ReferentialIntegrity
import Piteka.Safety.RenderedRequests
import Piteka.Safety.RenderedText
import Piteka.Safety.RepeatedCalls
import Piteka.Safety.RequestLifecycle
import Piteka.Safety.RetriedIngest
import Piteka.Safety.Revocation
import Piteka.Safety.SessionGrants
import Piteka.Safety.SessionIntegrity
import Piteka.Safety.SessionIssue
import Piteka.Safety.SignatureVerdicts
import Piteka.Safety.SignedBytes
import Piteka.Safety.SingleDispatch
import Piteka.Safety.SingleUseSeal
import Piteka.Safety.SpentMandates
import Piteka.Safety.StableBundles
import Piteka.Safety.StoreRefinement
import Piteka.Safety.Swaps
import Piteka.Safety.TerminalStates
import Piteka.Safety.ToolErrors
import Piteka.Safety.ToolGate
import Piteka.Safety.ToolReplies
import Piteka.Safety.WebhookEnvelopes
import Piteka.Safety.WebhookSecret
import Piteka.Safety.WholeReceipts
import Piteka.Storage.Digest
import Piteka.Storage.EvidenceSteps
import Piteka.Storage.FailFast
import Piteka.Storage.Json
import Piteka.Storage.Ledgers
import Piteka.Storage.Memory
import Piteka.Storage.Methods
import Piteka.Storage.Model
import Piteka.Storage.Paths
import Piteka.Storage.Ports
import Piteka.Storage.Steps
import Piteka.Storage.Unreliable
import Piteka.Table.Collected
import Piteka.Table.Keyed
import Piteka.Table.Ordered
import Piteka.Table.Query
import Piteka.Table.Sorted
import Piteka.Text.Ascii
import Piteka.Text.Base64
import Piteka.Text.Framing
import Piteka.Text.Hex
import Piteka.Text.Like
import Piteka.Text.Markup
import Piteka.Text.Percent
import Piteka.Text.Record
import Piteka.Text.Schema
import Piteka.Text.Separated
import Piteka.Text.Slices
import Piteka.Text.UrlPath
import Piteka.Tuppira.Adapter
import Piteka.Web.PageMarkup
import Piteka.Web.Pages
import Piteka.Web.Templates
import Piteka.Web.Timestamps

import MigrationPlatform.Foundation.GuardedRuns
import MigrationPlatform.Delivery.Operation
import MigrationPlatform.Delivery.OperationLedger
import MigrationPlatform.Delivery.CallEndpoint
import MigrationPlatform.Delivery.AttemptProtocol
import MigrationPlatform.Delivery.AttemptInvariants
import MigrationPlatform.Delivery.ManualDelivery
import MigrationPlatform.Delivery.ChangedPayload
import MigrationPlatform.Delivery.StepRequest
import MigrationPlatform.Delivery.RetentionWindow
import MigrationPlatform.Delivery.LookupDelivery
import MigrationPlatform.Delivery.LookupVerdict
import MigrationPlatform.Delivery.OperatorOverride
import MigrationPlatform.Delivery.RecordedSuccess
import MigrationPlatform.Delivery.LedgerIntegrity
import MigrationPlatform.Workflow.CallActivity
import MigrationPlatform.Workflow.RowExecution
import MigrationPlatform.Connectors.Ingest
import MigrationPlatform.Connectors.DecodedValues
import MigrationPlatform.Connectors.FileConnectors
import MigrationPlatform.Workflow.Checkpoint
import MigrationPlatform.Workflow.MigrationChain
import MigrationPlatform.Workflow.IngestOnce
import MigrationPlatform.Workflow.FileMigration
import MigrationPlatform.Lifecycle.JobControl
import MigrationPlatform.Foundation.KeyedTable
import MigrationPlatform.Workflow.RowStore
import MigrationPlatform.Lifecycle.JobOutcome
import MigrationPlatform.Workflow.RowRetry
import MigrationPlatform.Lifecycle.RetryWorkflows
import MigrationPlatform.Connectors.WatchedSource
import MigrationPlatform.Workflow.PauseChain
import MigrationPlatform.Connectors.Salesforce
import MigrationPlatform.Lifecycle.HistoryBudget
import MigrationPlatform.Workflow.RowRuns
import MigrationPlatform.Workflow.ChainResume
import MigrationPlatform.Workflow.RowResult
import MigrationPlatform.Batch.Manifest
import MigrationPlatform.Batch.StageDag
import MigrationPlatform.Batch.DagInvariant
import MigrationPlatform.Batch.DagRuns
import MigrationPlatform.Batch.BatchStatus
import MigrationPlatform.Security.Secrets
import MigrationPlatform.Template.Render
import MigrationPlatform.Template.PyEvaluation
import MigrationPlatform.Template.StepReferences
import MigrationPlatform.Connectors.SourceAuthorization
import MigrationPlatform.Watch.SftpListing
import MigrationPlatform.Watch.WatchRuns
import MigrationPlatform.Lifecycle.StoredChain
import MigrationPlatform.Batch.StageOutcome
import MigrationPlatform.License.Client
import MigrationPlatform.License.Denial
import MigrationPlatform.License.Revocation
import MigrationPlatform.License.StoreAdoption
import MigrationPlatform.License.TrialExpiry
import MigrationPlatform.Batch.ArchiveNames
import MigrationPlatform.Foundation.DelimitedText
import MigrationPlatform.Sampling.FileSampler
import MigrationPlatform.Sampling.SampledIngest
import MigrationPlatform.Schedules.Intervals
import MigrationPlatform.Schedules.ScheduleStore
import MigrationPlatform.Schedules.ScheduleSync
import MigrationPlatform.Foundation.PrefixBlocks
import MigrationPlatform.Foundation.Base64
import MigrationPlatform.Foundation.Sha256
import MigrationPlatform.Foundation.ReplaceAll
import MigrationPlatform.Foundation.HoleTemplates
import MigrationPlatform.Foundation.Utf8
import MigrationPlatform.Security.AddressFilters
import MigrationPlatform.Security.MasterKey
import MigrationPlatform.Template.UrlTemplate
import MigrationPlatform.Template.DryRun
import MigrationPlatform.Foundation.Trimming
import MigrationPlatform.Connectors.ConnectorLocations
import MigrationPlatform.Foundation.HttpRedirects
import MigrationPlatform.Delivery.HttpCalls
import MigrationPlatform.Foundation.JsonText
import MigrationPlatform.Delivery.StoredAnswers
import MigrationPlatform.Foundation.DocumentBindings
import MigrationPlatform.Template.SchemaBindings
import MigrationPlatform.Foundation.EditFrames
import MigrationPlatform.Template.Designer
import MigrationPlatform.Template.DesignerLoss
import MigrationPlatform.Foundation.CursorPaging
import MigrationPlatform.Lifecycle.FailedRowsPaging
import MigrationPlatform.Foundation.Redelivery
import MigrationPlatform.Workflow.OutcomeRedelivery
import MigrationPlatform.Workflow.PersistedRows
import MigrationPlatform.Workflow.RowReport
import MigrationPlatform.Foundation.JsonValues
import MigrationPlatform.Foundation.Decimals
import MigrationPlatform.Workflow.RequestKeys
import MigrationPlatform.Foundation.BinaryRounding
import MigrationPlatform.Foundation.ShortestDecimal
import MigrationPlatform.Foundation.NumberText
import MigrationPlatform.Connectors.JsonNumbers
import MigrationPlatform.Workflow.ExactIntegers
import MigrationPlatform.Template.NumberRendering
import MigrationPlatform.Foundation.JsonStream
import MigrationPlatform.Connectors.WholeArrays
import MigrationPlatform.Delivery.ReplayedAnswers
import MigrationPlatform.Foundation.NamedChains
import MigrationPlatform.Template.MappingGraph
import MigrationPlatform.Template.LoadedGraph
import MigrationPlatform.Template.EditedGraph
import MigrationPlatform.Connectors.CsvCells
import MigrationPlatform.Batch.ManifestGraph
import MigrationPlatform.Sampling.RecordContent
import MigrationPlatform.Connectors.StagedKeys
import MigrationPlatform.Batch.UnpackArchive
import MigrationPlatform.Foundation.NumberValue
import MigrationPlatform.Watch.CursorAdvance
import MigrationPlatform.Lifecycle.ReconcilePass
import MigrationPlatform.Workflow.ResultsExport
import MigrationPlatform.Foundation.OuterBraces
import MigrationPlatform.Sampling.TruncatedArray
import MigrationPlatform.Foundation.ClauseText
import MigrationPlatform.Connectors.SalesforceCursor
import MigrationPlatform.License.AdoptionOrder
import MigrationPlatform.Security.InstallationId
import MigrationPlatform.Foundation.ByteOffsets
import MigrationPlatform.Suggest.ExtractJson
import MigrationPlatform.Security.SpecFetch
import MigrationPlatform.Suggest.SpecOperations
import MigrationPlatform.Foundation.Patterns
import MigrationPlatform.Suggest.Redaction
import MigrationPlatform.Suggest.RedactedText
import MigrationPlatform.Suggest.RedactedMails
import MigrationPlatform.Suggest.QuietMarks
import MigrationPlatform.Suggest.RedactedRows
import MigrationPlatform.Foundation.BoundedPipes
import MigrationPlatform.Transform.Exchange
import MigrationPlatform.Transform.ExchangeSafety
import MigrationPlatform.Workflow.ResultsText
import MigrationPlatform.Lifecycle.StoredFile

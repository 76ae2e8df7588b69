import DocumentAi.Lib.Prog
import DocumentAi.Lib.Pool
import DocumentAi.Lib.Protocol
import DocumentAi.Lib.Dynamo
import DocumentAi.Lib.Chars
import DocumentAi.Lib.Quote
import DocumentAi.Constants.Processing
import DocumentAi.Schemas.DocumentMetadata
import DocumentAi.Dtos
import DocumentAi.Config.Env
import DocumentAi.Services
import DocumentAi.Utils.Ddb
import DocumentAi.Utils.BatchOperations
import DocumentAi.Utils.WriteLimit
import DocumentAi.Utils.S3
import DocumentAi.Utils.Documents
import DocumentAi.Utils.Bda
import DocumentAi.Utils.BlurDetection
import DocumentAi.Utils.Preclassification
import DocumentAi.Utils.ImageOptimization
import DocumentAi.Utils.ExtractionRules
import DocumentAi.Classifiers.ApiResponse
import DocumentAi.Classifiers.DocumentClassification
import DocumentAi.Pipeline.DocumentLifecycle
import DocumentAi.Pipeline.Textract
import DocumentAi.Pipeline.OcrMapping
import DocumentAi.Pipeline.Bda
import DocumentAi.Jobs.DocumentProcessor
import DocumentAi.Jobs.BdaResultProcessor
import DocumentAi.Jobs.DocumentReaper
import DocumentAi.Utils.Uploads
import DocumentAi.Routers.Documents
import DocumentAi.Routers.Batch
import DocumentAi.Routers.DocumentReads
import DocumentAi.System
import DocumentAi.Footprint.Basic
import DocumentAi.Footprint.Writes
import DocumentAi.Footprint.Documents
import DocumentAi.Footprint.Requests
import DocumentAi.Footprint.Exec
import DocumentAi.Runs.TerminalStatus
import DocumentAi.Runs.TerminalWrites
import DocumentAi.Admin.Services
import DocumentAi.Admin.JwtAuth
import DocumentAi.Footprint.Ai
import DocumentAi.Footprint.StaleReads
import DocumentAi.Runs.ExtractionClaim
import DocumentAi.Lib.Sequential
import DocumentAi.Runs.AiConsent
import DocumentAi.Runs.BatchUpload
import DocumentAi.Runs.DeletedReads
import DocumentAi.Runs.BdaJob
import DocumentAi.Admin.Auth
import DocumentAi.Admin.Tenants
import DocumentAi.Admin.ApiKeys
import DocumentAi.Admin.Users
import DocumentAi.Admin.System
import DocumentAi.Admin.Exec
import DocumentAi.Admin.Runs.RoleTenant
import DocumentAi.Admin.Runs.TenantIsolation
import DocumentAi.Admin.Runs.TenantKeys
import DocumentAi.Admin.Runs.KeyRevocation
import DocumentAi.Admin.Runs.KeyLockout
import DocumentAi.Lib.Base64
import DocumentAi.Lib.Json
import DocumentAi.Lib.JsonText
import DocumentAi.Lib.JsonCut
import DocumentAi.Utils.Pagination
import DocumentAi.Utils.BaseReadonlyTable
import DocumentAi.Admin.Documents
import DocumentAi.Metrics.Athena
import DocumentAi.Lib.Counter
import DocumentAi.Metrics.Processor
import DocumentAi.Metrics.Stats
import DocumentAi.Metrics.Partition
import DocumentAi.Lib.Dict
import DocumentAi.Metrics.Usage
import DocumentAi.Metrics.UsageCount
import DocumentAi.Metrics.TokenTotals
import DocumentAi.Runs.CodeSurvives
import DocumentAi.Runs.StoredAnswer
import DocumentAi.Runs.MetricsOutcome
import DocumentAi.Runs.RebuiltAnswer
import DocumentAi.Runs.RequiredFields
import DocumentAi.Readers.BdaFields
import DocumentAi.Readers.ExplainabilityInfo
import DocumentAi.Lib.Mean
import DocumentAi.Pipeline.AverageConfidence
import DocumentAi.Admin.Runs.TenantLimits
import DocumentAi.Utils.BaseCrudTable
import DocumentAi.Runs.CrudTables
import DocumentAi.Runs.UploadFacts
import DocumentAi.Runs.OriginalFileName
import DocumentAi.Runs.ReadsBack
import DocumentAi.Lib.Among
import DocumentAi.Lib.Paging
import DocumentAi.Lib.Percent
import DocumentAi.Services.Ddb
import DocumentAi.Extractors.LayoutText
import DocumentAi.Lib.Nest
import DocumentAi.Utils.ResponseBuilder
import DocumentAi.Utils.Zip
import DocumentAi.Utils.CropImage
import DocumentAi.Utils.CropReport
import DocumentAi.Lib.Substitution
import DocumentAi.Logging.Pii
import DocumentAi.Logging.PiiScan
import DocumentAi.Logging.PiiMasking
import DocumentAi.Logging.MaskedRecord
import DocumentAi.Lib.Extend
import DocumentAi.Utils.DocumentBuild
import DocumentAi.Runs.PageUpload
import DocumentAi.Runs.BlurVerdict
import DocumentAi.Extractors.CitationBox
import DocumentAi.Lib.Expression
import DocumentAi.Utils.UpdateText
import DocumentAi.Utils.WellFormedUpdates
import DocumentAi.Lib.Csv
import DocumentAi.Utils.CsvResponse
import DocumentAi.Utils.GeometryPages
import DocumentAi.Lib.Decimal
import DocumentAi.Utils.MonthlyMetrics
import DocumentAi.Runs.TokenAccount
import DocumentAi.Runs.PollAnswer
import DocumentAi.Extractors.BlueprintModel
import DocumentAi.Utils.ObjectNames
import DocumentAi.Utils.JsonParsing
import DocumentAi.Lib.Quota
import DocumentAi.Runs.WriteQuota
import DocumentAi.Runs.BatchVerdict
import DocumentAi.Runs.BatchLife
import DocumentAi.Runs.BuildStages
import DocumentAi.Runs.BuildLock
import DocumentAi.Runs.BuildDeletion
import DocumentAi.Runs.BuildSubmit
import DocumentAi.Lib.TextRange
import DocumentAi.Utils.IsoTime
import DocumentAi.Admin.AuditLog
import DocumentAi.Admin.Runs.AuditTrail
import DocumentAi.Lib.TtlCache
import DocumentAi.Utils.Ssm
import DocumentAi.Runs.FlagRollout
import DocumentAi.Utils.DocumentCategories

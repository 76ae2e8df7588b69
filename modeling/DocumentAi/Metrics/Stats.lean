import DocumentAi.Lib.Chars
import DocumentAi.Lib.Counter
import DocumentAi.Lib.Dict
import DocumentAi.Metrics.Athena
import DocumentAi.Metrics.Processor
import DocumentAi.Utils.Ddb

/-!
# Statistics of a day and of several days

| here | there |
| --- | --- |
| `Stats`, `Stats.init`  | `_initialize_stats` (`jobs/metrics_aggregator/main.py:161-198`); `DailyStats` has the date as well |
| `processRecord`        | `_process_record` (`:201-321`); the label under which each histogram counts a record is `Histogram.label` |
| `finalizeTiming`       | `_finalize_timing` (`:87-99`) |
| `aggregateRecords`     | `_aggregate_records` (`:61-84`) |
| `buildSummary`         | `build_summary` (`utils/metrics.py:144-250`), on stats that have every key |
| `getExtension`         | `FileValidation.get_extension` with `unknown="unknown"` (`constants/file_validation.py:119-137`) |
| `Numbers`              | **number boundary**: `int`, `float`, `round(x, 2)` and `fromisoformat` on the texts of the query, in exact arithmetic |
-/

namespace DocumentAi.Metrics

structure Numbers where
  int           : String → Option Int
  float         : String → Option Rat
  round         : Rat → Rat
  fromisoformat : String → Option DateTime

/-! ## Labels -/

/-- `str.isspace`. -/
def isSpaceChar (c : Char) : Bool :=
  (9 ≤ c.toNat && c.toNat ≤ 13) || (28 ≤ c.toNat && c.toNat ≤ 32) ||
    [0x85, 0xA0, 0x1680, 0x2028, 0x2029, 0x202F, 0x205F, 0x3000].contains c.toNat ||
    (0x2000 ≤ c.toNat && c.toNat ≤ 0x200A)

def stripSpaces (s : List Char) : List Char :=
  ((s.dropWhile isSpaceChar).reverse.dropWhile isSpaceChar).reverse

/-- `str.lower`, as far as comparisons with ASCII words go: the Kelvin sign becomes `k`. -/
def lower (s : List Char) : List Char :=
  s.map fun c => if c.toNat = 0x212A then 'k' else c.toLower

def contentTypeToExt : List (String × String) :=
  [("application/pdf", "pdf"), ("application/msword", "doc"),
    ("application/vnd.openxmlformats-officedocument.wordprocessingml.document", "docx"),
    ("image/jpeg", "jpg"), ("image/jpg", "jpg"), ("image/png", "png"), ("image/tiff", "tiff"),
    ("image/bmp", "bmp"), ("image/heic", "heic"), ("image/heif", "heif"), ("image/webp", "webp"),
    ("image/gif", "gif")]

def getExtension (contentType : String) : String :=
  let ct := String.ofList (stripSpaces (Chars.partition ';' (lower contentType.toList)).1)
  (contentTypeToExt.lookup ct).getD "unknown"

/-- `MetricsDisplayValues.is_legacy_unset`. -/
def isLegacyUnset (value : String) : Bool :=
  ["unknown", "not specified", "null", ""].contains (String.ofList (lower (stripSpaces value.toList)))

/-- `ResponseCodes.is_document_type_identified`. -/
def isDocumentTypeIdentified (code : String) : Bool :=
  [ResponseCode.success, .missingFields, .miscategorized, .lowExtractionConfidence].any (·.value == code)

def responseCodeLabel (r : QueryRow) : String := (truthy (r.lookup "response_code")).getD "null"

def userCategoryLabel (r : QueryRow) : String :=
  let userCategory := (truthy (r.lookup "user_provided_document_category")).getD ""
  if isLegacyUnset userCategory then "not specified" else userCategory

inductive Histogram where
  | status | classification | responseCode | fileType | userCategory | uploadMethod | hour
deriving DecidableEq

def Histogram.label (num : Numbers) : Histogram → QueryRow → Option String
  | status, r         => some ((r.lookup "process_status").getD "unknown")
  | classification, r => some ((truthy (r.lookup "bda_matched_document_class")).getD "null")
  | responseCode, r   => some (responseCodeLabel r)
  | fileType, r       => some (getExtension ((truthy (r.lookup "content_type")).getD ""))
  | userCategory, r   => some (userCategoryLabel r)
  | uploadMethod, r   => some ((truthy (r.lookup "upload_method")).getD "unknown")
  | hour, r           =>
    ((truthy (r.lookup "created_at")).bind num.fromisoformat).map fun dt => toString dt.hour

/-! ## Stats -/

structure Timing where
  avg   : Rat := 0
  sum   : Rat := 0
  count : Nat := 0

structure UsageStats where
  totalFileSizeBytes       : Int := 0
  totalPages               : Int := 0
  totalBdaPages            : Int := 0
  totalBedrockInputTokens  : Int := 0
  totalBedrockOutputTokens : Int := 0

structure Stats where
  totalRecords               : Nat := 0
  totalBdaInvocations        : Nat := 0
  totalTextractExtractions   : Nat := 0
  totalExtractionInvocations : Nat := 0
  totalDocumentsRecognized   : Nat := 0
  byStatus                   : Counter String := []
  byClassification           : Counter String := []
  byResponseCode             : Counter String := []
  byFileType                 : Counter String := []
  byUserCategory             : Counter String := []
  byUploadMethod             : Counter String := []
  byHour                     : Counter String := []
  totalProcessingTime        : Timing := {}
  bdaProcessingTime          : Timing := {}
  bdaWaitTime                : Timing := {}
  usageStats                 : UsageStats := {}

def Stats.init : Stats := {}

/-- The stats of one day, with its date. -/
structure DailyStats extends Stats where
  date : String

/-! ## One record -/

/-- `d[k] = d.get(k, 0) + 1`, when there is a label. -/
def countLabel (label : Option String) (c : Counter String) : Counter String :=
  match label with
  | none   => c
  | some k => c.add k 1

/-- The number that a column adds; an empty or unreadable one adds nothing. -/
def columnInt (num : Numbers) (value : Option String) : Int :=
  ((truthy value).bind num.int).getD 0

def Timing.add (num : Numbers) (value : Option String) (t : Timing) : Timing :=
  match (truthy value).bind num.float with
  | none   => t
  | some x => { t with sum := t.sum + x, count := t.count + 1 }

/-- `record.get(column) or record.get(legacy)`. -/
def timeOf (r : QueryRow) (column legacy : String) : Option String :=
  (truthy (r.lookup column)).or (r.lookup legacy)

def hasBdaInvocation (r : QueryRow) : Bool := (truthy (r.lookup "bda_invocation_arn")).isSome

def isTextract (r : QueryRow) : Bool := r.lookup "extraction_method" == some "textract"

def addUsage (num : Numbers) (r : QueryRow) (u : UsageStats) : UsageStats where
  totalFileSizeBytes       := u.totalFileSizeBytes + columnInt num (r.lookup "file_size_bytes")
  totalPages               := u.totalPages + columnInt num (r.lookup "pages_detected")
  totalBdaPages            := u.totalBdaPages + columnInt num (r.lookup "pages_sent_to_bda")
  totalBedrockInputTokens  :=
    u.totalBedrockInputTokens + columnInt num (r.lookup "preclassification_input_tokens")
      + columnInt num (r.lookup "crop_input_tokens")
  totalBedrockOutputTokens :=
    u.totalBedrockOutputTokens + columnInt num (r.lookup "preclassification_output_tokens")
      + columnInt num (r.lookup "crop_output_tokens")

def processRecord (num : Numbers) (s : Stats) (r : QueryRow) : Stats where
  totalRecords               := s.totalRecords + 1
  totalBdaInvocations        := s.totalBdaInvocations + if hasBdaInvocation r then 1 else 0
  totalTextractExtractions   := s.totalTextractExtractions + if isTextract r then 1 else 0
  totalExtractionInvocations :=
    s.totalExtractionInvocations + if hasBdaInvocation r || isTextract r then 1 else 0
  totalDocumentsRecognized   :=
    s.totalDocumentsRecognized + if isDocumentTypeIdentified (responseCodeLabel r) then 1 else 0
  byStatus            := countLabel (Histogram.status.label num r) s.byStatus
  byClassification    := countLabel (Histogram.classification.label num r) s.byClassification
  byResponseCode      := countLabel (Histogram.responseCode.label num r) s.byResponseCode
  byFileType          := countLabel (Histogram.fileType.label num r) s.byFileType
  byUserCategory      := countLabel (Histogram.userCategory.label num r) s.byUserCategory
  byUploadMethod      := countLabel (Histogram.uploadMethod.label num r) s.byUploadMethod
  byHour              := countLabel (Histogram.hour.label num r) s.byHour
  totalProcessingTime := s.totalProcessingTime.add num (r.lookup "total_processing_time_seconds")
  bdaProcessingTime   :=
    s.bdaProcessingTime.add num
      (timeOf r "extraction_processing_time_seconds" "bda_processing_time_seconds")
  bdaWaitTime         :=
    s.bdaWaitTime.add num (timeOf r "extraction_wait_time_seconds" "bda_wait_time_seconds")
  usageStats          := addUsage num r s.usageStats

/-! ## A day -/

def Timing.finalize (num : Numbers) (t : Timing) : Timing :=
  if 0 < t.count then { t with avg := num.round (t.sum / t.count) } else t

def finalizeTiming (num : Numbers) (s : Stats) : Stats :=
  { s with
    totalProcessingTime := s.totalProcessingTime.finalize num
    bdaProcessingTime   := s.bdaProcessingTime.finalize num
    bdaWaitTime         := s.bdaWaitTime.finalize num }

/-- `record.get("tenant_id") or "__unknown__"`. -/
def tenantKey (r : QueryRow) : String := (truthy (r.lookup "tenant_id")).getD "__unknown__"

def aggregateRecords (num : Numbers) (records : List QueryRow) (targetDate : String) :
    List (String × DailyStats) :=
  let globalStats := records.foldl (processRecord num) .init
  let byTenant := Dict.groupFold tenantKey Stats.init (processRecord num) records
  Dict.assign "__global__" ⟨finalizeTiming num globalStats, targetDate⟩
    (byTenant.map fun e => (e.1, ⟨finalizeTiming num e.2, targetDate⟩))

/-! ## Several days -/

def Timing.merge (t u : Timing) : Timing where
  avg   := t.avg
  sum   := t.sum + u.sum
  count := t.count + u.count

def UsageStats.merge (t u : UsageStats) : UsageStats where
  totalFileSizeBytes       := t.totalFileSizeBytes + u.totalFileSizeBytes
  totalPages               := t.totalPages + u.totalPages
  totalBdaPages            := t.totalBdaPages + u.totalBdaPages
  totalBedrockInputTokens  := t.totalBedrockInputTokens + u.totalBedrockInputTokens
  totalBedrockOutputTokens := t.totalBedrockOutputTokens + u.totalBedrockOutputTokens

/-- The bodies of the two loops over `stats_list`. -/
def Stats.merge (s t : Stats) : Stats where
  totalRecords               := s.totalRecords + t.totalRecords
  totalBdaInvocations        := s.totalBdaInvocations + t.totalBdaInvocations
  totalTextractExtractions   := s.totalTextractExtractions + t.totalTextractExtractions
  totalExtractionInvocations := s.totalExtractionInvocations + t.totalExtractionInvocations
  totalDocumentsRecognized   := s.totalDocumentsRecognized + t.totalDocumentsRecognized
  byStatus                   := s.byStatus.merge t.byStatus
  byClassification           := s.byClassification.merge t.byClassification
  byResponseCode             := s.byResponseCode.merge t.byResponseCode
  byFileType                 := s.byFileType.merge t.byFileType
  byUserCategory             := s.byUserCategory.merge t.byUserCategory
  byUploadMethod             := s.byUploadMethod.merge t.byUploadMethod
  byHour                     := s.byHour.merge t.byHour
  totalProcessingTime        := s.totalProcessingTime.merge t.totalProcessingTime
  bdaProcessingTime          := s.bdaProcessingTime.merge t.bdaProcessingTime
  bdaWaitTime                := s.bdaWaitTime.merge t.bdaWaitTime
  usageStats                 := s.usageStats.merge t.usageStats

def buildSummary (num : Numbers) (statsList : List Stats) : Stats :=
  finalizeTiming num (statsList.foldl Stats.merge .init)

end DocumentAi.Metrics

import DocumentAi.Lib.Dynamo
import DocumentAi.Schemas.Extraction

/-!
# Document metadata: attributes of a record and the values they hold

| here | there |
| --- | --- |
| `DocumentMetadata`      | the attribute names of `schemas/document_metadata.py` that the modelled functions read or write |
| `DocumentMetadata.Val`  | the value each attribute holds; a JSON string is the value it serialises |
| `InternalApiResponse`   | `dtos/processing.py:53-61` |
| `V1ApiResponse`         | the dict `build_v1_api_response` returns (`classifiers/api_response.py:301-383`) |
| `Timestamp`             | `datetime.now(UTC).isoformat()`, as microseconds since the epoch |

Wall-clock durations that are only measured around a call and stored for reporting
(`*DurationSeconds` of the pre-extraction steps) are left out: no modelled function reads them.
-/

namespace DocumentAi

/-- Microseconds since 1970-01-01T00:00:00 UTC; `isoformat` is one-to-one on these. -/
abbrev Timestamp : Type := Nat

/-- A calendar day, as days since 1970-01-01 (`strftime("%Y-%m-%d")`). -/
abbrev Day : Type := Nat

abbrev Bytes : Type := List UInt8

/-- The date part of an ISO timestamp (`strip_time`, `utils/dates.py:61-70`). -/
def stripTime (t : Timestamp) : Day := t / 86400000000

structure InternalApiResponse where
  validationPassed      : Bool
  documentCategory      : Option String
  matchedDocumentClass  : Option String
  responseCode          : ResponseCode
  responseMessage       : String

/-- `V1JobStatus` (`constants/api.py:9-22`). -/
inductive V1JobStatus where
  | aiConsentDeclined | completed | conversionFailed | deleted | failed | processing
deriving DecidableEq, Repr

/-- One entry of a response's `fields`; only those of a per-method response have no display name. -/
structure FieldEntry where
  confidence  : Rat
  value       : Option String
  displayName : Option String
  geometry    : Option Geometry
  fieldType   : Option String

structure V1ApiResponse where
  jobId                          : Option String := none
  jobStatus                      : V1JobStatus
  createdAt                      : Option Timestamp := none
  completedAt                    : Option Timestamp := none
  totalProcessingTimeSeconds     : Option Int := none
  matchedDocumentClass           : Option String := none
  userProvidedDocumentCategory   : Option String := none
  message                        : Option String := none
  fields                         : Option (List (String × FieldEntry)) := none
  missingRequiredFieldList       : Option (List String) := none
  responseCode                   : Option ResponseCode := none
  responseMessage                : Option String := none
  inferredDocumentType           : Option String := none
  belowExtractionConfidenceFloor : Option Bool := none
  additionalInfo                 : Option String := none
  error                          : Option String := none

/-- `durationsByMethod.<method>`. -/
structure DurationEntry where
  extractionDurationSeconds : Rat
  processingStartedAt       : Option Timestamp
  processingCompletedAt     : Option Timestamp

/-- `tokensByModel.<model>#<reason>`. -/
structure TokenEntry where
  inputTokens  : Nat
  outputTokens : Nat

/-- Field confidences: one single-entry dict for each field (`field_confidence_scores`). -/
abbrev FieldConfidences : Type := List (String × Rat)

/-- Quadrant statistics of the blur check (`documentWordQuadrantStats`). -/
structure QuadrantStats where
  wordCount            : Nat
  avgConfidence        : Rat
  lowConfidencePercent : Rat
  skipped              : Bool := false
  isTextDetectedByLlm  : Option Bool := none

inductive DocumentMetadata where
  -- core fields
  | originalFileName | originalFileNameLower | userProvidedDocumentCategory | processStatus
  | deletionType | bdaInvocationArn | bdaInvocationId | bdaProjectArn | bdaOutputS3Uri
  | errorMessage | responseJson | responseCode | processedDate | jobId | systemDocumentId | traceId
  | batchId | externalDocumentId | externalSystemId | aiConsentFlag | uploadMethod | uploadSource
  | tenantId | apiKeyName | isDemo | isTestRun | v1ApiResponseJson | createdAt | updatedAt | ttl
  -- preclassification fields
  | preclassificationCategory | preclassificationCategoryMatch | preclassificationConfidence
  | preclassificationInputTokens | preclassificationOutputTokens | preclassificationModelId
  | preclassificationBlueprintMatchedType | preclassificationBlueprintMatchConfidence
  | preclassificationBlueprintMatchInputTokens | preclassificationBlueprintMatchOutputTokens
  | preclassificationBlueprintMatchCategory | preclassificationMaxDocumentCountOnPage
  | preclassificationMaxDocumentCountOnPageReason | preclassificationHasMultipageInconsistency
  | preclassificationHasMultipageInconsistencyReason
  -- image optimization fields
  | cropBoundingBox | cropRetainedPercentage | cropInputTokens | cropOutputTokens | cropModelId
  | grayscaleConversion | processedFileSizeBytes
  -- performance tracking
  | documentProcessorStartedAt | bdaStartedAt | bdaCompletedAt | extractionStartedAt
  | extractionCompletedAt | extractionProcessingTimeSeconds | extractionWaitTimeSeconds
  | resultProcessorStartedAt | totalProcessingTimeSeconds | isDocumentProcessorColdStart
  | pagesSentToBda | bdaInvokeRetryCount
  -- file metadata
  | fileSizeBytes | contentType | pagesDetected | isDocumentBlurry | isPasswordProtected
  | blurAnalysisFailed | ocrAvgWordConfidence | documentWordCount | wasBlurLlmInvoked
  | isDocumentBlurryReason | documentWordQuadrantStats
  -- operational intelligence, bda processing info
  | additionalInfo | fieldConfidenceScores | usedCategorySpecificProject | bdaRegionUsed
  | matchedBlueprintName | matchedBlueprintConfidence | bdaMatchedDocumentClass
  | matchedBlueprintFieldEmptyList | matchedBlueprintFieldMissingGeometryList
  | matchedBlueprintFieldBelowThresholdList | matchedBlueprintFieldCount
  | matchedBlueprintFieldCountNotEmpty | matchedBlueprintFieldNotEmptyAvgConfidence
  | belowExtractionConfidenceFloor | extractionRulesConfigured | missingRequiredFieldList
  | requiredFieldList | extractionConfidenceThreshold
  | usedDefaultExtractionConfidenceThreshold | extractionMethod
  -- compare runs and per-method maps
  | isCompare | apiResponsesByMethod | durationsByMethod | tokensByModel
  | traceparent | processingPercentage | processingAssignedValue
deriving DecidableEq, Repr

namespace DocumentMetadata

def Val : DocumentMetadata → Type
  | processStatus => ProcessStatus
  | deletionType => DeletionType
  | responseJson => InternalApiResponse
  | responseCode => ResponseCode
  | v1ApiResponseJson => V1ApiResponse
  | uploadMethod => UploadMethod
  | extractionMethod => ExtractMethod
  | aiConsentFlag | isDemo | isTestRun | preclassificationCategoryMatch
  | preclassificationHasMultipageInconsistency | grayscaleConversion
  | isDocumentProcessorColdStart | isDocumentBlurry | isPasswordProtected | blurAnalysisFailed
  | wasBlurLlmInvoked | usedCategorySpecificProject | belowExtractionConfidenceFloor
  | extractionRulesConfigured | usedDefaultExtractionConfidenceThreshold | isCompare => Bool
  | createdAt | updatedAt | documentProcessorStartedAt | bdaStartedAt | bdaCompletedAt
  | extractionStartedAt | extractionCompletedAt | resultProcessorStartedAt => Timestamp
  | processedDate => Day
  | ttl | preclassificationInputTokens | preclassificationOutputTokens
  | preclassificationBlueprintMatchInputTokens | preclassificationBlueprintMatchOutputTokens
  | preclassificationMaxDocumentCountOnPage | cropInputTokens | cropOutputTokens
  | processedFileSizeBytes | pagesSentToBda | bdaInvokeRetryCount | fileSizeBytes | pagesDetected
  | documentWordCount | matchedBlueprintFieldCount | matchedBlueprintFieldCountNotEmpty => Nat
  | extractionProcessingTimeSeconds | totalProcessingTimeSeconds => Int
  | extractionWaitTimeSeconds => Option Int
  | preclassificationConfidence | preclassificationBlueprintMatchConfidence
  | cropRetainedPercentage | ocrAvgWordConfidence | matchedBlueprintConfidence
  | matchedBlueprintFieldNotEmptyAvgConfidence | extractionConfidenceThreshold
  | processingPercentage | processingAssignedValue => Rat
  | cropBoundingBox => Rat × Rat × Rat × Rat
  | documentWordQuadrantStats => List (String × QuadrantStats)
  | fieldConfidenceScores => FieldConfidences
  | matchedBlueprintFieldEmptyList | matchedBlueprintFieldMissingGeometryList
  | matchedBlueprintFieldBelowThresholdList | missingRequiredFieldList
  | requiredFieldList => List String
  | apiResponsesByMethod => List (String × V1ApiResponse)
  | durationsByMethod => List (String × DurationEntry)
  | tokensByModel => List (String × TokenEntry)
  | _ => String

/-- The document-metadata table; its partition key `fileName` is the key of an item. -/
abbrev schema : Dynamo.Schema := ⟨DocumentMetadata, Val⟩

end DocumentMetadata

abbrev Record : Type := Dynamo.Item DocumentMetadata.schema

/-- `SET m.#k = :v`: insert or replace one entry of a map attribute. -/
def setEntry {α : Type} (k : String) (v : α) (m : List (String × α)) : List (String × α) :=
  (k, v) :: m.filter fun e => e.1 != k

namespace Record

abbrev status (r : Record) : Option ProcessStatus := r .processStatus
abbrev jobId (r : Record) : Option String := r .jobId
abbrev originalFileName (r : Record) : Option String := r .originalFileName
abbrev batchId (r : Record) : Option String := r .batchId
abbrev tenantId (r : Record) : Option String := r .tenantId
abbrev bdaInvocationId (r : Record) : Option String := r .bdaInvocationId
abbrev bdaInvocationArn (r : Record) : Option String := r .bdaInvocationArn
abbrev createdAt (r : Record) : Option Timestamp := r .createdAt
abbrev aiConsentFlag (r : Record) : Option Bool := r .aiConsentFlag
abbrev isCompare (r : Record) : Option Bool := r .isCompare
abbrev v1ApiResponseJson (r : Record) : Option V1ApiResponse := r .v1ApiResponseJson
abbrev belowExtractionConfidenceFloor (r : Record) : Option Bool :=
  r .belowExtractionConfidenceFloor
abbrev fieldEmptyList (r : Record) : Option (List String) := r .matchedBlueprintFieldEmptyList
abbrev fieldMissingGeometryList (r : Record) : Option (List String) :=
  r .matchedBlueprintFieldMissingGeometryList
abbrev extractionStartedAt (r : Record) : Option Timestamp := r .extractionStartedAt

/-- `processStatus` is present and `ProcessStatus.is_classified`. -/
def Classified (r : Record) : Prop := ∃ s, r.status = some s ∧ s.isClassified = true

instance (r : Record) : Decidable r.Classified :=
  match h : r.status with
  | none => isFalse fun ⟨_, hs, _⟩ => by simp [h] at hs
  | some s =>
    if hc : s.isClassified = true then isTrue ⟨s, h, hc⟩
    else isFalse fun ⟨s', hs, hc'⟩ => by
      obtain rfl : s = s' := by simpa [h] using hs
      exact hc hc'

end Record

end DocumentAi

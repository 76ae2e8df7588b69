import DocumentAi.Schemas.DocumentMetadata

/-!
# Data transfer objects

| here | there |
| --- | --- |
| `ReaderResult`, `ExtractionResult`, `ClassificationData` | `dtos/processing.py:14-26`, `dtos/extraction.py`, `dtos/classification.py:10-46` |
| `BedrockClassificationResult`, `PreclassificationMatchResult` | `dtos/classification.py:49-79` |
| `PreClassificationDdbFields`, `InitialDdbRecord`, `UpdateDdbRecord` | `dtos/ddb.py` |
| `DocumentRecord`      | `models/document_record.py` |
| `CropResult`, `OptimizationResult`, `OcrMappingMessage`, `ProcessorResult`, `PreExtractionResult` | `dtos/processing.py` |
| `BlurResult`          | `utils/blur_detection.py:30-41` |

`none` stands for a field that was not set as well as for one set to `None`: `_apply_ddb_fields`
(`utils/ddb.py:490-521`) skips both.
-/

namespace DocumentAi

/-- `ReaderResult`: what a reader makes of a stored extraction output. -/
structure ReaderResult where
  fieldConfidenceMapList : FieldConfidences := []
  fieldValues            : List (String × Option String) := []
  fieldGeometry          : List (String × Geometry × Option String) := []
  emptyFields            : List String := []
  fieldsMissingGeometry  : List String := []
  confidenceScores       : List Rat := []

/-- The members of a field that the BDA reader reads. Of a value, whether it is there, whether it is
null, and its text. -/
structure FieldData where
  confidence : Option Rat := none
  value      : Option (Option String) := none
  geometry   : Option (Geometry × Option String) := none

/- The explainability information of a BDA result, told apart as the reader does: an object with a
confidence or a value is a field, whatever else it has, any other object a group of members.
`Readers.ExplainabilityInfo` starts from the objects as they are stored. -/
mutual

inductive FieldNode where
  | field (data : FieldData)
  | group (members : FieldNodes)
  | list (items : FieldItems)
  | other

inductive FieldNodes where
  | nil
  | cons (name : String) (node : FieldNode) (rest : FieldNodes)

inductive FieldItems where
  | nil
  | cons (node : FieldNode) (rest : FieldItems)

end

/-- The parts of a BDA result JSON that `processors/bda.py` and `extractors/bda.py` read. -/
structure BdaResult where
  matchedBlueprintName       : Option String
  matchedBlueprintConfidence : Option Rat := none
  documentClass              : Option String := none
  explainabilityInfo         : Option (List FieldNode) := none
  /-- `get_text_from_standard_blueprint`. -/
  text                       : Option String := none

/-- The body of an S3 object: document bytes, or one of the JSON bodies the pipeline exchanges. -/
inductive Body where
  | raw (bytes : Bytes)
  | extractionOutput (output : ExtractionOutput)
  | ocrBlocks (blocks : List Block)
  | jobMetadata (outputPath : Option String)
  | bdaResult (result : BdaResult)

structure ExtractionResult where
  documentType                : Option String
  body                        : Option Body := none
  fieldConfidenceScores       : FieldConfidences := []
  processingStartedAt         : Option Timestamp := none
  processingCompletedAt       : Option Timestamp := none
  processingDurationSeconds   : Option Rat := none
  fieldEmptyList              : List String := []
  fieldMissingGeometryList    : List String := []
  matchedBlueprintName        : Option String := none
  matchedBlueprintConfidence  : Option Rat := none

structure ClassificationData where
  bdaOutputS3Uri             : Option String := none
  matchedDocumentClass       : Option String := none
  matchedBlueprintName       : Option String := none
  matchedBlueprintConfidence : Option Rat := none
  fieldConfidenceScores      : Option FieldConfidences := none
  fieldBelowThresholdList    : Option (List String) := none
  fieldEmptyList             : Option (List String) := none
  fieldMissingGeometryList   : Option (List String) := none
  additionalInfo             : Option String := none

def ClassificationData.fromExtractionResult (result : ExtractionResult)
    (outputUri : Option String := none) (additionalInfo : Option String := none) :
    ClassificationData :=
  { bdaOutputS3Uri := outputUri
    matchedDocumentClass := result.documentType
    matchedBlueprintName := result.matchedBlueprintName
    matchedBlueprintConfidence := result.matchedBlueprintConfidence
    fieldConfidenceScores := some result.fieldConfidenceScores
    fieldEmptyList := some result.fieldEmptyList
    fieldMissingGeometryList := some result.fieldMissingGeometryList
    additionalInfo := additionalInfo }

structure BedrockClassificationResult where
  documentType                     : String
  confidence                       : Rat
  maxDocumentCountOnPage           : Nat
  maxDocumentCountOnPageReason     : String := ""
  hasMultipageInconsistency        : Bool := false
  hasMultipageInconsistencyReason  : String := ""
  categoryMatch                    : Option Bool := none
  isIdentityDocument               : Bool := false
  inputTokens                      : Option Nat := none
  outputTokens                     : Option Nat := none
  modelId                          : Option String := none

structure PreclassificationMatchResult where
  matchedDocumentType : Option String := none
  confidence          : Rat := 0
  category            : Option String := none
  inputTokens         : Option Nat := none
  outputTokens        : Option Nat := none

structure PreClassificationDdbFields where
  documentType                    : Option String := none
  confidence                      : Option Rat := none
  inputTokens                     : Option Nat := none
  outputTokens                    : Option Nat := none
  modelId                         : Option String := none
  categoryMatch                   : Option Bool := none
  blueprintMatchedDocumentType    : Option String := none
  blueprintMatchConfidence        : Option Rat := none
  blueprintMatchInputTokens       : Option Nat := none
  blueprintMatchOutputTokens      : Option Nat := none
  blueprintMatchCategory          : Option String := none
  maxDocumentCountOnPage          : Option Nat := none
  maxDocumentCountOnPageReason    : Option String := none
  hasMultipageInconsistency       : Option Bool := none
  hasMultipageInconsistencyReason : Option String := none

def PreClassificationDdbFields.fromResults (classification : BedrockClassificationResult)
    (blueprintMatch : Option PreclassificationMatchResult) : PreClassificationDdbFields :=
  { documentType := some classification.documentType
    confidence := some classification.confidence
    categoryMatch := classification.categoryMatch
    inputTokens := classification.inputTokens
    outputTokens := classification.outputTokens
    modelId := classification.modelId
    maxDocumentCountOnPage := some classification.maxDocumentCountOnPage
    maxDocumentCountOnPageReason := some classification.maxDocumentCountOnPageReason
    hasMultipageInconsistency := some classification.hasMultipageInconsistency
    hasMultipageInconsistencyReason := some classification.hasMultipageInconsistencyReason
    blueprintMatchedDocumentType := blueprintMatch.bind (·.matchedDocumentType)
    blueprintMatchConfidence := blueprintMatch.map (·.confidence)
    blueprintMatchInputTokens := blueprintMatch.bind (·.inputTokens)
    blueprintMatchOutputTokens := blueprintMatch.bind (·.outputTokens)
    blueprintMatchCategory := blueprintMatch.bind (·.category) }

structure UpdateDdbRecord where
  objectKey                        : String
  status                           : ProcessStatus
  internalApiResponse              : Option InternalApiResponse := none
  data                             : Option ClassificationData := none
  bdaInvocationArn                 : Option String := none
  bdaProjectArnUsed                : Option String := none
  usedCategorySpecificProject      : Bool := false
  errorMessage                     : Option String := none
  belowExtractionConfidenceFloor   : Bool := false
  extractionRulesConfigured        : Option Bool := none
  missingRequiredFieldList         : Option (List String) := none
  requiredFieldList                : Option (List String) := none
  appliedExtractionConfidenceFloor : Option Rat := none
  usedDefaultConfidenceFloor       : Option Bool := none
  pagesSentToBda                   : Option Nat := none
  resultProcessorStartedAt         : Option Timestamp := none
  bdaInvokeRetryCount              : Option Nat := none
  extractionMethod                 : ExtractMethod := .bda

structure InitialDdbRecord where
  objectKey                    : String
  originalFileName             : String
  processStatus                : ProcessStatus := .notStarted
  userProvidedDocumentCategory : Option String := none
  internalApiResponse          : Option InternalApiResponse := none
  fileSizeBytes                : Option Nat := none
  contentType                  : Option String := none
  pagesDetected                : Option Nat := none
  jobId                        : Option String := none
  systemDocumentId             : Option String := none
  traceId                      : Option String := none
  batchId                      : Option String := none
  isPasswordProtected          : Bool := false
  isDocumentBlurry             : Bool := false
  blurAnalysisFailed           : Bool := false
  ocrAvgWordConfidence         : Option Rat := none
  documentWordCount            : Option Nat := none
  blurLlmChecked               : Bool := false
  blurReasonText               : Option String := none
  blurQuadrantStats            : Option (List (String × QuadrantStats)) := none
  preClassification            : Option PreClassificationDdbFields := none
  externalDocumentId           : Option String := none
  externalSystemId             : Option String := none
  aiConsentFlag                : Bool := true
  uploadMethod                 : Option UploadMethod := none
  uploadSource                 : Option String := none
  tenantId                     : Option String := none
  apiKeyName                   : Option String := none
  isDemo                       : Option Bool := none
  isTestRun                    : Option Bool := none
  isCompare                    : Option Bool := none
  ttlDays                      : Option Nat := none
  documentProcessorStartedAt   : Option Timestamp := none
  isDocumentProcessorColdStart : Option Bool := none
  processingPercentage         : Option Rat := none
  processingAssignedValue      : Option Rat := none
  traceparent                  : Option String := none

/-- The initial tracking record an upload route creates. -/
structure DocumentRecord where
  ddbKey             : String
  originalFileName   : String
  jobId              : String
  systemDocumentId   : String
  uploadMethod       : UploadMethod
  uploadSource       : Option String := none
  tenantId           : String
  apiKeyName         : String
  processStatus      : ProcessStatus := .notStarted
  category           : Option String := none
  traceId            : Option String := none
  batchId            : Option String := none
  contentType        : Option String := none
  fileSizeBytes      : Option Nat := none
  externalDocumentId : Option String := none
  externalSystemId   : Option String := none
  aiConsentFlag      : Option Bool := none
  isDemo             : Bool := false
  isTestRun          : Bool := false
  isCompare          : Bool := false
  ttlDays            : Option Nat := none

structure BlurResult where
  isBlurry             : Bool
  isNotDocument        : Bool := false
  analysisFailed       : Bool := false
  avgConfidence        : Option Rat := none
  wordCount            : Option Nat := none
  lowConfidencePercent : Option Rat := none
  llmChecked           : Bool := false
  quadrantStats        : Option (List (String × QuadrantStats)) := none
  blurReasonText       : Option String := none

abbrev BoundingBox : Type := Rat × Rat × Rat × Rat

/-- Pixels of an image: `left` and `top` are in it, `right` and `bottom` are not. -/
structure PixelRect where
  left   : Int
  top    : Int
  right  : Int
  bottom : Int
deriving DecidableEq

structure CropResult where
  cropped            : Bool := false
  boundingBox        : Option BoundingBox := none
  retainedPercentage : Option Rat := none
  inputTokens        : Option Nat := none
  outputTokens       : Option Nat := none
  modelId            : Option String := none

/-- `BboxResult` (`utils/bbox_detection.py`): the detected box, when valid, and its costs. -/
structure BboxResult where
  bbox       : Option BoundingBox := none
  cropResult : CropResult := {}

structure OptimizationResult where
  cropResult       : CropResult := {}
  grayscaleApplied : Bool := false
  fileSizeBytes    : Option Nat := none
  tooLarge         : Bool := false
  failed           : Bool := false

structure OcrMappingMessage where
  ddbKey       : String
  documentType : String
  ocrBlocksUri : String
  tenantId     : Option String
  batchId      : Option String := none

structure ProcessorResult where
  objectKey                : String
  tenantId                 : Option String := none
  batchId                  : Option String := none
  resultProcessorStartedAt : Option Timestamp := none
  extractionResult         : Option ExtractionResult := none
  outputUri                : Option String := none
  classificationData       : Option ClassificationData := none
  status                   : Option ProcessStatus := none

/-- `PreExtractionResult`; `bboxFuture` is the value the future resolves to. -/
structure PreExtractionResult where
  bboxFuture         : Option BboxResult
  isIdentityDocument : Bool := false

end DocumentAi

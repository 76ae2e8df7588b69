/-!
# Processing constants: statuses, response codes, upload and extraction methods

| here | there |
| --- | --- |
| `ProcessStatus`, `isClassified`, … | `ProcessStatus` (`constants/processing.py:49-145`) |
| `BatchStatus`, `UploadMethod`, `ExtractMethod`, `DeletionType`, `LlmUsageReason` | the `StrEnum`s of the same names |
| `BdaJobStatus`  | `BdaJobStatus` (`constants/processing.py:4-21`) |
| `ResponseCode`  | `ResponseCodes` (`utils/response_codes.py:1-45`), the code string by `value` |
-/

namespace DocumentAi

inductive BdaJobStatus where
  | created | inProgress | success | serviceError | clientError
deriving DecidableEq, Repr

namespace BdaJobStatus

def isRunning : BdaJobStatus → Bool
  | created | inProgress => true
  | _ => false

def isCompleted (s : BdaJobStatus) : Bool := s == success

def isFailed : BdaJobStatus → Bool
  | serviceError | clientError => true
  | _ => false

end BdaJobStatus

inductive DeletionType where
  | soft | hard
deriving DecidableEq, Repr

inductive ProcessStatus where
  | aiConsentDeclined
  | blurryDocumentDetected
  | conversionFailed
  | deleted
  | excludedPerPreclassification
  | failed
  | multipleDocumentsInMultipage
  | multipleDocumentsOnSinglePage
  | noCustomBlueprintMatched
  | noDocumentDetected
  | notImplemented
  | notStarted
  | passwordProtected
  | pendingImageOptimization
  | pendingUpload
  | blueprintDisabled
  | processingExcluded
  | started
  | success
  | timedOut
deriving DecidableEq, Repr

namespace ProcessStatus

def value : ProcessStatus → String
  | aiConsentDeclined             => "ai_consent_declined"
  | blurryDocumentDetected        => "blurry_document_detected"
  | conversionFailed              => "conversion_failed"
  | deleted                       => "deleted"
  | excludedPerPreclassification  => "excluded_per_preclassification"
  | failed                        => "failed"
  | multipleDocumentsInMultipage  => "multiple_documents_in_multipage"
  | multipleDocumentsOnSinglePage => "multiple_documents_single_page"
  | noCustomBlueprintMatched      => "no_custom_blueprint_matched"
  | noDocumentDetected            => "no_document_detected"
  | notImplemented                => "not_implemented"
  | notStarted                    => "not_started"
  | passwordProtected             => "password_protected"
  | pendingImageOptimization      => "pending_image_optimization"
  | pendingUpload                 => "pending_upload"
  | blueprintDisabled             => "blueprint_disabled"
  | processingExcluded            => "processing_excluded"
  | started                       => "started"
  | success                       => "success"
  | timedOut                      => "timed_out"

def isCompleted (s : ProcessStatus) : Bool :=
  [aiConsentDeclined, blueprintDisabled, conversionFailed, processingExcluded, success, failed,
    noDocumentDetected, noCustomBlueprintMatched, timedOut].contains s

def isClassified (s : ProcessStatus) : Bool :=
  [aiConsentDeclined, blueprintDisabled, blurryDocumentDetected, conversionFailed, deleted, failed,
    multipleDocumentsInMultipage, multipleDocumentsOnSinglePage, noCustomBlueprintMatched,
    noDocumentDetected, notImplemented, excludedPerPreclassification, passwordProtected,
    processingExcluded, success, timedOut].contains s

def isPendingExtraction (s : ProcessStatus) : Bool :=
  [pendingImageOptimization, notStarted].contains s

def isAwaitingProcessing (s : ProcessStatus) : Bool :=
  [notStarted, pendingUpload].contains s

def isSuccessful (s : ProcessStatus) : Bool :=
  [success, noCustomBlueprintMatched, notImplemented, excludedPerPreclassification].contains s

/-- "Human-readable message for a document with no final result yet." -/
def pendingMessage (s : ProcessStatus) : String :=
  if s.isAwaitingProcessing then "Awaiting processing" else "Processing in progress"

def nonTerminal : List ProcessStatus :=
  [started, notStarted, pendingUpload, pendingImageOptimization]

/-- `is_classified` and `non_terminal` are kept as two lists; they are complements. -/
theorem mem_nonTerminal (s : ProcessStatus) : s ∈ nonTerminal ↔ s.isClassified = false := by
  cases s <;> decide

theorem isClassified_of_isCompleted {s : ProcessStatus} (h : s.isCompleted = true) :
    s.isClassified = true := by
  cases s <;> first | rfl | exact absurd h (by decide)

theorem not_isClassified_of_isPendingExtraction {s : ProcessStatus}
    (h : s.isPendingExtraction = true) : s.isClassified = false := by
  cases s <;> first | rfl | exact absurd h (by decide)

theorem not_isClassified_of_isAwaitingProcessing {s : ProcessStatus}
    (h : s.isAwaitingProcessing = true) : s.isClassified = false := by
  cases s <;> first | rfl | exact absurd h (by decide)

end ProcessStatus

inductive BatchStatus where
  | uploading | processing | completed | partial_ | failed
deriving DecidableEq, Repr

inductive UploadMethod where
  | direct | presigned | batch | batchZip | build
deriving DecidableEq, Repr

inductive ExtractMethod where
  | bda | textract | ocrMapping
deriving DecidableEq, Repr

/-- The string under which a method keys `apiResponsesByMethod` and `durationsByMethod`. -/
def ExtractMethod.value : ExtractMethod → String
  | bda        => "bda"
  | textract   => "textract"
  | ocrMapping => "ocr-mapping"

inductive LlmUsageReason where
  | preclassification | blueprintMatch | ocrMapping | cropDetection
deriving DecidableEq, Repr

def LlmUsageReason.value : LlmUsageReason → String
  | preclassification => "preclassification"
  | blueprintMatch    => "blueprintMatch"
  | ocrMapping        => "ocrMapping"
  | cropDetection     => "cropDetection"

inductive ResponseCode where
  | success
  | noBlueprintMatched
  | aiConsentDeclined
  | processingExcluded
  | skippedPerPreclassification
  | blueprintDisabled
  | missingFields
  | miscategorized
  | noDocumentDetected
  | blurryDocumentDetected
  | lowExtractionConfidence
  | passwordProtected
  | multipleDocumentsOnSinglePage
  | multipleDocumentsInMultipage
  | internalProcessingError
deriving DecidableEq, Repr

namespace ResponseCode

def value : ResponseCode → String
  | success                       => "000"
  | noBlueprintMatched            => "002"
  | aiConsentDeclined             => "003"
  | processingExcluded            => "004"
  | skippedPerPreclassification   => "005"
  | blueprintDisabled             => "006"
  | missingFields                 => "101"
  | miscategorized                => "102"
  | noDocumentDetected            => "103"
  | blurryDocumentDetected        => "104"
  | lowExtractionConfidence       => "105"
  | passwordProtected             => "106"
  | multipleDocumentsOnSinglePage => "400"
  | multipleDocumentsInMultipage  => "401"
  | internalProcessingError       => "999"

def getMessage : ResponseCode → String
  | success                       => "Document validation passed"
  | processingExcluded            => "Document not chosen for extraction"
  | skippedPerPreclassification   => "Skipped per preclassification"
  | blueprintDisabled             => "Tenant disabled blueprint"
  | noBlueprintMatched            => "No matching blueprint found"
  | aiConsentDeclined             => "Document not processed - AI consent not provided"
  | missingFields                 => "Missing fields"
  | miscategorized                => "Document category mismatch"
  | lowExtractionConfidence       => "Average field confidence below tenant threshold"
  | passwordProtected             => "Password protected document"
  | noDocumentDetected            => "No document detected"
  | blurryDocumentDetected        => "Document is blurry"
  | multipleDocumentsOnSinglePage => "Multiple documents detected on single page"
  | multipleDocumentsInMultipage  => "Pages are not continuations of a single document instance"
  | internalProcessingError       => "Internal processing error"

/-- `is_success_response_code`: the 0xx codes. -/
def isSuccessResponseCode (c : ResponseCode) : Bool := c.value.toList.head? == some '0'

end ResponseCode

end DocumentAi

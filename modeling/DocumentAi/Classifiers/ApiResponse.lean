import DocumentAi.Lib.Dict
import DocumentAi.Utils.ExtractionRules

/-!
# The v1 API response of a document

| here | there |
| --- | --- |
| `terminalStatusResponses`    | `_TERMINAL_STATUS_RESPONSES` (`classifiers/api_response.py:20-90`) |
| `buildFieldMap`              | `_build_field_map` (`classifiers/api_response.py:93-119`) |
| `resolveResponseCode`        | `_resolve_response_code` (`classifiers/api_response.py:173-201`) |
| `buildV1ApiResponse`         | `build_v1_api_response` (`classifiers/api_response.py:301-383`) |
| `finalizeV1Response`         | `finalize_v1_response` (`classifiers/api_response.py:282-298`) |
| `writeExtractMethodResponse` | `write_extract_method_response` (`classifiers/api_response.py:204-279`) |
| `getInternalApiResponse`     | `get_internal_api_response` (`utils/response_builder.py:33-64`) |
-/

namespace DocumentAi

/-- `get_user_provided_document_category` (`utils/ddb.py:340-350`). -/
def getUserProvidedDocumentCategory (objectKey : String) : Prog (Option String) := do
  match ← getDdbRecord objectKey with
  | none   => pure none
  | some r => pure (r .userProvidedDocumentCategory : Option String)

/-- The given category, else the record's. -/
def resolveCategory (objectKey : String) (given : Option String) : Prog (Option String) :=
  match truthy given with
  | some c => pure (some c)
  | none   => getUserProvidedDocumentCategory objectKey

def getInternalApiResponse (objectKey : String) (responseCode : ResponseCode)
    (matchedDocumentClass : Option String)
    (userProvidedDocumentCategory : Option String := none) : Prog InternalApiResponse := do
  let category ← resolveCategory objectKey userProvidedDocumentCategory
  pure
    { validationPassed := responseCode.isSuccessResponseCode
      documentCategory := category
      matchedDocumentClass
      responseCode
      responseMessage := responseCode.getMessage }

/-! ## Terminal statuses -/

structure TerminalResponse where
  jobStatus    : V1JobStatus
  message      : String
  fields       : Option (List (String × FieldEntry)) := none
  error        : Option String := none
  responseCode : Option ResponseCode

def terminalStatusResponses : ProcessStatus → Option TerminalResponse
  | .noCustomBlueprintMatched => some
    { jobStatus := .completed, message := "No matching blueprint found", fields := some []
      responseCode := some .noBlueprintMatched }
  | .failed => some
    { jobStatus := .failed, message := "Processing failed", error := some "Processing failed"
      responseCode := some .internalProcessingError }
  | .noDocumentDetected => some
    { jobStatus := .completed, message := "Unable to extract meaningful document content"
      responseCode := some .noDocumentDetected }
  | .blurryDocumentDetected => some
    { jobStatus := .completed, message := "Document is blurry"
      responseCode := some .blurryDocumentDetected }
  | .aiConsentDeclined => some
    { jobStatus := .aiConsentDeclined
      message := "Document not processed - AI consent not provided"
      responseCode := some .aiConsentDeclined }
  | .deleted => some
    { jobStatus := .deleted, message := "Document has been deleted", responseCode := none }
  | .conversionFailed => some
    { jobStatus := .conversionFailed, message := "Image format conversion failed"
      responseCode := some .internalProcessingError }
  | .passwordProtected => some
    { jobStatus := .completed, message := "Document type not supported"
      responseCode := some .passwordProtected }
  | .multipleDocumentsOnSinglePage => some
    { jobStatus := .completed, message := "Document type not supported"
      responseCode := some .multipleDocumentsOnSinglePage }
  | .multipleDocumentsInMultipage => some
    { jobStatus := .completed, message := "Document type not supported"
      responseCode := some .multipleDocumentsInMultipage }
  | .processingExcluded => some
    { jobStatus := .completed, message := "Document not chosen for extraction"
      responseCode := some .processingExcluded }
  | _ => none

/-- A status `build_v1_api_response` answers with something other than "processing". -/
def ProcessStatus.hasTerminalAnswer (s : ProcessStatus) : Bool :=
  s == .success || (terminalStatusResponses s).isSome

/-- Four classified statuses have no entry in the table. -/
theorem hasTerminalAnswer_iff (s : ProcessStatus) :
    s.hasTerminalAnswer = true ↔ s.isClassified = true ∧ s ≠ .timedOut ∧ s ≠ .blueprintDisabled ∧
      s ≠ .excludedPerPreclassification ∧ s ≠ .notImplemented := by
  cases s <;> decide

theorem terminalStatusResponses_jobStatus {s : ProcessStatus} {t : TerminalResponse}
    (h : terminalStatusResponses s = some t) : t.jobStatus ≠ .processing := by
  cases s <;> simp only [terminalStatusResponses, Option.some.injEq, reduceCtorEq] at h <;>
    subst h <;> simp

def resolveResponseCode (status : ProcessStatus) (r : Record) (missingRequired : List String) :
    Option ResponseCode × Bool :=
  let categoryMatch : Option Bool := r .preclassificationCategoryMatch
  if status = .success then
    let belowFloor := r.belowExtractionConfidenceFloor.getD false
    if missingRequired ≠ [] then (some .missingFields, belowFloor)
    else if categoryMatch = some false then (some .miscategorized, belowFloor)
    else if belowFloor then (some .lowExtractionConfidence, belowFloor)
    else (some .success, belowFloor)
  else if status = .noCustomBlueprintMatched ∧ categoryMatch = some false then
    (some .miscategorized, false)
  else ((terminalStatusResponses status).bind (·.responseCode), false)

/-! ## Fields -/

/-- `round(x, 2)`. -/
def round2 (x : Rat) : Rat := roundHalfEven (x.num * 100) x.den / 100

def fieldEntry (env : EnvConfig) (result : ReaderResult) (includeExtractedData : Bool)
    (includeBoundingBox : Bool) (documentType : Option String) (name : String)
    (confidence : Rat) : FieldEntry :=
  let geo := if includeBoundingBox then result.fieldGeometry.lookup name else none
  { confidence := round2 confidence
    value := if includeExtractedData then (result.fieldValues.lookup name).join
      else some "<redacted>"
    displayName := some (env.libs.fieldLabel documentType name)
    geometry := geo.map (·.1)
    fieldType := geo.bind fun g => truthy g.2 }

/-- A dictionary: of a name that comes twice, the last entry. -/
def buildFieldMap (env : EnvConfig) (result : ReaderResult) (includeExtractedData : Bool)
    (includeBoundingBox : Bool) (documentType : Option String) : List (String × FieldEntry) :=
  result.fieldConfidenceMapList.foldl (fun fields (name, confidence) =>
    Dict.assign name
      (fieldEntry env result includeExtractedData includeBoundingBox documentType name confidence)
      fields) []

def extractFieldValues (env : EnvConfig) (r : Record) (includeExtractedData : Bool)
    (includeBoundingBox : Bool) (documentType : Option String) :
    Prog (List (String × FieldEntry)) := do
  let result ← readOutput env r includeExtractedData
  pure (buildFieldMap env result includeExtractedData includeBoundingBox documentType)

/-- `_apply_extraction_rules`: exceptions are logged and leave the fields as they are. -/
def applyRulesOrKeep (env : EnvConfig) (r : Record) (fields : List (String × FieldEntry)) :
    Prog (List (String × FieldEntry) × List String) := do
  match truthy r.tenantId, truthy (r .bdaMatchedDocumentClass) with
  | some tenantId, some documentType =>
    if fields = [] then pure (fields, [])
    else
      let missing : List String :=
        if env.flags.includeMissingGeoWithMissingFields then
          r.fieldMissingGeometryList.getD [] ++ r.fieldEmptyList.getD []
        else []
      try
        let result ← applyExtractionRules env tenantId documentType fields missing
        pure (result.fields, result.missingRequiredFieldList)
      catch _ => pure (fields, [])
  | _, _ => pure (fields, [])

/-! ## Building and writing the response -/

/-- The part of the response that depends on the record alone. -/
def baseResponse (r : Record) : V1ApiResponse :=
  { jobId := r.jobId
    jobStatus := .processing
    createdAt := r.createdAt
    completedAt := (r .extractionCompletedAt : Option Timestamp).or (r .bdaCompletedAt)
    totalProcessingTimeSeconds := (r .totalProcessingTimeSeconds : Option Int).filter (· ≠ 0)
    matchedDocumentClass := truthy (r .bdaMatchedDocumentClass)
    userProvidedDocumentCategory := truthy (r .userProvidedDocumentCategory) }

def terminalResponse (r : Record) (status : ProcessStatus) (t : TerminalResponse)
    (additionalInfo errorMessage : Option String) : V1ApiResponse :=
  let code := (resolveResponseCode status r []).1.or t.responseCode
  { baseResponse r with
    jobStatus := t.jobStatus
    message := some t.message
    fields := t.fields
    responseCode := code
    responseMessage := code.map (·.getMessage)
    additionalInfo := truthy additionalInfo
    error := if status = .failed then (truthy errorMessage).or t.error else t.error }

def successResponse (r : Record) (fields : List (String × FieldEntry))
    (missingRequired : List String) : V1ApiResponse :=
  let (code, belowFloor) := resolveResponseCode .success r missingRequired
  { baseResponse r with
    jobStatus := .completed
    message := some "Document processed successfully"
    fields := some fields
    missingRequiredFieldList := if missingRequired = [] then none else some missingRequired
    responseCode := code
    responseMessage := code.map (·.getMessage)
    inferredDocumentType := (r .preclassificationCategory : Option String)
    belowExtractionConfidenceFloor := if belowFloor then some true else none }

def buildV1ApiResponse (env : EnvConfig) (objectKey : String) (status : ProcessStatus)
    (data : Option ClassificationData := none) (errorMessage : Option String := none)
    (includeExtractedData : Bool := false) (includeBoundingBox : Bool := false) :
    Prog V1ApiResponse := do
  match ← getDdbRecord objectKey with
  | none   => throw (.valueError ("DDB record not found for file: " ++ objectKey))
  | some r =>
    if status = .success then do
      let fields ← extractFieldValues env r includeExtractedData includeBoundingBox
        (r .bdaMatchedDocumentClass : Option String)
      let (fields, missingRequired) ← applyRulesOrKeep env r fields
      pure (successResponse r fields missingRequired)
    else
      match terminalStatusResponses status with
      | some t => pure (terminalResponse r status t (data.bind (·.additionalInfo)) errorMessage)
      | none   => pure { baseResponse r with message := some "Document processing in progress" }

def finalizeV1Response (env : EnvConfig) (objectKey : String) (status : ProcessStatus)
    (data : Option ClassificationData := none) (errorMessage : Option String := none) :
    Prog Unit := do
  let response ← buildV1ApiResponse env objectKey status data errorMessage
  executeDdbUpdate objectKey
    (.set .v1ApiResponseJson response :: setOpt .responseCode response.responseCode)

/-- The fields of a stored per-method response. -/
def methodFields (result : ReaderResult) : List (String × FieldEntry) :=
  result.fieldConfidenceMapList.foldl (fun fields (name, confidence) =>
    Dict.assign name
      { confidence := round2 confidence
        value := (result.fieldValues.lookup name).join
        displayName := none
        geometry := (result.fieldGeometry.lookup name).map (·.1)
        fieldType := none } fields) []

/-- The fields read back from the stored output of a successful extraction. -/
def storedFields (env : EnvConfig) (objectKey : String) (status : ProcessStatus)
    (method : ExtractMethod) (result : Option ExtractionResult) (data : Option ClassificationData) :
    Prog (List (String × FieldEntry)) :=
  if status = .success ∧ result.isSome then do
    let r ← getDdbRecord objectKey
    let reader ← readOutput env (r.getD fun _ => none) true (data.bind (·.bdaOutputS3Uri))
      (some method)
    pure (methodFields reader)
  else pure []

def durationEntry (result : ExtractionResult) (seconds : Rat) : DurationEntry :=
  { extractionDurationSeconds := seconds
    processingStartedAt := result.processingStartedAt
    processingCompletedAt := result.processingCompletedAt }

def writeExtractMethodResponse (env : EnvConfig) (objectKey : String) (status : ProcessStatus)
    (method : ExtractMethod) (result : Option ExtractionResult)
    (data : Option ClassificationData) (errorMessage : Option String) : Prog Unit := do
  let v1 ← buildV1ApiResponse env objectKey status data errorMessage
  let fields ← storedFields env objectKey status method result data
  executeDdbUpdate objectKey
    [.setPath .apiResponsesByMethod (setEntry method.value { v1 with fields := some fields })]
  match result with
  | none        => pure ()
  | some result =>
    match result.processingDurationSeconds with
    | none         => pure ()
    | some seconds =>
      executeDdbUpdate objectKey
        [.setPath .durationsByMethod (setEntry method.value (durationEntry result seconds))]

end DocumentAi

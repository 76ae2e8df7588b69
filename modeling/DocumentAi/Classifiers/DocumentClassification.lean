import DocumentAi.Classifiers.ApiResponse
import DocumentAi.Utils.BatchOperations

/-!
# Terminal classification of a document

| here | there |
| --- | --- |
| `writeTerminalStatus` | `_write_terminal_status` (`classifiers/document_classification.py:34-84`) |
| `classifyWith`        | the common shape of the `classify_as_*` functions: the internal response, then the terminal write |
| `classifyAs…`         | the functions of the same name (`classifiers/document_classification.py:87-329`) |
| `classifyExtractionResult` | `classify_extraction_result` (`classifiers/document_classification.py:332-384`) |
-/

namespace DocumentAi

/-- The conditional status write; `false` when the record was already terminal. -/
def writeStatusUnlessTerminal (env : EnvConfig) (record : UpdateDdbRecord) : Prog Bool := do
  try
    updateDdb env record (some nonTerminalCondition)
    pure true
  catch e =>
    if e = .clientError .conditionalCheckFailedException then pure false else throw e

def writeMethodResponse (env : EnvConfig) (record : UpdateDdbRecord)
    (result : Option ExtractionResult) : Option ExtractMethod → Prog Unit
  | none        => pure ()
  | some method =>
    writeExtractMethodResponse env record.objectKey record.status method result record.data
      record.errorMessage

/-- "Write a terminal status to DDB and increment the batch counter if the write landed." -/
def writeTerminalStatus (env : EnvConfig) (record : UpdateDdbRecord) (batchId : Option String)
    (result : Option ExtractionResult := none) (method : Option ExtractMethod := none) :
    Prog Unit :=
  if method = some .ocrMapping then writeMethodResponse env record result method
  else do
    let applied ← writeStatusUnlessTerminal env record
    if applied then do
      finalizeV1Response env record.objectKey record.status record.data record.errorMessage
      incrementIfBatch batchId
      writeMethodResponse env record result method

/-- The status, response code and method a `classify_as_*` function fixes. -/
structure Verdict where
  status : ProcessStatus
  code   : ResponseCode
  method : Option ExtractMethod := none

def classifyWith (env : EnvConfig) (v : Verdict) (objectKey : String)
    (data : Option ClassificationData) (batchId : Option String)
    (errorMessage : Option String := none)
    (resultProcessorStartedAt : Option Timestamp := none) : Prog Unit := do
  let response ← getInternalApiResponse objectKey v.code none
  writeTerminalStatus env
    { objectKey
      status := v.status
      internalApiResponse := some response
      errorMessage
      data
      resultProcessorStartedAt }
    batchId none v.method

def classifyAsFailed (env : EnvConfig) (objectKey errorMessage : String)
    (data : ClassificationData) (batchId : Option String)
    (resultProcessorStartedAt : Option Timestamp := none) : Prog Unit :=
  classifyWith env ⟨.failed, .internalProcessingError, none⟩ objectKey (some data) batchId
    (some errorMessage) resultProcessorStartedAt

/-- Stores `SUCCESS`, not `NOT_IMPLEMENTED` (`document_classification.py:168`). -/
def classifyAsNotImplemented (env : EnvConfig) (objectKey : String) (data : ClassificationData)
    (batchId : Option String) : Prog Unit :=
  classifyWith env ⟨.success, .noBlueprintMatched, none⟩ objectKey (some data) batchId

def classifyAsNoDocumentDetected (env : EnvConfig) (objectKey : String) (data : ClassificationData)
    (batchId : Option String) (resultProcessorStartedAt : Option Timestamp := none)
    (method : ExtractMethod := .bda) : Prog Unit :=
  classifyWith env ⟨.noDocumentDetected, .noDocumentDetected, some method⟩ objectKey (some data)
    batchId none resultProcessorStartedAt

def classifyAsAiConsentDeclined (env : EnvConfig) (objectKey : String) (batchId : Option String) :
    Prog Unit :=
  classifyWith env ⟨.aiConsentDeclined, .aiConsentDeclined, none⟩ objectKey none batchId

def classifyAsConversionFailed (env : EnvConfig) (objectKey errorMessage : String)
    (batchId : Option String) : Prog Unit :=
  classifyWith env ⟨.conversionFailed, .internalProcessingError, none⟩ objectKey none batchId
    (some errorMessage)

def classifyAsNoCustomBlueprintMatched (env : EnvConfig) (objectKey : String)
    (data : ClassificationData) (batchId : Option String)
    (resultProcessorStartedAt : Option Timestamp := none) (method : ExtractMethod := .bda) :
    Prog Unit :=
  classifyWith env ⟨.noCustomBlueprintMatched, .noBlueprintMatched, some method⟩ objectKey
    (some data) batchId none resultProcessorStartedAt

def classifyAsExtractionNotConfigured (env : EnvConfig) (objectKey : String)
    (data : ClassificationData) (batchId : Option String) : Prog Unit :=
  classifyWith env ⟨.excludedPerPreclassification, .skippedPerPreclassification, none⟩ objectKey
    (some data) batchId

def classifyAsMultipleDocumentsOnPage (env : EnvConfig) (objectKey : String)
    (data : ClassificationData) (batchId : Option String) : Prog Unit :=
  classifyWith env ⟨.multipleDocumentsOnSinglePage, .multipleDocumentsOnSinglePage, none⟩ objectKey
    (some data) batchId

def classifyAsMultipleDocumentsInMultipage (env : EnvConfig) (objectKey : String)
    (data : ClassificationData) (batchId : Option String) : Prog Unit :=
  classifyWith env ⟨.multipleDocumentsInMultipage, .multipleDocumentsInMultipage, none⟩ objectKey
    (some data) batchId

/-- What `classify_extraction_result` puts into the success record besides the result itself. -/
structure SuccessDetails where
  belowFloor         : Bool
  rulesConfigured    : Bool
  missingRequired    : Option (List String)
  required           : Option (List String)
  confidenceFloor    : Rat
  usedDefaultFloor   : Bool
  resultProcessorStartedAt : Option Timestamp

def classifyAsSuccess (env : EnvConfig) (objectKey : String) (responseCode : ResponseCode)
    (data : ClassificationData) (method : ExtractMethod) (d : SuccessDetails)
    (batchId : Option String) (result : ExtractionResult) : Prog Unit := do
  let response ← getInternalApiResponse objectKey responseCode data.matchedDocumentClass
  writeTerminalStatus env
    { objectKey
      status := .success
      internalApiResponse := some response
      data := some data
      extractionMethod := method
      belowExtractionConfidenceFloor := d.belowFloor
      extractionRulesConfigured := some d.rulesConfigured
      missingRequiredFieldList := d.missingRequired
      requiredFieldList := d.required
      appliedExtractionConfidenceFloor := some d.confidenceFloor
      usedDefaultConfidenceFloor := some d.usedDefaultFloor
      resultProcessorStartedAt := d.resultProcessorStartedAt }
    batchId (some result) (some method)

def classifyExtractionResult (env : EnvConfig) (ddbKey : String) (result : ExtractionResult)
    (outputUri tenantId batchId : Option String)
    (resultProcessorStartedAt : Option Timestamp := none) (method : ExtractMethod := .bda) :
    Prog Unit :=
  match outputUri with
  | none =>
    throw (.valueError ("output_uri missing for " ++ ddbKey ++ " on success path (" ++ method.value
      ++ ")"))
  | some uri => do
    let data := ClassificationData.fromExtractionResult result (some uri)
    let floor ← getExtractionConfidenceFloor tenantId
    let hasFloor ← tenantHasConfidenceFloor tenantId
    let avg := calculateAverageNonEmptyConfidence result.fieldConfidenceScores
      result.fieldEmptyList result.fieldMissingGeometryList
    let rules ← getMissingRequiredFields env tenantId data.matchedDocumentClass result.fieldEmptyList
      result.fieldMissingGeometryList
    classifyAsSuccess env ddbKey .success data method
      { belowFloor := avg.any fun a => decide (a < floor)
        rulesConfigured := rules.isSome
        missingRequired := rules.map (·.1)
        required := rules.map (·.2)
        confidenceFloor := floor
        usedDefaultFloor := !hasFloor
        resultProcessorStartedAt }
      batchId result

end DocumentAi

import DocumentAi.Classifiers.DocumentClassification
import DocumentAi.Extractors.OcrMapping

/-!
# OCR-mapping pipeline: one queued message

| here | there |
| --- | --- |
| `runOcrMappingExtraction`   | `run_ocr_mapping_extraction`, `_extract` (`extractors/ocr_mapping.py:175-381`) |
| `processOcrMappingResult`   | `process_ocr_mapping_result` (`processors/ocr_mapping.py:9-37`) |
| `runOcrMappingPipeline`     | `run_ocr_mapping_pipeline`, `handler` (`pipeline/ocr_mapping.py:9-21`, `jobs/ocr_mapping_processor/handler.py`) |
-/

namespace DocumentAi

def writeOcrMappingTelemetry (env : EnvConfig) (ddbKey : String) :
    Option Nat → Option Nat → Prog Unit
  | some i, some o => writeTokensByModel ddbKey env.ocrMappingModelId .ocrMapping i o
  | _, _           => pure ()

/-- The elapsed seconds with three digits. -/
def ocrMappingDuration (startedAt completedAt : Timestamp) : Rat :=
  roundHalfEven ((completedAt : Int) - startedAt) 1000 / 1000

def ocrMappingResult (env : EnvConfig) (documentType : String) (extraction : OcrExtraction)
    (startedAt completedAt : Timestamp) : ExtractionResult :=
  { documentType := some documentType
    body := some (.extractionOutput
      { source := .ocrMapping
        documentType := some documentType
        modelId := some env.ocrMappingModelId
        fields := extraction.fieldsOutput })
    fieldConfidenceScores := extraction.fieldConfidenceScores
    processingStartedAt := some startedAt
    processingCompletedAt := some completedAt
    processingDurationSeconds := some (ocrMappingDuration startedAt completedAt)
    fieldEmptyList := extraction.fieldEmptyList }

def runOcrMappingExtraction (env : EnvConfig) (ddbKey documentType : String)
    (ocrBlocks : List Block) : Prog ExtractionResult := do
  let record ← getDdbRecord ddbKey
  let startedAt ← extractionStart record
  match env.schemas.lookup documentType with
  | none        =>
    throw (.valueError ("No schema found for document type '" ++ documentType ++ "'"))
  | some schema =>
    let ocrText := layoutOcrBlocksToText ocrBlocks
    if Chars.trim ocrText.toList = [] then
      throw (.valueError ("No OCR text available for " ++ ddbKey))
    else do
      let response : Converse (List (String × ExtractedField)) ←
        call (.ai (.ocrMappingExtraction ocrText documentType))
      match response.parsed with
      | none        => throw (.exception "InstructorRetryException")
      | some fields => do
        let completedAt : Timestamp ← call .now
        writeOcrMappingTelemetry env ddbKey response.inputTokens response.outputTokens
        pure (ocrMappingResult env documentType
          (extractOcrFields env.libs schema fields ocrBlocks) startedAt completedAt)

/-- `read_json_from_s3` of the stored blocks. -/
def readOcrBlocks (uri : String) : Prog (List Block) := do
  let key ← liftExcept (parseS3Uri uri)
  let obj : S3Object ← call (.getObject key)
  match obj.body with
  | .ocrBlocks blocks => pure blocks
  | _                 => throw (.valueError "JSONDecodeError")

def processOcrMappingResult (env : EnvConfig) (msg : OcrMappingMessage) : Prog ProcessorResult :=
  match truthy msg.tenantId with
  | none   =>
    throw (.valueError ("tenant_id is required for OCR mapping extraction of " ++ msg.ddbKey))
  | some t => do
    let ocrBlocks ← readOcrBlocks msg.ocrBlocksUri
    let result ← runOcrMappingExtraction env msg.ddbKey msg.documentType ocrBlocks
    let uri ← writeExtractionOutput env t .ocrMapping msg.ddbKey
      (result.body.getD (.raw [])) (some "application/json")
    pure
      { objectKey := msg.ddbKey
        tenantId := some t
        batchId := msg.batchId
        extractionResult := some result
        outputUri := some uri }

def runOcrMappingPipeline (env : EnvConfig) (msg : OcrMappingMessage) : Prog Unit := do
  let processed ← processOcrMappingResult env msg
  match processed.extractionResult with
  | none        =>
    throw (.valueError ("OCR mapping processor returned no extraction_result for " ++ msg.ddbKey))
  | some result =>
    classifyExtractionResult env processed.objectKey result processed.outputUri processed.tenantId
      processed.batchId none .ocrMapping

end DocumentAi

import DocumentAi.Classifiers.DocumentClassification
import DocumentAi.Utils.Bda

/-!
# BDA pipeline: one finished BDA job

| here | there |
| --- | --- |
| `processBdaResult`      | `process_bda_result`, `_process_bda_result` (`processors/bda.py:32-138`) |
| `extractBdaResult`      | `extract_bda_result` (`extractors/bda.py:11-47`) |
| `classifyProcessed`     | `_classify` (`pipeline/bda.py:34-69`) |
| `runBdaResultPipeline`  | `run_bda_result_pipeline` (`pipeline/bda.py:18-31`) |
-/

namespace DocumentAi

/-- The extraction of a matched blueprint; `none` when no custom blueprint matched. -/
def extractBdaResult (env : EnvConfig) (b : BdaResult) : Option ExtractionResult :=
  b.matchedBlueprintName.map fun name =>
    let result := readBdaOutput env (.bdaResult b)
    { documentType := b.documentClass
      fieldConfidenceScores := result.fieldConfidenceMapList
      fieldEmptyList := result.emptyFields
      fieldMissingGeometryList := result.fieldsMissingGeometry
      matchedBlueprintName := some name
      matchedBlueprintConfidence := b.matchedBlueprintConfidence }

/-- Start, end and duration of the extraction, when its start is on the record. -/
def withTimings (r : Record) (result : ExtractionResult) : Prog ExtractionResult :=
  match r.extractionStartedAt with
  | none   => pure result
  | some t => do
    let completedAt : Timestamp ← call .now
    pure
      { result with
        processingStartedAt := some t
        processingCompletedAt := some completedAt
        processingDurationSeconds := some (getElapsedTimeSeconds t completedAt / 100) }

/-- More than `BDA_DOCUMENT_DETECTION_MIN_CHAR_LENGTH` letters and digits. -/
def isMeaningfulText (text : Option String) : Bool :=
  text.any fun t => decide (50 < (t.toList.filter Char.isAlphanum).length)

def noMatchResult (ddbKey : String) (r : Record) (uri : String) (b : BdaResult)
    (startedAt : Option Timestamp) : ProcessorResult :=
  let data (info : String) : ClassificationData :=
    { bdaOutputS3Uri := some uri
      matchedDocumentClass := b.documentClass
      matchedBlueprintName := b.matchedBlueprintName
      matchedBlueprintConfidence := b.matchedBlueprintConfidence
      additionalInfo := some info }
  let result (status : ProcessStatus) (info : String) : ProcessorResult :=
    { objectKey := ddbKey
      tenantId := r.tenantId
      batchId := r.batchId
      resultProcessorStartedAt := startedAt
      classificationData := some (data info)
      status := some status }
  if isMeaningfulText b.text then
    result .noCustomBlueprintMatched
      "No matching custom blueprint found. Document detected, but not implemented."
  else
    result .noDocumentDetected
      "No matching custom blueprint found. Unable to extract meaningful document content."

def processBdaResult (env : EnvConfig) (key : S3Key) (startedAt : Option Timestamp) :
    Prog ProcessorResult := do
  match truthy (← extractBdaOutputS3Uri key) with
  | none     => throw (.valueError "No BDA output S3 URI found")
  | some uri =>
    match ← getDdbRecordFromBdaOutput key with
    | none => throw (.valueError ("No DDB record found for BDA output: " ++ uri))
    | some (ddbKey, r) =>
      match ← getBdaResultJson env uri with
      | some (.bdaResult b) =>
        match extractBdaResult env b with
        | none        => pure (noMatchResult ddbKey r uri b startedAt)
        | some result => do
          let result ← withTimings r result
          pure
            { objectKey := ddbKey
              tenantId := r.tenantId
              batchId := r.batchId
              resultProcessorStartedAt := startedAt
              extractionResult := some result
              outputUri := some uri }
      | _ => throw (.valueError "No BDA result JSON found")

def classifyProcessed (env : EnvConfig) (p : ProcessorResult) : Prog Unit := do
  match p.extractionResult with
  | some result =>
    try
      classifyExtractionResult env p.objectKey result p.outputUri p.tenantId p.batchId
        p.resultProcessorStartedAt
    catch e =>
      throw (.runtimeError ("Extraction succeeded for " ++ p.objectKey
        ++ " but failed to persist result: " ++ e.str))
  | none =>
    match p.status, p.classificationData with
    | some status, some data =>
      if status = .noCustomBlueprintMatched then
        classifyAsNoCustomBlueprintMatched env p.objectKey data p.batchId
          p.resultProcessorStartedAt
      else
        classifyAsNoDocumentDetected env p.objectKey data p.batchId p.resultProcessorStartedAt
    | _, _ => throw (.valueError "ProcessorResult has no extraction_result or status")

def runBdaResultPipeline (env : EnvConfig) (key : S3Key) (startedAt : Option Timestamp) :
    Prog Unit := do
  let processed ← processBdaResult env key startedAt
  classifyProcessed env processed

end DocumentAi

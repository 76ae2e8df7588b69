import DocumentAi.Classifiers.DocumentClassification
import DocumentAi.Mappings.Textract
import DocumentAi.Utils.Textract

/-!
# Textract pipeline: identity documents without BDA

| here | there |
| --- | --- |
| `extractTextractIdentity` | `extract_textract_identity` (`extractors/textract.py:27-133`) |
| `processTextractResult`   | `process_textract_result` (`processors/textract.py:13-42`) |
| `runTextractPipeline`     | `run_textract_pipeline` (`pipeline/textract.py:12-48`) |
-/

namespace DocumentAi

/-- `TextractConfig.SUPPORTED_CONTENT_TYPES`. -/
def textractContentTypes : List String := ["image/jpeg", "image/png", "application/pdf"]

/-- `fields.update(supplemental)`. -/
def updateFields (fields supplemental : StoredFields) : StoredFields :=
  supplemental.foldl (fun d f => Dict.assign f.1 f.2 d) fields

theorem WellFormed.updateFields {fields supplemental : StoredFields} (h : WellFormed fields)
    (hs : WellFormed supplemental) : WellFormed (updateFields fields supplemental) := by
  refine List.foldlRecOn (motive := WellFormed) _ _ h ?_
  intro d hd f hf
  exact hd.assign _ (hs.full f hf).1 (hs.full f hf).2

/-- The AnalyzeID answer with the start and end of the extraction; `none` when the call failed. -/
def analyzeIdentity (fileBytes : Bytes) (ddbKey : String) :
    Prog (Option (List IdentityDocument × Timestamp × Timestamp)) := do
  try
    let record ← getDdbRecord ddbKey
    let startedAt ← extractionStart record
    let response : List IdentityDocument ← call (.ai (.analyzeId fileBytes))
    let completedAt : Timestamp ← call .now
    pure (some (response, startedAt, completedAt))
  catch _ => pure none

def supplementFields (env : EnvConfig) (response : List IdentityDocument) (documentClass : String)
    (fileBytes : Bytes) (fields : StoredFields) : Prog StoredFields :=
  let wordBlocks := getWordBlocks (response.flatMap (·.blocks))
  match getSupplementalConfig documentClass with
  | none       => pure fields
  | some names =>
    if wordBlocks.isEmpty then pure fields
    else do
      try
        let items : List SupplementalItem ←
          call (.ai (.supplementalExtraction fileBytes documentClass))
        pure (updateFields fields (matchNovaResultsToBlocks env.libs items wordBlocks names))
      catch _ => pure fields

def identityResult (documentClass : String) (fields : StoredFields)
    (startedAt completedAt : Timestamp) : ExtractionResult :=
  { documentType := some documentClass
    body := some (.extractionOutput { source := .textract, fields })
    fieldConfidenceScores := fields.map fun f => (f.1, f.2.confidence)
    processingStartedAt := some startedAt
    processingCompletedAt := some completedAt
    processingDurationSeconds := some (getElapsedTimeSeconds startedAt completedAt / 100)
    fieldEmptyList := (fields.filter fun f => (truthy f.2.value).isNone).map (·.1) }

def extractTextractIdentity (env : EnvConfig) (contentType : String) (fileBytes : Bytes)
    (ddbKey : String) : Prog (Option ExtractionResult) := do
  if !env.flags.textractIdentityEnabled || !textractContentTypes.contains contentType then
    pure none
  else
    match ← analyzeIdentity fileBytes ddbKey with
    | none => pure none
    | some (response, startedAt, completedAt) =>
      match getDocumentClass (getIdType response) with
      | none               => pure none
      | some documentClass =>
        let fields := extractFieldsFromAnalyzeId env.libs response (getBdaFieldMap documentClass)
        if fields = [] then pure none
        else do
          let fields ← supplementFields env response documentClass fileBytes fields
          setExtractMethod ddbKey .textract startedAt
          pure (some (identityResult documentClass fields startedAt completedAt))

/-- The given tenant, else the record's. -/
def resolveTenant (ddbKey : String) (tenantId : Option String) : Prog (Option String) :=
  match truthy tenantId with
  | some t => pure (some t)
  | none   => do
    let record ← getDdbRecord ddbKey
    pure (truthy (record.bind Record.tenantId))

def processTextractResult (env : EnvConfig) (ddbKey : String) (result : ExtractionResult)
    (tenantId batchId : Option String) : Prog ProcessorResult := do
  match ← resolveTenant ddbKey tenantId with
  | none   =>
    throw (.valueError ("tenant_id is required for Textract extraction of " ++ ddbKey))
  | some t => do
    let uri ← writeExtractionOutput env t .textract ddbKey
      (result.body.getD (.raw [])) (some "application/json")
    pure
      { objectKey := ddbKey
        tenantId := some t
        batchId
        extractionResult := some result
        outputUri := some uri }

/-- "Returns True if Textract handled the document, False to fall through to BDA." -/
def runTextractPipeline (env : EnvConfig) (ddbKey contentType : String) (fileBytes : Bytes)
    (tenantId : String) (batchId : Option String) : Prog Bool := do
  match ← extractTextractIdentity env contentType fileBytes ddbKey with
  | none => pure false
  | some result => do
    let processed ← processTextractResult env ddbKey result (some tenantId) batchId
    try
      classifyExtractionResult env processed.objectKey result processed.outputUri
        processed.tenantId processed.batchId none .textract
    catch e =>
      throw (.runtimeError ("Extraction succeeded for " ++ ddbKey
        ++ " but failed to persist result: " ++ e.str))
    pure true

end DocumentAi

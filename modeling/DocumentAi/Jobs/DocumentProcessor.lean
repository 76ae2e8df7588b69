import DocumentAi.Pipeline.DocumentLifecycle
import DocumentAi.Pipeline.Textract

/-!
# Document processor: one S3 upload event

| here | there |
| --- | --- |
| `preclassify`               | `_preclassify` (`jobs/document_processor/main.py:81-146`) |
| `persistOptimizationMetrics`| `_persist_optimization_metrics` (`:163-215`) |
| `invokeTextractIfIdentityPath` | `_invoke_textract_if_identity_path` (`:218-240`) |
| `bdaAttempts`, `invokeBda`  | `_invoke_bda`, `invoke_bda` (`:243-308`) |
| `invokeOcrMappingPath`      | `_invoke_ocr_mapping_path` (`:311-372`) |
| `invokeBdaPath`             | `_invoke_bda_path` (`:375-448`) |
| `dispatchDocumentProcessor` | `_dispatch_document_processor` (`:451-538`) |
| `processorMain`             | `main` (`:541-624`) |
| `processorHandler`          | `handler` (`jobs/document_processor/handler.py:29-60`) |
| `validateS3ObjectIsBdaNative` | `validate_s3_object_is_bda_native` (`utils/uploads.py:195-219`) |
-/

namespace DocumentAi

/-! ## Preclassification -/

structure PreclassifyResult where
  existingRecord      : Record
  preExtractionResult : Option PreExtractionResult := none
  tenantId            : Option String

def PreclassifyResult.bbox (p : PreclassifyResult) : Option BboxResult :=
  p.preExtractionResult.bind (·.bboxFuture)

/-- No record yet, or one awaiting processing that has no preclassification category. -/
def needsPreclassification : Option Record → Bool
  | none   => true
  | some r =>
    r.status.any ProcessStatus.isAwaitingProcessing && (r .preclassificationCategory).isNone

def preclassify (env : EnvConfig) (doc : FetchedDocument) (existing : Option Record) :
    Prog PreclassifyResult := do
  let tenantId := existing.bind Record.tenantId
  match existing, needsPreclassification existing with
  | some r, false => pure { existingRecord := r, tenantId }
  | _, _ => do
    let pre ← upsertInitialDdbRecord env doc tenantId
      ((existing.bind Record.createdAt).map stripTime)
    match ← getDdbRecord doc.ddbKey with
    | none   => throw (.exception "Could not retrieve DDB record after upsert")
    | some r => pure { existingRecord := r, preExtractionResult := pre, tenantId }

/-! ## BDA path -/

def shouldInvokeBda (env : EnvConfig) (category : Option String) : Bool :=
  (truthy category).any (· ≠ "other_document") || !env.flags.skipBdaIfUnclassified

open DocumentMetadata in
def optimizationActions (crop : CropResult) (grayscaleApplied : Bool)
    (processedFileSizeBytes_ : Option Nat) : List Action :=
  setOpt cropBoundingBox crop.boundingBox
    ++ setOpt cropRetainedPercentage crop.retainedPercentage
    ++ setOpt cropInputTokens crop.inputTokens
    ++ setOpt cropOutputTokens crop.outputTokens
    ++ setOpt cropModelId crop.modelId
    ++ [.set grayscaleConversion grayscaleApplied]
    ++ setOpt processedFileSizeBytes processedFileSizeBytes_

def persistOptimizationMetrics (ddbKey : String) (crop : CropResult) (grayscaleApplied : Bool)
    (processedFileSizeBytes : Option Nat) : Prog Unit := do
  executeDdbUpdate ddbKey (optimizationActions crop grayscaleApplied processedFileSizeBytes)
  match truthy crop.modelId, crop.inputTokens, crop.outputTokens with
  | some m, some i, some o => writeTokensByModel ddbKey m .cropDetection i o
  | _, _, _                => pure ()

/-- One attempt of the retried block: start the job, then record its id. -/
def bdaAttempt (env : EnvConfig) (bucket key ddbKey tenantId : String)
    (category : Option String) (retryCount : Nat) : Prog Unit := do
  let inv ← invokeBedrockDataAutomation env bucket key tenantId ddbKey category
  setBdaProcessingStatusStarted env ddbKey inv retryCount

/-- The retry loop: `remaining` attempts after this one. A retryable exception of the last attempt
becomes a `RetryError`; any other exception ends the loop at once. -/
def bdaAttempts (env : EnvConfig) (bucket key ddbKey tenantId : String)
    (category : Option String) : (remaining retryCount : Nat) → Prog Unit
  | 0, retryCount => do
    try bdaAttempt env bucket key ddbKey tenantId category retryCount
    catch e => if isRetryable e then throw (.retryError (retryCount + 1)) else throw e
  | remaining + 1, retryCount => do
    let retry ←
      try
        bdaAttempt env bucket key ddbKey tenantId category retryCount
        pure false
      catch e => if isRetryable e then pure true else throw e
    if retry then
      bdaAttempts env bucket key ddbKey tenantId category remaining (retryCount + 1)
    else pure ()

/-- `_invoke_bda`: `stop_after_attempt(n)` makes an attempt even for `n = 0`. -/
def invokeBdaRetrying (env : EnvConfig) (bucket key ddbKey tenantId : String)
    (category : Option String) : Prog Unit :=
  bdaAttempts env bucket key ddbKey tenantId category (env.maxBdaInvokeRetryAttempts - 1) 0

def invokeBda (env : EnvConfig) (bucket key ddbKey tenantId : String) (category : Option String)
    (batchId : Option String) : Prog Unit := do
  try invokeBdaRetrying env bucket key ddbKey tenantId category
  catch e =>
    match e with
    | .retryError n => do
      classifyAsFailed env ddbKey "BDA invocation failed"
        { additionalInfo := some (Exc.retryError n).str } batchId
      throw e
    | e => throw e

/-- The document and its dispatch context. -/
structure Dispatch where
  doc       : FetchedDocument
  record    : Record
  pre       : Option PreExtractionResult
  bbox      : Option BboxResult
  tenantId  : String
  grayscale : Bool

def invokeBdaPath (env : EnvConfig) (d : Dispatch) : Prog Unit := do
  let routingCategory : Option String := d.record .preclassificationBlueprintMatchCategory
  let opt ← optimizeS3Image env (d.doc.bucketName, d.doc.objectKey) d.grayscale d.doc.fileBytes
    d.doc.contentType d.bbox
  if d.grayscale && (opt.tooLarge || opt.failed) then do
    persistOptimizationMetrics d.doc.ddbKey opt.cropResult false none
    classifyAsNotImplemented env d.doc.ddbKey
      { additionalInfo := some (if opt.tooLarge then "File too large after conversion"
          else "Failed to download file for optimization") } d.doc.batchId
  else do
    persistOptimizationMetrics d.doc.ddbKey opt.cropResult opt.grayscaleApplied opt.fileSizeBytes
    if !shouldInvokeBda env (d.record .preclassificationCategory) then
      classifyAsExtractionNotConfigured env d.doc.ddbKey
        { additionalInfo :=
            some "Preclassified as other_document; BDA skipped per feature flag" } d.doc.batchId
    else do
      let (projectArn, _) ← liftExcept (resolveProjectArn env routingCategory)
      if projectArn.isNone then
        classifyAsNoCustomBlueprintMatched env d.doc.ddbKey
          { additionalInfo := some ("No category matched by blueprint matching and no default "
              ++ "BDA project configured; BDA skipped") } d.doc.batchId
      else
        invokeBda env d.doc.bucketName d.doc.objectKey d.doc.ddbKey d.tenantId routingCategory
          d.doc.batchId

/-! ## Textract and OCR-mapping paths -/

def invokeTextractIfIdentityPath (env : EnvConfig) (d : Dispatch) : Prog Bool := do
  if !(d.pre.any (·.isIdentityDocument)) || d.doc.contentType = "" || d.doc.fileBytes.isEmpty then
    pure false
  else
    try
      runTextractPipeline env d.doc.ddbKey d.doc.contentType d.doc.fileBytes d.tenantId
        d.doc.batchId
    catch _ => pure false

/-- The key of the OCR blocks: not under the tenant's prefix. -/
def ocrBlocksKey (outputPrefix ddbKey : String) : String :=
  outputPrefix ++ "/ocr-mapping/ocr/" ++ ddbKey ++ ".json"

/-- "Errors are logged and swallowed - BDA is the authoritative extraction path." -/
def invokeOcrMappingPath (env : EnvConfig) (d : Dispatch) : Prog Unit := do
  match truthy (d.record .preclassificationBlueprintMatchedType) with
  | none => pure ()
  | some documentType =>
    if !env.flags.ocrMappingEnabled && !(d.record.isCompare.getD false) then pure ()
    else
      try
        match truthy env.documentaiOutputLocation with
        | none          => pure ()
        | some location => do
          let (outputBucket, outputPrefix) ← liftExcept (parseS3Uri location)
          let ocrBytes ← liftExcept (truncateToPages env d.doc.fileBytes 1)
          let ocrBlocks : List Block ← call (.ai (.analyzeDocumentLayout ocrBytes))
          let ocrKey := (outputBucket, ocrBlocksKey outputPrefix d.doc.ddbKey)
          call (.putObject ocrKey
            { body := .ocrBlocks ocrBlocks, contentType := some "application/json" })
          if (truthy env.ocrMappingQueueUrl).isSome then
            call (.sendOcrMapping
              { ddbKey := d.doc.ddbKey
                documentType
                ocrBlocksUri := s3Uri ocrKey
                tenantId := some d.tenantId
                batchId := d.doc.batchId })
      catch _ => pure ()

/-! ## Dispatch -/

def headerProbeBytes : Nat := 4096

/-- The bytes the type is detected on: a header, or all of an office container. -/
def detectionData (key : S3Key) (header : Bytes) : Prog Bytes :=
  if FileValidation.isOfficeContainerMagic header then do
    let full : S3Object ← call (.getObject key)
    pure full.bytes
  else pure header

def validateS3ObjectIsBdaNative (env : EnvConfig) (key : S3Key) : Prog String := do
  let header : S3Object ← call (.getObject key)
  let data ← detectionData key (header.bytes.take headerProbeBytes)
  let detected := detectMime env data
  if FileValidation.noConversionNeeded.contains detected then pure detected
  else
    throw (.valueError ("Uploaded content is not a supported document type: detected '" ++ detected
      ++ "'. Must be one of " ++ ", ".intercalate FileValidation.noConversionNeeded ++ "."))

/-- Whether to apply grayscale, by the status the document is picked up in; `none` skips it. -/
def dispatchGrayscale : Option ProcessStatus → Option Bool
  | some .pendingImageOptimization => some true
  | some s => if s.isAwaitingProcessing then some false else none
  | none => none

/-- The extraction of a claimed document. -/
def extractClaimed (env : EnvConfig) (d : Dispatch) : Prog Unit := do
  invokeOcrMappingPath env d
  let handled ← invokeTextractIfIdentityPath env d
  if handled then pure () else invokeBdaPath env d

/-- `ValueError`s of the validation reject the document, other exceptions go on. -/
def rejectIfNotNative (env : EnvConfig) (doc : FetchedDocument) : Prog Bool := do
  let rejection ←
    try
      let _ ← validateS3ObjectIsBdaNative env (doc.bucketName, doc.objectKey)
      pure none
    catch e =>
      match e with
      | .valueError m => pure (some m)
      | e             => throw e
  match rejection with
  | none   => pure false
  | some m => do
    classifyAsFailed env doc.ddbKey "Uploaded file content is not a supported document type"
      { additionalInfo := some m } doc.batchId
    pure true

def claimAndExtract (env : EnvConfig) (doc : FetchedDocument) (p : PreclassifyResult)
    (status : ProcessStatus) (grayscale : Bool) : Prog Unit := do
  let rejected ← rejectIfNotNative env doc
  if rejected then pure ()
  else
    match truthy p.tenantId with
    | none =>
      classifyAsFailed env doc.ddbKey "tenant_id is required for document processing"
        { additionalInfo := some "Missing tenant_id" } doc.batchId
    | some tenantId => do
      let claimed ← setProcessingStatusStarted doc.ddbKey status
      if claimed then
        extractClaimed env
          { doc
            record := p.existingRecord
            pre := p.preExtractionResult
            bbox := p.bbox
            tenantId
            grayscale }
      else pure ()

def dispatchDocumentProcessor (env : EnvConfig) (doc : FetchedDocument) (p : PreclassifyResult) :
    Prog Unit :=
  if p.existingRecord.aiConsentFlag = some false then
    classifyAsAiConsentDeclined env doc.ddbKey doc.batchId
  else
    match p.existingRecord.status, dispatchGrayscale p.existingRecord.status with
    | some status, some grayscale => claimAndExtract env doc p status grayscale
    | _, _ => pure ()

/-! ## Entry point -/

def fetchDocument (key : S3Key) (startedAt : Timestamp) (isColdStart : Bool) :
    Prog FetchedDocument := do
  let obj : S3Object ← call (.getObject key)
  pure
    { bucketName := key.1
      objectKey := key.2
      ddbKey := basename key.2
      originalFileName := (truthy obj.metadata.originalFileName).getD ""
      contentType := obj.contentType.getD "application/octet-stream"
      fileBytes := obj.bytes
      category := obj.metadata.userProvidedDocumentCategory
      jobId := obj.metadata.jobId
      traceId := obj.metadata.traceId
      batchId := obj.metadata.batchId
      processorStartedAt := startedAt
      isColdStart }

/-- `main`, called by the handler with the event's bucket and key only. -/
def processorMain (env : EnvConfig) (key : S3Key) (isColdStart : Bool) : Prog Unit := do
  let startedAt : Timestamp ← call .now
  let doc ← fetchDocument key startedAt isColdStart
  let existing ← getDdbRecord doc.ddbKey
  let p ← preclassify env doc existing
  dispatchDocumentProcessor env doc p

def processorHandler (env : EnvConfig) (key : S3Key) (isColdStart : Bool) : Prog Unit := do
  try processorMain env key isColdStart
  catch e => do
    let ddbKey := basename key.2
    try
      let record ← getDdbRecord ddbKey
      classifyAsFailed env ddbKey e.str
        { additionalInfo := some "Unhandled error in document processor" }
        (record.bind Record.batchId)
    catch _ => pure ()
    throw e

end DocumentAi

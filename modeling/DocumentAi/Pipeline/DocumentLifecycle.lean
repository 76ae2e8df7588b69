import DocumentAi.Classifiers.ApiResponse
import DocumentAi.Utils.BatchOperations
import DocumentAi.Utils.Bda
import DocumentAi.Utils.BlurDetection
import DocumentAi.Utils.ImageOptimization
import DocumentAi.Utils.WriteLimit

/-!
# Document lifecycle: initial record creation and the pre-extraction pipeline

| here | there |
| --- | --- |
| `isSelectedForProcessing`        | `is_selected_for_processing` (`pipeline/document_lifecycle.py:61-81`) |
| `setBdaProcessingStatusStarted`  | `set_bda_processing_status_started` (`:89-110`) |
| `setProcessingStatusStarted`     | `set_processing_status_started` (`:123-147`) |
| `insertMinimalDdbRecord`         | `insert_minimal_ddb_record` (`:155-190`) |
| `getBlurOutcome`                 | `_get_blur_outcome` (`:193-234`) |
| `runPreclassification`           | `_run_preclassification` (`:237-342`) |
| `upsertInitialDdbRecord`         | `upsert_initial_ddb_record` (`:345-536`), with bytes, type and size passed in as its caller does |

The thread pools' tasks run one after the other here; an exception of a task is kept until the
source asks for the task's result.
-/

namespace DocumentAi

structure Selection where
  selected     : Bool := true
  percentage   : Option Rat := none
  assigned     : Option Rat := none

def isSelectedForProcessing (tenantId categoryName : Option String) : Prog Selection :=
  match truthy tenantId, truthy categoryName with
  | some t, some c => do
    let percent := (← call (.getCategory t c)).getD 1
    if 1 ≤ percent then pure { percentage := some percent }
    else do
      let value : Rat ← call .random
      pure ⟨decide (value < percent), some percent, some value⟩
  | _, _ => pure {}

/-! ## Status setters -/

def setBdaProcessingStatusStarted (env : EnvConfig) (objectKey : String) (inv : BdaInvocation)
    (retryCount : Nat) : Prog Unit :=
  updateDdb env
    { objectKey
      status := .started
      bdaInvocationArn := some inv.arn
      bdaProjectArnUsed := some inv.projectArn
      usedCategorySpecificProject := inv.usedCategorySpecificProject
      pagesSentToBda := some inv.pagesSent
      bdaInvokeRetryCount := some retryCount }

/-- `SET processStatus = STARTED` while `processStatus = :expected`. -/
def claimRequest (expected : ProcessStatus) : Dynamo.Update DocumentMetadata.schema :=
  { actions := [.set .processStatus ProcessStatus.started]
    cond := some (.holds .processStatus fun (s : ProcessStatus) => s == expected) }

/-- "Returns True if claimed, False if another invocation already claimed it." -/
def setProcessingStatusStarted (objectKey : String) (expected : ProcessStatus) : Prog Bool := do
  try
    call (.updateItem objectKey (claimRequest expected))
    pure true
  catch e =>
    if e = .clientError .conditionalCheckFailedException then pure false else throw e

/-! ## Initial record creation -/

def insertMinimalDdbRecord (env : EnvConfig) (record : DocumentRecord) : Prog Unit :=
  upsertDdb env
    { objectKey := record.ddbKey
      originalFileName := record.originalFileName
      userProvidedDocumentCategory := record.category
      processStatus := record.processStatus
      fileSizeBytes := record.fileSizeBytes
      contentType := record.contentType
      jobId := some record.jobId
      systemDocumentId := some record.systemDocumentId
      traceId := record.traceId
      batchId := record.batchId
      externalDocumentId := record.externalDocumentId
      externalSystemId := record.externalSystemId
      aiConsentFlag := record.aiConsentFlag.getD true
      uploadMethod := some record.uploadMethod
      uploadSource := record.uploadSource
      tenantId := some record.tenantId
      apiKeyName := some record.apiKeyName
      isDemo := some record.isDemo
      isTestRun := some record.isTestRun
      isCompare := some record.isCompare
      ttlDays := record.ttlDays }

structure BlurOutcome where
  blurResult    : Option BlurResult
  /-- `none`: not terminal, continue with preclassification. -/
  processStatus : Option ProcessStatus := none
  responseCode  : Option ResponseCode := none

def getBlurOutcome (env : EnvConfig) (fileBytes : Bytes) (contentType : String) :
    Prog BlurOutcome := do
  if !env.flags.enableBlurDetection then
    pure
      { blurResult := some
          { isBlurry := false, blurReasonText := some "Blur detection is not enabled." } }
  else do
    let detected ← detectBlur fileBytes contentType
    let blur : BlurResult :=
      if detected.isNotDocument then
        { detected with
          blurReasonText := some
            "Blur check was skipped - insufficient text detected to evaluate." }
      else detected
    if blur.isNotDocument && env.flags.enforceBlurRejection then
      pure ⟨some blur, some .noDocumentDetected, some .noDocumentDetected⟩
    else if blur.isBlurry && env.flags.enforceBlurRejection then
      pure ⟨some blur, some .blurryDocumentDetected, some .blurryDocumentDetected⟩
    else pure { blurResult := some blur }

structure PreclassificationOutcome where
  processStatus      : ProcessStatus
  responseCode       : ResponseCode
  preClassification  : Option PreClassificationDdbFields
  isIdentityDocument : Bool := false

/-- The status of a document that goes on to extraction. -/
def extractableStatus (contentType : String) : ProcessStatus :=
  if FileValidation.grayscaleConvertible.contains contentType then .pendingImageOptimization
  else .notStarted

theorem isPendingExtraction_extractableStatus (contentType : String) :
    (extractableStatus contentType).isPendingExtraction = true := by
  unfold extractableStatus
  split <;> rfl

/-- The blueprints a tenant has switched off (`disabledBlueprintList`). -/
def isBlueprintDisabled (tenantId : Option String) (documentType : Option String) : Prog Bool :=
  match truthy documentType, truthy tenantId with
  | some d, some t => do
    let tenant ← call (.getTenant t)
    pure (((tenant.bind (·.disabledBlueprintList)).getD []).contains d)
  | _, _ => pure false

def runPreclassification (env : EnvConfig) (fileBytes : Bytes) (contentType : String)
    (userCategory : Option String) (pagesDetected : Option Nat) (tenantId : Option String) :
    Prog PreclassificationOutcome := do
  let blueprintMatch ←
    try findMatchingBlueprint env fileBytes contentType
    catch _ => pure {}
  let classification ←
    try
      let c ← preclassifyDocument env fileBytes contentType (truthy userCategory)
      pure (some c)
    catch _ => pure none
  match classification with
  | none   => pure ⟨extractableStatus contentType, .success, none, false⟩
  | some c =>
    if 1 < c.maxDocumentCountOnPage then
      pure ⟨.multipleDocumentsOnSinglePage, .multipleDocumentsOnSinglePage,
        some (.fromResults c none), false⟩
    else if pagesDetected.any (1 < ·) && c.hasMultipageInconsistency
        && env.flags.flagMultipleDocumentsInMultipage then
      pure ⟨.multipleDocumentsInMultipage, .multipleDocumentsInMultipage,
        some (.fromResults c none), false⟩
    else do
      let disabled ← isBlueprintDisabled tenantId blueprintMatch.matchedDocumentType
      if disabled then
        pure ⟨.blueprintDisabled, .blueprintDisabled,
          some (.fromResults c (some blueprintMatch)), false⟩
      else
        pure ⟨extractableStatus contentType, .success,
          some (.fromResults c (some blueprintMatch)), c.isIdentityDocument⟩

/-- Keep a task's exception until its result is asked for. -/
def attempt {α : Type} (p : Prog α) : Prog (Except Exc α) := do
  try
    let a ← p
    pure (.ok a)
  catch e => pure (.error e)

/-- What the checks before the upsert decide. -/
structure PreExtraction where
  processStatus      : ProcessStatus
  responseCode       : ResponseCode
  blurResult         : Option BlurResult := none
  preClassification  : Option PreClassificationDdbFields := none
  isIdentityDocument : Bool := false
  bbox               : Option BboxResult := none

/-- Blur check, preclassification and crop detection of a document that is neither password
protected nor excluded. -/
def runPreExtraction (env : EnvConfig) (fileBytes : Bytes) (contentType : String)
    (userCategory : Option String) (pagesDetected : Option Nat) (tenantId : Option String) :
    Prog PreExtraction := do
  let blurFuture ← attempt (getBlurOutcome env fileBytes contentType)
  let preclassificationFuture ←
    attempt (runPreclassification env fileBytes contentType userCategory pagesDetected tenantId)
  -- never raises: `detect_document_bbox` swallows its exceptions
  let bbox ← getBboxIfEnabled env fileBytes contentType
  let blur ← liftExcept blurFuture
  let preclassification ← liftExcept preclassificationFuture
  match blur.processStatus with
  | some s =>
    pure
      { processStatus := s
        responseCode := blur.responseCode.getD .success
        blurResult := blur.blurResult
        bbox }
  | none   =>
    pure
      { processStatus := preclassification.processStatus
        responseCode := preclassification.responseCode
        blurResult := blur.blurResult
        preClassification := preclassification.preClassification
        isIdentityDocument := preclassification.isIdentityDocument
        bbox }

/-- The S3 event's document as `main` has fetched it. -/
structure FetchedDocument where
  bucketName         : String
  objectKey          : String
  ddbKey             : String
  originalFileName   : String
  contentType        : String
  fileBytes          : Bytes
  category           : Option String
  jobId              : Option String
  traceId            : Option String
  batchId            : Option String
  processorStartedAt : Timestamp
  isColdStart        : Bool

/-- Give the quota back for a document that sampling has excluded. -/
def decrementIfCharged (tenantId : Option String) (uploadDate : Option Day) : Prog Unit :=
  match truthy tenantId, uploadDate with
  | some t, some d => decrement t d
  | _, _           => pure ()

def checkBeforeExtraction (env : EnvConfig) (doc : FetchedDocument) (tenantId : Option String)
    (uploadDate : Option Day) (selection : Selection) : Prog PreExtraction :=
  if isPasswordProtected doc.fileBytes then do
    incrementIfBatch doc.batchId
    pure { processStatus := .passwordProtected, responseCode := .passwordProtected }
  else if !selection.selected then do
    call (.putMetricData "DocumentAI/DocumentProcessor" "ProcessingExcludedBySampling" 1)
    decrementIfCharged tenantId uploadDate
    incrementIfBatch doc.batchId
    pure { processStatus := .processingExcluded, responseCode := .processingExcluded }
  else
    runPreExtraction env doc.fileBytes doc.contentType doc.category
      (getPageCount env doc.fileBytes) tenantId

/-- `BlurSkipReason.from_status`. -/
def blurSkipReason : ProcessStatus → Option String
  | .passwordProtected =>
    some "Blur check was not performed - document is password protected."
  | .processingExcluded =>
    some "Blur check was not performed - document was excluded from processing."
  | _ => none

def initialRecord (env : EnvConfig) (doc : FetchedDocument) (selection : Selection)
    (pre : PreExtraction) (response : Option InternalApiResponse) : InitialDdbRecord :=
  { objectKey := doc.ddbKey
    originalFileName := doc.originalFileName
    userProvidedDocumentCategory := doc.category
    processStatus := pre.processStatus
    internalApiResponse := response
    fileSizeBytes := some doc.fileBytes.length
    contentType := some doc.contentType
    pagesDetected := getPageCount env doc.fileBytes
    jobId := doc.jobId
    traceId := doc.traceId
    batchId := doc.batchId
    isDocumentBlurry := (pre.blurResult.map (·.isBlurry)).getD false
    blurAnalysisFailed := (pre.blurResult.map (·.analysisFailed)).getD false
    ocrAvgWordConfidence := pre.blurResult.bind (·.avgConfidence)
    documentWordCount := pre.blurResult.bind (·.wordCount)
    blurLlmChecked := (pre.blurResult.map (·.llmChecked)).getD false
    blurQuadrantStats := pre.blurResult.bind (·.quadrantStats)
    blurReasonText := match pre.blurResult with
      | some b => b.blurReasonText
      | none   => blurSkipReason pre.processStatus
    isPasswordProtected := isPasswordProtected doc.fileBytes
    preClassification := pre.preClassification
    documentProcessorStartedAt := some doc.processorStartedAt
    isDocumentProcessorColdStart := some doc.isColdStart
    processingPercentage := selection.percentage
    processingAssignedValue := selection.assigned }

/-- Goes on to extraction: a pending status, or an identity document of any status. -/
def PreExtraction.continues (pre : PreExtraction) : Bool :=
  pre.processStatus.isPendingExtraction || pre.isIdentityDocument

/-- A password-protected document is not subject to sampling. -/
def selectDocument (doc : FetchedDocument) (tenantId : Option String) : Prog Selection :=
  if isPasswordProtected doc.fileBytes then pure {}
  else isSelectedForProcessing tenantId doc.category

/-- The internal response of a document that is done before extraction. -/
def initialResponse (doc : FetchedDocument) (pre : PreExtraction) :
    Prog (Option InternalApiResponse) :=
  if pre.continues then pure none
  else do
    let r ← getInternalApiResponse doc.ddbKey pre.responseCode none doc.category
    pure (some r)

def upsertInitialDdbRecord (env : EnvConfig) (doc : FetchedDocument) (tenantId : Option String)
    (uploadDate : Option Day) : Prog (Option PreExtractionResult) := do
  let selection ← selectDocument doc tenantId
  let pre ← checkBeforeExtraction env doc tenantId uploadDate selection
  let response ← initialResponse doc pre
  upsertDdb env (initialRecord env doc selection pre response)
  if pre.continues then
    pure (some
      { bboxFuture := if pre.processStatus.isPendingExtraction then pre.bbox else none
        isIdentityDocument := pre.isIdentityDocument })
  else do
    finalizeV1Response env doc.ddbKey pre.processStatus
    pure none

end DocumentAi

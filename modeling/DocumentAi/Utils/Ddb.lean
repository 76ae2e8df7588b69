import DocumentAi.Services
import DocumentAi.Lib.Chars

/-!
# Document-metadata writes: `upsert_ddb`, `update_ddb` and their update expressions

| here | there |
| --- | --- |
| `buildUpdateExpression`   | `_build_update_expression` (`utils/ddb.py:127-269`) |
| `buildTimingUpdates`      | `_build_timing_updates`, `_build_completion_timing` (`utils/ddb.py:56-124`) |
| `calculateProcessingTimes`, `calculateWaitTime`, `calculateFieldMetrics` | `utils/extraction_timing.py` |
| `sendRecordToMetricsQueue`| `_send_record_to_metrics_queue` (`utils/ddb.py:294-337`) |
| `updateDdb`, `upsertDdb`  | `update_ddb`, `upsert_ddb` (`utils/ddb.py:376-434`, `:558-673`) |
| `markDocumentDeleted`     | `mark_document_deleted` (`utils/ddb.py:541-555`) |
| `nonTerminalCondition`    | `ProcessStatus.build_ddb_non_terminal_condition` (`constants/processing.py:147-152`) |
-/

namespace DocumentAi

abbrev Action : Type := Dynamo.Action DocumentMetadata.schema
abbrev Cond : Type := Dynamo.Cond DocumentMetadata.schema

open DocumentMetadata in
/-- `attribute_not_exists(processStatus) OR processStatus IN (non-terminal)`. -/
def nonTerminalCondition : Cond :=
  .or (.attributeNotExists processStatus)
    (.holds processStatus fun (s : ProcessStatus) => ProcessStatus.nonTerminal.contains s)

/-- `SET a = :v` when a value is given. -/
def setOpt (a : DocumentMetadata) : Option a.Val → List Action
  | some v => [.set a v]
  | none   => []

/-- Python's truth of an optional string. -/
def truthy (s : Option String) : Option String := s.filter (· ≠ "")

/-- A missing string and an empty one come to the same. -/
theorem truthy_getD (s : Option String) : (truthy s).getD "" = s.getD "" := by
  cases s with
  | none => rfl
  | some s =>
    by_cases h : s = ""
    · subst h
      rfl
    · rw [truthy, Option.filter_some, if_pos (by simpa using h)]

/-! ## Timing -/

/-- `round(n / d)` with ties to even. -/
def roundHalfEven (n : Int) (d : Nat) : Int :=
  let q := n / d
  let r := n % d
  if 2 * r < d then q else if 2 * r > d then q + 1 else if q % 2 = 0 then q else q + 1

/-- Elapsed time in hundredths of a second. -/
def getElapsedTimeSeconds (start finish : Timestamp) : Int :=
  roundHalfEven ((finish : Int) - start) 10000

structure ProcessingTimes where
  totalProcessingTimeSeconds : Int := 0
  bdaProcessingTimeSeconds   : Int := 0

def calculateProcessingTimes (r : Record) (completion : Timestamp) : ProcessingTimes :=
  let startedAt : Option Timestamp := (r .extractionStartedAt).or (r .bdaStartedAt)
  { totalProcessingTimeSeconds := (r.createdAt.map (getElapsedTimeSeconds · completion)).getD 0
    bdaProcessingTimeSeconds := (startedAt.map (getElapsedTimeSeconds · completion)).getD 0 }

def getDdbRecord (objectKey : String) : Prog (Option Record) := call (.getItem objectKey)

/-- The recorded start of the extraction, or now. -/
def extractionStart (r : Option Record) : Prog Timestamp :=
  match r.bind Record.extractionStartedAt with
  | some t => pure t
  | none   => call .now

/-- `_calculate_wait_time`. -/
def calculateWaitTime (objectKey : String) : Prog (Option Int) := do
  match ← getDdbRecord objectKey with
  | none   => pure none
  | some r =>
    match r.createdAt with
    | none           => pure none
    | some createdAt => do
      let now ← call .now
      pure (some (getElapsedTimeSeconds createdAt now))

/-- `_calculate_bda_processing_times`. -/
def calculateBdaProcessingTimes (objectKey : String) (completion : Timestamp) :
    Prog ProcessingTimes := do
  match ← getDdbRecord objectKey with
  | none   => pure {}
  | some r => pure (calculateProcessingTimes r completion)

/-- `parse_s3_uri` (`utils/s3.py:10-23`). -/
def parseS3Uri (s3Uri : String) : Except Exc (String × String) :=
  let cs := s3Uri.toList
  if cs.take 5 = ['s', '3', ':', '/', '/'] then
    let (bucket, pre) := Chars.partition '/' (cs.drop 5)
    .ok (String.ofList bucket, String.ofList pre)
  else .error (.valueError ("Invalid S3 URI: " ++ s3Uri))

def liftExcept {α : Type} : Except Exc α → Prog α
  | .ok a    => pure a
  | .error e => throw e

/-- The completion time: when the BDA output was written, or now. -/
def completionTime (now : Timestamp) (bdaOutputS3Uri : Option String) : Prog Timestamp :=
  match truthy bdaOutputS3Uri with
  | none     => pure now
  | some uri => do
    try
      let key ← liftExcept (parseS3Uri uri)
      call (.getLastModifiedAt key)
    catch _ => pure now

open DocumentMetadata in
/-- `_build_completion_timing`. -/
def buildCompletionTiming (objectKey : String) (bdaOutputS3Uri : Option String) :
    Prog (List Action) := do
  match ← getDdbRecord objectKey with
  | none   => pure []
  | some r =>
    if (r .bdaStartedAt).isNone && (r .extractionStartedAt).isNone then pure []
    else do
      let now ← call .now
      let completedTime ← completionTime now bdaOutputS3Uri
      let timing ← calculateBdaProcessingTimes objectKey completedTime
      let total := timing.totalProcessingTimeSeconds
      let bda := timing.bdaProcessingTimeSeconds
      pure ([.set extractionCompletedAt completedTime, .set processedDate (stripTime completedTime)]
        ++ (if total ≠ 0 then [.set totalProcessingTimeSeconds total] else [])
        ++ (if bda ≠ 0 then [.set extractionProcessingTimeSeconds bda] else []))

open DocumentMetadata in
/-- `_build_timing_updates`. -/
def buildTimingUpdates (objectKey : String) (status : ProcessStatus)
    (bdaOutputS3Uri : Option String) : Prog (List Action) :=
  if status = .started then do
    let now ← call .now
    let wait ←
      try
        let w ← calculateWaitTime objectKey
        pure [Dynamo.Action.set extractionWaitTimeSeconds w]
      catch _ => pure []
    pure (.set extractionStartedAt now :: wait)
  else if status.isCompleted then buildCompletionTiming objectKey bdaOutputS3Uri
  else pure []

/-! ## Update expressions -/

structure FieldMetrics where
  fieldCount                 : Nat
  fieldCountNotEmpty         : Nat
  fieldNotEmptyAvgConfidence : Option Rat

/-- `calculate_average_non_empty_confidence` (`utils/bda.py:29-45`). -/
def calculateAverageNonEmptyConfidence (scores : FieldConfidences) (emptyFields : List String)
    (fieldsMissingGeometry : List String) : Option Rat :=
  let kept := (scores.filter fun f =>
    !(emptyFields.contains f.1 || fieldsMissingGeometry.contains f.1)).map (·.2)
  if kept.isEmpty then none else some (kept.foldl (· + ·) 0 / kept.length)

def calculateFieldMetrics (env : EnvConfig) (data : ClassificationData) : FieldMetrics :=
  let scores := data.fieldConfidenceScores.getD []
  if scores.isEmpty then ⟨0, 0, none⟩
  else
    let empty := data.fieldEmptyList.getD []
    let missing :=
      if env.flags.includeMissingGeoWithMissingFields then data.fieldMissingGeometryList.getD []
      else []
    ⟨scores.length,
      (scores.filter fun f => !(empty.contains f.1 || missing.contains f.1)).length,
      calculateAverageNonEmptyConfidence scores empty missing⟩

/-- `bda_invocation_arn.split("/")[-1]` (`utils/ddb.py:215-217`). -/
def invocationId (arn : String) : String := String.ofList (Chars.lastField '/' arn.toList)

/-- `extract_region_from_bda_arn` or `"N/A"` (`utils/bda.py:71-81`, `utils/ddb.py:210-213`). -/
def bdaRegion (arn : String) : String :=
  match (Chars.splitOn ':' arn.toList)[3]? with
  | some (c :: cs) => String.ofList (c :: cs)
  | _              => "N/A"

open DocumentMetadata in
def classificationActions (env : EnvConfig) (data : ClassificationData) : List Action :=
  let metrics := calculateFieldMetrics env data
  setOpt bdaOutputS3Uri data.bdaOutputS3Uri
    ++ setOpt matchedBlueprintName data.matchedBlueprintName
    ++ setOpt matchedBlueprintConfidence data.matchedBlueprintConfidence
    ++ setOpt fieldConfidenceScores data.fieldConfidenceScores
    ++ setOpt additionalInfo data.additionalInfo
    ++ setOpt bdaMatchedDocumentClass data.matchedDocumentClass
    ++ setOpt matchedBlueprintFieldEmptyList data.fieldEmptyList
    ++ setOpt matchedBlueprintFieldMissingGeometryList data.fieldMissingGeometryList
    ++ setOpt matchedBlueprintFieldBelowThresholdList data.fieldBelowThresholdList
    ++ [.set matchedBlueprintFieldCount metrics.fieldCount,
        .set matchedBlueprintFieldCountNotEmpty metrics.fieldCountNotEmpty]
    ++ setOpt matchedBlueprintFieldNotEmptyAvgConfidence metrics.fieldNotEmptyAvgConfidence

open DocumentMetadata in
def buildUpdateExpression (env : EnvConfig) (now : Timestamp) (u : UpdateDdbRecord) :
    List Action :=
  [.set processStatus u.status, .set updatedAt now]
    ++ (u.data.map (classificationActions env)).getD []
    ++ (match u.internalApiResponse with
        | some r => [.set responseJson r, .set responseCode r.responseCode]
        | none   => [])
    ++ (match truthy u.bdaInvocationArn with
        | some arn =>
          [.set bdaInvocationArn arn, .set bdaInvocationId (invocationId arn),
            .set bdaRegionUsed (bdaRegion arn), .set extractionMethod u.extractionMethod]
        | none     => [])
    ++ setOpt bdaProjectArn (truthy u.bdaProjectArnUsed)
    ++ (if u.usedCategorySpecificProject then [.set usedCategorySpecificProject true] else [])
    ++ setOpt errorMessage (truthy u.errorMessage)
    ++ (if u.belowExtractionConfidenceFloor then [.set belowExtractionConfidenceFloor true] else [])
    ++ setOpt extractionRulesConfigured u.extractionRulesConfigured
    ++ setOpt missingRequiredFieldList u.missingRequiredFieldList
    ++ setOpt requiredFieldList u.requiredFieldList
    ++ setOpt extractionConfidenceThreshold u.appliedExtractionConfidenceFloor
    ++ setOpt usedDefaultExtractionConfidenceThreshold u.usedDefaultConfidenceFloor
    ++ setOpt pagesSentToBda u.pagesSentToBda
    ++ setOpt bdaInvokeRetryCount u.bdaInvokeRetryCount
    ++ setOpt resultProcessorStartedAt u.resultProcessorStartedAt

def executeDdbUpdate (objectKey : String) (actions : List Action) (cond : Option Cond := none) :
    Prog Unit :=
  call (.updateItem objectKey { actions, cond })

/-- Metrics are optional: every exception is logged and swallowed. -/
def sendRecordToMetricsQueue (env : EnvConfig) (objectKey : String) : Prog Unit := do
  try
    if (truthy env.ddbMetricsInputQueueUrl).isSome then
      match ← getDdbRecord objectKey with
      | none   => pure ()
      | some r => if r.isCompare = some true then pure () else call (.sendMetrics r)
  catch _ => pure ()

def updateDdb (env : EnvConfig) (data : UpdateDdbRecord) (cond : Option Cond := none) :
    Prog Unit := do
  let now ← call .now
  let timing ← buildTimingUpdates data.objectKey data.status (data.data.bind (·.bdaOutputS3Uri))
  executeDdbUpdate data.objectKey (buildUpdateExpression env now data ++ timing) cond
  if data.status.isClassified then sendRecordToMetricsQueue env data.objectKey

/-- `set_extract_method`. -/
def setExtractMethod (objectKey : String) (method : ExtractMethod) (startedAt : Timestamp) :
    Prog Unit :=
  executeDdbUpdate objectKey [.set .extractionStartedAt startedAt, .set .extractionMethod method]

/-- `write_tokens_by_model`: `SET tokensByModel.#key = :entry`. -/
def writeTokensByModel (objectKey modelId : String) (reason : LlmUsageReason)
    (inputTokens outputTokens : Nat) : Prog Unit :=
  executeDdbUpdate objectKey
    [.setPath .tokensByModel (setEntry (modelId ++ "#" ++ reason.value) ⟨inputTokens, outputTokens⟩)]

def markDocumentDeleted (objectKey : String) (deletionType : DeletionType) : Prog Unit := do
  let now ← call .now
  executeDdbUpdate objectKey
    [.set .processStatus ProcessStatus.deleted, .set .deletionType deletionType, .set .updatedAt now]

/-! ## `upsert_ddb` -/

open DocumentMetadata in
/-- The annotated fields of `PreClassificationDdbFields`. -/
def preClassificationActions (p : PreClassificationDdbFields) : List Action :=
  setOpt preclassificationCategory p.documentType
    ++ setOpt preclassificationConfidence p.confidence
    ++ setOpt preclassificationInputTokens p.inputTokens
    ++ setOpt preclassificationOutputTokens p.outputTokens
    ++ setOpt preclassificationModelId p.modelId
    ++ setOpt preclassificationCategoryMatch p.categoryMatch
    ++ setOpt preclassificationBlueprintMatchedType p.blueprintMatchedDocumentType
    ++ setOpt preclassificationBlueprintMatchConfidence p.blueprintMatchConfidence
    ++ setOpt preclassificationBlueprintMatchInputTokens p.blueprintMatchInputTokens
    ++ setOpt preclassificationBlueprintMatchOutputTokens p.blueprintMatchOutputTokens
    ++ setOpt preclassificationBlueprintMatchCategory p.blueprintMatchCategory
    ++ setOpt preclassificationMaxDocumentCountOnPage p.maxDocumentCountOnPage
    ++ setOpt preclassificationMaxDocumentCountOnPageReason p.maxDocumentCountOnPageReason
    ++ setOpt preclassificationHasMultipageInconsistency p.hasMultipageInconsistency
    ++ setOpt preclassificationHasMultipageInconsistencyReason p.hasMultipageInconsistencyReason

open DocumentMetadata in
/-- The annotated fields of `InitialDdbRecord`. -/
def initialFieldActions (d : InitialDdbRecord) : List Action :=
  setOpt fileSizeBytes d.fileSizeBytes
    ++ setOpt contentType d.contentType
    ++ setOpt pagesDetected d.pagesDetected
    ++ setOpt jobId d.jobId
    ++ setOpt systemDocumentId d.systemDocumentId
    ++ setOpt traceId d.traceId
    ++ setOpt batchId d.batchId
    ++ setOpt ocrAvgWordConfidence d.ocrAvgWordConfidence
    ++ setOpt documentWordCount d.documentWordCount
    ++ setOpt isDocumentBlurryReason d.blurReasonText
    ++ setOpt documentWordQuadrantStats d.blurQuadrantStats
    ++ setOpt externalDocumentId d.externalDocumentId
    ++ setOpt externalSystemId d.externalSystemId
    ++ setOpt uploadMethod d.uploadMethod
    ++ setOpt uploadSource d.uploadSource
    ++ setOpt tenantId d.tenantId
    ++ setOpt apiKeyName d.apiKeyName
    ++ setOpt isDemo d.isDemo
    ++ setOpt isTestRun d.isTestRun
    ++ setOpt isCompare d.isCompare
    ++ setOpt documentProcessorStartedAt d.documentProcessorStartedAt
    ++ setOpt isDocumentProcessorColdStart d.isDocumentProcessorColdStart
    ++ setOpt processingPercentage d.processingPercentage
    ++ setOpt processingAssignedValue d.processingAssignedValue
    ++ setOpt traceparent d.traceparent

/-- `get_ttl_epoch_in_days`. -/
def getTtlEpochInDays (now : Timestamp) (days : Nat) : Nat := now / 1000000 + days * 24 * 60 * 60

open DocumentMetadata in
def upsertActions (now : Timestamp) (d : InitialDdbRecord) : List Action :=
  [.set originalFileName d.originalFileName,
    .set originalFileNameLower d.originalFileName.toLower,
    .set processStatus d.processStatus,
    .setIfNotExists createdAt now,
    .set updatedAt now,
    .set isPasswordProtected d.isPasswordProtected,
    .set isDocumentBlurry d.isDocumentBlurry,
    .set blurAnalysisFailed d.blurAnalysisFailed,
    .set wasBlurLlmInvoked d.blurLlmChecked,
    .setIfNotExists aiConsentFlag d.aiConsentFlag,
    .setIfNotExists ttl (getTtlEpochInDays now ((d.ttlDays.filter (· ≠ 0)).getD 180))]
    ++ setOpt userProvidedDocumentCategory (truthy d.userProvidedDocumentCategory)
    ++ (if d.isCompare = some true then
          [.setIfNotExists apiResponsesByMethod [], .setIfNotExists durationsByMethod []]
        else [])
    ++ [.setIfNotExists tokensByModel []]
    ++ initialFieldActions d
    ++ setOpt responseJson d.internalApiResponse
    ++ (d.preClassification.map preClassificationActions).getD []

/-- Token counts, when either is given and non-zero. -/
def writeTokensIfUsed (objectKey modelId : String) (reason : LlmUsageReason)
    (inputTokens outputTokens : Option Nat) : Prog Unit :=
  if inputTokens.getD 0 ≠ 0 ∨ outputTokens.getD 0 ≠ 0 then
    writeTokensByModel objectKey modelId reason (inputTokens.getD 0) (outputTokens.getD 0)
  else pure ()

/-- Token counts of the two preclassification calls. -/
def writePreclassificationTokens (objectKey : String) (p : PreClassificationDdbFields) :
    Prog Unit :=
  match truthy p.modelId with
  | none         => pure ()
  | some modelId => do
    writeTokensIfUsed objectKey modelId .preclassification p.inputTokens p.outputTokens
    writeTokensIfUsed objectKey modelId .blueprintMatch p.blueprintMatchInputTokens
      p.blueprintMatchOutputTokens

def writeInitialTokens (objectKey : String) : Option PreClassificationDdbFields → Prog Unit
  | some p => writePreclassificationTokens objectKey p
  | none   => pure ()

def upsertDdb (env : EnvConfig) (data : InitialDdbRecord) : Prog Unit := do
  let now ← call .now
  executeDdbUpdate data.objectKey (upsertActions now data)
  writeInitialTokens data.objectKey data.preClassification
  if data.processStatus.isClassified then sendRecordToMetricsQueue env data.objectKey

end DocumentAi

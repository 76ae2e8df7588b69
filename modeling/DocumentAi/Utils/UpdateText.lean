import DocumentAi.Utils.Ddb
import DocumentAi.Lib.Dict
import DocumentAi.Lib.Expression

/-!
# The text of the update expressions and the values bound for them

The same functions as in `Utils.Ddb`, here with the text they send: the clauses in the order in
which they are appended, the assignments to the dictionary of values in the order in which they
are made. Each clause and the key its value is bound under are written where the source writes
them, so that one does not follow from the other.

| here | there |
| --- | --- |
| `Built`                   | `updates` and `values`, `expr_fields` and `expr_values` while they grow |
| `buildCompletionTiming`, `buildTimingUpdates` | `_build_completion_timing`, `_build_timing_updates` (`utils/ddb.py:56-139`) |
| `buildUpdateExpression`   | `_build_update_expression` (`utils/ddb.py:142-274`) |
| `updateDdbRequest`        | the request of `update_ddb` (`utils/ddb.py:374-429`) |
| `applyDdbFields`, `upsertDdbRequest` | `_apply_ddb_fields`, the request of `upsert_ddb` (`utils/ddb.py:512-651`) |
| `updateItem`              | `update_item` (`services/ddb.py:29-59`) |
| `buildDdbNonTerminalCondition` | `build_ddb_non_terminal_condition` (`constants/processing.py:147-152`) |

The records have the measured durations here that the runs leave out.
-/

namespace DocumentAi.UpdateText

open Expression (Assign Request)

/-- A value bound to a placeholder; a JSON string is the value it serialises. -/
inductive BoundValue where
  | text (s : String)
  | count (n : Nat)
  | number (q : Rat)
  | hundredths (n : Int)
  | flag (b : Bool)
  | null
  | emptyMap
  | time (t : Timestamp)
  | day (d : Day)
  | status (s : ProcessStatus)
  | code (c : ResponseCode)
  | extractMethod (m : ExtractMethod)
  | uploadMethod (m : UploadMethod)
  | names (xs : List String)
  | scores (xs : FieldConfidences)
  | quadrants (xs : List (String × QuadrantStats))
  | response (r : InternalApiResponse)

abbrev Values : Type := List (String × BoundValue)

/-- The dictionary after assignments in turn. -/
def dict (entries : Values) : Values := entries.foldl (fun d e => Dict.assign e.1 e.2 d) []

structure Built where
  updates : List Assign := []
  values  : Values := []

instance : Append Built := ⟨fun a b => ⟨a.updates ++ b.updates, a.values ++ b.values⟩⟩

/-- `updates.append(f"{attr} = {placeholder}"); values[key] = v`, when there is a value. -/
def setWith (attr placeholder key : String) : Option BoundValue → Built
  | none   => {}
  | some v => { updates := [.set attr placeholder], values := [(key, v)] }

def when (c : Prop) [Decidable c] (v : BoundValue) : Option BoundValue := if c then some v else none

/-- `update_item`: an empty condition and an empty map of names are not sent. -/
def updateItem (updateExpression : String) (values : Values) (names : Option (List (String × String)))
    (condition : Option String) : Request BoundValue :=
  { updateExpression, values, names := names.getD [], condition := truthy condition }

/-! ## Timing -/

def buildCompletionTiming (objectKey : String) (bdaOutputS3Uri : Option String) : Prog Built := do
  match ← getDdbRecord objectKey with
  | none   => pure {}
  | some r =>
    if (r .bdaStartedAt).isNone && (r .extractionStartedAt).isNone then pure {}
    else do
      let now ← call .now
      let completedTime ← completionTime now bdaOutputS3Uri
      let timing ← calculateBdaProcessingTimes objectKey completedTime
      let total := timing.totalProcessingTimeSeconds
      let bda := timing.bdaProcessingTimeSeconds
      pure (setWith "extractionCompletedAt" ":extractionCompletedAt" ":extractionCompletedAt"
          (some (.time completedTime))
        ++ setWith "processedDate" ":processedDate" ":processedDate"
          (some (.day (stripTime completedTime)))
        ++ setWith "totalProcessingTimeSeconds" ":totalProcessingTime" ":totalProcessingTime"
          (when (total ≠ 0) (.hundredths total))
        ++ setWith "extractionProcessingTimeSeconds" ":extractionProcessingTime"
          ":extractionProcessingTime" (when (bda ≠ 0) (.hundredths bda)))

/-- The wait time, or `None` as a `NULL`. -/
def waitValue (w : Option Int) : BoundValue := (w.map BoundValue.hundredths).getD .null

/-- The clauses and values of `_build_timing_updates`. -/
def timingBuilt (objectKey : String) (status : ProcessStatus) (bdaOutputS3Uri : Option String) :
    Prog Built :=
  if status = .started then do
    let now ← call .now
    let wait ←
      try
        let w ← calculateWaitTime objectKey
        pure (setWith "extractionWaitTimeSeconds" ":extractionWaitTimeSeconds"
          ":extractionWaitTimeSeconds" (some (waitValue w)))
      catch _ => pure {}
    pure (setWith "extractionStartedAt" ":extractionStartedAt" ":extractionStartedAt"
      (some (.time now)) ++ wait)
  else if status.isCompleted then buildCompletionTiming objectKey bdaOutputS3Uri
  else pure {}

def buildTimingUpdates (objectKey : String) (status : ProcessStatus)
    (bdaOutputS3Uri : Option String) : Prog (String × Values) := do
  let b ← timingBuilt objectKey status bdaOutputS3Uri
  pure (", ".intercalate (b.updates.map Assign.text), b.values)

/-! ## `update_ddb` -/

/-- `UpdateDdbRecord` with its measured duration. -/
structure UpdateFields extends UpdateDdbRecord where
  bdaInvokeDurationSeconds : Option Rat := none

/-- `f":{ddb_field.lower().replace('_', '')}"`. -/
def paramKey (ddbField : String) : String :=
  ":" ++ String.ofList ((ddbField.toList.map Char.toLower).filter (· ≠ '_'))

/-- One entry of `field_mappings`. -/
def fieldMapping (ddbField : String) (value : Option BoundValue) : Built :=
  setWith ddbField (paramKey ddbField) (paramKey ddbField) value

def classificationBuilt (env : EnvConfig) (data : ClassificationData) : Built :=
  let metrics := calculateFieldMetrics env data
  fieldMapping "bdaOutputS3Uri" (data.bdaOutputS3Uri.map .text)
    ++ fieldMapping "matchedBlueprintName" (data.matchedBlueprintName.map .text)
    ++ fieldMapping "matchedBlueprintConfidence" (data.matchedBlueprintConfidence.map .number)
    ++ fieldMapping "fieldConfidenceScores" (data.fieldConfidenceScores.map .scores)
    ++ fieldMapping "additionalInfo" (data.additionalInfo.map .text)
    ++ fieldMapping "bdaMatchedDocumentClass" (data.matchedDocumentClass.map .text)
    ++ fieldMapping "matchedBlueprintFieldEmptyList" (data.fieldEmptyList.map .names)
    ++ fieldMapping "matchedBlueprintFieldMissingGeometryList"
      (data.fieldMissingGeometryList.map .names)
    ++ fieldMapping "matchedBlueprintFieldBelowThresholdList"
      (data.fieldBelowThresholdList.map .names)
    ++ fieldMapping "matchedBlueprintFieldCount" (some (.count metrics.fieldCount))
    ++ fieldMapping "matchedBlueprintFieldCountNotEmpty" (some (.count metrics.fieldCountNotEmpty))
    ++ fieldMapping "matchedBlueprintFieldNotEmptyAvgConfidence"
      (metrics.fieldNotEmptyAvgConfidence.map .number)

def responseBuilt : Option InternalApiResponse → Built
  | none   => {}
  | some r =>
    { updates := [.set "responseJson" ":responseJson", .set "responseCode" ":responseCode"]
      values := [(":responseJson", .response r), (":responseCode", .code r.responseCode)] }

def invocationBuilt (method : ExtractMethod) : Option String → Built
  | none     => {}
  | some arn =>
    { updates :=
        [.set "bdaInvocationArn" ":bdaInvocationArn", .set "bdaInvocationId" ":bdaInvocationId",
          .set "bdaRegionUsed" ":bdaRegion", .set "extractionMethod" ":extractMethod"]
      values :=
        [(":bdaInvocationArn", .text arn), (":bdaInvocationId", .text (invocationId arn)),
          (":bdaRegion", .text (bdaRegion arn)), (":extractMethod", .extractMethod method)] }

def updateBuilt (env : EnvConfig) (now : Timestamp) (v1ApiResponse : Option String)
    (u : UpdateDdbRecord) : Built :=
  { updates := [.set "processStatus" ":processStatus", .set "updatedAt" ":updatedAt"]
    values := [(":processStatus", .status u.status), (":updatedAt", .time now)] : Built }
    ++ (u.data.map (classificationBuilt env)).getD {}
    ++ responseBuilt u.internalApiResponse
    ++ setWith "v1ApiResponseJson" ":v1ResponseJson" ":v1ResponseJson"
      ((truthy v1ApiResponse).map .text)
    ++ invocationBuilt u.extractionMethod (truthy u.bdaInvocationArn)
    ++ setWith "bdaProjectArn" ":bdaProjectArn" ":bdaProjectArn"
      ((truthy u.bdaProjectArnUsed).map .text)
    ++ setWith "usedCategorySpecificProject" ":usedCategorySpecificProject"
      ":usedCategorySpecificProject" (when (u.usedCategorySpecificProject = true) (.flag true))
    ++ setWith "errorMessage" ":errorMessage" ":errorMessage" ((truthy u.errorMessage).map .text)
    ++ setWith "belowExtractionConfidenceFloor" ":belowFloor" ":belowFloor"
      (when (u.belowExtractionConfidenceFloor = true) (.flag true))
    ++ setWith "extractionRulesConfigured" ":extractionRulesConfigured" ":extractionRulesConfigured"
      (u.extractionRulesConfigured.map .flag)
    ++ setWith "missingRequiredFieldList" ":missingRequiredFieldList" ":missingRequiredFieldList"
      (u.missingRequiredFieldList.map .names)
    ++ setWith "requiredFieldList" ":requiredFieldList" ":requiredFieldList"
      (u.requiredFieldList.map .names)
    ++ setWith "extractionConfidenceThreshold" ":extractionConfidenceThreshold"
      ":extractionConfidenceThreshold" (u.appliedExtractionConfidenceFloor.map .number)
    ++ setWith "usedDefaultExtractionConfidenceThreshold" ":usedDefaultExtractionConfidenceThreshold"
      ":usedDefaultExtractionConfidenceThreshold" (u.usedDefaultConfidenceFloor.map .flag)

def buildUpdateExpression (env : EnvConfig) (now : Timestamp) (v1ApiResponse : Option String)
    (u : UpdateDdbRecord) : String × Values :=
  let b := updateBuilt env now v1ApiResponse u
  (Expression.setText b.updates, b.values)

/-- `update_expr += f", {attr} = {placeholder}"; expr_values[key] = v`, when there is a value. -/
def alsoSet (attr placeholder key : String) (v : Option BoundValue) (e : String × Values) :
    String × Values :=
  match v with
  | none   => e
  | some v => (e.1 ++ ", " ++ (attr ++ " = " ++ placeholder), e.2 ++ [(key, v)])

def alsoUpdates (e timing : String × Values) : String × Values :=
  if timing.1 = "" then e else (e.1 ++ ", " ++ timing.1, e.2 ++ timing.2)

/-- The request `update_ddb` sends. -/
def updateDdbRequest (env : EnvConfig) (data : UpdateFields) (conditionExpression : Option String)
    (extraExpressionValues : Option Values) : Prog (Request BoundValue) := do
  let now ← call .now
  let e := alsoSet "resultProcessorStartedAt" ":rpStartedAt" ":rpStartedAt"
      (data.resultProcessorStartedAt.map .time)
    (alsoSet "bdaInvokeRetryCount" ":bdaRetryCount" ":bdaRetryCount"
      (data.bdaInvokeRetryCount.map .count)
    (alsoSet "bdaInvokeDurationSeconds" ":bdaInvokeDs" ":bdaInvokeDs"
      (data.bdaInvokeDurationSeconds.map .number)
    (alsoSet "pagesSentToBda" ":pagesSentToBda" ":pagesSentToBda" (data.pagesSentToBda.map .count)
    (buildUpdateExpression env now none data.toUpdateDdbRecord))))
  let timing ← buildTimingUpdates data.objectKey data.status (data.data.bind (·.bdaOutputS3Uri))
  let e := alsoUpdates e timing
  pure (updateItem e.1 (dict (e.2 ++ extraExpressionValues.getD [])) none conditionExpression)

/-- The condition of a terminal write, and the values of its placeholders. -/
def buildDdbNonTerminalCondition : String × Values :=
  let values := ProcessStatus.nonTerminal.zipIdx.map fun e =>
    (":nt" ++ toString e.2, BoundValue.status e.1)
  ("attribute_not_exists(processStatus) OR processStatus IN ("
    ++ ", ".intercalate (values.map Prod.fst) ++ ")", values)

/-! ## `upsert_ddb` -/

/-- A field of a model with its `ddb_attr` and `ddb_param`, and its value when it was set and is
not `None`. -/
structure DdbField where
  ddbAttr  : String
  ddbParam : String
  value    : Option BoundValue

def applyDdbFields : List DdbField → Built
  | []      => {}
  | f :: fs => setWith f.ddbAttr f.ddbParam f.ddbParam f.value ++ applyDdbFields fs

/-- The measured durations of `PreClassificationDdbFields`. -/
structure PreClassificationDurations where
  durationSeconds               : Option Rat := none
  blueprintMatchDurationSeconds : Option Rat := none

/-- `InitialDdbRecord` with its measured durations. -/
structure InitialFields extends InitialDdbRecord where
  s3FetchDurationSeconds           : Option Rat := none
  blurDetectionDurationSeconds     : Option Rat := none
  imageOptCropBlockDurationSeconds : Option Rat := none
  imageOptWriteDurationSeconds     : Option Rat := none
  preClassificationDurations       : PreClassificationDurations := {}

/-- The annotated fields of `InitialDdbRecord` (`dtos/ddb.py:171-291`). -/
def initialFields (d : InitialFields) : List DdbField :=
  [⟨"fileSizeBytes", ":fileSize", d.fileSizeBytes.map .count⟩,
    ⟨"contentType", ":contentType", d.contentType.map .text⟩,
    ⟨"pagesDetected", ":pages", d.pagesDetected.map .count⟩,
    ⟨"jobId", ":jobId", d.jobId.map .text⟩,
    ⟨"systemDocumentId", ":systemDocumentId", d.systemDocumentId.map .text⟩,
    ⟨"traceId", ":traceId", d.traceId.map .text⟩,
    ⟨"batchId", ":batchId", d.batchId.map .text⟩,
    ⟨"ocrAvgWordConfidence", ":ocrConf", d.ocrAvgWordConfidence.map .number⟩,
    ⟨"documentWordCount", ":wordCount", d.documentWordCount.map .count⟩,
    ⟨"isDocumentBlurryReason", ":isDocumentBlurryReason", d.blurReasonText.map .text⟩,
    ⟨"documentWordQuadrantStats", ":wordQuadrantStats", d.blurQuadrantStats.map .quadrants⟩,
    ⟨"externalDocumentId", ":extDocId", d.externalDocumentId.map .text⟩,
    ⟨"externalSystemId", ":extSysId", d.externalSystemId.map .text⟩,
    ⟨"uploadMethod", ":uploadMethod", d.uploadMethod.map .uploadMethod⟩,
    ⟨"uploadSource", ":uploadSource", d.uploadSource.map .text⟩,
    ⟨"tenantId", ":tenantId", d.tenantId.map .text⟩,
    ⟨"apiKeyName", ":clientName", d.apiKeyName.map .text⟩,
    ⟨"isDemo", ":isDemo", d.isDemo.map .flag⟩,
    ⟨"isTestRun", ":isTestRun", d.isTestRun.map .flag⟩,
    ⟨"isCompare", ":isCompare", d.isCompare.map .flag⟩,
    ⟨"documentProcessorStartedAt", ":dpStartedAt", d.documentProcessorStartedAt.map .time⟩,
    ⟨"isDocumentProcessorColdStart", ":dpColdStart", d.isDocumentProcessorColdStart.map .flag⟩,
    ⟨"processingPercentage", ":procPct", d.processingPercentage.map .number⟩,
    ⟨"processingAssignedValue", ":procAssigned", d.processingAssignedValue.map .number⟩,
    ⟨"s3FetchDurationSeconds", ":s3FetchDs", d.s3FetchDurationSeconds.map .number⟩,
    ⟨"blurDetectionDurationSeconds", ":blurDetDs", d.blurDetectionDurationSeconds.map .number⟩,
    ⟨"traceparent", ":traceparent", d.traceparent.map .text⟩,
    ⟨"imageOptCropBlockDurationSeconds", ":imgOptCropBlockDs",
      d.imageOptCropBlockDurationSeconds.map .number⟩,
    ⟨"imageOptWriteDurationSeconds", ":imgOptWriteDs", d.imageOptWriteDurationSeconds.map .number⟩]

/-- The annotated fields of `PreClassificationDdbFields` (`dtos/ddb.py:26-109`). -/
def preClassificationFields (m : PreClassificationDurations) (p : PreClassificationDdbFields) :
    List DdbField :=
  [⟨"preclassificationCategory", ":pcdt", p.documentType.map .text⟩,
    ⟨"preclassificationConfidence", ":pcc", p.confidence.map .number⟩,
    ⟨"preclassificationInputTokens", ":pcit", p.inputTokens.map .count⟩,
    ⟨"preclassificationOutputTokens", ":pcot", p.outputTokens.map .count⟩,
    ⟨"preclassificationDurationSeconds", ":pcds", m.durationSeconds.map .number⟩,
    ⟨"preclassificationModelId", ":pcmi", p.modelId.map .text⟩,
    ⟨"preclassificationCategoryMatch", ":pccm", p.categoryMatch.map .flag⟩,
    ⟨"preclassificationBlueprintMatchedType", ":pcbmt", p.blueprintMatchedDocumentType.map .text⟩,
    ⟨"preclassificationBlueprintMatchConfidence", ":pcbmc", p.blueprintMatchConfidence.map .number⟩,
    ⟨"preclassificationBlueprintMatchInputTokens", ":pcbmit",
      p.blueprintMatchInputTokens.map .count⟩,
    ⟨"preclassificationBlueprintMatchOutputTokens", ":pcbmot",
      p.blueprintMatchOutputTokens.map .count⟩,
    ⟨"preclassificationBlueprintMatchDurationSeconds", ":pcbmds",
      m.blueprintMatchDurationSeconds.map .number⟩,
    ⟨"preclassificationBlueprintMatchCategory", ":pcbmcat", p.blueprintMatchCategory.map .text⟩,
    ⟨"preclassificationMaxDocumentCountOnPage", ":pcmdcop", p.maxDocumentCountOnPage.map .count⟩,
    ⟨"preclassificationMaxDocumentCountOnPageReason", ":pcmdcopr",
      p.maxDocumentCountOnPageReason.map .text⟩,
    ⟨"preclassificationHasMultipageInconsistency", ":pchmi",
      p.hasMultipageInconsistency.map .flag⟩,
    ⟨"preclassificationHasMultipageInconsistencyReason", ":pcpmir",
      p.hasMultipageInconsistencyReason.map .text⟩]

/-- What `upsert_ddb` always writes. -/
def alwaysBuilt (now : Timestamp) (d : InitialDdbRecord) : Built :=
  { updates :=
      [.set "originalFileName" ":originalFileName",
        .set "originalFileNameLower" ":originalFileNameLower",
        .set "processStatus" ":processStatus",
        .setIfNotExists "createdAt" "createdAt" ":now",
        .set "updatedAt" ":now",
        .set "isPasswordProtected" ":pwProt",
        .set "isDocumentBlurry" ":blurry",
        .set "blurAnalysisFailed" ":blurFailed",
        .set "wasBlurLlmInvoked" ":blurLlm",
        .setIfNotExists "aiConsentFlag" "aiConsentFlag" ":aiConsent",
        .setIfNotExists "#ttl" "#ttl" ":ttl"]
    values :=
      [(":originalFileName", .text d.originalFileName),
        (":originalFileNameLower", .text d.originalFileName.toLower),
        (":processStatus", .status d.processStatus),
        (":now", .time now),
        (":pwProt", .flag d.isPasswordProtected),
        (":blurry", .flag d.isDocumentBlurry),
        (":blurFailed", .flag d.blurAnalysisFailed),
        (":blurLlm", .flag d.blurLlmChecked),
        (":aiConsent", .flag d.aiConsentFlag),
        (":ttl", .count (getTtlEpochInDays now ((d.ttlDays.filter (· ≠ 0)).getD 180)))] }

def compareBuilt (isCompare : Option Bool) : Built :=
  if isCompare = some true then
    { updates :=
        [.setIfNotExists "apiResponsesByMethod" "apiResponsesByMethod" ":emptyMap",
          .setIfNotExists "durationsByMethod" "durationsByMethod" ":emptyMap"]
      values := [(":emptyMap", .emptyMap)] }
  else {}

def upsertBuilt (now : Timestamp) (d : InitialFields) : Built :=
  alwaysBuilt now d.toInitialDdbRecord
    ++ setWith "userProvidedDocumentCategory" ":category" ":category"
      ((truthy d.userProvidedDocumentCategory).map .text)
    ++ compareBuilt d.isCompare
    ++ { updates := [.setIfNotExists "tokensByModel" "tokensByModel" ":emptyTokenMap"]
         values := [(":emptyTokenMap", .emptyMap)] : Built }
    ++ applyDdbFields (initialFields d)
    ++ setWith "responseJson" ":respJson" ":respJson" (d.internalApiResponse.map .response)
    ++ (d.preClassification.map fun p =>
      applyDdbFields (preClassificationFields d.preClassificationDurations p)).getD {}

/-- The request `upsert_ddb` sends first. -/
def upsertDdbRequest (now : Timestamp) (d : InitialFields) : Request BoundValue :=
  let b := upsertBuilt now d
  updateItem (Expression.setText b.updates) (dict b.values) (some [("#ttl", "ttl")]) none

end DocumentAi.UpdateText

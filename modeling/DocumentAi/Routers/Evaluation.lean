import DocumentAi.Routers.Documents

/-!
# The evaluation of a document: one verdict for each check of the pipeline

| here | there |
| --- | --- |
| `EvaluationKey`, `evaluationPipeline`, `NotEvaluated` | `utils/evaluations.py` |
| `stopOf`                | `_PRE_EXTRACTION_STOP_MAP` (`routers/evaluation.py:37-58`) |
| `stopFailEntry`         | `_stop_fail_entry` (`routers/evaluation.py:77-82`) |
| `evaluateKey`           | `_evaluate_key` (`routers/evaluation.py:85-166`) |
| `buildEvaluations`      | `_build_evaluations` (`routers/evaluation.py:169-238`) |
| `getDocumentEvaluation` | `get_document_evaluation` (`routers/evaluation.py:241-266`) |
-/

namespace DocumentAi

inductive EvaluationStatus where
  | pass | fail | notEvaluated
deriving DecidableEq, Repr

inductive EvaluationKey where
  | passwordProtected | documentDetected | blurDetection | multipleDocumentsOnSinglePage
  | multipleDocumentsInMultipage | miscategorization | missingFields | extractionConfidence
deriving DecidableEq, Repr

open EvaluationKey in
def evaluationPipeline : List EvaluationKey :=
  [passwordProtected, documentDetected, blurDetection, multipleDocumentsOnSinglePage,
    multipleDocumentsInMultipage, miscategorization, missingFields, extractionConfidence]

structure EvaluationEntry where
  status : EvaluationStatus
  reason : Option String := none
deriving DecidableEq, Repr

namespace NotEvaluated

def stoppedPasswordProtected : String :=
  "Not reached - processing stopped because the document is password protected."
def stoppedProcessingExcluded : String :=
  "Not reached - document was excluded from processing."
def stoppedAiConsentDeclined : String :=
  "Not reached - document was not processed because AI consent was not provided."
def stoppedNoBlueprintMatched : String := "Not reached - BDA ran but no blueprint matched."
def stoppedSkippedPerPreclassification : String :=
  "Not reached - document bypassed extraction per preclassification."
def stoppedInternalError : String := "Not reached - an internal processing error occurred."
def stoppedNoDocument : String :=
  "Not reached - processing stopped after no document was detected."
def stoppedBlurry : String :=
  "Not reached - processing stopped after the document was flagged as blurry."
def stoppedMultipleDocuments : String :=
  "Not reached - processing stopped after multiple documents were detected."
def stoppedMultipleDocumentsInMultipage : String :=
  "Not reached - processing stopped because pages are not continuations of a single document "
    ++ "instance."
def legacyDocument : String :=
  "Evaluation data not available for documents processed before this feature was enabled."

end NotEvaluated

/-- Where processing stopped before extraction, and why the later checks were not reached. -/
def stopOf : ResponseCode → Option (EvaluationKey × String)
  | .passwordProtected => some (.passwordProtected, NotEvaluated.stoppedPasswordProtected)
  | .noDocumentDetected => some (.documentDetected, NotEvaluated.stoppedNoDocument)
  | .blurryDocumentDetected => some (.blurDetection, NotEvaluated.stoppedBlurry)
  | .multipleDocumentsOnSinglePage =>
    some (.multipleDocumentsOnSinglePage, NotEvaluated.stoppedMultipleDocuments)
  | .multipleDocumentsInMultipage =>
    some (.multipleDocumentsInMultipage, NotEvaluated.stoppedMultipleDocumentsInMultipage)
  | _ => none

/-- `f"{x:.0%}"`. -/
def percent (x : Rat) : String := toString (roundHalfEven (x.num * 100) x.den) ++ "%"

def stopFailEntry (r : Record) : EvaluationKey → EvaluationEntry
  | .blurDetection =>
    { status := .fail
      reason := some ((truthy (r .isDocumentBlurryReason)).getD "Document was flagged as blurry.") }
  | .documentDetected =>
    { status := .fail, reason := some "Insufficient text detected to identify a document." }
  | .multipleDocumentsOnSinglePage =>
    { status := .fail, reason := some "Multiple documents were detected on a single page." }
  | .multipleDocumentsInMultipage =>
    { status := .fail
      reason := some "Pages are not continuations of a single document instance." }
  | _ => { status := .fail, reason := some "Document is password protected." }

def evaluateMiscategorization (r : Record) : EvaluationEntry :=
  let categoryMatch : Option Bool := r .preclassificationCategoryMatch
  if categoryMatch = some false then
    let expected := truthy (r .userProvidedDocumentCategory)
    let detected := truthy (r .preclassificationCategory)
    { status := .fail
      reason := some (match expected, detected with
        | some e, some d =>
          "The detected document type (" ++ lower d ++ ") does not appear to belong to the "
            ++ "provided document category (" ++ lower e ++ ")."
        | _, _ => "Document category did not match the expected type.") }
  else { status := .pass }

def evaluateMissingFields (r : Record) : EvaluationEntry :=
  match (r .extractionRulesConfigured : Option Bool) with
  | none       => { status := .notEvaluated, reason := some NotEvaluated.legacyDocument }
  | some false => { status := .notEvaluated, reason := some "Extraction rules not configured." }
  | some true  =>
    let missing : List String := (r .missingRequiredFieldList).getD []
    let required : List String := (r .requiredFieldList).getD []
    if missing ≠ [] then
      { status := .fail
        reason := some ("One or more required fields were not extracted: "
          ++ ", ".intercalate missing ++ ".") }
    else
      { status := .pass
        reason := if required = [] then none
          else some ("All required fields were extracted: " ++ ", ".intercalate required ++ ".") }

def evaluateConfidence (r : Record) : EvaluationEntry :=
  match (r .extractionConfidenceThreshold : Option Rat) with
  | none       => { status := .notEvaluated, reason := some NotEvaluated.legacyDocument }
  | some floor =>
    let avg : Option Rat := r .matchedBlueprintFieldNotEmptyAvgConfidence
    let average := (avg.map fun a => " (" ++ percent a ++ ")").getD ""
    let usedDefault : Option Bool := r .usedDefaultExtractionConfidenceThreshold
    let label := if usedDefault = some true then "default" else "tenant-configured"
    let verdict := if r.belowExtractionConfidenceFloor = some true then " did not meet the "
      else " exceeded the "
    { status := if r.belowExtractionConfidenceFloor = some true then .fail else .pass
      reason := some ("Average field confidence" ++ average ++ verdict ++ label
        ++ " required threshold (" ++ percent floor ++ ").") }

def evaluateKey (r : Record) : EvaluationKey → EvaluationEntry
  | .passwordProtected =>
    let isProtected : Option Bool := r .isPasswordProtected
    if isProtected = some true then
      { status := .fail, reason := some "Document is password protected." }
    else { status := .pass, reason := some "Document is not password protected." }
  | .documentDetected => { status := .pass, reason := some "Sufficient text detected." }
  | .blurDetection =>
    let isBlurry : Option Bool := r .isDocumentBlurry
    { status := if isBlurry = some true then .fail else .pass
      reason := (r .isDocumentBlurryReason : Option String) }
  | .multipleDocumentsOnSinglePage =>
    { status := .pass, reason := some "No multiple documents detected." }
  | .multipleDocumentsInMultipage =>
    { status := .pass, reason := some "Pages are continuations of a single document instance." }
  | .miscategorization => evaluateMiscategorization r
  | .missingFields => evaluateMissingFields r
  | .extractionConfidence => evaluateConfidence r

abbrev Evaluations : Type := List (EvaluationKey × EvaluationEntry)

/-- The same entry for every key. -/
def notEvaluated (reason : String) : Evaluations :=
  evaluationPipeline.map fun key => (key, { status := .notEvaluated, reason := some reason })

def evaluateAll (r : Record) : Evaluations := evaluationPipeline.map fun key => (key, evaluateKey r key)

/-- The keys before the stop from their signals, the stop as failed, the rest not reached. -/
def evaluateUntil (r : Record) (stop : EvaluationKey) (reason : String) : Evaluations :=
  let stopIndex := evaluationPipeline.idxOf stop
  evaluationPipeline.mapIdx fun i key =>
    (key,
      if i < stopIndex then evaluateKey r key
      else if i = stopIndex then stopFailEntry r key
      else { status := .notEvaluated, reason := some reason })

def buildEvaluations (responseCode : Option ResponseCode) (r : Record) : Evaluations :=
  match responseCode with
  | none => notEvaluated NotEvaluated.stoppedInternalError
  | some .noBlueprintMatched =>
    if (truthy r.bdaInvocationArn).isSome then evaluateAll r
    else notEvaluated NotEvaluated.stoppedNoBlueprintMatched
  | some .processingExcluded => notEvaluated NotEvaluated.stoppedProcessingExcluded
  | some .aiConsentDeclined => notEvaluated NotEvaluated.stoppedAiConsentDeclined
  | some .skippedPerPreclassification =>
    notEvaluated NotEvaluated.stoppedSkippedPerPreclassification
  | some .internalProcessingError => notEvaluated NotEvaluated.stoppedInternalError
  | some code =>
    match stopOf code with
    | some (stop, reason) => evaluateUntil r stop reason
    | none =>
      if [ResponseCode.success, .missingFields, .miscategorized, .lowExtractionConfidence].contains
          code then evaluateAll r
      else notEvaluated NotEvaluated.stoppedInternalError

structure EvaluationResponse where
  jobId                   : String
  createdAt               : Option Timestamp
  responseCode            : Option ResponseCode
  responseCodeDescription : Option String
  evaluations             : Evaluations

def evaluationResponse (jobId : String) (r : Record) : EvaluationResponse :=
  let code : Option ResponseCode := r .responseCode
  { jobId
    createdAt := r.createdAt
    responseCode := code
    responseCodeDescription := code.map (·.getMessage)
    evaluations := buildEvaluations code r }

/-- What `get_job_status` finds: the object key and the record. -/
abbrev JobStatus : Type := Option (String × Record)

def getJobStatus (jobId : String) : Prog JobStatus := do
  let items : List (String × Record) ← call (.queryByJobId jobId)
  pure items.head?

def getDocumentEvaluation (auth : UserContext) (jobId : String) : Prog EvaluationResponse := do
  match ← getJobStatus jobId with
  | none        => throw (notFound jobId)
  | some (_, r) =>
    if r.tenantId ≠ some auth.tenantId then throw (notFound jobId)
    else if r.v1ApiResponseJson.isNone then
      throw (.httpException 400 "Document has not finished processing yet")
    else pure (evaluationResponse jobId r)

end DocumentAi

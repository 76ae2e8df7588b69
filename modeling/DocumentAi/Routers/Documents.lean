import DocumentAi.Pipeline.DocumentLifecycle
import DocumentAi.Classifiers.DocumentClassification
import DocumentAi.Utils.Uploads

/-!
# Document routes: upload, presigned upload, build submission, polling, delete

| here | there |
| --- | --- |
| `dispatchUpload`           | `dispatch_upload` (`pipeline/uploads.py:19-70`) |
| `uploadDocument`           | `upload_document` (`routers/documents.py:83-191`) |
| `createDocument`, `createDocumentWait` | `create_document`, `create_document_wait` (`:199-284`) |
| `pollLoop`, `pollForCompletion` | `poll_for_completion` (`pipeline/jobs.py:18-78`) |
| `createPresignedUploadUrl`, `presignedMetadata` | `create_presigned_upload_url` (`routers/presigned.py:57-178`) |
| `submitBuild`              | `_submit_build` (`routers/build.py:343-467`), from the build's metadata and merged pages on |
| `deleteDocument`           | `delete_document` (`routers/documents.py:362-424`) |
-/

namespace DocumentAi

structure UserContext where
  tenantId   : String
  apiKeyName : String

/-- `f"{input_location}/{tenant_id}/{file_name}"`; an unset location prints as `None`. -/
def destPath (location : Option String) (tenantId fileName : String) : String :=
  location.getD "None" ++ "/" ++ tenantId ++ "/" ++ fileName

def failedUploadData (detail : String) : ClassificationData := { additionalInfo := some detail }

/-- "Upload file to S3. Classifies DDB record on failure." -/
def dispatchUpload (env : EnvConfig) (ddbKey : String) (req : UploadRequest) : Prog Unit := do
  try uploadDocumentForProcessing env req
  catch e =>
    match e with
    | .imageConversionError m => do
      classifyAsConversionFailed env ddbKey m none
      throw e
    | .httpException _ detail => do
      classifyAsFailed env ddbKey detail (failedUploadData detail) none
      throw e
    | e => do
      classifyAsFailed env ddbKey e.str (failedUploadData ("Unexpected error: " ++ e.str)) none
      throw (.httpException 500 "Upload failed")

/-- The form of an upload request. -/
structure UploadForm where
  file               : UploadFile
  category           : Option String := none
  traceId            : Option String := none
  externalDocumentId : Option String := none
  externalSystemId   : Option String := none
  aiConsentFlag      : Option Bool := some true
  uploadSource       : Option String := none
  isDemo             : Bool := false
  isTestRun          : Bool := false
  isCompare          : Bool := false

def ttlDaysFor (form : UploadForm) : Option Nat :=
  if form.isDemo || form.isTestRun || form.isCompare then some 7 else none

def traceIdOrNew (traceId : Option String) : Prog String :=
  match truthy traceId with
  | some t => pure t
  | none   => call .uuid4

/-- The demo route uploads to a location of its own. -/
def uploadLocation (env : EnvConfig) (isDemo : Bool) : Option String :=
  if isDemo then env.documentaiDemoInputLocation else env.documentaiInputLocation

def uploadRecord (auth : UserContext) (form : UploadForm) (ddbKey filename jobId traceId : String)
    (contentType : String) : DocumentRecord :=
  { ddbKey
    originalFileName := filename
    jobId
    systemDocumentId := jobId
    category := form.category
    traceId := some traceId
    contentType := some contentType
    externalDocumentId := form.externalDocumentId
    externalSystemId := form.externalSystemId
    aiConsentFlag := form.aiConsentFlag
    uploadMethod := .direct
    uploadSource := form.uploadSource
    tenantId := auth.tenantId
    apiKeyName := auth.apiKeyName
    isDemo := form.isDemo
    isTestRun := form.isTestRun
    isCompare := form.isCompare
    ttlDays := ttlDaysFor form }

/-- Demo and test uploads are not charged. -/
def chargeUpload (auth : UserContext) (form : UploadForm) : Prog Unit :=
  if !form.isDemo && !form.isTestRun then incrementAndCheck auth.tenantId else pure ()

/-- `_UploadResult` without its message. -/
structure UploadResult where
  jobId     : String
  jobStatus : ProcessStatus

def uploadDocument (env : EnvConfig) (auth : UserContext) (form : UploadForm) :
    Prog UploadResult := do
  let traceId ← traceIdOrNew form.traceId
  let contentType ← liftExcept (validateUpload env form.file)
  let filename := form.file.filename.getD ""
  chargeUpload auth form
  let jobId : String ← call .uuid4
  let ddbKey ← liftExcept (generateUniqueFilename filename jobId)
  try
    insertMinimalDdbRecord env (uploadRecord auth form ddbKey filename jobId traceId contentType)
  catch _ => throw (.httpException 500 "Failed to create upload record")
  if form.aiConsentFlag = some false then do
    classifyAsAiConsentDeclined env ddbKey none
    pure ⟨jobId, .aiConsentDeclined⟩
  else
    try
      dispatchUpload env ddbKey
        { file := form.file
          destPath := destPath (uploadLocation env form.isDemo) auth.tenantId ddbKey
          originalFileName := filename
          contentType
          tenantId := auth.tenantId
          category := form.category
          jobId := some jobId
          traceId := some traceId }
      pure ⟨jobId, .notStarted⟩
    catch e =>
      match e with
      | .imageConversionError _ => pure ⟨jobId, .conversionFailed⟩
      | e                       => throw e

def createDocument (env : EnvConfig) (auth : UserContext) (form : UploadForm) : Prog Unit := do
  let _ ← uploadDocument env auth form
  pure ()

/-! ## Polling -/

/-- A waiting request: what it asks for, and the poll at which its client is gone. -/
structure PollRequest where
  timeout              : Nat
  includeExtractedData : Bool := false
  includeBoundingBox   : Bool := false
  disconnect           : Option Nat := none

/-- `polling_interval` is five seconds. -/
def PollRequest.polls (req : PollRequest) : Nat := (req.timeout + 4) / 5

/-- `request.is_disconnected()` before poll number `i`. -/
def PollRequest.isDisconnected (req : PollRequest) (i : Nat) : Bool :=
  req.disconnect.any fun d => decide (d ≤ i)

/-- The `JobStatusResponse` of a poll: made of a v1 response, or the `FAILED` one. -/
inductive PollAnswer where
  | fromV1 (v1 : V1ApiResponse)
  | timeout

/-- The validation of `JobStatusResponse.from_v1`: a job and a message. -/
def validateV1 (v1 : V1ApiResponse) : Prog V1ApiResponse :=
  if v1.jobId.isSome && v1.message.isSome then pure v1 else throw (.valueError "ValidationError")

/-- Status and stored response of a record that is done. -/
def finishedJob (r : Record) : Option (ProcessStatus × V1ApiResponse) :=
  match r.status, (r .v1ApiResponseJson : Option V1ApiResponse) with
  | some s, some v1 => if s.isClassified then some (s, v1) else none
  | _, _            => none

def finishedResponse (env : EnvConfig) (req : PollRequest) (objectKey : String)
    (status : ProcessStatus) (stored : V1ApiResponse) : Prog V1ApiResponse :=
  if req.includeExtractedData then do
    let v1 ← buildV1ApiResponse env objectKey status none none true req.includeBoundingBox
    validateV1 v1
  else validateV1 stored

/-- How the loop is left: with an answer, or without one and with the document last seen. -/
inductive Polled where
  | answered (v1 : V1ApiResponse)
  | gaveUp (objectKey : Option String)

/-- `polls` more rounds from number `i`; an exception in a round only ends the round. -/
def pollLoop (env : EnvConfig) (jobId : String) (req : PollRequest) :
    (polls : Nat) → (i : Nat) → Option String → Prog Polled
  | 0, _, objectKey         => pure (.gaveUp objectKey)
  | polls + 1, i, objectKey =>
    if req.isDisconnected i then pure (.gaveUp objectKey)
    else do
      let seen : List (String × Record) ←
        try
          let items : List (String × Record) ← call (.queryByJobId jobId)
          pure items
        catch _ => pure []
      match seen with
      | []            => pollLoop env jobId req polls (i + 1) objectKey
      | (key, r) :: _ =>
        match finishedJob r with
        | none                  => pollLoop env jobId req polls (i + 1) (some key)
        | some (status, stored) => do
          let answer : Option V1ApiResponse ←
            try
              let v1 ← finishedResponse env req key status stored
              pure (some v1)
            catch _ => pure none
          match answer with
          | some v1 => pure (.answered v1)
          | none    => pollLoop env jobId req polls (i + 1) (some key)

/-- A client that is gone ends the loop as the deadline does. -/
def pollForCompletion (env : EnvConfig) (jobId : String) (req : PollRequest) :
    Prog PollAnswer := do
  match ← pollLoop env jobId req req.polls 0 none with
  | .answered v1             => pure (.fromV1 v1)
  | .gaveUp none             => pure .timeout
  | .gaveUp (some objectKey) => do
    classifyAsFailed env objectKey "Processing timeout"
      { additionalInfo :=
          some ("Processing did not complete within " ++ toString req.timeout ++ " seconds") } none
    pure .timeout

/-- `create_document_wait`: at most `_APIGW_MAX_TIMEOUT_SECONDS` of polling after the upload. -/
def createDocumentWait (env : EnvConfig) (auth : UserContext) (form : UploadForm)
    (req : PollRequest) : Prog Unit := do
  let result ← uploadDocument env auth form
  if result.jobStatus.isClassified then pure ()
  else do
    let _ ← pollForCompletion env result.jobId
      { req with
        timeout := min req.timeout 25
        includeExtractedData := req.includeExtractedData || req.includeBoundingBox }
    pure ()

/-! ## Presigned uploads -/

structure PresignedForm where
  filename           : String
  contentType        : String
  category           : Option String := none
  traceId            : Option String := none
  externalDocumentId : Option String := none
  externalSystemId   : Option String := none
  aiConsentFlag      : Option Bool := some true
  uploadSource       : Option String := none

/-- `MAX_FILENAME_LENGTH`: the longest name the form accepts. -/
def maxFilenameLength : Nat := 255

/-- The metadata that the policy of a presigned form fixes for its object. -/
def presignedMetadata (form : PresignedForm) (jobId traceId : String) : S3Metadata :=
  { jobId := some jobId
    traceId := some traceId
    originalFileName := some (sanitizeForS3Metadata form.filename)
    userProvidedDocumentCategory := truthy form.category }

def createPresignedUploadUrl (env : EnvConfig) (auth : UserContext) (form : PresignedForm) :
    Prog Unit := do
  if !FileValidation.noConversionNeeded.contains form.contentType then
    throw (.httpException 400 ("Presigned uploads only support BDA-native formats: "
      ++ ", ".intercalate FileValidation.noConversionNeeded ++ ". For '" ++ form.contentType
      ++ "', use the direct upload endpoint (POST /v1/documents) which handles format conversion "
      ++ "automatically."))
  else if form.aiConsentFlag = some false then
    throw (.httpException 400
      "AI consent declined. Presigned upload requires AI processing consent.")
  else do
    let traceId ← traceIdOrNew form.traceId
    incrementAndCheck auth.tenantId
    match truthy env.documentaiInputLocation with
    | none          => throw (.httpException 500 "Upload location not configured")
    | some location =>
      match parseS3Uri location with
      | .error _ => throw (.httpException 500 "Upload location misconfigured")
      | .ok _    => do
        let jobId : String ← call .uuid4
        let ddbKey ← liftExcept (generateUniqueFilename form.filename jobId)
        try
          insertMinimalDdbRecord env
            { ddbKey
              originalFileName := form.filename
              jobId
              systemDocumentId := jobId
              processStatus := .pendingUpload
              category := form.category
              traceId := some traceId
              contentType := some form.contentType
              externalDocumentId := form.externalDocumentId
              externalSystemId := form.externalSystemId
              uploadMethod := .presigned
              uploadSource := form.uploadSource
              tenantId := auth.tenantId
              apiKeyName := auth.apiKeyName
              aiConsentFlag := form.aiConsentFlag }
        catch _ => throw (.httpException 500 "Failed to create upload record")

/-! ## Build submission -/

/-- The metadata and pages of a build, read before the submission writes anything. -/
structure BuildSubmission where
  buildId            : String
  category           : Option String := none
  aiConsentFlag      : Option Bool := none
  externalDocumentId : Option String := none
  externalSystemId   : Option String := none
  uploadSource       : Option String := none
  mergedPdf          : Bytes

def submitBuild (env : EnvConfig) (auth : UserContext) (traceId : Option String)
    (build : BuildSubmission) : Prog Unit := do
  let traceId ← traceIdOrNew traceId
  let record (ddbKey originalFileName jobId : String) : DocumentRecord :=
    { ddbKey
      originalFileName
      jobId
      systemDocumentId := jobId
      category := build.category
      traceId := some traceId
      contentType := some "application/pdf"
      uploadMethod := .build
      uploadSource := build.uploadSource
      tenantId := auth.tenantId
      apiKeyName := auth.apiKeyName }
  if build.aiConsentFlag = some false then do
    let jobId : String ← call .uuid4
    let ddbKey := "document-build-" ++ build.buildId ++ "-" ++ jobId ++ ".pdf"
    insertMinimalDdbRecord env
      { record ddbKey ("build-" ++ build.buildId ++ ".pdf") jobId with
        externalDocumentId := build.externalDocumentId
        externalSystemId := build.externalSystemId
        aiConsentFlag := some false }
    classifyAsAiConsentDeclined env ddbKey none
  else
    match truthy env.documentaiInputLocation with
    | none          =>
      throw (.httpException 500 "DOCUMENTAI_INPUT_LOCATION environment variable not set")
    | some location =>
      try
        let jobId : String ← call .uuid4
        let suffix : String ← call .uuid4
        let ddbKey := "document-build-" ++ build.buildId ++ "-" ++ suffix ++ ".pdf"
        insertMinimalDdbRecord env (record ddbKey ddbKey jobId)
        uploadDocumentForProcessing env
          { file := { filename := some ddbKey, bytes := build.mergedPdf }
            destPath := destPath (some location) auth.tenantId ddbKey
            originalFileName := ddbKey
            contentType := "application/pdf"
            tenantId := auth.tenantId
            category := build.category
            jobId := some jobId
            traceId := some traceId
            buildId := some build.buildId }
      catch e =>
        match e with
        | .httpException .. => throw e
        | _                 => throw (.httpException 500 "Failed to submit document build")

/-! ## Delete -/

def notFound (jobId : String) : Exc := .httpException 404 ("Job ID " ++ jobId ++ " not found")

/-- "Soft delete retains" the S3 copies. -/
def purgeIfHard (env : EnvConfig) (objectKey tenantId : String) (softDelete : Bool) :
    Prog (List String) :=
  if softDelete then pure [] else purgeDocumentS3Artifacts env objectKey tenantId

def deleteRecord (env : EnvConfig) (auth : UserContext) (objectKey : String) (softDelete : Bool) :
    Prog Unit := do
  let failures ← purgeIfHard env objectKey auth.tenantId softDelete
  if failures ≠ [] then
    throw (.httpException 500 ("Failed to fully delete document (locations: "
      ++ ", ".intercalate failures ++ ")"))
  else markDocumentDeleted objectKey (if softDelete then .soft else .hard)

def deleteDocument (env : EnvConfig) (auth : UserContext) (jobId : String) (softDelete : Bool) :
    Prog Unit := do
  let items : List (String × Record) ← call (.queryByJobId jobId)
  match items with
  | []                  => throw (notFound jobId)
  | (objectKey, r) :: _ =>
    if r.tenantId ≠ some auth.tenantId then throw (notFound jobId)
    else if r.status = some .deleted then throw (notFound jobId)
    else if !r.status.any ProcessStatus.isClassified then
      throw (.httpException 400 "Cannot delete a document that is still processing")
    else deleteRecord env auth objectKey softDelete

end DocumentAi

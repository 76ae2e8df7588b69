import DocumentAi.Utils.Zip
import DocumentAi.Routers.Documents

/-!
# Batch routes: one request, one task for each file

| here | there |
| --- | --- |
| `processOne`         | `_process_one` (`routers/batch.py:98-174`) |
| `batchTask`          | a task of the `TaskGroup` that runs it (`routers/batch.py:176-181`) |
| `groupError`         | the `except*` clauses (`routers/batch.py:182-189`): a mixed group stays an `ExceptionGroup` |
| `processBatchFiles`  | `_process_batch_files` (`routers/batch.py:79-189`) |
| `executeBatch`       | `_execute_batch` (`routers/batch.py:192-257`) |
| `uploadBatch`        | `upload_document_batch`, `upload_zip_batch` (`routers/batch.py:260-336`) |
-/

namespace DocumentAi

def processOne (env : EnvConfig) (location : String) (t : BatchTask) : Prog Unit := do
  match truthy t.file.filename with
  | none          =>
    throw (.httpException 400 ("Filename is required (file at position " ++ toString t.idx ++ ")"))
  | some filename => do
    incrementAndCheck t.tenantId
    let contentType ← liftExcept (validateFileType env t.file)
    let jobId : String ← call .uuid4
    let unique ← liftExcept (generateUniqueFilename filename jobId)
    let ddbKey := toString t.idx ++ "-" ++ unique
    insertMinimalDdbRecord env
      { ddbKey
        originalFileName := filename
        jobId
        systemDocumentId := jobId
        category := t.category
        traceId := some t.traceId
        batchId := some t.batchId
        contentType := some contentType
        externalDocumentId := t.externalDocumentId
        externalSystemId := t.externalSystemId
        aiConsentFlag := t.aiConsentFlag
        uploadMethod := t.uploadMethod
        tenantId := t.tenantId
        apiKeyName := t.apiKeyName }
    if t.aiConsentFlag = some false then
      classifyAsAiConsentDeclined env ddbKey (some t.batchId)
    else
      try
        uploadDocumentForProcessing env
          { file := t.file
            destPath := destPath (some location) t.tenantId ddbKey
            originalFileName := filename
            contentType
            tenantId := t.tenantId
            category := t.category
            jobId := some jobId
            traceId := some t.traceId
            batchId := some t.batchId }
      catch e =>
        match e with
        | .imageConversionError m => classifyAsConversionFailed env ddbKey m (some t.batchId)
        | .httpException _ detail => do
          classifyAsFailed env ddbKey detail (failedUploadData detail) (some t.batchId)
          throw e
        | e => throw e

def batchTask (env : EnvConfig) (location group : String) (idx : Nat) : Prog Unit := do
  let t : BatchTask ← call (.takeTask group idx)
  let error ←
    try
      processOne env location t
      pure none
    catch e =>
      -- the group counts no cancelled task among its errors
      pure (if e = .cancelledError then none else some e)
  call (.endTask group idx error)

def groupError (errors : List Exc) : Option Exc :=
  match errors.find? Exc.isHttp, errors.find? fun e => !e.isHttp with
  | some _, some _    => some (.exception "ExceptionGroup")
  | some e, none      => some e
  | none, some e      => some e
  | none, none        => none

/-- What `_execute_batch` passes on to every file. -/
structure BatchForm where
  files              : List UploadFile
  uploadMethod       : UploadMethod := .batch
  category           : Option String := none
  traceId            : String := ""
  externalDocumentId : Option String := none
  externalSystemId   : Option String := none
  aiConsentFlag      : Option Bool := some true

def batchTasks (auth : UserContext) (form : BatchForm) (batchId : String) : List BatchTask :=
  form.files.mapIdx fun idx file =>
    { idx
      file
      batchId
      category := form.category
      traceId := form.traceId
      tenantId := auth.tenantId
      apiKeyName := auth.apiKeyName
      externalDocumentId := form.externalDocumentId
      externalSystemId := form.externalSystemId
      aiConsentFlag := form.aiConsentFlag
      uploadMethod := form.uploadMethod }

def processBatchFiles (env : EnvConfig) (auth : UserContext) (form : BatchForm)
    (batchId : String) : Prog Unit := do
  match truthy env.documentaiInputLocation with
  | none   => throw (.httpException 500 "DOCUMENTAI_INPUT_LOCATION environment variable not set")
  | some _ => do
    call (.spawn batchId (batchTasks auth form batchId))
    let errors : List Exc ← call (.join batchId)
    match groupError errors with
    | some e => throw e
    | none   => pure ()

def getBatch (batchId : String) : Prog (Option BatchRecord) := call (.getBatch batchId)

def failBatch (batchId : String) : Prog Unit := do
  let batch ← getBatch batchId
  if batch.isSome then updateBatchStatus batchId .failed (some "Internal processing error")
  else pure ()

def executeBatch (env : EnvConfig) (auth : UserContext) (form : BatchForm) : Prog Unit := do
  let id : String ← call .uuid4
  let batchId := auth.tenantId ++ "/" ++ id
  try
    let _ ← createBatch batchId form.files.length form.category (some auth.tenantId)
      (some auth.apiKeyName)
    processBatchFiles env auth form batchId
    updateBatchStatus batchId .processing
  catch e =>
    match e with
    | .httpException .. => throw e
    | _                 => do
      failBatch batchId
      throw (.httpException 500 "Failed to upload batch")

/-- The two batch routes, a ZIP archive after it is unpacked. -/
def uploadBatch (env : EnvConfig) (auth : UserContext) (form : BatchForm) : Prog Unit := do
  let traceId ← traceIdOrNew (some form.traceId)
  if form.files.isEmpty then
    throw (.httpException 400 (if form.uploadMethod = .batchZip then "No valid files found in zip"
      else "No files provided"))
  else if form.uploadMethod ≠ .batchZip ∧ maxBatchSize < form.files.length then
    throw (.httpException 400 ("Batch size exceeds maximum of " ++ toString maxBatchSize
      ++ " files"))
  else executeBatch env auth { form with traceId }

end DocumentAi

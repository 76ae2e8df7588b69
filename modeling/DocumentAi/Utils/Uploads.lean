import DocumentAi.Utils.Documents

/-!
# Uploads: validation, the copies of an upload, and the purge of a hard delete

| here | there |
| --- | --- |
| `purgeDocumentS3Artifacts`   | `purge_document_s3_artifacts` (`utils/uploads.py:99-144`) |
| `validateFileType`, `validateUpload` | `utils/uploads.py:160-193`, `:222-256` |
| `saveOriginalToPreprocessing`| `_save_original_to_preprocessing` (`:259-280`) |
| `uploadDocumentForProcessing`| `upload_document_for_processing` (`:283-382`) |
-/

namespace DocumentAi

/-! ## Purge -/

structure PurgeLocation where
  label    : String
  location : Option String
  name     : String
  /-- Delete the prefix `key/` instead of the object `key`. -/
  tree     : Bool := false

def purgeLocations (env : EnvConfig) (objectKey : String) : List PurgeLocation :=
  [ { label := "input", location := env.documentaiInputLocation, name := objectKey },
    { label := "input_truncated"
      location := env.documentaiInputLocation
      name := getTruncatedObjectKey objectKey },
    { label := "preprocessing"
      location := env.documentaiPreprocessingLocation
      name := objectKey },
    { label := "output"
      location := env.documentaiOutputLocation
      name := objectKey
      tree := true } ]

/-- `s3_service.delete_object`, or `delete_prefix` on `f"{k}/"`. -/
def deleteArtifact (tree : Bool) (key : S3Key) : Prog Unit :=
  if tree then call (.deletePrefix key.1 (key.2 ++ "/")) else call (.deleteObject key)

/-- The failed label, if any. An unset location is skipped. -/
def purgeLocation (tenantId : String) (pl : PurgeLocation) : Prog (Option String) := do
  match truthy pl.location with
  | none          => pure none
  | some location =>
    try
      let key ← liftExcept (getBucketAndKey location (some tenantId) pl.name)
      deleteArtifact pl.tree key
      pure none
    catch _ => pure (some pl.label)

def purgeAll (tenantId : String) : List PurgeLocation → Prog (List String)
  | []        => pure []
  | pl :: pls => do
    let failed ← purgeLocation tenantId pl
    let rest ← purgeAll tenantId pls
    pure (failed.toList ++ rest)

/-- "Returns the names of any locations that could NOT be purged." -/
def purgeDocumentS3Artifacts (env : EnvConfig) (objectKey tenantId : String) :
    Prog (List String) :=
  purgeAll tenantId (purgeLocations env objectKey)

/-! ## Validation -/

/-- `MAX_UPLOAD_SIZE_BYTES`. -/
def maxUploadSizeBytes : Nat := 524288000

/-- The bytes type detection reads: a header, or a container up to the size limit. -/
def detectionBytes (b : Bytes) : Bytes :=
  if FileValidation.isOfficeContainerMagic (b.take 4096) then b.take (maxUploadSizeBytes + 1)
  else b.take 4096

def validateFileType (env : EnvConfig) (file : UploadFile) : Except Exc String :=
  let actual := detectMime env (detectionBytes file.bytes)
  if FileValidation.isOdt actual then
    .error (.httpException 400 ("OpenDocument Text (.odt) files aren't currently supported. "
      ++ "Please save the document as PDF or Microsoft Word (.docx) and try again."))
  else if FileValidation.supportedContentTypes.contains actual then .ok actual
  else
    .error (.httpException 400 ("Invalid file type detected '" ++ actual ++ "'"
      ++ (match truthy file.filename with
          | some n => " for '" ++ n ++ "'"
          | none   => "")
      ++ ". File must be " ++ ", ".intercalate FileValidation.supportedContentTypes))

def validateUpload (env : EnvConfig) (file : UploadFile) : Except Exc String :=
  if (truthy file.filename).isNone then .error (.httpException 400 "Filename is required")
  else if maxUploadSizeBytes < file.bytes.length then
    .error (.httpException 400 ("File too large (" ++ toString file.bytes.length
      ++ " bytes). Maximum is " ++ toString maxUploadSizeBytes ++ " bytes."))
  else validateFileType env file

/-! ## Upload -/

/-- What a route passes on about an upload. -/
structure UploadRequest where
  file             : UploadFile
  destPath         : String
  originalFileName : String
  contentType      : String
  tenantId         : String
  category         : Option String := none
  jobId            : Option String := none
  traceId          : Option String := none
  batchId          : Option String := none
  buildId          : Option String := none

/-- Bucket and prefix of the preprocessing location, as `EnvConfig` parses it. -/
def EnvConfig.preprocessing (env : EnvConfig) : Except Exc (Option (String × String)) :=
  match truthy env.documentaiPreprocessingLocation with
  | none     => .ok none
  | some loc => (parseS3Uri loc).map some

def isUnder (pre : String × String) (key : S3Key) : Bool :=
  key.1 == pre.1 && (key.2 == pre.2 || (pre.2 ++ "/").toList.isPrefixOf key.2.toList)

def saveOriginalToPreprocessing (env : EnvConfig) (bytes : Bytes) (objectKey contentType : String)
    (tenantId : String) : Prog Unit :=
  match truthy env.documentaiPreprocessingLocation with
  | none =>
    throw (.runtimeError ("DOCUMENTAI_PREPROCESSING_LOCATION is not set; refusing to upload "
      ++ "without a preprocessing backup of the original"))
  | some location => do
    let key ← liftExcept (getBucketAndKey location (some tenantId) objectKey)
    call (.putObject key { body := .raw bytes, contentType := some contentType })

/-- "Skip if dest is already preprocessing - the main upload below is the write." -/
def backupOriginal (env : EnvConfig) (req : UploadRequest) (key : S3Key) : Prog Unit := do
  let preprocessing ← liftExcept env.preprocessing
  if preprocessing.any fun pre => isUnder pre key then pure ()
  else saveOriginalToPreprocessing env req.file.bytes (basename key.2) req.contentType req.tenantId

/-- `convert_file` with its `ValueError` as an `ImageConversionError`. -/
def convertUpload (env : EnvConfig) (bytes : Bytes) (contentType : String) :
    Except Exc (Bytes × String) :=
  if FileValidation.needsConversion contentType then
    match env.libs.convertFile bytes contentType with
    | some r => .ok r
    | none   => .error (.imageConversionError ("Image conversion failed for " ++ contentType))
  else .ok (bytes, contentType)

def registerCategory (tenantId : String) (category : Option String) : Prog Unit := do
  match truthy category, truthy (some tenantId) with
  | some c, some t =>
    try call (.autoRegisterCategory t c)
    catch _ => pure ()
  | _, _ => pure ()

def uploadMetadata (req : UploadRequest) : S3Metadata :=
  { userProvidedDocumentCategory := truthy req.category
    jobId := truthy req.jobId
    traceId := truthy req.traceId
    originalFileName := some req.originalFileName
    batchId := truthy req.batchId
    buildId := truthy req.buildId }

def uploadDocumentForProcessing (env : EnvConfig) (req : UploadRequest) : Prog Unit := do
  let key ← liftExcept (parseS3Uri req.destPath)
  backupOriginal env req key
  registerCategory req.tenantId req.category
  let (bytes, contentType) ← liftExcept (convertUpload env req.file.bytes req.contentType)
  try
    call (.putObject key
      { body := .raw bytes, contentType := some contentType, metadata := uploadMetadata req })
  catch _ => throw (.httpException 500 "Document upload failed")

end DocumentAi

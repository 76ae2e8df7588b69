import Mathlib.Data.PNat.Defs
import DocumentAi.Utils.BuildTable

/-!
# Build routes: pages are uploaded one by one and submitted as one document

| here | there |
| --- | --- |
| `PdfLibrary`              | `pypdf` and Pillow, as `utils/pdf.py` uses them |
| `mergePagesToPdf`         | `merge_pages_to_pdf` (`utils/pdf.py:20-57`) |
| `validateBuildTenantAccess` | `validate_build_tenant_access` (`utils/tenant_access.py:31-38`) |
| `addPageToBuild`          | `add_page_to_build` (`routers/build.py:73-122`) |
| `createBuild`             | `create_build` (`:128-163`) |
| `uploadDocumentBuildPage` | `upload_document_build_page` (`:166-226`) |
| `pageOfBatch`             | one task of `upload_document_build_pages_batch` (`:229-324`) with the checks of the route before it |
| `submitBuild`             | `_submit_build` (`:341-464`) |
| `deletePageEndpoint`, `deleteBuildEndpoint` | `delete_document_build_page_endpoint`, `delete_document_build_endpoint` (`:572-626`) |
| `Request`, `buildPool`    | the routes, in a pool with all other handlers |

The checks of the batch route only read, so `k` tasks that check at the same moments are a request
with `k` files; a cancelled sibling is a killed one. The poll of the wait route (`:517-529`) comes after
the submission: `pollForCompletion` touches no build, and writes `FAILED` on the document when the time
is up.
-/

namespace DocumentAi.Builds

/-! ## The merged document -/

/-- `none` where the library raises. -/
structure PdfLibrary (Page : Type) where
  /-- `PdfReader(..).pages`. -/
  pages      : Bytes → Option (List Page)
  /-- The pages of an image that Pillow has saved as a PDF. -/
  imagePages : Bytes → Option (List Page)
  write      : List Page → Bytes

def isPdf (data : Bytes) : Bool := data.take 4 == ascii "%PDF"

def isImage (env : EnvConfig) (data : Bytes) : Bool :=
  (env.libs.guessMime data).any fun mime =>
    FileValidation.supportedContentTypes.contains mime && isImageType mime

/-- The pages that one uploaded file adds to the writer. -/
def pagesOfFile {Page : Type} (env : EnvConfig) (pdf : PdfLibrary Page) (pageNumber : Nat)
    (bytes : Bytes) : Except Exc (List Page) :=
  if isPdf bytes then
    match pdf.pages bytes with
    | some pages => .ok pages
    | none       => .error (.exception "PdfReadError")
  else if isImage env bytes then
    match pdf.imagePages bytes with
    | some pages => .ok pages
    | none       => .error (.exception "UnidentifiedImageError")
  else .error (.valueError ("Unsupported file content for page " ++ toString pageNumber))

def addPages {Page : Type} (env : EnvConfig) (pdf : PdfLibrary Page) :
    List PageMetadata → List Page → BProg (List Page)
  | [], writer            => pure writer
  | page :: pages, writer => do
    let obj : S3Object ← base (call (.getObject (page.s3BucketName, page.s3Key)))
    let added ← base (liftExcept (pagesOfFile env pdf page.pageNumber obj.bytes))
    addPages env pdf pages (writer ++ added)

def mergePagesToPdf {Page : Type} (env : EnvConfig) (pdf : PdfLibrary Page)
    (pages : List PageMetadata) : BProg Bytes := do
  let writer ← addPages env pdf (sortPages pages) []
  pure (pdf.write writer)

/-! ## Creation, upload and deletion of pages -/

def buildNotFound (buildId : String) : Exc :=
  .httpException 404 ("Build " ++ buildId ++ " not found")

def validateBuildTenantAccess (auth : UserContext) (buildId : String) : BProg Unit := do
  let metadata : Option Row ← tableCall (.getItem (metadataKey buildId))
  if metadata.bind Row.tenantId = some auth.tenantId then pure ()
  else throw (buildNotFound buildId)

def createBuild (auth : UserContext) (form : BuildForm) (traceId : Option String) :
    BProg Unit := do
  let _ ← base (traceIdOrNew traceId)
  let buildId : String ← base (call .uuid4)
  createDocumentBuild buildId auth form

def addPageToBuild (env : EnvConfig) (up : PageUpload) (overwrite : Bool) : BProg Unit := do
  match truthy up.file.filename with
  | none          => throw (.httpException 400 "Filename is required")
  | some filename => do
    base (uploadDocumentForProcessing env (up.request env filename))
    let (_, pre) ← base (liftExcept (parseS3Uri (env.documentaiPreprocessingLocation.getD "")))
    let s3Path := if pre ≠ "" then pre ++ "/" ++ up.uniqueFileName else up.uniqueFileName
    upsertDocumentBuildPage up.buildId up.pageNumber s3Path (some filename) up.category overwrite

/-- `MAX_FILE_SIZE_BYTES`. -/
def maxFileSizeBytes : Nat := 524288000

def maxPagesPerBuild : Nat := 50

def nextPageNumber (pages : List PageMetadata) : Nat :=
  (pages.map (·.pageNumber)).foldl max 0 + 1

/-- The `except` clauses of the two upload routes. -/
def uploadErrors (detail : String) (p : BProg Unit) : BProg Unit := do
  try p
  catch e =>
    match e with
    | .httpException ..       => throw e
    | .imageConversionError m => throw (.httpException 400 ("Image conversion failed: " ++ m))
    | _                       => throw (.httpException 500 detail)

/-- A file for a build, with the form of its request. -/
structure PageForm where
  buildId    : String
  /-- "1-indexed". -/
  pageNumber : Option ℕ+ := none
  overwrite  : Bool := false
  category   : Option String := none
  traceId    : Option String := none

def PageForm.upload (form : PageForm) (auth : UserContext) (file : UploadFile)
    (contentType traceId : String) (pageNumber : Nat) : PageUpload where
  file := file
  buildId := form.buildId
  pageNumber := pageNumber
  contentType := contentType
  tenantId := auth.tenantId
  category := form.category
  traceId := some traceId

def uploadDocumentBuildPage (env : EnvConfig) (auth : UserContext) (file : UploadFile)
    (form : PageForm) : BProg Unit := do
  validateBuildTenantAccess auth form.buildId
  uploadErrors "Failed to upload page" do
    let traceId : String ← base (traceIdOrNew form.traceId)
    let contentType : String ← base (liftExcept (validateFileType env file))
    if maxFileSizeBytes < file.bytes.length then
      throw (.httpException 400 ("File size exceeds maximum of " ++ toString maxFileSizeBytes
        ++ " bytes"))
    else
      let pages ← getDocumentBuildPages env form.buildId
      if maxPagesPerBuild ≤ pages.length then
        throw (.httpException 400 ("Build exceeds maximum of " ++ toString maxPagesPerBuild
          ++ " pages"))
      else
        addPageToBuild env
          (form.upload auth file contentType traceId
            ((form.pageNumber.map PNat.val).getD (nextPageNumber pages))) form.overwrite

/-- The content types of all files, or the first refusal. -/
def validateFiles (env : EnvConfig) : List UploadFile → Except Exc (List String)
  | []            => .ok []
  | file :: files => do
    let contentType ← validateFileType env file
    if maxFileSizeBytes < file.bytes.length then
      .error (.httpException 400 ("File '" ++ file.filename.getD "None" ++ "' exceeds maximum size of "
        ++ toString maxFileSizeBytes ++ " bytes"))
    else do
      let contentTypes ← validateFiles env files
      pure (contentType :: contentTypes)

def pageOfBatch (env : EnvConfig) (auth : UserContext) (files : List UploadFile) (idx : Nat)
    (form : PageForm) : BProg Unit := do
  validateBuildTenantAccess auth form.buildId
  uploadErrors "Failed to upload pages" do
    let traceId : String ← base (traceIdOrNew form.traceId)
    if maxPagesPerBuild < files.length then
      throw (.httpException 400 ("Batch exceeds maximum of " ++ toString maxPagesPerBuild
        ++ " pages"))
    else
      let contentTypes ← base (liftExcept (validateFiles env files))
      let existing ← getDocumentBuildPages env form.buildId
      if maxPagesPerBuild < existing.length + files.length then
        throw (.httpException 400 ("Build would exceed maximum of " ++ toString maxPagesPerBuild
          ++ " pages"))
      else
        match files[idx]?, contentTypes[idx]? with
        | some file, some contentType =>
          addPageToBuild env
            (form.upload auth file contentType traceId (nextPageNumber existing + idx)) false
        | _, _ => pure ()

def deleteErrors (detail : String) (p : BProg Unit) : BProg Unit := do
  try p
  catch e =>
    match e with
    | .valueError m     => throw (.httpException 400 m)
    | .httpException .. => throw e
    | _                 => throw (.httpException 500 detail)

def deletePageEndpoint (env : EnvConfig) (auth : UserContext) (buildId : String)
    (pageNumber : Nat) : BProg Unit := do
  validateBuildTenantAccess auth buildId
  deleteErrors "Failed to delete page" do
    let deleted ← deleteDocumentBuildPage env buildId pageNumber
    if !deleted then
      throw (.httpException 404 ("Page " ++ toString pageNumber ++ " not found in build "
        ++ buildId))
    else pure ()

def deleteBuildEndpoint (env : EnvConfig) (auth : UserContext) (buildId : String) :
    BProg Unit := do
  validateBuildTenantAccess auth buildId
  deleteErrors "Failed to delete build" do
    let deleted ← deleteDocumentBuild env buildId
    if !deleted then throw (buildNotFound buildId) else pure ()

/-! ## Submission -/

/-- `_SubmitResult` without its message. -/
structure SubmitResult where
  jobId     : String
  jobStatus : ProcessStatus
  pageCount : Nat

/-- "AI consent not provided": a record that is terminal at once, and no document. -/
def declineBuild (env : EnvConfig) (buildId traceId : String) (metadata : Row) :
    BProg SubmitResult := do
  let jobId : String ← base (call .uuid4)
  let ddbKey := "document-build-" ++ buildId ++ "-" ++ jobId ++ ".pdf"
  match metadata.tenantId, metadata.apiKeyName with
  | some tenantId, some apiKeyName => do
    base (insertMinimalDdbRecord env
      { ddbKey
        originalFileName := "build-" ++ buildId ++ ".pdf"
        jobId
        systemDocumentId := jobId
        category := metadata.category
        traceId := some traceId
        contentType := some "application/pdf"
        externalDocumentId := metadata.externalDocumentId
        externalSystemId := metadata.externalSystemId
        aiConsentFlag := some false
        uploadMethod := .build
        uploadSource := metadata.uploadSource
        tenantId
        apiKeyName })
    base (classifyAsAiConsentDeclined env ddbKey none)
    let pages ← getDocumentBuildPages env buildId
    pure ⟨jobId, .aiConsentDeclined, pages.length⟩
  | none, _ => throw (.exception "KeyError: 'tenantId'")
  | _, none => throw (.exception "KeyError: 'apiKeyName'")

/-- "reject mixed categories"; the source names them in no particular order. -/
def checkCategories (pages : List PageMetadata) : Except Exc Unit :=
  let categories := (pages.filterMap (·.category)).dedup
  if 1 < categories.length then
    .error (.httpException 400 ("Mixed categories in build: " ++ ", ".intercalate categories
      ++ ". All pages must use the same category."))
  else .ok ()

/-- The category of the document: the first that a page has. -/
def buildCategory (pages : List PageMetadata) : Option String :=
  pages.findSome? fun page => truthy page.category

def submittedRecord (auth : UserContext) (traceId : String) (uploadSource : Option String)
    (pages : List PageMetadata) (fileName jobId : String) : DocumentRecord :=
  { ddbKey := fileName
    originalFileName := fileName
    jobId
    systemDocumentId := jobId
    category := buildCategory pages
    traceId := some traceId
    contentType := some "application/pdf"
    uploadMethod := .build
    uploadSource
    tenantId := auth.tenantId
    apiKeyName := auth.apiKeyName }

def mergedUpload (auth : UserContext) (location buildId traceId : String)
    (pages : List PageMetadata) (fileName jobId : String) (mergedPdf : Bytes) : UploadRequest :=
  { file := { filename := some fileName, bytes := mergedPdf }
    destPath := destPath (some location) auth.tenantId fileName
    originalFileName := fileName
    contentType := "application/pdf"
    tenantId := auth.tenantId
    category := buildCategory pages
    jobId := some jobId
    traceId := some traceId
    buildId := some buildId }

section
variable {Page : Type} (env : EnvConfig) (pdf : PdfLibrary Page) (auth : UserContext)

/-- What happens under the lock. -/
def uploadMerged (location buildId traceId : String) (uploadSource : Option String)
    (pages : List PageMetadata) : BProg SubmitResult := do
  let mergedPdf ← mergePagesToPdf env pdf pages
  let jobId : String ← base (call .uuid4)
  let suffix : String ← base (call .uuid4)
  let fileName := "document-build-" ++ buildId ++ "-" ++ suffix ++ ".pdf"
  base (insertMinimalDdbRecord env
    (submittedRecord auth traceId uploadSource pages fileName jobId))
  base (uploadDocumentForProcessing env
    (mergedUpload auth location buildId traceId pages fileName jobId mergedPdf))
  pure ⟨jobId, .notStarted, pages.length⟩

/-- An HTTP error keeps the lock; any other is answered by a rollback. -/
def rollBackOnError (buildId : String) (p : BProg SubmitResult) : BProg SubmitResult := do
  try p
  catch e =>
    match e with
    | .httpException .. => throw e
    | _                 => do
      try clearSubmittedAt buildId
      catch _ => pure ()
      throw (.httpException 500 "Failed to submit document build")

def submitPages (buildId traceId : String) (uploadSource : Option String) : BProg SubmitResult := do
  let pages ← getDocumentBuildPages env buildId
  if pages.isEmpty then
    throw (.httpException 400 ("Build " ++ buildId ++ " has no pages to submit"))
  else
    match truthy env.documentaiInputLocation with
    | none          =>
      throw (.httpException 500 "DOCUMENTAI_INPUT_LOCATION environment variable not set")
    | some location => do
      base (liftExcept (checkCategories pages))
      markDocumentBuildSubmitted buildId
      rollBackOnError buildId
        (uploadMerged env pdf auth location buildId traceId uploadSource pages)

def submitBuild (buildId : String) (traceId : Option String) : BProg SubmitResult := do
  let traceId ← base (traceIdOrNew traceId)
  let metadata : Option Row ← getBuildMetadata buildId
  match metadata.filter fun row => row.aiConsentFlag == some false with
  | some row => declineBuild env buildId traceId row
  | none     => submitPages env pdf auth buildId traceId (metadata.bind Row.uploadSource)

def submitDocumentBuild (buildId : String) (traceId : Option String) : BProg Unit := do
  validateBuildTenantAccess auth buildId
  let _ ← submitBuild env pdf auth buildId traceId
  pure ()

end

/-! ## All requests -/

inductive Request where
  | create (auth : UserContext) (form : BuildForm) (traceId : Option String)
  | uploadPage (env : EnvConfig) (auth : UserContext) (file : UploadFile) (form : PageForm)
  | batchPage (env : EnvConfig) (auth : UserContext) (files : List UploadFile) (idx : Nat)
      (form : PageForm)
  | deletePage (env : EnvConfig) (auth : UserContext) (buildId : String) (pageNumber : Nat)
  | deleteBuild (env : EnvConfig) (auth : UserContext) (buildId : String)
  | submit (env : EnvConfig) (auth : UserContext) (buildId : String) (traceId : Option String)
  | other (e : Entry)

def Request.body {Page : Type} (pdf : PdfLibrary Page) : Request → BProg Unit
  | create auth form traceId             => createBuild auth form traceId
  | uploadPage env auth file form        => uploadDocumentBuildPage env auth file form
  | batchPage env auth files idx form    => pageOfBatch env auth files idx form
  | deletePage env auth buildId n        => deletePageEndpoint env auth buildId n
  | deleteBuild env auth buildId         => deleteBuildEndpoint env auth buildId
  | submit env auth buildId traceId      => submitDocumentBuild env pdf auth buildId traceId
  | other e                              => base e.body

abbrev buildPool {Page : Type} (pdf : PdfLibrary Page) : Effect.Sys tableSig where
  World  := World × Table
  Choice := Choice
  exec   := (system.extend Table tableStore).exec
  Entry  := Request
  body   := Request.body pdf

end DocumentAi.Builds

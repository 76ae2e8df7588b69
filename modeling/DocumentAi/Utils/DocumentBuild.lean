import DocumentAi.Lib.Extend
import DocumentAi.Metrics.Stats
import DocumentAi.System

/-!
# Document builds: a page of a build

| here | there |
| --- | --- |
| `DocumentBuilds`, `BuildItem` | an item of the document-builds table beside its keys, as far as the page functions write it (`schemas/document_builds.py`) |
| `BuildOp`, `buildStore`       | `put_item` on that table, with and without the condition `attribute_not_exists(buildId)` |
| `getExtension`                | `FileValidation.get_extension` with its default `unknown="bin"` (`constants/file_validation.py:134-137`) |
| `upsertDocumentBuildPage`     | `upsert_document_build_page` (`utils/document_build.py:55-107`) |
| `addPageToBuild`              | `add_page_to_build` (`routers/build.py:73-122`) |
-/

namespace DocumentAi

/-! ## The table -/

inductive DocumentBuilds where
  | s3Path | originalFileName | category | createdAt | timeToLive
deriving DecidableEq, Repr

namespace DocumentBuilds

def Val : DocumentBuilds → Type
  | s3Path | originalFileName | category => String
  | createdAt => Timestamp
  | timeToLive => Nat

abbrev schema : Dynamo.Schema := ⟨DocumentBuilds, Val⟩

end DocumentBuilds

abbrev BuildItem : Type := Dynamo.Item DocumentBuilds.schema

abbrev BuildItem.s3Path (item : BuildItem) : Option String := item .s3Path

/-- Build and page number. -/
abbrev PageKey : Type := String × Nat

abbrev BuildTable : Type := Dynamo.Table PageKey DocumentBuilds.schema

/-- `ifAbsent` is the condition `attribute_not_exists(buildId)`: the key is new. -/
inductive BuildOp where
  | putItem (key : PageKey) (item : BuildItem) (ifAbsent : Bool)

def BuildOp.Res : BuildOp → Type
  | putItem .. => Unit

def runBuildOp (t : BuildTable) : (op : BuildOp) → Except Exc op.Res × BuildTable
  | .putItem key item ifAbsent =>
    if ifAbsent ∧ (t.item key).isSome then (.error (.ofRejection .conditionalCheckFailed), t)
    else (.ok (), t.put key item)

def buildStore : Effect.Store sig BuildOp BuildOp.Res Choice BuildTable := fun t op ch =>
  match ch.fail with
  | some e => some (.error e, t)
  | none   => some (runBuildOp t op)

abbrev buildSig : Effect.Sig := sig.extend BuildOp BuildOp.Res

abbrev buildSystem : Effect.Sys buildSig := system.extend BuildTable buildStore

abbrev BuildProg (α : Type) : Type := Effect.Prog buildSig α

def shared {α : Type} (p : Prog α) : BuildProg α := p.embed BuildOp.Res

def buildCall (op : BuildOp) : BuildProg op.Res := Effect.Prog.perform (S := buildSig) (.inr op)

/-! ## One page -/

def getExtension (contentType : String) : String :=
  let ct := String.ofList
    (Metrics.stripSpaces (Chars.partition ';' (Metrics.lower contentType.toList)).1)
  (Metrics.contentTypeToExt.lookup ct).getD "bin"

open DocumentBuilds in
def pageItem (now : Timestamp) (s3Path_ : String) (originalFileName_ category_ : Option String) :
    BuildItem
  | .s3Path => some s3Path_
  | .createdAt => some now
  | .timeToLive => some (getTtlEpochInDays now 30)
  | .originalFileName => truthy originalFileName_
  | .category => truthy category_

def upsertDocumentBuildPage (buildId : String) (pageNumber : Nat) (s3Path : String)
    (originalFileName category : Option String) (overwrite : Bool) : BuildProg Unit := do
  let now ← shared (call .now)
  let item := pageItem now s3Path originalFileName category
  if !overwrite then
    try buildCall (.putItem (buildId, pageNumber) item true)
    catch e =>
      if e = .clientError .conditionalCheckFailedException then
        throw (.httpException 409 ("Page " ++ toString pageNumber ++ " already exists for build "
          ++ buildId ++ ". Set overwrite=true to replace."))
      else throw e
  else buildCall (.putItem (buildId, pageNumber) item false)

/-- The arguments of `add_page_to_build`. -/
structure PageUpload where
  file        : UploadFile
  buildId     : String
  pageNumber  : Nat
  contentType : String
  tenantId    : String
  category    : Option String := none
  traceId     : Option String := none

namespace PageUpload

def uniqueFileName (up : PageUpload) : String :=
  up.tenantId ++ "/" ++ up.buildId ++ "-page-" ++ toString up.pageNumber ++ "."
    ++ getExtension up.contentType

def request (env : EnvConfig) (up : PageUpload) (filename : String) : UploadRequest :=
  { file := up.file
    destPath := env.documentaiPreprocessingLocation.getD "" ++ "/" ++ up.uniqueFileName
    originalFileName := filename
    contentType := up.contentType
    tenantId := up.tenantId
    category := up.category
    traceId := up.traceId
    buildId := some up.buildId }

end PageUpload

def addPageToBuild (env : EnvConfig) (up : PageUpload) (overwrite : Bool) :
    BuildProg (Nat × String) :=
  match truthy up.file.filename with
  | none          => throw (.httpException 400 "Filename is required")
  | some filename => do
    shared (uploadDocumentForProcessing env (up.request env filename))
    let (_, pre) ← shared (liftExcept (parseS3Uri (env.documentaiPreprocessingLocation.getD "")))
    let s3Path := if pre ≠ "" then pre ++ "/" ++ up.uniqueFileName else up.uniqueFileName
    upsertDocumentBuildPage up.buildId up.pageNumber s3Path (some filename) up.category overwrite
    pure (up.pageNumber, filename)

end DocumentAi

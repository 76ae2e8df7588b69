import Mathlib.Data.List.Sort
import DocumentAi.Utils.DocumentBuild

/-!
# The document-builds table: the metadata row of a build and its pages

Page number 0 is the metadata row. Its attribute `submittedAt` is the submission lock: a conditional
update takes it, a rollback removes it, and a delete of the row takes it away with the row.

| here | there |
| --- | --- |
| `Attr`, `Row`, `Table`       | `schemas/document_builds.py`, beside the two keys |
| `TableOp`, `runTable`        | the requests on the table; a query answers in the order of the sort key, from the table as it stands |
| `documentBuildExists`, `getBuildMetadata` | `document_build_exists`, `get_build_metadata` (`utils/document_build.py:35-46`) |
| `upsertDocumentBuildPage`    | `upsert_document_build_page` (`:55-107`) |
| `getDocumentBuildPages`      | `get_document_build_pages` (`:110-128`) |
| `isDocumentBuildSubmitted`   | `is_document_build_submitted` (`:131-134`) |
| `markDocumentBuildSubmitted` | `mark_document_build_submitted` (`:137-181`) |
| `clearSubmittedAt`           | `clear_submitted_at` (`:184-193`) |
| `deleteDocumentBuildPage`    | `delete_document_build_page` (`:196-218`) |
| `createDocumentBuild`        | `create_document_build` (`:221-252`) |
| `deleteDocumentBuild`        | `delete_document_build` (`:255-271`) |
-/

namespace DocumentAi.Builds

/-! ## The table -/

inductive Attr where
  | s3Path | originalFileName | category | createdAt | submittedAt | externalDocumentId
  | externalSystemId | aiConsentFlag | isBuildMetadata | tenantId | apiKeyName | uploadSource
  | timeToLive
deriving DecidableEq, Repr

def Attr.Val : Attr → Type
  | s3Path | originalFileName | category | externalDocumentId | externalSystemId | tenantId
  | apiKeyName | uploadSource => String
  | createdAt | submittedAt => Timestamp
  | aiConsentFlag | isBuildMetadata => Bool
  | timeToLive => Nat

abbrev schema : Dynamo.Schema := ⟨Attr, Attr.Val⟩

abbrev Row : Type := Dynamo.Item schema

namespace Row

abbrev s3Path (row : Row) : Option String := row .s3Path
abbrev originalFileName (row : Row) : Option String := row .originalFileName
abbrev category (row : Row) : Option String := row .category
abbrev createdAt (row : Row) : Option Timestamp := row .createdAt
abbrev submittedAt (row : Row) : Option Timestamp := row .submittedAt
abbrev externalDocumentId (row : Row) : Option String := row .externalDocumentId
abbrev externalSystemId (row : Row) : Option String := row .externalSystemId
abbrev aiConsentFlag (row : Row) : Option Bool := row .aiConsentFlag
abbrev isBuildMetadata (row : Row) : Option Bool := row .isBuildMetadata
abbrev tenantId (row : Row) : Option String := row .tenantId
abbrev apiKeyName (row : Row) : Option String := row .apiKeyName
abbrev uploadSource (row : Row) : Option String := row .uploadSource

end Row

abbrev Table : Type := Dynamo.Table PageKey schema

/-- `_METADATA_PAGE_NUMBER` -/
def metadataKey (buildId : String) : PageKey := (buildId, 0)

inductive TableOp where
  | getItem (key : PageKey)
  | queryByPk (buildId : String)
  | putItem (key : PageKey) (row : Row) (ifAbsent : Bool)
  | updateItem (key : PageKey) (u : Dynamo.Update schema)
  | removeSubmittedAt (key : PageKey)
  | deleteItem (key : PageKey)

def TableOp.Res : TableOp → Type
  | getItem _   => Option Row
  | queryByPk _ => List (Nat × Row)
  | _           => Unit

/-- The rows of a build with their page numbers, by page number. -/
def rowsOf (t : Table) (buildId : String) : List (Nat × Row) :=
  (t.keys.filterMap fun k =>
    if k.1 = buildId then (t.item k).map fun row => (k.2, row) else none).insertionSort
      fun a b => a.1 ≤ b.1

def runTable (t : Table) : (op : TableOp) → Except Exc op.Res × Table
  | .getItem key => (.ok (t.item key), t)
  | .queryByPk buildId => (.ok (rowsOf t buildId), t)
  | .putItem key row ifAbsent =>
    if ifAbsent ∧ (t.item key).isSome then (.error (.ofRejection .conditionalCheckFailed), t)
    else (.ok (), t.put key row)
  | .updateItem key u =>
    match t.update key u with
    | .ok t'   => (.ok (), t')
    | .error e => (.error (.ofRejection e), t)
  | .removeSubmittedAt key =>
    (.ok (), t.put key (((t.item key).getD fun _ => none).without [.submittedAt]))
  | .deleteItem key => (.ok (), t.delete key)

def tableStore : Effect.Store sig TableOp TableOp.Res Choice Table := fun t op ch =>
  match ch.fail with
  | some e => some (.error e, t)
  | none   => some (runTable t op)

abbrev tableSig : Effect.Sig := sig.extend TableOp TableOp.Res

abbrev BProg (α : Type) : Type := Effect.Prog tableSig α

def base {α : Type} (p : Prog α) : BProg α := p.embed TableOp.Res

def tableCall (op : TableOp) : BProg op.Res := Effect.Prog.perform (S := tableSig) (.inr op)

/-! ## Reads -/

def getBuildMetadata (buildId : String) : BProg (Option Row) :=
  tableCall (.getItem (metadataKey buildId))

def documentBuildExists (buildId : String) : BProg Bool := do
  let row ← getBuildMetadata buildId
  pure row.isSome

structure PageMetadata where
  pageNumber       : Nat
  s3Key            : String
  s3BucketName     : String
  originalFileName : Option String := none
  category         : Option String := none
  createdAt        : Option Timestamp := none

def pageMetadata (bucketName : String) (e : Nat × Row) : PageMetadata where
  pageNumber := e.1
  s3Key := e.2.s3Path.getD ""
  s3BucketName := bucketName
  originalFileName := e.2.originalFileName
  category := e.2.category
  createdAt := e.2.createdAt

def sortPages (pages : List PageMetadata) : List PageMetadata :=
  pages.insertionSort fun a b => a.pageNumber ≤ b.pageNumber

def isPage (e : Nat × Row) : Bool := e.2.isBuildMetadata != some true

def pagesOf (bucketName : String) (rows : List (Nat × Row)) : List PageMetadata :=
  sortPages ((rows.filter isPage).map (pageMetadata bucketName))

/-- "Get all pages": every row that is not marked as metadata, a row of page 0 included. -/
def getDocumentBuildPages (env : EnvConfig) (buildId : String) : BProg (List PageMetadata) := do
  let (bucketName, _) ←
    base (liftExcept (parseS3Uri (env.documentaiPreprocessingLocation.getD "")))
  let rows : List (Nat × Row) ← tableCall (.queryByPk buildId)
  pure (pagesOf bucketName rows)

def anySubmitted (rows : List (Nat × Row)) : Bool :=
  !rows.isEmpty && rows.any fun e => e.2.submittedAt.isSome

def isDocumentBuildSubmitted (buildId : String) : BProg Bool := do
  let rows : List (Nat × Row) ← tableCall (.queryByPk buildId)
  pure (anySubmitted rows)

/-! ## Creation and pages -/

structure BuildForm where
  category           : Option String := none
  externalDocumentId : Option String := none
  externalSystemId   : Option String := none
  aiConsentFlag      : Option Bool := none
  uploadSource       : Option String := none

open Attr in
def metadataRow (now : Timestamp) (auth : UserContext) (form : BuildForm) : Row
  | .createdAt => some now
  | .isBuildMetadata => some true
  | .timeToLive => some (getTtlEpochInDays now 30)
  | .category => truthy form.category
  | .externalDocumentId => form.externalDocumentId
  | .externalSystemId => form.externalSystemId
  | .aiConsentFlag => form.aiConsentFlag
  | .tenantId => some auth.tenantId
  | .apiKeyName => some auth.apiKeyName
  | .uploadSource => form.uploadSource
  | .s3Path | .originalFileName | .submittedAt => none

def createDocumentBuild (buildId : String) (auth : UserContext) (form : BuildForm) :
    BProg Unit := do
  let now : Timestamp ← base (call .now)
  tableCall (.putItem (metadataKey buildId) (metadataRow now auth form) false)

/-- The row of a page: what `pageItem` writes and nothing else. -/
def pageRow (item : BuildItem) : Row
  | .s3Path => item.s3Path
  | .originalFileName => item .originalFileName
  | .category => item .category
  | .createdAt => item .createdAt
  | .timeToLive => item .timeToLive
  | _ => none

def upsertDocumentBuildPage (buildId : String) (pageNumber : Nat) (s3Path : String)
    (originalFileName category : Option String) (overwrite : Bool) : BProg Unit := do
  let now : Timestamp ← base (call .now)
  let row := pageRow (pageItem now s3Path originalFileName category)
  if !overwrite then
    try tableCall (.putItem (buildId, pageNumber) row true)
    catch e =>
      if e = .clientError .conditionalCheckFailedException then
        throw (.httpException 409 ("Page " ++ toString pageNumber ++ " already exists for build "
          ++ buildId ++ ". Set overwrite=true to replace."))
      else throw e
  else tableCall (.putItem (buildId, pageNumber) row false)

/-! ## Submission -/

def lockRequest (now : Timestamp) : Dynamo.Update schema :=
  { actions := [.set .submittedAt now], cond := some (.attributeNotExists .submittedAt) }

def stampRequest (now : Timestamp) : Dynamo.Update schema :=
  { actions := [.set .submittedAt now] }

def takeLock (buildId : String) (now : Timestamp) : BProg Unit := do
  try tableCall (.updateItem (metadataKey buildId) (lockRequest now))
  catch e =>
    if e = .clientError .conditionalCheckFailedException then
      throw (.httpException 400 ("Build " ++ buildId
        ++ " has already been submitted for processing"))
    else throw e

/-- "stamp submittedAt on all page records". -/
def stampPages (buildId : String) (now : Timestamp) (rows : List (Nat × Row)) : BProg Unit :=
  Effect.Prog.forEach (fun e => tableCall (.updateItem (buildId, e.1) (stampRequest now)))
    (rows.filter fun e => e.1 != 0)

def markDocumentBuildSubmitted (buildId : String) : BProg Unit := do
  let submittedAt : Timestamp ← base (call .now)
  takeLock buildId submittedAt
  let rows : List (Nat × Row) ← tableCall (.queryByPk buildId)
  stampPages buildId submittedAt rows

/-- "Remove submittedAt from the build metadata record": from that row only. -/
def clearSubmittedAt (buildId : String) : BProg Unit :=
  tableCall (.removeSubmittedAt (metadataKey buildId))

/-! ## Deletion -/

def alreadySubmitted (buildId : String) : Exc :=
  .valueError ("Cannot delete - session " ++ buildId ++ " has already been submitted")

def deletePageObject (bucketName : String) (row : Row) : BProg Unit :=
  match truthy row.s3Path with
  | some s3Path => base (call (.deleteObject (bucketName, s3Path)))
  | none        => pure ()

/-- Page 0 is deleted like any other: the metadata row itself. -/
def deleteDocumentBuildPage (env : EnvConfig) (buildId : String) (pageNumber : Nat) :
    BProg Bool := do
  if ← isDocumentBuildSubmitted buildId then throw (alreadySubmitted buildId)
  else
    let (bucketName, _) ←
      base (liftExcept (parseS3Uri (env.documentaiPreprocessingLocation.getD "")))
    let item : Option Row ← tableCall (.getItem (buildId, pageNumber))
    match item with
    | none     => pure false
    | some row => do
      deletePageObject bucketName row
      tableCall (.deleteItem (buildId, pageNumber))
      pure true

def deletePages (env : EnvConfig) (buildId : String) (pages : List PageMetadata) : BProg Unit :=
  Effect.Prog.forEach (fun page => do
    let _ ← deleteDocumentBuildPage env buildId page.pageNumber
    pure ()) pages

def deleteDocumentBuild (env : EnvConfig) (buildId : String) : BProg Bool := do
  if ← isDocumentBuildSubmitted buildId then throw (alreadySubmitted buildId)
  else
    let pages ← getDocumentBuildPages env buildId
    let found ← (if pages.isEmpty then documentBuildExists buildId else pure true)
    if !found then pure false
    else
      deletePages env buildId pages
      tableCall (.deleteItem (metadataKey buildId))
      pure true

end DocumentAi.Builds

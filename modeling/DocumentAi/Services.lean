import DocumentAi.Config.Env
import DocumentAi.Lib.Pool

/-!
# Services: the calls a handler makes and the world that answers them

One call is one request to a store, a queue or a service. It is executed atomically. What a call
answers is fixed by the world and by a `Choice`, the environment's part: whether the call fails
and with which exception, the clock, the random draw, the fresh identifiers, what an AI service
says.

A failed call changes nothing: a request that is carried out and whose answer is lost is not among
the failures. A query of an index, and any other read without `ConsistentRead`, is answered from the
table as it stands; `Footprint.StaleReads` has pools in which it may lag behind.

| here | there |
| --- | --- |
| `getItem`, `updateItem`, `queryBy…`      | `services/ddb.py` on the document-metadata table and its indexes |
| `putBatch`, `getBatch`, `updateBatch`    | the same on the document-batches table |
| `updateCount`, `queryMonth`              | the tenant-request-counts table (`utils/write_limit.py`) |
| `getObject`, `putObject`, `deleteObject`, `deletePrefix` | `services/s3.py`; `delete_prefix` lists and deletes exactly the keys with the prefix |
| `sendMetrics`, `sendOcrMapping`          | `services/sqs.py` on the two queues |
| `ai`                                     | Textract, Bedrock Converse and the BDA runtime (`services/textract.py`, `services/bedrock.py`, `utils/bda_invoker.py:123-135`) |
| `spawn`, `takeTask`, `endTask`, `join`   | `asyncio.TaskGroup` in `_process_batch_files` (`routers/batch.py:176-181`) |
-/

namespace DocumentAi

/-- Error codes of a botocore `ClientError` that the code tells apart. -/
inductive ErrorCode where
  | conditionalCheckFailedException
  | throttlingException
  | serviceUnavailableException
  | validationException
  | other (code : String)
deriving DecidableEq, Repr

def ErrorCode.name : ErrorCode → String
  | conditionalCheckFailedException => "ConditionalCheckFailedException"
  | throttlingException             => "ThrottlingException"
  | serviceUnavailableException     => "ServiceUnavailableException"
  | validationException             => "ValidationException"
  | other code                      => code

inductive Exc where
  | clientError (code : ErrorCode)
  | valueError (msg : String)
  | runtimeError (msg : String)
  | httpException (status : Nat) (detail : String)
  | imageConversionError (msg : String)
  | retryError (attempts : Nat)
  | cancelledError
  | exception (msg : String)
deriving DecidableEq, Repr

/-- `str(e)`. -/
def Exc.str : Exc → String
  | clientError c          => "An error occurred (" ++ c.name ++ ")"
  | valueError m           => m
  | runtimeError m         => m
  | httpException _ d      => d
  | imageConversionError m => m
  | retryError n           => "RetryError after " ++ toString n ++ " attempts"
  | cancelledError         => ""
  | exception m            => m

def Exc.isHttp : Exc → Bool
  | httpException .. => true
  | _                => false

/-- `is_retryable` (`services/exceptions.py`). -/
def isRetryable : Exc → Bool
  | .clientError .throttlingException         => true
  | .clientError .serviceUnavailableException => true
  | _                                         => false

/-- The exception a rejected DynamoDB request raises. -/
def Exc.ofRejection : Dynamo.Rejection → Exc
  | .conditionalCheckFailed => .clientError .conditionalCheckFailedException
  | .validation             => .clientError .validationException

/-! ## Other tables -/

inductive DocumentBatches where
  | batchStatus | totalFiles | resolvedCount | category | createdAt | updatedAt | errorMessage
  | ttl | tenantId | apiKeyName
deriving DecidableEq, Repr

namespace DocumentBatches

def Val : DocumentBatches → Type
  | batchStatus => BatchStatus
  | totalFiles | resolvedCount | ttl => Nat
  | createdAt | updatedAt => Timestamp
  | category | errorMessage | tenantId | apiKeyName => String

abbrev schema : Dynamo.Schema := ⟨DocumentBatches, Val⟩

end DocumentBatches

abbrev BatchRecord : Type := Dynamo.Item DocumentBatches.schema

inductive TenantRequestCountRecord where
  | count | ttl
deriving DecidableEq, Repr

namespace TenantRequestCountRecord

def Val : TenantRequestCountRecord → Type
  | count => Int
  | ttl   => Nat

abbrev schema : Dynamo.Schema := ⟨TenantRequestCountRecord, Val⟩

end TenantRequestCountRecord

abbrev CountRecord : Type := Dynamo.Item TenantRequestCountRecord.schema

structure TenantRecord where
  maxWritesPerDay           : Option Nat := none
  maxWritesPerMonth         : Option Nat := none
  extractionConfidenceFloor : Option Rat := none
  disabledBlueprintList     : Option (List String) := none

/-- An item of the extraction-rules table. -/
structure ExtractionRule where
  requiredFields : List String := []
  optionalFields : List String := []

/-! ## S3 -/

/-- User metadata of an uploaded object (`S3MetadataKeys`). -/
structure S3Metadata where
  userProvidedDocumentCategory : Option String := none
  jobId                        : Option String := none
  traceId                      : Option String := none
  originalFileName             : Option String := none
  batchId                      : Option String := none
  buildId                      : Option String := none

structure S3Object where
  body        : Body
  contentType : Option String := none
  metadata    : S3Metadata := {}

/-- A bucket and a key in it. -/
abbrev S3Key : Type := String × String

/-- The bytes of an object as the document pipeline reads them. -/
def S3Object.bytes (o : S3Object) : Bytes :=
  match o.body with
  | .raw b => b
  | _      => []

/-! ## AI services -/

/-- A WORD block of Textract `DetectDocumentText`. -/
structure Word where
  confidence : Rat
  left       : Rat
  top        : Rat

/-- `_PreclassificationResponse` (`utils/preclassification.py:30-46`). -/
structure PreclassificationResponse where
  documentType                    : String := "other_document"
  confidence                      : Rat := 0
  maxDocumentCountOnPage          : Int := 1
  maxDocumentCountOnPageReason    : String := ""
  hasMultipageInconsistency       : Bool := false
  hasMultipageInconsistencyReason : String := ""
  categoryMatch                   : Bool := true
  isIdentityDocument              : Bool := false

structure BlueprintMatchResponse where
  matchedBlueprint : Option String := none
  confidence       : Rat := 0

/-- A model's answer: `parsed` is `none` when the text fails the schema. -/
structure Converse (α : Type) where
  parsed       : Option α
  inputTokens  : Option Nat := none
  outputTokens : Option Nat := none

/-- An item of the model's answer on supplemental fields (`utils/textract.py:319-332`). -/
structure SupplementalItem where
  fieldName  : String := ""
  value      : String := ""
  blockIndex : Option Int := none

/-- One request to an AI service, with the document bytes (or what was made of them) it carries. -/
inductive AiCall where
  | detectDocumentText (bytes : Bytes)
  | emptyQuadrant (bytes : Bytes) (quadrant : String)
  | preclassify (bytes : Bytes) (contentType : String) (userCategory : Option String)
  | blueprintMatch (bytes : Bytes) (contentType : String)
  | detectBbox (bytes : Bytes) (contentType : String)
  | analyzeDocumentLayout (bytes : Bytes)
  | analyzeId (bytes : Bytes)
  | supplementalExtraction (bytes : Bytes) (documentClass : String)
  | ocrMappingExtraction (ocrText : String) (documentType : String)
  | invokeDataAutomationAsync (projectArn profileArn inputUri outputUri : String)

def AiCall.Res : AiCall → Type
  | detectDocumentText _         => List Word
  | emptyQuadrant ..             => Option Bool
  | preclassify ..               => Converse PreclassificationResponse
  | blueprintMatch ..            => Converse BlueprintMatchResponse
  | detectBbox ..                => Converse BoundingBox
  | analyzeDocumentLayout _      => List Block
  | analyzeId _                  => List IdentityDocument
  | supplementalExtraction ..    => List SupplementalItem
  | ocrMappingExtraction ..      => Converse (List (String × ExtractedField))
  | invokeDataAutomationAsync .. => String

/-- A plain answer to each request: no finding at all. -/
def AiCall.plain (arn : String) : (c : AiCall) → c.Res
  | detectDocumentText _         => ([] : List Word)
  | emptyQuadrant ..             => (none : Option Bool)
  | preclassify ..               => ({ parsed := some {} } : Converse PreclassificationResponse)
  | blueprintMatch ..            => ({ parsed := some {} } : Converse BlueprintMatchResponse)
  | detectBbox ..                => ({ parsed := none } : Converse BoundingBox)
  | analyzeDocumentLayout _      => ([] : List Block)
  | analyzeId _                  => ([] : List IdentityDocument)
  | supplementalExtraction ..    => ([] : List SupplementalItem)
  | ocrMappingExtraction ..      =>
    ({ parsed := some [] } : Converse (List (String × ExtractedField)))
  | invokeDataAutomationAsync .. => arn

/-- A BDA job the service has accepted. -/
structure BdaJob where
  invocationArn : String
  inputUri      : String
  outputUri     : String
deriving DecidableEq, Repr

/-! ## Batch task groups -/

structure UploadFile where
  filename    : Option String
  bytes       : Bytes
  contentType : Option String := none

/-- One `_process_one` call with the variables it closes over. -/
structure BatchTask where
  idx                : Nat
  file               : UploadFile
  batchId            : String
  category           : Option String := none
  traceId            : String := ""
  tenantId           : String
  apiKeyName         : String := ""
  externalDocumentId : Option String := none
  externalSystemId   : Option String := none
  aiConsentFlag      : Option Bool := none
  uploadMethod       : UploadMethod := .batch

structure TaskGroup where
  pending : List BatchTask
  running : List Nat := []
  errors  : List Exc := []

/-! ## Calls -/

inductive Op where
  | getItem (key : String)
  | updateItem (key : String) (u : Dynamo.Update DocumentMetadata.schema)
  | queryByJobId (jobId : String)
  | queryByBdaInvocationId (id : String)
  | queryByBatchId (batchId : String)
  | queryByStatusCreatedAt (status : ProcessStatus) (cutoff : Timestamp)
  | putBatch (batchId : String) (item : BatchRecord)
  | getBatch (batchId : String)
  | updateBatch (batchId : String) (u : Dynamo.Update DocumentBatches.schema)
  | updateCount (tenantId : String) (date : Day)
      (u : Dynamo.Update TenantRequestCountRecord.schema)
  | queryMonth (tenantId : String) (inMonth : Day → Bool)
  | getTenant (tenantId : String)
  | getCategory (tenantId categoryName : String)
  | autoRegisterCategory (tenantId categoryName : String)
  | getRule (tenantId documentType : String)
  | getObject (key : S3Key)
  | putObject (key : S3Key) (obj : S3Object)
  | deleteObject (key : S3Key)
  | deletePrefix (bucket pre : String)
  | getLastModifiedAt (key : S3Key)
  | sendMetrics (record : Record)
  | sendOcrMapping (msg : OcrMappingMessage)
  | putMetricData (namespace_ metric : String) (value : Nat)
  | getDataAutomationStatus (arn : String)
  | ai (call : AiCall)
  | now
  | random
  | uuid4
  | spawn (group : String) (tasks : List BatchTask)
  | takeTask (group : String) (idx : Nat)
  | endTask (group : String) (idx : Nat) (error : Option Exc)
  | join (group : String)

def Op.Res : Op → Type
  | getItem _ => Option Record
  | queryByJobId _ | queryByBdaInvocationId _ | queryByBatchId _
  | queryByStatusCreatedAt .. => List (String × Record)
  | getBatch _ => Option BatchRecord
  | updateBatch .. => BatchRecord
  | updateCount .. => CountRecord
  | queryMonth .. => List (Day × CountRecord)
  | getTenant _ => Option TenantRecord
  | getCategory .. => Option Rat
  | getRule .. => Option ExtractionRule
  | getObject _ => S3Object
  | getDataAutomationStatus _ => Option BdaJobStatus
  | ai c => c.Res
  | getLastModifiedAt _ | now => Timestamp
  | random => Rat
  | uuid4 => String
  | takeTask .. => BatchTask
  | join _ => List Exc
  | _ => Unit

abbrev sig : Effect.Sig := ⟨Op, Op.Res, Exc⟩

abbrev Prog (α : Type) : Type := Effect.Prog sig α

def call (op : Op) : Prog op.Res := Effect.Prog.perform (S := sig) op

/-! ## The world -/

structure World where
  docs            : Dynamo.Table String DocumentMetadata.schema := .empty
  batches         : Dynamo.Table String DocumentBatches.schema := .empty
  counts          : Dynamo.Table (String × Day) TenantRequestCountRecord.schema := .empty
  tenants         : String → Option TenantRecord := fun _ => none
  /-- `processingPercentage` by tenant and category name. -/
  categories      : String → String → Option Rat := fun _ _ => none
  rules           : String → String → Option ExtractionRule := fun _ _ => none
  objects         : List (S3Key × S3Object) := []
  metricsQueue    : List Record := []
  ocrMappingQueue : List OcrMappingMessage := []
  bdaJobs         : List BdaJob := []
  uuids           : List String := []
  groups          : List (String × TaskGroup) := []

/-- The environment's part in one call. -/
structure Choice where
  fail      : Option Exc := none
  now       : Timestamp := 0
  random    : Rat := 0
  uuid      : String := ""
  jobStatus : Option BdaJobStatus := none
  ai        : (c : AiCall) → c.Res := AiCall.plain ""

namespace World

def group (w : World) (g : String) : TaskGroup := ((w.groups.lookup g).getD { pending := [] })

def setGroup (w : World) (g : String) (tg : TaskGroup) : World :=
  { w with groups := (g, tg) :: w.groups.filter fun e => e.1 != g }

def object (w : World) (key : S3Key) : Option S3Object := w.objects.lookup key

def putObject (w : World) (key : S3Key) (obj : S3Object) : World :=
  { w with objects := (key, obj) :: w.objects.filter fun e => e.1 != key }

/-- An answer that leaves the world alone. -/
def ok {op : Op} (w : World) (r : op.Res) : Option (sig.Ans op × World) := some (.ok r, w)

def raise {op : Op} (w : World) (e : Exc) : Option (sig.Ans op × World) := some (.error e, w)

/-- Execute a call that does not fail by the environment's choice. -/
def run (w : World) (ch : Choice) : (op : Op) → Option (sig.Ans op × World)
  | .getItem key => w.ok (w.docs.item key)
  | .updateItem key u =>
    match w.docs.update key u with
    | .ok docs => some (.ok (), { w with docs })
    | .error e => w.raise (.ofRejection e)
  | .queryByJobId id => w.ok (w.docs.query fun (it : Record) => it.jobId == some id)
  | .queryByBdaInvocationId id => w.ok (w.docs.query fun (it : Record) => it.bdaInvocationId == some id)
  | .queryByBatchId id => w.ok (w.docs.query fun (it : Record) => it.batchId == some id)
  | .queryByStatusCreatedAt s cutoff =>
    w.ok (w.docs.query fun (it : Record) => it.status == some s && it.createdAt.any (· < cutoff))
  | .putBatch id item =>
    match w.batches.item id with
    | none   => some (.ok (), { w with batches := w.batches.put id item })
    | some _ => w.raise (.ofRejection .conditionalCheckFailed)
  | .getBatch id => w.ok (w.batches.item id)
  | .updateBatch id u =>
    match w.batches.update id u with
    | .ok batches => some (.ok ((batches.item id).getD fun _ => none), { w with batches })
    | .error e    => w.raise (.ofRejection e)
  | .updateCount t d u =>
    match w.counts.update (t, d) u with
    | .ok counts => some (.ok ((counts.item (t, d)).getD fun _ => none), { w with counts })
    | .error e   => w.raise (.ofRejection e)
  | .queryMonth t inMonth =>
    w.ok (w.counts.keys.filterMap fun k =>
      if k.1 = t ∧ inMonth k.2 then (w.counts.item k).map fun it => (k.2, it) else none)
  | .getTenant t => w.ok (w.tenants t)
  | .getCategory t c => w.ok (w.categories t c)
  | .autoRegisterCategory t c =>
    some (.ok (), { w with categories := fun t' c' =>
      if t' = t ∧ c' = c then some ((w.categories t c).getD 1) else w.categories t' c' })
  | .getRule t d => w.ok (w.rules t d)
  | .getObject key =>
    match w.object key with
    | some o => w.ok o
    | none   => w.raise (.clientError (.other "NoSuchKey"))
  | .putObject key obj => some (.ok (), w.putObject key obj)
  | .deleteObject key =>
    some (.ok (), { w with objects := w.objects.filter fun e => e.1 != key })
  | .deletePrefix b pre =>
    some (.ok (), { w with objects := w.objects.filter fun e =>
      !(e.1.1 == b && pre.toList.isPrefixOf e.1.2.toList) })
  | .getLastModifiedAt key =>
    match w.object key with
    | some _ => w.ok ch.now
    | none   => w.raise (.clientError (.other "404"))
  | .sendMetrics r => some (.ok (), { w with metricsQueue := r :: w.metricsQueue })
  | .sendOcrMapping m => some (.ok (), { w with ocrMappingQueue := m :: w.ocrMappingQueue })
  | .putMetricData .. => w.ok ()
  | .getDataAutomationStatus _ => w.ok ch.jobStatus
  | .ai (.invokeDataAutomationAsync p f i o) =>
    let arn : String := ch.ai (.invokeDataAutomationAsync p f i o)
    if arn ∈ w.bdaJobs.map (·.invocationArn) then none
    else some (.ok arn, { w with bdaJobs := ⟨arn, i, o⟩ :: w.bdaJobs })
  | .ai (.detectDocumentText b) => w.ok (ch.ai (.detectDocumentText b))
  | .ai (.emptyQuadrant b q) => w.ok (ch.ai (.emptyQuadrant b q))
  | .ai (.preclassify b c u) => w.ok (ch.ai (.preclassify b c u))
  | .ai (.blueprintMatch b c) => w.ok (ch.ai (.blueprintMatch b c))
  | .ai (.detectBbox b c) => w.ok (ch.ai (.detectBbox b c))
  | .ai (.analyzeDocumentLayout b) => w.ok (ch.ai (.analyzeDocumentLayout b))
  | .ai (.analyzeId b) => w.ok (ch.ai (.analyzeId b))
  | .ai (.supplementalExtraction b c) => w.ok (ch.ai (.supplementalExtraction b c))
  | .ai (.ocrMappingExtraction b c) => w.ok (ch.ai (.ocrMappingExtraction b c))
  | .now => w.ok ch.now
  | .random => if 0 ≤ ch.random ∧ ch.random < 1 then w.ok ch.random else none
  | .uuid4 =>
    if ch.uuid ∈ w.uuids then none else some (.ok ch.uuid, { w with uuids := ch.uuid :: w.uuids })
  | .spawn g tasks => some (.ok (), w.setGroup g { pending := tasks })
  | .takeTask g i =>
    let tg := w.group g
    if tg.errors = [] then
      (tg.pending.find? fun t => t.idx == i).map fun t =>
        (.ok t, w.setGroup g { tg with
          pending := tg.pending.filter fun t => t.idx != i
          running := i :: tg.running })
    else none
  | .endTask g i error =>
    let tg := w.group g
    some (.ok (), w.setGroup g { tg with
      running := tg.running.filter (· != i)
      errors := tg.errors ++ error.toList })
  | .join g =>
    let tg := w.group g
    if tg.running = [] ∧ (tg.pending = [] ∨ tg.errors ≠ []) then w.ok tg.errors else none

/-- Calls that stay inside the process: they do not fail. -/
def isLocal : Op → Bool
  | .now | .random | .uuid4 | .spawn .. | .takeTask .. | .endTask .. | .join _ => true
  | _ => false

def exec (w : World) (op : Op) (ch : Choice) : Option (sig.Ans op × World) :=
  match ch.fail with
  | some e => if isLocal op then w.run ch op else w.raise e
  | none   => w.run ch op

end World

end DocumentAi

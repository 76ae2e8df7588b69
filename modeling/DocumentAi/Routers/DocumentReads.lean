import DocumentAi.Routers.Evaluation

/-!
# Reading documents: by job, by search, and their evaluation

| here | there |
| --- | --- |
| `getJobStatus`       | `get_job_status` (`utils/jobs.py:28-40`) |
| `JobStatusResponse`  | the answers of `models/job_status.py`; `fromV1` is the stored or built response before its presentation |
| `getDocumentResults` | `get_document_results` (`routers/documents.py:297-355`) |
| `searchEntry`        | the body of the loop of `search_documents` (`routers/documents.py:447-501`) |
| `searchDocuments`    | `search_documents` (`routers/documents.py:431-503`) |

The trace id and the cache header of an answer are left out.
-/

namespace DocumentAi

inductive JobStatusResponse where
  | notFound (jobId : String)
  | pending (jobId : String) (status : ProcessStatus) (message : String)
  | fromV1 (response : V1ApiResponse)
  | error (jobId message : String)

def pendingResponse (jobId : String) (status : Option ProcessStatus) : JobStatusResponse :=
  let current := status.getD .notStarted
  .pending jobId current current.pendingMessage

/-- The answer for a record that has a stored response. -/
def classifiedResults (env : EnvConfig) (includeExtractedData includeBoundingBox : Bool)
    (incomplete : Prog JobStatusResponse) (objectKey : String) (r : Record)
    (stored : V1ApiResponse) : Prog JobStatusResponse :=
  if includeExtractedData then
    match r.status with
    | none        => incomplete
    | some status => do
      let response ← buildV1ApiResponse env objectKey status none none true includeBoundingBox
      pure (.fromV1 response)
  else pure (.fromV1 stored)

def documentResults (env : EnvConfig) (auth : UserContext) (jobId : String)
    (includeExtractedData includeBoundingBox : Bool) : JobStatus → Prog JobStatusResponse
  | none                => throw (notFound jobId)
  | some (objectKey, r) =>
    if r.tenantId ≠ some auth.tenantId then throw (notFound jobId)
    -- "This must return the same 404 as validate_document_tenant_access"
    else if r.status = some .deleted then throw (notFound jobId)
    else
      match r.v1ApiResponseJson with
      | none        => pure (pendingResponse jobId r.status)
      | some stored =>
        classifiedResults env includeExtractedData includeBoundingBox
          (throw (.httpException 500 ("Incomplete record for job " ++ jobId))) objectKey r stored

def getDocumentResults (env : EnvConfig) (auth : UserContext) (jobId : String)
    (includeExtractedData includeBoundingBox : Bool) : Prog JobStatusResponse := do
  try
    let status ← getJobStatus jobId
    documentResults env auth jobId (includeExtractedData || includeBoundingBox) includeBoundingBox
      status
  catch e =>
    match e with
    | .httpException .. => throw e
    | _                 => throw (.httpException 500 "Failed to retrieve results")

/-! ## Search -/

def searchResult (env : EnvConfig) (auth : UserContext) (includeExtractedData : Bool)
    (jobId : String) : JobStatus → Prog JobStatusResponse
  | none                => pure (.notFound jobId)
  | some (objectKey, r) =>
    if r.tenantId ≠ some auth.tenantId then pure (.notFound jobId)
    else
      match r.v1ApiResponseJson with
      | none        => pure (pendingResponse jobId r.status)
      | some stored =>
        classifiedResults env includeExtractedData false
          (pure (.error jobId "Incomplete record")) objectKey r stored

def searchEntry (env : EnvConfig) (auth : UserContext) (includeExtractedData : Bool)
    (jobId : String) (status : Except Exc JobStatus) : Prog JobStatusResponse := do
  try
    let status ← liftExcept status
    searchResult env auth includeExtractedData jobId status
  catch _ => pure (.error jobId "Failed to retrieve results")

/-- `asyncio.gather(…, return_exceptions=True)`: the lookups, one for each id. -/
def searchLookups : List String → Prog (List (Except Exc JobStatus))
  | []              => pure []
  | jobId :: jobIds => do
    let status ← attempt (getJobStatus jobId)
    let statuses ← searchLookups jobIds
    pure (status :: statuses)

def searchEntries (env : EnvConfig) (auth : UserContext) (includeExtractedData : Bool) :
    List String → List (Except Exc JobStatus) → Prog (List JobStatusResponse)
  | jobId :: jobIds, status :: statuses => do
    let entry ← searchEntry env auth includeExtractedData jobId status
    let entries ← searchEntries env auth includeExtractedData jobIds statuses
    pure (entry :: entries)
  | _, _ => pure []

/-- `MAX_SEARCH_JOB_IDS`. -/
def maxSearchJobIds : Nat := 25

def searchDocuments (env : EnvConfig) (auth : UserContext) (jobIds : List String)
    (includeExtractedData : Bool) : Prog (List JobStatusResponse) :=
  if jobIds = [] then throw (.httpException 400 "job_ids must not be empty")
  else if maxSearchJobIds < jobIds.length then
    throw (.httpException 400 ("Maximum of " ++ toString maxSearchJobIds
      ++ " job_ids per request"))
  else do
    let statuses ← searchLookups jobIds
    searchEntries env auth includeExtractedData jobIds statuses

/-! ## One read of any kind -/

inductive DocumentRead where
  | get (jobId : String) (includeExtractedData includeBoundingBox : Bool)
  | search (jobIds : List String) (includeExtractedData : Bool)
  | evaluation (jobId : String)

inductive ReadAnswer where
  | results (response : JobStatusResponse)
  | found (results : List JobStatusResponse)
  | evaluated (response : EvaluationResponse)

def DocumentRead.body (env : EnvConfig) (auth : UserContext) : DocumentRead → Prog ReadAnswer
  | get jobId d b   => do pure (.results (← getDocumentResults env auth jobId d b))
  | search jobIds d => do pure (.found (← searchDocuments env auth jobIds d))
  | evaluation jobId => do pure (.evaluated (← getDocumentEvaluation auth jobId))

end DocumentAi

import DocumentAi.Utils.Ddb

/-!
# Batch operations: creating, counting and finalising a batch

| here | there |
| --- | --- |
| `createBatch`            | `create_batch` (`utils/batch_operations.py:17-66`) |
| `updateBatchStatus`      | `update_batch_status` (`utils/batch_operations.py:69-103`) |
| `queryJobsByBatchId`     | `query_jobs_by_batch_id` (`utils/batch_operations.py:113-117`) |
| `incrementResolvedCount` | `increment_resolved_count` (`utils/batch_operations.py:120-190`) |
-/

namespace DocumentAi

abbrev BatchAction : Type := Dynamo.Action DocumentBatches.schema
abbrev BatchCond : Type := Dynamo.Cond DocumentBatches.schema

namespace BatchRecord

abbrev status (b : BatchRecord) : Option BatchStatus := b .batchStatus
abbrev totalFiles (b : BatchRecord) : Option Nat := b .totalFiles
abbrev resolvedCount (b : BatchRecord) : Option Nat := b .resolvedCount
def total (b : BatchRecord) : Nat := (BatchRecord.totalFiles b).getD 0
def resolved (b : BatchRecord) : Nat := (BatchRecord.resolvedCount b).getD 0

end BatchRecord

/-- `batchStatus = :expected`. -/
def batchStatusIs (s : BatchStatus) : BatchCond :=
  .holds .batchStatus fun (x : BatchStatus) => x == s

open DocumentBatches in
def newBatch (now : Timestamp) (totalFiles_ : Nat) (category_ : Option String)
    (status : BatchStatus) (tenantId_ apiKeyName_ : Option String) : BatchRecord
  | .batchStatus => some status
  | .totalFiles => some totalFiles_
  | .createdAt => some now
  | .ttl => some (getTtlEpochInDays now 30)
  | .category => truthy category_
  | .tenantId => tenantId_
  | .apiKeyName => apiKeyName_
  | .resolvedCount => none
  | .updatedAt => none
  | .errorMessage => none

def createBatch (batchId : String) (totalFiles : Nat) (category : Option String)
    (tenantId apiKeyName : Option String) : Prog Timestamp := do
  let now ← call .now
  try
    call (.putBatch batchId (newBatch now totalFiles category .uploading tenantId apiKeyName))
  catch e =>
    if e = .clientError .conditionalCheckFailedException then
      throw (.httpException 409 "Batch ID already exists")
    else throw e
  pure now

def updateBatchStatus (batchId : String) (status : BatchStatus)
    (errorMessage : Option String := none) (cond : Option BatchCond := none) : Prog Unit := do
  let now ← call .now
  let _ ← call (.updateBatch batchId
    { actions := [.set .batchStatus status, .set .updatedAt now]
        ++ (match truthy errorMessage with
            | some m => [.set .errorMessage m]
            | none   => [])
      cond })
  pure ()

def queryJobsByBatchId (batchId : String) : Prog (List (String × Record)) :=
  call (.queryByBatchId batchId)

def isFailedJob (j : String × Record) : Bool :=
  j.2.status == some ProcessStatus.failed || j.2.status == some ProcessStatus.timedOut

/-- The verdict of `increment_resolved_count` on the jobs it has queried. -/
def batchVerdict (total : Nat) (jobs : List (String × Record)) : BatchStatus :=
  let failedCount := jobs.countP isFailedJob
  if failedCount = 0 then .completed else if failedCount = total then .failed else .partial_

/-- `ADD resolvedCount 1 SET updatedAt = :now`, while the batch is processing. -/
def incrementRequest (now : Timestamp) : Dynamo.Update DocumentBatches.schema :=
  { actions := [.add .resolvedCount fun (n : Option Nat) => n.getD 0 + 1, .set .updatedAt now]
    cond := some (batchStatusIs .processing) }

/-- "Swallows all exceptions - a counter failure must never abort the job that triggered it." -/
def incrementResolvedCount (batchId : String) : Prog Unit := do
  try
    let now ← call .now
    let updated ← call (.updateBatch batchId (incrementRequest now))
    if BatchRecord.resolved updated < BatchRecord.total updated then pure ()
    else do
      let jobs ← queryJobsByBatchId batchId
      updateBatchStatus batchId (batchVerdict (BatchRecord.total updated) jobs) none
        (some (batchStatusIs .processing))
  catch _ => pure ()

/-- `if batch_id: increment_resolved_count(batch_id)`. -/
def incrementIfBatch (batchId : Option String) : Prog Unit :=
  match truthy batchId with
  | some b => incrementResolvedCount b
  | none   => pure ()

end DocumentAi

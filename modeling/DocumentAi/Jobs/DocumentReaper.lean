import DocumentAi.Utils.BatchOperations

/-!
# Document reaper: records stuck in a non-terminal status

| here | there |
| --- | --- |
| `findStaleRecords`   | `_find_stale_records` (`jobs/document_reaper/main.py:60-81`) |
| `markTerminal`       | `_mark_terminal` (`:141-167`) |
| `markAndIncrement`   | `_mark_and_increment` (`:84-97`) |
| `processStaleRecord` | `_process_stale_record` (`:100-138`) |
| `reaperMain`         | `main` (`:170-204`) |
-/

namespace DocumentAi

/-- `PROCESSING_REAPER_STALE_THRESHOLD_HOURS`, in microseconds. -/
def staleThreshold : Timestamp := 3600 * 1000000

/-- "Failed to query stale records": logged, and the other statuses go on. -/
def queryStaleByStatus (cutoff : Timestamp) (status : ProcessStatus) :
    Prog (List (String × Record)) := do
  try call (.queryByStatusCreatedAt status cutoff)
  catch _ => pure []

def findStaleRecords : Prog (List (String × Record)) := do
  let now : Timestamp ← call .now
  let cutoff := now - staleThreshold
  let started ← queryStaleByStatus cutoff .started
  let notStarted ← queryStaleByStatus cutoff .notStarted
  let pendingUpload ← queryStaleByStatus cutoff .pendingUpload
  let pendingImage ← queryStaleByStatus cutoff .pendingImageOptimization
  pure (started ++ notStarted ++ pendingUpload ++ pendingImage)

open DocumentMetadata in
def markTerminalRequest (now : Timestamp) (status : ProcessStatus) (reason : Option String) :
    Dynamo.Update DocumentMetadata.schema :=
  { actions := [.set processStatus status, .set updatedAt now] ++ setOpt errorMessage (truthy reason)
    cond := some nonTerminalCondition }

/-- "Returns False if the pipeline already completed the record." -/
def markTerminal (fileName : String) (status : ProcessStatus) (reason : Option String) :
    Prog Bool := do
  let now ← call .now
  try
    call (.updateItem fileName (markTerminalRequest now status reason))
    pure true
  catch e =>
    if e = .clientError .conditionalCheckFailedException then pure false else throw e

def markAndIncrement (fileName : String) (batchId : Option String) (status : ProcessStatus)
    (reason : Option String := none) : Prog Unit := do
  let applied ← markTerminal fileName status reason
  if applied then incrementIfBatch batchId

/-- `get_bda_job_response`: an exception counts as no response. -/
def getBdaJobResponse (arn : String) : Prog (Option (Option BdaJobStatus)) := do
  try
    let s : Option BdaJobStatus ← call (.getDataAutomationStatus arn)
    pure (some s)
  catch _ => pure none

def bdaStatusName : BdaJobStatus → String
  | .created      => "Created"
  | .inProgress   => "InProgress"
  | .success      => "Success"
  | .serviceError => "ServiceError"
  | .clientError  => "ClientError"

def processStaleRecord (fileName : String) (r : Record) : Prog Unit :=
  match truthy r.bdaInvocationArn with
  | none     => markAndIncrement fileName r.batchId .timedOut
  | some arn => do
    match ← getBdaJobResponse arn with
    | none          => markAndIncrement fileName r.batchId .timedOut
    | some none     => pure ()
    | some (some s) =>
      if s.isCompleted then
        markAndIncrement fileName r.batchId .failed
          (some "BDA completed but result was never processed")
      else if s.isFailed then
        markAndIncrement fileName r.batchId .failed
          (some ("BDA reported status: " ++ bdaStatusName s))
      else pure ()

/-- "Failed to reap": logged, and the next record goes on. -/
def reapRecord (item : String × Record) : Prog Unit := do
  try processStaleRecord item.1 item.2
  catch _ => pure ()

def reaperMain : Prog Unit := do
  let stale ← findStaleRecords
  call (.putMetricData "DocumentAI/DocumentReaper" "StaleRecordsFound" stale.length)
  Effect.Prog.forEach reapRecord stale

end DocumentAi

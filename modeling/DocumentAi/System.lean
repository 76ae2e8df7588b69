import DocumentAi.Jobs.BdaResultProcessor
import DocumentAi.Jobs.DocumentProcessor
import DocumentAi.Jobs.DocumentReaper
import DocumentAi.Routers.Batch

/-!
# The system: all handlers over one world

| here | there |
| --- | --- |
| `Entry.processor`, `Entry.bdaResult`, `Entry.ocrMapping`, `Entry.reaper` | the Lambda handlers under `jobs/` |
| `Entry.upload` … `Entry.delete` | the API routes under `routers/` |
| `Entry.batchFile` | one task of a batch request |
| `Entry.s3Put`     | a client using a presigned form, or BDA writing a result file |

Invocations start at any time and any number of times: S3 events and queue messages are delivered
at least once.
-/

namespace DocumentAi

inductive Entry where
  | processor (env : EnvConfig) (key : S3Key) (isColdStart : Bool)
  | bdaResult (env : EnvConfig) (key : S3Key)
  | ocrMapping (env : EnvConfig) (msg : OcrMappingMessage)
  | reaper
  | upload (env : EnvConfig) (auth : UserContext) (form : UploadForm)
  | presigned (env : EnvConfig) (auth : UserContext) (form : PresignedForm)
  | build (env : EnvConfig) (auth : UserContext) (traceId : Option String) (b : BuildSubmission)
  | batch (env : EnvConfig) (auth : UserContext) (form : BatchForm)
  | batchFile (env : EnvConfig) (location group : String) (idx : Nat)
  | uploadWait (env : EnvConfig) (auth : UserContext) (form : UploadForm) (req : PollRequest)
  | delete (env : EnvConfig) (auth : UserContext) (jobId : String) (softDelete : Bool)
  | s3Put (key : S3Key) (obj : S3Object)

def Entry.body : Entry → Prog Unit
  | processor env key cold        => processorHandler env key cold
  | bdaResult env key             => resultHandler env key
  | ocrMapping env msg            => ocrMappingHandler env msg
  | reaper                        => reaperMain
  | upload env auth form          => createDocument env auth form
  | presigned env auth form       => createPresignedUploadUrl env auth form
  | build env auth traceId b      => submitBuild env auth traceId b
  | batch env auth form           => uploadBatch env auth form
  | batchFile env loc group idx   => batchTask env loc group idx
  | uploadWait env auth form req  => createDocumentWait env auth form req
  | delete env auth jobId soft    => deleteDocument env auth jobId soft
  | s3Put key obj                 => call (.putObject key obj)

abbrev system : Effect.Sys sig where
  World  := World
  Choice := Choice
  exec   := World.exec
  Entry  := Entry
  body   := Entry.body

abbrev Config : Type := Effect.Config system
abbrev Move : Type := Effect.Move system
abbrev Thread : Type := Effect.Thread system

/-- The call a move lets through: the next call of its thread, unless the environment fails it. -/
def passes (c : Config) : Move → Option Op
  | .act i ch => if ch.fail.isNone then c.nextOp i else none
  | _         => none

theorem passes_eq_some {c : Config} {m : Move} {op : Op} :
    passes c m = some op ↔
      ∃ i ch t k, m = .act i ch ∧ ch.fail = none ∧ c.Next i t op k := by
  constructor
  · intro h
    unfold passes at h
    split at h
    next i ch =>
      split at h
      next hf =>
        obtain ⟨t, k, hn⟩ := Effect.Config.nextOp_eq_some.1 h
        exact ⟨i, ch, t, k, rfl, Option.isNone_iff_eq_none.1 hf, hn⟩
      next => cases h
    next => cases h
  · rintro ⟨i, ch, t, k, rfl, hf, hn⟩
    simp only [passes, hf, Option.isNone_none, if_true]
    exact Effect.Config.nextOp_eq_some.2 ⟨t, k, hn⟩

end DocumentAi

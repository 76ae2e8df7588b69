import DocumentAi.Pipeline.Bda
import DocumentAi.Pipeline.OcrMapping

/-!
# The two result processors: BDA output events and OCR-mapping messages

| here | there |
| --- | --- |
| `resultMain`        | `main` (`jobs/bda_result_processor/main.py:15-40`) |
| `resultHandler`     | `handler` (`jobs/bda_result_processor/handler.py:23-66`) |
| `ocrMappingHandler` | `handler` on one record (`jobs/ocr_mapping_processor/handler.py:23-54`) |
-/

namespace DocumentAi

/-- `object_key.endswith("job_metadata.json")`. -/
def isJobMetadataKey (key : String) : Bool :=
  "job_metadata.json".toList.isSuffixOf key.toList

def resultMain (env : EnvConfig) (key : S3Key) (startedAt : Option Timestamp) : Prog Unit :=
  if isJobMetadataKey key.2 then runBdaResultPipeline env key startedAt else pure ()

def resultHandler (env : EnvConfig) (key : S3Key) : Prog Unit := do
  let startedAt : Timestamp ← call .now
  try resultMain env key (some startedAt)
  catch e => do
    try
      match ← getDdbRecordFromBdaOutput key with
      | none             => throw e
      | some (ddbKey, _) => do
        let record ← getDdbRecord ddbKey
        classifyAsFailed env ddbKey e.str
          { additionalInfo := some "Unhandled error in BDA result processor" }
          (record.bind Record.batchId) (some startedAt)
    catch _ => pure ()
    throw e

def ocrMappingHandler (env : EnvConfig) (msg : OcrMappingMessage) : Prog Unit :=
  runOcrMappingPipeline env msg

end DocumentAi

import DocumentAi.Utils.Ddb
import DocumentAi.Lib.Quote

/-!
# S3 keys: where each copy of a document is stored

| here | there |
| --- | --- |
| `basename`, `splitext`    | `os.path.basename`, `os.path.splitext` on POSIX paths |
| `buildS3Key`              | `build_s3_key` (`utils/s3.py:71-77`) |
| `getBucketAndKey`         | `get_bucket_and_key` (`utils/s3.py:88-99`) |
| `generateS3Uri`           | `generate_s3_uri` (`utils/s3.py:80-85`) |
| `writeExtractionOutput`   | `write_extraction_output` (`utils/s3.py:102-123`) |
| `getTruncatedObjectKey`   | `get_truncated_object_key` (`utils/s3.py:126-134`) |
| `sanitizeForS3Metadata`   | `sanitize_for_s3_metadata` (`utils/s3.py:151-157`) |
| `sanitizeForS3Key`        | `sanitize_for_s3_key` (`utils/s3.py:177-187`) |
| `generateUniqueFilename`  | `generate_unique_filename` (`utils/uploads.py:147-157`) |
-/

namespace DocumentAi

def basename (path : String) : String := String.ofList (Chars.lastField '/' path.toList)

/-- Root and extension: the extension starts at the last dot of the last path component, unless
only dots stand before it there. -/
def splitext (path : String) : String × String :=
  let cs := path.toList
  let name := Chars.lastField '/' cs
  let ext := name.reverse.takeWhile (· ≠ '.')
  let stem := (name.reverse.drop (ext.length + 1)).reverse
  if stem.any (· ≠ '.') then
    (String.ofList (cs.take (cs.length - (ext.length + 1))), String.ofList ('.' :: ext.reverse))
  else (path, "")

def getTruncatedObjectKey (objectKey : String) : String :=
  (splitext objectKey).1 ++ "_truncated" ++ (splitext objectKey).2

/-- Join with single slashes in between. -/
def joinSlash : List (List Char) → List Char
  | []      => []
  | [p]     => p
  | p :: ps => p ++ '/' :: joinSlash ps

/-- "Strips leading/trailing slashes from each part and joins with '/'. Empty parts are skipped." -/
def buildS3Key (parts : List String) : String :=
  String.ofList (joinSlash ((parts.filter (· ≠ "")).map fun p => Chars.strip '/' p.toList))

def getBucketAndKey (locationUri : String) (tenantId : Option String) (fileName : String) :
    Except Exc S3Key :=
  (parseS3Uri locationUri).map fun (bucket, pre) =>
    (bucket, buildS3Key [pre, tenantId.getD "", fileName])

def s3Uri (key : S3Key) : String := "s3://" ++ key.1 ++ "/" ++ key.2

def generateS3Uri (locationUri tenantId ddbKey : String) (method : ExtractMethod) :
    Except Exc String :=
  (getBucketAndKey locationUri (some tenantId) (ddbKey ++ "/" ++ method.value)).map s3Uri

/-- `_require` (`config/env.py:16-19`). -/
def EnvConfig.require (value : Option String) (name : String) : Except Exc String :=
  match truthy value with
  | some v => .ok v
  | none   => .error (.valueError (name ++ " is not configured"))

def EnvConfig.inputLocation (env : EnvConfig) : Except Exc String :=
  require env.documentaiInputLocation "DOCUMENTAI_INPUT_LOCATION"

def EnvConfig.outputLocation (env : EnvConfig) : Except Exc String :=
  require env.documentaiOutputLocation "DOCUMENTAI_OUTPUT_LOCATION"

def writeExtractionOutput (env : EnvConfig) (tenantId : String) (method : ExtractMethod)
    (fileName : String) (body : Body) (contentType : Option String := none) : Prog String :=
  if tenantId = "" then throw (.valueError "tenant_id is required for extraction output")
  else do
    let outputLocation ← liftExcept env.outputLocation
    let key ← liftExcept (getBucketAndKey outputLocation (some tenantId)
      (fileName ++ "/" ++ method.value ++ "/result.json"))
    call (.putObject key { body, contentType })
    pure (s3Uri key)

/-- "Percent-encode non-ASCII and truncate for S3 user metadata." -/
def sanitizeForS3Metadata (value : String) (maxLength : Nat := 512) : String :=
  Quote.quote (String.ofList (value.toList.take maxLength))

/-- `_BANNED_ORDINALS` (`utils/s3.py:157-174`). -/
def bannedOrdinals : List Nat := [34, 35, 37, 60, 62, 91, 92, 93, 94, 96, 123, 124, 125, 126]

def sanitizeForS3Key (value : String) : String :=
  value.map fun c =>
    if c.toNat > 126 ∨ c.toNat < 32 ∨ c.toNat ∈ bannedOrdinals then '_' else c

def generateUniqueFilename (filename jobId : String) : Except Exc String :=
  if filename = "" then .error (.valueError "Invalid filename")
  else
    let (name, ext) := splitext (basename (sanitizeForS3Key filename))
    .ok (name ++ "-" ++ jobId ++ ext)

example : splitext "dir.d/report.final.pdf" = ("dir.d/report.final", ".pdf") ∧
    splitext "dir/.profile" = ("dir/.profile", "") ∧
    getTruncatedObjectKey "acme/scan-7.tiff" = "acme/scan-7_truncated.tiff" := by decide

end DocumentAi

import DocumentAi.Readers.Bda
import DocumentAi.Readers.Textract
import DocumentAi.Utils.S3

/-!
# Stored extraction outputs and extraction rules

| here | there |
| --- | --- |
| `getBdaResultJson`         | `get_bda_result_json` (`utils/bda.py:127-158`) |
| `readOutput`               | `read_output` (`readers/extraction.py:21-50`) |
| `applyExtractionRules`     | `apply_extraction_rules` (`utils/extraction_rules.py:56-84`) |
| `getMissingRequiredFields` | `get_missing_required_fields` (`utils/extraction_rules.py:87-104`) |
| `getExtractionConfidenceFloor`, `tenantHasConfidenceFloor` | `utils/tenants.py:20-37` |

A BDA result has explainability information and no `fields`, the other outputs have `fields` alone: a
reader finds nothing in a body of the other kind. Geometry is always read, and left out of an answer
that does not ask for it.
-/

namespace DocumentAi

/-- `_READERS`. -/
def readers (env : EnvConfig) : ExtractMethod → Body → ReaderResult
  | .textract   => readTextractOutput true
  | .bda        => readBdaOutput env
  | .ocrMapping => readOcrMappingOutput true

/-- The bucket a result must come from, when an output location is configured. -/
def expectedResultBucket (env : EnvConfig) : Except Exc (Option String) :=
  match truthy env.documentaiOutputLocation with
  | some loc => (parseS3Uri loc).map fun r => some r.1
  | none     => .ok none

/-- Bucket and key of a result URI, with or without its scheme. -/
def resultLocation (uri : String) : S3Key :=
  let cs := uri.toList
  let path := if cs.take 5 = ['s', '3', ':', '/', '/'] then cs.drop 5 else cs
  let (bucket, key) := Chars.partition '/' path
  (String.ofList bucket, String.ofList key)

/-- The stored result at a URI, when it is in the configured output bucket and decodes. -/
def getBdaResultJson (env : EnvConfig) (uri : String) : Prog (Option Body) := do
  if uri = "" then pure none
  else
    try
      let expected ← liftExcept (expectedResultBucket env)
      if expected.all (· == (resultLocation uri).1) then do
        let o ← call (.getObject (resultLocation uri))
        match o.body with
        | .raw _ | .ocrBlocks _ => pure none
        | b                     => pure (some b)
      else pure none
    catch _ => pure none

def readOutput (env : EnvConfig) (r : Record) (includeExtractedData : Bool)
    (outputUri : Option String := none) (extractMethod : Option ExtractMethod := none) :
    Prog ReaderResult :=
  if !includeExtractedData then
    pure { fieldConfidenceMapList := (r .fieldConfidenceScores : Option FieldConfidences).getD [] }
  else
    match (truthy outputUri).or (truthy (r .bdaOutputS3Uri)) with
    | none     => pure {}
    | some uri => do
      let raw ← getBdaResultJson env uri
      let method := (extractMethod.or (r .extractionMethod : Option ExtractMethod)).getD .bda
      pure ((raw.map (readers env method)).getD {})

/-- `str.lower` on ASCII letters. -/
def lower (s : String) : String := s.toLower

def sortStrings (l : List String) : List String := l.mergeSort fun a b => decide (a ≤ b)

structure ExtractionRuleResult where
  fields                   : List (String × FieldEntry)
  missingRequiredFieldList : List String
  requiredFieldList        : List String := []

def ExtractionRule.apply (env : EnvConfig) (rule : ExtractionRule) (fields : List (String × FieldEntry))
    (missingFields : List String) : ExtractionRuleResult :=
  let required := rule.requiredFields.dedup
  let allowedLower := (required ++ rule.optionalFields).map env.libs.lower
  let requiredLower := required.map env.libs.lower
  let absentLower := (missingFields.map env.libs.lower).filter requiredLower.contains
  let filtered := fields.filter fun f =>
    allowedLower.contains (env.libs.lower f.1) && !absentLower.contains (env.libs.lower f.1)
  let presentLower := filtered.map fun f => env.libs.lower f.1
  { fields := filtered
    missingRequiredFieldList := sortStrings (required.filter fun f => !presentLower.contains (env.libs.lower f))
    requiredFieldList := sortStrings required }

def applyExtractionRules (env : EnvConfig) (tenantId documentType : String)
    (fields : List (String × FieldEntry)) (missingFields : List String) : Prog ExtractionRuleResult := do
  match ← call (.getRule tenantId documentType) with
  | none      => pure { fields, missingRequiredFieldList := [] }
  | some rule => pure (rule.apply env fields missingFields)

def getMissingRequiredFields (env : EnvConfig) (tenantId documentType : Option String)
    (emptyFields fieldsMissingGeometry : List String) :
    Prog (Option (List String × List String)) :=
  match truthy tenantId, truthy documentType with
  | some t, some d => do
    match ← call (.getRule t d) with
    | none      => pure none
    | some rule =>
      let required := rule.requiredFields.dedup
      let emptyLower := (emptyFields ++ fieldsMissingGeometry).map env.libs.lower
      pure (some (sortStrings (required.filter fun f => emptyLower.contains (env.libs.lower f)),
        sortStrings required))
  | _, _ => pure none

def getExtractionConfidenceFloor (tenantId : Option String) : Prog Rat :=
  match truthy tenantId with
  | none   => pure (13 / 20)
  | some t => do
    let tenant ← call (.getTenant t)
    pure ((tenant.bind (·.extractionConfidenceFloor)).getD (13 / 20))

def tenantHasConfidenceFloor (tenantId : Option String) : Prog Bool :=
  match truthy tenantId with
  | none   => pure false
  | some t => do
    let tenant ← call (.getTenant t)
    pure (tenant.bind (·.extractionConfidenceFloor)).isSome

end DocumentAi

import Mathlib.Algebra.Order.Ring.Unbundled.Rat
import DocumentAi.Utils.Documents

/-!
# Preclassification and blueprint matching with Bedrock

| here | there |
| --- | --- |
| `supportedClassificationTypes` | `PreClassificationDefaults.SUPPORTED_CONTENT_TYPES` (`constants/defaults.py:71-79`) |
| `preclassifyDocument`          | `preclassify_document` (`utils/preclassification.py:77-160`) |
| `findMatchingBlueprint`        | `find_matching_blueprint` (`utils/preclassification.py:200-291`), `category` left at `None` as every caller does |
-/

namespace DocumentAi

def supportedClassificationTypes : List String :=
  ["image/jpeg", "image/png", "image/gif", "image/webp", "application/pdf"]

/-- `BDA_MAX_IMAGE_SIZE_BYTES`. -/
def bdaMaxImageSizeBytes : Nat := 5242880

def otherDocument : BedrockClassificationResult :=
  { documentType := "other_document", confidence := 0, maxDocumentCountOnPage := 1 }

/-- `max(0.0, min(1.0, x))`. -/
def clamp01 (x : Rat) : Rat := max 0 (min 1 x)

/-- `preclassify_document` asks the model only about a supported type, and an image of at most 5MB. -/
def preclassifiable (bytes : Bytes) (contentType : String) : Bool :=
  supportedClassificationTypes.contains contentType
    && !(isImageType contentType && decide (bdaMaxImageSizeBytes < bytes.length))

def preclassifyDocument (env : EnvConfig) (bytes : Bytes) (contentType : String)
    (userCategory : Option String) : Prog BedrockClassificationResult := do
  if !preclassifiable bytes contentType then pure otherDocument
  else
    try
      let response : Converse PreclassificationResponse ←
        call (.ai (.preclassify bytes contentType userCategory))
      match response.parsed with
      | none   => pure otherDocument
      | some p =>
        pure
          { documentType := p.documentType
            confidence := clamp01 p.confidence
            maxDocumentCountOnPage := p.maxDocumentCountOnPage.toNat
            maxDocumentCountOnPageReason := p.maxDocumentCountOnPageReason
            hasMultipageInconsistency := p.hasMultipageInconsistency
            hasMultipageInconsistencyReason := p.hasMultipageInconsistencyReason
            categoryMatch := (truthy userCategory).map fun _ => p.categoryMatch
            isIdentityDocument := p.isIdentityDocument
            inputTokens := response.inputTokens
            outputTokens := response.outputTokens
            modelId := some env.classificationModelId }
    catch _ => pure otherDocument

/-- The matched schema key: an exact key, not "OTHER", with confidence at least 0.5. -/
def acceptMatch (schemas : List (String × DocumentSchema)) (p : BlueprintMatchResponse) :
    Option String :=
  (truthy p.matchedBlueprint).filter fun m =>
    m ≠ "OTHER" ∧ (schemas.lookup m).isSome ∧ ¬ p.confidence < 1 / 2

def findMatchingBlueprint (env : EnvConfig) (bytes : Bytes) (contentType : String) :
    Prog PreclassificationMatchResult := do
  if !env.flags.enablePreclassificationBlueprintMatching || env.schemas.isEmpty then pure {}
  else
    try
      let response : Converse BlueprintMatchResponse ←
        call (.ai (.blueprintMatch bytes contentType))
      match response.parsed with
      | none   =>
        pure { inputTokens := response.inputTokens, outputTokens := response.outputTokens }
      | some p =>
        let matched := acceptMatch env.schemas p
        pure
          { matchedDocumentType := matched
            confidence := clamp01 p.confidence
            category := (matched.bind fun m => env.schemas.lookup m).map (·.category)
            inputTokens := response.inputTokens
            outputTokens := response.outputTokens }
    catch _ => pure {}

end DocumentAi

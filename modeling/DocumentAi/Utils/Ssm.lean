import DocumentAi.Config.Env
import DocumentAi.Lib.TtlCache
import DocumentAi.Services

/-!
# SSM parameters behind the cache (`utils/ssm.py`, `utils/cache.py`)

| here | there |
| --- | --- |
| `TtlCache.get`, `TtlCache.add` | `Cache.get`, `Cache.add` (`utils/cache.py:31-51`), a key that went away raises `KeyError` |
| `Flag`, `Flag.name`     | `FeatureFlags` (`constants/features.py`) |
| `getParameterValue`     | `_get_parameter_value` (`utils/ssm.py:20-36`) |
| `getFlag`               | `_get_flag` (`:39-47`) |
| `getModelId`            | `_get_model_id` (`:50-53`) |
| `isDocumentCropEnabled` … `getOcrMappingModelId` | the same names (`:56-190`) |
| `ssmSystem`             | flags and model ids asked for in any process, and changes of a parameter |

Times are in microseconds. A process has one clock, which does not go back.
-/

namespace DocumentAi.Ssm

open Effect.Protocol (Obeys obeys_bind obeys_tryCatch obeys_perform obeys_ret obeys_raise obeys_ite)

/-- `_SSM_CACHE_TTL_MINUTES` in microseconds. -/
def SSM_CACHE_TTL : Nat := 5 * 60 * 1000000

/-- What a caller is told: a flag or the text of a parameter. -/
inductive Answer where
  | flag (value : Bool)
  | text (value : String)
deriving DecidableEq

/-- Parameters are read and put by their names, and cached under `ssm:` and the name. -/
abbrev sig : Effect.Sig := TtlCache.sig String String String Answer Exc

abbrev Prog (α : Type) : Type := Effect.Prog sig α

def call (op : TtlCache.Op String String String Answer) : Prog op.Res := TtlCache.call op

def cacheKey (paramName : String) : String := "ssm:" ++ paramName

def getParameterValue (pid : Nat) (paramName : String) (default : Option String) : Prog String := do
  let cached ← TtlCache.get pid (cacheKey paramName)
  match cached with
  | some value => return value
  | none       =>
    tryCatch (do
      let value ← call (.read pid paramName)
      TtlCache.add pid (cacheKey paramName) value SSM_CACHE_TTL
      return value) fun e =>
        match default with
        | some d => return d
        | none   => throw e

/-! ## Flags -/

inductive Flag where
  | documentCrop | enableBlurDetection | enforceBlurRejection | textractIdentityEnabled
  | includeMissingGeoWithMissingFields | skipBdaIfUnclassified
  | enablePreclassificationBlueprintMatching | flagMultipleDocumentsInMultipage | ocrMappingEnabled
deriving DecidableEq

namespace Flag

def name : Flag → String
  | documentCrop                             => "document-crop"
  | enableBlurDetection                      => "enable-blur-detection"
  | enforceBlurRejection                     => "enforce-blur-rejection"
  | textractIdentityEnabled                  => "textract-identity-enabled"
  | includeMissingGeoWithMissingFields       => "include-missing-geo-with-missing-fields"
  | skipBdaIfUnclassified                    => "skip-bda-if-unclassified"
  | enablePreclassificationBlueprintMatching => "enable-preclassification-blueprint-matching"
  | flagMultipleDocumentsInMultipage         => "flag-multiple-documents-in-multipage"
  | ocrMappingEnabled                        => "ocr-mapping-enabled"

/-- The name of its parameter. -/
def param (ssmPrefix : String) (flag : Flag) : String := ssmPrefix ++ "/feature-flags/" ++ flag.name

end Flag

/-- `str(default).lower()`. -/
def defaultText (default : Bool) : String := if default then "true" else "false"

/-- `value.lower() == "true"`. -/
def flagOf (value : String) : Bool := value.toLower == "true"

/-- The parts of the configuration that name parameters. -/
structure SsmConfig where
  ssmPrefix                                : Option String := none
  bedrockClassificationModelIdParam         : Option String := none
  bedrockBoundingBoxModelIdParam            : Option String := none
  bedrockBlurQuadrantModelIdParam           : Option String := none
  bedrockSupplementalExtractionModelIdParam : Option String := none

/-- `if text:`. -/
def truthyParam (text : Option String) : Option String := text.filter (· ≠ "")

def getFlag (config : SsmConfig) (pid : Nat) (flag : Flag) (default : Bool) : Prog Bool :=
  match truthyParam config.ssmPrefix with
  | none           => return default
  | some ssmPrefix => do
    let value ← getParameterValue pid (flag.param ssmPrefix) (some (defaultText default))
    return flagOf value

def getModelId (pid : Nat) (paramName : Option String) (default : String) : Prog String :=
  match truthyParam paramName with
  | none      => return default
  | some name => getParameterValue pid name (some default)

section
variable (config : SsmConfig) (pid : Nat)

def isDocumentCropEnabled : Prog Bool := getFlag config pid .documentCrop false

def isBlurDetectionEnabled : Prog Bool := getFlag config pid .enableBlurDetection true

def isBlurRejectionEnforced : Prog Bool := getFlag config pid .enforceBlurRejection false

def isTextractIdentityEnabled : Prog Bool := getFlag config pid .textractIdentityEnabled false

def isMissingGeoIncludedWithMissingFields : Prog Bool :=
  getFlag config pid .includeMissingGeoWithMissingFields true

def isSkipBdaIfUnclassified : Prog Bool := getFlag config pid .skipBdaIfUnclassified false

def isPreclassificationBlueprintMatchingEnabled : Prog Bool :=
  getFlag config pid .enablePreclassificationBlueprintMatching true

def isMultipageDocumentFlaggingEnabled : Prog Bool :=
  getFlag config pid .flagMultipleDocumentsInMultipage true

def isOcrMappingEnabled : Prog Bool := getFlag config pid .ocrMappingEnabled false

/-! ## Model ids -/

def getClassificationModelId : Prog String :=
  getModelId pid config.bedrockClassificationModelIdParam "us.amazon.nova-pro-v1:0"

def getBoundingBoxModelId : Prog String :=
  getModelId pid config.bedrockBoundingBoxModelIdParam "us.amazon.nova-lite-v1:0"

def getBlurQuadrantModelId : Prog String :=
  getModelId pid config.bedrockBlurQuadrantModelIdParam "us.amazon.nova-pro-v1:0"

def getSupplementalExtractionModelId : Prog String :=
  getModelId pid config.bedrockSupplementalExtractionModelIdParam "us.amazon.nova-micro-v1:0"

def getOcrMappingModelId : Prog String :=
  getModelId pid ((truthyParam config.ssmPrefix).map (· ++ "/ocr-mapping/model-id"))
    "us.amazon.nova-pro-v1:0"

end

/-! ## Requests in several processes -/

inductive ModelUse where
  | classification | boundingBox | blurQuadrant | supplementalExtraction | ocrMapping
deriving DecidableEq

inductive Request where
  | flag (pid : Nat) (flag : Flag)
  | modelId (pid : Nat) (use : ModelUse)
  | putParameter (name value : String)

def flagValue (config : SsmConfig) (pid : Nat) : Flag → Prog Bool
  | .documentCrop                             => isDocumentCropEnabled config pid
  | .enableBlurDetection                      => isBlurDetectionEnabled config pid
  | .enforceBlurRejection                     => isBlurRejectionEnforced config pid
  | .textractIdentityEnabled                  => isTextractIdentityEnabled config pid
  | .includeMissingGeoWithMissingFields       => isMissingGeoIncludedWithMissingFields config pid
  | .skipBdaIfUnclassified                    => isSkipBdaIfUnclassified config pid
  | .enablePreclassificationBlueprintMatching =>
    isPreclassificationBlueprintMatchingEnabled config pid
  | .flagMultipleDocumentsInMultipage         => isMultipageDocumentFlaggingEnabled config pid
  | .ocrMappingEnabled                        => isOcrMappingEnabled config pid

def modelIdValue (config : SsmConfig) (pid : Nat) : ModelUse → Prog String
  | .classification         => getClassificationModelId config pid
  | .boundingBox            => getBoundingBoxModelId config pid
  | .blurQuadrant           => getBlurQuadrantModelId config pid
  | .supplementalExtraction => getSupplementalExtractionModelId config pid
  | .ocrMapping             => getOcrMappingModelId config pid

/-- The parameter that is asked, if one is. -/
def Flag.paramOf (config : SsmConfig) (flag : Flag) : Option String :=
  (truthyParam config.ssmPrefix).map flag.param

def ModelUse.paramOf (config : SsmConfig) : ModelUse → Option String
  | classification         => truthyParam config.bedrockClassificationModelIdParam
  | boundingBox            => truthyParam config.bedrockBoundingBoxModelIdParam
  | blurQuadrant           => truthyParam config.bedrockBlurQuadrantModelIdParam
  | supplementalExtraction => truthyParam config.bedrockSupplementalExtractionModelIdParam
  | ocrMapping             =>
    truthyParam ((truthyParam config.ssmPrefix).map (· ++ "/ocr-mapping/model-id"))

/-- The caller gets the answer; without a parameter nothing was asked. -/
def tell (pid : Nat) (paramName : Option String) (answer : Answer) : Prog Unit :=
  match paramName with
  | none      => return ()
  | some name => call (.reply pid name answer)

def Request.body (config : SsmConfig) : Request → Prog Unit
  | flag pid f               => do
    let value ← flagValue config pid f
    tell pid (f.paramOf config) (.flag value)
  | modelId pid use          => do
    let value ← modelIdValue config pid use
    tell pid (use.paramOf config) (.text value)
  | putParameter name value  => call (.write name value)

abbrev ssmSystem (config : SsmConfig) : Effect.Sys sig :=
  TtlCache.system (.exception "KeyError") (Request.body config)

/-! ## What may be answered -/

def Flag.default : Flag → Bool
  | documentCrop | enforceBlurRejection | textractIdentityEnabled | skipBdaIfUnclassified
  | ocrMappingEnabled => false
  | enableBlurDetection | includeMissingGeoWithMissingFields
  | enablePreclassificationBlueprintMatching | flagMultipleDocumentsInMultipage => true

def ModelUse.default : ModelUse → String
  | classification | blurQuadrant | ocrMapping => "us.amazon.nova-pro-v1:0"
  | boundingBox                                => "us.amazon.nova-lite-v1:0"
  | supplementalExtraction                     => "us.amazon.nova-micro-v1:0"

/-- The answer is the default of what is asked under the name. -/
def IsDefault (config : SsmConfig) (name : String) (a : Answer) : Prop :=
  (∃ flag : Flag, flag.paramOf config = some name ∧ a = .flag flag.default) ∨
    ∃ use : ModelUse, use.paramOf config = some name ∧ a = .text use.default

theorem cacheKey_injective : Function.Injective cacheKey := by
  intro s t h
  have hlists := congrArg String.toList h
  simp only [cacheKey, String.toList_append] at hlists
  exact String.toList_inj.1 (List.append_cancel_left hlists)

def policy (config : SsmConfig) : TtlCache.Policy String String String Answer where
  key           := cacheKey
  life          := fun _ => SSM_CACHE_TTL
  answers       := fun _ value a => a = .text value ∨ a = .flag (flagOf value)
  fallback      := IsDefault config
  key_injective := cacheKey_injective

theorem toLower_eq_of_toList {s : String} (h : s.toList.map Char.toLower = s.toList) :
    s.toLower = s := by
  refine String.toList_inj.1 ?_
  change (s.map Char.toLower).toList = s.toList
  rw [String.toList_map, h]

theorem flagOf_defaultText (b : Bool) : flagOf (defaultText b) = b := by
  cases b with
  | false => rw [flagOf, defaultText, if_neg Bool.false_ne_true, toLower_eq_of_toList (by decide)]; decide
  | true => rw [flagOf, defaultText, if_pos rfl, toLower_eq_of_toList (by decide)]; decide

end DocumentAi.Ssm

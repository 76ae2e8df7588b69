import DocumentAi.Dtos

/-!
# Environment configuration of one invocation

| here | there |
| --- | --- |
| `EnvConfig`    | the fields of `EnvConfig` (`config/env.py:19-96`) the modelled functions read |
| `FeatureFlags` | the SSM feature flags with their defaults (`utils/ssm.py:45-151`); reading one never raises |
| `Libraries`    | third-party byte functions: pypdf, Pillow, `filetype`, `zipfile`; `none` where they raise; Unicode tables |

Every invocation has an environment of its own, so flags and locations may change between two
invocations. Table and index names are taken as configured.
-/

namespace DocumentAi

structure FeatureFlags where
  documentCrop                            : Bool := false
  enableBlurDetection                     : Bool := true
  enforceBlurRejection                    : Bool := false
  textractIdentityEnabled                 : Bool := false
  includeMissingGeoWithMissingFields      : Bool := true
  skipBdaIfUnclassified                   : Bool := false
  enablePreclassificationBlueprintMatching : Bool := true
  flagMultipleDocumentsInMultipage        : Bool := true
  ocrMappingEnabled                       : Bool := false

structure Libraries where
  /-- `filetype.guess_mime`. -/
  guessMime     : Bytes → Option String := fun _ => none
  /-- `zipfile.ZipFile(..).namelist()`; `none` for `BadZipFile`. -/
  zipNames      : Bytes → Option (List String) := fun _ => none
  /-- `len(PdfReader(..).pages)`. -/
  pdfPageCount  : Bytes → Option Nat := fun _ => some 1
  tiffPageCount : Bytes → Option Nat := fun _ => some 1
  truncatePdf   : Bytes → Nat → Option Bytes := fun b _ => some b
  truncateTiff  : Bytes → Nat → Option Bytes := fun b _ => some b
  /-- The width and height of an image (Pillow); `none` when it cannot be opened. -/
  imageSize     : Bytes → Option (Nat × Nat) := fun _ => none
  /-- A rectangle of an image, saved in the format of the image (Pillow). -/
  encodeCrop    : Bytes → PixelRect → Option Bytes := fun _ _ => none
  /-- The grayscale JPEG or PDF of `convert_to_grayscale` (Pillow) with its content type. -/
  grayscale     : Bytes → Option (Bytes × String) := fun b => some (b, "image/jpeg")
  /-- `convert_file` (Pillow): the PNG and its content type. -/
  convertFile   : Bytes → String → Option (Bytes × String) := fun b _ => some (b, "image/png")
  /-- `get_field_label` (`utils/field_labels.py`), which reads label files. -/
  fieldLabel    : Option String → String → String := fun _ n => n
  /-- `str.lower`; the default knows the ASCII letters. -/
  lower         : String → String := String.toLower
  /-- A decimal digit (`\d`); the default knows the ASCII ones. -/
  isDecimal     : Char → Bool := Char.isDigit

structure EnvConfig where
  documentaiInputLocation         : Option String
  documentaiDemoInputLocation     : Option String := none
  documentaiOutputLocation        : Option String := none
  documentaiPreprocessingLocation : Option String := none
  bdaProjectArn                   : Option String := none
  bdaProfileArn                   : Option String := none
  bdaProjectArns                  : List (String × String) := []
  maxBdaInvokeRetryAttempts       : Nat := 3
  ddbMetricsInputQueueUrl         : Option String := none
  ocrMappingQueueUrl              : Option String := none
  classificationModelId           : String := "us.amazon.nova-pro-v1:0"
  boundingBoxModelId              : String := "us.amazon.nova-lite-v1:0"
  ocrMappingModelId               : String := "us.amazon.nova-pro-v1:0"
  flags                           : FeatureFlags := {}
  /-- `get_all_schemas`. -/
  schemas                         : List (String × DocumentSchema) := []
  libs                            : Libraries := {}

end DocumentAi

import DocumentAi.Utils.CropImage
import DocumentAi.Utils.Preclassification

/-!
# Image optimisation before BDA: crop, grayscale, size check

| here | there |
| --- | --- |
| `detectDocumentBbox`   | `detect_document_bbox` (`utils/bbox_detection.py:83-128`) |
| `getBboxIfEnabled`     | `get_bbox_if_enabled` (`utils/image_optimization.py:28-37`) |
| `isFileTooLargeForBda` | `is_file_too_large_for_bda` (`utils/image_optimization.py:109-117`) |
| `optimizeS3Image`      | `optimize_s3_image` (`utils/image_optimization.py:151-234`), with the bytes passed in as its caller does |
-/

namespace DocumentAi

def validBbox (b : BoundingBox) : Bool :=
  let (x1, y1, x2, y2) := b
  decide (0 ≤ x1 ∧ x1 < x2 ∧ x2 ≤ 1000 ∧ 0 ≤ y1 ∧ y1 < y2 ∧ y2 ≤ 1000)

def detectDocumentBbox (env : EnvConfig) (bytes : Bytes) (contentType : String) :
    Prog BboxResult := do
  try
    let response : Converse BoundingBox ← call (.ai (.detectBbox bytes contentType))
    pure
      { bbox := response.parsed.filter validBbox
        cropResult :=
          { inputTokens := response.inputTokens
            outputTokens := response.outputTokens
            modelId := some env.boundingBoxModelId } }
  catch _ => pure {}

def getBboxIfEnabled (env : EnvConfig) (bytes : Bytes) (contentType : String) :
    Prog (Option BboxResult) :=
  if env.flags.documentCrop && isImageType contentType then do
    let r ← detectDocumentBbox env bytes contentType
    pure (some r)
  else pure none

def isFileTooLargeForBda (contentType : String) (size : Nat) : Bool :=
  if contentType = "application/pdf" ∨ contentType = "image/tiff" then decide (524288000 < size)
  else decide (bdaMaxImageSizeBytes < size)

/-- The crop step: the bytes after it, whether they were cropped, and what is recorded. -/
def cropStep (env : EnvConfig) (bytes : Bytes) :
    Option BboxResult → Bytes × Bool × CropResult
  | none   => (bytes, false, {})
  | some r =>
    match r.bbox with
    | none      => (bytes, false, r.cropResult)
    | some bbox =>
      match cropImageToBbox env.libs bytes bbox with
      | none         => (bytes, false, r.cropResult)
      | some cropped =>
        let (x1, y1, x2, y2) := bbox
        (cropped, true,
          { r.cropResult with
            cropped := true
            boundingBox := some bbox
            retainedPercentage := some (round2Percent ((x2 - x1) * (y2 - y1) / 10000)) })
where
  round2Percent (x : Rat) : Rat := roundHalfEven (x.num * 100) x.den / 100

/-- The grayscale step; `false` when the bytes were left as they are. -/
def grayscaleStep (env : EnvConfig) (bytes : Bytes) (contentType : String) :
    Bytes × String × Bool :=
  if FileValidation.grayscaleConvertible.contains contentType then
    match env.libs.grayscale bytes with
    | some (converted, convertedType) => (converted, convertedType, true)
    | none                            => (bytes, contentType, false)
  else (bytes, contentType, false)

/-- The crop box of an image: the one computed before, else a new one. -/
def bboxFor (env : EnvConfig) (bytes : Bytes) (contentType : String)
    (precomputedBbox : Option BboxResult) : Prog (Option BboxResult) :=
  if isImageType contentType then
    match precomputedBbox with
    | some r => pure (some r)
    | none   => getBboxIfEnabled env bytes contentType
  else pure none

def storeOptimized (key : S3Key) (final : Bytes) (finalType : String) (changed : Bool) : Prog Unit :=
  if changed then call (.putObject key { body := .raw final, contentType := some finalType })
  else pure ()

def optimizeS3Image (env : EnvConfig) (key : S3Key) (applyGrayscale : Bool) (bytes : Bytes)
    (contentType : String) (precomputedBbox : Option BboxResult) : Prog OptimizationResult := do
  let bboxResult ← bboxFor env bytes contentType precomputedBbox
  let (cropped, wasCropped, cropResult) := cropStep env bytes bboxResult
  let (final, finalType, wasGrayscaled) :=
    if applyGrayscale then grayscaleStep env cropped contentType else (cropped, contentType, false)
  storeOptimized key final finalType (wasCropped || wasGrayscaled)
  pure
    { cropResult
      grayscaleApplied := wasGrayscaled
      fileSizeBytes := some final.length
      tooLarge := isFileTooLargeForBda finalType final.length }

end DocumentAi

import Mathlib.Tactic.NormNum
import DocumentAi.Utils.ImageOptimization

/-!
# Does a crop keep the detected box, and is it reported as it was done?

`crop_image_to_bbox` leaves an image alone when the box covers three quarters of it;
`optimize_s3_image` reports a crop whenever that function has returned.

| here | meaning |
| --- | --- |
| `Pillow`         | **Pillow boundary**: a saved rectangle is an image of its size |
| `KeepsRegion`    | the rectangle is in the image and has every pixel that the box touches |
| `ReportsCrop`    | `cropped` and the percentage stand for bytes of a smaller rectangle |
-/

namespace DocumentAi

namespace PixelRect

def width (r : PixelRect) : Int := r.right - r.left

def height (r : PixelRect) : Int := r.bottom - r.top

def Holds (r : PixelRect) (i j : Int) : Prop := (r.left ≤ i ∧ i < r.right) ∧ r.top ≤ j ∧ j < r.bottom

structure Within (r : PixelRect) (width height : Nat) : Prop where
  left   : 0 ≤ r.left
  top    : 0 ≤ r.top
  right  : r.right ≤ width
  bottom : r.bottom ≤ height

def Smaller (r : PixelRect) (width height : Nat) : Prop := r.width < width ∨ r.height < height

end PixelRect

structure Pillow (libs : Libraries) : Prop where
  encoded : ∀ imageBytes width height r out, libs.imageSize imageBytes = some (width, height) →
    r.Within width height → r.isEmpty = false → libs.encodeCrop imageBytes r = some out →
      libs.imageSize out = some (r.width.toNat, r.height.toNat)

/-- A pixel that the box touches. -/
def InBox (bbox : BoundingBox) (width height : Nat) (i j : Int) : Prop :=
  let (x1, y1, x2, y2) := bbox
  InSpan x1 x2 width i ∧ InSpan y1 y2 height j

def KeepsEdges (bbox : BoundingBox) (width height : Nat) : Prop :=
  let (x1, y1, x2, y2) := bbox
  KeepsEdge x1 x2 width ∧ KeepsEdge y1 y2 height

structure KeepsRegion (width height : Nat) (bbox : BoundingBox) : Prop where
  nonempty : (cropRect width height bbox).isEmpty = false
  inside   : (cropRect width height bbox).Within width height
  contains : ∀ i j, InBox bbox width height i j → (cropRect width height bbox).Holds i j

/-- The bytes are those of the rectangle, and it is smaller than the image. -/
structure IsSmallerCrop (libs : Libraries) (imageBytes : Bytes) (width height : Nat)
    (bbox : BoundingBox) (out : Bytes) : Prop where
  nonempty : (cropRect width height bbox).isEmpty = false
  encoded  : libs.encodeCrop imageBytes (cropRect width height bbox) = some out
  smaller  : (cropRect width height bbox).Smaller width height

def ReportsCrop (env : EnvConfig) (imageBytes : Bytes) (width height : Nat) (bbox : BoundingBox)
    (detected : CropResult) : Prop :=
  let step := cropStep env imageBytes (some { bbox := some bbox, cropResult := detected })
  (step.2.2.cropped = true ↔ IsSmallerCrop env.libs imageBytes width height bbox step.1) ∧
    (step.2.2.retainedPercentage.isSome = true ↔ step.2.2.cropped = true)

/-- The rectangle keeps the region unless the crop is skipped, and the report is right. -/
def CropsFaithfully (env : EnvConfig) (imageBytes : Bytes) (width height : Nat) (bbox : BoundingBox)
    (detected : CropResult) : Prop :=
  (skipsCrop bbox = false → (cropRect width height bbox).isEmpty = false →
    KeepsRegion width height bbox) ∧ ReportsCrop env imageBytes width height bbox detected

/-- What the detection is called with and what it has found. -/
structure Detection (env : EnvConfig) (imageBytes : Bytes) (width height : Nat) (bbox : BoundingBox)
    (detected : CropResult) : Prop where
  size     : env.libs.imageSize imageBytes = some (width, height)
  width    : 1 ≤ width
  height   : 1 ≤ height
  valid    : validBbox bbox = true
  cropped  : detected.cropped = false
  retained : detected.retainedPercentage = none

/-! ## The rectangle -/

theorem isSpan_of_valid {x1 y1 x2 y2 : Rat} (h : validBbox (x1, y1, x2, y2) = true) :
    IsSpan x1 x2 ∧ IsSpan y1 y2 := by
  obtain ⟨hx1, hx, hx2, hy1, hy, hy2⟩ := of_decide_eq_true h
  exact ⟨⟨hx1, hx, hx2⟩, ⟨hy1, hy, hy2⟩⟩

theorem within_cropRect (width height : Nat) (bbox : BoundingBox) :
    (cropRect width height bbox).Within width height := by
  obtain ⟨x1, y1, x2, y2⟩ := bbox
  exact ⟨lowEdge_nonneg, lowEdge_nonneg, highEdge_le, highEdge_le⟩

theorem contains_iff {width height : Nat} {bbox : BoundingBox} (hvalid : validBbox bbox = true)
    (hwidth : 1 ≤ width) (hheight : 1 ≤ height) :
    (∀ i j, InBox bbox width height i j → (cropRect width height bbox).Holds i j) ↔
      KeepsEdges bbox width height := by
  obtain ⟨x1, y1, x2, y2⟩ := bbox
  obtain ⟨hx, hy⟩ := isSpan_of_valid hvalid
  constructor
  · intro hall
    obtain ⟨i, hi⟩ := exists_inSpan hx hwidth
    obtain ⟨j, hj⟩ := exists_inSpan hy hheight
    exact ⟨(edges_contain_iff hx).1 fun i' hi' => (hall i' j ⟨hi', hj⟩).1,
      (edges_contain_iff hy).1 fun j' hj' => (hall i j' ⟨hi, hj'⟩).2⟩
  · rintro ⟨hkx, hky⟩ i j ⟨hi, hj⟩
    exact ⟨(edges_contain_iff hx).2 hkx i hi, (edges_contain_iff hy).2 hky j hj⟩

theorem keepsRegion_iff {width height : Nat} {bbox : BoundingBox} (hvalid : validBbox bbox = true)
    (hwidth : 1 ≤ width) (hheight : 1 ≤ height) :
    KeepsRegion width height bbox ↔
      (cropRect width height bbox).isEmpty = false ∧ KeepsEdges bbox width height :=
  ⟨fun h => ⟨h.nonempty, (contains_iff hvalid hwidth hheight).1 h.contains⟩,
    fun h => ⟨h.1, within_cropRect .., (contains_iff hvalid hwidth hheight).2 h.2⟩⟩

/-! ## The report -/

section
variable {env : EnvConfig} {imageBytes : Bytes} {width height : Nat} {bbox : BoundingBox}
  {detected : CropResult}

/-- The image itself is no image of a smaller rectangle. -/
theorem not_isSmallerCrop_self (hp : Pillow env.libs)
    (hd : Detection env imageBytes width height bbox detected) :
    ¬ IsSmallerCrop env.libs imageBytes width height bbox imageBytes := by
  rintro ⟨hne, hencoded, hsmaller⟩
  have hwithin := within_cropRect width height bbox
  have hsize := hp.encoded _ _ _ _ _ hd.size hwithin hne hencoded
  rw [hd.size] at hsize
  obtain ⟨hw, hh⟩ := Prod.mk.inj (Option.some.inj hsize)
  have hempty := of_decide_eq_false hne
  rcases hsmaller with h | h
  · unfold PixelRect.width at hw h
    omega
  · unfold PixelRect.height at hh h
    omega

theorem cropStep_none (h : cropImageToBbox env.libs imageBytes bbox = none) :
    cropStep env imageBytes (some { bbox := some bbox, cropResult := detected }) =
      (imageBytes, false, detected) := by
  simp only [cropStep, h]

variable (detected) in
/-- A crop that has returned is reported, whatever it has returned. -/
theorem cropStep_some {out : Bytes} (h : cropImageToBbox env.libs imageBytes bbox = some out) :
    let step := cropStep env imageBytes (some { bbox := some bbox, cropResult := detected })
    step.1 = out ∧ step.2.2.cropped = true ∧ step.2.2.retainedPercentage.isSome = true := by
  simp [cropStep, h]

theorem reportsCrop_none (hd : Detection env imageBytes width height bbox detected)
    (h : cropImageToBbox env.libs imageBytes bbox = none)
    (hnot : ¬ IsSmallerCrop env.libs imageBytes width height bbox imageBytes) :
    ReportsCrop env imageBytes width height bbox detected := by
  unfold ReportsCrop
  rw [cropStep_none h]
  dsimp only
  rw [hd.cropped, hd.retained]
  exact ⟨⟨fun hf => (by cases hf), fun hs => absurd hs hnot⟩, Iff.rfl⟩

theorem reportsCrop_some {out : Bytes} (h : cropImageToBbox env.libs imageBytes bbox = some out) :
    ReportsCrop env imageBytes width height bbox detected ↔
      IsSmallerCrop env.libs imageBytes width height bbox out := by
  obtain ⟨hout, hcropped, hretained⟩ := cropStep_some detected h
  unfold ReportsCrop
  simp only [hout, hcropped, hretained, true_iff, and_true]

/-- **A crop is faithful exactly when the box covers less than three quarters of the grid and, where
the rectangle is not empty, the padding reaches the end of the last pixel on both axes and the
rectangle is smaller than the image or cannot be saved.** -/
theorem cropsFaithfully_iff (hp : Pillow env.libs)
    (hd : Detection env imageBytes width height bbox detected) :
    CropsFaithfully env imageBytes width height bbox detected ↔
      skipsCrop bbox = false ∧ ((cropRect width height bbox).isEmpty = false →
        KeepsEdges bbox width height ∧ ((cropRect width height bbox).Smaller width height ∨
          env.libs.encodeCrop imageBytes (cropRect width height bbox) = none)) := by
  have hregion := keepsRegion_iff hd.valid hd.width hd.height
  have hself := not_isSmallerCrop_self hp hd
  have hcrop : cropImageToBbox env.libs imageBytes bbox =
      if skipsCrop bbox then some imageBytes
      else if (cropRect width height bbox).isEmpty then none
      else env.libs.encodeCrop imageBytes (cropRect width height bbox) := by
    rw [cropImageToBbox, hd.size]
  unfold CropsFaithfully
  rw [hregion]
  by_cases hskip : skipsCrop bbox = true
  · rw [if_pos hskip] at hcrop
    rw [reportsCrop_some hcrop, hskip]
    exact ⟨fun h => absurd h.2 hself, fun h => (by cases h.1)⟩
  rw [if_neg hskip] at hcrop
  rw [Bool.not_eq_true] at hskip
  by_cases hempty : (cropRect width height bbox).isEmpty = true
  · rw [if_pos hempty] at hcrop
    rw [hempty]
    exact ⟨fun _ => ⟨hskip, fun h => (by cases h)⟩,
      fun _ => ⟨fun _ h => (by cases h), reportsCrop_none hd hcrop hself⟩⟩
  rw [if_neg hempty] at hcrop
  rw [Bool.not_eq_true] at hempty
  cases hencode : env.libs.encodeCrop imageBytes (cropRect width height bbox) with
  | none =>
    rw [hencode] at hcrop
    constructor
    · exact fun h => ⟨hskip, fun _ => ⟨(h.1 hskip hempty).2, .inr rfl⟩⟩
    · exact fun h => ⟨fun _ _ => ⟨hempty, (h.2 hempty).1⟩, reportsCrop_none hd hcrop hself⟩
  | some out =>
    rw [hencode] at hcrop
    rw [reportsCrop_some hcrop]
    constructor
    · exact fun h => ⟨hskip, fun _ => ⟨(h.1 hskip hempty).2, .inl h.2.smaller⟩⟩
    · intro h
      obtain ⟨hkeeps, hsmaller | hnone⟩ := h.2 hempty
      · exact ⟨fun _ _ => ⟨hempty, hkeeps⟩, ⟨hempty, hencode, hsmaller⟩⟩
      · cases hnone

end

/-! ## An image of its two dimensions -/

/-- Images that consist of their width and height. -/
def blankLibs : Libraries where
  imageSize
    | [w, h] => some (w.toNat, h.toNat)
    | _      => none
  encodeCrop _ r := some [UInt8.ofNat r.width.toNat, UInt8.ofNat r.height.toNat]

def blankEnv : EnvConfig := { documentaiInputLocation := none, libs := blankLibs }

theorem pillow_blankLibs : Pillow blankLibs := by
  constructor
  intro imageBytes width height r out hsize hwithin _ hencode
  cases hencode
  have hlt : width < 256 ∧ height < 256 := by
    match imageBytes, hsize with
    | [w, h], hsize =>
      cases hsize
      exact ⟨w.toNat_lt, h.toNat_lt⟩
  have hw : r.width.toNat < 256 := by
    have hleft := hwithin.left
    have hright := hwithin.right
    unfold PixelRect.width
    omega
  have hh : r.height.toNat < 256 := by
    have htop := hwithin.top
    have hbottom := hwithin.bottom
    unfold PixelRect.height
    omega
  change some ((UInt8.ofNat _).toNat, (UInt8.ofNat _).toNat) = _
  rw [UInt8.toNat_ofNat_of_lt' hw, UInt8.toNat_ofNat_of_lt' hh]

theorem detection_blank {bbox : BoundingBox} (h : validBbox bbox = true) :
    Detection blankEnv [100, 100] 100 100 bbox {} where
  size     := rfl
  width    := by decide
  height   := by decide
  valid    := h
  cropped  := rfl
  retained := rfl

theorem cropsFaithfully_half : CropsFaithfully blankEnv [100, 100] 100 100 (0, 0, 500, 1000) {} := by
  refine (cropsFaithfully_iff pillow_blankLibs (detection_blank (by decide +kernel))).2
    ⟨by decide +kernel, fun _ => ⟨⟨⟨50, ?_, ?_⟩, ⟨100, ?_, ?_⟩⟩, .inl (.inl ?_)⟩⟩
  · norm_num
  · norm_num [padding]
  · norm_num
  · norm_num [padding]
  · decide +kernel

/-- A box that covers the upper four fifths is left alone, and reported as a crop to 80%. -/
theorem crop_misreported : ¬ ∀ env imageBytes width height bbox detected, Pillow env.libs →
    Detection env imageBytes width height bbox detected →
      CropsFaithfully env imageBytes width height bbox detected := by
  intro hall
  have hreport := (hall blankEnv [100, 100] 100 100 (0, 0, 1000, 800) {} pillow_blankLibs
    (detection_blank (by decide +kernel))).2
  have hcrop : cropImageToBbox blankEnv.libs [100, 100] (0, 0, 1000, 800) = some [100, 100] := by
    decide +kernel
  have hsmaller := (reportsCrop_some hcrop).1 hreport
  have hencode : blankLibs.encodeCrop [100, 100] (cropRect 100 100 (0, 0, 1000, 800)) =
      some [100, 82] := by decide +kernel
  have hsame := hencode.symm.trans hsmaller.encoded
  revert hsame
  decide

end DocumentAi

import Mathlib.Algebra.Order.Field.Rat
import Mathlib.Tactic.Linarith
import DocumentAi.Config.Env

/-!
# The crop rectangle of a detected box (`utils/image_optimization.py:40-101`)

| here | there |
| --- | --- |
| `truncInt`        | `int(x)` |
| `lowEdge`, `highEdge` | the edges of the rectangle on one axis (`:77-83`), with `pad_ratio` 0.03 |
| `skipsCrop`       | the test on the area (`:65-75`), with `skip_threshold` 0.75 |
| `cropImageToBbox` | `crop_image_to_bbox`; `none` for the `ValueError` |
| `InSpan`          | the pixels that a span of the 0..1000 grid touches |
| `KeepsEdge`       | an integer lies between the scaled edge and the padded one |

Both edges are truncated: at the low edge this can only widen the rectangle, at the high edge the
padding has to reach the next pixel.
-/

namespace DocumentAi

def truncInt (x : Rat) : Int := if 0 ≤ x then x.floor else x.ceil

def padding (lo hi : Rat) : Rat := (hi - lo) * (3 / 100)

def lowEdge (lo hi : Rat) (size : Nat) : Int := max 0 (truncInt ((lo - padding lo hi) / 1000 * size))

def highEdge (lo hi : Rat) (size : Nat) : Int :=
  min (size : Int) (truncInt ((hi + padding lo hi) / 1000 * size))

def cropRect (width height : Nat) (bbox : BoundingBox) : PixelRect :=
  let (x1, y1, x2, y2) := bbox
  { left := lowEdge x1 x2 width
    top := lowEdge y1 y2 height
    right := highEdge x1 x2 width
    bottom := highEdge y1 y2 height }

def PixelRect.isEmpty (r : PixelRect) : Bool := decide (r.right ≤ r.left ∨ r.bottom ≤ r.top)

def skipsCrop (bbox : BoundingBox) : Bool :=
  let (x1, y1, x2, y2) := bbox
  decide (3 / 4 ≤ (x2 - x1) * (y2 - y1) / (1000 * 1000))

def cropImageToBbox (libs : Libraries) (imageBytes : Bytes) (bbox : BoundingBox) : Option Bytes :=
  match libs.imageSize imageBytes with
  | none                 => none
  | some (width, height) =>
    if skipsCrop bbox then some imageBytes
    else if (cropRect width height bbox).isEmpty then none
    else libs.encodeCrop imageBytes (cropRect width height bbox)

/-! ## One axis -/

/-- The pixel `i` of `size` overlaps the span. -/
def InSpan (lo hi : Rat) (size : Nat) (i : Int) : Prop :=
  lo / 1000 * size < i + 1 ∧ i < hi / 1000 * size

def KeepsEdge (lo hi : Rat) (size : Nat) : Prop :=
  ∃ k : Int, hi / 1000 * size ≤ k ∧ k ≤ (hi + padding lo hi) / 1000 * size

/-- A span that the validator accepts. -/
structure IsSpan (lo hi : Rat) : Prop where
  nonneg : 0 ≤ lo
  lt     : lo < hi
  le     : hi ≤ 1000

theorem truncInt_le {x y : Rat} (hy : 0 ≤ y) (h : x ≤ y) : (truncInt x : Rat) ≤ y := by
  unfold truncInt
  split
  · exact (Rat.floor_le x).trans h
  · next hx =>
    have hceil : x.ceil ≤ 0 := Rat.ceil_le_iff.2 (by exact_mod_cast (not_le.1 hx).le)
    have hcast : (x.ceil : Rat) ≤ 0 := by exact_mod_cast hceil
    exact hcast.trans hy

theorem le_truncInt {x : Rat} {k : Int} (hx : 0 ≤ x) : k ≤ truncInt x ↔ (k : Rat) ≤ x := by
  rw [truncInt, if_pos hx]
  exact Rat.le_floor_iff

theorem lt_truncInt_add_one {x : Rat} (hx : 0 ≤ x) : x < truncInt x + 1 := by
  rw [truncInt, if_pos hx]
  exact_mod_cast Rat.lt_floor_add_one x

section
variable {lo hi : Rat} {size : Nat}

theorem padding_nonneg (h : IsSpan lo hi) : 0 ≤ padding lo hi := by
  have hlt := h.lt
  unfold padding
  linarith

/-- Scaling keeps the order. -/
theorem scale_le {x y : Rat} (h : x ≤ y) (size : Nat) : x / 1000 * size ≤ y / 1000 * size := by
  have hsize : (0 : Rat) ≤ size := Nat.cast_nonneg size
  exact mul_le_mul_of_nonneg_right (by linarith) hsize

theorem scale_lt {x y : Rat} (h : x < y) (hsize : 1 ≤ size) : x / 1000 * size < y / 1000 * size := by
  have hpos : (0 : Rat) < size := Nat.cast_pos.2 hsize
  exact mul_lt_mul_of_pos_right (by linarith) hpos

theorem scale_nonneg {x : Rat} (h : 0 ≤ x) (size : Nat) : 0 ≤ x / 1000 * size := by
  have hle := scale_le h size
  simpa using hle

theorem scale_le_size (h : hi ≤ 1000) (size : Nat) : hi / 1000 * size ≤ size := by
  have hle := scale_le h size
  simpa using hle

theorem lowEdge_le (h : IsSpan lo hi) : (lowEdge lo hi size : Rat) ≤ lo / 1000 * size := by
  have hpad := padding_nonneg h
  have hlo := scale_nonneg h.nonneg size
  have htrunc := truncInt_le hlo (scale_le (show lo - padding lo hi ≤ lo by linarith) size)
  rw [lowEdge, Int.cast_max]
  exact max_le (by simpa using hlo) htrunc

theorem lowEdge_nonneg : 0 ≤ lowEdge lo hi size := le_max_left _ _

theorem highEdge_le : highEdge lo hi size ≤ size := min_le_left _ _

theorem padded_nonneg (h : IsSpan lo hi) : 0 ≤ (hi + padding lo hi) / 1000 * size := by
  have hpad := padding_nonneg h
  exact scale_nonneg (by linarith [h.nonneg, h.lt]) size

theorem le_highEdge_iff (h : IsSpan lo hi) :
    hi / 1000 * size ≤ highEdge lo hi size ↔ KeepsEdge lo hi size := by
  constructor
  · intro hle
    refine ⟨highEdge lo hi size, hle, ?_⟩
    exact (le_truncInt (padded_nonneg h)).1 (min_le_right _ _)
  · rintro ⟨k, hk, hpadded⟩
    have htrunc : k ≤ truncInt ((hi + padding lo hi) / 1000 * size) :=
      (le_truncInt (padded_nonneg h)).2 hpadded
    rw [highEdge, Int.cast_min]
    refine le_min ?_ (hk.trans (by exact_mod_cast htrunc))
    simpa using scale_le_size h.le size

/-- The high edge is less than one pixel short. -/
theorem lt_highEdge_add_one (h : IsSpan lo hi) :
    hi / 1000 * size < highEdge lo hi size + 1 := by
  have hpad := padding_nonneg h
  have hpadded := scale_le (show hi ≤ hi + padding lo hi by linarith) size
  have hnonneg : 0 ≤ (hi + padding lo hi) / 1000 * (size : Rat) := padded_nonneg h
  have htrunc := lt_truncInt_add_one hnonneg
  have hsize := scale_le_size h.le size
  rw [highEdge, Int.cast_min, Int.cast_natCast]
  rcases min_choice (size : Rat) (truncInt ((hi + padding lo hi) / 1000 * size)) with heq | heq
  · rw [heq]
    linarith
  · rw [heq]
    linarith

/-- **The edges keep every pixel of the span exactly when the padding reaches a pixel's end.** -/
theorem edges_contain_iff (h : IsSpan lo hi) :
    (∀ i, InSpan lo hi size i → lowEdge lo hi size ≤ i ∧ i < highEdge lo hi size) ↔
      KeepsEdge lo hi size := by
  rw [← le_highEdge_iff h]
  constructor
  · intro hall
    by_contra hnot
    have hlt : lo / 1000 * size < highEdge lo hi size + 1 :=
      (scale_le h.lt.le size).trans_lt (lt_highEdge_add_one h)
    exact lt_irrefl _ (hall _ ⟨hlt, not_le.1 hnot⟩).2
  · rintro hle i ⟨hlow, hhigh⟩
    have hright : (i : Rat) < highEdge lo hi size := hhigh.trans_le hle
    have hleft : (lowEdge lo hi size : Rat) < i + 1 := (lowEdge_le h).trans_lt hlow
    constructor
    · have hleft : lowEdge lo hi size < i + 1 := by exact_mod_cast hleft
      omega
    · exact_mod_cast hright

/-- A span touches a pixel. -/
theorem exists_inSpan (h : IsSpan lo hi) (hsize : 1 ≤ size) : ∃ i, InSpan lo hi size i := by
  refine ⟨(lo / 1000 * size).floor, ?_, (Rat.floor_le _).trans_lt (scale_lt h.lt hsize)⟩
  exact_mod_cast Rat.lt_floor_add_one _

end

end DocumentAi

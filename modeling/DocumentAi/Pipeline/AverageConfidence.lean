import DocumentAi.Lib.Mean
import DocumentAi.Pipeline.Bda
import DocumentAi.Readers.BdaFields
import Mathlib.Algebra.Field.Rat
import Mathlib.Data.Rat.Cast.CharZero

/-!
# The three average confidences of a BDA result

| here | there |
| --- | --- |
| `storedAverage` | `calculate_field_metrics` (`utils/extraction_timing.py:65-93`): leaves out the fields of the empty list and, when the flag is on, of the missing-geometry list |
| `floorAverage`  | the average of `classify_extraction_result` (`classifiers/document_classification.py:349-354`): leaves out the fields of both lists |
| `confidenceScores` | `read_bda_output`: leaves out the entries that are empty or without geometry |

The first two leave fields out by name, the reader entry by entry.
-/

namespace DocumentAi

def storedAverage (env : EnvConfig) (data : ClassificationData) : Option Rat :=
  (calculateFieldMetrics env data).fieldNotEmptyAvgConfidence

def floorAverage (data : ClassificationData) : Option Rat :=
  calculateAverageNonEmptyConfidence (data.fieldConfidenceScores.getD [])
    (data.fieldEmptyList.getD []) (data.fieldMissingGeometryList.getD [])

theorem calculateAverageNonEmptyConfidence_eq (scores : FieldConfidences) (e m : List String) :
    calculateAverageNonEmptyConfidence scores e m =
      Mean.mean ((scores.filter fun f => !(e.contains f.1 || m.contains f.1)).map Prod.snd) := by
  simp only [calculateAverageNonEmptyConfidence, Mean.mean, List.isEmpty_iff, List.sum_eq_foldl]

theorem storedAverage_eq (env : EnvConfig) (data : ClassificationData) :
    storedAverage env data = calculateAverageNonEmptyConfidence
      (data.fieldConfidenceScores.getD []) (data.fieldEmptyList.getD [])
      (if env.flags.includeMissingGeoWithMissingFields then
        data.fieldMissingGeometryList.getD [] else []) := by
  unfold storedAverage calculateFieldMetrics
  by_cases h : data.fieldConfidenceScores.getD [] = []
  · rw [h]
    rfl
  · rw [if_neg (by rwa [List.isEmpty_iff])]

/-! ## By name and by entry -/

section
variable (env : EnvConfig) (b : BdaResult)

abbrev emptyNames : List String := (b.readLeaves.filter Leaf.isEmpty).map Leaf.path

abbrev missingNames : List String :=
  (b.readLeaves.filter (Leaf.missesGeometry (missingGeometryThreshold env))).map Leaf.path

/-- The field's name is in neither list. -/
def unlisted (l : Leaf) : Bool :=
  !((emptyNames b).contains l.path || (missingNames env b).contains l.path)

/-- The confidences of the fields in neither list. -/
def counted : List Rat := (b.readLeaves.filter (unlisted env b)).map Leaf.confidence

/-- The confidences that the reader scores of fields that are listed for another entry of theirs. -/
def overlooked : List Rat :=
  (b.readLeaves.filter fun l => l.scores (missingGeometryThreshold env) && !unlisted env b l).map
    Leaf.confidence

/-- With the flag off, the confidences of the fields that are in the missing-geometry list alone. -/
def unfiltered : List Rat :=
  if env.flags.includeMissingGeoWithMissingFields then []
  else (b.readLeaves.filter fun l =>
    !(emptyNames b).contains l.path && !unlisted env b l).map Leaf.confidence

theorem scores_of_unlisted {l : Leaf} (hl : l ∈ b.readLeaves) (h : unlisted env b l = true) :
    l.scores (missingGeometryThreshold env) = true := by
  rw [unlisted, Bool.not_eq_true', Bool.or_eq_false_iff] at h
  obtain ⟨hempty, hmissing⟩ := h
  rw [List.contains_eq_mem, decide_eq_false_iff_not] at hempty hmissing
  have he : l.isEmpty = false := by
    by_contra hne
    exact hempty (List.mem_map_of_mem (List.mem_filter.2 ⟨hl, Bool.not_eq_false _ ▸ hne⟩))
  have hm : l.missesGeometry (missingGeometryThreshold env) = false := by
    by_contra hne
    exact hmissing (List.mem_map_of_mem (List.mem_filter.2 ⟨hl, Bool.not_eq_false _ ▸ hne⟩))
  rw [Leaf.scores, he, hm]
  rfl

end

section
variable {env : EnvConfig} {b : BdaResult} {result : ExtractionResult}

/-- What the extraction takes over of the reader's result. -/
theorem extractBdaResult_eq (h : extractBdaResult env b = some result) :
    result.fieldConfidenceScores = b.readLeaves.map (fun l => (l.path, l.confidence)) ∧
    result.fieldEmptyList = emptyNames b ∧ result.fieldMissingGeometryList = missingNames env b := by
  obtain ⟨name, _, rfl⟩ := Option.map_eq_some_iff.1 h
  dsimp only
  rw [readBdaOutput_eq, confidences_addLeaves, empty_addLeaves, missingGeometry_addLeaves]
  exact ⟨rfl, rfl, rfl⟩

theorem average_leaves (ls : List Leaf) (e m : List String) :
    calculateAverageNonEmptyConfidence (ls.map fun l => (l.path, l.confidence)) e m =
      Mean.mean ((ls.filter fun l => !(e.contains l.path || m.contains l.path)).map
        Leaf.confidence) := by
  rw [calculateAverageNonEmptyConfidence_eq, List.filter_map, List.map_map]
  rfl

theorem floorAverage_result (h : extractBdaResult env b = some result) (uri : Option String) :
    floorAverage (.fromExtractionResult result uri) = Mean.mean (counted env b) := by
  obtain ⟨hscores, hempty, hmissing⟩ := extractBdaResult_eq h
  change calculateAverageNonEmptyConfidence result.fieldConfidenceScores result.fieldEmptyList
    result.fieldMissingGeometryList = _
  rw [hscores, hempty, hmissing, average_leaves]
  rfl

theorem storedAverage_result_iff (h : extractBdaResult env b = some result) (uri : Option String) :
    storedAverage env (.fromExtractionResult result uri) =
        floorAverage (.fromExtractionResult result uri) ↔
      Mean.Balanced (counted env b) (unfiltered env b) := by
  obtain ⟨hscores, hempty, hmissing⟩ := extractBdaResult_eq h
  rw [floorAverage_result h, storedAverage_eq]
  change calculateAverageNonEmptyConfidence result.fieldConfidenceScores result.fieldEmptyList
    (if _ then result.fieldMissingGeometryList else []) = _ ↔ _
  rw [hscores, hempty, hmissing, average_leaves, unfiltered]
  by_cases hflag : env.flags.includeMissingGeoWithMissingFields = true
  · rw [if_pos hflag, if_pos hflag]
    exact iff_of_true rfl (.inl rfl)
  · rw [if_neg hflag, if_neg hflag]
    have hkept : (fun l : Leaf => !((emptyNames b).contains l.path || ([] : List String).contains l.path)) =
        fun l => !(emptyNames b).contains l.path := by
      funext l
      rw [List.contains_nil, Bool.or_false]
    rw [hkept]
    refine Mean.mean_filter_eq_iff Leaf.confidence fun l _ hl => ?_
    rw [unlisted, Bool.not_or, Bool.and_eq_true] at hl
    exact hl.1

theorem floorAverage_scores_iff (h : extractBdaResult env b = some result) (uri : Option String) :
    Mean.mean (readBdaOutput env (.bdaResult b)).confidenceScores =
        floorAverage (.fromExtractionResult result uri) ↔
      Mean.Balanced (counted env b) (overlooked env b) := by
  rw [floorAverage_result h, readBdaOutput_eq, scores_addLeaves, List.nil_append]
  exact Mean.mean_filter_eq_iff Leaf.confidence fun l hl => scores_of_unlisted env b hl

/-- The average that is stored, the one that is compared with the floor, and the mean of the
reader's scores. -/
structure OneAverage (env : EnvConfig) (b : BdaResult) (data : ClassificationData) : Prop where
  stored : storedAverage env data = floorAverage data
  scored : Mean.mean (readBdaOutput env (.bdaResult b)).confidenceScores = floorAverage data

end

/-- The averages are one exactly when what a listed field has in other entries, and with the flag off
the fields that only miss their geometry, may be left out of the mean. -/
theorem oneAverage_iff (env : EnvConfig) (b : BdaResult) (result : ExtractionResult)
    (uri : Option String) (h : extractBdaResult env b = some result) :
    OneAverage env b (.fromExtractionResult result uri) ↔
      Mean.Balanced (counted env b) (overlooked env b) ∧
        Mean.Balanced (counted env b) (unfiltered env b) := by
  rw [← floorAverage_scores_iff h uri, ← storedAverage_result_iff h uri]
  exact ⟨fun h => ⟨h.scored, h.stored⟩, fun h => ⟨h.2, h.1⟩⟩

/-! ## A name that comes twice -/

def twoItems (first second : FieldData) : BdaResult :=
  { matchedBlueprintName := some "Invoice"
    explainabilityInfo := some
      [.group (.cons "total" (.field first) .nil), .group (.cons "total" (.field second) .nil)] }

def plainEnv : EnvConfig := { documentaiInputLocation := none }

/-- Both entries filled. -/
theorem oneAverage_twice : ∃ result : ExtractionResult, OneAverage plainEnv
    (twoItems ⟨some (9 / 10), some (some "12"), none⟩ ⟨some (1 / 2), some (some "13"), none⟩)
    (.fromExtractionResult result none) := by
  refine ⟨_, (oneAverage_iff _ _ _ _ rfl).2 ⟨?_, ?_⟩⟩
  · decide +kernel
  · decide +kernel

/-- One entry empty: the stored average is absent, the reader scores the other entry. -/
theorem oneAverage_fails : ∃ result : ExtractionResult,
    extractBdaResult plainEnv
      (twoItems ⟨some (9 / 10), some (some ""), none⟩ ⟨some (1 / 2), some (some "13"), none⟩) =
        some result ∧
    floorAverage (.fromExtractionResult result none) = none ∧
    ¬ OneAverage plainEnv
      (twoItems ⟨some (9 / 10), some (some ""), none⟩ ⟨some (1 / 2), some (some "13"), none⟩)
      (.fromExtractionResult result none) := by
  refine ⟨_, rfl, by decide +kernel, fun h => ?_⟩
  exact absurd h.scored (by decide +kernel)

end DocumentAi

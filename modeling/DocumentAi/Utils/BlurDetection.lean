import DocumentAi.Utils.Documents

/-!
# Blur detection on OCR word confidences

| here | there |
| --- | --- |
| `quadrantOf`, `partitionWordsIntoQuadrants` | `_partition_words_into_quadrants` (`utils/blur_detection.py:158-176`) |
| `checkQuadrant`         | `_check_quadrant` (`utils/blur_detection.py:66-81`) |
| `evaluateQuadrants`     | `_evaluate_quadrants` (`utils/blur_detection.py:179-225`) |
| `pageFallbackResult`    | `_page_fallback_result` (`utils/blur_detection.py:228-246`) |
| `checkEmptyQuadrants`   | `_check_empty_quadrants_for_text` (`utils/blur_detection.py:109-155`) |
| `detectBlur`            | `detect_blur` (`utils/blur_detection.py:249-372`) |
-/

namespace DocumentAi

inductive Quadrant where
  | topLeft | topRight | bottomLeft | bottomRight
deriving DecidableEq, Repr

namespace Quadrant

def all : List Quadrant := [topLeft, topRight, bottomLeft, bottomRight]

def name : Quadrant → String
  | topLeft     => "top_left"
  | topRight    => "top_right"
  | bottomLeft  => "bottom_left"
  | bottomRight => "bottom_right"

/-- `name.replace('_', ' ')`. -/
def label (q : Quadrant) : String := q.name.map fun c => if c = '_' then ' ' else c

end Quadrant

def quadrantOf (w : Word) : Quadrant :=
  if w.top < 1 / 2 then if w.left < 1 / 2 then .topLeft else .topRight
  else if w.left < 1 / 2 then .bottomLeft else .bottomRight

def partitionWordsIntoQuadrants (words : List Word) (q : Quadrant) : List Word :=
  words.filter fun w => quadrantOf w == q

def confidenceFloor : Rat := 70
def minWordCount : Nat := 5
def maxLowConfidencePercent : Rat := 30
def minAvgConfidence : Rat := 85
def textDenseMinWords : Nat := 20

def avgConfidence (words : List Word) : Rat :=
  (words.map (·.confidence)).foldl (· + ·) 0 / words.length

def lowPercent (words : List Word) : Rat :=
  ((words.filter fun w => decide (w.confidence < confidenceFloor)).length : Rat) / words.length * 100

def checkQuadrant (words : List Word) : Bool :=
  decide (avgConfidence words < minAvgConfidence)
    || decide (maxLowConfidencePercent < lowPercent words)

/-- `f"{x:.2f}"` for a non-negative `x`. -/
def fmt2 (x : Rat) : String :=
  let n := (roundHalfEven (x.num * 100) x.den).toNat
  toString (n / 100) ++ "." ++ (if n % 100 < 10 then "0" else "") ++ toString (n % 100)

def round1 (x : Rat) : Rat := roundHalfEven (x.num * 10) x.den / 10

def quadrantReason (q : Quadrant) (words : List Word) : String :=
  if avgConfidence words < minAvgConfidence then
    "OCR confidence in the " ++ q.label ++ " quadrant averaged " ++ fmt2 (avgConfidence words)
      ++ "%. The value did not meet the minimum required " ++ fmt2 minAvgConfidence ++ "%."
  else
    fmt2 (lowPercent words) ++ "% of words in the " ++ q.label
      ++ " quadrant were low-confidence. The value exceeded the allowed "
      ++ fmt2 maxLowConfidencePercent ++ "%."

structure QuadrantEvaluation where
  failed : Option Quadrant := none
  stats  : List (String × QuadrantStats) := []
  reason : Option String := none

/-- The quadrants in order; the first blurry one ends the loop. -/
def evaluateQuadrants (words : List Word) : List Quadrant → QuadrantEvaluation
  | []      => {}
  | q :: qs =>
    let qwords := partitionWordsIntoQuadrants words q
    if minWordCount ≤ qwords.length then
      let stats : QuadrantStats :=
        { wordCount := qwords.length
          avgConfidence := round1 (avgConfidence qwords)
          lowConfidencePercent := round1 (lowPercent qwords) }
      if checkQuadrant qwords then
        { failed := some q, stats := [(q.name, stats)], reason := some (quadrantReason q qwords) }
      else
        let rest := evaluateQuadrants words qs
        { rest with stats := (q.name, stats) :: rest.stats }
    else
      let rest := evaluateQuadrants words qs
      let stats : QuadrantStats :=
        { wordCount := qwords.length, avgConfidence := 0, lowConfidencePercent := 0, skipped := true }
      { rest with stats := (q.name, stats) :: rest.stats }

def pageFallbackResult (words : List Word) : Bool × Option String :=
  if avgConfidence words < minAvgConfidence then
    (true, some ("OCR confidence averaged " ++ fmt2 (avgConfidence words)
      ++ "% across all words. The value did not meet the minimum required "
      ++ fmt2 minAvgConfidence ++ "%."))
  else if maxLowConfidencePercent < lowPercent words then
    (true, some (fmt2 (lowPercent words)
      ++ "% of all words were low-confidence. The value exceeded the allowed "
      ++ fmt2 maxLowConfidencePercent ++ "%."))
  else (false, none)

/-- One vision call for each empty quadrant; an exception or an unclear answer counts as no. -/
def checkEmptyQuadrants (imageBytes : Bytes) : List Quadrant → Prog (List (Quadrant × Bool))
  | []      => pure []
  | q :: qs => do
    let hasText ←
      try
        let answer : Option Bool ← call (.ai (.emptyQuadrant imageBytes q.name))
        pure (answer.getD false)
      catch _ => pure false
    let rest ← checkEmptyQuadrants imageBytes qs
    pure ((q, hasText) :: rest)

def emptyQuadrantReason (q : Quadrant) : String :=
  "OCR did not detect any words in the " ++ q.label
    ++ " quadrant; an LLM confirmed the region contained blurred or unreadable text."

def llmQuadrantStats (hasText : Bool) : QuadrantStats :=
  { wordCount := 0
    avgConfidence := 0
    lowConfidencePercent := 0
    isTextDetectedByLlm := some hasText }

/-- The verdict on a page with enough words, given the answers for its empty quadrants. -/
def blurVerdict (words : List Word) (llm : List (Quadrant × Bool)) : BlurResult :=
  let ev := evaluateQuadrants words Quadrant.all
  let llmStats := llm.map fun a => (a.1.name, llmQuadrantStats a.2)
  let stats := ev.stats.map fun s => (s.1, (llmStats.lookup s.1).getD s.2)
  let found := llm.filter (·.2)
  let reason := match found.getLast? with
    | some (q, _) => some (emptyQuadrantReason q)
    | none        => ev.reason
  let (isBlurry, reason) :=
    if ev.failed.isSome || !found.isEmpty then (true, reason)
    else if stats.all (·.2.skipped) then pageFallbackResult words
    else (false, some "No blur indicators detected.")
  { isBlurry
    avgConfidence := some (avgConfidence words)
    wordCount := some words.length
    lowConfidencePercent := some (lowPercent words)
    llmChecked := !llm.isEmpty
    quadrantStats := some stats
    blurReasonText := reason }

/-- The quadrants the vision model is asked about: the empty ones of a text-dense page, unless the
confidence check has failed already. -/
def suspiciousQuadrants (words : List Word) : List Quadrant :=
  if (evaluateQuadrants words Quadrant.all).failed.isSome then []
  else Quadrant.all.filter fun q =>
    (partitionWordsIntoQuadrants words q).isEmpty && decide (textDenseMinWords ≤ words.length)

def analysisFailedResult : BlurResult :=
  { isBlurry := false
    analysisFailed := true
    blurReasonText := some "Blur analysis failed." }

def detectBlur (imageBytes : Bytes) (contentType : String) : Prog BlurResult := do
  if !isImageType (if contentType = "" then "image/jpeg" else contentType) then
    pure
      { isBlurry := false
        blurReasonText := some "Blur check not performed - document is not an image." }
  else
    try
      let words : List Word ← call (.ai (.detectDocumentText imageBytes))
      if words.length < minWordCount then
        pure
          { isBlurry := false
            isNotDocument := true
            avgConfidence := some 0
            wordCount := some words.length
            blurReasonText := some "Insufficient text detected to identify a document." }
      else do
        let llm ← checkEmptyQuadrants imageBytes (suspiciousQuadrants words)
        pure (blurVerdict words llm)
    catch _ => pure analysisFailedResult

end DocumentAi

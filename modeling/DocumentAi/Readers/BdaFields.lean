import DocumentAi.Readers.Bda

/-!
# The lists of a BDA reader's result, field by field
-/

namespace DocumentAi

def Leaf.confidence (l : Leaf) : Rat := l.data.confidence.getD 0

def Leaf.value (l : Leaf) : Option String := l.data.value.join

def Leaf.isEmpty (l : Leaf) : Bool := l.data.isEmpty

/-- Filled, without geometry, and with a confidence below the threshold. -/
def Leaf.missesGeometry (threshold : Rat) (l : Leaf) : Bool :=
  !l.data.isEmpty && l.data.geometry.isNone && decide (l.confidence < threshold)

def Leaf.scores (threshold : Rat) (l : Leaf) : Bool := !(l.isEmpty || l.missesGeometry threshold)

section
variable {t : Rat} {ls : List Leaf} {r : ReaderResult}

theorem confidences_addLeaves : (addLeaves t ls r).fieldConfidenceMapList =
    r.fieldConfidenceMapList ++ ls.map fun l => (l.path, l.confidence) := by
  induction ls generalizing r with
  | nil => exact (List.append_nil _).symm
  | cons l ls ih =>
    change (addLeaves t ls (r.addField t l.path l.data)).fieldConfidenceMapList = _
    rw [ih, ReaderResult.addField, List.append_assoc]
    rfl

theorem values_addLeaves : (addLeaves t ls r).fieldValues =
    ls.foldl (fun d l => Dict.assign l.path l.value d) r.fieldValues := by
  induction ls generalizing r with
  | nil => rfl
  | cons l ls ih =>
    change (addLeaves t ls (r.addField t l.path l.data)).fieldValues = _
    rw [ih]
    rfl

/-- A leaf that is chosen adds one element to a list. -/
theorem filter_cons_append {α β : Type} (p : α → Bool) (f : α → β) (x : α) (xs : List α)
    (acc : List β) : acc ++ (if p x then [f x] else []) ++ (xs.filter p).map f =
      acc ++ ((x :: xs).filter p).map f := by
  rw [List.filter_cons, List.append_assoc]
  cases p x <;> rfl

theorem empty_addLeaves : (addLeaves t ls r).emptyFields =
    r.emptyFields ++ (ls.filter Leaf.isEmpty).map Leaf.path := by
  induction ls generalizing r with
  | nil => exact (List.append_nil _).symm
  | cons l ls ih =>
    change (addLeaves t ls (r.addField t l.path l.data)).emptyFields = _
    rw [ih]
    exact filter_cons_append Leaf.isEmpty Leaf.path l ls r.emptyFields

theorem missingGeometry_addLeaves : (addLeaves t ls r).fieldsMissingGeometry =
    r.fieldsMissingGeometry ++ (ls.filter (Leaf.missesGeometry t)).map Leaf.path := by
  induction ls generalizing r with
  | nil => exact (List.append_nil _).symm
  | cons l ls ih =>
    change (addLeaves t ls (r.addField t l.path l.data)).fieldsMissingGeometry = _
    rw [ih]
    exact filter_cons_append (Leaf.missesGeometry t) Leaf.path l ls r.fieldsMissingGeometry

theorem scores_addLeaves : (addLeaves t ls r).confidenceScores =
    r.confidenceScores ++ (ls.filter (Leaf.scores t)).map Leaf.confidence := by
  induction ls generalizing r with
  | nil => exact (List.append_nil _).symm
  | cons l ls ih =>
    change (addLeaves t ls (r.addField t l.path l.data)).confidenceScores = _
    have hnew : (r.addField t l.path l.data).confidenceScores =
        r.confidenceScores ++ if l.scores t = true then [l.confidence] else [] := by
      change r.confidenceScores ++
        (if (l.isEmpty || l.missesGeometry t) = true then [] else [l.confidence]) = _
      rw [Leaf.scores]
      cases l.isEmpty || l.missesGeometry t <;> rfl
    rw [ih, hnew]
    exact filter_cons_append (Leaf.scores t) Leaf.confidence l ls r.confidenceScores

end

end DocumentAi

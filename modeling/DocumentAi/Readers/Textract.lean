import DocumentAi.Dtos
import DocumentAi.Lib.Dict

/-!
# The readers of stored Textract and OCR-mapping outputs

| here | there |
| --- | --- |
| `ReaderResult.addStored` | one field of the readers' loop |
| `readTextractOutput`     | `read_textract_output` (`readers/textract.py:8-42`) |
| `readOcrMappingOutput`   | `read_ocr_mapping_output` (`readers/ocr_mapping.py:8-42`), the same text |

The JSON decoding is the constructor of the stored `Body`. A BDA result has no `fields`: the readers
find nothing in it.
-/

namespace DocumentAi

/-- A field's geometry with its type, when the field has one. -/
def StoredField.typedGeometry (data : StoredField) : Option (Geometry × Option String) :=
  data.geometry.map fun g => (g, some (data.fieldType.getD "string"))

def ReaderResult.addStored (includeGeometry : Bool) (acc : ReaderResult) (name : String)
    (data : StoredField) : ReaderResult :=
  let value := data.value.getD ""
  { acc with
    fieldConfidenceMapList := acc.fieldConfidenceMapList ++ [(name, data.confidence)]
    emptyFields := acc.emptyFields ++ if value = "" then [name] else []
    fieldValues := Dict.assign name (some value) acc.fieldValues
    fieldGeometry :=
      match data.typedGeometry with
      | some g => if includeGeometry then Dict.assign name g acc.fieldGeometry else acc.fieldGeometry
      | none   => acc.fieldGeometry }

def readStoredFields (includeGeometry : Bool) (fields : StoredFields) : ReaderResult :=
  fields.foldl (fun acc f => acc.addStored includeGeometry f.1 f.2) {}

def readTextractOutput (includeGeometry : Bool) : Body → ReaderResult
  | .extractionOutput out => readStoredFields includeGeometry out.fields
  | _                     => {}

def readOcrMappingOutput (includeGeometry : Bool) : Body → ReaderResult
  | .extractionOutput out => readStoredFields includeGeometry out.fields
  | _                     => {}

/-! ## What the readers find in a dictionary -/

theorem assign_of_not_mem {α : Type} {d : List (String × α)} {k : String} {a : α}
    (h : k ∉ d.map Prod.fst) : Dict.assign k a d = d ++ [(k, a)] := Dict.update_of_not_mem h

/-- The names and geometries of the fields that have one. -/
def storedGeometry (fields : StoredFields) : List (String × Geometry × Option String) :=
  fields.filterMap fun f => f.2.typedGeometry.map fun g => (f.1, g)

theorem mem_names_of_storedGeometry {fields : StoredFields} {n : String}
    (h : n ∈ (storedGeometry fields).map Prod.fst) : n ∈ fields.map Prod.fst := by
  obtain ⟨e, he, rfl⟩ := List.mem_map.1 h
  obtain ⟨f, hf, hg⟩ := List.mem_filterMap.1 he
  obtain ⟨g, _, rfl⟩ := Option.map_eq_some_iff.1 hg
  exact List.mem_map_of_mem hf

/-- What a reader makes of fields that have names of their own. -/
def storedResult (includeGeometry : Bool) (fields : StoredFields) : ReaderResult :=
  { fieldConfidenceMapList := fields.map fun f => (f.1, f.2.confidence)
    emptyFields := (fields.filter fun f => f.2.value.getD "" = "").map Prod.fst
    fieldValues := fields.map fun f => (f.1, some (f.2.value.getD ""))
    fieldGeometry := if includeGeometry then storedGeometry fields else [] }

theorem addStored_storedResult (includeGeometry : Bool) {fields : StoredFields}
    {f : String × StoredField} (hnew : f.1 ∉ fields.map Prod.fst) :
    (storedResult includeGeometry fields).addStored includeGeometry f.1 f.2 =
      storedResult includeGeometry (fields ++ [f]) := by
  have hvalues : f.1 ∉ (storedResult includeGeometry fields).fieldValues.map Prod.fst := by
    rw [storedResult, List.map_map]
    exact hnew
  have hempty : (if f.2.value.getD "" = "" then [f.1] else []) =
      ([f].filter fun f => f.2.value.getD "" = "").map Prod.fst := by
    by_cases h : f.2.value.getD "" = ""
    · simp [h]
    · simp [h]
  have hgeometry : storedGeometry (fields ++ [f]) =
      match f.2.typedGeometry with
      | some g => Dict.assign f.1 g (storedGeometry fields)
      | none   => storedGeometry fields := by
    rw [storedGeometry, List.filterMap_append]
    cases hg : f.2.typedGeometry with
    | none => simp [hg, storedGeometry]
    | some g =>
      dsimp only
      rw [assign_of_not_mem fun h => hnew (mem_names_of_storedGeometry h)]
      simp [hg, storedGeometry]
  rw [ReaderResult.addStored, assign_of_not_mem hvalues, hempty]
  simp only [storedResult, hgeometry, List.map_append, List.filter_append, List.map_singleton]
  cases f.2.typedGeometry <;> cases includeGeometry <;> rfl

/-- **A reader finds each field once**, in the order in which they are stored. -/
theorem readStoredFields_eq (includeGeometry : Bool) {fields : StoredFields}
    (h : (fields.map Prod.fst).Nodup) :
    readStoredFields includeGeometry fields = storedResult includeGeometry fields := by
  unfold readStoredFields
  induction fields using List.reverseRecOn with
  | nil => cases includeGeometry <;> rfl
  | append_singleton fields f ih =>
    rw [List.map_append, List.nodup_append] at h
    obtain ⟨hfields, _, hnew⟩ := h
    have hnot : f.1 ∉ fields.map Prod.fst := fun hm => hnew _ hm _ (List.mem_singleton_self _) rfl
    rw [List.foldl_append, ih hfields]
    exact addStored_storedResult includeGeometry hnot

end DocumentAi

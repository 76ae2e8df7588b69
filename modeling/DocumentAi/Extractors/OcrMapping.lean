import Mathlib.Algebra.Order.Ring.Unbundled.Rat
import Mathlib.Algebra.Ring.Rat
import DocumentAi.Utils.Numbers
import DocumentAi.Utils.Textract

/-!
# OCR mapping: fields out of the model's answer and the OCR blocks

| here | there |
| --- | --- |
| `computeConfidence`   | `compute_confidence` (`extractors/ocr_mapping.py:35-91`) |
| `ocrBlocksToText`, `layoutOcrBlocksToText` | `extractors/ocr_mapping.py:94-126` |
| `citationBboxFromWords` | `_citation_bbox_from_words` (`extractors/ocr_mapping.py:129-172`) |
| `modelFields`, `fieldNameMap` | `build_blueprint_model` (`utils/llm_blueprint_models.py:38-84`) |
| `normalizeValue`, `OcrExtraction.addField`, `extractOcrFields` | the field loop of `_extract` (`extractors/ocr_mapping.py:245-303`) |
-/

namespace DocumentAi

/-! ## Text -/

/-- A text that is there and not empty. -/
def Block.lineText (b : Block) : Option String := if b.isLine then truthy b.text else none

def ocrBlocksToText (blocks : List Block) : String :=
  String.intercalate "\n" (blocks.filterMap Block.lineText)

/-- Of two blocks with one id the last counts. -/
def blockById (blocks : List Block) (id : String) : Option Block :=
  blocks.reverse.find? fun b => truthy b.id == some id

/-- `BlockType` starts with `LAYOUT_`. -/
def Block.isLayout (b : Block) : Bool := "LAYOUT_".toList.isPrefixOf b.blockType.toList

def layoutOcrBlocksToText (blocks : List Block) : String :=
  let layoutBlocks := blocks.filter Block.isLayout
  if layoutBlocks = [] then ocrBlocksToText blocks
  else String.intercalate "\n" (layoutBlocks.flatMap fun layout =>
    (layout.relationships.filter fun rel => rel.type == "CHILD").flatMap fun rel =>
      rel.ids.filterMap fun id => (blockById blocks id).bind Block.lineText)

/-- `text.lower().split()`, as a set. -/
def tokenSet (libs : Libraries) (text : String) : List (List Char) :=
  (Chars.words (libs.lower text).toList).dedup

/-! ## Confidence -/

/-- The line with the largest part of the citation's tokens, and of these the first. -/
def bestLine (libs : Libraries) (citationTokens : List (List Char)) (blocks : List Block) :
    Rat × Option Block :=
  blocks.foldl (fun best b =>
    match b.lineText with
    | none      => best
    | some text =>
      let matched := citationTokens.filter (tokenSet libs text).contains
      let ratio : Rat := matched.length / citationTokens.length
      if best.1 < ratio then (ratio, some b) else best) (0, none)

/-- The centre of `w` is in `line`. -/
def Sides.holds (line w : Sides) : Bool :=
  let cx := w.left + w.width / 2
  let cy := w.top + w.height / 2
  decide (line.left ≤ cx ∧ cx ≤ line.left + line.width ∧ line.top ≤ cy ∧ cy ≤ line.top + line.height)

/-- The words whose centre is in the line, with their boxes. -/
def wordsIn (line : Sides) (blocks : List Block) : List (Block × Sides) :=
  (blocks.filter Block.isWord).filterMap fun w =>
    (w.geometry.boundingBox.filter line.holds).map fun box => (w, box)

def computeConfidence (libs : Libraries) (citation : Option String) (blocks : List Block) :
    Rat × Option Block :=
  match citation with
  | none   => (0, none)
  | some c =>
    if Chars.trim c.toList = [] then (0, none)
    else
      let (ratio, line) := bestLine libs (tokenSet libs c) blocks
      match line with
      | none   => (0, none)
      | some b =>
        if ratio < 3 / 5 then (0, some b)
        else
          match b.geometry.boundingBox with
          | none     => (roundTo 2 ratio, some b)
          | some box =>
            let confidences := (wordsIn box blocks).map fun w => w.1.confidence.getD 0
            if confidences = [] then (roundTo 2 ratio, some b)
            else (roundTo 4 (confidences.sum / confidences.length / 100), some b)

/-! ## Geometry -/

def unionBox (box : Sides) (boxes : List Sides) : Sides :=
  let left := boxes.foldl (fun m b => min m b.left) box.left
  let top := boxes.foldl (fun m b => min m b.top) box.top
  let right := boxes.foldl (fun m b => max m (b.left + b.width)) (box.left + box.width)
  let bottom := boxes.foldl (fun m b => max m (b.top + b.height)) (box.top + box.height)
  { left, top, width := right - left, height := bottom - top }

/-- `text.lower().strip(".,;:")`. -/
def bareToken (libs : Libraries) (text : String) : List Char :=
  Chars.trimBy ['.', ',', ';', ':'].contains (libs.lower text).toList

/-- The boxes of the line's words that the citation has, else the line's. -/
def citationBboxFromWords (libs : Libraries) (citation : String) (line : Sides)
    (blocks : List Block) : Sides :=
  if citation = "" then line
  else
    let matched := (wordsIn line blocks).filter fun w =>
      (tokenSet libs citation).contains (bareToken libs (w.1.text.getD ""))
    match matched.map (·.2) with
    | []           => line
    | box :: boxes => unionBox box boxes

/-! ## Fields -/

/-- `name.replace(".", "_")`. -/
def underscored (name : String) : String :=
  String.ofList (name.toList.map fun c => if c = '.' then '_' else c)

/-- The attribute names of the response model, in order. -/
def modelFields (schema : DocumentSchema) : List String :=
  (schema.fields.foldl (fun d f => Dict.assign (underscored f.name) () d) []).map Prod.fst

def fieldNameMap (schema : DocumentSchema) : List (String × String) :=
  schema.fields.foldl (fun d f => Dict.assign (underscored f.name) f.name d) []

/-- Of two fields with one name the type of the last counts. -/
def fieldTypeMap (schema : DocumentSchema) : List (String × String) :=
  schema.fields.foldl (fun d f => Dict.assign f.name f.type d) []

/-- `_STRIP_TRAILING_UNIT_FIELDS`. -/
def stripTrailingUnitFields : List String :=
  ["MeterRead.Current value", "MeterRead.Previous value", "MeterRead.Delta or Metered value"]

/-- A list of amounts, each cleaned on its own. -/
def normalizeNumber (libs : Libraries) (fieldName value : String) : String :=
  let items := Chars.splitPair ',' ' ' value.toList
  let clean := if stripTrailingUnitFields.contains fieldName then cleanNumber libs.isDecimal
    else stripCurrency
  String.intercalate ", " (items.map fun item => String.ofList (clean item))

def normalizeBoolean (libs : Libraries) (value : String) : String :=
  if ["true", "yes", "1"].contains (libs.lower value) then "True" else "False"

def normalizeValue (libs : Libraries) (fieldName fieldType value : String) : String :=
  if value = "" then value
  else if fieldType = "number" then normalizeNumber libs fieldName value
  else if fieldType = "boolean" then normalizeBoolean libs value
  else value

def fieldGeometry (libs : Libraries) (citation : Option String) (line : Option Block)
    (blocks : List Block) : Option Geometry :=
  (line.bind fun b => b.geometry.boundingBox).map fun box =>
    [buildGeometryEntry (citationBboxFromWords libs (citation.getD "") box blocks)]

/-- What the field loop has put together. -/
structure OcrExtraction where
  fieldConfidenceScores : FieldConfidences := []
  fieldEmptyList        : List String := []
  fieldsOutput          : StoredFields := []

def OcrExtraction.addField (libs : Libraries) (blocks : List Block) (acc : OcrExtraction)
    (fieldName fieldType : String) (extracted : ExtractedField) : OcrExtraction :=
  let value := normalizeValue libs fieldName fieldType (extracted.value.getD "")
  let (conf, line) := computeConfidence libs extracted.textCitation blocks
  { fieldConfidenceScores := acc.fieldConfidenceScores ++ [(fieldName, conf)]
    fieldEmptyList := acc.fieldEmptyList ++ if value = "" then [fieldName] else []
    fieldsOutput := Dict.assign fieldName
      { value := some value
        confidence := conf
        textCitation := some extracted.textCitation
        fieldType := some fieldType
        geometry := fieldGeometry libs extracted.textCitation line blocks } acc.fieldsOutput }

/-- The name of the field that an attribute of the model stands for. -/
def fieldNameOf (schema : DocumentSchema) (attr : String) : String :=
  ((fieldNameMap schema).lookup attr).getD attr

def extractOcrFields (libs : Libraries) (schema : DocumentSchema)
    (response : List (String × ExtractedField)) (blocks : List Block) : OcrExtraction :=
  (modelFields schema).foldl (fun acc attr =>
    match response.lookup attr with
    | none           => acc
    | some extracted =>
      let fieldName := fieldNameOf schema attr
      let fieldType := ((fieldTypeMap schema).lookup fieldName).getD "string"
      acc.addField libs blocks fieldName fieldType extracted) {}

/-! ## The lists go with the fields -/

theorem nodup_modelFields (schema : DocumentSchema) : (modelFields schema).Nodup :=
  Dict.nodup_keys_assignAll _

/-- A field's name with its dots replaced is the attribute, so two attributes have two names. -/
theorem underscored_fieldNameOf {schema : DocumentSchema} {attr : String}
    (h : attr ∈ modelFields schema) : underscored (fieldNameOf schema attr) = attr := by
  obtain ⟨f, hf, hattr⟩ := Dict.mem_keys_assignAll.1 h
  rw [fieldNameOf, fieldNameMap, Dict.lookup_assignAll]
  cases hfind : schema.fields.reverse.find? fun f => underscored f.name = attr with
  | none =>
    have hnone := List.find?_eq_none.1 hfind f (List.mem_reverse.2 hf)
    simp [hattr] at hnone
  | some g => simpa using List.find?_some hfind

/-- The lists say of each field what its entry says. -/
structure OcrExtraction.Consistent (x : OcrExtraction) : Prop where
  fields : WellFormed x.fieldsOutput
  scores : x.fieldConfidenceScores = x.fieldsOutput.map fun f => (f.1, f.2.confidence)
  empty  : x.fieldEmptyList =
    (x.fieldsOutput.filter fun f => f.2.value.getD "" = "").map Prod.fst

theorem OcrExtraction.Consistent.addField {x : OcrExtraction} (h : x.Consistent) (libs : Libraries)
    (blocks : List Block) {name : String} (fieldType : String) (extracted : ExtractedField)
    (hnew : name ∉ x.fieldsOutput.map Prod.fst) :
    (x.addField libs blocks name fieldType extracted).Consistent := by
  have hadd : (x.addField libs blocks name fieldType extracted).fieldsOutput =
      x.fieldsOutput ++ [(name, _)] := Dict.update_of_not_mem hnew
  constructor
  · exact h.fields.assign _ rfl rfl
  · rw [hadd, List.map_append, ← h.scores]
    rfl
  · rw [hadd, List.filter_append, List.map_append, ← h.empty]
    refine congrArg (x.fieldEmptyList ++ ·) ?_
    by_cases hv : normalizeValue libs name fieldType (extracted.value.getD "") = ""
    · simp [hv]
    · simp [hv]

theorem mem_names_addField {x : OcrExtraction} {libs : Libraries} {blocks : List Block}
    {name fieldType n : String} {extracted : ExtractedField} :
    n ∈ (x.addField libs blocks name fieldType extracted).fieldsOutput.map Prod.fst ↔
      n = name ∨ n ∈ x.fieldsOutput.map Prod.fst := Dict.mem_keys_update

/-- **The field loop keeps its lists together.** By induction on the attributes read so far: a name
that is there has its attribute among them. -/
theorem consistent_extractOcrFields (libs : Libraries) (schema : DocumentSchema)
    (response : List (String × ExtractedField)) (blocks : List Block) :
    (extractOcrFields libs schema response blocks).Consistent := by
  have hloop : ∀ attrs : List String, attrs.Nodup → (∀ a ∈ attrs, a ∈ modelFields schema) →
      let x := attrs.foldl (fun acc attr =>
        match response.lookup attr with
        | none           => acc
        | some extracted => acc.addField libs blocks (fieldNameOf schema attr)
            (((fieldTypeMap schema).lookup (fieldNameOf schema attr)).getD "string") extracted)
        ({} : OcrExtraction)
      x.Consistent ∧ ∀ n ∈ x.fieldsOutput.map Prod.fst, underscored n ∈ attrs := by
    intro attrs
    induction attrs using List.reverseRecOn with
    | nil => exact fun _ _ => ⟨⟨wellFormed_nil, rfl, rfl⟩, fun n hn => by cases hn⟩
    | append_singleton attrs a ih =>
      intro hnodup hmem
      obtain ⟨hattrs, _, hdisjoint⟩ := List.nodup_append.1 hnodup
      obtain ⟨hx, hnames⟩ := ih hattrs fun b hb => hmem b (List.mem_append_left _ hb)
      rw [List.foldl_append, List.foldl_cons, List.foldl_nil]
      cases response.lookup a with
      | none => exact ⟨hx, fun n hn => List.mem_append_left _ (hnames n hn)⟩
      | some extracted =>
        have ha := underscored_fieldNameOf (hmem a (by simp))
        refine ⟨hx.addField libs blocks _ extracted fun hn => ?_, fun n hn => ?_⟩
        · have hold := hnames _ hn
          rw [ha] at hold
          exact hdisjoint a hold a (List.mem_singleton_self a) rfl
        · rcases mem_names_addField.1 hn with rfl | hn
          · rw [ha]
            exact List.mem_append_right _ (List.mem_singleton_self a)
          · exact List.mem_append_left _ (hnames n hn)
  exact (hloop _ (nodup_modelFields schema) fun _ h => h).1

end DocumentAi

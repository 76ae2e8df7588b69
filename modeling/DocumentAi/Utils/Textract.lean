import Mathlib.Data.List.Infix
import DocumentAi.Lib.Chars
import DocumentAi.Lib.Dict
import DocumentAi.Utils.Ddb

/-!
# AnalyzeID answers: fields, their geometry, and the supplemental ones

| here | there |
| --- | --- |
| `buildGeometryEntry`, `buildBlockGeometryIndex`, `cleanText`, `findGeometryWithFallback` | `_build_geometry_entry` … `_find_geometry_with_fallback` (`utils/textract.py:80-178`) |
| `fieldData`, `extractFieldsFromAnalyzeId` | `extract_fields_from_analyze_id` (`utils/textract.py:16-77`) |
| `getIdType`          | `get_id_type` (`utils/textract.py:203-210`) |
| `WordBlock`, `getWordBlocks` | `_get_word_blocks` (`utils/textract.py:247-273`) |
| `blockTextMatches`, `findMatchingBlock`, `matchNovaResultsToBlocks` | `utils/textract.py:319-407` |
-/

namespace DocumentAi

/-- `round(x, digits)`. -/
def roundTo (digits : Nat) (x : Rat) : Rat :=
  roundHalfEven (x.num * 10 ^ digits) x.den / 10 ^ digits

/-- Percent as a fraction, with two digits. -/
def fraction (confidence : Rat) : Rat := roundTo 2 (confidence / 100)

def Block.isLine (b : Block) : Bool := b.blockType == "LINE"

def Block.isWord (b : Block) : Bool := b.blockType == "WORD"

/-! ## Geometry -/

def buildGeometryEntry (box : Sides) (polygon : List (Rat × Rat) := []) (page : Nat := 1) :
    GeometryEntry :=
  { boundingBox := box
    vertices := if polygon = [] then none else some polygon
    page }

/-- Text to geometry; of two blocks with one text the first counts. -/
def indexBlocks (index : List (String × Geometry)) (blocks : List Block) :
    List (String × Geometry) :=
  blocks.foldl (fun index b =>
    match truthy b.text, b.geometry.boundingBox with
    | some text, some box =>
      if (index.lookup text).isSome then index
      else index ++ [(text, [buildGeometryEntry box b.geometry.polygon (b.page.getD 0 + 1)])]
    | _, _ => index) index

/-- Lines before words: they cover values of several words. -/
def buildBlockGeometryIndex (blocks : List Block) : List (String × Geometry) :=
  indexBlocks (indexBlocks [] (blocks.filter Block.isLine)) (blocks.filter Block.isWord)

/-- A character of `string.punctuation`. -/
def isPunctuation (c : Char) : Bool :=
  decide (33 ≤ c.toNat ∧ c.toNat ≤ 47 ∨ 58 ≤ c.toNat ∧ c.toNat ≤ 64 ∨ 91 ≤ c.toNat ∧ c.toNat ≤ 96 ∨
    123 ≤ c.toNat ∧ c.toNat ≤ 126)

def cleanText (libs : Libraries) (text : String) : List Char :=
  (Chars.trim (libs.lower text).toList).filter fun c => !isPunctuation c

/-- The word block with the cleaned text, the shortest and of these the first. -/
def shortestMatch (libs : Libraries) (cleanedValue : List Char) (wordBlocks : List Block) :
    Option Block :=
  wordBlocks.foldl (fun best b =>
    if cleanText libs (b.text.getD "") = cleanedValue ∧
        best.all (fun m => decide ((b.text.getD "").length < (m.text.getD "").length)) then some b
    else best) none

def findGeometryWithFallback (libs : Libraries) (fieldValue : String)
    (blockIndex : List (String × Geometry)) (wordBlocks : List Block) : Option Geometry :=
  match blockIndex.lookup fieldValue with
  | some g => some g
  | none   =>
    if fieldValue = "" ∨ cleanText libs fieldValue = [] then none
    else
      (shortestMatch libs (cleanText libs fieldValue) wordBlocks).bind fun b =>
        b.geometry.boundingBox.map fun box => [buildGeometryEntry box b.geometry.polygon]

/-! ## Fields -/

/-- `strip_time` of a text. -/
def stripTimeText (value : String) : String :=
  String.ofList (value.toList.takeWhile (· ≠ 'T'))

def fieldData (libs : Libraries) (blockGeometry : List (String × Geometry))
    (wordBlocks : List Block) (v : ValueDetection) : StoredField :=
  let rawText := v.text.getD ""
  { confidence := fraction (v.confidence.getD 0)
    value := some (((truthy v.normalizedValue.value).map stripTimeText).getD rawText)
    fieldType := some (libs.lower (v.normalizedValue.valueType.getD "string"))
    geometry :=
      if rawText = "" then none
      else (findGeometryWithFallback libs rawText blockGeometry wordBlocks).filter (· ≠ []) }

/-- The fields of one identity document that the map knows. -/
def addIdentityFields (libs : Libraries) (fieldMap : List (String × String))
    (doc : IdentityDocument) (fields : StoredFields) : StoredFields :=
  let index := buildBlockGeometryIndex doc.blocks
  let wordBlocks := doc.blocks.filter Block.isWord
  doc.identityDocumentFields.foldl (fun fields f =>
    match truthy (fieldMap.lookup (f.type.getD "")) with
    | none         => fields
    | some bdaName => Dict.assign bdaName (fieldData libs index wordBlocks f.valueDetection) fields)
    fields

def dateValues (fields : StoredFields) : List String :=
  (fields.filter fun f => f.2.fieldType == some "date").filterMap fun f => truthy f.2.value

/-- AnalyzeID that gives one date to several fields has mixed them up: nothing is kept. -/
def extractFieldsFrom (libs : Libraries) (fieldMap : List (String × String)) :
    List IdentityDocument → StoredFields → StoredFields
  | [], fields          => fields
  | doc :: docs, fields =>
    let fields := addIdentityFields libs fieldMap doc fields
    if (dateValues fields).Nodup then extractFieldsFrom libs fieldMap docs fields else []

def extractFieldsFromAnalyzeId (libs : Libraries) (response : List IdentityDocument)
    (fieldMap : List (String × String)) : StoredFields :=
  extractFieldsFrom libs fieldMap response []

def getIdType (response : List IdentityDocument) : Option String :=
  ((response.flatMap (·.identityDocumentFields)).find? fun f => f.type == some "ID_TYPE").bind
    fun f => f.valueDetection.text

/-! ## Supplemental fields -/

structure WordBlock where
  text        : String
  boundingBox : Sides
  confidence  : Rat
  vertices    : Option (List (Rat × Rat)) := none

def getWordBlocks (blocks : List Block) : List WordBlock :=
  (blocks.filter Block.isWord).filterMap fun b =>
    match truthy b.text, b.geometry.boundingBox with
    | some text, some box => some
      { text, boundingBox := box
        confidence := b.confidence.getD 0
        vertices := if b.geometry.polygon = [] then none else some b.geometry.polygon }
    | _, _ => none

/-- Values of at most two characters must be the whole text. -/
def blockTextMatches (libs : Libraries) (blockText value : String) : Bool :=
  let bt := (libs.lower blockText).toList
  let v := (libs.lower value).toList
  if v.length ≤ 2 then decide (bt = v) else decide (bt = v ∨ bt <:+: v ∨ v <:+: bt)

/-- The rightmost block that matches. -/
def findMatchingBlock (libs : Libraries) (wordBlocks : List WordBlock) (value : String) :
    Option WordBlock :=
  (wordBlocks.foldl (fun (best : Option WordBlock × Rat) b =>
    if blockTextMatches libs b.text value ∧ best.2 < b.boundingBox.left then
      (some b, b.boundingBox.left)
    else best) (none, -1)).1

/-- The block that the index names, when there is one. -/
def indexedBlock (wordBlocks : List WordBlock) (blockIndex : Option Int) : Option WordBlock :=
  blockIndex.bind fun i => if i < 0 then none else wordBlocks[i.toNat]?

def supplementalField (libs : Libraries) (wordBlocks : List WordBlock) (value : String)
    (named : WordBlock) : StoredField :=
  let matched := if blockTextMatches libs named.text value then named
    else (findMatchingBlock libs wordBlocks value).getD named
  { confidence := fraction matched.confidence
    value := some value
    fieldType := some "string"
    geometry := some [{ boundingBox := matched.boundingBox, vertices := matched.vertices, page := 1 }] }

def matchNovaResultsToBlocks (libs : Libraries) (extractedFields : List SupplementalItem)
    (wordBlocks : List WordBlock) (supplementalFields : List String) : StoredFields :=
  extractedFields.foldl (fun fields item =>
    if !supplementalFields.contains item.fieldName || item.value = "" then fields
    else
      match indexedBlock wordBlocks item.blockIndex with
      | none       => fields
      | some named =>
        Dict.assign item.fieldName (supplementalField libs wordBlocks item.value named) fields) []

/-! ## What the dictionaries hold -/

/-- No name comes twice, and each field has a value and a type. -/
structure WellFormed (fields : StoredFields) : Prop where
  nodup : (fields.map Prod.fst).Nodup
  full  : ∀ f ∈ fields, f.2.value.isSome = true ∧ f.2.fieldType.isSome = true

theorem wellFormed_nil : WellFormed [] := ⟨List.nodup_nil, fun _ h => by cases h⟩

theorem WellFormed.assign {fields : StoredFields} (h : WellFormed fields) (name : String)
    {data : StoredField} (hv : data.value.isSome = true) (ht : data.fieldType.isSome = true) :
    WellFormed (Dict.assign name data fields) :=
  ⟨Dict.nodup_keys_update h.nodup, Dict.forall_assign
    (P := fun d : StoredField => d.value.isSome = true ∧ d.fieldType.isSome = true) h.full ⟨hv, ht⟩⟩

theorem wellFormed_addIdentityFields {libs : Libraries} {fieldMap : List (String × String)}
    {doc : IdentityDocument} {fields : StoredFields} (h : WellFormed fields) :
    WellFormed (addIdentityFields libs fieldMap doc fields) := by
  refine List.foldlRecOn (motive := WellFormed) _ _ h ?_
  intro d hd f _
  split
  · exact hd
  · exact hd.assign _ rfl rfl

theorem wellFormed_extractFieldsFrom {libs : Libraries} {fieldMap : List (String × String)} :
    ∀ (docs : List IdentityDocument) {fields : StoredFields}, WellFormed fields →
      WellFormed (extractFieldsFrom libs fieldMap docs fields)
  | [], _, h          => h
  | doc :: docs, _, h => by
    rw [extractFieldsFrom]
    split
    · exact wellFormed_extractFieldsFrom docs (wellFormed_addIdentityFields h)
    · exact wellFormed_nil

theorem wellFormed_matchNovaResultsToBlocks (libs : Libraries) (items : List SupplementalItem)
    (wordBlocks : List WordBlock) (names : List String) :
    WellFormed (matchNovaResultsToBlocks libs items wordBlocks names) := by
  refine List.foldlRecOn (motive := WellFormed) _ _ wellFormed_nil ?_
  intro d hd item _
  split
  · exact hd
  · split
    · exact hd
    · exact hd.assign _ rfl rfl

end DocumentAi

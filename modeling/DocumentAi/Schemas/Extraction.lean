import DocumentAi.Constants.Processing

/-!
# Textract answers and stored extraction fields

| here | there |
| --- | --- |
| `Block`, `IdentityDocument` | the members of Textract's answers that the extractors read; a bounding box has its four sides or is missing |
| `GeometryEntry`    | an entry of a field's `geometry`, in BDA's format (`utils/textract.py:80-95`) |
| `StoredField`      | one entry of the `fields` of a stored output, under the keys of its JSON object |
| `ExtractionOutput` | the JSON body of an output (`extractors/textract.py:108`, `extractors/ocr_mapping.py:306-313`) |
| `SchemaField`, `DocumentSchema` | `utils/schemas.py:20-32` |
| `ExtractedField`   | the inner model of a field (`utils/llm_blueprint_models.py:57-68`) |

`none` is a member that the JSON object does not have.
-/

namespace DocumentAi

structure Sides where
  left   : Rat
  top    : Rat
  width  : Rat
  height : Rat
deriving DecidableEq, Repr

structure BlockGeometry where
  boundingBox : Option Sides := none
  polygon     : List (Rat × Rat) := []
deriving DecidableEq

structure Relationship where
  type : String
  ids  : List String
deriving DecidableEq

structure Block where
  blockType     : String
  id            : Option String := none
  text          : Option String := none
  confidence    : Option Rat := none
  page          : Option Nat := none
  geometry      : BlockGeometry := {}
  relationships : List Relationship := []
deriving DecidableEq

structure NormalizedValue where
  value     : Option String := none
  valueType : Option String := none

structure ValueDetection where
  text            : Option String := none
  confidence      : Option Rat := none
  normalizedValue : NormalizedValue := {}

structure IdentityDocumentField where
  type           : Option String := none
  valueDetection : ValueDetection := {}

structure IdentityDocument where
  blocks                 : List Block := []
  identityDocumentFields : List IdentityDocumentField := []

structure GeometryEntry where
  boundingBox : Sides
  vertices    : Option (List (Rat × Rat)) := none
  page        : Nat := 1
deriving DecidableEq, Repr

abbrev Geometry : Type := List GeometryEntry

structure StoredField where
  confidence   : Rat
  value        : Option String
  textCitation : Option (Option String) := none
  fieldType    : Option String
  geometry     : Option Geometry := none
deriving DecidableEq, Repr

/-- A dictionary of fields. -/
abbrev StoredFields : Type := List (String × StoredField)

structure ExtractionOutput where
  source       : ExtractMethod
  documentType : Option String := none
  modelId      : Option String := none
  fields       : StoredFields

structure SchemaField where
  name        : String
  type        : String := "string"
  description : String := ""

structure DocumentSchema where
  documentType : String
  description  : String := ""
  fields       : List SchemaField := []
  category     : String := ""

/-- What the model finds for a field: its value and the text that supports it. -/
structure ExtractedField where
  value        : Option String := none
  textCitation : Option String := none

end DocumentAi

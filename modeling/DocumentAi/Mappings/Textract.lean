/-!
# Textract AnalyzeID field and document class mappings

| here | there |
| --- | --- |
| `textractIdTypeToDocumentClass` | `mappings/textract/document_classes.py` |
| `usDlFieldMap`, `usDlSupplementalFields` | `mappings/textract/us_drivers_licenses.py` |
| `usPassportFieldMap`, `usPassportSupplementalFields` | `mappings/textract/us_passports.py` |
| `getDocumentClass`, `getBdaFieldMap`, `getSupplementalConfig` | `mappings/textract/__init__.py:30-45` |

Of the supplemental configuration the names of the fields are kept; descriptions and prompts only go
to the model.
-/

namespace DocumentAi

def textractIdTypeToDocumentClass : List (String × String) :=
  [("DRIVER LICENSE FRONT", "US-drivers-licenses"),
   ("PASSPORT", "US-passports")]

def usDlFieldMap : List (String × String) :=
  [("FIRST_NAME", "NAME_DETAILS.FIRST_NAME"),
   ("MIDDLE_NAME", "NAME_DETAILS.MIDDLE_NAME"),
   ("LAST_NAME", "NAME_DETAILS.LAST_NAME"),
   ("SUFFIX", "NAME_DETAILS.SUFFIX"),
   ("ADDRESS", "ADDRESS_DETAILS.STREET_ADDRESS"),
   ("CITY_IN_ADDRESS", "ADDRESS_DETAILS.CITY"),
   ("ZIP_CODE_IN_ADDRESS", "ADDRESS_DETAILS.ZIP_CODE"),
   ("STATE_IN_ADDRESS", "ADDRESS_DETAILS.STATE"),
   ("COUNTY", "COUNTY"),
   ("DOCUMENT_NUMBER", "ID_NUMBER"),
   ("EXPIRATION_DATE", "EXPIRATION_DATE"),
   ("DATE_OF_BIRTH", "DATE_OF_BIRTH"),
   ("STATE_NAME", "STATE_NAME"),
   ("DATE_OF_ISSUE", "DATE_OF_ISSUE"),
   ("CLASS", "CLASS"),
   ("RESTRICTIONS", "RESTRICTIONS"),
   ("ENDORSEMENTS", "ENDORSEMENTS")]

def usDlSupplementalFields : List String :=
  ["PERSONAL_DETAILS.SEX", "PERSONAL_DETAILS.HEIGHT", "PERSONAL_DETAILS.EYE_COLOR",
   "PERSONAL_DETAILS.HAIR_COLOR", "PERSONAL_DETAILS.WEIGHT"]

def usPassportFieldMap : List (String × String) :=
  [("FIRST_NAME", "name.given_name"),
   ("LAST_NAME", "name.last_name"),
   ("DOCUMENT_NUMBER", "document_number"),
   ("EXPIRATION_DATE", "expiration_date"),
   ("DATE_OF_BIRTH", "date_of_birth"),
   ("DATE_OF_ISSUE", "date_of_issue"),
   ("PLACE_OF_BIRTH", "place_of_birth"),
   ("MRZ_CODE", "mrz_code")]

def usPassportSupplementalFields : List String := ["sex", "passport_type", "authority"]

def getDocumentClass (textractIdType : Option String) : Option String :=
  textractIdType.bind fun t => textractIdTypeToDocumentClass.lookup t

def getBdaFieldMap (documentClass : String) : List (String × String) :=
  (List.lookup documentClass
    [("US-passports", usPassportFieldMap), ("US-drivers-licenses", usDlFieldMap)]).getD []

def getSupplementalConfig (documentClass : String) : Option (List String) :=
  List.lookup documentClass
    [("US-drivers-licenses", usDlSupplementalFields),
     ("US-passports", usPassportSupplementalFields)]

end DocumentAi

import DocumentAi.Lib.Base64
import DocumentAi.Lib.Json
import DocumentAi.Services

/-!
# Cursors (`utils/pagination.py`)

| here | there |
| --- | --- |
| `encodeCursor` | `encode_cursor` (`:10-11`) |
| `decodeCursor` | `decode_cursor` (`:14-21`); the bytes are read as UTF-8 |
| `ResumeKey`    | a `LastEvaluatedKey` of the listed tables and indexes, whose key attributes are of type `S`; the document-builds table, with the number `pageNumber`, is not listed |
-/

namespace DocumentAi

/-- The key attributes of an item with their values. -/
structure ResumeKey where
  attributes : List (List Char × List Char)
  nodup      : (attributes.map Prod.fst).Nodup
  nonempty   : attributes ≠ []

def ResumeKey.toJson (k : ResumeKey) : Json :=
  .obj (k.attributes.map fun a => (a.1, .str a.2))

def encodeCursor (lastKey : Json) : List Char := Base64.encode (Base64.utf8 lastKey.dump)

def decodeCursor (cursor : List Char) : Except Exc Json :=
  match ((Base64.decode cursor).bind Base64.ofUtf8).bind Json.loads with
  | some result => .ok result
  | none        => .error (.httpException 400 "Invalid cursor")

/-! ## Decoding a cursor -/

theorem decodeCursor_encodeCursor {j : Json} (h : j.Valid) :
    decodeCursor (encodeCursor j) = .ok j := by
  have hbytes : Base64.decode (encodeCursor j) = some (Base64.utf8 j.dump) :=
    Base64.decode_encode (Base64.utf8_lt _)
  rw [decodeCursor, hbytes, Option.bind_some, Base64.ofUtf8_utf8, Option.bind_some,
    Json.loads_dump h]

theorem validFields_strings (attributes : List (List Char × List Char)) :
    Json.ValidFields (attributes.map fun a => (a.1, Json.str a.2)) := by
  induction attributes with
  | nil => trivial
  | cons a rest ih => exact ⟨trivial, ih⟩

theorem ResumeKey.valid (k : ResumeKey) : k.toJson.Valid := by
  refine ⟨?_, validFields_strings k.attributes⟩
  rw [List.map_map]
  exact k.nodup

/-- **`decode_cursor` undoes `encode_cursor` on every resume key.** -/
theorem ResumeKey.decode_encode (k : ResumeKey) :
    decodeCursor (encodeCursor k.toJson) = .ok k.toJson :=
  decodeCursor_encodeCursor k.valid

theorem encodeCursor_ne_nil (k : ResumeKey) : encodeCursor k.toJson ≠ [] := by
  intro h
  have hdecode := k.decode_encode
  rw [h] at hdecode
  cases hdecode

end DocumentAi

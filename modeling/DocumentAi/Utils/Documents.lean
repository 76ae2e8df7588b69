import DocumentAi.Utils.S3

/-!
# Document bytes: type detection, password protection, page counts

| here | there |
| --- | --- |
| `FileValidation.…`     | the constants of `constants/file_validation.py` |
| `detectFileType`       | `detect_file_type` (`utils/documents.py:42-61`) |
| `isPasswordProtected`  | `is_password_protected` (`utils/documents.py:64-74`) |
| `getPageCount`         | `get_page_count` (`utils/documents.py:77-88`) |
| `truncateToPages`      | `truncate_to_pages` (`utils/documents.py:135-145`) |
| `detectMime`           | `_detect_mime` (`utils/uploads.py:62-84`) |
-/

namespace DocumentAi

def ascii (s : String) : Bytes := s.toList.map fun c => UInt8.ofNat c.toNat

/-- `sub in data` on bytes. -/
def Bytes.contains (data sub : Bytes) : Bool := data.tails.any fun t => sub.isPrefixOf t

namespace FileValidation

def pdfMime : String := "application/pdf"
def docMime : String := "application/msword"
def docxMime : String := "application/vnd.openxmlformats-officedocument.wordprocessingml.document"
def xlsxMime : String := "application/vnd.openxmlformats-officedocument.spreadsheetml.sheet"
def pptxMime : String := "application/vnd.openxmlformats-officedocument.presentationml.presentation"

def zipMagic : Bytes := [0x50, 0x4b, 0x03, 0x04]
def ole2Magic : Bytes := [0xd0, 0xcf, 0x11, 0xe0, 0xa1, 0xb1, 0x1a, 0xe1]

def utf16le (s : String) : Bytes := (ascii s).flatMap fun b => [b, 0]

def hasOoxmlEncryptionMarkers (data : Bytes) : Bool :=
  Bytes.contains data (utf16le "EncryptionInfo") && Bytes.contains data (utf16le "EncryptedPackage")

def isOfficeContainerMagic (data : Bytes) : Bool :=
  zipMagic.isPrefixOf data || ole2Magic.isPrefixOf data

def detectOoxmlMime (names : List String) : Option String :=
  let has (pre : String) := names.any fun n => pre.toList.isPrefixOf n.toList
  if has "word/" then some docxMime
  else if has "xl/" then some xlsxMime
  else if has "ppt/" then some pptxMime
  else none

def noConversionNeeded : List String := [pdfMime, docMime, docxMime, "image/jpeg", "image/png"]

def requiresConversion : List String :=
  ["image/bmp", "image/heic", "image/heif", "image/webp", "image/gif", "image/tiff"]

def supportedContentTypes : List String := noConversionNeeded ++ requiresConversion

def grayscaleConvertible : List String := ["image/jpeg", "image/png"]

def needsConversion (contentType : String) : Bool := requiresConversion.contains contentType

def isOdt (contentType : String) : Bool :=
  contentType == "application/vnd.oasis.opendocument.text"

end FileValidation

/-- `content_type.startswith("image/")`. -/
def isImageType (contentType : String) : Bool := "image/".toList.isPrefixOf contentType.toList

inductive FileType where
  | jpeg | png | gif | pdf | tiff | bmp | unknown
deriving DecidableEq, Repr

def detectFileType (b : Bytes) : FileType :=
  if [0xff, 0xd8].isPrefixOf b then .jpeg
  else if [0x89, 0x50, 0x4e, 0x47, 0x0d, 0x0a, 0x1a, 0x0a].isPrefixOf b then .png
  else if (ascii "GIF87a").isPrefixOf b || (ascii "GIF89a").isPrefixOf b then .gif
  else if (ascii "%PDF").isPrefixOf b then .pdf
  else if [0x49, 0x49, 0x2a, 0x00].isPrefixOf b || [0x4d, 0x4d, 0x00, 0x2a].isPrefixOf b then .tiff
  else if (ascii "BM").isPrefixOf b then .bmp
  else .unknown

def isPasswordProtected (b : Bytes) : Bool :=
  if detectFileType b = .pdf then Bytes.contains (b.take 4096) (ascii "/Encrypt")
  else if FileValidation.ole2Magic.isPrefixOf b then FileValidation.hasOoxmlEncryptionMarkers b
  else false

def getPageCount (env : EnvConfig) (b : Bytes) : Option Nat :=
  if b = [] then none
  else match detectFileType b with
    | .pdf  => some ((env.libs.pdfPageCount b).getD 1)
    | .tiff => some ((env.libs.tiffPageCount b).getD 1)
    | _     => some 1

def truncateToPages (env : EnvConfig) (b : Bytes) (maxPages : Nat) : Except Exc Bytes :=
  match detectFileType b with
  | .pdf  => ((env.libs.truncatePdf b maxPages).map .ok).getD (.error (.exception "PdfReadError"))
  | .tiff => ((env.libs.truncateTiff b maxPages).map .ok).getD (.error (.exception "TIFF error"))
  | _     => .ok b

def detectMime (env : EnvConfig) (data : Bytes) : String :=
  let guess := (env.libs.guessMime data).getD "application/octet-stream"
  if FileValidation.zipMagic.isPrefixOf data then
    (((env.libs.zipNames data).bind FileValidation.detectOoxmlMime)).getD guess
  else if FileValidation.ole2Magic.isPrefixOf data
      && FileValidation.hasOoxmlEncryptionMarkers data then FileValidation.docxMime
  else guess

end DocumentAi

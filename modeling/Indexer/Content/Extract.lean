import Indexer.Content.Keywords
import Indexer.Content.Reader
import Indexer.MediaType
import Indexer.Text.Lower

/-!
Extracting the content of a file. The first bytes or else the name decide who reads it. What is
neither a PDF file nor a Word document is taken as UTF-8 text; other bytes are taken as 8-bit text
only where the name promises a text, and otherwise count as having no text at all.
-/
namespace Indexer.Content

/-- The bytes a PDF file starts with. -/
def pdfMark : List UInt8 := "%PDF-".toUTF8.toList

/-- The media type that the bytes or the name suggest. -/
def guess? (data : ByteArray) (name : Option String) : Option String :=
  if pdfMark.isPrefixOf (data.extract 0 pdfMark.length).toList then some MediaType.pdf
  else
    match name.filter (· ≠ "") with
    | none => none
    | some n =>
      match MediaType.ofName? n with
      | some t => some t
      | none =>
        if ".docx".toList.isSuffixOf (Text.lowerChars [] n.toList) then some MediaType.word
        else none

/-- Every byte as the character of its value. -/
def latin1 (data : ByteArray) : String :=
  String.ofList (data.toList.map fun b => Char.ofNat b.toNat)

/-- The content of bytes that should be a text of the given type. `hinted` tells that the type was
suggested and not assumed. -/
def ofText (data : ByteArray) (mediaType : String) (hinted : Bool) : Content :=
  match String.fromUTF8? data with
  | some text => ⟨text, mediaType, .none⟩
  | none =>
    if hinted && mediaType.startsWith "text/" && !data.toList.contains 0 then
      ⟨latin1 data, mediaType, .none⟩
    else
      ⟨"", if mediaType = MediaType.plainText then MediaType.octetStream else mediaType, .none⟩

/-- A text that is not empty. -/
def filled (s : Option String) : Option String := s.filter (· ≠ "")

/-- Reads a keyword list, if there is one. -/
def readKeywords (s : Option String) : Option (List (Option String)) :=
  (s.bind Keywords.ofText?).map (·.map some)

/-- Reads the entries of PDF metadata in their order. -/
def ofPdfInfo (info : PdfInfo) : Except Fault Metadata := do
  let author ← info.author
  let title ← info.title
  let date ← info.date
  let keywords ← info.keywords
  return ⟨author, title, date, readKeywords keywords⟩

/-- The content of a PDF file: the texts of its pages, a line break between them. -/
def ofPdf (doc : PdfDocument) : Except Fault Content := do
  let pages ← doc.pages.mapM id
  let metadata ← match doc.info with
    | some info => ofPdfInfo info
    | none => pure .none
  return ⟨"\n".intercalate (pages.filterMap filled), MediaType.pdf, metadata⟩

/-- The content of a Word document: its paragraphs, a line break between them. -/
def ofWord (doc : WordDocument) : Content :=
  ⟨"\n".intercalate (doc.paragraphs.filter (· ≠ "")), MediaType.word,
    ⟨filled doc.author, filled doc.title, doc.date, readKeywords doc.keywords⟩⟩

/-- A PDF file is to blame for the faults of its reader and for unusable values in it. -/
def blamesPdf : Fault → Bool
  | .pdf _ _ => true
  | f => f.isValue || f.isKey

/-- A Word document is to blame for a broken container and for unusable values in it. -/
def blamesWord : Fault → Bool
  | .package _ | .archive _ => true
  | f => f.isValue || f.isKey

/-- Turns the faults that the file is to blame for into a failed extraction. -/
def blame {α : Type} (isBlamed : Fault → Bool) (what : String) (r : Except Fault α) :
    Except Fault α :=
  r.mapError fun f => if isBlamed f then .extraction (what ++ ": " ++ f.message) else f

/-- Extracts the content of a file. The name is only a hint. -/
def extract (readers : Readers) (data : ByteArray) (name : Option String) :
    Except Fault Content :=
  let hint := guess? data name
  let mediaType := hint.getD MediaType.plainText
  if mediaType = MediaType.pdf then
    blame blamesPdf "Unreadable PDF" (readers.pdf data >>= ofPdf)
  else if mediaType = MediaType.word then
    (blame blamesWord "Unreadable Word document" (readers.word data)).map ofWord
  else .ok (ofText data mediaType hint.isSome)

end Indexer.Content

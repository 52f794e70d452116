import Indexer.Content.Basic
import Indexer.Fault.Basic

/-!
Readers of document formats. Taking PDF files and Word documents apart is left to readers from
outside; this is what they have to tell. Their texts are texts that have a UTF-8 form. One that has
none could not be put into a request, and the sender would give the run up over it.
-/
namespace Indexer

/-- What the metadata of a PDF file says. Each entry may fail on its own when it is looked at. -/
structure PdfInfo where
  author : Except Fault (Option String)
  title : Except Fault (Option String)
  date : Except Fault (Option DateTime)
  keywords : Except Fault (Option String)

/-- A PDF file that could be opened: the texts of its pages, and its metadata if it has any. -/
structure PdfDocument where
  pages : List (Except Fault (Option String))
  info : Option PdfInfo

/-- A Word document that could be opened. -/
structure WordDocument where
  paragraphs : List String
  author : Option String
  title : Option String
  date : Option DateTime
  keywords : Option String

/-- The readers in use. -/
structure Readers where
  pdf : ByteArray → Except Fault PdfDocument
  word : ByteArray → Except Fault WordDocument

end Indexer

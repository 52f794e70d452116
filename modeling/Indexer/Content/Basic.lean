import Indexer.Time.Iso

/-!
What is known about the content of a file: its text, its media type and what the document says about
itself.
-/
namespace Indexer

/-- What a document says about itself. -/
structure Metadata where
  author : Option String
  title : Option String
  date : Option DateTime
  /-- The keywords; one that is missing keeps its place. -/
  keywords : Option (List (Option String))
  deriving DecidableEq, Repr

/-- Nothing is said. -/
def Metadata.none : Metadata := ⟨Option.none, Option.none, Option.none, Option.none⟩

/-- The content of a file as far as it could be read. -/
structure Content where
  text : String
  mediaType : String
  metadata : Metadata
  deriving DecidableEq, Repr

end Indexer

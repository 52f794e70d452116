import Indexer.Document
import Indexer.Json.Printer

/-!
Bulk operations and the request body that carries them. A body is a text of lines: one action line
for each operation and, for an operation that indexes, the line of its document.
-/
namespace Indexer

/-- What becomes of the crawl state once the operation that carries this is acknowledged. -/
structure StateUpdate where
  root : String
  path : String
  checksum : Option String
  lastModified : Option DateTime
  /-- The entry is removed and not written. -/
  remove : Bool
  deriving DecidableEq, Repr

/-- The two kinds of bulk operations. -/
inductive OpKind where
  | index
  | delete
  deriving DecidableEq, Repr

def OpKind.name : OpKind → String
  | index => "index"
  | delete => "delete"

/-- What an operation does to the index. -/
inductive Action where
  | index (doc : Document)
  | delete
  deriving DecidableEq, Repr

/-- One operation on the index. -/
structure Operation where
  action : Action
  id : String
  update : Option StateUpdate
  /-- How often the operation was sent again. -/
  attempts : Int
  deriving DecidableEq, Repr

namespace Operation

def kind (op : Operation) : OpKind :=
  match op.action with
  | .index _ => .index
  | .delete => .delete

/-- Kind and id, as messages name an operation. -/
def label (op : Operation) : String := op.kind.name ++ "/" ++ op.id

/-- The operation for its next attempt. -/
def again (op : Operation) : Operation := { op with attempts := op.attempts + 1 }

/-- The line that says what to do. -/
def actionLine (index : String) (op : Operation) : String :=
  (Json.obj [(op.kind.name, .obj [("_index", .str index), ("_id", .str op.id)])]).render
    .compactAscii

/-- The lines of an operation. -/
def lines (index : String) (op : Operation) : List String :=
  match op.action with
  | .index doc => [op.actionLine index, doc.line]
  | .delete => [op.actionLine index]

end Operation

/-- Operations that are sent in one request. -/
abbrev Batch := List Operation

/-- The body of a bulk request. Every line ends with a line break. -/
def Batch.payload (index : String) (batch : Batch) : String :=
  "\n".intercalate (batch.flatMap (Operation.lines index)) ++ "\n"

end Indexer

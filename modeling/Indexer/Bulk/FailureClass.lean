import Indexer.Bulk.Response
import Indexer.Text.Lower

/-!
Classes of failures. The type of an error comes before its status, and what the error says in free
text does not count.
-/
namespace Indexer

/-- How a failed operation is met. -/
inductive FailureClass where
  /-- It may succeed when it is sent again. -/
  | transient
  /-- The same, and the destination is out of reach. -/
  | connectivity
  /-- It fails whenever it is sent. -/
  | permanent
  deriving DecidableEq, Repr

namespace FailureClass

def name : FailureClass → String
  | transient => "transient"
  | connectivity => "connectivity"
  | permanent => "permanent"

/-- The statuses of failures that pass. -/
def transientStatuses : List Int := [408, 429, 502, 503, 504]

/-- Parts of the types that tell of a lost connection. -/
def connectivityMarks : List String :=
  ["connect_transport", "node_disconnected", "node_not_connected", "no_shard_available",
    "unavailable_shards"]

/-- Parts of the types of failures that pass. -/
def transientMarks : List String :=
  ["timeout", "rejected_execution", "circuit_breaking", "too_many_requests"]

/-- A character before which a capital starts a new word. -/
def endsWord (c : Char) : Bool := ('a' ≤ c && c ≤ 'z') || ('0' ≤ c && c ≤ '9')

/-- Puts an underscore before each capital that starts a new word. -/
def splitWords : List Char → List Char
  | a :: b :: rest =>
    if endsWord a && ('A' ≤ b && b ≤ 'Z') then a :: '_' :: splitWords (b :: rest)
    else a :: splitWords (b :: rest)
  | cs => cs

/-- What stands after the last dot. -/
def lastComponent (cs : List Char) : List Char :=
  (cs.reverse.takeWhile (· ≠ '.')).reverse

/-- The type of an error in small letters with underscores, without the package. -/
def normalize : Option String → String
  | none => ""
  | some s => String.ofList (Text.lowerChars [] (splitWords (lastComponent s.toList)))

/-- The mark is part of the text. -/
def mentions (mark : List Char) : List Char → Bool
  | [] => mark.isEmpty
  | c :: rest => mark.isPrefixOf (c :: rest) || mentions mark rest

/-- One of the marks is part of the text. -/
def mentionsAny (marks : List String) (text : List Char) : Bool :=
  marks.any fun mark => mentions mark.toList text

/-- The class of a failure. -/
def of (status : Option Quantity) (errorType : Option String) : FailureClass :=
  let kind := (normalize errorType).toList
  if mentionsAny connectivityMarks kind then .connectivity
  else if status.any (·.isOneOf transientStatuses)
      || mentionsAny transientMarks kind then .transient
  else .permanent

end FailureClass
end Indexer

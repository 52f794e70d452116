import Indexer.Json.Display
import Indexer.Json.Printer
import Indexer.Text.Word

/-!
Errors of single items. Older destinations send a text that may start with the name of an exception;
newer ones send an object with a type and a reason. Either way an error comes to a reason and, where
it can be told, a type.
-/
namespace Indexer

namespace ErrorName

/-- A character that a name may start with. -/
def isStart (c : Char) : Bool := c.isAlpha || c = '_'

/-- A character that a name may go on with. -/
def isInner (c : Char) : Bool := Text.isWord c || c = '.'

/-- Both endings of names, read from the end. -/
def endings : List (List Char) := ["Exception".toList.reverse, "Error".toList.reverse]

/-- The characters, the latest first, end a name: an ending with something before it. -/
def isComplete (taken : List Char) : Bool :=
  endings.any fun e => e.isPrefixOf taken && e != taken

/-- Takes characters as long as they may belong to a name, and remembers the longest name that no
word character follows. -/
def scan (taken : List Char) (best : Option (List Char)) : List Char → Option (List Char)
  | [] => if isComplete taken then some taken else best
  | c :: rest =>
    let best := if isComplete taken && !Text.isWord c then some taken else best
    if isInner c then scan (c :: taken) best rest else best

/-- The name of an exception at the front of a text. -/
def ofText? (s : String) : Option String :=
  match s.toList with
  | [] => none
  | c :: rest =>
    if isStart c then (scan [c] none rest).map fun name => String.ofList name.reverse else none

end ErrorName

/-- The error of an item. -/
inductive ItemError where
  | plain (text : String)
  | structured (body : List (String × Json))

namespace ItemError

/-- Reads the error of an item. There is none where the value is `null`. -/
def ofJson? : Json → Option ItemError
  | .null => none
  | .obj body => some (.structured body)
  | v => some (.plain v.bare)

/-- The type of an error, as far as it is a text. -/
def type? : ItemError → Option String
  | plain text => ErrorName.ofText? text
  | structured body =>
    match Json.lookup body "type" with
    | some (.str s) => some s
    | _ => none

/-- What an error says about the error behind it. -/
def causeText (body : List (String × Json)) : String :=
  match Json.lookup body "caused_by" with
  | some (.obj cause) =>
    match Json.lookup cause "reason" with
    | some reason =>
      if reason.truthy then
        " (caused by " ++ ((Json.lookup cause "type").getD (.str "error")).bare ++ ": "
          ++ reason.bare ++ ")"
      else ""
    | none => ""
  | _ => ""

/-- Why the item failed: type and reason where there are both, the whole object otherwise. -/
def reason : ItemError → String
  | plain text => text
  | structured body =>
    let type := (Json.lookup body "type").getD .null
    let reason := (Json.lookup body "reason").getD .null
    if type.truthy && reason.truthy then
      type.bare ++ ": " ++ reason.bare ++ causeText body
    else (Json.obj body).sortKeys.render .spacedAscii

end ItemError
end Indexer

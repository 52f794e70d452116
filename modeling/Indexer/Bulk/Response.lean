import Indexer.Bulk.ItemError
import Indexer.Bulk.Operation

/-!
Bulk responses. A response lists the results of its items in the order of the request. Each result
is wrapped in the kind of its operation, and what it says is brought to one form here.
-/
namespace Indexer

/-- The status that a value gives: a whole number or a switch. Other values give none. -/
def Json.toStatus? : Json → Option Quantity
  | .number (.int n) => some (.whole n)
  | .bool b => some (.flag b)
  | _ => none

/-- The result of one item. -/
structure ItemResult where
  kind : OpKind
  /-- The id that came back; `null` if none did. -/
  id : Json
  failed : Bool
  /-- Why the item failed; `null` if it did not. -/
  reason : Json
  status : Option Quantity
  error : Option ItemError

namespace ItemResult

/-- The keys an item can be wrapped in. Creating and updating are ways of indexing. -/
def kindOfKey? (key : String) : Option OpKind :=
  if key = "index" ∨ key = "create" ∨ key = "update" then some .index
  else if key = "delete" then some .delete
  else none

/-- The reason of a failed item: that of its error, or else its failure message, or else its
status. -/
def reasonOf (content : List (String × Json)) (error : Option ItemError) : Json :=
  match error with
  | some e => .str e.reason
  | none =>
    let text := (Json.lookup content "failureMessage").getD .null
    if text.truthy then text
    else .str ("failed with status " ++ ((Json.lookup content "status").getD .null).bare)

/-- The result that an item of a known kind tells. -/
def ofContent (kind : OpKind) (content : List (String × Json)) : ItemResult :=
  let error := (Json.lookup content "error").bind ItemError.ofJson?
  let failed := ((Json.lookup content "failed").getD .null).truthy || error.isSome
  { kind
    id := (Json.lookup content "_id").getD .null
    failed
    reason := if failed then reasonOf content error else .null
    status := (Json.lookup content "status").bind Json.toStatus?
    error }

/-- Reads an item. -/
def ofJson (item : Json) : Except Fault ItemResult :=
  match item with
  | .obj [(key, content)] =>
    match kindOfKey? key, content with
    | some kind, .obj fields => .ok (ofContent kind fields)
    | _, _ => .error (.protocol ("Unknown bulk item type: " ++ Text.quoted key) item)
  | _ => .error (.protocol ("Malformed bulk item: " ++ item.display) item)

end ItemResult

/-- A bulk response: what it says about errors as a whole, and its items. -/
structure BulkResponse where
  errors : Option Bool
  items : List ItemResult

/-- The truth value that a value is. -/
def Json.asBool? : Json → Option Bool
  | .bool b => some b
  | _ => none

/-- Reads a response. -/
def BulkResponse.ofJson (raw : Json) : Except Fault BulkResponse :=
  match raw with
  | .obj fields =>
    match Json.lookup fields "items" with
    | some (.arr (item :: rest)) =>
      ((item :: rest).mapM ItemResult.ofJson).map fun items =>
        ⟨(Json.lookup fields "errors").bind Json.asBool?, items⟩
    | _ => .error (.protocol "Bulk response carries no items" raw)
  | _ => .error (.protocol "Bulk response is not an object" raw)

end Indexer

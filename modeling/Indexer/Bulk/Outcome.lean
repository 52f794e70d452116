import Indexer.Bulk.Response
import Indexer.Log

/-!
Outcomes of bulk requests. Operations and items are paired by position, and the items alone decide
what failed: what the response says about errors as a whole is only compared with them.
-/
namespace Indexer

/-- An operation that failed. -/
structure ItemFailure where
  op : Operation
  /-- Why; a text, unless the destination sent something else. -/
  reason : Json
  status : Option Quantity
  errorType : Option String

/-- What became of the operations of one request. -/
structure Outcome where
  succeeded : List Operation
  failed : List ItemFailure

namespace Outcome

/-- The line about a failure. -/
def failureLine (f : ItemFailure) : String := f.op.label ++ ": " ++ f.reason.bare

/-- A report with a line for each failure. -/
def summary (o : Outcome) : String :=
  "\n".intercalate
    (o.failed.map failureLine ++ [Text.decimal o.failed.length ++ " failures"])

/-- Adds the result of an operation in front. -/
def cons (op : Operation) (item : ItemResult) (o : Outcome) : Outcome :=
  if item.failed then
    { o with failed := ⟨op, item.reason, item.status, item.error.bind ItemError.type?⟩ :: o.failed }
  else { o with succeeded := op :: o.succeeded }

/-- A remark on an item that came back under another id. -/
def idRemark (op : Operation) (item : ItemResult) : List LogRecord :=
  match item.id with
  | .null => []
  | .str id =>
    if id = op.id then []
    else [⟨.warning, "Bulk item id " ++ id ++ " does not match sent id " ++ op.id⟩]
  | id => [⟨.warning, "Bulk item id " ++ id.bare ++ " does not match sent id " ++ op.id⟩]

/-- Pairs operations with results. The kinds have to agree. -/
def pair (raw : Json) : List Operation → List ItemResult → List LogRecord × Except Fault Outcome
  | op :: ops, item :: items =>
    if item.kind = op.kind then
      let (log, rest) := pair raw ops items
      (idRemark op item ++ log, rest.map (cons op item))
    else
      ([], .error (.protocol ("Item for " ++ op.id ++ " is " ++ item.kind.name ++ ", sent "
        ++ op.kind.name) raw))
  | _, _ => ([], .ok ⟨[], []⟩)

/-- A remark where the response is wrong about having errors. -/
def flagRemark (errors : Option Bool) (o : Outcome) : List LogRecord :=
  match errors with
  | none => []
  | some flag =>
    if flag = !o.failed.isEmpty then []
    else
      [⟨.warning, "Bulk errors flag is " ++ (Json.bool flag).display ++ " but item scan found "
        ++ Text.decimal o.failed.length ++ " failures; trusting the items"⟩]

/-- A remark where items failed. -/
def failureRemark (sent : Nat) (o : Outcome) : List LogRecord :=
  if o.failed.isEmpty then []
  else
    [⟨.warning, Text.decimal o.failed.length ++ " of " ++ Text.decimal sent
      ++ " bulk items failed"⟩]

/-- The outcome of a request, with the remarks on the way to it. -/
def ofResponse (sent : List Operation) (raw : Json) : List LogRecord × Except Fault Outcome :=
  match BulkResponse.ofJson raw with
  | .error f => ([], .error f)
  | .ok response =>
    if response.items.length ≠ sent.length then
      ([], .error (.protocol ("Bulk response has " ++ Text.decimal response.items.length
        ++ " items for " ++ Text.decimal sent.length ++ " operations") raw))
    else
      match pair raw sent response.items with
      | (log, .error f) => (log, .error f)
      | (log, .ok o) =>
        (log ++ flagRemark response.errors o ++ failureRemark sent.length o, .ok o)

end Outcome
end Indexer

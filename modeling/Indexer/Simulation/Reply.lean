import Indexer.Bulk.Http
import Indexer.Bulk.Operation

/-!
Scripted replies of a bulk endpoint. A reply is given for whatever batch comes next, so it says how
the items fare and not which they are.
-/
namespace Indexer.Simulation

/-- How the endpoint answers a batch. -/
inductive Reply where
  /-- Every operation is carried out. -/
  | ok
  /-- The operations at some positions fare otherwise; `errors` overrides what the response says
  about errors as a whole. -/
  | partly (items : List (Nat × List (String × Json))) (errors : Option Json)
  | body (v : Json)
  | fault (f : Fault)
  | response (r : HttpResponse)

/-- When the endpoint answers. -/
inductive Scripted where
  | atOnce (r : Reply)
  /-- The answer is held back until it is released. -/
  | held (r : Reply)

namespace Reply

/-- The item of an operation: its id and what else is said about it. -/
def item (op : Operation) (content : List (String × Json)) : Json :=
  .obj [(op.kind.name, .obj (content.foldl (fun fs f => Json.setField fs f.1 f.2)
    [("_id", .str op.id)]))]

/-- The status of an operation that was carried out. -/
def doneStatus (op : Operation) : Int :=
  match op.kind with
  | .index => 201
  | .delete => 200

/-- The items of a batch from a position on. -/
def items (special : List (Nat × List (String × Json))) : Nat → Batch → List Json
  | _, [] => []
  | position, op :: rest =>
    let content := match special.find? (·.1 = position) with
      | some (_, content) => content
      | none => [("status", .int (doneStatus op))]
    item op content :: items special (position + 1) rest

/-- The body of a response with an item for each operation. -/
def itemsBody (special : List (Nat × List (String × Json))) (errors : Json) (batch : Batch) :
    Json :=
  .obj [("took", .int 3), ("errors", errors), ("items", .arr (items special 0 batch))]

/-- The reply as a response body. -/
def plain (batch : Batch) : Reply → Except Fault Json
  | ok => .ok (itemsBody [] (.bool false) batch)
  | partly special errors => .ok (itemsBody special (errors.getD (.bool !special.isEmpty)) batch)
  | body v => .ok v
  | fault f => .error f
  | response r => r.body.mapError .value

/-- The reply over HTTP. -/
def overHttp (batch : Batch) : Reply → Except Fault HttpResponse
  | response r => .ok r
  | reply => (reply.plain batch).map fun v => ⟨.whole 200, "", .ok v⟩

/-- What the sender gets to see of a reply. -/
def result (endpoint : Option HttpEndpoint) (batch : Batch) (reply : Reply) : Except Fault Json :=
  match endpoint with
  | none => reply.plain batch
  | some e => e.interpret (reply.overHttp batch)

end Reply

/-- What surrounds the deliveries of a simulation. -/
structure Surroundings where
  /-- Seconds since the start. -/
  clock : Float
  /-- The time of day, which stands still unless it is set. -/
  now : DateTime
  /-- The replies to come; when there are none left every batch is carried out. -/
  script : List Scripted
  /-- How many requests were made. -/
  requests : Nat

/-- Takes the next reply. -/
def Surroundings.nextReply (w : Surroundings) : Scripted × Surroundings :=
  let w := { w with requests := w.requests + 1 }
  match w.script with
  | [] => (.atOnce .ok, w)
  | r :: rest => (r, { w with script := rest })

end Indexer.Simulation

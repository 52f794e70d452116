import Indexer.Bulk.FailureClass
import Indexer.Bulk.Outcome
import Indexer.Fault.Policy
import Indexer.Store

/-!
What happens after a request. Acknowledged operations commit their state updates; failures that may
pass are sent again as long as their retries last; all others are reported and leave the state as it
is, so that the next crawl takes the file up again. A destination that stays out of reach, or that
answers nonsense twice in a row, ends the run.
-/
namespace Indexer

/-- An operation that was given up. -/
structure Report where
  id : String
  kind : OpKind
  /-- Why; a text, unless the destination sent something else. -/
  reason : Json

/-- What became of the operations of a run so far. -/
structure Tally where
  indexed : Int
  deleted : Int
  retried : Int
  failed : List Report

def Tally.zero : Tally := ⟨0, 0, 0, []⟩

/-- The state of the coordinator between two requests. -/
structure Coordinator where
  maxRetries : Quantity
  /-- Malformed responses since the last usable one. -/
  malformed : Nat
  tally : Tally
  store : Store

/-- The end of a step: the operations to send again, or the fault that ends the run. -/
structure Decision where
  coordinator : Coordinator
  log : List LogRecord
  requeued : Except Fault (List Operation)

namespace Coordinator

/-- The coordinator of a new run. -/
def start (maxRetries : Quantity) (store : Store) : Coordinator := ⟨maxRetries, 0, .zero, store⟩

/-- Counts acknowledged operations by kind. -/
def countDone (t : Tally) (ops : List Operation) : Tally :=
  { t with
    indexed := t.indexed + (ops.filter (·.kind = .index)).length
    deleted := t.deleted + (ops.filter (·.kind = .delete)).length }

/-- Commits and counts acknowledged operations. -/
def acknowledge (c : Coordinator) (now : DateTime) (ops : List Operation) :
    Except Fault Coordinator :=
  match ops.filterMap (·.update) with
  | [] => .ok { c with tally := countDone c.tally ops }
  | updates =>
    (c.store.commit now updates).map fun store =>
      { c with store, tally := countDone c.tally ops }

/-- The operation has retries left. -/
def mayRetry (c : Coordinator) (op : Operation) : Bool := !c.maxRetries.isBelow (op.attempts + 1)

/-- Counts operations that are sent again. -/
def countRetries (c : Coordinator) (ops : List Operation) : Coordinator :=
  { c with tally := { c.tally with retried := c.tally.retried + ops.length } }

/-- Sends all operations again, or ends the run if one of them has no retries left. -/
def retryAll (c : Coordinator) (ops : List Operation) (escalation : Fault) : Decision :=
  if ops.all c.mayRetry then
    let again := ops.map Operation.again
    ⟨c.countRetries again, [], .ok again⟩
  else ⟨c, [⟨.error, escalation.message⟩], .error escalation⟩

/-- The reason a failure is reported with; none if the operation is sent again. -/
def verdict (c : Coordinator) (f : ItemFailure) : Option Json :=
  match FailureClass.of f.status f.errorType with
  | .permanent => some f.reason
  | _ =>
    if c.mayRetry f.op then none
    else
      some (.str (f.reason.bare ++ " (gave up after " ++ Text.signedDecimal (f.op.attempts + 1)
        ++ " attempts)"))

/-- The report of a failure that is not tried again. -/
def report? (c : Coordinator) (f : ItemFailure) : Option Report :=
  (c.verdict f).map fun reason => ⟨f.op.id, f.op.kind, reason⟩

/-- The log line of a report. -/
def reportLine (r : Report) : LogRecord :=
  ⟨.warning, "Not indexed: " ++ r.kind.name ++ "/" ++ r.id ++ ": " ++ r.reason.bare⟩

/-- Sorts the failures of a request that did reach the destination. -/
def sortFailures (c : Coordinator) (failed : List ItemFailure) : Decision :=
  let reports := failed.filterMap c.report?
  let again := (failed.filter fun f => (c.verdict f).isNone).map fun f => f.op.again
  let c := { c with tally := { c.tally with failed := c.tally.failed ++ reports } }
  ⟨c.countRetries again, reports.map reportLine, .ok again⟩

/-- All failures tell of a lost connection. -/
def allUnreachable (failed : List ItemFailure) : Bool :=
  failed.all fun f => FailureClass.of f.status f.errorType = .connectivity

/-- Takes in the outcome of a request. -/
def onOutcome (c : Coordinator) (now : DateTime) (o : Outcome) : Decision :=
  let c := { c with malformed := 0 }
  match c.acknowledge now o.succeeded with
  | .error f => ⟨c, [], .error f⟩
  | .ok c =>
    match o.failed with
    | [] => ⟨c, [], .ok []⟩
    | first :: rest =>
      if o.succeeded.isEmpty && allUnreachable (first :: rest) then
        c.retryAll ((first :: rest).map (·.op))
          (.connectivityLost (rest.length + 1) first.reason)
      else c.sortFailures (first :: rest)

/-- What a malformed response was, where it is known. -/
def rawLine : Fault → List LogRecord
  | .protocol _ raw =>
    if raw.isNull then [] else [⟨.error, "Raw bulk response: " ++ raw.display⟩]
  | _ => []

/-- Decides about a request without a usable outcome. -/
def judge (c : Coordinator) (batch : Batch) (f : Fault) : Decision :=
  match f with
  | .credentials _ _ => ⟨c, [], .error (.credentialsRejected f)⟩
  | .protocol _ _ =>
    let c := { c with malformed := c.malformed + 1 }
    if 1 < c.malformed then ⟨c, [], .error (.malformedAgain f)⟩
    else
      let again := batch.map Operation.again
      ⟨c.countRetries again, [], .ok again⟩
  | .connection _ | .timeout _ => c.retryAll batch (.unreachable c.maxRetries f)
  | _ => ⟨c, [], .error (.unhandledTransport f)⟩

/-- Takes in the failure of a request as a whole. -/
def onFailure (c : Coordinator) (batch : Batch) (f : Fault) : Decision :=
  let d := c.judge batch f
  { d with log := f.report none "bulk" :: (rawLine f ++ d.log) }

end Coordinator
end Indexer

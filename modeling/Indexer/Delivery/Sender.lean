import Indexer.Delivery.Basic

/-!
The sender of a delivery. It takes one batch after the other from the queue, waits for the answer,
and has the coordinator decide what follows: operations that are sent again go to the front of the
buffer, after a rest if the whole request had failed. Once the run is given up, batches are taken
from the queue but no longer sent. The sender stops at the stop mark, and what is in the queue behind
it stays there.
-/
namespace Indexer.Delivery

/-- The batches that the sender is still going to take. -/
def ahead (d : Delivery) : List Batch :=
  match d.stage with
  | .sealed => (d.queue.getD []).take d.mark
  | _ => d.queue.getD []

/-- The sender has nothing left to do. -/
def isDrained (d : Delivery) : Bool :=
  match d.sender, d.ahead with
  | .idle, [] => true
  | _, _ => false

/-- The sender turns to the next batch of the queue: it sends it, or drops it if the run is given
up. A request counts from here on. The one thread that talks to the destination may get to its payload
later, while it is still busy with a request that was not answered in time, or never. -/
def take (d : Delivery) : Delivery :=
  match d.stage, d.sender, d.queue with
  | .idle, _, _ => d
  | _, .idle, some (batch :: rest) =>
    if d.ahead.isEmpty then d
    else if d.fatal.isSome || d.aborting then { d with queue := some rest, mark := d.mark - 1 }
    else
      { d with
        queue := some rest
        mark := d.mark - 1
        sender := .sending batch
        requests := d.requests ++ [batch] }
  | _, _, _ => d

/-- Gives up the run. A fault that is not meant to end runs is reported as one of the sender. -/
def giveUp (d : Delivery) (f : Fault) : Delivery :=
  if f.isAbort then { d with fatal := some f }
  else { d.note .error "Bulk sender failed" with fatal := some (.senderFailed f) }

/-- Follows a decision. After the failure of a whole request the sender rests first. -/
def follow (d : Delivery) (batchFailed : Bool) (decision : Decision) : Delivery :=
  let d := { d with coordinator := decision.coordinator, log := d.log ++ decision.log }
  match decision.requeued with
  | .error f => d.giveUp f
  | .ok [] => d
  | .ok ops =>
    if d.aborting then d
    else if batchFailed && d.settings.retryBackoff.isAbove 0 then { d with sender := .pausing ops }
    else (d.requeue ops).1

/-- The fault of a request that was not answered in time. -/
def timedOut (d : Delivery) (batch : Batch) : Fault :=
  .timeout ("Bulk request of " ++ Text.decimal batch.length ++ " items timed out after "
    ++ d.settings.requestTimeout.render ++ "s")

/-- A request brought no usable outcome. -/
def failed (d : Delivery) (batch : Batch) (f : Fault) : Delivery :=
  let f := if f.osKind? = some .timeout then d.timedOut batch else f
  if f.isTransport then d.follow true (d.coordinator.onFailure batch f) else d.giveUp f

/-- A request was answered by a response. -/
def responded (d : Delivery) (now : DateTime) (batch : Batch) (raw : Json) : Delivery :=
  let (log, outcome) := Outcome.ofResponse batch raw
  let d := { d with log := d.log ++ log }
  match outcome with
  | .error f => d.failed batch f
  | .ok o =>
    { d with answered := d.answered + 1 }.follow false (d.coordinator.onOutcome now o)

/-- The request under way has come to its end. -/
def answer (d : Delivery) (now : DateTime) (reply : Except Fault Json) : Delivery :=
  match d.sender with
  | .sending batch =>
    let d := { d with sender := .idle }
    match reply with
    | .ok raw => d.responded now batch raw
    | .error f => d.failed batch f
  | _ => d

/-- The request under way was not answered in time. -/
def expire (d : Delivery) (now : DateTime) : Delivery :=
  match d.sender with
  | .sending batch => d.answer now (.error (d.timedOut batch))
  | _ => d

/-- The rest of the sender is over. -/
def wake (d : Delivery) : Delivery :=
  match d.sender with
  | .pausing ops => ({ d with sender := .idle }.requeue ops).1
  | _ => d

/-- The length of the rest in seconds: it grows with the attempts of the operations. -/
def restSeconds (d : Delivery) : Float :=
  match d.sender with
  | .pausing (op :: ops) =>
    d.settings.retryBackoff.toFloat
      * Float.ofInt (ops.foldl (fun n op => max n op.attempts) op.attempts)
  | _ => 0.0

/-- The owner looks at what is left, once all that was flushed is settled. What was sent back meanwhile
is flushed and waited for in turn; but only the buffer is looked at, and not the queue. -/
def look (d : Delivery) : Delivery :=
  if d.fatal.isNone && d.buffer.groups.isEmpty then { d with stage := .leaving } else d.flushToClose

/-- Goes on with closing or stopping by one turn, if there is nothing to wait for. -/
def proceed (d : Delivery) : Delivery :=
  match d.stage with
  | .closing => if d.isDrained then { d with stage := .joined } else d
  | .joined => d.look
  | .leaving => { d with stage := .sealed, mark := (d.queue.getD []).length }
  | .sealed | .stopping => if d.isDrained then { d with stage := .idle } else d
  | .idle | .running => d

/-- How closing has ended. A fault ends it that it has met; what befalls the sender after that is not
looked at any more. -/
def closed (d : Delivery) : Except Fault Unit :=
  match d.aborting, d.fatal with
  | true, some f => .error f
  | _, _ => .ok ()

end Indexer.Delivery

import Indexer.Bulk.Coordinator
import Indexer.Delivery.Buffer
import Indexer.Settings.Basic

/-!
Delivery of operations to the index. Operations gather in a buffer; batches that are cut from it wait
in a queue for the one sender, so at most one request is under way and requests leave in the order
in which their batches were cut. This is what the owner of a delivery can do with it; what the sender
does is told in the module on the sender. Neither knows a clock: that time has passed is an event
like any other.

Closing takes several turns. Its owner waits until all that was flushed is settled, wakes up a turn
later, looks whether the buffer is empty, stops the flush timer, and has the sender stop behind the
last batch that is in the queue by then. Between two of these turns others have theirs.
-/
namespace Indexer

/-- What the sender is doing. -/
inductive Sender where
  | idle
  /-- A request is under way. -/
  | sending (batch : Batch)
  /-- Rests before the operations go back to the buffer. -/
  | pausing (ops : List Operation)

/-- How far a delivery has come. -/
inductive Stage where
  /-- Not started, or over. -/
  | idle
  | running
  /-- Everything is flushed and waited for. -/
  | closing
  /-- All that was flushed is settled. The owner has not looked at the buffer yet. -/
  | joined
  /-- The owner found the buffer empty. The flush timer is stopped, which is waited for. -/
  | leaving
  /-- The stop mark is in the queue, and the sender is waited for. -/
  | sealed
  /-- Nothing new is sent; the sender is waited for. -/
  | stopping
  deriving DecidableEq, Repr

/-- The flush timer goes on as long as the delivery runs or waits for what was flushed. -/
def Stage.isTimed : Stage → Bool
  | .running | .closing | .joined => true
  | .idle | .leaving | .sealed | .stopping => false

structure Delivery where
  settings : Settings
  stage : Stage
  /-- Set for good once the delivery is given up. -/
  aborting : Bool
  /-- Why the run was given up by the sender. -/
  fatal : Option Fault
  buffer : Buffer
  /-- The batches that wait for the sender. There is no queue before the first start. -/
  queue : Option (List Batch)
  /-- The number of batches in front of the stop mark, once that is in the queue. -/
  mark : Nat
  sender : Sender
  coordinator : Coordinator
  /-- The batches of all requests made so far. -/
  requests : List Batch
  /-- The number of requests with a usable response. -/
  answered : Nat
  log : List LogRecord

namespace Delivery

/-- A delivery that has not started. -/
def create (settings : Settings) (store : Store) : Delivery where
  settings := settings
  stage := .idle
  aborting := false
  fatal := none
  buffer := .empty
  queue := none
  mark := 0
  sender := .idle
  coordinator := .start settings.maxRetries store
  requests := []
  answered := 0
  log := []

/-- The number of operations that fill a batch. -/
def limit (d : Delivery) : Quantity := d.settings.bulkSize

/-- The number of operations in the buffer. -/
def pending (d : Delivery) : Nat := d.buffer.count

/-- The batch under way. -/
def inFlight (d : Delivery) : Option Batch :=
  match d.sender with
  | .sending batch => some batch
  | _ => none

def note (d : Delivery) (level : Level) (text : String) : Delivery :=
  { d with log := d.log ++ [⟨level, text⟩] }

/-- Starts a delivery that is not running. -/
def start (d : Delivery) : Delivery :=
  match d.stage with
  | .idle => { d with stage := .running, queue := some [], sender := .idle }
  | _ => d

/-- Takes over a buffer from which batches were cut, and hands these to the queue. Without a queue
only the first of them is cut, and it is lost. -/
def enqueue (d : Delivery) (cut : List Batch × Buffer) : Delivery × Except Fault Unit :=
  match cut.1, d.queue with
  | [], _ => ({ d with buffer := cut.2 }, .ok ())
  | batches, some queue => ({ d with buffer := cut.2, queue := some (queue ++ batches) }, .ok ())
  | _ :: _, none =>
    match d.buffer.cut d.limit with
    | none => (d, .error .noQueue)
    | some (_, rest) => ({ d with buffer := rest }, .error .noQueue)

/-- Cuts one batch. Tells whether there was something to cut. -/
def flush (d : Delivery) : Delivery × Except Fault Bool :=
  match d.buffer.cut d.limit with
  | none => (d, .ok false)
  | some (batch, rest) =>
    let (d, r) := d.enqueue ([batch], rest)
    (d, r.map fun _ => true)

/-- Cuts the whole buffer into batches. Tells how many there were. -/
def flushAll (d : Delivery) : Delivery × Except Fault Nat :=
  let cut := d.buffer.cutAll d.limit
  let (d, r) := d.enqueue cut
  (d, r.map fun _ => cut.1.length)

/-- Adds operations that have to travel together. -/
def addGroup (d : Delivery) (group : Batch) : Delivery × Except Fault Unit :=
  match d.fatal with
  | some f => (d, .error f)
  | none =>
    if d.stage = .idle || d.aborting then (d, .error .notRunning)
    else if group.isEmpty then (d, .ok ())
    else d.enqueue (d.buffer.add d.limit group)

/-- Adds one operation. -/
def add (d : Delivery) (op : Operation) : Delivery × Except Fault Unit := d.addGroup [op]

/-- Puts operations that are sent again in front of all others. -/
def requeue (d : Delivery) (ops : List Operation) : Delivery × Except Fault Unit :=
  if ops.isEmpty then (d, .ok ())
  else if d.aborting then
    (d.note .warning ("Aborting: " ++ Text.decimal ops.length ++ " retried operations dropped"),
      .ok ())
  else
    let b := d.buffer.pushFront ops
    { d with buffer := b }.enqueue (b.cutWhileFull d.limit)

/-- The flush interval has passed. -/
def tick (d : Delivery) : Delivery :=
  if d.stage.isTimed && d.fatal.isNone then d.flushAll.1 else d

/-- The operations that would be dropped now. -/
def unsent (d : Delivery) : Nat := d.buffer.count + (d.queue.getD []).flatten.length

/-- Gives the delivery up. The request under way is still waited for. -/
def abort (d : Delivery) : Delivery :=
  match d.stage with
  | .idle => d
  | _ =>
    let n := d.unsent
    let d :=
      if n = 0 then d
      else d.note .warning ("Aborting: " ++ Text.decimal n ++ " unsent operations dropped")
    { d with aborting := true, stage := .stopping, buffer := .empty, queue := d.queue.map fun _ => [] }

/-- Does not wait any longer for the sender of a delivery that is given up. The request under way
comes to nothing, and so do the operations that it rests with. -/
def abandon (d : Delivery) : Delivery :=
  match d.stage with
  | .stopping => { d with stage := .idle, sender := .idle }
  | _ => d

/-- Begins closing, or goes on with it: a fatal fault gives the delivery up, and otherwise the buffer is
flushed. -/
def flushToClose (d : Delivery) : Delivery :=
  match d.fatal with
  | some _ => d.abort
  | none => { d.flushAll.1 with stage := .closing }

/-- Starts to close a running delivery. -/
def close (d : Delivery) : Delivery :=
  match d.stage with
  | .running => d.flushToClose
  | _ => d

end Delivery
end Indexer

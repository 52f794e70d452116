import Indexer.Delivery.Sender

/-!
Runs of a delivery. Everything that can happen to a delivery is an event, and a run is any sequence
of events: nothing is assumed about who acts when. An event that does not fit the state changes
nothing.

One thing is left out of runs. Operations that are added while a delivery waits for its sender to stop
may come to lie behind the stop mark; the next start would drop them together with the old queue, so
such a delivery is not started again.
-/
namespace Indexer.Delivery

inductive Event where
  | start
  | add (group : Batch)
  | flush
  | flushAll
  /-- The flush interval has passed. -/
  | tick
  /-- The sender turns to the next batch. -/
  | take
  /-- The request under way has come to its end. -/
  | answer (now : DateTime) (reply : Except Fault Json)
  /-- The request under way was not answered in time. -/
  | expire (now : DateTime)
  /-- The rest of the sender is over. -/
  | wake
  | close
  /-- Closing or stopping goes on. -/
  | proceed
  | abort
  /-- Nobody waits any longer for a delivery that is given up. -/
  | abandon

/-- What an event does. -/
def step (d : Delivery) : Event → Delivery
  | .start => if (d.queue.getD []).isEmpty then d.start else d
  | .add group => (d.addGroup group).1
  | .flush => d.flush.1
  | .flushAll => d.flushAll.1
  | .tick => d.tick
  | .take => d.take
  | .answer now reply => d.answer now reply
  | .expire now => d.expire now
  | .wake => d.wake
  | .close => d.close
  | .proceed => d.proceed
  | .abort => d.abort
  | .abandon => d.abandon

/-- The state after a sequence of events. -/
def run (d : Delivery) (events : List Event) : Delivery := events.foldl step d

end Indexer.Delivery

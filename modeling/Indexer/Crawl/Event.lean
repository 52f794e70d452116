import Indexer.Crawl.Walk
import Indexer.Delivery.Event

/-!
Runs of a crawl. The walker and its delivery take turns in any order; a run is any sequence of such
turns. Only the walker adds to the delivery and closes it.
-/
namespace Indexer

/-- The crawl of a root. -/
structure Crawl where
  walk : Crawl.Walk
  delivery : Delivery

namespace Crawl

/-- The crawl of a root at its start. It fails if the root cannot be looked up in the crawl state,
because its path has no UTF-8 form, or if what is recorded about it cannot be read. -/
def start (settings : Settings) (readers : Readers) (tree : FileTree) (root : Path) (now : DateTime)
    (store : Store) : Except Fault Crawl := do
  let prior ←
    match tree.pathFault? root with
    | some f => .error f
    | none => (store.load root.text).mapError .time
  return {
    walk := .start (Basis.plan { settings, readers, tree, root, prior, now })
    delivery := (Delivery.create settings store).start }

inductive Event where
  /-- The walker goes on. -/
  | advance
  /-- The workers are done. -/
  | arrive
  | cancel
  /-- Something happens to the delivery. -/
  | delivery (e : Delivery.Event)

/-- The event is the doing of the sender or of time, and not of the owner of a delivery. -/
def isOfSender : Delivery.Event → Bool
  | .tick | .take | .answer _ _ | .expire _ | .wake | .proceed => true
  | _ => false

/-- What an event does. -/
def step (c : Crawl) : Event → Crawl
  | .advance =>
    let (walk, delivery) := c.walk.advance c.delivery
    { walk, delivery }
  | .arrive => { c with walk := c.walk.arrive }
  | .cancel =>
    let (walk, delivery) := c.walk.cancel c.delivery
    { walk, delivery }
  | .delivery e => if isOfSender e then { c with delivery := c.delivery.step e } else c

/-- The state after a sequence of events. -/
def run (c : Crawl) (events : List Event) : Crawl := events.foldl step c

end Crawl
end Indexer

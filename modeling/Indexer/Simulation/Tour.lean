import Indexer.Crawl.Event
import Indexer.Simulation.Link

/-!
A tour crawls several roots one after the other. The roots are crawled with deliveries of their own,
but all of them over the same tree and into the same crawl state.
-/
namespace Indexer.Simulation

/-- A request on the wire. -/
structure Request where
  endpoint : Option HttpEndpoint
  batch : Batch

/-- What all crawls of a simulation share. -/
structure Site where
  surroundings : Surroundings
  tree : FileTree
  store : Store
  log : List LogRecord
  /-- The requests made so far. -/
  sent : List Request

namespace Site

/-- Lets a link act. It works on the crawl state of the site, and what it logs and sends shows up
there. -/
def host (s : Site) (l : Link) (act : Surroundings → Link → Surroundings × Link) : Site × Link :=
  let before := l.delivery
  let shared := { before with coordinator := { before.coordinator with store := s.store } }
  let (surroundings, l) := act s.surroundings { l with delivery := shared }
  let d := l.delivery
  ({ s with
      surroundings
      store := d.coordinator.store
      log := s.log ++ d.log.drop before.log.length
      sent := s.sent ++ (d.requests.drop before.requests.length).map fun b => ⟨l.endpoint, b⟩ }, l)

end Site

structure Tour where
  settings : Settings
  readers : Readers
  endpoint : Option HttpEndpoint
  /-- The roots to come. -/
  roots : List Path
  /-- The crawl under way. -/
  current : Option (Crawl.Walk × Link)
  /-- The sum of the crawls that are over. -/
  summary : Summary
  /-- A crawl got so far that it needed the endpoint. -/
  opened : Bool
  result : Option (Except Fault Summary)

/-- Who acts in a turn. The walkers go first, then the senders, and then the workers are done. -/
inductive Actor where
  | walker
  | sender
  | worker
  deriving DecidableEq, Repr

namespace Tour

def start (settings : Settings) (readers : Readers) (endpoint : Option HttpEndpoint)
    (roots : List Path) : Tour :=
  ⟨settings, readers, endpoint, roots, none, .zero, false, none⟩

def isOver (t : Tour) : Bool := t.result.isSome

/-- Sets out for the next root, or ends the tour. -/
def setOut (t : Tour) (s : Site) : Tour :=
  match t.roots with
  | [] => { t with result := some (.ok t.summary) }
  | root :: rest =>
    match Crawl.start t.settings t.readers s.tree root s.surroundings.now s.store with
    | .error f => { t with result := some (.error f) }
    | .ok c =>
      { t with
        roots := rest
        current := some (c.walk, .create s.surroundings.clock c.delivery t.endpoint)
        opened := true }

/-- Changes the walker of a crawl and its delivery. -/
def alter (t : Tour) (s : Site) (walk : Crawl.Walk) (l : Link)
    (f : Crawl.Walk → Delivery → Crawl.Walk × Delivery) : Site × Tour :=
  let next := (f walk l.delivery).1
  let (s, l) := s.host l fun w l => (w, l.update w.clock (f walk l.delivery).2)
  ({ s with log := s.log ++ next.log.drop walk.log.length }, { t with current := some (next, l) })

/-- Lets a crawl act. -/
def turnOf (t : Tour) (s : Site) (walk : Crawl.Walk) (l : Link) : Actor → Option (Site × Tour)
  | .walker =>
    match walk.phase with
    | .ended (.ok ()) =>
      some (s, { t with current := none, summary := t.summary.merge (walk.summary l.delivery) })
    | .ended (.error f) => some (s, { t with current := none, result := some (.error f) })
    | _ => if walk.isReady l.delivery then some (t.alter s walk l Crawl.Walk.advance) else none
  | .sender =>
    (l.turn? s.surroundings).map fun _ =>
      let (s, l) := s.host l fun w l => (l.turn? w).getD (w, l)
      (s, { t with current := some (walk, l) })
  | .worker =>
    match walk.phase with
    | .waiting => some (s, { t with current := some (walk.arrive, l) })
    | _ => none

/-- What somebody can do at once. -/
def turn? (t : Tour) (s : Site) (a : Actor) : Option (Site × Tour) :=
  match t.result, t.current with
  | some _, _ => none
  | none, some (walk, l) => t.turnOf s walk l a
  | none, none => if a = .walker then some (s, t.setOut s) else none

/-- When the next timer of the tour comes due. -/
def due? (t : Tour) : Option Float := t.current.bind fun (_, l) => l.due?

/-- Lets the link of the crawl under way act. -/
def onLink (t : Tour) (s : Site) (act : Surroundings → Link → Surroundings × Link) : Site × Tour :=
  match t.current with
  | some (walk, l) =>
    let (s, l) := s.host l act
    (s, { t with current := some (walk, l) })
  | none => (s, t)

def fire (t : Tour) (s : Site) : Site × Tour := t.onLink s fun w l => (w, l.fire w)

/-- The number of the request whose answer is held back. -/
def heldNumber? (t : Tour) : Option Nat := t.current.bind fun (_, l) => l.held.map (·.1)

/-- Gives the answer to the request of a number, if that is held back. -/
def release (t : Tour) (s : Site) (number : Nat) : Site × Tour :=
  if t.heldNumber? = some number then t.onLink s fun w l => (w, (l.release w).2) else (s, t)

def cancel (t : Tour) (s : Site) : Site × Tour :=
  match t.result, t.current with
  | some _, _ => (s, t)
  | none, some (walk, l) => t.alter s walk l Crawl.Walk.cancel
  | none, none => (s, { t with result := some (.error .cancelled) })

end Tour
end Indexer.Simulation

import Indexer.Simulation.Feed
import Indexer.Simulation.Tour

/-!
A session with the indexer: tours that somebody asks for, and watches that set out on a tour whenever
files change below their roots. All of them share one tree, one crawl state and one endpoint.
-/
namespace Indexer.Simulation

/-- A watch and the tours that it sets out on. -/
structure Watch where
  feed : Feed
  roots : List Path
  listener : Listener
  /-- The tour under way; meanwhile nobody listens. -/
  tour : Option Tour
  /-- The fault that ended the watch. -/
  fault : Option Fault

structure Session where
  settings : Settings
  readers : Readers
  host : Host
  site : Site
  /-- The tour that was asked for. -/
  tour : Option Tour
  /-- The watches begun so far, the latest first. -/
  watches : List Watch
  /-- The latest watch is the one in use. -/
  watching : Bool
  /-- Why the latest attempt to watch came to nothing, if it did. -/
  refused : Option Fault
  /-- The requests whose answers are no longer held back but have not been heard yet. -/
  released : List Nat

namespace Watch

/-- Sets out on a tour of the roots that a batch of changes affects. -/
def setOut (w : Watch) (settings : Settings) (readers : Readers) (batch : List FileChange) : Watch :=
  match affectedRoots w.roots batch with
  | [] => { w with listener := .fresh }
  | roots => { w with listener := .fresh, tour := some (.start settings readers none roots) }

/-- What a watch does that is not on a tour. -/
def look? (w : Watch) (settings : Settings) (readers : Readers) (clock : Float) : Option Watch :=
  match w.listener, w.feed.ready with
  | .fresh, _ => some { w with listener := w.feed.listen clock }
  | .listening _, batch :: ready =>
    some ({ w with feed := { w.feed with ready } }.setOut settings readers batch)
  | _, _ => none

/-- What somebody can do at once. -/
def turn? (w : Watch) (settings : Settings) (readers : Readers) (s : Site) (a : Actor) :
    Option (Site × Watch) :=
  match w.feed.absorb? s.surroundings.clock, w.tour with
  | some feed, _ => if a = .walker then some (s, { w with feed }) else none
  | none, none =>
    if a = .walker then (w.look? settings readers s.surroundings.clock).map fun w => (s, w) else none
  | none, some t =>
    match t.result with
    | some (.ok _) => if a = .walker then some (s, { w with tour := none }) else none
    | some (.error f) =>
      if a = .walker then some (s, { w with tour := none, listener := .ended, fault := some f })
      else none
    | none => (t.turn? s a).map fun (s, t) => (s, { w with tour := some t })

def due? (w : Watch) : Option Float :=
  earlier w.feed.due? <|
    match w.tour with
    | some t => t.due?
    | none => w.listener.due?

/-- Lets the timer that is due come due. -/
def fire (w : Watch) (s : Site) : Site × Watch :=
  match w.feed.due?, w.tour with
  | some t, tour =>
    if t ≤ s.surroundings.clock then (s, { w with feed := w.feed.fire t }) else fireOther tour
  | none, tour => fireOther tour
where
  fireOther (tour : Option Tour) : Site × Watch :=
    match tour with
    | some t =>
      let (s, t) := t.fire s
      (s, { w with tour := some t })
    | none => (s, { w with listener := .fresh })

/-- The number of the request whose answer is held back. -/
def heldNumber? (w : Watch) : Option Nat := w.tour.bind Tour.heldNumber?

/-- Gives the answer to the request of a number, if that is held back. -/
def release (w : Watch) (s : Site) (number : Nat) : Site × Watch :=
  match w.tour with
  | some t =>
    let (s, t) := t.release s number
    (s, { w with tour := some t })
  | none => (s, w)

def isOver (w : Watch) : Bool := w.listener.isOver && w.tour.isNone

end Watch

namespace Session

def create (settings : Settings) (readers : Readers) (host : Host) (tree : FileTree) (now : DateTime) :
    Session :=
  ⟨settings, readers, host, ⟨⟨0.0, now, [], 0⟩, tree, .empty, [], []⟩, none, [], false, none, []⟩

/-- The numbers of the requests whose answers are held back, in the order of the requests. -/
def heldNumbers (s : Session) : List Nat :=
  (s.tour.toList.filterMap Tour.heldNumber? ++ s.watches.filterMap Watch.heldNumber?).mergeSort
    (· ≤ ·)

/-- The answer to the request of a number is heard, if it was held back. -/
def answer (s : Session) (number : Nat) : Session :=
  let s :=
    match s.tour with
    | some t =>
      let (site, t) := t.release s.site number
      { s with site, tour := some t }
    | none => s
  let (site, watches) := s.watches.foldl (fun (site, done) w =>
    let (site, w) := w.release site number
    (site, done ++ [w])) (s.site, [])
  { s with site, watches }

/-- The answer that was released first is heard. -/
def hearReleased? (s : Session) : Option Session :=
  match s.released with
  | [] => none
  | number :: rest => some ({ s with released := rest }.answer number)

/-- What the first watch that can act does. -/
def watchTurn? (s : Session) (a : Actor) (before : List Watch) : List Watch → Option Session
  | [] => none
  | w :: rest =>
    match w.turn? s.settings s.readers s.site a with
    | some (site, w) => some { s with site, watches := before ++ w :: rest }
    | none => s.watchTurn? a (before ++ [w]) rest

/-- What somebody can do at once. -/
def turnOf? (s : Session) (a : Actor) : Option Session :=
  match s.tour.bind fun t => t.turn? s.site a with
  | some (site, t) => some { s with site, tour := some t }
  | none => s.watchTurn? a [] s.watches

def turn? (s : Session) : Option Session :=
  s.turnOf? .walker <|> s.hearReleased? <|> s.turnOf? .sender <|> s.turnOf? .worker

def due? (s : Session) : Option Float :=
  s.watches.foldl (fun t w => earlier t w.due?) (s.tour.bind Tour.due?)

/-- Lets the timer of the first watch that has one due come due. -/
def fireWatch (s : Session) (before : List Watch) : List Watch → Session
  | [] => s
  | w :: rest =>
    if isDue s.site.surroundings.clock w.due? then
      let (site, w) := w.fire s.site
      { s with site, watches := before ++ w :: rest }
    else s.fireWatch (before ++ [w]) rest

/-- Lets the timer that is due come due. -/
def fire (s : Session) : Session :=
  match s.tour with
  | some t =>
    if isDue s.site.surroundings.clock t.due? then
      let (site, t) := t.fire s.site
      { s with site, tour := some t }
    else s.fireWatch [] s.watches
  | none => s.fireWatch [] s.watches

def setClock (clock : Float) (s : Session) : Session :=
  { s with site := { s.site with surroundings := { s.site.surroundings with clock } } }

def machine : Machine Session where
  clock s := s.site.surroundings.clock
  setClock := setClock
  turn? := turn?
  due? := due?
  fire := fire

def settle (s : Session) : Session := machine.settle s

def advance (s : Session) (seconds : Float) : Session := machine.advance seconds s

/-- Changes the time of day. -/
def setNow (s : Session) (now : DateTime) : Session :=
  { s with site := { s.site with surroundings := { s.site.surroundings with now } } }

/-- Replaces the replies to come. -/
def setScript (s : Session) (script : List Scripted) : Session :=
  { s with site := { s.site with surroundings := { s.site.surroundings with script } } }

/-- Changes the tree. -/
def alterTree (s : Session) (f : FileTree → FileTree) : Session :=
  { s with site := { s.site with tree := f s.site.tree } }

/-- The given roots, or else those of the settings, as the settings keep them. -/
def rootsOf (s : Session) (roots : List Path) : Except Fault (List Path) :=
  ((if roots.isEmpty then s.settings.roots else roots).mapM s.host.normalize).mapError .path

/-- The result of the tour that was asked for. -/
def result (s : Session) : Except Fault Summary :=
  match s.tour.bind (·.result) with
  | some r => r
  | none => .error .cancelled

/-- The tour that was asked for is over, if there was one. -/
def isBack (s : Session) : Bool := s.tour.all Tour.isOver

/-- Waits until the tour that was asked for is over. -/
def finish (s : Session) : Session := machine.await isBack s

/-- Sets out on a tour of the roots. -/
def setOut (s : Session) (endpoint : Option HttpEndpoint) (roots : List Path) : Session :=
  { s with tour := some (.start s.settings s.readers endpoint roots) }

/-- Crawls the roots and waits for the end. -/
def crawl (s : Session) (roots : List Path) : Session × Except Fault Summary :=
  match s.rootsOf roots with
  | .error f => (s, .error f)
  | .ok roots =>
    let s := (s.setOut none roots).finish
    (s, s.result)

/-- Cancels the tour that was asked for. -/
def cancel (s : Session) : Session :=
  match s.tour with
  | some t =>
    let (site, t) := t.cancel s.site
    { s with site, tour := some t }
  | none => s

/-- Releases the answers that are held back. They are heard when somebody waits again. -/
def release (s : Session) : Session := { s with released := s.heldNumbers }

/-- Sets out to crawl the roots, cancels that as soon as time would have to pass, releases what is
held back, and waits for the end. -/
def crawlCancelled (s : Session) (roots : List Path) : Session × Except Fault Summary :=
  match s.rootsOf roots with
  | .error f => (s.settle.release, .error f)
  | .ok roots =>
    let s := (s.setOut none roots).settle.cancel.settle.release
    let s := if s.isBack then s else s.settle.finish
    (s, s.result)

/-- Crawls the roots over HTTP. Tells as well whether a connection was opened. -/
def crawlOverHttp (s : Session) (roots : List Path) : Session × Bool × Except Fault Summary :=
  match s.rootsOf roots with
  | .error f => (s, false, .error f)
  | .ok roots =>
    let s := (s.setOut (some (.ofSettings s.settings)) roots).finish
    (s, s.tour.any (·.opened), s.result)

/-- Begins to watch the roots. -/
def watch (s : Session) (roots : List Path) : Session × Except Fault (List Path) :=
  match s.rootsOf roots with
  | .error f => (settle { s with refused := some f }, .error f)
  | .ok roots =>
    let (feed, log) := (Feed.create s.settings).start s.site.tree roots
    let w : Watch := ⟨feed, roots, .fresh, none, none⟩
    let site := { s.site with log := s.site.log ++ log }
    (settle { s with site, watches := w :: s.watches, watching := true, refused := none },
      .ok (feed.watcher.watched.getD []))

/-- An event happens. Only the watch in use hears of it. -/
def hear (s : Session) (e : FileEvent) : Session × Except Fault Unit :=
  match s.watching, s.watches with
  | true, w :: rest =>
    match w.feed.hear e with
    | (feed, .ok ()) => (settle { s with watches := { w with feed } :: rest }, .ok ())
    | (_, .error f) => (s, .error f)
  | _, _ => (s, .error .noHandler)

/-- Stops the watch in use. -/
def stop (s : Session) : Session :=
  match s.watching, s.watches with
  | true, w :: rest => { s with watches := { w with feed := w.feed.stop } :: rest, watching := false }
  | _, _ => s

/-- Stops the watch in use and waits until the latest watch is over, which one that never began is
from the start. -/
def stopWatching (s : Session) : Session × Except Fault Unit :=
  match s.refused with
  | some f => (s.stop, .error f)
  | none =>
    let s := machine.await (fun s => s.watches.head?.all Watch.isOver) s.stop
    match s.watches.head?.bind (·.fault) with
    | some f => (s, .error f)
    | none => (s, .ok ())

end Session
end Indexer.Simulation

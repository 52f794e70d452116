import Indexer.Simulation.Feed

/-!
A single watcher in virtual time, with those its batches go to.
-/
namespace Indexer.Simulation

/-- Where the batches of a watcher go. -/
inductive Audience where
  | nobody
  /-- They are collected as they come. -/
  | collector
  /-- Listeners take them, always the one who has waited for longest. -/
  | listeners
  deriving DecidableEq, Repr

structure Lookout where
  clock : Float
  tree : FileTree
  feed : Feed
  audience : Audience
  /-- How many listeners have set to work so far. -/
  started : Nat
  /-- Those who still listen, by number, in the order in which they began to wait. -/
  listeners : List (Nat × Listener)
  /-- The batches that were taken. -/
  delivered : List (List FileChange)
  log : List LogRecord

namespace Lookout

def create (settings : Settings) (tree : FileTree) (audience : Audience) : Lookout :=
  ⟨0.0, tree, .create settings, audience, 0, [], [], []⟩

/-- Collects the batches that are ready, unless listeners are there for that. -/
def collect (l : Lookout) : Lookout :=
  let emptied := { l with feed := { l.feed with ready := [] } }
  match l.audience with
  | .nobody => emptied
  | .collector => { emptied with delivered := l.delivered ++ l.feed.ready }
  | .listeners => l

/-- A listener looks whether the watcher runs, and waits behind all others if it does. -/
def attend (l : Lookout) (number : Nat) : List (Nat × Listener) :=
  match l.feed.listen l.clock with
  | .ended => []
  | s => [(number, s)]

/-- What the first listener who can act does. -/
def listenerTurn? (l : Lookout) (before : List (Nat × Listener)) :
    List (Nat × Listener) → Option Lookout
  | [] => none
  | (number, .fresh) :: rest =>
    some { l with listeners := before ++ rest ++ l.attend number }
  | (number, s) :: rest =>
    match l.feed.ready with
    | batch :: ready =>
      some { l with
        feed := { l.feed with ready }
        delivered := l.delivered ++ [batch]
        listeners := before ++ (number, .fresh) :: rest }
    | [] => l.listenerTurn? (before ++ [(number, s)]) rest

/-- What can happen at once. -/
def turn? (l : Lookout) : Option Lookout :=
  match l.feed.absorb? l.clock with
  | some feed => some { l with feed }
  | none => l.listenerTurn? [] l.listeners

def due? (l : Lookout) : Option Float :=
  l.listeners.foldl (fun t s => earlier t s.2.due?) l.feed.due?

/-- Lets those who have waited for long enough look again. -/
def wake (l : Lookout) : Lookout :=
  { l with listeners := l.listeners.map fun (number, s) =>
      (number, if isDue l.clock s.due? then .fresh else s) }

/-- Lets the timer that is due come due. -/
def fire (l : Lookout) : Lookout :=
  match l.feed.due? with
  | some t =>
    if t ≤ l.clock then collect { l with feed := l.feed.fire t } else l.wake
  | none => l.wake

def machine : Machine Lookout where
  clock l := l.clock
  setClock t l := { l with clock := t }
  turn? := turn?
  due? := due?
  fire := fire

/-- Starts watching the given roots, or else those of the settings. Listeners set to work. -/
def start (l : Lookout) (roots : List Path) : Lookout :=
  let roots := if roots.isEmpty then l.feed.watcher.settings.roots else roots
  let (feed, log) := l.feed.start l.tree roots
  let l := { l with feed, log := l.log ++ log }
  if l.audience = .listeners then
    { l with started := l.started + 1, listeners := l.listeners ++ [(l.started + 1, .fresh)] }
  else l

def stop (l : Lookout) : Lookout := { l with feed := l.feed.stop }

def flush (l : Lookout) : Lookout := collect { l with feed := l.feed.flush }

def report (l : Lookout) (change : FileChange) : Lookout := { l with feed := l.feed.report change }

def settle (l : Lookout) : Lookout := machine.settle l

def advance (l : Lookout) (seconds : Float) : Lookout := machine.advance seconds l

/-- An event happens. -/
def hear (l : Lookout) (e : FileEvent) : Lookout × Except Fault Unit :=
  match l.feed.hear e with
  | (feed, .ok ()) => (settle { l with feed }, .ok ())
  | (_, .error f) => (l, .error f)

/-- Whether the latest listener is still there; nothing if there never was one. -/
def consuming (l : Lookout) : Option Bool :=
  if l.started = 0 then none else some (l.listeners.any (·.1 = l.started))

end Lookout
end Indexer.Simulation

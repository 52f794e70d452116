import Indexer.Simulation.Clock
import Indexer.Watch.Watcher

/-!
A watcher on a clock, and those who wait for its batches. A reported change is not recorded at once
but as soon as the watcher gets to it, unless the watcher has never been started.
-/
namespace Indexer.Simulation

structure Feed where
  watcher : Watcher
  /-- Reported changes that are not recorded yet. -/
  posted : List FileChange
  /-- When the planned flush comes due. -/
  flushAt : Option Float
  /-- Flushes that were planned before another flush came in between; they happen all the same. -/
  strayAt : List Float
  /-- Batches that nobody has taken. -/
  ready : List (List FileChange)

/-- Somebody who waits for batches. -/
inductive Listener where
  /-- Is about to look for a batch. -/
  | fresh
  /-- Waits until some instant, and then looks whether the watcher still runs. -/
  | listening (till : Float)
  | ended
  deriving Repr

namespace Feed

def create (settings : Settings) : Feed := ⟨.create settings, [], none, [], []⟩

/-- Starts watching. -/
def start (f : Feed) (t : FileTree) (roots : List Path) : Feed × List LogRecord :=
  let (watcher, log) := f.watcher.start t roots
  ({ f with watcher }, log)

/-- Stops watching. The planned flush is called off. -/
def stop (f : Feed) : Feed := { f with watcher := f.watcher.stop, flushAt := none }

/-- Reports a change. -/
def report (f : Feed) (change : FileChange) : Feed :=
  if !f.watcher.hears change then f
  else if f.watcher.started then { f with posted := f.posted ++ [change] }
  else { f with watcher := f.watcher.record change }

/-- Hears of an event, which needs a watch on some directory. -/
def hear (f : Feed) (e : FileEvent) : Feed × Except Fault Unit :=
  match f.watcher.watched with
  | none | some [] => (f, .error .noHandler)
  | some _ =>
    match e.change? with
    | some change => (f.report change, .ok ())
    | none => (f, .ok ())

/-- The time after which recorded changes are flushed, in seconds. -/
def patience (f : Feed) : Float := f.watcher.settings.debounceMs.toFloat / 1000.0

/-- Records the reported changes. -/
def absorb? (f : Feed) (clock : Float) : Option Feed :=
  match f.posted with
  | [] => none
  | changes =>
    let watcher := changes.foldl Watcher.record f.watcher
    some { f with
      watcher
      posted := []
      flushAt := if watcher.planned then some (f.flushAt.getD (clock + f.patience)) else f.flushAt }

/-- Flushes what is recorded. A flush that was planned is no longer known as such. -/
def flush (f : Feed) : Feed :=
  let (watcher, batch) := f.watcher.flush
  { f with
    watcher
    flushAt := none
    strayAt := f.strayAt ++ f.flushAt.toList
    ready := f.ready ++ batch.toList }

/-- When the next flush comes due. -/
def due? (f : Feed) : Option Float := f.strayAt.foldl (fun t s => earlier t (some s)) f.flushAt

/-- The flush that comes due at an instant. -/
def fire (f : Feed) (instant : Float) : Feed :=
  if f.flushAt == some instant then flush { f with flushAt := none }
  else flush { f with strayAt := f.strayAt.eraseP (· == instant) }

/-- Looks for batches once more if the watcher runs, for a second at a time. -/
def listen (f : Feed) (clock : Float) : Listener :=
  if f.watcher.running then .listening (clock + 1.0) else .ended

end Feed

namespace Listener

/-- When the listener stops waiting for the time being. -/
def due? : Listener → Option Float
  | listening till => some till
  | _ => none

def isOver : Listener → Bool
  | ended => true
  | _ => false

end Listener
end Indexer.Simulation

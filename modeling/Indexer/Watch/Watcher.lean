import Indexer.Exclusion
import Indexer.File.Tree
import Indexer.Log
import Indexer.Watch.Event

/-!
The watcher gathers changes of files and hands them on in batches. The first change that is recorded
plans a flush some time later; until then a later change of the same path takes the place of an
earlier one. Recording needs to be able to wait, so before the first start changes only pile up.
-/
namespace Indexer

structure Watcher where
  settings : Settings
  /-- The watcher has been started once, and can plan flushes. -/
  started : Bool
  running : Bool
  /-- The directories under watch, if any are. -/
  watched : Option (List Path)
  /-- The latest change of each path, by the first appearance of the path. -/
  pending : List FileChange
  /-- A flush is planned. -/
  planned : Bool

namespace Watcher

def create (settings : Settings) : Watcher := ⟨settings, false, false, none, [], false⟩

/-- Starts watching the roots that are there. -/
def start (w : Watcher) (t : FileTree) (roots : List Path) : Watcher × List LogRecord :=
  ({ w with started := true, running := true, watched := some (roots.filter t.contains) },
    (roots.filter fun r => !t.contains r).map fun r =>
      ⟨.warning, "Watch root not found: " ++ r.text⟩)

/-- Stops watching. Recorded changes stay, but the planned flush is called off. -/
def stop (w : Watcher) : Watcher :=
  { w with running := false, watched := none, planned := false }

/-- The change is worth recording. -/
def hears (w : Watcher) (change : FileChange) : Bool := !w.settings.ignoresPath change.path

/-- Puts a change in its place. -/
def put (pending : List FileChange) (change : FileChange) : List FileChange :=
  if pending.any (·.path = change.path) then
    pending.map fun c => if c.path = change.path then change else c
  else pending ++ [change]

/-- Records a change, and plans a flush unless one is planned. -/
def record (w : Watcher) (change : FileChange) : Watcher :=
  { w with pending := put w.pending change, planned := w.planned || w.started }

/-- Hands on what is recorded, if anything is. -/
def flush (w : Watcher) : Watcher × Option (List FileChange) :=
  match w.pending with
  | [] => ({ w with planned := false }, none)
  | changes => ({ w with planned := false, pending := [] }, some changes)

end Watcher
end Indexer

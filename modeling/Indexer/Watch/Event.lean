import Indexer.Path.Basic

/-!
File events and what a watcher makes of them. An event about a directory says nothing: the crawl that
follows a change of a file finds out for itself what changed.
-/
namespace Indexer

/-- What happened to a file or directory. -/
inductive EventKind where
  | created
  | modified
  | deleted
  | moved (target : Path)
  /-- It was opened or closed. -/
  | touched
  deriving DecidableEq, Repr

/-- An event of the file system. -/
structure FileEvent where
  kind : EventKind
  path : Path
  isDirectory : Bool

/-- How a file changed. -/
inductive Alteration where
  | added
  | modified
  | deleted
  | moved
  deriving DecidableEq, Repr

def Alteration.name : Alteration → String
  | added => "added"
  | modified => "modified"
  | deleted => "deleted"
  | moved => "moved"

/-- A change of a file. -/
structure FileChange where
  path : Path
  alteration : Alteration
  /-- Where a moved file came from. -/
  oldPath : Option Path
  deriving DecidableEq, Repr

/-- The change an event tells of. A move is a change of the place the file went to. -/
def FileEvent.change? (e : FileEvent) : Option FileChange :=
  if e.isDirectory then none
  else
    match e.kind with
    | .created => some ⟨e.path, .added, none⟩
    | .modified => some ⟨e.path, .modified, none⟩
    | .deleted => some ⟨e.path, .deleted, none⟩
    | .moved target => some ⟨target, .moved, some e.path⟩
    | .touched => none

/-- The roots under which something changed. -/
def affectedRoots (roots : List Path) (batch : List FileChange) : List Path :=
  roots.filter fun root => batch.any fun change => change.path.isUnder root

end Indexer

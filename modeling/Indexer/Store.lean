import Indexer.Bulk.Operation
import Indexer.Change
import Indexer.Fault.Basic

/-!
The crawl state: what the index has acknowledged about each file, by crawl root and path. Times are
kept as seconds in doubles. Updates are committed in lists, and a list that cannot be applied as a
whole is not applied at all.
-/
namespace Indexer

/-- An entry of the crawl state. -/
structure Row where
  root : String
  path : String
  checksum : Option String
  /-- Seconds since 1970. -/
  lastModified : Float
  /-- Seconds since 1970. -/
  lastIndexed : Float

namespace Row

/-- The row belongs to the given root and path. -/
def hasKey (r : Row) (root path : String) : Bool := r.root = root && r.path = path

/-- Reads a row back. -/
def toAcknowledged (r : Row) : Except TimeError Acknowledged := do
  let lastModified ← Moment.ofSeconds (.float r.lastModified)
  let lastIndexed ← Moment.ofSeconds (.float r.lastIndexed)
  return { path := r.path, checksum := r.checksum, lastModified, lastIndexed }

end Row

/-- The crawl state. No two rows have the same root and path. -/
structure Store where
  rows : List Row

namespace Store

def empty : Store := ⟨[]⟩

/-- The row of a file. -/
def find? (s : Store) (root path : String) : Option Row :=
  s.rows.find? (·.hasKey root path)

/-- Writes a row; one with the same root and path is replaced. -/
def put (s : Store) (r : Row) : Store :=
  if (s.find? r.root r.path).isSome then
    ⟨s.rows.map fun q => if q.hasKey r.root r.path then r else q⟩
  else ⟨s.rows ++ [r]⟩

/-- Removes the row of a file, if there is one. -/
def erase (s : Store) (root path : String) : Store :=
  ⟨s.rows.filter fun q => !q.hasKey root path⟩

/-- The seconds of a modification time, without which nothing can be written. -/
def modified (u : StateUpdate) : Except Fault Float :=
  match u.lastModified with
  | none => .error .noLastModified
  | some d => d.toSeconds.mapError .time

/-- Applies one update at the given time. -/
def apply (now : Float) (s : Store) (u : StateUpdate) : Except Fault Store :=
  if u.remove then .ok (s.erase u.root u.path)
  else
    (modified u).map fun lastModified =>
      s.put ⟨u.root, u.path, u.checksum, lastModified, now⟩

/-- Applies a list of updates in order, all of them or none. -/
def commit (s : Store) (now : DateTime) (updates : List StateUpdate) : Except Fault Store := do
  let seconds ← now.toSeconds.mapError .time
  updates.foldlM (apply seconds) s

/-- The number of entries. -/
def size (s : Store) : Nat := s.rows.length

/-- The number of entries of a root. -/
def sizeOf (s : Store) (root : String) : Nat := (s.rows.filter (·.root = root)).length

/-- The entry of a file. -/
def get (s : Store) (root path : String) : Except TimeError (Option Acknowledged) :=
  match s.find? root path with
  | none => .ok none
  | some r => r.toAcknowledged.map some

/-- The entries of a root in path order. -/
def load (s : Store) (root : String) : Except TimeError (List Acknowledged) :=
  ((s.rows.filter (·.root = root)).mergeSort fun a b => a.path ≤ b.path).mapM Row.toAcknowledged

/-- The roots that have entries, in order. -/
def roots (s : Store) : List String :=
  ((s.rows.map (·.root)).mergeSort (· ≤ ·)).eraseDups

/-- All entries by root. -/
def listing (s : Store) : Except TimeError (List (String × List Acknowledged)) :=
  s.roots.mapM fun root => (s.load root).map fun entries => (root, entries)

end Store
end Indexer

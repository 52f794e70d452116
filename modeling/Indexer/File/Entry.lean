import Indexer.Fault.Basic

/-!
What a scan tells about a file without opening it.
-/
namespace Indexer

structure FileEntry where
  path : Path
  /-- The crawl root the file was found under. -/
  root : Path
  name : String
  extension : String
  size : Int
  mtime : Moment
  owner : Option String
  group : Option String
  /-- Why the path has no UTF-8 form, if it has none. -/
  pathFault : Option Fault := none

namespace FileEntry

/-- The entry of a file with the given times and sizes. -/
def ofPath (path root : Path) (mtime : Number) (size : Int) (owner group : Option String) :
    Except TimeError FileEntry := do
  let mtime ← Moment.ofSeconds mtime
  return { path, root, name := path.name, extension := path.extension, size, mtime, owner, group }

/-- The path below the crawl root, with a slash in front. -/
def virtualPath (e : FileEntry) : Except PathError String := do
  let below ← e.path.relativeTo e.root
  return if below.parts = [] then "/" else "/" ++ below.text

end FileEntry
end Indexer

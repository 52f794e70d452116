import Indexer.Settings.Basic

/-!
What a crawl leaves out, by name: hidden entries, files that only the desktop needs, and what the
settings list. The watcher judges by the same lists, but applies them to every part of a path.
-/
namespace Indexer

/-- Files that a desktop keeps about a directory. -/
def systemFiles : List String := [".DS_Store", "Thumbs.db", "desktop.ini"]

/-- An entry whose name starts with a dot is hidden. -/
def isHidden (name : String) : Bool := name.startsWith "."

namespace Settings

/-- A crawl does not go into such a directory. -/
def skipsDirectory (s : Settings) (name : String) : Bool :=
  isHidden name || s.skipDirs.contains name

/-- A crawl does not take up such a file. -/
def skipsFile (s : Settings) (name : String) : Bool :=
  systemFiles.contains name || isHidden name
    || s.skipExtensions.contains (Text.lower (Path.ofString name).suffix)

/-- The watcher does not report changes of such a path. -/
def ignoresPath (s : Settings) (path : Path) : Bool :=
  systemFiles.contains path.name || isHidden path.name
    || path.pieces.any s.skipDirs.contains
    || s.skipExtensions.contains (Text.lower path.suffix)

end Settings
end Indexer

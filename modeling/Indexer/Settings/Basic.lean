import Indexer.Fault.Basic
import Indexer.Digest.Basic
import Indexer.Path.Host

/-!
Settings of the indexer. Settings are normalized before use: paths become absolute, the address
loses its trailing slashes, and values that the indexer could not work with are refused.
-/
namespace Indexer

structure Settings where
  /-- The trees that are crawled. -/
  roots : List Path
  /-- The file of the crawl state. -/
  statePath : Path
  /-- The address of the search node. -/
  url : String
  /-- The name of the index. -/
  index : String
  username : Option String
  password : Option String
  /-- Operations in one bulk request. -/
  bulkSize : Quantity
  /-- Seconds after which a partial batch is sent. -/
  flushInterval : Quantity
  /-- Seconds that a bulk request may take. -/
  requestTimeout : Quantity
  /-- How often an operation is sent again after a passing failure. -/
  maxRetries : Quantity
  /-- Seconds of rest, for each attempt made, after a request that failed as a whole. -/
  retryBackoff : Quantity
  /-- Characters of a text that are indexed; below zero for all. -/
  indexedChars : Quantity
  /-- The name of the digest that contents are told apart by; none for modification times only. -/
  checksum : Option String
  /-- Documents carry the bytes of their file. -/
  storeSource : Bool
  scannerConcurrency : Quantity
  /-- Files that are read at a time. -/
  workerConcurrency : Quantity
  skipDirs : List String
  skipExtensions : List String
  /-- Milliseconds for which file events are gathered. -/
  debounceMs : Quantity

namespace Settings

/-- The settings before anybody chose any, for the user with the given home directory. -/
def initial (home : Path) : Settings where
  roots := [home.child "Documents"]
  statePath := (home.child ".crawler").child "state.db"
  url := "http://127.0.0.1:9200"
  index := "docs"
  username := none
  password := none
  bulkSize := .whole 100
  flushInterval := .number (.float 5.0)
  requestTimeout := .number (.float 30.0)
  maxRetries := .whole 3
  retryBackoff := .number (.float 1.0)
  indexedChars := .whole 100000
  checksum := some "xxh64"
  storeSource := false
  scannerConcurrency := .whole 32
  workerConcurrency := .whole 8
  skipDirs := [".git", ".svn", ".hg", "node_modules", "__pycache__", ".venv", "venv", ".idea",
    ".vscode", ".Trash", ".cache"]
  skipExtensions := [".lock", ".tmp", ".swp"]
  debounceMs := .whole 2000

/-- The text without the slashes at its end. -/
def dropTrailingSlashes (s : String) : String :=
  String.ofList ((s.toList.reverse.dropWhile (· = '/')).reverse)

/-- An empty name stands for no digest; any other has to be known. -/
def checkChecksum : Option String → Except SettingsError (Option String)
  | none => .ok none
  | some name =>
    if name = "" then .ok none
    else if (Digest.Algorithm.ofName? name).isSome then .ok (some name)
    else .error (.checksum name)

/-- Refuses settings that batching could not work with. -/
def checkLimits (s : Settings) : Except SettingsError Unit :=
  if s.bulkSize.isBelow 1 then .error (.bulkSize s.bulkSize)
  else if s.flushInterval.isAtMost 0 then .error (.flushInterval s.flushInterval)
  else if s.maxRetries.isBelow 0 then .error (.maxRetries s.maxRetries)
  else .ok ()

/-- Brings settings to the form they are used in. -/
def normalize (host : Host) (s : Settings) : Except Fault Settings := do
  let statePath ← (host.normalize s.statePath).mapError Fault.path
  let roots ← (s.roots.mapM host.normalize).mapError Fault.path
  let checksum ← (checkChecksum s.checksum).mapError Fault.settings
  (checkLimits s).mapError Fault.settings
  return { s with statePath, roots, checksum, url := dropTrailingSlashes s.url }

/-- The directory that has to be there for the crawl state. -/
def stateDirectory (s : Settings) : Path := s.statePath.parent

/-- The digest in use. -/
def algorithm? (s : Settings) : Option Digest.Algorithm := s.checksum.bind Digest.Algorithm.ofName?

end Settings
end Indexer

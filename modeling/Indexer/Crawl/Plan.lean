import Indexer.Bulk.Operation
import Indexer.Change
import Indexer.Content.Extract
import Indexer.File.Checksum
import Indexer.File.Scan

/-!
The plan of a crawl. What the crawl of a root does is settled by the tree, the settings and what is
recorded about the root; nothing the destination replies has a say in it. So the crawl is laid out
beforehand as a list of steps.

Files are taken in windows. Of a window only the recorded files are hashed, since a file without a
record is new whatever its checksum. Changed files are then read once: the checksum that is going to
be recorded is taken from the very bytes whose text is indexed. What is recorded but did not come up
in the scan is deleted in the end.
-/
namespace Indexer.Crawl

/-- One step of the crawl of a root. -/
inductive Step where
  | note (r : LogRecord)
  /-- A file came up in the scan. -/
  | scanned
  /-- A file is as it was recorded. -/
  | unchanged
  /-- A file could not be read or extracted. -/
  | skipped
  /-- The workers hash or extract. -/
  | wait
  | submit (op : Operation)
  /-- The crawl fails; what comes after is not reached. -/
  | fail (f : Fault)

/-- What the plan of a crawl rests on. -/
structure Basis where
  settings : Settings
  readers : Readers
  tree : FileTree
  root : Path
  /-- What is recorded about the root. -/
  prior : List Acknowledged
  now : DateTime

namespace Basis

/-- What is recorded about a file. -/
def recorded? (b : Basis) (e : FileEntry) : Option Acknowledged :=
  b.prior.find? (·.path = e.path.text)

/-- How a file has changed; none if its checksum was needed and could not be taken. -/
def change? (b : Basis) (hashed : List (FileEntry × Option String)) (e : FileEntry) :
    Option ChangeKind :=
  match b.recorded? e with
  | none => some .new
  | some p =>
    (hashed.find? (·.1.path = e.path)).map fun (_, checksum) =>
      ChangeKind.of e.mtime (some p) checksum

/-- What the crawl counts for a file that is not going to be indexed. -/
def verdict (change : Option ChangeKind) : List Step :=
  match change with
  | none => [.skipped]
  | some .unchanged => [.unchanged]
  | some _ => []

/-- The file is new or updated. -/
def isChanged (change : Option ChangeKind) : Bool :=
  match change with
  | some .new | some .updated => true
  | _ => false

/-- Reads a file and extracts its content. The checksum is that of the bytes read. -/
def take (b : Basis) (e : FileEntry) : Except Fault (ByteArray × Option String × Content) := do
  let raw ← b.tree.read e.path
  let content ← Content.extract b.readers raw (some e.name)
  return (raw, b.settings.algorithm?.map fun a => Checksum.ofBytes a raw, content)

/-- The operation that indexes a document. -/
def indexing (b : Basis) (e : FileEntry) (checksum : Option String) (doc : Document) :
    Operation where
  action := .index doc
  id := doc.id
  update := some {
    root := b.root.text
    path := e.path.text
    checksum
    lastModified := some e.mtime.local
    remove := false }
  attempts := 0

/-- The operation that deletes the document of a path. -/
def deletion (b : Basis) (path : String) : Operation where
  action := .delete
  id := documentId path
  update := some {
    root := b.root.text
    path
    checksum := none
    lastModified := none
    remove := true }
  attempts := 0

/-- The steps for a changed file. One that cannot be read or extracted is reported and left as it
is recorded, so the next crawl takes it up again. -/
def submission (b : Basis) (e : FileEntry) : List Step :=
  match b.take e with
  | .error f => [.note (f.report (some e.path) "extract"), .skipped]
  | .ok (raw, checksum, content) =>
    match Document.ofFile b.settings e content checksum (some raw) b.now with
    | .error f => [.fail f]
    | .ok doc => [.submit (b.indexing e checksum doc)]

/-- The steps for the changed files of a window. -/
def submissions (b : Basis) : List FileEntry → List Step
  | [] => []
  | e :: rest =>
    if b.settings.workerConcurrency.isAtMost 0 then [.fail .noWorkers]
    else .wait :: (e :: rest).flatMap b.submission

/-- The steps of the hashing of recorded files. -/
def hashing (b : Basis) (files : List FileEntry) (log : List LogRecord) : List Step :=
  if b.settings.algorithm?.isSome && !files.isEmpty then log.map .note ++ [.wait] else []

/-- The steps for a window of files. -/
def window (b : Basis) (files : List FileEntry) : List Step :=
  let known := files.filter fun e => (b.recorded? e).isSome
  match Checksum.ofFiles b.settings b.tree known with
  | .error f => [.fail f]
  | .ok (hashed, log) =>
    b.hashing known log
      ++ files.flatMap (fun e => verdict (b.change? hashed e))
      ++ b.submissions (files.filter fun e => isChanged (b.change? hashed e))

/-- The steps for the sightings of a scan, after files that do not fill a window yet. -/
def windows (b : Basis) : List FileEntry → List Sighting → List Step
  | [], [] => []
  | e :: rest, [] => b.window (e :: rest)
  | files, .file e :: rest =>
    if b.settings.workerConcurrency.isAtMost (files.length + 1) then
      .scanned :: (b.window (files ++ [e]) ++ b.windows [] rest)
    else .scanned :: b.windows (files ++ [e]) rest
  | files, .trouble r :: rest => .note r :: b.windows files rest
  | _, .broken f :: _ => [.fail f]

/-- The sightings of the root. -/
def sightings (b : Basis) : List Sighting := Scan.run b.settings b.tree b.root

/-- The path of a file that came up. -/
def livePath? : Sighting → Option String
  | .file e => some e.path.text
  | _ => none

/-- The paths that are recorded but did not come up. -/
def gone (b : Basis) : List String :=
  deletedPaths (b.prior.map (·.path)) (b.sightings.filterMap livePath?)

/-- The steps of the crawl. -/
def plan (b : Basis) : List Step :=
  b.windows [] b.sightings ++ b.gone.map fun path => .submit (b.deletion path)

end Basis
end Indexer.Crawl

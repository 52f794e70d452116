import Indexer.Exclusion
import Indexer.Fault.Policy
import Indexer.File.Entry
import Indexer.File.Tree

/-!
Scanning a tree. A scan is the list of its sightings in order: within a directory first the files by
name, then the subdirectories by name. What cannot be looked at is reported and passed over; a fault
that is not of the file system ends a scan, and so does any fault of the look at the root.
-/
namespace Indexer

/-- One thing that comes up during a scan. -/
inductive Sighting where
  | file (e : FileEntry)
  /-- Something could not be looked at. -/
  | trouble (r : LogRecord)
  /-- The scan ends here. -/
  | broken (f : Fault)

namespace Scan

/-- Faults of the file system are reported, all others end the scan. -/
def passOver (f : Fault) (path : Path) (activity : String) : Sighting :=
  if f.isOs then .trouble (f.report (some path) activity) else .broken f

/-- An owner or a group: none where it cannot be told. -/
def holder (fault : Option Fault) (name : Option String) : Except Fault (Option String) :=
  match fault with
  | none => .ok name
  | some f => if f.isKey || f.isNotImplemented || f.isOs then .ok none else .error f

/-- The look at a file that is not left out. -/
def lookAt (root : Path) (n : Node) : Sighting :=
  match n.statFault with
  | some f => passOver f n.path "stat"
  | none =>
    let entry : Except Fault FileEntry := do
      let owner ← holder n.ownerFault n.owner
      let group ← holder n.groupFault n.group
      (FileEntry.ofPath n.path root n.mtime n.size owner group).mapError .time
    match entry with
    | .ok e => .file { e with pathFault := n.pathFault }
    | .error f => passOver f n.path "scan_entry"

/-- What an entry of a directory contributes to the files of that directory. -/
def sightingOf (s : Settings) (root : Path) (n : Node) : Option Sighting :=
  match n.kindFault with
  | some f => some (passOver f n.path "scan_entry")
  | none =>
    match n.kind with
    | .file => if s.skipsFile n.name then none else some (lookAt root n)
    | _ => none

/-- An entry that the scan goes into after the files. -/
def isSubdirectory (s : Settings) (n : Node) : Bool :=
  n.kindFault.isNone && n.kind = .directory && !s.skipsDirectory n.name

/-- The sightings below a directory, down to the given depth. -/
def directory (s : Settings) (t : FileTree) (root : Path) : Nat → Path → List Sighting
  | 0, _ => []
  | depth + 1, dir =>
    match t.list dir with
    | .error f => [passOver f dir "scan_directory"]
    | .ok entries =>
      entries.filterMap (sightingOf s root)
        ++ (entries.filter (isSubdirectory s)).flatMap fun n => directory s t root depth n.path

/-- The sightings of a scan. -/
def run (s : Settings) (t : FileTree) (root : Path) : List Sighting :=
  if s.scannerConcurrency.isBelow 0 then [.broken .noScanners]
  else
    match t.isDirectory root with
    | .error f => [.broken f]
    | .ok true => directory s t root (t.depth + 1) root
    | .ok false => [.trouble ⟨.warning, "Root directory not found: " ++ root.text⟩]

/-- The files and the log of a scan, or the fault that ended it. -/
def collect : List Sighting → Except Fault (List FileEntry × List LogRecord)
  | [] => .ok ([], [])
  | .file e :: rest => (collect rest).map fun (files, log) => (e :: files, log)
  | .trouble r :: rest => (collect rest).map fun (files, log) => (files, r :: log)
  | .broken f :: _ => .error f

end Scan
end Indexer

import Indexer.File.Entry
import Indexer.Time.DateTime

/-!
Changes since the last crawl. Checksums win over modification times; only where one is missing does a
later modification time make a file count as updated. Crawls compare times that have been through the
store; times from anywhere else may turn out not to be comparable.
-/
namespace Indexer

/-- What the index has acknowledged about a file. -/
structure Acknowledged where
  path : String
  checksum : Option String
  lastModified : Moment
  lastIndexed : Moment
  deriving DecidableEq

inductive ChangeKind where
  | new
  | updated
  | unchanged
  deriving DecidableEq, Repr

namespace ChangeKind

def name : ChangeKind → String
  | new => "new"
  | updated => "updated"
  | unchanged => "unchanged"

/-- What the recorded and the present checksum say, where there are both. -/
def ofChecksums : Option String → Option String → Option ChangeKind
  | some recorded, some present => some (if recorded = present then .unchanged else .updated)
  | _, _ => none

/-- What the recorded and the present modification time say. -/
def ofTimes (recorded present : Moment) : ChangeKind :=
  if recorded.before present then .updated else .unchanged

/-- Compares a file with what is recorded about it. -/
def of (mtime : Moment) (prior : Option Acknowledged) (checksum : Option String) : ChangeKind :=
  match prior with
  | none => .new
  | some p => (ofChecksums p.checksum checksum).getD (ofTimes p.lastModified mtime)

/-- What times of any origin say. A time that is not known cannot be compared, and neither can a
time with an offset and one without. -/
def ofClocks : Option DateTime → Option DateTime → Except Fault ChangeKind
  | some recorded, some present =>
    if recorded.isComparable present then .ok (ofTimes recorded.instant present.instant)
    else .error .incomparable
  | _, _ => .error .incomparable

/-- Compares a file with a checksum and a time of any origin. -/
def ofRecord (mtime : Option DateTime) (prior : Option (Option String × Option DateTime))
    (checksum : Option String) : Except Fault ChangeKind :=
  match prior with
  | none => .ok .new
  | some (recorded, lastModified) =>
    match ofChecksums recorded checksum with
    | some kind => .ok kind
    | none => ofClocks lastModified mtime

end ChangeKind

/-- The recorded paths that are not among the live ones, in path order. -/
def deletedPaths (recorded live : List String) : List String :=
  (recorded.mergeSort (· ≤ ·)).filter fun p => !live.contains p

end Indexer

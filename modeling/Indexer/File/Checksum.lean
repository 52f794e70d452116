import Indexer.Fault.Policy
import Indexer.File.Entry
import Indexer.File.Tree
import Indexer.Settings.Basic

/-!
Checksums of file contents. A file is taken in piece by piece; bytes that are in memory already are
taken in at once. Both come to the same digest.
-/
namespace Indexer

namespace Checksum

/-- The size of the pieces a file is read in. -/
def pieceSize : Nat := 65536

/-- The pieces of a file from a position on. The piece after the last one is empty and ends the
reading. -/
def pieces (data : ByteArray) (pos : Nat) : List ByteArray :=
  if _h : pos < data.size then
    data.extract pos (pos + pieceSize) :: pieces data (pos + pieceSize)
  else []
termination_by data.size - pos
decreasing_by simp only [pieceSize]; omega

/-- The checksum of bytes that are read piece by piece. -/
def ofPieces (a : Digest.Algorithm) (data : ByteArray) : String :=
  ((pieces data 0).foldl Digest.Running.update (.start a)).hex

/-- The checksum of bytes in memory. -/
def ofBytes (a : Digest.Algorithm) (data : ByteArray) : String :=
  ((Digest.Running.start a).update data).hex

/-- The checksum of a file. -/
def ofFile (a : Digest.Algorithm) (t : FileTree) (p : Path) : Except Fault String :=
  (t.read p).map (ofPieces a)

/-- The checksums of several files in their order, with what could not be read left out and
reported. Without a digest every file counts and none is read. -/
def ofFiles (s : Settings) (t : FileTree) (files : List FileEntry) :
    Except Fault (List (FileEntry × Option String) × List LogRecord) :=
  match s.algorithm? with
  | none => .ok (files.map (·, none), [])
  | some a =>
    if files.isEmpty then .ok ([], [])
    else if s.workerConcurrency.isAtMost 0 then .error .noWorkers
    else
      let read := files.map fun e => (e, ofFile a t e.path)
      .ok
        (read.filterMap fun (e, r) => r.toOption.map fun c => (e, some c),
          read.filterMap fun (e, r) => match r with
            | .ok _ => none
            | .error f => some (f.report (some e.path) "hash_file"))

end Checksum
end Indexer

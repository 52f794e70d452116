import Indexer.Proofs.Crawl.Aftermath
import Indexer.Proofs.Crawl.Shares

/-! The checksums of a crawl. A recorded file is read in pieces to tell whether it
has changed, and a changed one is read at once to be indexed. What is compared and
what is recorded is the same function of the bytes that were read. -/
namespace Indexer.Crawl

open Digest

namespace Basis

variable {b : Basis} {a : Algorithm} {files : List FileEntry} {e : FileEntry}
  {hashed : List (FileEntry × Option String)} {log : List LogRecord} {p : Acknowledged}

/-- What a recorded file is found to be in its window. -/
theorem change?_of_recorded (hAlgorithm : b.settings.algorithm? = some a)
    (hHashed : Checksum.ofFiles b.settings b.tree (files.filter fun e => (b.recorded? e).isSome) =
      .ok (hashed, log))
    (he : e ∈ files) (hRecorded : b.recorded? e = some p) :
    b.change? hashed e = (b.tree.read e.path).toOption.map fun data =>
      ChangeKind.of e.mtime (some p) (some (Checksum.ofBytes a data)) := by
  rw [change?_eq_fate hHashed he]
  simp only [fate, hRecorded, present?, hAlgorithm, Option.map_map, Function.comp_def,
    Checksum.ofBytes_eq]

/-- What is going to be recorded about a file that is not deleted. -/
theorem checksum_of_plan (hAlgorithm : b.settings.algorithm? = some a) {op : Operation}
    (hOp : op ∈ submitted b.plan) {u : StateUpdate} (hUpdate : op.update = some u)
    (hKept : u.remove = false) :
    ∃ e data, .file e ∈ b.sightings ∧ u.path = e.path.text ∧ b.tree.read e.path = .ok data ∧
      u.checksum = some (Checksum.ofBytes a data) := by
  rcases update_of_plan hOp hUpdate with ⟨e, data, hSeen, hRead, rfl⟩ | ⟨path, _, rfl⟩
  · refine ⟨e, data, hSeen, rfl, hRead, ?_⟩
    rw [update, hAlgorithm, Option.map_some, Checksum.ofBytes_eq]
  · cases hKept

/-- Reading any bytes to their end takes in each of them once, so the pieces come to
the checksum of the bytes in memory. The checksum that a crawl compares with a record
and the one that it goes on to record are therefore the same function of the bytes
that were read. -/
theorem checksum_depends_on_bytes_alone (hAlgorithm : b.settings.algorithm? = some a) :
    (∀ data : ByteArray,
      (∀ parts, Checksum.ReadsOut data 0 parts ↔ parts = Checksum.pieces data 0) ∧
      (Checksum.pieces data 0).foldl (· ++ ·) ByteArray.empty = data ∧
      Checksum.ofPieces a data = Checksum.ofBytes a data) ∧
    (∀ path, Checksum.ofFile a b.tree path = (b.tree.read path).map (Checksum.ofBytes a)) ∧
    (∀ (files : List FileEntry) hashed log,
      Checksum.ofFiles b.settings b.tree (files.filter fun e => (b.recorded? e).isSome) =
        .ok (hashed, log) →
      ∀ e ∈ files, ∀ p, b.recorded? e = some p →
        b.change? hashed e = (b.tree.read e.path).toOption.map fun data =>
          ChangeKind.of e.mtime (some p) (some (Checksum.ofBytes a data))) ∧
    (∀ op ∈ submitted b.plan, ∀ u, op.update = some u → u.remove = false →
      ∃ e data, .file e ∈ b.sightings ∧ u.path = e.path.text ∧ b.tree.read e.path = .ok data ∧
        u.checksum = some (Checksum.ofBytes a data)) := by
  have hSame (data : ByteArray) : Checksum.ofPieces a data = Checksum.ofBytes a data := by
    rw [Checksum.ofPieces_eq, Checksum.ofBytes_eq]
  refine ⟨fun data => ⟨fun _ => Checksum.readsOut_iff, Checksum.join_pieces data, hSame data⟩, ?_,
    fun _ _ _ hHashed _ he _ hRecorded => change?_of_recorded hAlgorithm hHashed he hRecorded,
    fun _ hOp _ hUpdate hKept => checksum_of_plan hAlgorithm hOp hUpdate hKept⟩
  intro path
  rw [Checksum.ofFile, funext hSame]

/-- A file that ends together with its second piece. -/
def evenFile : ByteArray := ⟨Array.replicate (2 * Checksum.pieceSize) 7⟩

/-- What a scan tells about it. -/
def evenEntry : FileEntry :=
  ⟨⟨1, ["r", "a.bin"]⟩, ⟨1, ["r"]⟩, "a.bin", "bin", 2 * Checksum.pieceSize, ⟨0⟩, none, none, none⟩

/-- What is recorded about it. -/
def evenRecord : Acknowledged := ⟨"/r/a.bin", some "ef46db3751d8e999", ⟨0⟩, ⟨0⟩⟩

/-- A crawl over a tree with that file. -/
def evenBasis : Basis where
  settings := .initial ⟨0, []⟩
  readers := ⟨fun _ => .error .noHandler, fun _ => .error .noHandler⟩
  tree := ⟨[
    .plainDirectory ⟨1, ["r"]⟩,
    { Node.plainDirectory ⟨1, ["r", "a.bin"]⟩ with kind := .file, data := evenFile }]⟩
  root := ⟨1, ["r"]⟩
  prior := [evenRecord]
  now := ⟨⟨0⟩, none⟩

theorem evenFile_is_compared :
    evenBasis.settings.algorithm? = some .xxh64 ∧
      (Checksum.pieces evenFile 0).map ByteArray.size = [Checksum.pieceSize, Checksum.pieceSize] ∧
      ∃ hashed log,
        Checksum.ofFiles evenBasis.settings evenBasis.tree [evenEntry] = .ok (hashed, log) ∧
        evenBasis.change? hashed evenEntry =
          some (ChangeKind.of ⟨0⟩ (some evenRecord) (some (Checksum.ofBytes .xxh64 evenFile))) := by
  have hAlgorithm : evenBasis.settings.algorithm? = some .xxh64 := by decide
  have hRecorded : evenBasis.recorded? evenEntry = some evenRecord := by decide
  have hKnown : [evenEntry].filter (fun e => (evenBasis.recorded? e).isSome) = [evenEntry] :=
    List.filter_cons_of_pos (by rw [hRecorded]; rfl)
  have hRead : evenBasis.tree.read evenEntry.path = .ok evenFile := rfl
  have hSize : evenFile.size = 2 * Checksum.pieceSize := Array.size_replicate
  have hSizes :
      (Checksum.pieces evenFile 0).map ByteArray.size = [Checksum.pieceSize, Checksum.pieceSize] := by
    rw [Checksum.pieces, dif_pos (by rw [hSize]; decide), Checksum.pieces,
      dif_pos (by rw [hSize]; decide), Checksum.pieces_of_le (by rw [hSize]; decide)]
    simp only [List.map_cons, List.map_nil, ByteArray.size_extract, hSize]
    decide
  obtain ⟨hashed, log, hHashed⟩ :=
    hashed_of_workers (s := evenBasis.settings) (by decide) evenBasis.tree [evenEntry]
  obtain ⟨_, _, hCompared, _⟩ := checksum_depends_on_bytes_alone hAlgorithm
  have hChange := hCompared [evenEntry] hashed log (hKnown.symm ▸ hHashed) evenEntry
    (List.mem_singleton_self evenEntry) evenRecord hRecorded
  rw [hRead] at hChange
  exact ⟨hAlgorithm, hSizes, hashed, log, hHashed, hChange⟩

end Basis
end Indexer.Crawl

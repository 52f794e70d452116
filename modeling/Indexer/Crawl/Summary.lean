import Indexer.Bulk.Coordinator

/-!
The summary of a crawl: what the scan came across, and what became of the operations.
-/
namespace Indexer

structure Summary where
  scanned : Int
  unchanged : Int
  /-- Files that could not be read or extracted. -/
  skipped : Int
  tally : Tally
  seconds : Quantity

namespace Summary

def zero : Summary := ⟨0, 0, 0, .zero, .number (.float 0.0)⟩

/-- Adds another summary. The time stays. -/
def merge (a b : Summary) : Summary where
  scanned := a.scanned + b.scanned
  unchanged := a.unchanged + b.unchanged
  skipped := a.skipped + b.skipped
  tally := {
    indexed := a.tally.indexed + b.tally.indexed
    deleted := a.tally.deleted + b.tally.deleted
    retried := a.tally.retried + b.tally.retried
    failed := a.tally.failed ++ b.tally.failed }
  seconds := a.seconds

/-- The time as a double. A whole number may be too large for one. -/
def duration (s : Summary) : Except Fault Float :=
  let x := s.seconds.toFloat
  if s.seconds.toInt?.isSome && x.isInf then .error .longDuration else .ok x

/-- A summary in one line. -/
def text (s : Summary) : Except Fault String :=
  s.duration.map fun seconds =>
    "Indexed " ++ Text.signedDecimal s.tally.indexed ++ " documents ("
      ++ Text.signedDecimal s.tally.deleted ++ " deleted, "
      ++ Text.signedDecimal s.unchanged ++ " unchanged, "
      ++ Text.signedDecimal s.skipped ++ " extraction errors, "
      ++ Text.decimal s.tally.failed.length ++ " failed, "
      ++ Text.signedDecimal s.tally.retried ++ " retried) in "
      ++ Number.fixedPlaces 1 seconds ++ "s"

end Summary
end Indexer

import Indexer.Time.Moment
import Indexer.Number.Reading

/-!
Dates and times as somebody wrote them. A clock shows universal time unless its offset is known. With
the offset an instant is meant exactly, and so its seconds are the double nearest to it; without one
they come about as those of files do.
-/
namespace Indexer

/-- The reading of a clock and, where it is known, the clock's distance from universal time in
microseconds. -/
structure DateTime where
  wall : Moment
  offset : Option Int
  deriving DecidableEq, Repr

/-- A clock reading without an offset. -/
def Moment.local (m : Moment) : DateTime := ⟨m, none⟩

namespace DateTime

/-- The instant that is meant. -/
def instant (d : DateTime) : Moment := ⟨d.wall.micros - d.offset.getD 0⟩

/-- Both clocks have an offset, or neither has: only then can their readings be compared. -/
def isComparable (a b : DateTime) : Bool := a.offset.isSome == b.offset.isSome

/-- The double nearest to a number of microseconds, in seconds. -/
def nearestSeconds (micros : Int) : Float :=
  let x := Number.scientific micros.natAbs (-6)
  if micros < 0 then -x else x

/-- The seconds of a date and time since 1970. -/
def toSeconds (d : DateTime) : Except TimeError Float :=
  match d.offset with
  | none => d.wall.toSeconds
  | some _ => .ok (nearestSeconds d.instant.micros)

end DateTime
end Indexer

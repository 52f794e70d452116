/-!
The Gregorian calendar, carried on without end in both directions. Days are counted from the first
of January 1970. A year is taken to begin in March here, so that the leap day is its last day and
months before it have a fixed length pattern.
-/
namespace Indexer.Time

/-- A day of the calendar. -/
structure Date where
  year : Int
  month : Nat
  day : Nat
  deriving DecidableEq, Repr

/-- Days from 0000-03-01 to 1970-01-01. -/
def epochShift : Int := 719468

/-- The number of a day. -/
def Date.toDays (d : Date) : Int :=
  let y : Int := if d.month ≤ 2 then d.year - 1 else d.year
  let era := y.fdiv 400
  let yearOfEra := y - era * 400
  let monthFromMarch : Int := if d.month ≤ 2 then (d.month : Int) + 9 else (d.month : Int) - 3
  let dayOfYear := (153 * monthFromMarch + 2) / 5 + (d.day : Int) - 1
  era * 146097 + (yearOfEra * 365 + yearOfEra / 4 - yearOfEra / 100 + dayOfYear) - epochShift

/-- The day with a given number. -/
def Date.ofDays (n : Int) : Date :=
  let z := n + epochShift
  let era := z.fdiv 146097
  let dayOfEra := z - era * 146097
  let yearOfEra := (dayOfEra - dayOfEra / 1460 + dayOfEra / 36524 - dayOfEra / 146096) / 365
  let dayOfYear := dayOfEra - (365 * yearOfEra + yearOfEra / 4 - yearOfEra / 100)
  let monthFromMarch := (5 * dayOfYear + 2) / 153
  let day := dayOfYear - (153 * monthFromMarch + 2) / 5 + 1
  let month := if monthFromMarch < 10 then monthFromMarch + 3 else monthFromMarch - 9
  let year := yearOfEra + era * 400
  ⟨if month ≤ 2 then year + 1 else year, month.toNat, day.toNat⟩

def isLeapYear (y : Int) : Bool := y % 4 = 0 && (y % 100 ≠ 0 || y % 400 = 0)

def daysInMonth (y : Int) (m : Nat) : Nat :=
  if m = 2 then (if isLeapYear y then 29 else 28)
  else if m = 4 ∨ m = 6 ∨ m = 9 ∨ m = 11 then 30 else 31

example : Date.toDays ⟨1970, 1, 1⟩ = 0 ∧ Date.ofDays 0 = ⟨1970, 1, 1⟩ := by decide
example : Date.toDays ⟨2000, 2, 29⟩ = 11016 ∧ Date.ofDays 11016 = ⟨2000, 2, 29⟩ := by decide
example : Date.toDays ⟨1, 1, 1⟩ = -719162 ∧ Date.ofDays (-719163) = ⟨0, 12, 31⟩ := by decide

end Indexer.Time

import Indexer.Time.Civil
import Indexer.Number.Basic

/-!
Instants. The calendar of instants covers the years 1 to 9999 at a resolution of one microsecond.
Files and stores hold instants as seconds since 1970 in a double, and the two conversions round.
-/
namespace Indexer

/-- An instant: microseconds since 1970-01-01T00:00:00, universal time. -/
structure Moment where
  micros : Int
  deriving DecidableEq, Repr

/-- Why an instant cannot be converted. -/
inductive TimeError where
  /-- The year is not one of the calendar. -/
  | year (y : Int)
  /-- The year does not fit the machine's broken-down time. -/
  | calendar
  /-- The seconds do not fit the machine's clock. -/
  | clock
  /-- The seconds are no number. -/
  | nan
  deriving DecidableEq, Repr

def TimeError.message : TimeError → String
  | year y => "year " ++ Text.signedDecimal y ++ " is out of range"
  | calendar => "[Errno 75] Value too large for defined data type"
  | clock => "timestamp out of range for platform time_t"
  | nan => "Invalid value NaN (not a number)"

namespace Moment

open Indexer.Time

/-- Before one is after the other. -/
def before (a b : Moment) : Bool := a.micros < b.micros

def wholeSeconds (m : Moment) : Int := m.micros.fdiv 1000000

def microsecond (m : Moment) : Nat := (m.micros.fmod 1000000).toNat

def date (m : Moment) : Date := Date.ofDays (m.wholeSeconds.fdiv 86400)

/-- The first second of the calendar. -/
def firstSecond : Int := -62135596800

/-- Conversions look one day back, so the first day of the calendar cannot be converted. -/
def firstConvertible : Int := firstSecond + 86400

/-- The machine's clock counts seconds in 64 bits. -/
def clockLimit : Int := 9223372036854775808

/-- The machine's broken-down time counts years from 1900 in 32 bits. -/
def yearLimit : Int := 2147483648

/-- Whole seconds and microseconds to an instant. A year that is refused is told in 32 bits. -/
def ofParts (seconds : Int) (micro : Nat) : Except TimeError Moment :=
  if seconds < -clockLimit ∨ clockLimit ≤ seconds then .error .clock
  else
    let y := (Date.ofDays (seconds.fdiv 86400)).year
    if y < 1900 - yearLimit ∨ 1900 + yearLimit ≤ y then .error .calendar
    else if y < 1 ∨ 9999 < y then .error (.year (Int.bmod y 4294967296))
    else if seconds < firstConvertible then .error (.year 0)
    else .ok ⟨seconds * 1000000 + micro⟩

/-- The instant of a number of seconds. The part after the point becomes microseconds in double
arithmetic and is rounded to the nearest, a half to the even one. -/
def ofSeconds : Number → Except TimeError Moment
  | .int i => ofParts i 0
  | .float x =>
    if x.isNaN then .error .nan
    else
      match Number.truncate? x with
      | none => .error .clock
      | some whole =>
        let fraction := (x - Float.ofInt whole) * 1000000.0
        let micro := (Number.roundToInt? fraction).getD 0
        if 1000000 ≤ micro then ofParts (whole + 1) (micro - 1000000).toNat
        else if micro < 0 then ofParts (whole - 1) (micro + 1000000).toNat
        else ofParts whole micro.toNat

/-- The seconds of an instant as a double: whole seconds plus the fraction. -/
def toSeconds (m : Moment) : Except TimeError Float :=
  if m.wholeSeconds < firstConvertible then .error (.year 0)
  else .ok (Float.ofInt m.wholeSeconds + Float.ofNat m.microsecond / 1000000.0)

end Moment
end Indexer

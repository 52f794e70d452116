import Indexer.Time.DateTime

/-!
Dates and times as ISO 8601 text. One form is written: microseconds only where there are any, and an
offset from universal time only where one is known. All forms are read: with and without the marks
between the fields, and days by month or by week.
-/
namespace Indexer.Time

open Indexer.Text Indexer.Number

/-- `YYYY-MM-DDTHH:MM:SS`, then the microseconds if there are any. -/
def isoMoment (m : Moment) : String :=
  let d := m.date
  let s := (m.wholeSeconds.fmod 86400).toNat
  let fraction := if m.microsecond = 0 then "" else "." ++ zeroPadded 6 m.microsecond
  zeroPadded 4 d.year.toNat ++ "-" ++ zeroPadded 2 d.month ++ "-" ++ zeroPadded 2 d.day
    ++ "T" ++ zeroPadded 2 (s / 3600) ++ ":" ++ zeroPadded 2 (s / 60 % 60) ++ ":"
    ++ zeroPadded 2 (s % 60) ++ fraction

/-- `+HH:MM`, then the seconds and the microseconds if there are any. -/
def isoOffset (micros : Int) : String :=
  let n := micros.natAbs / 1000000
  let micro := micros.natAbs % 1000000
  let fraction := if micro = 0 then "" else "." ++ zeroPadded 6 micro
  let tail := if n % 60 = 0 ∧ micro = 0 then "" else ":" ++ zeroPadded 2 (n % 60) ++ fraction
  (if micros < 0 then "-" else "+") ++ zeroPadded 2 (n / 3600) ++ ":"
    ++ zeroPadded 2 (n / 60 % 60) ++ tail

/-- The ISO text of a date and time. -/
def iso (d : DateTime) : String :=
  isoMoment d.wall ++ (d.offset.map isoOffset).getD ""

/-- Reads a number of exactly `width` digits. -/
def readFixed? (width : Nat) (cs : List Char) : Option (Nat × List Char) :=
  let ds := cs.take width
  if ds.length = width && ds.all Char.isDigit then some (ofDigits ds, cs.drop width) else none

/-- The day number of a date in the years of the calendar. -/
def dayOfMonth? (y m d : Nat) : Option Int :=
  if y = 0 ∨ m = 0 ∨ 12 < m ∨ d = 0 ∨ daysInMonth y m < d then none
  else some (Date.toDays ⟨y, m, d⟩)

/-- The Monday of the first week of a year: the week that has the fourth of January in it. -/
def firstMonday (y : Int) : Int :=
  let d := Date.toDays ⟨y, 1, 4⟩
  d - (d + 3).fmod 7

/-- The day number of a weekday, which Monday is the first of, in a week of a year. -/
def dayOfWeek? (y week weekday : Nat) : Option Int :=
  let day := firstMonday y + 7 * ((week : Int) - 1) + weekday - 1
  if y = 0 ∨ week = 0 ∨ weekday = 0 ∨ 7 < weekday ∨ firstMonday (y + 1) ≤ day
      ∨ 9999 < (Date.ofDays day).year then none
  else some day

/-- Reads the week and the weekday of a date; without a weekday Monday is meant. -/
def readWeek? (y : Nat) (isMarked : Bool) (cs : List Char) : Option (Int × List Char) := do
  let (week, r) ← readFixed? 2 cs
  let weekday := match isMarked, r with
    | true, '-' :: d :: r =>
      if d.isDigit && !(r.head?.any Char.isDigit) then some (ofDigits [d], r) else none
    | false, d :: r => if d.isDigit then some (ofDigits [d], r) else none
    | _, _ => none
  let (weekday, r) := weekday.getD (1, r)
  (dayOfWeek? y week weekday).map fun day => (day, r)

/-- Reads a date as a day number. -/
def readDate? (cs : List Char) : Option (Int × List Char) := do
  let (y, r) ← readFixed? 4 cs
  match r with
  | '-' :: 'W' :: r => readWeek? y true r
  | 'W' :: r => readWeek? y false r
  | '-' :: r =>
    let (m, r) ← readFixed? 2 r
    let (d, r) ← readFixed? 2 (← if r.head? = some '-' then some r.tail else none)
    (dayOfMonth? y m d).map fun day => (day, r)
  | r =>
    let (m, r) ← readFixed? 2 r
    let (d, r) ← readFixed? 2 r
    (dayOfMonth? y m d).map fun day => (day, r)

/-- A time of day, or the length of an offset. -/
structure ClockTime where
  hours : Nat
  minutes : Nat
  seconds : Nat
  micros : Nat

namespace ClockTime

/-- Hours, minutes and seconds are in their range. -/
def isOfDay (t : ClockTime) : Bool := t.hours < 24 && t.minutes < 60 && t.seconds < 60

def wholeSeconds (t : ClockTime) : Nat := t.hours * 3600 + t.minutes * 60 + t.seconds

def toMicros (t : ClockTime) : Int := t.wholeSeconds * 1000000 + t.micros

end ClockTime

/-- Reads the next field of a time, of two digits and behind the mark if there are marks. -/
def readField? (isMarked : Bool) (cs : List Char) : Option (Nat × List Char) :=
  if isMarked then
    match cs with
    | ':' :: r => readFixed? 2 r
    | _ => none
  else readFixed? 2 cs

/-- The microseconds that the digits after the point stand for; further digits are dropped. -/
def fractionMicros (ds : List Char) : Nat :=
  ofDigits ((ds ++ List.replicate 6 '0').take 6)

/-- Reads the fraction of a second behind a point or a comma, if there is one. -/
def readFraction : List Char → Nat × List Char
  | c :: r =>
    if (c = '.' || c = ',') && r.head?.any Char.isDigit then
      (fractionMicros (r.takeWhile Char.isDigit), r.dropWhile Char.isDigit)
    else (0, c :: r)
  | [] => (0, [])

/-- Reads hours, then minutes and seconds as far as they are there, then a fraction. -/
def readTime? (cs : List Char) : Option (ClockTime × List Char) := do
  let (hours, r) ← readFixed? 2 cs
  let isMarked := r.head? = some ':'
  let (minutes, r, more) := match readField? isMarked r with
    | some (n, r) => (n, r, true)
    | none => (0, r, false)
  let (seconds, r) := ((if more then readField? isMarked r else none)).getD (0, r)
  let (micros, r) := readFraction r
  some (⟨hours, minutes, seconds, micros⟩, r)

/-- Reads an offset in microseconds, which ends the text. Less than a second is no offset, and a day
is too much. -/
def readOffset? : List Char → Option (Option Int)
  | [] => some none
  | ['Z'] => some (some 0)
  | c :: rest => do
    if c ≠ '+' ∧ c ≠ '-' then none
    else
      let (t, r) ← readTime? rest
      if !r.isEmpty || 86400 ≤ t.wholeSeconds then none
      else if t.wholeSeconds = 0 then some (some 0)
      else some (some (if c = '-' then -t.toMicros else t.toMicros))

/-- Reads the ISO text of a date and time. Any character may stand between the two. -/
def ofIso? (text : String) : Option DateTime := do
  let (day, r) ← readDate? text.toList
  let midnight := day * 86400000000
  match r with
  | [] => some ⟨⟨midnight⟩, none⟩
  | _ :: r =>
    let (t, r) ← readTime? r
    let offset ← readOffset? r
    if t.isOfDay then some ⟨⟨midnight + t.toMicros⟩, offset⟩ else none

end Indexer.Time

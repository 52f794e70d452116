import Indexer.Number.Basic
import Indexer.Text.Blank

/-!
Numerals in settings. White space may surround them, digits may come from any script, and single
underscores may stand between digits.
-/
namespace Indexer.Number

open Indexer.Text

/-- Replaces every decimal digit by its ASCII form. -/
def plainDigits (cs : List Char) : List Char :=
  cs.map fun c => match digitValue? c with
    | some d => asciiDigit d
    | none => c

/-- Removes the underscores, each of which has to stand between two digits. `prior` says whether
the character before was a digit. -/
def dropGroupMarks? (prior : Bool) : List Char → Option (List Char)
  | [] => some []
  | '_' :: c :: rest =>
    if prior && c.isDigit then (dropGroupMarks? true rest).map (c :: ·) else none
  | c :: rest => if c = '_' then none else (dropGroupMarks? c.isDigit rest).map (c :: ·)

/-- The sign at the front of a numeral, and the rest. -/
def splitSign : List Char → Bool × List Char
  | '-' :: rest => (true, rest)
  | '+' :: rest => (false, rest)
  | cs => (false, cs)

/-- The number that a run of ASCII digits stands for. -/
def ofDigits (cs : List Char) : Nat :=
  cs.foldl (fun n c => 10 * n + (c.toNat - 48)) 0

/-- A numeral brought to ASCII, without its blanks and underscores. -/
def plainNumeral? (s : String) : Option (List Char) :=
  dropGroupMarks? false (plainDigits (trimChars isNumeralBlank s.toList))

/-- Reads a whole number. -/
def readInt? (s : String) : Option Int := do
  let cs ← plainNumeral? s
  let (negative, ds) := splitSign cs
  if ds.isEmpty || !ds.all Char.isDigit then none
  else
    let n : Int := ofDigits ds
    some (if negative then -n else n)

/-- The digits that a whole number may have. Reading more of them would take too long. -/
def maxDigits : Nat := 4300

/-- The number of digits at the front of a numeral without its sign, if no underscore among them is
out of place. -/
def leadingDigits? (cs : List Char) : Option Nat :=
  (dropGroupMarks? false (cs.takeWhile fun c => c.isDigit || c = '_')).map List.length

/-- The number of digits of a whole number that has too many. What comes after them does not
matter. -/
def excessDigits? (s : String) : Option Nat :=
  (leadingDigits? (splitSign (plainDigits (trimChars isNumeralBlank s.toList))).2).filter
    (maxDigits < ·)

/-- The double nearest to `mantissa · 10 ^ exponent`. Exponents beyond the range of doubles are
settled before any power is taken. -/
def scientific (mantissa : Nat) (exponent : Int) : Float :=
  if mantissa = 0 then 0.0
  else
    let top := exponent + (decimalDigits mantissa).length
    if 400 < top then Float.ofScientific 1 false 400
    else if top < -400 then 0.0
    else if exponent < 0 then Float.ofScientific mantissa true (-exponent).toNat
    else Float.ofScientific mantissa false exponent.toNat

/-- An exponent part: `e`, an optional sign and digits, up to the end. -/
def readExponent? : List Char → Option Int
  | [] => some 0
  | e :: rest =>
    if e = 'e' || e = 'E' then
      let (negative, ds) := splitSign rest
      if ds.isEmpty || !ds.all Char.isDigit then none
      else
        let n : Int := ofDigits ds
        some (if negative then -n else n)
    else none

/-- A decimal without a sign: digits, a point that may lack digits on one side, an exponent. -/
def readDecimal? (cs : List Char) : Option Float := do
  let whole := cs.takeWhile Char.isDigit
  let rest := cs.dropWhile Char.isDigit
  let (fraction, tail) := match rest with
    | '.' :: r => (r.takeWhile Char.isDigit, r.dropWhile Char.isDigit)
    | r => ([], r)
  if whole.isEmpty && fraction.isEmpty then none
  else
    let e ← readExponent? tail
    some (scientific (ofDigits (whole ++ fraction)) (e - fraction.length))

/-- Reads a double: a decimal, or the name of an infinity or of no number in any case. -/
def readFloat? (s : String) : Option Float := do
  let cs ← plainNumeral? s
  let (negative, body) := splitSign cs
  let name := body.map Char.toLower
  let x ←
    if name = "inf".toList || name = "infinity".toList then some (1.0 / 0.0)
    else if name = "nan".toList then some (0.0 / 0.0)
    else readDecimal? body
  some (if negative then -x else x)

end Indexer.Number

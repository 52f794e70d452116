import Indexer.Number.Shortest
import Indexer.Text.Digit

/-!
Doubles as text: the shortest decimal that reads back, and a fixed number of places.
-/
namespace Indexer.Number

open Indexer.Text

/-- How a shortest decimal is laid out: the decimal exponents between the two bounds are written
with a point, all others with an exponent of at least `exponentDigits` digits. -/
structure DecimalLayout where
  least : Int
  most : Int
  exponentDigits : Nat
  nan : String
  infinity : String

/-- Doubles in messages and answers: a point from one ten-thousandth up to below 10 ^ 16. -/
def plainLayout : DecimalLayout :=
  { least := -4, most := 15, exponentDigits := 2, nan := "nan", infinity := "inf" }

/-- Doubles in JSON text differ in the names of the values that JSON itself does not have. -/
def jsonLayout : DecimalLayout := { plainLayout with nan := "NaN", infinity := "Infinity" }

/-- Lays out the digits `ds` whose first digit has the decimal exponent `e`. -/
def DecimalLayout.place (l : DecimalLayout) (ds : List Char) (e : Int) : List Char :=
  if l.least ≤ e ∧ e ≤ l.most then
    if e < 0 then
      ['0', '.'] ++ List.replicate ((-e).toNat - 1) '0' ++ ds
    else
      let whole := e.toNat + 1
      if ds.length ≤ whole then
        ds ++ List.replicate (whole - ds.length) '0' ++ ['.', '0']
      else ds.take whole ++ ['.'] ++ ds.drop whole
  else
    let mantissa :=
      match ds with
      | [] => []
      | [d] => [d]
      | d :: rest => d :: '.' :: rest
    let exponent := decimalDigits e.natAbs
    mantissa ++ ['e', if e < 0 then '-' else '+']
      ++ List.replicate (l.exponentDigits - exponent.length) '0' ++ exponent

/-- The text of a double. -/
def DecimalLayout.render (l : DecimalLayout) (x : Float) : String :=
  let sign (negative : Bool) (s : String) : String := if negative then "-" ++ s else s
  match dyadic x with
  | .nan => l.nan
  | .infinite negative => sign negative l.infinity
  | .finite negative m q =>
    if m = 0 then sign negative "0.0"
    else
      let d := shortest m q
      let ds := decimalDigits d.digits
      sign negative (String.ofList (l.place ds (d.scale + ds.length - 1)))

/-- The text of a double with a fixed number of places. The exact value is rounded, a half to the
even neighbour. -/
def fixedPlaces (places : Nat) (x : Float) : String :=
  let sign (negative : Bool) (s : String) : String := if negative then "-" ++ s else s
  match dyadic x with
  | .nan => "nan"
  | .infinite negative => sign negative "inf"
  | .finite negative m q =>
    let (num, den) := dyadicRatio m q
    let unit := Nat.pow 10 places
    let r := roundHalfEven (num * unit) den
    let whole := decimal (r / unit)
    sign negative <|
      if places = 0 then whole else whole ++ "." ++ zeroPadded places (r % unit)

end Indexer.Number

/-!
The value of a double as an exact dyadic number. Everything that is written or rounded exactly
starts from here and goes on in whole numbers.
-/
namespace Indexer.Number

/-- What a double stands for: `m · 2 ^ q` with a sign, or one of the values that are no number. -/
inductive Dyadic where
  | nan
  | infinite (negative : Bool)
  | finite (negative : Bool) (m : Nat) (q : Int)
  deriving Repr, DecidableEq

/-- The leading bit of normal values, two to the 52nd, which is not written out. -/
def hiddenBit : Nat := 4503599627370496

/-- Splits a double into its fields. Subnormal values share the exponent of the least normal ones. -/
def dyadic (x : Float) : Dyadic :=
  let bits : Nat := x.toBits.toNat
  let negative := bits >>> 63 % 2 == 1
  let exponent : Nat := bits >>> 52 % 2048
  let fraction : Nat := bits % hiddenBit
  if exponent = 2047 then
    if fraction = 0 then .infinite negative else .nan
  else if exponent = 0 then .finite negative fraction (-1074)
  else .finite negative (fraction + hiddenBit) ((exponent : Int) - 1075)

/-- A non-negative rational as a pair of numerator and denominator: `m · 2 ^ q`. -/
def dyadicRatio (m : Nat) (q : Int) : Nat × Nat :=
  (m <<< q.toNat, 1 <<< (-q).toNat)

/-- The quotient rounded to the nearest whole number, a half to the even neighbour. -/
def roundHalfEven (num den : Nat) : Nat :=
  let d := num / den
  let r := num % den
  if 2 * r < den then d
  else if 2 * r > den then d + 1
  else if d % 2 = 0 then d else d + 1

/-- The whole number nearest to a double, a half to the even neighbour. -/
def roundToInt? (x : Float) : Option Int :=
  match dyadic x with
  | .finite negative m q =>
    let (num, den) := dyadicRatio m q
    let r : Int := roundHalfEven num den
    some (if negative then -r else r)
  | _ => none

/-- The part of a double before the point, cut toward zero. -/
def truncate? (x : Float) : Option Int :=
  match dyadic x with
  | .finite negative m q =>
    let (num, den) := dyadicRatio m q
    let r : Int := (num / den : Nat)
    some (if negative then -r else r)
  | _ => none

end Indexer.Number

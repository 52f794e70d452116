import Indexer.Number.Binary64

/-!
The shortest decimal that reads back as a given double. A decimal reads back exactly if it lies in
the interval of numbers that round to the double, so the search goes through the decimal grids from
coarse to fine and tests the two grid points next to the value.
-/
namespace Indexer.Number

/-- The decimal exponent of a positive rational: the `e` with `10 ^ e ≤ num / den < 10 ^ (e + 1)`. -/
def decimalExponent (num den : Nat) : Int :=
  if den ≤ num then ((Nat.toDigits 10 (num / den)).length : Int) - 1
  else -((Nat.toDigits 10 ((den - 1) / num)).length : Int)

/-- A decimal `digits · 10 ^ scale`. -/
structure Decimal where
  digits : Nat
  scale : Int
  deriving Repr, DecidableEq

/-- Moves trailing zeros of the digits into the scale. -/
def Decimal.normalize (d : Decimal) : Nat → Decimal
  | 0 => d
  | fuel + 1 =>
    if d.digits ≠ 0 ∧ d.digits % 10 = 0 then
      Decimal.normalize ⟨d.digits / 10, d.scale + 1⟩ fuel
    else d

/-- The interval of the numbers that round to `m · 2 ^ q`, in quarters of a unit of the last place:
`low ≤ x ≤ high` over `den`, with the ends included iff `m` is even. -/
structure Neighbourhood where
  value : Nat
  low : Nat
  high : Nat
  den : Nat
  closed : Bool

/-- Below a power of two the neighbouring double is only half as far away. -/
def neighbourhood (m : Nat) (q : Int) : Neighbourhood :=
  let (unit, den) := dyadicRatio 1 (q - 2)
  let below := if m = hiddenBit ∧ q ≠ -1074 then 1 else 2
  { value := 4 * m * unit, low := (4 * m - below) * unit, high := (4 * m + 2) * unit, den,
    closed := m % 2 = 0 }

/-- The grid point nearest to the value among its two neighbours on the grid of step
`10 ^ scale`, if one of them lies in the interval. A tie goes to the even digit. -/
def Neighbourhood.onGrid? (n : Neighbourhood) (scale : Int) : Option Nat :=
  let up := Nat.pow 10 (-scale).toNat
  let unit := n.den * Nat.pow 10 scale.toNat
  let v := n.value * up
  let lo := n.low * up
  let hi := n.high * up
  let d := v / unit
  let below := d ≠ 0 ∧ (if n.closed then lo ≤ d * unit else lo < d * unit)
  let above := if n.closed then (d + 1) * unit ≤ hi else (d + 1) * unit < hi
  if below then
    if above then
      let r := v - d * unit
      if 2 * r < unit then some d
      else if unit < 2 * r then some (d + 1)
      else if d % 2 = 0 then some d else some (d + 1)
    else some d
  else if above then some (d + 1) else none

/-- The first grid with a hit, trying `count`, `count + 1`, … digits. -/
def Neighbourhood.search (n : Neighbourhood) (exponent : Int) (count : Nat) : Nat → Decimal
  | 0 => ⟨n.value / n.den, 0⟩
  | fuel + 1 =>
    let scale := exponent - count + 1
    match n.onGrid? scale with
    | some d => ⟨d, scale⟩
    | none => n.search exponent (count + 1) fuel

/-- The shortest decimal that reads back as `m · 2 ^ q`, for `m` positive. Seventeen digits always
do. -/
def shortest (m : Nat) (q : Int) : Decimal :=
  let n := neighbourhood m q
  (n.search (decimalExponent n.value n.den) 1 18).normalize 20

example : shortest (2 ^ 52) (-52) = ⟨1, 0⟩ := by decide +kernel
example : shortest 1 (-1074) = ⟨5, -324⟩ := by decide +kernel

end Indexer.Number

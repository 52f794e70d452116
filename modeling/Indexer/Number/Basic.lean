import Indexer.Number.Text

/-!
Numbers that remember whether they were given as a whole number or as a double.
-/
namespace Indexer

/-- A number as it stands in settings and messages: `7` and `7.0` are different. -/
inductive Number where
  | int (i : Int)
  | float (x : Float)

namespace Number

def toFloat : Number → Float
  | int i => Float.ofInt i
  | float x => x

def render : Number → String
  | int i => Text.signedDecimal i
  | float x => plainLayout.render x

/-- How a number stands to a whole number. The value that is no number stands to none. Doubles are
compared exactly, whatever the size of the whole number. -/
def compareInt : Number → Int → Option Ordering
  | int a, b => some (compare a b)
  | float x, b =>
    match dyadic x with
    | .nan => none
    | .infinite negative => some (if negative then .lt else .gt)
    | .finite negative m q =>
      let (num, den) := dyadicRatio m q
      some (compare (if negative then -(num : Int) else num) (b * den))

/-- Only the double that is no number stands to no whole number. -/
theorem compareInt_float_eq_none_iff {x : Float} {i : Int} :
    (float x).compareInt i = none ↔ dyadic x = .nan := by
  rw [compareInt]
  cases dyadic x <;> simp

theorem compareInt_eq_lt_of_le {n : Number} {i j : Int} (h : n.compareInt i = some .lt)
    (hij : i ≤ j) : n.compareInt j = some .lt := by
  cases n with
  | int a =>
    simp only [compareInt, Option.some.injEq, Int.compare_eq_lt] at h ⊢
    omega
  | float x =>
    simp only [compareInt] at h ⊢
    split at h
    · cases h
    · exact h
    · simp only [Option.some.injEq, Int.compare_eq_lt] at h ⊢
      exact Int.lt_of_lt_of_le h (Int.mul_le_mul_of_nonneg_right hij (Int.natCast_nonneg _))

theorem compareInt_eq_gt_of_le {n : Number} {i j : Int} (h : n.compareInt j = some .gt)
    (hij : i ≤ j) : n.compareInt i = some .gt := by
  cases n with
  | int a =>
    simp only [compareInt, Option.some.injEq, Int.compare_eq_gt] at h ⊢
    omega
  | float x =>
    simp only [compareInt] at h ⊢
    split at h
    · cases h
    · exact h
    · simp only [Option.some.injEq, Int.compare_eq_gt] at h ⊢
      exact Int.lt_of_le_of_lt (Int.mul_le_mul_of_nonneg_right hij (Int.natCast_nonneg _)) h

end Number
end Indexer

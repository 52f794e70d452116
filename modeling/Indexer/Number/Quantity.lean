import Indexer.Number.Basic

/-!
Quantities: how many, how long, how often. Whoever states one may give a whole number, a double, or a
switch, and each shows in messages as it was given. A quantity is only ever held against whole
numbers, and that exactly.
-/
namespace Indexer

/-- A number, or a switch that counts as one or zero. -/
inductive Quantity where
  | number (n : Number)
  | flag (b : Bool)

namespace Quantity

def whole (i : Int) : Quantity := .number (.int i)

def toNumber : Quantity → Number
  | number n => n
  | flag b => .int (if b then 1 else 0)

def toFloat (q : Quantity) : Float := q.toNumber.toFloat

/-- A quantity in a message. -/
def render : Quantity → String
  | number n => n.render
  | flag b => if b then "True" else "False"

/-- How a quantity stands to a whole number, if it does at all. -/
def compareInt (q : Quantity) (i : Int) : Option Ordering := q.toNumber.compareInt i

def isBelow (q : Quantity) (i : Int) : Bool := q.compareInt i = some .lt

def isAbove (q : Quantity) (i : Int) : Bool := q.compareInt i = some .gt

def isExactly (q : Quantity) (i : Int) : Bool := q.compareInt i = some .eq

def isAtMost (q : Quantity) (i : Int) : Bool := q.isBelow i || q.isExactly i

def isAtLeast (q : Quantity) (i : Int) : Bool := q.isAbove i || q.isExactly i

/-- The quantity is one of some whole numbers. -/
def isOneOf (q : Quantity) (values : List Int) : Bool := values.any q.isExactly

/-- The whole number that a quantity was given as; a double is none even without a fraction. -/
def toInt? (q : Quantity) : Option Int :=
  match q.toNumber with
  | .int i => some i
  | .float _ => none

theorem isBelow_of_le {q : Quantity} {i j : Int} (h : q.isBelow i = true) (hij : i ≤ j) :
    q.isBelow j = true := by
  simp only [isBelow, decide_eq_true_eq] at h ⊢
  exact Number.compareInt_eq_lt_of_le h hij

theorem isAbove_of_le {q : Quantity} {i j : Int} (h : q.isAbove j = true) (hij : i ≤ j) :
    q.isAbove i = true := by
  simp only [isAbove, decide_eq_true_eq] at h ⊢
  exact Number.compareInt_eq_gt_of_le h hij

/-- Nothing is below a number and at least that. -/
theorem isBelow_eq_false_of_isAtLeast {q : Quantity} {i : Int} (h : q.isAtLeast i = true) :
    q.isBelow i = false := by
  simp only [isAtLeast, isAbove, isExactly, Bool.or_eq_true, decide_eq_true_eq] at h
  rcases h with h | h <;> simp [isBelow, h]

theorem isBelow_eq_false_of_isAtMost {q : Quantity} {i : Int} (h : q.isAtMost i = false) :
    q.isBelow i = false := (Bool.or_eq_false_iff.mp h).1

theorem isAbove_eq_not_isAtMost {q : Quantity} {i : Int} (h : q.compareInt i ≠ none) :
    q.isAbove i = !q.isAtMost i := by
  rw [isAbove, isAtMost, isBelow, isExactly]
  cases hOrder : q.compareInt i with
  | none => exact absurd hOrder h
  | some o => cases o <;> rfl

theorem isAtLeast_eq_not_isBelow {q : Quantity} {i : Int} (h : q.compareInt i ≠ none) :
    q.isAtLeast i = !q.isBelow i := by
  rw [isAtLeast, isAbove, isBelow, isExactly]
  cases hOrder : q.compareInt i with
  | none => exact absurd hOrder h
  | some o => cases o <;> rfl

theorem isBelow_whole (a i : Int) : (whole a).isBelow i = decide (a < i) := by
  simp [isBelow, compareInt, whole, toNumber, Number.compareInt, Int.compare_eq_lt]

theorem compareInt_of_toInt? {q : Quantity} {n : Int} (h : q.toInt? = some n) (i : Int) :
    q.compareInt i = some (compare n i) := by
  unfold toInt? at h
  rw [compareInt]
  cases hNumber : q.toNumber with
  | int k =>
      obtain rfl : k = n := by simpa [hNumber] using h
      rfl
  | float x => simp [hNumber] at h

theorem isBelow_of_toInt? {q : Quantity} {n : Int} (h : q.toInt? = some n) (i : Int) :
    q.isBelow i = decide (n < i) := by
  simp [isBelow, compareInt_of_toInt? h, Int.compare_eq_lt]

theorem isExactly_of_toInt? {q : Quantity} {n : Int} (h : q.toInt? = some n) (i : Int) :
    q.isExactly i = decide (n = i) := by
  simp [isExactly, compareInt_of_toInt? h]

theorem isAtLeast_of_toInt? {q : Quantity} {n : Int} (h : q.toInt? = some n) (i : Int) :
    q.isAtLeast i = decide (i ≤ n) := by
  simp only [isAtLeast, isAbove, isExactly_of_toInt? h, compareInt_of_toInt? h,
    Option.some.injEq, Int.compare_eq_gt]
  rw [Bool.eq_iff_iff, Bool.or_eq_true, decide_eq_true_eq, decide_eq_true_eq, decide_eq_true_eq]
  omega

theorem isOneOf_of_toInt? {q : Quantity} {n : Int} (h : q.toInt? = some n) (values : List Int) :
    q.isOneOf values = decide (n ∈ values) := by
  rw [Bool.eq_iff_iff, isOneOf, List.any_eq_true]
  simp [isExactly_of_toInt? h]

example : (whole 3).isBelow 4 ∧ (whole 3).isAtMost 3 ∧ ¬ (whole 3).isAbove 3 := by decide
example : (flag true).isExactly 1 ∧ (flag false).isBelow 1 := by decide

end Quantity
end Indexer

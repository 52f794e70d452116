/-!
Sets of characters given by ranges of code points. The Unicode properties the indexer relies on are
tables of this shape, one module per property.
-/
namespace Indexer.Text

/-- A set of characters: inclusive ranges of code points, in rising order. -/
structure CharSet where
  ranges : List (Nat × Nat)

/-- Membership is a walk over the ranges. -/
def CharSet.contains (s : CharSet) (c : Char) : Bool :=
  s.ranges.any fun (lo, hi) => lo ≤ c.toNat && c.toNat ≤ hi

/-- What holds of each of the ASCII characters holds of a character that is one. -/
@[elab_as_elim]
theorem ascii_cases {motive : Char → Prop} {c : Char}
    (hTable : ∀ n : Fin 128, motive (Char.ofNat n)) (hAscii : c.toNat < 128) : motive c := by
  simpa using hTable ⟨c.toNat, hAscii⟩

theorem ascii_of_isUpper {c : Char} (h : c.isUpper = true) : c.toNat < 128 := by
  have hLast : c.val ≤ 90 := (of_decide_eq_true h).2
  exact Nat.lt_of_le_of_lt (UInt32.le_iff_toNat_le.1 hLast) (by decide)

end Indexer.Text

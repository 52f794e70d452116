import Indexer.Text.CharSet

/-!
White space. Trimming uses the whole Unicode class, which counts the four separator controls
U+001C to U+001F; numerals are read with a narrower class that does not.
-/
namespace Indexer.Text

/-- The white space characters of Unicode, with the separator controls. -/
def blanks : CharSet := ⟨[
  (0x9, 0xD), (0x1C, 0x20), (0x85, 0x85), (0xA0, 0xA0), (0x1680, 0x1680), (0x2000, 0x200A),
  (0x2028, 0x2029), (0x202F, 0x202F), (0x205F, 0x205F), (0x3000, 0x3000)]⟩

def isBlank (c : Char) : Bool := blanks.contains c

/-- White space that may surround a numeral: the separator controls are not part of it. -/
def isNumeralBlank (c : Char) : Bool := isBlank c && !(0x1C ≤ c.toNat && c.toNat ≤ 0x1F)

/-- Drops the characters of a class at both ends. -/
def trimChars (p : Char → Bool) (cs : List Char) : List Char :=
  ((cs.dropWhile p).reverse.dropWhile p).reverse

/-- Drops the white space at both ends. -/
def trim (s : String) : String := String.ofList (trimChars isBlank s.toList)

example : isBlank ' ' ∧ isBlank '\n' ∧ isBlank '\u00a0' ∧ isBlank '\u3000' := by decide
example : isBlank '\u200b' = false ∧ isBlank '\ufeff' = false ∧ isBlank ',' = false := by decide
example : isBlank '\x1c' = true ∧ isNumeralBlank '\x1c' = false := by decide

end Indexer.Text

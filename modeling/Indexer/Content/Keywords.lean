import Indexer.Text.Blank
import Indexer.Text.Split

/-!
Keyword lists. Entries are separated by commas or semicolons; white space around an entry does not
count, and blank entries are no entries.
-/
namespace Indexer.Keywords

/-- The characters between two entries. -/
def isSeparator (c : Char) : Bool := c = ',' || c = ';'

/-- The entries of a list, without the blank ones. -/
def entries (cs : List Char) : List (List Char) :=
  ((Text.splitAt isSeparator cs).map (Text.trimChars Text.isBlank)).filter (· ≠ [])

/-- Reads a list. A list without entries says nothing. -/
def ofText? (s : String) : Option (List String) :=
  match entries s.toList with
  | [] => none
  | es => some (es.map String.ofList)

example : entries [' ', 'a', ',', ';', 'b'] = [['a'], ['b']] := by decide
example : entries [' ', ';', ','] = [] := by decide

end Indexer.Keywords
